import Mathlib
import FazerBridge.Lib.Floating
import FazerBridge.Lib.Ranking

/-!
# Title normalisation

The pure half of `app/services/text.py`: a title is split into `core`,
`platform`, `region`, `denomination`, `tokens` and `edition`.

Titles are lists of characters.  What the code takes from Python's Unicode
tables (`unicodedata.normalize`, `str.lower`, the `\d`, `\s` and `\w` classes)
is a `Unicode` record; `Unicode.ascii` is what those tables say on ASCII text.
Amounts are Python floats, as `float` reads them.  A regular expression of the source
is a function that tries its pattern at one position, run leftmost first by `search`.
-/

namespace FazerBridge

/-- A Python `str`. -/
abbrev Text := List Char

instance : LawfulBEq Text := inferInstance

/-- What `str`, `re` and `unicodedata` say about characters. -/
structure Unicode where
  /-- Compatibility decomposition of one character. -/
  nfkd : Char → Text
  /-- `unicodedata.combining` is not zero. -/
  combining : Char → Bool
  lower : Text → Text
  upper : Text → Text
  /-- `\d` -/
  isDecimal : Char → Bool
  digitValue : Char → ℕ
  /-- `\s` -/
  isSpace : Char → Bool
  /-- `\w` -/
  isWord : Char → Bool

/-- The tables restricted to ASCII. -/
def Unicode.ascii : Unicode where
  nfkd c := [c]
  combining _ := false
  lower := List.map Char.toLower
  upper := List.map Char.toUpper
  isDecimal := Char.isDigit
  digitValue c := c.toNat - '0'.toNat
  isSpace := Char.isWhitespace
  isWord c := c.isAlphanum || c == '_'

namespace Text

/-! ## Strings -/

/-- `needle in hay` -/
def isIn (needle hay : Text) : Bool := hay.tails.any needle.isPrefixOf

/-- `hay.replace(old, new)` with `old` not empty; the counter skips the rest of
an occurrence that was just replaced. -/
def replaceFrom (old new : Text) : ℕ → Text → Text
  | _, [] => []
  | n + 1, _ :: cs => replaceFrom old new n cs
  | 0, c :: cs =>
    if old.isPrefixOf (c :: cs) then new ++ replaceFrom old new (old.length - 1) cs
    else c :: replaceFrom old new 0 cs

def replace (old new hay : Text) : Text := replaceFrom old new 0 hay

/-- `hay.split()` for text whose only white space is the blank; the accumulator
holds the word being read, last character first. -/
def splitFrom : Text → Text → List Text
  | acc, [] => if acc.isEmpty then [] else [acc.reverse]
  | acc, c :: cs =>
    if c = ' ' then (if acc.isEmpty then splitFrom [] cs else acc.reverse :: splitFrom [] cs)
    else splitFrom (c :: acc) cs

def split (hay : Text) : List Text := splitFrom [] hay

/-- `" ".join(words)` -/
def join : List Text → Text
  | [] => []
  | [w] => w
  | w :: ws => w ++ ' ' :: join ws

/-- `re.sub(r"\s+", " ", hay).strip()` -/
def collapse (hay : Text) : Text := join (split hay)

/-- `f" {s} "` -/
def pad (s : Text) : Text := ' ' :: s ++ [' ']

/-- `re.search`: the first position of `s` where `p` matches.  `p` sees what
stands before the position, last character first, and what stands after it. -/
def search {α : Type} (p : Text → Text → Option α) : Text → Text → Option α
  | before, [] => p before []
  | before, c :: cs => (p before (c :: cs)).orElse fun _ => search p (c :: before) cs

end Text

open Text

/-! ## Vocabulary -/

/-- Words that appear in store titles as packaging, not as product identity. -/
def noisePhrases : List Text :=
  ["digital download", "digital code", "digital key", "activation code", "activation key",
    "gift card", "giftcard", "prepaid card", "game pass", "xbox live key", "psn key",
    "steam key", "steam gift", "cd key", "cd-key", "product key", "key card", "voucher",
    "e-code", "ecode", "official website key", "official website", "pc download",
    "pc"].map String.toList

/-- Phrases that look like noise but are part of the product's real name. -/
def protectedPhrases : List Text := ["game pass", "gift card", "giftcard"].map String.toList

/-- A named entry of a vocabulary and the spellings that state it. -/
abbrev Aliases := List (Text × List Text)

def aliases (table : List (String × List String)) : Aliases :=
  table.map fun entry => (entry.1.toList, entry.2.map String.toList)

def platformPatterns : Aliases := aliases
  [("steam", ["steam"]),
    ("xbox", ["xbox", "xbl", "microsoft store", "windows store"]),
    ("psn", ["psn", "playstation", "ps4", "ps5", "ps plus"]),
    ("nintendo", ["nintendo", "switch", "eshop"]),
    ("epic", ["epic games", "epic"]),
    ("origin", ["origin", "ea app", "ea play"]),
    ("uplay", ["uplay", "ubisoft connect", "ubisoft"]),
    ("rockstar", ["rockstar", "social club"]),
    ("battlenet", ["battle.net", "battlenet", "blizzard"]),
    ("gog", ["gog"]),
    ("roblox", ["roblox"]),
    ("google", ["google play", "google"]),
    ("apple", ["app store", "itunes", "apple"]),
    ("amazon", ["amazon"]),
    ("netflix", ["netflix"]),
    ("spotify", ["spotify"])]

def regionAliases : Aliases := aliases
  [("GLOBAL", ["global", "worldwide", "row", "rest of the world"]),
    ("EU", ["europe", "european union", "eu"]),
    ("EEA", ["eea"]),
    ("NA", ["north america", "na"]),
    ("LATAM", ["latam", "latin america"]),
    ("MENA", ["mena", "middle east"]),
    ("US", ["united states", "usa", "us"]),
    ("UK", ["united kingdom", "uk", "gb", "great britain"]),
    ("INDIA", ["india", "in"]),
    ("BRAZIL", ["brazil", "br"]),
    ("TURKEY", ["turkey", "tr", "turkiye"]),
    ("ARGENTINA", ["argentina", "ar"]),
    ("RUSSIA", ["russia", "ru", "cis"]),
    ("HONG KONG", ["hong kong", "hk"]),
    ("SINGAPORE", ["singapore", "sg"]),
    ("JAPAN", ["japan", "jp"]),
    ("GERMANY", ["germany", "de"]),
    ("FRANCE", ["france", "fr"]),
    ("POLAND", ["poland", "pl"]),
    ("CANADA", ["canada", "ca"]),
    ("AUSTRALIA", ["australia", "au"]),
    ("MEXICO", ["mexico", "mx"]),
    ("SPAIN", ["spain", "es"]),
    ("ITALY", ["italy", "it"]),
    ("NETHERLANDS", ["netherlands", "nl"]),
    ("SAUDI ARABIA", ["saudi arabia", "ksa", "sa"]),
    ("UAE", ["uae", "united arab emirates"]),
    ("SOUTH AFRICA", ["south africa", "za"])]

def currencyCodes : List Text :=
  ["usd", "eur", "gbp", "inr", "hkd", "jpy", "brl", "try", "pln", "cad", "aud",
    "mxn", "ars", "rub", "sgd", "zar", "aed", "sar", "chf", "sek", "nok", "dkk",
    "czk", "huf", "ron", "php", "thb", "idr", "myr", "krw", "twd", "vnd", "nzd"].map String.toList

def currencySymbols : List (Char × Text) :=
  [('$', "USD".toList), ('€', "EUR".toList), ('£', "GBP".toList), ('₹', "INR".toList),
    ('¥', "JPY".toList)]

def monthWords : List Text :=
  ["month", "months", "day", "days", "year", "years"].map String.toList

def editionAliases : Aliases := aliases
  [("goty", ["game of the year", "goty"]),
    ("ultimate", ["ultimate"]),
    ("collectors", ["collectors", "collector s", "collection"]),
    ("definitive", ["definitive"]),
    ("legendary", ["legendary"]),
    ("complete", ["complete"]),
    ("anniversary", ["anniversary"]),
    ("enhanced", ["enhanced"]),
    ("deluxe", ["deluxe"]),
    ("premium", ["premium"]),
    ("gold", ["gold"]),
    ("standard", ["standard", "base", "vanilla"])]

def roman : List (Text × Text) :=
  [(" i ", " 1 "), (" ii ", " 2 "), (" iii ", " 3 "), (" iv ", " 4 "), (" v ", " 5 "),
    (" vi ", " 6 "), (" vii ", " 7 "), (" viii ", " 8 "), (" ix ", " 9 "),
    (" x ", " 10 ")].map fun entry => (entry.1.toList, entry.2.toList)

/-- The words that make a bare number a face value. -/
def faceValueWords : List Text :=
  ["card", "credit", "points", "coins", "robux", "wallet", "balance", "topup", "top up",
    "gift"].map String.toList

/-! ## Floats -/

/-- Round half to even, for a non-negative quotient. -/
def roundHalfEven (num den : ℕ) : ℕ :=
  let q := num / den
  let twice := 2 * (num % den)
  if twice < den then q else if den < twice then q + 1 else if q % 2 = 0 then q else q + 1

/-- `float` of a decimal that is not negative, and the rounding of an operation on floats;
`⊤` is `inf`. -/
def toFloat (x : ℚ) : WithTop ℚ :=
  Floating.toDouble (fun q => roundHalfEven q.num.toNat q.den) x

/-- `abs(x - y)`; none for `nan`, the difference of two infinities. -/
def floatDistance : WithTop ℚ → WithTop ℚ → Option (WithTop ℚ)
  | ⊤, ⊤ => none
  | (x : ℚ), (y : ℚ) => some (toFloat |x - y|)
  | _, _ => some ⊤

/-! ## The parts of a title -/

/-- A face value: the amount, a float, and, if stated, the currency. -/
abbrev Denomination := WithTop ℚ × Option Text

structure TitleParts where
  core : Text
  platform : Option Text
  region : Option Text
  denomination : Option Denomination
  /-- A frozenset: no word twice, listed as they occur. -/
  tokens : List Text
  edition : Option Text
  deriving DecidableEq, Repr

/-- Python's truth value of an optional string. -/
def truthy (s : Option Text) : Option Text := s.filter fun t => !t.isEmpty

section Extract

variable (u : Unicode)

def stripAccents (text : Text) : Text :=
  (text.flatMap u.nfkd).filter fun c => !u.combining c

/-- `[a-z0-9%.]`, the characters `basic_normalize` keeps. -/
def isKept (c : Char) : Bool := c.isLower || c.isDigit || c == '%' || c == '.'

/-- Lowercase, de-accent, drop punctuation, collapse white space. -/
def basicNormalize (text : Text) : Text :=
  let lowered := u.lower (stripAccents u text)
  let lowered := Text.replace ['&'] " and ".toList lowered
  collapse (lowered.map fun c => if isKept c then c else ' ')

/-- The first entry of `table` one of whose spellings passes `found`. -/
def firstAlias (table : Aliases) (found : Text → Bool) : Option Text :=
  (table.find? fun entry => entry.2.any found).map Prod.fst

def extractPlatform (text : Text) : Option Text :=
  let padded := pad (basicNormalize u text)
  firstAlias platformPatterns fun needle => isIn (pad needle) padded

/-- `\b` before a word character, on normalised text. -/
def startsWord (before : Text) : Bool :=
  match before with
  | [] => true
  | c :: _ => !(c.isLower || c.isDigit)

/-- `re.search(rf"\b{alias}$", tail)` -/
def endsWith (spelling tail : Text) : Bool :=
  spelling.isSuffixOf tail && startsWord (tail.reverse.drop spelling.length)

/-- Two-letter aliases count only at the end of the title. -/
def extractRegion (text : Text) : Option Text :=
  let lowered := basicNormalize u text
  let padded := pad lowered
  let words := split lowered
  let tail := join (words.drop (words.length - 3))
  firstAlias regionAliases fun spelling =>
    if spelling.length ≤ 2 then endsWith spelling tail else isIn (pad spelling) padded

def extractEdition (text : Text) : Option Text :=
  let padded := pad (basicNormalize u text)
  firstAlias editionAliases fun spelling => isIn (pad spelling) padded

/-! ### Face values -/

def readDigits (digits : Text) : ℕ :=
  digits.foldl (fun n c => 10 * n + u.digitValue c) 0

/-- The decimal that an integer part and a fraction spell. -/
def decimalOf (whole fraction : Text) : ℚ :=
  readDigits u whole + (readDigits u fraction : ℚ) / 10 ^ fraction.length

/-- `float(s.replace(",", "."))` for an integer part and a fraction. -/
def readAmount (whole fraction : Text) : WithTop ℚ := toFloat (decimalOf u whole fraction)

/-- `(\d+(?:[.,]\d+)?)` at the start of `s`: the amount and what follows it. -/
def amountAt (s : Text) : Option (WithTop ℚ × Text) :=
  let whole := s.takeWhile u.isDecimal
  let rest := s.dropWhile u.isDecimal
  if whole.isEmpty then none
  else match rest with
    | c :: cs =>
      let fraction := cs.takeWhile u.isDecimal
      if (c = '.' ∨ c = ',') ∧ !fraction.isEmpty then
        some (readAmount u whole fraction, cs.dropWhile u.isDecimal)
      else some (readAmount u whole [], rest)
    | [] => some (readAmount u whole [], [])

/-- `$\s*(\d+(?:[.,]\d+)?)` -/
def symbolAmount (symbol : Char) (_before s : Text) : Option (WithTop ℚ) :=
  match s with
  | c :: cs => if c = symbol then (amountAt u (cs.dropWhile u.isSpace)).map Prod.fst else none
  | [] => none

/-- `(\d+(?:[.,]\d+)?)\s*$` -/
def amountSymbol (symbol : Char) (_before s : Text) : Option (WithTop ℚ) := do
  let (amount, rest) ← amountAt u s
  match rest.dropWhile u.isSpace with
  | c :: _ => if c = symbol then some amount else none
  | [] => none

/-- A currency code at the start of `s` and what follows it. -/
def codeAt (s : Text) : Option (Text × Text) :=
  (currencyCodes.find? fun code => code.isPrefixOf s).map fun code => (code, s.drop code.length)

def wordEnds (rest : Text) : Bool :=
  match rest with
  | [] => true
  | c :: _ => !u.isWord c

/-- `(\d+(?:[.,]\d+)?)\s*(usd|...)\b` -/
def amountCode (_before s : Text) : Option Denomination := do
  let (amount, rest) ← amountAt u s
  let (code, rest) ← codeAt (rest.dropWhile u.isSpace)
  if wordEnds u rest then some (amount, some (u.upper code)) else none

/-- `\b(usd|...)\s*(\d+(?:[.,]\d+)?)` -/
def codeAmount (before s : Text) : Option Denomination := do
  let (code, rest) ← codeAt s
  let (amount, _) ← amountAt u (rest.dropWhile u.isSpace)
  if wordEnds u before then some (amount, some (u.upper code)) else none

/-- `\b(\d{2,6})\b`: the digits, what stands before them and what follows. -/
def bareNumber (before s : Text) : Option (Text × Text × Text) :=
  let digits := s.takeWhile u.isDecimal
  let rest := s.dropWhile u.isDecimal
  if 2 ≤ digits.length ∧ digits.length ≤ 6 ∧ wordEnds u before ∧ wordEnds u rest then
    some (digits, before, rest)
  else none

/-- `\b(card|...)\b` -/
def faceValueWord (before s : Text) : Option Unit :=
  if wordEnds u before then
    if faceValueWords.any fun w => w.isPrefixOf s && wordEnds u (s.drop w.length) then some ()
    else none
  else none

def symbolDenomination (raw : Text) : Option Denomination :=
  currencySymbols.findSome? fun entry =>
    ((search (symbolAmount u entry.1) [] raw).orElse fun _ =>
      search (amountSymbol u entry.1) [] raw).map fun amount => (amount, some entry.2)

/-- A bare number is a face value only when nothing else explains it. -/
def bareDenomination (lowered : Text) : Option Denomination := do
  let (digits, before, rest) ← search (bareNumber u) [] lowered
  let following := rest.take 12
  let preceding := (before.take 12).reverse
  if monthWords.any fun w => isIn w following || isIn w preceding then none
  else if (search (faceValueWord u) [] lowered).isSome then some (readAmount u digits [], none)
  else none

def extractDenomination (text : Text) : Option Denomination :=
  let raw := stripAccents u text
  let lowered := u.lower raw
  (symbolDenomination u raw).orElse fun _ =>
    (search (amountCode u) [] lowered).orElse fun _ =>
      (search (codeAmount u) [] lowered).orElse fun _ => bareDenomination u lowered

/-! ### The core name -/

/-- `re.sub(r"\b(?:key|keys|code|codes)\b", " ", s)` on normalised text; the
counter skips the rest of a word that was just replaced. -/
def dropKeyWords : ℕ → Text → Text → Text
  | _, _, [] => []
  | n + 1, before, c :: cs => dropKeyWords n (c :: before) cs
  | 0, before, c :: cs =>
    match (["key", "keys", "code", "codes"].map String.toList).find? fun w =>
        startsWord before && w.isPrefixOf (c :: cs) && startsWord ((c :: cs).drop w.length) with
    | some w => ' ' :: dropKeyWords (w.length - 1) (c :: before) cs
    | none => c :: dropKeyWords 0 (c :: before) cs

def stripNoise (text : Text) : Text :=
  let drop := fun (result phrase : Text) => Text.replace (pad phrase) [' '] result
  let result := pad text
  let result := (noisePhrases.filter fun p => p ∉ protectedPhrases).foldl drop result
  let result := (platformPatterns.flatMap Prod.snd).foldl drop result
  let result := ((regionAliases.flatMap Prod.snd).filter fun a => 2 < a.length).foldl drop result
  let result := (editionAliases.flatMap Prod.snd).foldl drop result
  let result := drop result "edition".toList
  collapse (dropKeyWords 0 [] (collapse result))

/-- `re.sub(r"\b[a-z]{2}$", "", core).strip()` -/
def dropTail (core : Text) : Text :=
  match core.reverse with
  | a :: b :: before =>
    if a.isLower && b.isLower && startsWord before then collapse before.reverse else core
  | _ => core

def isDigits (token : Text) : Bool := !token.isEmpty && token.all Char.isDigit

/-- Split a title into the parts the matcher compares. -/
def parseTitle (text : Text) : TitleParts :=
  let region := extractRegion u text
  let padded := roman.foldl (fun s entry => Text.replace entry.1 entry.2 s)
    (pad (basicNormalize u text))
  let core := stripNoise (collapse padded)
  let core := if region.isSome ∧ 3 < core.length then dropTail core else core
  { core := core
    platform := extractPlatform u text
    region := region
    denomination := extractDenomination u text
    tokens := ((split core).filter fun t => 1 < t.length || isDigits t).dedup
    edition := extractEdition u text }

/-- `s.strip()` -/
def strip (s : Text) : Text :=
  ((s.dropWhile u.isSpace).reverse.dropWhile u.isSpace).reverse

/-- Parse a title but prefer the structured values the API gave. -/
def parseTitleWith (text : Text) (region platform : Option Text) : TitleParts :=
  let parts := parseTitle u text
  let stated := u.upper (strip u (region.getD []))
  let resolvedRegion := if stated.isEmpty then parts.region else some stated
  let resolvedRegion := (truthy resolvedRegion).map fun r => (extractRegion u r).getD r
  { parts with
    region := resolvedRegion
    platform := (extractPlatform u (platform.getD [])).orElse fun _ => parts.platform }

end Extract

/-! ## Bucket and anchors -/

/-- Decimal digits of a number, least significant first. -/
def digitsOf : ℕ → ℕ → List ℕ
  | 0, _ => []
  | fuel + 1, n => if n < 10 then [n] else n % 10 :: digitsOf fuel (n / 10)

def decimal (n : ℕ) : Text :=
  ((digitsOf (n + 1) n).map fun d => Char.ofNat ('0'.toNat + d)).reverse

/-- `f"{x:.{places}f}"` for a non-negative `x`. -/
def formatFixed (places : ℕ) (x : ℚ) : Text :=
  let scaled := roundHalfEven (x.num.toNat * 10 ^ places) x.den
  let fraction := decimal (scaled % 10 ^ places)
  decimal (scaled / 10 ^ places) ++
    '.' :: (List.replicate (places - fraction.length) '0' ++ fraction)

/-- The power of ten of the leading digit of `num / den`; the fuel bounds the
leading zeros looked through. -/
def leadingPower (num den : ℕ) : ℤ :=
  if den ≤ num then (decimal (num / den)).length - 1
  else
    match (List.range (decimal den).length).find? fun k => den ≤ num * 10 ^ (k + 1) with
    | some zeros => -(zeros + 1)
    | none => -1

def dropTrailingZeros (digits : Text) : Text :=
  (digits.reverse.dropWhile (· = '0')).reverse

def withPoint (whole fraction : Text) : Text :=
  if fraction.isEmpty then whole else whole ++ '.' :: fraction

/-- `f"{amount:g}"` for a finite non-negative amount: six significant digits. -/
def formatFinite (amount : ℚ) : Text :=
  let num := amount.num.toNat
  let den := amount.den
  if num = 0 then ['0']
  else
    let power := leadingPower num den
    let scaled := if power ≤ 5 then roundHalfEven (num * 10 ^ (5 - power).toNat) den
      else roundHalfEven num (den * 10 ^ (power - 5).toNat)
    let power := if scaled = 1000000 then power + 1 else power
    let digits := if scaled = 1000000 then decimal 100000 else decimal scaled
    if -4 ≤ power ∧ power < 6 then
      if 0 ≤ power then
        withPoint (digits.take (power.toNat + 1)) (dropTrailingZeros (digits.drop (power.toNat + 1)))
      else
        withPoint ['0'] (List.replicate ((-power).toNat - 1) '0' ++ dropTrailingZeros digits)
    else
      let shown := decimal power.natAbs
      withPoint (digits.take 1) (dropTrailingZeros (digits.drop 1)) ++
        'e' :: (if 0 ≤ power then '+' else '-') ::
          (if shown.length < 2 then '0' :: shown else shown)

/-- `f"{amount:g}"` -/
def formatG : WithTop ℚ → Text
  | ⊤ => "inf".toList
  | (amount : ℚ) => formatFinite amount

/-- Coarse bucket used to shortlist candidates before scoring. -/
def TitleParts.matchKey (parts : TitleParts) : Text :=
  let denom := match parts.denomination with
    | none => []
    | some (amount, currency) => '|' :: formatG amount ++ currency.getD []
  parts.core ++ '|' :: parts.platform.getD [] ++ '|' :: parts.region.getD [] ++ denom

def editionWords : List Text := (editionAliases.flatMap Prod.snd).flatMap split

/-- Distinctive tokens to shortlist on, longest first; words of one length come
in the order `enumerate` lists the token set in. -/
def TitleParts.anchors (enumerate : List Text → List Text) (parts : TitleParts) : List Text :=
  Ranking.rank List.length
    ((enumerate parts.tokens).filter fun t => (4 ≤ t.length || isDigits t) && t ∉ editionWords)

end FazerBridge
