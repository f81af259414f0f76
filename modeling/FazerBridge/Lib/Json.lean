import Mathlib.Data.Nat.Notation

/-!
# JSON values

A number is kept as its text.  The fields of an object are in their order.
-/

namespace FazerBridge

inductive Json
  | null
  | bool (value : Bool)
  | number (text : String)
  | string (text : String)
  | array (items : List Json)
  | object (fields : List (String × Json))
  deriving Repr

namespace Json

/-- An object or an array. -/
def isContainer : Json → Bool
  | .array _ | .object _ => true
  | .null | .bool _ | .number _ | .string _ => false

/-! ## Its text -/

/-- Four hexadecimal digits after `\u`. -/
def escapeUnit (n : ℕ) : List Char :=
  '\\' :: 'u' :: [n / 4096 % 16, n / 256 % 16, n / 16 % 16, n % 16].map Nat.digitChar

/-- The escape of one character; what is not printable ASCII is written in UTF-16 units. -/
def escapeChar (c : Char) : List Char :=
  if c = '"' then ['\\', '"']
  else if c = '\\' then ['\\', '\\']
  else if c = '\n' then ['\\', 'n']
  else if c = '\r' then ['\\', 'r']
  else if c = '\t' then ['\\', 't']
  else if c.toNat = 8 then ['\\', 'b']
  else if c.toNat = 12 then ['\\', 'f']
  else if 32 ≤ c.toNat ∧ c.toNat < 127 then [c]
  else if c.toNat < 65536 then escapeUnit c.toNat
  else escapeUnit (55296 + (c.toNat - 65536) / 1024) ++
    escapeUnit (56320 + (c.toNat - 65536) % 1024)

def quote (text : String) : String :=
  "\"" ++ String.ofList (text.toList.flatMap escapeChar) ++ "\""

mutual

/-- `json.dumps` -/
def dumps : Json → String
  | .null => "null"
  | .bool true => "true"
  | .bool false => "false"
  | .number text => text
  | .string text => quote text
  | .array items => "[" ++ String.intercalate ", " (dumpsItems items) ++ "]"
  | .object fields => "\x7b" ++ String.intercalate ", " (dumpsFields fields) ++ "\x7d"

def dumpsItems : List Json → List String
  | [] => []
  | item :: items => dumps item :: dumpsItems items

def dumpsFields : List (String × Json) → List String
  | [] => []
  | (key, value) :: fields => (quote key ++ ": " ++ dumps value) :: dumpsFields fields

end

/-! ## Values under some keys -/

mutual

/-- The same value, but for what stands under the keys in question. -/
inductive Alike (secret : String → Prop) : Json → Json → Prop
  | refl {value} : Alike secret value value
  | array {items items'} (alike : ItemsAlike secret items items') :
      Alike secret (.array items) (.array items')
  | object {fields fields'} (alike : FieldsAlike secret fields fields') :
      Alike secret (.object fields) (.object fields')

inductive ItemsAlike (secret : String → Prop) : List Json → List Json → Prop
  | nil : ItemsAlike secret [] []
  | cons {item item' items items'} (alike : Alike secret item item')
      (rest : ItemsAlike secret items items') :
      ItemsAlike secret (item :: items) (item' :: items')

inductive FieldsAlike (secret : String → Prop) :
    List (String × Json) → List (String × Json) → Prop
  | nil : FieldsAlike secret [] []
  | hidden {key value value' fields fields'} (hidden : secret key)
      (rest : FieldsAlike secret fields fields') :
      FieldsAlike secret ((key, value) :: fields) ((key, value') :: fields')
  | shown {key value value' fields fields'} (alike : Alike secret value value')
      (rest : FieldsAlike secret fields fields') :
      FieldsAlike secret ((key, value) :: fields) ((key, value') :: fields')

end

mutual

/-- `value` with the text `"***"` under the keys in question. -/
def mask (secret : String → Bool) : Json → Json
  | .object fields => .object (maskFields secret fields)
  | .array items => .array (maskItems secret items)
  | .null => .null
  | .bool value => .bool value
  | .number text => .number text
  | .string text => .string text

def maskItems (secret : String → Bool) : List Json → List Json
  | [] => []
  | item :: items => mask secret item :: maskItems secret items

def maskFields (secret : String → Bool) : List (String × Json) → List (String × Json)
  | [] => []
  | (key, value) :: fields =>
    (key, if secret key then .string "***" else mask secret value) :: maskFields secret fields

end

mutual

/-- What is masked does not show. -/
theorem mask_eq_of_alike {secret : String → Bool} {a b : Json}
    (alike : Alike (fun key => secret key = true) a b) : mask secret a = mask secret b := by
  cases alike with
  | refl => rfl
  | array alike => rw [mask, mask, maskItems_eq_of_alike alike]
  | object alike => rw [mask, mask, maskFields_eq_of_alike alike]

theorem maskItems_eq_of_alike {secret : String → Bool} {a b : List Json}
    (alike : ItemsAlike (fun key => secret key = true) a b) :
    maskItems secret a = maskItems secret b := by
  cases alike with
  | nil => rfl
  | cons alike rest =>
      rw [maskItems, maskItems, mask_eq_of_alike alike, maskItems_eq_of_alike rest]

theorem maskFields_eq_of_alike {secret : String → Bool} {a b : List (String × Json)}
    (alike : FieldsAlike (fun key => secret key = true) a b) :
    maskFields secret a = maskFields secret b := by
  cases alike with
  | nil => rfl
  | hidden hidden rest =>
      rw [maskFields, maskFields, if_pos hidden, if_pos hidden, maskFields_eq_of_alike rest]
  | shown alike rest =>
      rw [maskFields, maskFields, mask_eq_of_alike alike, maskFields_eq_of_alike rest]

end

end Json

end FazerBridge
