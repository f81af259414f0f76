import Mathlib.Data.Rat.Defs
import Mathlib.Tactic.Positivity

/-!
# `difflib.SequenceMatcher.ratio`

The standard library's similarity of two sequences, as `SequenceMatcher(None, a,
b).ratio()` computes it: the longest block both sequences share is taken out,
the two sides of it are matched the same way, and the ratio is twice the matched
length over the total length.  Of two blocks of one length the one that ends
first in `a`, then first in `b`, is taken.  From 200 elements on, an element
that fills more than a hundredth of `b` starts no block (`autojunk`).
-/

namespace Difflib

variable {α : Type} [DecidableEq α]

/-- Elements of `b` that `autojunk` keeps from starting a block. -/
def isPopular (b : List α) (x : α) : Bool :=
  200 ≤ b.length && b.length / 100 + 1 < b.count x

/-- Lengths of the shared runs that end at `x` and at each element of `b`, from
those that end one element earlier. -/
def nextRow (popular : α → Bool) (b : List α) (x : α) (row : List ℕ) : List ℕ :=
  List.zipWith (fun y k => if y = x ∧ !popular y then k + 1 else 0) b (0 :: row)

/-- A block: where it starts in `a`, where in `b`, and its length. -/
structure Block where
  i : ℕ
  j : ℕ
  size : ℕ

/-- The best block after the runs of `row`, which end at element `i`. -/
def scanRow (i : ℕ) : ℕ → List ℕ → Block → Block
  | _, [], best => best
  | j, k :: row, best =>
    scanRow i (j + 1) row (if best.size < k then ⟨i + 1 - k, j + 1 - k, k⟩ else best)

/-- The longest run of `a` and `b` without popular elements. -/
def longestRun (popular : α → Bool) (b : List α) : ℕ → List α → List ℕ → Block → Block
  | _, [], _, best => best
  | i, x :: a, row, best =>
    let row := nextRow popular b x row
    longestRun popular b (i + 1) a row (scanRow i 0 row best)

def commonPrefix : List α → List α → ℕ
  | x :: a, y :: b => if x = y then commonPrefix a b + 1 else 0
  | _, _ => 0

/-- `find_longest_match`: the longest run, extended on both sides. -/
def findLongestMatch (popular : α → Bool) (a b : List α) : Block :=
  let run := longestRun popular b 0 a (List.replicate b.length 0) ⟨0, 0, 0⟩
  let left := commonPrefix (a.take run.i).reverse (b.take run.j).reverse
  let right := commonPrefix (a.drop (run.i + run.size)) (b.drop (run.j + run.size))
  ⟨run.i - left, run.j - left, left + run.size + right⟩

/-- Total length of the matching blocks; a block is not empty, so the length of
`a` is fuel enough. -/
def matchedLength (popular : α → Bool) : ℕ → List α → List α → ℕ
  | 0, _, _ => 0
  | fuel + 1, a, b =>
    let block := findLongestMatch popular a b
    if block.size = 0 then 0
    else
      matchedLength popular fuel (a.take block.i) (b.take block.j) + block.size +
        matchedLength popular fuel (a.drop (block.i + block.size)) (b.drop (block.j + block.size))

def ratio (a b : List α) : ℚ :=
  if a.length + b.length = 0 then 1
  else 2 * (matchedLength (isPopular b) (a.length + 1) a b : ℚ) / (a.length + b.length : ℕ)

theorem ratio_nonneg (a b : List α) : 0 ≤ ratio a b := by
  unfold ratio
  split <;> positivity

/-! ## A ratio is at most 1 -/

/-- A block lies in both sequences. -/
def Block.Fits (block : Block) (n m : ℕ) : Prop :=
  block.i + block.size ≤ n ∧ block.j + block.size ≤ m

/-- The runs that end at an element are no longer than what comes before it. -/
def Bounded (i : ℕ) (row : List ℕ) : Prop := ∀ j k, row[j]? = some k → k ≤ i ∧ k ≤ j + 1

variable {popular : α → Bool} {b : List α} {row : List ℕ} {best : Block} {i n m : ℕ}

theorem bounded_nextRow (bounded : Bounded i row) (x : α) :
    Bounded (i + 1) (nextRow popular b x row) := by
  intro j k is
  rw [nextRow, List.getElem?_zipWith] at is
  cases y : b[j]? with
  | none => simp [y] at is
  | some y' =>
      cases before : (0 :: row)[j]? with
      | none => simp [y, before] at is
      | some k' =>
          rw [y, before] at is
          have earlier : k' ≤ i ∧ k' ≤ j := by
            cases j with
            | zero =>
                rw [List.getElem?_cons_zero, Option.some.injEq] at before
                omega
            | succ j => exact bounded j k' (by rwa [List.getElem?_cons_succ] at before)
          simp only [Option.some.injEq] at is
          split at is <;> omega

theorem fits_scanRow {j : ℕ} (bounded : ∀ l k, row[l]? = some k → k ≤ i + 1 ∧ k ≤ j + l + 1)
    (within : i + 1 ≤ n) (across : j + row.length ≤ m) (fits : best.Fits n m) :
    (scanRow i j row best).Fits n m := by
  induction row generalizing j best with
  | nil => exact fits
  | cons k row ih =>
      rw [List.length_cons] at across
      have here := bounded 0 k rfl
      refine ih (fun l k' is => ?_) (by omega) ?_
      · have later := bounded (l + 1) k' (by rwa [List.getElem?_cons_succ])
        omega
      · split
        · exact ⟨by change i + 1 - k + k ≤ n; omega, by change j + 1 - k + k ≤ m; omega⟩
        · exact fits

theorem fits_longestRun {a : List α} (length : row.length = b.length) (bounded : Bounded i row)
    (within : i + a.length ≤ n) (fits : best.Fits n b.length) :
    (longestRun popular b i a row best).Fits n b.length := by
  induction a generalizing i row best with
  | nil => exact fits
  | cons x a ih =>
      rw [List.length_cons] at within
      have next : (nextRow popular b x row).length = b.length := by
        rw [nextRow, List.length_zipWith, List.length_cons, length]
        omega
      have bounded' : Bounded (i + 1) (nextRow popular b x row) := bounded_nextRow bounded x
      refine ih next bounded' (by omega) (fits_scanRow (fun l k is => ?_) (by omega) ?_ fits)
      · have := bounded' l k is
        omega
      · omega

theorem commonPrefix_le (a b : List α) :
    commonPrefix a b ≤ a.length ∧ commonPrefix a b ≤ b.length := by
  induction a generalizing b with
  | nil => simp [commonPrefix]
  | cons x a ih =>
      cases b with
      | nil => simp [commonPrefix]
      | cons y b =>
          have rest := ih b
          rw [commonPrefix, List.length_cons, List.length_cons]
          split <;> omega

theorem fits_findLongestMatch (popular : α → Bool) (a b : List α) :
    (findLongestMatch popular a b).Fits a.length b.length := by
  have start : Bounded 0 (List.replicate b.length 0) := by
    intro j k is
    rw [List.getElem?_replicate] at is
    split at is
    · cases is
      omega
    · cases is
  have fits : (longestRun popular b 0 a (List.replicate b.length 0) ⟨0, 0, 0⟩).Fits a.length
      b.length :=
    fits_longestRun List.length_replicate start (by omega) ⟨Nat.zero_le _, Nat.zero_le _⟩
  unfold findLongestMatch
  dsimp only
  generalize longestRun popular b 0 a (List.replicate b.length 0) ⟨0, 0, 0⟩ = run at fits
  have left := commonPrefix_le (a.take run.i).reverse (b.take run.j).reverse
  have right := commonPrefix_le (a.drop (run.i + run.size)) (b.drop (run.j + run.size))
  rw [List.length_reverse, List.length_reverse, List.length_take, List.length_take] at left
  rw [List.length_drop, List.length_drop] at right
  obtain ⟨first, second⟩ := fits
  exact ⟨by dsimp only; omega, by dsimp only; omega⟩

theorem matchedLength_le (fuel : ℕ) (a b : List α) :
    matchedLength popular fuel a b ≤ a.length ∧ matchedLength popular fuel a b ≤ b.length := by
  induction fuel generalizing a b with
  | zero => exact ⟨Nat.zero_le _, Nat.zero_le _⟩
  | succ fuel ih =>
      obtain ⟨first, second⟩ := fits_findLongestMatch popular a b
      rw [matchedLength]
      generalize findLongestMatch popular a b = block at first second
      have left := ih (a.take block.i) (b.take block.j)
      have right := ih (a.drop (block.i + block.size)) (b.drop (block.j + block.size))
      rw [List.length_take, List.length_take] at left
      rw [List.length_drop, List.length_drop] at right
      split <;> omega

theorem ratio_le_one (a b : List α) : ratio a b ≤ 1 := by
  unfold ratio
  split
  · exact le_rfl
  · rename_i some_
    have matched : matchedLength (isPopular b) (a.length + 1) a b ≤ a.length ∧
        matchedLength (isPopular b) (a.length + 1) a b ≤ b.length := matchedLength_le ..
    have positive : (0 : ℚ) < (a.length + b.length : ℕ) := by
      exact_mod_cast Nat.pos_of_ne_zero some_
    rw [div_le_one positive]
    have twice : 2 * matchedLength (isPopular b) (a.length + 1) a b ≤ a.length + b.length := by
      omega
    exact_mod_cast twice

end Difflib
