import Mathlib.Data.List.Sort
import Mathlib.Order.MinMax

/-!
The median of three values, and the cascade that replaces every value of a sequence by the
median of itself and its two predecessors, which it has replaced before.

* `middle` is the median of three as a lattice expression; `median_three` says that it is the
  middle entry of the three in order, `le_middle_iff` that a bound on it is a bound on two of
  the three.
* A cascade commutes with monotone maps (`map_cascade`), so a bound on its result is a
  question about bits: which of the values meet the bound.
* Two equal neighbours freeze a cascade (`cascade_same`), and over bits nothing else
  happens: the result is the value of the first two neighbours that agree
  (`cascade_eq_agreed`).
-/

namespace SmartScale.Median

variable {α β : Type*} [LinearOrder α] [LinearOrder β] {a b c x : α}

/-! ### Three values -/

/-- The middle one of three. -/
def middle (a b c : α) : α := max (min a b) (min (max a b) c)

theorem le_middle_iff :
    x ≤ middle a b c ↔ (x ≤ a ∧ x ≤ b) ∨ (x ≤ a ∧ x ≤ c) ∨ (x ≤ b ∧ x ≤ c) := by
  rw [middle, le_max_iff, le_min_iff, le_min_iff, le_max_iff, or_and_right]

theorem middle_rotate (a b c : α) : middle b c a = middle a b c := by
  refine eq_of_forall_le_iff fun x => ?_
  rw [le_middle_iff, le_middle_iff]
  tauto

@[simp] theorem middle_same (a x : α) : middle a a x = a := by
  rw [middle, min_self, max_self, max_eq_left (min_le_left a x)]

theorem map_middle {f : α → β} (mono : Monotone f) (a b c : α) :
    f (middle a b c) = middle (f a) (f b) (f c) := by
  rw [middle, mono.map_max, mono.map_min, mono.map_min, mono.map_max, middle]

/-- The median of a list: its middle entry when it is put in order. -/
def median (xs : List α) : Option α := (xs.insertionSort (· ≤ ·))[xs.length / 2]?

theorem insertionSort_two (a b : α) : [a, b].insertionSort (· ≤ ·) = [min a b, max a b] := by
  simp only [List.insertionSort_cons, List.insertionSort_nil, List.orderedInsert_cons,
    List.orderedInsert_nil]
  split_ifs with ordered
  · simp [ordered]
  · simp [le_of_not_ge ordered]

/-- The middle entry after an insertion is the new value, cut to the range of the old ones. -/
theorem orderedInsert_two (a : α) (bc : b ≤ c) :
    [b, c].orderedInsert (· ≤ ·) a = [min a b, max b (min c a), max c a] := by
  simp only [List.orderedInsert_cons, List.orderedInsert_nil]
  split_ifs with ab ac
  · simp [ab, ab.trans bc]
  · simp [le_of_not_ge ab, ac]
  · simp [le_of_not_ge ab, le_of_not_ge ac, bc]

theorem median_three (a b c : α) : median [a, b, c] = some (middle a b c) := by
  have half : [a, b, c].length / 2 = 1 := by simp
  rw [median, List.insertionSort_cons, insertionSort_two, orderedInsert_two a min_le_max, half,
    ← middle_rotate]
  rfl

/-! ### Cascades -/

/-- The last value of the cascade over `a`, `b` and the list. -/
def cascade : α → α → List α → α
  | _, b, [] => b
  | a, b, x :: xs => cascade b (middle a b x) xs

@[simp] theorem cascade_nil (a b : α) : cascade a b [] = b := rfl

@[simp] theorem cascade_cons (a b x : α) (xs : List α) :
    cascade a b (x :: xs) = cascade b (middle a b x) xs := rfl

theorem map_cascade {f : α → β} (mono : Monotone f) (a b : α) (xs : List α) :
    f (cascade a b xs) = cascade (f a) (f b) (xs.map f) := by
  induction xs generalizing a b with
  | nil => rfl
  | cons x xs ih => rw [cascade_cons, ih, map_middle mono, List.map_cons, cascade_cons]

/-- Two equal neighbours freeze a cascade. -/
theorem cascade_same (a : α) (xs : List α) : cascade a a xs = a := by
  induction xs with
  | nil => rfl
  | cons x xs ih => rw [cascade_cons, middle_same, ih]

/-- The value of the first two neighbours that agree, or else the last one. -/
def agreed : Bool → List Bool → Bool
  | a, [] => a
  | a, b :: bs => if a = b then a else agreed b bs

@[simp] theorem agreed_cons (a b : Bool) (bs : List Bool) :
    agreed a (b :: bs) = if a = b then a else agreed b bs := rfl

theorem agreed_not (a : Bool) (bs : List Bool) : agreed (!a) (bs.map not) = !agreed a bs := by
  induction bs generalizing a with
  | nil => rfl
  | cons b bs ih =>
      rw [List.map_cons, agreed_cons, agreed_cons, ih]
      by_cases same : a = b
      · rw [if_pos same, if_pos (congrArg not same)]
      · rw [if_neg same, if_neg fun eq => same (Bool.not_inj eq)]

/-- Until two neighbours agree, a cascade over bits leaves every bit as it is. -/
theorem cascade_eq_agreed (a b : Bool) (xs : List Bool) : cascade a b xs = agreed a (b :: xs) := by
  induction xs generalizing a b with
  | nil => cases a <;> cases b <;> rfl
  | cons x xs ih =>
      by_cases same : a = b
      · rw [same, cascade_same, agreed, if_pos rfl]
      · have passed : middle a b x = x := by
          cases a <;> cases b <;> cases x <;> first | rfl | exact absurd rfl same
        rw [cascade_cons, passed, ih, agreed_cons a, if_neg same]

/-- Whether the result of a cascade meets a lower bound is decided by which values do. -/
theorem cascade_of_monotone {p : α → Bool} (mono : Monotone p) (a b : α) (xs : List α) :
    p (cascade a b xs) = agreed (p a) ((b :: xs).map p) := by
  rw [map_cascade mono, cascade_eq_agreed, List.map_cons]

/-- And likewise an upper bound. -/
theorem cascade_of_antitone {p : α → Bool} (anti : Antitone p) (a b : α) (xs : List α) :
    p (cascade a b xs) = agreed (p a) ((b :: xs).map p) := by
  have mono : Monotone (not ∘ p) := by
    intro y z le
    exact compl_le_compl (anti le)
  have negated := cascade_of_monotone mono a b xs
  rw [← List.map_map, Function.comp_apply, Function.comp_apply, agreed_not] at negated
  exact Bool.not_inj negated

/-! ### Majorities -/

/-- The value of the first two neighbours that agree, if there are any. -/
def firstAgreement : List Bool → Option Bool
  | a :: b :: bs => if a = b then some a else firstAgreement (b :: bs)
  | _ => none

theorem firstAgreement_cons (a b : Bool) (bs : List Bool) :
    firstAgreement (a :: b :: bs) = if a = b then some a else firstAgreement (b :: bs) := rfl

theorem agreed_of_firstAgreement {a v : Bool} {bs : List Bool}
    (first : firstAgreement (a :: bs) = some v) : agreed a bs = v := by
  induction bs generalizing a with
  | nil => cases first
  | cons b bs ih =>
      rw [firstAgreement_cons] at first
      rw [agreed_cons]
      split_ifs at first ⊢
      · exact Option.some.inj first
      · exact ih first

/-- Bits that alternate to a `false` are half `true` at most. -/
theorem count_of_alternating {a : Bool} {bs : List Bool}
    (alternates : firstAgreement (a :: bs) = none) (ends : agreed a bs = false) :
    2 * (a :: bs).count true + (if a then 0 else 1) = (a :: bs).length := by
  induction bs generalizing a with
  | nil =>
      cases ends
      rfl
  | cons b bs ih =>
      rw [firstAgreement_cons] at alternates
      rw [agreed_cons] at ends
      have differ : ¬ a = b := by
        intro same
        rw [if_pos same] at alternates
        cases alternates
      rw [if_neg differ] at alternates ends
      have rest := ih alternates ends
      cases a with
      | true =>
          cases b with
          | true => exact absurd rfl differ
          | false =>
              rw [List.count_cons_self, List.length_cons, ← rest]
              simp only [if_true, Bool.false_eq_true, if_false]
              omega
      | false =>
          cases b with
          | true =>
              rw [List.count_cons_of_ne Bool.noConfusion, List.length_cons, ← rest]
              simp
          | false => exact absurd rfl differ

/-- **Where most bits are `true`**, a cascade loses them only to two neighbours that are
`false`. -/
theorem agreed_iff_of_majority {a : Bool} {bs : List Bool}
    (majority : (a :: bs).length < 2 * (a :: bs).count true) :
    agreed a bs = true ↔ firstAgreement (a :: bs) ≠ some false := by
  cases first : firstAgreement (a :: bs) with
  | some v => rw [agreed_of_firstAgreement first, ne_eq, Option.some.injEq, Bool.not_eq_false]
  | none =>
      refine iff_of_true ?_ (Option.some_ne_none false).symm
      by_contra lost
      have half := count_of_alternating first (Bool.not_eq_true _ ▸ lost)
      omega

/-- Two neighbours that agree are two bits. -/
theorem two_le_count_of_firstAgreement {v : Bool} {bs : List Bool}
    (first : firstAgreement bs = some v) : 2 ≤ bs.count v := by
  induction bs with
  | nil => cases first
  | cons a bs ih =>
      cases bs with
      | nil => cases first
      | cons b bs =>
          rw [firstAgreement_cons] at first
          split_ifs at first with same
          · rw [Option.some.injEq] at first
            rw [← same, first, List.count_cons_self, List.count_cons_self]
            omega
          · exact (ih first).trans (List.count_le_count_cons)

end SmartScale.Median
