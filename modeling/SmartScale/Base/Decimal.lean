import Mathlib.Algebra.Order.Field.Rat
import Mathlib.Data.List.Basic
import Mathlib.Data.List.Forall2
import Mathlib.Tactic.FieldSimp
import Mathlib.Tactic.Ring

/-!
Decimal numbers as text.

* `value` reads digits, `padded` writes the last ones of a number; digits of one length compare as
  the numbers do (`padded_lt_iff`), and so do texts of several numbers (`fields_lt_iff`).
* `fixed` writes a number with a fixed number of places, and `readNumber?` reads a JSON number that
  has no exponent: `readNumber?_fixed` is the round trip, `length_fixed_le` the room it takes.
-/

namespace SmartScale.Decimal

/-- The number that digits stand for, the most significant first. -/
def value (digits : List Char) : Nat := digits.foldl (fun n c => 10 * n + (c.toNat - 48)) 0

/-- The last `width` digits of `n`, with zeros before them if there are fewer. -/
def padded : Nat → Nat → List Char
  | 0, _ => []
  | width + 1, n => padded width (n / 10) ++ [(n % 10).digitChar]

/-- `n / 10 ^ places`, with that many places. -/
def fixed (places : Nat) (negative : Bool) (n : Nat) : List Char :=
  (if negative then ['-'] else []) ++
    (Nat.toDigits 10 (n / 10 ^ places) ++ '.' :: padded places n)

/-- A JSON number with neither sign nor exponent: no zeros lead, and digits follow a point. -/
def readUnsigned? (text : List Char) : Option ℚ :=
  let whole := text.takeWhile Char.isDigit
  if whole = [] ∨ (whole.head? = some '0' ∧ whole ≠ ['0']) then none
  else
    match text.dropWhile Char.isDigit with
    | [] => some (value whole)
    | c :: fraction =>
        if c = '.' ∧ fraction ≠ [] ∧ fraction.all Char.isDigit then
          some (value whole + value fraction / 10 ^ fraction.length)
        else none

/-- A JSON number without exponent. -/
def readNumber? (text : List Char) : Option ℚ :=
  if text.head? = some '-' then (readUnsigned? text.tail).map fun v => -v else readUnsigned? text

/-! ### Digits -/

section Digits

variable {width m n : Nat} {xs ys : List Char}

theorem foldl_value (n : Nat) (digits : List Char) :
    digits.foldl (fun n c => 10 * n + (c.toNat - 48)) n =
      n * 10 ^ digits.length + value digits := by
  induction digits generalizing n with
  | nil => simp [value]
  | cons c digits ih =>
      have split : value (c :: digits) = (10 * 0 + (c.toNat - 48)) * 10 ^ digits.length +
          value digits := ih _
      rw [List.foldl_cons, ih, split, List.length_cons]
      ring

theorem value_append : value (xs ++ ys) = value xs * 10 ^ ys.length + value ys := by
  rw [value, List.foldl_append, foldl_value]
  rfl

theorem value_digitChar (small : n < 10) : value [n.digitChar] = n := by
  simp [value, Nat.toNat_digitChar_of_lt_ten small]

theorem value_toDigits (n : Nat) : value (Nat.toDigits 10 n) = n := by
  induction n using Nat.strongRecOn with
  | ind n ih =>
      rw [Nat.toDigits_eq_if (by omega)]
      split
      · rename_i small
        exact value_digitChar small
      · rename_i large
        rw [value_append, ih (n / 10) (by omega), value_digitChar (Nat.mod_lt n (by omega))]
        simp only [List.length_singleton, pow_one]
        omega

@[simp] theorem length_padded : (padded width n).length = width := by
  induction width generalizing n with
  | zero => rfl
  | succ width ih => rw [padded, List.length_append, ih, List.length_singleton]

theorem value_padded : value (padded width n) = n % 10 ^ width := by
  induction width generalizing n with
  | zero => simp [padded, value, Nat.mod_one]
  | succ width ih =>
      rw [padded, value_append, ih, value_digitChar (Nat.mod_lt n (by omega)), pow_succ',
        Nat.mod_mul, List.length_singleton]
      ring

theorem isDigit_padded : ∀ c ∈ padded width n, c.isDigit = true := by
  induction width generalizing n with
  | zero => simp [padded]
  | succ width ih =>
      intro c member
      rw [padded] at member
      rcases List.mem_append.mp member with earlier | last
      · exact ih c earlier
      · rw [List.mem_singleton.mp last, Nat.isDigit_digitChar, decide_eq_true_eq]
        exact Nat.mod_lt n (by omega)

theorem isDigit_toDigits : ∀ c ∈ Nat.toDigits 10 n, c.isDigit = true :=
  fun _ member => Nat.isDigit_of_mem_toDigits (by omega) (by omega) member

/-- A number with that many digits is written with no zeros before them. -/
theorem toDigits_eq_padded (lower : 10 ^ width ≤ n) (upper : n < 10 ^ (width + 1)) :
    Nat.toDigits 10 n = padded (width + 1) n := by
  induction width generalizing n with
  | zero =>
      have small : n < 10 := by simpa using upper
      rw [Nat.toDigits_of_lt_base small, padded, padded, Nat.mod_eq_of_lt small, List.nil_append]
  | succ width ih =>
      have large : ¬ n < 10 := by
        have : 10 ≤ 10 ^ (width + 1) := Nat.le_self_pow (by omega) 10
        omega
      have lower' : 10 ^ width ≤ n / 10 := by
        rw [Nat.le_div_iff_mul_le (by omega), ← pow_succ]
        exact lower
      have upper' : n / 10 < 10 ^ (width + 1) := by
        rw [Nat.div_lt_iff_lt_mul (by omega), ← pow_succ]
        exact upper
      rw [Nat.toDigits_eq_if (by omega), if_neg large, ih lower' upper', padded]
      rfl

/-- No zeros lead. -/
theorem head?_toDigits (leading : (Nat.toDigits 10 n).head? = some '0') :
    Nat.toDigits 10 n = ['0'] := by
  induction n using Nat.strongRecOn with
  | ind n ih =>
      rw [Nat.toDigits_eq_if (by omega)] at leading ⊢
      split at leading
      · rename_i small
        rw [if_pos small]
        simpa using leading
      · rename_i large
        rw [List.head?_append_of_ne_nil _ Nat.toDigits_ne_nil] at leading
        have zero := ih (n / 10) (by omega) leading
        have value_zero := value_toDigits (n / 10)
        rw [zero] at value_zero
        have : n / 10 = 0 := value_zero.symm
        omega

end Digits

/-! ### Order -/

/-- Numbers as text: each with its width, and what stands after it. -/
def fields : List (Nat × List Char) → List Nat → List Char
  | (width, after) :: format, n :: ns => padded width n ++ (after ++ fields format ns)
  | _, _ => []

section Order

variable {width m n : Nat} {format : List (Nat × List Char)} {ms ns : List Nat}

/-- Texts of one length compare first. -/
theorem append_lt_append_iff {xs ys xs' ys' : List Char} (lengths : xs.length = xs'.length) :
    xs ++ ys < xs' ++ ys' ↔ xs < xs' ∨ (xs = xs' ∧ ys < ys') := by
  induction xs generalizing xs' with
  | nil =>
      obtain rfl := List.length_eq_zero_iff.mp lengths.symm
      simp
  | cons x xs ih =>
      cases xs' with
      | nil => simp at lengths
      | cons x' xs' =>
          have tails : xs.length = xs'.length := Nat.succ.inj lengths
          rw [List.cons_append, List.cons_append, List.cons_lt_cons_iff, List.cons_lt_cons_iff,
            ih tails, List.cons.injEq]
          tauto

theorem digitChar_lt_iff (hm : m < 10) (hn : n < 10) : m.digitChar < n.digitChar ↔ m < n := by
  have chars : m.digitChar < n.digitChar ↔ m.digitChar.toNat < n.digitChar.toNat := gt_iff_lt
  rw [chars, Nat.toNat_digitChar_of_lt_ten hm, Nat.toNat_digitChar_of_lt_ten hn]
  omega

theorem padded_inj (hm : m < 10 ^ width) (hn : n < 10 ^ width) :
    padded width m = padded width n ↔ m = n := by
  constructor
  · intro same
    have values := congrArg value same
    rwa [value_padded, value_padded, Nat.mod_eq_of_lt hm, Nat.mod_eq_of_lt hn] at values
  · rintro rfl
    rfl

/-- **Digits of one length compare as the numbers do.** -/
theorem padded_lt_iff (hm : m < 10 ^ width) (hn : n < 10 ^ width) :
    padded width m < padded width n ↔ m < n := by
  induction width generalizing m n with
  | zero =>
      have hm' : m = 0 := by simpa using hm
      have hn' : n = 0 := by simpa using hn
      simp [padded, hm', hn']
  | succ width ih =>
      have tens {k : Nat} (hk : k < 10 ^ (width + 1)) : k / 10 < 10 ^ width := by
        rw [Nat.div_lt_iff_lt_mul (by omega), ← pow_succ]
        exact hk
      have last : [(m % 10).digitChar] < [(n % 10).digitChar] ↔ m % 10 < n % 10 := by
        rw [List.cons_lt_cons_iff,
          digitChar_lt_iff (Nat.mod_lt m (by omega)) (Nat.mod_lt n (by omega))]
        simp
      rw [padded, padded, append_lt_append_iff (by simp), ih (tens hm) (tens hn),
        padded_inj (tens hm) (tens hn), last]
      omega

/-- The numbers fit the widths of a format, each in its place. -/
def Fit (format : List (Nat × List Char)) (ns : List Nat) : Prop :=
  List.Forall₂ (fun field n => n < 10 ^ field.1) format ns

/-- **Texts of one format compare as their numbers do**, the first that differ deciding. -/
theorem fields_lt_iff (hm : Fit format ms) (hn : Fit format ns) :
    fields format ms < fields format ns ↔ ms < ns := by
  induction format generalizing ms ns with
  | nil =>
      cases hm
      cases hn
      simp [fields]
  | cons field format ih =>
      cases hm with
      | cons small smalls =>
          cases hn with
          | cons small' smalls' =>
              rw [fields, fields, append_lt_append_iff (by simp), padded_lt_iff small small',
                padded_inj small small', append_lt_append_iff rfl, ih smalls smalls',
                List.cons_lt_cons_iff]
              simp only [List.lt_irrefl, false_or, true_and]

/-- A format has one length. -/
theorem length_fields (fit : Fit format ns) :
    (fields format ns).length = (format.map fun field => field.1 + field.2.length).sum := by
  induction fit with
  | nil => rfl
  | cons _ _ ih =>
      rw [fields, List.length_append, List.length_append, length_padded, ih, List.map_cons,
        List.sum_cons]
      omega

end Order

/-! ### A fixed number of places -/

section Fixed

variable {places n k : Nat} {negative : Bool} {xs : List Char}

theorem takeWhile_digits (ys : List Char) (digits : ∀ c ∈ xs, c.isDigit = true) :
    (xs ++ '.' :: ys).takeWhile Char.isDigit = xs ∧
      (xs ++ '.' :: ys).dropWhile Char.isDigit = '.' :: ys := by
  constructor
  · rw [List.takeWhile_append_of_pos digits, List.takeWhile_cons_of_neg (by decide),
      List.append_nil]
  · rw [List.dropWhile_append_of_pos digits, List.dropWhile_cons_of_neg (by decide)]

theorem readUnsigned?_fixed (pos : 0 < places) :
    readUnsigned? (Nat.toDigits 10 (n / 10 ^ places) ++ '.' :: padded places n) =
      some ((n : ℚ) / 10 ^ places) := by
  obtain ⟨whole, rest⟩ := takeWhile_digits (padded places n)
    (isDigit_toDigits (n := n / 10 ^ places))
  have proper : ¬ (Nat.toDigits 10 (n / 10 ^ places) = [] ∨
      ((Nat.toDigits 10 (n / 10 ^ places)).head? = some '0' ∧
        Nat.toDigits 10 (n / 10 ^ places) ≠ ['0'])) := by
    rintro (none | ⟨leading, more⟩)
    · exact Nat.toDigits_ne_nil none
    · exact more (head?_toDigits leading)
  have fraction : padded places n ≠ [] ∧ (padded places n).all Char.isDigit = true := by
    refine ⟨?_, List.all_eq_true.mpr isDigit_padded⟩
    rw [← List.length_pos_iff, length_padded]
    exact pos
  have sum : ((n / 10 ^ places : Nat) : ℚ) + ((n % 10 ^ places : Nat) : ℚ) / 10 ^ places =
      n / 10 ^ places := by
    have parts : (10 : ℚ) ^ places * (n / 10 ^ places : Nat) + (n % 10 ^ places : Nat) = n :=
      mod_cast Nat.div_add_mod n (10 ^ places)
    field_simp
    rw [← parts]
    ring
  simp only [readUnsigned?, whole, rest, if_neg proper, true_and, if_pos fraction,
    value_toDigits, value_padded, length_padded, sum]

/-- **Round trip.** -/
theorem readNumber?_fixed (pos : 0 < places) :
    readNumber? (fixed places negative n) =
      some (if negative then -((n : ℚ) / 10 ^ places) else (n : ℚ) / 10 ^ places) := by
  cases negative with
  | true =>
      have signed : (fixed places true n).head? = some '-' := rfl
      have unsigned : (fixed places true n).tail =
          Nat.toDigits 10 (n / 10 ^ places) ++ '.' :: padded places n := rfl
      rw [readNumber?, if_pos signed, unsigned, readUnsigned?_fixed pos]
      rfl
  | false =>
      have unsigned : (fixed places false n).head? ≠ some '-' := by
        intro signed
        have member : '-' ∈ Nat.toDigits 10 (n / 10 ^ places) := by
          rw [fixed, if_neg (by simp), List.nil_append,
            List.head?_append_of_ne_nil _ Nat.toDigits_ne_nil] at signed
          exact List.mem_of_mem_head? signed
        exact absurd (isDigit_toDigits _ member) (by decide)
      rw [readNumber?, if_neg unsigned]
      exact readUnsigned?_fixed pos

/-- The room it takes. -/
theorem length_fixed_le (digits : 0 < k) (small : n / 10 ^ places < 10 ^ k) :
    (fixed places negative n).length ≤ k + places + 2 := by
  have whole := (Nat.length_toDigits_le_iff (by omega) digits).mpr small
  have sign : (if negative then ['-'] else []).length ≤ 1 := by
    cases negative <;> simp
  simp only [fixed, List.length_append, List.length_cons, length_padded]
  omega

end Fixed

end SmartScale.Decimal
