import Mathlib.Algebra.BigOperators.Group.List.Basic
import Mathlib.Algebra.Order.BigOperators.Group.List
import Mathlib.Algebra.Order.Field.Basic
import Mathlib.Data.List.Rotate
import Mathlib.Tactic.Abel
import Mathlib.Tactic.Linarith
import Mathlib.Tactic.Positivity
import Mathlib.Tactic.Ring

/-!
Sliding windows and the ring buffers that hold them.

`window n d xs` is the abstract content of a window of `n` cells after pushing
`xs` one by one into cells that all start as `d`: the last `n` entries, oldest
first. `recent n xs` drops the padding.

* `Ring.Holds` relates a buffer and a write index to the pushes it has seen:
  read from the write index on, the buffer is the window.
* `Ring.holds_push` is the step lemma, and `Ring.sum_eq` and `Ring.sum_set`
  are what a running sum needs.
* `mean_mem_Icc` and `mean_eq_of_forall` bound the mean of what is held, and
  `mean_recent_cons_cons_iff` says what a push made twice does to it.
-/

namespace SmartScale.SlidingWindow

variable {α : Type*}

/-- The last `n` cells after pushing `xs` into a window of `n` copies of `d`. -/
def window (n : Nat) (d : α) (xs : List α) : List α :=
  (List.replicate n d ++ xs).drop xs.length

/-- The last `min n xs.length` entries of `xs`. -/
def recent (n : Nat) (xs : List α) : List α :=
  xs.drop (xs.length - n)

@[simp] theorem length_recent (n : Nat) (xs : List α) :
    (recent n xs).length = min xs.length n := by
  simp only [recent, List.length_drop]
  omega

@[simp] theorem window_nil (n : Nat) (d : α) : window n d [] = List.replicate n d := by
  simp [window]

theorem recent_subset (n : Nat) (xs : List α) : recent n xs ⊆ xs :=
  List.drop_subset _ _

theorem recent_ne_nil {n : Nat} {xs : List α} (hn : 0 < n) (hxs : xs ≠ []) :
    recent n xs ≠ [] := by
  have : 0 < xs.length := List.length_pos_iff.mpr hxs
  apply List.ne_nil_of_length_pos
  rw [length_recent]
  omega

/-- With at least `n` trailing entries in `ys`, nothing before `ys` is recent. -/
theorem recent_append {n : Nat} {ys : List α} (xs : List α) (h : n ≤ ys.length) :
    recent n (xs ++ ys) = recent n ys := by
  have split : (xs ++ ys).length - n = xs.length + (ys.length - n) := by
    rw [List.length_append]
    omega
  rw [recent, split, List.drop_append, List.drop_of_length_le (Nat.le_add_right _ _),
    List.nil_append, Nat.add_sub_cancel_left, recent]

/-- What is recent before a push, and the new entry. -/
theorem recent_concat {n : Nat} (hn : 0 < n) (xs : List α) (x : α) :
    recent n (xs ++ [x]) = recent (n - 1) xs ++ [x] := by
  have inside : xs.length - (n - 1) ≤ xs.length := Nat.sub_le _ _
  have split : (xs ++ [x]).length - n = xs.length - (n - 1) := by
    rw [List.length_append, List.length_singleton]
    omega
  rw [recent, split, List.drop_append_of_le_length inside, recent]

/-- Padding first, then the recent entries. -/
theorem window_eq_replicate_append (n : Nat) (d : α) (xs : List α) :
    window n d xs = List.replicate (n - xs.length) d ++ recent n xs := by
  simp [window, recent, List.drop_append]

/-- A push drops the oldest cell and appends the new entry. -/
theorem window_push {n : Nat} (hn : 0 < n) (d : α) (xs : List α) (x : α) :
    window n d (xs ++ [x]) = (window n d xs).tail ++ [x] := by
  have inside : xs.length + 1 ≤ (List.replicate n d ++ xs).length := by
    simp only [List.length_append, List.length_replicate]
    omega
  rw [window, ← List.append_assoc, List.length_append, List.length_singleton,
    List.drop_append_of_le_length inside, window, List.tail_drop]

theorem sum_window [AddCommMonoid α] (n : Nat) (xs : List α) :
    (window n 0 xs).sum = (recent n xs).sum := by
  simp [window_eq_replicate_append]

/-! ### Ring buffers -/

namespace Ring

/-- `buf` with write index `i` holds the window of the pushes `xs`: reading the
ring from the write index on yields the window, oldest cell first. -/
structure Holds (n : Nat) (d : α) (buf : List α) (i : Nat) (xs : List α) : Prop where
  length_eq : buf.length = n
  index_lt : i < n
  rotate_eq : buf.rotate i = window n d xs

variable {n i : Nat} {d x : α} {buf xs : List α}

theorem holds_nil (hn : 0 < n) : Holds n d (List.replicate n d) 0 ([] : List α) where
  length_eq := by simp
  index_lt := hn
  rotate_eq := by simp

/-- Overwriting the cell at the write index and advancing it rotates the old
oldest cell out. -/
theorem rotate_set_succ (hi : i < buf.length) (x : α) :
    (buf.set i x).rotate ((i + 1) % buf.length) = (buf.rotate i).tail ++ [x] := by
  have advance : (buf.set i x).rotate ((i + 1) % buf.length) = (buf.set i x).rotate (i + 1) := by
    simpa using List.rotate_mod (buf.set i x) (i + 1)
  have old : buf.rotate i = buf[i] :: (buf.drop (i + 1) ++ buf.take i) := by
    rw [List.rotate_eq_drop_append_take hi.le, List.drop_eq_getElem_cons hi, List.cons_append]
  rw [advance, List.rotate_eq_drop_append_take (by simpa using Nat.succ_le_of_lt hi), old,
    List.tail_cons,
    List.drop_set_of_lt (Nat.lt_succ_self i), List.take_succ_eq_append_getElem (by simpa using hi),
    List.take_set_of_le (Nat.le_refl i)]
  simp

/-- **Step lemma.** Writing at the write index and advancing it pushes. -/
theorem holds_push (h : Holds n d buf i xs) (x : α) :
    Holds n d (buf.set i x) ((i + 1) % n) (xs ++ [x]) where
  length_eq := by simpa using h.length_eq
  index_lt := Nat.mod_lt _ (Nat.zero_lt_of_lt h.index_lt)
  rotate_eq := by
    have hn : 0 < n := Nat.zero_lt_of_lt h.index_lt
    have hi : i < buf.length := h.length_eq ▸ h.index_lt
    have pushed := rotate_set_succ hi x
    rw [h.length_eq, h.rotate_eq] at pushed
    rw [pushed, window_push hn]

/-- A cleared ring with one entry in its first cell holds that entry. -/
theorem holds_singleton (hn : 0 < n) (x : α) :
    Holds n d ((List.replicate n d).set 0 x) (1 % n) [x] := by
  simpa using holds_push (holds_nil (d := d) hn) x

/-- A running sum over the cells is the sum of the recent pushes. -/
theorem sum_eq [AddCommMonoid α] (h : Holds n 0 buf i xs) : buf.sum = (recent n xs).sum := by
  calc buf.sum = (buf.rotate i).sum := (List.rotate_perm buf i).sum_eq.symm
    _ = (recent n xs).sum := by rw [h.rotate_eq, sum_window]

theorem sum_set [AddCommGroup α] (hi : i < buf.length) (x : α) :
    (buf.set i x).sum = buf.sum - buf.getD i 0 + x := by
  rw [List.sum_set', dif_pos hi, List.getD_eq_getElem?_getD, List.getElem?_eq_getElem hi,
    Option.getD_some]
  abel

end Ring

/-! ### Means -/

section Mean

variable {𝕜 : Type*} [Field 𝕜]

/-- The arithmetic mean of a list. -/
def mean (xs : List 𝕜) : 𝕜 := xs.sum / xs.length

variable [LinearOrder 𝕜] [IsStrictOrderedRing 𝕜] {xs : List 𝕜} {lo hi c : 𝕜}

/-- The mean of a nonempty list stays between bounds on its entries. -/
theorem mean_mem_Icc (hxs : xs ≠ []) (h : ∀ x ∈ xs, x ∈ Set.Icc lo hi) :
    mean xs ∈ Set.Icc lo hi := by
  have pos : (0 : 𝕜) < xs.length := by exact_mod_cast List.length_pos_iff.mpr hxs
  have lower : xs.length • lo ≤ xs.sum := List.card_nsmul_le_sum xs lo fun x hx => (h x hx).1
  have upper : xs.sum ≤ xs.length • hi := List.sum_le_card_nsmul xs hi fun x hx => (h x hx).2
  rw [nsmul_eq_mul] at lower upper
  exact ⟨(le_div_iff₀ pos).mpr (by linarith), (div_le_iff₀ pos).mpr (by linarith)⟩

theorem mean_eq_of_forall (hxs : xs ≠ []) (h : ∀ x ∈ xs, x = c) : mean xs = c := by
  have inside : mean xs ∈ Set.Icc c c := mean_mem_Icc hxs fun x hx => by simp [h x hx]
  exact le_antisymm inside.2 inside.1

theorem mean_eq_iff (hxs : xs ≠ []) : mean xs = c ↔ xs.sum = xs.length * c := by
  have pos : (0 : 𝕜) < xs.length := by exact_mod_cast List.length_pos_iff.mpr hxs
  rw [mean, div_eq_iff pos.ne', mul_comm]

/-- Counting the first entry twice leaves a mean as it is where that entry is the mean of the
others. -/
theorem mean_cons_cons_iff (x : 𝕜) (rest : List 𝕜) :
    mean (x :: x :: rest) = mean (x :: rest) ↔ rest.sum = rest.length * x := by
  have pos : (0 : 𝕜) < rest.length + 1 := by positivity
  have pos' : (0 : 𝕜) < rest.length + 1 + 1 := by positivity
  simp only [mean, List.sum_cons, List.length_cons, Nat.cast_add, Nat.cast_one]
  rw [div_eq_div_iff pos'.ne' pos.ne']
  constructor
  · intro same
    linarith
  · intro same
    rw [same]
    ring

/-- In a window, it also does where the second copy has left it. -/
theorem mean_recent_cons_cons_iff (n : Nat) (x : 𝕜) (rest : List 𝕜) :
    mean (recent n (x :: x :: rest)) = mean (recent n (x :: rest)) ↔
      n ≤ (x :: rest).length ∨ rest.sum = rest.length * x := by
  by_cases left : n ≤ (x :: rest).length
  · have dropped : recent n ([x] ++ x :: rest) = recent n (x :: rest) := recent_append [x] left
    exact iff_of_true (congrArg mean dropped) (.inl left)
  · have whole : recent n (x :: rest) = x :: rest := by
      rw [recent, Nat.sub_eq_zero_of_le (by omega), List.drop_zero]
    have whole' : recent n (x :: x :: rest) = x :: x :: rest := by
      have length : (x :: x :: rest).length = (x :: rest).length + 1 := rfl
      rw [recent, length, Nat.sub_eq_zero_of_le (by omega), List.drop_zero]
    rw [whole, whole', mean_cons_cons_iff, or_iff_right left]

end Mean

end SmartScale.SlidingWindow
