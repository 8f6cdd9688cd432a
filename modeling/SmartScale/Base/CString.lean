import Mathlib.Data.List.TakeWhile
import Mathlib.Data.List.TakeDrop

/-!
C strings in character arrays. A buffer is a vector of bytes; what it denotes ends before the
first zero, or with the buffer where there is none.

`strlcpy` copies what fits with its terminator: after it, the buffer denotes the first
`n - 1` bytes of the source (`denotes_strlcpy`), whatever it held before.
-/

namespace SmartScale.CString

variable {n : Nat} {src : List UInt8}

/-- The string a buffer denotes. -/
def denotes (buf : Vector UInt8 n) : List UInt8 := buf.toList.takeWhile (· ≠ 0)

/-- A string, as a string literal or a `char *` denotes it. -/
def NulFree (src : List UInt8) : Prop := ∀ b ∈ src, b ≠ 0

/-- The bytes `strlcpy` leaves in a buffer of `dst.length` bytes. -/
def copied (dst src : List UInt8) : List UInt8 :=
  match dst.length with
  | 0 => dst
  | k + 1 => src.take k ++ 0 :: dst.drop ((src.take k).length + 1)

theorem length_copied (dst src : List UInt8) : (copied dst src).length = dst.length := by
  unfold copied
  split
  · rfl
  · next k length =>
      simp only [List.length_append, List.length_cons, List.length_drop, List.length_take, length]
      omega

/-- `strlcpy(dst, src, sizeof(dst))`. -/
def strlcpy (dst : Vector UInt8 n) (src : List UInt8) : Vector UInt8 n :=
  ⟨(copied dst.toList src).toArray, by simp [length_copied]⟩

theorem nulFree_replicate {b : UInt8} (hb : b ≠ 0) (k : Nat) : NulFree (List.replicate k b) := by
  intro c hc
  rw [List.eq_of_mem_replicate hc]
  exact hb

theorem NulFree.take (h : NulFree src) (k : Nat) : NulFree (src.take k) :=
  fun b hb => h b (List.mem_of_mem_take hb)

/-- A string ends at the first zero after it. -/
theorem takeWhile_nulFree (h : NulFree src) (rest : List UInt8) :
    (src ++ 0 :: rest).takeWhile (· ≠ 0) = src := by
  have passed : ∀ b ∈ src, decide (b ≠ 0) = true := fun b hb => decide_eq_true (h b hb)
  rw [List.takeWhile_append_of_pos passed]
  simp

/-- **What a copy denotes.** -/
theorem denotes_strlcpy (dst : Vector UInt8 (n + 1)) (h : NulFree src) :
    denotes (strlcpy dst src) = src.take n := by
  have length : dst.toList.length = n + 1 := by simp
  have bytes : (strlcpy dst src).toList =
      src.take n ++ 0 :: dst.toList.drop ((src.take n).length + 1) := by
    show (copied dst.toList src).toArray.toList = _
    rw [copied, length]
  rw [denotes, bytes, takeWhile_nulFree (h.take n)]

/-- A copy of a copy into a buffer of the same size loses nothing more. -/
theorem denotes_strlcpy_strlcpy (dst dst' : Vector UInt8 (n + 1)) (h : NulFree src) :
    denotes (strlcpy dst' (denotes (strlcpy dst src))) = src.take n := by
  rw [denotes_strlcpy dst h, denotes_strlcpy dst' (h.take n), List.take_take, min_self]

/-- A copy is exact where the terminator has room. -/
theorem denotes_strlcpy_iff (dst : Vector UInt8 (n + 1)) (h : NulFree src) :
    denotes (strlcpy dst src) = src ↔ src.length ≤ n := by
  rw [denotes_strlcpy dst h, List.take_eq_self_iff]

end SmartScale.CString
