import Mathlib.Data.List.Chain
import Mathlib.Data.List.Infix

/-!
Text as lines, and the search for a string in it.

* `memmem_isSome_iff`: the search finds what is in the text.
* `not_infix_unlines`: a string across a line break is in a text only where one line ends and the
  next one begins with its parts.
-/

namespace SmartScale.Lines

/-! ### Search -/

section Search

variable {α : Type*} [DecidableEq α]

/-- Where `needle` begins first. -/
def memmem (needle : List α) : List α → Option Nat
  | [] => if needle = [] then some 0 else none
  | x :: xs => if needle <+: x :: xs then some 0 else (memmem needle xs).map (· + 1)

theorem memmem_isSome_iff {needle haystack : List α} :
    (memmem needle haystack).isSome = true ↔ needle <:+: haystack := by
  induction haystack with
  | nil => simp [memmem]
  | cons x xs ih =>
      rw [memmem, List.infix_cons_iff]
      split
      · rename_i here
        exact iff_of_true rfl (.inl here)
      · rename_i elsewhere
        rw [Option.isSome_map, ih, or_iff_right elsewhere]

end Search

/-! ### Lines -/

/-- Every line is ended by a line break. -/
def unlines : List (List Char) → List Char
  | [] => []
  | l :: ls => l ++ '\n' :: unlines ls

/-- Of two line breaks in one text, the one after the first line is not the second. -/
theorem append_newline {l x y t : List Char} (line : '\n' ∉ l)
    (same : x ++ '\n' :: y = l ++ '\n' :: t) :
    (x = l ∧ y = t) ∨ ∃ x', x = l ++ '\n' :: x' ∧ t = x' ++ '\n' :: y := by
  rcases List.append_eq_append_iff.mp same with ⟨m, rfl, rest⟩ | ⟨m, rfl, rest⟩
  · cases m with
    | nil => exact .inl ⟨(List.append_nil x).symm, (List.cons.inj rest).2⟩
    | cons c m =>
        obtain rfl : '\n' = c := (List.cons.inj rest).1
        simp at line
  · cases m with
    | nil => exact .inl ⟨List.append_nil l, (List.cons.inj rest).2.symm⟩
    | cons c m =>
        obtain rfl : '\n' = c := (List.cons.inj rest).1
        exact .inr ⟨m, rfl, (List.cons.inj rest).2⟩

/-- A line the text begins with is the beginning of its first line. -/
theorem prefix_of_unlines {b post l : List Char} {ls : List (List Char)} (line : '\n' ∉ b)
    (same : b ++ post = unlines (l :: ls)) : b <+: l := by
  rcases List.append_eq_append_iff.mp same with ⟨m, rfl, _⟩ | ⟨m, rfl, rest⟩
  · exact List.prefix_append b m
  · cases m with
    | nil => rw [List.append_nil]
    | cons c m =>
        obtain rfl : '\n' = c := (List.cons.inj rest).1
        simp at line

/-- **Strings across a line break**: if no line that ends with `a` is followed by one that begins
with `b`, then the text does not contain `a`, a line break and `b`. -/
theorem not_infix_unlines {a b : List Char} {ls : List (List Char)} (first : '\n' ∉ a)
    (second : '\n' ∉ b) (nonempty : b ≠ []) (lines : ∀ l ∈ ls, '\n' ∉ l)
    (apart : ls.IsChain fun l m => ¬ (a <:+ l ∧ b <+: m)) :
    ¬ a ++ '\n' :: b <:+: unlines ls := by
  induction ls with
  | nil =>
      intro within
      simpa using List.infix_nil.mp within
  | cons l ls ih =>
      have later := ih (fun m hm => lines m (List.mem_cons_of_mem l hm)) apart.tail
      rintro ⟨pre, post, same⟩
      have broken : (pre ++ a) ++ '\n' :: (b ++ post) = l ++ '\n' :: unlines ls := by
        simpa [unlines] using same
      have line := lines l List.mem_cons_self
      rcases append_newline line broken with ⟨here, rest⟩ | ⟨x, within, rest⟩
      · cases ls with
        | nil => exact nonempty (List.append_eq_nil_iff.mp rest).1
        | cons m ls =>
            have begins := prefix_of_unlines second rest
            exact (List.isChain_cons_cons.mp apart).1 ⟨⟨pre, here⟩, begins⟩
      · -- `a` has no line break, so the one after `l` is before it
        rcases List.append_eq_append_iff.mp within with ⟨m, _, inside⟩ | ⟨m, rfl, inside⟩
        · rw [inside] at first
          simp at first
        · cases m with
          | nil =>
              rw [List.nil_append] at inside
              rw [← inside] at first
              simp at first
          | cons c m =>
              obtain ⟨rfl, rfl⟩ := List.cons.inj inside
              exact later ⟨m, post, by simp [rest]⟩

end SmartScale.Lines
