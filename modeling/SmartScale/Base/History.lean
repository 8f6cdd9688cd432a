import Mathlib.Data.List.Induction
import SmartScale.Base.Transducer

/-!
Histories of events and flags that remember them: a flag that some events set and
others clear says whether a setting event has occurred since the last clearing one
(`after_latch`).
-/

namespace SmartScale.History

open Transducer

variable {α σ ο : Type*}

/-- An event with `e` has occurred, and none with `stop` after it. -/
def Since (e stop : α → Prop) (history : List α) : Prop :=
  ∃ before x later, history = before ++ x :: later ∧ e x ∧ ∀ y ∈ later, ¬ stop y

section Since

variable {e stop : α → Prop} {history : List α} {y : α}

theorem not_since_nil : ¬ Since e stop [] := by
  rintro ⟨before, x, later, split, _⟩
  simp at split

/-- By the last event. -/
theorem since_concat :
    Since e stop (history ++ [y]) ↔ e y ∨ (¬ stop y ∧ Since e stop history) := by
  constructor
  · rintro ⟨before, x, later, split, here, quiet⟩
    rcases List.eq_nil_or_concat' later with rfl | ⟨later, z, rfl⟩
    · obtain ⟨rfl, last⟩ := List.append_inj' split rfl
      cases last
      exact .inl here
    · rw [← List.cons_append, ← List.append_assoc] at split
      obtain ⟨rfl, last⟩ := List.append_inj' split rfl
      cases last
      refine .inr ⟨quiet _ (by simp), before, x, later, rfl, here, ?_⟩
      intro w hw
      exact quiet w (List.mem_append_left _ hw)
  · rintro (here | ⟨goes, before, x, later, rfl, here, quiet⟩)
    · exact ⟨history, y, [], rfl, here, by simp⟩
    · refine ⟨before, x, later ++ [y], by simp, here, ?_⟩
      intro w hw
      rcases List.mem_append.mp hw with hw | hw
      · exact quiet w hw
      · rw [List.mem_singleton.mp hw]
        exact goes

theorem Since.exists_mem (since : Since e stop history) : ∃ x ∈ history, e x := by
  obtain ⟨before, x, later, rfl, here, _⟩ := since
  exact ⟨x, by simp, here⟩

/-- **A latch** tells whether its setting events have occurred since the clearing ones. -/
theorem after_latch {step : σ → α → σ × ο} {s : σ} (flag : σ → Prop) (clear : ¬ flag s)
    (latch : ∀ s x, flag (step s x).1 ↔ e x ∨ (¬ stop x ∧ flag s)) (history : List α) :
    flag (after step s history) ↔ Since e stop history := by
  induction history using List.reverseRecOn with
  | nil => exact iff_of_false clear not_since_nil
  | append_singleton history y ih =>
      rw [after_append, since_concat, ← ih]
      exact latch _ y

end Since

end SmartScale.History
