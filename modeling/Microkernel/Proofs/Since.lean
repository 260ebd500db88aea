import Mathlib.Data.List.Basic

/-!
# What began and has not ended

In a history some entries begin something and some end it. `Since` says of a history that one entry began it and none ended it
afterwards; a history that grows by one entry changes that only by the new entry (`Since.concat`).
-/

namespace Microkernel

variable {α : Type}

/-- Some entry begins it, and no later one ends it. -/
def Since (begins ends : α → Prop) : List α → Prop
  | [] => False
  | entry :: later => (begins entry ∧ ∀ other ∈ later, ¬ ends other) ∨ Since begins ends later

namespace Since

variable {begins ends : α → Prop} {history : List α} {entry : α}

instance decidable [DecidablePred begins] [DecidablePred ends] : ∀ history : List α, Decidable (Since begins ends history)
  | [] => inferInstanceAs (Decidable False)
  | entry :: later =>
    have := decidable later
    inferInstanceAs (Decidable ((begins entry ∧ ∀ other ∈ later, ¬ ends other) ∨ Since begins ends later))

/-- After one more entry something has begun and not ended since if the entry begins it, or if it had and the entry does not end
it. -/
theorem concat : Since begins ends (history ++ [entry]) ↔ begins entry ∨ (Since begins ends history ∧ ¬ ends entry) := by
  induction history with
  | nil => simp [Since]
  | cons first later ih =>
    rw [List.cons_append, Since, Since, ih]
    simp only [List.forall_mem_append, List.forall_mem_singleton]
    tauto

/-- Entries that neither begin nor end it change nothing. -/
theorem append_of_idle {later : List α} (h : ∀ entry ∈ later, ¬ begins entry ∧ ¬ ends entry) :
    Since begins ends (history ++ later) ↔ Since begins ends history := by
  induction later generalizing history with
  | nil => rw [List.append_nil]
  | cons entry rest ih =>
    obtain ⟨⟨hbegins, hends⟩, hrest⟩ := List.forall_mem_cons.1 h
    rw [List.append_cons, ih hrest, concat]
    simp [hbegins, hends]

end Since

end Microkernel
