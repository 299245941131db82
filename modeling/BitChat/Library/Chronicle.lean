import Mathlib.Init

/-!
# Histories

A history is a list of happenings, oldest first. `Always P` says that every
happening is in the relation `P` to what came before it. It is kept by
appending happenings that are in that relation to the whole history, where
`P` does not mind a longer past.
-/

namespace Chronicle

set_option autoImplicit false

universe u

variable {α : Type u} {P : List α → α → Prop}

def Always (P : List α → α → Prop) (history : List α) : Prop :=
  ∀ before happening after, history = before ++ happening :: after → P before happening

theorem always_nil : Always P [] := by
  intro before happening after split
  cases before <;> cases split

theorem always_append {history recent : List α}
    (longer : ∀ before more happening, P before happening → P (before ++ more) happening)
    (always : Always P history) (each : ∀ happening ∈ recent, P history happening) :
    Always P (history ++ recent) := by
  intro before happening after split
  rcases List.append_eq_append_iff.mp split with ⟨first, past, now⟩ | ⟨rest, past, now⟩
  · rw [past]
    apply longer
    apply each
    rw [now]
    exact List.mem_append_right _ List.mem_cons_self
  · cases rest with
    | nil =>
        rw [List.append_nil] at past
        rw [← past]
        apply each
        rw [← List.nil_append recent, ← now]
        exact List.mem_cons_self
    | cons head tail =>
        rw [List.cons_append, List.cons.injEq] at now
        rw [now.1]
        exact always before head tail past

end Chronicle
