import Mathlib.Init

/-!
# Labelled transition systems

A state predicate that holds initially and is kept by every step holds in
every reachable state. `guarded` restricts a system to the steps that a
condition on the state before the step admits. A reflexive and transitive
relation that every step respects relates each state of a run to all later
ones. `Reachable.simulate` carries a run over to a more abstract system.
-/

namespace TransitionSystem

set_option autoImplicit false

universe u v

structure System (State : Type u) (Label : Type v) where
  initial : State → Prop
  step : State → Label → State → Prop

section Runs

variable {State : Type u} {Label : Type v}

inductive Reachable (system : System State Label) : State → Prop
  | start {state : State} (initial : system.initial state) : Reachable system state
  | next {state after : State} (label : Label) (reached : Reachable system state)
      (step : system.step state label after) : Reachable system after

def guarded (system : System State Label) (guard : State → Label → Prop) :
    System State Label where
  initial := system.initial
  step state label after := system.step state label after ∧ guard state label

theorem Reachable.weaken {system larger : System State Label}
    (initially : ∀ state, system.initial state → larger.initial state)
    (steps : ∀ state label after, system.step state label after → larger.step state label after)
    {state : State} (reached : Reachable system state) : Reachable larger state := by
  induction reached with
  | start initial => exact .start (initially _ initial)
  | next label _ step ih => exact .next label ih (steps _ _ _ step)

theorem Reachable.invariant {system : System State Label} (Inv : State → Prop)
    (initially : ∀ state, system.initial state → Inv state)
    (kept : ∀ state label after, Inv state → system.step state label after → Inv after)
    {state : State} (reached : Reachable system state) : Inv state := by
  induction reached with
  | start initial => exact initially _ initial
  | next _ _ step ih => exact kept _ _ _ ih step

inductive Leads (system : System State Label) (start : State) : State → Prop
  | stay : Leads system start start
  | next {state after : State} (label : Label) (leads : Leads system start state)
      (step : system.step state label after) : Leads system start after

theorem Reachable.leads {system : System State Label} {start later : State}
    (reached : Reachable system start) (leads : Leads system start later) :
    Reachable system later := by
  induction leads with
  | stay => exact reached
  | next label _ step ih => exact .next label ih step

theorem Leads.relation {system : System State Label} (Rel : State → State → Prop)
    (refl : ∀ state, Rel state state)
    (trans : ∀ first second third, Rel first second → Rel second third → Rel first third)
    (kept : ∀ state label after, system.step state label after → Rel state after)
    {start later : State} (leads : Leads system start later) : Rel start later := by
  induction leads with
  | stay => exact refl start
  | next label _ step ih => exact trans _ _ _ ih (kept _ label _ step)

theorem Leads.single {system : System State Label} {state after : State} (label : Label)
    (step : system.step state label after) : Leads system state after :=
  .next label .stay step

theorem Leads.weaken {system larger : System State Label}
    (steps : ∀ state label after, system.step state label after → larger.step state label after)
    {start later : State} (leads : Leads system start later) : Leads larger start later := by
  induction leads with
  | stay => exact .stay
  | next label _ step ih => exact .next label ih (steps _ _ _ step)

/-- Successive moves of a partial function, `none` if one of them is not
possible. -/
def follow (move : State → Label → Option State) : State → List Label → Option State
  | state, [] => some state
  | state, label :: rest => (move state label).bind fun next => follow move next rest

theorem follow_leads {system : System State Label} {move : State → Label → Option State}
    {start : State} (labels : List Label)
    (steps : ∀ label ∈ labels, ∀ state after,
      move state label = some after → system.step state label after) :
    ∀ {state later : State}, Leads system start state → follow move state labels = some later →
      Leads system start later := by
  induction labels with
  | nil =>
      intro state later leads followed
      rw [← Option.some.inj followed]
      exact leads
  | cons label rest ih =>
      intro state later leads followed
      obtain ⟨next, moved, remaining⟩ := Option.bind_eq_some_iff.mp followed
      have here := steps label List.mem_cons_self state next moved
      exact ih (fun other inRest => steps other (List.mem_cons_of_mem label inRest))
        (.next label leads here) remaining

/-- Forward simulation: a relation to the states of another system that holds
initially, and that every step keeps up to a run of the other system. -/
theorem Reachable.simulate {system : System State Label} {Image : Type u} {Move : Type v}
    {abstract : System Image Move} (Rel : State → Image → Prop)
    (initially : ∀ state, system.initial state →
      ∃ image, abstract.initial image ∧ Rel state image)
    (steps : ∀ state label after image, Reachable abstract image → Rel state image →
      system.step state label after → ∃ moved, Leads abstract image moved ∧ Rel after moved)
    {state : State} (reached : Reachable system state) :
    ∃ image, Reachable abstract image ∧ Rel state image := by
  induction reached with
  | start initial =>
      obtain ⟨image, fresh, related⟩ := initially _ initial
      exact ⟨image, .start fresh, related⟩
  | next label _ step ih =>
      obtain ⟨image, reachedImage, related⟩ := ih
      obtain ⟨moved, leads, relatedAfter⟩ := steps _ label _ image reachedImage related step
      exact ⟨moved, reachedImage.leads leads, relatedAfter⟩

end Runs

end TransitionSystem
