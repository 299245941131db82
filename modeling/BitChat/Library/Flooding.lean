import BitChat.Library.TransitionSystem
import Mathlib.Data.Fintype.Card
import Mathlib.Logic.Relation

/-!
# Flooding with a hop budget

One message is flooded over a set of places. A place takes part once, at the
first copy it hears, and passes the message on with a budget one below that
of the copy. A copy with no budget left ends where it is heard, and so does
one that reaches a sink. Budget is spent on distinct places only, so in a
network that is not larger than the budget no copy runs dry, and once every
copy was heard by everyone in range of its speaker the flood has covered all
that is connected to the origin.
-/

namespace Flooding

open TransitionSystem

set_option autoImplicit false

universe u

/-- The places that have taken part, the budget with which each of them
passes the message on, and who has heard whom. -/
structure Flood (Place : Type u) where
  seen : Finset Place
  passes : Place → Option Nat
  heard : Place → Place → Prop

inductive Move (Place : Type u) where
  | originate
  | hear (listener speaker : Place)

section Moves

variable {Place : Type u} [DecidableEq Place] (origin : Place) (total : Nat)
  (sink : Place → Prop) [DecidablePred sink]

def Flood.originate (flood : Flood Place) : Flood Place where
  seen := {origin}
  passes := Function.update flood.passes origin (some total)
  heard := flood.heard

def Flood.hear (flood : Flood Place) (listener speaker : Place) (budget : Nat) : Flood Place where
  seen := insert listener flood.seen
  passes :=
    if listener ∈ flood.seen ∨ budget = 0 ∨ sink listener then flood.passes
    else Function.update flood.passes listener (some (budget - 1))
  heard := fun other voice => flood.heard other voice ∨ other = listener ∧ voice = speaker

def floodSystem : System (Flood Place) (Move Place) where
  initial flood := flood.seen = ∅ ∧ (∀ place, flood.passes place = none) ∧
    ∀ listener speaker, ¬ flood.heard listener speaker
  step flood move after := match move with
    | .originate => flood.seen = ∅ ∧ after = flood.originate origin total
    | .hear listener speaker => ∃ budget, flood.passes speaker = some budget ∧
        after = flood.hear sink listener speaker budget

/-- What every flood keeps. `spent` says that each unit of budget was spent
on a place of its own, `passed` that a place that takes part and is no sink
passes the message on unless a copy has already run dry. -/
structure Budgeted (flood : Flood Place) : Prop where
  started : flood.seen.Nonempty → origin ∈ flood.seen
  carried : ∀ place budget, flood.passes place = some budget → place ∈ flood.seen
  within : ∀ place budget, flood.passes place = some budget → budget ≤ total
  spent : ∀ place budget, flood.passes place = some budget → total < budget + flood.seen.card
  listened : ∀ listener speaker, flood.heard listener speaker → listener ∈ flood.seen
  passed : ∀ place ∈ flood.seen, place = origin ∨ ¬ sink place →
    (flood.passes place).isSome ∨ total + 1 < flood.seen.card

theorem budgeted_initially {flood : Flood Place}
    (initial : (floodSystem origin total sink).initial flood) :
    Budgeted origin total sink flood := by
  obtain ⟨unseen, silent, unheard⟩ := initial
  constructor
  · simp [unseen]
  · simp [silent]
  · simp [silent]
  · simp [silent]
  · intro listener speaker heard
    exact absurd heard (unheard listener speaker)
  · simp [unseen]

variable {origin total sink}

omit [DecidablePred sink] in
theorem Budgeted.originate {flood : Flood Place} (inv : Budgeted origin total sink flood)
    (unseen : flood.seen = ∅) : Budgeted origin total sink (flood.originate origin total) := by
  have silent : ∀ place, flood.passes place = none := by
    intro place
    cases passing : flood.passes place with
    | none => rfl
    | some budget =>
        have member := inv.carried place budget passing
        rw [unseen] at member
        exact absurd member (Finset.notMem_empty place)
  have only : ∀ place budget, (flood.originate origin total).passes place = some budget →
      place = origin ∧ budget = total := by
    intro place budget passing
    by_cases here : place = origin
    · simp only [Flood.originate, here, Function.update_self] at passing
      exact ⟨here, (Option.some.inj passing).symm⟩
    · simp only [Flood.originate, Function.update_of_ne here, silent place] at passing
      cases passing
  have single : (flood.originate origin total).seen.card = 1 := Finset.card_singleton origin
  constructor
  · exact fun _ => Finset.mem_singleton_self origin
  · intro place budget passing
    rw [(only place budget passing).1]
    exact Finset.mem_singleton_self origin
  · intro place budget passing
    exact Nat.le_of_eq (only place budget passing).2
  · intro place budget passing
    rw [single, (only place budget passing).2]
    omega
  · intro listener speaker heard
    have member := inv.listened listener speaker heard
    rw [unseen] at member
    exact absurd member (Finset.notMem_empty listener)
  · intro place member _
    rw [Finset.mem_singleton.mp member]
    exact .inl (by simp [Flood.originate])

theorem passes_hear {flood : Flood Place} {listener speaker place : Place} {budget left : Nat}
    (passing : (flood.hear sink listener speaker budget).passes place = some left) :
    flood.passes place = some left ∨
      place = listener ∧ listener ∉ flood.seen ∧ left + 1 = budget ∧ ¬ sink listener := by
  simp only [Flood.hear] at passing
  split_ifs at passing with ends
  · exact .inl passing
  · push Not at ends
    obtain ⟨unseen, positive, relays⟩ := ends
    by_cases here : place = listener
    · rw [here, Function.update_self] at passing
      have below : budget - 1 = left := Option.some.inj passing
      exact .inr ⟨here, unseen, by omega, relays⟩
    · rw [Function.update_of_ne here] at passing
      exact .inl passing

theorem Budgeted.hear {flood : Flood Place} {listener speaker : Place} {budget : Nat}
    (inv : Budgeted origin total sink flood) (speaks : flood.passes speaker = some budget) :
    Budgeted origin total sink (flood.hear sink listener speaker budget) := by
  have grows : flood.seen ⊆ insert listener flood.seen := Finset.subset_insert listener flood.seen
  have larger : flood.seen.card ≤ (insert listener flood.seen).card := Finset.card_le_card grows
  have fewer := inv.spent speaker budget speaks
  have begun : origin ∈ flood.seen := inv.started ⟨speaker, inv.carried speaker budget speaks⟩
  constructor
  · exact fun _ => grows begun
  · intro place left passing
    rcases passes_hear passing with before | ⟨here, -⟩
    · exact grows (inv.carried place left before)
    · rw [here]
      exact Finset.mem_insert_self listener flood.seen
  · intro place left passing
    rcases passes_hear passing with before | ⟨-, -, hop, -⟩
    · exact inv.within place left before
    · have := inv.within speaker budget speaks
      omega
  · intro place left passing
    show total < left + (insert listener flood.seen).card
    rcases passes_hear passing with before | ⟨-, unseen, hop, -⟩
    · have := inv.spent place left before
      omega
    · rw [Finset.card_insert_of_notMem unseen]
      omega
  · rintro other speaking (before | ⟨here, -⟩)
    · exact grows (inv.listened other speaking before)
    · rw [here]
      exact Finset.mem_insert_self listener flood.seen
  · intro place member relays
    show _ ∨ total + 1 < (insert listener flood.seen).card
    simp only [Flood.hear]
    by_cases known : place ∈ flood.seen
    · -- A place that took part before keeps the budget it passes on.
      rcases inv.passed place known relays with passing | dry
      · apply Or.inl
        split_ifs with ends
        · exact passing
        · have elsewhere : place ≠ listener := by
            intro here
            exact ends (.inl (here ▸ known))
          rw [Function.update_of_ne elsewhere]
          exact passing
      · exact .inr (by omega)
    · have here : place = listener := (Finset.mem_insert.mp member).resolve_right known
      subst here
      split_ifs with ends
      · -- The copy ends here: at a sink, which is not the origin, or run dry.
        rcases ends with seen | dry | ending
        · exact absurd seen known
        · rw [Finset.card_insert_of_notMem known]
          exact .inr (by omega)
        · rcases relays with start | goesOn
          · exact absurd (start ▸ begun) known
          · exact absurd ending goesOn
      · exact .inl (by simp)

theorem budgeted_of_reachable {flood : Flood Place}
    (reached : Reachable (floodSystem origin total sink) flood) :
    Budgeted origin total sink flood := by
  apply Reachable.invariant (Budgeted origin total sink) _ _ reached
  · exact fun _ initial => budgeted_initially origin total sink initial
  · intro before move after inv step
    cases move with
    | originate =>
        rw [step.2]
        exact inv.originate step.1
    | hear listener speaker =>
        obtain ⟨budget, speaks, result⟩ := step
        rw [result]
        exact inv.hear speaks

variable [Fintype Place]

omit [DecidablePred sink] in
theorem Budgeted.alive {flood : Flood Place} {listener speaker : Place} {budget : Nat}
    (inv : Budgeted origin total sink flood) (small : Fintype.card Place ≤ total + 1)
    (speaks : flood.passes speaker = some budget) (unseen : listener ∉ flood.seen) :
    budget ≠ 0 := by
  have spent := inv.spent speaker budget speaks
  have room : (insert listener flood.seen).card ≤ Fintype.card Place := Finset.card_le_univ _
  rw [Finset.card_insert_of_notMem unseen] at room
  omega

def Connected (origin : Place) (sink : Place → Prop) (range : Place → Place → Prop) :
    Place → Prop :=
  Relation.ReflTransGen (fun speaker listener =>
    range speaker listener ∧ (speaker = origin ∨ ¬ sink speaker)) origin

omit [DecidablePred sink] in
/-- Once every copy was heard by all in range of its speaker, the flood has
covered what is connected to the origin. -/
theorem Budgeted.covers {flood : Flood Place} (inv : Budgeted origin total sink flood)
    (small : Fintype.card Place ≤ total + 1) (begun : origin ∈ flood.seen)
    {range : Place → Place → Prop}
    (quiet : ∀ speaker listener, (flood.passes speaker).isSome → range speaker listener →
      flood.heard listener speaker)
    {place : Place} (connected : Connected origin sink range place) : place ∈ flood.seen := by
  induction connected with
  | refl => exact begun
  | tail _ link seen =>
      obtain ⟨near, relays⟩ := link
      have room : flood.seen.card ≤ Fintype.card Place := Finset.card_le_univ _
      rcases inv.passed _ seen relays with passing | dry
      · exact inv.listened _ _ (quiet _ _ passing near)
      · omega

end Moves

end Flooding
