import Mathlib.Algebra.Order.BigOperators.Group.List
import Mathlib.Algebra.Order.Group.Nat
import Mathlib.Algebra.Group.Action.Defs

/-!
# Batches at a minimum distance

A log of batches, each with the time at which it was made. When the batches
that hold anything keep a minimum distance and each of them holds at most
`limit` items of a kind, a window of the log holds a bounded number of them.
-/

namespace Spacing

set_option autoImplicit false

def Spaced (gap : Nat) (times : List Nat) : Prop :=
  times.Pairwise fun earlier later => earlier + gap ≤ later

theorem Spaced.append {gap next : Nat} {times : List Nat} (spaced : Spaced gap times)
    (after : ∀ time ∈ times, time + gap ≤ next) : Spaced gap (times ++ [next]) := by
  apply List.pairwise_append.mpr
  refine ⟨spaced, List.pairwise_singleton _ _, ?_⟩
  intro time member last inLast
  rw [List.mem_singleton.mp inLast]
  exact after time member

theorem Spaced.span {gap start finish : Nat} (times : List Nat) (spaced : Spaced gap times)
    (lower : ∀ time ∈ times, start ≤ time) (upper : ∀ time ∈ times, time ≤ finish)
    (nonempty : times ≠ []) : start + gap * (times.length - 1) ≤ finish := by
  induction times generalizing start with
  | nil => exact absurd rfl nonempty
  | cons first rest ih =>
      have begins : start ≤ first := lower first List.mem_cons_self
      have ends : first ≤ finish := upper first List.mem_cons_self
      by_cases alone : rest = []
      · rw [alone]
        simp only [List.length_singleton, Nat.sub_self, Nat.mul_zero]
        omega
      · obtain ⟨apart, later⟩ := List.pairwise_cons.mp spaced
        have remaining := ih later apart (fun time member =>
          upper time (List.mem_cons_of_mem _ member)) alone
        have positive : 0 < rest.length := List.length_pos_of_ne_nil alone
        have count : (first :: rest).length - 1 = (rest.length - 1) + 1 := by
          rw [List.length_cons]
          omega
        rw [count, Nat.mul_succ]
        omega

theorem Spaced.length_le {gap start width : Nat} {times : List Nat} (positive : 0 < gap)
    (spaced : Spaced gap times) (lower : ∀ time ∈ times, start ≤ time)
    (upper : ∀ time ∈ times, time ≤ start + width) : times.length ≤ width / gap + 1 := by
  by_cases empty : times = []
  · rw [empty]
    exact Nat.zero_le _
  · have span := spaced.span times lower upper empty
    have gaps : times.length - 1 ≤ width / gap := by
      rw [Nat.le_div_iff_mul_le positive, Nat.mul_comm]
      omega
    omega

section Batches

variable {Item : Type}

structure Batch (Item : Type) where
  time : Nat
  items : List Item

/-- Made between `start` and `start + width`, both included. -/
def Batch.within (start width : Nat) (batch : Batch Item) : Bool :=
  decide (start ≤ batch.time ∧ batch.time ≤ start + width)

def Batch.active (batch : Batch Item) : Bool := !batch.items.isEmpty

def itemsIn (start width : Nat) (log : List (Batch Item)) : List Item :=
  (log.filter (Batch.within start width)).flatMap Batch.items

def activeTimes (log : List (Batch Item)) : List Nat := (log.filter Batch.active).map Batch.time

theorem active_times_append (log : List (Batch Item)) (batch : Batch Item) :
    activeTimes (log ++ [batch]) =
      if batch.active = true then activeTimes log ++ [batch.time] else activeTimes log := by
  unfold activeTimes
  rw [List.filter_append, List.map_append]
  split_ifs with busy
  · rw [List.filter_cons_of_pos busy]
    rfl
  · rw [List.filter_cons_of_neg busy]
    exact List.append_nil _

theorem flat_map_active (log : List (Batch Item)) :
    log.flatMap Batch.items = (log.filter Batch.active).flatMap Batch.items := by
  induction log with
  | nil => rfl
  | cons batch rest ih =>
      cases items : batch.items with
      | nil =>
          have idle : batch.active = false := by simp [Batch.active, items]
          rw [List.flatMap_cons, items, ih, List.filter_cons_of_neg (by simp [idle])]
          rfl
      | cons item more =>
          have busy : batch.active = true := by simp [Batch.active, items]
          rw [List.flatMap_cons, ih, List.filter_cons_of_pos busy, List.flatMap_cons]

/-- The budget of a window: as many batches as fit, times the limit of one. -/
theorem count_items_in_le {gap limit : Nat} (select : Item → Bool) (log : List (Batch Item))
    (positive : 0 < gap) (spaced : Spaced gap (activeTimes log))
    (each : ∀ batch ∈ log, batch.items.countP select ≤ limit) (start width : Nat) :
    (itemsIn start width log).countP select ≤ (width / gap + 1) * limit := by
  let chosen := (log.filter (Batch.within start width)).filter Batch.active
  have within : ∀ batch ∈ chosen, start ≤ batch.time ∧ batch.time ≤ start + width := by
    intro batch member
    have inWindow := (List.mem_filter.mp (List.mem_filter.mp member).1).2
    exact of_decide_eq_true inWindow
  have apart : Spaced gap (chosen.map Batch.time) := by
    have sub : (chosen.map Batch.time).Sublist (activeTimes log) := by
      apply List.Sublist.map
      exact List.Sublist.filter _ List.filter_sublist
    exact List.Pairwise.sublist sub spaced
  have few : chosen.length ≤ width / gap + 1 := by
    rw [← List.length_map Batch.time]
    apply apart.length_le positive
    · intro time member
      obtain ⟨batch, inChosen, same⟩ := List.mem_map.mp member
      rw [← same]
      exact (within batch inChosen).1
    · intro time member
      obtain ⟨batch, inChosen, same⟩ := List.mem_map.mp member
      rw [← same]
      exact (within batch inChosen).2
  have limited : ∀ count ∈ chosen.map (List.countP select ∘ Batch.items), count ≤ limit := by
    intro count member
    obtain ⟨batch, inChosen, same⟩ := List.mem_map.mp member
    rw [← same]
    exact each batch (List.mem_filter.mp (List.mem_filter.mp inChosen).1).1
  calc
    (itemsIn start width log).countP select
        = (chosen.map (List.countP select ∘ Batch.items)).sum := by
          rw [itemsIn, flat_map_active, List.countP_flatMap]
    _ ≤ chosen.length * limit := by
          have total := List.sum_le_card_nsmul _ limit limited
          rw [List.length_map, smul_eq_mul] at total
          exact total
    _ ≤ (width / gap + 1) * limit := Nat.mul_le_mul_right limit few

end Batches

end Spacing
