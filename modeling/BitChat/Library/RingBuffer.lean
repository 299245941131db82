import Mathlib.Data.Nat.ModEq
import Mathlib.Logic.Function.Basic

/-!
# Ring buffers with one free cell

A ring of `cap` cells in which `head` is the next cell to write and `tail`
the next cell to read. Equal indices mean empty, so a full ring keeps one
cell free. `Represents` relates the ring to the queue it stands for, oldest
element first; a push appends to the queue and a pop takes its front.
-/

namespace RingBuffer

set_option autoImplicit false

universe u

structure Represents {α : Type u} (cap : Nat) (cells : Nat → Option α) (head tail : Nat)
    (items : List α) : Prop where
  tailBound : tail < cap
  room : items.length < cap
  headAt : head = (tail + items.length) % cap
  cellAt : ∀ i, i < items.length → cells ((tail + i) % cap) = items[i]?

def contents {α : Type u} (cap : Nat) (cells : Nat → Option α) (head tail : Nat) : List α :=
  (List.range ((head + cap - tail) % cap)).filterMap fun i => cells ((tail + i) % cap)

theorem offset_injective {cap tail i j : Nat} (iBound : i < cap) (jBound : j < cap)
    (same : (tail + i) % cap = (tail + j) % cap) : i = j := by
  have congruent : tail + i ≡ tail + j [MOD cap] := same
  exact (Nat.ModEq.add_left_cancel' tail congruent).eq_of_lt_of_lt iBound jBound

section Operations

variable {α : Type u} {cap head tail : Nat} {cells : Nat → Option α} {items : List α}

theorem represents_nil (cells : Nat → Option α) (positive : 0 < cap) :
    Represents cap cells 0 0 [] where
  tailBound := positive
  room := positive
  headAt := (Nat.zero_mod cap).symm
  cellAt := by simp

theorem Represents.next_head (ring : Represents cap cells head tail items) :
    (head + 1) % cap = (tail + (items.length + 1)) % cap := by
  rw [ring.headAt, Nat.mod_add_mod, Nat.add_assoc]

theorem Represents.head_bound (ring : Represents cap cells head tail items) : head < cap := by
  rw [ring.headAt]
  exact Nat.mod_lt _ (Nat.zero_lt_of_lt ring.tailBound)

theorem Represents.unique {others : List α} (ring : Represents cap cells head tail items)
    (again : Represents cap cells head tail others) : items = others := by
  have count : items.length = others.length :=
    offset_injective ring.room again.room (ring.headAt.symm.trans again.headAt)
  apply List.ext_getElem?
  intro i
  by_cases inside : i < items.length
  · rw [← ring.cellAt i inside, again.cellAt i (by omega)]
  · rw [List.getElem?_eq_none (by omega), List.getElem?_eq_none (by omega)]

theorem Represents.contents_eq (ring : Represents cap cells head tail items) :
    contents cap cells head tail = items := by
  have count : (head + cap - tail) % cap = items.length := by
    have bound := ring.tailBound
    have room := ring.room
    rw [ring.headAt]
    -- The head has gone around the ring at most once.
    rcases Nat.lt_or_ge (tail + items.length) cap with before | around
    · rw [Nat.mod_eq_of_lt before, show tail + items.length + cap - tail = items.length + cap by
        omega, Nat.add_mod_right, Nat.mod_eq_of_lt room]
    · have wrapped : (tail + items.length) % cap = tail + items.length - cap := by
        rw [Nat.mod_eq_sub_mod around, Nat.mod_eq_of_lt (by omega)]
      rw [wrapped, show tail + items.length - cap + cap - tail = items.length by omega,
        Nat.mod_eq_of_lt room]
  have cellwise : (List.range items.length).map (fun i => cells ((tail + i) % cap)) =
      items.map some := by
    apply List.ext_getElem
    · simp
    · intro i _ inside
      rw [List.length_map] at inside
      simp only [List.getElem_map, List.getElem_range]
      rw [ring.cellAt i inside, List.getElem?_eq_getElem inside]
  calc contents cap cells head tail
      = ((List.range items.length).map fun i => cells ((tail + i) % cap)).filterMap id := by
        rw [contents, count, List.filterMap_map]
        rfl
    _ = items := by
        rw [cellwise, List.filterMap_map]
        exact List.filterMap_some

theorem Represents.empty_iff (ring : Represents cap cells head tail items) :
    tail = head ↔ items = [] := by
  have start : (tail + 0) % cap = tail := Nat.mod_eq_of_lt ring.tailBound
  constructor
  · intro meet
    have none : 0 = items.length := by
      apply offset_injective (Nat.zero_lt_of_lt ring.tailBound) ring.room
      rw [start, ← ring.headAt]
      exact meet
    exact List.eq_nil_of_length_eq_zero none.symm
  · intro empty
    rw [ring.headAt, empty, List.length_nil, start]

theorem Represents.full_iff (ring : Represents cap cells head tail items) :
    (head + 1) % cap = tail ↔ items.length + 1 = cap := by
  rw [ring.next_head]
  constructor
  · intro meet
    by_contra more
    have bound : items.length + 1 < cap := by
      have room := ring.room
      omega
    have start : (tail + 0) % cap = tail := Nat.mod_eq_of_lt ring.tailBound
    have zero := offset_injective bound (Nat.zero_lt_of_lt bound) (meet.trans start.symm)
    omega
  · intro full
    rw [full, Nat.add_mod_right]
    exact Nat.mod_eq_of_lt ring.tailBound

theorem Represents.push (ring : Represents cap cells head tail items) (item : α)
    (free : (head + 1) % cap ≠ tail) :
    Represents cap (Function.update cells head (some item)) ((head + 1) % cap) tail
      (items ++ [item]) where
  tailBound := ring.tailBound
  room := by
    have notFull := mt ring.full_iff.mpr free
    have room := ring.room
    rw [List.length_append, List.length_singleton]
    omega
  headAt := by
    rw [ring.next_head, List.length_append, List.length_singleton]
  cellAt := by
    intro i inside
    rw [List.length_append, List.length_singleton] at inside
    by_cases last : i = items.length
    · rw [last, ← ring.headAt, Function.update_self, List.getElem?_concat_length]
    · have earlier : i < items.length := by omega
      have away : (tail + i) % cap ≠ head := by
        rw [ring.headAt]
        exact fun same => last
          (offset_injective (Nat.lt_trans earlier ring.room) ring.room same)
      rw [Function.update_of_ne away, ring.cellAt i earlier, List.getElem?_append_left earlier]

theorem Represents.pop {item : α} {rest : List α}
    (ring : Represents cap cells head tail (item :: rest)) :
    cells tail = some item ∧ Represents cap cells head ((tail + 1) % cap) rest := by
  have positive : 0 < cap := Nat.zero_lt_of_lt ring.tailBound
  have room := ring.room
  rw [List.length_cons] at room
  constructor
  · have first := ring.cellAt 0 (by simp)
    rw [Nat.add_zero, Nat.mod_eq_of_lt ring.tailBound] at first
    exact first
  · refine ⟨Nat.mod_lt _ positive, by omega, ?_, ?_⟩
    · rw [ring.headAt, List.length_cons, Nat.mod_add_mod]
      congr 1
      omega
    · intro i inside
      rw [Nat.mod_add_mod, Nat.add_assoc, Nat.add_comm 1 i]
      exact ring.cellAt (i + 1) (by simpa using inside)

end Operations

end RingBuffer
