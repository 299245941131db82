import Mathlib.Init

/-!
# Locks that are taken in an order

Threads own locks and may wait for one. If every thread waits only for locks
above all that it owns, in some bounded ranking of the locks, then the chain
from a waiting thread to the owner of its lock, to the owner of the lock that
this one waits for, and so on, ends in a thread that is not held up.
-/

namespace LockOrder

set_option autoImplicit false

universe u v

structure LockState (Thread : Type u) (Lock : Type v) where
  owner : Lock → Option Thread
  wants : Thread → Option Lock

section Order

variable {Thread : Type u} {Lock : Type v} (locks : LockState Thread Lock)

def Blocked (thread : Thread) : Prop :=
  ∃ lock other, locks.wants thread = some lock ∧ locks.owner lock = some other

def Ordered (rank : Lock → Nat) : Prop :=
  ∀ thread wanted held, locks.wants thread = some wanted → locks.owner held = some thread →
    rank held < rank wanted

variable {locks}

theorem exists_unblocked_owner {rank : Lock → Nat} {limit : Nat}
    (bounded : ∀ lock, rank lock < limit) (ordered : Ordered locks rank) (n : Nat) :
    ∀ lock other, locks.owner lock = some other → limit - rank lock ≤ n →
      ∃ last, (∃ held, locks.owner held = some last) ∧ ¬ Blocked locks last := by
  induction n with
  | zero =>
      intro lock other _ close
      have below := bounded lock
      omega
  | succ n ih =>
      intro lock other owned close
      by_cases blocked : Blocked locks other
      · obtain ⟨wanted, next, wants, nextOwns⟩ := blocked
        have above := ordered other wanted lock wants owned
        have below := bounded wanted
        exact ih wanted next nextOwns (by omega)
      · exact ⟨other, ⟨lock, owned⟩, blocked⟩

theorem exists_unblocked {rank : Lock → Nat} {limit : Nat} (bounded : ∀ lock, rank lock < limit)
    (ordered : Ordered locks rank) (thread : Thread) :
    ∃ last, (last = thread ∨ ∃ held, locks.owner held = some last) ∧ ¬ Blocked locks last := by
  by_cases blocked : Blocked locks thread
  · obtain ⟨wanted, other, -, owned⟩ := blocked
    obtain ⟨last, owns, runs⟩ :=
      exists_unblocked_owner bounded ordered _ wanted other owned (Nat.le_refl _)
    exact ⟨last, .inr owns, runs⟩
  · exact ⟨thread, .inl rfl, blocked⟩

end Order

end LockOrder
