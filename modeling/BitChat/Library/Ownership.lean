import Mathlib.Data.Multiset.AddSub

/-!
# Programs that own memory

A heap is the collection of the blocks that are allocated. A program on it
has no result where it frees or accesses a block that is not allocated.
`Triple` says that a program which is given some blocks runs without such a
fault, leaves all other blocks alone and ends up with the blocks that belong
to its result; that is, it neither loses a block nor frees one twice.
-/

namespace Ownership

set_option autoImplicit false

structure Heap where
  live : Multiset Nat
  next : Nat
  fresh : ∀ block ∈ live, block < next
  distinct : live.Nodup

def emptyHeap : Heap where
  live := 0
  next := 0
  fresh := by simp
  distinct := Multiset.nodup_zero

abbrev Prog (α : Type) := StateT Heap Option α

def Heap.allocate (heap : Heap) : Heap where
  live := {heap.next} + heap.live
  next := heap.next + 1
  fresh := by
    intro block member
    rcases Multiset.mem_add.mp member with new | old
    · rw [Multiset.mem_singleton.mp new]
      exact Nat.lt_succ_self _
    · exact Nat.lt_succ_of_lt (heap.fresh block old)
  distinct := by
    rw [Multiset.singleton_add, Multiset.nodup_cons]
    exact ⟨fun member => Nat.lt_irrefl _ (heap.fresh _ member), heap.distinct⟩

def Heap.release (heap : Heap) (block : Nat) : Heap where
  live := heap.live.erase block
  next := heap.next
  fresh := fun other member => heap.fresh other (Multiset.mem_of_mem_erase member)
  distinct := heap.distinct.erase block

/-- `none` is the null pointer. -/
def malloc (succeeds : Bool) : Prog (Option Nat) := fun heap =>
  if succeeds then some (some heap.next, heap.allocate) else some (none, heap)

def free (block : Nat) : Prog Unit := fun heap =>
  if block ∈ heap.live then some ((), heap.release block) else none

def access (block : Nat) : Prog Unit := fun heap =>
  if block ∈ heap.live then some ((), heap) else none

def deref : Option Nat → Prog Unit
  | none => fun _ => none
  | some block => access block

def freeIfAny : Option Nat → Prog Unit
  | none => pure ()
  | some block => free block

/-- The old block stays where there is no memory for the new one. -/
def realloc (block : Option Nat) (succeeds : Bool) : Prog (Option Nat) := do
  match ← malloc succeeds with
  | none => pure none
  | some larger => do
      freeIfAny block
      pure (some larger)

def accessAll : List Nat → Prog Unit
  | [] => pure ()
  | block :: rest => do
      access block
      accessAll rest

def freeAll : List Nat → Prog Unit
  | [] => pure ()
  | block :: rest => do
      free block
      freeAll rest

def blockOf : Option Nat → Multiset Nat
  | none => 0
  | some block => {block}

section Triples

variable {α β : Type}

/-- From the blocks in `pre` to those of the result, of which `ensures` holds.
What others own stays as it is. -/
def Triple (pre : Multiset Nat) (prog : Prog α) (owns : α → Multiset Nat) (ensures : α → Prop) :
    Prop :=
  ∀ (heap : Heap) (others : Multiset Nat), heap.live = pre + others →
    ∃ result after, prog heap = some (result, after) ∧ after.live = owns result + others ∧
      ensures result

variable {pre : Multiset Nat} {prog : Prog α} {owns : α → Multiset Nat} {ensures : α → Prop}

theorem Triple.pure (result : α) (owned : owns result = pre) (said : ensures result) :
    Triple pre (Pure.pure result) owns ensures := by
  intro heap others lives
  exact ⟨result, heap, rfl, by rw [lives, owned], said⟩

theorem Triple.bind {next : α → Prog β} {later : β → Multiset Nat} {ensuresLater : β → Prop}
    (first : Triple pre prog owns ensures)
    (rest : ∀ result, ensures result → Triple (owns result) (next result) later ensuresLater) :
    Triple pre (prog >>= next) later ensuresLater := by
  intro heap others lives
  obtain ⟨result, middle, ran, livesMiddle, said⟩ := first heap others lives
  obtain ⟨last, after, ranNext, livesAfter, saidLast⟩ := rest result said middle others livesMiddle
  refine ⟨last, after, ?_, livesAfter, saidLast⟩
  show (prog heap).bind (fun pair => next pair.1 pair.2) = _
  rw [ran]
  exact ranNext

/-- Blocks that the program is not given stay with the caller. -/
theorem Triple.frame (run : Triple pre prog owns ensures) (more : Multiset Nat) :
    Triple (pre + more) prog (fun result => owns result + more) ensures := by
  intro heap others lives
  rw [Multiset.add_assoc] at lives
  obtain ⟨result, after, ran, livesAfter, said⟩ := run heap (more + others) lives
  exact ⟨result, after, ran, by rw [livesAfter, Multiset.add_assoc], said⟩

theorem Triple.weaken {given : Multiset Nat} {ends : α → Multiset Nat} {claims : α → Prop}
    (run : Triple pre prog owns ensures) (same : given = pre)
    (sameEnd : ∀ result, ensures result → ends result = owns result)
    (implied : ∀ result, ensures result → claims result) : Triple given prog ends claims := by
  intro heap others lives
  obtain ⟨result, after, ran, livesAfter, said⟩ := run heap others (same ▸ lives)
  exact ⟨result, after, ran, by rw [sameEnd result said, livesAfter], implied result said⟩

theorem malloc_triple (succeeds : Bool) :
    Triple 0 (malloc succeeds) blockOf fun block => block.isSome = succeeds := by
  intro heap others lives
  cases succeeds with
  | false => exact ⟨none, heap, rfl, by rw [lives]; rfl, rfl⟩
  | true =>
      refine ⟨some heap.next, heap.allocate, rfl, ?_, rfl⟩
      show {heap.next} + heap.live = {heap.next} + others
      rw [lives, Multiset.zero_add]

theorem free_triple (block : Nat) :
    Triple {block} (free block) (fun _ => 0) fun _ => True := by
  intro heap others lives
  have member : block ∈ heap.live := by
    rw [lives]
    exact Multiset.mem_add.mpr (.inl (Multiset.mem_singleton_self block))
  refine ⟨(), heap.release block, if_pos member, ?_, trivial⟩
  show heap.live.erase block = 0 + others
  rw [lives, Multiset.singleton_add, Multiset.erase_cons_head, Multiset.zero_add]

theorem access_triple {block : Nat} (mine : block ∈ pre) :
    Triple pre (access block) (fun _ => pre) fun _ => True := by
  intro heap others lives
  have member : block ∈ heap.live := by
    rw [lives]
    exact Multiset.mem_add.mpr (.inl mine)
  exact ⟨(), heap, if_pos member, lives, trivial⟩

theorem deref_triple {pointer : Option Nat} (notNull : pointer ≠ none)
    (mine : blockOf pointer ≤ pre) :
    Triple pre (deref pointer) (fun _ => pre) fun _ => True := by
  cases pointer with
  | none => exact absurd rfl notNull
  | some block =>
      exact access_triple (Multiset.mem_of_le mine (Multiset.mem_singleton_self block))

theorem free_if_any_triple (block : Option Nat) :
    Triple (blockOf block) (freeIfAny block) (fun _ => 0) fun _ => True := by
  cases block with
  | none => exact Triple.pure () rfl trivial
  | some block => exact free_triple block

theorem realloc_triple (block : Option Nat) (succeeds : Bool) :
    Triple (blockOf block) (realloc block succeeds)
      (fun larger => if succeeds then blockOf larger else blockOf block)
      fun larger => larger.isSome = succeeds := by
  have start := (malloc_triple succeeds).frame (blockOf block)
  rw [Multiset.zero_add] at start
  apply start.bind
  intro larger isSome
  cases larger with
  | none =>
      have failed : succeeds = false := isSome.symm
      apply Triple.pure none _ isSome
      rw [failed]
      exact (Multiset.zero_add _).symm
  | some larger =>
      have succeeded : succeeds = true := isSome.symm
      have freed := (free_if_any_triple block).frame {larger}
      refine (freed.weaken (Multiset.add_comm _ _) (fun _ _ => rfl) fun _ _ => trivial).bind ?_
      intro _ _
      apply Triple.pure (some larger) _ isSome
      rw [succeeded, Multiset.zero_add]
      rfl

theorem access_all_triple {blocks : List Nat} (mine : ∀ block ∈ blocks, block ∈ pre) :
    Triple pre (accessAll blocks) (fun _ => pre) fun _ => True := by
  induction blocks with
  | nil => exact Triple.pure () rfl trivial
  | cons block rest ih =>
      obtain ⟨here, later⟩ := List.forall_mem_cons.mp mine
      exact (access_triple here).bind fun _ _ => ih later

theorem free_all_triple (blocks : List Nat) :
    Triple (blocks : Multiset Nat) (freeAll blocks) (fun _ => 0) fun _ => True := by
  induction blocks with
  | nil => exact Triple.pure () rfl trivial
  | cons block rest ih =>
      have first := (free_triple block).frame (rest : Multiset Nat)
      rw [Multiset.singleton_add, Multiset.cons_coe] at first
      apply first.bind
      intro _ _
      exact ih.weaken (Multiset.zero_add _) (fun _ _ => rfl) fun _ _ => trivial

end Triples

end Ownership
