import BitChat.DedupTable
import BitChat.Library.TransitionSystem

/-!
# What the deduplication table gives up

An insertion writes one slot. Into an arbitrary table it costs at most the
entry of that slot, which was expired or, where every slot holds a fresh
entry, sat at the home of the new uuid: at capacity the table keeps by hash
and not by age. Ages are exact as long as the clock does not step back; an
entry stamped after the reading wraps and counts as expired.
-/

namespace BitChat.DedupReplacement

open BitChat.WireMessage BitChat.DedupTable
open TransitionSystem

set_option autoImplicit false

theorem dedup_hash_lt (uuid : Uuid) {cap : Nat} (positive : 0 < cap) : dedupHash uuid cap < cap :=
  Nat.mod_lt _ positive

theorem dedup_hash_mod (uuid : Uuid) (cap : Nat) : dedupHash uuid cap % cap = dedupHash uuid cap :=
  Nat.mod_mod _ _

/-- A lookup that a write of an occupied entry makes fail had found the entry
that is written over. -/
theorem lost_entry {table : Table} {cap : Nat} {other : Uuid} {slot : Nat} {entry : DedupEntry}
    (fills : entry.occupied = true) (before : dedupContains table cap other = true)
    (lost : dedupContains (Function.update table slot entry) cap other = false) :
    (table slot).uuid = other ∧ (table slot).occupied = true := by
  obtain ⟨k, bound, found, walk⟩ := (dedup_contains_iff table cap other).mp before
  have same : (dedupHash other cap + k) % cap = slot := by
    by_contra different
    have still : dedupContains (Function.update table slot entry) cap other = true := by
      rw [dedup_contains_iff]
      refine ⟨k, bound, ?_, walk.update slot fills⟩
      rw [Function.update_of_ne different]
      exact found
    rw [lost] at still
    cases still
  have occupied : Occupied (table ((dedupHash other cap + k) % cap)) := walk k (Nat.lt_succ_self k)
  rw [same] at found occupied
  exact ⟨found, occupied⟩

/-- What an insertion into an arbitrary table does: the uuid is found
afterwards, one slot is written, and a uuid that is no longer found was held
there, expired or at the home of the new one in a table of fresh entries. -/
theorem insert_costs_one_entry (table : Table) (cap : Nat) (maxAge now : UInt64) (uuid : Uuid)
    (positive : 1 ≤ cap) :
    dedupContains (dedupInsert table cap maxAge now uuid) cap uuid = true ∧
      ∃ changed, changed < cap ∧
        (∀ slot, slot ≠ changed →
          dedupInsert table cap maxAge now uuid slot = table slot) ∧
        ∀ other, other ≠ uuid → dedupContains table cap other = true →
          dedupContains (dedupInsert table cap maxAge now uuid) cap other = false →
          (table changed).uuid = other ∧ (table changed).occupied = true ∧
            (expired maxAge now (table changed) ∨
              (∀ slot, slot < cap →
                (table slot).occupied = true ∧ ¬ expired maxAge now (table slot)) ∧
                changed = dedupHash uuid cap) := by
  refine ⟨contains_after_insert table cap maxAge now uuid positive, ?_⟩
  obtain ⟨k, -, written, -, free⟩ := dedup_insert_spec table cap maxAge now uuid positive
  refine ⟨(dedupHash uuid cap + k) % cap, Nat.mod_lt _ positive, ?_, ?_⟩
  · intro slot different
    rw [written, Function.update_of_ne different]
  · intro other _ before lost
    rw [written] at lost
    obtain ⟨held, occupied⟩ := lost_entry rfl before lost
    refine ⟨held, occupied, ?_⟩
    rcases free with vacant | old | ⟨home, full⟩
    · rw [occupied] at vacant
      cases vacant
    · exact .inl old
    · exact .inr ⟨full, by rw [home, Nat.add_zero, dedup_hash_mod]⟩

/-- Uuids of which a table of two slots takes the even ones home to slot 1
and the odd ones to slot 0. -/
def probeUuid (n : UInt8) : Uuid := ⟨n :: List.replicate 15 0, by simp⟩

def filledTable : Table :=
  dedupInsert (dedupInsert emptyTable 2 600 0 (probeUuid 0)) 2 600 1 (probeUuid 1)

theorem filled_table_costs_one_entry :
    dedupContains filledTable 2 (probeUuid 1) = true ∧
      dedupContains (dedupInsert filledTable 2 600 2 (probeUuid 3)) 2 (probeUuid 1) = false ∧
      ∃ changed, changed < 2 ∧ (filledTable changed).uuid = probeUuid 1 := by
  obtain ⟨-, changed, bound, -, costs⟩ :=
    insert_costs_one_entry filledTable 2 600 2 (probeUuid 3) (by decide)
  have before : dedupContains filledTable 2 (probeUuid 1) = true := by decide +kernel
  have after : dedupContains (dedupInsert filledTable 2 600 2 (probeUuid 3)) 2 (probeUuid 1) =
      false := by decide +kernel
  exact ⟨before, after, changed, bound,
    (costs (probeUuid 1) (by decide) before after).1⟩

section Capacity

structure TableState where
  table : Table
  clock : UInt64

def insertionSystem (cap : Nat) (maxAge : UInt64) : System TableState (Uuid × UInt64) where
  initial state := 1 ≤ cap ∧ state.table = emptyTable
  step state call after :=
    state.clock ≤ call.2 ∧
      after = ⟨dedupInsert state.table cap maxAge call.2 call.1, call.2⟩

/-- The table as an insertion of `uuid` at `now` finds it: reached by
insertions, every slot occupied, no entry older than the age limit, and the
uuid not among them. -/
structure AtCapacity (cap : Nat) (maxAge now : UInt64) (state : TableState) (uuid : Uuid) :
    Prop where
  reached : Reachable (insertionSystem cap maxAge) state
  later : state.clock ≤ now
  full : ∀ slot, slot < cap → (state.table slot).occupied = true
  recent : ∀ slot, slot < cap → now.toNat ≤ (state.table slot).seenAt.toNat + maxAge.toNat
  absent : ∀ slot, slot < cap → (state.table slot).uuid ≠ uuid

def Oldest (cap : Nat) (table : Table) (slot : Nat) : Prop :=
  ∀ other, other < cap → (table slot).seenAt ≤ (table other).seenAt

def DisplacesOldest (cap : Nat) (maxAge now : UInt64) (table : Table) (uuid : Uuid) : Prop :=
  ∃ slot, slot < cap ∧
    dedupInsert table cap maxAge now uuid = Function.update table slot ⟨uuid, now, true⟩ ∧
    Oldest cap table slot

variable {cap : Nat} {maxAge : UInt64} {state : TableState}

theorem intact_of_insertions (reached : Reachable (insertionSystem cap maxAge) state) :
    1 ≤ cap ∧ Intact cap maxAge state.clock state.table := by
  apply reached.invariant fun state => 1 ≤ cap ∧ Intact cap maxAge state.clock state.table
  · rintro state ⟨positive, empty⟩
    rw [empty]
    exact ⟨positive, intact_empty cap maxAge state.clock⟩
  · rintro state ⟨uuid, now⟩ after ⟨positive, intact⟩ ⟨order, same⟩
    rw [same]
    exact ⟨positive, (intact.later order).insert uuid positive⟩

theorem AtCapacity.fresh {now : UInt64} {uuid : Uuid}
    (capacity : AtCapacity cap maxAge now state uuid) (slot : Nat) (bound : slot < cap) :
    ¬ expired maxAge now (state.table slot) := by
  have past : (state.table slot).seenAt ≤ now :=
    UInt64.le_trans ((intact_of_insertions capacity.reached).2.past slot bound
      (capacity.full slot bound)) capacity.later
  rw [expired_iff past]
  have recent := capacity.recent slot bound
  omega

theorem AtCapacity.insert_eq {now : UInt64} {uuid : Uuid}
    (capacity : AtCapacity cap maxAge now state uuid) :
    dedupInsert state.table cap maxAge now uuid =
      Function.update state.table (dedupHash uuid cap) ⟨uuid, now, true⟩ := by
  have positive : 0 < cap := (intact_of_insertions capacity.reached).1
  obtain ⟨k, -, written, -, free⟩ := dedup_insert_spec state.table cap maxAge now uuid positive
  have bound : (dedupHash uuid cap + k) % cap < cap := Nat.mod_lt _ positive
  rcases free with vacant | old | ⟨home, -⟩
  · rw [capacity.full _ bound] at vacant
    cases vacant
  · exact absurd old (capacity.fresh _ bound)
  · rw [written, home, Nat.add_zero, dedup_hash_mod]

theorem AtCapacity.victim {now : UInt64} {uuid : Uuid} {slot : Nat}
    (capacity : AtCapacity cap maxAge now state uuid) (bound : slot < cap)
    (written : dedupInsert state.table cap maxAge now uuid =
      Function.update state.table slot ⟨uuid, now, true⟩) : slot = dedupHash uuid cap := by
  by_contra different
  have entry := congrFun (written.symm.trans capacity.insert_eq) slot
  rw [Function.update_self, Function.update_of_ne different] at entry
  exact capacity.absent slot bound (by rw [← entry])

/-- The victim at capacity is the entry in the home slot of the incoming uuid,
a least recently seen one exactly when that slot happens to hold one. -/
theorem oldest_displaced_iff {now : UInt64} {uuid : Uuid}
    (capacity : AtCapacity cap maxAge now state uuid) :
    dedupInsert state.table cap maxAge now uuid =
        Function.update state.table (dedupHash uuid cap) ⟨uuid, now, true⟩ ∧
      (DisplacesOldest cap maxAge now state.table uuid ↔
        Oldest cap state.table (dedupHash uuid cap)) := by
  have positive : 0 < cap := (intact_of_insertions capacity.reached).1
  refine ⟨capacity.insert_eq, ?_⟩
  constructor
  · rintro ⟨slot, bound, written, oldest⟩
    rw [← capacity.victim bound written]
    exact oldest
  · intro oldest
    exact ⟨dedupHash uuid cap, dedup_hash_lt uuid positive, capacity.insert_eq, oldest⟩

theorem filled_table_reached : Reachable (insertionSystem 2 600) ⟨filledTable, 1⟩ := by
  have empty : Reachable (insertionSystem 2 600) ⟨emptyTable, 0⟩ := .start ⟨by decide, rfl⟩
  have first : Reachable (insertionSystem 2 600)
      ⟨dedupInsert emptyTable 2 600 0 (probeUuid 0), 0⟩ :=
    .next (probeUuid 0, 0) empty ⟨by decide, rfl⟩
  exact .next (probeUuid 1, 1) first ⟨by decide, rfl⟩

theorem filled_table_at_capacity (uuid : Uuid)
    (absent : ∀ slot, slot < 2 → (filledTable slot).uuid ≠ uuid) :
    AtCapacity 2 600 2 ⟨filledTable, 1⟩ uuid where
  reached := filled_table_reached
  later := by decide
  full := by decide +kernel
  recent := by decide +kernel
  absent := absent

theorem filled_table_displaces_oldest :
    DisplacesOldest 2 600 2 filledTable (probeUuid 2) := by
  have capacity := filled_table_at_capacity (probeUuid 2) (by decide +kernel)
  apply (oldest_displaced_iff capacity).2.mpr
  unfold Oldest
  decide +kernel

/-- A third uuid with the home of the newer entry displaces that entry. -/
theorem newest_displaced :
    AtCapacity 2 600 2 ⟨filledTable, 1⟩ (probeUuid 3) ∧
      ¬ DisplacesOldest 2 600 2 filledTable (probeUuid 3) := by
  have capacity := filled_table_at_capacity (probeUuid 3) (by decide +kernel)
  refine ⟨capacity, ?_⟩
  rintro ⟨slot, bound, written, oldest⟩
  rw [capacity.victim bound written] at oldest
  have newer : ¬ (filledTable (dedupHash (probeUuid 3) 2)).seenAt ≤ (filledTable 1).seenAt := by
    decide +kernel
  exact newer (oldest 1 (by decide))

end Capacity

section Ages

def Stale (maxAge now : UInt64) (e : DedupEntry) : Prop :=
  e.seenAt.toNat + maxAge.toNat < now.toNat

instance (maxAge now : UInt64) (e : DedupEntry) : Decidable (Stale maxAge now e) :=
  inferInstanceAs (Decidable (e.seenAt.toNat + maxAge.toNat < now.toNat))

/-- Stamped after the reading, and the wrapped difference exceeds the limit. -/
def Misjudged (maxAge now : UInt64) (e : DedupEntry) : Prop :=
  now < e.seenAt ∧ e.seenAt.toNat + maxAge.toNat < 2 ^ 64 + now.toNat

theorem expired_iff_stale_or_misjudged (maxAge now : UInt64) (e : DedupEntry) :
    expired maxAge now e ↔ Stale maxAge now e ∨ Misjudged maxAge now e := by
  unfold Stale Misjudged
  rw [UInt64.lt_iff_toNat_lt]
  by_cases past : e.seenAt ≤ now
  · have order : e.seenAt.toNat ≤ now.toNat := UInt64.le_iff_toNat_le.mp past
    rw [expired_iff past]
    omega
  · have order : now.toNat < e.seenAt.toNat := by
      rw [UInt64.le_iff_toNat_le] at past
      omega
    have seenBound := e.seenAt.toNat_lt
    rw [expired, gt_iff_lt, UInt64.lt_iff_toNat_lt, UInt64.toNat_sub]
    omega

inductive DedupCall where
  | insert (uuid : Uuid) (now : UInt64)
  | evict (now : UInt64)

variable (cap : Nat) (maxAge : UInt64)

def DedupCall.run (table : Table) : DedupCall → Table
  | .insert uuid now => dedupInsert table cap maxAge now uuid
  | .evict now => dedupEvict table cap maxAge now

/-- The insertion loop gets to `slot`, finds it occupied and returns with the
entry replaced. -/
def ReplacedAsExpired (table : Table) (uuid : Uuid) (now : UInt64) (slot : Nat) : Prop :=
  ∃ i, i < cap ∧ (dedupHash uuid cap + i) % cap = slot ∧ (table slot).occupied = true ∧
    (∀ j, j < i → dedupInsertRound table cap maxAge now uuid j = none) ∧
    dedupInsertRound table cap maxAge now uuid i ≠ none

def Probed (table : Table) (uuid : Uuid) (now : UInt64) (slot : Nat) : Prop :=
  ∃ i, i < cap ∧ (dedupHash uuid cap + i) % cap = slot ∧
    ∀ j, j < i → (table ((dedupHash uuid cap + j) % cap)).occupied = true ∧
      ¬ expired maxAge now (table ((dedupHash uuid cap + j) % cap))

/-- The operation treats as stale what is stale in exact arithmetic: an
eviction exactly the stale entries, an insertion only such. -/
def ExactAges (table : Table) : DedupCall → Prop
  | .insert uuid now => ∀ slot, ReplacedAsExpired cap maxAge table uuid now slot →
      Stale maxAge now (table slot)
  | .evict now => ∀ slot, dedupEvict table cap maxAge now slot =
      if slot < cap ∧ (table slot).occupied = true ∧ Stale maxAge now (table slot) then
        { table slot with occupied := false }
      else table slot

def JudgesInOrder (table : Table) : DedupCall → Prop
  | .insert uuid now => ∀ slot, Probed cap maxAge table uuid now slot →
      (table slot).occupied = true → ¬ Misjudged maxAge now (table slot)
  | .evict now => ∀ slot, slot < cap → (table slot).occupied = true →
      ¬ Misjudged maxAge now (table slot)

variable {cap} {maxAge}

theorem insert_round_none_iff (table : Table) (now : UInt64) (uuid : Uuid) (i : Nat) :
    dedupInsertRound table cap maxAge now uuid i = none ↔
      (table ((dedupHash uuid cap + i) % cap)).occupied = true ∧
        ¬ expired maxAge now (table ((dedupHash uuid cap + i) % cap)) := by
  constructor
  · exact insert_round_none
  · rintro ⟨occupied, fresh⟩
    simp [dedupInsertRound, occupied, fresh]

theorem replaced_as_expired_iff (table : Table) (uuid : Uuid) (now : UInt64) (slot : Nat) :
    ReplacedAsExpired cap maxAge table uuid now slot ↔
      Probed cap maxAge table uuid now slot ∧ (table slot).occupied = true ∧
        expired maxAge now (table slot) := by
  constructor
  · rintro ⟨i, bound, lands, occupied, before, returned⟩
    rw [Ne, insert_round_none_iff, lands] at returned
    refine ⟨⟨i, bound, lands, ?_⟩, occupied, ?_⟩
    · intro j earlier
      exact (insert_round_none_iff table now uuid j).mp (before j earlier)
    · by_contra fresh
      exact returned ⟨occupied, fresh⟩
  · rintro ⟨⟨i, bound, lands, before⟩, occupied, old⟩
    refine ⟨i, bound, lands, occupied, ?_, ?_⟩
    · intro j earlier
      exact (insert_round_none_iff table now uuid j).mpr (before j earlier)
    · rw [Ne, insert_round_none_iff, lands]
      exact fun fresh => fresh.2 old

theorem not_stale_of_misjudged {now : UInt64} {e : DedupEntry} (future : Misjudged maxAge now e) :
    ¬ Stale maxAge now e := by
  have order : now.toNat < e.seenAt.toNat := UInt64.lt_iff_toNat_lt.mp future.1
  unfold Stale
  omega

theorem insert_exact_iff (table : Table) (uuid : Uuid) (now : UInt64) :
    ExactAges cap maxAge table (.insert uuid now) ↔
      JudgesInOrder cap maxAge table (.insert uuid now) := by
  simp only [ExactAges, JudgesInOrder, replaced_as_expired_iff]
  constructor
  · intro ages slot probed occupied future
    have old : expired maxAge now (table slot) :=
      (expired_iff_stale_or_misjudged maxAge now (table slot)).mpr (.inr future)
    exact not_stale_of_misjudged future (ages slot ⟨probed, occupied, old⟩)
  · rintro ordered slot ⟨probed, occupied, old⟩
    rcases (expired_iff_stale_or_misjudged maxAge now (table slot)).mp old with stale | future
    · exact stale
    · exact absurd future (ordered slot probed occupied)

theorem evict_exact_iff (table : Table) (now : UInt64) :
    ExactAges cap maxAge table (.evict now) ↔ JudgesInOrder cap maxAge table (.evict now) := by
  simp only [ExactAges, JudgesInOrder]
  constructor
  · intro ages slot bound occupied future
    have old : expired maxAge now (table slot) :=
      (expired_iff_stale_or_misjudged maxAge now (table slot)).mpr (.inr future)
    have cleared := ages slot
    rw [dedupEvict, if_pos ⟨bound, occupied, old⟩,
      if_neg fun stale => not_stale_of_misjudged future stale.2.2] at cleared
    have vacant : (table slot).occupied = false := by rw [← cleared]
    rw [occupied] at vacant
    cases vacant
  · intro ordered slot
    unfold dedupEvict
    congr 1
    rw [expired_iff_stale_or_misjudged]
    have judged := ordered slot
    apply propext
    tauto

theorem exact_ages_iff (table : Table) (call : DedupCall) :
    ExactAges cap maxAge table call ↔ JudgesInOrder cap maxAge table call := by
  cases call with
  | insert uuid now => exact insert_exact_iff table uuid now
  | evict now => exact evict_exact_iff table now

def runAll (cap : Nat) (maxAge : UInt64) (table : Table) (calls : List DedupCall) : Table :=
  calls.foldl (DedupCall.run cap maxAge) table

/-- Along any sequence of operations, at readings in any order, ages are
exact as long as no operation looks at an entry from the future of its
reading, and no longer. -/
theorem exact_ages_along_iff (cap : Nat) (maxAge : UInt64) (table : Table)
    (calls : List DedupCall) :
    (∀ before call rest, calls = before ++ call :: rest →
        ExactAges cap maxAge (runAll cap maxAge table before) call) ↔
      ∀ before call rest, calls = before ++ call :: rest →
        JudgesInOrder cap maxAge (runAll cap maxAge table before) call := by
  simp only [exact_ages_iff]

/-- The clock is set back by one second after an insertion: the eviction
clears the entry, which is stamped one second in its future. -/
theorem future_entry_evicted :
    ¬ ∀ before call rest,
      [DedupCall.insert (probeUuid 0) 1000, DedupCall.evict 999] = before ++ call :: rest →
        ExactAges 2 600 (runAll 2 600 emptyTable before) call := by
  intro ages
  have cleared := ages [.insert (probeUuid 0) 1000] (.evict 999) [] rfl 1
  revert cleared
  simp only [runAll, List.foldl, DedupCall.run]
  decide +kernel

end Ages

end BitChat.DedupReplacement
