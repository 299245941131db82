import BitChat.WireMessage
import BitChat.Library.LinearProbing

/-!
# The deduplication hash set of the mesh router

Transcription of `dedup_hash`, `dedup_contains`, `dedup_insert` and
`dedup_evict`. The table is a map from slot numbers to entries of which the
source allocates the first `cap`. Ages are computed in `uint64_t`; at clock
readings that never step back they agree with exact subtraction. Each
operation has one specification lemma, and everything about runs of the
router is derived from those.
-/

namespace BitChat.DedupTable

open BitChat.WireMessage

set_option autoImplicit false

structure DedupEntry where
  uuid : Uuid
  seenAt : UInt64
  occupied : Bool
deriving DecidableEq

abbrev Table := Nat → DedupEntry

/-- The zeroed table of `calloc`. -/
def emptyTable : Table := fun _ => ⟨List.Vector.replicate 16 0, 0, false⟩

/-- FNV-1a in 32 bits, reduced in `size_t`. -/
def dedupHash (uuid : Uuid) (cap : Nat) : Nat :=
  (uuid.toList.foldl (fun h byte => (h ^^^ byte.toUInt32) * 16777619) (2166136261 : UInt32)).toNat %
    cap

def dedupContains (table : Table) (cap : Nat) (uuid : Uuid) : Bool :=
  let idx := dedupHash uuid cap
  (LinearProbing.scan (fun i =>
    let e := table ((idx + i) % cap)
    if ¬ e.occupied = true then some false
    else if e.uuid = uuid then some true
    else none) cap 0).getD false

/-- The age test of the source, in wrapping 64-bit arithmetic. -/
def expired (maxAge now : UInt64) (e : DedupEntry) : Prop := now - e.seenAt > maxAge

instance (maxAge now : UInt64) (e : DedupEntry) : Decidable (expired maxAge now e) :=
  inferInstanceAs (Decidable (now - e.seenAt > maxAge))

def dedupInsertRound (table : Table) (cap : Nat) (maxAge now : UInt64) (uuid : Uuid) (i : Nat) :
    Option Table :=
  let slot := (dedupHash uuid cap + i) % cap
  let e := table slot
  if ¬ e.occupied = true then
    some (Function.update table slot { uuid := uuid, seenAt := now, occupied := true })
  else if expired maxAge now e then
    some (Function.update table slot { e with uuid := uuid, seenAt := now })
  else none

def dedupInsert (table : Table) (cap : Nat) (maxAge now : UInt64) (uuid : Uuid) : Table :=
  match LinearProbing.scan (dedupInsertRound table cap maxAge now uuid) cap 0 with
  | some placed => placed
  | none =>
      -- Every slot holds a fresh entry: the probed slot is overwritten.
      let slot := dedupHash uuid cap % cap
      Function.update table slot { table slot with uuid := uuid, seenAt := now }

def dedupEvict (table : Table) (cap : Nat) (maxAge now : UInt64) : Table := fun i =>
  if i < cap ∧ (table i).occupied = true ∧ expired maxAge now (table i) then
    { table i with occupied := false }
  else table i

def Occupied (e : DedupEntry) : Prop := e.occupied = true

instance : DecidablePred Occupied := fun e => inferInstanceAs (Decidable (e.occupied = true))

theorem expired_iff {maxAge now : UInt64} {e : DedupEntry} (past : e.seenAt ≤ now) :
    expired maxAge now e ↔ e.seenAt.toNat + maxAge.toNat < now.toNat := by
  have order : e.seenAt.toNat ≤ now.toNat := UInt64.le_iff_toNat_le.mp past
  rw [expired, gt_iff_lt, UInt64.lt_iff_toNat_lt, UInt64.toNat_sub_of_le _ _ past]
  omega

theorem expired_later {maxAge now later : UInt64} {e : DedupEntry} (past : e.seenAt ≤ now)
    (order : now ≤ later) (old : expired maxAge now e) : expired maxAge later e := by
  have nowLater : now.toNat ≤ later.toNat := UInt64.le_iff_toNat_le.mp order
  rw [expired_iff past] at old
  rw [expired_iff (UInt64.le_trans past order)]
  omega

theorem dedup_contains_iff (table : Table) (cap : Nat) (uuid : Uuid) :
    dedupContains table cap uuid = true ↔
      ∃ k, k < cap ∧ (table ((dedupHash uuid cap + k) % cap)).uuid = uuid ∧
        LinearProbing.Walk Occupied table cap (dedupHash uuid cap) (k + 1) :=
  LinearProbing.lookup_iff Occupied (fun e : DedupEntry => e.uuid = uuid) table cap
    (dedupHash uuid cap)

theorem contains_empty (cap : Nat) (uuid : Uuid) : dedupContains emptyTable cap uuid = false := by
  rw [← Bool.not_eq_true, dedup_contains_iff]
  rintro ⟨k, -, -, walk⟩
  have occupied : Occupied (emptyTable ((dedupHash uuid cap + 0) % cap)) :=
    walk 0 (Nat.succ_pos k)
  cases occupied

theorem contains_of_reaches {table : Table} {cap : Nat} (slot : Nat)
    (occupied : (table slot).occupied = true)
    (reaches : LinearProbing.Reaches Occupied table cap
      (dedupHash (table slot).uuid cap) slot) :
    dedupContains table cap (table slot).uuid = true := by
  obtain ⟨k, bound, lands, walk⟩ := reaches
  rw [dedup_contains_iff]
  refine ⟨k, bound, by rw [lands], ?_⟩
  intro i upTo
  rcases Nat.lt_succ_iff_lt_or_eq.mp upTo with earlier | same
  · exact walk i earlier
  · rw [same, lands]
    exact occupied

theorem insert_round_none {table : Table} {cap : Nat} {maxAge now : UInt64} {uuid : Uuid} {i : Nat}
    (silent : dedupInsertRound table cap maxAge now uuid i = none) :
    (table ((dedupHash uuid cap + i) % cap)).occupied = true ∧
      ¬ expired maxAge now (table ((dedupHash uuid cap + i) % cap)) := by
  simp only [dedupInsertRound] at silent
  split_ifs at silent with taken old
  exact ⟨taken, old⟩

theorem insert_round_some {table written : Table} {cap : Nat} {maxAge now : UInt64} {uuid : Uuid}
    {i : Nat} (round : dedupInsertRound table cap maxAge now uuid i = some written) :
    written = Function.update table ((dedupHash uuid cap + i) % cap) ⟨uuid, now, true⟩ ∧
      ((table ((dedupHash uuid cap + i) % cap)).occupied = false ∨
        expired maxAge now (table ((dedupHash uuid cap + i) % cap))) := by
  simp only [dedupInsertRound] at round
  split_ifs at round with taken old
  · rw [taken] at round
    exact ⟨(Option.some.inj round).symm, .inr old⟩
  · exact ⟨(Option.some.inj round).symm, .inl (by simpa using taken)⟩

/-- Where `dedup_insert` writes: the first vacant or expired slot of the
walk, or the home slot when there is none. The walk up to the chosen slot
meets fresh entries only. -/
theorem dedup_insert_spec (table : Table) (cap : Nat) (maxAge now : UInt64) (uuid : Uuid)
    (positive : 0 < cap) :
    ∃ k, k < cap ∧
      dedupInsert table cap maxAge now uuid =
        Function.update table ((dedupHash uuid cap + k) % cap) ⟨uuid, now, true⟩ ∧
      (∀ i, i < k → (table ((dedupHash uuid cap + i) % cap)).occupied = true ∧
        ¬ expired maxAge now (table ((dedupHash uuid cap + i) % cap))) ∧
      ((table ((dedupHash uuid cap + k) % cap)).occupied = false ∨
        expired maxAge now (table ((dedupHash uuid cap + k) % cap)) ∨
        k = 0 ∧ ∀ slot, slot < cap →
          (table slot).occupied = true ∧ ¬ expired maxAge now (table slot)) := by
  unfold dedupInsert
  cases placed : LinearProbing.scan (dedupInsertRound table cap maxAge now uuid) cap 0 with
  | some written =>
      obtain ⟨k, -, bound, round, before⟩ :=
        (LinearProbing.scan_eq_some_iff _ _ _ _).mp placed
      obtain ⟨same, free⟩ := insert_round_some round
      refine ⟨k, by omega, same, ?_, ?_⟩
      · intro i earlier
        exact insert_round_none (before i (Nat.zero_le _) earlier)
      · rcases free with vacant | old
        · exact .inl vacant
        · exact .inr (.inl old)
  | none =>
      have silent := (LinearProbing.scan_eq_none_iff _ _ _).mp placed
      have full : ∀ slot, slot < cap →
          (table slot).occupied = true ∧ ¬ expired maxAge now (table slot) := by
        intro slot slotBound
        obtain ⟨k, bound, lands⟩ :=
          LinearProbing.exists_step cap (dedupHash uuid cap) slot slotBound
        have freshAt := insert_round_none (silent k (Nat.zero_le _) (by omega))
        rwa [lands] at freshAt
      have taken : (table (dedupHash uuid cap % cap)).occupied = true :=
        (full _ (Nat.mod_lt _ positive)).1
      refine ⟨0, positive, ?_, by omega, .inr (.inr ⟨rfl, full⟩)⟩
      simp only [Nat.add_zero, taken]

theorem dedup_insert_entry (table : Table) {cap : Nat} (maxAge now : UInt64) (uuid : Uuid)
    (slot : Nat) (positive : 0 < cap) :
    dedupInsert table cap maxAge now uuid slot = ⟨uuid, now, true⟩ ∨
      dedupInsert table cap maxAge now uuid slot = table slot := by
  obtain ⟨k, -, written, -⟩ := dedup_insert_spec table cap maxAge now uuid positive
  rw [written]
  by_cases same : slot = (dedupHash uuid cap + k) % cap
  · rw [same, Function.update_self]
    exact .inl rfl
  · rw [Function.update_of_ne same]
    exact .inr rfl

/-- `uuid` is held with the reading `time` in a slot that its probe walk
reaches. -/
def Remembers (cap : Nat) (table : Table) (uuid : Uuid) (time : UInt64) : Prop :=
  ∃ slot, slot < cap ∧ table slot = ⟨uuid, time, true⟩ ∧
    LinearProbing.Reaches Occupied table cap (dedupHash uuid cap) slot

theorem Remembers.contains {cap : Nat} {table : Table} {uuid : Uuid} {time : UInt64}
    (remembers : Remembers cap table uuid time) : dedupContains table cap uuid = true := by
  obtain ⟨slot, -, held, reaches⟩ := remembers
  have sameUuid : (table slot).uuid = uuid := by rw [held]
  rw [← sameUuid] at reaches ⊢
  exact contains_of_reaches slot (by rw [held]) reaches

theorem remembers_after_insert (table : Table) (cap : Nat) (maxAge now : UInt64) (uuid : Uuid)
    (positive : 0 < cap) :
    Remembers cap (dedupInsert table cap maxAge now uuid) uuid now := by
  obtain ⟨k, bound, written, before, -⟩ := dedup_insert_spec table cap maxAge now uuid positive
  have walk : LinearProbing.Walk Occupied table cap (dedupHash uuid cap) k :=
    fun i earlier => (before i earlier).1
  rw [written]
  exact ⟨_, Nat.mod_lt _ positive, Function.update_self _ _ _, k, bound, rfl, walk.update _ rfl⟩

theorem contains_after_insert (table : Table) (cap : Nat) (maxAge now : UInt64) (uuid : Uuid)
    (positive : 0 < cap) :
    dedupContains (dedupInsert table cap maxAge now uuid) cap uuid = true :=
  (remembers_after_insert table cap maxAge now uuid positive).contains

/-- The insertion of `uuid` finds every slot taken by a fresh entry, and the
one at its home is that of `lost`. -/
def Overwrites (cap : Nat) (maxAge now : UInt64) (table : Table) (uuid lost : Uuid) : Prop :=
  (∀ slot, slot < cap → (table slot).occupied = true ∧ ¬ expired maxAge now (table slot)) ∧
    (table (dedupHash uuid cap % cap)).uuid = lost

theorem Remembers.insert {cap : Nat} {table : Table} {uuid : Uuid} {time maxAge now : UInt64}
    (other : Uuid) (remembers : Remembers cap table uuid time)
    (fresh : ¬ expired maxAge now ⟨uuid, time, true⟩)
    (kept : ¬ Overwrites cap maxAge now table other uuid) :
    Remembers cap (dedupInsert table cap maxAge now other) uuid time := by
  obtain ⟨slot, slotBound, held, reaches⟩ := remembers
  obtain ⟨k, bound, written, -, free⟩ :=
    dedup_insert_spec table cap maxAge now other (Nat.zero_lt_of_lt slotBound)
  have elsewhere : slot ≠ (dedupHash other cap + k) % cap := by
    intro same
    rw [← same, held] at free
    rcases free with vacant | old | ⟨home, full⟩
    · cases vacant
    · exact fresh old
    · refine kept ⟨full, ?_⟩
      rw [home, Nat.add_zero] at same
      rw [← same, held]
  rw [written]
  exact ⟨slot, slotBound, by rw [Function.update_of_ne elsewhere, held], reaches.update _ rfl⟩

/-- The probe-chain invariant at a reading: no entry is from the future, and
every fresh entry is reached from its home over occupied slots. -/
structure Intact (cap : Nat) (maxAge now : UInt64) (table : Table) : Prop where
  past : ∀ slot, slot < cap → (table slot).occupied = true → (table slot).seenAt ≤ now
  chained : ∀ slot, slot < cap → (table slot).occupied = true →
    ¬ expired maxAge now (table slot) →
    LinearProbing.Reaches Occupied table cap (dedupHash (table slot).uuid cap) slot

/-- No slot that an eviction at `now` clears lies on the probe walk from the
home of the entry in `slot` to that entry. -/
def WalkSpared (cap : Nat) (maxAge now : UInt64) (table : Table) (slot : Nat) : Prop :=
  ∀ k, k < cap → (dedupHash (table slot).uuid cap + k) % cap = slot →
    ∀ i, i < k → ¬ expired maxAge now (table ((dedupHash (table slot).uuid cap + i) % cap))

def EvictionSpares (cap : Nat) (maxAge now : UInt64) (table : Table) : Prop :=
  ∀ slot, slot < cap → (table slot).occupied = true → ¬ expired maxAge now (table slot) →
    WalkSpared cap maxAge now table slot

instance (cap : Nat) (maxAge now : UInt64) (table : Table) (slot : Nat) :
    Decidable (WalkSpared cap maxAge now table slot) :=
  inferInstanceAs (Decidable (∀ k, k < cap → (dedupHash (table slot).uuid cap + k) % cap = slot →
    ∀ i, i < k → ¬ expired maxAge now (table ((dedupHash (table slot).uuid cap + i) % cap))))

instance (cap : Nat) (maxAge now : UInt64) (table : Table) :
    Decidable (EvictionSpares cap maxAge now table) :=
  inferInstanceAs (Decidable (∀ slot, slot < cap → (table slot).occupied = true →
    ¬ expired maxAge now (table slot) → WalkSpared cap maxAge now table slot))

theorem intact_empty (cap : Nat) (maxAge now : UInt64) : Intact cap maxAge now emptyTable where
  past := by simp [emptyTable]
  chained := by simp [emptyTable]

theorem Intact.later {cap : Nat} {maxAge now later : UInt64} {table : Table}
    (intact : Intact cap maxAge now table) (order : now ≤ later) :
    Intact cap maxAge later table where
  past := fun slot bound taken => UInt64.le_trans (intact.past slot bound taken) order
  chained := fun slot bound taken fresh => intact.chained slot bound taken fun old =>
    fresh (expired_later (intact.past slot bound taken) order old)

theorem Intact.contains {cap : Nat} {maxAge now : UInt64} {table : Table}
    (intact : Intact cap maxAge now table) {slot : Nat} (bound : slot < cap)
    (taken : (table slot).occupied = true) (fresh : ¬ expired maxAge now (table slot)) :
    dedupContains table cap (table slot).uuid = true :=
  contains_of_reaches slot taken (intact.chained slot bound taken fresh)

theorem Intact.insert {cap : Nat} {maxAge now : UInt64} {table : Table} (uuid : Uuid)
    (positive : 0 < cap) (intact : Intact cap maxAge now table) :
    Intact cap maxAge now (dedupInsert table cap maxAge now uuid) := by
  constructor
  · intro slot slotBound taken
    rcases dedup_insert_entry table maxAge now uuid slot positive with new | old
    · rw [new]
      exact UInt64.le_refl now
    · rw [old] at taken ⊢
      exact intact.past slot slotBound taken
  · obtain ⟨k, bound, written, before, -⟩ := dedup_insert_spec table cap maxAge now uuid positive
    rw [written]
    intro slot slotBound taken fresh
    by_cases same : slot = (dedupHash uuid cap + k) % cap
    · -- The new entry: the insertion loop has just walked over occupied slots.
      rw [same, Function.update_self]
      exact ⟨k, bound, rfl,
        (show LinearProbing.Walk Occupied table cap (dedupHash uuid cap) k from
          fun i earlier => (before i earlier).1).update _ rfl⟩
    · rw [Function.update_of_ne same] at taken fresh ⊢
      exact (intact.chained slot slotBound taken fresh).update _ rfl

theorem evict_fresh {cap : Nat} {maxAge now : UInt64} {table : Table} {slot : Nat}
    (fresh : ¬ expired maxAge now (table slot)) :
    dedupEvict table cap maxAge now slot = table slot := by
  simp [dedupEvict, fresh]

theorem evict_survivor {cap : Nat} {maxAge now : UInt64} {table : Table} {slot : Nat}
    (bound : slot < cap) (taken : (dedupEvict table cap maxAge now slot).occupied = true) :
    (table slot).occupied = true ∧ ¬ expired maxAge now (table slot) := by
  unfold dedupEvict at taken
  split_ifs at taken with cleared
  refine ⟨taken, fun old => cleared ⟨bound, taken, old⟩⟩

theorem reaches_after_evict {cap : Nat} {maxAge now : UInt64} {table : Table} {slot : Nat}
    (spared : WalkSpared cap maxAge now table slot)
    (reaches : LinearProbing.Reaches Occupied table cap (dedupHash (table slot).uuid cap) slot) :
    LinearProbing.Reaches Occupied (dedupEvict table cap maxAge now) cap
      (dedupHash (table slot).uuid cap) slot := by
  obtain ⟨k, bound, lands, walk⟩ := reaches
  refine ⟨k, bound, lands, walk.mono ?_⟩
  intro i earlier filled
  rw [evict_fresh (spared k bound lands i earlier)]
  exact filled

theorem Remembers.evict {cap : Nat} {table : Table} {uuid : Uuid} {time maxAge now : UInt64}
    (remembers : Remembers cap table uuid time)
    (fresh : ¬ expired maxAge now ⟨uuid, time, true⟩)
    (spared : ∀ slot, slot < cap → table slot = ⟨uuid, time, true⟩ →
      WalkSpared cap maxAge now table slot) :
    Remembers cap (dedupEvict table cap maxAge now) uuid time := by
  obtain ⟨slot, bound, held, reaches⟩ := remembers
  have sameUuid : (table slot).uuid = uuid := by rw [held]
  rw [← sameUuid] at reaches
  have after := reaches_after_evict (spared slot bound held) reaches
  rw [sameUuid] at after
  exact ⟨slot, bound, by rw [evict_fresh (by rw [held]; exact fresh), held], after⟩

theorem Intact.evict {cap : Nat} {maxAge now : UInt64} {table : Table}
    (intact : Intact cap maxAge now table) (spares : EvictionSpares cap maxAge now table) :
    Intact cap maxAge now (dedupEvict table cap maxAge now) := by
  constructor
  · intro slot bound taken
    obtain ⟨was, fresh⟩ := evict_survivor bound taken
    rw [evict_fresh fresh]
    exact intact.past slot bound was
  · intro slot bound taken _
    obtain ⟨was, fresh⟩ := evict_survivor bound taken
    rw [evict_fresh fresh]
    exact reaches_after_evict (spares slot bound was fresh) (intact.chained slot bound was fresh)

end BitChat.DedupTable
