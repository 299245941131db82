import BitChat.PendingStorage
import BitChat.Library.TransitionSystem

/-!
# The message store over the SQLite adapter

Transcription of `usecase/message_store.c` with what its promises come to over
the SQLite adapter. A row gets its expiry when it is written, 72 hours later,
and no later call changes it: a second insertion of the uuid is ignored also
when the row has expired, and the age limit that the store hands to
`evict_expired` is not looked at.
-/

namespace BitChat.MessageStore

open BitChat.WireMessage BitChat.PendingStorage TransitionSystem

set_option autoImplicit false

def bcStoreMaxAgeSec : UInt64 := 72 * 3600

structure BcMsgStore (Store : Type) where
  storage : BcStorage Store
  maxAgeSec : UInt64

section Store

variable {Store : Type}

def bcStoreCreate (alloc : Bool) (storage : Option (BcStorage Store)) (maxAgeSec : UInt64) :
    Option (BcMsgStore Store) :=
  match storage with
  | none => none
  | some storage =>
      if alloc = false then none
      else some ⟨storage, if 0 < maxAgeSec then maxAgeSec else bcStoreMaxAgeSec⟩

def bcStoreSave (store : BcMsgStore Store) (now : UInt64) (msg : BcMessage) (contents : Store) :
    Rc × Store :=
  match store.storage.storeMessage with
  | none => (.notImplemented, contents)
  | some storeMessage => storeMessage now msg contents

def bcStoreCleanup (store : BcMsgStore Store) (now : UInt64) (contents : Store) : Rc × Store :=
  match store.storage.evictExpired with
  | none => (.notImplemented, contents)
  | some evictExpired => evictExpired now store.maxAgeSec contents

end Store

/-! ### A stored message is pending -/

/-- The database at a reading with the calls made on it so far, oldest first.
Closing and reopening it leaves the table as it is, however much time passes. -/
structure StorageRun where
  table : PendingMessages
  clock : UInt64
  log : List StorageCall

def StorageCall.Within (start finish : UInt64) : StorageCall → Prop
  | .store now _ => start ≤ now ∧ now ≤ finish
  | .evict now _ => start ≤ now ∧ now ≤ finish
  | .delete _ => start ≤ finish

def storageSystem : System StorageRun StorageCall where
  initial run := run.table = KeyedTable.empty ∧ run.log = []
  step before call after :=
    after.table = call.run before.table ∧ after.log = before.log ++ [call] ∧
      StorageCall.Within before.clock after.clock call

/-- Success of `store_message` means that the query at the same reading
returns the message. -/
def StoredIsPending (table : PendingMessages) (msg : BcMessage) (now : UInt64) : Prop :=
  (sqliteStoreMessage now msg table).1 = .ok →
    ∃ copy ∈ (sqliteGetPending now allocates none (sqliteStoreMessage now msg table).2).2,
      copy.uuid = msg.uuid

def heldStep (uuid : Uuid) (held : Option UInt64) : StorageCall → Option UInt64
  | .store now msg => if msg.uuid = uuid then some (held.getD now) else held
  | .evict now _ =>
      held.filter fun since => decide (now.toNat ≤ since.toNat + storageDefaultRetentionSec)
  | .delete other => if other = uuid then none else held

/-- The reading at which the row of `uuid` that is still there was written,
told from the calls alone. -/
def heldSince (uuid : Uuid) (log : List StorageCall) : Option UInt64 :=
  log.foldl (heldStep uuid) none

/-- No earlier store of `uuid` that has been neither deleted nor evicted since
has run out by `now`. -/
def NoExpiredLeftover (log : List StorageCall) (uuid : Uuid) (now : UInt64) : Prop :=
  ∀ since, heldSince uuid log = some since →
    now.toNat ≤ since.toNat + storageDefaultRetentionSec

def ShowsHeld (table : PendingMessages) (uuid : Uuid) : Option UInt64 → Prop
  | none => ¬ KeyedTable.hasKey table uuid
  | some since => ∃ row ∈ table.rows, row.uuid = uuid ∧
      row.expiresAt = since.toNat + storageDefaultRetentionSec

theorem not_has_key_iff {table : PendingMessages} {uuid : Uuid} :
    ¬ KeyedTable.hasKey table uuid ↔ ∀ row ∈ table.rows, row.uuid ≠ uuid := by
  simp [KeyedTable.hasKey]

theorem shows_held_row {table : PendingMessages} {row : PendingRow} {held : Option UInt64}
    (shows : ShowsHeld table row.uuid held) (member : row ∈ table.rows) :
    ∃ since, held = some since ∧
      row.expiresAt = since.toNat + storageDefaultRetentionSec := by
  cases held with
  | none => exact absurd rfl (not_has_key_iff.mp shows row member)
  | some since =>
      obtain ⟨other, otherIn, sameKey, expires⟩ := shows
      have sameRow : other = row := KeyedTable.row_unique otherIn member sameKey
      exact ⟨since, rfl, sameRow ▸ expires⟩

theorem store_shows_held {table : PendingMessages} {uuid : Uuid} {held : Option UInt64}
    (shows : ShowsHeld table uuid held) (now : UInt64) (msg : BcMessage) :
    ShowsHeld (sqliteStoreMessage now msg table).2 uuid (heldStep uuid held (.store now msg)) := by
  cases held with
  | none =>
      simp only [heldStep]
      split_ifs with same
      · subst same
        exact ⟨storedRow now msg, KeyedTable.insert_new shows, rfl, rfl⟩
      · apply not_has_key_iff.mpr
        intro row member
        rcases KeyedTable.mem_insert_or_ignore member with old | new
        · exact not_has_key_iff.mp shows row old
        · rw [new]
          exact same
  | some since =>
      have kept : heldStep uuid (some since) (.store now msg) = some since := by simp [heldStep]
      rw [kept]
      obtain ⟨row, member, key, expires⟩ := shows
      exact ⟨row, KeyedTable.insert_or_ignore_keeps _ member, key, expires⟩

theorem delete_where_shows_held {table : PendingMessages} {uuid : Uuid} {held : Option UInt64}
    (condition : PendingRow → Bool) (shows : ShowsHeld table uuid held)
    (spared : ∀ row ∈ table.rows, row.uuid = uuid → condition row = false) :
    ShowsHeld (KeyedTable.deleteWhere condition table) uuid held := by
  cases held with
  | none =>
      apply not_has_key_iff.mpr
      intro row member
      exact not_has_key_iff.mp shows row (KeyedTable.mem_delete_where.mp member).1
  | some since =>
      obtain ⟨row, member, key, expires⟩ := shows
      exact ⟨row, KeyedTable.mem_delete_where.mpr ⟨member, spared row member key⟩, key, expires⟩

theorem delete_where_shows_none {table : PendingMessages} {uuid : Uuid}
    (condition : PendingRow → Bool)
    (matched : ∀ row ∈ table.rows, row.uuid = uuid → condition row = true) :
    ShowsHeld (KeyedTable.deleteWhere condition table) uuid none := by
  apply not_has_key_iff.mpr
  intro row member key
  obtain ⟨inside, unmatched⟩ := KeyedTable.mem_delete_where.mp member
  rw [matched row inside key] at unmatched
  cases unmatched

theorem evict_shows_held {table : PendingMessages} {uuid : Uuid} {held : Option UInt64}
    (shows : ShowsHeld table uuid held) (now maxAgeSec : UInt64) :
    ShowsHeld (sqliteEvictExpired now maxAgeSec table).2 uuid
      (heldStep uuid held (.evict now maxAgeSec)) := by
  cases held with
  | none =>
      apply delete_where_shows_none
      intro row member key
      exact absurd key (not_has_key_iff.mp shows row member)
  | some since =>
      have expiry : ∀ row ∈ table.rows, row.uuid = uuid →
          row.expiresAt = since.toNat + storageDefaultRetentionSec := by
        rintro row member rfl
        obtain ⟨written, same, expires⟩ := shows_held_row shows member
        rw [expires, Option.some.inj same]
      simp only [heldStep, Option.filter_some, decide_eq_true_eq]
      split_ifs with fresh
      · apply delete_where_shows_held _ shows
        intro row member key
        rw [expiry row member key, decide_eq_false_iff_not]
        omega
      · apply delete_where_shows_none
        intro row member key
        rw [expiry row member key, decide_eq_true_eq]
        omega

theorem delete_shows_held {table : PendingMessages} {uuid : Uuid} {held : Option UInt64}
    (shows : ShowsHeld table uuid held) (other : Uuid) :
    ShowsHeld (sqliteDeleteMessage other table).2 uuid (heldStep uuid held (.delete other)) := by
  simp only [heldStep]
  split_ifs with same
  · apply delete_where_shows_none
    intro row member key
    rw [decide_eq_true_eq, key, same]
  · apply delete_where_shows_held _ shows
    intro row member key
    rw [decide_eq_false_iff_not, key]
    exact fun equal => same equal.symm

theorem storage_call_shows_held {table : PendingMessages} {uuid : Uuid} {held : Option UInt64}
    (shows : ShowsHeld table uuid held) (call : StorageCall) :
    ShowsHeld (call.run table) uuid (heldStep uuid held call) := by
  cases call with
  | store now msg => exact store_shows_held shows now msg
  | evict now maxAgeSec => exact evict_shows_held shows now maxAgeSec
  | delete other => exact delete_shows_held shows other

theorem reachable_shows_held {run : StorageRun} (reached : Reachable storageSystem run)
    (uuid : Uuid) : ShowsHeld run.table uuid (heldSince uuid run.log) := by
  refine reached.invariant (fun run => ShowsHeld run.table uuid (heldSince uuid run.log)) ?_ ?_
  · rintro state ⟨noRows, noCalls⟩
    rw [noRows, noCalls]
    exact not_has_key_iff.mpr fun row member => absurd member (List.not_mem_nil)
  · rintro state call after shows ⟨table, log, -⟩
    rw [table, log, heldSince, List.foldl_append]
    exact storage_call_shows_held shows call

theorem pending_iff_held {table : PendingMessages} {uuid : Uuid} {held : Option UInt64}
    (shows : ShowsHeld table uuid held) (now : UInt64) :
    (∃ copy ∈ (sqliteGetPending now allocates none table).2, copy.uuid = uuid) ↔
      ∃ since, held = some since ∧ now.toNat ≤ since.toNat + storageDefaultRetentionSec := by
  simp only [get_pending_all, List.mem_map, List.mem_filter, decide_eq_true_eq]
  constructor
  · rintro ⟨copy, ⟨row, ⟨member, unexpired⟩, rfl⟩, rfl⟩
    obtain ⟨since, same, expires⟩ := shows_held_row shows member
    exact ⟨since, same, by omega⟩
  · rintro ⟨since, rfl, fresh⟩
    obtain ⟨row, member, key, expires⟩ := shows
    exact ⟨rowMessage row, ⟨row, ⟨member, by omega⟩, rfl⟩, key⟩

/-- `INSERT OR IGNORE` reports success also where it finds the uuid taken. The
message is then pending only where the row that it found is. -/
theorem stored_is_pending_iff {run : StorageRun} (reached : Reachable storageSystem run)
    (msg : BcMessage) (now : UInt64) :
    StoredIsPending run.table msg now ↔ NoExpiredLeftover run.log msg.uuid now := by
  have before := reachable_shows_held reached msg.uuid
  have pending := pending_iff_held (store_shows_held before now msg) now
  have succeeds : (sqliteStoreMessage now msg run.table).1 = .ok := rfl
  have written : heldStep msg.uuid (heldSince msg.uuid run.log) (.store now msg) =
      some ((heldSince msg.uuid run.log).getD now) := if_pos rfl
  rw [StoredIsPending, pending, written, NoExpiredLeftover]
  cases held : heldSince msg.uuid run.log with
  | none => simp [succeeds]
  | some since => simp [succeeds]

def storedOnce : StorageRun where
  table := (sqliteStoreMessage 5 agedMessage KeyedTable.empty).2
  clock := 5
  log := [.store 5 agedMessage]

theorem stored_once_reachable : Reachable storageSystem storedOnce := by
  have new : Reachable storageSystem ⟨KeyedTable.empty, 0, []⟩ := .start ⟨rfl, rfl⟩
  exact new.next (.store 5 agedMessage) ⟨rfl, rfl, by decide, by decide⟩

theorem stored_again_is_pending : StoredIsPending storedOnce.table agedMessage 100 := by
  refine (stored_is_pending_iff stored_once_reachable agedMessage 100).mpr ?_
  intro since held
  have written : since = 5 := (Option.some.inj held).symm
  rw [written]
  decide

/-- Four days later the row has run out but is still there, as where the node
was off for that time: storing the message succeeds and nothing is pending. -/
theorem stored_after_expiry_not_pending :
    Reachable storageSystem storedOnce ∧ storedOnce.clock ≤ 345600 ∧
      ¬ StoredIsPending storedOnce.table agedMessage 345600 := by
  refine ⟨stored_once_reachable, by decide, fun pending => ?_⟩
  have nothing : (sqliteGetPending 345600 allocates none
      (sqliteStoreMessage 345600 agedMessage storedOnce.table).2).2 = [] := by decide
  obtain ⟨copy, member, -⟩ := pending rfl
  rw [nothing] at member
  cases member

/-! ### Retention -/

structure SaveHistory where
  saves : List (UInt64 × BcMessage)
  distinct : (saves.map fun save => save.2.uuid).Nodup
  ordered : saves.Pairwise fun earlier later => earlier.1 ≤ later.1

section Retention

variable {Store : Type}

def saveAll (store : BcMsgStore Store) (saves : List (UInt64 × BcMessage)) (contents : Store) :
    Store :=
  saves.foldl (fun held save => (bcStoreSave store save.1 save.2 held).2) contents

end Retention

/-- After the cleanup the rows are those of the saves at most `maxAgeSec`
seconds ago. -/
def RetentionHonoured (store : BcMsgStore PendingMessages) (maxAgeSec : UInt64)
    (history : SaveHistory) (now : UInt64) : Prop :=
  ∀ row, row ∈ (bcStoreCleanup store now (saveAll store history.saves KeyedTable.empty)).2.rows ↔
    ∃ save ∈ history.saves, row = storedRow save.1 save.2 ∧
      now.toNat - save.1.toNat ≤ maxAgeSec.toNat

/-- No save has an age between the limit and the 72 hours of the adapter. -/
def AgesAgree (maxAgeSec : UInt64) (history : SaveHistory) (now : UInt64) : Prop :=
  ∀ save ∈ history.saves,
    (now.toNat - save.1.toNat ≤ maxAgeSec.toNat ↔
      now.toNat - save.1.toNat ≤ storageDefaultRetentionSec)

theorem store_create_storage {Store : Type} {alloc : Bool} {storage : BcStorage Store}
    {maxAgeSec : UInt64} {store : BcMsgStore Store}
    (created : bcStoreCreate alloc (some storage) maxAgeSec = some store) :
    store.storage = storage := by
  simp only [bcStoreCreate] at created
  split_ifs at created <;> exact congrArg BcMsgStore.storage (Option.some.inj created).symm

theorem save_all_rows {store : BcMsgStore PendingMessages} (adapter : store.storage = sqliteStorage)
    (saves : List (UInt64 × BcMessage)) (distinct : (saves.map fun save => save.2.uuid).Nodup)
    (table : PendingMessages) (new : ∀ save ∈ saves, ¬ KeyedTable.hasKey table save.2.uuid) :
    (saveAll store saves table).rows =
      table.rows ++ saves.map fun save => storedRow save.1 save.2 := by
  induction saves generalizing table with
  | nil => simp [saveAll]
  | cons save rest ih =>
      rw [List.map_cons, List.nodup_cons] at distinct
      have saved : (bcStoreSave store save.1 save.2 table).2.rows =
          table.rows ++ [storedRow save.1 save.2] := by
        rw [bcStoreSave, adapter]
        exact KeyedTable.insert_new_rows (new save List.mem_cons_self)
      have stillNew : ∀ later ∈ rest,
          ¬ KeyedTable.hasKey (bcStoreSave store save.1 save.2 table).2 later.2.uuid := by
        intro later inRest
        rw [KeyedTable.hasKey, saved, List.map_append, List.mem_append, not_or]
        refine ⟨new later (List.mem_cons_of_mem _ inRest), fun same => ?_⟩
        rw [List.map_singleton, List.mem_singleton] at same
        exact distinct.1 (List.mem_map.mpr ⟨later, inRest, same⟩)
      have others := ih distinct.2 _ stillNew
      rw [saved, List.append_assoc] at others
      exact others

theorem cleanup_rows {store : BcMsgStore PendingMessages} (adapter : store.storage = sqliteStorage)
    (history : SaveHistory) (now : UInt64) (row : PendingRow) :
    row ∈ (bcStoreCleanup store now (saveAll store history.saves KeyedTable.empty)).2.rows ↔
      ∃ save ∈ history.saves, row = storedRow save.1 save.2 ∧
        now.toNat - save.1.toNat ≤ storageDefaultRetentionSec := by
  have rows := save_all_rows adapter history.saves history.distinct KeyedTable.empty
    fun save _ present => absurd present List.not_mem_nil
  rw [bcStoreCleanup, adapter]
  show row ∈ (KeyedTable.deleteWhere _ _).rows ↔ _
  rw [KeyedTable.mem_delete_where, rows, decide_eq_false_iff_not]
  constructor
  · rintro ⟨member, unexpired⟩
    obtain ⟨save, inSaves, same⟩ := List.mem_map.mp member
    refine ⟨save, inSaves, same.symm, ?_⟩
    rw [← same] at unexpired
    simp only [storedRow] at unexpired
    omega
  · rintro ⟨save, inSaves, rfl, young⟩
    refine ⟨List.mem_map.mpr ⟨save, inSaves, rfl⟩, ?_⟩
    simp only [storedRow]
    omega

theorem stored_row_save {history : SaveHistory} {save other : UInt64 × BcMessage}
    (member : save ∈ history.saves) (otherIn : other ∈ history.saves)
    (same : storedRow save.1 save.2 = storedRow other.1 other.2) : save = other :=
  List.inj_on_of_nodup_map history.distinct member otherIn (congrArg PendingRow.uuid same)

theorem retention_iff_ages_agree {store : BcMsgStore PendingMessages}
    (adapter : store.storage = sqliteStorage) (maxAgeSec : UInt64) (history : SaveHistory)
    (now : UInt64) :
    RetentionHonoured store maxAgeSec history now ↔ AgesAgree maxAgeSec history now := by
  simp only [RetentionHonoured, cleanup_rows adapter]
  constructor
  · intro honoured save member
    have here := honoured (storedRow save.1 save.2)
    constructor
    · intro young
      obtain ⟨other, otherIn, same, kept⟩ := here.mpr ⟨save, member, rfl, young⟩
      rw [stored_row_save member otherIn same]
      exact kept
    · intro kept
      obtain ⟨other, otherIn, same, young⟩ := here.mp ⟨save, member, rfl, kept⟩
      rw [stored_row_save member otherIn same]
      exact young
  · intro agree row
    constructor
    · rintro ⟨save, member, same, kept⟩
      exact ⟨save, member, same, (agree save member).mpr kept⟩
    · rintro ⟨save, member, same, young⟩
      exact ⟨save, member, same, (agree save member).mp young⟩

def singleSave (storedAt : UInt64) (msg : BcMessage) : SaveHistory where
  saves := [(storedAt, msg)]
  distinct := List.nodup_singleton _
  ordered := List.pairwise_singleton _ _

/-- One save at 0 tells any other limit from 72 hours, at a cleanup as late as
the greater of the two. -/
theorem max_age_of_ages_agree {maxAgeSec : UInt64}
    (agree : ∀ now, AgesAgree maxAgeSec (singleSave 0 agedMessage) now) :
    maxAgeSec = bcStoreMaxAgeSec := by
  have single : ∀ now : UInt64,
      now.toNat ≤ maxAgeSec.toNat ↔ now.toNat ≤ storageDefaultRetentionSec := by
    intro now
    exact agree now (0, agedMessage) (List.mem_singleton_self _)
  have lower : maxAgeSec.toNat ≤ storageDefaultRetentionSec := (single maxAgeSec).mp le_rfl
  have upper : bcStoreMaxAgeSec.toNat ≤ maxAgeSec.toNat :=
    (single bcStoreMaxAgeSec).mpr (by decide)
  have default : bcStoreMaxAgeSec.toNat = storageDefaultRetentionSec := by decide
  apply UInt64.toNat_inj.mp
  omega

/-- The limit given to the store does not reach the rows: the cleanup is right
for a history exactly where 72 hours separate the same saves, and for all
histories exactly where the limit is 72 hours. -/
theorem retention_honoured_iff {alloc : Bool} {maxAgeSec : UInt64}
    {store : BcMsgStore PendingMessages}
    (created : bcStoreCreate alloc (some sqliteStorage) maxAgeSec = some store) :
    (∀ history now, RetentionHonoured store maxAgeSec history now ↔
        AgesAgree maxAgeSec history now) ∧
      ((∀ history now, (∀ save ∈ history.saves, save.1 ≤ now) →
          RetentionHonoured store maxAgeSec history now) ↔
        maxAgeSec = bcStoreMaxAgeSec) := by
  have adapter := store_create_storage created
  refine ⟨fun history now => retention_iff_ages_agree adapter maxAgeSec history now, ?_, ?_⟩
  · intro honoured
    apply max_age_of_ages_agree
    intro now
    refine (retention_iff_ages_agree adapter maxAgeSec _ now).mp (honoured _ now ?_)
    intro save member
    rw [List.mem_singleton.mp member]
    exact UInt64.le_iff_toNat_le.mpr (Nat.zero_le _)
  · rintro rfl history now -
    apply (retention_iff_ages_agree adapter _ history now).mpr
    exact fun save _ => Iff.rfl

theorem hour_limit_keeps_recent :
    RetentionHonoured ⟨sqliteStorage, 3600⟩ 3600 (singleSave 5 agedMessage) 65 := by
  have created : bcStoreCreate true (some sqliteStorage) 3600 = some ⟨sqliteStorage, 3600⟩ := rfl
  refine ((retention_honoured_iff created).1 _ _).mpr fun save member => ?_
  rw [List.mem_singleton.mp member]
  decide

/-- Two hours after the save the row is still there, under a limit of an hour. -/
theorem hour_limit_keeps_expired :
    bcStoreCreate true (some sqliteStorage) 3600 = some ⟨sqliteStorage, 3600⟩ ∧
      ¬ RetentionHonoured ⟨sqliteStorage, 3600⟩ 3600 (singleSave 5 agedMessage) 7205 := by
  refine ⟨rfl, fun honoured => ?_⟩
  have kept : storedRow 5 agedMessage ∈
      (bcStoreCleanup ⟨sqliteStorage, 3600⟩ 7205 (saveAll ⟨sqliteStorage, 3600⟩
        (singleSave 5 agedMessage).saves KeyedTable.empty)).2.rows := by
    decide
  obtain ⟨save, member, -, young⟩ := (honoured _).mp kept
  rw [List.mem_singleton.mp member] at young
  revert young
  decide

end BitChat.MessageStore
