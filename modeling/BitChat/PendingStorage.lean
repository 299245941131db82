import BitChat.WireMessage
import BitChat.Library.KeyedTable
import Mathlib.Tactic.SplitIfs

/-!
# The storage port and its SQLite adapter

`BcStorage` is the vtable of `port/storage.h` over an arbitrary store; an
entry is `none` where the C struct holds a null function pointer. The SQLite
adapter stores the six columns of `pending_messages` in a table keyed by
uuid. SQLite itself is taken to execute the five statements as written, with
no limit on the size of a blob. Clock readings are non-negative and far from
the end of `time_t`, so the signed sum with the retention period is exact.
-/

namespace BitChat.PendingStorage

open BitChat.WireMessage

set_option autoImplicit false

/-- The calls that read the clock take the reading they get from it, and the
query takes the outcomes of its allocations. -/
structure BcStorage (Store : Type) where
  storeMessage : Option (UInt64 → BcMessage → Store → Rc × Store)
  getPending : Option (UInt64 → (Nat → Bool) → Option Pubkey → Store → Rc × List BcMessage)
  deleteMessage : Option (Uuid → Store → Rc × Store)
  evictExpired : Option (UInt64 → UInt64 → Store → Rc × Store)

def storageDefaultRetentionSec : Nat := 72 * 3600

structure PendingRow where
  uuid : Uuid
  senderPubkey : Pubkey
  receiverPubkey : Pubkey
  payload : Option (List UInt8)
  ttl : Int
  expiresAt : Int
deriving DecidableEq

abbrev PendingMessages := KeyedTable.Table PendingRow.uuid

/-- `sqlite3_bind_blob(_, _, payload, (int)payload_len, _)`: a null pointer
binds `NULL`, and so does a length that the cast to `int` makes negative. -/
def bindPayload (payload : List UInt8) : Option (List UInt8) :=
  let len : Int := Int.bmod payload.length (2 ^ 32)
  if payload = [] ∨ len < 0 then none else some (payload.take len.toNat)

def storedRow (now : UInt64) (msg : BcMessage) : PendingRow where
  uuid := msg.uuid
  senderPubkey := msg.senderPubkey
  receiverPubkey := msg.receiverPubkey
  payload := bindPayload msg.payload
  ttl := msg.ttl.toNat
  expiresAt := now.toNat + storageDefaultRetentionSec

def sqliteStoreMessage (now : UInt64) (msg : BcMessage) (table : PendingMessages) :
    Rc × PendingMessages :=
  (.ok, KeyedTable.insertOrIgnore table (storedRow now msg))

/-- The message that the query rebuilds from a row. The table has no
timestamp column; the source recomputes it from the expiry. -/
def rowMessage (row : PendingRow) : BcMessage where
  uuid := row.uuid
  ttl := UInt8.ofInt row.ttl
  senderPubkey := row.senderPubkey
  receiverPubkey := row.receiverPubkey
  timestamp := UInt64.ofInt (row.expiresAt - storageDefaultRetentionSec)
  payload := row.payload.getD []

inductive StepResult where
  | row (row : PendingRow)
  | done
  | error

/-- The loop of `sqlite_get_pending` over the results of `sqlite3_step`:
`k` counts allocations, `cap` is the capacity of the array `arr`. -/
def pendingLoop (alloc : Nat → Bool) :
    List StepResult → Nat → Nat → List BcMessage → Rc × List BcMessage
  | .row row :: rest, k, cap, arr =>
      let full := decide (cap ≤ arr.length)
      let newCap := if full then (if cap = 0 then 8 else cap * 2) else cap
      let afterGrow := if full then k + 1 else k
      let hasPayload := decide (0 < (row.payload.getD []).length)
      if full = true ∧ alloc k = false then (.nomem, [])
      else if alloc afterGrow = false then (.nomem, [])
      else if hasPayload = true ∧ alloc (afterGrow + 1) = false then (.nomem, [])
      else
        pendingLoop alloc rest (if hasPayload then afterGrow + 2 else afterGrow + 1) newCap
          (arr ++ [rowMessage row])
  -- Any other step result ends the loop and the call succeeds.
  | _, _, _, arr => (.ok, arr)

def pendingRows (now : UInt64) (peerPubkey : Option Pubkey) (table : PendingMessages) :
    List PendingRow :=
  table.rows.filter fun row =>
    (match peerPubkey with
      | some pubkey => decide (row.receiverPubkey = pubkey)
      | none => true) && decide (row.expiresAt ≥ (now.toNat : Int))

def sqliteGetPending (now : UInt64) (alloc : Nat → Bool) (peerPubkey : Option Pubkey)
    (table : PendingMessages) : Rc × List BcMessage :=
  pendingLoop alloc ((pendingRows now peerPubkey table).map .row ++ [.done]) 0 0 []

def sqliteDeleteMessage (uuid : Uuid) (table : PendingMessages) : Rc × PendingMessages :=
  (.ok, KeyedTable.deleteWhere (fun row => decide (row.uuid = uuid)) table)

/-- The age argument is ignored: every row carries its own expiry. -/
def sqliteEvictExpired (now _maxAgeSec : UInt64) (table : PendingMessages) :
    Rc × PendingMessages :=
  (.ok, KeyedTable.deleteWhere (fun row => decide (row.expiresAt < (now.toNat : Int))) table)

def sqliteStorage : BcStorage PendingMessages where
  storeMessage := some sqliteStoreMessage
  getPending := some sqliteGetPending
  deleteMessage := some sqliteDeleteMessage
  evictExpired := some sqliteEvictExpired

theorem bind_payload_read_back (payload : List UInt8) (size : payload.length < 2 ^ 31) :
    (bindPayload payload).getD [] = payload := by
  have exact : Int.bmod payload.length (2 ^ 32) = payload.length :=
    Int.bmod_eq_of_le (by omega) (by omega)
  simp only [bindPayload, exact]
  split_ifs with empty
  · rcases empty with nil | negative
    · rw [nil]
      rfl
    · omega
  · simp

theorem row_message_ttl (now : UInt64) (msg : BcMessage) :
    (rowMessage (storedRow now msg)).ttl = msg.ttl := by
  have bound := msg.ttl.toNat_lt
  have reduced : ((msg.ttl.toNat : Int) % 2 ^ 8).toNat = msg.ttl.toNat := by omega
  show UInt8.ofInt (msg.ttl.toNat : Int) = msg.ttl
  rw [UInt8.ofInt, reduced, UInt8.ofNat_toNat]

/-- What the row format keeps of a message: everything but the timestamp,
for which the reading at which the row was stored comes back. -/
theorem row_message_stored (now : UInt64) (msg : BcMessage) (size : msg.payload.length < 2 ^ 31) :
    rowMessage (storedRow now msg) = { msg with timestamp := now } := by
  have ttl : UInt8.ofInt (msg.ttl.toNat : Int) = msg.ttl := row_message_ttl now msg
  have timestamp : UInt64.ofInt ((now.toNat : Int) + storageDefaultRetentionSec -
      storageDefaultRetentionSec) = now := by
    have bound := now.toNat_lt
    have reduced : ((now.toNat : Int) % 2 ^ 64).toNat = now.toNat := by omega
    rw [Int.add_sub_cancel, UInt64.ofInt, reduced, UInt64.ofNat_toNat]
  simp only [rowMessage, storedRow, bind_payload_read_back _ size, ttl, timestamp]

def rowAllocations (row : PendingRow) (held cap : Nat) : Nat :=
  (if cap ≤ held then 1 else 0) + (if 0 < (row.payload.getD []).length then 2 else 1)

def grownCap (held cap : Nat) : Nat :=
  if cap ≤ held then (if cap = 0 then 8 else cap * 2) else cap

def pendingAllocations : List PendingRow → Nat → Nat → Nat
  | [], _, _ => 0
  | row :: rest, held, cap =>
      rowAllocations row held cap + pendingAllocations rest (held + 1) (grownCap held cap)

def AllocatesFrom (alloc : Nat → Bool) (k count : Nat) : Prop := ∀ i < count, alloc (k + i) = true

instance (alloc : Nat → Bool) (k count : Nat) : Decidable (AllocatesFrom alloc k count) :=
  inferInstanceAs (Decidable (∀ i < count, alloc (k + i) = true))

theorem allocates_from_add (alloc : Nat → Bool) (k first second : Nat) :
    AllocatesFrom alloc k (first + second) ↔
      AllocatesFrom alloc k first ∧ AllocatesFrom alloc (k + first) second := by
  constructor
  · intro all
    refine ⟨fun i bound => all i (by omega), fun i bound => ?_⟩
    rw [Nat.add_assoc]
    exact all (first + i) (by omega)
  · rintro ⟨early, late⟩ i bound
    by_cases before : i < first
    · exact early i before
    · have index : k + i = k + first + (i - first) := by omega
      rw [index]
      exact late (i - first) (by omega)

theorem allocates_from_zero (alloc : Nat → Bool) (k : Nat) : AllocatesFrom alloc k 0 :=
  fun _ bound => absurd bound (Nat.not_lt_zero _)

theorem allocates_from_succ (alloc : Nat → Bool) (k count : Nat) :
    AllocatesFrom alloc k (count + 1) ↔ alloc k = true ∧ AllocatesFrom alloc (k + 1) count := by
  rw [Nat.add_comm, allocates_from_add]
  constructor
  · rintro ⟨first, rest⟩
    exact ⟨first 0 Nat.zero_lt_one, rest⟩
  · rintro ⟨first, rest⟩
    refine ⟨fun i bound => ?_, rest⟩
    rw [Nat.lt_one_iff.mp bound]
    exact first

theorem pending_loop_row (alloc : Nat → Bool) (row : PendingRow) (rest : List StepResult)
    (k cap : Nat) (arr : List BcMessage) :
    pendingLoop alloc (.row row :: rest) k cap arr =
      if AllocatesFrom alloc k (rowAllocations row arr.length cap) then
        pendingLoop alloc rest (k + rowAllocations row arr.length cap) (grownCap arr.length cap)
          (arr ++ [rowMessage row])
      else (.nomem, []) := by
  rw [pendingLoop]
  -- Whether the array grows and whether there is a payload decide which of
  -- the three allocations are made.
  by_cases full : cap ≤ arr.length <;> by_cases payload : 0 < (row.payload.getD []).length <;>
    cases first : alloc k <;> cases second : alloc (k + 1) <;> cases third : alloc (k + 2) <;>
    simp [full, payload, rowAllocations, grownCap, allocates_from_succ, allocates_from_zero, first,
      second, third]

/-- Whatever result ends the loop, it fails for want of memory or returns all
rows that came before. -/
theorem pending_loop_eq (alloc : Nat → Bool) (rows : List PendingRow) (last : StepResult)
    (notRow : ∀ row, last ≠ .row row) (k cap : Nat) (arr : List BcMessage) :
    pendingLoop alloc (rows.map .row ++ [last]) k cap arr =
      if AllocatesFrom alloc k (pendingAllocations rows arr.length cap) then
        (.ok, arr ++ rows.map rowMessage)
      else (.nomem, []) := by
  induction rows generalizing k cap arr with
  | nil =>
      cases last with
      | row row => exact absurd rfl (notRow row)
      | done => simp [pendingLoop, pendingAllocations, AllocatesFrom]
      | error => simp [pendingLoop, pendingAllocations, AllocatesFrom]
  | cons row rest ih =>
      have count : (arr ++ [rowMessage row]).length = arr.length + 1 := by simp
      rw [List.map_cons, List.cons_append, pending_loop_row, pendingAllocations, ih, count]
      simp only [allocates_from_add]
      by_cases here : AllocatesFrom alloc k (rowAllocations row arr.length cap)
      · simp [here]
      · simp [here]

theorem get_pending_eq (now : UInt64) (alloc : Nat → Bool) (peerPubkey : Option Pubkey)
    (table : PendingMessages) :
    sqliteGetPending now alloc peerPubkey table =
      if AllocatesFrom alloc 0 (pendingAllocations (pendingRows now peerPubkey table) 0 0) then
        (.ok, (pendingRows now peerPubkey table).map rowMessage)
      else (.nomem, []) := by
  rw [sqliteGetPending, pending_loop_eq _ _ _ (by simp)]
  rfl

theorem get_pending_all (now : UInt64) (table : PendingMessages) :
    (sqliteGetPending now allocates none table).2 =
      (table.rows.filter fun row => decide (row.expiresAt ≥ (now.toNat : Int))).map rowMessage := by
  have memory : AllocatesFrom allocates 0 (pendingAllocations (pendingRows now none table) 0 0) :=
    fun _ _ => rfl
  rw [get_pending_eq, if_pos memory]
  simp [pendingRows]

theorem get_pending_from_rows {now : UInt64} {alloc : Nat → Bool} {peerPubkey : Option Pubkey}
    {table : PendingMessages} {msg : BcMessage}
    (member : msg ∈ (sqliteGetPending now alloc peerPubkey table).2) :
    ∃ row ∈ table.rows, msg = rowMessage row := by
  rw [get_pending_eq] at member
  split_ifs at member
  · obtain ⟨row, inRows, same⟩ := List.mem_map.mp member
    exact ⟨row, (List.mem_filter.mp inRows).1, same.symm⟩
  · cases member

inductive StorageCall where
  | store (now : UInt64) (msg : BcMessage)
  | evict (now maxAgeSec : UInt64)
  | delete (uuid : Uuid)

def StorageCall.run (table : PendingMessages) : StorageCall → PendingMessages
  | .store now msg => (sqliteStoreMessage now msg table).2
  | .evict now maxAgeSec => (sqliteEvictExpired now maxAgeSec table).2
  | .delete uuid => (sqliteDeleteMessage uuid table).2

def StorageCall.Between (start finish : UInt64) (uuid : Uuid) : StorageCall → Prop
  | .store now _ => start ≤ now ∧ now ≤ finish
  | .evict now _ => start ≤ now ∧ now ≤ finish
  | .delete other => other ≠ uuid

theorem storage_call_keeps {start finish : UInt64} {row : PendingRow} {table : PendingMessages}
    {call : StorageCall} (between : call.Between start finish row.uuid)
    (unexpired : (finish.toNat : Int) ≤ row.expiresAt) (member : row ∈ table.rows) :
    row ∈ (call.run table).rows := by
  cases call with
  | store now msg => exact KeyedTable.insert_or_ignore_keeps _ member
  | evict now maxAgeSec =>
      have order : now.toNat ≤ finish.toNat := UInt64.le_iff_toNat_le.mp between.2
      refine KeyedTable.mem_delete_where.mpr ⟨member, ?_⟩
      rw [decide_eq_false_iff_not]
      omega
  | delete uuid =>
      refine KeyedTable.mem_delete_where.mpr ⟨member, ?_⟩
      rw [decide_eq_false_iff_not]
      exact fun same => between same.symm

theorem storage_calls_keep {start finish : UInt64} (row : PendingRow) (calls : List StorageCall)
    (between : ∀ call ∈ calls, call.Between start finish row.uuid)
    (unexpired : (finish.toNat : Int) ≤ row.expiresAt) :
    ∀ table : PendingMessages, row ∈ table.rows →
      row ∈ (calls.foldl StorageCall.run table).rows := by
  induction calls with
  | nil => exact fun _ member => member
  | cons call rest ih =>
      intro table member
      exact ih (fun later inRest => between later (List.mem_cons_of_mem _ inRest)) _
        (storage_call_keeps (between call List.mem_cons_self) unexpired member)

theorem pending_copies {row : PendingRow} {table : PendingMessages} {now : UInt64}
    (member : row ∈ table.rows) (unexpired : (now.toNat : Int) ≤ row.expiresAt) :
    ((sqliteGetPending now allocates none table).2.filter fun copy =>
      decide (copy.uuid = row.uuid)) = [rowMessage row] := by
  rw [get_pending_all, List.filter_map, List.filter_filter]
  have sameKey : (table.rows.filter fun other => decide (other.uuid = row.uuid)) = [row] :=
    KeyedTable.rows_with_key member
  have order : (table.rows.filter fun other =>
      ((fun copy : BcMessage => decide (copy.uuid = row.uuid)) ∘ rowMessage) other &&
        decide (other.expiresAt ≥ (now.toNat : Int))) = [row] := by
    rw [← List.filter_filter, List.filter_comm]
    change ((table.rows.filter fun other => decide (other.uuid = row.uuid)).filter _) = [row]
    rw [sameKey]
    simpa using unexpired
  rw [order]
  rfl

def agedMessage : BcMessage where
  uuid := List.Vector.replicate 16 7
  ttl := 9
  senderPubkey := List.Vector.replicate 32 1
  receiverPubkey := List.Vector.replicate 32 2
  timestamp := 5
  payload := [104, 105]

end BitChat.PendingStorage
