import BitChat.PendingStorage

/-!
# The pending query

What `sqlite_get_pending` returns. Over the table: the two selects and the
eviction state the expiry separately, and the rows that one of them returns
are those that the other leaves. Over the results of `sqlite3_step`: the loop
ends at the first result that is not a row, with success whatever that result
is.
-/

namespace BitChat.PendingQuery

open BitChat.WireMessage BitChat.PendingStorage

set_option autoImplicit false

/-! ### Queries and evictions -/

def unexpired (now : UInt64) (row : PendingRow) : Bool :=
  decide (row.expiresAt ≥ (now.toNat : Int))

def addressed (peerPubkey : Option Pubkey) (row : PendingRow) : Bool :=
  match peerPubkey with
  | some pubkey => decide (row.receiverPubkey = pubkey)
  | none => true

theorem pending_rows_eq (now : UInt64) (peerPubkey : Option Pubkey) (table : PendingMessages) :
    pendingRows now peerPubkey table =
      (table.rows.filter (unexpired now)).filter (addressed peerPubkey) := by
  rw [List.filter_filter]
  rfl

def SameUnexpired (now : UInt64) (first second : PendingMessages) : Prop :=
  first.rows.filter (unexpired now) = second.rows.filter (unexpired now)

theorem SameUnexpired.get_pending {now : UInt64} {first second : PendingMessages}
    (same : SameUnexpired now first second) (alloc : Nat → Bool) (peerPubkey : Option Pubkey) :
    sqliteGetPending now alloc peerPubkey first = sqliteGetPending now alloc peerPubkey second := by
  have rows : pendingRows now peerPubkey first = pendingRows now peerPubkey second := by
    rw [pending_rows_eq, pending_rows_eq, same]
  rw [sqliteGetPending, sqliteGetPending, rows]

theorem SameUnexpired.delete_where {now : UInt64} {first second : PendingMessages}
    (condition : PendingRow → Bool) (same : SameUnexpired now first second) :
    SameUnexpired now (KeyedTable.deleteWhere condition first)
      (KeyedTable.deleteWhere condition second) := by
  unfold SameUnexpired KeyedTable.deleteWhere
  rw [List.filter_comm, List.filter_comm _ _ second.rows, same]

def StorageCall.IsStore : StorageCall → Prop
  | .store _ _ => True
  | .evict _ _ => False
  | .delete _ => False

theorem SameUnexpired.calls {now : UInt64} (calls : List StorageCall)
    (noStore : ∀ call ∈ calls, ¬ StorageCall.IsStore call) :
    ∀ first second : PendingMessages, SameUnexpired now first second →
      SameUnexpired now (calls.foldl StorageCall.run first)
        (calls.foldl StorageCall.run second) := by
  induction calls with
  | nil => exact fun _ _ same => same
  | cons call rest ih =>
      intro first second same
      apply ih (fun later inRest => noStore later (List.mem_cons_of_mem _ inRest))
      cases call with
      | store storeNow msg => exact absurd trivial (noStore _ List.mem_cons_self)
      | evict evictNow maxAgeSec => exact same.delete_where _
      | delete uuid => exact same.delete_where _

theorem evict_same_unexpired {now later : UInt64} (maxAgeSec : UInt64) (order : now ≤ later)
    (table : PendingMessages) :
    SameUnexpired later (sqliteEvictExpired now maxAgeSec table).2 table := by
  have times : now.toNat ≤ later.toNat := UInt64.le_iff_toNat_le.mp order
  unfold SameUnexpired sqliteEvictExpired KeyedTable.deleteWhere
  rw [List.filter_filter]
  apply List.filter_congr
  intro row _
  rw [unexpired, ← decide_not, ← Bool.decide_and, decide_eq_decide]
  omega

theorem store_present {table : PendingMessages} {msg : BcMessage}
    (present : KeyedTable.hasKey table msg.uuid) (now : UInt64) :
    (sqliteStoreMessage now msg table).2 = table := by
  unfold sqliteStoreMessage KeyedTable.insertOrIgnore
  exact dif_pos present

theorem row_message_mem_iff {table : PendingMessages} {row : PendingRow}
    (member : row ∈ table.rows) {rows : List PendingRow} (inside : ∀ other ∈ rows, other ∈ table.rows) :
    rowMessage row ∈ rows.map rowMessage ↔ row ∈ rows := by
  constructor
  · intro found
    obtain ⟨other, inRows, same⟩ := List.mem_map.mp found
    have sameKey : other.uuid = row.uuid := congrArg BcMessage.uuid same
    rw [← KeyedTable.row_unique (inside other inRows) member sameKey]
    exact inRows
  · exact List.mem_map_of_mem

theorem get_pending_ok {now : UInt64} {alloc : Nat → Bool} {peerPubkey : Option Pubkey}
    {table : PendingMessages} (success : (sqliteGetPending now alloc peerPubkey table).1 = .ok) :
    (sqliteGetPending now alloc peerPubkey table).2 =
      (pendingRows now peerPubkey table).map rowMessage := by
  rw [get_pending_eq] at success ⊢
  split_ifs at success ⊢
  rfl

structure QueriesAgree (table : PendingMessages) (now : UInt64) : Prop where
  -- With memory the queries succeed.
  answered : ∀ peerPubkey, (sqliteGetPending now allocates peerPubkey table).1 = .ok
  -- A row is returned or removed, never both.
  returnedOrRemoved : ∀ alloc maxAgeSec, (sqliteGetPending now alloc none table).1 = .ok →
    ∀ row ∈ table.rows,
      (rowMessage row ∈ (sqliteGetPending now alloc none table).2 ∨
          row ∉ (sqliteEvictExpired now maxAgeSec table).2.rows) ∧
        ¬ (rowMessage row ∈ (sqliteGetPending now alloc none table).2 ∧
          row ∉ (sqliteEvictExpired now maxAgeSec table).2.rows)
  -- The query with a key selects from the one without.
  selected : ∀ alloc other pubkey, (sqliteGetPending now alloc (some pubkey) table).1 = .ok →
    (sqliteGetPending now other none table).1 = .ok →
    (sqliteGetPending now alloc (some pubkey) table).2 =
      (sqliteGetPending now other none table).2.filter fun msg =>
        decide (msg.receiverPubkey = pubkey)
  -- An eviction changes no answer from then on, as long as nothing is stored.
  evictionUnseen : ∀ maxAgeSec later, now ≤ later →
    ∀ calls : List StorageCall, (∀ call ∈ calls, ¬ StorageCall.IsStore call) →
    ∀ alloc peerPubkey,
      sqliteGetPending later alloc peerPubkey
          (calls.foldl StorageCall.run (sqliteEvictExpired now maxAgeSec table).2) =
        sqliteGetPending later alloc peerPubkey (calls.foldl StorageCall.run table)
  -- Storing a uuid that is there changes no answer at any time.
  restoreUnseen : ∀ storeNow msg, KeyedTable.hasKey table msg.uuid →
    ∀ (calls : List StorageCall) later alloc peerPubkey,
      sqliteGetPending later alloc peerPubkey
          (calls.foldl StorageCall.run (sqliteStoreMessage storeNow msg table).2) =
        sqliteGetPending later alloc peerPubkey (calls.foldl StorageCall.run table)

theorem returned_iff_kept {now : UInt64} {alloc : Nat → Bool} {table : PendingMessages}
    {row : PendingRow} (maxAgeSec : UInt64)
    (success : (sqliteGetPending now alloc none table).1 = .ok) (member : row ∈ table.rows) :
    rowMessage row ∈ (sqliteGetPending now alloc none table).2 ↔
      row ∈ (sqliteEvictExpired now maxAgeSec table).2.rows := by
  have inside : ∀ other ∈ pendingRows now none table, other ∈ table.rows :=
    fun other inRows => (List.mem_filter.mp inRows).1
  rw [get_pending_ok success, row_message_mem_iff member inside, pendingRows, List.mem_filter,
    sqliteEvictExpired, KeyedTable.mem_delete_where, decide_eq_false_iff_not, Bool.true_and,
    decide_eq_true_eq]
  have boundary : row.expiresAt ≥ (now.toNat : Int) ↔ ¬ row.expiresAt < (now.toNat : Int) := by
    omega
  rw [boundary]

/-- The queries and the eviction agree on expiry, for every table and at every
reading. -/
theorem queries_agree (table : PendingMessages) (now : UInt64) : QueriesAgree table now where
  answered := by
    intro peerPubkey
    have memory : AllocatesFrom allocates 0
        (pendingAllocations (pendingRows now peerPubkey table) 0 0) := fun _ _ => rfl
    rw [get_pending_eq, if_pos memory]
  returnedOrRemoved := by
    intro alloc maxAgeSec success row member
    rw [returned_iff_kept maxAgeSec success member]
    exact ⟨Classical.em _, and_not_self⟩
  selected := by
    intro alloc other pubkey success otherSuccess
    have unfiltered : pendingRows now none table = table.rows.filter (unexpired now) := by
      rw [pending_rows_eq]
      exact List.filter_true _
    rw [get_pending_ok success, get_pending_ok otherSuccess, unfiltered, pending_rows_eq,
      List.filter_map]
    rfl
  evictionUnseen := by
    intro maxAgeSec later order calls noStore alloc peerPubkey
    have same := evict_same_unexpired maxAgeSec order table
    exact (SameUnexpired.calls calls noStore _ _ same).get_pending alloc peerPubkey
  restoreUnseen := by
    intro storeNow msg present calls later alloc peerPubkey
    rw [store_present present]

/-! ### The loop over the rows -/

inductive Ending where
  | done
  | error
deriving DecidableEq

def Ending.result : Ending → StepResult
  | .done => .done
  | .error => .error

def stepResults (rows : List PendingRow) (ending : Ending) : List StepResult :=
  rows.map .row ++ [ending.result]

/-- The status with `*msgs_out` and `*count`. The array is allocated with the
first row, so the pointer is null as long as there is none. -/
structure PendingOutput where
  rc : Rc
  msgsOut : Option (List BcMessage)
  count : Nat

def pendingOutput (alloc : Nat → Bool) (steps : List StepResult) : PendingOutput :=
  let result := pendingLoop alloc steps 0 0 []
  { rc := result.1
    msgsOut := if result.2 = [] then none else some result.2
    count := result.2.length }

inductive LoopEvent where
  | allocation (succeeded : Bool)
  | write (index capacity : Nat)
deriving DecidableEq

/-- The allocations that the loop makes and its writes `arr[n++] = msg`, in
order; `k` counts allocations, `n` rows. -/
def pendingTrace (alloc : Nat → Bool) : List StepResult → Nat → Nat → Nat → List LoopEvent
  | .row row :: rest, k, cap, n =>
      let full := decide (cap ≤ n)
      let newCap := if full then (if cap = 0 then 8 else cap * 2) else cap
      let afterGrow := if full then k + 1 else k
      let hasPayload := decide (0 < (row.payload.getD []).length)
      let growth := if full then [.allocation (alloc k)] else []
      if full = true ∧ alloc k = false then growth
      else if alloc afterGrow = false then growth ++ [.allocation false]
      else if hasPayload = true ∧ alloc (afterGrow + 1) = false then
        growth ++ [.allocation true, .allocation false]
      else
        growth ++ [.allocation true] ++ (if hasPayload then [.allocation true] else []) ++
          .write n newCap ::
            pendingTrace alloc rest (if hasPayload then afterGrow + 2 else afterGrow + 1) newCap
              (n + 1)
  | _, _, _, _ => []

/-- All rows and success, or an error and nothing, according to how the rows
end and whether an allocation fails; and every write goes into the array. -/
structure CompleteOrError (alloc : Nat → Bool) (rows : List PendingRow) (ending : Ending) :
    Prop where
  complete : ending = .done →
    .allocation false ∉ pendingTrace alloc (stepResults rows ending) 0 0 0 →
    (pendingOutput alloc (stepResults rows ending)).rc = .ok ∧
      (pendingOutput alloc (stepResults rows ending)).msgsOut.getD [] = rows.map rowMessage ∧
      (pendingOutput alloc (stepResults rows ending)).count = rows.length
  error : ¬ (ending = .done ∧
      .allocation false ∉ pendingTrace alloc (stepResults rows ending) 0 0 0) →
    (pendingOutput alloc (stepResults rows ending)).rc ≠ .ok ∧
      (pendingOutput alloc (stepResults rows ending)).msgsOut = none ∧
      (pendingOutput alloc (stepResults rows ending)).count = 0
  inBounds : ∀ index capacity,
    .write index capacity ∈ pendingTrace alloc (stepResults rows ending) 0 0 0 →
    index < capacity

def allocationsMade (alloc : Nat → Bool) : Nat → Nat → List Bool
  | _, 0 => []
  | k, count + 1 => if alloc k = true then true :: allocationsMade alloc (k + 1) count else [false]

theorem failure_mem_iff (alloc : Nat → Bool) (k count : Nat) :
    false ∈ allocationsMade alloc k count ↔ ¬ AllocatesFrom alloc k count := by
  induction count generalizing k with
  | zero => simp [allocationsMade, allocates_from_zero]
  | succ count ih =>
      rw [allocationsMade, allocates_from_succ]
      by_cases here : alloc k = true
      · simp [here, ih]
      · simp [here]

theorem pending_trace_row (alloc : Nat → Bool) (row : PendingRow) (rest : List StepResult)
    (k cap n : Nat) :
    pendingTrace alloc (.row row :: rest) k cap n =
      (allocationsMade alloc k (rowAllocations row n cap)).map .allocation ++
        if AllocatesFrom alloc k (rowAllocations row n cap) then
          .write n (grownCap n cap) ::
            pendingTrace alloc rest (k + rowAllocations row n cap) (grownCap n cap) (n + 1)
        else [] := by
  rw [pendingTrace]
  by_cases full : cap ≤ n <;> by_cases payload : 0 < (row.payload.getD []).length <;>
    cases first : alloc k <;> cases second : alloc (k + 1) <;> cases third : alloc (k + 2) <;>
    simp [full, payload, rowAllocations, grownCap, allocates_from_succ, allocates_from_zero, first,
      second, third, allocationsMade]

theorem trace_failure_iff (alloc : Nat → Bool) (rows : List PendingRow) (ending : Ending)
    (k cap n : Nat) :
    .allocation false ∈ pendingTrace alloc (stepResults rows ending) k cap n ↔
      ¬ AllocatesFrom alloc k (pendingAllocations rows n cap) := by
  induction rows generalizing k cap n with
  | nil => cases ending <;> simp [stepResults, Ending.result, pendingTrace, pendingAllocations,
      allocates_from_zero]
  | cons row rest ih =>
      have here := failure_mem_iff alloc k (rowAllocations row n cap)
      rw [stepResults, List.map_cons, List.cons_append, pending_trace_row, pendingAllocations,
        allocates_from_add]
      by_cases allocated : AllocatesFrom alloc k (rowAllocations row n cap)
      · have later := ih (k + rowAllocations row n cap) (grownCap n cap) (n + 1)
        rw [stepResults] at later
        simp [allocated, here, later]
      · simp [allocated, here]

theorem grown_cap_lt {n cap : Nat} (room : n ≤ cap) : n < grownCap n cap := by
  unfold grownCap
  split_ifs <;> omega

/-- The invariant of the loop is that the array holds its rows: growing makes
room for one more. -/
theorem trace_in_bounds (alloc : Nat → Bool) (rows : List PendingRow) (ending : Ending)
    (k cap n : Nat) (room : n ≤ cap) (index capacity : Nat)
    (written : .write index capacity ∈ pendingTrace alloc (stepResults rows ending) k cap n) :
    index < capacity := by
  induction rows generalizing k cap n with
  | nil => cases ending <;> simp [stepResults, Ending.result, pendingTrace] at written
  | cons row rest ih =>
      have grown := grown_cap_lt room
      rw [stepResults, List.map_cons, List.cons_append, pending_trace_row] at written
      rcases List.mem_append.mp written with allocation | later
      · simp at allocation
      · split_ifs at later with allocated
        · rcases List.mem_cons.mp later with here | after
          · cases here
            exact grown
          · exact ih _ _ _ grown after
        · cases later

theorem array_content (msgs : List BcMessage) :
    (if msgs = [] then none else some msgs).getD [] = msgs := by
  split_ifs with empty
  · exact empty.symm
  · rfl

theorem pending_output_eq (alloc : Nat → Bool) (rows : List PendingRow) (ending : Ending) :
    pendingOutput alloc (stepResults rows ending) =
      if AllocatesFrom alloc 0 (pendingAllocations rows 0 0) then
        ⟨.ok, if rows.map rowMessage = [] then none else some (rows.map rowMessage), rows.length⟩
      else ⟨.nomem, none, 0⟩ := by
  have notRow : ∀ row, ending.result ≠ .row row := by cases ending <;> simp [Ending.result]
  rw [pendingOutput, stepResults, pending_loop_eq alloc rows ending.result notRow 0 0 []]
  by_cases memory : AllocatesFrom alloc 0 (pendingAllocations rows 0 0)
  · simp [memory]
  · simp [memory]

/-- The query returns all rows or an error exactly when its rows end in
`SQLITE_DONE` or memory runs out before their end. -/
theorem complete_or_error_iff (alloc : Nat → Bool) (rows : List PendingRow) (ending : Ending) :
    CompleteOrError alloc rows ending ↔
      ending = .done ∨ ¬ AllocatesFrom alloc 0 (pendingAllocations rows 0 0) := by
  have failure := trace_failure_iff alloc rows ending 0 0 0
  have output := pending_output_eq alloc rows ending
  constructor
  · intro whole
    by_contra neither
    obtain ⟨notDone, memory⟩ := not_or.mp neither
    have refused := (whole.error fun both => notDone both.1).1
    rw [output, if_pos (not_not.mp memory)] at refused
    exact refused rfl
  · intro condition
    refine ⟨?_, ?_, fun index capacity written =>
      trace_in_bounds alloc rows ending 0 0 0 (Nat.le_refl 0) index capacity written⟩
    · intro _ noFailure
      rw [failure, not_not] at noFailure
      rw [output, if_pos noFailure]
      exact ⟨rfl, array_content _, rfl⟩
    · intro otherwise
      have outOfMemory : ¬ AllocatesFrom alloc 0 (pendingAllocations rows 0 0) := by
        rcases condition with done | memory
        · intro memory
          exact otherwise ⟨done, fun failed => failure.mp failed memory⟩
        · exact memory
      rw [output, if_neg outOfMemory]
      exact ⟨by decide, rfl, rfl⟩

/-- One row and then an error: the query succeeds with the row it has. -/
theorem error_after_row_succeeds :
    ¬ CompleteOrError allocates [storedRow 5 agedMessage] .error ∧
      (pendingOutput allocates (stepResults [storedRow 5 agedMessage] .error)).rc = .ok := by
  have success : (pendingOutput allocates (stepResults [storedRow 5 agedMessage] .error)).rc =
      .ok := by decide
  refine ⟨?_, success⟩
  intro whole
  exact (whole.error fun both => nomatch both.1).1 success

end BitChat.PendingQuery
