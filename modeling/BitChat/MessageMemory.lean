import BitChat.PendingStorage
import BitChat.Library.Ownership
import Mathlib.Algebra.Order.Group.Multiset
import Mathlib.Tactic.Abel

/-!
# Messages in memory

Transcription of `domain/message.c` and of the query in
`infra/storage_sqlite.c` with their allocations: a message is a block of its
own and one for its payload, unless that is empty. A pointer carries along
what stands in the blocks behind it. Only the heap is checked: every function
runs without touching a freed block, hands on the blocks of its result and
returns what the model without memory returns. The bytes a message is parsed
from are not on the heap, and a read beyond them is no access here.
-/

namespace BitChat.MessageMemory

open BitChat.WireMessage BitChat.PendingStorage Ownership

set_option autoImplicit false

structure MessagePtr where
  block : Nat
  payload : Option Nat
  value : BcMessage
  null : payload = none ↔ value.payload = []

def MessagePtr.blocks (msg : MessagePtr) : Multiset Nat := {msg.block} + blockOf msg.payload

def ptrBlocks : Option MessagePtr → Multiset Nat
  | none => 0
  | some msg => msg.blocks

def MessagePtr.read (msg : MessagePtr) : Prog BcMessage := do
  access msg.block
  accessAll msg.payload.toList
  pure msg.value

/-- The two allocations of a message and the release of the first one where
the second one fails. -/
def newMessage (alloc : Nat → Bool) (value : BcMessage) : Prog (Option MessagePtr) := do
  match ← malloc (alloc 0) with
  | none => pure none
  | some block =>
      if empty : value.payload = [] then pure (some ⟨block, none, value, by simp [empty]⟩)
      else
        match ← malloc (alloc 1) with
        | none => do
            free block
            pure none
        | some bytes => pure (some ⟨block, some bytes, value, by simp [empty]⟩)

def bcMessageCreate (alloc : Nat → Bool) (uuid : Uuid) (now : UInt64) (sender receiver : Pubkey)
    (payload : List UInt8) : Prog (Option MessagePtr) :=
  newMessage alloc
    { uuid := uuid
      ttl := bcDefaultTtl
      senderPubkey := sender
      receiverPubkey := receiver
      timestamp := now
      payload := payload }

def bcMessageDestroy : Option MessagePtr → Prog Unit
  | none => pure ()
  | some msg => do
      access msg.block
      freeIfAny msg.payload
      free msg.block

/-- The bytes that are parsed are in a buffer of the caller on the stack, and
so is what the copy of the payload reads beyond them when the length wraps:
neither is an access to the heap. -/
def bcMessageDeserialize (alloc : Nat → Bool) (mem : Memory) : Prog (Option MessagePtr) :=
  let payloadLen := readU32Be mem 89
  if mem.data.length < bcMessageHeaderSize then pure none
  else if mem.data.length < (UInt32.ofNat bcMessageHeaderSize + payloadLen).toNat then pure none
  else newMessage alloc (messageAt mem)

/-- Into a buffer on the heap, which `needed` bytes were allocated for. -/
def bcMessageSerialize (msg : MessagePtr) (buf needed : Nat) : Prog SerializeResult := do
  let value ← msg.read
  access buf
  pure (WireMessage.bcMessageSerialize value needed)

/-! ### The query for pending messages -/

structure PendingArray where
  rc : Rc
  arr : Option Nat
  msgs : List MessagePtr

def listBlocks : List MessagePtr → Multiset Nat
  | [] => 0
  | msg :: rest => msg.blocks + listBlocks rest

def PendingArray.blocks (pending : PendingArray) : Multiset Nat :=
  blockOf pending.arr + listBlocks pending.msgs

structure PendingArray.Sound (pending : PendingArray) : Prop where
  notNull : pending.msgs ≠ [] → pending.arr ≠ none
  failed : pending.rc ≠ .ok → pending.blocks = 0

def growArray (full succeeds : Bool) (arr : Option Nat) : Prog (Bool × Option Nat) :=
  if full then do
    match ← realloc arr succeeds with
    | none => pure (false, arr)
    | some tmp => pure (true, some tmp)
  else pure (true, arr)

/-- The loop behind the label `oom`. -/
def destroyAll (arr : Option Nat) : List MessagePtr → Prog Unit
  | [] => pure ()
  | msg :: rest => do
      deref arr
      bcMessageDestroy (some msg)
      destroyAll arr rest

def oom (arr : Option Nat) (msgs : List MessagePtr) : Prog PendingArray := do
  destroyAll arr msgs
  freeIfAny arr
  pure ⟨.nomem, none, []⟩

def pendingLoop (alloc : Nat → Bool) :
    List StepResult → Nat → Nat → Option Nat → List MessagePtr → Prog PendingArray
  | .row row :: rest, k, cap, arr, msgs => do
      let full := decide (cap ≤ msgs.length)
      let newCap := if full then (if cap = 0 then 8 else cap * 2) else cap
      let afterGrow := if full then k + 1 else k
      let hasPayload := decide (0 < (row.payload.getD []).length)
      let grown ← growArray full (alloc k) arr
      if grown.1 = false then oom grown.2 msgs
      else
        match ← newMessage (fun i => alloc (afterGrow + i)) (rowMessage row) with
        | none => oom grown.2 msgs
        | some msg => do
            deref grown.2
            pendingLoop alloc rest (if hasPayload then afterGrow + 2 else afterGrow + 1) newCap
              grown.2 (msgs ++ [msg])
  | _, _, _, arr, msgs => pure ⟨.ok, arr, msgs⟩

def sqliteGetPending (now : UInt64) (alloc : Nat → Bool) (peerPubkey : Option Pubkey)
    (table : PendingMessages) : Prog PendingArray :=
  pendingLoop alloc ((pendingRows now peerPubkey table).map .row ++ [.done]) 0 0 none []

section Messages

variable {pre : Multiset Nat}

theorem read_triple {msg : MessagePtr} (mine : msg.blocks ≤ pre) :
    Triple pre msg.read (fun _ => pre) fun value => value = msg.value := by
  have own : ∀ block ∈ msg.blocks, block ∈ pre := fun _ => Multiset.mem_of_le mine
  have first : msg.block ∈ pre :=
    own _ (Multiset.mem_add.mpr (.inl (Multiset.mem_singleton_self _)))
  have second : ∀ block ∈ msg.payload.toList, block ∈ pre := by
    intro block member
    apply own
    rw [Option.mem_toList] at member
    rw [MessagePtr.blocks, Option.mem_def.mp member]
    exact Multiset.mem_add.mpr (.inr (Multiset.mem_singleton_self block))
  apply (access_triple first).bind
  intro _ _
  apply (access_all_triple second).bind
  intro _ _
  exact Triple.pure msg.value rfl rfl

def allocated (alloc : Nat → Bool) (value : BcMessage) : Option BcMessage :=
  if alloc 0 = false then none
  else if 0 < value.payload.length ∧ alloc 1 = false then none
  else some value

theorem new_message_triple (alloc : Nat → Bool) (value : BcMessage) :
    Triple 0 (newMessage alloc value) ptrBlocks fun msg =>
      msg.map MessagePtr.value = allocated alloc value := by
  apply (malloc_triple (alloc 0)).bind
  intro block isSome
  cases block with
  | none =>
      refine Triple.pure none rfl ?_
      rw [allocated, if_pos (show alloc 0 = false from isSome.symm)]
      rfl
  | some block =>
      have got : ¬ alloc 0 = false := by
        rw [show alloc 0 = true from isSome.symm]
        decide
      by_cases empty : value.payload = []
      · simp only [dif_pos empty]
        refine Triple.pure _ (Multiset.add_zero _) ?_
        have nothing : ¬ (0 < value.payload.length ∧ alloc 1 = false) := by simp [empty]
        rw [allocated, if_neg got, if_neg nothing]
        rfl
      · simp only [dif_neg empty]
        have size : 0 < value.payload.length := List.length_pos_of_ne_nil empty
        have more := (malloc_triple (alloc 1)).frame {block}
        rw [Multiset.zero_add] at more
        apply more.bind
        intro bytes isSome
        cases bytes with
        | none =>
            have freed := (free_triple block).weaken (Multiset.zero_add {block})
              (fun _ _ => rfl) fun _ _ => trivial
            apply freed.bind
            intro _ _
            refine Triple.pure none rfl ?_
            rw [allocated, if_neg got, if_pos ⟨size, isSome.symm⟩]
            rfl
        | some bytes =>
            refine Triple.pure _ (Multiset.add_comm _ _) ?_
            have both : ¬ (0 < value.payload.length ∧ alloc 1 = false) := by
              rw [show alloc 1 = true from isSome.symm]
              simp
            rw [allocated, if_neg got, if_neg both]
            rfl

theorem message_create_triple (alloc : Nat → Bool) (uuid : Uuid) (now : UInt64)
    (sender receiver : Pubkey) (payload : List UInt8) :
    Triple 0 (bcMessageCreate alloc uuid now sender receiver payload) ptrBlocks fun msg =>
      msg.map MessagePtr.value =
        WireMessage.bcMessageCreate alloc uuid now sender receiver payload :=
  new_message_triple alloc _

theorem message_destroy_triple (msg : Option MessagePtr) :
    Triple (ptrBlocks msg) (bcMessageDestroy msg) (fun _ => 0) fun _ => True := by
  cases msg with
  | none => exact Triple.pure () rfl trivial
  | some msg =>
      have here : msg.block ∈ msg.blocks :=
        Multiset.mem_add.mpr (.inl (Multiset.mem_singleton_self _))
      apply (access_triple here).bind
      intro _ _
      have payload := (free_if_any_triple msg.payload).frame {msg.block}
      refine (payload.weaken (Multiset.add_comm _ _) (fun _ _ => rfl) fun _ _ => trivial).bind ?_
      intro _ _
      exact (free_triple msg.block).weaken (Multiset.zero_add _) (fun _ _ => rfl) fun _ _ => trivial

theorem message_deserialize_triple (alloc : Nat → Bool) (mem : Memory) :
    Triple 0 (bcMessageDeserialize alloc mem) ptrBlocks fun msg =>
      msg.map MessagePtr.value = WireMessage.bcMessageDeserialize alloc mem := by
  simp only [bcMessageDeserialize, WireMessage.bcMessageDeserialize]
  by_cases short : mem.data.length < bcMessageHeaderSize
  · simp only [if_pos short]
    exact Triple.pure none rfl rfl
  · simp only [if_neg short]
    by_cases cut : mem.data.length < (UInt32.ofNat bcMessageHeaderSize + readU32Be mem 89).toNat
    · simp only [if_pos cut]
      exact Triple.pure none rfl rfl
    · simp only [if_neg cut]
      have size : (messageAt mem).payload.length = (readU32Be mem 89).toNat :=
        Memory.read_length mem 93 _
      have made := new_message_triple alloc (messageAt mem)
      rw [allocated, size] at made
      exact made

theorem message_serialize_triple {msg : MessagePtr} {buf : Nat} (mine : msg.blocks ≤ pre)
    (room : buf ∈ pre) (needed : Nat) :
    Triple pre (bcMessageSerialize msg buf needed) (fun _ => pre) fun result =>
      result = WireMessage.bcMessageSerialize msg.value needed := by
  apply (read_triple mine).bind
  intro value isValue
  apply (access_triple room).bind
  intro _ _
  exact Triple.pure _ rfl (by rw [isValue])

end Messages

section Pending

theorem list_blocks_append (first second : List MessagePtr) :
    listBlocks (first ++ second) = listBlocks first + listBlocks second := by
  induction first with
  | nil => exact (Multiset.zero_add _).symm
  | cons msg rest ih => rw [List.cons_append, listBlocks, listBlocks, ih, Multiset.add_assoc]

theorem grow_array_triple (full succeeds : Bool) (arr : Option Nat) :
    Triple (blockOf arr) (growArray full succeeds arr) (fun grown => blockOf grown.2)
      fun grown => (grown.1 = false ↔ full = true ∧ succeeds = false) ∧
        (grown.2 = none → arr = none ∧ (full = true → grown.1 = false)) := by
  cases full with
  | false => exact Triple.pure (true, arr) rfl ⟨by simp, fun isNone => ⟨isNone, by simp⟩⟩
  | true =>
      apply (realloc_triple arr succeeds).bind
      intro larger isSome
      cases larger with
      | none =>
          have failed : succeeds = false := isSome.symm
          rw [failed]
          exact Triple.pure (false, arr) rfl ⟨by simp, fun isNone => ⟨isNone, by simp⟩⟩
      | some tmp =>
          have succeeded : succeeds = true := isSome.symm
          rw [succeeded]
          exact Triple.pure (true, some tmp) rfl ⟨by simp, by simp⟩

theorem destroy_all_triple {arr : Option Nat} (msgs : List MessagePtr)
    (notNull : msgs ≠ [] → arr ≠ none) :
    Triple (blockOf arr + listBlocks msgs) (destroyAll arr msgs) (fun _ => blockOf arr)
      fun _ => True := by
  induction msgs with
  | nil => exact Triple.pure () (Multiset.add_zero _).symm trivial
  | cons msg rest ih =>
      have there : arr ≠ none := notNull (List.cons_ne_nil msg rest)
      apply (deref_triple there (Multiset.le_add_right _ _)).bind
      intro _ _
      have destroyed := (message_destroy_triple (some msg)).frame (blockOf arr + listBlocks rest)
      refine (destroyed.weaken ?_ (fun _ _ => rfl) fun _ _ => trivial).bind ?_
      · exact add_left_comm _ _ _
      · intro _ _
        exact (ih fun _ => there).weaken (Multiset.zero_add _) (fun _ _ => rfl) fun _ _ => trivial

theorem oom_triple {arr : Option Nat} {msgs : List MessagePtr}
    (notNull : msgs ≠ [] → arr ≠ none) :
    Triple (blockOf arr + listBlocks msgs) (oom arr msgs) PendingArray.blocks fun pending =>
      pending = ⟨.nomem, none, []⟩ := by
  apply (destroy_all_triple msgs notNull).bind
  intro _ _
  apply (free_if_any_triple arr).bind
  intro _ _
  exact Triple.pure (⟨.nomem, none, []⟩ : PendingArray) rfl rfl

theorem pending_loop_allocated (alloc : Nat → Bool) (row : PendingRow) (rest : List StepResult)
    (k cap : Nat) (arr : List BcMessage) :
    let full := decide (cap ≤ arr.length)
    let afterGrow := if full then k + 1 else k
    let hasPayload := decide (0 < (row.payload.getD []).length)
    PendingStorage.pendingLoop alloc (.row row :: rest) k cap arr =
      if full = true ∧ alloc k = false then (.nomem, [])
      else
        match allocated (fun i => alloc (afterGrow + i)) (rowMessage row) with
        | none => (.nomem, [])
        | some msg =>
            PendingStorage.pendingLoop alloc rest
              (if hasPayload then afterGrow + 2 else afterGrow + 1)
              (if full then (if cap = 0 then 8 else cap * 2) else cap) (arr ++ [msg]) := by
  intro full afterGrow hasPayload
  rw [PendingStorage.pendingLoop]
  by_cases failed : full = true ∧ alloc k = false
  · rw [if_pos failed, if_pos failed]
  · rw [if_neg failed, if_neg failed]
    by_cases noMessage : alloc afterGrow = false
    · have missing : allocated (fun i => alloc (afterGrow + i)) (rowMessage row) = none :=
        if_pos noMessage
      rw [missing]
      exact if_pos noMessage
    · by_cases noPayload : 0 < (row.payload.getD []).length ∧ alloc (afterGrow + 1) = false
      · have missing : allocated (fun i => alloc (afterGrow + i)) (rowMessage row) = none :=
          (if_neg noMessage).trans (if_pos noPayload)
        rw [missing]
        exact (if_neg noMessage).trans (if_pos ⟨decide_eq_true noPayload.1, noPayload.2⟩)
      · have made : allocated (fun i => alloc (afterGrow + i)) (rowMessage row) =
            some (rowMessage row) := (if_neg noMessage).trans (if_neg noPayload)
        rw [made]
        exact (if_neg noMessage).trans
          (if_neg fun both => noPayload ⟨of_decide_eq_true both.1, both.2⟩)

theorem pending_loop_triple (alloc : Nat → Bool) (steps : List StepResult) :
    ∀ (k cap : Nat) (arr : Option Nat) (msgs : List MessagePtr), msgs.length ≤ cap →
      (arr = none → cap = 0) →
      Triple (blockOf arr + listBlocks msgs) (pendingLoop alloc steps k cap arr msgs)
        PendingArray.blocks fun pending =>
          (pending.rc, pending.msgs.map MessagePtr.value) =
            PendingStorage.pendingLoop alloc steps k cap (msgs.map MessagePtr.value) ∧
          pending.Sound := by
  induction steps with
  | nil =>
      intro k cap arr msgs held start
      refine Triple.pure (⟨.ok, arr, msgs⟩ : PendingArray) rfl
        ⟨rfl, ?_, fun failed => absurd rfl failed⟩
      intro some isNone
      rw [start isNone] at held
      exact some (List.eq_nil_of_length_eq_zero (Nat.le_zero.mp held))
  | cons result rest ih =>
      intro k cap arr msgs held start
      have notNull : msgs ≠ [] → arr ≠ none := by
        intro some isNone
        rw [start isNone] at held
        exact some (List.eq_nil_of_length_eq_zero (Nat.le_zero.mp held))
      cases result with
      | done | error =>
          exact Triple.pure (⟨.ok, arr, msgs⟩ : PendingArray) rfl
            ⟨rfl, notNull, fun failed => absurd rfl failed⟩
      | row row =>
          rw [pending_loop_allocated, List.length_map]
          have growing := (grow_array_triple (decide (cap ≤ msgs.length)) (alloc k) arr).frame
            (listBlocks msgs)
          apply growing.bind
          rintro ⟨grew, larger⟩ ⟨failed, stays⟩
          have stillNotNull : msgs ≠ [] → larger ≠ none :=
            fun some isNone => notNull some (stays isNone).1
          by_cases out : grew = false
          · simp only [if_pos out, if_pos (failed.mp out)]
            refine (oom_triple stillNotNull).weaken rfl (fun _ _ => rfl) ?_
            rintro pending rfl
            exact ⟨rfl, fun some => absurd rfl some, fun _ => rfl⟩
          · simp only [if_neg out, if_neg (mt failed.mpr out)]
            have making := (new_message_triple
              (fun i => alloc ((if decide (cap ≤ msgs.length) then k + 1 else k) + i))
              (rowMessage row)).frame (blockOf larger + listBlocks msgs)
            rw [Multiset.zero_add] at making
            apply making.bind
            intro msg isValue
            cases msg with
            | none =>
                rw [← isValue]
                refine (oom_triple stillNotNull).weaken (Multiset.zero_add _) (fun _ _ => rfl) ?_
                rintro pending rfl
                exact ⟨rfl, fun some => absurd rfl some, fun _ => rfl⟩
            | some msg =>
                rw [← isValue]
                have room : larger ≠ none := by
                  intro isNone
                  obtain ⟨noArray, full⟩ := stays isNone
                  rw [start noArray] at full
                  exact out (full (by simp))
                have holding : blockOf larger ≤ ptrBlocks (some msg) +
                    (blockOf larger + listBlocks msgs) :=
                  (Multiset.le_add_right _ _).trans (Multiset.le_add_left _ _)
                apply (deref_triple room holding).bind
                intro _ _
                have longer : (msgs ++ [msg]).length ≤ if decide (cap ≤ msgs.length) then
                    (if cap = 0 then 8 else cap * 2) else cap := by
                  rw [List.length_append, List.length_singleton]
                  split_ifs <;> simp_all <;> omega
                refine (ih _ _ larger (msgs ++ [msg]) longer
                  fun isNone => absurd isNone room).weaken ?_ (fun _ _ => rfl) ?_
                · rw [list_blocks_append]
                  show msg.blocks + (blockOf larger + listBlocks msgs) =
                    blockOf larger + (listBlocks msgs + (msg.blocks + 0))
                  abel
                · intro pending ensured
                  rw [List.map_append] at ensured
                  exact ensured

theorem get_pending_triple (now : UInt64) (alloc : Nat → Bool) (peerPubkey : Option Pubkey)
    (table : PendingMessages) :
    Triple 0 (sqliteGetPending now alloc peerPubkey table) PendingArray.blocks fun pending =>
      (pending.rc, pending.msgs.map MessagePtr.value) =
        PendingStorage.sqliteGetPending now alloc peerPubkey table ∧
      pending.Sound :=
  pending_loop_triple alloc _ 0 0 none [] (Nat.le_refl 0) fun _ => rfl

end Pending

end BitChat.MessageMemory
