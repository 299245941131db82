import BitChat.Lifecycle

/-!
# The inbox of the FFI core

The ring of 256 cells is a queue of at most 255 messages. A run of the inbox
keeps, next to the core, every message that was copied into the ring and
which of them the polls have examined, by their place in the order of
arrival. What is in the queue was addressed to the identity in place when it
came in; an identity that is installed later finds it there.
-/

namespace BitChat.Inbox

open BitChat.WireMessage BitChat.CryptoManager BitChat.PendingStorage BitChat.MeshRouter
open BitChat.FfiCore BitChat.FfiRuns BitChat.Lifecycle TransitionSystem

set_option autoImplicit false

/-! ### A bounded queue -/

/-- A poll without a buffer returns before it looks at the inbox and is left
out. -/
inductive InboxCall where
  | received (msg : BcMessage)
  | poll (bufLen : Nat)
  | shutdown

/-- `arrived` are the messages copied into the ring, `taken` the places among
them of those that polls have examined, `oldest` the place of the next one. -/
structure InboxRun where
  core : GState
  arrived : List BcMessage
  taken : List Nat
  oldest : Nat

def InboxRun.pending (run : InboxRun) : List BcMessage := run.arrived.drop run.oldest

section Queue

variable (sodium : Sodium)

/-- The record follows the indices: a moved head is a copied message and a
moved tail an examined one. -/
def InboxCall.run (before : InboxRun) : InboxCall → InboxRun
  | .received msg =>
      let core := (onMessageReceived sodium allocates before.core msg).1
      { before with
        core := core
        arrived :=
          if core.inboxHead = before.core.inboxHead then before.arrived
          else before.arrived ++ [msg] }
  | .poll bufLen =>
      let core := (bitchatPollMessages sodium before.core bufLen).2
      if core.inboxTail = before.core.inboxTail then { before with core := core }
      else
        { before with
          core := core
          taken := before.taken ++ [before.oldest]
          oldest := before.oldest + 1 }
  | .shutdown =>
      { before with
        core := bitchatShutdown before.core
        oldest := if before.core.initialized then before.arrived.length else before.oldest }

/-- Any such calls on a core that the public functions have brought about.
The router calls `on_message_received`, from a tick of a core that is up. -/
def inboxSystem : System InboxRun InboxCall where
  initial run := Reachable (ffiSystem sodium) run.core ∧ Queued run.core run.arrived ∧
    run.taken = [] ∧ run.oldest = 0
  step before call after := after = call.run sodium before ∧
    ∀ msg, call = .received msg → before.core.initialized = true

structure Tracked (run : InboxRun) : Prop where
  queued : Queued run.core run.pending
  down : run.core.initialized = false → run.pending = []
  oldest : run.oldest ≤ run.arrived.length
  ordered : run.taken.Pairwise (· < ·)
  examined : ∀ place ∈ run.taken, place < run.oldest

theorem next_index_moves (index : Nat) : (index + 1) % inboxSlots ≠ index := by
  simp only [inboxSlots]
  omega

theorem tracked_received {run : InboxRun} (msg : BcMessage) (tracked : Tracked run)
    (up : run.core.initialized = true) : Tracked ((InboxCall.received msg).run sodium run) := by
  have queued := tracked.queued
  by_cases full : run.pending.length = 255
  · have same : (InboxCall.received msg).run sodium run = run := by
      simp [InboxCall.run, onMessageReceived, inbox_append_full allocates msg queued full]
    rw [same]
    exact tracked
  · have bound : run.pending.length < inboxSlots := queued.room
    have room : run.pending.length < 255 := by
      simp only [inboxSlots] at bound
      omega
    have free := next_head_free queued room
    have moved : (inboxAppend allocates run.core msg).inboxHead ≠ run.core.inboxHead := by
      simpa [inboxAppend, bcMessageCreate, allocates, free] using
        next_index_moves run.core.inboxHead
    have after : (InboxCall.received msg).run sodium run =
        { run with
          core := inboxAppend allocates run.core msg
          arrived := run.arrived ++ [msg] } := by
      simp [InboxCall.run, onMessageReceived, moved]
    have longer : (run.arrived ++ [msg]).drop run.oldest = run.pending ++ [msg] :=
      List.drop_append_of_le_length tracked.oldest
    rw [after]
    refine ⟨?_, ?_, ?_, tracked.ordered, tracked.examined⟩
    · show Queued _ ((run.arrived ++ [msg]).drop run.oldest)
      rw [longer]
      exact inbox_append_room queued room
    · intro down
      have still := (inbox_append_core allocates run.core msg).initialized
      rw [show (inboxAppend allocates run.core msg).initialized = false from down, up] at still
      cases still
    · rw [List.length_append]
      exact Nat.le_add_right_of_le tracked.oldest

theorem tracked_poll {run : InboxRun} (bufLen : Nat) (tracked : Tracked run) :
    Tracked ((InboxCall.poll bufLen).run sodium run) := by
  have queued := tracked.queued
  have idle : (bitchatPollMessages sodium run.core bufLen).2 = run.core →
      Tracked ((InboxCall.poll bufLen).run sodium run) := by
    intro same
    have unchanged : (InboxCall.poll bufLen).run sodium run = run := by
      simp [InboxCall.run, same]
    rw [unchanged]
    exact tracked
  cases status : run.core.initialized with
  | false => exact idle (by simp [bitchatPollMessages, status])
  | true =>
      cases content : run.pending with
      | nil =>
          rw [content] at queued
          exact idle (by rw [poll_empty sodium bufLen status queued])
      | cons msg rest =>
          rw [content] at queued
          obtain ⟨-, shorter, core⟩ := poll_queued sodium bufLen status queued
          have apart : run.core.inboxTail ≠ run.core.inboxHead := by
            intro meet
            cases (RingBuffer.Represents.empty_iff queued).mp meet
          have moved : (bitchatPollMessages sodium run.core bufLen).2.inboxTail ≠
              run.core.inboxTail := by
            simpa [bitchatPollMessages, status, apart] using next_index_moves run.core.inboxTail
          have after : (InboxCall.poll bufLen).run sodium run =
              { run with
                core := (bitchatPollMessages sodium run.core bufLen).2
                taken := run.taken ++ [run.oldest]
                oldest := run.oldest + 1 } := by
            simp [InboxCall.run, moved]
          have left : run.arrived.drop (run.oldest + 1) = rest := by
            rw [← List.tail_drop]
            exact congrArg List.tail content
          have place : run.oldest < run.arrived.length := by
            have nonempty := congrArg List.length content
            rw [InboxRun.pending, List.length_drop, List.length_cons] at nonempty
            omega
          rw [after]
          refine ⟨?_, ?_, place, ?_, ?_⟩
          · show Queued _ (run.arrived.drop (run.oldest + 1))
            rw [left]
            exact shorter
          · intro down
            have still := core.initialized
            rw [show (bitchatPollMessages sodium run.core bufLen).2.initialized = false from down,
              status] at still
            cases still
          · rw [List.pairwise_append]
            refine ⟨tracked.ordered, List.pairwise_singleton _ _, ?_⟩
            intro earlier member last isLast
            rw [List.mem_singleton.mp isLast]
            exact tracked.examined earlier member
          · intro earlier member
            rcases List.mem_append.mp member with before | last
            · exact Nat.lt_succ_of_lt (tracked.examined earlier before)
            · rw [List.mem_singleton.mp last]
              exact Nat.lt_succ_self _

theorem tracked_shutdown {run : InboxRun} (tracked : Tracked run) :
    Tracked (InboxCall.shutdown.run sodium run) := by
  cases status : run.core.initialized with
  | false =>
      have unchanged : InboxCall.shutdown.run sodium run = run := by
        simp [InboxCall.run, bitchatShutdown, status]
      rw [unchanged]
      exact tracked
  | true =>
      have empty : (InboxCall.shutdown.run sodium run).pending = [] := by
        simp [InboxCall.run, InboxRun.pending, status]
      have oldest : (InboxCall.shutdown.run sodium run).oldest = run.arrived.length := by
        simp [InboxCall.run, status]
      refine ⟨?_, fun _ => empty, Nat.le_of_eq oldest, tracked.ordered, ?_⟩
      · rw [empty]
        simp only [Queued, InboxCall.run, bitchatShutdown, status, Bool.true_eq_false, if_false]
        exact RingBuffer.represents_nil _ (by decide)
      · intro place member
        rw [oldest]
        exact Nat.lt_of_lt_of_le (tracked.examined place member) tracked.oldest

theorem tracked_of_reachable {run : InboxRun} (reached : Reachable (inboxSystem sodium) run) :
    Tracked run := by
  apply Reachable.invariant Tracked _ _ reached
  · rintro start ⟨core, queued, untouched, first⟩
    have pending : start.pending = start.arrived := by simp [InboxRun.pending, first]
    refine ⟨by rw [pending]; exact queued, ?_, by omega, by simp [untouched], by simp [untouched]⟩
    intro down
    rw [pending]
    have meet := (grounded_of_reachable sodium core).inbox down
    exact (RingBuffer.Represents.empty_iff queued).mp meet.symm
  · rintro before call _ tracked ⟨rfl, up⟩
    cases call with
    | received msg => exact tracked_received sodium msg tracked (up msg rfl)
    | poll bufLen => exact tracked_poll sodium bufLen tracked
    | shutdown => exact tracked_shutdown sodium tracked

/-- The inbox is a queue of at most 255 messages: arrivals join its end
unless it is full, a poll is about its front and takes it away, a shutdown
empties it, and the polls go through the arrivals in order. -/
structure BoundedFifo (run : InboxRun) : Prop where
  queued : Queued run.core run.pending
  bounds : run.pending.length ≤ 255 ∧ run.core.inboxHead < 256 ∧ run.core.inboxTail < 256
  receivedFull : ∀ msg, run.pending.length = 255 →
    (onMessageReceived sodium allocates run.core msg).1 = run.core
  receivedRoom : ∀ msg, run.pending.length ≠ 255 →
    Queued (onMessageReceived sodium allocates run.core msg).1 (run.pending ++ [msg])
  polled : ∀ bufLen msg rest, run.core.initialized = true → run.pending = msg :: rest →
    (bitchatPollMessages sodium run.core bufLen).1 =
        pollSlot sodium run.core.identity (some msg) bufLen ∧
      Queued (bitchatPollMessages sodium run.core bufLen).2 rest
  shutdown : Queued (bitchatShutdown run.core) []
  examined : run.taken.Pairwise (· < ·) ∧ ∀ place ∈ run.taken, place < run.oldest

/-- Every run of the inbox is one of a bounded queue. -/
theorem inbox_bounded_fifo {run : InboxRun} (reached : Reachable (inboxSystem sodium) run) :
    BoundedFifo sodium run := by
  have tracked := tracked_of_reachable sodium reached
  have queued := tracked.queued
  have room : run.pending.length < inboxSlots := queued.room
  have count : run.pending.length ≤ 255 := Nat.le_of_lt_succ room
  have head := RingBuffer.Represents.head_bound queued
  refine ⟨queued, ⟨count, head, queued.tailBound⟩, ?_, ?_, ?_, ?_, tracked.ordered,
    tracked.examined⟩
  · intro msg full
    exact inbox_append_full allocates msg queued full
  · intro msg notFull
    exact inbox_append_room queued (by omega)
  · intro bufLen msg rest up content
    rw [content] at queued
    obtain ⟨result, shorter, -⟩ := poll_queued sodium bufLen up queued
    exact ⟨result, shorter⟩
  · have emptied := (tracked_shutdown sodium tracked).queued
    cases status : run.core.initialized with
    | false =>
        rw [tracked.down status] at queued
        simpa [bitchatShutdown, status] using queued
    | true =>
        have empty : (InboxCall.shutdown.run sodium run).pending = [] := by
          simp [InboxCall.run, InboxRun.pending, status]
        rw [empty] at emptied
        exact emptied

end Queue

theorem loaded_node_queued (tag : UInt8) : Queued (loadedNode tag) [] := by
  rw [loaded_node_eq]
  exact RingBuffer.represents_nil _ (by decide)

def numberedMessage (n : UInt64) : BcMessage := { agedMessage with timestamp := n }

def polledInbox : InboxRun :=
  [InboxCall.received (numberedMessage 1), .received (numberedMessage 2),
    .received (numberedMessage 3), .poll 4096, .received (numberedMessage 4)].foldl
    (InboxCall.run plainSodium) ⟨loadedNode 1, [], [], 0⟩

theorem polled_inbox_bounded_fifo :
    polledInbox.taken = [0] ∧
      polledInbox.pending.map BcMessage.timestamp = [2, 3, 4] ∧
      BoundedFifo plainSodium polledInbox := by
  refine ⟨by decide +kernel, by decide +kernel, ?_⟩
  apply inbox_bounded_fifo
  have start : Reachable (inboxSystem plainSodium) ⟨loadedNode 1, [], [], 0⟩ :=
    .start ⟨loaded_node_reachable 1, loaded_node_queued 1, rfl, rfl⟩
  have first := Reachable.next (.received (numberedMessage 1)) start
    ⟨rfl, fun _ _ => by decide +kernel⟩
  have second := Reachable.next (.received (numberedMessage 2)) first
    ⟨rfl, fun _ _ => by decide +kernel⟩
  have third := Reachable.next (.received (numberedMessage 3)) second
    ⟨rfl, fun _ _ => by decide +kernel⟩
  have polled := Reachable.next (.poll 4096) third ⟨rfl, fun _ wrong => by cases wrong⟩
  exact .next (.received (numberedMessage 4)) polled ⟨rfl, fun _ _ => by decide +kernel⟩

/-! ### Whom the queued messages are for -/

section Receivers

variable (sodium : Sodium)

theorem receive_mine {node : Node PendingMessages} {env : CallEnv} {data : List UInt8}
    {msg : BcMessage} (delivered : Event.deliver msg ∈ (bcRouterReceive node env data).events) :
    msg.receiverPubkey = node.router.localPubkey := by
  obtain ⟨parsed, -, -, event⟩ := receive_event node env delivered
  obtain ⟨-, hopped, mine, -⟩ := receive_new_delivers node env event
  rw [hopped]
  exact mine

theorem receive_loop_mine {msg : BcMessage} (arrivals : List Arrival) :
    ∀ node : Node PendingMessages, Event.deliver msg ∈ (receiveLoop node arrivals).2 →
      msg.receiverPubkey = node.router.localPubkey := by
  induction arrivals with
  | nil => exact fun _ delivered => nomatch delivered
  | cons arrival rest ih =>
      intro node delivered
      rw [receiveLoop] at delivered
      split_ifs at delivered with received
      · rcases List.mem_append.mp delivered with here | later
        · exact receive_mine here
        · rw [ih _ later]
          exact (receive_fixture node arrival.env arrival.received).localPubkey
      · cases delivered

theorem tick_mine {node : Node PendingMessages} {env : TickEnv} {msg : BcMessage}
    (delivered : Event.deliver msg ∈ (bcRouterTick node env).2) :
    msg.receiverPubkey = node.router.localPubkey := by
  rcases List.mem_append.mp delivered with polled | rebroadcast
  · unfold tickPoll at polled
    split_ifs at polled
    · rw [receive_loop_mine _ _ polled]
      exact (evict_fixture node env.evictNow).localPubkey
    · cases polled
  · obtain ⟨_, _, _, wrong⟩ := rebroadcast_events _ _ _ rebroadcast
    cases wrong

def QueuedForIdentity (state : GState) : Prop :=
  ∀ items, Queued state items → ∀ msg ∈ items, msg.receiverPubkey = state.identity.pubkey

def KeepsReceiver (state : GState) : FfiCall → Prop
  | .generateIdentity keypair _ => state.initialized = true → ∀ id, keypair = some id →
      id.pubkey = state.identity.pubkey ∨ state.inboxHead = state.inboxTail
  | .loadIdentity identityData _ => state.initialized = true → ∀ id,
      bcIdentityDeserialize identityData = some id →
      id.pubkey = state.identity.pubkey ∨ state.inboxHead = state.inboxTail
  | _ => True

theorem queued_for_identity {state : GState} {items : List BcMessage} (queued : Queued state items)
    (mine : ∀ msg ∈ items, msg.receiverPubkey = state.identity.pubkey) :
    QueuedForIdentity state := by
  intro others again msg member
  rw [← queued.unique again] at member
  exact mine msg member

theorem queued_for_installed {state : GState} {id : BcIdentity} (env : SetupEnv)
    (mine : QueuedForIdentity state)
    (keeps : id.pubkey = state.identity.pubkey ∨ state.inboxHead = state.inboxTail) :
    QueuedForIdentity (recreate { state with identity := id } env).2 := by
  intro items queued msg member
  have recreated := recreate_recreated { state with identity := id } env
  rw [Queued, recreated.inbox, recreated.inboxHead, recreated.inboxTail] at queued
  rw [recreated.identity]
  rcases keeps with same | empty
  · exact (mine items queued msg member).trans same.symm
  · rw [queued.empty_iff.mp empty.symm] at member
    cases member

theorem queued_for_tick {state : GState} {router : BcRouter PendingMessages} (env : FfiTickEnv)
    (wired : Wired state) (present : state.router = some router) (mine : QueuedForIdentity state) :
    QueuedForIdentity (afterTick sodium state router env) := by
  obtain ⟨-, localKey, -⟩ := wired.ready router present
  obtain ⟨items, queued⟩ := wired.inbox
  obtain ⟨more, extended, delivered⟩ := after_tick_queued sodium router env queued
  apply queued_for_identity extended
  intro msg member
  rw [(after_tick_core sodium state router env).identity]
  rcases List.mem_append.mp member with old | new
  · exact mine items queued msg old
  · exact (tick_mine (delivered msg new)).trans localKey

theorem queued_for_effect {state after : GState} {call : FfiCall} (wired : Wired state)
    (keeps : KeepsReceiver state call) (mine : QueuedForIdentity state)
    (effect : Effect sodium state call after) : QueuedForIdentity after := by
  cases effect with
  | generated id env up => exact queued_for_installed env mine (keeps up id rfl)
  | loaded identityData id env up parsed =>
      exact queued_for_installed env mine (keeps up id parsed)
  | polled bufLen up content =>
      obtain ⟨items, queued⟩ := wired.inbox
      cases items with
      | nil => exact absurd ((RingBuffer.Represents.empty_iff queued).mpr rfl) content
      | cons msg rest =>
          have shorter : Queued
              { state with inboxTail := (state.inboxTail + 1) % inboxSlots } rest :=
            (RingBuffer.Represents.pop queued).2
          apply queued_for_identity shorter
          intro other member
          exact mine _ queued other (List.mem_cons_of_mem _ member)
  | ticked env router up present => exact queued_for_tick sodium env wired present mine
  | stopped up =>
      exact queued_for_identity (RingBuffer.represents_nil _ (by decide))
        fun _ none => nomatch none
  | _ => exact mine

/-- In every run that changes the key only while the inbox is empty, all
queued messages are for the identity that will decrypt them. -/
theorem queued_for_identity_of_kept {state : GState}
    (reached : Reachable (guarded (ffiSystem sodium) KeepsReceiver) state) :
    QueuedForIdentity state := by
  have both : Wired state ∧ QueuedForIdentity state := by
    apply Reachable.invariant (fun s => Wired s ∧ QueuedForIdentity s) _ _ reached
    · rintro _ rfl
      refine ⟨wired_of_reachable sodium (.start rfl), ?_⟩
      exact queued_for_identity (RingBuffer.represents_nil _ (by decide)) fun _ none => nomatch none
    · rintro before call _ ⟨wired, mine⟩ ⟨rfl, keeps⟩
      have effect := run_effect sodium before call
      exact ⟨wired_effect sodium wired effect, queued_for_effect sodium wired keeps mine effect⟩
  exact both.2

end Receivers

def arrivalTick : FfiCall :=
  .tick ⟨{ quietTick 100 with arrivals := [⟨.ok, wireBytes agedMessage, quietEnv 100⟩] },
    fun _ => allocates⟩

def notifiedNode : GState := arrivalTick.run plainSodium (loadedNode 2)

end BitChat.Inbox
