import BitChat.Polling

/-!
# Push and poll

A message for the node is decrypted twice: by `on_message_received` on the
message itself, for the user callback, and by the poll that later takes its
copy out of the inbox. A run of the core keeps both on record, an arrival
and a poll belonging together by their place in the order of arrival. Under
one identity, and with room in the buffer of the poll, the two agree on
every payload.
-/

namespace BitChat.PushAndPoll

open BitChat.WireMessage BitChat.CryptoManager BitChat.PendingStorage BitChat.MeshRouter
open BitChat.FfiCore BitChat.FfiRuns BitChat.Inbox BitChat.EndToEnd BitChat.Polling
open TransitionSystem

set_option autoImplicit false

/-- A message that `on_message_received` has copied into the inbox: under
which identity, whether a user callback was registered, and the invocations
of that callback. -/
structure Reception where
  msg : BcMessage
  identity : BcIdentity
  callback : Bool
  pushes : List Push
deriving DecidableEq

structure TakenPoll where
  place : Nat
  bufLen : Nat
  identity : BcIdentity
  slot : Option BcMessage
  result : PollResult
deriving DecidableEq

structure PairedRun where
  core : GState
  receptions : List Reception
  polls : List TakenPoll
  oldest : Nat

section Record

variable (sodium : Sodium)

/-- The receptions among the events of a tick: a moved head is a copy. -/
def receptionsOf (alloc : Nat → Nat → Bool) : GState → Nat → List Event → List Reception
  | _, _, [] => []
  | state, k, .deliver msg :: rest =>
      let received := onMessageReceived sodium (alloc k) state msg
      (if received.1.inboxHead = state.inboxHead then []
        else [⟨msg, state.identity, state.userCallback, received.2⟩]) ++
        receptionsOf alloc received.1 (k + 1) rest
  | state, k, _ :: rest => receptionsOf alloc state k rest

def callReceptions (state : GState) : FfiCall → List Reception
  | .tick env =>
      if state.initialized = false then []
      else
        match state.router with
        | none => []
        | some router =>
            let ticked := bcRouterTick ⟨router, state.store⟩ env.tick
            receptionsOf sodium env.alloc (withNode state ticked.1) 0 ticked.2
  | _ => []

def Takes (state : GState) : Prop := state.initialized = true ∧ state.inboxTail ≠ state.inboxHead

instance (state : GState) : Decidable (Takes state) := inferInstanceAs (Decidable (_ ∧ _))

def callPolls (run : PairedRun) : FfiCall → List TakenPoll
  | .pollMessages bufLen =>
      if Takes run.core then
        [{ place := run.oldest
           bufLen := bufLen
           identity := run.core.identity
           slot := run.core.inbox run.core.inboxTail
           result := (bitchatPollMessages sodium run.core bufLen).1 }]
      else []
  | _ => []

def nextOldest (run : PairedRun) : FfiCall → Nat
  | .pollMessages _ => if Takes run.core then run.oldest + 1 else run.oldest
  | .shutdown => if run.core.initialized then run.receptions.length else run.oldest
  | _ => run.oldest

def PairedRun.after (run : PairedRun) (call : FfiCall) : PairedRun where
  core := call.run sodium run.core
  receptions := run.receptions ++ callReceptions sodium run.core call
  polls := run.polls ++ callPolls sodium run call
  oldest := nextOldest run call

def FfiCall.AllocatesPlaintexts : FfiCall → Prop
  | .tick env => ∀ k, env.alloc k 2 = true
  | _ => True

def pairedSystem : System PairedRun FfiCall where
  initial run := run = ⟨zeroedState, [], [], 0⟩
  step before call after :=
    after = before.after sodium call ∧ FfiCall.AllocatesPlaintexts call

def pushesFor (identity : BcIdentity) (msg : BcMessage) : List Push :=
  if msg.payload.length < bcNonceSize + bcTagSize then []
  else
    match openMessage sodium identity msg with
    | .error _ => []
    | .ok plaintext => [⟨msg.senderPubkey, plaintext⟩]

/-! ### Receptions -/

theorem push_to_user_eq {alloc : Nat → Bool} {state : GState} {msg : BcMessage}
    (memory : alloc 2 = true) (registered : state.userCallback = true) :
    pushToUser sodium alloc state msg = pushesFor sodium state.identity msg := by
  unfold pushToUser pushesFor openMessage
  rw [if_neg (by simp [registered])]
  by_cases short : msg.payload.length < bcNonceSize + bcTagSize
  · rw [if_pos short, if_pos short]
  · rw [if_neg short, if_neg short]
    cases bcCryptoDeriveShared sodium state.identity.secretKey msg.senderPubkey with
    | error rc => rfl
    | ok key =>
        cases opened : openWith sodium key msg.payload with
        | error rc => simp [memory, opened]
        | ok plaintext => simp [memory, opened]

theorem inbox_append_recorded {state : GState} {items : List BcMessage} (alloc : Nat → Bool)
    (msg : BcMessage) (queued : Queued state items) :
    Queued (inboxAppend alloc state msg)
      (items ++ if (inboxAppend alloc state msg).inboxHead = state.inboxHead then [] else [msg]) := by
  unfold inboxAppend
  by_cases full : (state.inboxHead + 1) % inboxSlots = state.inboxTail
  · simpa [full] using queued
  · have copied := RingBuffer.Represents.push queued msg full
    have moves := next_index_moves state.inboxHead
    simp only [ne_eq, full, not_false_eq_true, if_true]
    unfold bcMessageCreate
    split_ifs <;> simp_all [Queued]

theorem receptions_queued (alloc : Nat → Nat → Bool) (events : List Event) :
    ∀ (state : GState) (k : Nat) (items : List BcMessage), Queued state items →
      Queued (deliverAll sodium alloc state k events).1
        (items ++ (receptionsOf sodium alloc state k events).map Reception.msg) := by
  induction events with
  | nil =>
      intro state k items queued
      rw [receptionsOf, List.map_nil, List.append_nil]
      exact queued
  | cons event rest ih =>
      intro state k items queued
      cases event with
      | deliver msg =>
          have later := ih _ (k + 1) _ (inbox_append_recorded (alloc k) msg queued)
          have records : (receptionsOf sodium alloc state k (.deliver msg :: rest)).map
              Reception.msg =
                (if (inboxAppend (alloc k) state msg).inboxHead = state.inboxHead then []
                  else [msg]) ++
                (receptionsOf sodium alloc (inboxAppend (alloc k) state msg) (k + 1) rest).map
                  Reception.msg := by
            rw [receptionsOf, List.map_append]
            by_cases still : (inboxAppend (alloc k) state msg).inboxHead = state.inboxHead
            · simp only [onMessageReceived, still, if_true, List.map_nil]
            · simp only [onMessageReceived, still, if_false, List.map_cons, List.map_nil]
          rw [records, ← List.append_assoc]
          exact later
      | store msg rc => exact ih state k items queued
      | send peer data rc => exact ih state k items queued

theorem receptions_pushed {alloc : Nat → Nat → Bool} (memory : ∀ k, alloc k 2 = true)
    (events : List Event) :
    ∀ (state : GState) (k : Nat), ∀ reception ∈ receptionsOf sodium alloc state k events,
      reception.callback = true →
        reception.pushes = pushesFor sodium reception.identity reception.msg := by
  induction events with
  | nil => exact fun _ _ _ none => nomatch none
  | cons event rest ih =>
      intro state k reception member registered
      cases event with
      | deliver msg =>
          rw [receptionsOf] at member
          rcases List.mem_append.mp member with here | later
          · split_ifs at here
            · cases here
            · rw [List.mem_singleton.mp here] at registered ⊢
              exact push_to_user_eq sodium (memory k) registered
          · exact ih _ _ reception later registered
      | store msg rc => exact ih _ _ reception member registered
      | send peer data rc => exact ih _ _ reception member registered

/-! ### Runs -/

/-- What the calls keep: the inbox holds the receptions from `oldest` on,
every reception has its pushes, and every poll on record took the message of
its place. -/
structure Paired (run : PairedRun) : Prop where
  oldest : run.oldest ≤ run.receptions.length
  queued : Queued run.core ((run.receptions.drop run.oldest).map Reception.msg)
  pushed : ∀ reception ∈ run.receptions, reception.callback = true →
    reception.pushes = pushesFor sodium reception.identity reception.msg
  polled : ∀ poll ∈ run.polls, ∃ reception, run.receptions[poll.place]? = some reception ∧
    poll.slot = some reception.msg ∧
    poll.result = pollSlot sodium poll.identity poll.slot poll.bufLen

theorem Paired.extend {run after : PairedRun} {more : List Reception} (paired : Paired sodium run)
    (receptions : after.receptions = run.receptions ++ more) (polls : after.polls = run.polls)
    (oldest : after.oldest = run.oldest)
    (queued : Queued after.core
      ((run.receptions.drop run.oldest).map Reception.msg ++ more.map Reception.msg))
    (pushed : ∀ reception ∈ more, reception.callback = true →
      reception.pushes = pushesFor sodium reception.identity reception.msg) :
    Paired sodium after := by
  have inside := paired.oldest
  refine ⟨?_, ?_, ?_, ?_⟩
  · rw [receptions, oldest, List.length_append]
    omega
  · rw [receptions, oldest, List.drop_append_of_le_length inside, List.map_append]
    exact queued
  · intro reception member
    rw [receptions] at member
    rcases List.mem_append.mp member with old | new
    · exact paired.pushed reception old
    · exact pushed reception new
  · intro poll member
    rw [polls] at member
    obtain ⟨reception, found, rest⟩ := paired.polled poll member
    refine ⟨reception, ?_, rest⟩
    have bound := (List.getElem?_eq_some_iff.mp found).1
    rw [receptions, List.getElem?_append_left bound]
    exact found

theorem Paired.tick {run : PairedRun} {env : FfiTickEnv} {router : BcRouter PendingMessages}
    (paired : Paired sodium run) (up : run.core.initialized = true)
    (present : run.core.router = some router) (memory : ∀ k, env.alloc k 2 = true) :
    Paired sodium (run.after sodium (.tick env)) := by
  let ticked := bcRouterTick ⟨router, run.core.store⟩ env.tick
  have receptions : callReceptions sodium run.core (.tick env) =
      receptionsOf sodium env.alloc (withNode run.core ticked.1) 0 ticked.2 := by
    simp only [callReceptions, up, Bool.true_eq_false, if_false, present, ticked]
  have core : (FfiCall.tick env).run sodium run.core =
      (deliverAll sodium env.alloc (withNode run.core ticked.1) 0 ticked.2).1 := by
    simp only [FfiCall.run, bitchatTick, up, Bool.true_eq_false, if_false, present, ticked, withNode]
  have queued := receptions_queued sodium env.alloc ticked.2 (withNode run.core ticked.1) 0 _
    paired.queued
  have grown : (run.after sodium (.tick env)).receptions =
      run.receptions ++ callReceptions sodium run.core (.tick env) := rfl
  apply paired.extend sodium grown (List.append_nil _) rfl
  · rw [receptions, PairedRun.after, core]
    exact queued
  · rw [receptions]
    exact receptions_pushed sodium memory ticked.2 _ 0

theorem Paired.poll {run : PairedRun} (bufLen : Nat) (paired : Paired sodium run)
    (takes : Takes run.core) : Paired sodium (run.after sodium (.pollMessages bufLen)) := by
  have queued := paired.queued
  cases content : run.receptions.drop run.oldest with
  | nil =>
      rw [content] at queued
      exact absurd ((RingBuffer.Represents.empty_iff queued).mpr rfl) takes.2
  | cons reception rest =>
      rw [content, List.map_cons] at queued
      obtain ⟨result, shorter, -⟩ := poll_queued sodium bufLen takes.1 queued
      have front : run.core.inbox run.core.inboxTail = some reception.msg :=
        (RingBuffer.Represents.pop queued).1
      have found : run.receptions[run.oldest]? = some reception := by
        rw [← List.head?_drop, content]
        rfl
      have inside : run.oldest < run.receptions.length := (List.getElem?_eq_some_iff.mp found).1
      have left : run.receptions.drop (run.oldest + 1) = rest := by
        rw [← List.tail_drop, content]
        rfl
      have receptions : (run.after sodium (.pollMessages bufLen)).receptions = run.receptions :=
        List.append_nil _
      have oldest : (run.after sodium (.pollMessages bufLen)).oldest = run.oldest + 1 :=
        if_pos takes
      have polls : (run.after sodium (.pollMessages bufLen)).polls = run.polls ++
          [⟨run.oldest, bufLen, run.core.identity, run.core.inbox run.core.inboxTail,
            (bitchatPollMessages sodium run.core bufLen).1⟩] :=
        congrArg (run.polls ++ ·) (if_pos takes)
      refine ⟨?_, ?_, ?_, ?_⟩
      · rw [receptions, oldest]
        exact inside
      · rw [receptions, oldest, left]
        exact shorter
      · rw [receptions]
        exact paired.pushed
      · intro poll member
        rw [receptions]
        rw [polls] at member
        rcases List.mem_append.mp member with old | new
        · exact paired.polled poll old
        · rw [List.mem_singleton.mp new]
          exact ⟨reception, found, front, by rw [result, front]⟩

theorem Paired.quiet {run : PairedRun} {call : FfiCall} (paired : Paired sodium run)
    (receptions : callReceptions sodium run.core call = [])
    (polls : callPolls sodium run call = []) (oldest : nextOldest run call = run.oldest)
    (queued : Queued (call.run sodium run.core)
      ((run.receptions.drop run.oldest).map Reception.msg)) :
    Paired sodium (run.after sodium call) := by
  have none : (run.after sodium call).receptions = run.receptions ++ [] :=
    congrArg (run.receptions ++ ·) receptions
  have same : (run.after sodium call).polls = run.polls := by
    rw [PairedRun.after, polls, List.append_nil]
  apply paired.extend sodium none same oldest
  · rw [List.map_nil, List.append_nil]
    exact queued
  · exact fun _ member => nomatch member

theorem Paired.shutdown {run : PairedRun} (paired : Paired sodium run)
    (up : run.core.initialized = true) : Paired sodium (run.after sodium .shutdown) := by
  have receptions : (run.after sodium .shutdown).receptions = run.receptions := List.append_nil _
  have polls : (run.after sodium .shutdown).polls = run.polls := List.append_nil _
  have oldest : (run.after sodium .shutdown).oldest = run.receptions.length := if_pos up
  refine ⟨?_, ?_, ?_, ?_⟩
  · rw [receptions, oldest]
  · rw [receptions, oldest, List.drop_length]
    simp only [Queued, PairedRun.after, FfiCall.run, bitchatShutdown, up, Bool.true_eq_false,
      if_false]
    exact RingBuffer.represents_nil _ (by decide)
  · rw [receptions]
    exact paired.pushed
  · rw [receptions, polls]
    exact paired.polled

theorem effect_inbox {state after : GState} {call : FfiCall} {items : List BcMessage}
    (effect : Effect sodium state call after) (notTick : ∀ env, call ≠ .tick env)
    (notPoll : ∀ bufLen, call ≠ .pollMessages bufLen) (notStop : call ≠ .shutdown)
    (queued : Queued state items) : Queued after items := by
  have installed : ∀ id env, Queued (recreate { state with identity := id } env).2 items := by
    intro id env
    have recreated := recreate_recreated { state with identity := id } env
    rw [Queued, recreated.inbox, recreated.inboxHead, recreated.inboxTail]
    exact queued
  cases effect with
  | generated id env up => exact installed id env
  | loaded identityData id env up parsed => exact installed id env
  | polled bufLen up content => exact absurd rfl (notPoll bufLen)
  | ticked env router up present => exact absurd rfl (notTick env)
  | stopped up => exact absurd rfl notStop
  | _ => exact queued

theorem Paired.step {run : PairedRun} {call : FfiCall} (paired : Paired sodium run)
    (memory : FfiCall.AllocatesPlaintexts call) : Paired sodium (run.after sodium call) := by
  have effect := run_effect sodium run.core call
  have queued := paired.queued
  cases call with
  | tick env =>
      cases up : run.core.initialized with
      | false =>
          apply paired.quiet sodium _ rfl rfl
          · simpa [FfiCall.run, bitchatTick, up] using queued
          · simp [callReceptions, up]
      | true =>
          cases present : run.core.router with
          | none =>
              apply paired.quiet sodium _ rfl rfl
              · simpa [FfiCall.run, bitchatTick, up, present] using queued
              · simp [callReceptions, up, present]
          | some router => exact paired.tick sodium up present memory
  | pollMessages bufLen =>
      by_cases takes : Takes run.core
      · exact paired.poll sodium bufLen takes
      · have polls : callPolls sodium run (.pollMessages bufLen) = [] := if_neg takes
        apply paired.quiet sodium rfl polls (if_neg takes)
        have untouched : (bitchatPollMessages sodium run.core bufLen).2 = run.core := by
          unfold bitchatPollMessages
          split_ifs with down empty
          · rfl
          · rfl
          · exact absurd ⟨by simpa using down, empty⟩ takes
        rw [FfiCall.run, untouched]
        exact queued
  | shutdown =>
      cases up : run.core.initialized with
      | false =>
          apply paired.quiet sodium rfl rfl
          · simp [nextOldest, up]
          · simpa [FfiCall.run, bitchatShutdown, up] using queued
      | true => exact paired.shutdown sodium up
  | _ =>
      exact paired.quiet sodium rfl rfl rfl
        (effect_inbox sodium effect (by simp) (by simp) (by simp) queued)

theorem paired_of_reachable {run : PairedRun} (reached : Reachable (pairedSystem sodium) run) :
    Paired sodium run := by
  apply reached.invariant (Paired sodium)
  · rintro start rfl
    refine ⟨Nat.le_refl 0, RingBuffer.represents_nil _ (by decide), ?_, ?_⟩
    · exact fun _ none => nomatch none
    · exact fun _ none => nomatch none
  · rintro before call _ paired ⟨rfl, memory⟩
    exact paired.step sodium memory

/-! ### Agreement -/

/-- What libsodium documents of the length that a decryption writes. -/
def DropsTag : Prop :=
  ∀ key nonce ciphertext plaintext, sodium.aeadDecrypt key nonce ciphertext = some plaintext →
    ciphertext.length = plaintext.length + bcTagSize

/-- The callback was invoked exactly when the poll succeeds and names a
sender, at most once, and with the same sender, bytes and length. -/
structure Agrees (reception : Reception) (poll : TakenPoll) : Prop where
  invoked : reception.pushes ≠ [] ↔ poll.result.rc = .ok ∧ poll.result.sender ≠ none
  once : reception.pushes.length ≤ 1
  same : ∀ push ∈ reception.pushes, poll.result.sender = some push.sender ∧
    poll.result.buf = push.plaintext ∧ poll.result.msgLen = push.plaintext.length

/-- The two decryptions of one payload under one identity. -/
theorem pushes_and_slot_agree (length : DropsTag sodium) {reception : Reception}
    {poll : TakenPoll}
    (pushes : reception.pushes = pushesFor sodium poll.identity reception.msg)
    (result : poll.result = pollSlot sodium poll.identity (some reception.msg) poll.bufLen)
    (room : reception.msg.payload.length - bcNonceSize - bcTagSize ≤ poll.bufLen) :
    Agrees reception poll := by
  rcases poll_slot_cases sodium poll.identity reception.msg poll.bufLen with
    ⟨short, slot⟩ | ⟨framed, ⟨rc, failure, unopened, slot⟩ | ⟨small, -⟩ |
      ⟨plaintext, opened, -, slot⟩⟩
  · have none : reception.pushes = [] := by rw [pushes, pushesFor, if_pos short]
    rw [slot] at result
    constructor <;> simp [none, result]
  · have none : reception.pushes = [] := by
      rw [pushes, pushesFor, if_neg (Nat.not_lt.mpr framed), unopened]
    rw [slot] at result
    constructor <;> simp [none, result]
  · omega
  · have one : reception.pushes = [⟨reception.msg.senderPubkey, plaintext⟩] := by
      rw [pushes, pushesFor, if_neg (Nat.not_lt.mpr framed), opened]
    have size : reception.msg.payload.length - bcNonceSize - bcTagSize = plaintext.length := by
      obtain ⟨key, -, decrypted⟩ := open_message_ok opened
      have tagged := length _ _ _ _ (open_with_ok decrypted)
      rw [List.length_drop] at tagged
      omega
    rw [slot, size] at result
    constructor <;> simp [one, result]

/-- Every poll on record took the message of its place, and agrees with the
callback about it if there was one, the identity is the same and the buffer
holds the plaintext. -/
theorem push_and_poll_agree (length : DropsTag sodium) {run : PairedRun}
    (reached : Reachable (pairedSystem sodium) run) (poll : TakenPoll) (member : poll ∈ run.polls) :
    ∃ reception, run.receptions[poll.place]? = some reception ∧ poll.slot = some reception.msg ∧
      (reception.callback = true → poll.identity = reception.identity →
        reception.msg.payload.length - bcNonceSize - bcTagSize ≤ poll.bufLen →
        Agrees reception poll) := by
  have paired := paired_of_reachable sodium reached
  obtain ⟨reception, found, slot, result⟩ := paired.polled poll member
  refine ⟨reception, found, slot, ?_⟩
  intro registered identity room
  have pushes := paired.pushed reception (List.mem_of_getElem? found) registered
  rw [← identity] at pushes
  rw [slot] at result
  exact pushes_and_slot_agree sodium length pushes result room

end Record

theorem plain_sodium_drops_tag : DropsTag plainSodium := by
  intro key nonce ciphertext plaintext decrypted
  exact plain_sodium_laws.encrypt_length _ _ _ _ (plain_sodium_laws.decrypt_sound _ _ _ _ decrypted)

def pushedRun : PairedRun :=
  [.init ⟨true, true, some KeyedTable.empty, some ⟨true, true, true⟩⟩,
    .loadIdentity (bcIdentitySerialize (plainIdentity 2)) ⟨allocates, true⟩,
    .setOnMessageCallback true, letterTick, .pollMessages 2].foldl
    (PairedRun.after plainSodium) ⟨zeroedState, [], [], 0⟩

def letterReception : Reception where
  msg := { letter with ttl := 8 }
  identity := plainIdentity 2
  callback := true
  pushes := [⟨letter.senderPubkey, [104, 105]⟩]

def letterPoll : TakenPoll where
  place := 0
  bufLen := 2
  identity := plainIdentity 2
  slot := some { letter with ttl := 8 }
  result := ⟨.ok, 2, some letter.senderPubkey, [104, 105]⟩

theorem after_reachable {sodium : Sodium} {run : PairedRun}
    (reached : Reachable (pairedSystem sodium) run) (call : FfiCall)
    (memory : FfiCall.AllocatesPlaintexts call) :
    Reachable (pairedSystem sodium) (run.after sodium call) :=
  .next call reached ⟨rfl, memory⟩

theorem pushed_run_reachable : Reachable (pairedSystem plainSodium) pushedRun := by
  have zeroed : Reachable (pairedSystem plainSodium) ⟨zeroedState, [], [], 0⟩ := .start rfl
  have started := after_reachable zeroed
    (.init ⟨true, true, some KeyedTable.empty, some ⟨true, true, true⟩⟩) trivial
  have loaded := after_reachable started
    (.loadIdentity (bcIdentitySerialize (plainIdentity 2)) ⟨allocates, true⟩) trivial
  have registered := after_reachable loaded (.setOnMessageCallback true) trivial
  have notified := after_reachable registered letterTick fun _ => rfl
  exact after_reachable notified (.pollMessages 2) trivial

theorem letter_pushed_and_polled :
    pushedRun.receptions = [letterReception] ∧ pushedRun.polls = [letterPoll] ∧
      Agrees letterReception letterPoll := by
  have receptions : pushedRun.receptions = [letterReception] := by decide +kernel
  have polls : pushedRun.polls = [letterPoll] := by decide +kernel
  refine ⟨receptions, polls, ?_⟩
  have member : letterPoll ∈ pushedRun.polls := by
    rw [polls]
    exact List.mem_singleton_self _
  obtain ⟨reception, found, -, agrees⟩ :=
    push_and_poll_agree plainSodium plain_sodium_drops_tag pushed_run_reachable letterPoll member
  rw [receptions] at found
  cases found
  exact agrees rfl rfl (by decide)

end BitChat.PushAndPoll
