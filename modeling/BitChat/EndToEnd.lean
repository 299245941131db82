import BitChat.FfiRuns

/-!
# From a send to a poll

A plaintext passes through the encryption framing (24 bytes of nonce and 16
of tag), the wire header (93 bytes), the 4096-byte buffer in which another
node's tick receives datagrams, and that node's inbox. No layer checks the
size against the next one, and the length that survives is 3963 bytes.
-/

namespace BitChat.EndToEnd

open BitChat.WireMessage BitChat.DedupTable BitChat.CryptoManager BitChat.PendingStorage
open BitChat.MeshRouter BitChat.NodeDiscovery BitChat.FfiCore BitChat.FfiRuns

set_option autoImplicit false

section Sending

variable {sodium : Sodium}

theorem send_handed {state : GState} {env : SendEnv} {recipient : Pubkey}
    {plaintext : List UInt8} {peer : Pubkey} {datagram : List UInt8} {rc : Rc}
    (handed : Event.send peer datagram rc ∈
      (bitchatSendMessage sodium state env recipient plaintext).events) :
    ∃ key ciphertext, sodium.boxBeforenm recipient state.identity.secretKey = some key ∧
      sodium.aeadEncrypt key env.nonce plaintext = some ciphertext ∧
      datagram = wireBytes (sealedMessage state env recipient ciphertext) := by
  rcases send_cases sodium state env recipient plaintext with
    ⟨refused, same, -⟩ | ⟨router, key, ciphertext, -, -, derived, encrypted, same⟩
  · rw [same] at handed
    cases handed
  · rw [same] at handed
    refine ⟨key, ciphertext, derived, encrypted, ?_⟩
    rcases broadcast_events _ _ handed with ⟨_, _, sent⟩ | ⟨_, stored⟩
    · cases sent
      rfl
    · cases stored

theorem send_accepted {state : GState} {env : SendEnv} {recipient : Pubkey}
    {plaintext ciphertext : List UInt8} {router : BcRouter PendingMessages} {key : SharedKey}
    (initialized : state.initialized = true) (present : state.router = some router)
    (derived : sodium.boxBeforenm recipient state.identity.secretKey = some key)
    (encrypted : sodium.aeadEncrypt key env.nonce plaintext = some ciphertext)
    (memory : env.alloc = allocates) (buffer : env.call.alloc 0 = true) :
    (bitchatSendMessage sodium state env recipient plaintext).rc = .ok ∧
      ∀ event ∈ (forwardToPeers (router.mark env.call.now env.uuid) env.call.sendRc
          (wireBytes (sealedMessage state env recipient ciphertext))).2,
        event ∈ (bitchatSendMessage sodium state env recipient plaintext).events := by
  have sent : bitchatSendMessage sodium state env recipient plaintext =
      let broadcast := bcRouterBroadcast ⟨router, state.store⟩ env.call
        (sealedMessage state env recipient ciphertext)
      ⟨broadcast.rc,
        { state with router := some broadcast.node.router, store := broadcast.node.store },
        broadcast.events, []⟩ := by
    simp only [bitchatSendMessage, initialized, Bool.true_eq_false, if_false, present, sealFor,
      bcCryptoDeriveShared, derived, memory, allocates, bcCryptoEncrypt, encrypted, bcMessageCreate,
      and_false]
    rfl
  rcases broadcast_cases ⟨router, state.store⟩ env.call
    (sealedMessage state env recipient ciphertext) with ⟨none, -⟩ | ⟨-, broadcast⟩
  · rw [buffer] at none
    cases none
  · rw [sent, broadcast]
    exact ⟨rfl, fun event member => List.mem_append_left _ member⟩

end Sending

def bufferRoom : Nat := 4096 - bcMessageHeaderSize

theorem received_datagram (msg : BcMessage) :
    (wireBytes msg).take 4096 = headerBytes msg ++ msg.payload.take bufferRoom := by
  rw [wire_bytes_header, List.take_append, header_bytes_length,
    List.take_of_length_le (by rw [header_bytes_length]; decide)]
  rfl

theorem deserialize_received (msg : BcMessage) (beyond : Nat → UInt8)
    (fits : msg.payload.length ≤ bufferRoom) :
    bcMessageDeserialize allocates ⟨(wireBytes msg).take 4096, beyond⟩ = some msg := by
  have small : msg.payload.length < 2 ^ 32 := by
    simp only [bufferRoom, bcMessageHeaderSize] at fits
    omega
  have parsed := deserialize_wire allocates msg [] beyond small rfl rfl
  rw [received_datagram, List.take_of_length_le fits, ← wire_bytes_header]
  rwa [List.append_nil] at parsed

/-- A datagram that does not fit is rejected or parsed with another payload,
once the memory behind the buffer does not continue it. -/
theorem deserialize_truncated {msg parsed : BcMessage} {filler : UInt8}
    (long : bufferRoom < msg.payload.length)
    (differs : msg.payload[bufferRoom]? ≠ some filler)
    (accepted : bcMessageDeserialize allocates
      ⟨(wireBytes msg).take 4096, fun _ => filler⟩ = some parsed) :
    parsed = { msg with payload := parsed.payload } ∧
      (∀ k, k ≤ parsed.payload.length → k ≤ bufferRoom →
        parsed.payload.take k = msg.payload.take k) ∧
      parsed.payload ≠ msg.payload := by
  rw [received_datagram] at accepted
  obtain ⟨-, -, -, -, same⟩ := (deserialize_eq_some_iff _ _ _).mp accepted
  rw [message_at_header] at same
  let mem : Memory := ⟨headerBytes msg ++ msg.payload.take bufferRoom, fun _ => filler⟩
  let count := msg.payload.length % 2 ^ 32
  have payload : parsed.payload = mem.read bcMessageHeaderSize count := by rw [← same]
  have size : mem.data.length = bcMessageHeaderSize + bufferRoom := by
    simp only [mem, List.length_append, header_bytes_length, List.length_take]
    omega
  refine ⟨by rw [← same], ?_, ?_⟩
  · intro k inPayload inBuffer
    rw [payload, Memory.read_length] at inPayload
    rw [payload, Memory.read_take _ _ inPayload,
      Memory.read_inside _ _ _ (by rw [size]; exact Nat.add_le_add_left inBuffer _)]
    simp only [mem]
    rw [List.drop_left' (header_bytes_length msg), List.take_take, Nat.min_eq_left inBuffer]
  · intro equal
    have counted : bufferRoom < count := by
      have length := congrArg List.length (payload.symm.trans equal)
      rw [Memory.read_length] at length
      omega
    apply differs
    rw [← equal, payload, Memory.read_getElem? _ _ counted,
      Memory.byte_at_outside mem (Nat.le_of_eq size)]

section Polling

variable {sodium : Sodium}

theorem open_sealed (key : SharedKey) (nonce : Nonce) (ciphertext : List UInt8) :
    openWith sodium key (nonce.toList ++ ciphertext) =
      bcCryptoDecrypt sodium ciphertext key nonce := by
  have front : (⟨nonce.toList ++ ciphertext, fun _ => 0⟩ : Memory).fixed 0 24 = nonce :=
    fixed_field [] ciphertext nonce rfl rfl
  have back : (nonce.toList ++ ciphertext).drop bcNonceSize = ciphertext :=
    List.drop_left' nonce.toList_length
  rw [openWith, front, back]

theorem open_of_sealed (laws : SodiumLaws sodium) {key : SharedKey} {nonce : Nonce}
    {plaintext ciphertext payload : List UInt8}
    (encrypted : sodium.aeadEncrypt key nonce plaintext = some ciphertext)
    (framed : payload = nonce.toList ++ ciphertext) :
    ¬ payload.length < bcNonceSize + bcTagSize ∧ openWith sodium key payload = .ok plaintext := by
  have size := laws.encrypt_length key nonce plaintext ciphertext encrypted
  constructor
  · rw [framed, List.length_append, nonce.toList_length, size]
    simp only [bcNonceSize]
    omega
  · rw [framed, open_sealed, bcCryptoDecrypt, if_neg (by omega),
      laws.decrypt_encrypt key nonce plaintext ciphertext encrypted]

theorem open_with_ok {key : SharedKey} {payload plaintext : List UInt8}
    (opened : openWith sodium key payload = .ok plaintext) :
    sodium.aeadDecrypt key ((⟨payload, fun _ => 0⟩ : Memory).fixed 0 24)
      (payload.drop bcNonceSize) = some plaintext := by
  unfold openWith bcCryptoDecrypt at opened
  split_ifs at opened
  cases decrypted : sodium.aeadDecrypt key ((⟨payload, fun _ => 0⟩ : Memory).fixed 0 24)
      (payload.drop bcNonceSize) with
  | none => simp [decrypted] at opened
  | some result =>
      simp only [decrypted, Except.ok.injEq] at opened
      rw [opened]

theorem poll_slot_sealed (laws : SodiumLaws sodium) {identity : BcIdentity} {msg : BcMessage}
    {key : SharedKey} {nonce : Nonce} {plaintext ciphertext : List UInt8} {bufLen : Nat}
    (derived : sodium.boxBeforenm msg.senderPubkey identity.secretKey = some key)
    (encrypted : sodium.aeadEncrypt key nonce plaintext = some ciphertext)
    (payload : msg.payload = nonce.toList ++ ciphertext) (room : plaintext.length ≤ bufLen) :
    pollSlot sodium identity (some msg) bufLen =
      ⟨.ok, plaintext.length, some msg.senderPubkey, plaintext⟩ := by
  have size := laws.encrypt_length key nonce plaintext ciphertext encrypted
  have decrypted := laws.decrypt_encrypt key nonce plaintext ciphertext encrypted
  have total : msg.payload.length = bcNonceSize + (plaintext.length + bcTagSize) := by
    rw [payload, List.length_append, nonce.toList_length, size]
    rfl
  have framed : ¬ msg.payload.length < bcNonceSize + bcTagSize := by omega
  have length : msg.payload.length - bcNonceSize - bcTagSize = plaintext.length := by omega
  have opened : openWith sodium key msg.payload = .ok plaintext := by
    rw [payload, open_sealed, bcCryptoDecrypt, decrypted, if_neg (by omega)]
  simp only [pollSlot, framed, if_false, bcCryptoDeriveShared, derived, length,
    Nat.not_lt.mpr room, opened]

variable (sodium)

/-- The plaintext of a message under the key derived for its sender. -/
def openMessage (identity : BcIdentity) (msg : BcMessage) : Except Rc (List UInt8) :=
  match bcCryptoDeriveShared sodium identity.secretKey msg.senderPubkey with
  | .error rc => .error rc
  | .ok sharedKey => openWith sodium sharedKey msg.payload

theorem derive_shared_error {mySecret : SecretKey} {peerPubkey : Pubkey} {rc : Rc}
    (failed : bcCryptoDeriveShared sodium mySecret peerPubkey = .error rc) : rc ≠ .ok := by
  unfold bcCryptoDeriveShared at failed
  split at failed
  · cases failed
    decide
  · cases failed

theorem open_with_error {key : SharedKey} {payload : List UInt8} {rc : Rc}
    (failed : openWith sodium key payload = .error rc) : rc ≠ .ok := by
  unfold openWith bcCryptoDecrypt at failed
  split_ifs at failed
  · cases failed
    decide
  · split at failed
    · cases failed
      decide
    · cases failed

theorem poll_slot_cases (identity : BcIdentity) (msg : BcMessage) (bufLen : Nat) :
    (msg.payload.length < bcNonceSize + bcTagSize ∧
        pollSlot sodium identity (some msg) bufLen = ⟨.ok, 0, none, []⟩) ∨
      bcNonceSize + bcTagSize ≤ msg.payload.length ∧
        ((∃ rc, rc ≠ .ok ∧ openMessage sodium identity msg = .error rc ∧
            pollSlot sodium identity (some msg) bufLen = ⟨rc, 0, none, []⟩) ∨
          (bufLen < msg.payload.length - bcNonceSize - bcTagSize ∧
            pollSlot sodium identity (some msg) bufLen =
              ⟨.bufferTooSmall, msg.payload.length - bcNonceSize - bcTagSize, none, []⟩) ∨
          ∃ plaintext, openMessage sodium identity msg = .ok plaintext ∧
            msg.payload.length - bcNonceSize - bcTagSize ≤ bufLen ∧
            pollSlot sodium identity (some msg) bufLen =
              ⟨.ok, msg.payload.length - bcNonceSize - bcTagSize, some msg.senderPubkey,
                plaintext⟩) := by
  by_cases short : msg.payload.length < bcNonceSize + bcTagSize
  · exact .inl ⟨short, by simp [pollSlot, short]⟩
  · refine .inr ⟨Nat.le_of_not_lt short, ?_⟩
    cases derived : bcCryptoDeriveShared sodium identity.secretKey msg.senderPubkey with
    | error rc =>
        exact .inl ⟨rc, derive_shared_error sodium derived, by simp [openMessage, derived],
          by simp [pollSlot, short, derived]⟩
    | ok key =>
        by_cases small : bufLen < msg.payload.length - bcNonceSize - bcTagSize
        · exact .inr (.inl ⟨small, by simp [pollSlot, short, derived, small]⟩)
        · cases opened : openWith sodium key msg.payload with
          | error rc =>
              exact .inl ⟨rc, open_with_error sodium opened, by simp [openMessage, derived, opened],
                by simp [pollSlot, short, derived, small, opened]⟩
          | ok plaintext =>
              exact .inr (.inr ⟨plaintext, by simp [openMessage, derived, opened],
                Nat.le_of_not_lt small, by simp [pollSlot, short, derived, small, opened]⟩)

variable {sodium}

theorem open_message_ok {identity : BcIdentity} {msg : BcMessage} {plaintext : List UInt8}
    (opened : openMessage sodium identity msg = .ok plaintext) :
    ∃ key, sodium.boxBeforenm msg.senderPubkey identity.secretKey = some key ∧
      openWith sodium key msg.payload = .ok plaintext := by
  unfold openMessage bcCryptoDeriveShared at opened
  cases derived : sodium.boxBeforenm msg.senderPubkey identity.secretKey with
  | none =>
      rw [derived] at opened
      cases opened
  | some key =>
      rw [derived] at opened
      exact ⟨key, rfl, opened⟩

theorem poll_slot_opened {identity : BcIdentity} {msg : BcMessage} {bufLen : Nat}
    {sender : Pubkey} (named : (pollSlot sodium identity (some msg) bufLen).sender = some sender) :
    sender = msg.senderPubkey ∧ bcNonceSize + bcTagSize ≤ msg.payload.length ∧
      ∃ key, sodium.boxBeforenm msg.senderPubkey identity.secretKey = some key ∧
        sodium.aeadDecrypt key ((⟨msg.payload, fun _ => 0⟩ : Memory).fixed 0 24)
          (msg.payload.drop bcNonceSize) =
            some (pollSlot sodium identity (some msg) bufLen).buf := by
  rcases poll_slot_cases sodium identity msg bufLen with
    ⟨-, result⟩ | ⟨long, ⟨rc, -, -, result⟩ | ⟨-, result⟩ | ⟨plaintext, opened, -, result⟩⟩
  · rw [result] at named
    cases named
  · rw [result] at named
    cases named
  · rw [result] at named
    cases named
  · obtain ⟨key, derived, decrypted⟩ := open_message_ok opened
    rw [result] at named ⊢
    exact ⟨(Option.some.inj named).symm, long, key, derived, open_with_ok decrypted⟩

variable (sodium)

def pollAll (state : GState) (polls : List Nat) : GState :=
  polls.foldl (fun current bufLen => (bitchatPollMessages sodium current bufLen).2) state

theorem poll_all_queued (polls : List Nat) :
    ∀ (state : GState) (items rest : List BcMessage), state.initialized = true →
      Queued state (items ++ rest) → polls.length = items.length →
      Queued (pollAll sodium state polls) rest ∧ SameCore state (pollAll sodium state polls) := by
  induction polls with
  | nil =>
      intro state items rest _ queued count
      rw [List.eq_nil_of_length_eq_zero count.symm] at queued
      exact ⟨queued, SameCore.refl state⟩
  | cons bufLen later ih =>
      intro state items rest initialized queued count
      cases items with
      | nil => cases count
      | cons msg others =>
          obtain ⟨-, popped, core⟩ := poll_queued sodium bufLen initialized queued
          obtain ⟨result, laterCore⟩ := ih (bitchatPollMessages sodium state bufLen).2 others rest
            (core.initialized.trans initialized) popped (Nat.succ.inj count)
          exact ⟨result, core.trans laterCore⟩

def pendingCount (state : GState) : Nat :=
  (state.inboxHead + inboxSlots - state.inboxTail) % inboxSlots

theorem pending_count_queued {state : GState} {items : List BcMessage}
    (queued : Queued state items) : pendingCount state = items.length := by
  have tailBound := queued.tailBound
  have room := queued.room
  have headAt := queued.headAt
  simp only [pendingCount, inboxSlots] at *
  omega

end Polling

section Delivery

variable (sodium : Sodium)

def withArrivals (env : FfiTickEnv) (arrivals : List Arrival) : FfiTickEnv :=
  { env with tick := { env.tick with arrivals := arrivals } }

/-- The router, and the inbox with it, when a tick has evicted stale entries
and read the arrivals `before`. -/
def readingNode (receiver : GState) (router : BcRouter PendingMessages) (env : FfiTickEnv)
    (before : List Arrival) : Node PendingMessages × List Event :=
  receiveLoop (tickEvict ⟨router, receiver.store⟩ env.tick.evictNow) before

def readingInbox (receiver : GState) (router : BcRouter PendingMessages) (env : FfiTickEnv)
    (before : List Arrival) : GState :=
  (deliverAll sodium env.alloc receiver 0 (readingNode receiver router env before).2).1

/-- After a tick that reads `datagram` behind the arrivals `before`, and after
as many polls as messages were pending then, the next poll with a sufficient
buffer returns the plaintext and its sender. This is for all arrivals that
follow, all buffers of the earlier polls and any contents of the memory
behind the receive buffer. -/
def DeliveredFaithfully (sender receiver : GState) (router : BcRouter PendingMessages)
    (plaintext datagram : List UInt8) (env : FfiTickEnv) (before : List Arrival)
    (call : CallEnv) : Prop :=
  ∀ (beyond : Nat → UInt8) (later : List Arrival) (polls : List Nat) (bufLen : Nat),
    polls.length = pendingCount (readingInbox sodium receiver router env before) →
    plaintext.length ≤ bufLen →
    (bitchatPollMessages sodium
      (pollAll sodium
        (bitchatTick sodium receiver (withArrivals env
          (before ++ ⟨.ok, datagram, { call with beyond := beyond }⟩ :: later))).state
        polls) bufLen).1 =
      ⟨.ok, plaintext.length, some sender.identity.pubkey, plaintext⟩

/-- The inbox after a tick: what was there when the datagram was read, what
the datagram added, what came later. -/
theorem tick_deliveries {receiver : GState} {router : BcRouter PendingMessages}
    (env : FfiTickEnv) (before later : List Arrival) (arrival : Arrival)
    (initialized : receiver.initialized = true) (present : receiver.router = some router)
    (listening : (router.transport.map BcTransport.recv).getD false = true)
    (accepted : ∀ other ∈ before, other.rc = .ok ∧ 0 < other.received.length)
    (readable : arrival.rc = .ok ∧ 0 < arrival.received.length) :
    ∃ k rest installed store,
      (bitchatTick sodium receiver (withArrivals env (before ++ arrival :: later))).state =
        { (deliverAll sodium env.alloc (readingInbox sodium receiver router env before) k
            ((bcRouterReceive (readingNode receiver router env before).1 arrival.env
              arrival.received).events ++ rest)).1 with
          router := installed
          store := store } ∧
      (later = [] → ∀ msg, Event.deliver msg ∉ rest) := by
  let node := tickEvict ⟨router, receiver.store⟩ env.tick.evictNow
  let reading := receiveLoop node before
  let received := bcRouterReceive reading.1 arrival.env arrival.received
  let followed := receiveLoop received.node later
  let polled := (reading.2 ++ (received.events ++ followed.2))
  have loop : receiveLoop node (before ++ arrival :: later) = (followed.1, polled) := by
    rw [receive_loop_append before (arrival :: later) accepted, receiveLoop, if_pos readable]
  have recv : (node.router.transport.map BcTransport.recv).getD false = true := listening
  let ticked := bcRouterTick ⟨router, receiver.store⟩
    (withArrivals env (before ++ arrival :: later)).tick
  let rebroadcast := tickRebroadcast followed.1
    (withArrivals env (before ++ arrival :: later)).tick
  have events : ticked.2 = reading.2 ++ (received.events ++ (followed.2 ++ rebroadcast.2)) := by
    have poll : tickPoll node (before ++ arrival :: later) = (followed.1, polled) := by
      rw [tickPoll, if_pos recv, loop]
    have whole : ticked.2 = (tickPoll node (before ++ arrival :: later)).2 ++
        (tickRebroadcast (tickPoll node (before ++ arrival :: later)).1
          (withArrivals env (before ++ arrival :: later)).tick).2 := rfl
    rw [whole, poll]
    simp only [polled, List.append_assoc]
    rfl
  have state : (bitchatTick sodium receiver
        (withArrivals env (before ++ arrival :: later))).state =
      (deliverAll sodium env.alloc
        { receiver with router := some ticked.1.router, store := ticked.1.store } 0 ticked.2).1 := by
    simp only [bitchatTick, initialized, Bool.true_eq_false, if_false, present]
    rfl
  rw [state, deliver_all_frame, events]
  obtain ⟨k, split⟩ := deliver_all_append sodium env.alloc reading.2
    (received.events ++ (followed.2 ++ rebroadcast.2)) receiver 0
  refine ⟨k, followed.2 ++ rebroadcast.2, some ticked.1.router, ticked.1.store, ?_, ?_⟩
  · rw [split]
    rfl
  · intro none msg member
    rcases List.mem_append.mp member with inLater | inRebroadcast
    · simp only [followed, none, receiveLoop] at inLater
      cases inLater
    · obtain ⟨_, _, _, wrong⟩ := rebroadcast_events _ _ _ inRebroadcast
      cases wrong

theorem reading_queued {receiver : GState} (router : BcRouter PendingMessages)
    (env : FfiTickEnv) (before : List Arrival) (wired : Wired receiver) :
    ∃ items, Queued (readingInbox sodium receiver router env before) items := by
  obtain ⟨items, queued⟩ := wired.inbox
  obtain ⟨more, extended, -⟩ := deliver_all_queued sodium env.alloc
    (readingNode receiver router env before).2 receiver 0 items queued
  exact ⟨items ++ more, extended⟩

theorem reading_fixture (receiver : GState) (router : BcRouter PendingMessages)
    (env : FfiTickEnv) (before : List Arrival) :
    SameFixture router (readingNode receiver router env before).1.router := by
  have evicted := evict_fixture ⟨router, receiver.store⟩ env.tick.evictNow
  exact evicted.trans (receive_loop_fixture before _)

section Circumstances

variable {receiver : GState} {router : BcRouter PendingMessages} {env : FfiTickEnv}
  {before later : List Arrival} {arrival : Arrival} {polls : List Nat}
  (wired : Wired receiver) (present : receiver.router = some router)
  (listening : (router.transport.map BcTransport.recv).getD false = true)
  (accepted : ∀ other ∈ before, other.rc = .ok ∧ 0 < other.received.length)
  (readable : arrival.rc = .ok ∧ 0 < arrival.received.length)
  (count : polls.length = pendingCount (readingInbox sodium receiver router env before))

include wired present listening accepted readable count

theorem poll_after_delivery {parsed : BcMessage} (bufLen : Nat)
    (inboxMemory : env.alloc = fun _ => allocates)
    (room : pendingCount (readingInbox sodium receiver router env before) < 255)
    (parses : bcMessageDeserialize arrival.env.alloc ⟨arrival.received, arrival.env.beyond⟩ =
      some parsed)
    (unseen : dedupContains (readingNode receiver router env before).1.router.dedupTable
      (readingNode receiver router env before).1.router.dedupCap parsed.uuid = false)
    (alive : parsed.ttl ≠ 0) (mine : parsed.receiverPubkey = receiver.identity.pubkey) :
    (bitchatPollMessages sodium
      (pollAll sodium (bitchatTick sodium receiver
        (withArrivals env (before ++ arrival :: later))).state polls) bufLen).1 =
      pollSlot sodium receiver.identity (some { parsed with ttl := parsed.ttl - 1 }) bufLen := by
  obtain ⟨initialized, localKey, registered⟩ := wired.ready router present
  obtain ⟨items, queued⟩ := reading_queued sodium router env before wired
  have wiring := reading_fixture receiver router env before
  have events := receive_delivers (readingNode receiver router env before).1 arrival.env parses
    unseen alive (mine.trans (wiring.localPubkey.trans localKey).symm)
    (wiring.onMessage.trans registered)
  obtain ⟨k, rest, installed, store, state, -⟩ := tick_deliveries sodium env before later arrival
    initialized present listening accepted readable
  rw [pending_count_queued queued] at room count
  let msg : BcMessage := { parsed with ttl := parsed.ttl - 1 }
  have joined : Queued (inboxAppend (env.alloc k) (readingInbox sodium receiver router env before)
      msg) (items ++ [msg]) := by
    rw [inboxMemory]
    exact inbox_append_room queued room
  obtain ⟨more, final, -⟩ := deliver_all_queued sodium env.alloc rest _ (k + 1) _ joined
  rw [events] at state
  obtain ⟨up, sameIdentity⟩ :=
    tick_identity sodium receiver (withArrivals env (before ++ arrival :: later))
  rw [initialized] at up
  have ticked : Queued (bitchatTick sodium receiver
      (withArrivals env (before ++ arrival :: later))).state (items ++ (msg :: more)) := by
    rw [state, List.append_cons]
    exact final
  obtain ⟨front, polled⟩ := poll_all_queued sodium polls _ items (msg :: more) up ticked count
  rw [(poll_queued sodium bufLen (polled.initialized.trans up) front).1, polled.identity,
    sameIdentity]

theorem poll_after_rejection (bufLen : Nat) (nothing : later = [])
    (rejected : bcMessageDeserialize arrival.env.alloc ⟨arrival.received, arrival.env.beyond⟩ =
      none) :
    (bitchatPollMessages sodium
      (pollAll sodium (bitchatTick sodium receiver
        (withArrivals env (before ++ arrival :: later))).state polls) bufLen).1 =
      ⟨.ok, 0, none, []⟩ := by
  obtain ⟨initialized, -⟩ := wired.ready router present
  obtain ⟨items, queued⟩ := reading_queued sodium router env before wired
  have events := receive_rejects (readingNode receiver router env before).1 arrival.env rejected
  obtain ⟨k, rest, installed, store, state, silent⟩ := tick_deliveries sodium env before later
    arrival initialized present listening accepted readable
  rw [pending_count_queued queued] at count
  rw [events, List.nil_append, deliver_all_silent sodium env.alloc rest (silent nothing)] at state
  obtain ⟨up, -⟩ := tick_identity sodium receiver (withArrivals env (before ++ arrival :: later))
  rw [initialized] at up
  have ticked : Queued (bitchatTick sodium receiver
      (withArrivals env (before ++ arrival :: later))).state (items ++ []) := by
    rw [state, List.append_nil]
    exact queued
  obtain ⟨empty, polled⟩ := poll_all_queued sodium polls _ items [] up ticked count
  rw [poll_empty sodium bufLen (polled.initialized.trans up) empty]

end Circumstances

theorem wire_readable (msg : BcMessage) (env : CallEnv) :
    (⟨.ok, wireBytes msg, env⟩ : Arrival).rc = .ok ∧
      0 < (⟨.ok, wireBytes msg, env⟩ : Arrival).received.length := by
  refine ⟨rfl, ?_⟩
  show 0 < ((wireBytes msg).take 4096).length
  rw [List.length_take, wire_bytes_length]
  simp only [bcMessageHeaderSize]
  omega

section Faithful

variable {sodium} {sender receiver : GState} {router : BcRouter PendingMessages}
  {plaintext datagram : List UInt8} {sendEnv : SendEnv} {peer : Pubkey} {rc : Rc}
  {env : FfiTickEnv} {before : List Arrival} {call : CallEnv}
  (laws : SodiumLaws sodium) (wired : Wired receiver)
  (senderKey : sender.identity.pubkey = sodium.publicKey sender.identity.secretKey)
  (receiverKey : receiver.identity.pubkey = sodium.publicKey receiver.identity.secretKey)
  (present : receiver.router = some router)
  (handed : Event.send peer datagram rc ∈
    (bitchatSendMessage sodium sender sendEnv receiver.identity.pubkey plaintext).events)
  (listening : (router.transport.map BcTransport.recv).getD false = true)
  (accepted : ∀ other ∈ before, other.rc = .ok ∧ 0 < other.received.length)
  (memory : call.alloc = allocates) (inboxMemory : env.alloc = fun _ => allocates)
  (unseen : dedupContains (readingNode receiver router env before).1.router.dedupTable
    (readingNode receiver router env before).1.router.dedupCap sendEnv.uuid = false)
  (room : pendingCount (readingInbox sodium receiver router env before) < 255)

include laws senderKey receiverKey in
theorem agreed_key {key : SharedKey}
    (derived : sodium.boxBeforenm receiver.identity.pubkey sender.identity.secretKey = some key) :
    sodium.boxBeforenm sender.identity.pubkey receiver.identity.secretKey = some key := by
  rw [← derived, senderKey, receiverKey]
  exact laws.symmetric _ _

include laws wired senderKey receiverKey present handed listening accepted memory inboxMemory
  unseen room

theorem faithful_of_short (short : plaintext.length ≤ 3963) :
    DeliveredFaithfully sodium sender receiver router plaintext datagram env before call := by
  intro beyond later polls bufLen count large
  obtain ⟨key, ciphertext, derived, encrypted, bytes⟩ := send_handed handed
  let msg := sealedMessage sender sendEnv receiver.identity.pubkey ciphertext
  have size := laws.encrypt_length key sendEnv.nonce plaintext ciphertext encrypted
  have fits : msg.payload.length ≤ bufferRoom := by
    simp only [msg, sealedMessage, List.length_append, List.Vector.toList_length, size, bufferRoom,
      bcMessageHeaderSize, bcTagSize]
    omega
  have parses : bcMessageDeserialize call.alloc ⟨(wireBytes msg).take 4096, beyond⟩ = some msg := by
    rw [memory]
    exact deserialize_received msg beyond fits
  rw [bytes]
  refine (poll_after_delivery sodium wired present listening accepted
    (wire_readable msg { call with beyond := beyond }) count bufLen inboxMemory room parses unseen
    (by decide : bcDefaultTtl ≠ 0) rfl).trans ?_
  exact poll_slot_sealed laws (agreed_key laws senderKey receiverKey derived) encrypted rfl large

theorem not_faithful_of_long (long : 3963 < plaintext.length) :
    ¬ DeliveredFaithfully sodium sender receiver router plaintext datagram env before call := by
  intro faithful
  obtain ⟨key, ciphertext, derived, encrypted, bytes⟩ := send_handed handed
  let msg := sealedMessage sender sendEnv receiver.identity.pubkey ciphertext
  have size := laws.encrypt_length key sendEnv.nonce plaintext ciphertext encrypted
  have tooLong : bufferRoom < msg.payload.length := by
    simp only [msg, sealedMessage, List.length_append, List.Vector.toList_length, size, bufferRoom,
      bcMessageHeaderSize, bcTagSize]
    omega
  -- A byte that does not continue the ciphertext behind the buffer.
  obtain ⟨filler, differs⟩ : ∃ filler : UInt8, msg.payload[bufferRoom]? ≠ some filler := by
    by_cases zero : msg.payload[bufferRoom]? = some 0
    · exact ⟨1, by rw [zero]; decide⟩
    · exact ⟨0, zero⟩
  let polls := List.replicate (pendingCount (readingInbox sodium receiver router env before)) 0
  have count : polls.length = pendingCount (readingInbox sodium receiver router env before) :=
    List.length_replicate
  have polled := faithful (fun _ => filler) [] polls plaintext.length count (Nat.le_refl _)
  rw [bytes] at polled
  cases parses : bcMessageDeserialize call.alloc
      ⟨(wireBytes msg).take 4096, fun _ => filler⟩ with
  | none =>
      have empty := polled.symm.trans (poll_after_rejection sodium wired present listening accepted
        (wire_readable msg { call with beyond := fun _ => filler }) count plaintext.length rfl
        parses)
      cases congrArg PollResult.sender empty
  | some parsed =>
      have truncated := parses
      rw [memory] at truncated
      obtain ⟨header, fronts, otherPayload⟩ := deserialize_truncated tooLong differs truncated
      have parsedUuid : parsed.uuid = sendEnv.uuid := by rw [header]; rfl
      have parsedTtl : parsed.ttl = bcDefaultTtl := by rw [header]; rfl
      have parsedSender : parsed.senderPubkey = sender.identity.pubkey := by rw [header]; rfl
      have parsedReceiver : parsed.receiverPubkey = receiver.identity.pubkey := by rw [header]; rfl
      have result := (poll_after_delivery sodium wired present listening accepted
        (wire_readable msg { call with beyond := fun _ => filler }) count plaintext.length
        inboxMemory room parses (parsedUuid ▸ unseen) (by rw [parsedTtl]; decide)
        parsedReceiver).symm.trans polled
      obtain ⟨-, framed, otherKey, otherDerived, decrypted⟩ :=
        poll_slot_opened (congrArg PollResult.sender result)
      rw [result] at decrypted
      have sameKey : otherKey = key := by
        have agreed := agreed_key laws senderKey receiverKey derived
        rw [← parsedSender] at agreed
        exact Option.some.inj (otherDerived.symm.trans agreed)
      have front : parsed.payload.take bcNonceSize = sendEnv.nonce.toList := by
        rw [fronts bcNonceSize (Nat.le_trans (by decide) framed) (by decide)]
        exact List.take_left' sendEnv.nonce.toList_length
      have sameNonce : (⟨parsed.payload, fun _ => 0⟩ : Memory).fixed 0 24 = sendEnv.nonce :=
        fixed_field [] (parsed.payload.drop bcNonceSize) sendEnv.nonce
          (by rw [← front, List.nil_append, List.take_append_drop]) rfl
      have again := laws.decrypt_sound _ _ _ _ decrypted
      rw [sameNonce, sameKey, encrypted] at again
      apply otherPayload
      rw [← List.take_append_drop bcNonceSize parsed.payload, front, ← Option.some.inj again]
      rfl

/-- What is sent is what is polled, exactly for plaintexts of at most 3963
bytes. -/
theorem delivered_faithfully_iff :
    DeliveredFaithfully sodium sender receiver router plaintext datagram env before call ↔
      plaintext.length ≤ 3963 := by
  constructor
  · intro faithful
    by_contra tooLong
    exact not_faithful_of_long laws wired senderKey receiverKey present handed listening accepted
      memory inboxMemory unseen room (Nat.lt_of_not_le tooLong) faithful
  · exact faithful_of_short laws wired senderKey receiverKey present handed listening accepted
      memory inboxMemory unseen room

end Faithful

end Delivery

def sendingNode : GState :=
  { loadedNode 1 with
    router := some (bcRouterAddPeer (loadedRouter 1) 1000
      ⟨(plainIdentity 2).pubkey, 1000, .ble, 0⟩) }

def firstSend : SendEnv where
  nonce := List.Vector.replicate 24 7
  uuid := List.Vector.replicate 16 9
  created := 1000
  alloc := allocates
  call := quietEnv 1000

def firstDatagram (plaintext : List UInt8) : List UInt8 :=
  wireBytes (sealedMessage sendingNode firstSend (plainIdentity 2).pubkey
    (plaintext ++ plainTag (List.Vector.replicate 32 3) firstSend.nonce))

theorem loaded_identity (tag : UInt8) : (loadedNode tag).identity = plainIdentity tag := by
  rw [loaded_node_eq]

theorem first_send_accepted (plaintext : List UInt8) :
    (bitchatSendMessage plainSodium sendingNode firstSend (loadedNode 2).identity.pubkey
        plaintext).rc = .ok ∧
      Event.send (plainIdentity 2).pubkey (firstDatagram plaintext) .ok ∈
        (bitchatSendMessage plainSodium sendingNode firstSend (loadedNode 2).identity.pubkey
          plaintext).events := by
  have up : sendingNode.initialized = true := congrArg GState.initialized (loaded_node_eq 1)
  have derived : plainSodium.boxBeforenm (loadedNode 2).identity.pubkey
      sendingNode.identity.secretKey = some (List.Vector.replicate 32 3) := by
    rw [loaded_identity, sendingNode, loaded_identity]
    decide
  obtain ⟨accepted, sends⟩ := send_accepted up rfl derived
    (rfl : plainSodium.aeadEncrypt _ firstSend.nonce plaintext = _) rfl rfl
  refine ⟨accepted, sends _ ?_⟩
  rw [loaded_identity]
  exact List.mem_singleton_self _

def quietReceive : FfiTickEnv := ⟨quietTick 1000, fun _ => allocates⟩

theorem second_node_unseen :
    dedupContains (readingNode (loadedNode 2) (loadedRouter 2) quietReceive []).1.router.dedupTable
      (readingNode (loadedNode 2) (loadedRouter 2) quietReceive []).1.router.dedupCap
      firstSend.uuid = false := by
  decide +kernel

theorem second_node_room :
    pendingCount (readingInbox plainSodium (loadedNode 2) (loadedRouter 2) quietReceive []) <
      255 := by
  rw [loaded_node_eq]
  decide

theorem delivered_faithfully_hi :
    DeliveredFaithfully plainSodium sendingNode (loadedNode 2) (loadedRouter 2) [104, 105]
      (firstDatagram [104, 105]) quietReceive [] (quietEnv 1000) := by
  refine (delivered_faithfully_iff plain_sodium_laws (loaded_node_wired 2) ?_ ?_ ?_
    (first_send_accepted [104, 105]).2 rfl ?_ rfl rfl second_node_unseen second_node_room).mpr
    (by decide)
  · rw [sendingNode, loaded_identity]
    rfl
  · rw [loaded_identity]
    rfl
  · rw [loaded_node_eq]
  · simp

/-- 3964 bytes are sent with `BC_OK` and do not arrive. -/
theorem long_plaintext_not_delivered :
    let plaintext : List UInt8 := List.replicate 3964 0
    (bitchatSendMessage plainSodium sendingNode firstSend (loadedNode 2).identity.pubkey
        plaintext).rc = .ok ∧
      Event.send (plainIdentity 2).pubkey (firstDatagram plaintext) .ok ∈
        (bitchatSendMessage plainSodium sendingNode firstSend (loadedNode 2).identity.pubkey
          plaintext).events ∧
      ¬ DeliveredFaithfully plainSodium sendingNode (loadedNode 2) (loadedRouter 2) plaintext
        (firstDatagram plaintext) quietReceive [] (quietEnv 1000) := by
  intro plaintext
  obtain ⟨accepted, handed⟩ := first_send_accepted plaintext
  refine ⟨accepted, handed, ?_⟩
  refine not_faithful_of_long plain_sodium_laws (loaded_node_wired 2) ?_ ?_ ?_ handed rfl ?_ rfl rfl
    second_node_unseen second_node_room ?_
  · rw [sendingNode, loaded_identity]
    rfl
  · rw [loaded_identity]
    rfl
  · rw [loaded_node_eq]
  · simp
  · rw [List.length_replicate]
    decide

end BitChat.EndToEnd
