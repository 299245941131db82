import BitChat.EndToEnd
import BitChat.Library.Chronicle

/-!
# Who sent a message

Honest nodes run the FFI core while the network is in the hands of an
attacker: it sees every datagram, and the arrivals of a tick are any bytes it
likes. It knows no secret key of an honest identity. Of the authenticated
encryption it is assumed that a decryption under the key of two honest
identities succeeds only on what one of these two has encrypted before.

Both directions of a conversation use one key, and nothing of the header is
authenticated. So the sender that a node names to its user, or the node
itself, has sent the plaintext.
-/

namespace BitChat.Authenticity

open BitChat.WireMessage BitChat.CryptoManager BitChat.PendingStorage BitChat.MeshRouter
open BitChat.FfiCore BitChat.FfiRuns BitChat.EndToEnd TransitionSystem Chronicle

set_option autoImplicit false

structure Sealed where
  key : SharedKey
  nonce : Nonce
  plaintext : List UInt8
  ciphertext : List UInt8
deriving DecidableEq

/-- A call of `bitchat_send_message` with what it encrypted, if it came so
far, or a plaintext handed to the user by the push callback or a poll. -/
inductive Happening (Place : Type) where
  | called (place : Place) (identity : BcIdentity) (recipient : Pubkey) (plaintext : List UInt8)
      (made : Option Sealed)
  | yielded (place : Place) (identity : BcIdentity) (sender : Pubkey) (plaintext : List UInt8)
deriving DecidableEq

/-- A call of the FFI, or a peer that the program adds to the router. -/
inductive Move where
  | ffi (call : FfiCall)
  | addPeer (now : UInt64) (peer : BcPeer)

structure AirState (Place : Type) where
  node : Place → GState
  history : List (Happening Place)
  wire : List (List UInt8)

section Attack

variable {Place : Type} (sodium : Sodium) (honest : BcIdentity → Prop)

def encryption (state : GState) (env : SendEnv) (recipient : Pubkey) (plaintext : List UInt8) :
    Option Sealed :=
  if state.initialized = false ∨ state.router.isNone ∨ env.alloc 0 = false then none
  else do
    let key ← sodium.boxBeforenm recipient state.identity.secretKey
    let ciphertext ← sodium.aeadEncrypt key env.nonce plaintext
    return ⟨key, env.nonce, plaintext, ciphertext⟩

def Move.run (state : GState) : Move → GState
  | .ffi call => call.run sodium state
  | .addPeer now peer =>
      { state with router := state.router.map fun router => bcRouterAddPeer router now peer }

def Move.happenings (place : Place) (state : GState) : Move → List (Happening Place)
  | .ffi (.sendMessage env recipient plaintext) =>
      [.called place state.identity recipient plaintext
        (encryption sodium state env recipient plaintext)]
  | .ffi (.pollMessages bufLen) =>
      let polled := (bitchatPollMessages sodium state bufLen).1
      (polled.sender.map fun sender => .yielded place state.identity sender polled.buf).toList
  | .ffi (.tick env) =>
      (bitchatTick sodium state env).pushes.map fun push =>
        .yielded place state.identity push.sender push.plaintext
  | _ => []

def sentBytes (events : List Event) : List (List UInt8) :=
  events.filterMap fun event => match event with
    | .send _ data _ => some data
    | _ => none

def Move.transmits (state : GState) : Move → List (List UInt8)
  | .ffi (.sendMessage env recipient plaintext) =>
      sentBytes (bitchatSendMessage sodium state env recipient plaintext).events
  | .ffi (.tick env) => sentBytes (bitchatTick sodium state env).events
  | _ => []

def AirState.after [DecidableEq Place] (state : AirState Place) (place : Place) (move : Move) :
    AirState Place where
  node := Function.update state.node place (move.run sodium (state.node place))
  history := state.history ++ move.happenings sodium place (state.node place)
  wire := state.wire ++ move.transmits sodium (state.node place)

def Move.Installs : Move → Prop
  | .ffi (.generateIdentity keypair _) => ∀ id, keypair = some id → honest id
  | .ffi (.loadIdentity identityData _) =>
      ∀ id, bcIdentityDeserialize identityData = some id → honest id
  | _ => True

/-- Arrivals are not restricted at all. -/
def airSystem [DecidableEq Place] : System (AirState Place) (Place × Move) where
  initial state :=
    (∀ place, state.node place = zeroedState) ∧ state.history = [] ∧ state.wire = []
  step state label after :=
    label.2.Installs honest ∧ after = state.after sodium label.1 label.2

structure Opens (identity : BcIdentity) (msg : BcMessage) (opened : Sealed) : Prop where
  derived : sodium.boxBeforenm msg.senderPubkey identity.secretKey = some opened.key
  payload : msg.payload = opened.nonce.toList ++ opened.ciphertext
  decrypted : sodium.aeadDecrypt opened.key opened.nonce opened.ciphertext = some opened.plaintext

/-- The successful decryptions of a move: the polled message when its
plaintext fits into the buffer, and with a callback registered the messages
that a tick delivers. -/
def Move.Decrypts (state : GState) : Move → Sealed → Prop
  | .ffi (.pollMessages bufLen), opened => state.initialized = true ∧
      state.inboxTail ≠ state.inboxHead ∧
      ∃ msg, state.inbox state.inboxTail = some msg ∧
        msg.payload.length - bcNonceSize - bcTagSize ≤ bufLen ∧
        Opens sodium state.identity msg opened
  | .ffi (.tick env), opened => state.userCallback = true ∧
      ∃ msg, Event.deliver msg ∈ (bitchatTick sodium state env).events ∧
        Opens sodium state.identity msg opened
  | _, _ => False

/-- A decryption under the key of two honest identities succeeds only on what
one of the two, who alone hold the key, has encrypted before. -/
def Unforged (state : AirState Place) (label : Place × Move) : Prop :=
  ∀ opened, label.2.Decrypts sodium (state.node label.1) opened →
    ∀ other, honest other →
      sodium.boxBeforenm other.pubkey (state.node label.1).identity.secretKey = some opened.key →
      ∃ place holder recipient, (holder = (state.node label.1).identity ∨ holder = other) ∧
        .called place holder recipient opened.plaintext (some opened) ∈ state.history

def FromSender (before : List (Happening Place)) : Happening Place → Prop
  | .called _ _ _ _ _ => True
  | .yielded _ me senderKey plaintext => ∀ sender, honest sender → sender.pubkey = senderKey →
      ∃ place made, .called place sender me.pubkey plaintext made ∈ before

/-- A plaintext that comes with the key of an honest sender was sent by one of
the two, to a recipient for whom it derives the key that the two share. -/
def FromOneOfTheTwo (before : List (Happening Place)) : Happening Place → Prop
  | .called _ _ _ _ _ => True
  | .yielded _ me senderKey plaintext => ∀ sender, honest sender → sender.pubkey = senderKey →
      ∃ place recipient made,
        (.called place sender recipient plaintext made ∈ before ∧
          sodium.boxBeforenm recipient sender.secretKey =
            sodium.boxBeforenm me.pubkey sender.secretKey) ∨
        (.called place me recipient plaintext made ∈ before ∧
          sodium.boxBeforenm recipient me.secretKey =
            sodium.boxBeforenm sender.pubkey me.secretKey)

section Openings

variable {sodium}

theorem encryption_made {state : GState} {env : SendEnv} {recipient : Pubkey}
    {plaintext : List UInt8} {made : Sealed}
    (performed : encryption sodium state env recipient plaintext = some made) :
    sodium.boxBeforenm recipient state.identity.secretKey = some made.key := by
  unfold encryption at performed
  split_ifs at performed
  cases derived : sodium.boxBeforenm recipient state.identity.secretKey with
  | none => simp [derived] at performed
  | some key =>
      cases encrypted : sodium.aeadEncrypt key env.nonce plaintext with
      | none => simp [derived, encrypted] at performed
      | some ciphertext =>
          simp only [derived, encrypted, Option.bind_eq_bind, Option.bind_some,
            Option.pure_def, Option.some.injEq] at performed
          rw [← performed]

theorem payload_split {payload : List UInt8} (framed : bcNonceSize ≤ payload.length) :
    payload = ((⟨payload, fun _ => 0⟩ : Memory).fixed 0 24).toList ++ payload.drop bcNonceSize := by
  have front : ((⟨payload, fun _ => 0⟩ : Memory).fixed 0 24).toList = payload.take bcNonceSize :=
    Memory.read_inside ⟨payload, fun _ => 0⟩ 0 24 (by simpa [bcNonceSize] using framed)
  rw [front, List.take_append_drop]

theorem opens_framed {identity : BcIdentity} {msg : BcMessage} {key : SharedKey}
    {plaintext : List UInt8} (framed : bcNonceSize + bcTagSize ≤ msg.payload.length)
    (derived : sodium.boxBeforenm msg.senderPubkey identity.secretKey = some key)
    (decrypted : sodium.aeadDecrypt key ((⟨msg.payload, fun _ => 0⟩ : Memory).fixed 0 24)
      (msg.payload.drop bcNonceSize) = some plaintext) :
    Opens sodium identity msg
      ⟨key, (⟨msg.payload, fun _ => 0⟩ : Memory).fixed 0 24, plaintext,
        msg.payload.drop bcNonceSize⟩ :=
  ⟨derived, payload_split (Nat.le_trans (Nat.le_add_right _ _) framed), decrypted⟩

theorem push_opened {alloc : Nat → Bool} {state : GState} {msg : BcMessage} {push : Push}
    (pushed : push ∈ pushToUser sodium alloc state msg) :
    state.userCallback = true ∧ push.sender = msg.senderPubkey ∧
      ∃ opened, Opens sodium state.identity msg opened ∧ opened.plaintext = push.plaintext := by
  unfold pushToUser at pushed
  cases derived : sodium.boxBeforenm msg.senderPubkey state.identity.secretKey with
  | none => simp [bcCryptoDeriveShared, derived] at pushed
  | some key =>
      simp only [bcCryptoDeriveShared, derived] at pushed
      split_ifs at pushed with silent short starved
      · cases pushed
      · cases pushed
      · cases pushed
      · cases opened : openWith sodium key msg.payload with
        | error rc => simp [opened] at pushed
        | ok plaintext =>
            simp only [opened, List.mem_singleton] at pushed
            rw [pushed]
            exact ⟨by simpa using silent, rfl, _,
              opens_framed (Nat.le_of_not_lt short) derived (open_with_ok opened), rfl⟩

theorem deliver_all_pushes (alloc : Nat → Nat → Bool) (events : List Event) (push : Push) :
    ∀ (state : GState) (k : Nat), push ∈ (deliverAll sodium alloc state k events).2 →
      ∃ msg, Event.deliver msg ∈ events ∧ state.userCallback = true ∧
        push.sender = msg.senderPubkey ∧
        ∃ opened, Opens sodium state.identity msg opened ∧ opened.plaintext = push.plaintext := by
  induction events with
  | nil =>
      intro state k pushed
      cases pushed
  | cons event rest ih =>
      intro state k pushed
      cases event with
      | deliver msg =>
          rcases List.mem_append.mp pushed with here | later
          · exact ⟨msg, List.mem_cons_self, push_opened here⟩
          · obtain ⟨other, member, found⟩ := ih _ _ later
            have core := inbox_append_core (alloc k) state msg
            simp only [onMessageReceived] at found
            rw [core.userCallback, core.identity] at found
            exact ⟨other, List.mem_cons_of_mem _ member, found⟩
      | store msg rc =>
          obtain ⟨other, member, found⟩ := ih _ _ pushed
          exact ⟨other, List.mem_cons_of_mem _ member, found⟩
      | send peer data rc =>
          obtain ⟨other, member, found⟩ := ih _ _ pushed
          exact ⟨other, List.mem_cons_of_mem _ member, found⟩

theorem poll_opened {state : GState} {bufLen : Nat} {sender : Pubkey}
    (named : (bitchatPollMessages sodium state bufLen).1.sender = some sender) :
    ∃ opened, (Move.ffi (.pollMessages bufLen)).Decrypts sodium state opened ∧
      sodium.boxBeforenm sender state.identity.secretKey = some opened.key ∧
      opened.plaintext = (bitchatPollMessages sodium state bufLen).1.buf := by
  unfold bitchatPollMessages at named ⊢
  split_ifs at named ⊢ with off empty
  cases slot : state.inbox state.inboxTail with
  | none => simp [slot, pollSlot] at named
  | some msg =>
      simp only [slot] at named ⊢
      obtain ⟨same, framed, key, derived, decrypted⟩ := poll_slot_opened named
      refine ⟨_, ⟨by simpa using off, empty, msg, slot, ?_, opens_framed framed derived decrypted⟩,
        by rw [same]; exact derived, rfl⟩
      by_contra small
      simp [pollSlot, bcCryptoDeriveShared, derived, Nat.not_lt.mpr framed,
        Nat.lt_of_not_le small] at named

theorem tick_opened {state : GState} {env : FfiTickEnv} {push : Push}
    (pushed : push ∈ (bitchatTick sodium state env).pushes) :
    ∃ opened, (Move.ffi (.tick env)).Decrypts sodium state opened ∧
      sodium.boxBeforenm push.sender state.identity.secretKey = some opened.key ∧
      opened.plaintext = push.plaintext := by
  unfold Move.Decrypts bitchatTick at *
  split_ifs at pushed ⊢ with off
  · cases pushed
  · cases present : state.router with
    | none => simp [present] at pushed
    | some router =>
        simp only [present] at pushed ⊢
        obtain ⟨msg, delivered, registered, sender, opened, opens, same⟩ :=
          deliver_all_pushes env.alloc _ push _ 0 pushed
        exact ⟨opened, ⟨registered, msg, delivered, opens⟩, by rw [sender]; exact opens.derived,
          same⟩

/-- Everything a move adds to the history: a call with the encryption under
the key of its recipient, or plaintexts that it has decrypted under the key of
the sender it names. -/
theorem happenings_cases {place : Place} {state : GState} {move : Move}
    {happening : Happening Place} (member : happening ∈ move.happenings sodium place state) :
    (∃ recipient plaintext made,
      happening = .called place state.identity recipient plaintext made ∧
      ∀ performed, made = some performed →
        sodium.boxBeforenm recipient state.identity.secretKey = some performed.key) ∨
    (∃ sender opened, happening = .yielded place state.identity sender opened.plaintext ∧
      move.Decrypts sodium state opened ∧
      sodium.boxBeforenm sender state.identity.secretKey = some opened.key) := by
  cases move with
  | addPeer now peer => cases member
  | ffi call =>
      cases call with
      | sendMessage env recipient plaintext =>
          exact .inl ⟨recipient, plaintext, _, List.mem_singleton.mp member,
            fun _ => encryption_made⟩
      | pollMessages bufLen =>
          simp only [Move.happenings, Option.mem_toList, Option.map_eq_some_iff] at member
          obtain ⟨sender, named, same⟩ := member
          obtain ⟨opened, decrypts, derived, plaintext⟩ := poll_opened named
          rw [← same, ← plaintext]
          exact .inr ⟨sender, opened, rfl, decrypts, derived⟩
      | tick env =>
          simp only [Move.happenings, List.mem_map] at member
          obtain ⟨push, pushed, same⟩ := member
          obtain ⟨opened, decrypts, derived, plaintext⟩ := tick_opened pushed
          rw [← same, ← plaintext]
          exact .inr ⟨push.sender, opened, rfl, decrypts, derived⟩
      | _ => cases member

end Openings

def Armed (state : GState) : Prop :=
  honest state.identity ∨ (state.router = none ∧ state.inboxTail = state.inboxHead)

section Preservation

variable {sodium honest}

theorem armed_effect {state after : GState} {call : FfiCall} (armed : Armed honest state)
    (installs : state.initialized = true → (Move.ffi call).Installs honest)
    (effect : Effect sodium state call after) : Armed honest after := by
  cases effect with
  | generated id env up =>
      apply Or.inl
      rw [(recreate_recreated _ env).identity]
      exact installs up id rfl
  | loaded identityData id env up parsed =>
      apply Or.inl
      rw [(recreate_recreated _ env).identity]
      exact installs up id parsed
  | sent env recipient plaintext router msg up present =>
      rcases armed with mine | ⟨absent, -⟩
      · exact .inl mine
      · rw [absent] at present
        cases present
  | polled bufLen up content =>
      rcases armed with mine | ⟨-, drained⟩
      · exact .inl mine
      · exact absurd drained content
  | ticked env router up present =>
      rcases armed with mine | ⟨absent, -⟩
      · apply Or.inl
        rw [(after_tick_core sodium state router env).identity]
        exact mine
      · rw [absent] at present
        cases present
  | stopped up => exact .inr ⟨rfl, rfl⟩
  | _ => exact armed

theorem armed_step {state : GState} (move : Move) (armed : Armed honest state)
    (installs : move.Installs honest) : Armed honest (move.run sodium state) := by
  cases move with
  | addPeer now peer =>
      rcases armed with mine | ⟨absent, empty⟩
      · exact .inl mine
      · refine .inr ⟨?_, empty⟩
        simp only [Move.run, absent, Option.map_none]
  | ffi call => exact armed_effect armed (fun _ => installs) (run_effect sodium state call)

theorem decrypts_honest {state : GState} {move : Move} {opened : Sealed}
    (armed : Armed honest state) (decrypts : move.Decrypts sodium state opened) :
    honest state.identity := by
  rcases armed with mine | ⟨absent, empty⟩
  · exact mine
  · cases move with
    | addPeer now peer => cases decrypts
    | ffi call =>
        cases call with
        | pollMessages bufLen => exact absurd empty decrypts.2.1
        | tick env =>
            obtain ⟨-, msg, delivered, -⟩ := decrypts
            simp only [bitchatTick, absent] at delivered
            split_ifs at delivered <;> cases delivered
        | _ => cases decrypts

theorem from_one_longer (before more : List (Happening Place)) (happening : Happening Place)
    (backed : FromOneOfTheTwo sodium honest before happening) :
    FromOneOfTheTwo sodium honest (before ++ more) happening := by
  cases happening with
  | called place identity recipient plaintext made => trivial
  | yielded place me senderKey plaintext =>
      intro sender isHonest same
      obtain ⟨origin, recipient, made, source⟩ := backed sender isHonest same
      refine ⟨origin, recipient, made, ?_⟩
      rcases source with ⟨called, derives⟩ | ⟨called, derives⟩
      · exact .inl ⟨List.mem_append_left _ called, derives⟩
      · exact .inr ⟨List.mem_append_left _ called, derives⟩

/-- What is known of a run: the identities in place, the key of every
encryption, the origin of every plaintext handed to a user. -/
structure Accounted (sodium : Sodium) (honest : BcIdentity → Prop) (state : AirState Place) :
    Prop where
  armed : ∀ place, Armed honest (state.node place)
  keyed : ∀ place identity recipient plaintext made,
    .called place identity recipient plaintext (some made) ∈ state.history →
      sodium.boxBeforenm recipient identity.secretKey = some made.key
  origins : Always (FromOneOfTheTwo sodium honest) state.history

variable
  (symmetric : ∀ mine theirs : SecretKey,
    sodium.boxBeforenm (sodium.publicKey theirs) mine =
      sodium.boxBeforenm (sodium.publicKey mine) theirs)
  (keypairs : ∀ id, honest id → id.pubkey = sodium.publicKey id.secretKey)

include symmetric keypairs

/-- One move: whatever it hands to the user under the key of an honest sender
comes from one of the two. -/
theorem move_accounted {state : AirState Place} {place : Place} {move : Move}
    (accounted : Accounted sodium honest state)
    (unforged : Unforged sodium honest state (place, move)) :
    ∀ happening ∈ move.happenings sodium place (state.node place),
      FromOneOfTheTwo sodium honest state.history happening := by
  intro happening member
  rcases happenings_cases member with
    ⟨recipient, plaintext, made, rfl, -⟩ | ⟨senderKey, opened, rfl, decrypts, derived⟩
  · trivial
  · intro sender isHonest same
    have mine := decrypts_honest (accounted.armed place) decrypts
    rw [← same] at derived
    obtain ⟨origin, holder, recipient, which, called⟩ :=
      unforged opened decrypts sender isHonest derived
    have key := accounted.keyed _ _ _ _ _ called
    refine ⟨origin, recipient, some opened, ?_⟩
    rcases which with isMe | isSender
    · rw [isMe] at called key
      exact .inr ⟨called, key.trans derived.symm⟩
    · rw [isSender] at called key
      have shared : sodium.boxBeforenm (state.node place).identity.pubkey sender.secretKey =
          some opened.key := by
        rw [← derived, keypairs sender isHonest, keypairs _ mine]
        exact symmetric _ _
      exact .inl ⟨called, key.trans shared.symm⟩

theorem accounted_step [DecidableEq Place] {state : AirState Place} {place : Place} {move : Move}
    (accounted : Accounted sodium honest state) (installs : move.Installs honest)
    (unforged : Unforged sodium honest state (place, move)) :
    Accounted sodium honest (state.after sodium place move) := by
  constructor
  · intro other
    by_cases here : other = place
    · simp only [here, AirState.after, Function.update_self]
      exact armed_step move (accounted.armed place) installs
    · simp only [AirState.after, Function.update_of_ne here]
      exact accounted.armed other
  · intro origin identity recipient plaintext made member
    rcases List.mem_append.mp member with earlier | now
    · exact accounted.keyed _ _ _ _ _ earlier
    · rcases happenings_cases now with ⟨_, _, _, same, keyed⟩ | ⟨_, _, wrong, -⟩
      · cases same
        exact keyed made rfl
      · cases wrong
  · exact always_append from_one_longer accounted.origins
      (move_accounted symmetric keypairs accounted unforged)

/-- In every run against the attacker, a plaintext that is handed to the user
with the key of an honest sender was sent by that sender or by the node
itself, under the key that the two share. -/
theorem yielded_from_one_of_the_two [DecidableEq Place] {state : AirState Place}
    (reached : Reachable (guarded (airSystem sodium honest) (Unforged sodium honest)) state) :
    Always (FromOneOfTheTwo sodium honest) state.history := by
  have accounted : Accounted sodium honest state := by
    apply Reachable.invariant (Accounted sodium honest) _ _ reached
    · rintro start ⟨nodes, noHistory, -⟩
      refine ⟨?_, ?_, ?_⟩
      · intro place
        rw [nodes place]
        exact .inr ⟨rfl, rfl⟩
      · rw [noHistory]
        intro _ _ _ _ _ wrong
        cases wrong
      · rw [noHistory]
        exact always_nil
    · rintro before ⟨place, move⟩ _ accounted ⟨⟨installs, rfl⟩, unforged⟩
      exact accounted_step symmetric keypairs accounted installs unforged
  exact accounted.origins

end Preservation

section Quiet

variable [DecidableEq Place]

def AirState.follow (state : AirState Place) (moves : List (Place × Move)) : AirState Place :=
  moves.foldl (fun current label => current.after sodium label.1 label.2) state

variable {sodium honest}

theorem follow_quiet (moves : List (Place × Move))
    (quiet : ∀ label ∈ moves, label.2.Installs honest ∧
      ∀ node opened, ¬ label.2.Decrypts sodium node opened) :
    ∀ state : AirState Place,
      Reachable (guarded (airSystem sodium honest) (Unforged sodium honest)) state →
      Reachable (guarded (airSystem sodium honest) (Unforged sodium honest))
        (state.follow sodium moves) := by
  induction moves with
  | nil => exact fun _ reached => reached
  | cons label later ih =>
      intro state reached
      obtain ⟨installs, nothing⟩ := quiet label List.mem_cons_self
      apply ih fun other member => quiet other (List.mem_cons_of_mem _ member)
      refine .next label reached ⟨⟨installs, rfl⟩, ?_⟩
      intro opened decrypts
      exact absurd decrypts (nothing _ opened)

theorem opens_unique {identity : BcIdentity} {msg : BcMessage} {first second : Sealed}
    (one : Opens sodium identity msg first) (two : Opens sodium identity msg second) :
    first = second := by
  have key : first.key = second.key := Option.some.inj (one.derived.symm.trans two.derived)
  obtain ⟨front, ciphertext⟩ := List.append_inj (one.payload.symm.trans two.payload)
    (by rw [List.Vector.toList_length, List.Vector.toList_length])
  have nonce : first.nonce = second.nonce := List.Vector.toList_injective front
  have plaintext : first.plaintext = second.plaintext := by
    have decrypted := one.decrypted
    rw [key, nonce, ciphertext] at decrypted
    exact Option.some.inj (decrypted.symm.trans two.decrypted)
  cases first
  cases second
  simp_all

end Quiet

end Attack

/-! ## Reflection -/

def honestPair (id : BcIdentity) : Prop := id = plainIdentity 1 ∨ id = plainIdentity 2

def startAir : AirState Bool := ⟨fun _ => zeroedState, [], []⟩

def sentAir : AirState Bool :=
  startAir.follow plainSodium <|
    (setupCalls 1).map (fun call => (false, .ffi call)) ++
      (setupCalls 2).map (fun call => (true, .ffi call)) ++
      [(false, .addPeer 1000 ⟨(plainIdentity 2).pubkey, 1000, .ble, 0⟩),
        (false, .ffi (.sendMessage firstSend (plainIdentity 2).pubkey [104, 105]))]

def madeFirst : Sealed where
  key := List.Vector.replicate 32 3
  nonce := firstSend.nonce
  plaintext := [104, 105]
  ciphertext := [104, 105] ++ plainTag (List.Vector.replicate 32 3) firstSend.nonce

def firstMessage : BcMessage :=
  sealedMessage sendingNode firstSend (plainIdentity 2).pubkey madeFirst.ciphertext

/-- The attacker turns the datagram round: sender and recipient change places,
and the uuid is a new one. -/
def reflectedMessage : BcMessage :=
  { firstMessage with
    uuid := List.Vector.replicate 16 8
    senderPubkey := (plainIdentity 2).pubkey
    receiverPubkey := (plainIdentity 1).pubkey }

def injection : FfiTickEnv :=
  withArrivals quietReceive [⟨.ok, wireBytes reflectedMessage, quietEnv 1000⟩]

def reflectedAir : AirState Bool :=
  sentAir.after plainSodium false (.ffi (.tick injection))

def polledAir : AirState Bool :=
  reflectedAir.after plainSodium false (.ffi (.pollMessages 2))

theorem setup_quiet (tag : UInt8) (isHonest : honestPair (plainIdentity tag)) :
    ∀ call ∈ setupCalls tag, (Move.ffi call).Installs honestPair ∧
      ∀ node opened, ¬ (Move.ffi call).Decrypts plainSodium node opened := by
  intro call member
  simp only [setupCalls, List.mem_cons, List.not_mem_nil, or_false] at member
  rcases member with rfl | rfl
  · exact ⟨trivial, fun _ _ => id⟩
  · refine ⟨?_, fun _ _ => id⟩
    intro id parsed
    rw [identity_round_trip] at parsed
    rw [← Option.some.inj parsed]
    exact isHonest

theorem sent_air_reachable :
    Reachable (guarded (airSystem plainSodium honestPair) (Unforged plainSodium honestPair))
      sentAir := by
  apply follow_quiet
  · intro label member
    simp only [List.mem_append, List.mem_map, List.mem_cons, List.not_mem_nil, or_false] at member
    rcases member with (⟨call, first, rfl⟩ | ⟨call, second, rfl⟩) | rfl | rfl
    · exact setup_quiet 1 (.inl rfl) call first
    · exact setup_quiet 2 (.inr rfl) call second
    · exact ⟨trivial, fun _ _ => id⟩
    · exact ⟨trivial, fun _ _ => id⟩
  · exact .start ⟨fun _ => rfl, rfl, rfl⟩

theorem sent_air_wire : sentAir.wire = [wireBytes firstMessage] := by
  decide +kernel

theorem reflected_air_history : reflectedAir.history =
    [.called false (plainIdentity 1) (plainIdentity 2).pubkey [104, 105] (some madeFirst)] := by
  decide +kernel

theorem polled_air_history : polledAir.history =
    [.called false (plainIdentity 1) (plainIdentity 2).pubkey [104, 105] (some madeFirst)] ++
      .yielded false (plainIdentity 1) (plainIdentity 2).pubkey [104, 105] :: [] := by
  decide +kernel

theorem reflected_air_opens :
    Opens plainSodium (plainIdentity 1) { reflectedMessage with ttl := 9 } madeFirst := by
  constructor <;> decide +kernel

theorem polled_air_reachable :
    Reachable (guarded (airSystem plainSodium honestPair) (Unforged plainSodium honestPair))
      polledAir := by
  have silent : (sentAir.node false).userCallback = false := by decide +kernel
  have reflected : Reachable
      (guarded (airSystem plainSodium honestPair) (Unforged plainSodium honestPair))
      reflectedAir := by
    refine .next (false, .ffi (.tick injection)) sent_air_reachable ⟨⟨trivial, rfl⟩, ?_⟩
    intro opened decrypts
    rw [decrypts.1] at silent
    cases silent
  refine .next (false, .ffi (.pollMessages 2)) reflected ⟨⟨trivial, rfl⟩, ?_⟩
  rintro opened ⟨-, -, msg, slot, -, opens⟩ other - -
  have identity : (reflectedAir.node false).identity = plainIdentity 1 := by decide +kernel
  have stored : (reflectedAir.node false).inbox (reflectedAir.node false).inboxTail =
      some { reflectedMessage with ttl := 9 } := by
    decide +kernel
  dsimp only at slot opens
  rw [stored] at slot
  rw [identity, ← Option.some.inj slot] at opens
  refine ⟨false, plainIdentity 1, (plainIdentity 2).pubkey, .inl identity.symm, ?_⟩
  rw [reflected_air_history, opens_unique opens reflected_air_opens]
  exact List.mem_singleton_self _

theorem reflected_from_one_of_the_two :
    Always (FromOneOfTheTwo plainSodium honestPair) polledAir.history := by
  refine yielded_from_one_of_the_two plain_sodium_laws.symmetric ?_ polled_air_reachable
  rintro id (rfl | rfl) <;> rfl

/-- The attacker has seen one datagram and injected one with the same payload;
the first node names the second one as the sender of its own plaintext. -/
theorem reflected_not_from_sender :
    Reachable (guarded (airSystem plainSodium honestPair) (Unforged plainSodium honestPair))
        polledAir ∧
      wireBytes firstMessage ∈ sentAir.wire ∧ reflectedMessage.payload = firstMessage.payload ∧
      ¬ Always (FromSender honestPair) polledAir.history := by
  refine ⟨polled_air_reachable, ?_, rfl, ?_⟩
  · rw [sent_air_wire]
    exact List.mem_singleton_self _
  · intro claimed
    obtain ⟨place, made, called⟩ :=
      claimed _ _ _ polled_air_history (plainIdentity 2) (.inr rfl) rfl
    have same := List.mem_singleton.mp called
    simp only [Happening.called.injEq] at same
    have wrong : plainIdentity 2 ≠ plainIdentity 1 := by decide
    exact wrong same.2.1

end BitChat.Authenticity
