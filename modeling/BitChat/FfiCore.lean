import BitChat.CryptoManager
import BitChat.NodeDiscovery
import BitChat.Library.RingBuffer

/-!
# The FFI core

Transcription of `bridge/bitchat_ffi.c`. Every public function runs under the
recursive mutex, so a call is one step of the global state. The router calls
`on_message_received` in the middle of a tick; since that function only
touches the inbox and the user callback, and the router touches neither, its
invocations are taken in order after the tick of the router.
-/

namespace BitChat.FfiCore

open BitChat.WireMessage BitChat.CryptoManager BitChat.PendingStorage BitChat.MeshRouter
open BitChat.NodeDiscovery

set_option autoImplicit false

def inboxSlots : Nat := 256

/-- `g_state` without the mutex, with the contents of the open database. -/
structure GState where
  initialized : Bool
  identity : BcIdentity
  transport : Option BcTransport
  storage : Option (BcStorage PendingMessages)
  store : PendingMessages
  router : Option (BcRouter PendingMessages)
  discovery : Option BcDiscovery
  inbox : Nat → Option BcMessage
  inboxHead : Nat
  inboxTail : Nat
  userCallback : Bool

structure Push where
  sender : Pubkey
  plaintext : List UInt8
deriving DecidableEq

structure Outcome where
  rc : Rc
  state : GState
  events : List Event
  pushes : List Push

/-- What `bitchat_init` learns from the outside: whether the mutex and
libsodium come up, the database behind the path and the transport. -/
structure InitEnv where
  mutex : Bool
  sodiumInit : Bool
  database : Option PendingMessages
  transport : Option BcTransport

structure SetupEnv where
  routerAlloc : Nat → Bool
  discoveryAlloc : Bool

/-- What `bitchat_send_message` learns from the outside: `alloc 0` is the
ciphertext buffer, the next two allocations are those of the message. -/
structure SendEnv where
  nonce : Nonce
  uuid : Uuid
  created : UInt64
  alloc : Nat → Bool
  call : CallEnv

/-- A tick, with the allocations of the k-th invocation of the callback: two
for the copy in the inbox and one for the plaintext. -/
structure FfiTickEnv where
  tick : TickEnv
  alloc : Nat → Nat → Bool

def bitchatInit (state : GState) (env : InitEnv) : Rc × GState :=
  if env.mutex = false then (.err, state)
  else if state.initialized then (.ok, state)
  else if env.sodiumInit = false then (.crypto, state)
  else
    match env.database with
    | none => (.storage, { state with storage := none })
    | some store =>
        (.ok, { state with
          storage := some sqliteStorage
          store := store
          transport := env.transport
          initialized := true })

/-- The end of `bitchat_generate_identity` and of `bitchat_load_identity`: a
new router and a new discovery manager for the identity in place. -/
def recreate (state : GState) (env : SetupEnv) : Rc × GState :=
  match bcRouterCreate env.routerAlloc state.transport state.storage state.identity.pubkey none with
  | none => (.nomem, { state with router := none })
  | some router =>
      (.ok, { state with
        router := some (bcRouterSetOnMessage router true)
        discovery := bcDiscoveryCreate env.discoveryAlloc state.transport })

/-- `keypair` is what `crypto_box_keypair` produces, `none` if it fails. -/
def bitchatGenerateIdentity (state : GState) (keypair : Option BcIdentity) (env : SetupEnv) :
    Rc × GState :=
  if state.initialized = false then (.err, state)
  else
    match keypair with
    | none => (.crypto, state)
    | some id => recreate { state with identity := id } env

def bitchatLoadIdentity (state : GState) (identityData : List UInt8) (env : SetupEnv) :
    Rc × GState :=
  if state.initialized = false then (.invalid, state)
  else
    match bcIdentityDeserialize identityData with
    | none => (.invalid, state)
    | some id => recreate { state with identity := id } env

def bitchatStartDiscovery (state : GState) (env : ScanEnv) : Rc × GState :=
  if state.initialized = false then (.err, state)
  else
    match state.discovery with
    | none => (.err, state)
    | some discovery =>
        let scan := bcDiscoveryScan discovery env
        (scan.1, { state with discovery := some scan.2.1 })

def bitchatSetOnMessageCallback (state : GState) (callback : Bool) : Rc × GState :=
  if state.initialized = false then (.err, state)
  else (.ok, { state with userCallback := callback })

/-- The inbox is drained by moving its tail to its head, which is reset. -/
def bitchatShutdown (state : GState) : GState :=
  if state.initialized = false then state
  else
    { state with
      initialized := false
      identity := bcIdentityWipe state.identity
      transport := none
      storage := none
      router := none
      discovery := none
      inboxHead := 0
      inboxTail := 0
      userCallback := false }

section Messages

variable (sodium : Sodium)

/-- Nonce and ciphertext of `bitchat_send_message`. -/
def sealFor (identity : BcIdentity) (env : SendEnv) (recipient : Pubkey)
    (plaintext : List UInt8) : Except Rc (List UInt8) :=
  match bcCryptoDeriveShared sodium identity.secretKey recipient with
  | .error rc => .error rc
  | .ok sharedKey =>
      if env.alloc 0 = false then .error .nomem
      else
        match bcCryptoEncrypt sodium plaintext sharedKey env.nonce with
        | .error rc => .error rc
        | .ok ciphertext => .ok (env.nonce.toList ++ ciphertext)

def bitchatSendMessage (state : GState) (env : SendEnv) (recipient : Pubkey)
    (plaintext : List UInt8) : Outcome :=
  if state.initialized = false then ⟨.invalid, state, [], []⟩
  else
    match state.router with
    | none => ⟨.invalid, state, [], []⟩
    | some router =>
        match sealFor sodium state.identity env recipient plaintext with
        | .error rc => ⟨rc, state, [], []⟩
        | .ok payload =>
            match bcMessageCreate (fun k => env.alloc (k + 1)) env.uuid env.created
                state.identity.pubkey recipient payload with
            | none => ⟨.nomem, state, [], []⟩
            | some msg =>
                let broadcast := bcRouterBroadcast ⟨router, state.store⟩ env.call msg
                { rc := broadcast.rc
                  state := { state with
                    router := some broadcast.node.router
                    store := broadcast.node.store }
                  events := broadcast.events
                  pushes := [] }

/-- Decryption of `nonce(24) || ciphertext+tag`. -/
def openWith (sharedKey : SharedKey) (payload : List UInt8) : Except Rc (List UInt8) :=
  bcCryptoDecrypt sodium (payload.drop bcNonceSize) sharedKey
    ((⟨payload, fun _ => 0⟩ : Memory).fixed 0 24)

/-- The first part of `on_message_received`. -/
def inboxAppend (alloc : Nat → Bool) (state : GState) (msg : BcMessage) : GState :=
  let next := (state.inboxHead + 1) % inboxSlots
  if next ≠ state.inboxTail then
    -- The uuid and the timestamp of the copy are overwritten right after.
    match bcMessageCreate alloc msg.uuid msg.timestamp msg.senderPubkey msg.receiverPubkey
        msg.payload with
    | none => state
    | some copy =>
        { state with
          inbox := Function.update state.inbox state.inboxHead
            (some { copy with uuid := msg.uuid, ttl := msg.ttl, timestamp := msg.timestamp })
          inboxHead := next }
  else state

/-- The second part: decrypt for the user callback, if there is one. -/
def pushToUser (alloc : Nat → Bool) (state : GState) (msg : BcMessage) : List Push :=
  if state.userCallback = false then []
  else if msg.payload.length < bcNonceSize + bcTagSize then []
  else
    match bcCryptoDeriveShared sodium state.identity.secretKey msg.senderPubkey with
    | .error _ => []
    | .ok sharedKey =>
        if alloc 2 = false then []
        else
          match openWith sodium sharedKey msg.payload with
          | .error _ => []
          | .ok plaintext => [⟨msg.senderPubkey, plaintext⟩]

def onMessageReceived (alloc : Nat → Bool) (state : GState) (msg : BcMessage) :
    GState × List Push :=
  (inboxAppend alloc state msg, pushToUser sodium alloc state msg)

/-- The invocations of the callback among the events of a tick, from the k-th
on. -/
def deliverAll (alloc : Nat → Nat → Bool) : GState → Nat → List Event → GState × List Push
  | state, _, [] => (state, [])
  | state, k, .deliver msg :: rest =>
      let received := onMessageReceived sodium (alloc k) state msg
      let later := deliverAll alloc received.1 (k + 1) rest
      (later.1, received.2 ++ later.2)
  | state, k, _ :: rest => deliverAll alloc state k rest

def bitchatTick (state : GState) (env : FfiTickEnv) : Outcome :=
  if state.initialized = false then ⟨.ok, state, [], []⟩
  else
    match state.router with
    | none => ⟨.ok, state, [], []⟩
    | some router =>
        let ticked := bcRouterTick ⟨router, state.store⟩ env.tick
        let delivered := deliverAll sodium env.alloc
          { state with router := some ticked.1.router, store := ticked.1.store } 0 ticked.2
        { rc := .ok, state := delivered.1, events := ticked.2, pushes := delivered.2 }

/-- The results of a poll: `sender` and `buf` as far as they are written. -/
structure PollResult where
  rc : Rc
  msgLen : Nat
  sender : Option Pubkey
  buf : List UInt8
deriving DecidableEq

def pollSlot (identity : BcIdentity) (slot : Option BcMessage) (bufLen : Nat) : PollResult :=
  match slot with
  | none => ⟨.ok, 0, none, []⟩
  | some msg =>
      if msg.payload.length < bcNonceSize + bcTagSize then ⟨.ok, 0, none, []⟩
      else
        match bcCryptoDeriveShared sodium identity.secretKey msg.senderPubkey with
        | .error rc => ⟨rc, 0, none, []⟩
        | .ok sharedKey =>
            let ptLen := msg.payload.length - bcNonceSize - bcTagSize
            if bufLen < ptLen then ⟨.bufferTooSmall, ptLen, none, []⟩
            else
              match openWith sodium sharedKey msg.payload with
              | .error rc => ⟨rc, 0, none, []⟩
              | .ok plaintext => ⟨.ok, ptLen, some msg.senderPubkey, plaintext⟩

def bitchatPollMessages (state : GState) (bufLen : Nat) : PollResult × GState :=
  if state.initialized = false then (⟨.invalid, 0, none, []⟩, state)
  else if state.inboxTail = state.inboxHead then (⟨.ok, 0, none, []⟩, state)
  else
    (pollSlot sodium state.identity (state.inbox state.inboxTail) bufLen,
      { state with inboxTail := (state.inboxTail + 1) % inboxSlots })

end Messages

end BitChat.FfiCore
