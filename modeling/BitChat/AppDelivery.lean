import BitChat.ChatDatabase
import BitChat.JniBridge
import BitChat.PushAndPoll

/-!
# From the text field of one phone to the conversation of another

The conversation screen trims a text, the repository encodes it, the JNI
method passes the bytes on, the core encrypts them. On the other phone a tick
decrypts them for the callback, and the listener hands them to the repository,
which decodes them into a row of the conversation.
-/

namespace BitChat.AppDelivery

open BitChat.WireMessage BitChat.CryptoManager BitChat.PendingStorage BitChat.MeshRouter
open BitChat.FfiCore BitChat.FfiRuns BitChat.EndToEnd BitChat.Polling BitChat.PushAndPoll
open BitChat.KotlinText BitChat.KotlinUtf8 BitChat.ContactRepository BitChat.ChatDatabase
open BitChat.JniBridge TransitionSystem

set_option autoImplicit false

section Pushing

variable {sodium : Sodium}

theorem delivered_is_pushed {alloc : Nat → Nat → Bool} (memory : ∀ k, alloc k 2 = true)
    {msg : BcMessage} (events : List Event) (delivered : Event.deliver msg ∈ events) :
    ∀ (state : GState) (k : Nat), state.userCallback = true →
      ∀ push ∈ pushesFor sodium state.identity msg,
        push ∈ (deliverAll sodium alloc state k events).2 := by
  induction events with
  | nil => cases delivered
  | cons event rest ih =>
      intro state k registered push pushed
      cases event with
      | deliver first =>
          rcases List.mem_cons.mp delivered with here | later
          · cases here
            apply List.mem_append_left
            show push ∈ pushToUser sodium (alloc k) state msg
            rw [push_to_user_eq sodium (memory k) registered]
            exact pushed
          · have core := inbox_append_core (alloc k) state first
            apply List.mem_append_right
            apply ih later _ _ (core.userCallback.trans registered)
            show push ∈ pushesFor sodium (inboxAppend (alloc k) state first).identity msg
            rw [core.identity]
            exact pushed
      | send peer data rc =>
          rcases List.mem_cons.mp delivered with here | later
          · cases here
          · exact ih later state k registered push pushed
      | store stored rc =>
          rcases List.mem_cons.mp delivered with here | later
          · cases here
          · exact ih later state k registered push pushed

theorem tick_pushes {state : GState} {env : FfiTickEnv} (memory : ∀ k, env.alloc k 2 = true)
    (registered : state.userCallback = true) {msg : BcMessage}
    (delivered : Event.deliver msg ∈ (bitchatTick sodium state env).events) :
    ∀ push ∈ pushesFor sodium state.identity msg, push ∈ (bitchatTick sodium state env).pushes := by
  unfold bitchatTick at delivered ⊢
  split_ifs at delivered ⊢ with off
  · cases delivered
  · cases present : state.router with
    | none =>
        simp only [present] at delivered
        cases delivered
    | some router =>
        simp only [present] at delivered ⊢
        intro push pushed
        exact delivered_is_pushed memory _ delivered { state with
            router := some (bcRouterTick ⟨router, state.store⟩ env.tick).1.router
            store := (bcRouterTick ⟨router, state.store⟩ env.tick).1.store }
          0 registered push pushed

end Pushing

section Texts

variable {sodium : Sodium} {Operation : Type} [DecidableEq Operation]

/-- The turns put one more row into the conversation with the key. -/
def Shows (app : AppState Operation) (turns : List (Operation × Turn)) (key : Pubkey)
    (row : ChatMessageEntity) : Prop :=
  ∃ after, follow appMove app turns = some after ∧
    after.db.conversation key = app.db.conversation key ++ [row]

theorem inserted_row_shown {app : AppState Operation} {operation : Operation} {start : Start}
    {key : Pubkey} {stage next : OperationState} {row : ChatMessageEntity}
    (resting : app.task operation = .resting) (begun : start.task = .running key stage)
    (inserts : daoCall app.db key stage .insertChat = some (app.db.insertChat key row, next)) :
    Shows app [(operation, .start start), (operation, .dao .insertChat)] key row := by
  refine ⟨{ (app.goto operation start.task).goto operation (.running key next) with
    db := app.db.insertChat key row }, ?_, ?_⟩
  · have here : (app.goto operation start.task).task operation = .running key stage := by
      simp only [AppState.goto, Function.update_self, begun]
    have unmoved : (app.goto operation start.task).db = app.db := rfl
    simp only [follow, appMove, resting, turn, Option.bind_some, here, unmoved, inserts,
      Option.map_some]
  · exact (insert_chat_conversation app.db key key row).trans (if_pos rfl)

/-- The text that one user sends is the text that the other one gets. The
sender's own conversation shows the text without the white space around it,
the JNI method takes its bytes, and when a tick of the recipient delivers a
message with what the core made of them, the callback gets them back and the
row they become shows the same text, lone surrogates apart. -/
theorem sent_text_shown (laws : SodiumLaws sodium) {sender receiver : GState}
    (senderKey : sender.identity.pubkey = sodium.publicKey sender.identity.secretKey)
    (receiverKey : receiver.identity.pubkey = sodium.publicKey receiver.identity.secretKey)
    {content : KotlinString} (notBlank : isNotBlank content = true) {env : SendEnv}
    {payload : List UInt8}
    (accepted : sealFor sodium sender.identity env receiver.identity.pubkey
      (utf8 (trim content)) = .ok payload)
    (registered : receiver.userCallback = true) {tickEnv : FfiTickEnv}
    (memory : ∀ k, tickEnv.alloc k 2 = true) {msg : BcMessage}
    (delivered : Event.deliver msg ∈ (bitchatTick sodium receiver tickEnv).events)
    (author : msg.senderPubkey = sender.identity.pubkey) (carries : msg.payload = payload)
    (app : AppState Operation) {operation : Operation} (resting : app.task operation = .resting)
    (now : Int) :
    Shows app [(operation, .start (.sendMessage receiver.identity.pubkey content now)),
        (operation, .dao .insertChat)] receiver.identity.pubkey
      ⟨trim content, true, now, sentStatus⟩ ∧
    (Native.sendMessage env receiver.identity.pubkey (utf8 (trim content)) : Native Nat).enter =
      .coreLock (.sendMessage env receiver.identity.pubkey (utf8 (trim content))) ∧
    (∃ push ∈ (bitchatTick sodium receiver tickEnv).pushes, push.sender = sender.identity.pubkey ∧
      push.plaintext = utf8 (trim content) ∧
      Shows app [(operation, .start (.receiveMessage push.sender push.plaintext now)),
          (operation, .dao .insertChat)] sender.identity.pubkey
        ⟨sanitize (trim content), false, now, sentStatus⟩) ∧
    (WellFormed content → sanitize (trim content) = trim content) := by
  have someText := trim_ne_nil notBlank
  refine ⟨?_, ?_, ?_, fun formed => formed.trim⟩
  · have begun : (Start.sendMessage receiver.identity.pubkey content now).task =
        .running receiver.identity.pubkey (.sending now (trim content)) := if_pos notBlank
    exact inserted_row_shown resting begun rfl
  · have bytes : ¬ (utf8 (trim content)).length = 0 :=
      fun none => utf8_ne_nil someText (List.eq_nil_of_length_eq_zero none)
    rw [Native.enter, if_neg bytes]
  · obtain ⟨key, ciphertext, derived, encrypted, framed⟩ := seal_for_ok sodium accepted
    obtain ⟨long, opened⟩ := open_of_sealed laws encrypted (carries.trans framed)
    have agreed : sodium.boxBeforenm msg.senderPubkey receiver.identity.secretKey = some key := by
      rw [author, senderKey, laws.symmetric, ← receiverKey, derived]
    have isPush : pushesFor sodium receiver.identity msg =
        [⟨sender.identity.pubkey, utf8 (trim content)⟩] := by
      simp only [pushesFor, if_neg long, openMessage, bcCryptoDeriveShared, agreed, opened]
      rw [author]
    have pushed := tick_pushes memory registered delivered
      ⟨sender.identity.pubkey, utf8 (trim content)⟩ (by rw [isPush]; exact List.mem_singleton_self _)
    refine ⟨_, pushed, rfl, rfl, ?_⟩
    have begun : (Start.receiveMessage sender.identity.pubkey (utf8 (trim content)) now).task =
        .running sender.identity.pubkey (.receiving now (sanitize (trim content))) := by
      rw [Start.task, string_of_utf8]
    exact inserted_row_shown resting begun rfl

def listeningNode : GState := { loadedNode 2 with userCallback := true }

def hiEnv : SendEnv where
  nonce := List.Vector.replicate 24 0
  uuid := letter.uuid
  created := 5
  alloc := allocates
  call := quietEnv 5

theorem hi_text_shown :
    Shows installedApp
        [(true, .start (.sendMessage listeningNode.identity.pubkey
          [0x20, 0x68, 0x69, 0x0A] 7)), (true, .dao .insertChat)]
        listeningNode.identity.pubkey ⟨[0x68, 0x69], true, 7, sentStatus⟩ ∧
      ∃ push ∈ (bitchatTick plainSodium listeningNode letterTickEnv).pushes,
        push.sender = (loadedNode 1).identity.pubkey ∧ push.plaintext = [0x68, 0x69] := by
  have senderKey : (loadedNode 1).identity.pubkey =
      plainSodium.publicKey (loadedNode 1).identity.secretKey := by
    rw [loaded_identity]
    rfl
  have receiverKey : listeningNode.identity.pubkey =
      plainSodium.publicKey listeningNode.identity.secretKey := by
    rw [listeningNode, loaded_identity]
    rfl
  have accepted : sealFor plainSodium (loadedNode 1).identity hiEnv listeningNode.identity.pubkey
      (utf8 (trim [0x20, 0x68, 0x69, 0x0A])) = .ok letter.payload := by
    rw [listeningNode, loaded_identity, loaded_identity]
    decide +kernel
  have delivered : Event.deliver { letter with ttl := 8 } ∈
      (bitchatTick plainSodium listeningNode letterTickEnv).events := by
    decide +kernel
  have author : letter.senderPubkey = (loadedNode 1).identity.pubkey := by
    rw [loaded_identity]
    rfl
  obtain ⟨own, -, ⟨push, pushed, isSender, isText, -⟩, -⟩ :=
    sent_text_shown plain_sodium_laws senderKey receiverKey rfl accepted rfl (fun _ => rfl)
      delivered author rfl installedApp (show installedApp.task true = .resting from rfl) 7
  exact ⟨own, push, pushed, isSender, isText⟩

end Texts

end BitChat.AppDelivery
