import BitChat.ContactRepository
import BitChat.DisplayName
import BitChat.KotlinUtf8
import BitChat.Library.KeyedTable
import Mathlib.Data.Finset.Max

/-!
# The app's database

The tables `contacts` and `chat_messages` with all their writers: the
conversation screen, the listener of the core, the two ways of adding a
contact and the deletion of one. Operations for any number of public keys
interleave between their DAO calls. Seen at one key, the database is the
model of a single contact. On top of it stands the chat list, which joins the
two tables.
-/

namespace BitChat.ChatDatabase

open BitChat.WireMessage BitChat.KotlinText BitChat.KotlinUtf8 BitChat.ContactRepository
open TransitionSystem

set_option autoImplicit false

structure ContactRow where
  pubKey : Pubkey
  columns : ContactEntity
deriving DecidableEq

structure ChatRow where
  id : Nat
  peerPubKey : Pubkey
  columns : ChatMessageEntity
deriving DecidableEq

/-- Both tables. SQLite generates ids that it has never used before. -/
structure Database where
  contacts : KeyedTable.Table ContactRow.pubKey
  messages : KeyedTable.Table ChatRow.id
  nextId : Nat
  fresh : ∀ row ∈ messages.rows, row.id < nextId

section Dao

def Database.getByPubKey (db : Database) (pubKey : Pubkey) : Option ContactRow :=
  KeyedTable.lookup db.contacts pubKey

def Database.upsert (db : Database) (contact : ContactRow) : Database :=
  { db with contacts := KeyedTable.insertOrReplace db.contacts contact }

/-- `@Delete` finds its row by the primary key. -/
def Database.delete (db : Database) (pubKey : Pubkey) : Database :=
  { db with
    contacts := KeyedTable.deleteWhere (fun row => decide (row.pubKey = pubKey)) db.contacts }

def touch (pubKey : Pubkey) (timestamp : Int) (row : ContactRow) : ContactRow :=
  if row.pubKey = pubKey then { row with columns.lastMessageAt := some timestamp } else row

theorem touch_pub_key (pubKey : Pubkey) (timestamp : Int) (row : ContactRow) :
    (touch pubKey timestamp row).pubKey = row.pubKey := by
  unfold touch
  split_ifs <;> rfl

def Database.updateLastMessageTime (db : Database) (pubKey : Pubkey) (timestamp : Int) :
    Database :=
  { db with
    contacts := KeyedTable.updateRows (touch pubKey timestamp) (touch_pub_key pubKey timestamp)
      db.contacts }

theorem next_id_unused (db : Database) : ¬ KeyedTable.hasKey db.messages db.nextId := by
  intro there
  obtain ⟨row, member, isId⟩ := List.mem_map.mp there
  exact Nat.lt_irrefl _ (isId ▸ db.fresh row member)

def Database.insertChat (db : Database) (peerPubKey : Pubkey) (columns : ChatMessageEntity) :
    Database :=
  { db with
    messages := KeyedTable.insertOrIgnore db.messages ⟨db.nextId, peerPubKey, columns⟩
    nextId := db.nextId + 1
    fresh := by
      intro row member
      rcases KeyedTable.mem_insert_or_ignore member with before | new
      · exact Nat.lt_succ_of_lt (db.fresh row before)
      · rw [new]
        exact Nat.lt_succ_self _ }

theorem insert_chat_rows (db : Database) (peerPubKey : Pubkey) (columns : ChatMessageEntity) :
    (db.insertChat peerPubKey columns).messages.rows =
      db.messages.rows ++ [⟨db.nextId, peerPubKey, columns⟩] :=
  KeyedTable.insert_new_rows (next_id_unused db)

/-- The rows of `getMessagesForPeer`, before they are ordered. -/
def Database.conversation (db : Database) (peerPubKey : Pubkey) : List ChatMessageEntity :=
  (db.messages.rows.filter fun row => decide (row.peerPubKey = peerPubKey)).map ChatRow.columns

end Dao

inductive Task where
  | resting
  | running (pubKey : Pubkey) (stage : OperationState)
  | findingContact (pubKey : Pubkey)
  | deletingContact (pubKey : Pubkey)
deriving DecidableEq

inductive Start where
  | receiveMessage (senderPubKey : Pubkey) (plaintext : List UInt8) (now : Int)
  | sendMessage (peerPubKey : Pubkey) (content : KotlinString) (now : Int)
  | addContact (pubKeyHex : KotlinString) (aliasName : Option KotlinString)
  | onQrCodeDetected (rawValue : KotlinString)
  | deleteContact (pubKey : Pubkey)

def typedKey (pubKeyHex : KotlinString) : Option Pubkey :=
  (PubKeyHex.addContact pubKeyHex).pmap (fun bytes size => ⟨bytes, size⟩)
    fun _ read => PubKeyHex.add_contact_length read

/-- The key that the scanner passes on from `parseQrContent` to
`addScannedContact`. -/
def scannedKey (rawValue : KotlinString) : Option Pubkey :=
  ((PubKeyHex.parseQrContent rawValue).bind PubKeyHex.fromHex).pmap
    (fun bytes size => ⟨bytes, size⟩) fun _ read => PubKeyHex.scanned_length read

def Start.task : Start → Task
  | .receiveMessage senderPubKey plaintext now =>
      .running senderPubKey (.receiving now (stringOf plaintext))
  | .sendMessage peerPubKey content now =>
      if isNotBlank content then .running peerPubKey (.sending now (trim content)) else .resting
  | .addContact pubKeyHex aliasName =>
      match typedKey pubKeyHex with
      | none => .resting
      | some pubKey => .running pubKey (.adding (aliasName.filter isNotBlank))
  | .onQrCodeDetected rawValue =>
      match scannedKey rawValue with
      | none => .resting
      | some pubKey => .running pubKey (.adding none)
  | .deleteContact pubKey => .findingContact pubKey

/-- One DAO call of `receiveMessage`, `sendMessage` or `addContact`. -/
def daoCall (db : Database) (pubKey : Pubkey) : OperationState → Access →
    Option (Database × OperationState)
  | .receiving now content, .insertChat =>
      some (db.insertChat pubKey ⟨content, false, now, sentStatus⟩, .received now)
  | .received now, .getByPubKey =>
      some (db, if db.getByPubKey pubKey = none then .unknownSender now else .updating now)
  | .unknownSender now, .upsertContact added =>
      some (db.upsert ⟨pubKey, ⟨none, added, none⟩⟩, .updating now)
  | .sending now content, .insertChat =>
      some (db.insertChat pubKey ⟨content, true, now, sentStatus⟩, .inserted now)
  | .inserted now, .coreSend rc => some (db, if rc ≠ 0 then .finished else .updating now)
  | .updating now, .updateTime => some (db.updateLastMessageTime pubKey now, .finished)
  | .adding aliasName, .upsertContact added =>
      some (db.upsert ⟨pubKey, ⟨aliasName, added, none⟩⟩, .finished)
  | _, _ => none

inductive DaoEffect (db : Database) (pubKey : Pubkey) :
    OperationState → Access → Database → OperationState → Prop
  | insertIncoming (now : Int) (content : KotlinString) :
      DaoEffect db pubKey (.receiving now content) .insertChat
        (db.insertChat pubKey ⟨content, false, now, sentStatus⟩) (.received now)
  | lookUp (now : Int) :
      DaoEffect db pubKey (.received now) .getByPubKey db
        (if db.getByPubKey pubKey = none then .unknownSender now else .updating now)
  | addSender (now added : Int) :
      DaoEffect db pubKey (.unknownSender now) (.upsertContact added)
        (db.upsert ⟨pubKey, ⟨none, added, none⟩⟩) (.updating now)
  | insertOutgoing (now : Int) (content : KotlinString) :
      DaoEffect db pubKey (.sending now content) .insertChat
        (db.insertChat pubKey ⟨content, true, now, sentStatus⟩) (.inserted now)
  | send (now rc : Int) :
      DaoEffect db pubKey (.inserted now) (.coreSend rc) db
        (if rc ≠ 0 then .finished else .updating now)
  | update (now : Int) :
      DaoEffect db pubKey (.updating now) .updateTime (db.updateLastMessageTime pubKey now) .finished
  | add (aliasName : Option KotlinString) (added : Int) :
      DaoEffect db pubKey (.adding aliasName) (.upsertContact added)
        (db.upsert ⟨pubKey, ⟨aliasName, added, none⟩⟩) .finished

theorem dao_call_effect {db after : Database} {pubKey : Pubkey} {stage next : OperationState}
    {act : Access} (called : daoCall db pubKey stage act = some (after, next)) :
    DaoEffect db pubKey stage act after next := by
  unfold daoCall at called
  split at called <;> cases called <;> constructor

inductive Turn where
  | start (start : Start)
  | dao (act : Access)
  | find
  | delete

section App

variable {Operation : Type} [DecidableEq Operation]

structure AppState (Operation : Type) where
  db : Database
  task : Operation → Task

def AppState.goto (app : AppState Operation) (operation : Operation) (task : Task) :
    AppState Operation :=
  { app with task := Function.update app.task operation task }

def turn (app : AppState Operation) (operation : Operation) : Task → Turn →
    Option (AppState Operation)
  | .resting, .start start => some (app.goto operation start.task)
  | .running pubKey stage, .dao act =>
      (daoCall app.db pubKey stage act).map fun result =>
        { app.goto operation (.running pubKey result.2) with db := result.1 }
  | .findingContact pubKey, .find =>
      some (app.goto operation
        (if app.db.getByPubKey pubKey = none then .resting else .deletingContact pubKey))
  | .deletingContact pubKey, .delete =>
      some { app.goto operation .resting with db := app.db.delete pubKey }
  | _, _ => none

def appSystem (Operation : Type) [DecidableEq Operation] :
    System (AppState Operation) (Operation × Turn) where
  initial app := ∀ operation, app.task operation = .resting
  step app label after := turn app label.1 (app.task label.1) label.2 = some after

theorem turn_cases {app after : AppState Operation} {operation : Operation} {act : Turn}
    (step : turn app operation (app.task operation) act = some after) :
    (∃ start, app.task operation = .resting ∧ act = .start start ∧
      after = app.goto operation start.task) ∨
    (∃ pubKey stage access db next, app.task operation = .running pubKey stage ∧
      act = .dao access ∧ daoCall app.db pubKey stage access = some (db, next) ∧
      after = { app.goto operation (.running pubKey next) with db := db }) ∨
    (∃ pubKey, app.task operation = .findingContact pubKey ∧ act = .find ∧
      after = app.goto operation
        (if app.db.getByPubKey pubKey = none then .resting else .deletingContact pubKey)) ∨
    (∃ pubKey, app.task operation = .deletingContact pubKey ∧ act = .delete ∧
      after = { app.goto operation .resting with db := app.db.delete pubKey }) := by
  cases here : app.task operation with
  | resting =>
      rw [here] at step
      cases act with
      | start start => exact .inl ⟨start, rfl, rfl, (Option.some.inj step).symm⟩
      | _ => cases step
  | running pubKey stage =>
      rw [here] at step
      cases act with
      | dao access =>
          obtain ⟨⟨db, next⟩, called, isAfter⟩ := Option.map_eq_some_iff.mp step
          exact .inr (.inl ⟨pubKey, stage, access, db, next, rfl, rfl, called, isAfter.symm⟩)
      | _ => cases step
  | findingContact pubKey =>
      rw [here] at step
      cases act with
      | find => exact .inr (.inr (.inl ⟨pubKey, rfl, rfl, (Option.some.inj step).symm⟩))
      | _ => cases step
  | deletingContact pubKey =>
      rw [here] at step
      cases act with
      | delete => exact .inr (.inr (.inr ⟨pubKey, rfl, rfl, (Option.some.inj step).symm⟩))
      | _ => cases step

end App

section Scenario

def appMove {Operation : Type} [DecidableEq Operation] (app : AppState Operation)
    (label : Operation × Turn) : Option (AppState Operation) :=
  turn app label.1 (app.task label.1) label.2

def installedApp : AppState Bool :=
  ⟨⟨KeyedTable.empty, KeyedTable.empty, 0, nofun⟩, fun _ => .resting⟩

def emptyApp : AppState (Fin 4) :=
  ⟨⟨KeyedTable.empty, KeyedTable.empty, 0, nofun⟩, fun _ => .resting⟩

def hiKey : Pubkey := List.Vector.replicate 32 7
def yoKey : Pubkey := List.Vector.replicate 32 9

/-- "hi" and "yo" come in at once from two senders that are not contacts yet. -/
def twoArrivals : List (Fin 4 × Turn) :=
  [(0, .start (.receiveMessage hiKey [0x68, 0x69] 5)),
    (1, .start (.receiveMessage yoKey [0x79, 0x6F] 8)), (0, .dao .insertChat),
    (1, .dao .insertChat), (0, .dao .getByPubKey), (1, .dao .getByPubKey),
    (1, .dao (.upsertContact 9)), (0, .dao (.upsertContact 10)), (1, .dao .updateTime),
    (0, .dao .updateTime)]

/-- A second message of the first sender has been stored, and its contact not
been touched yet. -/
def thirdArrival : List (Fin 4 × Turn) :=
  [(2, .start (.receiveMessage hiKey [0x6F, 0x6B] 12)), (2, .dao .insertChat)]

def metApp : AppState (Fin 4) := (follow appMove emptyApp twoArrivals).getD emptyApp

def laterApp : AppState (Fin 4) := (follow appMove metApp thirdArrival).getD metApp

def findingApp : AppState (Fin 4) :=
  (appMove laterApp (3, .start (.deleteContact yoKey))).getD laterApp

def deletingApp : AppState (Fin 4) := (appMove findingApp (3, .find)).getD findingApp

def deletedApp : AppState (Fin 4) := (appMove deletingApp (3, .delete)).getD deletingApp

theorem met_app_followed : follow appMove emptyApp twoArrivals = some metApp := rfl

theorem later_app_followed : follow appMove metApp thirdArrival = some laterApp := rfl

def hiContact : ContactRow := ⟨hiKey, ⟨none, 10, some 5⟩⟩
def yoContact : ContactRow := ⟨yoKey, ⟨none, 9, some 8⟩⟩

def yoRow : ChatRow := ⟨1, yoKey, ⟨[0x79, 0x6F], false, 8, sentStatus⟩⟩
def okRow : ChatRow := ⟨2, hiKey, ⟨[0x6F, 0x6B], false, 12, sentStatus⟩⟩

end Scenario

section View

variable {Operation : Type} [DecidableEq Operation]

def Task.stageFor (key : Pubkey) : Task → OperationState
  | .running pubKey stage => if pubKey = key then stage else .idle
  | _ => .idle

def AppState.view (app : AppState Operation) (key : Pubkey) : ContactState Operation where
  contact := (app.db.getByPubKey key).map ContactRow.columns
  chat := app.db.conversation key
  operation := fun operation => (app.task operation).stageFor key

theorem upsert_contact (db : Database) (contact : ContactRow) (key : Pubkey) :
    (db.upsert contact).getByPubKey key =
      if key = contact.pubKey then some contact else db.getByPubKey key :=
  KeyedTable.lookup_insert_or_replace db.contacts contact key

theorem delete_contact (db : Database) (pubKey key : Pubkey) :
    (db.delete pubKey).getByPubKey key = if key = pubKey then none else db.getByPubKey key :=
  KeyedTable.lookup_delete_key db.contacts pubKey key

theorem update_time_contact (db : Database) (pubKey key : Pubkey) (timestamp : Int) :
    (db.updateLastMessageTime pubKey timestamp).getByPubKey key =
      (db.getByPubKey key).map (touch pubKey timestamp) :=
  KeyedTable.lookup_update_rows (touch_pub_key pubKey timestamp) db.contacts key

theorem insert_chat_conversation (db : Database) (peerPubKey key : Pubkey)
    (columns : ChatMessageEntity) :
    (db.insertChat peerPubKey columns).conversation key =
      if peerPubKey = key then db.conversation key ++ [columns] else db.conversation key := by
  unfold Database.conversation
  rw [insert_chat_rows, List.filter_append]
  split_ifs with same
  · rw [List.filter_cons_of_pos (by simpa using same), List.map_append]
    rfl
  · rw [List.filter_cons_of_neg (by simpa using same), List.filter_nil, List.append_nil]

theorem update_time_columns (db : Database) (key : Pubkey) (timestamp : Int) :
    ((db.updateLastMessageTime key timestamp).getByPubKey key).map ContactRow.columns =
      updateLastMessageTime ((db.getByPubKey key).map ContactRow.columns) timestamp := by
  rw [update_time_contact]
  cases found : db.getByPubKey key with
  | none => rfl
  | some row =>
      have isKey := (KeyedTable.lookup_eq_some_iff.mp found).2
      simp only [Option.map_some, touch, if_pos isKey]
      rfl

theorem dao_call_elsewhere {db after : Database} {pubKey key : Pubkey}
    {stage next : OperationState} {act : Access}
    (called : daoCall db pubKey stage act = some (after, next)) (other : key ≠ pubKey) :
    after.getByPubKey key = db.getByPubKey key ∧ after.conversation key = db.conversation key := by
  have elsewhere : ¬ pubKey = key := fun same => other same.symm
  cases dao_call_effect called with
  | insertIncoming | insertOutgoing =>
      exact ⟨rfl, by rw [insert_chat_conversation, if_neg elsewhere]⟩
  | lookUp | send => exact ⟨rfl, rfl⟩
  | addSender | add => exact ⟨by rw [upsert_contact, if_neg other], rfl⟩
  | update now =>
      refine ⟨?_, rfl⟩
      rw [update_time_contact]
      cases found : db.getByPubKey key with
      | none => rfl
      | some row =>
          have isKey := (KeyedTable.lookup_eq_some_iff.mp found).2
          have notTouched : ¬ row.pubKey = pubKey := fun same => other (isKey.symm.trans same)
          rw [Option.map_some, touch, if_neg notTouched]

theorem dao_call_here {state : ContactState Operation} {operation : Operation}
    {db after : Database} {key : Pubkey} {stage next : OperationState} {act : Access}
    (contact : state.contact = (db.getByPubKey key).map ContactRow.columns)
    (chat : state.chat = db.conversation key)
    (called : daoCall db key stage act = some (after, next)) :
    access state operation stage act = some { state.goto operation next with
      contact := (after.getByPubKey key).map ContactRow.columns
      chat := after.conversation key } := by
  have unchanged : ∀ reached, state.goto operation reached = { state.goto operation reached with
      contact := (db.getByPubKey key).map ContactRow.columns
      chat := db.conversation key } := by
    intro reached
    rw [← contact, ← chat]
    rfl
  cases dao_call_effect called with
  | insertIncoming | insertOutgoing =>
      simp only [access, insert_chat_conversation, if_true, chat]
      rw [unchanged]
      rfl
  | lookUp now =>
      simp only [access, contact, Option.map_eq_none_iff]
      rw [← unchanged]
  | send now rc =>
      simp only [access]
      rw [← unchanged]
  | addSender | add =>
      simp only [access, addContact, ContactRepository.upsert, upsert_contact, if_true]
      rw [unchanged]
      rfl
  | update now =>
      simp only [access, update_time_columns, contact]
      rw [unchanged]
      rfl

theorem start_views (start : Start) (key : Pubkey) (state : ContactState Operation)
    (operation : Operation) :
    start.task.stageFor key = .idle ∨
      ∃ act, access state operation .idle act =
        some (state.goto operation (start.task.stageFor key)) := by
  by_cases idle : start.task.stageFor key = .idle
  · exact .inl idle
  · apply Or.inr
    cases start with
    | receiveMessage senderPubKey plaintext now =>
        simp only [Start.task, Task.stageFor] at idle ⊢
        split_ifs at idle ⊢
        · exact ⟨.receiveMessage now (stringOf plaintext), rfl⟩
        · exact absurd rfl idle
    | sendMessage peerPubKey content now =>
        simp only [Start.task] at idle ⊢
        split_ifs at idle ⊢
        · simp only [Task.stageFor] at idle ⊢
          split_ifs at idle ⊢
          · exact ⟨.sendMessage now (trim content), rfl⟩
          · exact absurd rfl idle
        · exact absurd rfl idle
    | addContact pubKeyHex aliasName =>
        simp only [Start.task] at idle ⊢
        cases parsed : typedKey pubKeyHex with
        | none =>
            simp only [parsed] at idle
            exact absurd rfl idle
        | some pubKey =>
            simp only [parsed, Task.stageFor] at idle ⊢
            split_ifs at idle ⊢
            · exact ⟨.contactsAddContact aliasName, rfl⟩
            · exact absurd rfl idle
    | onQrCodeDetected rawValue =>
        simp only [Start.task] at idle ⊢
        cases parsed : scannedKey rawValue with
        | none =>
            simp only [parsed] at idle
            exact absurd rfl idle
        | some pubKey =>
            simp only [parsed, Task.stageFor] at idle ⊢
            split_ifs at idle ⊢
            · exact ⟨.addScannedContact, rfl⟩
            · exact absurd rfl idle
    | deleteContact pubKey => exact absurd rfl idle

theorem view_goto (app : AppState Operation) (operation : Operation) (task : Task) (db : Database)
    (key : Pubkey) :
    AppState.view { app.goto operation task with db := db } key =
      { (app.view key).goto operation (task.stageFor key) with
        contact := (db.getByPubKey key).map ContactRow.columns
        chat := db.conversation key } := by
  unfold AppState.view AppState.goto ContactState.goto
  congr 1
  funext other
  by_cases self : other = operation
  · simp [self]
  · simp [self]

theorem goto_same (state : ContactState Operation) (operation : Operation) :
    state.goto operation (state.operation operation) = state := by
  simp [ContactState.goto]

theorem view_unmoved {app : AppState Operation} {operation : Operation} {task : Task}
    {db : Database} {key : Pubkey}
    (contact : db.getByPubKey key = app.db.getByPubKey key)
    (chat : db.conversation key = app.db.conversation key)
    (stage : task.stageFor key = (app.task operation).stageFor key) :
    AppState.view { app.goto operation task with db := db } key = app.view key := by
  rw [view_goto, contact, chat, stage]
  exact goto_same (app.view key) operation

def Task.pubKey : Task → Option Pubkey
  | .resting => none
  | .running pubKey _ => some pubKey
  | .findingContact pubKey => some pubKey
  | .deletingContact pubKey => some pubKey

def Turn.pubKey (task : Task) : Turn → Option Pubkey
  | .start begun => begun.task.pubKey
  | _ => task.pubKey

theorem stage_elsewhere {task : Task} {key : Pubkey} (elsewhere : task.pubKey ≠ some key) :
    task.stageFor key = .idle := by
  cases task with
  | running pubKey stage => exact if_neg fun same => elsewhere (congrArg some same)
  | _ => rfl

theorem view_elsewhere {app after : AppState Operation} {label : Operation × Turn} {key : Pubkey}
    (step : (appSystem Operation).step app label after)
    (elsewhere : label.2.pubKey (app.task label.1) ≠ some key) :
    after.view key = app.view key := by
  obtain ⟨operation, act⟩ := label
  rcases turn_cases step with ⟨start, resting, rfl, rfl⟩ |
    ⟨pubKey, stage, act, db, next, running, rfl, called, rfl⟩ |
    ⟨pubKey, finding, rfl, rfl⟩ | ⟨pubKey, deleting, rfl, rfl⟩
  · apply view_unmoved rfl rfl
    rw [stage_elsewhere elsewhere, resting]
    rfl
  · have other : key ≠ pubKey := by
      rintro rfl
      exact elsewhere (congrArg Task.pubKey running)
    obtain ⟨contact, chat⟩ := dao_call_elsewhere called other
    apply view_unmoved contact chat
    rw [running]
    simp only [Task.stageFor, if_neg other.symm]
  · apply view_unmoved rfl rfl
    rw [finding]
    split_ifs <;> rfl
  · have other : key ≠ pubKey := by
      rintro rfl
      exact elsewhere (congrArg Task.pubKey deleting)
    apply view_unmoved
    · rw [delete_contact, if_neg other]
    · rfl
    · rw [deleting]
      rfl

def KeepsContact (key : Pubkey) (app : AppState Operation) (label : Operation × Turn) : Prop :=
  app.task label.1 = .deletingContact key → label.2 ≠ .delete

/-- One turn of the app is, for each key, an access of the model of a contact
or nothing. -/
theorem view_step {app after : AppState Operation} {label : Operation × Turn} (key : Pubkey)
    (step : (guarded (appSystem Operation) (KeepsContact key)).step app label after) :
    after.view key = app.view key ∨
      ∃ act, (contactSystem Operation).step (app.view key) (label.1, act) (after.view key) := by
  obtain ⟨operation, act⟩ := label
  obtain ⟨moved, keeps⟩ := step
  rcases turn_cases moved with ⟨start, resting, rfl, rfl⟩ |
    ⟨pubKey, stage, act, db, next, running, rfl, called, rfl⟩ |
    ⟨pubKey, finding, rfl, rfl⟩ | ⟨pubKey, deleting, rfl, rfl⟩
  · have here : (app.view key).operation operation = .idle := by
      show (app.task operation).stageFor key = .idle
      rw [resting]
      rfl
    rcases start_views start key (app.view key) operation with idle | ⟨act, started⟩
    · exact .inl (view_unmoved rfl rfl (idle.trans here.symm))
    · refine .inr ⟨act, ?_⟩
      rw [← here] at started
      exact started.trans (congrArg some (view_goto app operation start.task app.db key).symm)
  · by_cases same : pubKey = key
    · subst same
      have here : (app.view pubKey).operation operation = stage := by
        show (app.task operation).stageFor pubKey = stage
        rw [running]
        exact if_pos rfl
      have there : (Task.running pubKey next).stageFor pubKey = next := if_pos rfl
      refine .inr ⟨act, ?_⟩
      show access (app.view pubKey) operation ((app.view pubKey).operation operation) act = _
      rw [here, view_goto, there]
      exact dao_call_here rfl rfl called
    · obtain ⟨contact, chat⟩ := dao_call_elsewhere called fun isKey => same isKey.symm
      apply Or.inl
      apply view_unmoved contact chat
      rw [running]
      simp only [Task.stageFor, if_neg same]
  · apply Or.inl
    apply view_unmoved rfl rfl
    rw [finding]
    split_ifs <;> rfl
  · have other : pubKey ≠ key := by
      rintro rfl
      exact keeps deleting rfl
    apply Or.inl
    apply view_unmoved
    · rw [delete_contact, if_neg fun isKey => other isKey.symm]
    · rfl
    · rw [deleting]
      rfl

/-- Seen at any one key, a run of the whole app from any state to any later
one, in which that contact is not deleted, is a run of the model of a single
contact between the two views, with one access or none for each turn; and
turns for other keys, deletions included, cannot be seen. -/
theorem app_refines_contact (key : Pubkey) :
    (∀ app : AppState Operation, (appSystem Operation).initial app →
      (contactSystem Operation).initial (app.view key)) ∧
    (∀ app later : AppState Operation,
      Leads (guarded (appSystem Operation) (KeepsContact key)) app later →
        Leads (contactSystem Operation) (app.view key) (later.view key)) ∧
    (∀ (app after : AppState Operation) (label : Operation × Turn),
      (guarded (appSystem Operation) (KeepsContact key)).step app label after →
        after.view key = app.view key ∨ ∃ act,
          (contactSystem Operation).step (app.view key) (label.1, act) (after.view key)) ∧
    ∀ (app after : AppState Operation) (label : Operation × Turn),
      (appSystem Operation).step app label after →
        label.2.pubKey (app.task label.1) ≠ some key → after.view key = app.view key := by
  refine ⟨?_, ?_, fun _ _ _ => view_step key, fun _ _ _ => view_elsewhere⟩
  · intro app initial operation
    show (app.task operation).stageFor key = .idle
    rw [initial operation]
    rfl
  · intro app later leads
    induction leads with
    | stay => exact .stay
    | next label _ step ih =>
        rcases view_step key step with same | ⟨act, moved⟩
        · rw [same]
          exact ih
        · exact .next (label.1, act) ih moved

/-- Both messages and the second of the first sender, seen at the first
sender's key; then the contact of the other one is deleted. -/
theorem later_app_refines :
    Leads (contactSystem (Fin 4)) (emptyApp.view hiKey) (laterApp.view hiKey) ∧
      (laterApp.view hiKey).contact = some hiContact.columns ∧
      deletingApp.db.getByPubKey yoKey = some yoContact ∧
      deletedApp.db.getByPubKey yoKey = none ∧
      deletedApp.view hiKey = laterApp.view hiKey := by
  obtain ⟨-, refines, -, elsewhere⟩ := @app_refines_contact (Fin 4) _ hiKey
  have arrivals : Leads (guarded (appSystem (Fin 4)) (KeepsContact hiKey)) emptyApp metApp := by
    refine follow_leads twoArrivals ?_ .stay met_app_followed
    intro label member app after moved
    refine ⟨moved, fun _ deletes => ?_⟩
    simp only [twoArrivals, List.mem_cons, List.not_mem_nil, or_false] at member
    rcases member with rfl | rfl | rfl | rfl | rfl | rfl | rfl | rfl | rfl | rfl <;> cases deletes
  have third : Leads (guarded (appSystem (Fin 4)) (KeepsContact hiKey)) emptyApp laterApp := by
    refine follow_leads thirdArrival ?_ arrivals later_app_followed
    intro label member app after moved
    refine ⟨moved, fun _ deletes => ?_⟩
    simp only [thirdArrival, List.mem_cons, List.not_mem_nil, or_false] at member
    rcases member with rfl | rfl <;> cases deletes
  have finding := elsewhere laterApp findingApp (3, .start (.deleteContact yoKey)) rfl (by decide)
  have deleting := elsewhere findingApp deletingApp (3, .find) rfl (by decide)
  have deleted := elsewhere deletingApp deletedApp (3, .delete) rfl (by decide)
  exact ⟨refines _ _ third, rfl, rfl, rfl, deleted.trans (deleting.trans finding)⟩

end View

section Times

variable {Operation : Type} [DecidableEq Operation]

def installedSystem (Operation : Type) [DecidableEq Operation] :
    System (AppState Operation) (Operation × Turn) where
  initial app := app.db = ⟨KeyedTable.empty, KeyedTable.empty, 0, nofun⟩ ∧
    ∀ operation, app.task operation = .resting
  step := (appSystem Operation).step

def pendingTime : OperationState → Option Int
  | .received now => some now
  | .unknownSender now => some now
  | .inserted now => some now
  | .updating now => some now
  | _ => none

def Database.HasMessageAt (db : Database) (key : Pubkey) (time : Int) : Prop :=
  ∃ msg ∈ db.conversation key, msg.timestamp = time

/-- The times in the contacts, and those about to be written there, are times
of messages. -/
structure Dated (app : AppState Operation) : Prop where
  contacts : ∀ key row time, app.db.getByPubKey key = some row →
    row.columns.lastMessageAt = some time → app.db.HasMessageAt key time
  tasks : ∀ operation key stage time, app.task operation = .running key stage →
    pendingTime stage = some time → app.db.HasMessageAt key time

theorem dao_call_keeps_messages {db after : Database} {pubKey : Pubkey}
    {stage next : OperationState} {act : Access}
    (called : daoCall db pubKey stage act = some (after, next)) (key : Pubkey) :
    ∀ msg ∈ db.conversation key, msg ∈ after.conversation key := by
  intro msg member
  cases dao_call_effect called with
  | insertIncoming | insertOutgoing =>
      rw [insert_chat_conversation]
      split_ifs
      · exact List.mem_append_left _ member
      · exact member
  | _ => exact member

theorem insert_chat_has_message (db : Database) (key : Pubkey) (columns : ChatMessageEntity) :
    (db.insertChat key columns).HasMessageAt key columns.timestamp := by
  refine ⟨columns, ?_, rfl⟩
  rw [insert_chat_conversation, if_pos rfl]
  exact List.mem_append_right _ (List.mem_singleton_self _)

theorem upsert_undated {db : Database} {contact row : ContactRow} {key : Pubkey} {time : Int}
    (undated : contact.columns.lastMessageAt = none)
    (found : (db.upsert contact).getByPubKey key = some row)
    (times : row.columns.lastMessageAt = some time) : db.getByPubKey key = some row := by
  rw [upsert_contact] at found
  split_ifs at found with same
  · cases found
    rw [undated] at times
    cases times
  · exact found

theorem dao_call_times {db after : Database} {pubKey : Pubkey} {stage next : OperationState}
    {act : Access} (called : daoCall db pubKey stage act = some (after, next)) :
    (∀ key row time, after.getByPubKey key = some row → row.columns.lastMessageAt = some time →
      db.getByPubKey key = some row ∨ key = pubKey ∧ pendingTime stage = some time) ∧
    (∀ time, pendingTime next = some time →
      pendingTime stage = some time ∨ after.HasMessageAt pubKey time) := by
  cases dao_call_effect called with
  | insertIncoming now content | insertOutgoing now content =>
      refine ⟨fun _ _ _ found _ => .inl found, ?_⟩
      intro time pending
      cases pending
      exact .inr (insert_chat_has_message db pubKey _)
  | lookUp now =>
      refine ⟨fun _ _ _ found _ => .inl found, ?_⟩
      intro time pending
      split_ifs at pending <;> exact .inl pending
  | send now rc =>
      refine ⟨fun _ _ _ found _ => .inl found, ?_⟩
      intro time pending
      split_ifs at pending
      · cases pending
      · exact .inl pending
  | addSender now added =>
      exact ⟨fun _ _ _ found times => .inl (upsert_undated rfl found times),
        fun time pending => .inl pending⟩
  | add aliasName added =>
      refine ⟨fun _ _ _ found times => .inl (upsert_undated rfl found times), ?_⟩
      intro time pending
      cases pending
  | update now =>
      constructor
      · intro key row time found times
        rw [update_time_contact] at found
        obtain ⟨before, there, touched⟩ := Option.map_eq_some_iff.mp found
        rw [← touched, touch] at times ⊢
        split_ifs at times ⊢ with same
        · have isKey := (KeyedTable.lookup_eq_some_iff.mp there).2
          exact .inr ⟨isKey.symm.trans same, times⟩
        · exact .inl there
      · intro time pending
        cases pending

theorem Database.HasMessageAt.later {db after : Database} {key : Pubkey} {time : Int}
    (written : db.HasMessageAt key time)
    (kept : ∀ msg ∈ db.conversation key, msg ∈ after.conversation key) :
    after.HasMessageAt key time := by
  obtain ⟨msg, member, isTime⟩ := written
  exact ⟨msg, kept msg member, isTime⟩

theorem start_undated (start : Start) {key : Pubkey} {stage : OperationState}
    (begun : start.task = .running key stage) : pendingTime stage = none := by
  cases start with
  | receiveMessage senderPubKey plaintext now =>
      cases begun
      rfl
  | sendMessage peerPubKey content now =>
      simp only [Start.task] at begun
      split_ifs at begun
      cases begun
      rfl
  | addContact pubKeyHex aliasName =>
      simp only [Start.task] at begun
      split at begun <;> cases begun
      rfl
  | onQrCodeDetected rawValue =>
      simp only [Start.task] at begun
      split at begun <;> cases begun
      rfl
  | deleteContact pubKey => cases begun

theorem task_after {app : AppState Operation} {operation other : Operation} {task found : Task}
    (there : (app.goto operation task).task other = found) :
    other = operation ∧ found = task ∨ app.task other = found := by
  by_cases self : other = operation
  · subst self
    simp only [AppState.goto, Function.update_self] at there
    exact .inl ⟨rfl, there.symm⟩
  · simp only [AppState.goto, Function.update_of_ne self] at there
    exact .inr there

theorem dated_step {app after : AppState Operation} {operation : Operation} {act : Turn}
    (dated : Dated app) (step : turn app operation (app.task operation) act = some after) :
    Dated after := by
  rcases turn_cases step with ⟨start, resting, rfl, rfl⟩ |
    ⟨pubKey, stage, act, db, next, running, rfl, called, rfl⟩ |
    ⟨pubKey, finding, rfl, rfl⟩ | ⟨pubKey, deleting, rfl, rfl⟩
  · refine ⟨dated.contacts, ?_⟩
    intro other key stage time there pending
    rcases task_after there with ⟨-, begun⟩ | before
    · rw [start_undated start begun.symm] at pending
      cases pending
    · exact dated.tasks other key stage time before pending
  · obtain ⟨contactTimes, nextTimes⟩ := dao_call_times called
    have kept := dao_call_keeps_messages called
    have mine : ∀ time, pendingTime stage = some time → db.HasMessageAt pubKey time :=
      fun time pending =>
        (dated.tasks operation pubKey stage time running pending).later (kept pubKey)
    constructor
    · intro key row time found times
      rcases contactTimes key row time found times with before | ⟨rfl, pending⟩
      · exact (dated.contacts key row time before times).later (kept key)
      · exact mine time pending
    · intro other key stage time there pending
      rcases task_after there with ⟨-, now⟩ | before
      · cases now
        rcases nextTimes time pending with still | written
        · exact mine time still
        · exact written
      · exact (dated.tasks other key stage time before pending).later (kept key)
  · refine ⟨dated.contacts, ?_⟩
    intro other key stage time there pending
    rcases task_after there with ⟨-, now⟩ | before
    · split_ifs at now
    · exact dated.tasks other key stage time before pending
  · constructor
    · intro key row time found times
      rw [delete_contact] at found
      split_ifs at found
      exact dated.contacts key row time found times
    · intro other key stage time there pending
      rcases task_after there with ⟨-, now⟩ | before
      · cases now
      · exact dated.tasks other key stage time before pending

theorem dated_of_reachable {app : AppState Operation}
    (reached : Reachable (installedSystem Operation) app) : Dated app := by
  refine Reachable.invariant Dated ?_ ?_ reached
  · rintro app ⟨empty, resting⟩
    constructor
    · intro key row time found
      rw [empty] at found
      cases found
    · intro operation key stage time running
      rw [resting operation] at running
      cases running
  · intro app label after dated step
    exact dated_step dated step

theorem leads_keeps_messages {app later : AppState Operation}
    (run : Leads (appSystem Operation) app later) (key : Pubkey) :
    ∀ msg ∈ app.db.conversation key, msg ∈ later.db.conversation key := by
  refine Leads.relation
    (fun first second : AppState Operation =>
      ∀ msg ∈ first.db.conversation key, msg ∈ second.db.conversation key)
    (fun _ _ member => member) (fun _ _ _ first second msg member => second msg (first msg member))
    ?_ run
  intro app label after step
  rcases turn_cases step with ⟨start, -, -, rfl⟩ |
    ⟨pubKey, stage, act, db, next, -, -, called, rfl⟩ | ⟨pubKey, -, -, rfl⟩ | ⟨pubKey, -, -, rfl⟩
  · exact fun msg member => member
  · exact dao_call_keeps_messages called key
  · exact fun msg member => member
  · exact fun msg member => member

end Times

section ChatList

variable {Operation : Type} [DecidableEq Operation]

/-- A contact as the screens get it, without the colour of its avatar. -/
structure Contact where
  pubKey : Pubkey
  displayName : KotlinString
  addedAt : Int
  lastMessageAt : Option Int

def ContactRow.toDomain (row : ContactRow) : Contact where
  pubKey := row.pubKey
  displayName := row.columns.displayName.getD (DisplayName.generateDisplayName row.pubKey)
  addedAt := row.columns.addedAt
  lastMessageAt := row.columns.lastMessageAt

structure ChatPreview where
  contact : Contact
  lastMessage : Option KotlinString
  lastMessageAt : Option Int

def ChatPreview.shownAt (preview : ChatPreview) : Int :=
  preview.lastMessageAt.getD preview.contact.addedAt

/-- `Iterable.associateBy`: of the values with one key the last stays. -/
def associateBy {Key Value : Type} [DecidableEq Key] (keyOf : Value → Key) (values : List Value) :
    Key → Option Value :=
  values.foldl (fun map value => Function.update map (keyOf value) (some value)) fun _ => none

def previewOf (messageMap : KotlinString → Option ChatRow) (contact : Contact) : ChatPreview :=
  let latest := messageMap (PubKeyHex.toHex contact.pubKey.toList)
  { contact := contact
    lastMessage := latest.map fun row => row.columns.content
    lastMessageAt := latest.map fun row => row.columns.timestamp }

/-- `ChatListViewModel.chatPreviews` from the results of the two queries. -/
def chatPreviews (contacts : List Contact) (latestMessages : List ChatRow) : List ChatPreview :=
  let messageMap := associateBy (fun row => PubKeyHex.toHex row.peerPubKey.toList) latestMessages
  (contacts.map (previewOf messageMap)).mergeSort
    fun first second => decide (second.shownAt ≤ first.shownAt)

/-- A result of `getAllContacts`, latest message first and nulls last. -/
def AllContacts (db : Database) (result : List ContactRow) : Prop :=
  result.Perm db.contacts.rows ∧
    result.Pairwise fun first second => ∀ time, second.columns.lastMessageAt = some time →
      ∃ earlier, first.columns.lastMessageAt = some earlier ∧ time ≤ earlier

def isLatest (rows : List ChatRow) (row : ChatRow) : Bool :=
  rows.all fun other =>
    decide (other.peerPubKey = row.peerPubKey → other.columns.timestamp ≤ row.columns.timestamp)

/-- A result of `getLatestMessagePerPeer`: the join keeps all rows with the
latest time of their group. -/
def LatestPerPeer (db : Database) (result : List ChatRow) : Prop :=
  result.Perm (db.messages.rows.filter (isLatest db.messages.rows)) ∧
    result.Pairwise fun first second => second.columns.timestamp ≤ first.columns.timestamp

theorem associate_by_spec {Key Value : Type} [DecidableEq Key] (keyOf : Value → Key)
    (values : List Value) (key : Key) :
    (∀ value, associateBy keyOf values key = some value → value ∈ values ∧ keyOf value = key) ∧
      (associateBy keyOf values key = none → ∀ value ∈ values, keyOf value ≠ key) := by
  induction values using List.reverseRecOn with
  | nil => exact ⟨nofun, fun _ value member => absurd member List.not_mem_nil⟩
  | append_singleton values last ih =>
      have grown : associateBy keyOf (values ++ [last]) =
          Function.update (associateBy keyOf values) (keyOf last) (some last) := by
        simp [associateBy]
      rw [grown]
      by_cases same : key = keyOf last
      · rw [same, Function.update_self]
        refine ⟨?_, nofun⟩
        rintro value isLast
        cases isLast
        exact ⟨List.mem_append_right _ (List.mem_singleton_self last), rfl⟩
      · rw [Function.update_of_ne same]
        refine ⟨fun value found => ⟨List.mem_append_left _ (ih.1 value found).1,
          (ih.1 value found).2⟩, ?_⟩
        intro missing value member
        rcases List.mem_append.mp member with before | isLast
        · exact ih.2 missing value before
        · rw [List.mem_singleton.mp isLast]
          exact fun isKey => same isKey.symm

theorem mem_conversation {db : Database} {key : Pubkey} {msg : ChatMessageEntity} :
    msg ∈ db.conversation key ↔
      ∃ row ∈ db.messages.rows, row.peerPubKey = key ∧ row.columns = msg := by
  simp [Database.conversation, and_assoc]

theorem is_latest_iff {rows : List ChatRow} {row : ChatRow} :
    isLatest rows row = true ↔ ∀ other ∈ rows, other.peerPubKey = row.peerPubKey →
      other.columns.timestamp ≤ row.columns.timestamp := by
  simp only [isLatest, List.all_eq_true, decide_eq_true_eq]

theorem exists_latest {db : Database} {key : Pubkey} {msg : ChatMessageEntity}
    (member : msg ∈ db.conversation key) :
    ∃ row ∈ db.messages.rows, row.peerPubKey = key ∧ isLatest db.messages.rows row = true := by
  obtain ⟨row, inTable, isKey, -⟩ := mem_conversation.mp member
  let mine := (db.messages.rows.filter fun other => decide (other.peerPubKey = key)).toFinset
  have inMine : ∀ other, other ∈ mine ↔ other ∈ db.messages.rows ∧ other.peerPubKey = key := by
    simp [mine]
  obtain ⟨latest, isMine, above⟩ := mine.exists_max_image (fun other => other.columns.timestamp)
    ⟨row, (inMine row).mpr ⟨inTable, isKey⟩⟩
  obtain ⟨there, latestKey⟩ := (inMine latest).mp isMine
  refine ⟨latest, there, latestKey, is_latest_iff.mpr ?_⟩
  intro other otherThere sameKey
  exact above other ((inMine other).mpr ⟨otherThere, sameKey.trans latestKey⟩)

theorem message_map_spec {db : Database} {latest : List ChatRow} (query : LatestPerPeer db latest)
    (key : Pubkey) :
    let found := associateBy (fun row => PubKeyHex.toHex row.peerPubKey.toList) latest
      (PubKeyHex.toHex key.toList)
    (found = none ↔ db.conversation key = []) ∧
      ∀ row, found = some row → row.columns ∈ db.conversation key ∧
        ∀ other ∈ db.conversation key, other.timestamp ≤ row.columns.timestamp := by
  intro found
  obtain ⟨whenFound, whenMissing⟩ := associate_by_spec
    (fun row : ChatRow => PubKeyHex.toHex row.peerPubKey.toList) latest (PubKeyHex.toHex key.toList)
  have inResult : ∀ row, row ∈ latest ↔
      row ∈ db.messages.rows ∧ isLatest db.messages.rows row = true := by
    intro row
    rw [query.1.mem_iff, List.mem_filter]
  have spec : ∀ row, found = some row → row.columns ∈ db.conversation key ∧
      ∀ other ∈ db.conversation key, other.timestamp ≤ row.columns.timestamp := by
    intro row isFound
    obtain ⟨member, sameHex⟩ := whenFound row isFound
    obtain ⟨inTable, isLast⟩ := (inResult row).mp member
    have isKey : row.peerPubKey = key :=
      List.Vector.toList_injective (PubKeyHex.to_hex_injective sameHex)
    refine ⟨mem_conversation.mpr ⟨row, inTable, isKey, rfl⟩, ?_⟩
    intro other otherMember
    obtain ⟨otherRow, otherThere, otherKey, rfl⟩ := mem_conversation.mp otherMember
    exact is_latest_iff.mp isLast otherRow otherThere (otherKey.trans isKey.symm)
  refine ⟨⟨?_, ?_⟩, spec⟩
  · intro missing
    apply List.eq_nil_iff_forall_not_mem.mpr
    intro msg member
    obtain ⟨row, inTable, isKey, isLast⟩ := exists_latest member
    apply whenMissing missing row ((inResult row).mpr ⟨inTable, isLast⟩)
    rw [isKey]
  · intro empty
    cases isFound : found with
    | none => rfl
    | some row =>
        have member := (spec row isFound).1
        rw [empty] at member
        cases member

theorem chat_previews_contacts (contacts : List Contact) (latest : List ChatRow) :
    ((chatPreviews contacts latest).map ChatPreview.contact).Perm contacts := by
  let messageMap := associateBy (fun row : ChatRow => PubKeyHex.toHex row.peerPubKey.toList) latest
  have sorted := (List.mergeSort_perm (contacts.map (previewOf messageMap))
    (fun first second => decide (second.shownAt ≤ first.shownAt))).map ChatPreview.contact
  have unsorted : (contacts.map (previewOf messageMap)).map ChatPreview.contact = contacts := by
    rw [List.map_map]
    exact List.map_id contacts
  rwa [unsorted] at sorted

theorem chat_previews_sorted (contacts : List Contact) (latest : List ChatRow) :
    (chatPreviews contacts latest).Pairwise fun first second =>
      second.shownAt ≤ first.shownAt := by
  have sorted : (chatPreviews contacts latest).Pairwise
      fun first second => decide (second.shownAt ≤ first.shownAt) = true := by
    apply List.pairwise_mergeSort
    · intro first second third earlier later
      simp only [decide_eq_true_eq] at earlier later ⊢
      exact Int.le_trans later earlier
    · intro first second
      simp only [Bool.or_eq_true, decide_eq_true_eq]
      exact Int.le_total second.shownAt first.shownAt
  exact sorted.imp of_decide_eq_true

/-- The chat list shows every contact once, latest first, each with a latest
message of its conversation, and never a time before the one that the contact
itself remembers. The message query may have run later than the one for the
contacts. -/
theorem chat_list_shows_latest {app later : AppState Operation}
    (reached : Reachable (installedSystem Operation) app)
    (run : Leads (appSystem Operation) app later) {contacts : List ContactRow}
    {latest : List ChatRow} (contactQuery : AllContacts app.db contacts)
    (messageQuery : LatestPerPeer later.db latest) :
    let previews := chatPreviews (contacts.map ContactRow.toDomain) latest
    (previews.map ChatPreview.contact).Perm (app.db.contacts.rows.map ContactRow.toDomain) ∧
      previews.Pairwise (fun first second => second.shownAt ≤ first.shownAt) ∧
      ∀ preview ∈ previews,
        (preview.lastMessageAt = none ↔ later.db.conversation preview.contact.pubKey = []) ∧
        (∀ time, preview.lastMessageAt = some time →
          ∃ msg ∈ later.db.conversation preview.contact.pubKey, msg.timestamp = time ∧
            preview.lastMessage = some msg.content ∧
            ∀ other ∈ later.db.conversation preview.contact.pubKey, other.timestamp ≤ time) ∧
        ∀ known, preview.contact.lastMessageAt = some known →
          ∃ time, preview.lastMessageAt = some time ∧ known ≤ time := by
  intro previews
  let messageMap := associateBy (fun row : ChatRow => PubKeyHex.toHex row.peerPubKey.toList) latest
  refine ⟨?_, chat_previews_sorted _ _, ?_⟩
  · exact (chat_previews_contacts _ _).trans (contactQuery.1.map ContactRow.toDomain)
  · intro preview member
    obtain ⟨contact, inContacts, rfl⟩ := List.mem_map.mp (List.mem_mergeSort.mp member)
    obtain ⟨row, inRows, rfl⟩ := List.mem_map.mp inContacts
    obtain ⟨missing, present⟩ := message_map_spec messageQuery row.pubKey
    have isContact : app.db.getByPubKey row.pubKey = some row :=
      KeyedTable.lookup_eq_some_iff.mpr ⟨contactQuery.1.mem_iff.mp inRows, rfl⟩
    refine ⟨?_, ?_, ?_⟩
    · exact Option.map_eq_none_iff.trans missing
    · intro time shown
      obtain ⟨message, found, isTime⟩ := Option.map_eq_some_iff.mp shown
      obtain ⟨inside, above⟩ := present message found
      refine ⟨message.columns, inside, isTime, ?_, fun other there => isTime ▸ above other there⟩
      exact congrArg (Option.map fun row : ChatRow => row.columns.content) found
    · intro known remembered
      obtain ⟨msg, written, isKnown⟩ :=
        (dated_of_reachable reached).contacts row.pubKey row known isContact remembered
      have stillThere := leads_keeps_messages run row.pubKey msg written
      cases found : messageMap (PubKeyHex.toHex row.pubKey.toList) with
      | none =>
          rw [missing.mp found] at stillThere
          cases stillThere
      | some message =>
          refine ⟨message.columns.timestamp, ?_, ?_⟩
          · exact congrArg (Option.map fun row : ChatRow => row.columns.timestamp) found
          · rw [← isKnown]
            exact (present message found).2 msg stillThere

/-- Two contacts, read before a second message of the first one came in, and
the messages, read after it. -/
theorem later_app_listed :
    let previews := chatPreviews [yoContact.toDomain, hiContact.toDomain] [okRow, yoRow]
    (previews.map ChatPreview.contact).Perm [yoContact.toDomain, hiContact.toDomain] ∧
      previews.Pairwise (fun first second => second.shownAt ≤ first.shownAt) ∧
      ∀ preview ∈ previews, preview.contact.pubKey = hiKey → preview.lastMessageAt = some 12 := by
  intro previews
  have installed : Reachable (installedSystem (Fin 4)) emptyApp := .start ⟨rfl, fun _ => rfl⟩
  have reached : Reachable (installedSystem (Fin 4)) metApp :=
    installed.leads (follow_leads twoArrivals (fun _ _ _ _ => id) .stay met_app_followed)
  have run : Leads (appSystem (Fin 4)) metApp laterApp :=
    follow_leads thirdArrival (fun _ _ _ _ => id) .stay later_app_followed
  have contactRows : metApp.db.contacts.rows = [yoContact, hiContact] := by decide
  have contactQuery : AllContacts metApp.db [yoContact, hiContact] := by
    rw [AllContacts, contactRows]
    refine ⟨.refl _, List.pairwise_pair.mpr ?_⟩
    intro time isTime
    exact ⟨8, rfl, by cases isTime; decide⟩
  have messageQuery : LatestPerPeer laterApp.db [okRow, yoRow] := by
    have latest : laterApp.db.messages.rows.filter (isLatest laterApp.db.messages.rows) =
        [yoRow, okRow] := by decide
    rw [LatestPerPeer, latest]
    exact ⟨.swap _ _ _, List.pairwise_pair.mpr (by decide)⟩
  have listed := chat_list_shows_latest reached run contactQuery messageQuery
  rw [contactRows] at listed
  obtain ⟨contacts, sorted, shown⟩ := listed
  refine ⟨contacts, sorted, ?_⟩
  intro preview member isHi
  obtain ⟨silent, latest, -⟩ := shown preview member
  have conversation : laterApp.db.conversation hiKey =
      [⟨[0x68, 0x69], false, 5, sentStatus⟩, okRow.columns] := by decide
  rw [isHi, conversation] at silent latest
  cases shownAt : preview.lastMessageAt with
  | none => cases silent.mp shownAt
  | some time =>
      obtain ⟨msg, inside, isTime, -, above⟩ := latest time shownAt
      have notEarlier : 12 ≤ time := above okRow.columns (List.mem_cons_of_mem _ List.mem_cons_self)
      rcases List.mem_pair.mp inside with isFirst | isSecond
      · rw [isFirst] at isTime
        rw [← isTime] at notEarlier
        exact absurd notEarlier (by decide)
      · rw [isSecond] at isTime
        rw [← isTime]
        rfl

end ChatList

end BitChat.ChatDatabase
