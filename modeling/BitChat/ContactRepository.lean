import BitChat.KotlinText
import BitChat.Library.TransitionSystem
import Mathlib.Data.Fintype.Basic
import Mathlib.Logic.Function.Basic

/-!
# Concurrent writers of one contact

Transcription of the operations that write a contact of the Android app:
`MessageRepository.receiveMessage` and `sendMessage`,
`ContactsViewModel.addContact` and `QrCodeViewModel.addScannedContact`, all
for one public key. Each is a thread of DAO calls that Room executes
atomically; any number of them interleave. An upsert is an `INSERT OR
REPLACE`, so it forgets what the row of the contact held, and the update of
the message time writes whatever time its operation read when it started.
Nothing is lost while nobody adds the contact over a receive that has checked
for it, or over itself, and the updates run in the order of the readings.
-/

namespace BitChat.ContactRepository

open BitChat.KotlinText TransitionSystem

set_option autoImplicit false

structure ContactEntity where
  displayName : Option KotlinString
  addedAt : Int
  lastMessageAt : Option Int
deriving DecidableEq

structure ChatMessageEntity where
  content : KotlinString
  isOutgoing : Bool
  timestamp : Int
  status : Nat
deriving DecidableEq

/-- `MessageStatus.SENT.ordinal`. -/
def sentStatus : Nat := 0

section Dao

/-- `INSERT OR REPLACE` deletes the row with the same key. -/
def upsert (_contact : Option ContactEntity) (contact : ContactEntity) : Option ContactEntity :=
  some contact

/-- The `UPDATE` changes no row where there is none. -/
def updateLastMessageTime (contact : Option ContactEntity) (timestamp : Int) :
    Option ContactEntity :=
  contact.map fun row => { row with lastMessageAt := some timestamp }

def addContact (contact : Option ContactEntity) (aliasName : Option KotlinString) (now : Int) :
    Option ContactEntity :=
  upsert contact { displayName := aliasName, addedAt := now, lastMessageAt := none }

end Dao

inductive OperationState where
  | idle
  | receiving (now : Int) (content : KotlinString)
  | received (now : Int)
  | unknownSender (now : Int)
  | sending (now : Int) (content : KotlinString)
  | inserted (now : Int)
  | updating (now : Int)
  | adding (aliasName : Option KotlinString)
  | finished
deriving DecidableEq

structure ContactState (Operation : Type) where
  contact : Option ContactEntity
  chat : List ChatMessageEntity
  operation : Operation → OperationState

/-- The start of an operation, with what it is given and the time it reads,
and its DAO calls; `addContact` reads the clock right before its upsert.
`coreSend` is the call into the native core. -/
inductive Access where
  | receiveMessage (now : Int) (content : KotlinString)
  | sendMessage (now : Int) (content : KotlinString)
  | contactsAddContact (aliasName : Option KotlinString)
  | addScannedContact
  | insertChat
  | getByPubKey
  | upsertContact (now : Int)
  | coreSend (rc : Int)
  | updateTime

section Operations

variable {Operation : Type} [DecidableEq Operation]

def ContactState.goto (state : ContactState Operation) (operation : Operation)
    (next : OperationState) : ContactState Operation :=
  { state with operation := Function.update state.operation operation next }

def access (state : ContactState Operation) (operation : Operation) : OperationState → Access →
    Option (ContactState Operation)
  | .idle, .receiveMessage now content => some (state.goto operation (.receiving now content))
  | .idle, .sendMessage now content => some (state.goto operation (.sending now content))
  | .idle, .contactsAddContact aliasName =>
      some (state.goto operation (.adding (aliasName.filter isNotBlank)))
  | .idle, .addScannedContact => some (state.goto operation (.adding none))
  | .receiving now content, .insertChat =>
      some { state.goto operation (.received now) with
        chat := state.chat ++ [⟨content, false, now, sentStatus⟩] }
  | .received now, .getByPubKey =>
      some (state.goto operation
        (if state.contact = none then .unknownSender now else .updating now))
  | .unknownSender now, .upsertContact added =>
      some { state.goto operation (.updating now) with
        contact := addContact state.contact none added }
  | .sending now content, .insertChat =>
      some { state.goto operation (.inserted now) with
        chat := state.chat ++ [⟨content, true, now, sentStatus⟩] }
  | .inserted now, .coreSend rc =>
      some (state.goto operation (if rc ≠ 0 then .finished else .updating now))
  | .updating now, .updateTime =>
      some { state.goto operation .finished with
        contact := updateLastMessageTime state.contact now }
  | .adding aliasName, .upsertContact added =>
      some { state.goto operation .finished with
        contact := addContact state.contact aliasName added }
  | _, _ => none

def contactSystem (Operation : Type) [DecidableEq Operation] :
    System (ContactState Operation) (Operation × Access) where
  initial state := ∀ operation, state.operation operation = .idle
  step state label after :=
    access state label.1 (state.operation label.1) label.2 = some after

def contactMove (state : ContactState Operation) (label : Operation × Access) :
    Option (ContactState Operation) :=
  access state label.1 (state.operation label.1) label.2

def OperationState.upsertAlias : OperationState → Option (Option KotlinString)
  | .unknownSender _ => some none
  | .adding aliasName => some aliasName
  | _ => none

theorem access_contact {state after : ContactState Operation} {operation : Operation} {act : Access}
    (step : access state operation (state.operation operation) act = some after) :
    after.contact = state.contact ∨
    (∃ aliasName now, (state.operation operation).upsertAlias = some aliasName ∧
      act = .upsertContact now ∧ after.contact = addContact state.contact aliasName now) ∨
    (∃ now, state.operation operation = .updating now ∧ act = .updateTime ∧
      after.contact = updateLastMessageTime state.contact now) := by
  cases here : state.operation operation <;> cases act <;>
    simp only [access, here, reduceCtorEq, Option.some.injEq] at step
  case updating.updateTime now =>
    rw [← step]
    exact .inr (.inr ⟨now, rfl, rfl, rfl⟩)
  case unknownSender.upsertContact now added =>
    rw [← step]
    exact .inr (.inl ⟨none, added, rfl, rfl, rfl⟩)
  case adding.upsertContact aliasName added =>
    rw [← step]
    exact .inr (.inl ⟨aliasName, added, rfl, rfl, rfl⟩)
  all_goals
    rw [← step]
    exact .inl rfl

def Access.reading : Access → Option Int
  | .receiveMessage now _ => some now
  | .sendMessage now _ => some now
  | _ => none

def OperationState.pendingTime : OperationState → Option Int
  | .receiving now _ => some now
  | .received now => some now
  | .unknownSender now => some now
  | .sending now _ => some now
  | .inserted now => some now
  | .updating now => some now
  | _ => none

def OperationState.awaitsInsert : OperationState → Bool
  | .unknownSender _ => true
  | _ => false

def OperationState.isAdding : OperationState → Bool
  | .adding _ => true
  | _ => false

/-- Where one access leaves its operation: with the reading it starts with,
the one it had, or none; and only a check that finds no row leaves a receive
before its insert. -/
theorem access_operation {state after : ContactState Operation} {operation : Operation}
    {act : Access} (step : access state operation (state.operation operation) act = some after) :
    ∃ next, after.operation = Function.update state.operation operation next ∧
      (next.pendingTime = none ∨ next.pendingTime = act.reading ∨
        next.pendingTime = (state.operation operation).pendingTime) ∧
      (next.awaitsInsert = true → after.contact = none) := by
  cases here : state.operation operation <;> cases act <;>
    simp only [access, here, reduceCtorEq, Option.some.injEq] at step
  case received.getByPubKey now =>
    rw [← step]
    refine ⟨_, rfl, ?_, ?_⟩
    · split_ifs <;> exact .inr (.inr rfl)
    · split_ifs with absent
      · exact fun _ => absent
      · exact fun awaits => absurd awaits Bool.false_ne_true
  case inserted.coreSend now rc =>
    rw [← step]
    refine ⟨_, rfl, ?_, ?_⟩
    · split_ifs
      · exact .inl rfl
      · exact .inr (.inr rfl)
    · split_ifs <;> exact fun awaits => absurd awaits Bool.false_ne_true
  all_goals
    rw [← step]
    refine ⟨_, rfl, ?_, fun awaits => absurd awaits Bool.false_ne_true⟩
    first
    | exact .inl rfl
    | exact .inr (.inl rfl)
    | exact .inr (.inr rfl)

/-- A contact stays, keeps a name once it has one, and its message time only
grows. -/
def NoRegress (before after : Option ContactEntity) : Prop :=
  ∀ row, before = some row → ∃ next, after = some next ∧
    (row.displayName ≠ none → next.displayName ≠ none) ∧
    ∀ last, row.lastMessageAt = some last → ∃ later, next.lastMessageAt = some later ∧ last ≤ later

theorem NoRegress.refl (contact : Option ContactEntity) : NoRegress contact contact :=
  fun row present => ⟨row, present, id, fun last time => ⟨last, time, Int.le_refl last⟩⟩

theorem NoRegress.trans {first second third : Option ContactEntity}
    (start : NoRegress first second) (rest : NoRegress second third) : NoRegress first third := by
  intro row present
  obtain ⟨middle, there, named, timed⟩ := start row present
  obtain ⟨final, inTheEnd, stillNamed, stillTimed⟩ := rest middle there
  refine ⟨final, inTheEnd, fun name => stillNamed (named name), ?_⟩
  intro last time
  obtain ⟨between, middleTime, grown⟩ := timed last time
  obtain ⟨later, finalTime, grownAgain⟩ := stillTimed between middleTime
  exact ⟨later, finalTime, Int.le_trans grown grownAgain⟩

structure BookRun (Operation : Type) where
  book : ContactState Operation
  clock : Int

/-- A contact from an earlier session has no time ahead of the clock. -/
def bookSystem (Operation : Type) [DecidableEq Operation] :
    System (BookRun Operation) (Operation × Access) where
  initial run := (contactSystem Operation).initial run.book ∧
    ∀ row ∈ run.book.contact, ∀ last ∈ row.lastMessageAt, last ≤ run.clock
  step run label after := (contactSystem Operation).step run.book label after.book ∧
    after.clock = label.2.reading.getD run.clock

/-- The condition on an access: an operation starts with a reading that is
not before the last one; an update does not overtake an operation with an
earlier reading; no contact is added while another receive stands between its
check and its insert, and none by hand that there is already. -/
def InOrder (run : BookRun Operation) : Operation × Access → Prop
  | (_, .receiveMessage now _) => run.clock ≤ now
  | (_, .sendMessage now _) => run.clock ≤ now
  | (operation, .updateTime) => ∀ now ∈ (run.book.operation operation).pendingTime,
      ∀ other, ∀ time ∈ (run.book.operation other).pendingTime, now ≤ time
  | (operation, .upsertContact _) =>
      (∀ other, other ≠ operation → (run.book.operation other).awaitsInsert = false) ∧
        ((run.book.operation operation).isAdding = true → run.book.contact = none)
  | _ => True

instance [Fintype Operation] (run : BookRun Operation) (label : Operation × Access) :
    Decidable (InOrder run label) :=
  match label with
  | (_, .receiveMessage now _) => inferInstanceAs (Decidable (run.clock ≤ now))
  | (_, .sendMessage now _) => inferInstanceAs (Decidable (run.clock ≤ now))
  | (operation, .updateTime) => inferInstanceAs (Decidable
      (∀ now ∈ (run.book.operation operation).pendingTime,
        ∀ other, ∀ time ∈ (run.book.operation other).pendingTime, now ≤ time))
  | (operation, .upsertContact _) => inferInstanceAs (Decidable
      ((∀ other, other ≠ operation → (run.book.operation other).awaitsInsert = false) ∧
        ((run.book.operation operation).isAdding = true → run.book.contact = none)))
  | (_, .contactsAddContact _) => .isTrue trivial
  | (_, .addScannedContact) => .isTrue trivial
  | (_, .insertChat) => .isTrue trivial
  | (_, .getByPubKey) => .isTrue trivial
  | (_, .coreSend _) => .isTrue trivial

def bookMove [Fintype Operation] (run : BookRun Operation) (label : Operation × Access) :
    Option (BookRun Operation) :=
  if InOrder run label then
    (contactMove run.book label).map fun book => ⟨book, label.2.reading.getD run.clock⟩
  else none

theorem book_move_step [Fintype Operation] {run after : BookRun Operation}
    {label : Operation × Access} (moved : bookMove run label = some after) :
    (guarded (bookSystem Operation) InOrder).step run label after := by
  unfold bookMove at moved
  split_ifs at moved with inOrder
  obtain ⟨book, taken, isAfter⟩ := Option.map_eq_some_iff.mp moved
  rw [← isAfter]
  exact ⟨⟨taken, rfl⟩, inOrder⟩

/-- What such accesses keep: a receive between its check and its insert is
right that there is no contact, and the time of the contact is not ahead of
any operation under way. -/
structure Ordered (run : BookRun Operation) : Prop where
  awaited : ∀ operation, (run.book.operation operation).awaitsInsert = true →
    run.book.contact = none
  started : ∀ operation, ∀ time ∈ (run.book.operation operation).pendingTime, time ≤ run.clock
  written : ∀ row ∈ run.book.contact, ∀ last ∈ row.lastMessageAt, last ≤ run.clock ∧
    ∀ operation, ∀ time ∈ (run.book.operation operation).pendingTime, last ≤ time

section Steps

variable {run after : BookRun Operation} {operation : Operation} {act : Access}

theorem clock_in_order (inOrder : InOrder run (operation, act))
    (step : (bookSystem Operation).step run (operation, act) after) : run.clock ≤ after.clock := by
  rw [step.2]
  cases act with
  | receiveMessage now content => exact inOrder
  | sendMessage now content => exact inOrder
  | _ => exact Int.le_refl _

theorem pending_after (step : (bookSystem Operation).step run (operation, act) after)
    {other : Operation} {time : Int} (pending : time ∈ (after.book.operation other).pendingTime) :
    (act.reading = some time ∧ time = after.clock) ∨
      time ∈ (run.book.operation other).pendingTime := by
  obtain ⟨next, moved, reading, -⟩ := access_operation step.1
  rw [moved] at pending
  by_cases here : other = operation
  · rw [here, Function.update_self] at pending
    rcases reading with none | read | kept
    · rw [none] at pending
      exact absurd pending (Option.not_mem_none _)
    · rw [read] at pending
      refine .inl ⟨pending, ?_⟩
      rw [step.2, Option.mem_def.mp pending]
      rfl
    · rw [kept] at pending
      rw [here]
      exact .inr pending
  · rw [Function.update_of_ne here] at pending
    exact .inr pending

omit [DecidableEq Operation] in
/-- An upsert finds no row: a receive has checked, and by hand only new
contacts are added. -/
theorem upsert_finds_none (ordered : Ordered run) {aliasName : Option KotlinString} {now : Int}
    (about : (run.book.operation operation).upsertAlias = some aliasName)
    (inOrder : InOrder run (operation, .upsertContact now)) : run.book.contact = none := by
  cases here : run.book.operation operation with
  | unknownSender time => exact ordered.awaited operation (by rw [here]; rfl)
  | adding name => exact inOrder.2 (by rw [here]; rfl)
  | _ =>
      rw [here] at about
      cases about

theorem awaited_after (ordered : Ordered run) (inOrder : InOrder run (operation, act))
    (step : (bookSystem Operation).step run (operation, act) after) (other : Operation)
    (awaits : (after.book.operation other).awaitsInsert = true) : after.book.contact = none := by
  obtain ⟨next, moved, -, checked⟩ := access_operation step.1
  rw [moved] at awaits
  by_cases here : other = operation
  · rw [here, Function.update_self] at awaits
    exact checked awaits
  · rw [Function.update_of_ne here] at awaits
    have absent := ordered.awaited other awaits
    rcases access_contact step.1 with
      same | ⟨aliasName, now, -, rfl, -⟩ | ⟨now, -, -, same⟩
    · rw [same]
      exact absent
    · rw [inOrder.1 other here] at awaits
      exact absurd awaits Bool.false_ne_true
    · rw [same, absent]
      rfl

theorem written_after (ordered : Ordered run) (inOrder : InOrder run (operation, act))
    (step : (bookSystem Operation).step run (operation, act) after) :
    ∀ row ∈ after.book.contact, ∀ last ∈ row.lastMessageAt, last ≤ after.clock ∧
      ∀ other, ∀ time ∈ (after.book.operation other).pendingTime, last ≤ time := by
  have clock := clock_in_order inOrder step
  intro row present last timed
  rcases access_contact step.1 with
    same | ⟨aliasName, now, -, -, same⟩ | ⟨now, about, rfl, same⟩
  · rw [same] at present
    obtain ⟨past, waiting⟩ := ordered.written row present last timed
    refine ⟨Int.le_trans past clock, ?_⟩
    intro other time pending
    rcases pending_after step pending with ⟨-, isNow⟩ | before
    · rw [isNow]
      exact Int.le_trans past clock
    · exact waiting other time before
  · rw [same] at present
    cases present
    cases timed
  · -- The row now has the time of this operation, which nothing under way precedes.
    have mine : now ∈ (run.book.operation operation).pendingTime := by rw [about]; rfl
    have isNow : last = now := by
      rw [same] at present
      obtain ⟨old, -, updated⟩ := Option.map_eq_some_iff.mp present
      rw [← updated] at timed
      exact (Option.some.inj timed).symm
    rw [isNow]
    refine ⟨Int.le_trans (ordered.started operation now mine) clock, ?_⟩
    intro other time pending
    rcases pending_after step pending with ⟨reads, -⟩ | before
    · cases reads
    · exact inOrder now mine other time before

theorem ordered_step (ordered : Ordered run) (inOrder : InOrder run (operation, act))
    (step : (bookSystem Operation).step run (operation, act) after) : Ordered after where
  awaited := awaited_after ordered inOrder step
  started := by
    intro other time pending
    rcases pending_after step pending with ⟨-, isNow⟩ | before
    · exact Int.le_of_eq isNow
    · exact Int.le_trans (ordered.started other time before) (clock_in_order inOrder step)
  written := written_after ordered inOrder step

theorem no_regress_step (ordered : Ordered run) (inOrder : InOrder run (operation, act))
    (step : (bookSystem Operation).step run (operation, act) after) :
    NoRegress run.book.contact after.book.contact := by
  rcases access_contact step.1 with
    same | ⟨aliasName, now, about, rfl, -⟩ | ⟨now, about, rfl, same⟩
  · rw [same]
    exact NoRegress.refl _
  · intro row present
    rw [upsert_finds_none ordered about inOrder] at present
    cases present
  · intro row present
    rw [present] at same
    refine ⟨_, same, id, ?_⟩
    intro last timed
    have mine : now ∈ (run.book.operation operation).pendingTime := by rw [about]; rfl
    exact ⟨now, rfl, (ordered.written row present last timed).2 operation now mine⟩

end Steps

theorem ordered_of_reachable {run : BookRun Operation}
    (reached : Reachable (guarded (bookSystem Operation) InOrder) run) : Ordered run := by
  apply reached.invariant Ordered
  · rintro run ⟨idle, past⟩
    refine ⟨?_, ?_, ?_⟩
    · intro operation awaits
      rw [idle operation] at awaits
      cases awaits
    · intro operation time pending
      rw [idle operation] at pending
      cases pending
    · intro row present last timed
      refine ⟨past row present last timed, ?_⟩
      intro operation time pending
      rw [idle operation] at pending
      cases pending
  · rintro before ⟨operation, act⟩ after ordered ⟨step, inOrder⟩
    exact ordered_step ordered inOrder step

/-- In every interleaving in order a contact never regresses, from any state
of the run to any later one. -/
theorem no_regress_in_order {start later : BookRun Operation}
    (reached : Reachable (guarded (bookSystem Operation) InOrder) start)
    (leads : Leads (guarded (bookSystem Operation) InOrder) start later) :
    NoRegress start.book.contact later.book.contact := by
  induction leads with
  | stay => exact NoRegress.refl _
  | @next between after label leads step ih =>
      have ordered := ordered_of_reachable (reached.leads leads)
      exact ih.trans (no_regress_step ordered step.2 step.1)

end Operations

def ada : KotlinString := [0x41, 0x64, 0x61]

def emptyBook : ContactState Bool := ⟨none, [], fun _ => .idle⟩

def addAda : List (Bool × Access) :=
  [(false, .contactsAddContact (some ada)), (false, .upsertContact 1)]

def namedBook : ContactState Bool := (follow contactMove emptyBook addAda).getD emptyBook

def emptyRun : BookRun (Fin 3) := ⟨⟨none, [], fun _ => .idle⟩, 0⟩

def addAndReceive : List (Fin 3 × Access) :=
  [(1, .receiveMessage 5 ada), (1, .insertChat), (0, .contactsAddContact (some ada)),
    (0, .upsertContact 6), (2, .sendMessage 7 ada), (1, .getByPubKey)]

def sendAndNote : List (Fin 3 × Access) :=
  [(2, .insertChat), (2, .coreSend 0), (1, .updateTime)]

def namedRun : BookRun (Fin 3) := (follow bookMove emptyRun addAndReceive).getD emptyRun

def notedRun : BookRun (Fin 3) := (follow bookMove namedRun sendAndNote).getD namedRun

def repliedRun : BookRun (Fin 3) := (bookMove notedRun (2, .updateTime)).getD notedRun

/-- Three operations at once: the contact keeps the name it was added with,
and its time goes from 5 to 7. -/
theorem crossed_operations_keep_contact :
    namedRun.book.contact = some ⟨some ada, 6, none⟩ ∧
      notedRun.book.contact = some ⟨some ada, 6, some 5⟩ ∧
      repliedRun.book.contact = some ⟨some ada, 6, some 7⟩ ∧
      NoRegress namedRun.book.contact repliedRun.book.contact ∧
      NoRegress notedRun.book.contact repliedRun.book.contact := by
  have start : Reachable (guarded (bookSystem (Fin 3)) InOrder) emptyRun := by
    refine .start ⟨fun _ => rfl, ?_⟩
    intro row present
    cases present
  have toNamed : follow bookMove emptyRun addAndReceive = some namedRun := rfl
  have toNoted : follow bookMove namedRun sendAndNote = some notedRun := rfl
  have toReplied : bookMove notedRun (2, .updateTime) = some repliedRun := rfl
  have named := start.leads
    (follow_leads addAndReceive (fun _ _ _ _ => book_move_step) .stay toNamed)
  have noted := follow_leads sendAndNote (fun _ _ _ _ => book_move_step) .stay toNoted
  have replied := book_move_step toReplied
  exact ⟨rfl, rfl, rfl, no_regress_in_order named (.next _ noted replied),
    no_regress_in_order (named.leads noted) (.single _ replied)⟩

def scanAda : List (Bool × Access) := [(true, .addScannedContact), (true, .upsertContact 2)]

def scannedBook : ContactState Bool := (follow contactMove namedBook scanAda).getD namedBook

/-- A scan of a contact that has a name takes the name away. -/
theorem scan_forgets_name :
    Reachable (contactSystem Bool) namedBook ∧ Leads (contactSystem Bool) namedBook scannedBook ∧
      ¬ NoRegress namedBook.contact scannedBook.contact := by
  have added : follow contactMove emptyBook addAda = some namedBook := rfl
  have scanned : follow contactMove namedBook scanAda = some scannedBook := rfl
  refine ⟨?_, follow_leads scanAda (fun _ _ _ _ => id) .stay scanned, ?_⟩
  · exact (Reachable.start fun _ => rfl).leads (follow_leads addAda (fun _ _ _ _ => id) .stay added)
  · intro kept
    obtain ⟨next, present, named, -⟩ := kept _ rfl
    cases present
    exact named (by decide) rfl

end BitChat.ContactRepository
