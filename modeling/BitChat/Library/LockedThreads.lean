import BitChat.Library.LockOrder
import BitChat.Library.TransitionSystem
import Mathlib.Logic.Function.Basic

/-!
# Threads that share data under locks

Every thread runs the same program, one small step at a time and interleaved
in any order with the others. A step works on the data, takes a lock that is
free, gives one back, or works on the data at a moment when a lock is free, as
the destruction of the lock does. `Disciplined` says that the program keeps account of
the locks that each of its phases holds. Then a lock has at most one holder,
and data that is touched under a lock only can carry an invariant that speaks
of the phase of the lock's owner (`Guarded`).
-/

namespace LockedThreads

open TransitionSystem LockOrder

set_option autoImplicit false

inductive Action (Lock Data : Type) where
  | work (data : Data)
  | take (lock : Lock)
  | give (lock : Lock)
  | retire (lock : Lock) (data : Data)

def Action.needs {Lock Data : Type} : Action Lock Data → Option Lock
  | .take lock => some lock
  | .retire lock _ => some lock
  | _ => none

/-- What one thread does next, from its phase, the shared data and a choice
that the outside makes. -/
structure Program (Phase Data Lock Choice : Type) where
  idle : Phase
  holds : Phase → Lock → Prop
  next : Phase → Data → Choice → Option (Action Lock Data × Phase)

structure Threads (Thread Phase Data Lock : Type) where
  phase : Thread → Phase
  owner : Lock → Option Thread
  data : Data

section Semantics

variable {Thread Phase Data Lock Choice : Type} [DecidableEq Thread] [DecidableEq Lock]

def Threads.moved (threads : Threads Thread Phase Data Lock) (thread : Thread) (phase : Phase) :
    Threads Thread Phase Data Lock :=
  { threads with phase := Function.update threads.phase thread phase }

/-- A thread that needs a lock of somebody has no step. -/
def Threads.perform (threads : Threads Thread Phase Data Lock) (thread : Thread) :
    Action Lock Data × Phase → Option (Threads Thread Phase Data Lock)
  | (.work data, phase) => some { threads.moved thread phase with data := data }
  | (.take lock, phase) =>
      match threads.owner lock with
      | some _ => none
      | none =>
          some { threads.moved thread phase with
            owner := Function.update threads.owner lock (some thread) }
  | (.give lock, phase) =>
      some { threads.moved thread phase with owner := Function.update threads.owner lock none }
  | (.retire lock data, phase) =>
      match threads.owner lock with
      | some _ => none
      | none => some { threads.moved thread phase with data := data }

theorem perform_of_free {threads : Threads Thread Phase Data Lock} (thread : Thread)
    {action : Action Lock Data} (phase : Phase)
    (free : ∀ lock, action.needs = some lock → threads.owner lock = none) :
    ∃ after, threads.perform thread (action, phase) = some after := by
  cases action with
  | work data => exact ⟨_, rfl⟩
  | take lock => exact ⟨_, by simp only [Threads.perform, free lock rfl]; rfl⟩
  | give lock => exact ⟨_, rfl⟩
  | retire lock data => exact ⟨_, by simp only [Threads.perform, free lock rfl]; rfl⟩

def advance (program : Program Phase Data Lock Choice) (threads : Threads Thread Phase Data Lock)
    (thread : Thread) (choice : Choice) : Option (Threads Thread Phase Data Lock) :=
  (program.next (threads.phase thread) threads.data choice).bind (threads.perform thread)

def threadSystem (program : Program Phase Data Lock Choice) (start : Data → Prop) :
    System (Threads Thread Phase Data Lock) (Thread × Choice) where
  initial threads :=
    (∀ thread, threads.phase thread = program.idle) ∧ (∀ lock, threads.owner lock = none) ∧
      start threads.data
  step threads label after := advance program threads label.1 label.2 = some after

structure Disciplined (program : Program Phase Data Lock Choice) : Prop where
  idle : ∀ lock, ¬ program.holds program.idle lock
  work : ∀ phase data choice worked later,
    program.next phase data choice = some (.work worked, later) →
      ∀ lock, program.holds later lock ↔ program.holds phase lock
  take : ∀ phase data choice taken later,
    program.next phase data choice = some (.take taken, later) →
      ¬ program.holds phase taken ∧
        ∀ lock, program.holds later lock ↔ program.holds phase lock ∨ lock = taken
  give : ∀ phase data choice given later,
    program.next phase data choice = some (.give given, later) →
      program.holds phase given ∧
        ∀ lock, program.holds later lock ↔ program.holds phase lock ∧ lock ≠ given
  retire : ∀ phase data choice retired worked later,
    program.next phase data choice = some (.retire retired worked, later) →
      ∀ lock, ¬ program.holds phase lock ∧ ¬ program.holds later lock

theorem advance_cases {program : Program Phase Data Lock Choice}
    {threads after : Threads Thread Phase Data Lock} {thread : Thread} {choice : Choice}
    (step : advance program threads thread choice = some after) :
    ∃ later,
      (∃ worked, program.next (threads.phase thread) threads.data choice =
          some (.work worked, later) ∧
        after = { threads.moved thread later with data := worked }) ∨
      (∃ taken, program.next (threads.phase thread) threads.data choice =
          some (.take taken, later) ∧ threads.owner taken = none ∧
        after = { threads.moved thread later with
          owner := Function.update threads.owner taken (some thread) }) ∨
      (∃ given, program.next (threads.phase thread) threads.data choice =
          some (.give given, later) ∧
        after = { threads.moved thread later with
          owner := Function.update threads.owner given none }) ∨
      (∃ retired worked, program.next (threads.phase thread) threads.data choice =
          some (.retire retired worked, later) ∧ threads.owner retired = none ∧
        after = { threads.moved thread later with data := worked }) := by
  obtain ⟨⟨action, later⟩, next, performed⟩ := Option.bind_eq_some_iff.1 step
  refine ⟨later, ?_⟩
  cases action with
  | work worked =>
      exact .inl ⟨worked, next, (Option.some.inj performed).symm⟩
  | take taken =>
      simp only [Threads.perform] at performed
      split at performed
      · cases performed
      · next free => exact .inr (.inl ⟨taken, next, free, (Option.some.inj performed).symm⟩)
  | give given =>
      exact .inr (.inr (.inl ⟨given, next, (Option.some.inj performed).symm⟩))
  | retire retired worked =>
      simp only [Threads.perform] at performed
      split at performed
      · cases performed
      · next free =>
          exact .inr (.inr (.inr ⟨retired, worked, next, free, (Option.some.inj performed).symm⟩))

def runSchedule (program : Program Phase Data Lock Choice) :
    Threads Thread Phase Data Lock → List (Thread × Choice) →
      Option (Threads Thread Phase Data Lock)
  | threads, [] => some threads
  | threads, turn :: later =>
      (advance program threads turn.1 turn.2).bind fun after => runSchedule program after later

theorem run_schedule_leads {program : Program Phase Data Lock Choice} {start : Data → Prop}
    (guard : Thread × Choice → Prop) {first last : Threads Thread Phase Data Lock}
    (schedule : List (Thread × Choice)) :
    ∀ threads, Leads (guarded (threadSystem program start) fun _ => guard) first threads →
      (∀ turn ∈ schedule, guard turn) → runSchedule program threads schedule = some last →
      Leads (guarded (threadSystem program start) fun _ => guard) first last := by
  induction schedule with
  | nil =>
      intro threads leads _ ran
      cases ran
      exact leads
  | cons turn later ih =>
      intro threads leads allowed ran
      obtain ⟨after, step, ran⟩ := Option.bind_eq_some_iff.1 ran
      exact ih after (.next turn leads ⟨step, allowed turn List.mem_cons_self⟩)
        (fun other there => allowed other (List.mem_cons_of_mem turn there)) ran

theorem run_schedule_reachable {program : Program Phase Data Lock Choice} {start : Data → Prop}
    {threads last : Threads Thread Phase Data Lock} {schedule : List (Thread × Choice)}
    (reached : Reachable (threadSystem program start) threads)
    (ran : runSchedule program threads schedule = some last) :
    Reachable (threadSystem program start) last := by
  have leads : Leads (guarded (threadSystem program start) fun _ _ => True) threads last :=
    run_schedule_leads (fun _ => True) schedule threads .stay (fun _ _ => trivial) ran
  refine reached.leads (Leads.weaken ?_ leads)
  intro _ _ _ step
  exact step.1

end Semantics

section Ownership

variable {Thread Phase Data Lock Choice : Type} [DecidableEq Thread] [DecidableEq Lock]
  {program : Program Phase Data Lock Choice}

def Owned (program : Program Phase Data Lock Choice) (threads : Threads Thread Phase Data Lock) :
    Prop :=
  ∀ lock thread, threads.owner lock = some thread ↔ program.holds (threads.phase thread) lock

theorem owned_step (disciplined : Disciplined program)
    {threads after : Threads Thread Phase Data Lock} {thread : Thread} {choice : Choice}
    (owned : Owned program threads)
    (step : advance program threads thread choice = some after) : Owned program after := by
  intro lock other
  have before := owned lock other
  obtain ⟨later, ⟨worked, next, rfl⟩ | ⟨taken, next, free, rfl⟩ | ⟨given, next, rfl⟩ |
    ⟨retired, worked, next, free, rfl⟩⟩ := advance_cases step
  · have same := disciplined.work _ _ _ _ _ next lock
    by_cases self : other = thread
    · subst self
      simpa [Threads.moved, same] using before
    · simpa [Threads.moved, self] using before
  · obtain ⟨unheld, holdsLater⟩ := disciplined.take _ _ _ _ _ next
    by_cases self : other = thread
    · subst self
      by_cases same : lock = taken
      · simp [Threads.moved, same, holdsLater]
      · simpa [Threads.moved, same, holdsLater] using before
    · by_cases same : lock = taken
      · subst same
        have unheldThere : ¬ program.holds (threads.phase other) lock := by
          rw [← before, free]
          nofun
        simpa [Threads.moved, self, unheldThere] using fun h : thread = other => self h.symm
      · simpa [Threads.moved, self, same] using before
  · obtain ⟨held, holdsLater⟩ := disciplined.give _ _ _ _ _ next
    have own : threads.owner given = some thread := (owned given thread).2 held
    by_cases self : other = thread
    · subst self
      by_cases same : lock = given
      · simp [Threads.moved, same, holdsLater]
      · simpa [Threads.moved, same, holdsLater] using before
    · by_cases same : lock = given
      · subst same
        have unheldThere : ¬ program.holds (threads.phase other) lock := by
          rw [← before, own]
          exact fun h => self (Option.some.inj h).symm
        simpa [Threads.moved, self] using unheldThere
      · simpa [Threads.moved, self, same] using before
  · obtain ⟨unheld, unheldLater⟩ := disciplined.retire _ _ _ _ _ _ next lock
    by_cases self : other = thread
    · subst self
      simpa [Threads.moved, unheld, unheldLater] using before
    · simpa [Threads.moved, self] using before

theorem owned_of_reachable (disciplined : Disciplined program) {start : Data → Prop}
    {threads : Threads Thread Phase Data Lock}
    (reached : Reachable (threadSystem program start) threads) : Owned program threads := by
  refine Reachable.invariant (Owned program) ?_ ?_ reached
  · intro threads initial lock thread
    rw [initial.1 thread, initial.2.1 lock]
    exact ⟨nofun, fun held => absurd held (disciplined.idle lock)⟩
  · intro threads label after owned step
    exact owned_step disciplined owned step

end Ownership

section Guards

variable {Thread Phase Data Lock Choice : Type} [DecidableEq Thread] [DecidableEq Lock]
  {program : Program Phase Data Lock Choice}

/-- Rules for an invariant of the data of each lock, which may depend on the
phase of the owner. Work of a thread without the lock keeps it for any owner. -/
structure Guarded (program : Program Phase Data Lock Choice)
    (Guard : Lock → Data → Option Phase → Prop) : Prop where
  work : ∀ phase data choice worked later,
    program.next phase data choice = some (.work worked, later) →
      (∀ lock, program.holds phase lock → Guard lock data (some phase)) →
      ∀ lock, program.holds phase lock → Guard lock worked (some later)
  frame : ∀ phase data choice worked later,
    program.next phase data choice = some (.work worked, later) →
      ∀ lock, ¬ program.holds phase lock → ∀ owner, Guard lock data owner → Guard lock worked owner
  take : ∀ phase data choice taken later,
    program.next phase data choice = some (.take taken, later) → Guard taken data none →
      (∀ lock, program.holds phase lock → Guard lock data (some phase)) →
      ∀ lock, program.holds later lock → Guard lock data (some later)
  give : ∀ phase data choice given later,
    program.next phase data choice = some (.give given, later) →
      (∀ lock, program.holds phase lock → Guard lock data (some phase)) →
      Guard given data none ∧ ∀ lock, program.holds later lock → Guard lock data (some later)
  retire : ∀ phase data choice retired worked later,
    program.next phase data choice = some (.retire retired worked, later) →
      ∀ lock owner, Guard lock data owner → Guard lock worked owner

def Threads.holder (threads : Threads Thread Phase Data Lock) (lock : Lock) : Option Phase :=
  (threads.owner lock).map threads.phase

def Kept (Guard : Lock → Data → Option Phase → Prop) (threads : Threads Thread Phase Data Lock) :
    Prop :=
  ∀ lock, Guard lock threads.data (threads.holder lock)

omit [DecidableEq Thread] [DecidableEq Lock] in
theorem Kept.held {Guard : Lock → Data → Option Phase → Prop}
    {threads : Threads Thread Phase Data Lock} (kept : Kept Guard threads)
    (owned : Owned program threads) {thread : Thread} {lock : Lock}
    (held : program.holds (threads.phase thread) lock) :
    Guard lock threads.data (some (threads.phase thread)) := by
  have there := kept lock
  rwa [Threads.holder, (owned lock thread).2 held] at there

omit [DecidableEq Lock] in
theorem kept_after {Guard : Lock → Data → Option Phase → Prop}
    {after : Threads Thread Phase Data Lock} (ownedAfter : Owned program after) (thread : Thread)
    (mine : ∀ lock, program.holds (after.phase thread) lock →
      Guard lock after.data (some (after.phase thread)))
    (others : ∀ lock, after.owner lock ≠ some thread → Guard lock after.data (after.holder lock)) :
    Kept Guard after := by
  intro lock
  by_cases own : after.owner lock = some thread
  · have there := mine lock ((ownedAfter lock thread).1 own)
    rwa [Threads.holder, own]
  · exact others lock own

omit [DecidableEq Lock] in
theorem holder_of_moved {threads : Threads Thread Phase Data Lock} {thread : Thread}
    (later : Phase) {lock : Lock} (other : threads.owner lock ≠ some thread) :
    (threads.moved thread later).holder lock = threads.holder lock := by
  cases owner : threads.owner lock with
  | none => simp [Threads.holder, Threads.moved, owner]
  | some owning =>
      have different : owning ≠ thread := by
        rintro rfl
        exact other owner
      simp [Threads.holder, Threads.moved, owner, different]

theorem holder_of_relocked {threads : Threads Thread Phase Data Lock} {thread : Thread}
    (later : Phase) (owner : Option Thread) {relocked lock : Lock} (different : lock ≠ relocked)
    (other : threads.owner lock ≠ some thread) :
    Threads.holder { threads.moved thread later with
      owner := Function.update threads.owner relocked owner } lock = threads.holder lock := by
  rw [← holder_of_moved later other]
  simp [Threads.holder, Threads.moved, different]

theorem kept_step {Guard : Lock → Data → Option Phase → Prop} (disciplined : Disciplined program)
    (guarded : Guarded program Guard) {threads after : Threads Thread Phase Data Lock}
    {thread : Thread} {choice : Choice} (owned : Owned program threads)
    (kept : Kept Guard threads) (step : advance program threads thread choice = some after) :
    Kept Guard after := by
  have ownedAfter := owned_step disciplined owned step
  have mine : ∀ lock, program.holds (threads.phase thread) lock →
      Guard lock threads.data (some (threads.phase thread)) :=
    fun lock held => kept.held owned held
  obtain ⟨later, ⟨worked, next, rfl⟩ | ⟨taken, next, free, rfl⟩ | ⟨given, next, rfl⟩ |
    ⟨retired, worked, next, free, rfl⟩⟩ := advance_cases step
  · have same := disciplined.work _ _ _ _ _ next
    refine kept_after ownedAfter thread ?_ ?_
    · intro lock held
      simp only [Threads.moved, Function.update_self] at held ⊢
      exact guarded.work _ _ _ _ _ next mine lock ((same lock).1 held)
    · intro lock other
      have unheld : ¬ program.holds (threads.phase thread) lock :=
        fun held => other ((owned lock thread).2 held)
      have there := guarded.frame _ _ _ _ _ next lock unheld _ (kept lock)
      have same : (threads.moved thread later).holder lock = threads.holder lock :=
        holder_of_moved later other
      rwa [← same] at there
  · have unowned : Guard taken threads.data none := by
      have there := kept taken
      rwa [Threads.holder, free] at there
    refine kept_after ownedAfter thread ?_ ?_
    · intro lock held
      simp only [Threads.moved, Function.update_self] at held ⊢
      exact guarded.take _ _ _ _ _ next unowned mine lock held
    · intro lock other
      have different : lock ≠ taken := by
        rintro rfl
        exact other (Function.update_self ..)
      have elsewhere : threads.owner lock ≠ some thread := by
        rwa [← Function.update_of_ne different (some thread) threads.owner]
      rw [holder_of_relocked later _ different elsewhere]
      exact kept lock
  · obtain ⟨freed, rest⟩ := guarded.give _ _ _ _ _ next mine
    refine kept_after ownedAfter thread ?_ ?_
    · intro lock held
      simp only [Threads.moved, Function.update_self] at held ⊢
      exact rest lock held
    · intro lock other
      by_cases different : lock = given
      · subst different
        simpa [Threads.holder, Threads.moved] using freed
      · have elsewhere : threads.owner lock ≠ some thread := by
          rwa [← Function.update_of_ne different none threads.owner]
        rw [holder_of_relocked later _ different elsewhere]
        exact kept lock
  · refine kept_after ownedAfter thread ?_ ?_
    · intro lock held
      simp only [Threads.moved, Function.update_self] at held
      exact absurd held (disciplined.retire _ _ _ _ _ _ next lock).2
    · intro lock other
      have there := guarded.retire _ _ _ _ _ _ next lock _ (kept lock)
      have same : (threads.moved thread later).holder lock = threads.holder lock :=
        holder_of_moved later other
      rwa [← same] at there

theorem kept_of_reachable {Guard : Lock → Data → Option Phase → Prop}
    (disciplined : Disciplined program) (guarded : Guarded program Guard) {start : Data → Prop}
    (initially : ∀ data, start data → ∀ lock, Guard lock data none)
    {threads : Threads Thread Phase Data Lock}
    (reached : Reachable (threadSystem program start) threads) :
    Owned program threads ∧ Kept Guard threads := by
  refine Reachable.invariant (fun threads => Owned program threads ∧ Kept Guard threads)
    ?_ ?_ reached
  · intro threads initial
    refine ⟨owned_of_reachable disciplined (.start initial), fun lock => ?_⟩
    rw [Threads.holder, initial.2.1 lock]
    exact initially threads.data initial.2.2 lock
  · intro threads label after both step
    exact ⟨owned_step disciplined both.1 step, kept_step disciplined guarded both.1 both.2 step⟩

end Guards

section Progress

variable {Thread Phase Data Lock Choice : Type} [DecidableEq Thread] [DecidableEq Lock]
  {program : Program Phase Data Lock Choice}

/-- The program waits for its locks in the order of `rank`, and on data that is
`Able` it never stops but for the lock it wants. -/
structure Progressive (program : Program Phase Data Lock Choice) (wants : Phase → Option Lock)
    (rank : Lock → Nat) (limit : Nat) (Able : Data → Prop) : Prop where
  bounded : ∀ lock, rank lock < limit
  ordered : ∀ phase wanted held, wants phase = some wanted → program.holds phase held →
    rank held < rank wanted
  moves : ∀ phase data, Able data → phase ≠ program.idle →
    ∃ choice action later, program.next phase data choice = some (action, later) ∧
      action.needs = wants phase

/-- No deadlock: while some thread is not idle, such a thread can move. -/
theorem exists_advance {wants : Phase → Option Lock} {rank : Lock → Nat} {limit : Nat}
    {Able : Data → Prop} (disciplined : Disciplined program)
    (progressive : Progressive program wants rank limit Able)
    {threads : Threads Thread Phase Data Lock} (owned : Owned program threads)
    (able : Able threads.data) {thread : Thread} (busy : threads.phase thread ≠ program.idle) :
    ∃ other choice after, threads.phase other ≠ program.idle ∧
      advance program threads other choice = some after := by
  let locks : LockState Thread Lock := ⟨threads.owner, fun thread => wants (threads.phase thread)⟩
  have inOrder : Ordered locks rank := by
    intro waiting wanted held wantsIt owns
    exact progressive.ordered _ _ _ wantsIt ((owned held waiting).1 owns)
  obtain ⟨last, reason, unblocked⟩ := exists_unblocked progressive.bounded inOrder thread
  have lastBusy : threads.phase last ≠ program.idle := by
    rcases reason with rfl | ⟨held, owns⟩
    · exact busy
    · intro idle
      exact disciplined.idle held (idle ▸ (owned held last).1 owns)
  obtain ⟨choice, action, later, next, needs⟩ := progressive.moves _ _ able lastBusy
  have free : ∀ lock, action.needs = some lock → threads.owner lock = none := by
    intro lock needed
    cases owner : threads.owner lock with
    | none => rfl
    | some other => exact absurd ⟨lock, other, needs.symm.trans needed, owner⟩ unblocked
  obtain ⟨after, performed⟩ := perform_of_free last later free
  exact ⟨last, choice, after, lastBusy, by rw [advance, next]; exact performed⟩

end Progress

end LockedThreads
