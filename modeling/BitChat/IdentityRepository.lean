import BitChat.CryptoManager
import BitChat.Library.TransitionSystem
import Mathlib.Data.List.Nodup

/-!
# Concurrent start-up of the identity repository

Transcription of `IdentityRepository.loadOrCreateIdentity` as a thread of
atomic accesses: the read and the write of the preferences, the call into
the core (atomic under the mutex of the FFI) and the assignment of the
`StateFlow`. Any number of calls interleave. The preferences hold the decoded
bytes; the display name and the avatar colour are functions of the public
key and are left out.
-/

namespace BitChat.IdentityRepository

open BitChat.WireMessage BitChat.CryptoManager TransitionSystem

set_option autoImplicit false

structure UserIdentity where
  pubKey : List UInt8
  secretKey : List UInt8
deriving DecidableEq

def bytesToIdentity (data : List UInt8) : UserIdentity where
  pubKey := data.take 32
  secretKey := (data.drop 32).take 32

def userIdentity (id : BcIdentity) : UserIdentity := ⟨id.pubkey.toList, id.secretKey.toList⟩

theorem bytes_to_identity_serialize (id : BcIdentity) :
    bytesToIdentity (bcIdentitySerialize id) = userIdentity id := by
  simp [bytesToIdentity, bcIdentitySerialize, userIdentity]

/-- How far a call has come, with the bytes in its local variable `data`. -/
inductive CallState where
  | idle
  | found (data : List UInt8)
  | missing
  | loaded (data : List UInt8)
  | generated (data : List UInt8)
  | stored (data : List UInt8)
  | returned (identity : UserIdentity)
  | failed
deriving DecidableEq

/-- `keys` are the public keys generated so far and `missed` the calls whose
read of the preferences found nothing, in order. -/
structure RepoState (Caller : Type) where
  prefs : Option (List UInt8)
  core : BcIdentity
  flow : Option UserIdentity
  call : Caller → CallState
  keys : List Pubkey
  missed : List Caller

/-- The next access of a call. A core call that fails may have changed the
identity before, where the router could not be allocated. -/
inductive Access where
  | readPrefs
  | loadIdentity
  | loadFails (changed : Bool)
  | generateIdentity (id : BcIdentity)
  | generateFails (changed : Option BcIdentity)
  | writePrefs
  | assignFlow

/-- `MutableStateFlow.value = identity`: a value that `equals` the current
one, which compares public keys only, is not stored. -/
def assign (flow : Option UserIdentity) (identity : UserIdentity) : Option UserIdentity :=
  match flow with
  | none => some identity
  | some current => if current.pubKey = identity.pubKey then some current else some identity

section Calls

variable {Caller : Type} [DecidableEq Caller]

def RepoState.goto (state : RepoState Caller) (caller : Caller) (next : CallState) :
    RepoState Caller :=
  { state with call := Function.update state.call caller next }

def access (state : RepoState Caller) (caller : Caller) : CallState → Access →
    Option (RepoState Caller)
  | .idle, .readPrefs =>
      match state.prefs with
      | some data => some (state.goto caller (.found data))
      | none => some { state.goto caller .missing with missed := state.missed ++ [caller] }
  | .found data, .loadIdentity =>
      (bcIdentityDeserialize data).map fun id =>
        { state.goto caller (.loaded data) with core := id }
  | .found data, .loadFails changed =>
      some { state.goto caller .failed with
        core := if changed then (bcIdentityDeserialize data).getD state.core else state.core }
  | .missing, .generateIdentity id =>
      if id.pubkey ∈ state.keys then none
      else
        some { state.goto caller (.generated (bcIdentitySerialize id)) with
          core := id
          keys := state.keys ++ [id.pubkey] }
  | .missing, .generateFails changed =>
      some { state.goto caller .failed with core := changed.getD state.core }
  | .generated data, .writePrefs =>
      some { state.goto caller (.stored data) with prefs := some data }
  | .loaded data, .assignFlow =>
      some { state.goto caller (.returned (bytesToIdentity data)) with
        flow := assign state.flow (bytesToIdentity data) }
  | .stored data, .assignFlow =>
      some { state.goto caller (.returned (bytesToIdentity data)) with
        flow := assign state.flow (bytesToIdentity data) }
  | _, _ => none

/-- Start-up: an identity in the preferences or none, an arbitrary core, an
empty flow, and no call under way. -/
def repoSystem (Caller : Type) [DecidableEq Caller] :
    System (RepoState Caller) (Caller × Access) where
  initial state :=
    (state.prefs = none ∨ ∃ id, state.prefs = some (bcIdentitySerialize id)) ∧
    state.flow = none ∧ (∀ caller, state.call caller = .idle) ∧ state.keys = [] ∧
    state.missed = []
  step state label after :=
    access state label.1 (state.call label.1) label.2 = some after

def AllReturned (state : RepoState Caller) : Prop :=
  (∃ caller, state.call caller ≠ .idle) ∧
    ∀ caller, state.call caller = .idle ∨ ∃ identity, state.call caller = .returned identity

/-- Core, preferences, flow and every result hold one identity. -/
def OneIdentity (state : RepoState Caller) : Prop :=
  ∃ id : BcIdentity, state.core = id ∧ state.prefs = some (bcIdentitySerialize id) ∧
    state.flow = some (userIdentity id) ∧
    ∀ caller, state.call caller = .idle ∨ state.call caller = .returned (userIdentity id)

theorem access_cases {state after : RepoState Caller} {caller : Caller} {act : Access}
    (step : access state caller (state.call caller) act = some after) :
    (∃ data, state.call caller = .idle ∧ state.prefs = some data ∧
      after = state.goto caller (.found data)) ∨
    (state.call caller = .idle ∧ state.prefs = none ∧
      after = { state.goto caller .missing with missed := state.missed ++ [caller] }) ∨
    (∃ data id, state.call caller = .found data ∧ bcIdentityDeserialize data = some id ∧
      after = { state.goto caller (.loaded data) with core := id }) ∨
    (∃ id, state.call caller = .missing ∧ id.pubkey ∉ state.keys ∧
      after = { state.goto caller (.generated (bcIdentitySerialize id)) with
        core := id
        keys := state.keys ++ [id.pubkey] }) ∨
    (∃ data, state.call caller = .generated data ∧
      after = { state.goto caller (.stored data) with prefs := some data }) ∨
    (∃ data, (state.call caller = .loaded data ∨ state.call caller = .stored data) ∧
      after = { state.goto caller (.returned (bytesToIdentity data)) with
        flow := assign state.flow (bytesToIdentity data) }) ∨
    (∃ core, after = { state.goto caller .failed with core := core }) := by
  cases here : state.call caller <;> cases act <;>
    simp only [access, here, reduceCtorEq, Option.some.injEq, Option.map_eq_some_iff] at step
  case idle.readPrefs =>
    split at step
    · rename_i data stored
      exact .inl ⟨data, rfl, stored, (Option.some.inj step).symm⟩
    · rename_i empty
      exact .inr (.inl ⟨rfl, empty, (Option.some.inj step).symm⟩)
  case found.loadIdentity data =>
    obtain ⟨id, parsed, same⟩ := step
    exact .inr (.inr (.inl ⟨data, id, rfl, parsed, same.symm⟩))
  case missing.generateIdentity id =>
    split at step
    · cases step
    · rename_i fresh
      exact .inr (.inr (.inr (.inl ⟨id, rfl, fresh, (Option.some.inj step).symm⟩)))
  case generated.writePrefs data =>
    exact .inr (.inr (.inr (.inr (.inl ⟨data, rfl, step.symm⟩))))
  case loaded.assignFlow data =>
    exact .inr (.inr (.inr (.inr (.inr (.inl ⟨data, .inl rfl, step.symm⟩)))))
  case stored.assignFlow data =>
    exact .inr (.inr (.inr (.inr (.inr (.inl ⟨data, .inr rfl, step.symm⟩)))))
  case found.loadFails data changed =>
    exact .inr (.inr (.inr (.inr (.inr (.inr ⟨_, step.symm⟩)))))
  case missing.generateFails changed =>
    exact .inr (.inr (.inr (.inr (.inr (.inr ⟨_, step.symm⟩)))))

def CallState.Holds (id : BcIdentity) : CallState → Prop
  | .idle => True
  | .found data => data = bcIdentitySerialize id
  | .loaded data => data = bcIdentitySerialize id
  | .generated data => data = bcIdentitySerialize id
  | .stored data => data = bcIdentitySerialize id
  | .returned identity => identity = userIdentity id
  | .missing => False
  | .failed => False

def CallState.pastCore : CallState → Bool
  | .loaded _ => true
  | .generated _ => true
  | .stored _ => true
  | .returned _ => true
  | _ => false

def CallState.done : CallState → Bool
  | .returned _ => true
  | _ => false

structure Undecided (state : RepoState Caller) : Prop where
  prefs : state.prefs = none
  flow : state.flow = none
  calls : (∀ caller, state.call caller = .idle) ∨
    ∃ first, state.call first = .missing ∧ (∀ other, other ≠ first → state.call other = .idle) ∧
      1 ≤ state.missed.length

/-- `id` is the one identity. Until it is in the preferences only the call
that generated it is under way. -/
structure Settled (id : BcIdentity) (state : RepoState Caller) : Prop where
  holds : ∀ caller, (state.call caller).Holds id
  core : ∀ caller, (state.call caller).pastCore = true → state.core = id
  flow : state.flow = none ∨ state.flow = some (userIdentity id)
  assigned : ∀ caller, (state.call caller).done = true → state.flow = some (userIdentity id)
  prefs : state.prefs = some (bcIdentitySerialize id) ∨
    (state.prefs = none ∧ 1 ≤ state.missed.length ∧
      ∃ first, state.call first = .generated (bcIdentitySerialize id) ∧
        ∀ other, other ≠ first → state.call other = .idle)

def Progress (state : RepoState Caller) : Prop :=
  (∃ caller, state.call caller = .failed) ∨ 2 ≤ state.missed.length ∨ Undecided state ∨
    ∃ id, Settled id state

theorem assign_same {flow : Option UserIdentity} {identity : UserIdentity}
    (before : flow = none ∨ flow = some identity) : assign flow identity = some identity := by
  rcases before with empty | same
  · rw [empty]
    rfl
  · rw [same]
    simp [assign]

theorem goto_here (state : RepoState Caller) (caller : Caller) (next : CallState) :
    (state.goto caller next).call caller = next := Function.update_self _ _ _

theorem goto_elsewhere (state : RepoState Caller) (caller : Caller) (next : CallState)
    {other : Caller} (away : other ≠ caller) :
    (state.goto caller next).call other = state.call other := Function.update_of_ne away _ _

theorem goto_all {state : RepoState Caller} {caller : Caller} {next : CallState}
    (P : CallState → Prop) (here : P next)
    (elsewhere : ∀ other, other ≠ caller → P (state.call other)) :
    ∀ other, P ((state.goto caller next).call other) := by
  intro other
  by_cases same : other = caller
  · rw [same, goto_here]
    exact here
  · rw [goto_elsewhere state caller next same]
    exact elsewhere other same

theorem undecided_step {state after : RepoState Caller} {caller : Caller} {act : Access}
    (undecided : Undecided state)
    (step : access state caller (state.call caller) act = some after) : Progress after := by
  have phases : state.call caller = .idle ∨ (state.call caller = .missing ∧
      1 ≤ state.missed.length ∧ ∀ other, other ≠ caller → state.call other = .idle) := by
    rcases undecided.calls with allIdle | ⟨first, missing, others, counted⟩
    · exact .inl (allIdle caller)
    · by_cases here : caller = first
      · subst here
        exact .inr ⟨missing, counted, others⟩
      · exact .inl (others caller here)
  rcases access_cases step with
    ⟨data, -, stored, -⟩ | ⟨idle, -, result⟩ | ⟨data, id, found, -⟩ | ⟨id, missing, -, result⟩ |
      ⟨data, generated, -⟩ | ⟨data, assigned, -⟩ | ⟨core, result⟩
  · rw [undecided.prefs] at stored
    cases stored
  · rw [result]
    rcases undecided.calls with allIdle | ⟨first, missing, others, counted⟩
    · refine .inr (.inr (.inl ⟨undecided.prefs, undecided.flow, .inr ⟨caller, ?_, ?_, ?_⟩⟩))
      · exact goto_here state caller .missing
      · intro other away
        exact (goto_elsewhere state caller .missing away).trans (allIdle other)
      · rw [List.length_append]
        exact Nat.le_add_left _ _
    · refine .inr (.inl ?_)
      rw [List.length_append, List.length_singleton]
      exact Nat.succ_le_succ counted
  · rcases phases with idle | ⟨missing, -⟩
    · rw [idle] at found
      cases found
    · rw [missing] at found
      cases found
  · rcases phases with idle | ⟨-, counted, others⟩
    · rw [idle] at missing
      cases missing
    · rw [result]
      have idle : ∀ other, other ≠ caller →
          (state.goto caller (.generated (bcIdentitySerialize id))).call other = .idle :=
        fun other away => (goto_elsewhere state caller _ away).trans (others other away)
      refine .inr (.inr (.inr ⟨id, ?_, fun _ _ => rfl, .inl undecided.flow, ?_,
        .inr ⟨undecided.prefs, counted, caller, goto_here state caller _, idle⟩⟩))
      · apply goto_all (CallState.Holds id)
        · exact (rfl : bcIdentitySerialize id = bcIdentitySerialize id)
        · intro other away
          rw [others other away]
          trivial
      · apply goto_all (fun phase => phase.done = true → state.flow = some (userIdentity id))
        · intro wrong
          cases wrong
        · intro other away
          rw [others other away]
          intro wrong
          cases wrong
  · rcases phases with idle | ⟨missing, -⟩
    · rw [idle] at generated
      cases generated
    · rw [missing] at generated
      cases generated
  · rcases phases with idle | ⟨missing, -⟩
    · rw [idle] at assigned
      rcases assigned with wrong | wrong <;> cases wrong
    · rw [missing] at assigned
      rcases assigned with wrong | wrong <;> cases wrong
  · rw [result]
    exact .inl ⟨caller, goto_here state caller .failed⟩

omit [DecidableEq Caller] in
/-- A call that is under way and not about to write the identity found it in
the preferences, or has put it there. -/
theorem Settled.published {id : BcIdentity} {state : RepoState Caller}
    (settled : Settled id state) (caller : Caller) (active : state.call caller ≠ .idle)
    (written : state.call caller ≠ .generated (bcIdentitySerialize id)) :
    state.prefs = some (bcIdentitySerialize id) := by
  rcases settled.prefs with same | ⟨-, -, first, making, others⟩
  · exact same
  · by_cases here : caller = first
    · rw [here] at written
      exact absurd making written
    · exact absurd (others caller here) active

theorem Settled.goto {id : BcIdentity} {state after : RepoState Caller} {caller : Caller}
    {next : CallState} (settled : Settled id state)
    (calls : after.call = (state.goto caller next).call) (holds : next.Holds id)
    (core : after.core = id ∨ after.core = state.core ∧ next.pastCore = false)
    (flow : after.flow = some (userIdentity id) ∨ after.flow = state.flow ∧ next.done = false)
    (prefs : after.prefs = some (bcIdentitySerialize id)) : Settled id after := by
  refine ⟨?_, ?_, ?_, ?_, .inl prefs⟩
  · rw [calls]
    exact goto_all (CallState.Holds id) holds fun other _ => settled.holds other
  · rw [calls]
    rcases core with set | ⟨kept, before⟩
    · exact fun _ _ => set
    · rw [kept]
      apply goto_all (fun phase => phase.pastCore = true → state.core = id)
      · intro past
        rw [before] at past
        cases past
      · exact fun other _ => settled.core other
  · rcases flow with set | ⟨kept, -⟩
    · exact .inr set
    · rw [kept]
      exact settled.flow
  · rw [calls]
    rcases flow with set | ⟨kept, unfinished⟩
    · exact fun _ _ => set
    · rw [kept]
      apply goto_all (fun phase => phase.done = true → state.flow = some (userIdentity id))
      · intro finished
        rw [unfinished] at finished
        cases finished
      · exact fun other _ => settled.assigned other

theorem settled_step {id : BcIdentity} {state after : RepoState Caller} {caller : Caller}
    {act : Access} (settled : Settled id state)
    (step : access state caller (state.call caller) act = some after) : Progress after := by
  have holds := settled.holds caller
  rcases access_cases step with
    ⟨data, idle, stored, result⟩ | ⟨idle, empty, result⟩ | ⟨data, other, found, parsed, result⟩ |
      ⟨other, missing, -⟩ | ⟨data, generated, result⟩ | ⟨data, finishing, result⟩ | ⟨core, result⟩
  · -- A read of the preferences.
    have same : state.prefs = some (bcIdentitySerialize id) := by
      rcases settled.prefs with same | ⟨none, -⟩
      · exact same
      · rw [none] at stored
        cases stored
    have sameData : data = bcIdentitySerialize id := Option.some.inj (stored.symm.trans same)
    rw [result]
    exact .inr (.inr (.inr ⟨id,
      settled.goto rfl sameData (.inr ⟨rfl, rfl⟩) (.inr ⟨rfl, rfl⟩) same⟩))
  · -- A read that found nothing is the second one.
    rcases settled.prefs with same | ⟨-, counted, -⟩
    · rw [same] at empty
      cases empty
    · rw [result]
      refine .inr (.inl ?_)
      rw [List.length_append, List.length_singleton]
      exact Nat.succ_le_succ counted
  · rw [found] at holds
    have sameData : data = bcIdentitySerialize id := holds
    rw [sameData, identity_round_trip] at parsed
    have sameId : id = other := Option.some.inj parsed
    have same := settled.published caller (by simp [found]) (by simp [found])
    rw [result]
    exact .inr (.inr (.inr ⟨id,
      settled.goto rfl sameData (.inl sameId.symm) (.inr ⟨rfl, rfl⟩) same⟩))
  · rw [missing] at holds
    exact holds.elim
  · rw [generated] at holds
    have sameData : data = bcIdentitySerialize id := holds
    have core : state.core = id := settled.core caller (by rw [generated]; rfl)
    rw [result, sameData]
    exact .inr (.inr (.inr ⟨id, settled.goto rfl rfl (.inl core) (.inr ⟨rfl, rfl⟩) rfl⟩))
  · have under : data = bcIdentitySerialize id ∧ state.core = id ∧
        state.prefs = some (bcIdentitySerialize id) := by
      rcases finishing with loaded | stored
      · rw [loaded] at holds
        exact ⟨holds, settled.core caller (by rw [loaded]; rfl),
          settled.published caller (by simp [loaded]) (by simp [loaded])⟩
      · rw [stored] at holds
        exact ⟨holds, settled.core caller (by rw [stored]; rfl),
          settled.published caller (by simp [stored]) (by simp [stored])⟩
    obtain ⟨sameData, core, same⟩ := under
    have value : bytesToIdentity data = userIdentity id := by
      rw [sameData, bytes_to_identity_serialize]
    have flow : assign state.flow (bytesToIdentity data) = some (userIdentity id) := by
      rw [value]
      exact assign_same settled.flow
    rw [result]
    exact .inr (.inr (.inr ⟨id, settled.goto rfl value (.inl core) (.inl flow) same⟩))
  · rw [result]
    exact .inl ⟨caller, goto_here state caller .failed⟩

theorem progress_step {state after : RepoState Caller} {caller : Caller} {act : Access}
    (progress : Progress state)
    (step : access state caller (state.call caller) act = some after) : Progress after := by
  rcases progress with ⟨other, failed⟩ | twice | undecided | ⟨id, settled⟩
  · -- A failed call stays failed, whoever goes on.
    refine .inl ⟨other, ?_⟩
    by_cases same : other = caller
    · rw [← same, failed] at step
      cases act <;> cases step
    · rcases access_cases step with
        ⟨_, -, -, result⟩ | ⟨-, -, result⟩ | ⟨_, _, -, -, result⟩ | ⟨_, -, -, result⟩ |
          ⟨_, -, result⟩ | ⟨_, -, result⟩ | ⟨_, result⟩ <;>
      · rw [result]
        exact (goto_elsewhere state caller _ same).trans failed
  · refine .inr (.inl ?_)
    rcases access_cases step with
      ⟨_, -, -, result⟩ | ⟨-, -, result⟩ | ⟨_, _, -, -, result⟩ | ⟨_, -, -, result⟩ |
        ⟨_, -, result⟩ | ⟨_, -, result⟩ | ⟨_, result⟩
    case inr.inl =>
      rw [result, List.length_append]
      exact Nat.le_trans twice (Nat.le_add_right _ _)
    all_goals
      rw [result]
      exact twice
  · exact undecided_step undecided step
  · exact settled_step settled step

theorem progress_initially {state : RepoState Caller}
    (start : (repoSystem Caller).initial state) : Progress state := by
  obtain ⟨prefs, flow, idle, -, -⟩ := start
  rcases prefs with none | ⟨id, stored⟩
  · exact .inr (.inr (.inl ⟨none, flow, .inl idle⟩))
  · refine .inr (.inr (.inr ⟨id, ?_, ?_, .inl flow, ?_, .inl stored⟩))
    · intro caller
      rw [idle caller]
      trivial
    · intro caller past
      rw [idle caller] at past
      cases past
    · intro caller finished
      rw [idle caller] at finished
      cases finished

def CallState.carries : CallState → Option UserIdentity
  | .found data => some (bytesToIdentity data)
  | .loaded data => some (bytesToIdentity data)
  | .generated data => some (bytesToIdentity data)
  | .stored data => some (bytesToIdentity data)
  | .returned identity => some identity
  | _ => none

structure Apart (state : RepoState Caller) : Prop where
  nodup : state.missed.Nodup
  begun : ∀ caller ∈ state.missed, state.call caller ≠ .idle
  known : ∀ caller ∈ state.missed, ∀ identity,
    (state.call caller).carries = some identity →
      identity.pubKey ∈ state.keys.map List.Vector.toList
  apart : ∀ first ∈ state.missed, ∀ second ∈ state.missed, first ≠ second →
    ∀ mine theirs, (state.call first).carries = some mine →
      (state.call second).carries = some theirs → mine.pubKey ≠ theirs.pubKey

omit [DecidableEq Caller] in
theorem Apart.of_carries {state after : RepoState Caller} (inv : Apart state)
    (missed : after.missed = state.missed) (keys : after.keys = state.keys)
    (begun : ∀ caller ∈ state.missed, after.call caller ≠ .idle)
    (carries : ∀ caller ∈ state.missed, ∀ identity,
      (after.call caller).carries = some identity →
        (state.call caller).carries = some identity) : Apart after := by
  refine ⟨?_, ?_, ?_, ?_⟩
  · rw [missed]
    exact inv.nodup
  · rw [missed]
    exact begun
  · rw [missed, keys]
    exact fun caller member identity held =>
      inv.known caller member identity (carries caller member identity held)
  · rw [missed]
    exact fun first firstIn second secondIn different mine theirs mineHeld theirsHeld =>
      inv.apart first firstIn second secondIn different mine theirs
        (carries first firstIn mine mineHeld) (carries second secondIn theirs theirsHeld)

theorem Apart.goto {state after : RepoState Caller} (inv : Apart state) (caller : Caller)
    (next : CallState) (calls : after.call = (state.goto caller next).call)
    (missed : after.missed = state.missed) (keys : after.keys = state.keys)
    (active : next ≠ .idle)
    (carries : caller ∈ state.missed → ∀ identity, next.carries = some identity →
      (state.call caller).carries = some identity) : Apart after := by
  apply inv.of_carries missed keys
  · intro other member
    rw [calls]
    by_cases same : other = caller
    · rw [same, goto_here]
      exact active
    · rw [goto_elsewhere state caller next same]
      exact inv.begun other member
  · intro other member identity held
    rw [calls] at held
    by_cases same : other = caller
    · subst same
      rw [goto_here] at held
      exact carries member identity held
    · rwa [goto_elsewhere state caller next same] at held

theorem Apart.miss {state after : RepoState Caller} {caller : Caller} (inv : Apart state)
    (idle : state.call caller = .idle)
    (result : after =
      { state.goto caller .missing with missed := state.missed ++ [caller] }) : Apart after := by
  have unheard : caller ∉ state.missed := fun member => inv.begun caller member idle
  have calls : ∀ other ∈ state.missed, after.call other = state.call other := by
    intro other member
    rw [result]
    exact goto_elsewhere state caller .missing fun same => unheard (same ▸ member)
  have here : after.call caller = .missing := by
    rw [result]
    exact goto_here state caller .missing
  have nothing : ∀ identity, (after.call caller).carries ≠ some identity := by
    intro identity wrong
    rw [here] at wrong
    cases wrong
  have missed : ∀ other ∈ after.missed, other ∈ state.missed ∨ other = caller := by
    intro other member
    rw [result] at member
    rcases List.mem_append.mp member with before | new
    · exact .inl before
    · exact .inr (List.mem_singleton.mp new)
  refine ⟨?_, ?_, ?_, ?_⟩
  · rw [result]
    show (state.missed ++ [caller]).Nodup
    rw [List.nodup_append_comm]
    exact List.nodup_cons.mpr ⟨unheard, inv.nodup⟩
  · intro other member
    rcases missed other member with before | same
    · rw [calls other before]
      exact inv.begun other before
    · rw [same, here]
      simp
  · intro other member identity held
    rcases missed other member with before | same
    · rw [calls other before] at held
      rw [result]
      exact inv.known other before identity held
    · exact absurd held (same ▸ nothing identity)
  · intro first firstIn second secondIn different mine theirs mineHeld theirsHeld
    rcases missed first firstIn with before | same
    · rcases missed second secondIn with alsoBefore | same
      · rw [calls first before] at mineHeld
        rw [calls second alsoBefore] at theirsHeld
        exact inv.apart first before second alsoBefore different mine theirs mineHeld theirsHeld
      · exact absurd theirsHeld (same ▸ nothing theirs)
    · exact absurd mineHeld (same ▸ nothing mine)

theorem Apart.generate {state after : RepoState Caller} {caller : Caller} {id : BcIdentity}
    (inv : Apart state) (fresh : id.pubkey ∉ state.keys)
    (result : after = { state.goto caller (.generated (bcIdentitySerialize id)) with
      core := id
      keys := state.keys ++ [id.pubkey] }) : Apart after := by
  have here : after.call caller = .generated (bcIdentitySerialize id) := by
    rw [result]
    exact goto_here state caller _
  have own : ∀ identity, (after.call caller).carries = some identity →
      identity.pubKey = id.pubkey.toList := by
    intro identity held
    rw [here] at held
    have same : bytesToIdentity (bcIdentitySerialize id) = identity := Option.some.inj held
    rw [← same, bytes_to_identity_serialize]
    rfl
  have calls : ∀ other, other ≠ caller → after.call other = state.call other := by
    intro other away
    rw [result]
    exact goto_elsewhere state caller _ away
  have missed : after.missed = state.missed := by rw [result]; rfl
  have older : ∀ other ∈ state.missed, other ≠ caller → ∀ identity,
      (after.call other).carries = some identity → identity.pubKey ≠ id.pubkey.toList := by
    intro other member away identity held same
    rw [calls other away] at held
    have old := inv.known other member identity held
    rw [same] at old
    obtain ⟨key, inKeys, sameKey⟩ := List.mem_map.mp old
    rw [List.Vector.toList_injective sameKey] at inKeys
    exact fresh inKeys
  refine ⟨?_, ?_, ?_, ?_⟩
  · rw [missed]
    exact inv.nodup
  · rw [missed]
    intro other member
    by_cases same : other = caller
    · rw [same, here]
      simp
    · rw [calls other same]
      exact inv.begun other member
  · rw [missed]
    intro other member identity held
    rw [result]
    show identity.pubKey ∈ (state.keys ++ [id.pubkey]).map List.Vector.toList
    rw [List.map_append]
    by_cases same : other = caller
    · rw [own identity (same ▸ held)]
      exact List.mem_append_right _ (List.mem_singleton_self _)
    · rw [calls other same] at held
      exact List.mem_append_left _ (inv.known other member identity held)
  · rw [missed]
    intro first firstIn second secondIn different mine theirs mineHeld theirsHeld
    by_cases isFirst : first = caller
    · rw [own mine (isFirst ▸ mineHeld)]
      exact (older second secondIn (fun same => different (isFirst.trans same.symm)) theirs
        theirsHeld).symm
    · by_cases isSecond : second = caller
      · rw [own theirs (isSecond ▸ theirsHeld)]
        exact older first firstIn isFirst mine mineHeld
      · rw [calls first isFirst] at mineHeld
        rw [calls second isSecond] at theirsHeld
        exact inv.apart first firstIn second secondIn different mine theirs mineHeld theirsHeld

theorem apart_step {state after : RepoState Caller} {caller : Caller} {act : Access}
    (inv : Apart state)
    (step : access state caller (state.call caller) act = some after) : Apart after := by
  rcases access_cases step with
    ⟨data, idle, -, result⟩ | ⟨idle, -, result⟩ | ⟨data, id, found, -, result⟩ |
      ⟨id, missing, fresh, result⟩ | ⟨data, generated, result⟩ | ⟨data, finishing, result⟩ |
      ⟨core, result⟩
  · subst result
    refine inv.goto caller (.found data) rfl rfl rfl (by simp) ?_
    exact fun member => absurd idle (inv.begun caller member)
  · exact inv.miss idle result
  · subst result
    refine inv.goto caller (.loaded data) rfl rfl rfl (by simp) ?_
    intro _ identity held
    rw [found]
    exact held
  · exact inv.generate fresh result
  · subst result
    refine inv.goto caller (.stored data) rfl rfl rfl (by simp) ?_
    intro _ identity held
    rw [generated]
    exact held
  · subst result
    refine inv.goto caller (.returned (bytesToIdentity data)) rfl rfl rfl (by simp) ?_
    intro _ identity held
    rcases finishing with loaded | stored
    · rw [loaded]
      exact held
    · rw [stored]
      exact held
  · subst result
    refine inv.goto caller .failed rfl rfl rfl (by simp) ?_
    intro _ identity held
    cases held

theorem apart_initially {state : RepoState Caller} (start : (repoSystem Caller).initial state) :
    Apart state := by
  obtain ⟨-, -, -, -, missed⟩ := start
  refine ⟨?_, ?_, ?_, ?_⟩ <;> simp [missed]

omit [DecidableEq Caller] in
/-- Two calls that found nothing have returned different identities. -/
theorem Apart.one_miss {state : RepoState Caller} (inv : Apart state) {id : BcIdentity}
    (results : ∀ caller, state.call caller = .idle ∨
      state.call caller = .returned (userIdentity id)) : state.missed.length ≤ 1 := by
  by_contra several
  obtain ⟨first, second, rest, split⟩ : ∃ first second rest,
      state.missed = first :: second :: rest := by
    match misses : state.missed with
    | [] => simp [misses] at several
    | [_] => simp [misses] at several
    | first :: second :: rest => exact ⟨first, second, rest, rfl⟩
  have firstIn : first ∈ state.missed := by simp [split]
  have secondIn : second ∈ state.missed := by simp [split]
  have different : first ≠ second := by
    have nodup := inv.nodup
    rw [split] at nodup
    exact fun same => (List.nodup_cons.mp nodup).1 (same ▸ List.mem_cons_self)
  have firstDone := (results first).resolve_left (inv.begun first firstIn)
  have secondDone := (results second).resolve_left (inv.begun second secondIn)
  apply inv.apart first firstIn second secondIn different (userIdentity id) (userIdentity id)
  · rw [firstDone]
    rfl
  · rw [secondDone]
    rfl
  · rfl

omit [DecidableEq Caller] in
theorem Settled.one_identity {id : BcIdentity} {state : RepoState Caller}
    (settled : Settled id state) (returned : AllReturned state) : OneIdentity state := by
  obtain ⟨⟨caller, started⟩, finished⟩ := returned
  have results : ∀ other, state.call other = .idle ∨
      state.call other = .returned (userIdentity id) := by
    intro other
    rcases finished other with idle | ⟨identity, done⟩
    · exact .inl idle
    · have holds := settled.holds other
      rw [done] at holds
      have same : identity = userIdentity id := holds
      exact .inr (same ▸ done)
  have done := (results caller).resolve_left started
  exact ⟨id, settled.core caller (by rw [done]; rfl),
    settled.published caller started (by simp [done]),
    settled.assigned caller (by rw [done]; rfl), results⟩

/-- Once all calls have returned success, they agree with the core, the
preferences and the flow on one identity exactly when at most one of them
found the preferences empty. -/
theorem one_identity_iff {state : RepoState Caller} (reached : Reachable (repoSystem Caller) state)
    (returned : AllReturned state) : OneIdentity state ↔ state.missed.length ≤ 1 := by
  constructor
  · rintro ⟨id, -, -, -, results⟩
    have inv : Apart state :=
      Reachable.invariant Apart (fun _ start => apart_initially start)
        (fun _ _ _ inv step => apart_step inv step) reached
    exact inv.one_miss results
  · intro single
    have progress : Progress state :=
      Reachable.invariant Progress (fun _ start => progress_initially start)
        (fun _ _ _ inv step => progress_step inv step) reached
    rcases progress with ⟨other, failed⟩ | twice | undecided | ⟨id, settled⟩
    · rcases returned.2 other with idle | ⟨identity, done⟩
      · rw [idle] at failed
        cases failed
      · rw [done] at failed
        cases failed
    · omega
    · obtain ⟨caller, started⟩ := returned.1
      rcases undecided.calls with idle | ⟨first, missing, -⟩
      · exact absurd (idle caller) started
      · rcases returned.2 first with idle | ⟨identity, done⟩
        · rw [idle] at missing
          cases missing
        · rw [done] at missing
          cases missing
    · exact settled.one_identity returned

def RepoState.run (state : RepoState Caller) (caller : Caller) (act : Access) : RepoState Caller :=
  (access state caller (state.call caller) act).getD state

theorem reachable_run {state : RepoState Caller} (caller : Caller) (act : Access)
    (reached : Reachable (repoSystem Caller) state)
    (enabled : (access state caller (state.call caller) act).isSome = true) :
    Reachable (repoSystem Caller) (state.run caller act) := by
  apply Reachable.next (caller, act) reached
  show access state caller (state.call caller) act = some (state.run caller act)
  obtain ⟨after, result⟩ := Option.isSome_iff_exists.mp enabled
  rw [RepoState.run, result]
  rfl

end Calls

def firstLaunch : RepoState Bool where
  prefs := none
  core := ⟨List.Vector.replicate 32 0, List.Vector.replicate 32 0⟩
  flow := none
  call := fun _ => .idle
  keys := []
  missed := []

def sampleIdentity (tag : UInt8) : BcIdentity :=
  ⟨List.Vector.replicate 32 tag, List.Vector.replicate 32 (tag + 100)⟩

theorem first_launch_reachable : Reachable (repoSystem Bool) firstLaunch :=
  .start ⟨.inl rfl, rfl, fun _ => rfl, rfl, rfl⟩

def oneAfterTheOther : RepoState Bool :=
  ((((((firstLaunch.run false .readPrefs).run false (.generateIdentity (sampleIdentity 1))).run
    false .writePrefs).run false .assignFlow).run true .readPrefs).run true .loadIdentity).run
    true .assignFlow

theorem one_after_the_other_iff :
    OneIdentity oneAfterTheOther ↔ oneAfterTheOther.missed.length ≤ 1 := by
  apply one_identity_iff
  · have read := reachable_run false .readPrefs first_launch_reachable rfl
    have generated := reachable_run false (.generateIdentity (sampleIdentity 1)) read rfl
    have written := reachable_run false .writePrefs generated rfl
    have assigned := reachable_run false .assignFlow written rfl
    have readBack := reachable_run true .readPrefs assigned rfl
    have loaded := reachable_run true .loadIdentity readBack (by decide)
    exact reachable_run true .assignFlow loaded (by decide)
  · refine ⟨⟨false, by decide⟩, ?_⟩
    intro caller
    exact .inr ⟨userIdentity (sampleIdentity 1), by cases caller <;> decide⟩

/-- Both calls find nothing; the second to generate is the first to store. -/
def racedLaunch : RepoState Bool :=
  (((((((firstLaunch.run false .readPrefs).run true .readPrefs).run false
    (.generateIdentity (sampleIdentity 1))).run true (.generateIdentity (sampleIdentity 2))).run
    true .writePrefs).run false .writePrefs).run true .assignFlow).run false .assignFlow

theorem raced_launch_disagrees :
    ∃ state : RepoState Bool, Reachable (repoSystem Bool) state ∧ AllReturned state ∧
      ¬ OneIdentity state := by
  refine ⟨racedLaunch, ?_, ?_, ?_⟩
  · have first := reachable_run false .readPrefs first_launch_reachable rfl
    have second := reachable_run true .readPrefs first rfl
    have generated := reachable_run false (.generateIdentity (sampleIdentity 1)) second rfl
    have again := reachable_run true (.generateIdentity (sampleIdentity 2)) generated (by decide)
    have written := reachable_run true .writePrefs again (by decide)
    have overwritten := reachable_run false .writePrefs written (by decide)
    have assigned := reachable_run true .assignFlow overwritten (by decide)
    exact reachable_run false .assignFlow assigned (by decide)
  · refine ⟨⟨false, by decide⟩, ?_⟩
    intro caller
    cases caller
    · exact .inr ⟨userIdentity (sampleIdentity 1), by decide⟩
    · exact .inr ⟨userIdentity (sampleIdentity 2), by decide⟩
  · rintro ⟨id, core, prefs, -, -⟩
    have coreKeeps : racedLaunch.core = sampleIdentity 2 := by decide
    have prefsKeep : racedLaunch.prefs = some (bcIdentitySerialize (sampleIdentity 1)) := by decide
    rw [← core, coreKeeps] at prefs
    rw [prefs] at prefsKeep
    revert prefsKeep
    decide

end BitChat.IdentityRepository
