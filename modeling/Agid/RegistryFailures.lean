import Agid.RegistryAdapters

/-!
# Calls of the POS registry that throw

The calls of `PosAgidSecureRegistryStore` on a state in memory, each run to its end with no other
call in between, where an operation of `persist` may fail.  An environment that fails is one in
which some file operation of that mutation does.
-/

namespace Agid.RegistryFailures

open AgidSecurePos PosRegistry
open RegistryAdapters (syncItems syncResult skippedEvent Timely)

section Platform

variable (platform : Platform)

/-- `mutate` from the answer of `apply` on.  `persist` comes after every change of the state. -/
def finish (env : Env) (m : Mutation) (nowMs : JsNumber) (a : Applied) :
    StoredState × Except JsString MutationResult :=
  match auditEvent platform env m.action.action m.input a.outcome a.errors nowMs with
  | .error e => (a.state, .error e)
  | .ok event =>
    let state := a.state.logged event
    (state, if env.fails then .error ioError
      else (publicStatus platform state nowMs).map fun status =>
        ⟨a.outcome = .accepted, a.decision, event, status⟩)

/-- `markUsed`, `revokeToken` and `revokeKey`. -/
def mutate (env : Env) (state : StoredState) (m : Mutation) :
    StoredState × Except JsString MutationResult :=
  let nowMs := m.input.now.getD (.finite env.now)
  match apply platform state m nowMs with
  | .error e => (state, .error e)
  | .ok a => finish platform env m nowMs a

def answerItem (input : DeferredSyncInput) (env : Env) (state : StoredState) :
    Option Mutation → StoredState × Except JsString AuditEvent
  | none => (state, skippedEvent platform env input)
  | some m => ((mutate platform env state m).1, (mutate platform env state m).2.map (·.event))

/-- The items that are looked at. -/
def syncedItems (input : DeferredSyncInput) : List (Option Mutation) :=
  (input.items.take 100).map (syncMutation platform input)

def applyDeferredSync (envs : ℕ → Env) (state : StoredState) (input : DeferredSyncInput) :
    StoredState × Except JsString DeferredSyncResult :=
  match syncItems (answerItem platform input) envs state (syncedItems platform input) with
  | (state, .error e) => (state, .error e)
  | (state, .ok events) =>
    let nowMs := input.now.getD (.finite (envs (syncedItems platform input).length).now)
    (state, (publicStatus platform state nowMs).map (syncResult events))

/-! ## What is asked of a call -/

/-- A call that throws leaves the state as it was. -/
def KeepsState {α : Type} (state : StoredState) (answer : StoredState × Except JsString α) : Prop :=
  ∀ e, answer.2 = .error e → answer.1 = state

/-- Each item is one of those that were accepted, rejected or in conflict, and has its event.  A
call that throws says nothing of its items. -/
def Accounts (input : DeferredSyncInput) (answer : Except JsString DeferredSyncResult) : Prop :=
  match answer with
  | .ok result => result.accepted + result.rejected + result.conflicts = input.items.length
    ∧ result.events.length = input.items.length
  | .error _ => input.items = []

/-- The law for a call of the store. -/
def Lawful (envs : ℕ → Env) (state : StoredState) : Request → Prop
  | .mutation m => KeepsState state (mutate platform (envs 0) state m)
  | .applyDeferredSync input => KeepsState state (applyDeferredSync platform envs state input)
    ∧ Accounts input (applyDeferredSync platform envs state input).2

/-- The mutation throws before it changes anything: a use because its time or the end of its
freshness cannot be written, a revocation because its time cannot, where there is nothing to
revoke. -/
def ThrowsFirst (state : StoredState) (m : Mutation) (nowMs : JsNumber) : Prop :=
  match m.action with
  | .markUsed => ¬ Timely nowMs
  | .revokeToken => timeClip nowMs = none ∧ (revokeToken platform state m.input).state = state
  | .revokeKey => timeClip nowMs = none ∧ (revokeKey state m.input).state = state

/-- The time that a mutation is given, if it is, can be written, and no file operation fails. -/
def Succeeds (env : Env) (m : Mutation) : Prop :=
  (∀ n, m.input.now = some n → Timely n) ∧ env.fails = false

/-- When a call obeys the law. -/
def HoldsWhen (envs : ℕ → Env) (state : StoredState) : Request → Prop
  | .mutation m => Succeeds (envs 0) m
    ∨ ThrowsFirst platform state m (m.input.now.getD (.finite (envs 0).now))
  | .applyDeferredSync input => input.items = []
    ∨ input.items.length ≤ 100 ∧ (∀ n, input.now = some n → Timely n)
      ∧ ∀ i m, (syncedItems platform input)[i]? = some (some m) → Succeeds (envs i) m

/-- The clock can be written, and no event of the state has an identifier that is given out. -/
def Ordinary (envs : ℕ → Env) (state : StoredState) : Prop :=
  ∀ i, Timely (.finite (envs i).now) ∧ ∀ event ∈ state.audit, event.eventId ≠ (envs i).uuid 0

end Platform

end Agid.RegistryFailures
