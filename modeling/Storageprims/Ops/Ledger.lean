import Storageprims.Ops.Budget

/-!
# The inspection ledger

Every bounded operation keeps one ledger: what it has reserved so far against
its budget, and the deadline all its awaits share.  An operation is a script
over the ledger (`Inspect`); the few checks made before a ledger exists run in
`Session`, where the ledger is still optional.

Every request carries the ledger as it stands when the request is made, so a
trace records the reservations at each of its points.
-/

namespace Storageprims

open Interaction

structure InspectionLedger where
  provider : ProviderKind
  operation : StorageOperation
  budget : InspectionBudget
  deadline : Instant
  helperRequests : Nat
  payloadBytes : Nat
  outputBytes : Nat
  deriving DecidableEq

/-- A request together with the ledger of the operation that makes it. -/
structure Step where
  ledger : Option InspectionLedger
  request : Request

abbrev Reply (step : Step) : Type := Response step.request

/-- A function of the source that works on a ledger. -/
abbrev Inspect (α : Type) : Type := Script Step Reply InspectionLedger Failure α

/-- An operation, from before its ledger exists. -/
abbrev Session (α : Type) : Type := Script Step Reply (Option InspectionLedger) Failure α

/-- Points of a run, seen from the operation. -/
abbrev Transcript : Type := List (Event Step Reply)

/-- Make a request and wait for what comes back. -/
def issue (request : Request) : Inspect (Response request) := fun ledger =>
  .call ⟨some ledger, request⟩ fun response => .ret (.ok response, ledger)

/-- Return an error. -/
def raise {S α : Type} (error : StorageError) : Script Step Reply S Failure α :=
  Script.fail (.error error)

/-- The `?` operator on a result of the source. -/
def orRaise {S α : Type} : Except StorageError α → Script Step Reply S Failure α
  | .ok value => pure value
  | .error error => raise error

namespace InspectionLedger

def limit (ledger : InspectionLedger) (dimension : InspectionLimitDimension)
    (configuredLimit consumed : Nat) : StorageError :=
  .inspection (some ledger.provider) ledger.operation .limitExceeded (some dimension)
    configuredLimit consumed

/-- The wall time in milliseconds, capped at the largest 64-bit number. -/
def wallMillis (ledger : InspectionLedger) : Nat :=
  min ledger.budget.wallTime.asMillis (u64Bound - 1)

/-- The error of an await that the deadline cut short. -/
def deadlineLimit (ledger : InspectionLedger) : StorageError :=
  ledger.limit .deadline ledger.wallMillis ledger.wallMillis

/-- Read the clock before there is a ledger. -/
def startClock : Session Instant := fun state =>
  .call ⟨none, .now⟩ fun response => .ret (.ok response, state)

/-- `InspectionLedger::new`: the clock is read once, before the ledger exists. -/
def new (provider : ProviderKind) (operation : StorageOperation) (budget : InspectionBudget) :
    Session InspectionLedger := do
  orRaise (validateBudget operation budget)
  let now ← startClock
  match now.checkedAdd budget.wallTime with
  | none => raise (.invalidArgument (some operation) "wall_time"
      "duration cannot be represented by the monotonic clock")
  | some deadline =>
      return {
        provider, operation, budget, deadline
        helperRequests := 0
        payloadBytes := 0
        outputBytes := 0
      }

def checkDeadline : Inspect Unit := do
  let ledger ← Script.read
  let now : Instant ← issue .now
  if now ≥ ledger.deadline then
    raise ledger.deadlineLimit
  else pure ()

/-- Count one provider request. -/
def request : Inspect Unit := do
  checkDeadline
  let ledger ← Script.read
  let next := ledger.helperRequests + 1
  if next ≥ 2 ^ 32 then
    raise (ledger.limit .requests ledger.budget.helperRequests (u64Bound - 1))
  else if next > ledger.budget.helperRequests then
    raise (ledger.limit .requests ledger.budget.helperRequests next)
  else
    Script.write { ledger with helperRequests := next }

/-- Reserve payload bytes before they are read. -/
def admitPayload (bytes : Nat) : Inspect Unit := do
  checkDeadline
  let ledger ← Script.read
  match Storageprims.checkedAdd ledger.payloadBytes bytes with
  | none => raise (ledger.limit .payloadBytes ledger.budget.payloadBytes (u64Bound - 1))
  | some next =>
      if next > ledger.budget.payloadBytes then
        raise (ledger.limit .payloadBytes ledger.budget.payloadBytes next)
      else
        Script.write { ledger with payloadBytes := next }

/-- Give back what was reserved and not read. -/
def releasePayload (bytes : Nat) : Inspect Unit := do
  let ledger ← Script.read
  Script.write { ledger with payloadBytes := ledger.payloadBytes - bytes }

def admitOutput (bytes : Nat) : Inspect Unit := do
  let ledger ← Script.read
  match Storageprims.checkedAdd ledger.outputBytes bytes with
  | none => raise (ledger.limit .outputBytes ledger.budget.outputBytes (u64Bound - 1))
  | some next =>
      if next > ledger.budget.outputBytes then
        raise (ledger.limit .outputBytes ledger.budget.outputBytes next)
      else
        Script.write { ledger with outputBytes := next }

end InspectionLedger

/-- Run a function that works on a ledger, once there is one. -/
def withLedger {α : Type} (ledger : InspectionLedger) (body : Inspect α) : Session α := fun _ =>
  (body ledger).bind fun out => .ret (out.1, some out.2)

/-- `timeout_at(..).await.map_err(..)`: the deadline turns into its limit error. -/
def inTime {α : Type} : Awaited α → Inspect α
  | .elapsed => do
      let ledger ← Script.read
      raise ledger.deadlineLimit
  | .ready value => pure value

/-- The two `?` of an awaited provider call. -/
def settle {α : Type} (answer : Awaited (Except StorageError α)) : Inspect α := do
  let result ← inTime answer
  orRaise result

section Rules

variable {σ α β : Type} {env : Environment Step Reply σ} {inv : σ → Prop}
variable {ledger : InspectionLedger} {outer : σ}

theorem ensures_bind_issue {request : Request} {next : Response request → Inspect β}
    {ok : β → InspectionLedger → σ → Prop} {fails : Failure → InspectionLedger → σ → Prop} :
    Script.Ensures env inv (issue request >>= next) ok fails ledger outer ↔
      inv outer ∧ ∀ (response : Response request) outer',
        env outer ⟨some ledger, request⟩ response outer' →
          Script.Ensures env inv (next response) ok fails ledger outer' := Iff.rfl

theorem ensures_raise {S : Type} {state : S} {error : StorageError}
    {ok : α → S → σ → Prop} {fails : Failure → S → σ → Prop} :
    Script.Ensures env inv (raise error : Script Step Reply S Failure α) ok fails state outer ↔
      inv outer ∧ fails (.error error) state outer := Iff.rfl

theorem ensures_bind_orRaise {S : Type} {state : S} {result : Except StorageError α}
    {next : α → Script Step Reply S Failure β} {ok : β → S → σ → Prop}
    {fails : Failure → S → σ → Prop}
    (hfails : ∀ error, result = .error error → inv outer ∧ fails (.error error) state outer)
    (hok : ∀ value, result = .ok value →
      Script.Ensures env inv (next value) ok fails state outer) :
    Script.Ensures env inv (orRaise result >>= next) ok fails state outer := by
  cases result with
  | ok value => exact hok value rfl
  | error error => exact hfails error rfl

/-- An awaited call that was late or failed stops the sequence; else the sequence
goes on with its value. -/
theorem ensures_bind_settle {answer : Awaited (Except StorageError α)} {next : α → Inspect β}
    {ok : β → InspectionLedger → σ → Prop} {fails : Failure → InspectionLedger → σ → Prop}
    (hfails : (∀ value, answer ≠ .ready (.ok value)) → ∀ failure,
      inv outer ∧ fails failure ledger outer)
    (hok : ∀ value, answer = .ready (.ok value) →
      Script.Ensures env inv (next value) ok fails ledger outer) :
    Script.Ensures env inv (settle answer >>= next) ok fails ledger outer := by
  rcases answer with _ | (error | value)
  · exact hfails (fun _ heq => by cases heq) _
  · exact hfails (fun _ heq => by cases heq) _
  · exact hok value rfl

/-- A function on a ledger, seen from the operation that owns the ledger. -/
theorem ensures_withLedger {body : Inspect α} {state : Option InspectionLedger}
    {ok : α → Option InspectionLedger → σ → Prop}
    {fails : Failure → Option InspectionLedger → σ → Prop}
    (h : Script.Ensures env inv body (fun value ledger' => ok value (some ledger'))
      (fun failure ledger' => fails failure (some ledger')) ledger outer) :
    Script.Ensures env inv (withLedger ledger body) ok fails state outer := by
  refine Program.Ensures.bind h ?_
  rintro ⟨result, ledger'⟩ outer' hinv hpost
  cases result with
  | ok value => exact ⟨hinv, hpost⟩
  | error failure => exact ⟨hinv, hpost⟩

end Rules

end Storageprims
