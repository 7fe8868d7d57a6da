import Quickspin.Control
import Quickspin.Runtime
import Mathlib.Data.List.Sort

/-! The reconciler (`internal/reconciler`): pair the rows with the observed containers, decide on each
pair by the table, and act. -/
namespace Quickspin
open Interaction
set_option autoImplicit false

/-! ## The decision -/

/-- The decision table: the desired row against the observed container, expiry first. -/
def decideReconcileAction (desired : Option Sandbox) (observed : Option Runtime.Info) (now : Time) :
    ReconcileAction :=
  match desired with
  | none =>
    match observed with
    | none => .none
    | some _ => .destroyOrphan
  | some desired =>
    if !(desired.state == .stopped || desired.state == .failed) && now.after desired.expiresAt then .reap
    else
      match desired.state with
      | .pending =>
        match observed with
        | none => .create
        | some info => if info.state = .stopped then .markFailed else .markRunning
      | .running =>
        match observed with
        | none => .markFailed
        | some info => if info.state = .stopped then .markFailed else .none
      | .stopping =>
        match observed with
        | none => .markStopped
        | some _ => .destroy
      | .stopped | .failed =>
        match observed with
        | none => .none
        | some _ => .destroy
      | .other _ _ => .none

/-! ## The pairing -/

/-- A row with the container observed for it, or a container without a row. -/
inductive ReconcileItem
  | row (desired : Sandbox) (observed : Option Runtime.Info)
  | orphan (observed : Runtime.Info)

namespace ReconcileItem

def desired : ReconcileItem → Option Sandbox
  | .row desired _ => some desired
  | .orphan _ => none

def observed : ReconcileItem → Option Runtime.Info
  | .row _ observed => observed
  | .orphan observed => some observed

def id : ReconcileItem → String
  | .row desired _ => desired.sandboxID
  | .orphan observed => observed.id

end ReconcileItem

/-- The containers by id: a later one replaces an earlier one. -/
def indexInfos : List Runtime.Info → List Runtime.Info
  | [] => []
  | info :: rest => if rest.any fun other => other.id = info.id then indexInfos rest else info :: indexInfos rest

/-- Every row with its container, each container used once; what is left is orphans. -/
def joinSnapshots : List Sandbox → List Runtime.Info → List ReconcileItem
  | [], infos => infos.map .orphan
  | sbx :: rest, infos =>
    .row sbx (infos.find? fun info => info.id = sbx.sandboxID) ::
      joinSnapshots rest (infos.filter fun info => info.id ≠ sbx.sandboxID)

/-- The outer join, sorted by id. -/
def pairSnapshots (sbxs : List Sandbox) (infos : List Runtime.Info) : List ReconcileItem :=
  (joinSnapshots sbxs (indexInfos infos)).insertionSort fun a b => a.id ≤ b.id

/-! ## The actions -/

namespace Reconciler

def handleActionOp : String := "reconciler.Reconciler.handleAction"

/-- The guarded transition every action that writes ends in. -/
def mark (sbx : Sandbox) (toState : TaskState) (reason describing : String) :
    Program (calls Runtime.signature) (Except Err Unit) := do
  match ← store (.updateSandboxState sbx.sandboxID sbx.state toState reason sbx.versionID) with
  | .error err => return .error (wrap handleActionOp describing err)
  | .ok _ => return .ok ()

/-- Create the container and record it; a write-back that fails is undone by destroying the container. -/
def handleCreate (sbx : Sandbox) : Program (calls Runtime.signature) (Except Err Unit) := do
  let id := sbx.sandboxID
  match sbx.spec.resolveValidated with
  | .error _ =>
    mark sbx .failed "reconciler failed sandbox: spec does not resolve"
      s!"recording sandbox {id} as failed after its spec did not resolve"
  | .ok resolved =>
    match ← backend (D := Runtime.signature) (.create id resolved) with
    | .error err => return .error (wrap handleActionOp s!"creating sandbox {id}" err)
    | .ok _ =>
      match ← store (.updateSandboxState id .pending .running "reconciler created container" sbx.versionID) with
      | .ok _ => return .ok ()
      | .error err =>
        match ← backend (D := Runtime.signature) (.destroy id) with
        | .error destroyErr => return .error (wrap handleActionOp
            s!"recording sandbox {id} as running failed and removing its container also failed"
            (joinErr err destroyErr))
        | .ok () => return .error (wrap handleActionOp
            s!"recording sandbox {id} as running failed; container removed" err)

/-- Remove the leftover container; for a stopping row this completes the stop. -/
def handleDestroy (sbx : Sandbox) : Program (calls Runtime.signature) (Except Err Unit) := do
  let id := sbx.sandboxID
  match ← backend (D := Runtime.signature) (.destroy id) with
  | .error err => return .error (wrap handleActionOp s!"destroying leftover container for sandbox {id}" err)
  | .ok () =>
    if sbx.state = .stopping then
      mark sbx .stopped "reconciler destroyed container" s!"recording sandbox {id} as stopped"
    else return .ok ()

def handleDestroyOrphan (id : String) : Program (calls Runtime.signature) (Except Err Unit) := do
  match ← backend (D := Runtime.signature) (.destroy id) with
  | .error err => return .error (wrap handleActionOp s!"destroying orphan sandbox {id}" err)
  | .ok () => return .ok ()

/-- The legal terminal state of an expired row. -/
def reapedState (s : TaskState) : TaskState := if s = .stopping then .stopped else .failed

/-- Destroy the container of an expired row, if there is one, and record its end. -/
def handleReap (sbx : Sandbox) (observed : Option Runtime.Info) :
    Program (calls Runtime.signature) (Except Err Unit) := do
  let id := sbx.sandboxID
  let toState := reapedState sbx.state
  let record := mark sbx toState "reconciler reaped expired sandbox"
    s!"recording reaped sandbox {id} as {toState.text}"
  match observed with
  | none => record
  | some _ =>
    match ← backend (D := Runtime.signature) (.destroy id) with
    | .error err => return .error (wrap handleActionOp s!"destroying expired sandbox {id}" err)
    | .ok () => record

/-- The dispatch; an action that needs a row or a container and has none is a caller bug. -/
def handleAction (action : ReconcileAction) (sbx : Option Sandbox) (observed : Option Runtime.Info) :
    Program (calls Runtime.signature) (Except Err Unit) :=
  let refused (what : String) : Program (calls Runtime.signature) (Except Err Unit) :=
    pure (.error (.envelope handleActionOp what none))
  match action with
  | .destroyOrphan =>
    let id := ((sbx.map (·.sandboxID)).orElse fun _ => observed.map (·.id)).getD ""
    if observed.isNone || id == "" then refused s!"{action.text} dispatched without a runtime sandbox"
    else handleDestroyOrphan id
  | _ =>
    match sbx with
    | none => refused s!"{action.text} dispatched without a sandbox row"
    | some sbx =>
      let id := sbx.sandboxID
      if id == "" then refused s!"{action.text} dispatched without a sandbox row"
      else
        match action with
        | .create => handleCreate sbx
        | .destroy => handleDestroy sbx
        | .reap => handleReap sbx observed
        | .markFailed => mark sbx .failed "reconciler marked sandbox failed" s!"recording sandbox {id} as failed"
        | .markStopped => mark sbx .stopped "reconciler marked sandbox stopped" s!"recording sandbox {id} as stopped"
        | .markRunning => mark sbx .running "reconciler adopted existing container"
            s!"recording sandbox {id} as running"
        | .none | .destroyOrphan => refused s!"unsupported reconcile action {action.text.quote}"

/-! ## The pass -/

/-- Item after item; an action that fails is logged and left to the next pass. -/
def reconcileItems (now : Time) : List ReconcileItem → Program (calls Runtime.signature) (List ReconcileAction)
  | [] => pure []
  | item :: rest => do
    let action := decideReconcileAction item.desired item.observed now
    decided item.id action
    if action = .none then reconcileItems now rest
    else
      let _ ← handleAction action item.desired item.observed
      let actions ← reconcileItems now rest
      return action :: actions

/-- One pass; `locked` says that another one is in flight. -/
def reconcileOnce (locked : Bool) : Program (calls Runtime.signature) (Except Err (List ReconcileAction)) := do
  let op := "reconciler.Reconciler.ReconcileOnce"
  if locked then return .error (.sentinel .passInFlight)
  else
    match ← store .getSandboxes with
    | .error err => return .error (wrap op "listing sandbox records" err)
    | .ok sbxs =>
      match ← backend (D := Runtime.signature) .list with
      | .error err => return .error (wrap op "listing managed sandboxes" err)
      | .ok infos =>
        let t ← now
        let actions ← reconcileItems t (pairSnapshots sbxs infos)
        return .ok actions

end Reconciler
end Quickspin
