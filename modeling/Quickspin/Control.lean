import Quickspin.Calls
import Quickspin.Spec

/-! The operations that make decisions (`internal/control`): they record the intent to create, renew or
destroy, and leave the containers to the reconciler. -/
namespace Quickspin
open Interaction
set_option autoImplicit false

namespace Control
variable {D : Signature}

/-- Only an invalid spec may be the client's fault; every other failure of the store is internal. -/
def recordingError (err : Err) : Err := if err.is .invalidSpec then err else joinErr (.sentinel .internal) err

def createSandbox (idempotencyKey : String) (spec : SpecFile) (ttl : Duration) :
    Program (calls D) (Except Err Sandbox) := do
  let op := "control.Control.CreateSandbox"
  match spec.resolveValidated with
  | .error err => return .error (wrap op "resolving the submitted spec" err)
  | .ok _ =>
    match resolveTTL ttl with
    | .error err => return .error (wrap op "resolving the requested ttl" err)
    | .ok ttl =>
      let t ← now
      let recorded ← createSandboxRecord idempotencyKey spec (t.add ttl)
      return recorded.mapError fun err => wrap op "recording the sandbox" (recordingError err)

/-- Replace the lease by one measured from the current time. -/
def keepaliveSandbox (sandboxID : String) (ttl : Duration) : Program (calls D) (Except Err Sandbox) := do
  let op := "control.Control.KeepaliveSandbox"
  match resolveTTL (min ttl MaxTTL) with
  | .error err => return .error (wrap op "resolving the requested ttl" err)
  | .ok ttl =>
    let t ← now
    let renewed ← store (.updateSandboxExpiry sandboxID (t.add ttl))
    return Except.mapError (wrap op "renewing the sandbox expiry") renewed

/-- Idempotent: an absent row and a guard that missed are answered with success. -/
def destroySandbox (sandboxID : String) : Program (calls D) (Except Err Unit) := do
  let op := "control.Control.DestroySandbox"
  match ← store (.getSandbox sandboxID) with
  | .error err =>
    if err.is .storeNotFound then return .ok ()
    else return .error (wrap op "loading the sandbox" err)
  | .ok sbx =>
    match ← store (.updateSandboxState sandboxID .running .stopping "destroy requested" sbx.versionID) with
    | .error err =>
      if err.is .storeNotFound || err.is .invalidStateTransition then return .ok ()
      else return .error (wrap op "marking the sandbox stopping" err)
    | .ok _ => return .ok ()

/-- The gate of every exec and file operation. -/
def requireRunning (sandboxID : String) : Program (calls D) (Except Err Unit) := do
  let op := "control.Control.RequireRunning"
  match ← store (.getSandbox sandboxID) with
  | .error err => return .error (wrap op "loading the sandbox" err)
  | .ok sbx =>
    if sbx.state ≠ .running then return .error (wrap op "" (.sentinel .sandboxNotRunning))
    else return .ok ()

end Control

/-! ## Requests -/

inductive Request
  | create (idempotencyKey : String) (spec : SpecFile) (ttl : Duration)
  | keepalive (sandboxID : String) (ttl : Duration)
  | destroy (sandboxID : String)

inductive Response
  | sandbox (r : Except Err Sandbox)
  | nothing (r : Except Err Unit)

def Request.handle {D : Signature} : Request → Program (calls D) Response
  | .create key spec ttl => do return .sandbox (← Control.createSandbox key spec ttl)
  | .keepalive id ttl => do return .sandbox (← Control.keepaliveSandbox id ttl)
  | .destroy id => do return .nothing (← Control.destroySandbox id)

end Quickspin
