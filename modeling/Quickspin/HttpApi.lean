import Quickspin.Api
import Quickspin.Control

/-! The two handlers of `internal/httpapi` that carry a lifetime, as far as the control layer's answer; and
the bodies `internal/client` sends them. A body is the document it parses to. -/
namespace Quickspin
open Interaction
set_option autoImplicit false

namespace HttpApi
variable {D : Signature}

def createSandbox (idempotencyKey : String) (body : Json) : Program (calls D) (Except Err Sandbox) := do
  let op := "httpapi.API.CreateSandbox"
  if idempotencyKey == "" then return .error (E op "missing idempotency key" (.sentinel .invalidRequest))
  else
    match Api.CreateSandboxRequest.ofJSON body with
    | .error err => return .error (E op "decoding request body" err)
    | .ok req =>
      let sbx ← Control.createSandbox idempotencyKey req.spec req.ttl
      return sbx.mapError (wrap op "creating the sandbox")

/-- The body may be left out. -/
def keepaliveSandbox (sandboxID : String) (body : Option Json) : Program (calls D) (Except Err Sandbox) := do
  let op := "httpapi.API.KeepaliveSandbox"
  match (body.map Api.KeepaliveSandboxRequest.ofJSON).getD (.ok ⟨0⟩) with
  | .error err => return .error (E op "decoding request body" err)
  | .ok req =>
    let sbx ← Control.keepaliveSandbox sandboxID req.ttl
    return sbx.mapError (wrap op "renewing the sandbox lease")

end HttpApi

namespace Client

/-- The body of `Client.CreateSandbox`; a spec without a JSON form is not sent. -/
def createBody (spec : SpecFile) (ttl : Duration) : Except Err Json := (Api.NewCreateSandboxRequest spec ttl).toJSON

def keepaliveBody (ttl : Duration) : Json := (Api.NewKeepaliveSandboxRequest ttl).toJSON

/-- The options in the body of `Client.Exec`. -/
def execOptions (opts : Runtime.ExecOpts) : Json := (Api.NewExecOptions opts).toJSON

end Client
end Quickspin
