import Quickspin.Serving
import Quickspin.Wire

/-! The client (`internal/client`): its calls on a sandbox that runs, over the wire to the server and back. What it returns is
what the runtime's method of the same name would have, or the server's refusal. -/
namespace Quickspin
open Interaction Service JsonText
set_option autoImplicit false

/-! ## What is sent -/

/-- A response as the client receives it. -/
structure Client.Response where
  status : ℕ
  body : List UInt8

namespace HttpApi

/-- The encoder ends a document with a line break; `documents` is what it writes of the replies that carry an instant. -/
def Payload.encode (documents : Payload → List UInt8) : Payload → List UInt8
  | .exec resp => resp.value.print ++ [ch '\n']
  | .content bytes => (Value.string (base64 bytes)).print ++ [ch '\n']
  | .files resp => (Value.array (resp.map Api.FileInfoResponse.value)).print ++ [ch '\n']
  | .error code message => (Api.ErrorBody.value ⟨code, message⟩).print ++ [ch '\n']
  | p => documents p

/-- `WriteJSON` -/
def Reply.write (documents : Payload → List UInt8) (b : Reply) : Client.Response :=
  ⟨b.status, (b.body.map (Payload.encode documents)).getD []⟩

end HttpApi

namespace Client

/-- A response the server rejected. -/
structure Error where
  status : ℕ
  code : String
  message : String
deriving DecidableEq

/-- `decoding` is a response that is not what was asked for. -/
inductive Failure
  | api (err : Error)
  | decoding (text : String)

/-- A call on a sandbox that runs; a nil content is `none`. -/
inductive Call
  | exec (sandboxID : String) (cmd : List String) (opts : Runtime.ExecOpts)
  | writeFile (sandboxID path : String) (content : Option (List UInt8)) (mode : Docker.FileMode)
  | readFile (sandboxID path : String)
  | listDir (sandboxID path : String)
  | removePath (sandboxID path : String)

abbrev Call.Result : Call → Type
  | .exec .. => Docker.ExecResult
  | .writeFile .. | .removePath .. => Unit
  | .readFile .. => List UInt8
  | .listDir .. => List Runtime.FileInfo

/-- The body of `Client.Exec`. -/
def execBody (cmd : List String) (opts : Runtime.ExecOpts) : List UInt8 :=
  (Api.ExecRequest.mk cmd (Api.NewExecOptions opts)).value.print

/-- The request of a call, as the router hands it on. -/
def Call.request : Call → HttpApi.Request
  | .exec id cmd opts => .execInSandbox id ⟨execBody cmd opts, none⟩
  | .writeFile id path content mode => .writeInSandbox id ⟨writeBody (utf8 path) content mode, none⟩
  | .readFile id path => .readFromSandbox id path
  | .listDir id path => .listFromSandbox id path
  | .removePath id path => .removeFromSandbox id path

/-! ## What is received -/

/-- Decode one value; what follows it is not looked at. -/
def decode {τ : Type} (d : Decoder τ) (zero : τ) (body : List UInt8) : Except String τ :=
  match readValue (none : Option String) .reset [] body with
  | .error _ => .error "decoding response"
  | .ok value => unmarshal d zero value

/-- The options as they arrive: the timeout in whole seconds, and an empty environment as none. -/
def sentOpts (opts : Runtime.ExecOpts) : Runtime.ExecOpts :=
  ⟨Api.sentEnv opts.env, opts.workDir, Api.ceilSeconds opts.timeout * Duration.second⟩

/-- The method of the runtime. -/
def Call.operation : Call → Runtime.Operation
  | .exec id cmd opts => .exec id cmd (sentOpts opts)
  | .writeFile id path content mode => .writeFile id path (content.getD []) mode
  | .readFile id path => .readFile id path
  | .listDir id path => .listDir id path
  | .removePath id path => .removePath id path

/-- A failure in an envelope, under the code of its status. -/
def failure (status : ℕ) (message : String) : Failure := .api ⟨status, Api.CodeForStatus status, message⟩

/-- An error of the runtime, as far as it may be told. -/
def told (err : Err) : Failure := failure (HttpApi.classify err).1 (HttpApi.classify err).2

/-- The answer of the runtime, as its own caller sees it. -/
def Call.delivered : (c : Call) → c.operation.Answer → Except Failure c.Result
  | .exec .., (execResult, none) => .ok execResult
  | .exec .., (_, some err) => .error (told err)
  | .writeFile .., a | .removePath .., a => Except.mapError told a
  | .readFile .., a => Except.mapError told a
  | .listDir .., a => Except.mapError told a

/-- The bytes of the body of a call. -/
def Call.body : Call → List UInt8
  | .exec _ cmd opts => execBody cmd opts
  | .writeFile _ path content mode => writeBody (utf8 path) content mode
  | _ => []

section Sent
open HttpApi
variable (create : List UInt8 → Except String Api.CreateSandboxRequest)

end Sent

/-! ## Calls in a run -/

section Run
open HttpApi
variable {ρ : Type} {create : List UInt8 → Except String Api.CreateSandboxRequest} {B : Backend Runtime.methods ρ}
  {w : World ρ} {ls : List ServerLabel} {C D : ServerConfig ρ} {n : ℕ} {c : Call} {b : Reply}

end Run
end Client
end Quickspin
