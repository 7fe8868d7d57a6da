import Quickspin.RequestLimit
import Quickspin.Lib.Utf8
import Quickspin.Targets
import Quickspin.System
import Quickspin.Lib.Simulation

/-! The HTTP server (`internal/httpapi`): every route as a program over the store and the whole runtime contract, and
the process that serves them beside its reconciler. A handler is given what the router and the body carry; what
`json.Unmarshal` makes of a body is a parameter. -/
namespace Quickspin
open Interaction
set_option autoImplicit false

/-! ## The contract -/

namespace Runtime

/-- What can be done with a sandbox that runs. -/
inductive Operation
  | inspect (sandboxID : String)
  | exec (sandboxID : String) (cmd : List String) (opts : ExecOpts)
  | writeFile (sandboxID path : String) (content : List UInt8) (mode : Docker.FileMode)
  | readFile (sandboxID path : String)
  | listDir (sandboxID path : String)
  | removePath (sandboxID path : String)

abbrev Operation.Answer : Operation → Type
  | .inspect _ => Except Err Info
  | .exec .. => Docker.ExecResult × Option Err
  | .writeFile .. => Except Err Unit
  | .readFile .. => Except Err (List UInt8)
  | .listDir .. => Except Err (List FileInfo)
  | .removePath .. => Except Err Unit

def Operation.sandboxID : Operation → String
  | .inspect id | .exec id _ _ | .writeFile id _ _ _ | .readFile id _ | .listDir id _ | .removePath id _ => id

/-- A method of `Runtime`; `base` is one that the reconciler calls. -/
inductive Method
  | base (c : Call)
  | operate (o : Operation)

abbrev Method.Answer : Method → Type
  | .base c => c.Answer
  | .operate o => o.Answer

abbrev methods : Signature := ⟨Method, Method.Answer⟩

end Runtime

/-! ## The wire types -/

namespace Api

structure ExecRequest where
  command : List String
  options : ExecOptions

structure SandboxResponse where
  sandboxID : String
  versionID : ℤ
  state : String
  spec : SpecFile
  expiresAt : Time
  createdAt : Time
  updatedAt : Time

/-- The row's own number never travels. -/
def NewSandboxResponse (sbx : Sandbox) : SandboxResponse :=
  ⟨sbx.sandboxID, sbx.versionID, sbx.state.text, sbx.spec, sbx.expiresAt, sbx.createdAt, sbx.updatedAt⟩

structure SandboxEventResponse where
  sandboxID : String
  versionID : ℤ
  fromState : String
  toState : String
  happenedAt : Time
  reason : String

def NewSandboxEventResponse (event : Event) : SandboxEventResponse :=
  ⟨event.sandboxID, event.versionID, event.fromState.text, event.toState.text, event.happenedAt, event.reason⟩

structure InfoResponse where
  id : String
  state : String
  createdAt : Time

def NewInfoResponse (info : Runtime.Info) : InfoResponse :=
  ⟨info.id, match info.state with
    | .running => "running"
    | .stopped => "stopped", info.createdAt⟩

structure ExecResponse where
  exitCode : ℤ
  stdout : List UInt8
  stderr : List UInt8
  stdoutTruncated : Bool
  stderrTruncated : Bool

def NewExecResponse (result : Docker.ExecResult) : ExecResponse :=
  ⟨result.exitCode, result.stdout, result.stderr, result.stdoutTruncated, result.stderrTruncated⟩

structure FileInfoResponse where
  path : String
  size : ℤ
  mode : Int64
  isDir : Bool

def NewFileInfoResponse (info : Runtime.FileInfo) : FileInfoResponse :=
  ⟨info.path, info.size, Int64.ofNat info.mode.toNat, info.isDir⟩

end Api

namespace HttpApi

def StatusOK : ℕ := 200
def StatusAccepted : ℕ := 202
def StatusNoContent : ℕ := 204

/-- What `WriteJSON` encodes into a body. -/
inductive Payload
  | sandbox (resp : Api.SandboxResponse)
  | sandboxes (resp : List Api.SandboxResponse)
  | events (resp : List Api.SandboxEventResponse)
  | info (resp : Api.InfoResponse)
  | exec (resp : Api.ExecResponse)
  | content (bytes : List UInt8)
  | files (resp : List Api.FileInfoResponse)
  | error (code message : String)

structure Reply where
  status : ℕ
  body : Option Payload

/-- A status that forbids a body has none. -/
def respond (status : ℕ) (v : Option Payload) : Reply := ⟨status, if status = StatusNoContent then none else v⟩

def Rejection.reply (r : Rejection) : Reply := respond r.status (some (.error r.code r.message))

/-- The status and the message of the chain; the chain itself goes to the log only. -/
def failWith (err : Err) : Reply := (fail (classify err).1 "" (classify err).2).reply

def failInternal (op message : String) (err : Err) : Reply := failWith (internalError op message err)

/-- `json.Unmarshal` into each type that a handler reads. -/
structure Unmarshal where
  createSandboxRequest : List UInt8 → Except String Api.CreateSandboxRequest
  keepaliveSandboxRequest : List UInt8 → Except String Api.KeepaliveSandboxRequest
  execRequest : List UInt8 → Except String Api.ExecRequest
  writeInSandboxRequest : List UInt8 → Except String Api.WriteInSandboxRequest

/-- `http.NoBody` is `none`, and stands for the zero value. -/
def decodeOptionalBody {τ : Type} (zero : τ) (unmarshal : List UInt8 → Except String τ) (what : String) :
    Option Body → Except Rejection τ
  | none => .ok zero
  | some body => decodeBody unmarshal what body

/-- A missing parameter reads as the empty string. -/
def queryPath (path : String) : Except Rejection String :=
  if path == "" then .error (fail StatusBadRequest Api.CodeInvalidRequest "the path query parameter is required")
  else .ok path

/-- `fs.FileMode(mode)` keeps the low 32 bits. -/
def fileMode (mode : Int64) : Docker.FileMode := mode.toUInt64.toUInt32

/-! ## The routes -/

namespace API
variable (u : Unmarshal)

abbrev Handler : Type := Program (calls Runtime.methods) Reply

def operate (o : Runtime.Operation) : Program (calls Runtime.methods) o.Answer :=
  backend (D := Runtime.methods) (.operate o)

/-- Go on where the sandbox is running. -/
def ensureRunning (op sandboxID : String) (next : Handler) : Handler := do
  match ← Control.requireRunning sandboxID with
  | .error err => return failWith (wrap op "checking the sandbox is running" err)
  | .ok () => next

def createSandbox (idempotencyKey : String) (body : Body) : Handler := do
  let op := "httpapi.API.CreateSandbox"
  if idempotencyKey == "" then
    return (fail StatusBadRequest Api.CodeInvalidRequest "Idempotency-Key header is required").reply
  else
    match decodeBody u.createSandboxRequest "sandbox create request" body with
    | .error r => return r.reply
    | .ok req =>
      match ← Control.createSandbox idempotencyKey req.spec req.ttl with
      | .error err => return failWith (wrap op "creating the sandbox" err)
      | .ok sbx => return respond StatusAccepted (some (.sandbox (Api.NewSandboxResponse sbx)))

def listSandboxes : Handler := do
  match ← store .getSandboxes with
  | .error err => return failInternal "httpapi.API.ListSandboxes" "listing sandboxes" err
  | .ok sbxs => return respond StatusOK (some (.sandboxes (sbxs.map Api.NewSandboxResponse)))

/-- The events of an unknown id are an empty list to the store, so its row is looked for first. -/
def getSandboxEvents (sandboxID : String) : Handler := do
  let op := "httpapi.API.GetSandboxEvents"
  match ← store (.getSandbox sandboxID) with
  | .error err => return failWith (wrap op "loading the sandbox" err)
  | .ok _ =>
    match ← store (.getSandboxEvents sandboxID) with
    | .error err => return failInternal op "listing sandbox events" err
    | .ok events => return respond StatusOK (some (.events (events.map Api.NewSandboxEventResponse)))

def inspectSandbox (sandboxID : String) : Handler :=
  let op := "httpapi.API.InspectSandbox"
  ensureRunning op sandboxID do
    match ← operate (.inspect sandboxID) with
    | .error err => return failWith (wrap op s!"inspecting sandbox {sandboxID}" err)
    | .ok info => return respond StatusOK (some (.info (Api.NewInfoResponse info)))

def destroySandbox (sandboxID : String) : Handler := do
  match ← Control.destroySandbox sandboxID with
  | .error err => return failWith (wrap "httpapi.API.DestroySandbox" "destroying the sandbox" err)
  | .ok () => return respond StatusAccepted none

def keepaliveSandbox (sandboxID : String) (body : Option Body) : Handler := do
  match decodeOptionalBody ⟨0⟩ u.keepaliveSandboxRequest "sandbox keepalive request" body with
  | .error r => return r.reply
  | .ok req =>
    match ← Control.keepaliveSandbox sandboxID req.ttl with
    | .error err => return failWith (wrap "httpapi.API.KeepaliveSandbox" "renewing the sandbox lease" err)
    | .ok sbx => return respond StatusOK (some (.sandbox (Api.NewSandboxResponse sbx)))

def execInSandbox (sandboxID : String) (body : Body) : Handler :=
  let op := "httpapi.API.ExecInSandbox"
  match decodeBody u.execRequest "exec request" body with
  | .error r => return r.reply
  | .ok req =>
    if req.command.isEmpty then
      return (fail StatusBadRequest Api.CodeInvalidRequest "command is required").reply
    else
      ensureRunning op sandboxID do
        let cmd := " ".intercalate req.command
        match ← operate (.exec sandboxID req.command req.options.execOpts) with
        | (_, some err) => return failWith (wrap op s!"executing cmd {cmd} in sandbox {sandboxID}" err)
        | (execResult, none) => return respond StatusOK (some (.exec (Api.NewExecResponse execResult)))

def writeInSandbox (sandboxID : String) (body : Body) : Handler :=
  let op := "httpapi.API.WriteInSandbox"
  match decodeBody u.writeInSandboxRequest "write in sandbox request" body with
  | .error r => return r.reply
  | .ok req =>
    let path := JsonText.text req.path
    ensureRunning op sandboxID do
      match ← operate (.writeFile sandboxID path (req.content.getD []) (fileMode req.fileMode)) with
      | .error err => return failWith (wrap op s!"writing file {path} in sandbox {sandboxID}" err)
      | .ok () => return respond StatusNoContent none

/-- The routes that read a path from the query. -/
def onPath (op sandboxID path : String) (next : String → Handler) : Handler :=
  match queryPath path with
  | .error r => return r.reply
  | .ok path => ensureRunning op sandboxID (next path)

def readFromSandbox (sandboxID path : String) : Handler :=
  let op := "httpapi.API.ReadFromSandbox"
  onPath op sandboxID path fun path => do
    match ← operate (.readFile sandboxID path) with
    | .error err => return failWith (wrap op s!"reading file {path} in sandbox {sandboxID}" err)
    | .ok valInBytes => return respond StatusOK (some (.content valInBytes))

def removeFromSandbox (sandboxID path : String) : Handler :=
  let op := "httpapi.API.RemoveFromSandbox"
  onPath op sandboxID path fun path => do
    match ← operate (.removePath sandboxID path) with
    | .error err => return failWith (wrap op s!"removing path {path} in sandbox {sandboxID}" err)
    | .ok () => return respond StatusNoContent none

def listFromSandbox (sandboxID path : String) : Handler :=
  let op := "httpapi.API.ListFromSandbox"
  onPath op sandboxID path fun path => do
    match ← operate (.listDir sandboxID path) with
    | .error err => return failWith (wrap op s!"reading directory {path} in sandbox {sandboxID}" err)
    | .ok fileInfoObjs => return respond StatusOK (some (.files (fileInfoObjs.map Api.NewFileInfoResponse)))

end API

/-- A request as the router hands it to its handler: the id from the path, the key from the header, the path from the
query and the body. -/
inductive Request
  | createSandbox (idempotencyKey : String) (body : Body)
  | listSandboxes
  | inspectSandbox (sandboxID : String)
  | getSandboxEvents (sandboxID : String)
  | destroySandbox (sandboxID : String)
  | keepaliveSandbox (sandboxID : String) (body : Option Body)
  | execInSandbox (sandboxID : String) (body : Body)
  | writeInSandbox (sandboxID : String) (body : Body)
  | readFromSandbox (sandboxID path : String)
  | removeFromSandbox (sandboxID path : String)
  | listFromSandbox (sandboxID path : String)

/-- The dispatch of `initRouter`. -/
def Request.handle (u : Unmarshal) : Request → API.Handler
  | .createSandbox key body => API.createSandbox u key body
  | .listSandboxes => API.listSandboxes
  | .inspectSandbox id => API.inspectSandbox id
  | .getSandboxEvents id => API.getSandboxEvents id
  | .destroySandbox id => API.destroySandbox id
  | .keepaliveSandbox id body => API.keepaliveSandbox u id body
  | .execInSandbox id body => API.execInSandbox u id body
  | .writeInSandbox id body => API.writeInSandbox u id body
  | .readFromSandbox id path => API.readFromSandbox id path
  | .removeFromSandbox id path => API.removeFromSandbox id path
  | .listFromSandbox id path => API.listFromSandbox id path

/-- The id in the request's path. -/
def Request.sandboxID : Request → Option String
  | .createSandbox _ _ | .listSandboxes => none
  | .inspectSandbox id | .getSandboxEvents id | .destroySandbox id | .keepaliveSandbox id _ | .execInSandbox id _
  | .writeInSandbox id _ | .readFromSandbox id _ | .removeFromSandbox id _ | .listFromSandbox id _ => some id

end HttpApi

/-! ## The process -/

/-- A call of the reconciler, among those of the process. -/
def baseCalls : Embedding (calls Runtime.signature) (calls Runtime.methods) where
  call
    | .now => .now
    | .newSandboxID => .newSandboxID
    | .store c => .store c
    | .backend c => .backend (.base c)
    | .decide id action => .decide id action
  answer
    | .now, a | .newSandboxID, a | .store _, a | .backend _, a | .decide _ _, a => a

/-- The HTTP API and the reconciler of one process. -/
def server {ρ : Type} (u : HttpApi.Unmarshal) (B : Backend Runtime.methods ρ) :
    Service (calls Runtime.methods) (World ρ) HttpApi.Request HttpApi.Reply (Except Err (List ReconcileAction)) :=
  B.service (HttpApi.Request.handle u) ((Reconciler.reconcileOnce false).embed baseCalls)

/-! ### A fleet to serve -/

/-- Commands succeed and print nothing; no file is kept. -/
def Fleet.operate : (o : Runtime.Operation) → Fleet → o.Answer
  | .inspect id, f =>
    match f.containers.find? id with
    | none => .error (.sentinel .runtimeNotFound)
    | some info => .ok info
  | .exec .., _ => (⟨0, [], [], false, false⟩, none)
  | .writeFile .., _ => .ok ()
  | .readFile .., _ | .removePath .., _ => .error (.sentinel .pathNotFound)
  | .listDir .., _ => .ok []

def Fleet.serve : (m : Runtime.Method) → Fleet → m.Answer × Fleet
  | .base c, f => Fleet.run c f
  | .operate o, f => (Fleet.operate o f, f)

def Backend.servedFleet : Backend Runtime.methods Fleet where
  act m f a f' := (a, f') = Fleet.serve m f
  env _ _ := False

/-- The server over the fleet in the world where nothing fails and every new id is `exampleID`. -/
def serverExec : (c : (calls Runtime.methods).Call) → World Fleet → (calls Runtime.methods).Answer c × World Fleet :=
  execute (fun _ => exampleID) Fleet.serve

theorem serverExec_performs (c : (calls Runtime.methods).Call) (w : World Fleet) :
    Backend.servedFleet.perform c w (serverExec c w).1 (serverExec c w).2 :=
  Backend.perform_execute (fun _ => validateSandboxID_exampleID) (fun _ _ => rfl) c w

/-- Every body reads as the zero value of its type. -/
def HttpApi.Unmarshal.zero : HttpApi.Unmarshal :=
  ⟨fun _ => .ok ⟨{}, 0⟩, fun _ => .ok ⟨0⟩, fun _ => .ok ⟨[], none, "", 0⟩, fun _ => .ok ⟨[], none, 0⟩⟩

/-- The body of an empty document. -/
def HttpApi.Body.document : HttpApi.Body := ⟨JsonText.ascii "\x7b\x7d", none⟩

end Quickspin
