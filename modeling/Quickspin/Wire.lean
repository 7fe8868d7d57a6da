import Quickspin.Server
import Quickspin.Lib.JsonRecord

/-! The documents on the wire: the requests that operate on a sandbox, the replies to them and the envelope of an error, as
the encoder writes them and the decoder reads them. -/
namespace Quickspin
open JsonText
set_option autoImplicit false

namespace Api

/-! ## Fields -/

def member (name : String) (v : Value) : List UInt8 × Value := (ascii name, v)

/-- `omitempty` on a number, on a string and on a map. -/
def secondsMember (name : String) (seconds : Int64) : List (List UInt8 × Value) :=
  if seconds = 0 then [] else [member name (.number (integer seconds.toInt))]

def textMember (name text : String) : List (List UInt8 × Value) := if text = "" then [] else [member name (.string (utf8 text))]

/-- The entries in the order of their keys, which is that of the keys' bytes. -/
def mapValue (m : StringMap) : Value := .object (m.entries.map fun e => (utf8 e.1, .string (utf8 e.2)))

def mapMember (name : String) : Option StringMap → List (List UInt8 × Value)
  | some m => if m.entries.isEmpty then [] else [member name (mapValue m)]
  | none => []

def int64 : Decoder Int64 := fun v n => (Decoder.integer (-2 ^ 63) (2 ^ 63 - 1) v n.toInt).map Int64.ofInt

/-- A null value of an entry is the empty string. -/
def setEntries : List (List UInt8 × Value) → StringMap → Option StringMap
  | [], m => some m
  | (k, v) :: rest, m => (Decoder.text v "").bind fun s => setEntries rest (m.insert (text k) s)

def stringMap : Decoder (Option StringMap)
  | .null, _ => some none
  | .object entries, m => (setEntries entries (m.getD .empty)).map some
  | _, _ => none

/-- A nil slice has no bytes. -/
def octets : Decoder (List UInt8) := fun v bytes => (Decoder.bytes v (some bytes)).map (·.getD [])

/-! ## Requests -/

def ExecOptions.value (o : ExecOptions) : Value :=
  .object (mapMember "env" o.env ++ textMember "work_dir" o.workDir ++ secondsMember "timeout_seconds" o.timeoutSeconds)

def ExecOptions.fields : List (RecordField ExecOptions) :=
  [.of "env" stringMap (·.env) fun o env => { o with env },
   .of "work_dir" .text (·.workDir) fun o workDir => { o with workDir },
   .of "timeout_seconds" int64 (·.timeoutSeconds) fun o timeoutSeconds => { o with timeoutSeconds }]

def ExecOptions.zero : ExecOptions := ⟨none, "", 0⟩

def ExecRequest.value (r : ExecRequest) : Value :=
  .object [member "command" (.array (r.command.map fun arg => .string (utf8 arg))), member "options" r.options.value]

def ExecRequest.fields : List (RecordField ExecRequest) :=
  [.of "command" (.list .text "") (·.command) fun r command => { r with command },
   .of "options" (.record true ExecOptions.fields) (·.options) fun r options => { r with options }]

def ExecRequest.zero : ExecRequest := ⟨[], .zero⟩

/-- A nil slice is `null`. -/
def sliceValue : Option (List UInt8) → Value
  | none => .null
  | some bytes => .string (base64 bytes)

def WriteInSandboxRequest.value (r : WriteInSandboxRequest) : Value :=
  .object [member "path" (.string r.path), member "content" (sliceValue r.content),
    member "fileMode" (.number (integer r.fileMode.toInt))]

def WriteInSandboxRequest.fields : List (RecordField WriteInSandboxRequest) :=
  [.of "path" .string (·.path) fun r path => { r with path },
   .of "content" .bytes (·.content) fun r content => { r with content },
   .of "fileMode" int64 (·.fileMode) fun r fileMode => { r with fileMode }]

def WriteInSandboxRequest.zero : WriteInSandboxRequest := ⟨[], none, 0⟩

def KeepaliveSandboxRequest.value (r : KeepaliveSandboxRequest) : Value := .object (secondsMember "ttl_seconds" r.ttlSeconds)

def KeepaliveSandboxRequest.fields : List (RecordField KeepaliveSandboxRequest) :=
  [.of "ttl_seconds" int64 (·.ttlSeconds) fun _ ttlSeconds => { ttlSeconds }]

/-! ## Replies -/

def ExecResponse.value (r : ExecResponse) : Value :=
  .object [member "exit_code" (.number (integer r.exitCode)), member "stdout" (.string (base64 r.stdout)),
    member "stderr" (.string (base64 r.stderr)), member "stdout_truncated" (.bool r.stdoutTruncated),
    member "stderr_truncated" (.bool r.stderrTruncated)]

def ExecResponse.fields : List (RecordField ExecResponse) :=
  [.of "exit_code" (.integer (-2 ^ 63) (2 ^ 63 - 1)) (·.exitCode) fun r exitCode => { r with exitCode },
   .of "stdout" octets (·.stdout) fun r stdout => { r with stdout },
   .of "stderr" octets (·.stderr) fun r stderr => { r with stderr },
   .of "stdout_truncated" .bool (·.stdoutTruncated) fun r stdoutTruncated => { r with stdoutTruncated },
   .of "stderr_truncated" .bool (·.stderrTruncated) fun r stderrTruncated => { r with stderrTruncated }]

def ExecResponse.zero : ExecResponse := ⟨0, [], [], false, false⟩

def ExecResponse.execResult (r : ExecResponse) : Docker.ExecResult :=
  ⟨r.exitCode, r.stdout, r.stderr, r.stdoutTruncated, r.stderrTruncated⟩

def FileInfoResponse.value (f : FileInfoResponse) : Value :=
  .object [member "path" (.string (utf8 f.path)), member "size" (.number (integer f.size)),
    member "mode" (.number (integer f.mode.toInt)), member "is_dir" (.bool f.isDir)]

def FileInfoResponse.fields : List (RecordField FileInfoResponse) :=
  [.of "path" .text (·.path) fun f path => { f with path },
   .of "size" (.integer (-2 ^ 63) (2 ^ 63 - 1)) (·.size) fun f size => { f with size },
   .of "mode" int64 (·.mode) fun f mode => { f with mode },
   .of "is_dir" .bool (·.isDir) fun f isDir => { f with isDir }]

def FileInfoResponse.zero : FileInfoResponse := ⟨"", 0, 0, false⟩

structure ErrorBody where
  code : String
  message : String

/-- `ErrorResponse`, of which the body is all there is. -/
def ErrorBody.value (e : ErrorBody) : Value :=
  .object [member "error" (.object [member "code" (.string (utf8 e.code)), member "message" (.string (utf8 e.message))])]

def ErrorBody.fields : List (RecordField ErrorBody) :=
  [.of "code" .text (·.code) fun e code => { e with code },
   .of "message" .text (·.message) fun e message => { e with message }]

def ErrorBody.envelope : List (RecordField ErrorBody) := [⟨ascii "error", .record false ErrorBody.fields⟩]

end Api

/-! ## Bodies -/

namespace HttpApi

/-- The decoders of the requests, all of them strict; that of a create is a parameter, since its document holds a float. -/
def Unmarshal.json (createSandboxRequest : List UInt8 → Except String Api.CreateSandboxRequest) : Unmarshal where
  createSandboxRequest := createSandboxRequest
  keepaliveSandboxRequest := unmarshal (.record true Api.KeepaliveSandboxRequest.fields) ⟨0⟩
  execRequest := unmarshal (.record true Api.ExecRequest.fields) .zero
  writeInSandboxRequest := unmarshal (.record true Api.WriteInSandboxRequest.fields) .zero

section Body
variable {τ : Type} {read : List UInt8 → Except String τ} {what : String} {v : Value} {r : τ}

end Body
end HttpApi

/-! ## What is written is what is read -/

namespace Api
section Sets
variable {σ : Type} {strict : Bool} {fields : List (RecordField σ)} {f : RecordField σ} {name : String} {v : Value}
  {rest : List (List UInt8 × Value)} {s s' s'' : σ}

end Sets

/-- An empty environment is left out, and arrives as none. -/
def sentEnv (env : Option StringMap) : Option StringMap := env.filter fun m => !m.entries.isEmpty

theorem ExecOptions.depth_le (o : ExecOptions) : o.value.depth ≤ 2 := by
  refine Nat.succ_le_succ (depthFields_le fun e he => ?_)
  rcases List.mem_append.mp he with he | he
  · rcases List.mem_append.mp he with he | he
    · cases henv : o.env with
      | none =>
        rw [henv] at he
        cases he
      | some m =>
        rw [henv, mapMember] at he
        split at he
        · cases he
        · rw [List.mem_singleton.mp he]
          refine Nat.succ_le_succ (depthFields_le fun e he => ?_)
          obtain ⟨e', -, rfl⟩ := List.mem_map.mp he
          exact Nat.le_refl 0
    · rw [textMember] at he
      split at he
      · cases he
      · rw [List.mem_singleton.mp he]
        exact Nat.zero_le 1
  · rw [secondsMember] at he
    split at he
    · cases he
    · rw [List.mem_singleton.mp he]
      exact Nat.zero_le 1

theorem ExecRequest.depth_le (r : ExecRequest) : r.value.depth ≤ 3 := by
  have hcommand : (Value.array (r.command.map fun arg => .string (utf8 arg))).depth ≤ 1 := by
    refine Nat.succ_le_succ (depthItems_le fun v hv => ?_)
    obtain ⟨arg, -, rfl⟩ := List.mem_map.mp hv
    exact Nat.le_refl 0
  have hoptions := r.options.depth_le
  simp only [value, member, Value.depth, depthFields] at hcommand hoptions ⊢
  omega

end Api
end Quickspin
