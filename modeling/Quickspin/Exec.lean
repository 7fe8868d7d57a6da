import Quickspin.Docker
import Quickspin.Streams
import Quickspin.Lib.Alone

/-! Commands in a sandbox (`docker.Runtime.Exec`): the exec is created, attached to and read to its end, all under one
deadline, and one that is given up on is killed by a second exec. The deadline, a cancellation by the caller and the
daemon's failures come at any call. -/
namespace Quickspin
open Interaction
set_option autoImplicit false

namespace Docker

/-! ## The calls -/

/-- The caller's context, the one with the deadline of the exec, and the detached one of the kill. -/
inductive ExecContext
  | caller | exec | kill
deriving DecidableEq

inductive CtxErr
  | canceled | deadlineExceeded
deriving DecidableEq

def CtxErr.err : CtxErr → Err
  | .canceled => .sentinel .contextCanceled
  | .deadlineExceeded => .sentinel .contextDeadlineExceeded

/-- `client.ExecCreateOptions` -/
structure ExecConfig where
  attachStdout : Bool
  attachStderr : Bool
  cmd : List String
  env : List String
  workingDir : String

/-- `client.ExecInspectResult` -/
structure ExecStatus where
  running : Bool
  exitCode : ℤ

/-- What was demultiplexed until the copy ended; `outcome` is how it ended, and `none` where the context was done
first and the connection was closed under the copy. -/
structure Copied where
  frames : List (OutputStream × Bytes)
  outcome : Option (Except String Unit)

/-- `base` is a call of the other methods. An exec starts when it is attached to or started. `poll` waits for the next
tick or the end of the context, `wait` for the end alone. -/
inductive ExecCall
  | base (c : (calls signature).Call)
  | execCreate (ctx : ExecContext) (containerID : String) (config : ExecConfig)
  | execAttach (ctx : ExecContext) (execID : String)
  | execStart (ctx : ExecContext) (execID : String)
  | execInspect (ctx : ExecContext) (execID : String)
  | copy
  | poll (ctx : ExecContext)
  | wait (ctx : ExecContext)
  | ctxErr (ctx : ExecContext)

abbrev ExecCall.Answer : ExecCall → Type
  | .base c => (calls signature).Answer c
  | .execCreate .. => Except DaemonError String
  | .execAttach .. => Except DaemonError Unit
  | .execStart .. => Except DaemonError Unit
  | .execInspect .. => Except DaemonError ExecStatus
  | .copy => Copied
  | .poll _ => Option CtxErr
  | .wait _ => CtxErr
  | .ctxErr _ => Option CtxErr

abbrev execSignature : Signature := ⟨ExecCall, ExecCall.Answer⟩

def issue (c : ExecCall) : Program execSignature c.Answer := Program.perform (S := execSignature) c

/-! ## Constants -/

def execPollInterval : ℤ := 50000000
def execKillTimeout : Duration := 10 * Duration.second
def defaultExecTimeout : Duration := 30 * Duration.second
def maxStreamBytes : ℕ := 1048576

/-- How many ticks of the poll interval a context of this timeout lets through. -/
def ticksWithin (timeout : Duration) : ℕ := (timeout.toInt / execPollInterval).toNat + 1

/-! ## The kill -/

def metaCharacters : List Char := ['\\', '.', '+', '*', '?', '(', ')', '|', '[', ']', '{', '}', '^', '$']

def quoteCharacter (c : Char) : List Char := if c ∈ metaCharacters then ['\\', c] else [c]

/-- `regexp.QuoteMeta` -/
def quoteMeta (s : String) : String := .ofList (s.toList.flatMap quoteCharacter)

def pkillCommand (cmd : List String) : List String :=
  ["pkill", "-f", "-x", "--", quoteMeta (" ".intercalate cmd)]

/-- The message for an exit code that does not count as a kill. -/
def classifyPkillExit (exitCode : ℤ) : Option String :=
  if exitCode = 0 ∨ exitCode = 1 then none
  else if exitCode = 126 ∨ exitCode = 127 then some "pkill is not available in this image"
  else some s!"pkill exited {exitCode}"

/-- One poll: the exit code, or `running` where there is none yet. -/
def inspectExec (ctx : ExecContext) (execID : String) (running : Program execSignature (Except Err ℤ)) :
    Program execSignature (Except Err ℤ) := do
  match ← issue (.execInspect ctx execID) with
  | .error err => return .error err.err
  | .ok status => if status.running then running else return .ok status.exitCode

/-- Poll until the exec does not run; after the last tick only the end of the context is left to wait for. -/
def awaitExecExit (ctx : ExecContext) (execID : String) : ℕ → Program execSignature (Except Err ℤ)
  | 0 => inspectExec ctx execID do
    let err ← issue (.wait ctx)
    return .error err.err
  | ticks + 1 => inspectExec ctx execID do
    match ← issue (.poll ctx) with
    | some err => return .error err.err
    | none => awaitExecExit ctx execID ticks

structure ExecOpts where
  env : Option StringMap
  workDir : String
  timeout : Duration

/-- Reap a command that is given up on; the answer is what went wrong. -/
def killExec (containerID sandboxID : String) (cmd : List String) (opts : ExecOpts) :
    Program execSignature (Option Err) := do
  let op := "docker.Runtime.killExec"
  match ← issue (.execCreate .kill containerID ⟨false, false, pkillCommand cmd, envToArgs opts.env, opts.workDir⟩) with
  | .error err =>
    return some (E op s!"creating kill command to stop exec command in container {containerID} for sandbox {sandboxID}"
      err.err)
  | .ok execID =>
    match ← issue (.execStart .kill execID) with
    | .error err =>
      return some (E op s!"starting kill command to stop exec command in container {containerID} for sandbox {sandboxID}"
        err.err)
    | .ok () =>
      match ← awaitExecExit .kill execID (ticksWithin execKillTimeout) with
      | .error err =>
        return some (E op
          s!"inspecting kill command results to stop exec command in container {containerID} for sandbox {sandboxID}" err)
      | .ok exitCode =>
        match classifyPkillExit exitCode with
        | some msg =>
          return some (E op s!"stopping exec command in container {containerID} for sandbox {sandboxID}: {msg}"
            (.sentinel .execNotKilled))
        | none => return none

/-! ## The exec -/

structure ExecResult where
  exitCode : ℤ
  stdout : Bytes
  stderr : Bytes
  stdoutTruncated : Bool
  stderrTruncated : Bool

def ExecResult.of (writers : CappedWriter × CappedWriter) (exitCode : ℤ) : ExecResult :=
  ⟨exitCode, writers.1.buf, writers.2.buf, writers.1.truncated, writers.2.truncated⟩

/-- The caller's own error wins over the deadline of the exec. -/
def classifyExecDone (op timeoutMsg cancelMsg : String) (parentErr derivedErr : Option CtxErr) : Err :=
  match parentErr with
  | some err => E op cancelMsg err.err
  | none =>
    if derivedErr = some .deadlineExceeded then E op timeoutMsg (.sentinel .execTimeout)
    else E op cancelMsg (.foreign "exec command cancelled")

/-- Why the context of the exec is done. -/
def doneErr (sandboxID stage : String) : Program execSignature Err := do
  let parentErr ← issue (.ctxErr .caller)
  let derivedErr ← issue (.ctxErr .exec)
  return classifyExecDone "docker.Runtime.Exec" s!"exec command timed out {stage} for sandbox {sandboxID}"
    s!"exec command cancelled {stage} for sandbox {sandboxID}" parentErr derivedErr

/-- The error of a stage that failed: its own, unless the context is done. -/
def stageErr (sandboxID stage : String) (err : Err) : Program execSignature Err := do
  match ← issue (.ctxErr .exec) with
  | some _ => doneErr sandboxID stage
  | none => return err

/-- Kill the command and return what it had written. -/
def abandon (containerID sandboxID : String) (cmd : List String) (opts : ExecOpts) (captured : ExecResult) (cause : Err) :
    Program execSignature (ExecResult × Option Err) := do
  match ← killExec containerID sandboxID cmd opts with
  | some killErr => return (captured, some (joinErr cause killErr))
  | none => return (captured, some cause)

/-- From the attached exec on: its output, then its exit code. -/
def follow (containerID sandboxID : String) (cmd : List String) (opts : ExecOpts) (timeout : Duration) (execID : String) :
    Program execSignature (ExecResult × Option Err) := do
  let op := "docker.Runtime.Exec"
  let copied ← issue .copy
  let result := ExecResult.of (demux maxStreamBytes copied.frames)
  match copied.outcome with
  | none => do
    let cause ← doneErr sandboxID "while streaming output"
    abandon containerID sandboxID cmd opts (result (-1)) cause
  | some (.error err) =>
    abandon containerID sandboxID cmd opts (result (-1))
      (E op s!"streaming container stdout and stderr in container {containerID} for sandbox {sandboxID}" (.foreign err))
  | some (.ok ()) =>
    match ← awaitExecExit .exec execID (ticksWithin timeout) with
    | .error err => do
      let cause ← stageErr sandboxID "while awaiting the exit code"
        (E op s!"inspecting exec status in container {containerID} for sandbox {sandboxID}" err)
      abandon containerID sandboxID cmd opts (result (-1)) cause
    | .ok exitCode => return (result exitCode, none)

/-- In the container: create the exec and attach to it, which starts it. -/
def execIn (containerID sandboxID : String) (cmd : List String) (opts : ExecOpts) (timeout : Duration) :
    Program execSignature (ExecResult × Option Err) := do
  let op := "docker.Runtime.Exec"
  let captured := ExecResult.of (demux maxStreamBytes []) (-1)
  match ← issue (.execCreate .exec containerID ⟨true, true, cmd, envToArgs opts.env, opts.workDir⟩) with
  | .error err => do
    let cause ← stageErr sandboxID "while creating the exec"
      (E op s!"executing command in container {containerID} for sandbox {sandboxID}" err.err)
    return (captured, some cause)
  | .ok execID =>
    match ← issue (.execAttach .exec execID) with
    | .error err => do
      let cause ← stageErr sandboxID "while attaching to the exec"
        (E op s!"attached to exec command in container {containerID} for sandbox {sandboxID}" err.err)
      return (captured, some cause)
    | .ok () => follow containerID sandboxID cmd opts timeout execID

/-- `Runtime.Exec`: the result and the error. -/
def exec (sandboxID : String) (cmd : List String) (opts : ExecOpts) : Program execSignature (ExecResult × Option Err) := do
  let timeout := if opts.timeout ≤ 0 then defaultExecTimeout else opts.timeout
  match ← (getContainerBysandboxID sandboxID).translate fun c => issue (.base c) with
  | .error err => do
    let cause ← stageErr sandboxID "while resolving the container" (wrap "docker.Runtime.Exec" "" err)
    return (ExecResult.of (demux maxStreamBytes []) (-1), some cause)
  | .ok c => execIn c.id sandboxID cmd opts timeout

/-! ## The calls of a poll -/

theorem inspectExec_calls {P : ExecCall → Prop} {ctx : ExecContext} {execID : String}
    {running : Program execSignature (Except Err ℤ)} (hinspect : P (.execInspect ctx execID)) (h : running.Calls P) :
    (inspectExec ctx execID running).Calls P := by
  refine ⟨hinspect, fun a => ?_⟩
  cases a with
  | error e => trivial
  | ok status =>
    obtain ⟨isRunning, exitCode⟩ := status
    cases isRunning with
    | true => exact h
    | false => trivial

theorem awaitExecExit_calls {P : ExecCall → Prop} {ctx : ExecContext} {execID : String}
    (hinspect : P (.execInspect ctx execID)) (hpoll : P (.poll ctx)) (hwait : P (.wait ctx)) (ticks : ℕ) :
    (awaitExecExit ctx execID ticks).Calls P := by
  induction ticks with
  | zero => exact inspectExec_calls hinspect ⟨hwait, fun _ => trivial⟩
  | succ ticks ih =>
    refine inspectExec_calls hinspect ⟨hpoll, fun a => ?_⟩
    cases a with
    | none => exact ih
    | some e => trivial

theorem killExec_calls {P : ExecCall → Prop} {containerID sandboxID : String} {cmd : List String} {opts : ExecOpts}
    (hcreate : ∀ config, P (.execCreate .kill containerID config)) (hstart : ∀ execID, P (.execStart .kill execID))
    (hinspect : ∀ execID, P (.execInspect .kill execID)) (hpoll : P (.poll .kill)) (hwait : P (.wait .kill)) :
    (killExec containerID sandboxID cmd opts).Calls P := by
  refine ⟨hcreate _, fun a => ?_⟩
  cases a with
  | error err => trivial
  | ok execID =>
    refine ⟨hstart execID, fun a => ?_⟩
    cases a with
    | error err => trivial
    | ok =>
      refine (awaitExecExit_calls (hinspect execID) hpoll hwait _).bind fun a => ?_
      cases a with
      | error err => trivial
      | ok exitCode =>
        dsimp only
        cases classifyPkillExit exitCode with
        | some msg => trivial
        | none => trivial

end Docker
end Quickspin
