import Mathlib.Logic.Relation
import Quickspin.Exec

/-! What is left of a command that is given up on. The container has the command's process and, once the kill has
started it, `pkill`; the process does what it wants about its command line and about SIGTERM. -/
namespace Quickspin
open Interaction
set_option autoImplicit false

namespace Docker

/-! ## The container of a command -/

/-- The process of the command: the command line `pkill` finds it under, whether `pkill` may signal it, whether it is
still running on return although it got the signal, and whether it is where it did not. -/
structure CommandProcess where
  commandLine : String
  signalable : Bool
  outlivesTerm : Bool
  outlivesCall : Bool

/-- The command's process, and whether it got a SIGTERM. -/
inductive Command
  | waiting
  | started (signalled : Bool)
deriving DecidableEq

/-- The `pkill` of the exec that runs it. -/
inductive Kill
  | idle
  | running (execID : String)
  | exited (execID : String) (exitCode : ℤ)
deriving DecidableEq

/-- The contexts that are done, the execs created, and their processes. -/
structure ExecWorld where
  done : ExecContext → Option CtxErr
  configs : String → Option ExecConfig
  command : Command
  kill : Kill

def ExecWorld.create (w : ExecWorld) (execID : String) (config : ExecConfig) : ExecWorld :=
  { w with configs := fun id => if id = execID then some config else w.configs id }

/-- `pkill -f -x` takes the whole command line, and a quoted pattern stands for itself. -/
def Picks (argv : List String) (commandLine : String) : Prop := argv = ["pkill", "-f", "-x", "--", quoteMeta commandLine]

instance (argv : List String) (commandLine : String) : Decidable (Picks argv commandLine) :=
  inferInstanceAs (Decidable (argv = _))

/-- A context ends, or `pkill` does its work: it signals a process that it picks and may signal, if that is there, and
has nothing to report with exit code 1. -/
inductive ExecWorld.Step (p : CommandProcess) : ExecWorld → ExecWorld → Prop
  | done {w : ExecWorld} (ctx : ExecContext) (err : CtxErr) (h : w.done ctx = none) :
    Step p w { w with done := fun c => if c = ctx then some err else w.done c }
  | missed {w : ExecWorld} (execID : String) (config : ExecConfig) (exitCode : ℤ) (hkill : w.kill = .running execID)
    (hconfig : w.configs execID = some config) (h : exitCode = 0 ∨ exitCode = 1 →
      ¬(Picks config.cmd p.commandLine ∧ p.signalable = true ∧ p.outlivesCall = true)) :
    Step p w { w with kill := .exited execID exitCode }
  | signalled {w : ExecWorld} (execID : String) (config : ExecConfig) (exitCode : ℤ) (old : Bool)
    (hkill : w.kill = .running execID) (hconfig : w.configs execID = some config) (hcommand : w.command = .started old)
    (hpicks : Picks config.cmd p.commandLine) (hsignal : p.signalable = true) (hcode : exitCode ≠ 1) :
    Step p w { w with kill := .exited execID exitCode, command := .started true }

def ExecWorld.Moves (p : CommandProcess) : ExecWorld → ExecWorld → Prop := Relation.ReflTransGen (ExecWorld.Step p)

/-- What a call may do. One that fails may have taken effect: an attach that fails may have started the command. -/
def ExecWorld.act : (c : ExecCall) → ExecWorld → c.Answer → ExecWorld → Prop
  | .base _, w, _, w' => w' = w
  | .execCreate _ _ config, w, a, w' =>
    (∃ execID, w.configs execID = none ∧ w' = w.create execID config ∧ ∀ id, a = .ok id → id = execID) ∨
      w' = w ∧ ∃ err, a = .error err
  | .execAttach _ _, w, a, w' => w' = { w with command := .started false } ∨ w' = w ∧ ∃ err, a = .error err
  | .execStart _ execID, w, a, w' => w' = { w with kill := .running execID } ∨ w' = w ∧ ∃ err, a = .error err
  | .execInspect _ execID, w, a, w' => w' = w ∧ ∀ status, a = .ok status → status.running = false →
    w.kill ≠ .running execID ∧ ∀ exitCode, w.kill = .exited execID exitCode → status.exitCode = exitCode
  | .copy, w, a, w' => w' = w ∧ (a.outcome = none → w.done .exec ≠ none)
  | .poll ctx, w, a, w' => w' = w ∧ ∀ err, a = some err → w.done ctx = some err
  | .wait ctx, w, a, w' => w' = w ∧ w.done ctx = some a
  | .ctxErr ctx, w, a, w' => w' = w ∧ a = w.done ctx

/-- The daemon started the command. -/
def ExecWorld.Started (w : ExecWorld) : Prop := ∃ signalled, w.command = .started signalled

/-- The command's process is running on return. -/
def ExecWorld.StillRuns (p : CommandProcess) (w : ExecWorld) : Prop :=
  ∃ signalled, w.command = .started signalled ∧ p.outlivesCall = true ∧ (signalled = true → p.outlivesTerm = true)

/-- The error has the failed kill joined to it. -/
def KillFailed (err : Option Err) : Prop :=
  ∃ cause message inner, err = some (joinErr cause (E "docker.Runtime.killExec" message inner))

/-! ## Quoting -/

theorem quoteCharacter_nonempty (c : Char) : ∃ d rest, quoteCharacter c = d :: rest := by
  unfold quoteCharacter
  split
  · exact ⟨_, _, rfl⟩
  · exact ⟨_, _, rfl⟩

/-- A backslash that quotes is itself quoted where it stands for itself, so the first character decides. -/
theorem quoteCharacter_append {a b : Char} {l l' : List Char} (h : quoteCharacter a ++ l = quoteCharacter b ++ l') :
    a = b ∧ l = l' := by
  have hquoted : '\\' ∈ metaCharacters := by decide
  unfold quoteCharacter at h
  by_cases ha : a ∈ metaCharacters
  · by_cases hb : b ∈ metaCharacters
    · rw [if_pos ha, if_pos hb] at h
      simpa using h
    · rw [if_pos ha, if_neg hb] at h
      have he : '\\' = b := (List.cons.inj h).1
      exact absurd (he ▸ hquoted) hb
  · by_cases hb : b ∈ metaCharacters
    · rw [if_neg ha, if_pos hb] at h
      have he : a = '\\' := (List.cons.inj h).1
      exact absurd (he ▸ hquoted) ha
    · rw [if_neg ha, if_neg hb] at h
      simpa using h

theorem flatMap_quoteCharacter_injective {l l' : List Char}
    (h : l.flatMap quoteCharacter = l'.flatMap quoteCharacter) : l = l' := by
  induction l generalizing l' with
  | nil =>
    cases l' with
    | nil => rfl
    | cons b l' =>
      obtain ⟨d, rest, hb⟩ := quoteCharacter_nonempty b
      rw [List.flatMap_nil, List.flatMap_cons, hb] at h
      cases h
  | cons a l ih =>
    cases l' with
    | nil =>
      obtain ⟨d, rest, ha⟩ := quoteCharacter_nonempty a
      rw [List.flatMap_nil, List.flatMap_cons, ha] at h
      cases h
    | cons b l' =>
      rw [List.flatMap_cons, List.flatMap_cons] at h
      obtain ⟨rfl, hrest⟩ := quoteCharacter_append h
      rw [ih hrest]

theorem quoteMeta_injective {s t : String} (h : quoteMeta s = quoteMeta t) : s = t :=
  String.toList_injective (flatMap_quoteCharacter_injective (String.ofList_injective h))

/-- The kill looks for the command line the command was started with. -/
theorem picks_pkillCommand {cmd : List String} {commandLine : String} :
    Picks (pkillCommand cmd) commandLine ↔ commandLine = " ".intercalate cmd := by
  unfold Picks pkillCommand
  constructor
  · intro h
    have hpattern : quoteMeta (" ".intercalate cmd) = quoteMeta commandLine := by simpa using h
    exact (quoteMeta_injective hpattern).symm
  · rintro rfl
    rfl

/-! ## What the daemon answered -/

/-- The answer to an attach is a failure. -/
def attachFailed : Exchange execSignature → Bool
  | ⟨.execAttach _ _, a⟩ => !Except.isOk (a : Except DaemonError Unit)
  | _ => false

/-- The answer says that the kill has exited with 0 or 1. -/
def killReported : Exchange execSignature → Bool
  | ⟨.execInspect .kill _, a⟩ =>
    match (a : Except DaemonError ExecStatus) with
    | .ok status => !status.running && (classifyPkillExit status.exitCode).isNone
    | .error _ => false
  | _ => false

/-- The calls that neither start a process nor ask about the kill. -/
def Quiet : ExecCall → Prop
  | .execAttach _ _ | .execStart _ _ | .execInspect .kill _ => False
  | _ => True

section Log
variable {log log' : List (Exchange execSignature)}

theorem quiet_exchange {e : Exchange execSignature} (h : Quiet e.1) : attachFailed e = false ∧ killReported e = false := by
  obtain ⟨c, a⟩ := e
  cases c with
  | execAttach | execStart => exact h.elim
  | execInspect ctx execID =>
    cases ctx with
    | kill => exact h.elim
    | caller | exec => exact ⟨rfl, rfl⟩
  | base | execCreate | copy | poll | wait | ctxErr => exact ⟨rfl, rfl⟩

theorem quiet_log (h : ∀ e ∈ log, Quiet e.1) : log.any attachFailed = false ∧ log.any killReported = false := by
  constructor
  · exact List.any_eq_false.mpr fun e he => by simp [(quiet_exchange (h e he)).1]
  · exact List.any_eq_false.mpr fun e he => by simp [(quiet_exchange (h e he)).2]

end Log

/-! ## The program, call by call -/

/-- An error that is not a joined one. -/
def Unjoined (e : Err) : Prop := ∀ errs, e ≠ .join errs

theorem unjoined_E (op message : String) (e : Err) : Unjoined (E op message e) := fun _ h => nomatch h

theorem Unjoined.not_killFailed {e : Err} (h : Unjoined e) : ¬KillFailed (some e) := by
  rintro ⟨cause, message, inner, he⟩
  exact h _ (Option.some.inj he)

section Run
variable {p : CommandProcess} {w w' : ExecWorld} {log : List (Exchange execSignature)} {sandboxID stage containerID : String}
  {cmd : List String} {opts : ExecOpts}

/-- As long as no kill is started, the command's process is left alone. -/
def Untouched (w w' : ExecWorld) : Prop := w.kill = .idle → w'.kill = .idle ∧ w'.command = w.command

theorem untouched_trans {w₁ w₂ w₃ : ExecWorld} (h : Untouched w₁ w₂) (h' : Untouched w₂ w₃) : Untouched w₁ w₃ := by
  intro hidle
  obtain ⟨hidle₂, hcommand⟩ := h hidle
  obtain ⟨hidle₃, hcommand'⟩ := h' hidle₂
  exact ⟨hidle₃, hcommand'.trans hcommand⟩

theorem untouched_moves (h : ExecWorld.Moves p w w') : Untouched w w' := by
  intro hidle
  induction h with
  | refl => exact ⟨hidle, rfl⟩
  | @tail w₁ w₂ _ hstep ih =>
    obtain ⟨hidle₁, hcommand⟩ := ih
    cases hstep with
    | done => exact ⟨hidle₁, hcommand⟩
    | missed _ _ _ hkill | signalled _ _ _ _ hkill =>
      rw [hkill] at hidle₁
      cases hidle₁

theorem untouched_quiet {c : ExecCall} (hc : Quiet c) {a : c.Answer} (h : ExecWorld.act c w a w') : Untouched w w' := by
  intro hidle
  cases c with
  | execAttach | execStart => exact hc.elim
  | base =>
    obtain rfl := h
    exact ⟨hidle, rfl⟩
  | execCreate ctx id config =>
    rcases h with ⟨execID, -, rfl, -⟩ | ⟨rfl, -⟩
    · exact ⟨hidle, rfl⟩
    · exact ⟨hidle, rfl⟩
  | execInspect | copy | poll | wait | ctxErr =>
    obtain ⟨rfl, -⟩ := h
    exact ⟨hidle, rfl⟩

/-- **Quiet code** leaves the command alone and has nothing of an attach or of a kill in its exchanges. -/
theorem quiet_run {α : Type} {q : Program execSignature α} {r : α} (hq : q.Calls Quiet)
    (h : q.Completes ExecWorld.act (ExecWorld.Moves p) w log r w') :
    Untouched w w' ∧ log.any attachFailed = false ∧ log.any killReported = false :=
  ⟨h.keeps hq (fun _ _ _ => untouched_trans) (fun _ hc _ _ _ => untouched_quiet hc) fun _ _ => untouched_moves,
    quiet_log (h.calls hq)⟩

theorem quiet_doneErr (sandboxID stage : String) : (doneErr sandboxID stage).Calls Quiet :=
  ⟨trivial, fun _ => ⟨trivial, fun _ => trivial⟩⟩

theorem quiet_stageErr (sandboxID stage : String) (e : Err) : (stageErr sandboxID stage e).Calls Quiet := by
  refine ⟨trivial, fun a => ?_⟩
  cases a with
  | none => trivial
  | some _ => exact quiet_doneErr sandboxID stage

theorem quiet_awaitExecExit (execID : String) (ticks : ℕ) : (awaitExecExit .exec execID ticks).Calls Quiet :=
  awaitExecExit_calls trivial trivial trivial ticks

theorem quiet_resolve (sandboxID : String) :
    ((getContainerBysandboxID sandboxID).translate fun c => issue (.base c)).Calls Quiet :=
  Program.Calls.translate (Program.nodes_true _) fun _ _ => ⟨trivial, fun _ => trivial⟩

theorem unjoined_doneErr {e : Err} (h : (doneErr sandboxID stage).Completes ExecWorld.act (ExecWorld.Moves p) w log e w') :
    Unjoined e := by
  obtain ⟨_, parentErr, _, _, -, -, -, _, derivedErr, _, _, -, -, -, -, rfl, -⟩ := h
  unfold classifyExecDone
  cases parentErr with
  | some err => exact unjoined_E _ _ _
  | none =>
    dsimp only
    split
    · exact unjoined_E _ _ _
    · exact unjoined_E _ _ _

theorem unjoined_stageErr {own e : Err} (hown : Unjoined own)
    (h : (stageErr sandboxID stage own).Completes ExecWorld.act (ExecWorld.Moves p) w log e w') : Unjoined e := by
  obtain ⟨_, a, _, _, -, -, -, h⟩ := h
  cases a with
  | some _ => exact unjoined_doneErr h
  | none =>
    obtain ⟨-, rfl, -⟩ := h
    exact hown

/-! ## The kill -/

/-- The exec of the kill was started after the command, and `pkill` does what it does. -/
inductive KillStage (p : CommandProcess) (argv : List String) (execID : String) (w : ExecWorld) : Prop
  | running (hkill : w.kill = .running execID) (hcommand : w.command = .started false)
  | exited (exitCode : ℤ) (signalled : Bool) (hkill : w.kill = .exited execID exitCode)
    (hcommand : w.command = .started signalled)
    (cause : signalled = true → Picks argv p.commandLine ∧ p.signalable = true)
    (effect : exitCode = 0 ∨ exitCode = 1 → Picks argv p.commandLine → p.signalable = true → p.outlivesCall = true →
      signalled = true)

structure Killing (p : CommandProcess) (argv : List String) (execID : String) (w : ExecWorld) : Prop where
  config : ∃ config, w.configs execID = some config ∧ config.cmd = argv
  stage : KillStage p argv execID w

variable {argv : List String} {execID : String}

theorem killing_step (h : Killing p argv execID w) (hstep : ExecWorld.Step p w w') : Killing p argv execID w' := by
  obtain ⟨⟨config, hconfig, hcmd⟩, hstage⟩ := h
  cases hstep with
  | done =>
    refine ⟨⟨config, hconfig, hcmd⟩, ?_⟩
    cases hstage with
    | running hkill hcommand => exact .running hkill hcommand
    | exited exitCode signalled hkill hcommand cause effect => exact .exited exitCode signalled hkill hcommand cause effect
  | missed execID' config' exitCode hkill' hconfig' hmissed =>
    refine ⟨⟨config, hconfig, hcmd⟩, ?_⟩
    cases hstage with
    | running hkill hcommand =>
      obtain rfl : execID = execID' := Kill.running.inj (hkill.symm.trans hkill')
      obtain rfl : config = config' := Option.some.inj (hconfig.symm.trans hconfig')
      refine .exited exitCode false rfl hcommand (fun hs => nomatch hs) fun hcode hpicks hsignal houtlives => ?_
      exact absurd ⟨hcmd ▸ hpicks, hsignal, houtlives⟩ (hmissed hcode)
    | exited _ _ hkill =>
      rw [hkill] at hkill'
      cases hkill'
  | signalled execID' config' exitCode old hkill' hconfig' hold hpicks hsignal hcode =>
    refine ⟨⟨config, hconfig, hcmd⟩, ?_⟩
    cases hstage with
    | running hkill hcommand =>
      obtain rfl : execID = execID' := Kill.running.inj (hkill.symm.trans hkill')
      obtain rfl : config = config' := Option.some.inj (hconfig.symm.trans hconfig')
      exact .exited exitCode true rfl rfl (fun _ => ⟨hcmd ▸ hpicks, hsignal⟩) fun _ _ _ _ => rfl
    | exited _ _ hkill =>
      rw [hkill] at hkill'
      cases hkill'

theorem killing_moves (h : Killing p argv execID w) (hmoves : ExecWorld.Moves p w w') : Killing p argv execID w' := by
  induction hmoves with
  | refl => exact h
  | tail _ hstep ih => exact killing_step ih hstep

theorem configs_moves (hmoves : ExecWorld.Moves p w w') : w'.configs = w.configs := by
  induction hmoves with
  | refl => rfl
  | tail _ hstep ih => cases hstep <;> exact ih

theorem exited_moves {exitCode : ℤ} (h : w.kill = .exited execID exitCode) (hmoves : ExecWorld.Moves p w w') :
    w'.kill = .exited execID exitCode := by
  induction hmoves with
  | refl => exact h
  | tail _ hstep ih =>
    cases hstep with
    | done => exact ih
    | missed _ _ _ hkill | signalled _ _ _ _ hkill =>
      rw [hkill] at ih
      cases ih

/-- How waiting for the kill ends: for want of an answer, or with the exit code of its `pkill`. -/
inductive Awaited (p : CommandProcess) (argv : List String) (execID : String) (log : List (Exchange execSignature))
    (r : Except Err ℤ) (w : ExecWorld) : Prop
  | failed (e : Err) (hr : r = .error e) (hreport : log.any killReported = false)
  | exited (exitCode : ℤ) (hr : r = .ok exitCode) (hkill : w.kill = .exited execID exitCode)
    (hkilling : Killing p argv execID w) (hreport : log.any killReported = (classifyPkillExit exitCode).isNone)

theorem awaited_cons {e : Exchange execSignature} {r : Except Err ℤ} (he : killReported e = false)
    (h : Awaited p argv execID log r w) : Awaited p argv execID (e :: log) r w := by
  cases h with
  | failed err hr hreport => exact .failed err hr (by rw [List.any_cons, he, hreport, Bool.or_self])
  | exited exitCode hr hkill hkilling hreport =>
    exact .exited exitCode hr hkill hkilling (by rw [List.any_cons, he, Bool.false_or, hreport])

/-- One poll of the kill; `running` goes on where `pkill` is still there. -/
theorem awaited_inspectExec {running : Program execSignature (Except Err ℤ)} {r : Except Err ℤ}
    (hrunning : ∀ {v l}, Killing p argv execID v → running.Completes ExecWorld.act (ExecWorld.Moves p) v l r w' →
      Awaited p argv execID l r w')
    (hK : Killing p argv execID w)
    (h : (inspectExec .kill execID running).Completes ExecWorld.act (ExecWorld.Moves p) w log r w') :
    Awaited p argv execID log r w' := by
  obtain ⟨u, a, v, rest, hmoves, ⟨rfl, htrue⟩, rfl, h⟩ := h
  have hKu := killing_moves hK hmoves
  cases a with
  | error err =>
    obtain ⟨rfl, rfl, -⟩ := h
    exact .failed err.err rfl rfl
  | ok status =>
    obtain ⟨isRunning, exitCode⟩ := status
    cases isRunning with
    | true => exact awaited_cons rfl (hrunning hKu h)
    | false =>
      obtain ⟨rfl, rfl, hend⟩ := h
      obtain ⟨hnot, hcode⟩ := htrue _ rfl rfl
      have hkill : v.kill = .exited execID exitCode := by
        cases hKu.stage with
        | running hkill => exact absurd hkill hnot
        | exited code _ hkill =>
          have hsame : exitCode = code := hcode code hkill
          rw [hsame, hkill]
      refine .exited exitCode rfl (exited_moves hkill hend) (killing_moves hKu hend) ?_
      show ((!false && (classifyPkillExit exitCode).isNone) || false) = _
      rw [Bool.or_false, Bool.not_false, Bool.true_and]

theorem awaited_awaitExecExit {ticks : ℕ} {r : Except Err ℤ} (hK : Killing p argv execID w)
    (h : (awaitExecExit .kill execID ticks).Completes ExecWorld.act (ExecWorld.Moves p) w log r w') :
    Awaited p argv execID log r w' := by
  induction ticks generalizing w log with
  | zero =>
    refine awaited_inspectExec (fun _ h => ?_) hK h
    obtain ⟨_, err, _, _, -, -, rfl, rfl, rfl, -⟩ := h
    exact .failed err.err rfl rfl
  | succ ticks ih =>
    refine awaited_inspectExec (fun hKv h => ?_) hK h
    obtain ⟨u, a, v, rest, hmoves, ⟨rfl, -⟩, rfl, h⟩ := h
    refine awaited_cons rfl ?_
    cases a with
    | some err =>
      obtain ⟨rfl, rfl, -⟩ := h
      exact .failed err.err rfl rfl
    | none => exact ih (killing_moves hKv hmoves) h

/-- The calls that do not attach. -/
def Unattaching : ExecCall → Prop
  | .execAttach _ _ => False
  | _ => True

theorem unattaching_killExec : (killExec containerID sandboxID cmd opts).Calls Unattaching :=
  killExec_calls (fun _ => trivial) (fun _ => trivial) (fun _ => trivial) trivial trivial

theorem unattaching_log (h : ∀ e ∈ log, Unattaching e.1) : log.any attachFailed = false := by
  refine List.any_eq_false.mpr fun e he => ?_
  obtain ⟨c, a⟩ := e
  cases c with
  | execAttach => exact (h _ he).elim
  | base | execCreate | execStart | execInspect | copy | poll | wait | ctxErr => exact Bool.false_ne_true

/-- How a kill ends: with the process signalled where that was possible, or with an error. -/
inductive KillEnds (p : CommandProcess) (cmd : List String) (log : List (Exchange execSignature)) (r : Option Err)
    (w : ExecWorld) : Prop
  | killed (hr : r = none) (hreport : log.any killReported = true) (signalled : Bool)
    (hcommand : w.command = .started signalled)
    (cause : signalled = true → p.commandLine = " ".intercalate cmd ∧ p.signalable = true)
    (effect : p.commandLine = " ".intercalate cmd → p.signalable = true → p.outlivesCall = true → signalled = true)
  | failed (message : String) (inner : Err) (hr : r = some (E "docker.Runtime.killExec" message inner))
    (hreport : log.any killReported = false)

theorem classifyPkillExit_none {exitCode : ℤ} : classifyPkillExit exitCode = none ↔ exitCode = 0 ∨ exitCode = 1 := by
  unfold classifyPkillExit
  split
  · simp [*]
  · split
    · simp [*]
    · simp [*]

theorem killExec_ends {r : Option Err} (hidle : w.kill = .idle) (hcommand : w.command = .started false)
    (h : (killExec containerID sandboxID cmd opts).Completes ExecWorld.act (ExecWorld.Moves p) w log r w') :
    log.any attachFailed = false ∧ KillEnds p cmd log r w' := by
  refine ⟨unattaching_log (h.calls unattaching_killExec), ?_⟩
  obtain ⟨u, a, v, rest, hmoves, hcreate, rfl, h⟩ := h
  obtain ⟨hidle, hsame⟩ := untouched_moves hmoves hidle
  cases a with
  | error err =>
    obtain ⟨rfl, rfl, -⟩ := h
    exact .failed _ _ rfl rfl
  | ok execID =>
    rcases hcreate with ⟨fresh, -, rfl, hid⟩ | ⟨-, err, he⟩
    swap
    · cases he
    obtain rfl : execID = fresh := hid execID rfl
    obtain ⟨u₂, a, v₂, rest, hmoves₂, hstart, rfl, h⟩ := h
    obtain ⟨hidle₂, hsame₂⟩ := untouched_moves hmoves₂ hidle
    cases a with
    | error err =>
      obtain ⟨rfl, rfl, -⟩ := h
      exact .failed _ _ rfl rfl
    | ok =>
      rcases hstart with rfl | ⟨-, err, he⟩
      swap
      · cases he
      have hconfig : u₂.configs execID =
          some ⟨false, false, pkillCommand cmd, envToArgs opts.env, opts.workDir⟩ := by
        rw [configs_moves hmoves₂]
        exact if_pos rfl
      have hK : Killing p (pkillCommand cmd) execID { u₂ with kill := .running execID } :=
        ⟨⟨_, hconfig, rfl⟩, .running rfl (hsame₂.trans (hsame.trans hcommand))⟩
      dsimp only [Program.bind] at h
      obtain ⟨l, l', answer, v₃, rfl, hawait, h⟩ := Program.Completes.of_bind (fun _ => .refl) h
      have hreports : ∀ l₀ : List (Exchange execSignature), List.any (⟨.execCreate .kill containerID
          ⟨false, false, pkillCommand cmd, envToArgs opts.env, opts.workDir⟩, Except.ok execID⟩ ::
          ⟨.execStart .kill execID, Except.ok ()⟩ :: l₀) killReported = l₀.any killReported := fun _ => rfl
      cases awaited_awaitExecExit hK hawait with
      | failed err hr hreport =>
        subst hr
        obtain ⟨rfl, rfl, -⟩ := h
        exact .failed _ _ rfl (by rw [hreports, List.append_nil, hreport])
      | exited exitCode hr hkill hkilling hreport =>
        subst hr
        dsimp only at h
        cases hclass : classifyPkillExit exitCode with
        | some msg =>
          rw [hclass] at h hreport
          obtain ⟨rfl, rfl, -⟩ := h
          exact .failed _ _ rfl (by rw [hreports, List.append_nil, hreport]; rfl)
        | none =>
          rw [hclass] at h hreport
          obtain ⟨rfl, rfl, hend⟩ := h
          have hfinal := killing_moves hkilling hend
          have hexit := exited_moves hkill hend
          cases hfinal.stage with
          | running hrunning =>
            rw [hexit] at hrunning
            cases hrunning
          | exited code signalled hkill' hcommand' cause effect =>
            obtain rfl : exitCode = code := (Kill.exited.inj (hexit.symm.trans hkill')).2
            rw [picks_pkillCommand] at cause effect
            exact .killed rfl (by rw [hreports, List.append_nil, hreport]; rfl) signalled hcommand' cause
              (effect (classifyPkillExit_none.mp hclass))

/-! ## The ends of an exec -/

/-- How an exec ends; the first two flags say whether its attach failed and whether its kill was reported. -/
inductive ExecEnds (p : CommandProcess) (cmd : List String) (w : ExecWorld) : Bool → Bool → Option Err → Prop
  | unstarted (err : Option Err) (hcommand : w.command = .waiting) : ExecEnds p cmd w false false err
  | unattached (e : Err) (he : Unjoined e) (hcommand : w.command = .waiting ∨ w.command = .started false) :
    ExecEnds p cmd w true false (some e)
  | finished : ExecEnds p cmd w false false none
  | killed (e : Err) (he : Unjoined e) (signalled : Bool) (hcommand : w.command = .started signalled)
    (cause : signalled = true → p.commandLine = " ".intercalate cmd ∧ p.signalable = true)
    (effect : p.commandLine = " ".intercalate cmd → p.signalable = true → p.outlivesCall = true → signalled = true) :
    ExecEnds p cmd w false true (some e)
  | unkilled (err : Option Err) (herr : KillFailed err) : ExecEnds p cmd w false false err

variable {r : ExecResult × Option Err} {captured : ExecResult} {timeout : Duration}

theorem ends_append {l : List (Exchange execSignature)} (hl : l.any attachFailed = false ∧ l.any killReported = false)
    {err : Option Err} (h : ExecEnds p cmd w (log.any attachFailed) (log.any killReported) err) :
    ExecEnds p cmd w ((l ++ log).any attachFailed) ((l ++ log).any killReported) err := by
  rw [List.any_append, List.any_append, hl.1, hl.2, Bool.false_or, Bool.false_or]
  exact h

theorem abandon_ends {cause : Err} (hcause : Unjoined cause) (hidle : w.kill = .idle)
    (hcommand : w.command = .started false)
    (h : (abandon containerID sandboxID cmd opts captured cause).Completes ExecWorld.act (ExecWorld.Moves p) w log r w') :
    ExecEnds p cmd w' (log.any attachFailed) (log.any killReported) r.2 := by
  obtain ⟨l, l', killed, v, rfl, hkill, h⟩ := Program.Completes.of_bind (fun _ => .refl) h
  have hkill := hkill.after (fun _ _ _ => Relation.ReflTransGen.trans) (u := w')
  cases killed with
  | some killErr =>
    obtain ⟨rfl, rfl, hmoves⟩ := h
    obtain ⟨hattach, hends⟩ := killExec_ends hidle hcommand (hkill hmoves)
    rw [List.append_nil, hattach]
    cases hends with
    | killed hr => cases hr
    | failed message inner hr hreport =>
      rw [hreport]
      exact .unkilled _ ⟨cause, message, inner, by rw [Option.some.inj hr]⟩
  | none =>
    obtain ⟨rfl, rfl, hmoves⟩ := h
    obtain ⟨hattach, hends⟩ := killExec_ends hidle hcommand (hkill hmoves)
    rw [List.append_nil, hattach]
    cases hends with
    | killed _ hreport signalled hcommand' hcause' heffect =>
      rw [hreport]
      exact .killed cause hcause signalled hcommand' hcause' heffect
    | failed message inner hr => cases hr

/-- An abandoned command after quiet code that settles the cause. -/
theorem abandon_ends_after {q : Program execSignature Err} (hq : q.Calls Quiet)
    (hcause : ∀ {e l v}, q.Completes ExecWorld.act (ExecWorld.Moves p) w l e v → Unjoined e)
    (hidle : w.kill = .idle) (hcommand : w.command = .started false)
    (h : (q >>= abandon containerID sandboxID cmd opts captured).Completes ExecWorld.act (ExecWorld.Moves p) w log r w') :
    ExecEnds p cmd w' (log.any attachFailed) (log.any killReported) r.2 := by
  obtain ⟨l, l', cause, v, rfl, hfirst, h⟩ := Program.Completes.of_bind (fun _ => .refl) h
  obtain ⟨huntouched, hlog⟩ := quiet_run hq hfirst
  obtain ⟨hidle', hsame⟩ := huntouched hidle
  exact ends_append hlog (abandon_ends (hcause hfirst) hidle' (hsame.trans hcommand) h)

theorem follow_ends {execID : String} (hidle : w.kill = .idle) (hcommand : w.command = .started false)
    (h : (follow containerID sandboxID cmd opts timeout execID).Completes ExecWorld.act (ExecWorld.Moves p) w log r w') :
    ExecEnds p cmd w' (log.any attachFailed) (log.any killReported) r.2 := by
  obtain ⟨v, copied, _, l, hmoves, ⟨rfl, -⟩, rfl, h⟩ := h
  obtain ⟨hidle, hsame⟩ := untouched_moves hmoves hidle
  have hcommand := hsame.trans hcommand
  refine ends_append (l := [⟨.copy, copied⟩]) ⟨rfl, rfl⟩ ?_
  obtain ⟨frames, outcome⟩ := copied
  cases outcome with
  | none => exact abandon_ends_after (quiet_doneErr _ _) unjoined_doneErr hidle hcommand h
  | some outcome =>
    cases outcome with
    | error err => exact abandon_ends (unjoined_E _ _ _) hidle hcommand h
    | ok =>
      dsimp only [Program.bind] at h
      obtain ⟨l, l', exitCode, u, rfl, hawait, h⟩ := Program.Completes.of_bind (fun _ => .refl) h
      obtain ⟨huntouched, hlog⟩ := quiet_run (quiet_awaitExecExit execID _) hawait
      obtain ⟨hidle, hsame⟩ := huntouched hidle
      refine ends_append hlog ?_
      cases exitCode with
      | error err =>
        exact abandon_ends_after (quiet_stageErr _ _ _) (unjoined_stageErr (unjoined_E _ _ _)) hidle
          (hsame.trans hcommand) h
      | ok exitCode =>
        obtain ⟨rfl, rfl, -⟩ := h
        exact .finished

theorem stage_ends {own : Err} (hown : Unjoined own)
    (h : (stageErr sandboxID stage own >>= fun cause => Program.done (captured, some cause)).Completes ExecWorld.act
      (ExecWorld.Moves p) w log r w') :
    Untouched w w' ∧ (log.any attachFailed = false ∧ log.any killReported = false) ∧ ∃ e, r.2 = some e ∧ Unjoined e := by
  obtain ⟨l, l', cause, v, rfl, hstage, rfl, rfl, hmoves⟩ := Program.Completes.of_bind (fun _ => .refl) h
  obtain ⟨huntouched, hlog⟩ := quiet_run (quiet_stageErr _ _ _) hstage
  rw [List.append_nil]
  exact ⟨untouched_trans huntouched (untouched_moves hmoves), hlog, cause, rfl, unjoined_stageErr hown hstage⟩

theorem execIn_ends (hidle : w.kill = .idle) (hcommand : w.command = .waiting)
    (h : (execIn containerID sandboxID cmd opts timeout).Completes ExecWorld.act (ExecWorld.Moves p) w log r w') :
    ExecEnds p cmd w' (log.any attachFailed) (log.any killReported) r.2 := by
  obtain ⟨u, a, v, l, hmoves, hcreate, rfl, h⟩ := h
  have hcreated : Untouched u v := untouched_quiet (c := .execCreate .exec containerID _) trivial hcreate
  obtain ⟨hidle, hsame⟩ := untouched_trans (untouched_moves hmoves) hcreated hidle
  have hcommand := hsame.trans hcommand
  refine ends_append (l := [⟨_, a⟩]) ⟨rfl, rfl⟩ ?_
  cases a with
  | error err =>
    obtain ⟨huntouched, hlog, e, hr, he⟩ := stage_ends (unjoined_E _ _ _) h
    rw [hlog.1, hlog.2]
    exact .unstarted _ ((huntouched hidle).2.trans hcommand)
  | ok execID =>
    obtain ⟨u, a, v, l, hmoves, hattach, rfl, h⟩ := h
    obtain ⟨hidle, hsame⟩ := untouched_moves hmoves hidle
    have hcommand := hsame.trans hcommand
    cases a with
    | error err =>
      obtain ⟨huntouched, hlog, e, hr, he⟩ := stage_ends (unjoined_E _ _ _) h
      rw [List.any_cons, List.any_cons, hlog.1, hlog.2, hr]
      refine .unattached e he ?_
      rcases hattach with rfl | ⟨rfl, -⟩
      · exact .inr (huntouched hidle).2
      · exact .inl ((huntouched hidle).2.trans hcommand)
    | ok =>
      refine ends_append (l := [⟨_, _⟩]) ⟨rfl, rfl⟩ ?_
      rcases hattach with rfl | ⟨-, err, he⟩
      · exact follow_ends (w := { u with command := .started false }) hidle rfl h
      · cases he

theorem exec_ends (hidle : w.kill = .idle) (hcommand : w.command = .waiting)
    (h : (exec sandboxID cmd opts).Completes ExecWorld.act (ExecWorld.Moves p) w log r w') :
    ExecEnds p cmd w' (log.any attachFailed) (log.any killReported) r.2 := by
  obtain ⟨l, l', c, v, rfl, hresolve, h⟩ := Program.Completes.of_bind (fun _ => .refl) h
  obtain ⟨huntouched, hlog⟩ := quiet_run (quiet_resolve sandboxID) hresolve
  obtain ⟨hidle, hsame⟩ := huntouched hidle
  refine ends_append hlog ?_
  cases c with
  | error err =>
    obtain ⟨huntouched, hlog, e, hr, he⟩ := stage_ends (unjoined_E _ _ _) h
    rw [hlog.1, hlog.2]
    exact .unstarted _ ((huntouched hidle).2.trans (hsame.trans hcommand))
  | ok c => exact execIn_ends hidle (hsame.trans hcommand) h

end Run

/-! ## The kill contract -/

/-- Where the exec can get hold of a process that would outlive the call: it did not lose it in a failed attach, and a
kill that was reported found it under the command line it was started with, could signal it, and was obeyed. -/
def Reapable (p : CommandProcess) (cmd : List String) (log : List (Exchange execSignature)) : Prop :=
  p.outlivesCall = true → log.any attachFailed = false ∧ (log.any killReported = true →
    p.commandLine = " ".intercalate cmd ∧ p.signalable = true ∧ p.outlivesTerm = false)

/-- **The kill contract**: of an exec that fails after the daemon started the command, whatever the daemon, the contexts
and the process do, the process is gone on return or the error carries the failed kill, exactly where the process could
be got hold of. -/
theorem exec_reaps_iff {p : CommandProcess} {w w' : ExecWorld} {sandboxID : String} {cmd : List String} {opts : ExecOpts}
    {log : List (Exchange execSignature)} {result : ExecResult} {err : Option Err} (hidle : w.kill = .idle)
    (hcommand : w.command = .waiting)
    (h : (exec sandboxID cmd opts).Completes ExecWorld.act (ExecWorld.Moves p) w log (result, err) w') :
    (err ≠ none → w'.Started → ¬w'.StillRuns p ∨ KillFailed err) ↔ (w'.Started → Reapable p cmd log) := by
  have hends := exec_ends hidle hcommand h
  unfold Reapable
  generalize log.any attachFailed = attach at hends ⊢
  generalize log.any killReported = report at hends ⊢
  cases hends with
  | unstarted err hcommand =>
    have hnot : ¬w'.Started := by
      rintro ⟨signalled, hstarted⟩
      rw [hcommand] at hstarted
      cases hstarted
    exact ⟨fun _ hs => absurd hs hnot, fun _ _ hs => absurd hs hnot⟩
  | finished => exact ⟨fun _ _ _ => ⟨rfl, fun hr => nomatch hr⟩, fun _ herr => absurd rfl herr⟩
  | unkilled err herr => exact ⟨fun _ _ _ => ⟨rfl, fun hr => nomatch hr⟩, fun _ _ _ => .inr herr⟩
  | unattached e he hcommand =>
    constructor
    · intro hsafe hs houtlives
      rcases hsafe (fun hn => nomatch hn) hs with hgone | hkill
      · obtain ⟨signalled, hstarted⟩ := hs
        have hfalse : signalled = false := by
          rcases hcommand with hcommand | hcommand
          · rw [hcommand] at hstarted
            cases hstarted
          · rw [hcommand] at hstarted
            exact (Command.started.inj hstarted).symm
        subst hfalse
        exact absurd ⟨false, hstarted, houtlives, fun hn => nomatch hn⟩ hgone
      · exact absurd hkill he.not_killFailed
    · intro hreap _ hs
      refine .inl ?_
      rintro ⟨signalled, -, houtlives, -⟩
      cases (hreap hs houtlives).1
  | killed e he signalled hcommand cause effect =>
    have hs : w'.Started := ⟨signalled, hcommand⟩
    constructor
    · intro hsafe _ houtlives
      refine ⟨rfl, fun _ => ?_⟩
      rcases hsafe (fun hn => nomatch hn) hs with hgone | hkill
      · have hsignalled : signalled = true ∧ p.outlivesTerm = false := by
          by_contra hcontra
          refine hgone ⟨signalled, hcommand, houtlives, fun hsig => ?_⟩
          by_contra hterm
          exact hcontra ⟨hsig, Bool.eq_false_of_not_eq_true hterm⟩
        obtain ⟨hline, hsignal⟩ := cause hsignalled.1
        exact ⟨hline, hsignal, hsignalled.2⟩
      · exact absurd hkill he.not_killFailed
    · intro hreap _ _
      refine .inl ?_
      rintro ⟨signalled', hcommand', houtlives, hterm⟩
      obtain ⟨hline, hsignal, hobeys⟩ := (hreap hs houtlives).2 rfl
      have hsig := effect hline hsignal houtlives
      obtain rfl : signalled = signalled' := Command.started.inj (hcommand.symm.trans hcommand')
      rw [hterm hsig] at hobeys
      cases hobeys

/-! ### A command that hangs -/

/-- The context ends, if it has not yet. -/
def ExecWorld.expire (w : ExecWorld) (ctx : ExecContext) : ExecWorld :=
  { w with done := fun c => if c = ctx ∧ w.done ctx = none then some .deadlineExceeded else w.done c }

/-- A `pkill` that was started does its work. -/
def ExecWorld.pkill (p : CommandProcess) (w : ExecWorld) : ExecWorld :=
  match w.kill, w.command with
  | .running execID, .started _ =>
    match w.configs execID with
    | none => w
    | some config =>
      if Picks config.cmd p.commandLine ∧ p.signalable = true then
        { w with kill := .exited execID 0, command := .started true }
      else { w with kill := .exited execID 1 }
  | _, _ => w

theorem moves_expire (p : CommandProcess) (w : ExecWorld) (ctx : ExecContext) : ExecWorld.Moves p w (w.expire ctx) := by
  cases hdone : w.done ctx with
  | some err =>
    have hsame : w.expire ctx = w := by
      unfold ExecWorld.expire
      simp [hdone]
    rw [hsame]
    exact .refl
  | none =>
    have hstep : w.expire ctx = { w with done := fun c => if c = ctx then some .deadlineExceeded else w.done c } := by
      unfold ExecWorld.expire
      simp [hdone]
    rw [hstep]
    exact .single (.done ctx .deadlineExceeded hdone)

theorem moves_pkill (p : CommandProcess) (w : ExecWorld) : ExecWorld.Moves p w (w.pkill p) := by
  unfold ExecWorld.pkill
  split
  · next execID signalled hkill hcommand =>
    split
    · exact .refl
    · next config hconfig =>
      split
      · next hpicks =>
        exact .single (.signalled execID config 0 signalled hkill hconfig hcommand hpicks.1 hpicks.2 (by decide))
      · next hmissed =>
        exact .single (.missed execID config 1 hkill hconfig fun _ h => hmissed ⟨h.1, h.2.1⟩)
  · exact .refl

/-- The container of the sandbox. -/
def runningDaemon : World Daemon :=
  ⟨.empty, 0, Daemon.empty.put ⟨"c", managedLabels exampleID, "running", 0⟩⟩

def execName (ctx : ExecContext) : String := if ctx = .kill then "kill" else "exec"

/-- The daemon answers at once, to the attach with the given answer; the command writes nothing until its deadline. -/
def hangingExec (p : CommandProcess) (attach : Except DaemonError Unit) :
    (c : ExecCall) → ExecWorld → c.Answer × ExecWorld
  | .base c, w => ((dockerExec c runningDaemon).1, w)
  | .execCreate ctx _ config, w =>
    if w.configs (execName ctx) = none then (.ok (execName ctx), w.create (execName ctx) config)
    else (.error ⟨"conflict", false⟩, w)
  | .execAttach _ _, w => (attach, { w with command := .started false })
  | .execStart _ execID, w => (.ok (), { w with kill := .running execID })
  | .execInspect _ execID, w =>
    match (w.pkill p).kill with
    | .exited execID' exitCode => (.ok ⟨!decide (execID = execID'), exitCode⟩, w.pkill p)
    | .idle | .running _ => (.ok ⟨true, 0⟩, w.pkill p)
  | .copy, w => (⟨[], none⟩, w.expire .exec)
  | .poll ctx, w => (w.done ctx, w)
  | .wait ctx, w => (((w.expire ctx).done ctx).getD .canceled, w.expire ctx)
  | .ctxErr ctx, w => (w.done ctx, w)

theorem expire_done (w : ExecWorld) (ctx : ExecContext) : ∃ err, (w.expire ctx).done ctx = some err := by
  unfold ExecWorld.expire
  cases hdone : w.done ctx with
  | none => exact ⟨.deadlineExceeded, by simp⟩
  | some err => exact ⟨err, by simp [hdone]⟩

theorem hangingExec_acts (p : CommandProcess) (attach : Except DaemonError Unit) (c : ExecCall) (w : ExecWorld) :
    ∃ u, ExecWorld.Moves p w u ∧ ExecWorld.act c u (hangingExec p attach c w).1 (hangingExec p attach c w).2 := by
  cases c with
  | base => exact ⟨w, .refl, rfl⟩
  | execCreate ctx containerID config =>
    refine ⟨w, .refl, ?_⟩
    unfold hangingExec
    dsimp only
    split
    · next hfresh => exact .inl ⟨_, hfresh, rfl, fun _ h => (Except.ok.inj h).symm⟩
    · exact .inr ⟨rfl, _, rfl⟩
  | execAttach | execStart => exact ⟨w, .refl, .inl rfl⟩
  | execInspect ctx execID =>
    refine ⟨w.pkill p, moves_pkill p w, ?_⟩
    unfold hangingExec
    dsimp only
    split
    · next execID' exitCode hkill =>
      refine ⟨rfl, fun status hs hrunning => ?_⟩
      obtain rfl := Except.ok.inj hs
      rw [hkill]
      refine ⟨fun h => ?_, fun code hcode => (Kill.exited.inj hcode).2⟩
      cases h
    all_goals
      refine ⟨rfl, fun status hs hrunning => ?_⟩
      obtain rfl := Except.ok.inj hs
      cases hrunning
  | copy =>
    obtain ⟨err, hdone⟩ := expire_done w .exec
    exact ⟨w.expire .exec, moves_expire p w .exec, rfl, fun _ => by rw [hdone]; exact Option.some_ne_none err⟩
  | poll ctx => exact ⟨w, .refl, rfl, fun _ h => h⟩
  | wait ctx =>
    obtain ⟨err, hdone⟩ := expire_done w ctx
    refine ⟨w.expire ctx, moves_expire p w ctx, rfl, ?_⟩
    show (w.expire ctx).done ctx = some (((w.expire ctx).done ctx).getD .canceled)
    rw [hdone]
    rfl
  | ctxErr ctx => exact ⟨w, .refl, rfl, rfl⟩

/-- Nothing started, nothing done. -/
def freshExec : ExecWorld := ⟨fun _ => none, fun _ => none, .waiting, .idle⟩

/-- `sleep 300` under a second's deadline. -/
def sleepRun (p : CommandProcess) (attach : Except DaemonError Unit) : (ExecResult × Option Err) × ExecWorld :=
  (exec exampleID ["sleep", "300"] ⟨none, "", Duration.second⟩).run (hangingExec p attach) freshExec

def sleepLog (p : CommandProcess) (attach : Except DaemonError Unit) : List (Exchange execSignature) :=
  (exec exampleID ["sleep", "300"] ⟨none, "", Duration.second⟩).exchanges (hangingExec p attach) freshExec

theorem sleepRun_completes (p : CommandProcess) (attach : Except DaemonError Unit) :
    (exec exampleID ["sleep", "300"] ⟨none, "", Duration.second⟩).Completes ExecWorld.act (ExecWorld.Moves p) freshExec
      (sleepLog p attach) (sleepRun p attach).1 (sleepRun p attach).2 :=
  Program.completes_drifting (fun _ => .refl) (hangingExec_acts p attach) _ _

/-- A `sleep` that is left alone until it is killed. -/
def sleeping : CommandProcess := ⟨"sleep 300", true, false, true⟩

/-- The theorem at a `sleep` whose deadline passes: `pkill` finds it, and it is gone on return. -/
theorem exec_reaps_iff_sleep : (sleepRun sleeping (.ok ())).1.2 ≠ none ∧ (sleepRun sleeping (.ok ())).2.Started ∧
    (¬(sleepRun sleeping (.ok ())).2.StillRuns sleeping ∨ KillFailed (sleepRun sleeping (.ok ())).1.2) := by
  have hsome : (sleepRun sleeping (.ok ())).1.2.isSome = true := by decide +kernel
  have herr : (sleepRun sleeping (.ok ())).1.2 ≠ none := Option.isSome_iff_ne_none.mp hsome
  have hstarted : (sleepRun sleeping (.ok ())).2.Started := ⟨true, by decide +kernel⟩
  have hattach : (sleepLog sleeping (.ok ())).any attachFailed = false := by decide +kernel
  have hreapable : Reapable sleeping ["sleep", "300"] (sleepLog sleeping (.ok ())) :=
    fun _ => ⟨hattach, fun _ => ⟨by decide +kernel, rfl, rfl⟩⟩
  have hcontract := (exec_reaps_iff rfl rfl (sleepRun_completes sleeping (.ok ()))).mpr fun _ => hreapable
  exact ⟨herr, hstarted, hcontract herr hstarted⟩

def joins : Err → Bool
  | .join _ => true
  | .sentinel _ | .foreign _ | .envelope .. => false

/-- An attach that fails when the daemon has already started the command: the exec returns the failure alone, and the
`sleep` runs on. -/
theorem exec_leaves_process : ∃ attach, (sleepRun sleeping (.error attach)).1.2 ≠ none ∧
    (sleepRun sleeping (.error attach)).2.StillRuns sleeping ∧ ¬KillFailed (sleepRun sleeping (.error attach)).1.2 ∧
    (exec exampleID ["sleep", "300"] ⟨none, "", Duration.second⟩).Completes ExecWorld.act (ExecWorld.Moves sleeping)
      freshExec (sleepLog sleeping (.error attach)) (sleepRun sleeping (.error attach)).1
      (sleepRun sleeping (.error attach)).2 := by
  refine ⟨⟨"connection reset by peer", false⟩, ?_, ⟨false, by decide +kernel, rfl, fun h => nomatch h⟩, ?_,
    sleepRun_completes _ _⟩
  · exact Option.isSome_iff_ne_none.mp (by decide +kernel)
  · have hplain : (sleepRun sleeping (.error ⟨"connection reset by peer", false⟩)).1.2.map joins = some false := by
      decide +kernel
    rintro ⟨cause, message, inner, herr⟩
    rw [herr] at hplain
    cases hplain

end Docker
end Quickspin
