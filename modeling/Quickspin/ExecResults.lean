import Quickspin.Lib.Timed
import Quickspin.Reaping

/-! What an exec answers, whatever the daemon answers and whenever the deadline of the exec and the caller's
cancellation come: the error is absent exactly where the exit code was seen, the output is what arrived, and the
context that is done is the one that is reported. -/
namespace Quickspin
open Interaction
set_option autoImplicit false

namespace Docker

/-! ## The contexts -/

/-- When the caller's context and the one of the exec are done, and with what error; the latter ends by its own
deadline or by the end of the former. -/
structure Contexts where
  caller : Option (ℕ × CtxErr)
  exec : Option (ℕ × CtxErr)
  ownDeadline : Bool
  derived : ∀ t e, exec = some (t, e) →
    if ownDeadline then e = .deadlineExceeded else ∃ u, u ≤ t ∧ caller = some (u, e)

/-- `ctx.Err()` at an instant. -/
def errAt (ended : Option (ℕ × CtxErr)) (t : ℕ) : Option CtxErr :=
  ended.bind fun end' => if end'.1 ≤ t then some end'.2 else none

theorem errAt_eq_some {ended : Option (ℕ × CtxErr)} {t : ℕ} {e : CtxErr} :
    errAt ended t = some e ↔ ∃ u, u ≤ t ∧ ended = some (u, e) := by
  unfold errAt
  cases ended with
  | none => simp
  | some end' =>
    obtain ⟨u, e'⟩ := end'
    by_cases hu : u ≤ t
    · simp [hu]
    · simp [hu]

theorem errAt_later {ended : Option (ℕ × CtxErr)} {t u : ℕ} {e : CtxErr} (htu : t ≤ u) (h : errAt ended t = some e) :
    errAt ended u = some e := by
  obtain ⟨v, hvt, hended⟩ := errAt_eq_some.mp h
  exact errAt_eq_some.mpr ⟨v, Nat.le_trans hvt htu, hended⟩

/-- The answers a call may have at an instant: the contexts answer for themselves, and the daemon as it likes. -/
def Contexts.admits (τ : Contexts) (t : ℕ) : (c : ExecCall) → c.Answer → Prop
  | .ctxErr .caller, a => a = errAt τ.caller t
  | .ctxErr .exec, a => a = errAt τ.exec t
  | .poll .exec, a => ∀ e, a = some e → errAt τ.exec t = some e
  | .wait .exec, a => errAt τ.exec t = some a
  | .copy, a => a.outcome = none → (errAt τ.exec t).isSome = true
  | _, _ => True

def CtxErr.sentinel : CtxErr → Sentinel
  | .canceled => .contextCanceled
  | .deadlineExceeded => .contextDeadlineExceeded

theorem CtxErr.err_eq (e : CtxErr) : e.err = .sentinel e.sentinel := by
  cases e <;> rfl

/-! ## What the exchanges show -/

/-- The exec finds its context done. -/
def seesDone : Exchange execSignature → Bool
  | ⟨.ctxErr .exec, some _⟩ => true
  | ⟨.poll .exec, some _⟩ => true
  | ⟨.wait .exec, _⟩ => true
  | ⟨.copy, a⟩ => a.outcome.isNone
  | _ => false

/-- The output ended without an error. -/
def streamEnded : Exchange execSignature → Bool
  | ⟨.copy, a⟩ =>
    match a.outcome with
    | some (.ok ()) => true
    | _ => false
  | _ => false

/-- The exit code of an inspect that finds the exec stopped. -/
def exitSeen : Exchange execSignature → Option ℤ
  | ⟨.execInspect .exec _, .ok status⟩ => if status.running then none else some status.exitCode
  | _ => none

/-- What was demultiplexed. -/
def framesOf : Exchange execSignature → List (OutputStream × Bytes)
  | ⟨.copy, a⟩ => a.frames
  | _ => []

def delivered (log : List (Timed execSignature)) : List (OutputStream × Bytes) := log.flatMap fun e => framesOf e.2

/-- The instant at which the context of the exec is first found done. -/
def foundDone (log : List (Timed execSignature)) : Option ℕ := (log.find? fun e => seesDone e.2).map (·.1)

/-- Calls that never find the context of the exec done. -/
def Blind : ExecCall → Prop
  | .ctxErr .exec | .poll .exec | .wait .exec | .copy => False
  | _ => True

/-- Calls that see neither the output of the exec nor its exit. -/
def Aside : ExecCall → Prop
  | .copy | .execInspect .exec _ => False
  | _ => True

theorem blind_exchange {e : Exchange execSignature} (h : Blind e.1) : seesDone e = false := by
  obtain ⟨c, a⟩ := e
  cases c with
  | copy => exact h.elim
  | ctxErr ctx | poll ctx | wait ctx =>
    cases ctx with
    | exec => exact h.elim
    | caller | kill => rfl
  | base | execCreate | execAttach | execStart | execInspect => rfl

theorem aside_exchange {e : Exchange execSignature} (h : Aside e.1) :
    framesOf e = [] ∧ streamEnded e = false ∧ exitSeen e = none := by
  obtain ⟨c, a⟩ := e
  cases c with
  | copy => exact h.elim
  | execInspect ctx execID =>
    cases ctx with
    | exec => exact h.elim
    | caller | kill => exact ⟨rfl, rfl, rfl⟩
  | base | execCreate | execAttach | execStart | poll | wait | ctxErr => exact ⟨rfl, rfl, rfl⟩

section Logs
variable {l l' log : List (Timed execSignature)}

theorem foundDone_blind (h : ∀ e ∈ l, Blind e.2.1) (l' : List (Timed execSignature)) :
    foundDone (l ++ l') = foundDone l' := by
  have hnone : (l.find? fun e => seesDone e.2) = none := by
    rw [List.find?_eq_none]
    intro e he
    simp [blind_exchange (h e he)]
  rw [foundDone, List.find?_append, hnone, Option.none_or, foundDone]

theorem foundDone_append_blind (h : ∀ e ∈ l', Blind e.2.1) (l : List (Timed execSignature)) :
    foundDone (l ++ l') = foundDone l := by
  have hnone : (l'.find? fun e => seesDone e.2) = none := by
    rw [List.find?_eq_none]
    intro e he
    simp [blind_exchange (h e he)]
  rw [foundDone, List.find?_append, hnone, Option.or_none, foundDone]

theorem delivered_append (l l' : List (Timed execSignature)) : delivered (l ++ l') = delivered l ++ delivered l' :=
  List.flatMap_append

theorem delivered_aside (h : ∀ e ∈ l, Aside e.2.1) : delivered l = [] := by
  rw [delivered, List.flatMap_eq_nil_iff]
  exact fun e he => (aside_exchange (h e he)).1

end Logs
/-! ## Why an exec ended -/

/-- The deadline of the exec passed, and the caller's context was not done when it was asked. -/
structure TimedOut (τ : Contexts) (log : List (Timed execSignature)) : Prop where
  asked : ∃ t, (t, ⟨.ctxErr .caller, none⟩) ∈ log ∧ errAt τ.caller t = none ∧
    ∃ d, d ≤ t ∧ τ.ownDeadline = true ∧ τ.exec = some (d, .deadlineExceeded)

/-- What the error of a failed exec says of the contexts. -/
structure Reports (τ : Contexts) (log : List (Timed execSignature)) (err : Err) : Prop where
  timeout : err.is .execTimeout = true → TimedOut τ log
  caller : ∀ t e, foundDone log = some t → errAt τ.caller t = some e → err.is e.sentinel = true

section Reports
variable {τ : Contexts} {t u : ℕ} {l log : List (Timed execSignature)} {sandboxID stage : String} {own err cause : Err}

theorem TimedOut.mono (h : TimedOut τ l) (hsub : ∀ e ∈ l, e ∈ log) : TimedOut τ log := by
  obtain ⟨t, hmem, hrest⟩ := h.asked
  exact ⟨t, hsub _ hmem, hrest⟩

/-- A context of the exec that ended before the caller's ended by its own deadline. -/
theorem ownDeadline_of_done {x : CtxErr} (hdone : errAt τ.exec t = some x) (htu : t ≤ u)
    (hcaller : errAt τ.caller u = none) : ∃ d, d ≤ u ∧ τ.ownDeadline = true ∧ τ.exec = some (d, .deadlineExceeded) := by
  obtain ⟨d, hdt, hexec⟩ := errAt_eq_some.mp hdone
  have hderived := τ.derived d x hexec
  cases hown : τ.ownDeadline with
  | true =>
    rw [hown, if_pos rfl] at hderived
    rw [hderived] at hexec
    exact ⟨d, Nat.le_trans hdt htu, rfl, hexec⟩
  | false =>
    rw [hown, if_neg Bool.false_ne_true] at hderived
    obtain ⟨v, hvd, hended⟩ := hderived
    have hsome := errAt_eq_some.mpr ⟨v, Nat.le_trans hvd (Nat.le_trans hdt htu), hended⟩
    rw [hcaller] at hsome
    cases hsome

/-- Once the context of the exec is done, the caller's own error wins, and without one the deadline is named. -/
theorem doneErr_reports (h : (doneErr sandboxID stage).Spans τ.admits t log cause u)
    (hdone : (errAt τ.exec t).isSome = true) : (cause.is .execTimeout = true → TimedOut τ log) ∧
      ∀ e, errAt τ.caller t = some e → cause.is e.sentinel = true := by
  obtain ⟨v, parentErr, rest, htv, hparent, rfl, w, derivedErr, rest', hvw, hderived, rfl, -, rfl, -⟩ := h
  obtain ⟨x, hx⟩ := Option.isSome_iff_exists.mp hdone
  constructor
  · intro htimeout
    cases parentErr with
    | some e => cases e <;> simp [classifyExecDone, CtxErr.err_eq, CtxErr.sentinel] at htimeout
    | none =>
      have hcaller : errAt τ.caller v = none := hparent.symm
      exact ⟨v, List.mem_cons_self .., hcaller, ownDeadline_of_done hx htv hcaller⟩
  · intro e he
    have hparent' : parentErr = some e := (hparent : parentErr = errAt τ.caller v).trans (errAt_later htv he)
    rw [hparent']
    simp [classifyExecDone, CtxErr.err_eq]

/-- A stage that failed for a reason of its own, or because the context is done. -/
theorem stageErr_reports (hown : own.is .execTimeout = false) (h : (stageErr sandboxID stage own).Spans τ.admits t log cause u) :
    Reports τ log cause ∧
      ∀ e, (errAt τ.exec t).isSome = true → errAt τ.caller t = some e → cause.is e.sentinel = true := by
  obtain ⟨v, checked, rest, htv, hchecked, rfl, h⟩ := h
  have hchecked : checked = errAt τ.exec v := hchecked
  cases checked with
  | none =>
    obtain ⟨rfl, rfl, -⟩ := h
    refine ⟨⟨fun htimeout => ?_, fun t' e hfound => ?_⟩, fun e hdone => ?_⟩
    · rw [hown] at htimeout
      cases htimeout
    · simp [foundDone, seesDone] at hfound
    · obtain ⟨x, hx⟩ := Option.isSome_iff_exists.mp hdone
      rw [errAt_later htv hx] at hchecked
      cases hchecked
  | some x =>
    have hdone : (errAt τ.exec v).isSome = true := by
      rw [← hchecked]
      rfl
    obtain ⟨htimeout, hcaller⟩ := doneErr_reports h hdone
    refine ⟨⟨fun hcause => (htimeout hcause).mono fun e he => List.mem_cons_of_mem _ he, fun t' e hfound he => ?_⟩,
      fun e _ he => hcaller e (errAt_later htv he)⟩
    have hat : t' = v := by simpa [foundDone, seesDone, eq_comm] using hfound
    exact hcaller e (hat ▸ he)

/-- The reasons stand whatever blind calls came before. -/
theorem Reports.after (h : Reports τ log err) (hl : ∀ e ∈ l, Blind e.2.1) : Reports τ (l ++ log) err := by
  refine ⟨fun htimeout => (h.timeout htimeout).mono fun e he => List.mem_append_right l he, fun t e hfound he => ?_⟩
  rw [foundDone_blind hl] at hfound
  exact h.caller t e hfound he

end Reports

/-! ## Errors that are not the deadline's -/

theorem awaitExecExit_untimed (ctx : ExecContext) (execID : String) (ticks : ℕ) (h : List (Exchange execSignature)) :
    (awaitExecExit ctx execID ticks).Tells (fun _ _ => True)
      (fun _ r => ∀ err, r = .error err → err.is .execTimeout = false) h := by
  have hinspect : ∀ (running : Program execSignature (Except Err ℤ)) (h : List (Exchange execSignature)),
      (∀ h', running.Tells (fun _ _ => True) (fun _ r => ∀ err, r = .error err → err.is .execTimeout = false) h') →
      (inspectExec ctx execID running).Tells (fun _ _ => True)
        (fun _ r => ∀ err, r = .error err → err.is .execTimeout = false) h := by
    intro running h hrunning
    refine ⟨trivial, fun a => ?_⟩
    cases a with
    | error e =>
      rintro err ⟨⟩
      simp [DaemonError.err]
    | ok status =>
      obtain ⟨isRunning, exitCode⟩ := status
      cases isRunning with
      | true => exact hrunning _
      | false => exact fun err he => nomatch he
  induction ticks generalizing h with
  | zero =>
    refine hinspect _ h fun h' => ⟨trivial, fun e => ?_⟩
    rintro err ⟨⟩
    cases e <;> simp [CtxErr.err]
  | succ ticks ih =>
    refine hinspect _ h fun h' => ⟨trivial, fun a => ?_⟩
    cases a with
    | none => exact ih _
    | some e =>
      rintro err ⟨⟩
      cases e <;> simp [CtxErr.err]

theorem killExec_untimed (containerID sandboxID : String) (cmd : List String) (opts : ExecOpts) :
    (killExec containerID sandboxID cmd opts).Tells (fun _ _ => True)
      (fun _ r => ∀ err, r = some err → err.is .execTimeout = false) [] := by
  refine ⟨trivial, fun a => ?_⟩
  cases a with
  | error e =>
    rintro err ⟨⟩
    simp [DaemonError.err]
  | ok execID =>
    refine ⟨trivial, fun a => ?_⟩
    cases a with
    | error e =>
      rintro err ⟨⟩
      simp [DaemonError.err]
    | ok _ =>
      change (awaitExecExit .kill execID (ticksWithin execKillTimeout) >>= _).Tells _ _ _
      refine Program.Tells.bind ((awaitExecExit_untimed .kill execID _ _).mono fun h r hr => ?_)
      cases r with
      | error e =>
        rintro err ⟨⟩
        rw [is_E]
        exact hr e rfl
      | ok exitCode =>
        dsimp only
        cases classifyPkillExit exitCode with
        | some msg =>
          rintro err ⟨⟩
          simp
        | none => exact fun err he => nomatch he

theorem resolve_untimed (sandboxID : String) :
    ((getContainerBysandboxID sandboxID).translate fun c => issue (.base c)).Tells (fun _ _ => True)
      (fun _ r => ∀ err, r = .error err → err.is .execTimeout = false) [] := by
  unfold getContainerBysandboxID
  cases hv : validateSandboxID sandboxID with
  | error e =>
    rintro err ⟨⟩
    rw [validateSandboxID_error hv]
    simp
  | ok _ =>
    refine ⟨trivial, fun a => ?_⟩
    cases a with
    | error e =>
      rintro err ⟨⟩
      simp [DaemonError.err]
    | ok items =>
      dsimp only [Program.bind]
      cases items.find? fun c => managedSandboxID c.labels = some sandboxID with
      | some c => exact fun err he => nomatch he
      | none =>
        rintro err ⟨⟩
        simp

/-! ## Waiting for the exit code -/

/-- How waiting for an exec ends. -/
inductive AwaitEnds (τ : Contexts) (execID : String) (log : List (Timed execSignature)) : Except Err ℤ → Prop
  | exited (code : ℤ) (v : ℕ) (hseen : (v, ⟨.execInspect .exec execID, .ok ⟨false, code⟩⟩) ∈ log)
    (honly : ∀ e ∈ log, ∀ code', exitSeen e.2 = some code' → code' = code) (hfound : foundDone log = none) :
    AwaitEnds τ execID log (.ok code)
  | failed (err : Err) (hnone : ∀ e ∈ log, exitSeen e.2 = none)
    (hfound : ∀ v, foundDone log = some v → (errAt τ.exec v).isSome = true) : AwaitEnds τ execID log (.error err)

section Await
variable {τ : Contexts} {t u v : ℕ} {log : List (Timed execSignature)} {execID : String} {r : Except Err ℤ}

theorem foundDone_cons_of_not {e : Timed execSignature} (h : seesDone e.2 = false) (log : List (Timed execSignature)) :
    foundDone (e :: log) = foundDone log := by
  simp [foundDone, h]

theorem AwaitEnds.cons {e : Timed execSignature} (h : AwaitEnds τ execID log r) (hexit : exitSeen e.2 = none)
    (hblind : seesDone e.2 = false) : AwaitEnds τ execID (e :: log) r := by
  cases h with
  | exited code v hseen honly hfound =>
    refine .exited code v (List.mem_cons_of_mem e hseen) (fun e' he' code' hcode' => ?_) ?_
    · cases List.mem_cons.mp he' with
      | inl heq =>
        rw [heq, hexit] at hcode'
        cases hcode'
      | inr he' => exact honly e' he' code' hcode'
    · rw [foundDone_cons_of_not hblind, hfound]
  | failed err hnone hfound =>
    refine .failed err (fun e' he' => ?_) (fun v hv => hfound v ?_)
    · cases List.mem_cons.mp he' with
      | inl heq => exact heq ▸ hexit
      | inr he' => exact hnone e' he'
    · rwa [foundDone_cons_of_not hblind] at hv

theorem awaitEnds_inspectExec {running : Program execSignature (Except Err ℤ)}
    (hrunning : ∀ v log, running.Spans τ.admits v log r u → AwaitEnds τ execID log r)
    (h : (inspectExec .exec execID running).Spans τ.admits t log r u) : AwaitEnds τ execID log r := by
  obtain ⟨v, a, rest, -, -, rfl, h⟩ := h
  cases a with
  | error e =>
    obtain ⟨rfl, rfl, -⟩ := h
    refine .failed _ (by simp [exitSeen]) ?_
    intro v hv
    simp [foundDone, seesDone] at hv
  | ok status =>
    obtain ⟨isRunning, exitCode⟩ := status
    cases isRunning with
    | true => exact (hrunning v rest h).cons rfl rfl
    | false =>
      obtain ⟨rfl, rfl, -⟩ := h
      refine .exited exitCode v (List.mem_singleton.mpr rfl) ?_ (by simp [foundDone, seesDone])
      intro e he code hcode
      rw [List.mem_singleton.mp he] at hcode
      simpa [exitSeen, eq_comm] using hcode

theorem awaitEnds_awaitExecExit {ticks : ℕ} (h : (awaitExecExit .exec execID ticks).Spans τ.admits t log r u) :
    AwaitEnds τ execID log r := by
  induction ticks generalizing t log with
  | zero =>
    refine awaitEnds_inspectExec (fun v log h => ?_) h
    obtain ⟨w, e, rest, -, hwait, rfl, rfl, rfl, -⟩ := h
    have hdone : errAt τ.exec w = some e := hwait
    refine .failed _ (by simp [exitSeen]) (fun x hx => ?_)
    have hxw : x = w := by simpa [foundDone, seesDone, eq_comm] using hx
    rw [hxw, hdone]
    rfl
  | succ ticks ih =>
    refine awaitEnds_inspectExec (fun v log h => ?_) h
    obtain ⟨w, a, rest, -, hpoll, rfl, h⟩ := h
    cases a with
    | none => exact (ih h).cons rfl rfl
    | some e =>
      obtain ⟨rfl, rfl, -⟩ := h
      have hdone : errAt τ.exec w = some e := hpoll e rfl
      refine .failed _ (by simp [exitSeen]) (fun x hx => ?_)
      have hxw : x = w := by simpa [foundDone, seesDone, eq_comm] using hx
      rw [hxw, hdone]
      rfl

theorem awaitExecExit_mute {ticks : ℕ} (h : (awaitExecExit .exec execID ticks).Spans τ.admits t log r u) :
    delivered log = [] ∧ ∀ e ∈ log, streamEnded e.2 = false := by
  have hnocopy : (awaitExecExit .exec execID ticks).Calls fun c : ExecCall => c ≠ .copy :=
    awaitExecExit_calls (fun h => nomatch h) (fun h => nomatch h) (fun h => nomatch h) ticks
  have hcalls := h.calls hnocopy
  have heach : ∀ e : Exchange execSignature, e.1 ≠ .copy → framesOf e = [] ∧ streamEnded e = false := by
    intro e he
    obtain ⟨c, a⟩ := e
    cases c with
    | copy => exact absurd rfl he
    | base | execCreate | execAttach | execStart | execInspect | poll | wait | ctxErr => exact ⟨rfl, rfl⟩
  constructor
  · rw [delivered, List.flatMap_eq_nil_iff]
    exact fun e he => (heach e.2 (hcalls e he)).1
  · exact fun e he => (heach e.2 (hcalls e he)).2

end Await

/-! ## The ends of an exec -/

def Sidelong (c : ExecCall) : Prop := Blind c ∧ Aside c

/-- An exec that failed returns what arrived, and −1 for the exit code. -/
structure FailsAs (τ : Contexts) (log : List (Timed execSignature)) (r : ExecResult × Option Err) : Prop where
  captured : r.1 = ExecResult.of (demux maxStreamBytes (delivered log)) (-1)
  reports : ∃ err, r.2 = some err ∧ Reports τ log err
  unfinished : (∀ e ∈ log, streamEnded e.2 = false) ∨ ∀ e ∈ log, exitSeen e.2 = none

/-- An exec that was followed to its end: its output ended, and a later inspect found it stopped. -/
structure FollowedAs (execID : String) (log : List (Timed execSignature)) (r : ExecResult × Option Err) : Prop where
  ended : ∃ t frames later code v, log = (t, ⟨.copy, ⟨frames, some (.ok ())⟩⟩) :: later ∧
    (v, ⟨.execInspect .exec execID, .ok ⟨false, code⟩⟩) ∈ later ∧
    (∀ e ∈ log, ∀ code', exitSeen e.2 = some code' → code' = code) ∧
    r = (ExecResult.of (demux maxStreamBytes (delivered log)) code, none)
  unseen : foundDone log = none

section Ends
variable {τ : Contexts} {t u : ℕ} {l log : List (Timed execSignature)} {containerID sandboxID stage execID : String}
  {cmd : List String} {opts : ExecOpts} {timeout : Duration} {r : ExecResult × Option Err} {cause : Err}
  {captured : ExecResult}

theorem FailsAs.after (h : FailsAs τ log r) (hl : ∀ e ∈ l, Sidelong e.2.1) : FailsAs τ (l ++ log) r := by
  obtain ⟨err, herr, hreports⟩ := h.reports
  have haside := fun e he => aside_exchange (hl e he).2
  refine ⟨?_, ⟨err, herr, hreports.after fun e he => (hl e he).1⟩, ?_⟩
  · rw [delivered_append, delivered_aside fun e he => (hl e he).2, List.nil_append]
    exact h.captured
  · refine h.unfinished.imp (fun hnone e he => ?_) (fun hnone e he => ?_)
    · cases List.mem_append.mp he with
      | inl he => exact (haside e he).2.1
      | inr he => exact hnone e he
    · cases List.mem_append.mp he with
      | inl he => exact (haside e he).2.2
      | inr he => exact hnone e he

theorem killExec_sidelong : (killExec containerID sandboxID cmd opts).Calls Sidelong :=
  killExec_calls (fun _ => ⟨trivial, trivial⟩) (fun _ => ⟨trivial, trivial⟩) (fun _ => ⟨trivial, trivial⟩)
    ⟨trivial, trivial⟩ ⟨trivial, trivial⟩

/-- Giving a command up adds the failure of the kill to the cause, and nothing to the output. -/
theorem abandon_spans (h : (abandon containerID sandboxID cmd opts captured cause).Spans τ.admits t log r u) :
    (∀ e ∈ log, Sidelong e.2.1) ∧ r.1 = captured ∧
      ∃ err, r.2 = some err ∧ (∀ s, cause.is s = true → err.is s = true) ∧
        (err.is .execTimeout = true → cause.is .execTimeout = true) := by
  obtain ⟨l, l', killErr, v, rfl, hkill, h⟩ := h.of_bind
  have hquiet := hkill.calls killExec_sidelong
  have hkillErr := hkill.result (killExec_untimed containerID sandboxID cmd opts)
  cases killErr with
  | none =>
    obtain ⟨rfl, rfl, -⟩ := h
    rw [List.append_nil]
    exact ⟨hquiet, rfl, cause, rfl, fun _ h => h, fun h => h⟩
  | some killErr =>
    obtain ⟨rfl, rfl, -⟩ := h
    rw [List.append_nil]
    refine ⟨hquiet, rfl, joinErr cause killErr, rfl, fun s hs => ?_, fun hs => ?_⟩
    · simp [hs]
    · simpa [hkillErr killErr rfl] using hs

/-- A command given up on after the exchanges `l`, for a cause that stands after them. -/
theorem failsAs_abandon (h : (abandon containerID sandboxID cmd opts captured cause).Spans τ.admits t log r u)
    (hcaptured : captured = ExecResult.of (demux maxStreamBytes (delivered l)) (-1)) (hreports : Reports τ l cause)
    (hunfinished : (∀ e ∈ l, streamEnded e.2 = false) ∨ ∀ e ∈ l, exitSeen e.2 = none) : FailsAs τ (l ++ log) r := by
  obtain ⟨hquiet, hr, err, herr, hkept, htimeout⟩ := abandon_spans h
  have haside := fun e he => aside_exchange (hquiet e he).2
  refine ⟨?_, ⟨err, herr, fun hcause => ?_, fun t e hfound he => hkept _ (hreports.caller t e ?_ he)⟩, ?_⟩
  · rw [delivered_append, delivered_aside fun e he => (hquiet e he).2, List.append_nil, hr, hcaptured]
  · exact (hreports.timeout (htimeout hcause)).mono fun e he => List.mem_append_left log he
  · rwa [foundDone_append_blind fun e he => (hquiet e he).1] at hfound
  · refine hunfinished.imp (fun hnone e he => ?_) (fun hnone e he => ?_)
    · cases List.mem_append.mp he with
      | inl he => exact hnone e he
      | inr he => exact (haside e he).2.1
    · cases List.mem_append.mp he with
      | inl he => exact hnone e he
      | inr he => exact (haside e he).2.2

theorem doneErr_aside : (doneErr sandboxID stage).Calls Aside := ⟨trivial, fun _ => ⟨trivial, fun _ => trivial⟩⟩

theorem stageErr_aside (own : Err) : (stageErr sandboxID stage own).Calls Aside := by
  refine ⟨trivial, fun a => ?_⟩
  cases a with
  | none => trivial
  | some e => exact doneErr_aside

/-- A stage that failed before the exec was attached to. -/
theorem failsAs_stage {own : Err} (hown : own.is .execTimeout = false)
    (h : ((stageErr sandboxID stage own) >>= fun cause => (return (ExecResult.of (demux maxStreamBytes []) (-1), some cause) :
      Program execSignature (ExecResult × Option Err))).Spans τ.admits t log r u) : FailsAs τ log r := by
  obtain ⟨l, l', cause, v, rfl, hstage, rfl, rfl, -⟩ := h.of_bind
  have haside := hstage.calls (stageErr_aside own)
  rw [List.append_nil]
  refine ⟨?_, ⟨cause, rfl, (stageErr_reports hown hstage).1⟩, .inl fun e he => (aside_exchange (haside e he)).2.1⟩
  rw [delivered_aside haside]

theorem reports_interrupted {v : ℕ} {a : Copied} (hcopy : τ.admits v .copy a) (hnone : a.outcome = none)
    (h : (doneErr sandboxID stage).Spans τ.admits v l cause u) : Reports τ ((v, ⟨.copy, a⟩) :: l) cause := by
  obtain ⟨htimeout, hcaller⟩ := doneErr_reports h (hcopy hnone)
  refine ⟨fun hcause => (htimeout hcause).mono fun e he => List.mem_cons_of_mem _ he, fun t' e hfound he => ?_⟩
  have hat : t' = v := by simpa [foundDone, seesDone, hnone, eq_comm] using hfound
  exact hcaller e (hat ▸ he)

/-- The exit code was not seen, and the stage says why. -/
theorem reports_awaiting {v w : ℕ} {la ls : List (Timed execSignature)} {err own : Err}
    (hawait : AwaitEnds τ execID la (.error err)) (hinstants : ∀ e ∈ la, e.1 ≤ w) (hown : own.is .execTimeout = false)
    (h : (stageErr sandboxID stage own).Spans τ.admits w ls cause v) : Reports τ (la ++ ls) cause := by
  obtain ⟨hreports, hcaller⟩ := stageErr_reports hown h
  refine ⟨fun hcause => (hreports.timeout hcause).mono fun e he => List.mem_append_right la he, fun t' e hfound he => ?_⟩
  cases hawait with
  | failed err hnone hdone =>
    cases hla : la.find? fun e => seesDone e.2 with
    | none =>
      rw [foundDone, List.find?_append, hla, Option.none_or] at hfound
      exact hreports.caller t' e hfound he
    | some first =>
      have hfirst : foundDone la = some first.1 := by rw [foundDone, hla, Option.map_some]
      have hat : t' = first.1 := by
        rw [foundDone, List.find?_append, hla, Option.some_or, Option.map_some] at hfound
        exact (Option.some.inj hfound).symm
      have hle : first.1 ≤ w := hinstants first (List.mem_of_find?_eq_some hla)
      obtain ⟨x, hx⟩ := Option.isSome_iff_exists.mp (hdone first.1 hfirst)
      have hexec : (errAt τ.exec w).isSome = true := by
        rw [errAt_later hle hx]
        rfl
      exact hcaller e hexec (errAt_later hle (hat ▸ he))

/-- The output ended, and the exit code was not seen. -/
theorem failsAs_unexited {v w x y : ℕ} {frames : List (OutputStream × Bytes)} {la ls lk : List (Timed execSignature)} {err : Err}
    (hawait : (awaitExecExit .exec execID (ticksWithin timeout)).Spans τ.admits v la (.error err) w)
    (hstage : (stageErr sandboxID "while awaiting the exit code" (E "docker.Runtime.Exec"
      s!"inspecting exec status in container {containerID} for sandbox {sandboxID}" err)).Spans τ.admits w ls cause x)
    (h : (abandon containerID sandboxID cmd opts (ExecResult.of (demux maxStreamBytes frames) (-1)) cause).Spans τ.admits x lk r y) :
    FailsAs τ ((v, ⟨.copy, ⟨frames, some (.ok ())⟩⟩) :: (la ++ (ls ++ lk))) r := by
  obtain ⟨hmute, -⟩ := awaitExecExit_mute hawait
  have hends := awaitEnds_awaitExecExit hawait
  have haside := hstage.calls (stageErr_aside _)
  have hown : (E "docker.Runtime.Exec" s!"inspecting exec status in container {containerID} for sandbox {sandboxID}"
      err).is .execTimeout = false := by
    rw [is_E]
    exact hawait.result (awaitExecExit_untimed .exec execID _ []) err rfl
  have hreports := reports_awaiting hends (fun e he => (hawait.instants e he).2) hown hstage
  have hblind : seesDone (⟨.copy, ⟨frames, some (.ok ())⟩⟩ : Exchange execSignature) = false := rfl
  have hfails : FailsAs τ (((v, ⟨.copy, ⟨frames, some (.ok ())⟩⟩) :: (la ++ ls)) ++ lk) r := by
    refine failsAs_abandon h ?_ ⟨?_, ?_⟩ (.inr ?_)
    · rw [delivered, List.flatMap_cons, ← delivered, delivered_append, hmute, delivered_aside haside, List.append_nil,
        List.append_nil]
      rfl
    · exact fun hcause => (hreports.timeout hcause).mono fun e he => List.mem_cons_of_mem _ he
    · intro t' e hfound he
      rw [foundDone_cons_of_not hblind] at hfound
      exact hreports.caller t' e hfound he
    · intro e he
      cases List.mem_cons.mp he with
      | inl he =>
        rw [he]
        rfl
      | inr he =>
        cases List.mem_append.mp he with
        | inl he =>
          cases hends with
          | failed _ hnone _ => exact hnone e he
        | inr he => exact (aside_exchange (haside e he)).2.2
  simpa using hfails

/-- The output ended, and the exit code was seen. -/
theorem followedAs_exited {v w : ℕ} {frames : List (OutputStream × Bytes)} {la : List (Timed execSignature)} {code : ℤ}
    (hawait : (awaitExecExit .exec execID (ticksWithin timeout)).Spans τ.admits v la (.ok code) w) :
    FollowedAs execID ((v, ⟨.copy, ⟨frames, some (.ok ())⟩⟩) :: la) (ExecResult.of (demux maxStreamBytes frames) code, none) := by
  obtain ⟨hmute, -⟩ := awaitExecExit_mute hawait
  have hframes : framesOf ⟨.copy, ⟨frames, some (.ok ())⟩⟩ = frames := rfl
  cases awaitEnds_awaitExecExit hawait with
  | exited _ x hseen honly hfound =>
    refine ⟨⟨v, frames, la, code, x, rfl, hseen, fun e he code' hcode' => ?_, ?_⟩, ?_⟩
    · cases List.mem_cons.mp he with
      | inl he =>
        rw [he] at hcode'
        cases hcode'
      | inr he => exact honly e he code' hcode'
    · rw [delivered, List.flatMap_cons, ← delivered, hmute, hframes, List.append_nil]
    · have hblind : seesDone (⟨.copy, ⟨frames, some (.ok ())⟩⟩ : Exchange execSignature) = false := rfl
      rw [foundDone_cons_of_not hblind, hfound]

theorem follow_spans (h : (follow containerID sandboxID cmd opts timeout execID).Spans τ.admits t log r u) :
    FailsAs τ log r ∨ FollowedAs execID log r := by
  obtain ⟨v, a, rest, -, hcopy, rfl, h⟩ := h
  obtain ⟨frames, outcome⟩ := a
  dsimp only [Program.bind] at h
  have hframes : framesOf ⟨.copy, ⟨frames, outcome⟩⟩ = frames := rfl
  cases outcome with
  | none =>
    obtain ⟨l, l', cause, w, rfl, hdone, h⟩ := h.of_bind
    have haside := hdone.calls doneErr_aside
    refine .inl (failsAs_abandon (l := (v, ⟨.copy, _⟩) :: l) h ?_ (reports_interrupted hcopy rfl hdone) (.inl ?_))
    · rw [delivered, List.flatMap_cons, ← delivered, delivered_aside haside, hframes, List.append_nil]
    · intro e he
      cases List.mem_cons.mp he with
      | inl he =>
        rw [he]
        rfl
      | inr he => exact (aside_exchange (haside e he)).2.1
  | some ended =>
    cases ended with
    | error text =>
      refine .inl (failsAs_abandon (l := [(v, ⟨.copy, _⟩)]) h ?_ ⟨fun htimeout => ?_, fun t' e hfound => ?_⟩ (.inl ?_))
      · simp [delivered, hframes]
      · simp at htimeout
      · simp [foundDone, seesDone] at hfound
      · simp [streamEnded]
    | ok _ =>
      obtain ⟨la, l', exit, w, rfl, hawait, h⟩ := h.of_bind
      cases exit with
      | error err =>
        obtain ⟨ls, lk, cause, x, rfl, hstage, h⟩ := h.of_bind
        exact .inl (failsAs_unexited hawait hstage h)
      | ok code =>
        obtain ⟨rfl, rfl, -⟩ := h
        rw [List.append_nil]
        exact .inr (followedAs_exited hawait)

def execConfig (cmd : List String) (opts : ExecOpts) : ExecConfig := ⟨true, true, cmd, envToArgs opts.env, opts.workDir⟩

theorem execIn_spans (h : (execIn containerID sandboxID cmd opts timeout).Spans τ.admits t log r u) :
    FailsAs τ log r ∨ ∃ execID v w later, log = (v, ⟨.execCreate .exec containerID (execConfig cmd opts), .ok execID⟩) ::
      (w, ⟨.execAttach .exec execID, .ok ()⟩) :: later ∧ FollowedAs execID later r := by
  obtain ⟨v, a, rest, -, -, rfl, h⟩ := h
  have hcreate : ∀ (e : Timed execSignature), e ∈ [(v, (⟨.execCreate .exec containerID (execConfig cmd opts), a⟩ :
      Exchange execSignature))] → Sidelong e.2.1 := by
    intro e he
    rw [List.mem_singleton.mp he]
    exact ⟨trivial, trivial⟩
  cases a with
  | error e => exact .inl ((failsAs_stage (by simp [DaemonError.err]) h).after hcreate)
  | ok execID =>
    obtain ⟨w, a, rest, -, -, rfl, h⟩ := h
    have hattach : ∀ (e : Timed execSignature), e ∈ [(w, (⟨.execAttach .exec execID, a⟩ : Exchange execSignature))] →
        Sidelong e.2.1 := by
      intro e he
      rw [List.mem_singleton.mp he]
      exact ⟨trivial, trivial⟩
    cases a with
    | error e => exact .inl (((failsAs_stage (by simp [DaemonError.err]) h).after hattach).after hcreate)
    | ok _ =>
      cases follow_spans h with
      | inl hfails => exact .inl ((hfails.after hattach).after hcreate)
      | inr hfollowed => exact .inr ⟨execID, v, w, rest, rfl, hfollowed⟩

/-- Finding the container of the sandbox. -/
def resolve (sandboxID : String) : Program execSignature (Except Err Summary) :=
  (getContainerBysandboxID sandboxID).translate fun c => issue (.base c)

theorem resolve_sidelong (sandboxID : String) : (resolve sandboxID).Calls Sidelong :=
  Program.Calls.translate (Program.nodes_true _) fun _ _ => ⟨⟨trivial, trivial⟩, fun _ => trivial⟩

/-- The container was resolved, the exec created in it and attached to, its output ended without an error before a
context was found done, and a later inspect reported that the exec does not run. -/
structure Succeeded (τ : Contexts) (sandboxID : String) (cmd : List String) (opts : ExecOpts)
    (log : List (Timed execSignature)) (code : ℤ) : Prop where
  stages : ∃ t u v w x y lookup c execID frames later, (resolve sandboxID).Spans τ.admits t lookup (.ok c) u ∧
    log = lookup ++ (v, ⟨.execCreate .exec c.id (execConfig cmd opts), .ok execID⟩) ::
      (w, ⟨.execAttach .exec execID, .ok ()⟩) :: (x, ⟨.copy, ⟨frames, some (.ok ())⟩⟩) :: later ∧
    (∀ e ∈ lookup, seesDone e.2 = false) ∧ (y, ⟨.execInspect .exec execID, .ok ⟨false, code⟩⟩) ∈ later

/-- Every exchange that shows an exit code shows this one. -/
def OnlyExit (log : List (Timed execSignature)) (code : ℤ) : Prop :=
  ∀ e ∈ log, ∀ code', exitSeen e.2 = some code' → code' = code

theorem Succeeded.seen {code : ℤ} (h : Succeeded τ sandboxID cmd opts log code) :
    (∃ e ∈ log, streamEnded e.2 = true) ∧ ∃ e ∈ log, exitSeen e.2 = some code := by
  obtain ⟨t, u, v, w, x, y, lookup, c, execID, frames, later, -, rfl, -, hlater⟩ := h.stages
  constructor
  · exact ⟨(x, ⟨.copy, ⟨frames, some (.ok ())⟩⟩), by simp, rfl⟩
  · refine ⟨(y, ⟨.execInspect .exec execID, .ok ⟨false, code⟩⟩), ?_, rfl⟩
    simp [hlater]

/-- **Every end of an exec**: it failed, or it succeeded with the one exit code that was seen. -/
theorem exec_spans (h : (exec sandboxID cmd opts).Spans τ.admits t log r u) : FailsAs τ log r ∨
    ∃ code, Succeeded τ sandboxID cmd opts log code ∧ OnlyExit log code ∧ foundDone log = none ∧
      r = (ExecResult.of (demux maxStreamBytes (delivered log)) code, none) := by
  obtain ⟨lookup, rest, found, v, rfl, hresolve, h⟩ := h.of_bind
  have hlookup := hresolve.calls (resolve_sidelong sandboxID)
  cases found with
  | error e =>
    have hown : (wrap "docker.Runtime.Exec" "" e).is .execTimeout = false := by
      rw [is_wrap]
      exact hresolve.result (resolve_untimed sandboxID) e rfl
    exact .inl ((failsAs_stage hown h).after hlookup)
  | ok c =>
    cases execIn_spans h with
    | inl hfails => exact .inl (hfails.after hlookup)
    | inr hends =>
      obtain ⟨execID, v', w', later, rfl, hfollowed⟩ := hends
      obtain ⟨x, frames, later', code, y, rfl, hseen, honly, hr⟩ := hfollowed.ended
      have hbefore : ∀ e ∈ lookup ++ [(v', ⟨.execCreate .exec c.id (execConfig cmd opts), .ok execID⟩),
          (w', ⟨.execAttach .exec execID, .ok ()⟩)], Sidelong e.2.1 := by
        intro e he
        simp only [List.mem_append, List.mem_cons, List.not_mem_nil, or_false] at he
        rcases he with he | rfl | rfl
        · exact hlookup e he
        · exact ⟨trivial, trivial⟩
        · exact ⟨trivial, trivial⟩
      have hsplit : lookup ++ (v', ⟨.execCreate .exec c.id (execConfig cmd opts), .ok execID⟩) ::
          (w', ⟨.execAttach .exec execID, .ok ()⟩) :: (x, ⟨.copy, ⟨frames, some (.ok ())⟩⟩) :: later' =
          (lookup ++ [(v', ⟨.execCreate .exec c.id (execConfig cmd opts), .ok execID⟩),
            (w', ⟨.execAttach .exec execID, .ok ()⟩)]) ++ (x, ⟨.copy, ⟨frames, some (.ok ())⟩⟩) :: later' := by simp
      refine .inr ⟨code, ⟨t, v, v', w', x, y, lookup, c, execID, frames, later', hresolve, rfl,
        fun e he => blind_exchange (hlookup e he).1, hseen⟩, ?_, ?_, ?_⟩
      · rw [hsplit]
        intro e he code' hcode'
        cases List.mem_append.mp he with
        | inl he =>
          rw [(aside_exchange (hbefore e he).2).2.2] at hcode'
          cases hcode'
        | inr he => exact honly e he code' hcode'
      · rw [hsplit, foundDone_blind fun e he => (hbefore e he).1]
        exact hfollowed.unseen
      · rw [hsplit, delivered_append, delivered_aside fun e he => (hbefore e he).2, List.nil_append]
        exact hr

end Ends

/-! ## What an exec answers -/

/-- Each stream is the first bytes of what arrived for it, and is marked truncated exactly where more arrived. -/
structure Captures (frames : List (OutputStream × Bytes)) (r : ExecResult) : Prop where
  stdout : r.stdout = (streamBytes .stdout frames).take maxStreamBytes
  stderr : r.stderr = (streamBytes .stderr frames).take maxStreamBytes
  stdoutTruncated : r.stdoutTruncated = true ↔ maxStreamBytes < (streamBytes .stdout frames).length
  stderrTruncated : r.stderrTruncated = true ↔ maxStreamBytes < (streamBytes .stderr frames).length

theorem captures_demux (frames : List (OutputStream × Bytes)) (code : ℤ) :
    Captures frames (ExecResult.of (demux maxStreamBytes frames) code) := by
  obtain ⟨hout, herr⟩ := holds_demux maxStreamBytes frames
  obtain ⟨hlimitOut, hlimitErr⟩ := demux_limit maxStreamBytes frames
  have houtBuf := hout.buf
  have herrBuf := herr.buf
  have houtFlag := hout.truncated
  have herrFlag := herr.truncated
  rw [hlimitOut] at houtBuf houtFlag
  rw [hlimitErr] at herrBuf herrFlag
  exact ⟨houtBuf, herrBuf, houtFlag, herrFlag⟩

/-- **Exec results**: whatever the daemon answers and whenever the contexts are done, the error is absent exactly
where the exec was followed to the exit code it answers; the output is what arrived, as far as it fits; the deadline
is named only where it passed and the caller's context was not done; and where the context of the exec was found done
with the caller's, the error is the caller's. -/
theorem exec_results {τ : Contexts} {t u : ℕ} {log : List (Timed execSignature)} {sandboxID : String} {cmd : List String}
    {opts : ExecOpts} {r : ExecResult × Option Err} (h : (exec sandboxID cmd opts).Spans τ.admits t log r u) :
    (r.2 = none ↔ ∃ code, Succeeded τ sandboxID cmd opts log code) ∧
    (∀ code, Succeeded τ sandboxID cmd opts log code → r.1.exitCode = code) ∧
    (r.2 ≠ none → r.1.exitCode = -1) ∧
    Captures (delivered log) r.1 ∧
    (∀ err, r.2 = some err → err.is .execTimeout = true → TimedOut τ log) ∧
    (∀ v e, foundDone log = some v → errAt τ.caller v = some e → ∃ err, r.2 = some err ∧ err.is e.sentinel = true) := by
  cases exec_spans h with
  | inl hfails =>
    obtain ⟨err, herr, hreports⟩ := hfails.reports
    have hnot : ∀ code, ¬ Succeeded τ sandboxID cmd opts log code := by
      intro code hsucceeded
      obtain ⟨⟨e, he, hended⟩, e', he', hexit⟩ := hsucceeded.seen
      cases hfails.unfinished with
      | inl hnone =>
        rw [hnone e he] at hended
        cases hended
      | inr hnone =>
        rw [hnone e' he'] at hexit
        cases hexit
    refine ⟨⟨fun hnone => ?_, fun ⟨code, hsucceeded⟩ => (hnot code hsucceeded).elim⟩,
      fun code hsucceeded => (hnot code hsucceeded).elim, fun _ => ?_, ?_, fun err' herr' => ?_, fun v e hfound he => ?_⟩
    · rw [herr] at hnone
      cases hnone
    · rw [hfails.captured]
      rfl
    · rw [hfails.captured]
      exact captures_demux _ _
    · rw [herr] at herr'
      exact Option.some.inj herr' ▸ hreports.timeout
    · exact ⟨err, herr, hreports.caller v e hfound he⟩
  | inr hends =>
    obtain ⟨code, hsucceeded, honly, hunseen, rfl⟩ := hends
    refine ⟨⟨fun _ => ⟨code, hsucceeded⟩, fun _ => rfl⟩, fun code' hsucceeded' => ?_, fun hne => (hne rfl).elim,
      captures_demux _ _, fun err herr => ?_, fun v e hfound => ?_⟩
    · obtain ⟨-, e, he, hexit⟩ := hsucceeded'.seen
      exact (honly e he code' hexit).symm
    · cases herr
    · rw [hunseen] at hfound
      cases hfound

/-- The deadline of the exec has passed from the start. -/
def expiredContexts : Contexts where
  caller := none
  exec := some (0, .deadlineExceeded)
  ownDeadline := true
  derived := by simp

/-- The daemon answers, and the command writes two bytes until it is interrupted. -/
def expiredAnswer : (c : ExecCall) → ℕ → c.Answer
  | .base c, _ => (dockerExec c runningDaemon).1
  | .execCreate .., _ => .ok "exec"
  | .execAttach .., _ => .ok ()
  | .execStart .., _ => .ok ()
  | .execInspect .., _ => .ok ⟨false, 0⟩
  | .copy, _ => ⟨[(.stdout, [104, 105])], none⟩
  | .poll _, _ => some .deadlineExceeded
  | .wait _, _ => .deadlineExceeded
  | .ctxErr .caller, _ => none
  | .ctxErr _, _ => some .deadlineExceeded

theorem expiredAnswer_admitted (t : ℕ) (c : ExecCall) : expiredContexts.admits t c (expiredAnswer c t) := by
  have hexec : errAt expiredContexts.exec t = some .deadlineExceeded := errAt_eq_some.mpr ⟨0, Nat.zero_le t, rfl⟩
  cases c with
  | base | execCreate | execAttach | execStart | execInspect => trivial
  | copy =>
    intro
    rw [hexec]
    rfl
  | poll ctx =>
    cases ctx with
    | exec =>
      intro e he
      rw [hexec]
      exact he
    | caller | kill => trivial
  | wait ctx =>
    cases ctx with
    | exec => exact hexec
    | caller | kill => trivial
  | ctxErr ctx =>
    cases ctx with
    | exec => exact hexec.symm
    | caller => rfl
    | kill => trivial

/-- A command that is interrupted by its deadline. -/
def expiredRun : ExecResult × Option Err :=
  ((exec exampleID ["cat"] ⟨none, "", Duration.second⟩).run (fun c t => (expiredAnswer c t, t + 1)) 0).1

theorem exec_results_expired : ∃ log u,
    (exec exampleID ["cat"] ⟨none, "", Duration.second⟩).Spans expiredContexts.admits 0 log expiredRun u ∧
    Captures (delivered log) expiredRun.1 ∧ expiredRun.1.exitCode = -1 ∧ TimedOut expiredContexts log := by
  obtain ⟨log, u, hrun⟩ := Program.exists_spans expiredAnswer_admitted (exec exampleID ["cat"] ⟨none, "", Duration.second⟩) 0
  have htimeout : (expiredRun.2.any fun err => err.is .execTimeout) = true := by decide +kernel
  obtain ⟨-, -, hexit, hcaptures, hnamed, -⟩ := exec_results hrun
  cases herr : expiredRun.2 with
  | none =>
    rw [herr] at htimeout
    cases htimeout
  | some err =>
    rw [herr] at htimeout
    refine ⟨log, u, hrun, hcaptures, hexit ?_, hnamed err herr htimeout⟩
    show expiredRun.2 ≠ none
    rw [herr]
    exact Option.some_ne_none err

end Docker
end Quickspin
