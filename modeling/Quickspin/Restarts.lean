import Quickspin.Admission
import Quickspin.Spared
import Quickspin.Store.Guards

/-! Restarts after a crash in the middle of a creation. Whatever the crashed process has left of the row and of the
container, the next pass adopts a started container, makes one where there is none, and fails the row where a container
was made and not started. -/
namespace Quickspin
open Interaction Service
set_option autoImplicit false

abbrev DockerLabel := Label (calls Docker.signature) Request Response (Except Err (List ReconcileAction))

abbrev DockerConfig :=
  Config (calls Docker.signature) (World Daemon) Request Response (Except Err (List ReconcileAction))

/-! ## The ids of the rows -/

namespace Docker

theorem create_inserts (host : Host) (x : String) (spec : Runtime.Spec) : (create host x spec).Calls InsertsNothing := by
  unfold create
  cases validateSandboxID x with
  | error e => trivial
  | ok y =>
    dsimp only
    cases newContainerConfigs host spec x with
    | error e => trivial
    | ok configs =>
      refine (pullImage_calls (fun _ _ => trivial) _).bind fun r => ?_
      cases r with
      | error e => trivial
      | ok y =>
        refine ⟨trivial, fun a => ?_⟩
        cases (a : Except DaemonError String) with
        | error e => trivial
        | ok containerID =>
          refine ⟨trivial, fun a => ?_⟩
          cases (a : Except DaemonError Unit) with
          | error e => exact (cleanupFailed_calls (fun _ _ => trivial) _ _ _ _).bind fun _ => trivial
          | ok y => exact ⟨trivial, fun _ => trivial⟩

theorem destroy_inserts (x : String) : (destroy x).Calls InsertsNothing := by
  have hget : (getContainerBysandboxID x).Calls InsertsNothing := by
    unfold getContainerBysandboxID
    cases validateSandboxID x with
    | error e => trivial
    | ok y =>
      refine ⟨trivial, fun a => ?_⟩
      cases (a : Except DaemonError (List Summary)) with
      | error e => trivial
      | ok items =>
        dsimp only [Program.bind]
        split <;> trivial
  refine hget.bind fun r => ?_
  cases r with
  | error e =>
    dsimp only
    split <;> trivial
  | ok c =>
    refine (removeContainer_calls (fun _ _ => trivial) _).bind fun r => ?_
    cases r <;> trivial

theorem list_inserts : list.Calls InsertsNothing := by
  refine ⟨trivial, fun a => ?_⟩
  cases (a : Except DaemonError (List Summary)) <;> trivial

theorem impl_inserts (host : Host) (c : (calls Runtime.signature).Call) (hc : InsertsNothing c) :
    (impl host c).Calls InsertsNothing := by
  cases c with
  | now | newSandboxID | decide => exact ⟨trivial, fun _ => trivial⟩
  | store c =>
    cases c with
    | insertSandbox | createIdempotencyKey => exact hc.elim
    | getIdempotencyKey | getSandbox | getSandboxes | getSandboxEvents | updateSandboxExpiry | updateSandboxState =>
      exact ⟨trivial, fun _ => trivial⟩
  | backend c =>
    cases c with
    | create x spec => exact create_inserts host x spec
    | destroy x => exact destroy_inserts x
    | list => exact list_inserts

end Docker

section Run
variable {host : Docker.Host} {ls : List DockerLabel} {C : DockerConfig} {id : String}

theorem rows_valid {w₀ : World Daemon} (h₀ : w₀.db = .empty) (h : (dockerPlane host).Run Always (.idle w₀) ls C)
    {row : SandboxRow} (hrow : C.shared.db.sandbox? id = some row) : validateSandboxID id = .ok () := by
  induction h generalizing row with
  | nil =>
    rw [Config.idle, h₀] at hrow
    cases hrow
  | @cons ls C C' l hr _ hs ih =>
    rcases Backend.step_db hs with hdb | ⟨s, a, hl, heff⟩
    · exact ih (hdb ▸ hrow)
    · cases hbefore : C.shared.db.sandbox? id with
      | some row₀ => exact ih hbefore
      | none =>
        rcases heff.absent hbefore with hnone | ⟨key, spec, expiresAt, rfl, -⟩
        · rw [hnone] at hrow
          cases hrow
        · rcases hl with rfl | ⟨n, i, rfl⟩
          · have hobeys := hr.obeys (P := fun _ _ _ => True) (W := fun c _ => InsertsNothing c)
              (fun _ => Program.nodes_true _) (Reconciler.reconcileOnce_inserts.translate (Docker.impl_inserts host))
              (obeys_idle _)
            cases hs with
            | work hw _ => exact (hobeys.worker _ hw).1.elim
          · cases hs with
            | request hn _ =>
              obtain ⟨history, htells, hmem⟩ := hr.request_tells Request.handle_records (fun _ => rfl) hn
              obtain ⟨post, pre, rfl⟩ := List.append_of_mem (hmem _ htells.1)
              obtain ⟨C₁, C₂, -, hstep, -⟩ := hr.split
              exact (hstep.issued (.inr ⟨n, i, rfl⟩)).1

end Run

/-! ## A pass over one sandbox -/

section Pass
variable {P : (c : (calls Docker.signature).Call) → (calls Docker.signature).Answer c → Prop} {host : Docker.Host}
  {id : String} {state : TaskState} {json : Json} {seen : Option (String × Runtime.State)} {w w' : World Daemon}
  {log : List (Exchange (calls Runtime.signature))} {r : Except Err (List ReconcileAction)}

theorem pass_ran (hP : ∀ c a, P c a → Docker.succeeded c a = true)
    (h : (Reconciler.reconcileOnce false).Completes (Docker.Ran host P id) (Spared id) w log r w') :
    ∃ actions, r = .ok actions := by
  obtain ⟨u₁, a₁, v₁, l₁, -, ⟨_, hact₁⟩, -, h⟩ := h
  obtain ⟨_, _, -, -, hok, -⟩ := Docker.single_goes hact₁
  cases a₁ with
  | error e => cases hP _ _ hok
  | ok sbxs =>
    obtain ⟨u₂, a₂, v₂, l₂, -, ⟨_, hact₂⟩, -, h⟩ := h
    obtain ⟨-, infos, rfl, -⟩ := Docker.list_goes hP hact₂
    obtain ⟨u₃, t, v₃, l₃, -, -, -, h⟩ := h
    dsimp only [Program.bind] at h
    obtain ⟨_, _, actions, _, _, _, hlast⟩ := h.of_bind spared_refl
    exact ⟨actions, hlast.2.1⟩

/-- The visit of the sandbox's row, as the pass has listed it and its container. -/
structure Visited (P : (c : (calls Docker.signature).Call) → (calls Docker.signature).Answer c → Prop) (host : Docker.Host)
    (id : String) (state : TaskState) (json : Json) (seen : Option (String × Runtime.State)) (w' : World Daemon)
    (sbx : Sandbox) (observed : Option Runtime.Info) (t : Time) : Prop where
  named : sbx.sandboxID = id
  standing : sbx.state = state
  decoded : SpecFile.ofJSON json = .ok sbx.spec
  shown : observed.map (·.state) = seen.map Prod.snd
  listed : ∃ sbxs, P (.store .getSandboxes) (Except.ok sbxs) ∧ sbx ∈ sbxs
  now : P .now t
  visit : ∃ x y l r, At id state json seen x ∧
    (Reconciler.visit t (.row sbx observed)).Completes (Docker.Ran host P id) (Spared id) x l r y ∧ Spared id y w'

/-- **A pass** visits the sandbox where it was when the pass began. -/
theorem pass_visits (hP : ∀ c a, P c a → Docker.succeeded c a = true) (ha : At id state json seen w)
    (h : (Reconciler.reconcileOnce false).Completes (Docker.Ran host P id) (Spared id) w log r w') :
    ∃ sbx observed t, Visited P host id state json seen w' sbx observed t := by
  have hframe := Docker.spared_frame hP host id
  obtain ⟨actions, rfl⟩ := pass_ran hP h
  obtain ⟨sbxs, infos, t, u, l, hopen, hitems, -⟩ := Reconciler.reconcileOnce_opens hframe spared_refl spared_trans h
  -- the row as it was listed
  obtain ⟨u₁, v₁, hu₁, ⟨_, hact₁⟩, -⟩ := hopen.sandboxes
  obtain ⟨x₁, y₁, hx₁, ⟨f, db, hexec, -⟩, hlisted, -⟩ := Docker.single_goes hact₁
  obtain ⟨row, hrow, rfl, rfl⟩ := ((hu₁.trans hx₁).at ha).row
  obtain ⟨hsbxs, -⟩ := Prod.mk.inj hexec
  obtain ⟨sbx, hsbx, hscan, hid⟩ := Sqlite.getSandboxes_found hsbxs hrow
  -- the container as it was listed
  obtain ⟨u₂, v₂, hu₂, ⟨_, hact₂⟩, -⟩ := hopen.infos
  obtain ⟨-, infos', he, hshown⟩ := Docker.list_goes hP hact₂
  obtain rfl := Except.ok.inj he
  have hobserved := hshown seen (hu₂.view ha.view)
  obtain ⟨u₃, v₃, -, ⟨_, hact₃⟩, -⟩ := hopen.now
  obtain ⟨_, _, -, -, hnow, -⟩ := Docker.single_goes hact₃
  have hn := Sqlite.getSandboxes_nodup hsbxs
  have hitem : .row sbx _ ∈ pairSnapshots sbxs infos := (mem_pairSnapshots hn).mpr (.inl ⟨sbx, hsbx, rfl⟩)
  rw [hid] at hitem
  obtain ⟨x, y, -, l', -, r', hx, hvisit, hy, -⟩ :=
    Reconciler.reconcileItems_visit hframe spared_refl spared_trans (pairSnapshots_nodup hn) hitem hid hitems
  exact ⟨sbx, _, t, hid, Sqlite.scanSandbox_state hscan, (Sqlite.scanSandbox_ok hscan).1, hobserved, ⟨sbxs, hlisted, hsbx⟩, hnow, x, y, l', r',
    (hopen.through.trans hx).at ha, hvisit, hy⟩

theorem mark_ran (hP : ∀ c a, P c a → Docker.succeeded c a = true) {sbx : Sandbox} (hid : sbx.sandboxID = id)
    {toState : TaskState} {reason describing : String} {r : Except Err Unit} (ha : At id state json seen w)
    (h : (Reconciler.mark sbx toState reason describing).Completes (Docker.Ran host P id) (Spared id) w log r w') :
    At id toState json seen w' := by
  subst hid
  obtain ⟨u, a, v, l, hu, hact, -, h⟩ := h
  obtain ⟨sbx', rfl, hv⟩ := Docker.transition_ran hP (hu.at ha) hact
  exact h.2.2.at hv

theorem handleCreate_ran (hP : ∀ c a, P c a → Docker.succeeded c a = true) {sbx : Sandbox} (hid : sbx.sandboxID = id)
    (hvalid : validateSandboxID id = .ok ()) {resolved : Runtime.Spec} (hresolved : sbx.spec.resolveValidated = .ok resolved)
    {r : Except Err Unit} (ha : At id state json none w)
    (h : (Reconciler.handleCreate sbx).Completes (Docker.Ran host P id) (Spared id) w log r w') :
    ∃ containerID, At id .running json (some (containerID, .running)) w' := by
  subst hid
  unfold Reconciler.handleCreate at h
  rw [hresolved] at h
  obtain ⟨u, a, v, l, hu, ⟨_, hact⟩, -, h⟩ := h
  obtain ⟨containerID, info, hv, rfl⟩ := Docker.create_goes_own hP hvalid (SpecFile.validate_of_resolveValidated hresolved)
    (hu.at ha) hact
  obtain ⟨x, b, y, l', hx, hwrite, -, h⟩ := h
  obtain ⟨sbx', rfl, hy⟩ := Docker.transition_ran hP (hx.at hv) hwrite
  exact ⟨containerID, h.2.2.at hy⟩

theorem nonempty_of_valid (h : validateSandboxID id = .ok ()) : id ≠ "" := by
  rintro rfl
  have hempty : (validateSandboxID "").isOk = false := by decide +kernel
  rw [h] at hempty
  cases hempty

/-- The lease that the pass has listed for the sandbox is not over at the clock it reads. -/
def Unexpired (P : (c : (calls Docker.signature).Call) → (calls Docker.signature).Answer c → Prop) (id : String) : Prop :=
  ∀ sbxs t, P (.store .getSandboxes) (Except.ok sbxs) → P .now t → ∀ sbx ∈ sbxs, sbx.sandboxID = id →
    Time.after t sbx.expiresAt = false

theorem Visited.current {sbx : Sandbox} {observed : Option Runtime.Info} {t : Time}
    (hvis : Visited P host id state json seen w' sbx observed t) (hlease : Unexpired P id) :
    t.after sbx.expiresAt = false := by
  obtain ⟨sbxs, hlisted, hsbx⟩ := hvis.listed
  exact hlease sbxs t hlisted hvis.now sbx hsbx hvis.named

/-- A pass over a pending sandbox makes its container or adopts it, and fails it for one that is not started. -/
theorem pass_pending (hP : ∀ c a, P c a → Docker.succeeded c a = true) (hlease : Unexpired P id)
    (hvalid : validateSandboxID id = .ok ()) {spec : SpecFile} {resolved : Runtime.Spec}
    (hspec : SpecFile.ofJSON json = .ok spec) (hresolved : spec.resolveValidated = .ok resolved)
    (ha : At id .pending json seen w)
    (h : (Reconciler.reconcileOnce false).Completes (Docker.Ran host P id) (Spared id) w log r w') :
    match seen with
    | none => ∃ containerID, At id .running json (some (containerID, .running)) w'
    | some (containerID, .running) => At id .running json (some (containerID, .running)) w'
    | some (containerID, .stopped) => At id .failed json (some (containerID, .stopped)) w' := by
  obtain ⟨sbx, observed, t, hvis⟩ := pass_visits hP ha h
  obtain ⟨x, y, l, r', hx, hvisit, hy⟩ := hvis.visit
  have hnamed : sbx.sandboxID ≠ "" := hvis.named ▸ nonempty_of_valid hvalid
  have hd := decide_current (hvis.current hlease) observed
  rw [hvis.standing] at hd
  -- a row with a container is moved, and its container left alone
  have hmarked : ∀ {action toState}, (action, toState) ∈ [(.markFailed, .failed), (.markStopped, .stopped),
      (.markRunning, TaskState.running)] → decideReconcileAction (some sbx) observed t = action → action ≠ .none →
        At id toState json seen w' := by
    intro action toState hm hdecide hne
    obtain ⟨reason, describing, he⟩ := Reconciler.handleAction_mark hnamed observed hm
    rw [Reconciler.visit_some hdecide hne, he] at hvisit
    exact hy.at (mark_ran hP hvis.named hx hvisit)
  have hshown := hvis.shown
  cases observed with
  | none =>
    cases seen with
    | some e => cases hshown
    | none =>
      rw [Reconciler.visit_some hd (by decide), Reconciler.handleAction_create hnamed] at hvisit
      obtain rfl := Except.ok.inj (hvis.decoded.symm.trans hspec)
      obtain ⟨containerID, hc⟩ := handleCreate_ran hP hvis.named hvalid hresolved hx hvisit
      exact ⟨containerID, hy.at hc⟩
  | some info =>
    cases seen with
    | none => cases hshown
    | some e =>
      obtain ⟨containerID, s⟩ := e
      obtain hs : info.state = s := Option.some.inj hshown
      cases s with
      | running => exact hmarked (by simp) (hd.trans (if_neg (by simp [hs]))) (by decide)
      | stopped => exact hmarked (by simp) (hd.trans (if_pos hs)) (by decide)

/-- A pass leaves a running sandbox whose container runs. -/
theorem pass_running (hP : ∀ c a, P c a → Docker.succeeded c a = true) (hlease : Unexpired P id) {containerID : String}
    (ha : At id .running json (some (containerID, .running)) w)
    (h : (Reconciler.reconcileOnce false).Completes (Docker.Ran host P id) (Spared id) w log r w') :
    At id .running json (some (containerID, .running)) w' := by
  obtain ⟨sbx, observed, t, hvis⟩ := pass_visits hP ha h
  obtain ⟨x, y, l, r', hx, hvisit, hy⟩ := hvis.visit
  have hd := decide_current (hvis.current hlease) observed
  rw [hvis.standing] at hd
  obtain ⟨info, rfl, hrunning⟩ := Option.map_eq_some_iff.mp (hvis.shown : _ = some Runtime.State.running)
  rw [Reconciler.visit_none (hd.trans (if_neg (by simp [hrunning])))] at hvisit
  exact hy.at (hvisit.2.2.at hx)

end Pass

/-! ## After a restart -/

/-- The daemon, where the sandbox's container neither starts, stops nor vanishes by itself. -/
def Backend.dockerSparing (id : String) : Backend Docker.signature Daemon where
  act := Daemon.act
  env d d' := Daemon.Moves d d' ∧ ∀ containerID s, Docker.Shows id containerID s d' ↔ Docker.Shows id containerID s d

/-- The requests and the reconciler over it. -/
def restartedPlane (host : Docker.Host) (id : String) :
    Service (calls Docker.signature) (World Daemon) Request Response (Except Err (List ReconcileAction)) :=
  (Backend.dockerSparing id).service Request.handle ((Reconciler.reconcileOnce false).translate (Docker.impl host))

/-- A pass from `C` to `D`: after the steps `os` of others the worker wakes, and it rests after the steps `ns`, its own
and others'. Its calls succeed, it does not find the sandbox's lease over, and nobody deletes the sandbox. -/
structure RecoveringPass (host : Docker.Host) (id : String) (C : DockerConfig) (os ns : List DockerLabel) (D : DockerConfig) :
    Prop where
  run : ∃ r, (restartedPlane host id).Run Always C (.rest r :: (ns ++ .wake :: os)) D
  one : ∀ l ∈ ns ++ os, l ≠ .wake ∧ l ≠ .crash ∧ ∀ r, l ≠ .rest r
  succeeds : ∀ c a, .work c a ∈ ns → Docker.succeeded c a = true
  unexpired : Unexpired (fun c a => .work c a ∈ ns) id
  undeleted : ∀ n c a, .request n (.destroy id) c a ∉ ns ++ os

/-- The process between two passes. -/
structure Between (C : DockerConfig) : Prop where
  worker : C.worker = none
  requests : Obeys (fun i c _ => ∃ h, Request.Records i h c) (fun _ _ => True) C

section Restart
variable {host : Docker.Host} {id : String} {state : TaskState} {json : Json} {seen : Option (String × Runtime.State)}
  {ls os ns : List DockerLabel} {l : DockerLabel} {C D : DockerConfig}

theorem request_records (i : Request) :
    (Request.handle (D := Docker.signature) i).Nodes fun c _ => ∃ h, Request.Records i h c :=
  (Request.handle_records i).calls fun h _ hc => ⟨h, hc⟩

theorem spared_step (hs : (restartedPlane host id).Step C l D)
    (hC : Obeys (fun i c _ => ∃ h, Request.Records i h c) (fun _ _ => True) C)
    (hone : l ≠ .wake ∧ l ≠ .crash ∧ ∀ r, l ≠ .rest r) (hwork : ∀ c a, l ≠ .work c a)
    (hundeleted : ∀ n c a, l ≠ .request n (.destroy id) c a) :
    Spared id C.shared D.shared ∧ D.worker = C.worker := by
  cases hs with
  | @request n i c next a s hn ha =>
    refine ⟨?_, rfl⟩
    obtain ⟨h, hrecords⟩ := (hC.request _ _ _ hn).1
    cases c with
    | now | newSandboxID =>
      obtain rfl : s = C.shared := ha.2
      exact spared_refl _
    | decide =>
      obtain rfl : s = C.shared := ha
      exact spared_refl _
    | backend => exact hrecords.elim
    | store c =>
      obtain ⟨f, db, hexec, rfl⟩ := ha
      refine spared_store (StoreCall.effect hexec) fun a' b reason v he => ?_
      subst he
      obtain ⟨rfl, -⟩ := hrecords
      exact hundeleted n _ a rfl
  | env h =>
    refine ⟨?_, rfl⟩
    cases h with
    | tick t ht => exact ⟨fun row hrow => ⟨row, hrow, rfl, rfl⟩, fun _ _ => Iff.rfl⟩
    | backend d hd => exact spared_backend hd.2
  | arrive | respond => exact ⟨spared_refl _, rfl⟩
  | work => exact absurd rfl (hwork _ _)
  | wake => exact absurd rfl hone.1
  | rest => exact absurd rfl (hone.2.2 _)
  | crash => exact absurd rfl hone.2.1

/-- The others, until the worker wakes. -/
theorem Between.others (hC : Between C) (h : (restartedPlane host id).Run Always C os D)
    (hone : ∀ l ∈ os, l ≠ .wake ∧ l ≠ .crash ∧ ∀ r, l ≠ .rest r) (hundeleted : ∀ n c a, .request n (.destroy id) c a ∉ os) :
    Spared id C.shared D.shared ∧ Between D := by
  induction h with
  | nil => exact ⟨spared_refl _, hC⟩
  | @cons os C₁ C₂ l hr _ hs ih =>
    obtain ⟨hspared, hC₁⟩ := ih (fun l hl => hone l (List.mem_cons_of_mem _ hl))
      fun n c a hm => hundeleted n c a (List.mem_cons_of_mem _ hm)
    have hwork : ∀ c a, l ≠ .work c a := by
      rintro c a rfl
      cases hs with
      | work hw _ =>
        rw [hC₁.worker] at hw
        cases hw
    obtain ⟨hstep, hworker⟩ := spared_step hs hC₁.requests (hone l (List.mem_cons_self ..)) hwork fun n c a he =>
      hundeleted n c a (he ▸ List.mem_cons_self ..)
    exact ⟨hspared.trans hstep, hworker.trans hC₁.worker, hs.obeys request_records (Program.nodes_true _) hC₁.requests⟩

theorem RecoveringPass.completes (hp : RecoveringPass host id C os ns D) (hC : Between C) :
    Between D ∧ ∃ log r, (Reconciler.reconcileOnce false).Completes (Docker.Ran host (fun c a => .work c a ∈ ns) id)
      (Spared id) C.shared log r D.shared := by
  obtain ⟨r, hrun⟩ := hp.run
  cases hrun with
  | @cons _ C₃ _ _ hrun _ hrest =>
    obtain ⟨C₁, C₂, hothers, hwake, hpass⟩ := hrun.split
    obtain ⟨hspared, hC₁⟩ := hC.others hothers (fun l hl => hp.one l (List.mem_append_right _ hl))
      fun n c a hm => hp.undeleted n c a (List.mem_append_right _ hm)
    have hobeys := hwake.obeys request_records (Program.nodes_true _) hC₁.requests
    have hstart : C₂.worker = some ((Reconciler.reconcileOnce false).translate (Docker.impl host)) ∧ C₂.shared = C₁.shared := by
      cases hwake with
      | wake => exact ⟨rfl, rfl⟩
    have hend : Between D := by
      refine ⟨?_, hrest.obeys request_records (Program.nodes_true _)
        (hpass.obeys request_records (Program.nodes_true _) hobeys)⟩
      cases hrest with
      | rest => rfl
    obtain ⟨log, hmem, hcompletes⟩ := hpass.completes (R := Spared id)
      (P := fun l => (l ≠ .wake ∧ l ≠ .crash ∧ ∀ r, l ≠ .rest r) ∧ (∀ c a, l ≠ .work c a) ∧
        ∀ n c a, l ≠ .request n (.destroy id) c a)
      spared_refl spared_trans (fun _ _ _ hs hC => hs.obeys request_records (Program.nodes_true _) hC)
      (fun _ _ _ hs hC hl => spared_step hs hC hl.1 hl.2.1 hl.2.2) hstart.1 hobeys (fun l hl => by
        by_cases hwork : ∃ c a, l = .work c a
        · exact .inl hwork
        · refine .inr ⟨hp.one l (List.mem_append_left _ hl), fun c a he => hwork ⟨c, a, he⟩, ?_⟩
          rintro n c a rfl
          exact hp.undeleted n c a (List.mem_append_left _ hl)) hrest
    rw [hstart.2] at hcompletes
    have hgoes := (hcompletes.before spared_trans hspared).restrict (P := fun c a => .work c a ∈ ns)
      fun e he => hmem e.1 e.2 he
    obtain ⟨log', hran⟩ := Program.Completes.of_translate spared_refl hgoes
    exact ⟨hend, log', r, hran⟩

theorem between_crashed {w : World Daemon} : Between (Config.idle w : DockerConfig) := ⟨rfl, obeys_idle _⟩

/-- Two passes after a restart: the sandbox runs if its container, where there is one, was started. -/
theorem two_passes_recover {E : DockerConfig} {os' ns' : List DockerLabel} (hC : Between C) (hvalid : validateSandboxID id = .ok ())
    {spec : SpecFile} {resolved : Runtime.Spec} (hspec : SpecFile.ofJSON json = .ok spec)
    (hresolved : spec.resolveValidated = .ok resolved) (ha : At id .pending json seen C.shared)
    (h₁ : RecoveringPass host id C os ns D) (h₂ : RecoveringPass host id D os' ns' E) :
    match seen with
    | none | some (_, .running) => ∃ containerID, At id .running json (some (containerID, .running)) E.shared
    | some (_, .stopped) => ∃ row, E.shared.db.sandbox? id = some row ∧ row.state = .failed := by
  obtain ⟨hD, log, r, hfirst⟩ := h₁.completes hC
  obtain ⟨-, log', r', hsecond⟩ := h₂.completes hD
  have hleft := pass_pending h₁.succeeds h₁.unexpired hvalid hspec hresolved ha hfirst
  have hrests : ∀ {containerID}, At id .running json (some (containerID, .running)) D.shared →
      ∃ containerID, At id .running json (some (containerID, .running)) E.shared := fun {containerID} hrunning =>
    ⟨containerID, pass_running h₂.succeeds h₂.unexpired hrunning hsecond⟩
  cases seen with
  | none =>
    obtain ⟨containerID, hmade⟩ := hleft
    exact hrests hmade
  | some e =>
    obtain ⟨containerID, s⟩ := e
    cases s with
    | running => exact hrests hleft
    | stopped =>
      -- a failed row stays as it is
      obtain ⟨row, hrow, hfailed, -⟩ := hleft.row
      obtain ⟨r, hrun⟩ := h₂.run
      obtain ⟨row', honward⟩ := AllOnward.run hrun id row hrow
      obtain ⟨rfl, -⟩ := honward.final (.inr hfailed)
      exact ⟨_, honward.found, hfailed⟩

end Restart

section Claim
variable {host : Docker.Host} {t₀ : Time} {d₀ : Daemon} {id : String} {ls os ns os' ns' : List DockerLabel}
  {C D E : DockerConfig} {row : SandboxRow}

/-- The sandbox runs, in its row and in its container. -/
def Runs (id : String) (w : World Daemon) : Prop :=
  (∃ row, w.db.sandbox? id = some row ∧ row.state = .running) ∧
    ∃ c ∈ w.backend.containers.rows, Docker.managedSandboxID c.labels = some id ∧
      Docker.stateFromContainerState c.state = .running

/-- **A crash during a creation**, wherever it comes while the row is pending: two passes after the restart leave the
sandbox running exactly where the crash has not left its container created and not started, or started and stopped
again. -/
theorem crash_recovers (h₀ : ∀ c ∈ d₀.containers.rows, Docker.isManaged c.labels = false)
    (h : (dockerPlane host).Run Always (.idle ⟨.empty, t₀, d₀⟩) (.crash :: ls) C)
    (hrow : C.shared.db.sandbox? id = some row) (hpending : row.state = .pending) (hresolves : resolves (some row) = true)
    (h₁ : RecoveringPass host id C os ns D) (h₂ : RecoveringPass host id D os' ns' E) :
    Runs id E.shared ↔ ∀ c ∈ C.shared.backend.containers.rows, Docker.managedSandboxID c.labels = some id →
      c.state ∈ Docker.startedStates := by
  have hC : Between C := by
    cases h with
    | cons _ _ hs =>
      cases hs with
      | crash => exact between_crashed
  have hvalid := rows_valid rfl h hrow
  obtain ⟨seen, hview⟩ := Docker.Single.view ((owned_run h₀ h).single id)
  have ha : At id .pending row.spec seen C.shared := ⟨⟨row, hrow, hpending, rfl⟩, hview⟩
  obtain ⟨spec, resolved, hspec, hresolved⟩ : ∃ spec resolved, SpecFile.ofJSON row.spec = .ok spec ∧
      spec.resolveValidated = .ok resolved := by
    unfold resolves at hresolves
    rw [Option.any_some] at hresolves
    cases hspec : SpecFile.ofJSON row.spec with
    | error e =>
      rw [hspec] at hresolves
      cases hresolves
    | ok spec =>
      rw [hspec] at hresolves
      obtain ⟨resolved, hresolved⟩ := exists_ok_of_isOk hresolves
      exact ⟨spec, resolved, rfl, hresolved⟩
  have hend := two_passes_recover hC hvalid hspec hresolved ha h₁ h₂
  have hstarted : ∀ c : Docker.Summary, c.state ∈ Docker.startedStates ↔ Docker.stateFromContainerState c.state = .running := by
    intro c
    unfold Docker.stateFromContainerState
    by_cases hc : c.state ∈ Docker.startedStates
    · simp [hc]
    · simp [hc]
  have hruns : ∀ {containerID}, At id .running row.spec (some (containerID, .running)) E.shared → Runs id E.shared := by
    intro containerID hrunning
    obtain ⟨row', hrow', hstate, -⟩ := hrunning.row
    obtain ⟨c, hc, hid, -, hs⟩ := (hrunning.view containerID .running).mpr rfl
    exact ⟨⟨row', hrow', hstate⟩, c, hc, hid, hs⟩
  constructor
  · intro hrun c hc hid
    have hseen := (hview c.id _).mp ⟨c, hc, hid, rfl, rfl⟩
    rw [hstarted]
    cases hs : Docker.stateFromContainerState c.state with
    | running => rfl
    | stopped =>
      rw [hs] at hseen
      subst hseen
      obtain ⟨row', hrow', hfailed⟩ := hend
      obtain ⟨⟨row'', hrow'', hrunning⟩, -⟩ := hrun
      obtain rfl := Option.some.inj (hrow'.symm.trans hrow'')
      rw [hfailed] at hrunning
      cases hrunning
  · intro hall
    cases seen with
    | none =>
      obtain ⟨containerID, hrunning⟩ := hend
      exact hruns hrunning
    | some e =>
      obtain ⟨containerID, s⟩ := e
      obtain ⟨c, hc, hid, -, hs⟩ := (hview containerID s).mpr rfl
      obtain rfl : Runtime.State.running = s := ((hstarted c).mp (hall c hc hid)).symm.trans hs
      obtain ⟨containerID, hrunning⟩ := hend
      exact hruns hrunning

end Claim

/-! ### Two crashes -/

def dockerPass : Program (calls Docker.signature) (Except Err (List ReconcileAction)) :=
  (Reconciler.reconcileOnce false).translate (Docker.impl exampleHost)

/-- The world a crash leaves after the first `k` calls of the pass that creates the sandbox. -/
def crashedAfter (k : ℕ) : World Daemon := (dockerPass.advance dockerExec k requestedWorld).2

theorem crashedAfter_run (k : ℕ) : ∃ ls,
    (dockerPlane exampleHost).Run Always (.idle ⟨.empty, 0, .empty⟩) (.crash :: ls) (.idle (crashedAfter k)) := by
  obtain ⟨ls, h⟩ := (Run.start (dockerPlane exampleHost) Always (.idle ⟨.empty, 0, .empty⟩)).thenServe dockerExec_performs 0
    (.create "k" {} 0) rfl
  have hwoken := h.cons trivial (.wake rfl)
  exact ⟨_, (hwoken.trans (Run.work_advance dockerExec_performs k rfl)).cons trivial .crash⟩

/-- A step of a pass that goes well at time zero. -/
def calm : DockerLabel → Bool
  | .work .now t => decide ((t : Time) = 0)
  | .work c a => Docker.succeeded c a
  | _ => false

def recoveryTrace (w : World Daemon) : List DockerLabel := dockerPass.trace dockerExec .work 20 w

def recoveredWorld (w : World Daemon) : World Daemon := (dockerPass.advance dockerExec 20 w).2

/-- The pass comes to its end within its calls, and all goes well. -/
def goesWell (w : World Daemon) : Bool :=
  (match (dockerPass.advance dockerExec 20 w).1 with | .done _ => true | .call _ _ => false) && (recoveryTrace w).all calm

theorem recovering {w : World Daemon} (h : goesWell w = true) :
    RecoveringPass exampleHost exampleID (.idle w) [] (recoveryTrace w) (.idle (recoveredWorld w)) := by
  obtain ⟨hends, hcalm⟩ := Bool.and_eq_true_iff.mp h
  have hms := List.all_eq_true.mp hcalm
  obtain ⟨r, hdone⟩ : ∃ r, (dockerPass.advance dockerExec 20 w).1 = .done r := by
    cases hp : (dockerPass.advance dockerExec 20 w).1 with
    | done r => exact ⟨r, rfl⟩
    | call c next =>
      rw [hp] at hends
      cases hends
  have hwoken := (Run.start (restartedPlane exampleHost exampleID) Always (.idle w)).cons trivial (.wake rfl)
  have hworked := hwoken.trans (Run.work_advance dockerExec_performs 20 rfl)
  have hrested := hworked.cons trivial (.rest (congrArg some hdone))
  refine ⟨⟨r, hrested⟩, fun l hl => ?_, fun c a hl => ?_, fun sbxs t _ hnow sbx _ _ => ?_, fun n c a hl => ?_⟩
  · have hl := hms l (by simpa using hl)
    refine ⟨?_, ?_, fun r => ?_⟩
    all_goals
      rintro rfl
      cases hl
  · have hl := hms _ hl
    cases c with
    | now => rfl
    | newSandboxID | store | backend | decide => exact hl
  · obtain rfl : t = 0 := of_decide_eq_true (hms _ hnow)
    exact decide_eq_false (Nat.not_lt_zero _)
  · have hl := hms _ (by simpa using hl)
    cases hl

def pendingAfter (k : ℕ) : Bool :=
  ((crashedAfter k).db.sandbox? exampleID).any fun row => row.state = .pending && resolves (some row)

theorem pendingAfter_row {k : ℕ} (h : pendingAfter k = true) : ∃ row, (crashedAfter k).db.sandbox? exampleID = some row ∧
    row.state = .pending ∧ resolves (some row) = true := by
  obtain ⟨row, hrow, hcond⟩ := (Option.any_eq_true ..).mp h
  obtain ⟨hstate, hresolves⟩ := Bool.and_eq_true_iff.mp hcond
  exact ⟨row, hrow, of_decide_eq_true hstate, hresolves⟩

/-- The theorem at a crash between the start and its record. -/
theorem crash_recovers_adopted : (∃ ls, (dockerPlane exampleHost).Run Always (.idle ⟨.empty, 0, .empty⟩) (.crash :: ls)
      (.idle (crashedAfter 9))) ∧
    (∃ row, (crashedAfter 9).db.sandbox? exampleID = some row ∧ row.state = .pending ∧ resolves (some row) = true) ∧
    (crashedAfter 9).backend.containers.rows.map (·.state) = ["running"] ∧
      Runs exampleID (recoveredWorld (recoveredWorld (crashedAfter 9))) := by
  obtain ⟨ls, h⟩ := crashedAfter_run 9
  obtain ⟨hpending, hfirst, hsecond, hstates⟩ : pendingAfter 9 = true ∧ goesWell (crashedAfter 9) = true ∧
      goesWell (recoveredWorld (crashedAfter 9)) = true ∧
      (crashedAfter 9).backend.containers.rows.map (·.state) = ["running"] := by decide +kernel
  obtain ⟨row, hrow, hstate, hresolves⟩ := pendingAfter_row hpending
  refine ⟨⟨ls, h⟩, ⟨row, hrow, hstate, hresolves⟩, hstates, ?_⟩
  refine (crash_recovers (by simp [Daemon.empty]) h hrow hstate hresolves (recovering hfirst)
    (recovering hsecond)).mpr fun c hc _ => ?_
  have hm : c.state ∈ (crashedAfter 9).backend.containers.rows.map (·.state) := List.mem_map_of_mem hc
  rw [hstates, List.mem_singleton] at hm
  rw [hm]
  exact List.mem_cons_self ..

/-- A crash between the creation of the container and its start: the first pass reads the created container as a
stopped one and fails the row, and the second removes the container. -/
theorem crash_loses_created : (∃ ls, (dockerPlane exampleHost).Run Always (.idle ⟨.empty, 0, .empty⟩) (.crash :: ls)
      (.idle (crashedAfter 7))) ∧
    (∃ row, (crashedAfter 7).db.sandbox? exampleID = some row ∧ row.state = .pending ∧ resolves (some row) = true) ∧
    (crashedAfter 7).backend.containers.rows.map (·.state) = ["created"] ∧
    RecoveringPass exampleHost exampleID (.idle (crashedAfter 7)) [] (recoveryTrace (crashedAfter 7))
      (.idle (recoveredWorld (crashedAfter 7))) ∧
    RecoveringPass exampleHost exampleID (.idle (recoveredWorld (crashedAfter 7))) []
      (recoveryTrace (recoveredWorld (crashedAfter 7))) (.idle (recoveredWorld (recoveredWorld (crashedAfter 7)))) ∧
    (recoveredWorld (recoveredWorld (crashedAfter 7))).db.sandboxes.rows.map (·.state) = [.failed] ∧
    (recoveredWorld (recoveredWorld (crashedAfter 7))).backend.containers.rows.map (·.state) = [] ∧
      ¬Runs exampleID (recoveredWorld (recoveredWorld (crashedAfter 7))) := by
  obtain ⟨hpending, hfirst, hsecond, hstates, hfailed, hgone⟩ : pendingAfter 7 = true ∧ goesWell (crashedAfter 7) = true ∧
      goesWell (recoveredWorld (crashedAfter 7)) = true ∧
      (crashedAfter 7).backend.containers.rows.map (·.state) = ["created"] ∧
      (recoveredWorld (recoveredWorld (crashedAfter 7))).db.sandboxes.rows.map (·.state) = [.failed] ∧
      (recoveredWorld (recoveredWorld (crashedAfter 7))).backend.containers.rows.map (·.state) = [] := by decide +kernel
  refine ⟨crashedAfter_run 7, pendingAfter_row hpending, hstates, recovering hfirst, recovering hsecond, hfailed, hgone, ?_⟩
  rintro ⟨-, c, hc, -⟩
  rw [List.map_eq_nil_iff.mp hgone] at hc
  cases hc

end Quickspin
