import Quickspin.Leases

/-! The end of a sandbox. A row past running is out of reach of the requests, so the next pass that meets no error of its
own on the way finishes it and removes its container, whatever is asked for meanwhile; and what has ended so stays
ended: no request, pass or restart brings the row or a container back. -/
namespace Quickspin
open Interaction Service
set_option autoImplicit false

/-! ## Creations are of pending rows -/

/-- The pass has listed the sandbox as pending. -/
def ListedPending (id : String) (h : List ControlExchange) : Prop :=
  ∃ sbxs, (⟨.store .getSandboxes, Except.ok sbxs⟩ : ControlExchange) ∈ h ∧
    ∃ sbx ∈ sbxs, sbx.sandboxID = id ∧ sbx.state = .pending

/-- A container is created for a sandbox that was listed as pending. -/
def CreatesListed (h : List ControlExchange) (c : (calls Runtime.signature).Call) : Prop :=
  ∀ id spec, c = .backend (.create id spec) → ListedPending id h

theorem Uncreating.listed {c : (calls Runtime.signature).Call} (hc : Uncreating c) (h : List ControlExchange) :
    CreatesListed h c := fun id spec he => absurd he (hc id spec)

/-- The call creates a container for none but a pending row of the list. -/
def CreatesPending (sbxs : List Sandbox) (c : (calls Runtime.signature).Call) : Prop :=
  ∀ id spec, c = .backend (.create id spec) → ∃ sbx ∈ sbxs, sbx.sandboxID = id ∧ sbx.state = .pending

namespace Reconciler

theorem handleAction_pending {item : ReconcileItem} {t : Time} {sbxs : List Sandbox}
    (hitem : ∀ sbx, item.desired = some sbx → sbx ∈ sbxs) :
    (handleAction (decideReconcileAction item.desired item.observed t) item.desired item.observed).Calls
      (CreatesPending sbxs) := by
  by_cases hcreate : decideReconcileAction item.desired item.observed t = .create
  · obtain ⟨sbx, hdesired, hstate, -⟩ := cell_of_decide hcreate
    refine (handleAction_action _ item).mono fun c hc id spec he => ?_
    subst he
    have hid : item.id = sbx.sandboxID := by
      cases item with
      | orphan info => cases hdesired
      | row desired observed =>
        obtain rfl := Option.some.inj hdesired
        rfl
    exact ⟨sbx, hitem sbx hdesired, (hc.1.trans hid).symm, hstate⟩
  · exact (handleAction_uncreating hcreate _ _).mono fun c hc id spec he => absurd he (hc id spec)

theorem reconcileItems_pending (t : Time) {items : List ReconcileItem} {sbxs : List Sandbox}
    (hitems : ∀ item ∈ items, ∀ sbx, item.desired = some sbx → sbx ∈ sbxs) :
    (reconcileItems t items).Calls (CreatesPending sbxs) := by
  induction items with
  | nil => trivial
  | cons item rest ih =>
    have hrest := ih fun other ho => hitems other (List.mem_cons_of_mem _ ho)
    refine ⟨fun id spec he => (nomatch he), fun a => ?_⟩
    show Program.Calls _ (if _ then _ else _)
    split
    · exact hrest
    · exact (handleAction_pending (hitems item (List.mem_cons_self ..))).bind fun _ => hrest.bind fun _ => trivial

/-- **A pass** creates containers for rows that it has listed as pending. -/
theorem reconcileOnce_pending : (reconcileOnce false).Tells CreatesListed (fun _ _ => True) [] := by
  have hquiet : ∀ {c : (calls Runtime.signature).Call} (h : List ControlExchange), Uncreating c → CreatesListed h c :=
    fun h hc => hc.listed h
  refine ⟨hquiet _ (by simp [Uncreating]), fun a => ?_⟩
  cases (a : Except Err (List Sandbox)) with
  | error err => trivial
  | ok sbxs =>
    refine ⟨hquiet _ (by simp [Uncreating]), fun a => ?_⟩
    cases (a : Except Err (List Runtime.Info)) with
    | error err => trivial
    | ok infos =>
      refine ⟨hquiet _ (by simp [Uncreating]), fun t => ?_⟩
      refine Program.Tells.bind (p := reconcileItems t (pairSnapshots sbxs infos)) ?_
      have hcalls : (reconcileItems t (pairSnapshots sbxs infos)).Calls (CreatesPending sbxs) :=
        reconcileItems_pending t fun item hm sbx hd => desired_mem hm hd
      refine (hcalls.tells (I := fun h => (⟨.store .getSandboxes, Except.ok sbxs⟩ : ControlExchange) ∈ h)
        (fun h c hl hc id spec he => ⟨sbxs, hl, hc id spec he⟩) (fun h c a hl _ => List.mem_cons_of_mem _ hl)
        (by simp)).mono fun _ _ _ => trivial

end Reconciler

/-! ## Rows on their way -/

section Rows
variable {ρ : Type} {B : Backend Runtime.signature ρ} {absent single : String → ρ → Prop} {ls ms ns : List ControlLabel}
  {C D E : ControlConfig ρ} {l : ControlLabel} {id : String} {P : TaskState → Prop}

def HasRow (P : TaskState → Prop) (id : String) (db : Database) : Prop :=
  ∃ row, db.sandbox? id = some row ∧ P row.state

/-- A kind of states that no transition leaves is left by no run. -/
theorem HasRow.run (hP : ∀ a b, Next a b → P a → P b) (hrun : (controlPlane B).Run Always C ls D)
    (h : HasRow P id C.shared.db) : HasRow P id D.shared.db := by
  induction hrun with
  | nil => exact h
  | cons _ _ hs ih =>
    obtain ⟨row, hrow, hstate⟩ := ih
    rcases Backend.step_db hs with hdb | ⟨s, a, -, heff⟩
    · exact ⟨row, hdb ▸ hrow, hstate⟩
    · rcases heff.row hrow with ⟨hsame, -⟩ | ⟨e, -, -, hrenewed, -⟩ | ⟨b, reason, v, -, hnext, hmoved, -⟩
      · exact ⟨row, hsame, hstate⟩
      · exact ⟨_, hrenewed, hstate⟩
      · exact ⟨_, hmoved, hP _ _ hnext hstate⟩

theorem terminal_next (a b : TaskState) (h : Next a b) (ha : a.Terminal) : b.Terminal := absurd ha h.not_terminal

/-- A request leaves a row past running, and the containers, as they are. -/
theorem untouched_request (hB : Observes B absent single) {c : (calls Runtime.signature).Call} (hc : Recording c)
    {w w' : World ρ} {a : (calls Runtime.signature).Answer c} (hpast : HasRow TaskState.PastRunning id w.db)
    (h : B.perform c w a w') : Untouched absent single id w w' := by
  have hcreate : ∀ spec, c ≠ .backend (.create id spec) := by
    rintro spec rfl
    exact hc
  refine ⟨fun row hrow => ?_, hB.perform hcreate h⟩
  obtain ⟨row', hrow', hpast⟩ := hpast
  obtain rfl := Option.some.inj (hrow.symm.trans hrow')
  rcases Backend.perform_db h with hdb | ⟨s, rfl, heff⟩
  · rwa [hdb]
  · rcases heff.row hrow with ⟨hsame, -⟩ | ⟨e, -, hlive, -⟩ | ⟨b, reason, v, rfl, -⟩
    · exact hsame
    · rcases hlive with hs | hs <;> simp [TaskState.PastRunning, hs] at hpast
    · simp [TaskState.PastRunning, show row.state = .running from hc.1] at hpast

/-- While a pass is on its way, so do the others. -/
theorem untouched_others (hB : Observes B absent single) (hs : (controlPlane B).Step C l D)
    (hC : Obeys (fun _ c _ => Recording c) (fun _ _ => True) C) (hpast : HasRow TaskState.PastRunning id C.shared.db)
    (hone : l ≠ .wake ∧ l ≠ .crash ∧ ∀ w, l ≠ .rest w) (hwork : ∀ c a, l ≠ .work c a) :
    Untouched absent single id C.shared D.shared ∧ D.worker = C.worker := by
  cases hs with
  | request hn ha => exact ⟨untouched_request hB (hC.request _ _ _ hn).1 hpast ha, rfl⟩
  | work => exact absurd rfl (hwork _ _)
  | env h => exact ⟨untouched_drift hB h, rfl⟩
  | arrive | respond => exact ⟨untouched_refl _, rfl⟩
  | wake => exact absurd rfl hone.1
  | rest => exact absurd rfl (hone.2.2 _)
  | crash => exact absurd rfl hone.2.1

/-! ## The visit -/

section Visit
variable {w w' : World ρ} {log : List ControlExchange} {sbx : Sandbox} {row : SandboxRow} {r : Except Err Unit} {t : Time}

theorem handleDestroy_ends (hB : Observes B absent single) (hscan : Sqlite.scanSandbox row = .ok sbx)
    (hid : sbx.sandboxID = id) (hpast : row.state.PastRunning) (hrow : w.db.sandbox? id = some row)
    (hsingle : single id w.backend)
    (h : (Reconciler.handleDestroy sbx).Completes B.perform (Untouched absent single id) w log r w')
    (hok : ∀ e ∈ log, ¬FailsFor id (.work e.1 e.2)) :
    HasRow TaskState.Terminal id w'.db ∧ absent id w'.backend := by
  have hstate := Sqlite.scanSandbox_state hscan
  unfold Reconciler.handleDestroy at h
  dsimp only at h
  rw [hid] at h
  obtain ⟨v, l, hkept, hgone, h, hmem⟩ := destroy_clears hB h hsingle hok
  dsimp only at h
  split at h
  · obtain ⟨⟨row', hrow', hs⟩, hkeeps⟩ := mark_moves h hid fun e he => hok e (hmem e he)
    exact ⟨⟨row', hrow', hs ▸ .inl rfl⟩, hkeeps.1 hgone⟩
  · next hgoing =>
    rw [hstate] at hgoing
    exact ⟨⟨row, h.2.2.1 row (hkept row hrow), hpast.resolve_left hgoing⟩, h.2.2.2.1 hgone⟩

/-- **The visit of a row past running** ends it and removes its container. -/
theorem visit_ends (hB : Observes B absent single) {observed : Option Runtime.Info}
    (hscan : Sqlite.scanSandbox row = .ok sbx) (hid : row.platformId = id) (hne : id ≠ "") (hpast : row.state.PastRunning)
    (hrow : w.db.sandbox? id = some row) (hsingle : single id w.backend) (habsent : observed = none → absent id w.backend)
    (h : (Reconciler.visit t (.row sbx observed)).Completes B.perform (Untouched absent single id) w log r w')
    (hok : ∀ e ∈ log, ¬FailsFor id (.work e.1 e.2)) :
    HasRow TaskState.Terminal id w'.db ∧ absent id w'.backend := by
  have hsid : sbx.sandboxID = id := (Sqlite.scanSandbox_id hscan).trans hid
  have hstate := Sqlite.scanSandbox_state hscan
  have hnamed : sbx.sandboxID ≠ "" := hsid ▸ hne
  by_cases hexp : row.expiresAt < t
  · obtain ⟨row', hrow', hterminal, hgone⟩ := visit_reaps hB hscan hid hne hexp hrow hsingle habsent h hok
    exact ⟨⟨row', hrow', hterminal⟩, hgone⟩
  · have hcurrent : t.after sbx.expiresAt = false := by
      rw [Sqlite.scanSandbox_expiresAt hscan]
      exact decide_eq_false hexp
    have hdecide := decide_current hcurrent observed
    cases observed with
    | some info =>
      have hdestroy : decideReconcileAction (some sbx) (some info) t = .destroy := by
        rw [hdecide, hstate]
        rcases hpast with hs | hs | hs <;> rw [hs]
      rw [Reconciler.visit_some hdestroy (by decide), Reconciler.handleAction_destroy hnamed] at h
      exact handleDestroy_ends hB hscan hsid hpast hrow hsingle h hok
    | none =>
      by_cases hstopping : row.state = .stopping
      · have hmark : decideReconcileAction (some sbx) none t = .markStopped := by
          rw [hdecide, hstate, hstopping]
        rw [Reconciler.visit_some hmark (by decide)] at h
        obtain ⟨reason, describing, he⟩ := Reconciler.handleAction_mark hnamed none (by simp :
          (ReconcileAction.markStopped, TaskState.stopped) ∈ _)
        rw [he] at h
        obtain ⟨⟨row', hrow', hs⟩, hkeeps⟩ := mark_moves h hsid hok
        exact ⟨⟨row', hrow', hs ▸ .inl rfl⟩, hkeeps.1 (habsent rfl)⟩
      · have hterminal : row.state.Terminal := hpast.resolve_left hstopping
        have hnone : decideReconcileAction (some sbx) none t = .none := decide_terminal (hstate ▸ hterminal) none t
        rw [Reconciler.visit_none hnone] at h
        exact ⟨⟨row, h.2.2.1 row hrow, hterminal⟩, h.2.2.2.1 (habsent rfl)⟩

/-- A pass comes by every row: it has read the row and the listing of its container, and its visit is on the way. -/
theorem pass_visit (hB : Observes B absent single) {actions : List ReconcileAction} (hrow : w.db.sandbox? id = some row)
    (h : (Reconciler.reconcileOnce false).Completes B.perform (Untouched absent single id) w log (.ok actions) w') :
    ∃ sbx observed t u v l r, Sqlite.scanSandbox row = .ok sbx ∧ (observed = none → absent id u.backend) ∧
      Untouched absent single id w u ∧ Untouched absent single id v w' ∧ (∀ e ∈ l, e ∈ log) ∧
      (Reconciler.visit t (.row sbx observed)).Completes B.perform (Untouched absent single id) u l r v := by
  obtain ⟨sbxs, infos, t, u, l, hopen, hitems, rfl⟩ :=
    Reconciler.reconcileOnce_opens (untouched_frame hB id) untouched_refl untouched_trans h
  obtain ⟨u₁, v₁, hu₁, ⟨f, db, hexec, -⟩, -⟩ := hopen.sandboxes
  obtain ⟨hlist, -⟩ := Prod.mk.inj hexec
  obtain ⟨sbx, hsbx, hscan, hsid⟩ := Sqlite.getSandboxes_found hlist (hu₁.1 row hrow)
  have hn := Sqlite.getSandboxes_nodup hlist
  have hitem : .row sbx _ ∈ pairSnapshots sbxs infos := (mem_pairSnapshots hn).mpr (.inl ⟨sbx, hsbx, rfl⟩)
  obtain ⟨u', v', l₁, l', l₂, r, hbefore, hvisit, hafter, rfl, -⟩ := Reconciler.reconcileItems_visit
    (untouched_frame hB id) untouched_refl untouched_trans (pairSnapshots_nodup hn) hitem hsid hitems
  refine ⟨sbx, _, t, u', v', l', r, hscan, fun hnone => ?_, hopen.through.trans hbefore, hafter, fun e he => ?_, hvisit⟩
  · obtain ⟨u₂, v₂, -, ⟨d, hact, rfl⟩, hv₂⟩ := hopen.infos
    have hmissed := hB.listed id _ infos d hact fun info hi => hsid ▸ find?_indexInfos.2 hnone info hi
    exact hbefore.2.1 (hv₂.2.1 hmissed)
  · simp [he]

end Visit

/-! ## Along a run -/

/-- From `C` to `D` one pass is made, to its end; its calls for the sandbox succeed. -/
structure EndingPass (B : Backend Runtime.signature ρ) (id : String) (C : ControlConfig ρ) (ms : List ControlLabel)
    (D : ControlConfig ρ) : Prop where
  pass : ∃ C₁ C₂ actions, (controlPlane B).Step C .wake C₁ ∧ (controlPlane B).Run Always C₁ ms C₂ ∧
    (controlPlane B).Step C₂ (.rest (.ok actions)) D
  one : ∀ l ∈ ms, l ≠ .wake ∧ l ≠ .crash ∧ ∀ w, l ≠ .rest w
  succeeds : ∀ l ∈ ms, ¬FailsFor id l

/-- The row is finished, and no container is left. -/
structure Ended (absent : String → ρ → Prop) (id : String) (w : World ρ) : Prop where
  row : HasRow TaskState.Terminal id w.db
  absent : absent id w.backend

theorem pass_ends (hB : Observes B absent single) {w₀ : World ρ} (h₀ : w₀.db = .empty)
    (hsingle₀ : ∀ id, single id w₀.backend) (h : (controlPlane B).Run Always (.idle w₀) ls C)
    (hpast : HasRow TaskState.PastRunning id C.shared.db) (hp : EndingPass B id C ms D) : Ended absent id D.shared := by
  obtain ⟨C₁, C₂, actions, hwake, hrun, hrest⟩ := hp.pass
  have hhandler : ∀ i, (Request.handle (D := Runtime.signature) i).Nodes fun c _ => Recording c := Request.handle_recording
  have hstart : C₁.worker = some (Reconciler.reconcileOnce false) ∧ C₁.shared = C.shared := by
    cases hwake with
    | wake => exact ⟨rfl, rfl⟩
  have hobeys : Obeys (fun _ c _ => Recording c) (fun _ _ => True) C₁ :=
    hwake.obeys (V := controlPlane B) hhandler (Program.nodes_true _)
      (h.obeys (V := controlPlane B) hhandler (Program.nodes_true _) (obeys_idle _))
  obtain ⟨log, hmem, hpass⟩ := hrun.completes (V := controlPlane B) (R := Untouched absent single id)
    (I := fun C => Obeys (fun _ c _ => Recording c) (fun _ _ => True) C ∧ HasRow TaskState.PastRunning id C.shared.db)
    (P := fun l => (l ≠ .wake ∧ l ≠ .crash ∧ ∀ w, l ≠ .rest w) ∧ ∀ c a, l ≠ .work c a) untouched_refl untouched_trans
    (fun _ _ _ hs hI => ⟨hs.obeys (V := controlPlane B) hhandler (Program.nodes_true _) hI.1,
      hI.2.run (fun _ _ => Next.pastRunning) (.one hs)⟩)
    (fun _ _ _ hs hI hl => untouched_others hB hs hI.1 hI.2 hl.1 hl.2) hstart.1 ⟨hobeys, hstart.2 ▸ hpast⟩
    (fun l hl => by
      by_cases hwork : ∃ c a, l = .work c a
      · exact .inl hwork
      · exact .inr ⟨hp.one l hl, fun c a he => hwork ⟨c, a, he⟩⟩) hrest
  obtain ⟨row, hrow, hstate⟩ := hpast
  rw [hstart.2] at hpass
  obtain ⟨sbx, observed, t, u, v, l, r, hscan, habsent, hbefore, hafter, hl, hvisit⟩ := pass_visit hB hrow hpass
  have hsingle : single id C.shared.backend := (sound_run hB hsingle₀ h id).1
  obtain ⟨⟨row', hrow', hterminal⟩, hgone⟩ := visit_ends hB hscan (Relational.Table.key_of_find? hrow)
    (named_run h₀ h hrow) hstate (hbefore.1 row hrow) (hbefore.2.2 hsingle) habsent hvisit
    fun e he => hp.succeeds _ (hmem e.1 e.2 (hl e he))
  exact ⟨⟨row', hafter.1 row' hrow', hterminal⟩, hafter.2.1 hgone⟩

/-- **Step lemma**: between passes and in those that begin after, what has ended stays so. -/
theorem Ended.step (hB : Observes B absent single) (hobeys : Obeys (fun _ c _ => Recording c) (fun _ _ => True) D)
    (hidle : C.worker = none) (hrun : (controlPlane B).Run Always C ls D)
    (h₀ : HasRow TaskState.Terminal id C.shared.db) (h : Ended absent id D.shared) (hs : (controlPlane B).Step D l E) :
    Ended absent id E.shared := by
  refine ⟨h.row.run terminal_next (.one hs), (hB.step hs ?_).1 h.absent⟩
  rintro spec a (rfl | ⟨n, i, rfl⟩)
  · obtain ⟨sbxs, hlisted, sbx, hsbx, rfl, hpending⟩ :=
      hrun.work_tells Reconciler.reconcileOnce_pending hidle hs id spec rfl
    -- the listing that has shown it pending came after its end
    obtain ⟨post, pre, rfl, -⟩ := mem_passLog hlisted
    obtain ⟨C₁, C₂, hpre, hstep, -⟩ := hrun.split
    obtain ⟨f, db, hexec, -⟩ := Asks.exec (B := B) (.inl rfl) hstep
    obtain ⟨hlist, -⟩ := Prod.mk.inj hexec
    obtain ⟨row, hrow, hscan⟩ := Sqlite.getSandboxes_row hlist hsbx
    obtain ⟨row', hrow', hterminal⟩ := h₀.run terminal_next hpre
    obtain rfl := Option.some.inj (hrow.symm.trans hrow')
    rw [← Sqlite.scanSandbox_state hscan, hpending] at hterminal
    rcases hterminal with he | he <;> cases he
  · obtain ⟨next, hcall, -⟩ := hs.request_node hobeys
    exact hcall

/-- **Run lemma**: what has ended while no pass was in flight stays so. -/
theorem Ended.run (hB : Observes B absent single) (hobeys : Obeys (fun _ c _ => Recording c) (fun _ _ => True) C)
    (hidle : C.worker = none) (hrun : (controlPlane B).Run Always C ls D) (h : Ended absent id C.shared) :
    Ended absent id D.shared := by
  induction hrun with
  | nil => exact h
  | cons hr _ hs ih =>
    have hobeys' := hr.obeys (V := controlPlane B) Request.handle_recording (Program.nodes_true _) hobeys
    exact ih.step hB hobeys' hidle hr h.row hs

/-- **Ends are carried out, for good**: from every state of every run, a pass that gets through for a row past running
leaves it stopped or failed and no container for it, whatever is asked for meanwhile; and so it is in every state
after. -/
theorem ends_for_good (hB : Observes B absent single) {w₀ : World ρ} (h₀ : w₀.db = .empty)
    (hsingle₀ : ∀ id, single id w₀.backend) (h : (controlPlane B).Run Always (.idle w₀) ls C) {row : SandboxRow}
    (hrow : C.shared.db.sandbox? id = some row) (hpast : row.state.PastRunning) (hp : EndingPass B id C ms D)
    (hafter : (controlPlane B).Run Always D ns E) :
    ∃ row', E.shared.db.sandbox? id = some row' ∧ row'.state.Terminal ∧ absent id E.shared.backend := by
  have hended := pass_ends hB h₀ hsingle₀ h ⟨row, hrow, hpast⟩ hp
  obtain ⟨C₁, C₂, actions, hwake, hrun, hrest⟩ := hp.pass
  have hthere : (controlPlane B).Run Always (.idle w₀) (.rest (.ok actions) :: (ms ++ .wake :: ls)) D :=
    ((h.cons trivial hwake).trans hrun).cons trivial hrest
  have hobeys := hthere.obeys (V := controlPlane B) Request.handle_recording (Program.nodes_true _) (obeys_idle _)
  have hidle : D.worker = none := by
    cases hrest with
    | rest => rfl
  obtain ⟨⟨row', hrow', hterminal⟩, hgone⟩ := hended.run hB hobeys hidle hafter
  exact ⟨row', hrow', hterminal, hgone⟩

end Rows

/-! ### A deleted sandbox -/

/-- The started sandbox, deleted a nanosecond after. -/
def deletedWorld : World Fleet :=
  ((Request.handle (.destroy exampleID)).run fleetExec { startedWorld with clock := 1 }).2

/-- The pass that comes then, after its last call. -/
def deletedPass : Program (calls Runtime.signature) (Except Err (List ReconcileAction)) × World Fleet :=
  (Reconciler.reconcileOnce false).advance fleetExec 6 deletedWorld

theorem deletedPass_done : ∃ actions, deletedPass.1 = .done (.ok actions) := by
  have hdone : (match deletedPass.1 with | .done r => r.isOk | .call _ _ => false) = true := by decide +kernel
  cases hp : deletedPass.1 with
  | done r =>
    rw [hp] at hdone
    obtain ⟨actions, rfl⟩ := exists_ok_of_isOk hdone
    exact ⟨actions, rfl⟩
  | call c next =>
    rw [hp] at hdone
    cases hdone

/-- The theorem at a delete, a pass, a keepalive that comes too late and another pass. -/
theorem ends_for_good_deleted : ∃ ls C row ms D ns E, (controlPlane .fleet).Run Always (.idle .empty) ls C ∧
    C.shared.db.sandbox? exampleID = some row ∧ row.state = .stopping ∧ EndingPass .fleet exampleID C ms D ∧
    (controlPlane .fleet).Run Always D ns E ∧ ns ≠ [] ∧ ∃ row', E.shared.db.sandbox? exampleID = some row' ∧
      row'.state.Terminal ∧ E.shared.backend.containers.find? exampleID = none := by
  obtain ⟨ls₁, h₁⟩ := (Run.start (controlPlane .fleet) Always (.idle .empty)).thenServe fleetExec_performs 0
    (.create "k" {} 0) rfl
  obtain ⟨ls₂, h₂⟩ := h₁.thenPass fleetExec_performs rfl
  have h₃ := h₂.cons trivial (.env (.tick _ 1 (by decide +kernel)))
  obtain ⟨ls₄, h₄⟩ := h₃.thenServe fleetExec_performs 1 (.destroy exampleID) rfl
  have hdeleted : (controlPlane .fleet).Run Always (.idle .empty) _ ⟨deletedWorld, none, fun _ => none⟩ := h₄
  have hrow : (deletedWorld.db.sandbox? exampleID).any (fun row => row.state = .stopping) = true := by decide +kernel
  obtain ⟨row, hfound, hstate⟩ := (Option.any_eq_true ..).mp hrow
  have hstate : row.state = .stopping := of_decide_eq_true hstate
  have hsmooth : ((Reconciler.reconcileOnce false).trace fleetExec Label.work 6 deletedWorld :
      List ControlLabel).all (smooth 0) = true := by decide +kernel
  have hms := List.all_eq_true.mp hsmooth
  obtain ⟨actions, hdone⟩ := deletedPass_done
  have hp : EndingPass .fleet exampleID ⟨deletedWorld, none, fun _ => none⟩ _ ⟨deletedPass.2, none, fun _ => none⟩ :=
    { pass := ⟨_, _, actions, .wake rfl, Run.work_advance fleetExec_performs 6 rfl, .rest (congrArg some hdone)⟩
      one := fun l hl => by
        have hsm := hms l hl
        refine ⟨?_, ?_, fun w => ?_⟩
        all_goals
          rintro rfl
          cases hsm
      succeeds := fun l hl hf => by
        have hsm := hms l hl
        cases hf <;> cases hsm }
  obtain ⟨ls₅, h₅⟩ := (Run.start (controlPlane .fleet) Always ⟨deletedPass.2, none, fun _ => none⟩).thenServe
    fleetExec_performs 2 (.keepalive exampleID 0) rfl
  obtain ⟨ls₆, h₆⟩ := h₅.thenPass fleetExec_performs rfl
  have hended := ends_for_good Backend.fleet_observes rfl (fun _ => trivial) hdeleted hfound (.inl hstate) hp h₆
  exact ⟨_, _, row, _, _, _, _, hdeleted, hfound, hstate, hp, h₆, by simp, hended⟩

end Quickspin
