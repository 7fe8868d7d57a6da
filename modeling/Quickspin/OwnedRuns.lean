import Quickspin.Ownership
import Quickspin.Lib.Trace

/-! A whole pass over the daemon, and every run of the system: the containers stay owned. -/
namespace Quickspin
open Interaction Service Relational
set_option autoImplicit false

/-! ## The pass -/

namespace Reconciler
variable {w : World Daemon} (host : Docker.Host)

theorem mark_safely {sbx : Sandbox} {toState : TaskState} (reason describing : String)
    (hb : toState = .stopped → Absent sbx.sandboxID w) :
    Safely (fun _ w' => Quiet (· ≠ sbx.sandboxID) w w')
      ((mark sbx toState reason describing).translate (Docker.impl host)) w := by
  refine safely_transition hb fun r w₁ h => ?_
  cases r with
  | error e => exact safely_done fun w' h' => h.trans (.of_rely h')
  | ok sbx' => exact safely_done fun w' h' => h.trans (.of_rely h')

theorem handleCreate_safely {sbx : Sandbox} (ha : Absent sbx.sandboxID w) (hp : Pending sbx.sandboxID w) :
    Safely (fun _ w' => Quiet (· ≠ sbx.sandboxID) w w') ((handleCreate sbx).translate (Docker.impl host)) w := by
  unfold handleCreate
  cases sbx.spec.resolveValidated with
  | error e => exact mark_safely host _ _ (by simp)
  | ok resolved =>
    refine safely_bind ((Docker.create_safely host resolved ha hp).mono fun r w₁ h₁ => ?_)
    cases r with
    | error e => exact safely_done fun w' h => h₁.trans (.of_rely h)
    | ok info =>
      refine safely_transition (by simp) fun r w₂ h₂ => ?_
      cases r with
      | ok sbx' => exact safely_done fun w' h => (h₁.trans h₂).trans (.of_rely h)
      | error e =>
        refine safely_bind (p := Docker.destroy sbx.sandboxID) (Docker.destroy_safely.mono fun r w₃ h₃ => ?_)
        have hq := (h₁.trans h₂).trans (.of_rely h₃.1)
        cases r with
        | error e' => exact safely_done fun w' h => hq.trans (.of_rely h)
        | ok u => exact safely_done fun w' h => hq.trans (.of_rely h)

theorem handleDestroy_safely (sbx : Sandbox) :
    Safely (fun _ w' => Quiet (· ≠ sbx.sandboxID) w w') ((handleDestroy sbx).translate (Docker.impl host)) w := by
  refine safely_bind (Docker.destroy_safely.mono fun r w₁ h₁ => ?_)
  have hq : Quiet (· ≠ sbx.sandboxID) w w₁ := .of_rely h₁.1
  cases r with
  | error e => exact safely_done fun w' h => hq.trans (.of_rely h)
  | ok u =>
    show Safely _ ((if sbx.state = .stopping then _ else _ : Program _ _).translate _) w₁
    split
    · exact (mark_safely host _ _ fun _ => h₁.2 rfl).mono fun _ w₂ h₂ => hq.trans h₂
    · exact safely_done fun w' h => hq.trans (.of_rely h)

theorem handleDestroyOrphan_safely (id : String) :
    Safely (fun _ w' => Quiet (· ≠ id) w w') ((handleDestroyOrphan id).translate (Docker.impl host)) w := by
  refine safely_bind (Docker.destroy_safely.mono fun r w₁ h₁ => ?_)
  cases r with
  | error e => exact safely_done fun w' h => .of_rely (h₁.1.trans h)
  | ok u => exact safely_done fun w' h => .of_rely (h₁.1.trans h)

theorem handleReap_safely {sbx : Sandbox} {observed : Option Runtime.Info}
    (ha : observed = none → Absent sbx.sandboxID w) :
    Safely (fun _ w' => Quiet (· ≠ sbx.sandboxID) w w') ((handleReap sbx observed).translate (Docker.impl host)) w := by
  cases observed with
  | none => exact mark_safely host _ _ fun _ => ha rfl
  | some info =>
    refine safely_bind (Docker.destroy_safely.mono fun r w₁ h₁ => ?_)
    have hq : Quiet (· ≠ sbx.sandboxID) w w₁ := .of_rely h₁.1
    cases r with
    | error e => exact safely_done fun w' h => hq.trans (.of_rely h)
    | ok u => exact (mark_safely host _ _ fun _ => h₁.2 rfl).mono fun _ w₂ h₂ => hq.trans h₂

/-- What the pass knows of an item it has not acted on. -/
structure Fits (w : World Daemon) (item : ReconcileItem) : Prop where
  pending : ∀ sbx, item.desired = some sbx → sbx.state = .pending → Pending item.id w
  unobserved : item.observed = none → Absent item.id w

theorem Fits.quiet {P : String → Prop} {w' : World Daemon} {item : ReconcileItem} (h : Fits w item)
    (hq : Quiet P w w') (hP : P item.id) : Fits w' item :=
  ⟨fun sbx hd hs => (h.pending sbx hd hs).quiet hq hP, fun ho => (h.unobserved ho).quiet hq hP⟩

theorem handleAction_safely {item : ReconcileItem} {t : Time} (hf : Fits w item) :
    Safely (fun _ w' => Quiet (· ≠ item.id) w w')
      ((handleAction (decideReconcileAction item.desired item.observed t) item.desired item.observed).translate
        (Docker.impl host)) w := by
  have hdone : ∀ r : Except Err Unit, Safely (fun _ w' => Quiet (· ≠ item.id) w w') (.done r) w :=
    fun r => safely_done fun w' h => .of_rely h
  have hcell := cell_decide item.desired item.observed t
  generalize decideReconcileAction item.desired item.observed t = action at hcell
  cases item with
  | orphan info =>
    cases action with
    | destroyOrphan =>
      show Safely _ (Program.translate _ (if _ then _ else _)) w
      split
      · exact hdone _
      · exact handleDestroyOrphan_safely host info.id
    | none | create | destroy | reap | markFailed | markStopped | markRunning => exact hdone _
  | row sbx observed =>
    cases action with
    | destroyOrphan =>
      obtain ⟨_, hnone, -⟩ := hcell
      cases hnone
    | none =>
      show Safely _ (Program.translate _ (if _ then _ else _)) w
      split <;> exact hdone _
    | create =>
      obtain ⟨sbx', hsbx, hs, hobs⟩ := hcell
      cases hsbx
      show Safely _ (Program.translate _ (if _ then _ else _)) w
      split
      · exact hdone _
      · exact handleCreate_safely host (hf.unobserved hobs) (hf.pending sbx rfl hs)
    | destroy =>
      show Safely _ (Program.translate _ (if _ then _ else _)) w
      split
      · exact hdone _
      · exact handleDestroy_safely host sbx
    | reap =>
      show Safely _ (Program.translate _ (if _ then _ else _)) w
      split
      · exact hdone _
      · exact handleReap_safely host hf.unobserved
    | markFailed | markRunning =>
      show Safely _ (Program.translate _ (if _ then _ else _)) w
      split
      · exact hdone _
      · exact mark_safely host _ _ (by simp)
    | markStopped =>
      obtain ⟨sbx', -, -, hobs⟩ := hcell
      show Safely _ (Program.translate _ (if _ then _ else _)) w
      split
      · exact hdone _
      · exact mark_safely host _ _ fun _ => hf.unobserved hobs

/-- **Items**: each action keeps what the pass knows of the items to come. -/
theorem reconcileItems_safely (t : Time) {items : List ReconcileItem} (hn : (items.map (·.id)).Nodup)
    (hf : ∀ item ∈ items, Fits w item) :
    Safely (fun _ _ => True) ((reconcileItems t items).translate (Docker.impl host)) w := by
  induction items generalizing w with
  | nil => exact safely_done fun _ _ => trivial
  | cons item rest ih =>
    rw [List.map_cons, List.nodup_cons] at hn
    have hrest : ∀ w', Quiet (· ≠ item.id) w w' → ∀ item' ∈ rest, Fits w' item' := by
      intro w' hq item' hm
      have hne : item'.id ≠ item.id := fun he => hn.1 (he ▸ List.mem_map_of_mem hm)
      exact (hf item' (List.mem_cons_of_mem _ hm)).quiet hq hne
    refine safely_still (fun _ _ _ h => h) fun w₁ a h₁ => ?_
    show Safely _ (Program.translate _ (if _ then _ else _)) w₁
    split
    · exact ih hn.2 (hrest w₁ (.of_rely h₁))
    · have hitem : Fits w₁ item := (hf item (List.mem_cons_self ..)).quiet h₁ trivial
      rw [Program.translate_bind]
      refine safely_bind ((handleAction_safely host hitem).mono fun _ w₂ h₂ => ?_)
      rw [Program.translate_bind]
      refine safely_bind ((ih hn.2 (hrest w₂ (Quiet.trans (.of_rely h₁) h₂))).mono fun _ w₃ _ => ?_)
      exact safely_done fun _ _ => trivial

/-- **The pass** keeps the containers owned, wherever it starts. -/
theorem reconcileOnce_safely :
    Safely (fun _ _ => True) ((reconcileOnce false).translate (Docker.impl host)) w := by
  intro w₁ _ ho a w₂ ha
  obtain ⟨f, db, he, rfl⟩ := ha.2
  obtain ⟨hlist, rfl⟩ := Prod.mk.inj he
  refine ⟨ho, trivial, ?_⟩
  cases a with
  | error e => exact safely_done fun _ _ => trivial
  | ok sbxs =>
    have hrows := Sqlite.getSandboxes_ok hlist
    have hids : (sbxs.map (·.sandboxID)).Nodup := Sqlite.getSandboxes_nodup hlist
    have hpending : ∀ sbx ∈ sbxs, sbx.state = .pending → Pending sbx.sandboxID w₁ := by
      intro sbx hm hs
      obtain ⟨row, hrow, hscan⟩ := Sqlite.getSandboxes_row hlist hm
      exact ⟨row, hrow, (Sqlite.scanSandbox_state hscan).symm.trans hs⟩
    refine safely_bind (p := Docker.list) (Docker.list_safely.mono fun r w₂ h₂ => ?_)
    cases r with
    | error e => exact safely_done fun _ _ => trivial
    | ok infos =>
      refine safely_still (fun _ _ _ h => h.2) fun w₃ t h₃ => ?_
      have hr : Rely w₁ w₃ := h₂.1.trans h₃
      have hfits : ∀ item ∈ pairSnapshots sbxs infos, Fits w₃ item := by
        intro item hm
        rcases (mem_pairSnapshots hids).mp hm with ⟨sbx, hs, rfl⟩ | ⟨info, hi, -, rfl⟩
        · refine ⟨fun sbx' hd hstate => ?_, fun hnone => ?_⟩
          · cases hd
            exact (hpending sbx hs hstate).quiet hr trivial
          · exact (h₂.2 infos rfl _ (find?_indexInfos.2 hnone)).quiet h₃ trivial
        · exact ⟨fun _ hd => (nomatch hd), fun hnone => nomatch hnone⟩
      show Safely _ (Program.translate _ (reconcileItems t (pairSnapshots sbxs infos) >>= _)) w₃
      rw [Program.translate_bind]
      refine safely_bind ((reconcileItems_safely host t (pairSnapshots_nodup hids) hfits).mono fun _ w₄ _ => ?_)
      exact safely_done fun _ _ => trivial

end Reconciler

/-! ## The requests -/

section Requests
variable {D : Signature}

/-- The calls of a request: none to the runtime, and one transition, out of running. -/
def Recording : (calls D).Call → Prop
  | .backend _ => False
  | .store (.updateSandboxState _ a b _ _) => a = .running ∧ b = .stopping
  | _ => True

/-- The calls of a request after the exchanges `h`: none to the runtime, a row only under an id generated before, and
one transition, of the sandbox that a delete names. -/
def Request.Records (i : Request) (h : List (Exchange (calls D))) : (calls D).Call → Prop
  | .backend _ => False
  | .store (.insertSandbox _ _ id _) => ⟨.newSandboxID, id⟩ ∈ h
  | .store (.updateSandboxState id a b _ _) => i = .destroy id ∧ a = .running ∧ b = .stopping
  | _ => True

theorem createSandboxRecord_records (key : String) (spec : SpecFile) (expiresAt : Time) (i : Request)
    (h : List (Exchange (calls D))) :
    (createSandboxRecord (D := D) key spec expiresAt).Tells i.Records (fun _ _ => True) h := by
  unfold createSandboxRecord
  cases expiresAt.isZero with
  | true => trivial
  | false =>
    refine ⟨trivial, fun a => ?_⟩
    cases (a : Except Err (Option IdempotencyKey)) with
    | error e => trivial
    | ok k =>
      cases k with
      | some k =>
        refine ⟨trivial, fun a => ?_⟩
        cases (a : Except Err Sandbox) <;> trivial
      | none =>
        dsimp only
        cases spec.toJSON with
        | error e => trivial
        | ok json => exact ⟨trivial, fun id => ⟨List.mem_cons_self .., fun _ => trivial⟩⟩

theorem Request.handle_records (i : Request) :
    (Request.handle (D := D) i).Tells i.Records (fun _ _ => True) [] := by
  cases i with
  | create key spec ttl =>
    refine Program.Tells.bind (p := Control.createSandbox key spec ttl) ?_
    unfold Control.createSandbox
    cases spec.resolveValidated with
    | error e => trivial
    | ok resolved =>
      cases resolveTTL ttl with
      | error e => trivial
      | ok ttl' =>
        refine ⟨trivial, fun t => ?_⟩
        refine Program.Tells.bind (p := createSandboxRecord key spec (Time.add t ttl')) ?_
        exact (createSandboxRecord_records _ _ _ _ _).mono fun _ _ _ => trivial
  | keepalive id ttl =>
    refine Program.Tells.bind (p := Control.keepaliveSandbox id ttl) ?_
    unfold Control.keepaliveSandbox
    cases resolveTTL (min ttl MaxTTL) with
    | error e => trivial
    | ok ttl => exact ⟨trivial, fun t => ⟨trivial, fun _ => trivial⟩⟩
  | destroy id =>
    refine Program.Tells.bind (p := Control.destroySandbox id) ?_
    unfold Control.destroySandbox
    refine ⟨trivial, fun a => ?_⟩
    cases (a : Except Err Sandbox) with
    | error e =>
      show Program.Tells _ _ _ (if e.is .storeNotFound then _ else _)
      split <;> trivial
    | ok sbx =>
      refine ⟨⟨rfl, rfl, rfl⟩, fun a => ?_⟩
      cases (a : Except Err Sandbox) with
      | ok sbx' => trivial
      | error e =>
        show Program.Tells _ _ _ (if e.is .storeNotFound || e.is .invalidStateTransition then _ else _)
        split <;> trivial

theorem Request.handle_recording (i : Request) : (Request.handle (D := D) i).Calls Recording := by
  refine (Request.handle_records i).calls fun h c hc => ?_
  cases c with
  | now | newSandboxID | decide => trivial
  | backend => exact hc
  | store c =>
    cases c with
    | updateSandboxState => exact hc.2
    | getIdempotencyKey | createIdempotencyKey | getSandbox | getSandboxes | getSandboxEvents | insertSandbox |
      updateSandboxExpiry => trivial

end Requests

theorem recording_keeps {c : (calls Docker.signature).Call} (hc : Recording c) {w w' : World Daemon}
    {a : (calls Docker.signature).Answer c} (h : Backend.docker.perform c w a w') (ho : Owned w) :
    Owned w' ∧ Rely w w' := by
  cases c with
  | now | newSandboxID =>
    obtain rfl : w' = w := h.2
    exact ⟨ho, .refl _ _⟩
  | decide =>
    obtain rfl : w' = w := h
    exact ⟨ho, .refl _ _⟩
  | backend => exact hc.elim
  | store c =>
    obtain ⟨f, db, he, rfl⟩ := h
    have heff := StoreCall.effect he
    refine ⟨ho.store heff fun id a reason v hcall => ?_, quiet_store heff fun id b reason v hcall => ?_⟩
    · subst hcall
      exact absurd hc.2 (by simp)
    · subst hcall
      exact absurd hc.1 (by simp)

/-! ## Every run -/

theorem owned_drift {w w' : World Daemon} (h : Backend.docker.Drift w w') (ho : Owned w) : Owned w' ∧ Rely w w' := by
  cases h with
  | tick t ht => exact ⟨⟨ho.row, ho.single, ho.stopped⟩, fun _ _ c hc hid => ⟨c, hc, rfl, hid⟩, fun _ _ row hr hs => ⟨row, hr, hs⟩⟩
  | backend d hd => exact ho.moves hd

/-- The outline of the whole system: the requests rely on nothing. -/
def dockerOutline (host : Docker.Host) : (dockerPlane host).Outline fun _ _ => True where
  Inv := Owned
  relyW := Rely
  relyQ _ _ := True
  postQ _ _ _ := True
  reflW := Quiet.refl _
  transW := rely_trans
  reflQ _ := trivial
  transQ _ _ _ _ _ := trivial
  env _ _ h ho := ⟨(owned_drift h ho).1, (owned_drift h ho).2, trivial⟩
  worker _ _ := Reconciler.reconcileOnce_safely host
  handler i w _ := Program.Calls.safe (Request.handle_recording i)
    (fun _ hc _ _ _ h ho => ⟨(recording_keeps hc h.2 ho).1, (recording_keeps hc h.2 ho).2, trivial⟩) w

section Claim
variable {host : Docker.Host} {t₀ : Time} {d₀ : Daemon}
  {ls : List (Label (calls Docker.signature) Request Response (Except Err (List ReconcileAction)))}
  {C : Config (calls Docker.signature) (World Daemon) Request Response (Except Err (List ReconcileAction))}

theorem owned_unmanaged (h₀ : ∀ c ∈ d₀.containers.rows, Docker.isManaged c.labels = false) : Owned ⟨.empty, t₀, d₀⟩ := by
  refine ⟨fun c hc hm => ?_, fun id c hc _ _ hid => ?_, fun id row hrow => ?_⟩
  · rw [h₀ c hc] at hm
    cases hm
  · have hm := hid.managed
    rw [h₀ c hc] at hm
    cases hm
  · cases hrow

theorem owned_run (h₀ : ∀ c ∈ d₀.containers.rows, Docker.isManaged c.labels = false)
    (h : (dockerPlane host).Run Always (.idle ⟨.empty, t₀, d₀⟩) ls C) : Owned C.shared :=
  (Outline.sound ((dockerOutline host).holds_idle (owned_unmanaged h₀)) (Outline.within_always h)).inv

/-- **Ownership across the store and the daemon**: in every state of every run, whatever fails, crashes, exits or
vanishes, every managed container carries the id of a row, no two carry one id, and no stopped row has one. -/
theorem containers_owned (h₀ : ∀ c ∈ d₀.containers.rows, Docker.isManaged c.labels = false)
    (h : (dockerPlane host).Run Always (.idle ⟨.empty, t₀, d₀⟩) ls C) :
    (∀ c ∈ C.shared.backend.containers.rows, Docker.isManaged c.labels = true →
      ∃ id row, Docker.managedSandboxID c.labels = some id ∧ C.shared.db.sandbox? id = some row) ∧
    (∀ id, ∀ c ∈ C.shared.backend.containers.rows, ∀ c' ∈ C.shared.backend.containers.rows,
      Docker.managedSandboxID c.labels = some id → Docker.managedSandboxID c'.labels = some id → c = c') ∧
    ∀ row ∈ C.shared.db.sandboxes.rows, row.state = .stopped →
      ∀ c ∈ C.shared.backend.containers.rows, Docker.managedSandboxID c.labels ≠ some row.platformId := by
  have ho := owned_run h₀ h
  exact ⟨ho.row, ho.single, fun row hm hs => ho.stopped _ row (Table.find?_of_mem hm) hs⟩

end Claim

/-- The theorem at a run that has created a container, and crashed before it was recorded. -/
theorem containers_owned_created : ∃ ls C, (dockerPlane exampleHost).Run Always (.idle ⟨.empty, 0, .empty⟩) ls C ∧
    C.shared.db.sandboxes.rows.map (·.state) = [.pending] ∧
    C.shared.backend.containers.rows.map (fun c => (Docker.managedSandboxID c.labels, c.state)) =
      [(some exampleID, "running")] ∧
    ∀ c ∈ C.shared.backend.containers.rows, Docker.isManaged c.labels = true →
      ∃ id row, Docker.managedSandboxID c.labels = some id ∧ C.shared.db.sandbox? id = some row := by
  obtain ⟨ls₁, h₁⟩ := (Run.start (dockerPlane exampleHost) Always (.idle ⟨.empty, 0, .empty⟩)).thenServe
    dockerExec_performs 0 (.create "k" {} 0) rfl
  have h₂ := h₁.cons trivial (.wake rfl)
  have h₃ := h₂.trans (Run.work_advance dockerExec_performs 9 rfl)
  have h₄ := h₃.cons trivial .crash
  exact ⟨_, _, h₄, by decide +kernel, by decide +kernel, (containers_owned (by simp [Daemon.empty]) h₄).1⟩

end Quickspin
