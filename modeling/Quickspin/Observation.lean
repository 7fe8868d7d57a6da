import Quickspin.Renewal
import Quickspin.Compensation
import Quickspin.OwnedRuns

/-! At most one container for an id. A pass creates a container only for a sandbox that its listing has missed,
and once; so over every runtime whose listings miss nothing, no id ever has two containers. -/
namespace Quickspin
open Interaction Service
set_option autoImplicit false

/-! ## The creations of a pass -/

/-- The call creates no container. -/
def Uncreating (c : (calls Runtime.signature).Call) : Prop := ∀ id spec, c ≠ .backend (.create id spec)

/-- The pass has listed the containers, none of the id among them, and has not created one since. -/
def Unseen (id : String) (h : List ControlExchange) : Prop :=
  (∃ infos, (⟨.backend .list, Except.ok infos⟩ : ControlExchange) ∈ h ∧ ∀ info ∈ infos, info.id ≠ id) ∧
    ∀ spec a, (⟨.backend (.create id spec), a⟩ : ControlExchange) ∉ h

/-- The rows the pass has listed are of different sandboxes. -/
def Distinct (h : List ControlExchange) : Prop :=
  ∀ sbxs, (⟨.store .getSandboxes, Except.ok sbxs⟩ : ControlExchange) ∈ h → (sbxs.map (·.sandboxID)).Nodup

/-- Only unseen sandboxes are created. -/
def CreatesUnseen (h : List ControlExchange) (c : (calls Runtime.signature).Call) : Prop :=
  ∀ id spec, c = .backend (.create id spec) → Distinct h → Unseen id h

theorem Uncreating.unseen {c : (calls Runtime.signature).Call} (hc : Uncreating c) (h : List ControlExchange) :
    CreatesUnseen h c := fun id spec he => absurd he (hc id spec)

theorem Unseen.cons {id : String} {h : List ControlExchange} (hu : Unseen id h) {c : (calls Runtime.signature).Call}
    (hc : ∀ spec, c ≠ .backend (.create id spec)) (a : (calls Runtime.signature).Answer c) : Unseen id (⟨c, a⟩ :: h) := by
  obtain ⟨⟨infos, hlist, hno⟩, hcreate⟩ := hu
  refine ⟨⟨infos, List.mem_cons_of_mem _ hlist, hno⟩, fun spec x hm => ?_⟩
  rcases List.mem_cons.mp hm with he | hm
  · cases he
    exact hc spec rfl
  · exact hcreate spec x hm

namespace Reconciler

theorem mark_uncreating (sbx : Sandbox) (toState : TaskState) (reason describing : String) :
    (mark sbx toState reason describing).Calls Uncreating := by
  refine ⟨by simp [Uncreating], fun a => ?_⟩
  cases (a : Except Err Sandbox) <;> trivial

theorem handleDestroy_uncreating (sbx : Sandbox) : (handleDestroy sbx).Calls Uncreating := by
  refine ⟨by simp [Uncreating], fun a => ?_⟩
  cases (a : Except Err Unit) with
  | error err => trivial
  | ok u =>
    show Program.Calls _ (if sbx.state = .stopping then _ else _)
    split
    · exact mark_uncreating ..
    · trivial

theorem handleReap_uncreating (sbx : Sandbox) (observed : Option Runtime.Info) :
    (handleReap sbx observed).Calls Uncreating := by
  cases observed with
  | none => exact mark_uncreating ..
  | some info =>
    refine ⟨by simp [Uncreating], fun a => ?_⟩
    cases (a : Except Err Unit) with
    | error err => trivial
    | ok u => exact mark_uncreating ..

theorem handleAction_uncreating {action : ReconcileAction} (hne : action ≠ .create) (desired : Option Sandbox)
    (observed : Option Runtime.Info) : (handleAction action desired observed).Calls Uncreating := by
  by_cases horphan : action = .destroyOrphan
  · subst horphan
    show Program.Calls _ (if _ then _ else _)
    split
    · trivial
    · refine ⟨by simp [Uncreating], fun a => ?_⟩
      cases (a : Except Err Unit) <;> trivial
  · cases desired with
    | none =>
      cases action with
      | destroyOrphan => exact absurd rfl horphan
      | none | create | destroy | reap | markFailed | markStopped | markRunning => trivial
    | some sbx =>
      cases action with
      | create => exact absurd rfl hne
      | destroyOrphan => exact absurd rfl horphan
      | none =>
        show Program.Calls _ (if _ then _ else _)
        split <;> trivial
      | destroy =>
        show Program.Calls _ (if _ then _ else _)
        split
        · trivial
        · exact handleDestroy_uncreating sbx
      | reap =>
        show Program.Calls _ (if _ then _ else _)
        split
        · trivial
        · exact handleReap_uncreating sbx observed
      | markFailed | markStopped | markRunning =>
        show Program.Calls _ (if _ then _ else _)
        split
        · trivial
        · exact mark_uncreating ..

theorem handleCreate_once (sbx : Sandbox) {h : List ControlExchange} (hu : Unseen sbx.sandboxID h) :
    (handleCreate sbx).Tells CreatesUnseen (fun h' _ => ∀ id, id ≠ sbx.sandboxID → Unseen id h → Unseen id h') h := by
  have hquiet : ∀ {α : Type} {p : Program (calls Runtime.signature) α} {h₁ : List ControlExchange},
      p.Calls Uncreating → (∀ id, id ≠ sbx.sandboxID → Unseen id h → Unseen id h₁) →
      p.Tells CreatesUnseen (fun h' _ => ∀ id, id ≠ sbx.sandboxID → Unseen id h → Unseen id h') h₁ := by
    intro α p h₁ hp hkeep
    refine hp.tells (fun h' c _ hc => hc.unseen h') (fun h' c a hk hc id hne hid => ?_) hkeep
    exact (hk id hne hid).cons (fun spec => hc id spec) a
  unfold handleCreate
  cases sbx.spec.resolveValidated with
  | error err => exact hquiet (mark_uncreating ..) fun _ _ hid => hid
  | ok resolved =>
    refine ⟨fun id spec he _ => ?_, fun a => hquiet ?_ fun id hne hid => ?_⟩
    · cases he
      exact hu
    · cases (a : Except Err Runtime.Info) with
      | error err => trivial
      | ok info =>
        refine ⟨by simp [Uncreating], fun a => ?_⟩
        cases (a : Except Err Sandbox) with
        | ok sbx' => trivial
        | error err =>
          refine ⟨by simp [Uncreating], fun a => ?_⟩
          cases (a : Except Err Unit) <;> trivial
    · refine hid.cons (fun spec he => hne ?_) a
      cases he
      rfl

/-- One item, of a sandbox that is unseen where it was not observed. -/
theorem handleAction_once {item : ReconcileItem} {t : Time} {h : List ControlExchange}
    (hitem : item.observed = none → Unseen item.id h) :
    (handleAction (decideReconcileAction item.desired item.observed t) item.desired item.observed).Tells CreatesUnseen
      (fun h' _ => ∀ id, id ≠ item.id → Unseen id h → Unseen id h') h := by
  by_cases hcreate : decideReconcileAction item.desired item.observed t = .create
  · obtain ⟨sbx, hdesired, -, hobserved⟩ := cell_of_decide hcreate
    cases item with
    | orphan info => cases hdesired
    | row desired observed =>
      obtain rfl := Option.some.inj hdesired
      rw [hcreate]
      show Program.Tells _ _ _ (if _ then _ else _)
      split
      · exact fun id _ hid => hid
      · exact handleCreate_once desired (hitem hobserved)
  · refine (handleAction_uncreating hcreate _ _).tells (fun h' c _ hc => hc.unseen h')
      (fun h' c a hk hc id hne hid => ?_) fun _ _ hid => hid
    exact (hk id hne hid).cons (fun spec => hc id spec) a

/-- The items of a pass, each unseen where it was not observed. -/
theorem reconcileItems_once {t : Time} {items : List ReconcileItem} (hn : (items.map (·.id)).Nodup)
    {h : List ControlExchange} (hitems : ∀ item ∈ items, item.observed = none → Unseen item.id h) :
    (reconcileItems t items).Tells CreatesUnseen (fun _ _ => True) h := by
  induction items generalizing h with
  | nil => trivial
  | cons item rest ih =>
    rw [List.map_cons, List.nodup_cons] at hn
    have hdecide : Uncreating (.decide item.id (decideReconcileAction item.desired item.observed t)) := by
      simp [Uncreating]
    have hunseen : ∀ other ∈ item :: rest, ∀ a, other.observed = none →
        Unseen other.id (⟨.decide item.id (decideReconcileAction item.desired item.observed t), a⟩ :: h) :=
      fun other ho a hnone => (hitems other ho hnone).cons (hdecide other.id) a
    refine ⟨hdecide.unseen h, fun a => ?_⟩
    dsimp only
    split
    · exact ih hn.2 fun other ho => hunseen other (List.mem_cons_of_mem _ ho) a
    · refine Program.Tells.bind (p := handleAction _ item.desired item.observed) ?_
      refine (handleAction_once (hunseen item (List.mem_cons_self ..) a)).mono fun h' _ hkeep => ?_
      refine Program.Tells.bind (p := reconcileItems t rest) ((ih hn.2 fun other ho hnone => ?_).mono fun _ _ _ => trivial)
      have hne : other.id ≠ item.id := fun he => hn.1 (List.mem_map.mpr ⟨other, ho, he⟩)
      exact hkeep other.id hne (hunseen other (List.mem_cons_of_mem _ ho) a hnone)

/-- **A pass** creates only what its listing has missed, and that once. -/
theorem reconcileOnce_once : (reconcileOnce false).Tells CreatesUnseen (fun _ _ => True) [] := by
  have hquiet : ∀ {c : (calls Runtime.signature).Call} (h : List ControlExchange), Uncreating c → CreatesUnseen h c :=
    fun h hc => hc.unseen h
  refine ⟨hquiet _ (by simp [Uncreating]), fun a => ?_⟩
  cases (a : Except Err (List Sandbox)) with
  | error err => trivial
  | ok sbxs =>
    refine ⟨hquiet _ (by simp [Uncreating]), fun a => ?_⟩
    cases (a : Except Err (List Runtime.Info)) with
    | error err => trivial
    | ok infos =>
      refine ⟨hquiet _ (by simp [Uncreating]), fun t => ?_⟩
      refine Program.Tells.bind (p := reconcileItems t (pairSnapshots sbxs infos)) ?_
      by_cases hn : (sbxs.map (·.sandboxID)).Nodup
      · refine (reconcileItems_once (pairSnapshots_nodup hn) fun item hm hnone => ?_).mono fun _ _ _ => trivial
        refine ⟨⟨infos, by simp, ?_⟩, by simp⟩
        rcases (mem_pairSnapshots hn).mp hm with ⟨sbx, -, rfl⟩ | ⟨info, -, -, rfl⟩
        · exact find?_indexInfos.2 hnone
        · cases hnone
      · -- two rows with one id were listed, which no table can hold
        have hcalls : (reconcileItems t (pairSnapshots sbxs infos)).Calls fun _ => True := Program.nodes_true _
        refine (hcalls.tells (I := fun h => (⟨.store .getSandboxes, Except.ok sbxs⟩ : ControlExchange) ∈ h)
          (fun h c hl _ id spec _ hd => absurd (hd sbxs hl) hn)
          (fun h c a hl _ => List.mem_cons_of_mem _ hl) (by simp)).mono fun _ _ _ => trivial

end Reconciler

/-! ## Along a run -/

/-- What a pass relies on of its runtime: `absent` says that no container carries the id and `single` that at most one
does. A listing misses none, a creation adds one to none, and nothing else adds any. -/
structure Observes {ρ : Type} (B : Backend Runtime.signature ρ) (absent single : String → ρ → Prop) : Prop where
  single_of_absent : ∀ id r, absent id r → single id r
  listed : ∀ id r infos r', B.act .list r (.ok infos) r' → (∀ info ∈ infos, info.id ≠ id) → absent id r'
  destroyed : ∀ id r r', B.act (.destroy id) r (.ok ()) r' → single id r → absent id r'
  created : ∀ id spec r a r', B.act (.create id spec) r a r' → absent id r → single id r'
  keeps : ∀ id c r a r', B.act c r a r' → (∀ spec, c ≠ .create id spec) →
    (absent id r → absent id r') ∧ (single id r → single id r')
  env : ∀ id r r', B.env r r' → (absent id r → absent id r') ∧ (single id r → single id r')

section Run
variable {ρ : Type} {B : Backend Runtime.signature ρ} {absent single : String → ρ → Prop} {ls : List ControlLabel}
  {C C' : ControlConfig ρ} {l : ControlLabel} {id : String}

/-- The world's runtime keeps what it has of an id. -/
def Keeps (absent single : String → ρ → Prop) (id : String) (w w' : World ρ) : Prop :=
  (absent id w.backend → absent id w'.backend) ∧ (single id w.backend → single id w'.backend)

theorem keeps_of_same {w w' : World ρ} (h : w'.backend = w.backend) : Keeps absent single id w w' := by
  unfold Keeps
  rw [h]
  exact ⟨fun ha => ha, fun hs => hs⟩

/-- Every call but the creation of the id. -/
theorem Observes.perform (hB : Observes B absent single) {c : (calls Runtime.signature).Call}
    (hc : ∀ spec, c ≠ .backend (.create id spec)) {w w' : World ρ} {a : (calls Runtime.signature).Answer c}
    (h : B.perform c w a w') : Keeps absent single id w w' := by
  cases c with
  | now | newSandboxID => exact keeps_of_same (by rw [h.2])
  | decide => exact keeps_of_same (by rw [show w' = w from h])
  | store c =>
    obtain ⟨f, db, -, rfl⟩ := h
    exact keeps_of_same rfl
  | backend c =>
    obtain ⟨r, hact, rfl⟩ := h
    exact hB.keeps id c _ _ _ hact fun spec he => hc spec (by rw [he])

theorem Observes.drift (hB : Observes B absent single) {w w' : World ρ} (h : B.Drift w w') :
    Keeps absent single id w w' := by
  cases h with
  | tick => exact keeps_of_same rfl
  | backend r hr => exact hB.env id _ _ hr

theorem Observes.step (hB : Observes B absent single) (hs : (controlPlane B).Step C l C')
    (hl : ∀ spec a, ¬l.Issues (.backend (.create id spec)) a) : Keeps absent single id C.shared C'.shared := by
  have hcall : ∀ c a, l.Issues c a → Keeps absent single id C.shared C'.shared := fun c a hi =>
    hB.perform (fun spec he => hl spec (he ▸ a) (by subst he; exact hi)) (hs.issued hi)
  cases hs with
  | request => exact hcall _ _ (.inr ⟨_, _, rfl⟩)
  | work => exact hcall _ _ (.inl rfl)
  | env h => exact hB.drift h
  | arrive | respond | wake | rest | crash => exact keeps_of_same rfl

/-- At most one container for each id, and none for one that the pass in flight has not seen. -/
def Sound (absent single : String → ρ → Prop) (ls : List ControlLabel) (w : World ρ) : Prop :=
  ∀ id, single id w.backend ∧ (Unseen id (passLog ls) → absent id w.backend)

/-- The rows a pass has listed are those of a table. -/
theorem distinct_passLog {C₀ : ControlConfig ρ} (h : (controlPlane B).Run Always C₀ ls C) : Distinct (passLog ls) := by
  intro sbxs hm
  obtain ⟨post, pre, rfl, -⟩ := mem_passLog hm
  obtain ⟨C₁, C₂, -, hstep, -⟩ := h.split
  obtain ⟨f, db, hexec, -⟩ := Asks.exec (B := B) (.inl rfl) hstep
  obtain ⟨hlist, -⟩ := Prod.mk.inj hexec
  exact Sqlite.getSandboxes_nodup hlist

theorem unseen_cons {c : (calls Runtime.signature).Call} {a : (calls Runtime.signature).Answer c} {h : List ControlExchange}
    (hu : Unseen id (⟨c, a⟩ :: h)) : Unseen id h ∨ ∃ infos, (⟨c, a⟩ : ControlExchange) = ⟨.backend .list, Except.ok infos⟩ ∧
      ∀ info ∈ infos, info.id ≠ id := by
  obtain ⟨⟨infos, hlist, hno⟩, hcreate⟩ := hu
  rcases List.mem_cons.mp hlist with he | hlist
  · exact .inr ⟨infos, he.symm, hno⟩
  · exact .inl ⟨⟨infos, hlist, hno⟩, fun spec x hm => hcreate spec x (List.mem_cons_of_mem _ hm)⟩

theorem Sound.step (hB : Observes B absent single) {C₀ : ControlConfig ρ} (h : (controlPlane B).Run Always C₀ ls C)
    (h₀ : C₀.worker = none) (hrequests : Obeys (fun _ c _ => Recording c) (fun _ _ => True) C)
    (hsound : Sound absent single ls C.shared) (hs : (controlPlane B).Step C l C') :
    Sound absent single (l :: ls) C'.shared := by
  intro id
  obtain ⟨hsingle, habsent⟩ := hsound id
  by_cases hwork : ∃ c a, l = .work c a
  · obtain ⟨c, a, rfl⟩ := hwork
    have hact := hs.issued (.inl rfl)
    by_cases hcreate : ∃ spec, c = .backend (.create id spec)
    · obtain ⟨spec, rfl⟩ := hcreate
      have hunseen : Unseen id (passLog ls) :=
        h.work_tells (T := CreatesUnseen) Reconciler.reconcileOnce_once h₀ hs id spec rfl (distinct_passLog h)
      obtain ⟨r, hr, hshared⟩ := hact
      rw [hshared]
      refine ⟨hB.created id spec _ a _ hr (habsent hunseen), fun hu => ?_⟩
      exact absurd (List.mem_cons_self ..) (hu.2 spec a)
    · have hnone : ∀ spec, c ≠ .backend (.create id spec) := fun spec he => hcreate ⟨spec, he⟩
      have hkeeps := hB.perform hnone hact
      refine ⟨hkeeps.2 hsingle, fun hu => ?_⟩
      rcases unseen_cons hu with hu | ⟨infos, he, hno⟩
      · exact hkeeps.1 (habsent hu)
      · cases he
        obtain ⟨r, hr, hshared⟩ := hact
        rw [hshared]
        exact hB.listed id _ infos _ hr hno
  · have hkeeps : Keeps absent single id C.shared C'.shared := by
      refine hB.step hs fun spec a hi => ?_
      rcases hi with rfl | ⟨n, i, rfl⟩
      · exact hwork ⟨_, a, rfl⟩
      · obtain ⟨next, hcall, -⟩ := hs.request_node hrequests
        exact hcall
    refine ⟨hkeeps.2 hsingle, fun hu => hkeeps.1 (habsent ?_)⟩
    by_cases hwake : l = .wake
    · subst hwake
      obtain ⟨⟨infos, hlist, -⟩, -⟩ := hu
      cases hlist
    · rwa [passLog_of_ne hwake fun c a he => hwork ⟨c, a, he⟩] at hu

/-- **No id has two containers** in any state of any run, whatever fails or crashes. -/
theorem sound_run (hB : Observes B absent single) {w₀ : World ρ} (h₀ : ∀ id, single id w₀.backend)
    (h : (controlPlane B).Run Always (.idle w₀) ls C) : Sound absent single ls C.shared := by
  induction h with
  | nil => exact fun id => ⟨h₀ id, fun hu => by obtain ⟨⟨infos, hlist, -⟩, -⟩ := hu; cases hlist⟩
  | cons hr _ hs ih =>
    have hobeys := hr.obeys (P := fun _ c _ => Recording c) (W := fun _ _ => True) Request.handle_recording
      (Program.nodes_true _) (obeys_idle _)
    exact ih.step hB hr rfl hobeys hs

end Run

/-! ## The runtimes that miss nothing -/

theorem Backend.fleet_observes : Observes Backend.fleet (fun id f => f.containers.find? id = none) fun _ _ => True where
  single_of_absent _ _ _ := trivial
  listed := by
    rintro id f infos f' h hno
    obtain ⟨hinfos, rfl⟩ := Prod.mk.inj h
    obtain rfl := Except.ok.inj hinfos
    rw [Relational.Table.find?_eq_none_iff]
    intro hm
    obtain ⟨info, hinfo, rfl⟩ := List.mem_map.mp hm
    exact hno info hinfo rfl
  destroyed := by
    rintro id f f' h -
    obtain ⟨-, rfl⟩ := Prod.mk.inj h
    rw [Fleet.find?_remove, if_pos rfl]
  created _ _ _ _ _ _ _ := trivial
  keeps := by
    rintro id c f a f' h hc
    obtain ⟨-, rfl⟩ := Prod.mk.inj h
    refine ⟨fun hnone => ?_, fun _ => trivial⟩
    cases c with
    | create id' spec =>
      have hne : id ≠ id' := fun he => hc spec (by rw [he])
      exact (Fleet.find?_put f _ id).trans ((if_neg hne).trans hnone)
    | destroy id' =>
      refine (Fleet.find?_remove f id' id).trans ?_
      split
      · rfl
      · exact hnone
    | list => exact hnone
  env _ _ _ h := h.elim

namespace Docker

/-- At most one container carries the id. -/
def Single (id : String) (d : Daemon) : Prop :=
  ∀ c ∈ d.containers.rows, ∀ c' ∈ d.containers.rows, Carries id c → Carries id c' → c = c'

/-- What carries the id after carried it before. -/
def Inherits (id : String) (d d' : Daemon) : Prop :=
  ∀ c' ∈ d'.containers.rows, Carries id c' → ∃ c ∈ d.containers.rows, c.id = c'.id ∧ Carries id c

section Methods
variable {w w' : World Daemon} {log : List (Exchange (calls signature))} {id : String} {d d' : Daemon}

theorem Inherits.free (h : Inherits id d d') (hfree : Free id d) : Free id d' := by
  intro c' hc' hid
  obtain ⟨c, hc, -, hcid⟩ := h c' hc' hid
  exact hfree c hc hcid

theorem Inherits.single (h : Inherits id d d') (hsingle : Single id d) : Single id d' := by
  intro c₁ h₁ c₂ h₂ hid₁ hid₂
  obtain ⟨c, hc, he, hcid⟩ := h c₁ h₁ hid₁
  obtain ⟨c', hc', he', hcid'⟩ := h c₂ h₂ hid₂
  have hsame := hsingle c hc c' hc' hcid hcid'
  exact Relational.Table.eq_of_key h₁ h₂ (by rw [← he, ← he', hsame])

theorem inherits_of_moves (h : Daemon.Moves d d') : Inherits id d d' := by
  intro c' hc' hid
  obtain ⟨c, hc, he, hlabels⟩ := h c' hc' hid.managed
  exact ⟨c, hc, he, by rwa [Carries, hlabels]⟩

/-- A container made for another id does not carry this one. -/
theorem inherits_of_makes {made : String} (hne : made ≠ id) (h : Makes made d d') : Inherits id d d' := by
  obtain ⟨containerID, hmade⟩ := h
  intro c' hc' hid
  rcases hmade c' hc' hid.managed with ⟨c, hc, he, hlabels⟩ | ⟨-, hlabels⟩
  · exact ⟨c, hc, he, by rwa [Carries, hlabels]⟩
  · have hget := (managedSandboxID_eq_some_iff.mp hid).2.1
    rw [hlabels] at hget
    exact absurd (by rw [← hget]; simp [StringMap.get, managedLabels_entries]) hne.symm

theorem list_finishes {r : Except Err (List Runtime.Info)} (h : Finishes list w log r w') :
    w'.backend = w.backend ∧ ∀ infos, r = .ok infos → ∀ id, (∀ info ∈ infos, info.id ≠ id) → Free id w'.backend := by
  obtain ⟨w₁, a, w₂, rest, hsame, ⟨d, hact, rfl⟩, -, h⟩ := h
  have hact : d = w₁.backend ∧ ∀ items, a = .ok items → ∀ c, c ∈ items ↔
      c ∈ w₁.backend.containers.rows ∧ Daemon.listed (labelFilter managedMarkerLabels) c = true := hact
  obtain ⟨rfl, hitems⟩ := hact
  cases a with
  | error e =>
    obtain ⟨-, rfl, hlast⟩ := h
    exact ⟨Eq.trans hlast hsame, fun _ he => nomatch he⟩
  | ok items =>
    obtain ⟨-, rfl, hlast⟩ := h
    refine ⟨Eq.trans hlast hsame, fun infos he id hno c hc hid => ?_⟩
    obtain rfl := Except.ok.inj he
    have hmem : c ∈ items := by
      rw [show w'.backend = w₁.backend from hlast] at hc
      refine (hitems items rfl c).mpr ⟨hc, ?_⟩
      rw [Daemon.listed_managedMarkerLabels]
      exact hid.managed
    have hinfo : infoOf c = some ⟨id, stateFromContainerState c.state, createdAtFromUnix c.created⟩ := by
      rw [infoOf, show managedSandboxID c.labels = some id from hid]
      rfl
    exact hno _ (List.mem_filterMap.mpr ⟨c, hmem, hinfo⟩) rfl

theorem destroy_inherits {gone : String} {r : Except Err Unit} (h : Finishes (destroy gone) w log r w') :
    Inherits id w.backend w'.backend := by
  rcases destroy_finishes h with ⟨-, -, hb⟩ | ⟨c, -, -, hb⟩ | ⟨hb, -⟩
  · exact inherits_of_moves (hb ▸ moves_refl _)
  · exact inherits_of_moves (hb ▸ moves_remove _ _)
  · exact inherits_of_moves (hb ▸ moves_refl _)

end Methods

/-- **Docker misses nothing**. -/
theorem docker_observes (host : Host) : Observes (runtimeBackend host) Free Single where
  single_of_absent _ _ hfree c hc _ _ hid _ := absurd hid (hfree c hc)
  listed := by
    rintro id d infos d' ⟨w, log, w', rfl, rfl, h⟩ hno
    exact (list_finishes (finishes_of_clean h)).2 infos rfl id hno
  destroyed := by
    rintro id d d' ⟨w, log, w', rfl, rfl, h⟩ hsingle
    rcases destroy_finishes (finishes_of_clean h) with ⟨-, habsent, hb⟩ | ⟨c, hc, hid, hb⟩ | ⟨-, hr⟩
    · rw [hb]
      exact habsent
    · rw [hb]
      exact free_remove fun c' hc' hid' => by rw [hsingle c' hc' c hc hid' hid]
    · exact absurd rfl hr
  created := by
    rintro id spec d a d' ⟨w, log, w', rfl, rfl, h⟩ hfree
    have hsole : Sole id w := fun c hc _ _ hid _ => absurd hid (hfree c hc)
    exact hsole.makes hfree (create_finishes (finishes_of_clean h))
  keeps := by
    rintro id c d a d' ⟨w, log, w', rfl, rfl, h⟩ hc
    have hinherits : Inherits id w.backend w'.backend := by
      cases c with
      | create made spec =>
        have hne : made ≠ id := by
          rintro rfl
          exact hc spec rfl
        exact inherits_of_makes hne (create_finishes (finishes_of_clean h))
      | destroy gone => exact destroy_inherits (finishes_of_clean h)
      | list => exact inherits_of_moves (moves_of_same (list_finishes (finishes_of_clean h)).1)
    exact ⟨hinherits.free, hinherits.single⟩
  env _ _ _ h := ⟨(inherits_of_moves h).free, (inherits_of_moves h).single⟩

end Docker
end Quickspin
