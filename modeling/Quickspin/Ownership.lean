import Quickspin.Docker
import Quickspin.Pairing

/-! Ownership across the store and the daemon. The two worlds share no transaction; what holds them together
is what the pass in flight knows. Only the reconciler makes containers, and only it takes a row out of
pending, so what it has seen of a sandbox stays true until it acts on it, whatever fails or crashes. -/
namespace Quickspin
open Interaction Service Relational
set_option autoImplicit false

/-! ## Owned containers -/

/-- The container is ours and carries the sandbox id. -/
def Carries (id : String) (c : Docker.Summary) : Prop := Docker.managedSandboxID c.labels = some id

theorem Carries.managed {id : String} {c : Docker.Summary} (h : Carries id c) : Docker.isManaged c.labels = true :=
  (Docker.managedSandboxID_eq_some_iff.mp h).1

/-- Every managed container carries the id of a row, no two carry one id, and a stopped row has none. -/
structure Owned (w : World Daemon) : Prop where
  row : ∀ c ∈ w.backend.containers.rows, Docker.isManaged c.labels = true →
    ∃ id row, Carries id c ∧ w.db.sandbox? id = some row
  single : ∀ id, ∀ c ∈ w.backend.containers.rows, ∀ c' ∈ w.backend.containers.rows, Carries id c → Carries id c' → c = c'
  stopped : ∀ id row, w.db.sandbox? id = some row → row.state = .stopped → ∀ c ∈ w.backend.containers.rows, ¬Carries id c

/-! ## What stays true -/

/-- No container of the ids in `P` has come, and no row of theirs has left pending. -/
structure Quiet (P : String → Prop) (w w' : World Daemon) : Prop where
  containers : ∀ id, P id → ∀ c' ∈ w'.backend.containers.rows, Carries id c' →
    ∃ c ∈ w.backend.containers.rows, c.id = c'.id ∧ Carries id c
  pending : ∀ id, P id → ∀ row, w.db.sandbox? id = some row → row.state = .pending →
    ∃ row', w'.db.sandbox? id = some row' ∧ row'.state = .pending

/-- What the pass in flight can rely on: nothing it has not done itself. -/
abbrev Rely : World Daemon → World Daemon → Prop := Quiet fun _ => True

section Quiet
variable {P Q : String → Prop} {w w₁ w₂ : World Daemon}

theorem Quiet.refl (P : String → Prop) (w : World Daemon) : Quiet P w w :=
  ⟨fun _ _ c hc hid => ⟨c, hc, rfl, hid⟩, fun _ _ row hrow hs => ⟨row, hrow, hs⟩⟩

theorem Quiet.trans (h₁ : Quiet P w w₁) (h₂ : Quiet P w₁ w₂) : Quiet P w w₂ where
  containers id hP c hc hid := by
    obtain ⟨c₁, hc₁, he₁, hid₁⟩ := h₂.containers id hP c hc hid
    obtain ⟨c₀, hc₀, he₀, hid₀⟩ := h₁.containers id hP c₁ hc₁ hid₁
    exact ⟨c₀, hc₀, he₀.trans he₁, hid₀⟩
  pending id hP row hrow hs := by
    obtain ⟨row₁, hrow₁, hs₁⟩ := h₁.pending id hP row hrow hs
    exact h₂.pending id hP row₁ hrow₁ hs₁

theorem Quiet.mono (h : Quiet P w w₁) (hPQ : ∀ id, Q id → P id) : Quiet Q w w₁ :=
  ⟨fun id hQ => h.containers id (hPQ id hQ), fun id hQ => h.pending id (hPQ id hQ)⟩

/-- What nobody does, nobody does to the ids in `P`. -/
theorem Quiet.of_rely (h : Rely w w₁) : Quiet P w w₁ := h.mono fun _ _ => trivial

/-- No container carries the id. -/
def Absent (id : String) (w : World Daemon) : Prop := ∀ c ∈ w.backend.containers.rows, ¬Carries id c

/-- The row of the id is pending. -/
def Pending (id : String) (w : World Daemon) : Prop := ∃ row, w.db.sandbox? id = some row ∧ row.state = .pending

/-- Only the container `containerID` can carry the id. -/
def OnlyBy (id containerID : String) (w : World Daemon) : Prop :=
  ∀ c ∈ w.backend.containers.rows, Carries id c → c.id = containerID

theorem Absent.quiet {id : String} (h : Absent id w) (hq : Quiet P w w₁) (hP : P id) : Absent id w₁ := by
  intro c hc hid
  obtain ⟨c₀, hc₀, -, hid₀⟩ := hq.containers id hP c hc hid
  exact h c₀ hc₀ hid₀

theorem Pending.quiet {id : String} (h : Pending id w) (hq : Quiet P w w₁) (hP : P id) : Pending id w₁ := by
  obtain ⟨row, hrow, hs⟩ := h
  exact hq.pending id hP row hrow hs

theorem OnlyBy.quiet {id containerID : String} (h : OnlyBy id containerID w) (hq : Rely w w₁) :
    OnlyBy id containerID w₁ := by
  intro c hc hid
  obtain ⟨c₀, hc₀, he, hid₀⟩ := hq.containers id trivial c hc hid
  rw [← he]
  exact h c₀ hc₀ hid₀

end Quiet

/-! ## The daemon's side of a step -/

section Daemon
variable {w : World Daemon} {d : Daemon}

/-- Where the managed containers were there before, nothing has come. -/
theorem Owned.moves (h : Owned w) (hm : Daemon.Moves w.backend d) :
    Owned { w with backend := d } ∧ Rely w { w with backend := d } := by
  have back : ∀ c' ∈ d.containers.rows, ∀ id, Carries id c' →
      ∃ c ∈ w.backend.containers.rows, c.id = c'.id ∧ Carries id c := by
    intro c' hc' id hid
    obtain ⟨c, hc, he, hlabels⟩ := hm c' hc' hid.managed
    exact ⟨c, hc, he, by rwa [Carries, hlabels]⟩
  refine ⟨⟨fun c' hc' hmanaged => ?_, fun id c hc c' hc' hid hid' => ?_, fun id row hrow hs c' hc' hid => ?_⟩,
    fun id _ c' hc' hid => back c' hc' id hid, fun id _ row hrow hs => ⟨row, hrow, hs⟩⟩
  · obtain ⟨c, hc, -, hlabels⟩ := hm c' hc' hmanaged
    obtain ⟨id, row, hid, hrow⟩ := h.row c hc (by rw [hlabels, hmanaged])
    exact ⟨id, row, by rwa [Carries, ← hlabels], hrow⟩
  · obtain ⟨c₀, hc₀, he, hid₀⟩ := back c hc id hid
    obtain ⟨c₀', hc₀', he', hid₀'⟩ := back c' hc' id hid'
    have hsame : c₀ = c₀' := h.single id c₀ hc₀ c₀' hc₀' hid₀ hid₀'
    exact Table.eq_of_key hc hc' (by rw [← he, ← he', hsame])
  · obtain ⟨c, hc, -, hid⟩ := back c' hc' id hid
    exact h.stopped id row hrow hs c hc hid

theorem moves_refl (d : Daemon) : Daemon.Moves d d := fun c hc _ => ⟨c, hc, rfl, rfl⟩

theorem moves_remove (d : Daemon) (containerID : String) : Daemon.Moves d (d.remove containerID) :=
  fun c hc _ => ⟨c, (List.mem_filter.mp hc).1, rfl, rfl⟩

theorem moves_start (d : Daemon) (containerID : String) : Daemon.Moves d (d.start containerID) := by
  intro c hc _
  obtain ⟨c₀, hc₀, rfl⟩ := List.mem_map.mp hc
  refine ⟨c₀, hc₀, ?_, ?_⟩ <;> split <;> rfl

theorem moves_act {c : Docker.Call} {a : c.Answer} {d d' : Daemon} (hc : ∀ config host, c ≠ .containerCreate config host)
    (h : Daemon.act c d a d') : Daemon.Moves d d' := by
  cases c with
  | containerList => exact h.1 ▸ moves_refl d
  | imagePull | pullWait =>
    obtain rfl : d' = d := h
    exact moves_refl d'
  | containerCreate config host => exact absurd rfl (hc config host)
  | containerStart id =>
    rcases h with rfl | ⟨rfl, -⟩
    · exact moves_start d id
    · exact moves_refl d'
  | containerRemove id =>
    rcases h with rfl | ⟨rfl, -⟩
    · exact moves_remove d id
    · exact moves_refl d'

theorem mem_put {d : Daemon} {c c' : Docker.Summary} (h : c' ∈ (d.put c).containers.rows) :
    c' ∈ d.containers.rows ∨ c' = c := by
  rcases List.mem_append.mp h with hm | hm
  · exact .inl (List.mem_filter.mp hm).1
  · exact .inr (List.mem_singleton.mp hm)

/-- A container made for a pending row that has none. -/
theorem Owned.put {id : String} {c : Docker.Summary} (h : Owned w) (ha : Absent id w) (hp : Pending id w)
    (hc : Carries id c) :
    Owned { w with backend := w.backend.put c } ∧ Quiet (· ≠ id) w { w with backend := w.backend.put c } := by
  have hother : ∀ id', Carries id' c → id' = id := fun id' hid' => Option.some.inj (hid'.symm.trans hc)
  obtain ⟨row, hrow, hpending⟩ := hp
  refine ⟨⟨fun c' hc' hmanaged => ?_, fun id' c₁ h₁ c₂ h₂ hid₁ hid₂ => ?_, fun id' row' hrow' hs c' hc' hid' => ?_⟩,
    fun id' hne c' hc' hid' => ?_, fun id' _ row' hrow' hs => ⟨row', hrow', hs⟩⟩
  · rcases mem_put hc' with hc' | rfl
    · exact h.row c' hc' hmanaged
    · exact ⟨id, row, hc, hrow⟩
  · rcases mem_put h₁ with hold₁ | rfl <;> rcases mem_put h₂ with hold₂ | rfl
    · exact h.single id' c₁ hold₁ c₂ hold₂ hid₁ hid₂
    · exact absurd (hother id' hid₂ ▸ hid₁) (ha c₁ hold₁)
    · exact absurd (hother id' hid₁ ▸ hid₂) (ha c₂ hold₂)
    · rfl
  · rcases mem_put hc' with hc' | rfl
    · exact h.stopped id' row' hrow' hs c' hc' hid'
    · obtain rfl := hother id' hid'
      obtain rfl := Option.some.inj (hrow.symm.trans hrow')
      rw [hpending] at hs
      cases hs
  · rcases mem_put hc' with hc' | rfl
    · exact ⟨c', hc', rfl, hid'⟩
    · exact absurd (hother id' hid') hne

end Daemon

/-! ## The store's side of a step -/

section Store
variable {w : World Daemon} {c : StoreCall} {db : Database}

/-- A store call stops a row only where no container is left. -/
theorem Owned.store (h : Owned w) (he : c.Effect w.clock w.db db)
    (hstop : ∀ id a reason v, c = .updateSandboxState id a .stopped reason v → Absent id w) :
    Owned { w with db } := by
  refine ⟨fun c' hc' hmanaged => ?_, h.single, fun id row' hrow' hs c' hc' hid => ?_⟩
  · obtain ⟨id, row, hid, hrow⟩ := h.row c' hc' hmanaged
    rcases he.row hrow with ⟨hrow', -⟩ | ⟨_, -, -, hrow', -⟩ | ⟨_, _, _, -, -, hrow', -⟩
    · exact ⟨id, _, hid, hrow'⟩
    · exact ⟨id, _, hid, hrow'⟩
    · exact ⟨id, _, hid, hrow'⟩
  · rcases hrow : w.db.sandbox? id with _ | row
    · rcases he.absent hrow with hrow'' | ⟨key, spec, expiresAt, -, hcreated⟩
      · rw [hrow''] at hrow'
        cases hrow'
      · obtain ⟨n, hfind⟩ := hcreated.sandbox
        rw [show db.sandbox? id = _ from (hfind id).trans (if_pos rfl)] at hrow'
        rw [← Option.some.inj hrow'] at hs
        cases hs
    · rcases he.row hrow with ⟨hrow'', -⟩ | ⟨_, -, -, hrow'', -⟩ | ⟨b, reason, _, rfl, -, hrow'', -⟩
      · obtain rfl := Option.some.inj (hrow''.symm.trans hrow')
        exact h.stopped id _ hrow hs c' hc' hid
      · obtain rfl := Option.some.inj (hrow''.symm.trans hrow')
        exact h.stopped id _ hrow hs c' hc' hid
      · obtain rfl := Option.some.inj (hrow''.symm.trans hrow')
        obtain rfl : b = .stopped := hs
        exact hstop id _ reason _ rfl c' hc' hid

/-- A store call that takes no row of the ids in `P` out of pending. -/
theorem quiet_store {P : String → Prop} (he : c.Effect w.clock w.db db)
    (hpend : ∀ id b reason v, c = .updateSandboxState id .pending b reason v → ¬P id) : Quiet P w { w with db } := by
  refine ⟨fun _ _ c' hc' hid => ⟨c', hc', rfl, hid⟩, fun id hP row hrow hs => ?_⟩
  rcases he.row hrow with ⟨hrow', -⟩ | ⟨_, -, -, hrow', -⟩ | ⟨b, reason, _, rfl, -, -, -⟩
  · exact ⟨row, hrow', hs⟩
  · exact ⟨_, hrow', hs⟩
  · exact absurd hP (hpend id b reason _ (by rw [hs]))

end Store

/-! ## Threads -/

/-- A thread that keeps the containers owned, and ends in `Q`, whatever the others do within `Rely`. -/
abbrev Safely {α : Type} (Q : α → World Daemon → Prop) (p : Program (calls Docker.signature) α) (w : World Daemon) :
    Prop :=
  p.Safe (fun c s a s' => True ∧ Backend.docker.perform c s a s') Owned Rely (fun _ _ => True) Q w

section Threads
variable {α β : Type} {Q : α → World Daemon → Prop} {w : World Daemon} {id : String}

theorem rely_trans (a b c : World Daemon) (h₁ : Rely a b) (h₂ : Rely b c) : Rely a c := h₁.trans h₂

theorem safely_done {a : α} (h : ∀ w', Rely w w' → Q a w') : Safely Q (.done a) w := fun w' hr _ => h w' hr

theorem safely_bind {p : Program (calls Docker.signature) β} {f : β → Program (calls Docker.signature) α}
    (hp : Safely (fun b w' => Safely Q (f b) w') p w) : Safely Q (p >>= f) w :=
  Program.Safe.bind (p := p) (Quiet.refl _) hp

theorem safely_daemon {c : Docker.Call} {next : c.Answer → Program (calls Docker.signature) α}
    (hc : ∀ config host, c ≠ .containerCreate config host)
    (hnext : ∀ w₁ a w₂, Rely w w₁ → Owned w₁ → Rely w₁ w₂ → Daemon.act c w₁.backend a w₂.backend → w₂.db = w₁.db →
      Safely Q (next a) w₂) :
    Safely Q (.call (.backend c) next) w := by
  intro w₁ hr ho a w₂ ha
  obtain ⟨d, hact, rfl⟩ := ha.2
  have hmoves := ho.moves (moves_act hc hact)
  exact ⟨hmoves.1, trivial, hnext w₁ a _ hr ho hmoves.2 hact rfl⟩

theorem safely_still {c : (calls Docker.signature).Call} {next : (calls Docker.signature).Answer c →
      Program (calls Docker.signature) α}
    (hc : ∀ w a w', Backend.docker.perform c w a w' → w' = w) (hnext : ∀ w₁ a, Rely w w₁ → Safely Q (next a) w₁) :
    Safely Q (.call c next) w := by
  intro w₁ hr ho a w₂ ha
  obtain rfl := hc _ _ _ ha.2
  exact ⟨ho, trivial, hnext w₂ a hr⟩

/-- A transition by the pass of a sandbox that it may stop only where no container is left. -/
theorem safely_transition {a b : TaskState} {reason : String} {v : ℤ}
    {next : Except Err Sandbox → Program (calls Docker.signature) α} (hb : b = .stopped → Absent id w)
    (hnext : ∀ r w₂, Quiet (· ≠ id) w w₂ → Safely Q (next r) w₂) :
    Safely Q (.call (.store (.updateSandboxState id a b reason v)) next) w := by
  intro w₁ hr ho r w₂ ha
  obtain ⟨f, db, he, rfl⟩ := ha.2
  have heff := StoreCall.effect he
  have hquiet : Quiet (· ≠ id) w₁ { w₁ with db } := quiet_store heff fun id' _ _ _ hc => by
    cases hc
    simp
  refine ⟨ho.store heff fun id' _ _ _ hc => ?_, trivial, hnext r _ ((Quiet.of_rely hr).trans hquiet)⟩
  cases hc
  exact (hb rfl).quiet hr trivial

end Threads

/-! ### The runtime's methods -/

namespace Docker
variable {w : World Daemon} {id : String}

theorem pullImage_safely (image : String) : Safely (fun _ w' => Rely w w') (pullImage image) w := by
  refine safely_daemon (by simp) fun w₁ a w₂ h₁ _ h₂ _ _ => ?_
  cases (a : Except DaemonError Unit) with
  | error e => exact safely_done fun w' h => (h₁.trans h₂).trans h
  | ok u =>
    refine safely_daemon (by simp) fun w₃ a w₄ h₃ _ h₄ _ _ => ?_
    have hr := ((h₁.trans h₂).trans h₃).trans h₄
    cases (a : Except DaemonError Unit) with
    | error e => exact safely_done fun w' h => hr.trans h
    | ok u => exact safely_done fun w' h => hr.trans h

/-- A removed container is gone for good: nobody but the pass makes one. -/
theorem removeContainer_safely (containerID : String) :
    Safely (fun r w' => Rely w w' ∧ (r = .ok () → ∀ id, OnlyBy id containerID w → Absent id w'))
      (removeContainer containerID) w := by
  refine safely_daemon (by simp) fun w₁ a w₂ h₁ _ h₂ hact _ => ?_
  have hr := h₁.trans h₂
  have habsent : ∀ id, OnlyBy id containerID w → (∀ c ∈ w₂.backend.containers.rows, c.id ≠ containerID) →
      ∀ w', Rely w₂ w' → Absent id w' := fun id honly hgone w' h =>
    Absent.quiet (fun c hc hid => hgone c hc ((honly.quiet hr) c hc hid)) h trivial
  have hfilter : w₂.backend = w₁.backend.remove containerID →
      ∀ c ∈ w₂.backend.containers.rows, c.id ≠ containerID := by
    intro he c hc
    rw [he] at hc
    simpa using (List.mem_filter.mp hc).2
  cases ha : (a : Except DaemonError Unit) with
  | ok u =>
    refine safely_done fun w' h => ⟨hr.trans h, fun _ id honly => ?_⟩
    rcases hact with he | ⟨-, e, he, -⟩
    · exact habsent id honly (hfilter he) w' h
    · rw [ha] at he
      cases he
  | error e =>
    show Safely _ (if e.notFound then _ else _) w₂
    split
    · next hnf =>
      refine safely_done fun w' h => ⟨hr.trans h, fun _ id honly => ?_⟩
      rcases hact with he | ⟨he, e', hae, hnone⟩
      · exact habsent id honly (hfilter he) w' h
      · rw [ha] at hae
        cases hae
        refine habsent id honly (fun c hc hcid => ?_) w' h
        have hfind := hnone hnf
        rw [he] at hc
        rw [← hcid, Table.find?_of_mem hc] at hfind
        cases hfind
    · exact safely_done fun w' h => ⟨hr.trans h, fun h => nomatch h⟩

theorem cleanupFailed_safely (op sandboxID containerID : String) (cause : Err) :
    Safely (fun _ w' => Rely w w') (cleanupFailed op sandboxID containerID cause) w := by
  refine safely_bind ((removeContainer_safely containerID).mono fun r w₁ hr => ?_)
  cases r with
  | error e => exact safely_done fun w' h => hr.1.trans h
  | ok u => exact safely_done fun w' h => hr.1.trans h

theorem list_safely : Safely (fun r w' => Rely w w' ∧ ∀ infos, r = .ok infos →
    ∀ id, (∀ info ∈ infos, info.id ≠ id) → Absent id w') list w := by
  refine safely_daemon (by simp) fun w₁ a w₂ h₁ _ h₂ hact _ => ?_
  cases ha : (a : Except DaemonError (List Summary)) with
  | error e => exact safely_done fun w' h => ⟨(h₁.trans h₂).trans h, fun _ h => nomatch h⟩
  | ok items =>
    refine safely_done fun w' h => ⟨(h₁.trans h₂).trans h, fun infos hi id hno => ?_⟩
    obtain rfl := Except.ok.inj hi
    refine Absent.quiet (w := w₂) (fun c hc hid => ?_) h trivial
    have hmem : c ∈ items := by
      rw [hact.1] at hc
      refine (hact.2 items ha c).mpr ⟨hc, ?_⟩
      rw [Daemon.listed_managedMarkerLabels]
      exact Carries.managed hid
    have hinfo : infoOf c = some ⟨id, stateFromContainerState c.state, createdAtFromUnix c.created⟩ := by
      rw [infoOf, show managedSandboxID c.labels = some id from hid]
      rfl
    exact hno _ (List.mem_filterMap.mpr ⟨c, hmem, hinfo⟩) rfl

theorem getContainerBysandboxID_safely : Safely (fun r w' => Rely w w' ∧ (∀ c, r = .ok c → OnlyBy id c.id w') ∧
    ∀ e, r = .error e → e.is .runtimeNotFound = true → Absent id w') (getContainerBysandboxID id) w := by
  unfold getContainerBysandboxID
  cases hv : validateSandboxID id with
  | error e =>
    rw [validateSandboxID_error hv]
    refine safely_done fun w' h => ⟨h, fun _ h => (nomatch h), fun e he hnf => ?_⟩
    obtain rfl := Except.error.inj he
    simp at hnf
  | ok u =>
    refine safely_daemon (by simp) fun w₁ a w₂ h₁ ho h₂ hact _ => ?_
    cases ha : (a : Except DaemonError (List Summary)) with
    | error e =>
      refine safely_done fun w' h => ⟨(h₁.trans h₂).trans h, fun _ h => (nomatch h), fun e' he hnf => ?_⟩
      obtain rfl := Except.error.inj he
      simp [DaemonError.err] at hnf
    | ok items =>
      have hlisted := hact.2 items ha
      have hsame := hact.1
      dsimp only [Program.bind]
      split
      · next c hfind =>
        have hcid : managedSandboxID c.labels = some id := by simpa using List.find?_some hfind
        have hc := ((hlisted c).mp (List.mem_of_find?_eq_some hfind)).1
        have honly : OnlyBy id c.id w₂ := fun c' hc' hid' => by
          rw [hsame] at hc'
          rw [ho.single id c' hc' c hc hid' hcid]
        refine safely_done fun w' h => ⟨(h₁.trans h₂).trans h, fun c' he => ?_, fun _ he => nomatch he⟩
        obtain rfl := Except.ok.inj he
        exact honly.quiet h
      · next hnone =>
        refine safely_done fun w' h => ⟨(h₁.trans h₂).trans h, fun _ he => (nomatch he), fun _ _ _ => ?_⟩
        refine Absent.quiet (w := w₂) (fun c hc hid => ?_) h trivial
        rw [hsame] at hc
        have hmem := (hlisted c).mpr ⟨hc, Daemon.listed_managedLabels hid⟩
        have hno : managedSandboxID c.labels ≠ some id := by simpa using List.find?_eq_none.mp hnone c hmem
        exact hno hid

/-- **Destroy**: success leaves no container of the sandbox. -/
theorem destroy_safely : Safely (fun r w' => Rely w w' ∧ (r = .ok () → Absent id w')) (destroy id) w := by
  refine safely_bind (getContainerBysandboxID_safely.mono fun r w₁ hr => ?_)
  obtain ⟨h₁, honly, hnone⟩ := hr
  cases r with
  | error e =>
    dsimp only
    split
    · next hnf => exact safely_done fun w' h => ⟨h₁.trans h, fun _ => (hnone e rfl hnf).quiet h trivial⟩
    · exact safely_done fun w' h => ⟨h₁.trans h, fun h => nomatch h⟩
  | ok c =>
    refine safely_bind ((removeContainer_safely c.id).mono fun r w₂ hr => ?_)
    cases r with
    | error e => exact safely_done fun w' h => ⟨(h₁.trans hr.1).trans h, fun h => nomatch h⟩
    | ok u =>
      exact safely_done fun w' h => ⟨(h₁.trans hr.1).trans h, fun _ => (hr.2 rfl id (honly c rfl)).quiet h trivial⟩

/-- **Create** for a pending row without a container touches no other sandbox. -/
theorem create_safely (host : Host) (spec : Runtime.Spec) (ha : Absent id w) (hp : Pending id w) :
    Safely (fun _ w' => Quiet (· ≠ id) w w') (create host id spec) w := by
  unfold create
  cases hv : validateSandboxID id with
  | error e => exact safely_done fun w' h => .of_rely h
  | ok u =>
    cases hconfig : newContainerConfigs host spec id with
    | error e => exact safely_done fun w' h => .of_rely h
    | ok configs =>
      obtain ⟨config, hostConfig⟩ := configs
      have hlabels := newContainerConfigs_labels hconfig
      refine safely_bind ((pullImage_safely spec.image).mono fun r w₁ h₁ => ?_)
      cases r with
      | error e => exact safely_done fun w' h => .of_rely (h₁.trans h)
      | ok u =>
        -- the one call that makes a container
        intro w₂ h₂ ho a w₃ hact
        have hr := h₁.trans h₂
        have hstep : Owned w₃ ∧ Quiet (· ≠ id) w₂ w₃ := by
          obtain ⟨d, hcreate, rfl⟩ := hact.2
          have hcarries : ∀ containerID state created, Carries id ⟨containerID, config.labels, state, created⟩ := by
            intro containerID state created
            rw [Carries, hlabels]
            exact managedSandboxID_managedLabels hv
          rcases hcreate with ⟨created, containerID, -, rfl, -⟩ | ⟨rfl, -⟩
          · exact ho.put (ha.quiet hr trivial) (hp.quiet hr trivial) (hcarries _ _ _)
          · exact ⟨ho, .refl _ _⟩
        have hq : Quiet (· ≠ id) w w₃ := (Quiet.of_rely hr).trans hstep.2
        refine ⟨hstep.1, trivial, ?_⟩
        cases (a : Except DaemonError String) with
        | error e => exact safely_done fun w' h => hq.trans (.of_rely h)
        | ok containerID =>
          refine safely_daemon (by simp) fun w₄ a w₅ h₄ _ h₅ _ _ => ?_
          have hq' := hq.trans (.of_rely (h₄.trans h₅))
          cases (a : Except DaemonError Unit) with
          | error e =>
            refine safely_bind (p := cleanupFailed _ _ _ _) ((cleanupFailed_safely _ _ _ _).mono fun _ w₆ h₆ => ?_)
            exact safely_done fun w' h => hq'.trans (.of_rely (h₆.trans h))
          | ok u =>
            refine safely_still (fun _ _ _ h => h.2) fun w₆ t h₆ => ?_
            exact safely_done fun w' h => hq'.trans (.of_rely (h₆.trans h))

end Docker

end Quickspin
