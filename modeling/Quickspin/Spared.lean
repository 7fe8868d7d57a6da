import Quickspin.Observation
import Quickspin.OwnedRuns
import Quickspin.Steady

/-! One sandbox while its containers are left alone by all but its own calls. What a listing has of it is the ids and the
states of the containers that carry its id; each call of the daemon changes that in one way, and a pass about other
sandboxes does not change it. -/
namespace Quickspin
open Interaction Relational
set_option autoImplicit false

namespace Docker

/-! ## What a listing has of a sandbox -/

/-- The container carries the sandbox's id and is in this state. -/
def Shows (id containerID : String) (s : Runtime.State) (d : Daemon) : Prop :=
  ∃ c ∈ d.containers.rows, Carries id c ∧ c.id = containerID ∧ stateFromContainerState c.state = s

/-- The one container of the sandbox, or none. -/
def View (id : String) (seen : Option (String × Runtime.State)) (d : Daemon) : Prop :=
  ∀ containerID s, Shows id containerID s d ↔ seen = some (containerID, s)

section Shows
variable {id containerID k : String} {s : Runtime.State} {d d' : Daemon} {c : Summary} {seen : Option (String × Runtime.State)}

theorem Single.view (h : Single id d) : ∃ seen, View id seen d := by
  by_cases hc : ∃ c ∈ d.containers.rows, Carries id c
  · obtain ⟨c, hc, hid⟩ := hc
    refine ⟨some (c.id, stateFromContainerState c.state), fun containerID s => ⟨?_, fun he => ?_⟩⟩
    · rintro ⟨c', hc', hid', rfl, rfl⟩
      rw [h c hc c' hc' hid hid']
    · obtain ⟨rfl, rfl⟩ := Prod.mk.inj (Option.some.inj he)
      exact ⟨c, hc, hid, rfl, rfl⟩
  · refine ⟨none, fun containerID s => ⟨?_, fun he => nomatch he⟩⟩
    rintro ⟨c, hm, hid, -⟩
    exact absurd ⟨c, hm, hid⟩ hc

theorem View.free (h : View id none d) : Free id d := by
  intro c hc hid
  cases (h c.id (stateFromContainerState c.state)).mp ⟨c, hc, hid, rfl, rfl⟩

theorem not_shows_of_fresh (h : d.containers.find? containerID = none) : ¬Shows id containerID s d := by
  rintro ⟨c, hc, -, rfl, -⟩
  exact Table.find?_eq_none_iff.mp h (List.mem_map_of_mem hc)

/-- A container made under an id that no container has. -/
theorem shows_put (hfresh : d.containers.find? c.id = none) :
    Shows id k s (d.put c) ↔ Shows id k s d ∨ Carries id c ∧ c.id = k ∧ stateFromContainerState c.state = s := by
  constructor
  · rintro ⟨c', hc', hid, hk, hs⟩
    rcases mem_put hc' with hold | rfl
    · exact .inl ⟨c', hold, hid, hk, hs⟩
    · exact .inr ⟨hid, hk, hs⟩
  · rintro (⟨c', hc', hid, hk, hs⟩ | ⟨hid, hk, hs⟩)
    · have hne : c'.id ≠ c.id := fun he => Table.find?_eq_none_iff.mp hfresh (he ▸ List.mem_map_of_mem hc')
      exact ⟨c', List.mem_append_left _ (List.mem_filter.mpr ⟨hc', by simpa using hne⟩), hid, hk, hs⟩
    · exact ⟨c, List.mem_append_right _ (List.mem_singleton.mpr rfl), hid, hk, hs⟩

theorem shows_start : Shows id k s (d.start containerID) ↔
    if k = containerID then s = .running ∧ ∃ s₀, Shows id k s₀ d else Shows id k s d := by
  constructor
  · rintro ⟨c', hc', hid, hk, hs⟩
    obtain ⟨c, hc, rfl⟩ := List.mem_map.mp hc'
    by_cases he : c.id = containerID
    · rw [if_pos he] at hid hk hs
      rw [if_pos (hk.symm.trans he)]
      exact ⟨hs.symm, _, c, hc, hid, hk, rfl⟩
    · rw [if_neg he] at hid hk hs
      rw [if_neg fun hkc => he (hk.trans hkc)]
      exact ⟨c, hc, hid, hk, hs⟩
  · intro h
    by_cases hkc : k = containerID
    · rw [if_pos hkc] at h
      obtain ⟨rfl, s₀, c, hc, hid, hk, -⟩ := h
      exact ⟨{ c with state := "running" }, List.mem_map.mpr ⟨c, hc, if_pos (hk.trans hkc)⟩, hid, hk, rfl⟩
    · rw [if_neg hkc] at h
      obtain ⟨c, hc, hid, hk, hs⟩ := h
      exact ⟨c, List.mem_map.mpr ⟨c, hc, if_neg fun he => hkc (hk.symm.trans he)⟩, hid, hk, hs⟩

theorem shows_remove : Shows id k s (d.remove containerID) ↔ k ≠ containerID ∧ Shows id k s d := by
  constructor
  · rintro ⟨c, hc, hid, rfl, hs⟩
    obtain ⟨hc, hne⟩ := List.mem_filter.mp hc
    exact ⟨by simpa using hne, c, hc, hid, rfl, hs⟩
  · rintro ⟨hne, c, hc, hid, rfl, hs⟩
    exact ⟨c, List.mem_filter.mpr ⟨hc, by simpa using hne⟩, hid, rfl, hs⟩

end Shows
end Docker

/-! ## Nothing done about the sandbox -/

section Spared
variable {id : String} {w w₁ w₂ : World Daemon} {seen : Option (String × Runtime.State)}

/-- The row has kept its state and its spec, at most its lease was renewed; and the containers show as before. -/
structure Spared (id : String) (w w' : World Daemon) : Prop where
  row : ∀ row, w.db.sandbox? id = some row →
    ∃ row', w'.db.sandbox? id = some row' ∧ row'.state = row.state ∧ row'.spec = row.spec
  containers : ∀ containerID s, Docker.Shows id containerID s w'.backend ↔ Docker.Shows id containerID s w.backend

theorem spared_refl (w : World Daemon) : Spared id w w := ⟨fun row hrow => ⟨row, hrow, rfl, rfl⟩, fun _ _ => Iff.rfl⟩

theorem Spared.trans (h : Spared id w w₁) (h' : Spared id w₁ w₂) : Spared id w w₂ where
  row row hrow := by
    obtain ⟨row₁, hrow₁, hstate₁, hspec₁⟩ := h.row row hrow
    obtain ⟨row₂, hrow₂, hstate₂, hspec₂⟩ := h'.row row₁ hrow₁
    exact ⟨row₂, hrow₂, hstate₂.trans hstate₁, hspec₂.trans hspec₁⟩
  containers containerID s := (h'.containers containerID s).trans (h.containers containerID s)

theorem spared_trans (w w₁ w₂ : World Daemon) (h : Spared id w w₁) (h' : Spared id w₁ w₂) : Spared id w w₂ := h.trans h'

theorem Spared.view (h : Spared id w w₁) (hv : Docker.View id seen w.backend) : Docker.View id seen w₁.backend :=
  fun containerID s => (h.containers containerID s).trans (hv containerID s)

/-- Only the daemon has changed, and not in what it has of the sandbox. -/
theorem spared_backend {d : Daemon} (h : ∀ containerID s, Docker.Shows id containerID s d ↔ Docker.Shows id containerID s w.backend) :
    Spared id w { w with backend := d } :=
  ⟨fun row hrow => ⟨row, hrow, rfl, rfl⟩, h⟩

theorem spared_store {c : StoreCall} {db : Database} (heff : c.Effect w.clock w.db db)
    (hmove : ∀ a b reason v, c ≠ .updateSandboxState id a b reason v) : Spared id w { w with db } := by
  refine ⟨fun row hrow => ?_, fun _ _ => Iff.rfl⟩
  rcases heff.row hrow with ⟨hsame, -⟩ | ⟨expiresAt, rfl, -, hrenewed, -⟩ | ⟨b, reason, n, rfl, -⟩
  · exact ⟨row, hsame, rfl, rfl⟩
  · exact ⟨_, hrenewed, rfl, rfl⟩
  · exact absurd rfl (hmove _ _ _ _)

/-- Where the sandbox is: its row's state and spec, and its container. -/
structure At (id : String) (state : TaskState) (spec : Json) (seen : Option (String × Runtime.State)) (w : World Daemon) :
    Prop where
  row : ∃ row, w.db.sandbox? id = some row ∧ row.state = state ∧ row.spec = spec
  view : Docker.View id seen w.backend

theorem Spared.at {state : TaskState} {spec : Json} (h : Spared id w w₁) (ha : At id state spec seen w) :
    At id state spec seen w₁ := by
  obtain ⟨row, hrow, hstate, hspec⟩ := ha.row
  obtain ⟨row₁, hrow₁, hstate₁, hspec₁⟩ := h.row row hrow
  exact ⟨⟨row₁, hrow₁, hstate₁.trans hstate, hspec₁.trans hspec⟩, h.view ha.view⟩

end Spared

/-! ## The methods, while the others spare the sandbox -/

namespace Docker

def succeeded : (c : (calls signature).Call) → (calls signature).Answer c → Bool
  | .store c, a => c.succeeded a
  | .backend (.containerList _), a => Except.isOk a
  | .backend (.imagePull _), a => Except.isOk a
  | .backend (.pullWait _), a => Except.isOk a
  | .backend (.containerCreate _ _), a => Except.isOk a
  | .backend (.containerStart _), a => Except.isOk a
  | .backend (.containerRemove _), a => Except.isOk a
  | .now, _ | .newSandboxID, _ | .decide _ _, _ => true

/-- The program comes to its end by calls of which `P` holds, between which the others spare the sandbox `id`. -/
abbrev Goes {α : Type} (P : (c : (calls signature).Call) → (calls signature).Answer c → Prop) (id : String)
    (p : Program (calls signature) α) (w : World Daemon) (log : List (Exchange (calls signature))) (r : α)
    (w' : World Daemon) : Prop :=
  p.Completes (fun c w a w' => Backend.docker.perform c w a w' ∧ P c a) (Spared id) w log r w'

section Goes
variable {P : (c : (calls signature).Call) → (calls signature).Answer c → Prop} {id x : String} {w w' : World Daemon}
  {log : List (Exchange (calls signature))} {α : Type}

theorem pullImage_goes (hP : ∀ c a, P c a → succeeded c a = true) {image : String} {r : Except Err Unit}
    (h : Goes P id (pullImage image) w log r w') : r = .ok () ∧ Spared id w w' := by
  obtain ⟨u₁, a₁, v₁, l₁, hu₁, ⟨⟨d₁, hact₁, rfl⟩, hok₁⟩, -, h⟩ := h
  obtain rfl : d₁ = u₁.backend := hact₁
  cases a₁ with
  | error e => cases hP _ _ hok₁
  | ok x =>
    obtain ⟨u₂, a₂, v₂, l₂, hu₂, ⟨⟨d₂, hact₂, rfl⟩, hok₂⟩, -, h⟩ := h
    obtain rfl : d₂ = u₂.backend := hact₂
    cases a₂ with
    | error e => cases hP _ _ hok₂
    | ok x =>
      obtain ⟨-, rfl, hlast⟩ := h
      exact ⟨rfl, (hu₁.trans hu₂).trans hlast⟩

/-- **Create**: a container is made under an id of its own, and started. -/
theorem create_goes (hP : ∀ c a, P c a → succeeded c a = true) {host : Host} {spec : Runtime.Spec}
    {r : Except Err Runtime.Info} (hv : validateSandboxID x = .ok ()) (hspec : spec.validate = .ok ())
    (h : Goes P id (create host x spec) w log r w') : ∃ (c : Summary) (u v : World Daemon) (info : Runtime.Info),
      Spared id w u ∧ u.backend.containers.find? c.id = none ∧ c.labels = managedLabels x ∧
      Spared id { u with backend := u.backend.put c } v ∧ Spared id { v with backend := v.backend.start c.id } w' ∧
      r = .ok info := by
  have hconfig : ∃ config hostConfig, newContainerConfigs host spec x = .ok (config, hostConfig) := by
    unfold newContainerConfigs
    rw [hspec]
    exact ⟨_, _, rfl⟩
  obtain ⟨config, hostConfig, hconfig⟩ := hconfig
  unfold create at h
  rw [hv] at h
  dsimp only at h
  rw [hconfig] at h
  obtain ⟨l, l', r₁, w₁, -, hpull, h⟩ := h.of_bind spared_refl
  obtain ⟨rfl, hw₁⟩ := pullImage_goes hP hpull
  obtain ⟨u, a, w₂, l₂, hu, ⟨⟨d, hact, rfl⟩, hok⟩, -, h⟩ := h
  cases a with
  | error e => cases hP _ _ hok
  | ok containerID =>
    rcases hact with ⟨created, cid, hfresh, rfl, hcid⟩ | ⟨-, e, he⟩
    · obtain rfl := hcid containerID rfl
      obtain ⟨v, b, w₃, l₃, hv, ⟨⟨d', hact, rfl⟩, hok'⟩, -, h⟩ := h
      cases b with
      | error e => cases hP _ _ hok'
      | ok y =>
        rcases hact with rfl | ⟨-, e, he⟩
        · obtain ⟨w₄, t, w₅, l₄, hw₄, ⟨⟨-, rfl⟩, -⟩, -, h⟩ := h
          obtain ⟨-, rfl, hlast⟩ := h
          exact ⟨_, u, v, _, hw₁.trans hu, hfresh, newContainerConfigs_labels hconfig, hv, hw₄.trans hlast, rfl⟩
        · cases he
    · cases he

theorem not_carries_made {c : Summary} (hlabels : c.labels = managedLabels x) (hne : x ≠ id) : ¬Carries id c := by
  intro hid
  obtain ⟨-, hget, -⟩ := managedSandboxID_eq_some_iff.mp hid
  rw [hlabels] at hget
  exact hne (by rw [← hget]; simp [StringMap.get, managedLabels_entries])

theorem create_goes_other (hP : ∀ c a, P c a → succeeded c a = true) {host : Host} {spec : Runtime.Spec}
    {r : Except Err Runtime.Info} (hne : x ≠ id) (h : Goes P id (create host x spec) w log r w') : Spared id w w' := by
  cases hv : validateSandboxID x with
  | error e =>
    unfold create at h
    rw [hv] at h
    exact h.2.2
  | ok y =>
    cases hspec : spec.validate with
    | error e =>
      unfold create newContainerConfigs at h
      rw [hv, hspec] at h
      exact h.2.2
    | ok z =>
      obtain ⟨c, u, v, info, hu, hfresh, hlabels, hmade, hstarted, -⟩ := create_goes hP hv hspec h
      have hcarries := not_carries_made hlabels hne
      have hput : Spared id u { u with backend := u.backend.put c } := by
        refine spared_backend fun k s => (shows_put hfresh).trans ?_
        exact or_iff_left fun hc => hcarries hc.1
      have hfree : ∀ s, ¬Shows id c.id s v.backend := fun s hs =>
        not_shows_of_fresh hfresh (((hput.trans hmade).containers c.id s).mp hs)
      have hstart : Spared id v { v with backend := v.backend.start c.id } := by
        refine spared_backend fun k s => shows_start.trans ?_
        by_cases hk : k = c.id
        · rw [if_pos hk]
          subst hk
          exact iff_of_false (fun hs => hs.2.elim hfree) (hfree s)
        · rw [if_neg hk]
      exact ((hu.trans hput).trans hmade).trans (hstart.trans hstarted)

/-- **Create** for the sandbox where it has no container. -/
theorem create_goes_own (hP : ∀ c a, P c a → succeeded c a = true) {host : Host} {spec : Runtime.Spec}
    {r : Except Err Runtime.Info} {state : TaskState} {json : Json} (hv : validateSandboxID id = .ok ())
    (hspec : spec.validate = .ok ()) (ha : At id state json none w) (h : Goes P id (create host id spec) w log r w') :
    ∃ containerID info, At id state json (some (containerID, .running)) w' ∧ r = .ok info := by
  obtain ⟨c, u, v, info, hu, hfresh, hlabels, hmade, hstarted, hr⟩ := create_goes hP hv hspec h
  have hcarries : Carries id c := by
    rw [Carries, hlabels]
    exact managedSandboxID_managedLabels hv
  have hu := hu.at ha
  have hput : At id state json (some (c.id, stateFromContainerState c.state)) { u with backend := u.backend.put c } := by
    refine ⟨hu.row, fun k s => (shows_put hfresh).trans ?_⟩
    rw [hu.view k s]
    simp [hcarries]
  have hmade := hmade.at hput
  have hstart : At id state json (some (c.id, .running)) { v with backend := v.backend.start c.id } := by
    refine ⟨hmade.row, fun k s => shows_start.trans ?_⟩
    by_cases hk : k = c.id
    · subst hk
      rw [if_pos rfl]
      have hthere : ∃ s₀, Shows id c.id s₀ v.backend := ⟨_, (hmade.view _ _).mpr rfl⟩
      simp [hthere, eq_comm]
    · rw [if_neg hk, hmade.view k s]
      simp [Ne.symm hk]
  exact ⟨c.id, info, hstarted.at hstart, hr⟩

/-- A listing shows the state of the sandbox's container. -/
theorem list_goes (hP : ∀ c a, P c a → succeeded c a = true) {r : Except Err (List Runtime.Info)} (h : Goes P id list w log r w') :
    Spared id w w' ∧ ∃ infos, r = .ok infos ∧ ∀ seen, View id seen w.backend →
      ((indexInfos infos).find? fun info => info.id = id).map (·.state) = seen.map Prod.snd := by
  obtain ⟨u, a, v, l, hu, ⟨⟨d, ⟨hd, hlisted⟩, rfl⟩, hok⟩, -, h⟩ := h
  cases a with
  | error e => cases hP _ _ hok
  | ok items =>
    obtain ⟨-, rfl, hlast⟩ := h
    subst hd
    refine ⟨hu.trans hlast, _, rfl, fun seen hseen => ?_⟩
    have hseen := hu.view hseen
    -- what is listed under the id is shown, and the other way round
    have hshown : ∀ info ∈ items.filterMap infoOf, info.id = id → ∃ k, Shows id k info.state u.backend := by
      intro info hm hid
      obtain ⟨c, hc, hinfo⟩ := List.mem_filterMap.mp hm
      obtain ⟨x, hx, rfl⟩ := Option.map_eq_some_iff.mp hinfo
      exact ⟨c.id, c, ((hlisted items rfl c).mp hc).1, hx.trans (congrArg some hid), rfl, rfl⟩
    have hlists : ∀ k s, Shows id k s u.backend → ∃ info ∈ items.filterMap infoOf, info.id = id := by
      rintro k s ⟨c, hc, hid, -, -⟩
      have hm : c ∈ items := by
        refine (hlisted items rfl c).mpr ⟨hc, ?_⟩
        rw [Daemon.listed_managedMarkerLabels]
        exact hid.managed
      have hinfo : infoOf c = some ⟨id, stateFromContainerState c.state, createdAtFromUnix c.created⟩ := by
        rw [infoOf, show managedSandboxID c.labels = some id from hid]
        rfl
      exact ⟨_, List.mem_filterMap.mpr ⟨c, hm, hinfo⟩, rfl⟩
    cases hfind : (indexInfos (items.filterMap infoOf)).find? fun info => info.id = id with
    | some info =>
      obtain ⟨hm, hid⟩ := find?_indexInfos.1 info hfind
      obtain ⟨k, hk⟩ := hshown info hm hid
      rw [(hseen k info.state).mp hk]
      rfl
    | none =>
      have hno := find?_indexInfos.2 hfind
      cases seen with
      | none => rfl
      | some e =>
        obtain ⟨info, hm, hid⟩ := hlists e.1 e.2 ((hseen e.1 e.2).mpr rfl)
        exact absurd hid (hno info hm)

theorem getContainerBysandboxID_goes {r : Except Err Summary} (h : Goes P id (getContainerBysandboxID x) w log r w') :
    Spared id w w' ∧ ∀ c, r = .ok c → ∃ u, Spared id u w' ∧ c ∈ u.backend.containers.rows ∧ Carries x c := by
  unfold getContainerBysandboxID at h
  cases hv : validateSandboxID x with
  | error e =>
    rw [hv] at h
    obtain ⟨-, rfl, hlast⟩ := h
    exact ⟨hlast, fun c hc => by cases hc⟩
  | ok y =>
    rw [hv] at h
    obtain ⟨u, a, v, l, hu, ⟨⟨d, ⟨hd, hlisted⟩, rfl⟩, -⟩, -, h⟩ := h
    subst hd
    cases a with
    | error e =>
      obtain ⟨-, rfl, hlast⟩ := h
      exact ⟨hu.trans hlast, fun c hc => by cases hc⟩
    | ok items =>
      dsimp only [Program.bind] at h
      split at h
      · next c hfind =>
        obtain ⟨-, rfl, hlast⟩ := h
        refine ⟨hu.trans hlast, fun c' hc => ⟨_, hlast, ?_⟩⟩
        obtain rfl := Except.ok.inj hc
        exact ⟨((hlisted items rfl c).mp (List.mem_of_find?_eq_some hfind)).1, by simpa [Carries] using List.find?_some hfind⟩
      · obtain ⟨-, rfl, hlast⟩ := h
        exact ⟨hu.trans hlast, fun c hc => by cases hc⟩

/-- **Destroy** for another sandbox. -/
theorem destroy_goes_other {r : Except Err Unit} (hne : x ≠ id) (h : Goes P id (destroy x) w log r w') : Spared id w w' := by
  obtain ⟨l, l', r₁, w₁, -, hget, h⟩ := h.of_bind spared_refl
  obtain ⟨hw₁, hfound⟩ := getContainerBysandboxID_goes hget
  cases r₁ with
  | error e =>
    dsimp only at h
    split at h <;> exact hw₁.trans h.2.2
  | ok c =>
    obtain ⟨u, hu, hc, hx⟩ := hfound c rfl
    have hother : ∀ s, ¬Shows id c.id s u.backend := by
      rintro s ⟨c', hc', hid, he, -⟩
      obtain rfl := Table.eq_of_key hc' hc he
      exact hne (Option.some.inj (hx.symm.trans hid))
    have hfree : ∀ v : World Daemon, Spared id w₁ v → ∀ s, ¬Shows id c.id s v.backend := fun v hv s hs =>
      hother s (((hu.trans hv).containers c.id s).mp hs)
    obtain ⟨l₁, l₂, r₂, w₂, -, hremove, h⟩ := h.of_bind spared_refl
    have hw₂ : Spared id w₁ w₂ := by
      obtain ⟨v, a, v', rest, hv, ⟨⟨d, hact, rfl⟩, -⟩, -, hrest⟩ := hremove
      have hd : Spared id v { v with backend := d } := by
        rcases hact with rfl | ⟨rfl, -⟩
        · refine spared_backend fun k s => shows_remove.trans (and_iff_right_of_imp fun hs hk => ?_)
          subst hk
          exact hfree v hv s hs
        · exact spared_refl v
      cases a with
      | ok y => exact (hv.trans hd).trans hrest.2.2
      | error e =>
        dsimp only [Program.bind] at hrest
        split at hrest <;> exact (hv.trans hd).trans hrest.2.2
    cases r₂ with
    | ok y => exact (hw₁.trans hw₂).trans h.2.2
    | error e => exact (hw₁.trans hw₂).trans h.2.2

theorem single_goes {c : (calls signature).Call} {a : (calls signature).Answer c}
    (h : Goes P id (Program.perform c) w log a w') : ∃ u v,
      Spared id w u ∧ Backend.docker.perform c u a v ∧ P c a ∧ Spared id v w' := by
  obtain ⟨u, a', v, rest, hu, ⟨hact, hok⟩, -, h⟩ := h
  obtain ⟨-, rfl, hlast⟩ := h
  exact ⟨u, v, hu, hact, hok, hlast⟩

/-- The calls of the reconciler, each by its method. -/
def Ran (host : Host) (P : (c : (calls signature).Call) → (calls signature).Answer c → Prop) (id : String)
    (c : (calls Runtime.signature).Call) (w : World Daemon) (a : (calls Runtime.signature).Answer c) (w' : World Daemon) :
    Prop :=
  ∃ log, Goes P id (impl host c) w log a w'

/-- **The frame**: what a pass does about other sandboxes spares this one. -/
theorem spared_frame (hP : ∀ c a, P c a → succeeded c a = true) (host : Host) (id : String) :
    Reconciler.Frame (Ran host P id) (Spared id) id (Spared id) where
  refl := spared_refl
  trans := spared_trans
  others _ _ h := h
  calls := by
    rintro c hc w a w' ⟨log, h⟩
    cases c with
    | now =>
      obtain ⟨u, v, hu, hact, -, hv⟩ := single_goes h
      exact hu.trans (hact.2 ▸ hv)
    | decide =>
      obtain ⟨u, v, hu, hact, -, hv⟩ := single_goes h
      obtain rfl : v = u := hact
      exact hu.trans hv
    | newSandboxID => exact hc.elim
    | backend c =>
      cases c with
      | create => exact create_goes_other hP hc h
      | destroy => exact destroy_goes_other hc h
      | list => exact (list_goes hP h).1
    | store c =>
      obtain ⟨u, v, hu, ⟨f, db, hexec, rfl⟩, -, hv⟩ := single_goes h
      refine (hu.trans (spared_store (StoreCall.effect hexec) fun a b reason v he => ?_)).trans hv
      subst he
      exact hc rfl

theorem transition_ran (hP : ∀ c a, P c a → succeeded c a = true) {host : Host} {state a b : TaskState} {json : Json}
    {seen : Option (String × Runtime.State)} {reason : String} {v : ℤ} {r : Except Err Sandbox} (ha : At id state json seen w)
    (h : Ran host P id (.store (.updateSandboxState id a b reason v)) w r w') :
    ∃ sbx, r = .ok sbx ∧ At id b json seen w' := by
  obtain ⟨log, h⟩ := h
  obtain ⟨u, x, hu, ⟨f, db, hexec, rfl⟩, hok, hx⟩ := single_goes h
  have hu := hu.at ha
  cases r with
  | error e => cases hP _ _ hok
  | ok sbx =>
    rcases Sqlite.updateSandboxState_cases hexec with ⟨row, _, hmoved, -⟩ | ⟨-, e, he, -⟩
    · obtain ⟨row', hrow', -, hspec⟩ := hu.row
      obtain rfl := Option.some.inj (hrow'.symm.trans hmoved.found)
      have hrow := hmoved.sandbox id
      rw [if_pos rfl] at hrow
      exact ⟨sbx, rfl, hx.at ⟨⟨_, hrow, rfl, hspec⟩, hu.view⟩⟩
    · cases he

end Goes
end Docker

end Quickspin
