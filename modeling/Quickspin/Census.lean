import Mathlib.Data.Multiset.Filter
import Quickspin.Destroy
import Quickspin.Restarts
import Quickspin.Texts
import Quickspin.Lib.Atomic

/-! Docker against a runtime that only knows which sandboxes have containers. A method of the Docker runtime is several
calls of the daemon; between them requests are answered, containers die and the process may crash. From the tables and
the clients it looks like one step all the same, of a runtime whose whole state is the multiset of the ids that
containers carry. -/
namespace Quickspin
open Interaction Service Relational
set_option autoImplicit false

/-! ## The runtime as the control plane needs it -/

/-- What a creation may be asked for. -/
def Accepted (id : String) (spec : Runtime.Spec) : Prop := validateSandboxID id = .ok () ∧ spec.validate = .ok ()

/-- A runtime that keeps count of the containers of each sandbox. A call that fails may have taken effect; containers die
by themselves, and none comes by itself. -/
def Backend.census : Backend Runtime.signature (Multiset String) where
  act
    | .create id spec, m, .ok info, m' => Accepted id spec ∧ info.id = id ∧ info.state = .running ∧ m' = id ::ₘ m
    | .create id spec, m, .error _, m' => m' = m ∨ Accepted id spec ∧ m' = id ::ₘ m
    | .destroy id, m, .ok (), m' => validateSandboxID id = .ok () ∧ m' = m.erase id
    | .destroy id, m, .error _, m' => m' = m ∨ validateSandboxID id = .ok () ∧ m' = m.erase id
    | .list, m, .ok infos, m' => m' = m ∧ ∀ id, id ∈ infos.map (·.id) ↔ id ∈ m
    | .list, m, .error _, m' => m' = m
  env m m' := m' ≤ m

/-! ## The ids that containers carry -/

namespace Daemon
open Docker

def labelled (d : Daemon) : List (String × StringMap) := d.containers.rows.map fun c => (c.id, c.labels)

def names (l : List (String × StringMap)) : List String := l.filterMap fun e => managedSandboxID e.2

/-- One id for each container that can be named. -/
def census (d : Daemon) : Multiset String := names d.labelled

theorem names_cons {e : String × StringMap} {id : String} (h : managedSandboxID e.2 = some id)
    (l : List (String × StringMap)) : names (e :: l) = id :: names l := List.filterMap_cons_some h

variable {d d' : Daemon} {id : String}

theorem mem_labelled {c : Summary} (h : c ∈ d.containers.rows) : (c.id, c.labels) ∈ d.labelled :=
  List.mem_map.mpr ⟨c, h, rfl⟩

theorem mem_census : id ∈ d.census ↔ ∃ c ∈ d.containers.rows, Carries id c := by
  simp only [census, names, labelled, List.filterMap_map, Multiset.mem_coe, List.mem_filterMap, Function.comp_apply, Carries]

/-- The managed containers are among those listed: so are their ids. -/
theorem census_le {l : List (String × StringMap)}
    (h : ∀ c ∈ d.containers.rows, isManaged c.labels = true → (c.id, c.labels) ∈ l) : d.census ≤ names l := by
  have hnames : names d.labelled = names (d.labelled.filter fun e => isManaged e.2) := by
    rw [names, names, List.filterMap_filter]
    congr 1
    funext e
    cases hm : isManaged e.2 with
    | true => rfl
    | false => simp [managedSandboxID, hm]
  have hnodup : (d.labelled.filter fun e => isManaged e.2).Nodup := by
    refine List.Nodup.filter _ (List.Nodup.of_map Prod.fst ?_)
    rw [labelled, List.map_map]
    exact d.containers.unique
  have hsub : (d.labelled.filter fun e => isManaged e.2) ⊆ l := by
    intro e he
    obtain ⟨he, hm⟩ := List.mem_filter.mp he
    obtain ⟨c, hc, rfl⟩ := List.mem_map.mp he
    exact h c hc hm
  rw [census, hnames]
  exact Multiset.filterMap_le_filterMap _ (Multiset.coe_le.mpr (List.subperm_of_subset hnodup hsub))

theorem census_moves (h : Moves d d') : d'.census ≤ d.census := by
  refine census_le fun c' hc' hm => ?_
  obtain ⟨c, hc, hid, hlabels⟩ := h c' hc' hm
  rw [← hid, ← hlabels]
  exact mem_labelled hc

/-- One container more at most, and it carries the id. -/
theorem census_makes (h : Makes id d d') (hid : validateSandboxID id = .ok ()) : d'.census ≤ id ::ₘ d.census := by
  obtain ⟨containerID, hmade⟩ := h
  have hle : d'.census ≤ names ((containerID, managedLabels id) :: d.labelled) := by
    refine census_le fun c' hc' hm => ?_
    rcases hmade c' hc' hm with ⟨c, hc, hcid, hlabels⟩ | ⟨hcid, hlabels⟩
    · rw [← hcid, ← hlabels]
      exact List.mem_cons_of_mem _ (mem_labelled hc)
    · rw [hcid, hlabels]
      exact List.mem_cons_self ..
  rwa [names_cons (managedSandboxID_managedLabels hid), ← Multiset.cons_coe] at hle

/-- A container that has gone takes its id with it. -/
theorem census_gone {c : Summary} (h : Moves d d') (hc : c ∈ d.containers.rows) (hid : Carries id c)
    (hgone : ∀ c' ∈ d'.containers.rows, isManaged c'.labels = true → c'.id ≠ c.id) : d'.census ≤ d.census.erase id := by
  obtain ⟨before, after, hrows⟩ := List.append_of_mem (mem_labelled hc)
  have hle : d'.census ≤ names (before ++ after) := by
    refine census_le fun c' hc' hm => ?_
    obtain ⟨c₀, hc₀, hcid, hlabels⟩ := h c' hc' hm
    have hmem := mem_labelled hc₀
    rw [hrows, hcid, hlabels] at hmem
    rcases List.mem_append.mp hmem with hmem | hmem
    · exact List.mem_append_left _ hmem
    · rcases List.mem_cons.mp hmem with he | hmem
      · exact absurd (Prod.mk.inj he).1 (hgone c' hc' hm)
      · exact List.mem_append_right _ hmem
  have hall : d.census = id ::ₘ (names (before ++ after) : Multiset String) := by
    rw [census, hrows, Multiset.cons_coe, Multiset.coe_eq_coe, ← names_cons (e := (c.id, c.labels)) hid]
    exact List.Perm.filterMap _ List.perm_middle
  rwa [hall, Multiset.erase_cons_head]

end Daemon

/-! ## The methods, the daemon moving in between -/

namespace Docker

/-- What a call inside a method does to the daemon. -/
def inner : (c : (calls signature).Call) → Daemon → (calls signature).Answer c → Daemon → Prop
  | .backend c, d, a, d' => Daemon.act c d a d'
  | _, d, _, d' => d' = d

/-- The method comes from `d` to the answer `r` and to `d'`; between its calls containers die. -/
abbrev Serves {α : Type} (p : Program (calls signature) α) (d : Daemon) (log : List (Exchange (calls signature))) (r : α)
    (d' : Daemon) : Prop := p.Completes inner Daemon.Moves d log r d'

section Methods
variable {d d' : Daemon} {log : List (Exchange (calls signature))} {id : String} {spec : Runtime.Spec} {host : Host}

/-- A method that makes nothing only takes away. -/
theorem Serves.moves {α : Type} {p : Program (calls signature) α} {r : α} (hp : p.Calls MakesNothing)
    (h : Serves p d log r d') : Daemon.Moves d d' := by
  refine Program.Completes.keeps hp (fun _ _ _ => moves_trans) (fun c hc u a v hact => ?_) (fun _ _ h => h) h
  cases c with
  | backend c => exact moves_act (fun config host he => hc config host (he ▸ rfl)) hact
  | now | newSandboxID | store | decide =>
    obtain rfl : v = u := hact
    exact moves_refl v

/-- A listing names the sandboxes that have containers at one moment of it. -/
theorem list_serves {r : Except Err (List Runtime.Info)} (h : Serves list d log r d') :
    ∃ u, Daemon.Moves d u ∧ Daemon.Moves u d' ∧ ∀ infos, r = .ok infos → ∀ id, id ∈ infos.map (·.id) ↔ id ∈ u.census := by
  obtain ⟨u, a, v, rest, hdu, hact, -, h⟩ := h
  obtain ⟨rfl, hlisted⟩ : v = u ∧ ∀ items, a = .ok items →
    ∀ c, c ∈ items ↔ c ∈ u.containers.rows ∧ Daemon.listed _ c = true := hact
  cases a with
  | error e =>
    obtain ⟨-, rfl, hlast⟩ := h
    exact ⟨v, hdu, hlast, fun infos hr => nomatch hr⟩
  | ok items =>
    obtain ⟨-, rfl, hlast⟩ := h
    refine ⟨v, hdu, hlast, fun infos hr id => ?_⟩
    obtain rfl := Except.ok.inj hr
    rw [Daemon.mem_census]
    constructor
    · intro hmem
      obtain ⟨info, hinfo, rfl⟩ := List.mem_map.mp hmem
      obtain ⟨c, hc, hcinfo⟩ := List.mem_filterMap.mp hinfo
      obtain ⟨id, hid, rfl⟩ := Option.map_eq_some_iff.mp hcinfo
      exact ⟨c, ((hlisted items rfl c).mp hc).1, hid⟩
    · rintro ⟨c, hc, hid⟩
      have hmem : c ∈ items := (hlisted items rfl c).mpr ⟨hc, by rw [Daemon.listed_managedMarkerLabels]; exact hid.managed⟩
      refine List.mem_map.mpr ⟨⟨id, stateFromContainerState c.state, createdAtFromUnix c.created⟩, ?_, rfl⟩
      refine List.mem_filterMap.mpr ⟨c, hmem, ?_⟩
      rw [infoOf, show managedSandboxID c.labels = some id from hid]
      rfl

theorem getContainerBysandboxID_serves {r : Except Err Summary} (h : Serves (getContainerBysandboxID id) d log r d') :
    ∃ u, Daemon.Moves d u ∧ Daemon.Moves u d' ∧
      ((∃ c ∈ u.containers.rows, r = .ok c ∧ Carries id c) ∨
        ∃ e, r = .error e ∧ (e.is .runtimeNotFound = true → validateSandboxID id = .ok () ∧ id ∉ u.census)) := by
  unfold getContainerBysandboxID at h
  cases hv : validateSandboxID id with
  | error e =>
    rw [hv] at h
    obtain ⟨-, rfl, hlast⟩ := h
    rw [validateSandboxID_error hv]
    exact ⟨d, moves_refl d, hlast, .inr ⟨_, rfl, by simp⟩⟩
  | ok x =>
    rw [hv] at h
    obtain ⟨u, a, v, rest, hdu, hact, -, h⟩ := h
    obtain ⟨rfl, hlisted⟩ : v = u ∧ ∀ items, a = .ok items →
      ∀ c, c ∈ items ↔ c ∈ u.containers.rows ∧ Daemon.listed _ c = true := hact
    cases a with
    | error e =>
      obtain ⟨-, rfl, hlast⟩ := h
      exact ⟨v, hdu, hlast, .inr ⟨_, rfl, by simp [DaemonError.err]⟩⟩
    | ok items =>
      dsimp only [Program.bind] at h
      split at h
      · next c hfind =>
        obtain ⟨-, rfl, hlast⟩ := h
        have hmem := ((hlisted items rfl c).mp (List.mem_of_find?_eq_some hfind)).1
        exact ⟨v, hdu, hlast, .inl ⟨c, hmem, rfl, by simpa [Carries] using List.find?_some hfind⟩⟩
      · next hnone =>
        obtain ⟨-, rfl, hlast⟩ := h
        refine ⟨v, hdu, hlast, .inr ⟨_, rfl, fun _ => ⟨rfl, fun hmem => ?_⟩⟩⟩
        obtain ⟨c, hc, hid⟩ := Daemon.mem_census.mp hmem
        have hitem := (hlisted items rfl c).mpr ⟨hc, Daemon.listed_managedLabels hid⟩
        have hno : managedSandboxID c.labels ≠ some id := by simpa using List.find?_eq_none.mp hnone c hitem
        exact hno hid

/-- A container that was removed, or was not there, does not come back. -/
theorem removeContainer_serves {containerID : String} {r : Except Err Unit}
    (h : Serves (removeContainer containerID) d log r d') :
    r = .ok () → ∀ c ∈ d'.containers.rows, isManaged c.labels = true → c.id ≠ containerID := by
  obtain ⟨u, a, v, rest, -, hact, -, h⟩ := h
  have hact : Daemon.act (.containerRemove containerID) u a v := hact
  have hstays : (∀ c ∈ v.containers.rows, c.id ≠ containerID) → Daemon.Moves v d' →
      ∀ c ∈ d'.containers.rows, isManaged c.labels = true → c.id ≠ containerID := by
    intro hgone hmoves c hc hm
    obtain ⟨c₀, hc₀, hid, -⟩ := hmoves c hc hm
    rw [← hid]
    exact hgone c₀ hc₀
  have hremoved : v = u.remove containerID → ∀ c ∈ v.containers.rows, c.id ≠ containerID := by
    rintro rfl c hc
    simpa using (List.mem_filter.mp hc).2
  intro hr
  subst hr
  cases a with
  | ok x =>
    obtain ⟨-, -, hlast⟩ := h
    rcases hact with hv | ⟨-, e, he, -⟩
    · exact hstays (hremoved hv) hlast
    · cases he
  | error e =>
    dsimp only [Program.bind] at h
    split at h
    · next hnf =>
      refine hstays ?_ h.2.2
      rcases hact with hv | ⟨rfl, e', he, hnone⟩
      · exact hremoved hv
      · obtain rfl := Except.error.inj he
        intro c hc hid
        have hfind := hnone hnf
        rw [← hid, Table.find?_of_mem hc] at hfind
        cases hfind
    · cases h.2.1

theorem destroy_calls {Q : (calls signature).Call → Prop}
    (hQ : ∀ c : Docker.Call, (∀ config host, c ≠ .containerCreate config host) → Q (.backend c)) (id : String) :
    (destroy id).Calls Q := by
  have hget : (getContainerBysandboxID id).Calls Q := by
    unfold getContainerBysandboxID
    cases validateSandboxID id with
    | error e => trivial
    | ok u =>
      refine ⟨hQ _ (by simp), fun a => ?_⟩
      cases (a : Except DaemonError (List Summary)) with
      | error e => trivial
      | ok items =>
        dsimp only [Program.bind]
        split <;> trivial
  refine hget.bind fun r => ?_
  cases r with
  | error e =>
    dsimp only
    split <;> trivial
  | ok c =>
    refine (removeContainer_calls hQ c.id).bind fun r => ?_
    cases r <;> trivial

/-- **Destroy** takes one container of the sandbox away, if it has any. -/
theorem destroy_serves {r : Except Err Unit} (h : Serves (destroy id) d log r d') :
    Daemon.Moves d d' ∧ (r = .ok () → validateSandboxID id = .ok () ∧ d'.census ≤ d.census.erase id) := by
  refine ⟨h.moves (destroy_calls makesNothing_backend id), fun hr => ?_⟩
  obtain ⟨l, l', r₁, d₁, -, hget, h⟩ := h.of_bind moves_refl
  obtain ⟨u, hdu, hud, ⟨c, hc, rfl, hid⟩ | ⟨e, rfl, habsent⟩⟩ := getContainerBysandboxID_serves hget
  · obtain ⟨l₁, l₂, r₂, d₂, -, hremove, h⟩ := h.of_bind moves_refl
    cases r₂ with
    | error e =>
      obtain ⟨-, he, -⟩ := h
      rw [hr] at he
      cases he
    | ok x =>
      obtain ⟨-, -, hlast⟩ := h
      have hmoves : Daemon.Moves u d₂ := moves_trans hud (Serves.moves (removeContainer_calls makesNothing_backend c.id) hremove)
      have hgone := Daemon.census_gone hmoves hc hid (removeContainer_serves hremove rfl)
      exact ⟨(managedSandboxID_eq_some_iff.mp hid).2.2, (Daemon.census_moves hlast).trans
        (hgone.trans (Multiset.erase_le_erase id (Daemon.census_moves hdu)))⟩
  · dsimp only at h
    split at h
    · next hnf =>
      obtain ⟨hv, hno⟩ := habsent hnf
      have hle : d'.census ≤ u.census := Daemon.census_moves (moves_trans hud h.2.2)
      refine ⟨hv, hle.trans ?_⟩
      rw [← Multiset.erase_of_notMem hno]
      exact Multiset.erase_le_erase id (Daemon.census_moves hdu)
    · obtain ⟨-, he, -⟩ := h
      rw [hr] at he
      cases he

theorem create_calls {Q : (calls signature).Call → Prop} (hQ : ∀ c : Docker.Call, Q (.backend c)) (hnow : Q .now)
    (host : Host) (id : String) (spec : Runtime.Spec) : (create host id spec).Calls Q := by
  unfold create
  cases validateSandboxID id with
  | error e => trivial
  | ok u =>
    dsimp only
    cases newContainerConfigs host spec id with
    | error e => trivial
    | ok configs =>
      refine (pullImage_calls (fun c _ => hQ c) spec.image).bind fun r => ?_
      cases r with
      | error e => trivial
      | ok u =>
        refine ⟨hQ _, fun a => ?_⟩
        cases (a : Except DaemonError String) with
        | error e => trivial
        | ok containerID =>
          refine ⟨hQ _, fun a => ?_⟩
          cases (a : Except DaemonError Unit) with
          | error e => exact (cleanupFailed_calls (fun c _ => hQ c) _ _ _ _).bind fun _ => trivial
          | ok u => exact ⟨hnow, fun _ => trivial⟩

/-- **Create** makes one container of the sandbox at most, and only for what it accepts. -/
theorem create_serves {r : Except Err Runtime.Info} (h : Serves (create host id spec) d log r d') :
    (Daemon.Moves d d' ∧ ∃ e, r = .error e) ∨ Accepted id spec ∧ d'.census ≤ id ::ₘ d.census ∧
      ∀ info, r = .ok info → info.id = id ∧ info.state = .running := by
  unfold create at h
  cases hv : validateSandboxID id with
  | error e =>
    rw [hv] at h
    exact .inl ⟨h.2.2, _, h.2.1⟩
  | ok u =>
    rw [hv] at h
    dsimp only at h
    cases hconfig : newContainerConfigs host spec id with
    | error e =>
      rw [hconfig] at h
      exact .inl ⟨h.2.2, _, h.2.1⟩
    | ok configs =>
      obtain ⟨config, hostConfig⟩ := configs
      have hspec : spec.validate = .ok () := by
        unfold newContainerConfigs at hconfig
        split at hconfig
        · cases hconfig
        · next hspec => exact hspec
      rw [hconfig] at h
      obtain ⟨l, l', r₁, d₁, -, hpull, h⟩ := h.of_bind moves_refl
      have hpulled : Daemon.Moves d d₁ := Serves.moves (pullImage_calls makesNothing_backend _) hpull
      cases r₁ with
      | error e => exact .inl ⟨moves_trans hpulled h.2.2, _, h.2.1⟩
      | ok u =>
        obtain ⟨u, a, v, rest, hdu, hact, -, h⟩ := h
        have hmade : v.census ≤ id ::ₘ u.census :=
          Daemon.census_makes (make_container (newContainerConfigs_labels hconfig) hact) hv
        have hbefore : v.census ≤ id ::ₘ d.census :=
          hmade.trans (Multiset.cons_le_cons id (Daemon.census_moves (moves_trans hpulled hdu)))
        refine .inr ⟨⟨hv, hspec⟩, ?_⟩
        cases a with
        | error e =>
          obtain ⟨-, rfl, hlast⟩ := h
          exact ⟨(Daemon.census_moves hlast).trans hbefore, fun info hr => nomatch hr⟩
        | ok containerID =>
          obtain ⟨u₁, a, v₁, rest, hvu, hstart, -, h⟩ := h
          have hstart : Daemon.act (.containerStart containerID) u₁ a v₁ := hstart
          have hstarted : Daemon.Moves v v₁ := moves_trans hvu (moves_act (by simp) hstart)
          cases a with
          | error e =>
            dsimp only [Program.bind] at h
            obtain ⟨l, l', cause, d₂, -, hclean, h⟩ := h.of_bind moves_refl
            obtain ⟨-, rfl, hlast⟩ := h
            have hcleaned : Daemon.Moves v₁ d₂ := Serves.moves (cleanupFailed_calls makesNothing_backend _ _ _ _) hclean
            exact ⟨(Daemon.census_moves (moves_trans (moves_trans hstarted hcleaned) hlast)).trans hbefore,
              fun info hr => nomatch hr⟩
          | ok x =>
            obtain ⟨u₂, t, v₂, rest, hvu₂, hsame, -, -, rfl, hlast⟩ := h
            obtain rfl : v₂ = u₂ := hsame
            refine ⟨(Daemon.census_moves (moves_trans (moves_trans hstarted hvu₂) hlast)).trans hbefore, ?_⟩
            rintro info hr
            obtain rfl := Except.ok.inj hr
            exact ⟨rfl, rfl⟩

end Methods

/-! ## The two levels -/

/-- A call that a method issues of its own. -/
def Inner : (calls signature).Call → Prop
  | .now | .backend _ => True
  | .newSandboxID | .store _ | .decide _ _ => False

end Docker

/-- What can be seen of a call from the store and the clients. -/
def seen {D : Signature} : (c : (calls D).Call) → (calls D).Answer c → Option (Exchange (calls noRuntime))
  | .store c, a => some ⟨.store c, a⟩
  | .newSandboxID, id => some ⟨.newSandboxID, id⟩
  | .decide id action, a => some ⟨.decide id action, a⟩
  | .now, _ | .backend _, _ => none

namespace Docker

/-- The tables and the clock are common, the containers counted. -/
def layout : Layout (calls Runtime.signature) (calls signature) (World Daemon) (World (Multiset String)) (Database × Time)
    Daemon (Multiset String) (Exchange (calls noRuntime)) where
  low k d := ⟨k.1, k.2, d⟩
  high k m := ⟨k.1, k.2, m⟩
  abs := Daemon.census
  Inner := Inner
  inner := inner
  moves := Daemon.Moves
  see := seen
  see' := seen

variable (host : Host)

theorem impl_shares : Shares (impl host) := ⟨rfl, rfl, fun _ => rfl⟩

/-- What is not a call of the runtime is the same call on both levels. -/
theorem direct_call {c : (calls Runtime.signature).Call} (hc : ∀ b, c ≠ .backend b) :
    layout.Direct (dockerPlane host) (controlPlane .census) (impl host) c := by
  cases c with
  | now => exact ⟨.now, id, rfl, fun _ => rfl, fun k r a s ⟨ht, hs⟩ => ⟨k, hs, fun m => ⟨ht, rfl⟩⟩⟩
  | newSandboxID => exact ⟨.newSandboxID, id, rfl, fun _ => rfl, fun k r a s ⟨hv, hs⟩ => ⟨k, hs, fun m => ⟨hv, rfl⟩⟩⟩
  | store c =>
    refine ⟨.store c, id, rfl, fun _ => rfl, fun k r a s ⟨f, db, hexec, hs⟩ => ⟨(db, k.2), hs, fun m => ?_⟩⟩
    exact ⟨f, db, hexec, rfl⟩
  | decide x action => exact ⟨.decide x action, id, rfl, fun _ => rfl, fun k r a s hs => ⟨k, hs, fun m => rfl⟩⟩
  | backend b => exact absurd rfl (hc b)

theorem impl_calls {Q : (calls signature).Call → Prop} (hQ : ∀ c : Docker.Call, Q (.backend c)) (hnow : Q .now)
    (b : Runtime.Call) : (impl host (.backend b)).Calls Q := by
  cases b with
  | create id spec => exact create_calls hQ hnow host id spec
  | destroy id => exact destroy_calls (fun c _ => hQ c) id
  | list => exact ⟨hQ _, fun a => by cases (a : Except DaemonError (List Summary)) <;> trivial⟩

variable {host} in
/-- **A method** is one call of the census, some containers dying before it and some after. -/
theorem impl_serves {b : Runtime.Call} {log : List (Exchange (calls signature))} {d d' : Daemon} {r : b.Answer}
    (h : Serves (impl host (.backend b)) d log r d') : ∃ m₁ m₂, m₁ ≤ d.census ∧ Backend.census.act b m₁ r m₂ ∧ d'.census ≤ m₂ := by
  cases b with
  | create id spec =>
    rcases create_serves h with ⟨hmoves, e, rfl⟩ | ⟨haccepted, hle, hinfo⟩
    · exact ⟨_, _, le_rfl, .inl rfl, Daemon.census_moves hmoves⟩
    · refine ⟨d.census, id ::ₘ d.census, le_rfl, ?_, hle⟩
      cases r with
      | error e => exact .inr ⟨haccepted, rfl⟩
      | ok info => exact ⟨haccepted, (hinfo info rfl).1, (hinfo info rfl).2, rfl⟩
  | destroy id =>
    obtain ⟨hmoves, hok⟩ := destroy_serves h
    cases r with
    | error e => exact ⟨_, _, le_rfl, .inl rfl, Daemon.census_moves hmoves⟩
    | ok u => exact ⟨_, _, le_rfl, ⟨(hok rfl).1, rfl⟩, (hok rfl).2⟩
  | list =>
    obtain ⟨u, hdu, hud, hids⟩ := list_serves h
    refine ⟨u.census, u.census, Daemon.census_moves hdu, ?_, Daemon.census_moves hud⟩
    cases r with
    | error e => rfl
    | ok infos => exact ⟨rfl, hids infos rfl⟩

theorem block_call (b : Runtime.Call) : layout.Block (controlPlane .census) (impl host) (.backend b) where
  calls := impl_calls host (fun _ => trivial) trivial b
  unseen _ := rfl
  act log d r d' h k := by
    obtain ⟨m₁, m₂, hbefore, hact, hafter⟩ := impl_serves h
    exact ⟨m₁, m₂, .backend ⟨k.1, k.2, d.census⟩ m₁ hbefore, ⟨m₂, hact, rfl⟩, .backend ⟨k.1, k.2, m₂⟩ d'.census hafter⟩

/-- A call of a method may fail where it stands. -/
theorem inner_abort {c : (calls signature).Call} (hc : Inner c) (d : Daemon) : ∃ a, inner c d a d := by
  cases c with
  | now => exact ⟨(0 : Time), rfl⟩
  | newSandboxID | store | decide => exact hc.elim
  | backend c =>
    cases c with
    | containerList => exact ⟨.error ⟨"", false⟩, rfl, fun items h => nomatch h⟩
    | imagePull | pullWait => exact ⟨.error ⟨"", false⟩, rfl⟩
    | containerCreate => exact ⟨.error ⟨"", false⟩, .inr ⟨rfl, _, rfl⟩⟩
    | containerStart => exact ⟨.error ⟨"", false⟩, .inr ⟨rfl, _, rfl⟩⟩
    | containerRemove => exact ⟨.error ⟨"", false⟩, .inr ⟨rfl, _, rfl, fun h => nomatch h⟩⟩

theorem inner_perform {c : (calls signature).Call} (hc : Inner c) {k : Database × Time} {d : Daemon}
    {a : (calls signature).Answer c} {w : World Daemon} (h : Backend.docker.perform c ⟨k.1, k.2, d⟩ a w) :
    ∃ d', w = ⟨k.1, k.2, d'⟩ ∧ inner c d a d' := by
  cases c with
  | now => exact ⟨d, h.2, rfl⟩
  | newSandboxID | store | decide => exact hc.elim
  | backend c =>
    obtain ⟨d', hact, rfl⟩ := h
    exact ⟨d', rfl, hact⟩

theorem docker_implements : layout.Implements (dockerPlane host) (controlPlane .census) (impl host) where
  handler i := (Request.handle_translate (impl_shares host) i).symm
  direct i := (Request.handle_recording i).mono fun c hc => direct_call host fun b he => by
    subst he
    exact hc
  worker := rfl
  kinds c := by
    cases c with
    | backend b => exact .inr (block_call host b)
    | now | newSandboxID | store | decide => exact .inl (direct_call host (by simp))
  inner_act _ hd _ _ _ _ h := inner_perform hd h
  inner_unseen d hd a := by
    cases d with
    | now | backend => rfl
    | newSandboxID | store | decide => exact hd.elim
  abort _ hd d := inner_abort hd d
  env k d s h := by
    cases h with
    | tick t ht => exact .inl ⟨(k.1, t), rfl, fun m => .tick ⟨k.1, k.2, m⟩ t ht⟩
    | backend d' hmoves => exact .inr ⟨d', rfl, hmoves⟩
  moves_refl := moves_refl
  moves_trans _ _ _ := moves_trans
  moves_env k d d' h := .backend ⟨k.1, k.2, d.census⟩ d'.census (Daemon.census_moves h)

/-- **Docker refines the census**: beside every run over Docker, whatever comes between the calls of a method, there is
one of the control plane over the census that looks the same to the store and the clients, crashes included. The tables
and the clock agree throughout, and while no pass is in flight the census is that of the daemon. -/
theorem docker_refines_census {host : Host} {w : World Daemon} {ls : List DockerLabel} {C : DockerConfig}
    (h : (dockerPlane host).Run Always (.idle w) ls C) :
    ∃ ls' C', (controlPlane .census).Run Always (.idle ⟨w.db, w.clock, w.backend.census⟩) ls' C' ∧
      ls'.filterMap (Label.event seen) = ls.filterMap (Label.event seen) ∧
      C'.shared.db = C.shared.db ∧ C'.shared.clock = C.shared.clock ∧
      (C.worker = none → C'.worker = none ∧ C'.shared.backend = C.shared.backend.census) := by
  have hstart : layout.Agrees (dockerPlane host) (controlPlane .census) (impl host) (.idle w)
      (.idle ⟨w.db, w.clock, w.backend.census⟩) := Layout.agrees_idle (w.db, w.clock) w.backend
  obtain ⟨ls', C', hrun, hlooks, ⟨k, d₀, d, hlow, hhigh, hpass⟩, -⟩ := hstart.run (docker_implements host) h
  refine ⟨ls', C', hrun, hlooks, ?_, ?_, fun hidle => ?_⟩
  · rw [hlow, hhigh]
    rfl
  · rw [hlow, hhigh]
    rfl
  · rw [hidle] at hpass
    obtain ⟨hw, rfl⟩ := hpass.none_inv
    rw [hlow, hhigh]
    exact ⟨hw, rfl⟩

/-- The theorem at a run that has created a container, and crashed before it was recorded. -/
theorem docker_refines_census_created : ∃ ls ls' C C', (dockerPlane exampleHost).Run Always (.idle ⟨.empty, 0, .empty⟩) ls C ∧
    (controlPlane .census).Run Always (.idle ⟨.empty, 0, 0⟩) ls' C' ∧
      ls'.filterMap (Label.event seen) = ls.filterMap (Label.event seen) ∧
      C'.shared.db.sandboxes.rows.map (·.state) = [.pending] ∧ C'.shared.backend = {exampleID} := by
  obtain ⟨ls₁, h₁⟩ := (Run.start (dockerPlane exampleHost) Always (.idle ⟨.empty, 0, .empty⟩)).thenServe
    dockerExec_performs 0 (.create "k" {} 0) rfl
  have h₂ := h₁.cons trivial (.wake rfl)
  have h₃ := h₂.trans (Run.work_advance dockerExec_performs 9 rfl)
  have h₄ := h₃.cons trivial .crash
  obtain ⟨ls', C', hrun, hlooks, hdb, -, hidle⟩ := docker_refines_census h₄
  refine ⟨_, ls', _, C', h₄, hrun, hlooks, ?_, ?_⟩
  · rw [hdb]
    decide +kernel
  · rw [(hidle rfl).2]
    decide +kernel

end Docker
end Quickspin
