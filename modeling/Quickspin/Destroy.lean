import Quickspin.Ownership
import Quickspin.Lib.Alone

/-! Destroy's postcondition, over histories of `Create` and `Destroy` calls. A destroy looks one container up
and removes that one, so its success leaves nothing exactly where no second container carried the id; and
none ever does while no create is issued for an id that a container carries. -/
namespace Quickspin
open Interaction Relational
set_option autoImplicit false

/-- The others leave the daemon alone. -/
def SameDaemon (w w' : World Daemon) : Prop := w'.backend = w.backend

namespace Docker

/-- The method comes from `w` to the answer `r` and to `w'`, nobody else acting on the daemon. -/
abbrev Finishes {α : Type} (p : Program (calls signature) α) (w : World Daemon)
    (log : List (Exchange (calls signature))) (r : α) (w' : World Daemon) : Prop :=
  p.Completes Backend.docker.perform SameDaemon w log r w'

theorem sameDaemon_refl (w : World Daemon) : SameDaemon w w := rfl

section Methods
variable {w w' : World Daemon} {log : List (Exchange (calls signature))} {id : String}

theorem remove_absent {d : Daemon} {containerID : String} (h : d.containers.find? containerID = none) :
    d.remove containerID = d := by
  rw [Table.find?_eq_none_iff] at h
  have hrows : d.containers.rows.filter (fun c => c.id ≠ containerID) = d.containers.rows := by
    refine List.filter_eq_self.mpr fun c hc => ?_
    simpa using fun he : c.id = containerID => h (List.mem_map.mpr ⟨c, hc, he⟩)
  obtain ⟨⟨rows, hu⟩⟩ := d
  simp only [Daemon.remove, Table.filter, Daemon.mk.injEq, Table.mk.injEq]
  exact hrows

/-- A removal takes the container away, or fails. -/
theorem removeContainer_finishes {containerID : String} {r : Except Err Unit}
    (h : Finishes (removeContainer containerID) w log r w') :
    w'.backend = w.backend.remove containerID ∨ w'.backend = w.backend ∧ r ≠ .ok () := by
  obtain ⟨u, a, v, rest, hu, ⟨d, hact, rfl⟩, -, h⟩ := h
  have hact : Daemon.act (.containerRemove containerID) u.backend a d := hact
  rw [show u.backend = w.backend from hu] at hact
  cases a with
  | ok x =>
    obtain ⟨-, -, hsame⟩ := h
    rcases hact with rfl | ⟨-, e, he, -⟩
    · exact .inl hsame
    · cases he
  | error e =>
    dsimp only [Program.bind] at h
    rcases hact with rfl | ⟨rfl, e', he, hnf⟩
    · split at h <;> exact .inl h.2.2
    · obtain rfl := Except.error.inj he
      split at h
      · next hn =>
        rw [remove_absent (hnf hn)]
        exact .inl h.2.2
      · obtain ⟨-, rfl, hsame⟩ := h
        exact .inr ⟨hsame, by simp⟩

/-- A lookup changes nothing, and finds a container that carries the id unless there is none. -/
theorem getContainerBysandboxID_finishes {r : Except Err Summary}
    (h : Finishes (getContainerBysandboxID id) w log r w') : w'.backend = w.backend ∧
      ((∃ c ∈ w.backend.containers.rows, r = .ok c ∧ Carries id c) ∨
        ∃ e, r = .error e ∧ (e.is .runtimeNotFound = true → Absent id w) ∧
          (validateSandboxID id = .ok () → (∀ label e, ⟨.backend (.containerList label), .error e⟩ ∉ log) →
            e.is .runtimeNotFound = true)) := by
  unfold getContainerBysandboxID at h
  cases hv : validateSandboxID id with
  | error e =>
    rw [hv] at h
    obtain ⟨-, rfl, hsame⟩ := h
    rw [validateSandboxID_error hv]
    exact ⟨hsame, .inr ⟨_, rfl, by simp, fun h => nomatch h⟩⟩
  | ok u =>
    rw [hv] at h
    obtain ⟨u, a, v, rest, hu, ⟨d, hact, rfl⟩, rfl, h⟩ := h
    obtain ⟨rfl, hlisted⟩ : d = u.backend ∧ ∀ items, a = .ok items →
      ∀ c, c ∈ items ↔ c ∈ u.backend.containers.rows ∧ Daemon.listed _ c = true := hact
    rw [show u.backend = w.backend from hu] at hlisted
    cases a with
    | error e =>
      obtain ⟨-, rfl, hsame⟩ := h
      refine ⟨hsame.trans hu, .inr ⟨_, rfl, by simp [DaemonError.err], fun _ hno => ?_⟩⟩
      exact absurd (List.mem_cons_self ..) (hno _ e)
    | ok items =>
      dsimp only [Program.bind] at h
      split at h
      · next c hfind =>
        obtain ⟨-, rfl, hsame⟩ := h
        have hmem := ((hlisted items rfl c).mp (List.mem_of_find?_eq_some hfind)).1
        exact ⟨hsame.trans hu, .inl ⟨c, hmem, rfl, by simpa [Carries] using List.find?_some hfind⟩⟩
      · next hnone =>
        obtain ⟨-, rfl, hsame⟩ := h
        refine ⟨hsame.trans hu, .inr ⟨_, rfl, fun _ c hc hid => ?_, fun _ _ => by simp⟩⟩
        have hmem := (hlisted items rfl c).mpr ⟨hc, Daemon.listed_managedLabels hid⟩
        have hno : managedSandboxID c.labels ≠ some id := by simpa using List.find?_eq_none.mp hnone c hmem
        exact hno hid

/-- **Destroy** removes one container that carries the id, and is content where there is none. -/
theorem destroy_finishes {r : Except Err Unit} (h : Finishes (destroy id) w log r w') :
    (r = .ok () ∧ Absent id w ∧ w'.backend = w.backend) ∨
      (∃ c ∈ w.backend.containers.rows, Carries id c ∧ w'.backend = w.backend.remove c.id) ∨
        w'.backend = w.backend ∧ r ≠ .ok () := by
  obtain ⟨l, l', r₁, w₁, -, hget, h⟩ := h.of_bind sameDaemon_refl
  obtain ⟨hsame, ⟨c, hc, rfl, hid⟩ | ⟨e, rfl, habsent, -⟩⟩ := getContainerBysandboxID_finishes hget
  · obtain ⟨l₁, l₂, r₂, w₂, -, hremove, h⟩ := h.of_bind sameDaemon_refl
    rcases removeContainer_finishes hremove with hb | ⟨hb, hr⟩
    · rw [hsame] at hb
      cases r₂ <;> exact .inr (.inl ⟨c, hc, hid, h.2.2.trans hb⟩)
    · cases r₂ with
      | ok u => exact absurd rfl hr
      | error e =>
        obtain ⟨-, rfl, hlast⟩ := h
        exact .inr (.inr ⟨(hlast.trans hb).trans hsame, by simp⟩)
  · dsimp only at h
    split at h
    · next hnf =>
      obtain ⟨-, rfl, hlast⟩ := h
      exact .inl ⟨rfl, habsent hnf, hlast.trans hsame⟩
    · obtain ⟨-, rfl, hlast⟩ := h
      exact .inr (.inr ⟨hlast.trans hsame, by simp⟩)

theorem inspect_absent {r : Except Err Runtime.Info} (hv : validateSandboxID id = .ok ()) (ha : Absent id w)
    (h : Finishes (inspect id) w log r w') (hlist : ∀ label e, ⟨.backend (.containerList label), .error e⟩ ∉ log) :
    ∃ e, r = .error e ∧ e.is .runtimeNotFound = true := by
  obtain ⟨l, l', r₁, w₁, rfl, hget, h⟩ := h.of_bind sameDaemon_refl
  obtain ⟨-, ⟨c, hc, -, hid⟩ | ⟨e, rfl, -, hnf⟩⟩ := getContainerBysandboxID_finishes hget
  · exact absurd hid (ha c hc)
  · obtain ⟨-, rfl, -⟩ := h
    refine ⟨_, rfl, ?_⟩
    rw [is_wrap]
    exact hnf hv fun label e hm => hlist label e (List.mem_append_left _ hm)

/-! ## Creations -/

/-- The call makes no container. -/
def MakesNothing (c : (calls signature).Call) : Prop := ∀ config host, c ≠ .backend (.containerCreate config host)

theorem moves_trans {a b c : Daemon} (h₁ : Daemon.Moves a b) (h₂ : Daemon.Moves b c) : Daemon.Moves a c := by
  intro x hx hm
  obtain ⟨y, hy, hid, hlabels⟩ := h₂ x hx hm
  obtain ⟨z, hz, hid', hlabels'⟩ := h₁ y hy (by rwa [hlabels])
  exact ⟨z, hz, hid'.trans hid, hlabels'.trans hlabels⟩

theorem moves_of_same {u v : World Daemon} (h : SameDaemon u v) : Daemon.Moves u.backend v.backend := by
  rw [show v.backend = u.backend from h]
  exact moves_refl _

theorem moves_perform {c : (calls signature).Call} (hc : MakesNothing c) {u v : World Daemon}
    {a : (calls signature).Answer c} (h : Backend.docker.perform c u a v) : Daemon.Moves u.backend v.backend := by
  cases c with
  | now | newSandboxID =>
    rw [h.2]
    exact moves_refl _
  | decide =>
    rw [show v = u from h]
    exact moves_refl _
  | store c =>
    obtain ⟨f, db, -, rfl⟩ := h
    exact moves_refl _
  | backend c =>
    obtain ⟨d, hact, rfl⟩ := h
    exact moves_act (fun config host he => hc config host (he ▸ rfl)) hact

theorem Finishes.moves {α : Type} {p : Program (calls signature) α} {r : α} (hp : p.Calls MakesNothing)
    (h : Finishes p w log r w') : Daemon.Moves w.backend w'.backend :=
  h.keeps (R := fun u v => Daemon.Moves u.backend v.backend) hp (fun _ _ _ => moves_trans)
    (fun _ hc _ _ _ => moves_perform hc) fun _ _ => moves_of_same

section Calls
variable {Q : (calls signature).Call → Prop}
  (hQ : ∀ c : Docker.Call, (∀ config host, c ≠ .containerCreate config host) → Q (.backend c))
include hQ

theorem pullImage_calls (image : String) : (pullImage image).Calls Q := by
  refine ⟨hQ _ (by simp), fun a => ?_⟩
  cases (a : Except DaemonError Unit) with
  | error e => trivial
  | ok u =>
    refine ⟨hQ _ (by simp), fun a => ?_⟩
    cases (a : Except DaemonError Unit) <;> trivial

theorem removeContainer_calls (containerID : String) : (removeContainer containerID).Calls Q := by
  refine ⟨hQ _ (by simp), fun a => ?_⟩
  cases (a : Except DaemonError Unit) with
  | ok u => trivial
  | error e =>
    show Program.Calls _ (if e.notFound then _ else _)
    split <;> trivial

theorem cleanupFailed_calls (op sandboxID containerID : String) (cause : Err) :
    (cleanupFailed op sandboxID containerID cause).Calls Q := by
  refine (removeContainer_calls hQ containerID).bind fun r => ?_
  cases r <;> trivial

end Calls

theorem makesNothing_backend (c : Docker.Call) (h : ∀ config host, c ≠ .containerCreate config host) :
    MakesNothing (.backend c) := by
  rintro config host he
  injection he with he
  exact h config host he

/-- What is managed after was managed before, or is the one container made. -/
def Makes (id : String) (d d' : Daemon) : Prop :=
  ∃ containerID, ∀ c' ∈ d'.containers.rows, isManaged c'.labels = true →
    (∃ c ∈ d.containers.rows, c.id = c'.id ∧ c.labels = c'.labels) ∨
      c'.id = containerID ∧ c'.labels = managedLabels id

theorem Makes.of_moves {d d' : Daemon} (h : Daemon.Moves d d') : Makes id d d' :=
  ⟨"", fun c' hc' hm => .inl (h c' hc' hm)⟩

theorem Makes.then_moves {d d' e : Daemon} (h : Makes id d d') (hm : Daemon.Moves d' e) : Makes id d e := by
  obtain ⟨containerID, hmade⟩ := h
  refine ⟨containerID, fun c' hc' hmanaged => ?_⟩
  obtain ⟨c, hc, hid, hlabels⟩ := hm c' hc' hmanaged
  rcases hmade c hc (by rwa [hlabels]) with ⟨c₀, hc₀, hid₀, hlabels₀⟩ | ⟨hid₀, hlabels₀⟩
  · exact .inl ⟨c₀, hc₀, hid₀.trans hid, hlabels₀.trans hlabels⟩
  · exact .inr ⟨hid ▸ hid₀, hlabels ▸ hlabels₀⟩

theorem make_container {config : Config} {hostConfig : HostConfig} {d d' : Daemon} {a : Except DaemonError String}
    (hlabels : config.labels = managedLabels id) (h : Daemon.act (.containerCreate config hostConfig) d a d') :
    Makes id d d' := by
  rcases h with ⟨created, containerID, -, rfl, -⟩ | ⟨rfl, -⟩
  · refine ⟨containerID, fun c' hc' _ => ?_⟩
    rcases mem_put hc' with hc' | rfl
    · exact .inl ⟨c', hc', rfl, rfl⟩
    · exact .inr ⟨rfl, hlabels⟩
  · exact .of_moves (moves_refl _)

/-- **Create** makes one container at most, whatever fails. -/
theorem create_finishes {host : Host} {spec : Runtime.Spec} {r : Except Err Runtime.Info}
    (h : Finishes (create host id spec) w log r w') : Makes id w.backend w'.backend := by
  unfold create at h
  cases hv : validateSandboxID id with
  | error e =>
    rw [hv] at h
    exact .of_moves (moves_of_same h.2.2)
  | ok u =>
    cases hconfig : newContainerConfigs host spec id with
    | error e =>
      rw [hv] at h
      dsimp only at h
      rw [hconfig] at h
      exact .of_moves (moves_of_same h.2.2)
    | ok configs =>
      obtain ⟨config, hostConfig⟩ := configs
      rw [hv] at h
      dsimp only at h
      rw [hconfig] at h
      obtain ⟨l, l', r₁, w₁, -, hpull, h⟩ := h.of_bind sameDaemon_refl
      have hpulled := Finishes.moves (pullImage_calls makesNothing_backend _) hpull
      cases r₁ with
      | error e => exact .of_moves (moves_trans hpulled (moves_of_same h.2.2))
      | ok u =>
        obtain ⟨w₂, a, w₃, rest, hsame, ⟨d, hact, rfl⟩, -, h⟩ := h
        have hbefore := moves_trans hpulled (moves_of_same hsame)
        obtain ⟨containerID, hmade⟩ := make_container (newContainerConfigs_labels hconfig) hact
        have hmade' : Makes id w.backend d := by
          refine ⟨containerID, fun c' hc' hm => ?_⟩
          rcases hmade c' hc' hm with ⟨c₀, hc₀, hid₀, hlabels₀⟩ | hnew
          · obtain ⟨c, hc, hid, hlabels⟩ := hbefore c₀ hc₀ (by rwa [hlabels₀])
            exact .inl ⟨c, hc, hid.trans hid₀, hlabels.trans hlabels₀⟩
          · exact .inr hnew
        -- what follows the creation starts the container or removes it
        refine hmade'.then_moves (Finishes.moves ?_ h)
        cases (a : Except DaemonError String) with
        | error e => trivial
        | ok containerID =>
          refine ⟨by simp [MakesNothing], fun a => ?_⟩
          cases (a : Except DaemonError Unit) with
          | error e => exact (cleanupFailed_calls makesNothing_backend _ _ _ _).bind fun _ => trivial
          | ok u => exact ⟨by simp [MakesNothing], fun _ => trivial⟩

end Methods

/-! ## Histories -/

inductive RuntimeCall
  | create (sandboxID : String) (spec : Runtime.Spec)
  | destroy (sandboxID : String)

def RuntimeCall.handle (host : Host) : RuntimeCall → Program (calls signature) (Except Err Unit)
  | .create id spec => do
    let r ← Docker.create host id spec
    return r.map fun _ => ()
  | .destroy id => Docker.destroy id

/-- A sequence of calls with their answers, the latest first, each issued where `ok` holds. -/
inductive Session (host : Host) (ok : RuntimeCall → World Daemon → Prop) (w₀ : World Daemon) :
    List (RuntimeCall × Except Err Unit) → World Daemon → Prop
  | nil : Session host ok w₀ [] w₀
  | cons {history : List (RuntimeCall × Except Err Unit)} {w w' : World Daemon} {call : RuntimeCall}
      {log : List (Exchange (calls signature))} {r : Except Err Unit} (h : Session host ok w₀ history w)
      (hok : ok call w) (hc : Finishes (call.handle host) w log r w') : Session host ok w₀ ((call, r) :: history) w'

/-- At most one container carries the id. -/
def Sole (id : String) (w : World Daemon) : Prop :=
  ∀ c ∈ w.backend.containers.rows, ∀ c' ∈ w.backend.containers.rows, Carries id c → Carries id c' → c = c'

/-- A creation is for an id that no container carries. -/
def FreshCreate : RuntimeCall → World Daemon → Prop
  | .create id _, w => Absent id w
  | .destroy _, _ => True

/-- Nothing is left of the sandbox, and an inspection whose listing succeeds reports it as not found. -/
def Destroyed (id : String) (w : World Daemon) : Prop :=
  Absent id w ∧ ∀ log r w', Finishes (inspect id) w log r w' →
    (∀ label e, ⟨.backend (.containerList label), .error e⟩ ∉ log) → ∃ e, r = .error e ∧ e.is .runtimeNotFound = true

section Claim
variable {host : Host} {w₀ w w' : World Daemon} {id : String} {log : List (Exchange (calls signature))}
  {history : List (RuntimeCall × Except Err Unit)}

theorem Sole.moves (h : Sole id w) (hm : Daemon.Moves w.backend w'.backend) : Sole id w' := by
  intro c hc c' hc' hid hid'
  obtain ⟨c₀, hc₀, he, hlabels⟩ := hm c hc hid.managed
  obtain ⟨c₀', hc₀', he', hlabels'⟩ := hm c' hc' hid'.managed
  have hsame : c₀ = c₀' := h c₀ hc₀ c₀' hc₀' (by rwa [Carries, hlabels]) (by rwa [Carries, hlabels'])
  exact Table.eq_of_key hc hc' (by rw [← he, ← he', hsame])

/-- A creation for an id that is free adds no second container to any id. -/
theorem Sole.makes {made : String} (h : Sole id w) (ha : Absent made w) (hm : Makes made w.backend w'.backend) :
    Sole id w' := by
  obtain ⟨containerID, hmade⟩ := hm
  have hnew : ∀ c, Carries id c → c.labels = managedLabels made → id = made := by
    intro c hid hlabels
    have hget := (managedSandboxID_eq_some_iff.mp hid).2.1
    rw [hlabels] at hget
    rw [← hget]
    simp [StringMap.get, managedLabels_entries]
  intro c hc c' hc' hid hid'
  rcases hmade c hc hid.managed with ⟨c₀, hc₀, he, hlabels⟩ | ⟨he, hlabels⟩ <;>
    rcases hmade c' hc' hid'.managed with ⟨c₀', hc₀', he', hlabels'⟩ | ⟨he', hlabels'⟩
  · have hsame : c₀ = c₀' := h c₀ hc₀ c₀' hc₀' (by rwa [Carries, hlabels]) (by rwa [Carries, hlabels'])
    exact Table.eq_of_key hc hc' (by rw [← he, ← he', hsame])
  · have hmid := hnew c' hid' hlabels'
    exact absurd (by rw [Carries, hlabels, ← hmid]; exact hid) (ha c₀ hc₀)
  · have hmid := hnew c hid hlabels
    exact absurd (by rw [Carries, hlabels', ← hmid]; exact hid') (ha c₀' hc₀')
  · exact Table.eq_of_key hc hc' (he.trans he'.symm)

/-- **Run lemma**: while every creation is for a free id, no id has two containers. -/
theorem sole_session (h₀ : ∀ c ∈ w₀.backend.containers.rows, isManaged c.labels = false)
    (h : Session host FreshCreate w₀ history w) (id : String) : Sole id w := by
  induction h with
  | nil =>
    intro c hc c' _ hid _
    have hm := hid.managed
    rw [h₀ c hc] at hm
    cases hm
  | @cons history w w' call log r h hok hc ih =>
    cases call with
    | create made spec =>
      obtain ⟨l, l', r', w₁, -, hcreate, hrest⟩ := hc.of_bind sameDaemon_refl
      exact Sole.moves (Sole.makes ih hok (create_finishes hcreate)) (moves_of_same hrest.2.2)
    | destroy gone =>
      rcases destroy_finishes hc with ⟨-, -, hb⟩ | ⟨c, -, -, hb⟩ | ⟨hb, -⟩
      · exact ih.moves (moves_of_same hb)
      · exact ih.moves (hb ▸ moves_remove _ _)
      · exact ih.moves (moves_of_same hb)

/-- A destroy that succeeds leaves nothing exactly where no second container carried the id. -/
theorem destroyed_iff (hv : validateSandboxID id = .ok ()) (h : Finishes (destroy id) w log (.ok ()) w') :
    Destroyed id w' ↔ Sole id w := by
  constructor
  · rintro ⟨habsent, -⟩ c hc c' hc' hid hid'
    rcases destroy_finishes h with ⟨-, hnone, -⟩ | ⟨x, -, -, hb⟩ | ⟨-, hr⟩
    · exact absurd hid (hnone c hc)
    · have hgone : ∀ y ∈ w.backend.containers.rows, Carries id y → y.id = x.id := by
        intro y hy hyid
        by_contra hne
        refine habsent y ?_ hyid
        rw [hb]
        exact List.mem_filter.mpr ⟨hy, by simpa using hne⟩
      exact Table.eq_of_key hc hc' ((hgone c hc hid).trans (hgone c' hc' hid').symm)
    · exact absurd rfl hr
  · intro hsole
    have habsent : Absent id w' := by
      rcases destroy_finishes h with ⟨-, hnone, hb⟩ | ⟨x, hx, hxid, hb⟩ | ⟨-, hr⟩
      · rw [Absent, hb]
        exact hnone
      · intro c hc hid
        rw [hb] at hc
        obtain ⟨hc, hne⟩ := List.mem_filter.mp hc
        rw [hsole c hc x hx hid hxid] at hne
        simp at hne
      · exact absurd rfl hr
    exact ⟨habsent, fun log r w'' hi hl => inspect_absent hv habsent hi hl⟩

/-- **Destroy's postcondition**, over every history from no managed containers, whatever fails: a destroy that answers
nil leaves nothing if and only if at most one container carried the id when it was called; and in a history that
creates no sandbox while a container carries its id, that is always so. -/
theorem destroy_postcondition (h₀ : ∀ c ∈ w₀.backend.containers.rows, isManaged c.labels = false) :
    (∀ history w id log w', Session host (fun _ _ => True) w₀ history w → validateSandboxID id = .ok () →
      Finishes (destroy id) w log (.ok ()) w' → (Destroyed id w' ↔ Sole id w)) ∧
    ∀ history w id log w', Session host FreshCreate w₀ history w → validateSandboxID id = .ok () →
      Finishes (destroy id) w log (.ok ()) w' → Destroyed id w' :=
  ⟨fun _ _ _ _ _ _ hv h => destroyed_iff hv h,
    fun _ _ id _ _ hs hv h => (destroyed_iff hv h).mpr (sole_session h₀ hs id)⟩

end Claim

/-! ### Where nothing fails -/

def exampleSpec : Runtime.Spec := ⟨"alpine:3.20", none, .finite 1, 536870912, 256, false⟩

def RuntimeCall.run (call : RuntimeCall) (w : World Daemon) : Except Err Unit × World Daemon :=
  (call.handle exampleHost).run dockerExec w

theorem handle_finishes (call : RuntimeCall) (w : World Daemon) :
    ∃ log, Finishes (call.handle exampleHost) w log (call.run w).1 (call.run w).2 := by
  obtain ⟨log, hlog, -⟩ := Program.completes_run sameDaemon_refl dockerExec_performs (call.handle exampleHost) w
  exact ⟨log, hlog⟩

theorem Session.call {ok : RuntimeCall → World Daemon → Prop} {w₀ w : World Daemon}
    {history : List (RuntimeCall × Except Err Unit)} (h : Session exampleHost ok w₀ history w) (call : RuntimeCall)
    (hok : ok call w) : Session exampleHost ok w₀ ((call, (call.run w).1) :: history) (call.run w).2 := by
  obtain ⟨log, hlog⟩ := handle_finishes call w
  exact h.cons hok hlog

def noContainers : World Daemon := ⟨.empty, 0, .empty⟩

/-- The world after one creation, from nothing. -/
def createdOnce : World Daemon := (RuntimeCall.run (.create exampleID exampleSpec) noContainers).2

/-- The world after two creations for one id. -/
def createdTwice : World Daemon := (RuntimeCall.run (.create exampleID exampleSpec) createdOnce).2

/-- What the daemon has, as a listing tells it. -/
def containersOf (w : World Daemon) : List (Option String × String) :=
  w.backend.containers.rows.map fun c => (managedSandboxID c.labels, c.state)

theorem createdOnce_session {ok : RuntimeCall → World Daemon → Prop}
    (hok : ok (.create exampleID exampleSpec) noContainers) :
    Session exampleHost ok noContainers
      [(.create exampleID exampleSpec, (RuntimeCall.run (.create exampleID exampleSpec) noContainers).1)] createdOnce :=
  Session.nil.call _ hok

theorem absent_noContainers : Absent exampleID noContainers := fun _ hc => nomatch hc

theorem destroy_run {w : World Daemon} (h : (RuntimeCall.run (.destroy exampleID) w).1.isOk = true) :
    ∃ log, Finishes (destroy exampleID) w log (.ok ()) (RuntimeCall.run (.destroy exampleID) w).2 := by
  obtain ⟨⟨⟩, hok⟩ := exists_ok_of_isOk h
  obtain ⟨log, hlog⟩ := handle_finishes (.destroy exampleID) w
  rw [hok] at hlog
  exact ⟨log, hlog⟩

theorem destroy_postcondition_created : ∃ history w log w',
    Session exampleHost FreshCreate noContainers history w ∧ containersOf w = [(some exampleID, "running")] ∧
    Finishes (destroy exampleID) w log (.ok ()) w' ∧ Destroyed exampleID w' := by
  have hfresh : FreshCreate (.create exampleID exampleSpec) noContainers := absent_noContainers
  have hsession := createdOnce_session hfresh
  obtain ⟨log, hlog⟩ := destroy_run (w := createdOnce) (by decide +kernel)
  have hunmanaged : ∀ c ∈ noContainers.backend.containers.rows, isManaged c.labels = false := fun _ hc => nomatch hc
  have hdestroyed := (destroy_postcondition hunmanaged).2 _ createdOnce exampleID log _ hsession
    validateSandboxID_exampleID hlog
  exact ⟨_, createdOnce, log, _, hsession, by decide +kernel, hlog, hdestroyed⟩

/-- Two creations for one id and a destroy that answers nil leave a container of the id running. -/
theorem destroy_leaves_second : ∃ history w log w',
    Session exampleHost (fun _ _ => True) noContainers history w ∧
    history.map (·.1) = [.create exampleID exampleSpec, .create exampleID exampleSpec] ∧
    validateSandboxID exampleID = .ok () ∧ Finishes (destroy exampleID) w log (.ok ()) w' ∧
    containersOf w' = [(some exampleID, "running")] ∧ ¬Destroyed exampleID w' := by
  have honce : Session exampleHost (fun _ _ => True) noContainers _ createdOnce := createdOnce_session trivial
  have hsession := honce.call (.create exampleID exampleSpec) trivial
  obtain ⟨log, hlog⟩ := destroy_run (w := createdTwice) (by decide +kernel)
  have hleft : containersOf (RuntimeCall.run (.destroy exampleID) createdTwice).2 = [(some exampleID, "running")] := by
    decide +kernel
  refine ⟨_, createdTwice, log, _, hsession, rfl, validateSandboxID_exampleID, hlog, hleft, fun hd => ?_⟩
  have hmem : (some exampleID, "running") ∈ containersOf (RuntimeCall.run (.destroy exampleID) createdTwice).2 := by
    rw [hleft]
    exact List.mem_cons_self ..
  obtain ⟨c, hc, he⟩ := List.mem_map.mp hmem
  exact hd.1 c hc (Prod.ext_iff.mp he).1

end Docker
end Quickspin
