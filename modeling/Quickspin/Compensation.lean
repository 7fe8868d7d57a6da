import Quickspin.Destroy
import Quickspin.Store.Atomicity

/-! What `ActionCreate` leaves when one of its three calls fails, on any runtime that keeps the contract:
the write-back that does not commit is undone by a removal, and a removal that fails is reported beside
what it was to undo. The others may do anything to the tables while the container is being created. -/
namespace Quickspin
open Interaction
set_option autoImplicit false

/-! ## What an error exposes -/

/-- `errors.Is` by the error value itself: `t` is found by unwrapping `e`. -/
inductive Err.Reaches : Err → Err → Prop
  | self (e : Err) : Reaches e e
  | inner {op message : String} {e t : Err} (h : Reaches e t) : Reaches (.envelope op message (some e)) t
  | joined {errs : List Err} {e t : Err} (he : e ∈ errs) (h : Reaches e t) : Reaches (.join errs) t

theorem Err.Reaches.wrap {e t : Err} (h : e.Reaches t) (op message : String) : (wrap op message e).Reaches t :=
  .inner h

theorem Err.reaches_left (a b : Err) : (joinErr a b).Reaches a := .joined (List.mem_cons_self ..) (.self a)

theorem Err.reaches_right (a b : Err) : (joinErr a b).Reaches b :=
  .joined (List.mem_cons_of_mem _ (List.mem_cons_self ..)) (.self b)

theorem Err.Reaches.is {e t : Err} {s : Sentinel} (h : e.Reaches t) (ht : t.is s = true) : e.is s = true := by
  have hany : ∀ (errs : List Err) (x : Err), x ∈ errs → x.is s = true → Err.anyIs errs s = true := by
    intro errs x hx hs
    induction errs with
    | nil => cases hx
    | cons first rest ih =>
      rw [Err.anyIs, Bool.or_eq_true]
      rcases List.mem_cons.mp hx with rfl | hx
      · exact .inl hs
      · exact .inr (ih hx)
  induction h with
  | self e => exact ht
  | inner _ ih =>
    rw [Err.is]
    exact ih ht
  | joined he _ ih =>
    rw [Err.is]
    exact hany _ _ he (ih ht)

/-! ## The runtime's part -/

/-- What the reconciler relies on: `absent` says that no container carries the id and `up` that one does and runs;
`Leaked e cause removal`, that the error `e` of a creation stands for `cause`, after which removing the container
failed with `removal`. -/
structure Contract {ρ : Type} (B : Backend Runtime.signature ρ) (absent up : ρ → String → Prop)
    (Leaked : Err → Err → Err → Prop) : Prop where
  create_ok : ∀ id spec r info r', B.act (.create id spec) r (.ok info) r' → absent r id → up r' id
  create_error : ∀ id spec r e r', B.act (.create id spec) r (.error e) r' → absent r id →
    absent r' id ∨ ∃ cause removal, Leaked e cause removal
  leaked : ∀ e cause removal, Leaked e cause removal → e.Reaches cause ∧ e.Reaches removal
  destroy_ok : ∀ id r r', B.act (.destroy id) r (.ok ()) r' → up r id → absent r' id

/-- The world, and the tables as the others last left them. -/
structure Watched (ρ : Type) where
  world : World ρ
  left : Database

/-- While a container is created the others may leave the tables in any state; a write that fails is not applied. -/
def Watched.act {ρ : Type} (B : Backend Runtime.signature ρ) :
    (c : (calls Runtime.signature).Call) → Watched ρ → (calls Runtime.signature).Answer c → Watched ρ → Prop
  | .backend (.create id spec), s, a, s' =>
    B.act (.create id spec) s.world.backend a s'.world.backend ∧ s'.left = s'.world.db
  | .store c, s, a, s' => s'.left = s.left ∧
    ∃ (f : Faults) (db : Database), f.RollsBack ∧ c.exec f s.world.clock s.world.db = (a, db) ∧ s'.world = { s.world with db }
  | c, s, a, s' => s'.left = s.left ∧ B.perform c s.world a s'.world

section Claim
variable {ρ : Type} {B : Backend Runtime.signature ρ} {absent up : ρ → String → Prop}
  {Leaked : Err → Err → Err → Prop} {s s' : Watched ρ} {log : List (Exchange (calls Runtime.signature))}
  {sbx : Sandbox} {r : Except Err Unit}

/-- The row of the id has been moved on by one version, with one event. -/
structure Advanced (id : String) (version : ℤ) (toState : TaskState) (db db' : Database) : Prop where
  row : ∃ row, db'.sandbox? id = some row ∧ row.state = toState ∧ row.versionId = version + 1
  gains : Gains id 1 db db'

/-- A guarded write moved the row on from what it read, or failed and changed nothing. -/
theorem updateSandboxState_watched {id reason : String} {a b : TaskState} {v : ℤ} {x : Except Err Sandbox}
    (h : Watched.act B (.store (.updateSandboxState id a b reason v)) s x s') :
    s'.left = s.left ∧ s'.world.backend = s.world.backend ∧ (∀ e, x = .error e → s'.world.db = s.world.db) ∧
      ∀ sbx, x = .ok sbx → Advanced id v b s.world.db s'.world.db := by
  obtain ⟨hleft, f, db, hf, he, hw⟩ := h
  rw [hw]
  refine ⟨hleft, rfl, fun e hx => ?_, fun sbx hx => ?_⟩
  · subst hx
    exact Sqlite.updateSandboxState_error hf he
  · subst hx
    rcases Sqlite.updateSandboxState_cases he with ⟨row, sbx', ht, -, hversion, -⟩ | ⟨-, e, hr, -⟩
    · refine ⟨⟨row.moveTo b s.world.clock.currentTimestamp, ?_, rfl, ?_⟩, ht.gains⟩
      · rw [ht.sandbox, if_pos rfl]
      · rw [← hversion]
        rfl
    · cases hr

theorem mark_watched {toState : TaskState} {reason describing : String}
    (h : (Reconciler.mark sbx toState reason describing).Completes (Watched.act B) Eq s log r s') :
    s'.left = s.left ∧ s'.world.backend = s.world.backend ∧ (∀ c a, ⟨.backend c, a⟩ ∉ log) ∧
      (∀ e, r = .error e → s'.world.db = s.world.db) ∧
      (r = .ok () → Advanced sbx.sandboxID sbx.versionID toState s.world.db s'.world.db) := by
  obtain ⟨_, x, s₁, rest, rfl, hact, rfl, h⟩ := h
  obtain ⟨hleft, hbackend, herror, hok⟩ := updateSandboxState_watched hact
  cases x with
  | error e =>
    obtain ⟨rfl, rfl, rfl⟩ := h
    exact ⟨hleft, hbackend, by simp, fun _ _ => herror e rfl, fun hr => nomatch hr⟩
  | ok sbx' =>
    obtain ⟨rfl, rfl, rfl⟩ := h
    exact ⟨hleft, hbackend, by simp, fun _ hr => (nomatch hr), fun _ => hok sbx' rfl⟩

/-- Removing the container failed: in the runtime's own cleanup of a creation that failed with `cause`, or as the
undoing of a creation whose write-back failed with it. -/
def RemovalFailed (Leaked : Err → Err → Err → Prop) (id : String) (log : List (Exchange (calls Runtime.signature)))
    (cause removal : Err) : Prop :=
  (∃ spec e, ⟨.backend (.create id spec), .error e⟩ ∈ log ∧ Leaked e cause removal) ∨
    (∃ v, ⟨.store (.updateSandboxState id .pending .running "reconciler created container" v), .error cause⟩ ∈ log) ∧
      ⟨.backend (.destroy id), .error removal⟩ ∈ log

/-- What an action that answers nil has done: the container is up and recorded, or the row of a spec that does not
resolve has failed and the runtime was not asked. -/
def CreateSettled (up : ρ → String → Prop) (sbx : Sandbox) (s' : Watched ρ)
    (log : List (Exchange (calls Runtime.signature))) : Prop :=
  (Advanced sbx.sandboxID sbx.versionID .running s'.left s'.world.db ∧
      up s'.world.backend sbx.sandboxID) ∨
    (∃ e, sbx.spec.resolveValidated = .error e) ∧
      Advanced sbx.sandboxID sbx.versionID .failed s'.left s'.world.db ∧ ∀ c a, ⟨.backend c, a⟩ ∉ log

/-- What an action that fails has left: the tables as the others left them, and no container unless removing it
failed, which the error tells. -/
def CreateUndone (absent : ρ → String → Prop) (Leaked : Err → Err → Err → Prop) (id : String)
    (s' : Watched ρ) (log : List (Exchange (calls Runtime.signature))) (e : Err) : Prop :=
  s'.world.db = s'.left ∧ (absent s'.world.backend id ∨
    ∃ cause removal, RemovalFailed Leaked id log cause removal ∧ e.Reaches cause ∧ e.Reaches removal)

theorem destroy_watched (hB : Contract B absent up Leaked) {id : String} {x : Except Err Unit}
    (hup : up s.world.backend id) (h : Watched.act B (.backend (.destroy id)) s x s') :
    s'.left = s.left ∧ s'.world.db = s.world.db ∧ (x = .ok () → absent s'.world.backend id) := by
  obtain ⟨hleft, b, hact, hw⟩ := h
  rw [hw]
  refine ⟨hleft, rfl, fun hx => ?_⟩
  subst hx
  exact hB.destroy_ok id _ b hact hup

theorem handleCreate_watched (hB : Contract B absent up Leaked) (hleft : s.left = s.world.db)
    (hnone : absent s.world.backend sbx.sandboxID)
    (h : (Reconciler.handleCreate sbx).Completes (Watched.act B) Eq s log r s') :
    (r = .ok () → CreateSettled up sbx s' log) ∧
      ∀ e, r = .error e → CreateUndone absent Leaked sbx.sandboxID s' log e := by
  unfold Reconciler.handleCreate at h
  cases hr : sbx.spec.resolveValidated with
  | error err =>
    rw [hr] at h
    obtain ⟨hleft', hbackend, hcalls, herror, hok⟩ := mark_watched h
    refine ⟨fun hr' => .inr ⟨⟨err, hr⟩, ?_, hcalls⟩, fun e he => ⟨?_, .inl ?_⟩⟩
    · rw [hleft', hleft]
      exact hok hr'
    · rw [hleft', hleft]
      exact herror e he
    · rw [hbackend]
      exact hnone
  | ok resolved =>
    rw [hr] at h
    obtain ⟨_, a, s₁, rest, rfl, ⟨hact, hleft₁⟩, rfl, h⟩ := h
    cases a with
    | error err =>
      obtain ⟨rfl, rfl, rfl⟩ := h
      refine ⟨fun hr' => (nomatch hr'), fun e he => ⟨hleft₁.symm, ?_⟩⟩
      obtain rfl := Except.error.inj he
      rcases hB.create_error _ _ _ _ _ hact hnone with hgone | ⟨cause, removal, hleak⟩
      · exact .inl hgone
      · obtain ⟨hcause, hremoval⟩ := hB.leaked _ _ _ hleak
        exact .inr ⟨cause, removal, .inl ⟨resolved, err, List.mem_cons_self .., hleak⟩, .inner hcause, .inner hremoval⟩
    | ok info =>
      have hup := hB.create_ok _ _ _ _ _ hact hnone
      obtain ⟨_, x, s₂, rest, rfl, hwrite, rfl, h⟩ := h
      obtain ⟨hleft₂, hbackend, herror, hok⟩ := updateSandboxState_watched hwrite
      rw [← hbackend] at hup
      rw [← hleft₁, ← hleft₂] at herror hok
      cases x with
      | ok sbx' =>
        obtain ⟨rfl, rfl, rfl⟩ := h
        exact ⟨fun _ => .inl ⟨hok sbx' rfl, hup⟩, fun _ hr' => nomatch hr'⟩
      | error err =>
        -- the write-back did not commit, so the container is removed
        obtain ⟨_, y, s₃, rest, rfl, hdestroy, rfl, h⟩ := h
        obtain ⟨hleft₃, hdb, hgone⟩ := destroy_watched hB hup hdestroy
        have htables : s₃.world.db = s₃.left := by
          rw [hdb, hleft₃]
          exact herror err rfl
        cases y with
        | ok u =>
          obtain ⟨rfl, rfl, rfl⟩ := h
          exact ⟨fun hr' => (nomatch hr'), fun e _ => ⟨htables, .inl (hgone rfl)⟩⟩
        | error destroyErr =>
          obtain ⟨rfl, rfl, rfl⟩ := h
          refine ⟨fun hr' => (nomatch hr'), fun e he => ⟨htables, .inr ⟨err, destroyErr, ?_, ?_⟩⟩⟩
          · exact .inr ⟨⟨sbx.versionID, by simp⟩, by simp⟩
          · obtain rfl := Except.error.inj he
            exact ⟨.inner (Err.reaches_left err destroyErr), .inner (Err.reaches_right err destroyErr)⟩

/-- **Compensation in ActionCreate**, for every row without a container, whatever the others do to the tables
meanwhile and whatever fails. -/
theorem handleAction_create_compensates (hB : Contract B absent up Leaked) (hleft : s.left = s.world.db)
    (hnone : absent s.world.backend sbx.sandboxID)
    (h : (Reconciler.handleAction .create (some sbx) none).Completes (Watched.act B) Eq s log r s') :
    (r = .ok () → CreateSettled up sbx s' log) ∧
      ∀ e, r = .error e → CreateUndone absent Leaked sbx.sandboxID s' log e := by
  change Program.Completes _ _ (if _ then _ else _) s log r s' at h
  split at h
  · obtain ⟨rfl, rfl, rfl⟩ := h
    exact ⟨fun hr => (nomatch hr), fun e _ => ⟨hleft.symm, .inl hnone⟩⟩
  · exact handleCreate_watched hB hleft hnone h

end Claim

/-! ## Docker keeps the contract -/

namespace Docker

/-- No container carries the id. -/
def Free (id : String) (d : Daemon) : Prop := ∀ c ∈ d.containers.rows, ¬Carries id c

/-- One container carries the id, and it runs. -/
def Up (id : String) (d : Daemon) : Prop :=
  ∃ c ∈ d.containers.rows, Carries id c ∧ stateFromContainerState c.state = .running ∧
    ∀ c' ∈ d.containers.rows, Carries id c' → c' = c

/-- The daemon's calls where a container creation that fails has made none. -/
def cleanAct : (c : (calls signature).Call) → World Daemon → (calls signature).Answer c → World Daemon → Prop
  | .backend (.containerCreate config hostConfig), w, a, w' =>
    Backend.docker.perform (.backend (.containerCreate config hostConfig)) w a w' ∧ ((∃ e, a = .error e) → w' = w)
  | c, w, a, w' => Backend.docker.perform c w a w'

/-- The methods as a runtime, nobody else acting on the daemon meanwhile. -/
def runtimeBackend (host : Host) : Backend Runtime.signature Daemon where
  act c d a d' := ∃ w log w', w.backend = d ∧ w'.backend = d' ∧
    (impl host (.backend c)).Completes cleanAct SameDaemon w log a w'
  env := Daemon.Moves

/-- The error is `cleanupFailed`'s report of a container it could not remove. -/
def Leaked (e cause removal : Err) : Prop := ∃ op message, e = wrap op message (joinErr cause removal)

section Methods
variable {w w' : World Daemon} {log : List (Exchange (calls signature))} {id : String} {d d' : Daemon}

theorem finishes_of_clean {α : Type} {p : Program (calls signature) α} {r : α}
    (h : p.Completes cleanAct SameDaemon w log r w') : Finishes p w log r w' := by
  refine h.mono (fun c u a v hact => ?_) fun _ _ h => h
  cases c with
  | backend c =>
    cases c with
    | containerCreate config hostConfig => exact hact.1
    | containerList | imagePull | pullWait | containerStart | containerRemove => exact hact
  | now | newSandboxID | store | decide => exact hact

theorem Free.moves (h : Free id d) (hm : Daemon.Moves d d') : Free id d' := by
  intro c' hc' hid
  obtain ⟨c, hc, -, hlabels⟩ := hm c' hc' hid.managed
  exact h c hc (by rwa [Carries, hlabels])

theorem free_remove {containerID : String} (h : ∀ c ∈ d.containers.rows, Carries id c → c.id = containerID) :
    Free id (d.remove containerID) := by
  intro c hc hid
  obtain ⟨hc, hne⟩ := List.mem_filter.mp hc
  have hsame := h c hc hid
  simp [hsame] at hne

theorem destroy_frees (hup : Up id w.backend) (h : Finishes (destroy id) w log (.ok ()) w') :
    Free id w'.backend := by
  obtain ⟨only, -, -, -, honly⟩ := hup
  rcases destroy_finishes h with ⟨-, habsent, hb⟩ | ⟨c, hc, hid, hb⟩ | ⟨-, hr⟩
  · rw [hb]
    exact habsent
  · rw [hb]
    refine free_remove fun c' hc' hid' => ?_
    rw [honly c' hc' hid', honly c hc hid]
  · exact absurd rfl hr

/-- What is left after the cleanup, and what it reports. -/
theorem cleanupFailed_finishes {op containerID : String} {cause e : Err}
    (honly : ∀ c ∈ w.backend.containers.rows, Carries id c → c.id = containerID)
    (h : Finishes (cleanupFailed op id containerID cause) w log e w') :
    Free id w'.backend ∨ ∃ removal, Leaked e cause removal := by
  obtain ⟨l, l', r₁, w₁, -, hremove, h⟩ := h.of_bind sameDaemon_refl
  cases r₁ with
  | error removal =>
    obtain ⟨-, rfl, -⟩ := h
    exact .inr ⟨removal, _, _, rfl⟩
  | ok u =>
    rcases removeContainer_finishes hremove with hb | ⟨-, hr⟩
    · rw [show w'.backend = w₁.backend from h.2.2, hb]
      exact .inl (free_remove honly)
    · exact absurd rfl hr

theorem up_start {c : Summary} (hfree : Free id d) (hid : Carries id c) : Up id ((d.put c).start c.id) := by
  have hmem : c ∈ (d.put c).containers.rows := List.mem_append_right _ (List.mem_singleton.mpr rfl)
  refine ⟨{ c with state := "running" }, List.mem_map.mpr ⟨c, hmem, if_pos rfl⟩, hid, rfl, fun c' hc' hid' => ?_⟩
  obtain ⟨c₀, hc₀, rfl⟩ := List.mem_map.mp hc'
  rcases mem_put hc₀ with hold | rfl
  · have hid₀ : Carries id c₀ := by
      by_cases hsame : c₀.id = c.id
      · rwa [if_pos hsame] at hid'
      · rwa [if_neg hsame] at hid'
    exact absurd hid₀ (hfree c₀ hold)
  · exact if_pos rfl

/-- However its start went, the container made is the only one that carries the id. -/
theorem only_started {c : Summary} (hfree : Free id d)
    (hd : d' = (d.put c).start c.id ∨ d' = d.put c) : ∀ c' ∈ d'.containers.rows, Carries id c' → c'.id = c.id := by
  have hput : ∀ c' ∈ (d.put c).containers.rows, Carries id c' → c'.id = c.id := by
    intro c' hc' hid'
    rcases mem_put hc' with hold | rfl
    · exact absurd hid' (hfree c' hold)
    · rfl
  rcases hd with rfl | rfl
  · intro c' hc' hid'
    obtain ⟨c₀, hc₀, he, hlabels⟩ := moves_start (d.put c) c.id c' hc' hid'.managed
    rw [← he]
    exact hput c₀ hc₀ (by rwa [Carries, hlabels])
  · exact hput

/-- A creation that ended with an error where no container carries the id. -/
theorem refused_contract {r : Except Err Runtime.Info} {e : Err} (hfree : Free id w.backend)
    (h : r = .error e ∧ SameDaemon w w') : (∀ info, r = .ok info → Up id w'.backend) ∧
      ∀ e, r = .error e → Free id w'.backend ∨ ∃ cause removal, Leaked e cause removal := by
  obtain ⟨rfl, hsame⟩ := h
  refine ⟨fun _ hr => (nomatch hr), fun _ _ => .inl ?_⟩
  rw [show w'.backend = w.backend from hsame]
  exact hfree

/-- **Create** leaves one running container, or none, or tells of the one it could not remove. -/
theorem create_contract {host : Host} {spec : Runtime.Spec} {r : Except Err Runtime.Info} (hfree : Free id w.backend)
    (h : (create host id spec).Completes cleanAct SameDaemon w log r w') :
    (∀ info, r = .ok info → Up id w'.backend) ∧
      ∀ e, r = .error e → Free id w'.backend ∨ ∃ cause removal, Leaked e cause removal := by
  unfold create at h
  cases hv : validateSandboxID id with
  | error e =>
    rw [hv] at h
    exact refused_contract hfree h.2
  | ok u =>
    cases hconfig : newContainerConfigs host spec id with
    | error e =>
      rw [hv] at h
      dsimp only at h
      rw [hconfig] at h
      exact refused_contract hfree h.2
    | ok configs =>
      obtain ⟨config, hostConfig⟩ := configs
      rw [hv] at h
      dsimp only at h
      rw [hconfig] at h
      obtain ⟨l, l', r₁, w₁, -, hpull, h⟩ := h.of_bind sameDaemon_refl
      have hpulled := hfree.moves (Finishes.moves (pullImage_calls makesNothing_backend _) (finishes_of_clean hpull))
      cases r₁ with
      | error e => exact refused_contract hpulled h.2
      | ok u =>
        obtain ⟨w₂, a, w₃, rest, hsame, ⟨⟨d, hact, hw₃⟩, hclean⟩, -, h⟩ := h
        have hsame : w₂.backend = w₁.backend := hsame
        cases a with
        | error e =>
          have hsame₃ : w₃ = w₂ := hclean ⟨e, rfl⟩
          rw [hsame₃] at h
          exact refused_contract (hsame ▸ hpulled) h.2
        | ok containerID =>
          rcases hact with ⟨created, cid, hfresh, rfl, hcid⟩ | ⟨-, e, he⟩
          · obtain rfl := hcid containerID rfl
            have hid : Carries id ⟨containerID, config.labels, "created", created⟩ := by
              rw [Carries, newContainerConfigs_labels hconfig]
              exact managedSandboxID_managedLabels hv
            have hfree₂ : Free id w₂.backend := hsame ▸ hpulled
            obtain ⟨w₄, b, w₅, rest, hsame₄, hstart, -, h⟩ := finishes_of_clean h
            obtain ⟨d', hact, rfl⟩ := hstart
            rw [show w₄.backend = w₃.backend from hsame₄, hw₃] at hact
            have hact : d' = (w₂.backend.put ⟨containerID, config.labels, "created", created⟩).start containerID ∨
                d' = w₂.backend.put ⟨containerID, config.labels, "created", created⟩ ∧ ∃ e, b = .error e := hact
            cases b with
            | ok x =>
              obtain ⟨w₆, t, w₇, rest, hsame₆, ⟨-, hnow⟩, -, h⟩ := h
              obtain ⟨-, rfl, hlast⟩ := h
              refine ⟨fun _ _ => ?_, fun _ hr => by cases hr⟩
              rcases hact with rfl | ⟨-, e, he⟩
              · rw [show w'.backend = w₇.backend from hlast, hnow, show w₆.backend = _ from hsame₆]
                exact up_start hfree₂ hid
              · cases he
            | error err =>
              dsimp only [Program.bind] at h
              obtain ⟨l, l', e, w₆, -, hcleanup, h⟩ := h.of_bind sameDaemon_refl
              obtain ⟨-, rfl, hlast⟩ := h
              refine ⟨fun _ hr => (by cases hr), fun e' he => ?_⟩
              obtain rfl := Except.error.inj he
              rw [show w'.backend = w₆.backend from hlast]
              have honly := only_started hfree₂ (hact.imp_right And.left)
              rcases cleanupFailed_finishes honly hcleanup with hgone | hleak
              · exact .inl hgone
              · exact .inr ⟨_, hleak⟩
          · cases he

end Methods

/-- **Docker keeps the contract** where a container creation that fails has made none. -/
theorem docker_contract (host : Host) :
    Contract (runtimeBackend host) (fun d id => Free id d) (fun d id => Up id d) Leaked where
  create_ok := by
    rintro id spec d info d' ⟨w, log, w', rfl, rfl, h⟩ hfree
    exact (create_contract hfree h).1 info rfl
  create_error := by
    rintro id spec d e d' ⟨w, log, w', rfl, rfl, h⟩ hfree
    exact (create_contract hfree h).2 e rfl
  leaked := by
    rintro e cause removal ⟨op, message, rfl⟩
    exact ⟨.inner (Err.reaches_left cause removal), .inner (Err.reaches_right cause removal)⟩
  destroy_ok := by
    rintro id d d' ⟨w, log, w', rfl, rfl, h⟩ hup
    exact destroy_frees hup (finishes_of_clean h)

end Docker

/-! ### A creation nothing fails in -/

/-- The runtime over a daemon nothing fails at. -/
def runtimeExec (c : Runtime.Call) (w : World Daemon) : c.Answer × World Daemon :=
  (Docker.impl exampleHost (.backend c)).run dockerExec w

theorem runtimeExec_acts (c : Runtime.Call) (w : World Daemon) :
    (Docker.runtimeBackend exampleHost).act c w.backend (runtimeExec c w).1 (runtimeExec c w).2.backend := by
  have hclean : ∀ c w, Docker.cleanAct c w (dockerExec c w).1 (dockerExec c w).2 := by
    intro c w
    have hact := dockerExec_performs c w
    cases c with
    | backend c =>
      cases c with
      | containerCreate config hostConfig => exact ⟨hact, fun ⟨e, he⟩ => nomatch he⟩
      | containerList | imagePull | pullWait | containerStart | containerRemove => exact hact
    | now | newSandboxID | store | decide => exact hact
  obtain ⟨log, h, -⟩ := Program.completes_run Docker.sameDaemon_refl hclean (Docker.impl exampleHost (.backend c)) w
  exact ⟨w, log, _, rfl, rfl, h⟩

/-- The reconciler's calls, the others doing nothing. -/
def watchedExec : (c : (calls Runtime.signature).Call) → Watched Daemon →
    (calls Runtime.signature).Answer c × Watched Daemon
  | .now, s => (s.world.clock, s)
  | .newSandboxID, s => (exampleID, s)
  | .decide _ _, s => ((), s)
  | .store c, s => ((c.exec .none s.world.clock s.world.db).1,
      ⟨{ s.world with db := (c.exec .none s.world.clock s.world.db).2 }, s.left⟩)
  | .backend c, s => ((runtimeExec c s.world).1,
      ⟨{ s.world with backend := (runtimeExec c s.world).2.backend }, match c with
        | .create _ _ => s.world.db
        | _ => s.left⟩)

theorem watchedExec_acts (c : (calls Runtime.signature).Call) (s : Watched Daemon) :
    Watched.act (Docker.runtimeBackend exampleHost) c s (watchedExec c s).1 (watchedExec c s).2 := by
  cases c with
  | now => exact ⟨rfl, rfl, rfl⟩
  | newSandboxID => exact ⟨rfl, validateSandboxID_exampleID, rfl⟩
  | decide => exact ⟨rfl, rfl⟩
  | store c => exact ⟨rfl, .none, _, rfl, rfl, rfl⟩
  | backend c =>
    have hact := runtimeExec_acts c s.world
    cases c with
    | create id spec => exact ⟨hact, rfl⟩
    | destroy | list => exact ⟨rfl, _, hact, rfl⟩

/-- The store after one request, and its row as a pass reads it. -/
def requestedWorld : World Daemon := ((Request.handle (.create "k" {} 0)).run dockerExec ⟨.empty, 0, .empty⟩).2

def requestedSandbox : Sandbox := ⟨1, 1, exampleID, .pending, {}, 0, 0, 0⟩

theorem handleAction_create_compensates_created : ∃ log s',
    (Reconciler.handleAction .create (some requestedSandbox) none).Completes
      (Watched.act (Docker.runtimeBackend exampleHost)) Eq ⟨requestedWorld, requestedWorld.db⟩ log (.ok ()) s' ∧
    CreateSettled (fun d id => Docker.Up id d) requestedSandbox s' log := by
  obtain ⟨log, h, -⟩ := Program.completes_run (fun _ => rfl) watchedExec_acts
    (Reconciler.handleAction .create (some requestedSandbox) none) ⟨requestedWorld, requestedWorld.db⟩
  have hok : ((Reconciler.handleAction .create (some requestedSandbox) none).run watchedExec
      ⟨requestedWorld, requestedWorld.db⟩).1 = .ok () := eq_ok_of_isOk (by decide +kernel)
  rw [hok] at h
  have hrows : requestedWorld.backend.containers.rows = [] := List.length_eq_zero_iff.mp (by decide +kernel)
  have hfree : Docker.Free requestedSandbox.sandboxID requestedWorld.backend := by simp [Docker.Free, hrows]
  exact ⟨log, _, h, (handleAction_create_compensates (Docker.docker_contract exampleHost) rfl hfree h).1 rfl⟩

end Quickspin
