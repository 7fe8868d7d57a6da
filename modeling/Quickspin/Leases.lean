import Quickspin.Observation
import Quickspin.Passes
import Quickspin.Lifetimes
import Quickspin.Delete

/-! Bounded lifetimes. The lease of a row is the one committed last, measured from the clock that its create or
keepalive has read; and a pass whose clock has passed the lease leaves the row finished and its container gone. -/
namespace Quickspin
open Interaction Service
set_option autoImplicit false

/-! ## What a request may write -/

/-- The lease is at most a day from the one clock reading among the exchanges. -/
def Measured (h : List ControlExchange) (expiresAt : Time) : Prop :=
  ∃ t : Time, (∀ t' : Time, (⟨.now, t'⟩ : ControlExchange) ∈ h ↔ t' = t) ∧ t < expiresAt ∧ expiresAt ≤ t + 86400000000000

/-- The request is an operation on the sandbox. -/
def Request.On (id : String) : Request → Prop
  | .create .. => False
  | .keepalive id' _ | .destroy id' => id' = id

/-- Leases are written as measured, and rows by the operations on them. -/
def Request.Writes (i : Request) (h : List ControlExchange) : (calls Runtime.signature).Call → Prop
  | .backend _ => False
  | .store (.insertSandbox _ _ _ expiresAt) => Measured h expiresAt
  | .store (.updateSandboxExpiry id expiresAt) => i.On id ∧ Measured h expiresAt
  | .store (.updateSandboxState id ..) => i.On id
  | .store (.createIdempotencyKey ..) => False
  | _ => True

theorem measured_add {h : List ControlExchange} {t : Time} {requested ttl : Duration}
    (hnow : ∀ t' : Time, (⟨.now, t'⟩ : ControlExchange) ∈ h ↔ t' = t) (httl : resolveTTL requested = .ok ttl) :
    Measured h (Time.add t ttl) := by
  have hbounds : 0 < ttl.toInt ∧ ttl.toInt ≤ 86400000000000 := by
    by_cases hzero : requested.toInt = 0
    · rw [resolveTTL_default hzero] at httl
      obtain rfl := Except.ok.inj httl
      rw [defaultTTL_toInt]
      omega
    · by_cases hin : 0 < requested.toInt ∧ requested.toInt ≤ 86400000000000
      · rw [resolveTTL_exact hin.1 hin.2] at httl
        obtain rfl := Except.ok.inj httl
        exact hin
      · obtain ⟨e, he, -⟩ := resolveTTL_rejected (d := requested) (by omega)
        rw [he] at httl
        cases httl
  have hsum := Time.add_toInt t hbounds.1.le
  refine ⟨t, hnow, Int.ofNat_lt.mp ?_, Int.ofNat_le.mp ?_⟩
  · rw [hsum]
    omega
  · rw [hsum, Int.natCast_add]
    omega

theorem createSandbox_writes (key : String) (spec : SpecFile) (ttl : Duration) :
    (Control.createSandbox key spec ttl).Tells (Request.create key spec ttl).Writes (fun _ _ => True) [] := by
  unfold Control.createSandbox
  cases spec.resolveValidated with
  | error e => trivial
  | ok resolved =>
    cases httl : resolveTTL ttl with
    | error e => trivial
    | ok lifetime =>
      refine ⟨trivial, fun t => ?_⟩
      refine Program.Tells.bind (p := createSandboxRecord key spec (Time.add t lifetime)) ?_
      unfold createSandboxRecord
      cases Time.isZero (Time.add t lifetime) with
      | true => trivial
      | false =>
        refine ⟨trivial, fun a => ?_⟩
        cases (a : Except Err (Option IdempotencyKey)) with
        | error e => trivial
        | ok k =>
          cases k with
          | some k =>
            refine ⟨trivial, fun a => ?_⟩
            cases (a : Except Err Sandbox) <;> trivial
          | none =>
            dsimp only
            cases spec.toJSON with
            | error e => trivial
            | ok json =>
              refine ⟨trivial, fun id => ⟨?_, fun _ => trivial⟩⟩
              exact measured_add (by simp) httl

theorem Request.handle_writes (i : Request) : (Request.handle i).Tells i.Writes (fun _ _ => True) [] := by
  cases i with
  | create key spec ttl =>
    exact Program.Tells.bind ((createSandbox_writes key spec ttl).mono fun _ _ _ => trivial)
  | keepalive id ttl =>
    refine Program.Tells.bind (p := Control.keepaliveSandbox id ttl) ?_
    unfold Control.keepaliveSandbox
    cases httl : resolveTTL (min ttl MaxTTL) with
    | error e => trivial
    | ok lifetime => exact ⟨trivial, fun t => ⟨⟨rfl, measured_add (by simp) httl⟩, fun _ => trivial⟩⟩
  | destroy id =>
    refine Program.Tells.bind (p := Control.destroySandbox id) ?_
    unfold Control.destroySandbox
    refine ⟨trivial, fun a => ?_⟩
    cases (a : Except Err Sandbox) with
    | error e =>
      show Program.Tells _ _ _ (if e.is .storeNotFound then _ else _)
      split <;> trivial
    | ok sbx =>
      refine ⟨rfl, fun a => ?_⟩
      cases (a : Except Err Sandbox) with
      | ok sbx' => trivial
      | error e =>
        show Program.Tells _ _ _ (if e.is .storeNotFound || e.is .invalidStateTransition then _ else _)
        split <;> trivial

/-- A pass writes no lease. -/
def Leaseless : (calls Runtime.signature).Call → Prop
  | .store (.insertSandbox ..) | .store (.updateSandboxExpiry ..) | .store (.createIdempotencyKey ..) => False
  | _ => True

theorem reconcileOnce_leaseless : (Reconciler.reconcileOnce false).Calls Leaseless := by
  refine Reconciler.reconcileOnce_calls trivial trivial trivial (fun _ _ => trivial) fun id desired c hc => ?_
  cases c with
  | now | newSandboxID | backend | decide => trivial
  | store c =>
    cases c with
    | updateSandboxState => trivial
    | getIdempotencyKey | createIdempotencyKey | getSandbox | getSandboxes | getSandboxEvents | insertSandbox |
      updateSandboxExpiry => exact hc.elim

/-! ## The lease committed last -/

section Leases
variable {ρ : Type} {B : Backend Runtime.signature ρ} {absent single : String → ρ → Prop} {ls ms : List ControlLabel}
  {C₀ C C' D : ControlConfig ρ} {l : ControlLabel} {id : String} {n : ℕ} {e t : Time}

/-- The step commits the lease `e` for the sandbox, as the request in slot `n` asked: the transaction of a create, or a
keepalive. -/
inductive Grants (id : String) (n : ℕ) (e : Time) : ControlConfig ρ → ControlLabel → ControlConfig ρ → Prop
  | inserted {C D : ControlConfig ρ} {i : Request} {key : String} {spec : Json} {a : Except Err Sandbox} {now : Time}
      (h : Created now key spec id e C.shared.db D.shared.db) :
      Grants id n e C (.request n i (.store (.insertSandbox key spec id e)) a) D
  | renewed {C D : ControlConfig ρ} {i : Request} {a : Except Err Sandbox} {now : Time} {row : SandboxRow}
      (h : Renewed now id row e C.shared.db D.shared.db) :
      Grants id n e C (.request n i (.store (.updateSandboxExpiry id e)) a) D

/-- Of all steps so far that commit a lease for the sandbox, the last one committed `e`, and `t` is the clock its
request has read. -/
inductive LastGrant (B : Backend Runtime.signature ρ) (C₀ : ControlConfig ρ) (id : String) (t e : Time) :
    List ControlLabel → ControlConfig ρ → Prop
  | here {ls : List ControlLabel} {C D : ControlConfig ρ} {l : ControlLabel} {n : ℕ}
      (h : (controlPlane B).Run Always C₀ ls C) (hs : (controlPlane B).Step C l D) (hg : Grants id n e C l D)
      (hnow : ∀ t' : Time, (⟨.now, t'⟩ : ControlExchange) ∈ slotLog n ls ↔ t' = t) : LastGrant B C₀ id t e (l :: ls) D
  | before {ls : List ControlLabel} {C D : ControlConfig ρ} {l : ControlLabel} (h : LastGrant B C₀ id t e ls C)
      (hs : (controlPlane B).Step C l D) (hg : ∀ n e', ¬Grants id n e' C l D) : LastGrant B C₀ id t e (l :: ls) D

theorem Grants.row (h : Grants id n e C l D) :
    ∃ row, D.shared.db.sandbox? id = some row ∧ row.expiresAt = e := by
  cases h with
  | inserted h =>
    obtain ⟨m, hfind⟩ := h.sandbox
    exact ⟨_, (hfind id).trans (if_pos rfl), rfl⟩
  | renewed h => exact ⟨_, (h.sandbox id).trans (if_pos rfl), rfl⟩

/-- Where a step does not commit a lease, the row had its lease before. -/
theorem lease_of_step (hs : (controlPlane B).Step C l D)
    (hC : Obeys (fun _ _ _ => True) (fun c _ => Leaseless c) C) (hg : ∀ n e', ¬Grants id n e' C l D) {row : SandboxRow}
    (hrow : D.shared.db.sandbox? id = some row) :
    ∃ row₀, C.shared.db.sandbox? id = some row₀ ∧ row₀.expiresAt = row.expiresAt := by
  have hwork : ∀ c a, l = .work c a → Leaseless c := by
    rintro c a rfl
    cases hs with
    | work hw _ => exact (hC.worker _ hw).1
  rcases Backend.step_db hs with hdb | ⟨s, a, hl, heff⟩
  · exact ⟨row, hdb ▸ hrow, rfl⟩
  · generalize hdb' : D.shared.db = db' at heff
    rw [hdb'] at hrow
    cases heff with
    | same => exact ⟨row, hrow, rfl⟩
    | keyed h => exact ⟨row, by rwa [Database.sandbox?, ← h.sandboxes], rfl⟩
    | @created key id' spec expiresAt _ h =>
      obtain ⟨m, hfind⟩ := h.sandbox
      by_cases hid : id = id'
      · subst hid
        rcases hl with rfl | ⟨n, i, rfl⟩
        · exact (hwork _ _ rfl).elim
        · exact absurd (.inserted (hdb' ▸ h)) (hg n expiresAt)
      · exact ⟨row, by rwa [hfind, if_neg hid] at hrow, rfl⟩
    | @renewed id' expiresAt row' _ h =>
      by_cases hid : id = id'
      · subst hid
        rcases hl with rfl | ⟨n, i, rfl⟩
        · exact (hwork _ _ rfl).elim
        · exact absurd (.renewed (hdb' ▸ h)) (hg n expiresAt)
      · exact ⟨row, by rwa [h.sandbox, if_neg hid] at hrow, rfl⟩
    | @transitioned id' reason a b v row' _ h _ _ =>
      by_cases hid : id = id'
      · subst hid
        rw [h.sandbox, if_pos rfl] at hrow
        obtain rfl := Option.some.inj hrow
        exact ⟨row', h.found, rfl⟩
      · exact ⟨row, by rwa [h.sandbox, if_neg hid] at hrow, rfl⟩

/-- **Leases**: in every state of every run, the lease of a row is the one committed last, and ends at most a day after
the clock that was read for it. -/
theorem lease_granted {w₀ : World ρ} (h₀ : w₀.db = .empty) (h : (controlPlane B).Run Always (.idle w₀) ls C)
    {row : SandboxRow} (hrow : C.shared.db.sandbox? id = some row) : ∃ t, LastGrant B (.idle w₀) id t row.expiresAt ls C ∧
      t < row.expiresAt ∧ row.expiresAt ≤ t + 86400000000000 := by
  induction h generalizing row with
  | nil =>
    have hnone : w₀.db.sandbox? id = none := by rw [h₀]; rfl
    rw [show (Config.idle w₀ : ControlConfig ρ).shared = w₀ from rfl, hnone] at hrow
    cases hrow
  | @cons ls C D l hr _ hs ih =>
    by_cases hg : ∃ n e, Grants id n e C l D
    · obtain ⟨n, e, hg⟩ := hg
      obtain ⟨row', hrow', rfl⟩ := hg.row
      obtain rfl := Option.some.inj (hrow.symm.trans hrow')
      have hmeasured : Measured (slotLog n ls) row.expiresAt := by
        cases hg with
        | inserted => exact hr.request_call_tells (T := Request.Writes) Request.handle_writes (fun _ => rfl) hs
        | renewed => exact (hr.request_call_tells (T := Request.Writes) Request.handle_writes (fun _ => rfl) hs).2
      obtain ⟨t, hnow, hlt, hle⟩ := hmeasured
      exact ⟨t, .here hr hs hg hnow, hlt, hle⟩
    · have hobeys := hr.obeys (P := fun _ _ _ => True) (W := fun c _ => Leaseless c) (fun _ => Program.nodes_true _)
        reconcileOnce_leaseless (obeys_idle _)
      have hnone : ∀ n e', ¬Grants id n e' C l D := fun n e' he => hg ⟨n, e', he⟩
      obtain ⟨row₀, hrow₀, hsame⟩ := lease_of_step hs hobeys hnone hrow
      obtain ⟨t, hlast, hbounds⟩ := ih hrow₀
      rw [hsame] at hlast hbounds
      exact ⟨t, .before hlast hs hnone, hbounds⟩

/-! ## A pass over an expired row -/

/-- A call of the reconciler for the sandbox is answered with an error. -/
inductive FailsFor (id : String) : ControlLabel → Prop
  | create (spec : Runtime.Spec) (e : Err) : FailsFor id (.work (.backend (.create id spec)) (Except.error e))
  | destroy (e : Err) : FailsFor id (.work (.backend (.destroy id)) (Except.error e))
  | update (a b : TaskState) (reason : String) (v : ℤ) (e : Err) :
      FailsFor id (.work (.store (.updateSandboxState id a b reason v)) (Except.error e))

/-- From `C` to `D` one pass is made; every clock it reads is past the lease of the row, its calls for the row succeed,
and no operation on the row makes a call meanwhile. -/
structure ReapingPass (B : Backend Runtime.signature ρ) (id : String) (row : SandboxRow) (C : ControlConfig ρ)
    (ms : List ControlLabel) (D : ControlConfig ρ) : Prop where
  found : C.shared.db.sandbox? id = some row
  pass : ∃ C₁ C₂ actions, (controlPlane B).Step C .wake C₁ ∧ (controlPlane B).Run Always C₁ ms C₂ ∧
    (controlPlane B).Step C₂ (.rest (.ok actions)) D
  one : ∀ l ∈ ms, l ≠ .wake ∧ l ≠ .crash ∧ ∀ w, l ≠ .rest w
  expired : ∀ t : Time, .work .now t ∈ ms → row.expiresAt < t
  alone : ∀ n i c a, .request n i c a ∈ ms → ¬i.On id
  succeeds : ∀ l ∈ ms, ¬FailsFor id l

/-- The row stays, and the runtime keeps what it has of the id. -/
def Untouched (absent single : String → ρ → Prop) (id : String) (w w' : World ρ) : Prop :=
  (∀ row, w.db.sandbox? id = some row → w'.db.sandbox? id = some row) ∧ Keeps absent single id w w'

theorem untouched_refl (w : World ρ) : Untouched absent single id w w := ⟨fun _ h => h, keeps_of_same rfl⟩

theorem Untouched.trans {w w₁ w₂ : World ρ} (h₁ : Untouched absent single id w w₁)
    (h₂ : Untouched absent single id w₁ w₂) : Untouched absent single id w w₂ :=
  ⟨fun row hrow => h₂.1 row (h₁.1 row hrow), fun ha => h₂.2.1 (h₁.2.1 ha), fun hs => h₂.2.2 (h₁.2.2 hs)⟩

theorem untouched_trans (w w₁ w₂ : World ρ) (h₁ : Untouched absent single id w w₁)
    (h₂ : Untouched absent single id w₁ w₂) : Untouched absent single id w w₂ := h₁.trans h₂

theorem untouched_perform (hB : Observes B absent single) {c : (calls Runtime.signature).Call}
    (hcreate : ∀ spec, c ≠ .backend (.create id spec)) (hrenew : ∀ expiresAt, c ≠ .store (.updateSandboxExpiry id expiresAt))
    (hmove : ∀ a b reason v, c ≠ .store (.updateSandboxState id a b reason v)) {w w' : World ρ}
    {a : (calls Runtime.signature).Answer c} (h : B.perform c w a w') : Untouched absent single id w w' := by
  refine ⟨fun row hrow => ?_, hB.perform hcreate h⟩
  rcases Backend.perform_db h with hdb | ⟨s, rfl, heff⟩
  · rwa [hdb]
  · exact heff.elsewhere hrow (fun e he => hrenew e (by rw [he])) fun a b reason v he => hmove a b reason v (by rw [he])

theorem untouched_drift (hB : Observes B absent single) {w w' : World ρ} (h : B.Drift w w') :
    Untouched absent single id w w' :=
  ⟨fun row hrow => by rwa [h.db_eq], hB.drift h⟩

theorem untouched_frame (hB : Observes B absent single) (id : String) :
    Reconciler.Frame B.perform (Untouched absent single id) id (Untouched absent single id) where
  refl := untouched_refl
  trans := untouched_trans
  others _ _ h := h
  calls := by
    intro c hc w a w' h
    refine untouched_perform hB (fun spec he => ?_) (fun e he => ?_) (fun a b reason v he => ?_) h
    · subst he
      exact hc rfl
    · subst he
      exact hc
    · subst he
      exact hc rfl

/-- While the pass runs, the others do not touch the sandbox. -/
theorem untouched_step (hB : Observes B absent single) (hs : (controlPlane B).Step C l D)
    (hC : Obeys (fun i c _ => ∃ h, Request.Writes i h c) (fun _ _ => True) C)
    (hone : l ≠ .wake ∧ l ≠ .crash ∧ ∀ w, l ≠ .rest w) (hwork : ∀ c a, l ≠ .work c a)
    (halone : ∀ n i c a, l = .request n i c a → ¬i.On id) :
    Untouched absent single id C.shared D.shared ∧ D.worker = C.worker := by
  cases hs with
  | @request n i c next a s hn ha =>
    obtain ⟨h, hwrites⟩ := (hC.request _ _ _ hn).1
    have hoff := halone n i c a rfl
    refine ⟨untouched_perform hB (fun spec he => ?_) (fun e he => ?_) (fun a b reason v he => ?_) ha, rfl⟩
    · subst he
      exact hwrites
    · subst he
      exact hoff hwrites.1
    · subst he
      exact hoff hwrites
  | work => exact absurd rfl (hwork _ _)
  | env h => exact ⟨untouched_drift hB h, rfl⟩
  | arrive | respond => exact ⟨untouched_refl _, rfl⟩
  | wake => exact absurd rfl hone.1
  | rest => exact absurd rfl (hone.2.2 _)
  | crash => exact absurd rfl hone.2.1

section Visit
variable {w w' : World ρ} {log : List ControlExchange} {sbx : Sandbox} {row : SandboxRow} {r : Except Err Unit}

theorem mark_moves {toState : TaskState} {reason describing : String}
    (h : (Reconciler.mark sbx toState reason describing).Completes B.perform (Untouched absent single id) w log r w')
    (hid : sbx.sandboxID = id) (hok : ∀ e ∈ log, ¬FailsFor id (.work e.1 e.2)) :
    (∃ row, w'.db.sandbox? id = some row ∧ row.state = toState) ∧ Keeps absent single id w w' := by
  subst hid
  obtain ⟨u, a, v, rest, hwu, ⟨f, db, hexec, rfl⟩, rfl, h⟩ := h
  cases a with
  | error e => exact absurd (.update _ _ _ _ e) (hok _ (List.mem_cons_self ..))
  | ok sbx' =>
    have hlast := h.2.2
    rcases Sqlite.updateSandboxState_cases hexec with ⟨row, _, htrans, -⟩ | ⟨-, e, he, -⟩
    · have hrow := hlast.1 _ ((htrans.sandbox _).trans (if_pos rfl))
      have hsame : Keeps absent single sbx.sandboxID u { u with db := db } := keeps_of_same rfl
      exact ⟨⟨_, hrow, rfl⟩, (fun ha => hlast.2.1 (hsame.1 (hwu.2.1 ha))), fun hs => hlast.2.2 (hsame.2 (hwu.2.2 hs))⟩
    · cases he

/-- A destroy that succeeds leaves no container, and the rest of the action does not bring one back. -/
theorem destroy_clears (hB : Observes B absent single) {f : Except Err Unit → Program (calls Runtime.signature) (Except Err Unit)}
    (h : (backend (D := Runtime.signature) (.destroy id) >>= f).Completes B.perform (Untouched absent single id) w log r w')
    (hsingle : single id w.backend) (hok : ∀ e ∈ log, ¬FailsFor id (.work e.1 e.2)) : ∃ v l,
      (∀ row, w.db.sandbox? id = some row → v.db.sandbox? id = some row) ∧ absent id v.backend ∧
      (f (.ok ())).Completes B.perform (Untouched absent single id) v l r w' ∧ ∀ e ∈ l, e ∈ log := by
  obtain ⟨u, a, v, l, hwu, ⟨d, hact, rfl⟩, rfl, h⟩ := h
  cases a with
  | error e => exact absurd (.destroy e) (hok _ (List.mem_cons_self ..))
  | ok x =>
    exact ⟨{ u with backend := d }, l, hwu.1, hB.destroyed id _ _ hact (hwu.2.2 hsingle), h,
      fun e he => List.mem_cons_of_mem _ he⟩

theorem reapedState_terminal (s : TaskState) : (Reconciler.reapedState s).Terminal := by
  unfold Reconciler.reapedState
  split
  · exact .inl rfl
  · exact .inr rfl

/-- **The visit of an expired row** ends it and removes its container, with or without an observed one. -/
theorem visit_reaps (hB : Observes B absent single) {t : Time} {observed : Option Runtime.Info}
    (hscan : Sqlite.scanSandbox row = .ok sbx) (hid : row.platformId = id) (hne : id ≠ "") (hexp : row.expiresAt < t)
    (hrow : w.db.sandbox? id = some row) (hsingle : single id w.backend) (habsent : observed = none → absent id w.backend)
    (h : (Reconciler.visit t (.row sbx observed)).Completes B.perform (Untouched absent single id) w log r w')
    (hok : ∀ e ∈ log, ¬FailsFor id (.work e.1 e.2)) :
    ∃ row', w'.db.sandbox? id = some row' ∧ row'.state.Terminal ∧ absent id w'.backend := by
  have hsid : sbx.sandboxID = id := (Sqlite.scanSandbox_id hscan).trans hid
  have hstate := Sqlite.scanSandbox_state hscan
  have hafter : t.after sbx.expiresAt = true := by
    rw [Sqlite.scanSandbox_expiresAt hscan]
    exact decide_eq_true hexp
  have hnamed : sbx.sandboxID ≠ "" := hsid ▸ hne
  by_cases hterminal : row.state.Terminal
  · -- finished already: at most a container is left
    have hdecide := decide_terminal (hstate ▸ hterminal) observed t
    cases observed with
    | none =>
      have hvisit : Reconciler.visit t (.row sbx none) = pure (.ok ()) := Reconciler.visit_none hdecide
      rw [hvisit] at h
      exact ⟨row, h.2.2.1 row hrow, hterminal, h.2.2.2.1 (habsent rfl)⟩
    | some info =>
      have hvisit : Reconciler.visit t (.row sbx (some info)) = Reconciler.handleDestroy sbx :=
        (Reconciler.visit_some hdecide (by simp)).trans (Reconciler.handleAction_destroy hnamed _)
      rw [hvisit] at h
      unfold Reconciler.handleDestroy at h
      dsimp only at h
      rw [hsid] at h
      obtain ⟨v, l, hkept, hgone, h, -⟩ := destroy_clears hB h hsingle hok
      have hgoing : sbx.state ≠ .stopping := by
        rw [hstate]
        rcases hterminal with hs | hs <;> simp [hs]
      dsimp only at h
      rw [if_neg hgoing] at h
      exact ⟨row, h.2.2.1 row (hkept row hrow), hterminal, h.2.2.2.1 hgone⟩
  · have hdecide := decide_expired (hstate ▸ hterminal) hafter observed
    have hvisit : Reconciler.visit t (.row sbx observed) = Reconciler.handleReap sbx observed :=
      (Reconciler.visit_some hdecide (by decide)).trans (Reconciler.handleAction_reap hnamed _)
    rw [hvisit] at h
    cases observed with
    | none =>
      obtain ⟨⟨row', hrow', hs⟩, hkeeps⟩ := mark_moves h hsid hok
      exact ⟨row', hrow', hs ▸ reapedState_terminal _, hkeeps.1 (habsent rfl)⟩
    | some info =>
      unfold Reconciler.handleReap at h
      dsimp only at h
      rw [hsid] at h
      obtain ⟨v, l, -, hgone, h, hmem⟩ := destroy_clears hB h hsingle hok
      obtain ⟨⟨row', hrow', hs⟩, hkeeps⟩ := mark_moves h hsid fun e he => hok e (hmem e he)
      exact ⟨row', hrow', hs ▸ reapedState_terminal _, hkeeps.1 hgone⟩

end Visit

theorem named_run {w₀ : World ρ} (h₀ : w₀.db = .empty) (h : (controlPlane B).Run Always (.idle w₀) ls C) {row : SandboxRow}
    (hrow : C.shared.db.sandbox? id = some row) : id ≠ "" := by
  have hnone : C.shared.db.sandbox? "" = none := by
    refine h.keeps (I := fun w => w.db.sandbox? "" = none) (fun c w a w' hact hn => ?_) (fun w w' hd hn => ?_) ?_
    · cases c with
      | now | newSandboxID =>
        rw [hact.2]
        exact hn
      | decide =>
        rw [show w' = w from hact]
        exact hn
      | backend =>
        obtain ⟨d, -, rfl⟩ := hact
        exact hn
      | store c =>
        obtain ⟨f, db, hexec, rfl⟩ := hact
        exact StoreCall.exec_named hexec hn
    · rwa [Backend.Drift.db_eq hd]
    · show w₀.db.sandbox? "" = none
      rw [h₀]
      rfl
  rintro rfl
  rw [hrow] at hnone
  cases hnone

/-- **A pass over an expired row** leaves it finished, and no container for it. -/
theorem pass_reaps (hB : Observes B absent single) {w₀ : World ρ} (h₀ : w₀.db = .empty)
    (hsingle₀ : ∀ id, single id w₀.backend) (h : (controlPlane B).Run Always (.idle w₀) ls C) {row : SandboxRow}
    (hp : ReapingPass B id row C ms D) :
    ∃ row', D.shared.db.sandbox? id = some row' ∧ row'.state.Terminal ∧ absent id D.shared.backend := by
  obtain ⟨C₁, C₂, actions, hwake, hrun, hrest⟩ := hp.pass
  have hframe := untouched_frame hB id
  have hwrites : ∀ i, (Request.handle i).Calls fun c => ∃ h, Request.Writes i h c := fun i =>
    (Request.handle_writes i).calls fun h c hc => ⟨h, hc⟩
  have hobeys : Obeys (fun i c _ => ∃ h, Request.Writes i h c) (fun _ _ => True) C₁ :=
    hwake.obeys (V := controlPlane B) hwrites (Program.nodes_true _)
      (h.obeys (V := controlPlane B) hwrites (Program.nodes_true _) (obeys_idle _))
  have hstart : C₁.worker = some (Reconciler.reconcileOnce false) ∧ C₁.shared = C.shared := by
    cases hwake with
    | wake => exact ⟨rfl, rfl⟩
  obtain ⟨log, hmem, hpass⟩ := hrun.completes (V := controlPlane B) (R := Untouched absent single id)
    (P := fun l => (l ≠ .wake ∧ l ≠ .crash ∧ ∀ w, l ≠ .rest w) ∧ (∀ c a, l ≠ .work c a) ∧
      ∀ n i c a, l = .request n i c a → ¬i.On id)
    untouched_refl untouched_trans (fun _ _ _ hs hC => hs.obeys (V := controlPlane B) hwrites (Program.nodes_true _) hC)
    (fun _ _ _ hs hC hl => untouched_step hB hs hC hl.1 hl.2.1 hl.2.2) hstart.1 hobeys (fun l hl => by
      by_cases hwork : ∃ c a, l = .work c a
      · exact .inl hwork
      · refine .inr ⟨hp.one l hl, fun c a he => hwork ⟨c, a, he⟩, fun n i c a he => ?_⟩
        subst he
        exact hp.alone n i c a hl) hrest
  obtain ⟨sbxs, infos, t, u, l, hopen, hitems, rfl⟩ :=
    Reconciler.reconcileOnce_opens hframe untouched_refl untouched_trans hpass
  rw [hstart.2] at hopen
  -- the row as it was listed
  obtain ⟨u₁, v₁, hu₁, ⟨f, db, hexec, hv₁⟩, -⟩ := hopen.sandboxes
  have hrow₁ := hu₁.1 row hp.found
  obtain ⟨hlist, -⟩ := Prod.mk.inj hexec
  have hrid : row.platformId = id := Relational.Table.key_of_find? hp.found
  obtain ⟨sbx, hsbx, hscan, hsid⟩ := Sqlite.getSandboxes_found hlist hrow₁
  have hn := Sqlite.getSandboxes_nodup hlist
  have hitem : .row sbx _ ∈ pairSnapshots sbxs infos := (mem_pairSnapshots hn).mpr (.inl ⟨sbx, hsbx, rfl⟩)
  obtain ⟨u', v', l₁, l', l₂, r, hbefore, hvisit, hafter, rfl, -⟩ := Reconciler.reconcileItems_visit hframe untouched_refl
    untouched_trans (pairSnapshots_nodup hn) hitem hsid hitems
  -- the container as it was listed
  have habsent : (indexInfos infos).find? (fun info => info.id = sbx.sandboxID) = none → absent id u'.backend := by
    intro hnone
    obtain ⟨u₂, v₂, -, ⟨d, hact, rfl⟩, hv₂⟩ := hopen.infos
    have hmissed := hB.listed id _ infos d hact fun info hi => hsid ▸ find?_indexInfos.2 hnone info hi
    exact hbefore.2.1 (hv₂.2.1 hmissed)
  have hclear : ∀ e ∈ l', ¬FailsFor id (.work e.1 e.2) := fun e he hf => by
    refine hp.succeeds _ (hmem e.1 e.2 ?_) hf
    have hvisited : e ∈ l₁ ++ l' ++ l₂ := List.mem_append_left _ (List.mem_append_right _ he)
    exact List.mem_cons_of_mem _ (List.mem_cons_of_mem _ (List.mem_cons_of_mem _ hvisited))
  have hsingle : single id C.shared.backend := (sound_run hB hsingle₀ h id).1
  have hthere := hopen.through.trans hbefore
  obtain ⟨row', hrow', hterminal, hgone⟩ := visit_reaps hB hscan hrid (named_run h₀ h hp.found)
    (hp.expired t (hmem _ _ (by simp))) (hthere.1 row hp.found) (hthere.2.2 hsingle) habsent hvisit hclear
  exact ⟨row', hafter.1 row' hrow', hterminal, hafter.2.1 hgone⟩

/-- **Bounded lifetime**: in every state of every run, each row's lease is the one that its create or a keepalive
committed last, and ends after the clock read for it and at most a day later; and from every state, a pass whose clock
has passed a row's lease leaves the row stopped or failed and no container for it. -/
theorem lifetime_bounded (hB : Observes B absent single) {w₀ : World ρ} (h₀ : w₀.db = .empty)
    (hsingle₀ : ∀ id, single id w₀.backend) (h : (controlPlane B).Run Always (.idle w₀) ls C) :
    (∀ id row, C.shared.db.sandbox? id = some row → ∃ t, LastGrant B (.idle w₀) id t row.expiresAt ls C ∧
      t < row.expiresAt ∧ row.expiresAt ≤ t + 86400000000000) ∧
    ∀ id row ms D, ReapingPass B id row C ms D →
      ∃ row', D.shared.db.sandbox? id = some row' ∧ row'.state.Terminal ∧ absent id D.shared.backend :=
  ⟨fun _ _ hrow => lease_granted h₀ h hrow, fun _ _ _ _ hp => pass_reaps hB h₀ hsingle₀ h hp⟩

end Leases

/-! ### A lease that runs out -/

/-- A step of a pass that goes well and reads a clock past `deadline`. -/
def smooth (deadline : Time) : ControlLabel → Bool
  | .work .now t => decide (deadline < (t : Time))
  | .work (.backend (.create _ _)) a => Except.isOk (a : Except Err Runtime.Info)
  | .work (.backend (.destroy _)) a => Except.isOk (a : Except Err Unit)
  | .work (.store (.updateSandboxState ..)) a => Except.isOk (a : Except Err Sandbox)
  | .work _ _ => true
  | _ => false

/-- The started sandbox a second after its lease. -/
def lapsedWorld : World Fleet := { startedWorld with clock := lapsed }

/-- The pass that comes then, after its last call. -/
def reapedPass : Program (calls Runtime.signature) (Except Err (List ReconcileAction)) × World Fleet :=
  (Reconciler.reconcileOnce false).advance fleetExec 6 lapsedWorld

theorem reapedPass_done : ∃ actions, reapedPass.1 = .done (.ok actions) := by
  have hdone : (match reapedPass.1 with | .done r => r.isOk | .call _ _ => false) = true := by decide +kernel
  cases hp : reapedPass.1 with
  | done r =>
    rw [hp] at hdone
    obtain ⟨actions, rfl⟩ := exists_ok_of_isOk hdone
    exact ⟨actions, rfl⟩
  | call c next =>
    rw [hp] at hdone
    cases hdone

/-- The theorem at a sandbox whose default lease has run out before the second pass. -/
theorem lifetime_bounded_lapsed : ∃ ls C row ms D, (controlPlane .fleet).Run Always (.idle .empty) ls C ∧
    C.shared.db.sandbox? exampleID = some row ∧ row.state = .running ∧
    (∃ t, LastGrant .fleet (.idle .empty) exampleID t row.expiresAt ls C ∧
      t < row.expiresAt ∧ row.expiresAt ≤ t + 86400000000000) ∧
    ReapingPass .fleet exampleID row C ms D ∧ ∃ row', D.shared.db.sandbox? exampleID = some row' ∧
      row'.state.Terminal ∧ D.shared.backend.containers.find? exampleID = none := by
  obtain ⟨ls₁, h₁⟩ := (Run.start (controlPlane .fleet) Always (.idle .empty)).thenServe fleetExec_performs 0
    (.create "k" {} 0) rfl
  obtain ⟨ls₂, h₂⟩ := h₁.thenPass fleetExec_performs rfl
  have h₃ := h₂.cons trivial (.env (.tick _ lapsed (by decide +kernel)))
  have hrow : (lapsedWorld.db.sandbox? exampleID).any
      (fun row => row.state = .running && decide (row.expiresAt = 900000000000)) = true := by decide +kernel
  obtain ⟨row, hfound, hcond⟩ := (Option.any_eq_true ..).mp hrow
  obtain ⟨hstate, hlease⟩ := Bool.and_eq_true_iff.mp hcond
  have hlease : row.expiresAt = 900000000000 := of_decide_eq_true hlease
  have hsmooth : ((Reconciler.reconcileOnce false).trace fleetExec Label.work 6 lapsedWorld :
      List ControlLabel).all (smooth 900000000000) = true := by decide +kernel
  obtain ⟨actions, hdone⟩ := reapedPass_done
  have hms := List.all_eq_true.mp hsmooth
  have hp : ReapingPass .fleet exampleID row ⟨lapsedWorld, none, fun _ => none⟩ _ _ :=
    { found := hfound
      pass := ⟨_, _, actions, .wake rfl, Run.work_advance fleetExec_performs 6 rfl, .rest (congrArg some hdone)⟩
      one := fun l hl => by
        have hsm := hms l hl
        refine ⟨?_, ?_, fun w => ?_⟩
        all_goals
          rintro rfl
          cases hsm
      expired := fun t ht => by
        rw [hlease]
        exact of_decide_eq_true (hms _ ht)
      alone := fun n i c a hl => nomatch hms _ hl
      succeeds := fun l hl hf => by
        have hsm := hms l hl
        cases hf <;> cases hsm }
  obtain ⟨hleases, hreaps⟩ := lifetime_bounded Backend.fleet_observes rfl (fun _ => trivial) h₃
  exact ⟨_, _, row, _, _, h₃, hfound, of_decide_eq_true hstate, hleases exampleID row hfound, hp, hreaps _ _ _ _ hp⟩

end Quickspin
