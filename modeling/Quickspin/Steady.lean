import Quickspin.Passes

/-! What a pass makes of one sandbox when its calls succeed. On the abstract side a sandbox is a pair of the row's state
and the container's, and a pass takes it one step; two steps settle every pair, and a settled pair stays. The pass of the
code takes every pair that step, over any runtime whose containers stay as the calls leave them. -/
namespace Quickspin
open Interaction
set_option autoImplicit false

/-! ## Pairs -/

/-- A sandbox as a pass sees it. -/
structure Pair where
  state : Option TaskState
  container : Option Runtime.State
deriving DecidableEq

namespace Pair

/-- What a pass whose calls succeed leaves of a pair; `resolves` and `expired` are of its row's spec and lease. -/
def settle (resolves expired : Bool) (p : Pair) : Pair :=
  match p.state with
  | none => ⟨none, none⟩
  | some s =>
    if ¬s.Terminal ∧ expired = true then ⟨some (Reconciler.reapedState s), none⟩
    else
      match s with
      | .pending =>
        match p.container with
        | none => if resolves then ⟨some .running, some .running⟩ else ⟨some .failed, none⟩
        | some .running => ⟨some .running, some .running⟩
        | some .stopped => ⟨some .failed, some .stopped⟩
      | .running => if p.container = some .running then p else ⟨some .failed, p.container⟩
      | .stopping => ⟨some .stopped, none⟩
      | .stopped | .failed => ⟨some s, none⟩
      | .other _ _ => p

/-- Nothing is left to do. -/
def Settled (p : Pair) : Prop :=
  match p.state with
  | none => p.container = none
  | some .running => p.container = some .running
  | some .stopped | some .failed => p.container = none
  | some _ => False

/-- The row's state is one of the five. -/
def Declared (p : Pair) : Prop := ∀ text h, p.state ≠ some (.other text h)

theorem settle_reaped {s : TaskState} {resolves : Bool} (h : ¬s.Terminal) (c : Option Runtime.State) :
    settle resolves true ⟨some s, c⟩ = ⟨some (Reconciler.reapedState s), none⟩ := if_pos ⟨h, rfl⟩

/-- What is missing for a settled pair after one step is at most the container of a finished row. -/
theorem settle_once (resolves expired : Bool) {p : Pair} (h : p.Declared) :
    (p.settle resolves expired).Settled ∨ ∃ s c, p.settle resolves expired = ⟨some s, c⟩ ∧ s.Terminal := by
  obtain ⟨state, container⟩ := p
  cases state with
  | none => exact .inl rfl
  | some s =>
    by_cases hreaped : ¬s.Terminal ∧ expired = true
    · refine .inr ⟨Reconciler.reapedState s, none, if_pos hreaped, ?_⟩
      unfold Reconciler.reapedState
      split
      · exact .inl rfl
      · exact .inr rfl
    · unfold settle
      dsimp only
      rw [if_neg hreaped]
      cases s with
      | pending =>
        cases container with
        | none =>
          cases resolves with
          | true => exact .inl rfl
          | false => exact .inl rfl
        | some c =>
          cases c with
          | running => exact .inl rfl
          | stopped => exact .inr ⟨.failed, some .stopped, rfl, .inr rfl⟩
      | running =>
        by_cases hc : container = some .running
        · dsimp only
          rw [if_pos hc]
          exact .inl hc
        · dsimp only
          rw [if_neg hc]
          exact .inr ⟨.failed, container, rfl, .inr rfl⟩
      | stopping | stopped | failed => exact .inl rfl
      | other text ht => exact absurd rfl (h text ht)

theorem settle_terminal {s : TaskState} (h : s.Terminal) (resolves expired : Bool) (c : Option Runtime.State) :
    settle resolves expired ⟨some s, c⟩ = ⟨some s, none⟩ := by
  unfold settle
  dsimp only
  rw [if_neg fun hr => hr.1 h]
  rcases h with rfl | rfl <;> rfl

theorem settled_terminal {s : TaskState} (h : s.Terminal) : Settled ⟨some s, none⟩ := by
  rcases h with rfl | rfl <;> rfl

theorem settle_settled {p : Pair} (h : p.Settled) {expired : Bool} (hlive : p.state = some .running → expired = false)
    (resolves : Bool) : p.settle resolves expired = p := by
  obtain ⟨state, container⟩ := p
  cases state with
  | none => exact congrArg _ (show container = none from h).symm
  | some s =>
    cases s with
    | running =>
      obtain rfl : container = some .running := h
      rw [hlive rfl]
      rfl
    | stopped =>
      obtain rfl : container = none := h
      exact settle_terminal (.inl rfl) _ _ _
    | failed =>
      obtain rfl : container = none := h
      exact settle_terminal (.inr rfl) _ _ _
    | pending | stopping | other => exact h.elim

/-- **Two steps settle** every pair. -/
theorem settle_twice {p : Pair} (h : p.Declared) (resolves resolves' expired expired' : Bool) :
    ((p.settle resolves expired).settle resolves' expired').Settled := by
  have honce := settle_once resolves expired h
  generalize p.settle resolves expired = q at honce ⊢
  rcases honce with hsettled | ⟨s, c, hs, hterminal⟩
  · by_cases hreaped : q.state = some .running ∧ expired' = true
    · obtain ⟨state, container⟩ := q
      obtain ⟨rfl, rfl⟩ : state = some .running ∧ expired' = true := hreaped
      rw [settle_reaped (by decide)]
      exact settled_terminal (by decide)
    · rw [settle_settled hsettled fun hr => Bool.eq_false_of_not_eq_true fun he => hreaped ⟨hr, he⟩]
      exact hsettled
  · rw [hs, settle_terminal hterminal]
    exact settled_terminal hterminal

theorem settle_running {p : Pair} {resolves expired : Bool} (h : (p.settle resolves expired).state = some .running) :
    expired = false := by
  cases expired with
  | false => rfl
  | true =>
    exfalso
    obtain ⟨state, container⟩ := p
    cases state with
    | none => cases h
    | some s =>
      by_cases hterminal : s.Terminal
      · rw [settle_terminal hterminal] at h
        obtain rfl := Option.some.inj h
        rcases hterminal with hr | hr <;> cases hr
      · rw [settle_reaped hterminal] at h
        have hreaped : Reconciler.reapedState s = .running := Option.some.inj h
        unfold Reconciler.reapedState at hreaped
        split at hreaped <;> cases hreaped

end Pair

/-! ## The pair of a sandbox -/

/-- The row's spec resolves. -/
def resolves (row : Option SandboxRow) : Bool :=
  row.any fun r =>
    match SpecFile.ofJSON r.spec with
    | .ok spec => spec.resolveValidated.isOk
    | .error _ => false

/-- The row's lease has run out. -/
def overdue (t : Time) (row : Option SandboxRow) : Bool := row.any fun r => t.after r.expiresAt

/-- What a transition leaves of a row. -/
def terms (row : Option SandboxRow) : Option (Json × Time) := row.map fun r => (r.spec, r.expiresAt)

theorem overdue_terms {row row' : Option SandboxRow} (h : terms row = terms row') (t : Time) : overdue t row = overdue t row' := by
  cases row with
  | none =>
    cases row' with
    | none => rfl
    | some r' => cases h
  | some r =>
    cases row' with
    | none => cases h
    | some r' =>
      have hexpires : r.expiresAt = r'.expiresAt := (Prod.mk.inj (Option.some.inj h)).2
      exact congrArg (fun e => t.after e) hexpires

/-- The answer is a success. -/
def StoreCall.succeeded : (c : StoreCall) → c.Answer → Bool
  | .getIdempotencyKey _, a => Except.isOk a
  | .createIdempotencyKey _ _, a => Except.isOk a
  | .getSandbox _, a => Except.isOk a
  | .getSandboxes, a => Except.isOk a
  | .getSandboxEvents _, a => Except.isOk a
  | .insertSandbox .., a => Except.isOk a
  | .updateSandboxExpiry _ _, a => Except.isOk a
  | .updateSandboxState .., a => Except.isOk a

section Steady
variable {ρ : Type} {act : (c : (calls Runtime.signature).Call) → World ρ → (calls Runtime.signature).Answer c → World ρ → Prop}
  {drift : World ρ → World ρ → Prop} {id : String} {sole : ρ → Prop} {look : ρ → Option Runtime.State}

/-- What the runtime has of the sandbox is as it was. -/
def Unmoved (sole : ρ → Prop) (look : ρ → Option Runtime.State) (r r' : ρ) : Prop :=
  sole r → sole r' ∧ look r' = look r

theorem unmoved_refl (r : ρ) : Unmoved sole look r r := fun h => ⟨h, rfl⟩

/-- Every call succeeds and containers stay as the calls leave them: `look` is the state a listing shows for the
sandbox, as long as the runtime has at most one container for it. -/
structure Steady (act : (c : (calls Runtime.signature).Call) → World ρ → (calls Runtime.signature).Answer c → World ρ → Prop)
    (drift : World ρ → World ρ → Prop) (id : String) (sole : ρ → Prop) (look : ρ → Option Runtime.State) : Prop where
  refl : ∀ w, drift w w
  trans : ∀ w w₁ w₂, drift w w₁ → drift w₁ w₂ → drift w w₂
  drift : ∀ w w', drift w w' → w'.db = w.db ∧ Unmoved sole look w.backend w'.backend
  now : ∀ w t w', act .now w t w' → w'.db = w.db ∧ Unmoved sole look w.backend w'.backend
  decide : ∀ x action w a w', act (.decide x action) w a w' → w'.db = w.db ∧ Unmoved sole look w.backend w'.backend
  store : ∀ c w a w', act (.store c) w a w' → (∃ f, c.exec f w.clock w.db = (a, w'.db)) ∧
    Unmoved sole look w.backend w'.backend ∧ c.succeeded a = true
  list : ∀ w a w', act (.backend .list) w a w' → w'.db = w.db ∧ Unmoved sole look w.backend w'.backend ∧ ∃ infos,
    a = .ok infos ∧ (sole w.backend →
      ((indexInfos infos).find? fun info => info.id = id).map (·.state) = look w.backend)
  create : ∀ spec w a w', spec.validate = .ok () → act (.backend (.create id spec)) w a w' → (∃ info, a = .ok info) ∧
    w'.db = w.db ∧ (sole w.backend → look w.backend = none → sole w'.backend ∧ look w'.backend = some .running)
  destroy : ∀ w a w', act (.backend (.destroy id)) w a w' → a = .ok () ∧ w'.db = w.db ∧
    (sole w.backend → sole w'.backend ∧ look w'.backend = none)
  createOther : ∀ x spec w a w', x ≠ id → act (.backend (.create x spec)) w a w' →
    w'.db = w.db ∧ Unmoved sole look w.backend w'.backend
  destroyOther : ∀ x w a w', x ≠ id → act (.backend (.destroy x)) w a w' →
    w'.db = w.db ∧ Unmoved sole look w.backend w'.backend

/-- The row and the container of the sandbox are as they were. -/
def Still (id : String) (sole : ρ → Prop) (look : ρ → Option Runtime.State) (w w' : World ρ) : Prop :=
  w'.db.sandbox? id = w.db.sandbox? id ∧ Unmoved sole look w.backend w'.backend

theorem still_refl (w : World ρ) : Still id sole look w w := ⟨rfl, unmoved_refl w.backend⟩

theorem Still.trans {w w₁ w₂ : World ρ} (h : Still id sole look w w₁) (h' : Still id sole look w₁ w₂) :
    Still id sole look w w₂ := by
  refine ⟨h'.1.trans h.1, fun hsole => ?_⟩
  obtain ⟨hsole₁, hlook₁⟩ := h.2 hsole
  obtain ⟨hsole₂, hlook₂⟩ := h'.2 hsole₁
  exact ⟨hsole₂, hlook₂.trans hlook₁⟩

theorem still_of {w w' : World ρ} (h : w'.db = w.db ∧ Unmoved sole look w.backend w'.backend) : Still id sole look w w' :=
  ⟨by rw [h.1], h.2⟩

/-- **Everything else** of a pass leaves the sandbox alone. -/
theorem Steady.frame (hS : Steady act drift id sole look) : Reconciler.Frame act drift id (Still id sole look) where
  refl := still_refl
  trans _ _ _ := Still.trans
  others w w' h := still_of (hS.drift w w' h)
  calls := by
    intro c hc w a w' h
    cases c with
    | now => exact still_of (hS.now _ _ _ h)
    | decide => exact still_of (hS.decide _ _ _ _ _ h)
    | newSandboxID => exact hc.elim
    | backend c =>
      cases c with
      | create => exact still_of (hS.createOther _ _ _ _ _ hc h)
      | destroy => exact still_of (hS.destroyOther _ _ _ _ hc h)
      | list =>
        obtain ⟨hdb, hsame, -⟩ := hS.list _ _ _ h
        exact still_of ⟨hdb, hsame⟩
    | store c =>
      obtain ⟨⟨f, hexec⟩, hsame, -⟩ := hS.store _ _ _ _ h
      refine ⟨?_, hsame⟩
      cases c with
      | getSandboxes => rw [← (Prod.mk.inj hexec).2]
      | updateSandboxState x =>
        have hne : x ≠ id := hc
        have heffect := StoreCall.effect hexec
        generalize w'.db = db' at heffect ⊢
        cases heffect with
        | same => rfl
        | transitioned h => rw [h.sandbox, if_neg hne.symm]
      | getIdempotencyKey | createIdempotencyKey | getSandbox | getSandboxEvents | insertSandbox |
        updateSandboxExpiry => exact hc.elim

/-! ## One visit -/

variable {w w' : World ρ} {log : List (Exchange (calls Runtime.signature))} {r : Except Err Unit}

/-- The sandbox has come to the pair `p`. -/
structure Comes (id : String) (sole : ρ → Prop) (look : ρ → Option Runtime.State) (w : World ρ) (p : Pair) (w' : World ρ) :
    Prop where
  sole : sole w'.backend
  state : (w'.db.sandbox? id).map (·.state) = p.state
  container : look w'.backend = p.container
  terms : terms (w'.db.sandbox? id) = terms (w.db.sandbox? id)

theorem Steady.rest (hS : Steady act drift id sole look) (hsole : sole w.backend) (h : drift w w') :
    w'.db = w.db ∧ sole w'.backend ∧ look w'.backend = look w.backend := by
  obtain ⟨hdb, hunmoved⟩ := hS.drift w w' h
  exact ⟨hdb, hunmoved hsole⟩

theorem Steady.transitions (hS : Steady act drift id sole look) (hsole : sole w.backend) {a b : TaskState} {reason : String}
    {v : ℤ} {next : Except Err Sandbox → Program (calls Runtime.signature) (Except Err Unit)}
    (h : (Program.call (S := calls Runtime.signature) (.store (.updateSandboxState id a b reason v)) next).Completes act drift
      w log r w') :
    ∃ u l sbx, Comes id sole look w ⟨some b, look w.backend⟩ u ∧ (next (.ok sbx)).Completes act drift u l r w' := by
  obtain ⟨u, answer, u', l, hdrift, hact, rfl, h⟩ := h
  obtain ⟨hdb, hsole₁, hlook₁⟩ := hS.rest hsole hdrift
  obtain ⟨⟨f, hexec⟩, hunmoved, hok⟩ := hS.store _ _ _ _ hact
  obtain ⟨hsole₂, hlook₂⟩ := hunmoved hsole₁
  cases answer with
  | error e => cases hok
  | ok sbx =>
    rcases Sqlite.updateSandboxState_cases hexec with ⟨row, _, hmoved, -, -, -, -⟩ | ⟨-, e, he, -⟩
    · have hfound : w.db.sandbox? id = some row := hdb ▸ hmoved.found
      have hrow := hmoved.sandbox id
      rw [if_pos rfl] at hrow
      refine ⟨u', l, sbx, ⟨hsole₂, ?_, hlook₂.trans hlook₁, ?_⟩, h⟩
      · rw [hrow]
        rfl
      · rw [hrow, hfound]
        rfl
    · cases he

theorem Steady.destroys (hS : Steady act drift id sole look) (hsole : sole w.backend)
    {next : Except Err Unit → Program (calls Runtime.signature) (Except Err Unit)}
    (h : (Program.call (S := calls Runtime.signature) (.backend (.destroy id)) next).Completes act drift w log r w') :
    ∃ u l, (sole u.backend ∧ look u.backend = none ∧ u.db = w.db) ∧ (next (.ok ())).Completes act drift u l r w' := by
  obtain ⟨u, answer, u', l, hdrift, hact, rfl, h⟩ := h
  obtain ⟨hdb, hsole₁, -⟩ := hS.rest hsole hdrift
  obtain ⟨rfl, hdb', hgone⟩ := hS.destroy _ _ _ hact
  obtain ⟨hsole₂, hlook⟩ := hgone hsole₁
  exact ⟨u', l, ⟨hsole₂, hlook, hdb'.trans hdb⟩, h⟩

theorem Comes.rest {p : Pair} {u : World ρ} (hS : Steady act drift id sole look) (hc : Comes id sole look w p u)
    (h : drift u w') : Comes id sole look w p w' := by
  obtain ⟨hdb, hsole, hlook⟩ := hS.rest hc.sole h
  exact ⟨hsole, hdb ▸ hc.state, hlook.trans hc.container, hdb ▸ hc.terms⟩

theorem Steady.mark (hS : Steady act drift id sole look) (hsole : sole w.backend) {sbx : Sandbox} (hid : sbx.sandboxID = id)
    {toState : TaskState} {reason describing : String}
    (h : (Reconciler.mark sbx toState reason describing).Completes act drift w log r w') :
    Comes id sole look w ⟨some toState, look w.backend⟩ w' := by
  subst hid
  obtain ⟨u, l, sbx', hc, h⟩ := hS.transitions hsole h
  exact hc.rest hS h.2.2

theorem Steady.handleDestroy (hS : Steady act drift id sole look) (hsole : sole w.backend) {sbx : Sandbox}
    (hid : sbx.sandboxID = id) (hstate : (w.db.sandbox? id).map (·.state) = some sbx.state)
    (h : (Reconciler.handleDestroy sbx).Completes act drift w log r w') :
    Comes id sole look w ⟨some (if sbx.state = .stopping then .stopped else sbx.state), none⟩ w' := by
  subst hid
  obtain ⟨u, l, ⟨hsole', hlook, hdb⟩, h⟩ := hS.destroys hsole h
  dsimp only at h
  by_cases hstopping : sbx.state = .stopping
  · rw [if_pos hstopping] at h ⊢
    have hc := hS.mark hsole' rfl h
    exact ⟨hc.sole, hc.state, hc.container.trans hlook, hdb ▸ hc.terms⟩
  · rw [if_neg hstopping] at h ⊢
    have hc : Comes sbx.sandboxID sole look w ⟨some sbx.state, none⟩ u :=
      ⟨hsole', by rw [hdb, hstate], hlook, by rw [hdb]⟩
    exact hc.rest hS h.2.2

theorem Steady.handleReap (hS : Steady act drift id sole look) (hsole : sole w.backend) {sbx : Sandbox}
    (hid : sbx.sandboxID = id) {observed : Option Runtime.Info} (hobserved : observed.map (·.state) = look w.backend)
    (h : (Reconciler.handleReap sbx observed).Completes act drift w log r w') :
    Comes id sole look w ⟨some (Reconciler.reapedState sbx.state), none⟩ w' := by
  subst hid
  cases observed with
  | none =>
    have hc := hS.mark hsole rfl h
    exact ⟨hc.sole, hc.state, hc.container.trans hobserved.symm, hc.terms⟩
  | some info =>
    obtain ⟨u, l, ⟨hsole', hlook, hdb⟩, h⟩ := hS.destroys hsole h
    have hc := hS.mark hsole' rfl h
    exact ⟨hc.sole, hc.state, hc.container.trans hlook, hdb ▸ hc.terms⟩

theorem Steady.handleCreate (hS : Steady act drift id sole look) (hsole : sole w.backend) {sbx : Sandbox}
    (hid : sbx.sandboxID = id) (hnone : look w.backend = none)
    (h : (Reconciler.handleCreate sbx).Completes act drift w log r w') :
    Comes id sole look w (if sbx.spec.resolveValidated.isOk then ⟨some .running, some .running⟩ else ⟨some .failed, none⟩)
      w' := by
  subst hid
  unfold Reconciler.handleCreate at h
  cases hresolve : sbx.spec.resolveValidated with
  | error e =>
    rw [hresolve] at h
    have hc := hS.mark hsole rfl h
    exact ⟨hc.sole, hc.state, hc.container.trans hnone, hc.terms⟩
  | ok resolved =>
    rw [hresolve] at h
    obtain ⟨u, answer, u', l, hdrift, hact, rfl, h⟩ := h
    obtain ⟨hdb, hsole₁, hlook₁⟩ := hS.rest hsole hdrift
    obtain ⟨⟨info, rfl⟩, hdb', hmade⟩ := hS.create _ _ _ _ (SpecFile.validate_of_resolveValidated hresolve) hact
    obtain ⟨hsole₂, hlook₂⟩ := hmade hsole₁ (hlook₁.trans hnone)
    obtain ⟨v, l, sbx', hc, h⟩ := hS.transitions hsole₂ h
    have hterms : terms (v.db.sandbox? sbx.sandboxID) = terms (w.db.sandbox? sbx.sandboxID) := by
      rw [hc.terms, hdb', hdb]
    have hcomes : Comes sbx.sandboxID sole look w ⟨some .running, some .running⟩ v :=
      ⟨hc.sole, hc.state, hc.container.trans hlook₂, hterms⟩
    exact hcomes.rest hS h.2.2

/-- The row of the sandbox and its container are what the item has. -/
structure Visiting (id : String) (look : ρ → Option Runtime.State) (w : World ρ) (row : SandboxRow) (sbx : Sandbox)
    (observed : Option Runtime.Info) : Prop where
  found : w.db.sandbox? id = some row
  scanned : Sqlite.scanSandbox row = .ok sbx
  named : id ≠ ""
  observed : observed.map (·.state) = look w.backend

section Visiting
variable {row : SandboxRow} {sbx : Sandbox} {observed : Option Runtime.Info} {t : Time}

theorem Visiting.sandboxID (hv : Visiting id look w row sbx observed) : sbx.sandboxID = id :=
  (Sqlite.scanSandbox_id hv.scanned).trans (Relational.Table.key_of_find? hv.found)

theorem Visiting.nonempty (hv : Visiting id look w row sbx observed) : sbx.sandboxID ≠ "" := hv.sandboxID ▸ hv.named

theorem Visiting.columns (hv : Visiting id look w row sbx observed) :
    row.state = sbx.state ∧ row.expiresAt = sbx.expiresAt ∧ resolves (some row) = sbx.spec.resolveValidated.isOk := by
  refine ⟨(Sqlite.scanSandbox_state hv.scanned).symm, (Sqlite.scanSandbox_expiresAt hv.scanned).symm, ?_⟩
  unfold resolves
  rw [Option.any_some, (Sqlite.scanSandbox_ok hv.scanned).1]

theorem Visiting.state (hv : Visiting id look w row sbx observed) : (w.db.sandbox? id).map (·.state) = some sbx.state := by
  rw [hv.found, ← hv.columns.1]
  rfl

theorem Visiting.stays (hv : Visiting id look w row sbx observed) (hS : Steady act drift id sole look) (hsole : sole w.backend)
    (hd : decideReconcileAction (some sbx) observed t = .none)
    (h : (Reconciler.visit t (.row sbx observed)).Completes act drift w log r w') :
    Comes id sole look w ⟨some sbx.state, observed.map (·.state)⟩ w' := by
  rw [Reconciler.visit_none hd] at h
  have hhere : Comes id sole look w ⟨some sbx.state, observed.map (·.state)⟩ w := ⟨hsole, hv.state, hv.observed.symm, rfl⟩
  exact hhere.rest hS h.2.2

theorem Visiting.marks (hv : Visiting id look w row sbx observed) (hS : Steady act drift id sole look) (hsole : sole w.backend)
    {action : ReconcileAction} (toState : TaskState)
    (hm : (action, toState) ∈ [(.markFailed, .failed), (.markStopped, .stopped), (.markRunning, TaskState.running)])
    (hd : decideReconcileAction (some sbx) observed t = action)
    (h : (Reconciler.visit t (.row sbx observed)).Completes act drift w log r w') :
    Comes id sole look w ⟨some toState, observed.map (·.state)⟩ w' := by
  have hne : action ≠ .none := by
    rintro rfl
    simp at hm
  obtain ⟨reason, describing, he⟩ := Reconciler.handleAction_mark hv.nonempty observed hm
  rw [Reconciler.visit_some hd hne, he] at h
  have hc := hS.mark hsole hv.sandboxID h
  exact ⟨hc.sole, hc.state, hc.container.trans hv.observed.symm, hc.terms⟩

theorem Visiting.destroys (hv : Visiting id look w row sbx observed) (hS : Steady act drift id sole look)
    (hsole : sole w.backend) (hd : decideReconcileAction (some sbx) observed t = .destroy)
    (h : (Reconciler.visit t (.row sbx observed)).Completes act drift w log r w') :
    Comes id sole look w ⟨some (if sbx.state = .stopping then .stopped else sbx.state), none⟩ w' := by
  rw [Reconciler.visit_some hd (by decide), Reconciler.handleAction_destroy hv.nonempty] at h
  exact hS.handleDestroy hsole hv.sandboxID hv.state h

theorem Visiting.creates (hv : Visiting id look w row sbx none) (hS : Steady act drift id sole look) (hsole : sole w.backend)
    (hd : decideReconcileAction (some sbx) none t = .create)
    (h : (Reconciler.visit t (.row sbx none)).Completes act drift w log r w') :
    Comes id sole look w (if sbx.spec.resolveValidated.isOk then ⟨some .running, some .running⟩ else ⟨some .failed, none⟩)
      w' := by
  rw [Reconciler.visit_some hd (by decide), Reconciler.handleAction_create hv.nonempty] at h
  exact hS.handleCreate hsole hv.sandboxID hv.observed.symm h

/-- A row whose lease holds, by its cell of the table. -/
theorem Visiting.settles_current (hv : Visiting id look w row sbx observed) (hS : Steady act drift id sole look)
    (hsole : sole w.backend) (hlive : ¬sbx.state.Terminal) (hcurrent : t.after sbx.expiresAt = false)
    (h : (Reconciler.visit t (.row sbx observed)).Completes act drift w log r w') :
    Comes id sole look w
      (Pair.settle sbx.spec.resolveValidated.isOk false ⟨some sbx.state, observed.map (·.state)⟩) w' := by
  have hd := decide_current hcurrent observed
  cases hs : sbx.state with
  | pending =>
    rw [hs] at hd
    cases observed with
    | none => exact hv.creates hS hsole hd h
    | some info =>
      have hmarked := fun toState action hm (he : _ = action) => hv.marks hS hsole toState hm (hd.trans he) h
      cases hi : info.state with
      | running =>
        have hc := hmarked .running .markRunning (by simp) (if_neg (by simp [hi]))
        rw [Option.map_some, hi] at hc ⊢
        exact hc
      | stopped =>
        have hc := hmarked .failed .markFailed (by simp) (if_pos hi)
        rw [Option.map_some, hi] at hc ⊢
        exact hc
  | running =>
    rw [hs] at hd
    cases observed with
    | none => exact hv.marks hS hsole .failed (by simp) hd h
    | some info =>
      cases hi : info.state with
      | running =>
        have hc := hv.stays hS hsole (hd.trans (if_neg (by simp [hi]))) h
        rw [hs, Option.map_some, hi] at hc
        rw [Option.map_some, hi]
        exact hc
      | stopped =>
        have hc := hv.marks hS hsole .failed (by simp) (hd.trans (if_pos hi)) h
        rw [Option.map_some, hi] at hc ⊢
        exact hc
  | stopping =>
    rw [hs] at hd
    cases observed with
    | none => exact hv.marks hS hsole .stopped (by simp) hd h
    | some info =>
      have hc := hv.destroys hS hsole hd h
      rwa [if_pos hs] at hc
  | stopped => exact absurd (.inl hs) hlive
  | failed => exact absurd (.inr hs) hlive
  | other text ht =>
    rw [hs] at hd
    have hc := hv.stays hS hsole hd h
    rw [hs] at hc
    exact hc

/-- **One visit** of a row takes its pair the step. -/
theorem Visiting.settles (hv : Visiting id look w row sbx observed) (hS : Steady act drift id sole look)
    (hsole : sole w.backend) (h : (Reconciler.visit t (.row sbx observed)).Completes act drift w log r w') :
    Comes id sole look w (Pair.settle (resolves (some row)) (t.after row.expiresAt) ⟨some row.state, look w.backend⟩) w' := by
  obtain ⟨hstate, hexpires, hresolves⟩ := hv.columns
  rw [hstate, hexpires, hresolves, ← hv.observed]
  by_cases hterminal : sbx.state.Terminal
  · rw [Pair.settle_terminal hterminal]
    have hd := decide_terminal hterminal observed t
    cases observed with
    | none => exact hv.stays hS hsole hd h
    | some info =>
      have hne : ¬sbx.state = .stopping := by
        intro he
        rw [he] at hterminal
        rcases hterminal with hr | hr <;> cases hr
      have hc := hv.destroys hS hsole hd h
      rwa [if_neg hne] at hc
  · cases hafter : t.after sbx.expiresAt with
    | true =>
      rw [Pair.settle_reaped hterminal]
      have hd := decide_expired hterminal hafter observed
      rw [Reconciler.visit_some hd (by decide), Reconciler.handleAction_reap hv.nonempty] at h
      exact hS.handleReap hsole hv.sandboxID hv.observed h
    | false => exact hv.settles_current hS hsole hterminal hafter h

end Visiting

/-! ## One pass -/

def World.pair (look : ρ → Option Runtime.State) (id : String) (w : World ρ) : Pair :=
  ⟨(w.db.sandbox? id).map (·.state), look w.backend⟩

section Pass
variable {actions : List ReconcileAction} {t : Time}

/-- What the listings of a pass show of the sandbox, and where its items begin. -/
structure Shown (act : (c : (calls Runtime.signature).Call) → World ρ → (calls Runtime.signature).Answer c → World ρ → Prop)
    (drift : World ρ → World ρ → Prop) (id : String) (sole : ρ → Prop) (look : ρ → Option Runtime.State) (w : World ρ)
    (actions : List ReconcileAction) (t : Time) (sbxs : List Sandbox) (infos : List Runtime.Info) (w' : World ρ) : Prop where
  items : ∃ u log, Still id sole look w u ∧
    (Reconciler.reconcileItems t (pairSnapshots sbxs infos)).Completes act drift u log actions w'
  rows : ∃ f : Faults, ∃ db, Sqlite.getSandboxes f db = .ok sbxs ∧ db.sandbox? id = w.db.sandbox? id
  container : sole w.backend → ((indexInfos infos).find? fun info => info.id = id).map (·.state) = look w.backend

theorem Steady.shows (hS : Steady act drift id sole look) (hnow : ⟨.now, t⟩ ∈ log)
    (h : (Reconciler.reconcileOnce false).Completes act drift w log (.ok actions) w') :
    ∃ sbxs infos, Shown act drift id sole look w actions t sbxs infos w' := by
  obtain ⟨sbxs, infos, t', u, l, ho, hitems, rfl⟩ := Reconciler.reconcileOnce_opens hS.frame hS.refl hS.trans h
  obtain rfl := Reconciler.clock_reading hnow hitems
  obtain ⟨v, v', hv, hsandboxes, -⟩ := ho.sandboxes
  obtain ⟨⟨f, hexec⟩, -, -⟩ := hS.store _ _ _ _ hsandboxes
  obtain ⟨x, x', hx, hinfos, -⟩ := ho.infos
  obtain ⟨-, -, infos', he, hlook⟩ := hS.list _ _ _ hinfos
  obtain rfl := Except.ok.inj he
  refine ⟨sbxs, infos, ⟨u, l, ho.through, hitems⟩, ⟨f, v.db, (Prod.mk.inj hexec).1, hv.1⟩, fun hsole => ?_⟩
  obtain ⟨hsole', hsame⟩ := hx.2 hsole
  exact (hlook hsole').trans hsame

theorem Shown.nodup {sbxs : List Sandbox} {infos : List Runtime.Info}
    (h : Shown act drift id sole look w actions t sbxs infos w') : (sbxs.map (·.sandboxID)).Nodup := by
  obtain ⟨f, db, hrows, -⟩ := h.rows
  exact Sqlite.getSandboxes_nodup hrows

theorem Shown.desired {sbxs : List Sandbox} {infos : List Runtime.Info}
    (h : Shown act drift id sole look w actions t sbxs infos w') :
    match w.db.sandbox? id with
    | none => sbxs.find? (fun sbx => sbx.sandboxID = id) = none
    | some row => ∃ sbx, Sqlite.scanSandbox row = .ok sbx ∧ sbxs.find? (fun sbx => sbx.sandboxID = id) = some sbx := by
  obtain ⟨f, db, hrows, hsame⟩ := h.rows
  have hfind := listed_row hrows id
  rw [hsame] at hfind
  cases hrow : w.db.sandbox? id with
  | none =>
    rw [hrow] at hfind
    exact hfind
  | some row =>
    rw [hrow, Option.bind_some] at hfind
    obtain ⟨sbx, -, hscan, -⟩ := Sqlite.getSandboxes_found hrows (hsame.trans hrow)
    rw [hscan] at hfind
    exact ⟨sbx, hscan, hfind⟩

theorem Still.comes {u v : World ρ} {p : Pair} (h : Still id sole look w u) (hc : Comes id sole look u p v) : Comes id sole look w p v :=
  ⟨hc.sole, hc.state, hc.container, hc.terms.trans (by rw [h.1])⟩

theorem Comes.still {u v : World ρ} {p : Pair} (hc : Comes id sole look w p u) (h : Still id sole look u v) :
    Comes id sole look w p v := by
  obtain ⟨hsole, hlook⟩ := h.2 hc.sole
  exact ⟨hsole, h.1 ▸ hc.state, hlook.trans hc.container, h.1 ▸ hc.terms⟩

/-- **One pass** takes the pair of every sandbox the step. -/
theorem Steady.pass_settles (hS : Steady act drift id sole look) (hsole : sole w.backend)
    (hnamed : id = "" → w.db.sandbox? id = none ∧ look w.backend = none) (hnow : ⟨.now, t⟩ ∈ log)
    (h : (Reconciler.reconcileOnce false).Completes act drift w log (.ok actions) w') :
    Comes id sole look w (Pair.settle (resolves (w.db.sandbox? id)) (overdue t (w.db.sandbox? id)) (w.pair look id)) w' := by
  obtain ⟨sbxs, infos, hshown⟩ := hS.shows hnow h
  obtain ⟨u, l, hbegun, hitems⟩ := hshown.items
  have hdesired := hshown.desired
  have hobserved := hshown.container hsole
  obtain ⟨hsole', hlook⟩ := hbegun.2 hsole
  -- the item of the sandbox, if there is one, is visited at a world where nothing about it has changed
  have hvisited : ∀ {item}, itemOf (sbxs.find? fun sbx => sbx.sandboxID = id) ((indexInfos infos).find? fun info => info.id = id) =
      some item → ∃ x y l r, Still id sole look w x ∧ (Reconciler.visit t item).Completes act drift x l r y ∧
        Still id sole look y w' := by
    intro item hitem
    obtain ⟨hm, hid⟩ := (mem_pairSnapshots_index hshown.nodup rfl rfl).mpr hitem
    obtain ⟨x, y, -, l, -, r, hx, hvisit, hy, -⟩ :=
      Reconciler.reconcileItems_visit hS.frame hS.refl hS.trans (pairSnapshots_nodup hshown.nodup) hm hid hitems
    exact ⟨x, y, l, r, hbegun.trans hx, hvisit, hy⟩
  cases hrow : w.db.sandbox? id with
  | some row =>
    rw [hrow] at hdesired
    obtain ⟨sbx, hscan, hfind⟩ := hdesired
    rw [hfind] at hvisited
    obtain ⟨x, y, l', r, hx, hvisit, hy⟩ := hvisited rfl
    obtain ⟨hsolex, hlookx⟩ := hx.2 hsole
    have hid : id ≠ "" := by
      intro he
      rw [(hnamed he).1] at hrow
      cases hrow
    have hv : Visiting id look x row sbx ((indexInfos infos).find? fun info => info.id = id) :=
      ⟨hx.1.trans hrow, hscan, hid, hobserved.trans hlookx.symm⟩
    have hc := hx.comes ((hv.settles hS hsolex hvisit).still hy)
    rw [hlookx] at hc
    rw [World.pair, hrow]
    exact hc
  | none =>
    rw [hrow] at hdesired
    have hsettled : Pair.settle (resolves none) (overdue t none) (w.pair look id) = ⟨none, none⟩ := by
      rw [World.pair, hrow]
      rfl
    rw [hsettled]
    cases hlooked : look w.backend with
    | none =>
      have helsewhere : ∀ item ∈ pairSnapshots sbxs infos, item.id ≠ id := by
        intro item hm hid
        have hitem := (mem_pairSnapshots_index hshown.nodup rfl rfl).mp ⟨hm, hid⟩
        rw [hdesired, Option.map_eq_none_iff.mp (hobserved.trans hlooked)] at hitem
        cases hitem
      have hstill := hbegun.trans (Reconciler.frame_items hS.frame helsewhere hitems)
      obtain ⟨hsolew, hlookw⟩ := hstill.2 hsole
      exact ⟨hsolew, by rw [hstill.1, hrow]; rfl, hlookw.trans hlooked, by rw [hstill.1]⟩
    | some state =>
      rw [hlooked] at hobserved
      obtain ⟨info, hfind, -⟩ := Option.map_eq_some_iff.mp hobserved
      rw [hdesired, hfind] at hvisited
      obtain ⟨x, y, l', r, hx, hvisit, hy⟩ := hvisited rfl
      obtain ⟨hsolex, -⟩ := hx.2 hsole
      have hid : info.id = id := by simpa using List.find?_some hfind
      have hne : ¬info.id = "" := by
        intro he
        rw [(hnamed (hid.symm.trans he)).2] at hlooked
        cases hlooked
      have horphan : Reconciler.visit t (.orphan info) = Reconciler.handleDestroyOrphan id := by
        have hname : ¬((some info).isNone || info.id == "") = true := by simpa using hne
        rw [← hid]
        exact if_neg hname
      rw [horphan] at hvisit
      obtain ⟨v, l₁, ⟨hsolev, hgone, hdb⟩, hrest⟩ := hS.destroys hsolex hvisit
      have hc : Comes id sole look x ⟨none, none⟩ v := ⟨hsolev, by rw [hdb, hx.1, hrow]; rfl, hgone, by rw [hdb]⟩
      exact hx.comes ((hc.rest hS hrest.2.2).still hy)

end Pass

end Steady

end Quickspin
