import Quickspin.Independence
import Quickspin.Steady

/-! Two passes over the fleet. Whatever the rows and the containers were, and whatever the clock shows, two passes whose
calls succeed bring every sandbox to where its row says, and a third does nothing. -/
namespace Quickspin
open Interaction
set_option autoImplicit false

/-! ## The fleet -/

def succeeded : (c : (calls Runtime.signature).Call) → (calls Runtime.signature).Answer c → Bool
  | .store c, a => c.succeeded a
  | .backend (.create _ _), a => Except.isOk a
  | .backend (.destroy _), a => Except.isOk a
  | .backend .list, a => Except.isOk a
  | .now, _ | .newSandboxID, _ | .decide _ _, _ => true

/-- A call of the fleet that succeeds. -/
def succeeding (c : (calls Runtime.signature).Call) (w : World Fleet) (a : (calls Runtime.signature).Answer c)
    (w' : World Fleet) : Prop :=
  Backend.fleet.perform c w a w' ∧ succeeded c a = true

/-- The clocks go on, and nothing else happens. -/
structure Ticks (w w' : World Fleet) : Prop where
  db : w'.db = w.db
  containers : w'.backend.containers = w.backend.containers
  clock : w.clock ≤ w'.clock

theorem ticks_refl (w : World Fleet) : Ticks w w := ⟨rfl, rfl, le_rfl⟩

theorem Ticks.trans {w w₁ w₂ : World Fleet} (h : Ticks w w₁) (h' : Ticks w₁ w₂) : Ticks w w₂ :=
  ⟨h'.db.trans h.db, h'.containers.trans h.containers, h.clock.trans h'.clock⟩

/-- The state of the container of the id. -/
def Fleet.look (id : String) (f : Fleet) : Option Runtime.State := (f.containers.find? id).map (·.state)

theorem fleet_steady (id : String) : Steady succeeding Ticks id (fun _ => True) (Fleet.look id) where
  refl := ticks_refl
  trans _ _ _ := Ticks.trans
  drift w w' h := by
    refine ⟨h.db, fun _ => ⟨trivial, ?_⟩⟩
    unfold Fleet.look
    rw [h.containers]
  now := by
    rintro w t w' ⟨⟨-, rfl⟩, -⟩
    exact ⟨rfl, unmoved_refl _⟩
  decide := by
    rintro x action w a w' ⟨h, -⟩
    obtain rfl : w' = w := h
    exact ⟨rfl, unmoved_refl _⟩
  store := by
    rintro c w a w' ⟨⟨f, db, hexec, rfl⟩, hok⟩
    exact ⟨⟨f, hexec⟩, unmoved_refl _, hok⟩
  list := by
    rintro w a w' ⟨⟨f, hrun, rfl⟩, -⟩
    obtain ⟨rfl, rfl⟩ := Prod.mk.inj hrun
    refine ⟨rfl, unmoved_refl _, _, rfl, fun _ => ?_⟩
    rw [indexInfos_eq w.backend.containers.unique]
    rfl
  create := by
    rintro spec w a w' - ⟨⟨f, hrun, rfl⟩, -⟩
    obtain ⟨rfl, rfl⟩ := Prod.mk.inj hrun
    refine ⟨⟨_, rfl⟩, rfl, fun _ _ => ⟨trivial, ?_⟩⟩
    show Option.map _ (Relational.Table.find? _ id) = _
    rw [Fleet.find?_put, if_pos rfl]
    rfl
  destroy := by
    rintro w a w' ⟨⟨f, hrun, rfl⟩, -⟩
    obtain ⟨rfl, rfl⟩ := Prod.mk.inj hrun
    refine ⟨rfl, rfl, fun _ => ⟨trivial, ?_⟩⟩
    show Option.map _ (Relational.Table.find? _ id) = _
    rw [Fleet.find?_remove, if_pos rfl]
    rfl
  createOther := by
    rintro x spec w a w' hne ⟨⟨f, hrun, rfl⟩, -⟩
    obtain ⟨rfl, rfl⟩ := Prod.mk.inj hrun
    refine ⟨rfl, fun _ => ⟨trivial, ?_⟩⟩
    show Option.map _ (Relational.Table.find? _ id) = Option.map _ (w.backend.containers.find? id)
    rw [Fleet.find?_put, if_neg (Ne.symm hne)]
  destroyOther := by
    rintro x w a w' hne ⟨⟨f, hrun, rfl⟩, -⟩
    obtain ⟨rfl, rfl⟩ := Prod.mk.inj hrun
    refine ⟨rfl, fun _ => ⟨trivial, ?_⟩⟩
    show Option.map _ (Relational.Table.find? _ id) = Option.map _ (w.backend.containers.find? id)
    rw [Fleet.find?_remove, if_neg (Ne.symm hne)]

section Fleet
variable {w w' : World Fleet} {log : List (Exchange (calls Runtime.signature))} {r : Except Err (List ReconcileAction)}

/-- A pass all of whose calls succeed comes to its actions. -/
theorem pass_succeeds (h : (Reconciler.reconcileOnce false).Completes succeeding Ticks w log r w') :
    ∃ actions t, r = .ok actions ∧ ⟨.now, t⟩ ∈ log := by
  obtain ⟨u₁, a₁, v₁, l₁, -, hact₁, rfl, h⟩ := h
  cases a₁ with
  | error e => cases hact₁.2
  | ok sbxs =>
    obtain ⟨u₂, a₂, v₂, l₂, -, hact₂, rfl, h⟩ := h
    cases a₂ with
    | error e => cases hact₂.2
    | ok infos =>
      obtain ⟨u₃, t, v₃, l₃, -, -, rfl, h⟩ := h
      dsimp only [Program.bind] at h
      obtain ⟨_, _, actions, w'', _, _, hlast⟩ := h.of_bind ticks_refl
      exact ⟨actions, t, hlast.2.1, by simp⟩

/-- Every row and every container has an id, and every row's state is one of the five. -/
structure WellFormed (w : World Fleet) : Prop where
  rows : w.db.sandbox? "" = none
  containers : w.backend.containers.find? "" = none
  declared : ∀ id row, w.db.sandbox? id = some row → ∀ text h, row.state ≠ .other text h

/-- Every sandbox is where its row says. -/
structure Converged (w : World Fleet) : Prop where
  decided : ∀ id row, w.db.sandbox? id = some row → row.state ≠ .pending ∧ row.state ≠ .stopping
  running : ∀ id row, w.db.sandbox? id = some row →
    (row.state = .running ↔ ∃ info, w.backend.containers.find? id = some info ∧ info.state = .running)
  finished : ∀ id row, w.db.sandbox? id = some row → row.state.Terminal → w.backend.containers.find? id = none
  owned : ∀ id info, w.backend.containers.find? id = some info → ∃ row, w.db.sandbox? id = some row

theorem converged_of_settled (h : ∀ id, (w.pair (Fleet.look id) id).Settled) : Converged w := by
  have hrow : ∀ id row, w.db.sandbox? id = some row →
      (⟨some row.state, (w.backend.containers.find? id).map (·.state)⟩ : Pair).Settled := by
    intro id row hrow
    have hs := h id
    rw [World.pair, hrow] at hs
    exact hs
  refine ⟨fun id row hfound => ?_, fun id row hfound => ?_, fun id row hfound hterminal => ?_, fun id info hfound => ?_⟩
  · have hs := hrow id row hfound
    constructor
    · intro he
      rw [he] at hs
      exact hs
    · intro he
      rw [he] at hs
      exact hs
  · have hs := hrow id row hfound
    constructor
    · intro he
      rw [he] at hs
      exact Option.map_eq_some_iff.mp (show Option.map _ _ = _ from hs)
    · rintro ⟨info, hinfo, hrunning⟩
      rw [hinfo, Option.map_some, hrunning] at hs
      cases hstate : row.state with
      | running => rfl
      | pending | stopping | other =>
        rw [hstate] at hs
        exact hs.elim
      | stopped | failed =>
        rw [hstate] at hs
        cases hs
  · have hs := hrow id row hfound
    have hnone : (w.backend.containers.find? id).map (·.state) = none := by
      rcases hterminal with he | he
      · rw [he] at hs
        exact hs
      · rw [he] at hs
        exact hs
    exact Option.map_eq_none_iff.mp hnone
  · cases hrow' : w.db.sandbox? id with
    | some row => exact ⟨row, rfl⟩
    | none =>
      have hs := h id
      rw [World.pair, hrow'] at hs
      have hnone : (w.backend.containers.find? id).map (·.state) = none := hs
      rw [hfound] at hnone
      cases hnone

/-- The readings of a pass over the fleet are of the world it begins in. -/
theorem fleet_reads {actions : List ReconcileAction} {t : Time} (hnow : ⟨.now, t⟩ ∈ log)
    (h : (Reconciler.reconcileOnce false).Completes succeeding Ticks w log (.ok actions) w') : ∃ f sbxs u l,
      Sqlite.getSandboxes f w.db = .ok sbxs ∧ Ticks w u ∧
        (Reconciler.reconcileItems t (pairSnapshots sbxs w.backend.containers.rows)).Completes succeeding Ticks u l actions
          w' := by
  obtain ⟨sbxs, infos, t', u₁, v₁, u₂, v₂, u₃, v₃, l, ⟨hu₁, hrows⟩, ⟨hu₂, hinfos⟩, ⟨hu₃, hclock⟩, hitems, rfl⟩ :=
    Reconciler.reconcileOnce_reads ticks_refl (fun _ _ _ => Ticks.trans) h
  obtain rfl := Reconciler.clock_reading hnow hitems
  obtain ⟨⟨f, db, hexec, rfl⟩, -⟩ := hrows
  obtain ⟨hlisted, rfl⟩ := Prod.mk.inj hexec
  obtain ⟨⟨fleet, hrun, rfl⟩, -⟩ := hinfos
  obtain ⟨he, rfl⟩ := Prod.mk.inj hrun
  obtain rfl := Except.ok.inj he
  obtain ⟨⟨-, rfl⟩, -⟩ := hclock
  have hdb : Sqlite.getSandboxes f w.db = .ok sbxs := hu₁.db ▸ hlisted
  have hrows : u₂.backend.containers.rows = w.backend.containers.rows := by
    rw [hu₂.containers]
    exact congrArg _ hu₁.containers
  rw [hrows] at hitems
  have h₁ : Ticks w u₂ := ⟨hu₂.db.trans hu₁.db, hu₂.containers.trans hu₁.containers, hu₁.clock.trans hu₂.clock⟩
  have h₂ : Ticks u₂ v₃ := ⟨hu₃.db, hu₃.containers, hu₃.clock⟩
  exact ⟨f, sbxs, v₃, l, hdb, h₁.trans h₂, hitems⟩

theorem decide_settled {sbx : Sandbox} {observed : Option Runtime.Info} {t : Time}
    (hs : (⟨some sbx.state, observed.map (·.state)⟩ : Pair).Settled)
    (hlive : ¬sbx.state.Terminal → t.after sbx.expiresAt = false) :
    decideReconcileAction (some sbx) observed t = .none := by
  by_cases hterminal : sbx.state.Terminal
  · have hnone : observed.map (·.state) = none := by
      rcases hterminal with he | he
      · rw [he] at hs
        exact hs
      · rw [he] at hs
        exact hs
    rw [decide_terminal hterminal, Option.map_eq_none_iff.mp hnone]
    rfl
  · have hd := decide_current (hlive hterminal) observed
    cases hstate : sbx.state with
    | running =>
      rw [hstate] at hs hd
      obtain ⟨info, rfl, hrunning⟩ := Option.map_eq_some_iff.mp (show Option.map _ _ = _ from hs)
      exact hd.trans (if_neg (by simp [hrunning]))
    | stopped => exact absurd (.inl hstate) hterminal
    | failed => exact absurd (.inr hstate) hterminal
    | pending | stopping | other =>
      rw [hstate] at hs
      exact hs.elim

theorem settled_pass {actions : List ReconcileAction} {t : Time} (hnow : ⟨.now, t⟩ ∈ log)
    (hsettled : ∀ id, (w.pair (Fleet.look id) id).Settled)
    (hlive : ∀ id row, w.db.sandbox? id = some row → ¬row.state.Terminal → t.after row.expiresAt = false)
    (h : (Reconciler.reconcileOnce false).Completes succeeding Ticks w log (.ok actions) w') : actions = [] ∧ Ticks w w' := by
  obtain ⟨f, sbxs, u, l, hlisted, hu, hitems⟩ := fleet_reads hnow h
  have hidle : ∀ item ∈ pairSnapshots sbxs w.backend.containers.rows,
      decideReconcileAction item.desired item.observed t = .none := by
    intro item hm
    have hitem := (mem_pairSnapshots_of (Sqlite.getSandboxes_nodup hlisted) w.backend.containers.unique rfl rfl).mp ⟨hm, rfl⟩
    rw [listed_row hlisted] at hitem
    have hs := hsettled item.id
    cases hrow : w.db.sandbox? item.id with
    | none =>
      rw [World.pair, hrow] at hs
      have hnone : (w.backend.containers.find? item.id).map (·.state) = none := hs
      have hfind : w.backend.containers.rows.find? (fun info => info.id = item.id) = none := Option.map_eq_none_iff.mp hnone
      rw [hrow, hfind] at hitem
      cases hitem
    | some row =>
      obtain ⟨sbx, -, hscan, -⟩ := Sqlite.getSandboxes_found hlisted hrow
      rw [hrow, Option.bind_some, hscan] at hitem
      rw [World.pair, hrow] at hs
      have hstate := (Sqlite.scanSandbox_state hscan).symm
      have hexpires := (Sqlite.scanSandbox_expiresAt hscan).symm
      have hnone : decideReconcileAction (some sbx) (w.backend.containers.find? item.id) t = .none := by
        refine decide_settled ?_ fun hterminal => ?_
        · rw [← hstate]
          exact hs
        · rw [← hexpires]
          exact hlive item.id row hrow (hstate ▸ hterminal)
      rw [← Option.some.inj hitem]
      exact hnone
  refine ⟨?_, ?_⟩
  · rw [Reconciler.reconcileItems_actions hitems]
    refine List.filter_eq_nil_iff.mpr fun action hm => ?_
    obtain ⟨item, hitem, rfl⟩ := List.mem_map.mp hm
    simpa using hidle item hitem
  · have hrest := hitems.keeps (Reconciler.reconcileItems_idle hidle) (R := Ticks) (fun _ _ _ => Ticks.trans)
      (fun c hc s x s' hact => by
        obtain ⟨id, action, rfl⟩ := hc
        obtain rfl : s' = s := hact.1
        exact ticks_refl s') fun _ _ hd => hd
    exact hu.trans hrest

/-- **Convergence**: two passes whose calls succeed bring every row and every container to where they belong, whatever they
were and whatever the clock shows. A third that finds no further lease run out does nothing. -/
theorem two_passes_converge {w₁ w₂ : World Fleet} {log₁ log₂ : List (Exchange (calls Runtime.signature))}
    {r₁ r₂ : Except Err (List ReconcileAction)} (hw : WellFormed w)
    (h₁ : (Reconciler.reconcileOnce false).Completes succeeding Ticks w log₁ r₁ w₁)
    (h₂ : (Reconciler.reconcileOnce false).Completes succeeding Ticks w₁ log₂ r₂ w₂) :
    Converged w₂ ∧ ∀ {log₃ r₃ w₃ t₂ t₃}, (Reconciler.reconcileOnce false).Completes succeeding Ticks w₂ log₃ r₃ w₃ →
      ⟨.now, t₂⟩ ∈ log₂ → ⟨.now, t₃⟩ ∈ log₃ →
      (∀ id row, w₂.db.sandbox? id = some row → ¬row.state.Terminal → t₂ ≤ row.expiresAt → t₃ ≤ row.expiresAt) →
      r₃ = .ok [] ∧ w₃.db = w₂.db ∧ w₃.backend.containers = w₂.backend.containers := by
  obtain ⟨actions₁, t₁, rfl, ht₁⟩ := pass_succeeds h₁
  obtain ⟨actions₂, t₂, rfl, ht₂⟩ := pass_succeeds h₂
  have hfirst : ∀ id, Comes id (fun _ => True) (Fleet.look id) w
      (Pair.settle (resolves (w.db.sandbox? id)) (overdue t₁ (w.db.sandbox? id)) (w.pair (Fleet.look id) id)) w₁ := by
    intro id
    refine (fleet_steady id).pass_settles trivial (fun he => ?_) ht₁ h₁
    subst he
    exact ⟨hw.rows, Option.map_eq_none_iff.mpr hw.containers⟩
  have hnamed : ∀ id, id = "" → w₁.db.sandbox? id = none ∧ Fleet.look id w₁.backend = none := by
    rintro id rfl
    have hc := hfirst ""
    rw [World.pair, hw.rows] at hc
    exact ⟨Option.map_eq_none_iff.mp hc.state, hc.container⟩
  have hsecond : ∀ {t}, ⟨.now, t⟩ ∈ log₂ → ∀ id, Comes id (fun _ => True) (Fleet.look id) w₁
      (Pair.settle (resolves (w₁.db.sandbox? id)) (overdue t (w₁.db.sandbox? id)) (w₁.pair (Fleet.look id) id)) w₂ :=
    fun ht id => (fleet_steady id).pass_settles trivial (hnamed id) ht h₂
  have hpair : ∀ {id u v p}, Comes id (fun _ => True) (Fleet.look id) u p v → v.pair (Fleet.look id) id = p := by
    intro id u v p hc
    rw [World.pair, hc.state, hc.container]
  have hsettled : ∀ id, (w₂.pair (Fleet.look id) id).Settled := by
    intro id
    rw [hpair (hsecond ht₂ id), hpair (hfirst id)]
    refine Pair.settle_twice (fun text ht he => ?_) _ _ _ _
    obtain ⟨row, hrow, hstate⟩ := Option.map_eq_some_iff.mp (show Option.map _ _ = _ from he)
    exact hw.declared id row hrow text ht hstate
  refine ⟨converged_of_settled hsettled, fun {log₃ r₃ w₃ t t₃} h₃ ht ht₃ hheld => ?_⟩
  obtain ⟨actions₃, -, rfl, -⟩ := pass_succeeds h₃
  have hlive : ∀ id row, w₂.db.sandbox? id = some row → ¬row.state.Terminal → t₃.after row.expiresAt = false := by
    intro id row hrow hterminal
    have hs := hsettled id
    rw [World.pair, hrow] at hs
    have hc := hsecond ht id
    have hrunning : row.state = .running := by
      cases hstate : row.state with
      | running => rfl
      | stopped => exact absurd (.inl hstate) hterminal
      | failed => exact absurd (.inr hstate) hterminal
      | pending | stopping | other =>
        rw [Option.map_some, hstate] at hs
        exact hs.elim
    have hstate := hc.state
    rw [hrow, Option.map_some, hrunning] at hstate
    have hcurrent := Pair.settle_running hstate.symm
    rw [← overdue_terms hc.terms, hrow] at hcurrent
    have hle : t ≤ row.expiresAt := by simpa [overdue, Time.after] using hcurrent
    simpa [Time.after] using hheld id row hrow hterminal hle
  obtain ⟨rfl, hticks⟩ := settled_pass ht₃ hsettled hlive h₃
  exact ⟨rfl, hticks.db, hticks.containers⟩

end Fleet
/-! ### Three sandboxes at odds -/

/-- Two rows not yet started, one of which has a container that stopped, and a container without a row. -/
def atOdds : World Fleet :=
  { recordedPair with backend := (Fleet.empty.put ⟨"sbx_b", .stopped, 0⟩).put ⟨"sbx_c", .running, 0⟩ }

def passOf (w : World Fleet) : Except Err (List ReconcileAction) × World Fleet :=
  (Reconciler.reconcileOnce false).run fleetExec w

theorem passOf_completes {w : World Fleet}
    (h : (((Reconciler.reconcileOnce false).exchanges fleetExec w).all fun e => succeeded e.1 e.2) = true) :
    (Reconciler.reconcileOnce false).Completes succeeding Ticks w ((Reconciler.reconcileOnce false).exchanges fleetExec w)
      (passOf w).1 (passOf w).2 := by
  have hruns := Program.completes_exchanges ticks_refl fleetExec_performs (Reconciler.reconcileOnce false) w
  exact hruns.restrict (P := fun c a => succeeded c a = true) fun e he => List.all_eq_true.mp h e he

theorem reads_clock {log : List (Exchange (calls Runtime.signature))} {t : Time}
    (h : (log.any fun e => match e with | ⟨.now, t'⟩ => decide (t' = t) | _ => false) = true) : ⟨.now, t⟩ ∈ log := by
  obtain ⟨⟨c, a⟩, hm, he⟩ := List.any_eq_true.mp h
  cases c with
  | now =>
    obtain rfl : a = t := of_decide_eq_true he
    exact hm
  | newSandboxID | store | backend | decide => cases he

/-- The theorem at that world: the second pass still has the container of a failed row to destroy. -/
theorem two_passes_converge_atOdds :
    (passOf atOdds).1.toOption = some [.create, .markFailed, .destroyOrphan] ∧
      (passOf (passOf atOdds).2).1.toOption = some [.destroy] ∧ Converged (passOf (passOf atOdds).2).2 ∧
        (passOf (passOf (passOf atOdds).2).2).1 = .ok [] := by
  have h₁ := passOf_completes (w := atOdds) (by decide +kernel)
  have h₂ := passOf_completes (w := (passOf atOdds).2) (by decide +kernel)
  have h₃ := passOf_completes (w := (passOf (passOf atOdds).2).2) (by decide +kernel)
  have hdeclared : (atOdds.db.sandboxes.rows.all fun row => row.state = .pending) = true := by decide +kernel
  have hw : WellFormed atOdds := by
    refine ⟨by decide +kernel, by decide +kernel, fun id row hrow text ht he => ?_⟩
    have hp := List.all_eq_true.mp hdeclared row (Relational.Table.mem_of_find? hrow)
    rw [he] at hp
    simp at hp
  obtain ⟨hconverged, hthird⟩ := two_passes_converge hw h₁ h₂
  have ht₂ : ⟨.now, (0 : Time)⟩ ∈ (Reconciler.reconcileOnce false).exchanges fleetExec (passOf atOdds).2 :=
    reads_clock (by decide +kernel)
  have ht₃ : ⟨.now, (0 : Time)⟩ ∈ (Reconciler.reconcileOnce false).exchanges fleetExec (passOf (passOf atOdds).2).2 :=
    reads_clock (by decide +kernel)
  obtain ⟨hr, -, -⟩ := hthird h₃ ht₂ ht₃ fun _ _ _ _ h => h
  exact ⟨by decide +kernel, by decide +kernel, hconverged, hr⟩

end Quickspin
