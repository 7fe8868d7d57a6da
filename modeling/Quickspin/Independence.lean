import Quickspin.System
import Quickspin.Passes
import Quickspin.Store.Locality

/-! Two passes compared. What a pass leaves of a sandbox follows from its own row and events, its own container,
the clock and how its own calls come out: other sandboxes, what fails for them, and the order of the listings do not
show. The row number of an event does show them, since it counts the events of the whole store. -/
namespace Quickspin
open Interaction
set_option autoImplicit false

/-! ## Which calls fail -/

/-- How the calls come out: what the clock shows at each, which statements of a store call fail, and for a runtime call
that fails its error and whether it took effect nevertheless. -/
structure Outcomes where
  clock : (calls Runtime.signature).Call → Time
  store : StoreCall → Faults
  runtime : Runtime.Call → Option (Err × Bool)

def Outcomes.success (t : Time) : Outcomes := ⟨fun _ => t, fun _ => .none, fun _ => none⟩

def Runtime.Call.failed (e : Err) : (c : Runtime.Call) → c.Answer
  | .create _ _ => .error e
  | .destroy _ => .error e
  | .list => .error e

/-- A call of the fleet at the given time that comes out as told. -/
def Fleet.attempt (t : Time) (outcome : Option (Err × Bool)) (c : Runtime.Call) (f : Fleet) : c.Answer × Fleet :=
  match outcome with
  | none => Fleet.run c { f with clock := t }
  | some (e, tookEffect) => (c.failed e, if tookEffect then (Fleet.run c { f with clock := t }).2 else f)

def Outcomes.runRuntime (o : Outcomes) (c : Runtime.Call) (f : Fleet) : c.Answer × Fleet :=
  Fleet.attempt (o.clock (.backend c)) (o.runtime c) c f

def Outcomes.runStore (o : Outcomes) (c : StoreCall) (db : Database) : c.Answer × Database :=
  c.exec (o.store c) (o.clock (.store c)) db

/-- The control plane over the fleet where the calls come out as told. -/
def Outcomes.exec (o : Outcomes) :
    (c : (calls Runtime.signature).Call) → World Fleet → (calls Runtime.signature).Answer c × World Fleet
  | .now, w => (o.clock .now, w)
  | .newSandboxID, w => (exampleID, w)
  | .store c, w => ((o.runStore c w.db).1, { w with db := (o.runStore c w.db).2 })
  | .backend c, w => ((o.runRuntime c w.backend).1, { w with backend := (o.runRuntime c w.backend).2 })
  | .decide _ _, w => ((), w)

def Outcomes.act (o : Outcomes) (c : (calls Runtime.signature).Call) (w : World Fleet)
    (a : (calls Runtime.signature).Answer c) (w' : World Fleet) : Prop := (a, w') = o.exec c w

theorem Outcomes.act_exec (o : Outcomes) (c : (calls Runtime.signature).Call) (w : World Fleet) :
    o.act c w (o.exec c w).1 (o.exec c w).2 := rfl

/-- The calls of an action for the sandbox. -/
def about (x : String) : (calls Runtime.signature).Call → Bool
  | .backend (.create id _) | .backend (.destroy id) | .store (.updateSandboxState id ..) => id = x
  | _ => false

/-- The two come out alike for the sandbox. -/
structure Outcomes.AgreeOn (x : String) (o o' : Outcomes) : Prop where
  clock : ∀ c, about x c = true → o.clock c = o'.clock c
  store : ∀ c, about x (.store c) = true → o.store c = o'.store c
  runtime : ∀ c, about x (.backend c) = true → o.runtime c = o'.runtime c

theorem about_action {id : String} {desired : Option Sandbox} {c : (calls Runtime.signature).Call}
    (h : Reconciler.ActionCall id desired c) : about id c = true := by
  cases c with
  | now | newSandboxID | decide => exact h.elim
  | backend c =>
    cases c with
    | create => exact decide_eq_true h.1
    | destroy => exact decide_eq_true h
    | list => exact h.elim
  | store c =>
    cases c with
    | updateSandboxState => exact decide_eq_true h.1
    | getIdempotencyKey | createIdempotencyKey | getSandbox | getSandboxes | getSandboxEvents | insertSandbox |
      updateSandboxExpiry => exact h.elim

theorem about_elsewhere {x : String} {c : (calls Runtime.signature).Call} (h : Reconciler.Elsewhere x c) :
    about x c = false := by
  cases c with
  | now | newSandboxID | decide => rfl
  | backend c =>
    cases c with
    | create => exact decide_eq_false h
    | destroy => exact decide_eq_false h
    | list => rfl
  | store c =>
    cases c with
    | updateSandboxState => exact decide_eq_false h
    | getIdempotencyKey | createIdempotencyKey | getSandbox | getSandboxes | getSandboxEvents | insertSandbox |
      updateSandboxExpiry => rfl

/-- The exchanges of a pass about the sandbox, in their order. -/
def exchangesAbout (x : String) (o : Outcomes) (w : World Fleet) : List (Exchange (calls Runtime.signature)) :=
  ((Reconciler.reconcileOnce false).exchanges o.exec w).filter fun e => about x e.1

/-! ## Worlds alike in one sandbox -/

/-- The store and the runtime have the same of the sandbox. -/
structure Alike (x : String) (w w' : World Fleet) : Prop where
  record : SameRecord x w.db w'.db
  container : w.backend.containers.find? x = w'.backend.containers.find? x

section Alike
variable {x : String} {w w' v v' : World Fleet} {o o' : Outcomes}

theorem Alike.refl (x : String) (w : World Fleet) : Alike x w w := ⟨.refl x w.db, rfl⟩

theorem Alike.symm (h : Alike x w w') : Alike x w' w := ⟨h.record.symm, h.container.symm⟩

theorem Alike.trans (h : Alike x w w') (h' : Alike x w' v) : Alike x w v :=
  ⟨h.record.trans h'.record, h.container.trans h'.container⟩

/-- A call for another sandbox, or none, whatever comes of it. -/
theorem attempt_elsewhere {c : Runtime.Call} (h : about x (.backend c) = false) (t : Time) (outcome : Option (Err × Bool))
    (f : Fleet) : (Fleet.attempt t outcome c f).2.containers.find? x = f.containers.find? x := by
  have hrun : ∀ f' : Fleet, (Fleet.run c f').2.containers.find? x = f'.containers.find? x := by
    intro f'
    cases c with
    | list => rfl
    | create id spec =>
      have hne : ¬x = id := fun he => of_decide_eq_false h he.symm
      exact (Fleet.find?_put f' _ x).trans (if_neg hne)
    | destroy id =>
      have hne : ¬x = id := fun he => of_decide_eq_false h he.symm
      exact (Fleet.find?_remove f' id x).trans (if_neg hne)
  cases outcome with
  | none => exact hrun { f with clock := t }
  | some failure =>
    obtain ⟨e, tookEffect⟩ := failure
    cases tookEffect with
    | true => exact hrun { f with clock := t }
    | false => rfl

/-- Fleets alike in a sandbox answer a call for it alike, and stay alike. -/
theorem attempt_alike {f f' : Fleet} {c : Runtime.Call} (hc : about x (.backend c) = true) (t : Time)
    (hx : f.containers.find? x = f'.containers.find? x) (outcome : Option (Err × Bool)) :
    (Fleet.attempt t outcome c f).1 = (Fleet.attempt t outcome c f').1 ∧
      (Fleet.attempt t outcome c f).2.containers.find? x = (Fleet.attempt t outcome c f').2.containers.find? x := by
  have hrun : (Fleet.run c { f with clock := t }).1 = (Fleet.run c { f' with clock := t }).1 ∧
      (Fleet.run c { f with clock := t }).2.containers.find? x =
        (Fleet.run c { f' with clock := t }).2.containers.find? x := by
    cases c with
    | list => cases hc
    | create id spec =>
      refine ⟨rfl, ?_⟩
      refine (Fleet.find?_put { f with clock := t } _ x).trans (Eq.trans ?_ (Fleet.find?_put { f' with clock := t } _ x).symm)
      dsimp only
      rw [hx]
    | destroy id =>
      refine ⟨rfl, ?_⟩
      refine (Fleet.find?_remove { f with clock := t } id x).trans
        (Eq.trans ?_ (Fleet.find?_remove { f' with clock := t } id x).symm)
      dsimp only
      rw [hx]
  cases outcome with
  | none => exact hrun
  | some failure =>
    obtain ⟨e, tookEffect⟩ := failure
    cases tookEffect with
    | true => exact ⟨rfl, hrun.2⟩
    | false => exact ⟨rfl, hx⟩

theorem alike_elsewhere {c : (calls Runtime.signature).Call} (hc : Reconciler.Elsewhere x c) (o : Outcomes)
    (w : World Fleet) : Alike x w (o.exec c w).2 := by
  have habout := about_elsewhere hc
  cases c with
  | now | newSandboxID | decide => exact .refl x w
  | backend c => exact ⟨.refl x w.db, (attempt_elsewhere habout _ _ w.backend).symm⟩
  | store c =>
    refine ⟨?_, rfl⟩
    cases c with
    | getSandboxes => exact .refl x w.db
    | updateSandboxState id a b reason v => exact sameRecord_effect hc (StoreCall.effect rfl)
    | getIdempotencyKey | createIdempotencyKey | getSandbox | getSandboxEvents | insertSandbox |
      updateSandboxExpiry => exact hc.elim

theorem alike_frame (x : String) (o : Outcomes) :
    Reconciler.Frame o.act Eq x (Alike x) where
  refl := Alike.refl x
  trans _ _ _ := Alike.trans
  others := by
    rintro w _ rfl
    exact .refl x w
  calls := by
    rintro c hc w a w' h
    rw [show w' = (o.exec c w).2 from (Prod.mk.inj h).2]
    exact alike_elsewhere hc o w

/-- **A call for the sandbox** comes out alike in worlds that are alike in it. -/
theorem exec_alike (ho : o.AgreeOn x o') {c : (calls Runtime.signature).Call} (hc : about x c = true)
    (h : Alike x w w') : (o.exec c w).1 = (o'.exec c w').1 ∧ Alike x (o.exec c w).2 (o'.exec c w').2 := by
  have hclock := ho.clock c hc
  cases c with
  | now | newSandboxID | decide => cases hc
  | backend c =>
    have houtcome : o'.runRuntime c = o.runRuntime c := by
      funext f
      rw [Outcomes.runRuntime, Outcomes.runRuntime, hclock, ho.runtime c hc]
    obtain ⟨hanswer, hcontainer⟩ := attempt_alike hc (o.clock (.backend c)) h.container (o.runtime c)
    refine ⟨?_, h.record, ?_⟩
    · show (o.runRuntime c w.backend).1 = (o'.runRuntime c w'.backend).1
      rw [houtcome]
      exact hanswer
    · show (o.runRuntime c w.backend).2.containers.find? x = (o'.runRuntime c w'.backend).2.containers.find? x
      rw [houtcome]
      exact hcontainer
  | store c =>
    have houtcome : o'.runStore c = o.runStore c := by
      funext db
      rw [Outcomes.runStore, Outcomes.runStore, hclock, ho.store c hc]
    have hagree : (o.runStore c w.db).1 = (o.runStore c w'.db).1 ∧
        SameRecord x (o.runStore c w.db).2 (o.runStore c w'.db).2 := by
      cases c with
      | updateSandboxState id a b reason v =>
        obtain rfl : id = x := of_decide_eq_true hc
        exact updateSandboxState_agree h.record _ _ a b reason v
      | getIdempotencyKey | createIdempotencyKey | getSandbox | getSandboxes | getSandboxEvents | insertSandbox |
        updateSandboxExpiry => cases hc
    rw [← houtcome] at hagree
    refine ⟨?_, ?_, h.container⟩
    · show (o.runStore c w.db).1 = (o'.runStore c w'.db).1
      rw [← houtcome]
      exact hagree.1
    · show SameRecord x (o.runStore c w.db).2 (o'.runStore c w'.db).2
      rw [← houtcome]
      exact hagree.2

/-- Whatever comes of a call, the events stored before it stay where they are. -/
theorem exec_appends (x : String) (o : Outcomes) (c : (calls Runtime.signature).Call) (w : World Fleet) :
    w.db.logOf x <+: (o.exec c w).2.db.logOf x := by
  cases c with
  | now | newSandboxID | decide | backend => exact List.prefix_refl _
  | store c =>
    have heffect : c.Effect (o.clock (.store c)) w.db (o.runStore c w.db).2 := StoreCall.effect rfl
    obtain ⟨l, hl⟩ := heffect.appends
    show w.db.logOf x <+: (o.runStore c w.db).2.logOf x
    rw [Database.logOf, Database.logOf, hl, List.filter_append]
    exact List.prefix_append _ _

/-! ## What a pass begins with -/

theorem listed_fleet {t : Time} {outcome : Option (Err × Bool)} {f : Fleet} {infos : List Runtime.Info}
    (h : (Fleet.attempt t outcome .list f).1 = .ok infos) :
    infos = f.containers.rows ∧ (Fleet.attempt t outcome .list f).2.containers = f.containers := by
  cases outcome with
  | none => exact ⟨(Except.ok.inj h).symm, rfl⟩
  | some failure => cases h

/-- What a pass reads and goes on with. -/
structure Begun (o : Outcomes) (w : World Fleet) (actions : List ReconcileAction) (v : World Fleet) (sbxs : List Sandbox)
    (log : List (Exchange (calls Runtime.signature))) : Prop where
  rows : ∃ f, Sqlite.getSandboxes f w.db = .ok sbxs
  items : ∃ u, (∀ x, Alike x w u) ∧ (Reconciler.reconcileItems (o.clock .now)
    (pairSnapshots sbxs w.backend.containers.rows)).Completes o.act Eq u log actions v
  exchanges : ∀ x, exchangesAbout x o w = log.filter fun e => about x e.1

theorem begun {actions : List ReconcileAction} (h : (Reconciler.reconcileOnce false).run o.exec w = (.ok actions, v)) :
    ∃ sbxs log, Begun o w actions v sbxs log := by
  have hpass : (Reconciler.reconcileOnce false).Completes o.act Eq w ((Reconciler.reconcileOnce false).exchanges o.exec w)
      ((Reconciler.reconcileOnce false).run o.exec w).1 ((Reconciler.reconcileOnce false).run o.exec w).2 :=
    Program.completes_exchanges (fun _ => rfl) o.act_exec _ w
  rw [h] at hpass
  obtain ⟨sbxs, infos, t, _, v₁, _, v₂, _, v₃, l, ⟨rfl, hrows⟩, ⟨rfl, hinfos⟩, ⟨rfl, hnow⟩, hitems, hlog⟩ :=
    Reconciler.reconcileOnce_reads (fun _ => rfl) (fun _ _ _ => Eq.trans) hpass
  obtain ⟨hsbxs, rfl⟩ := Prod.mk.inj hrows
  obtain ⟨hlist, hsame⟩ := Prod.mk.inj hinfos
  obtain ⟨rfl, rfl⟩ := Prod.mk.inj hnow
  obtain ⟨rfl, hfleet⟩ := listed_fleet hlist.symm
  have hread : ∀ x, Alike x w v₃ := by
    intro x
    rw [hsame]
    exact ⟨.refl x w.db, congrArg (fun t : Relational.Table _ _ _ => t.find? x) hfleet.symm⟩
  refine ⟨sbxs, l, ⟨_, hsbxs.symm⟩, ⟨v₃, hread, hitems⟩, fun x => ?_⟩
  rw [exchangesAbout, hlog]
  rfl

theorem Begun.nodup {actions : List ReconcileAction} {sbxs : List Sandbox} {log : List (Exchange (calls Runtime.signature))}
    (hb : Begun o w actions v sbxs log) : (sbxs.map (·.sandboxID)).Nodup := by
  obtain ⟨f, hrows⟩ := hb.rows
  exact Sqlite.getSandboxes_nodup hrows

/-- The item of the sandbox in a pass. -/
def World.item (x : String) (w : World Fleet) : Option ReconcileItem :=
  itemOf ((w.db.sandbox? x).bind fun row => (Sqlite.scanSandbox row).toOption) (w.backend.containers.find? x)

theorem Begun.mem_items {actions : List ReconcileAction} {sbxs : List Sandbox}
    {log : List (Exchange (calls Runtime.signature))} (hb : Begun o w actions v sbxs log) {item : ReconcileItem} :
    item ∈ pairSnapshots sbxs w.backend.containers.rows ∧ item.id = x ↔ w.item x = some item := by
  obtain ⟨f, hrows⟩ := hb.rows
  exact mem_pairSnapshots_of hb.nodup w.backend.containers.unique (listed_row hrows x) rfl

/-- What a pass does about a sandbox, between what it does about others. -/
theorem Begun.visit {actions : List ReconcileAction} {sbxs : List Sandbox} {log : List (Exchange (calls Runtime.signature))}
    (hb : Begun o w actions v sbxs log) {item : ReconcileItem} (hitem : w.item x = some item) : ∃ u u' l r, Alike x w u ∧
      (Reconciler.visit (o.clock .now) item).Completes o.act Eq u l r u' ∧ Alike x u' v ∧ exchangesAbout x o w = l := by
  obtain ⟨hm, hid⟩ := hb.mem_items.mpr hitem
  obtain ⟨s, hread, hitems⟩ := hb.items
  obtain ⟨u, u', l₁, l, l₂, r, hbefore, hvisit, hafter, hlog, hothers⟩ := Reconciler.reconcileItems_visit
    (alike_frame x o) (fun _ => rfl) (fun _ _ _ => Eq.trans) (pairSnapshots_nodup hb.nodup) hm hid hitems
  refine ⟨u, u', l, r, (hread x).trans hbefore, hvisit, hafter, ?_⟩
  have hnone : ∀ l' : List (Exchange (calls Runtime.signature)), (∀ e ∈ l', Reconciler.Elsewhere x e.1) →
      l'.filter (fun e => about x e.1) = [] := by
    intro l' hl'
    refine List.filter_eq_nil_iff.mpr fun e he => ?_
    rw [about_elsewhere (hl' e he)]
    decide
  have hall : l.filter (fun e => about x e.1) = l := by
    refine List.filter_eq_self.mpr fun e he => ?_
    exact hid ▸ about_action (hvisit.calls (Reconciler.visit_calls (o.clock .now) item) e he)
  rw [hb.exchanges x, hlog, List.filter_append, List.filter_append, hall,
    hnone l₁ fun e he => hothers e (List.mem_append_left _ he), hnone l₂ fun e he => hothers e (List.mem_append_right _ he),
    List.nil_append, List.append_nil]

theorem Begun.unvisited {actions : List ReconcileAction} {sbxs : List Sandbox}
    {log : List (Exchange (calls Runtime.signature))} (hb : Begun o w actions v sbxs log) (hitem : w.item x = none) :
    Alike x w v ∧ exchangesAbout x o w = [] := by
  have hx : ∀ item ∈ pairSnapshots sbxs w.backend.containers.rows, item.id ≠ x := by
    intro item hm hid
    rw [hb.mem_items.mp ⟨hm, hid⟩] at hitem
    cases hitem
  obtain ⟨s, hread, hitems⟩ := hb.items
  refine ⟨(hread x).trans (Reconciler.frame_items (alike_frame x o) hx hitems), ?_⟩
  rw [hb.exchanges x]
  refine List.filter_eq_nil_iff.mpr fun e he => ?_
  rw [about_elsewhere (hitems.calls (Reconciler.items_elsewhere hx) e he)]
  decide

theorem item_alike (h : Alike x w w') : w.item x = w'.item x := by
  rw [World.item, World.item, h.record.row, h.container]

/-- **One sandbox of two passes**: the same calls with the same answers, from alike worlds to alike worlds. -/
theorem passes_alike {actions actions' : List ReconcileAction} (hclock : o.clock .now = o'.clock .now)
    (ho : o.AgreeOn x o') (hw : Alike x w w')
    (h : (Reconciler.reconcileOnce false).run o.exec w = (.ok actions, v))
    (h' : (Reconciler.reconcileOnce false).run o'.exec w' = (.ok actions', v')) :
    Alike x v v' ∧ exchangesAbout x o w = exchangesAbout x o' w' := by
  obtain ⟨sbxs, log, hb⟩ := begun h
  obtain ⟨sbxs', log', hb'⟩ := begun h'
  have hsame := item_alike hw
  cases hitem : w.item x with
  | none =>
    obtain ⟨hv, hlog⟩ := hb.unvisited hitem
    obtain ⟨hv', hlog'⟩ := hb'.unvisited (hsame ▸ hitem)
    exact ⟨(hv.symm.trans hw).trans hv', hlog.trans hlog'.symm⟩
  | some item =>
    have hid : item.id = x := (hb.mem_items.mpr hitem).2
    obtain ⟨u, t, l, r, hu, hvisit, ht, hlog⟩ := hb.visit hitem
    obtain ⟨u', t', l', r', hu', hvisit', ht', hlog'⟩ := hb'.visit (hsame ▸ hitem)
    rw [← hclock] at hvisit'
    have hrest : ∀ s₁ s₂ s₁' s₂' : World Fleet, s₁ = s₂ → s₁' = s₂' → Alike x s₁ s₁' → Alike x s₂ s₂' := by
      rintro _ _ _ _ rfl rfl hR
      exact hR
    have hcalls : ∀ c, Reconciler.ActionCall item.id item.desired c → ∀ s a s₁ s' a' s₁', Alike x s s' → o.act c s a s₁ →
        o'.act c s' a' s₁' → a = a' ∧ Alike x s₁ s₁' := by
      intro c hc s a s₁ s' a' s₁' hR hact hact'
      obtain ⟨ha, hs⟩ := Prod.mk.inj hact
      obtain ⟨ha', hs'⟩ := Prod.mk.inj hact'
      obtain ⟨hanswer, hnext⟩ := exec_alike ho (hid ▸ about_action hc) hR
      exact ⟨ha.trans (hanswer.trans ha'.symm), hs ▸ hs' ▸ hnext⟩
    obtain ⟨rfl, -, hend⟩ := hvisit.agree (Reconciler.visit_calls (o.clock .now) item) hrest hcalls ((hu.symm.trans hw).trans hu')
      hvisit'
    exact ⟨(ht.symm.trans hend).trans ht', hlog.trans hlog'.symm⟩

theorem pass_appends (x : String) {actions : List ReconcileAction}
    (h : (Reconciler.reconcileOnce false).run o.exec w = (.ok actions, v)) : w.db.logOf x <+: v.db.logOf x := by
  have hpass : (Reconciler.reconcileOnce false).Completes o.act Eq w ((Reconciler.reconcileOnce false).exchanges o.exec w)
      ((Reconciler.reconcileOnce false).run o.exec w).1 ((Reconciler.reconcileOnce false).run o.exec w).2 :=
    Program.completes_exchanges (fun _ => rfl) o.act_exec _ w
  rw [h] at hpass
  refine hpass.keeps (R := fun s t => s.db.logOf x <+: t.db.logOf x) (Program.nodes_true _) (fun _ _ _ => List.IsPrefix.trans)
    (fun c _ s a t hact => ?_) ?_
  · rw [show t = (o.exec c s).2 from (Prod.mk.inj hact).2]
    exact exec_appends x o c s
  · rintro s _ rfl
    exact List.prefix_refl _

/-- The actions of a pass are the decisions about its items, whatever comes of them. -/
theorem Begun.actions {actions : List ReconcileAction} {sbxs : List Sandbox}
    {log : List (Exchange (calls Runtime.signature))} (hb : Begun o w actions v sbxs log) :
    actions = ((pairSnapshots sbxs w.backend.containers.rows).map fun item =>
      decideReconcileAction item.desired item.observed (o.clock .now)).filter (· ≠ .none) := by
  obtain ⟨s, -, hitems⟩ := hb.items
  exact Reconciler.reconcileItems_actions hitems

/-- What was there already is a common part of both, so what was added is alike. -/
theorem added_alike {l l' m : List EventRow} (h : (m ++ l).map EventRow.unnumbered = (m ++ l').map EventRow.unnumbered) :
    l.map EventRow.unnumbered = l'.map EventRow.unnumbered := by
  rw [List.map_append, List.map_append] at h
  exact List.append_cancel_left h

end Alike

/-! ## Independence -/

/-- The listings of the other pass may have the rows and the containers in another order. -/
structure Shuffled (w w' : World Fleet) : Prop where
  rows : w.db.sandboxes.rows.Perm w'.db.sandboxes.rows
  containers : w.backend.containers.rows.Perm w'.backend.containers.rows

/-- **Independence**: two passes whose listings succeed, with the same clock reading. Where they begin with the same row,
events and container of a sandbox and agree on the calls for it, these calls are the same with the same answers, the
row and the container are the same afterwards, and so are the events added but for their row numbers. The actions
returned depend neither on the order of the listings nor on what fails. -/
theorem passes_independent {o o' : Outcomes} {w w' v v' : World Fleet} {actions actions' : List ReconcileAction}
    (hclock : o.clock .now = o'.clock .now) (h : (Reconciler.reconcileOnce false).run o.exec w = (.ok actions, v))
    (h' : (Reconciler.reconcileOnce false).run o'.exec w' = (.ok actions', v')) :
    (∀ x, o.AgreeOn x o' → w.db.sandbox? x = w'.db.sandbox? x → w.db.logOf x = w'.db.logOf x →
      w.backend.containers.find? x = w'.backend.containers.find? x →
      v.db.sandbox? x = v'.db.sandbox? x ∧ v.backend.containers.find? x = v'.backend.containers.find? x ∧
        (∃ l l', v.db.logOf x = w.db.logOf x ++ l ∧ v'.db.logOf x = w.db.logOf x ++ l' ∧
          l.map EventRow.unnumbered = l'.map EventRow.unnumbered) ∧
        exchangesAbout x o w = exchangesAbout x o' w') ∧
    (Shuffled w w' → actions = actions') := by
  refine ⟨fun x ho hrow hlog hcontainer => ?_, fun hperm => ?_⟩
  · have hw : Alike x w w' := ⟨⟨hrow, by rw [hlog]⟩, hcontainer⟩
    obtain ⟨hv, hexchanges⟩ := passes_alike hclock ho hw h h'
    obtain ⟨l, hl⟩ := pass_appends x h
    obtain ⟨l', hl'⟩ := pass_appends x h'
    have hevents := hv.record.events
    rw [← hlog] at hl'
    rw [← hl, ← hl'] at hevents
    exact ⟨hv.record.row, hv.container, ⟨l, l', hl.symm, hl'.symm, added_alike hevents⟩, hexchanges⟩
  · obtain ⟨sbxs, log, hb⟩ := begun h
    obtain ⟨sbxs', log', hb'⟩ := begun h'
    have hsbxs : sbxs.Perm sbxs' := by
      obtain ⟨f, hrows⟩ := hb.rows
      obtain ⟨f', hrows'⟩ := hb'.rows
      rw [listed_rows hrows, listed_rows hrows']
      exact hperm.rows.filterMap _
    have hitems := pairSnapshots_perm hsbxs hperm.containers hb'.nodup w'.backend.containers.unique
    rw [hb.actions, hb'.actions, hitems, hclock]

/-! ### Two sandboxes, one of which the store fails -/

/-- The store fails every statement about the sandbox. -/
def Outcomes.failing (x : String) (t : Time) : Outcomes where
  clock _ := t
  store c := if about x (.store c) then ⟨fun _ => some "disk I/O error", false⟩ else .none
  runtime _ := none

theorem failing_elsewhere {x y : String} (hne : x ≠ y) (t : Time) : (Outcomes.success t).AgreeOn y (.failing x t) where
  clock _ _ := rfl
  runtime _ _ := rfl
  store c hc := by
    have hx : about x (.store c) = false := by
      cases c with
      | updateSandboxState id =>
        obtain rfl : id = y := of_decide_eq_true hc
        exact decide_eq_false hne.symm
      | getIdempotencyKey | createIdempotencyKey | getSandbox | getSandboxes | getSandboxEvents | insertSandbox |
        updateSandboxExpiry => rfl
    show Faults.none = if about x (.store c) then _ else Faults.none
    rw [if_neg (by rw [hx]; decide)]

/-- Two sandboxes recorded and not yet started. -/
def recordedPair : World Fleet :=
  let db := (Sqlite.insertSandbox .none 0 "k₁" (.obj []) "sbx_a" 100 .empty).2
  ⟨(Sqlite.insertSandbox .none 0 "k₂" (.obj []) "sbx_b" 100 db).2, 0, .empty⟩

/-- A pass over them that goes well, and one in which the store fails for the first. -/
theorem recordedPair_passes : ∃ actions actions' v v',
    (Reconciler.reconcileOnce false).run (Outcomes.success 1).exec recordedPair = (.ok actions, v) ∧
      (Reconciler.reconcileOnce false).run (Outcomes.failing "sbx_a" 1).exec recordedPair = (.ok actions', v') ∧
      (v.db.logOf "sbx_b").map (·.id) = [2, 4] ∧ (v'.db.logOf "sbx_b").map (·.id) = [2, 3] := by
  have hok : ((Reconciler.reconcileOnce false).run (Outcomes.success 1).exec recordedPair).1.isOk = true := by
    decide +kernel
  have hok' : ((Reconciler.reconcileOnce false).run (Outcomes.failing "sbx_a" 1).exec recordedPair).1.isOk = true := by
    decide +kernel
  obtain ⟨actions, ha⟩ := exists_ok_of_isOk hok
  obtain ⟨actions', ha'⟩ := exists_ok_of_isOk hok'
  exact ⟨actions, actions', _, _, Prod.ext ha rfl, Prod.ext ha' rfl, by decide +kernel, by decide +kernel⟩

/-- The theorem at these two passes and the second sandbox. -/
theorem passes_independent_pair : ∃ v v' : World Fleet, v.db.sandbox? "sbx_b" = v'.db.sandbox? "sbx_b" ∧
    exchangesAbout "sbx_b" (.success 1) recordedPair = exchangesAbout "sbx_b" (.failing "sbx_a" 1) recordedPair ∧
    ((Reconciler.reconcileOnce false).run (Outcomes.success 1).exec recordedPair).1.toOption =
      ((Reconciler.reconcileOnce false).run (Outcomes.failing "sbx_a" 1).exec recordedPair).1.toOption := by
  obtain ⟨actions, actions', v, v', h, h', -, -⟩ := recordedPair_passes
  have hclock : (Outcomes.success 1).clock .now = (Outcomes.failing "sbx_a" 1).clock .now := rfl
  obtain ⟨hsame, hactions⟩ := passes_independent hclock h h'
  obtain ⟨hrow, -, -, hexchanges⟩ := hsame "sbx_b" (failing_elsewhere (by decide) 1) rfl rfl rfl
  refine ⟨v, v', hrow, hexchanges, ?_⟩
  rw [h, h', hactions ⟨.refl _, .refl _⟩]

/-- The second sandbox begins and fares alike in both, and yet its new event is stored under another number: the store
counts the events of the first sandbox too. -/
theorem event_number_shared : ∃ actions actions' v v',
    (Reconciler.reconcileOnce false).run (Outcomes.success 1).exec recordedPair = (.ok actions, v) ∧
      (Reconciler.reconcileOnce false).run (Outcomes.failing "sbx_a" 1).exec recordedPair = (.ok actions', v') ∧
      (Outcomes.success 1).AgreeOn "sbx_b" (.failing "sbx_a" 1) ∧ v.db.logOf "sbx_b" ≠ v'.db.logOf "sbx_b" := by
  obtain ⟨actions, actions', v, v', h, h', hid, hid'⟩ := recordedPair_passes
  refine ⟨actions, actions', v, v', h, h', failing_elsewhere (by decide) 1, fun he => ?_⟩
  rw [he, hid'] at hid
  cases hid

end Quickspin
