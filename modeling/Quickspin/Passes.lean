import Quickspin.Actions
import Quickspin.Pairing
import Quickspin.Lib.Alone

/-! A pass seen from one sandbox. A pass reads the two listings and the clock, and then visits its items; a
relation that everything but the calls about this sandbox keeps holds up to the visit of its item and from
there to the end. -/
namespace Quickspin
open Interaction
set_option autoImplicit false

namespace Reconciler

/-- What a pass does about one item once it is at it. -/
def visit (t : Time) (item : ReconcileItem) : Program (calls Runtime.signature) (Except Err Unit) :=
  if decideReconcileAction item.desired item.observed t = .none then pure (.ok ())
  else handleAction (decideReconcileAction item.desired item.observed t) item.desired item.observed

theorem visit_none {t : Time} {sbx : Sandbox} {observed : Option Runtime.Info}
    (h : decideReconcileAction (some sbx) observed t = .none) : visit t (.row sbx observed) = pure (.ok ()) := if_pos h

theorem visit_some {t : Time} {sbx : Sandbox} {observed : Option Runtime.Info} {action : ReconcileAction}
    (h : decideReconcileAction (some sbx) observed t = action) (hne : action ≠ .none) :
    visit t (.row sbx observed) = handleAction action (some sbx) observed := by
  subst h
  exact if_neg hne

section Dispatch
variable {sbx : Sandbox} (hid : sbx.sandboxID ≠ "") (observed : Option Runtime.Info)
include hid

theorem handleAction_create : handleAction .create (some sbx) observed = handleCreate sbx :=
  if_neg (by simpa using hid)

theorem handleAction_destroy : handleAction .destroy (some sbx) observed = handleDestroy sbx :=
  if_neg (by simpa using hid)

theorem handleAction_reap : handleAction .reap (some sbx) observed = handleReap sbx observed :=
  if_neg (by simpa using hid)

theorem handleAction_mark {action : ReconcileAction} {toState : TaskState}
    (h : (action, toState) ∈ [(.markFailed, .failed), (.markStopped, .stopped), (.markRunning, TaskState.running)]) :
    ∃ reason describing, handleAction action (some sbx) observed = mark sbx toState reason describing := by
  simp only [List.mem_cons, Prod.mk.injEq, List.not_mem_nil, or_false] at h
  rcases h with ⟨rfl, rfl⟩ | ⟨rfl, rfl⟩ | ⟨rfl, rfl⟩
  · exact ⟨_, _, if_neg (by simpa using hid)⟩
  · exact ⟨_, _, if_neg (by simpa using hid)⟩
  · exact ⟨_, _, if_neg (by simpa using hid)⟩

end Dispatch

/-- A call of a pass that is not about the sandbox `x`. -/
def Elsewhere (x : String) : (calls Runtime.signature).Call → Prop
  | .store .getSandboxes | .backend .list | .now | .decide _ _ => True
  | .backend (.create id _) | .backend (.destroy id) | .store (.updateSandboxState id ..) => id ≠ x
  | _ => False

theorem elsewhere_of_action {x id : String} {desired : Option Sandbox} (hne : id ≠ x)
    {c : (calls Runtime.signature).Call} (hc : ActionCall id desired c) : Elsewhere x c := by
  cases c with
  | now | newSandboxID | decide => exact hc.elim
  | backend c =>
    cases c with
    | create => exact hc.1 ▸ hne
    | destroy => exact (show _ = id from hc) ▸ hne
    | list => exact hc.elim
  | store c =>
    cases c with
    | updateSandboxState => exact hc.1 ▸ hne
    | getIdempotencyKey | createIdempotencyKey | getSandbox | getSandboxes | getSandboxEvents | insertSandbox |
      updateSandboxExpiry => exact hc.elim

theorem visit_calls (t : Time) (item : ReconcileItem) : (visit t item).Calls (ActionCall item.id item.desired) := by
  unfold visit
  split
  · trivial
  · exact handleAction_action _ item

/-- What the others do, and what a pass does about other sandboxes than `x`, is in `F`. -/
structure Frame {σ : Type} (act : (c : (calls Runtime.signature).Call) → σ → (calls Runtime.signature).Answer c → σ → Prop)
    (drift : σ → σ → Prop) (x : String) (F : σ → σ → Prop) : Prop where
  refl : ∀ s, F s s
  trans : ∀ s t u, F s t → F t u → F s u
  others : ∀ s s', drift s s' → F s s'
  calls : ∀ c, Elsewhere x c → ∀ s a s', act c s a s' → F s s'

/-- The readings a pass begins with, before it visits its items. -/
structure Opened {σ : Type} (act : (c : (calls Runtime.signature).Call) → σ → (calls Runtime.signature).Answer c → σ → Prop)
    (F : σ → σ → Prop) (s : σ) (sbxs : List Sandbox) (infos : List Runtime.Info) (t : Time) (s' : σ) : Prop where
  sandboxes : ∃ u v, F s u ∧ act (.store .getSandboxes) u (Except.ok sbxs) v ∧ F v s'
  infos : ∃ u v, F s u ∧ act (.backend .list) u (Except.ok infos) v ∧ F v s'
  now : ∃ u v, F s u ∧ act .now u t v ∧ F v s'
  through : F s s'

section Pass
variable {σ : Type} {act : (c : (calls Runtime.signature).Call) → σ → (calls Runtime.signature).Answer c → σ → Prop}
  {drift F : σ → σ → Prop} {x : String} {t : Time} {s s' : σ} {log : List (Exchange (calls Runtime.signature))}
  {actions : List ReconcileAction} {item : ReconcileItem} {items : List ReconcileItem}

/-- An item first in line: it is decided on, visited, and the rest follows. -/
theorem reconcileItems_cons (hrefl : ∀ s, drift s s) (htrans : ∀ s t u, drift s t → drift t u → drift s u)
    (h : (reconcileItems t (item :: items)).Completes act drift s log actions s') : ∃ u v w l l' r actions' a,
      drift s u ∧ act (.decide item.id (decideReconcileAction item.desired item.observed t)) u a v ∧
      (visit t item).Completes act drift v l r w ∧ (reconcileItems t items).Completes act drift w l' actions' s' ∧
      log = ⟨.decide item.id (decideReconcileAction item.desired item.observed t), a⟩ :: (l ++ l') ∧
      actions = if decideReconcileAction item.desired item.observed t = .none then actions'
        else decideReconcileAction item.desired item.observed t :: actions' := by
  obtain ⟨u, a, v, rest, hsu, hact, rfl, h⟩ := h
  change Program.Completes act drift (if _ then _ else _) v rest actions s' at h
  unfold visit
  by_cases hnone : decideReconcileAction item.desired item.observed t = .none
  · rw [if_pos hnone] at h ⊢
    exact ⟨u, v, v, [], rest, .ok (), actions, a, hsu, hact, ⟨rfl, rfl, hrefl v⟩, h, rfl, by rw [if_pos hnone]⟩
  · rw [if_neg hnone] at h ⊢
    obtain ⟨l, l₁, r, w, rfl, hvisit, h⟩ := h.of_bind hrefl
    obtain ⟨l', l₂, actions', w', rfl, hitems, hlast⟩ := h.of_bind hrefl
    obtain ⟨rfl, rfl, hdrift⟩ := hlast
    have hrest := hitems.after htrans hdrift
    refine ⟨u, v, w, l, l', r, actions', a, hsu, hact, hvisit, hrest, ?_, by rw [if_neg hnone]⟩
    rw [List.append_nil]

theorem items_elsewhere (hx : ∀ item ∈ items, item.id ≠ x) : (reconcileItems t items).Calls (Elsewhere x) :=
  reconcileItems_calls t (fun _ _ => trivial) fun item hm _ hc => elsewhere_of_action (hx item hm) hc

theorem visit_elsewhere (hx : item.id ≠ x) : (visit t item).Calls (Elsewhere x) :=
  (visit_calls t item).mono fun _ hc => elsewhere_of_action hx hc

theorem frame_items (hF : Frame act drift x F) (hx : ∀ item ∈ items, item.id ≠ x)
    (h : (reconcileItems t items).Completes act drift s log actions s') : F s s' :=
  h.keeps (items_elsewhere hx) hF.trans hF.calls hF.others

theorem frame_visit (hF : Frame act drift x F) {r : Except Err Unit} (hx : item.id ≠ x)
    (h : (visit t item).Completes act drift s log r s') : F s s' :=
  h.keeps (visit_elsewhere hx) hF.trans hF.calls hF.others

/-- **One visit**: up to the item of `x`, and from there to the end, the pass moves by `F` and its calls are about
other sandboxes. -/
theorem reconcileItems_visit (hF : Frame act drift x F) (hrefl : ∀ s, drift s s)
    (htrans : ∀ s t u, drift s t → drift t u → drift s u) (hn : (items.map (·.id)).Nodup) (hm : item ∈ items)
    (hx : item.id = x) (h : (reconcileItems t items).Completes act drift s log actions s') : ∃ u v l₁ l l₂ r,
      F s u ∧ (visit t item).Completes act drift u l r v ∧ F v s' ∧ log = l₁ ++ l ++ l₂ ∧
      ∀ e ∈ l₁ ++ l₂, Elsewhere x e.1 := by
  induction items generalizing s log actions with
  | nil => cases hm
  | cons first rest ih =>
    rw [List.map_cons, List.nodup_cons] at hn
    obtain ⟨u, v, w, l, l', r, actions', a, hsu, hact, hvisit, hrest, rfl, -⟩ := reconcileItems_cons hrefl htrans h
    have hbegun : F s v := hF.trans _ _ _ (hF.others _ _ hsu) (hF.calls (.decide _ _) trivial _ _ _ hact)
    rcases List.mem_cons.mp hm with rfl | hm
    · have hothers : ∀ other ∈ rest, other.id ≠ x := fun other ho he =>
        hn.1 (List.mem_map.mpr ⟨other, ho, he.trans hx.symm⟩)
      refine ⟨v, w, [⟨.decide item.id _, a⟩], l, l', r, hbegun, hvisit, frame_items hF hothers hrest, rfl, fun e he => ?_⟩
      rcases List.mem_cons.mp he with rfl | he
      · trivial
      · exact hrest.calls (items_elsewhere hothers) e he
    · have hne : first.id ≠ x := fun he => hn.1 (List.mem_map.mpr ⟨item, hm, hx.trans he.symm⟩)
      obtain ⟨u', v', l₁, l₀, l₂, r', hwu, hvisit', hlast, rfl, hmem⟩ := ih hn.2 hm hrest
      have hfirst : F s w := hF.trans _ _ _ hbegun (frame_visit hF hne hvisit)
      refine ⟨u', v', ⟨.decide first.id _, a⟩ :: (l ++ l₁), l₀, l₂, r', hF.trans _ _ _ hfirst hwu, hvisit', hlast,
        by simp, fun e he => ?_⟩
      rcases List.mem_cons.mp he with rfl | he
      · trivial
      · have he : e ∈ l ++ (l₁ ++ l₂) := List.append_assoc l l₁ l₂ ▸ he
        rcases List.mem_append.mp he with he | he
        · exact hvisit.calls (visit_elsewhere hne) e he
        · exact hmem e he

/-- The actions of a pass are those decided on its items, in their order. -/
theorem reconcileItems_actions (h : (reconcileItems t items).Completes act drift s log actions s') :
    actions = (items.map fun item => decideReconcileAction item.desired item.observed t).filter (· ≠ .none) := by
  have htrue : (reconcileItems t items).Completes (fun _ _ _ _ => True) (fun _ _ => True) s log actions s' :=
    h.mono (fun _ _ _ _ _ => trivial) fun _ _ _ => trivial
  clear h
  induction items generalizing s log actions with
  | nil => exact htrue.2.1
  | cons first rest ih =>
    obtain ⟨u, v, w, l, l', r, actions', a, -, -, -, hrest, -, rfl⟩ :=
      reconcileItems_cons (fun _ => trivial) (fun _ _ _ _ _ => trivial) htrue
    rw [List.map_cons]
    by_cases hnone : decideReconcileAction first.desired first.observed t = .none
    · rw [if_pos hnone, List.filter_cons_of_neg (by simpa using hnone), ih hrest]
    · rw [if_neg hnone, List.filter_cons_of_pos (by simpa using hnone), ih hrest]

theorem items_timeless : (reconcileItems t items).Calls fun c : Call Runtime.signature => c ≠ .now :=
  reconcileItems_calls t (fun _ _ => by simp) fun _ _ c hc => by
    rintro rfl
    exact hc

theorem clock_reading {t' : Time} {a : Except Err (List Sandbox)} {b : Except Err (List Runtime.Info)}
    (h : ⟨.now, t⟩ ∈ (⟨.store .getSandboxes, a⟩ :: ⟨.backend .list, b⟩ :: ⟨.now, t'⟩ :: log :
      List (Exchange (calls Runtime.signature))))
    (hitems : (reconcileItems t' items).Completes act drift s log actions s') : t = t' := by
  rcases List.mem_cons.mp h with he | hm
  · cases he
  rcases List.mem_cons.mp hm with he | hm
  · cases he
  rcases List.mem_cons.mp hm with he | hm
  · cases he
    rfl
  · exact absurd rfl (hitems.calls items_timeless _ hm)

/-- A pass whose listings succeed reads the rows, the containers and the clock, and visits the pairs. -/
theorem reconcileOnce_reads (hrefl : ∀ s, drift s s) (htrans : ∀ s t u, drift s t → drift t u → drift s u)
    (h : (reconcileOnce false).Completes act drift s log (.ok actions) s') : ∃ sbxs infos t u₁ v₁ u₂ v₂ u₃ v₃ l,
      (drift s u₁ ∧ act (.store .getSandboxes) u₁ (Except.ok sbxs) v₁) ∧
      (drift v₁ u₂ ∧ act (.backend .list) u₂ (Except.ok infos) v₂) ∧ (drift v₂ u₃ ∧ act .now u₃ t v₃) ∧
      (reconcileItems t (pairSnapshots sbxs infos)).Completes act drift v₃ l actions s' ∧
      log = ⟨.store .getSandboxes, Except.ok sbxs⟩ :: ⟨.backend .list, Except.ok infos⟩ :: ⟨.now, t⟩ :: l := by
  obtain ⟨u₁, a₁, v₁, l₁, hu₁, hact₁, rfl, h⟩ := h
  cases a₁ with
  | error e => cases h.2.1
  | ok sbxs =>
    obtain ⟨u₂, a₂, v₂, l₂, hu₂, hact₂, rfl, h⟩ := h
    cases a₂ with
    | error e => cases h.2.1
    | ok infos =>
      obtain ⟨u₃, t, v₃, l₃, hu₃, hact₃, rfl, h⟩ := h
      dsimp only [Program.bind] at h
      obtain ⟨l, l', actions', w, rfl, hitems, hlast⟩ := h.of_bind hrefl
      obtain ⟨rfl, hactions, hdrift⟩ := hlast
      obtain rfl := Except.ok.inj hactions
      exact ⟨sbxs, infos, t, u₁, v₁, u₂, v₂, u₃, v₃, l, ⟨hu₁, hact₁⟩, ⟨hu₂, hact₂⟩, ⟨hu₃, hact₃⟩,
        hitems.after htrans hdrift, by rw [List.append_nil]⟩

/-- **A pass** opens by `F`. -/
theorem reconcileOnce_opens (hF : Frame act drift x F) (hrefl : ∀ s, drift s s)
    (htrans : ∀ s t u, drift s t → drift t u → drift s u)
    (h : (reconcileOnce false).Completes act drift s log (.ok actions) s') : ∃ sbxs infos t u l,
      Opened act F s sbxs infos t u ∧ (reconcileItems t (pairSnapshots sbxs infos)).Completes act drift u l actions s' ∧
      log = ⟨.store .getSandboxes, Except.ok sbxs⟩ :: ⟨.backend .list, Except.ok infos⟩ :: ⟨.now, t⟩ :: l := by
  obtain ⟨sbxs, infos, t, u₁, v₁, u₂, v₂, u₃, v₃, l, ⟨hu₁, hact₁⟩, ⟨hu₂, hact₂⟩, ⟨hu₃, hact₃⟩, hitems, hlog⟩ :=
    reconcileOnce_reads hrefl htrans h
  have hF₁ := hF.calls (.store .getSandboxes) trivial _ _ _ hact₁
  have hF₂ := hF.calls (.backend .list) trivial _ _ _ hact₂
  have hF₃ := hF.calls .now trivial _ _ _ hact₃
  have h₂ : F v₁ u₂ := hF.others _ _ hu₂
  have h₃ : F v₂ u₃ := hF.others _ _ hu₃
  have h₁₂ : F s u₂ := hF.trans _ _ _ (hF.trans _ _ _ (hF.others _ _ hu₁) hF₁) h₂
  have h₂₃ : F v₂ v₃ := hF.trans _ _ _ h₃ hF₃
  refine ⟨sbxs, infos, t, v₃, l, ⟨?_, ?_, ?_, ?_⟩, hitems, hlog⟩
  · exact ⟨u₁, v₁, hF.others _ _ hu₁, hact₁, hF.trans _ _ _ h₂ (hF.trans _ _ _ hF₂ h₂₃)⟩
  · exact ⟨u₂, v₂, h₁₂, hact₂, h₂₃⟩
  · exact ⟨u₃, v₃, hF.trans _ _ _ h₁₂ (hF.trans _ _ _ hF₂ h₃), hact₃, hF.refl _⟩
  · exact hF.trans _ _ _ h₁₂ (hF.trans _ _ _ hF₂ h₂₃)

end Pass
end Reconciler
end Quickspin
