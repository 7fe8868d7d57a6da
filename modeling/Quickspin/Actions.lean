import Quickspin.Reconciler

/-! What an action may call: the runtime and the row of its own sandbox, at the version the pass has read,
and the failing of a row whose spec does not resolve only where it does not. -/
namespace Quickspin
open Interaction
set_option autoImplicit false

namespace Reconciler

def unresolvedReason : String := "reconciler failed sandbox: spec does not resolve"

/-- The calls of an action on the sandbox `id` whose row is `desired`. -/
def ActionCall (id : String) (desired : Option Sandbox) : (calls Runtime.signature).Call → Prop
  | .backend (.create id' resolved) =>
    id' = id ∧ ∃ sbx, desired = some sbx ∧ sbx.spec.resolveValidated = .ok resolved
  | .backend (.destroy id') => id' = id
  | .store (.updateSandboxState id' _ _ reason v) => id' = id ∧ ∃ sbx, desired = some sbx ∧ v = sbx.versionID ∧
      (reason = unresolvedReason → ∃ err, sbx.spec.resolveValidated = .error err)
  | _ => False

theorem mark_action (sbx : Sandbox) (toState : TaskState) {reason : String} (describing : String)
    (h : reason = unresolvedReason → ∃ err, sbx.spec.resolveValidated = .error err) :
    (mark sbx toState reason describing).Calls (ActionCall sbx.sandboxID (some sbx)) := by
  refine ⟨⟨rfl, sbx, rfl, rfl, h⟩, fun a => ?_⟩
  cases (a : Except Err Sandbox) <;> trivial

theorem handleCreate_action (sbx : Sandbox) :
    (handleCreate sbx).Calls (ActionCall sbx.sandboxID (some sbx)) := by
  unfold handleCreate
  cases hr : sbx.spec.resolveValidated with
  | error err => exact mark_action sbx .failed _ fun _ => ⟨err, hr⟩
  | ok resolved =>
    refine ⟨⟨rfl, sbx, rfl, hr⟩, fun a => ?_⟩
    cases (a : Except Err Runtime.Info) with
    | error err => trivial
    | ok info =>
      have hne : ¬"reconciler created container" = unresolvedReason := by decide
      refine ⟨⟨rfl, sbx, rfl, rfl, fun h => absurd h hne⟩, fun a => ?_⟩
      cases (a : Except Err Sandbox) with
      | ok sbx' => trivial
      | error err =>
        refine ⟨rfl, fun a => ?_⟩
        cases (a : Except Err Unit) <;> trivial

theorem handleDestroy_action (sbx : Sandbox) :
    (handleDestroy sbx).Calls (ActionCall sbx.sandboxID (some sbx)) := by
  refine ⟨rfl, fun a => ?_⟩
  cases (a : Except Err Unit) with
  | error err => trivial
  | ok u =>
    show Program.Calls _ (if sbx.state = .stopping then _ else _)
    split
    · exact mark_action sbx .stopped _ fun h => absurd h (by decide)
    · trivial

theorem handleDestroyOrphan_action (id : String) (desired : Option Sandbox) :
    (handleDestroyOrphan id).Calls (ActionCall id desired) := by
  refine ⟨rfl, fun a => ?_⟩
  cases (a : Except Err Unit) <;> trivial

theorem handleReap_action (sbx : Sandbox) (observed : Option Runtime.Info) :
    (handleReap sbx observed).Calls (ActionCall sbx.sandboxID (some sbx)) := by
  have hmark : ∀ describing, (mark sbx (reapedState sbx.state) "reconciler reaped expired sandbox" describing).Calls
      (ActionCall sbx.sandboxID (some sbx)) := fun describing => mark_action sbx _ describing fun h => absurd h (by decide)
  cases observed with
  | none => exact hmark _
  | some info =>
    refine ⟨rfl, fun a => ?_⟩
    cases (a : Except Err Unit) with
    | error err => trivial
    | ok u => exact hmark _

/-- **An action** stays with its own item, whatever was decided. -/
theorem handleAction_action (action : ReconcileAction) (item : ReconcileItem) :
    (handleAction action item.desired item.observed).Calls (ActionCall item.id item.desired) := by
  have hne : ∀ reason : String, reason ≠ unresolvedReason → ∀ sbx : Sandbox,
      reason = unresolvedReason → ∃ err, sbx.spec.resolveValidated = .error err := fun _ hr _ he => absurd he hr
  cases item with
  | orphan info =>
    cases action with
    | destroyOrphan =>
      show Program.Calls _ (if _ then _ else _)
      split
      · trivial
      · exact handleDestroyOrphan_action info.id none
    | none | create | destroy | reap | markFailed | markStopped | markRunning => trivial
  | row sbx observed =>
    cases action with
    | destroyOrphan =>
      show Program.Calls _ (if _ then _ else _)
      split
      · trivial
      · exact handleDestroyOrphan_action sbx.sandboxID (some sbx)
    | none =>
      show Program.Calls _ (if _ then _ else _)
      split <;> trivial
    | create =>
      show Program.Calls _ (if _ then _ else _)
      split
      · trivial
      · exact handleCreate_action sbx
    | destroy =>
      show Program.Calls _ (if _ then _ else _)
      split
      · trivial
      · exact handleDestroy_action sbx
    | reap =>
      show Program.Calls _ (if _ then _ else _)
      split
      · trivial
      · exact handleReap_action sbx observed
    | markFailed | markStopped | markRunning =>
      show Program.Calls _ (if _ then _ else _)
      split
      · trivial
      · exact mark_action sbx _ _ (hne _ (by decide) sbx)

/-! ## The calls of a pass -/

theorem reconcileItems_calls {P : (calls Runtime.signature).Call → Prop} (t : Time) {items : List ReconcileItem}
    (hdecide : ∀ id action, P (.decide id action))
    (haction : ∀ item ∈ items, ∀ c, ActionCall item.id item.desired c → P c) : (reconcileItems t items).Calls P := by
  induction items with
  | nil => trivial
  | cons item rest ih =>
    have hrest := ih fun item hm => haction item (List.mem_cons_of_mem _ hm)
    refine ⟨hdecide _ _, fun a => ?_⟩
    show Program.Calls P (if _ then _ else _)
    split
    · exact hrest
    · have hitem := (handleAction_action (decideReconcileAction item.desired item.observed t) item).mono
        (haction item (List.mem_cons_self ..))
      exact hitem.bind fun _ => hrest.bind fun _ => trivial

/-- Items nothing is to be done about are only decided on. -/
theorem reconcileItems_idle {t : Time} {items : List ReconcileItem}
    (h : ∀ item ∈ items, decideReconcileAction item.desired item.observed t = .none) :
    (reconcileItems t items).Calls fun c : Call Runtime.signature => ∃ id action, c = .decide id action := by
  induction items with
  | nil => trivial
  | cons item rest ih =>
    refine ⟨⟨_, _, rfl⟩, fun a => ?_⟩
    show Program.Calls _ (if _ then _ else _)
    rw [if_pos (h item (List.mem_cons_self ..))]
    exact ih fun other ho => h other (List.mem_cons_of_mem _ ho)

theorem reconcileOnce_calls {P : (calls Runtime.signature).Call → Prop} (hlist : P (.store .getSandboxes))
    (hinfos : P (.backend .list)) (hnow : P .now) (hdecide : ∀ id action, P (.decide id action))
    (haction : ∀ id desired c, ActionCall id desired c → P c) : (reconcileOnce false).Calls P := by
  refine ⟨hlist, fun a => ?_⟩
  cases (a : Except Err (List Sandbox)) with
  | error err => trivial
  | ok sbxs =>
    refine ⟨hinfos, fun a => ?_⟩
    cases (a : Except Err (List Runtime.Info)) with
    | error err => trivial
    | ok infos =>
      refine ⟨hnow, fun t => ?_⟩
      exact (reconcileItems_calls t hdecide fun item _ => haction item.id item.desired).bind fun _ => trivial

end Reconciler
end Quickspin
