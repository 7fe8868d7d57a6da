import Quickspin.Sandbox

/-! One row of the append-only history (`internal/events`). -/
namespace Quickspin
set_option autoImplicit false

structure Event where
  id : ℕ
  versionID : ℤ
  sandboxID : String
  fromState : TaskState
  toState : TaskState
  happenedAt : Time
  reason : String
deriving DecidableEq

/-- Presence only: whether the transition is legal was decided before it happened. -/
def Event.validate (e : Event) : Except Err Unit :=
  let op := "events.Event.Validate"
  if e.sandboxID == "" then .error (E op "event has no sandbox id" (.sentinel .invalidEvent))
  else if e.versionID < 1 then .error (E op "event has no version id" (.sentinel .invalidEvent))
  else if e.toState == .zero then .error (E op "event has no to state" (.sentinel .invalidEvent))
  else if e.reason == "" then .error (E op "event has no reason" (.sentinel .invalidEvent))
  else .ok ()

theorem Event.validate_ok_iff (e : Event) :
    e.validate = .ok () ↔ e.sandboxID ≠ "" ∧ 1 ≤ e.versionID ∧ e.toState ≠ .zero ∧ e.reason ≠ "" := by
  unfold Event.validate
  constructor
  · intro h
    split_ifs at h
    simp_all
  · rintro ⟨h₁, h₂, h₃, h₄⟩
    simp [h₁, h₃, h₄, not_lt.mpr h₂]

theorem Event.validate_error {e : Event} {err : Err} (h : e.validate = .error err) (s : Sentinel) :
    err.is s = (Sentinel.invalidEvent == s) := by
  unfold Event.validate at h
  split_ifs at h
  all_goals
    cases h
    simp

end Quickspin
