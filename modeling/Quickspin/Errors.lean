import Mathlib.Tactic.Common

/-! Error values: the packages' sentinels, the shared envelope `errs.Error` and joined errors, with
`errors.Is` walking the tree. The stack an envelope captures is not modelled, so `E` and `wrap`
build the same value. -/
namespace Quickspin
set_option autoImplicit false

/-- The sentinels, each with the package that declares it where two share a name. -/
inductive Sentinel
  | invalidState | invalidStateTransition | invalidSpec | sandboxNotRunning
  | invalidEvent
  | storeNotFound | missingExpiry
  | runtimeNotFound | imageMissing | invalidSandboxID | runtimeInvalidSpec
  | invalidPath | pathNotFound | fileTooLarge | totalFilesTooLarge | execTimeout | execNotKilled
  | internal
  | passInFlight
  | apiInternal | invalidRequest | apiNotFound
  | contextCanceled | contextDeadlineExceeded
deriving DecidableEq, Repr

/-- `foreign` is an error of the standard library, the database driver or the daemon. -/
inductive Err
  | sentinel (s : Sentinel)
  | foreign (text : String)
  | envelope (op message : String) (err : Option Err)
  | join (errs : List Err)
deriving Repr

mutual

/-- `errors.Is(err, target)` for a sentinel target. -/
def Err.is (e : Err) (target : Sentinel) : Bool :=
  match e with
  | .sentinel s => s == target
  | .foreign _ => false
  | .envelope _ _ none => false
  | .envelope _ _ (some inner) => inner.is target
  | .join errs => Err.anyIs errs target

def Err.anyIs (errs : List Err) (target : Sentinel) : Bool :=
  match errs with
  | [] => false
  | e :: rest => e.is target || Err.anyIs rest target

end

/-- Build an error at its origin. -/
def E (op message : String) (err : Err) : Err := .envelope op message (some err)

/-- Add an operation above an error. -/
def wrap (op message : String) (err : Err) : Err := .envelope op message (some err)

/-- `errors.Join` of two errors. -/
def joinErr (a b : Err) : Err := .join [a, b]

@[simp] theorem is_sentinel (s t : Sentinel) : (Err.sentinel s).is t = (s == t) := by
  rw [Err.is]

@[simp] theorem is_foreign (text : String) (t : Sentinel) : (Err.foreign text).is t = false := by
  rw [Err.is]

@[simp] theorem is_E (op message : String) (e : Err) (t : Sentinel) : (E op message e).is t = e.is t := by
  rw [E, Err.is]

@[simp] theorem is_wrap (op message : String) (e : Err) (t : Sentinel) :
    (wrap op message e).is t = e.is t := by
  rw [wrap, Err.is]

@[simp] theorem is_joinErr (a b : Err) (t : Sentinel) : (joinErr a b).is t = (a.is t || b.is t) := by
  simp [joinErr, Err.is, Err.anyIs]

/-- No sentinel is found in the error. -/
def Err.Unclassified (e : Err) : Prop := ∀ s, e.is s = false

theorem unclassified_foreign (text : String) : (Err.foreign text).Unclassified := is_foreign text

theorem Err.Unclassified.E {e : Err} (h : e.Unclassified) (op message : String) :
    (E op message e).Unclassified := fun s => (is_E op message e s).trans (h s)

theorem Err.Unclassified.wrap {e : Err} (h : e.Unclassified) (op message : String) :
    (wrap op message e).Unclassified := fun s => (is_wrap op message e s).trans (h s)

/-! ## Steps that may fail -/

section Steps
variable {α β : Type}

theorem bind_eq_ok {x : Except Err α} {f : α → Except Err β} {b : β} :
    (x >>= f) = .ok b ↔ ∃ a, x = .ok a ∧ f a = .ok b := by
  cases x with
  | error e => exact ⟨fun h => (nomatch h), fun ⟨a, h, _⟩ => (nomatch h)⟩
  | ok a => exact ⟨fun h => ⟨a, rfl, h⟩, fun ⟨a', h, hf⟩ => Except.ok.inj h ▸ hf⟩

theorem exists_ok_of_isOk {x : Except Err α} (h : x.isOk = true) : ∃ a, x = .ok a := by
  rcases x with e | a
  · cases h
  · exact ⟨a, rfl⟩

theorem eq_ok_of_isOk {x : Except Err Unit} (h : x.isOk = true) : x = .ok () := by
  rcases x with e | ⟨⟨⟩⟩
  · cases h
  · rfl

theorem mapError_eq_ok {x : Except Err α} {g : Err → Err} {a : α} : x.mapError g = .ok a ↔ x = .ok a := by
  cases x <;> simp [Except.mapError]

theorem bind_eq_error {x : Except Err α} {f : α → Except Err β} {e : Err} :
    (x >>= f) = .error e ↔ x = .error e ∨ ∃ a, x = .ok a ∧ f a = .error e := by
  cases x with
  | error e' => simp [bind, Except.bind]
  | ok a => simp [bind, Except.bind]

theorem mapError_eq_error {ε ε' : Type} {x : Except ε α} {g : ε → ε'} {e : ε'} :
    x.mapError g = .error e ↔ ∃ e', x = .error e' ∧ g e' = e := by
  cases x <;> simp [Except.mapError]

end Steps
end Quickspin
