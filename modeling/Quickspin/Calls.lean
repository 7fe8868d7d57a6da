import Quickspin.Store.Effects
import Quickspin.Ids
import Quickspin.Lib.Service

/-! The calls a thread of the control plane issues and the world they act on: the clock, the id
generator, the store, and a runtime backend that is a parameter. `act` lets any statement fail;
`exec` is the world in which nothing does. -/
namespace Quickspin
open Interaction
set_option autoImplicit false

/-- What a reconcile pass decides to do about one sandbox; `none` is not counted. -/
inductive ReconcileAction
  | none | create | destroy | destroyOrphan | reap | markFailed | markStopped | markRunning
deriving DecidableEq, Repr

def ReconcileAction.text : ReconcileAction → String
  | .none => ""
  | .create => "create"
  | .destroy => "destroy"
  | .destroyOrphan => "destroy_orphan"
  | .reap => "reap"
  | .markFailed => "mark_failed"
  | .markStopped => "mark_stopped"
  | .markRunning => "mark_running"

/-- `decide` is the point where a pass has decided on one sandbox; it changes nothing and lets the
others run in between. -/
inductive Call (D : Signature)
  | now
  | newSandboxID
  | store (c : StoreCall)
  | backend (c : D.Call)
  | decide (sandboxID : String) (action : ReconcileAction)

abbrev Call.Answer {D : Signature} : Call D → Type
  | .now => Time
  | .newSandboxID => String
  | .store c => c.Answer
  | .backend c => D.Answer c
  | .decide _ _ => Unit

abbrev calls (D : Signature) : Signature := ⟨Call D, Call.Answer⟩

section Perform
variable {D : Signature}

def now : Program (calls D) Time := Program.perform (S := calls D) .now

def newSandboxID : Program (calls D) String := Program.perform (S := calls D) .newSandboxID

def store (c : StoreCall) : Program (calls D) c.Answer := Program.perform (S := calls D) (.store c)

def backend (c : D.Call) : Program (calls D) (D.Answer c) := Program.perform (S := calls D) (.backend c)

def decided (sandboxID : String) (action : ReconcileAction) : Program (calls D) Unit :=
  Program.perform (S := calls D) (.decide sandboxID action)

end Perform

/-! ## The world -/

structure World (ρ : Type) where
  db : Database
  clock : Time
  backend : ρ

/-- The runtime side of the world: what its calls may do, and what happens to it unasked. -/
structure Backend (D : Signature) (ρ : Type) where
  act : (c : D.Call) → ρ → D.Answer c → ρ → Prop
  env : ρ → ρ → Prop

variable {D : Signature} {ρ ι β ω : Type}

/-- One call, any of whose statements may fail. A generated id passes the validation; that it is new is
not assumed. -/
def Backend.perform (B : Backend D ρ) : (c : (calls D).Call) → World ρ → (calls D).Answer c → World ρ → Prop
  | .now, w, t, w' => t = w.clock ∧ w' = w
  | .newSandboxID, w, id, w' => validateSandboxID id = .ok () ∧ w' = w
  | .store c, w, a, w' => ∃ (f : Faults) (db : Database), c.exec f w.clock w.db = (a, db) ∧ w' = { w with db }
  | .backend c, w, a, w' => ∃ r, B.act c w.backend a r ∧ w' = { w with backend := r }
  | .decide _ _, w, _, w' => w' = w

/-- The clock goes on, and the runtime side moves by itself. -/
inductive Backend.Drift (B : Backend D ρ) : World ρ → World ρ → Prop
  | tick (w : World ρ) (t : Time) (h : w.clock ≤ t) : Drift B w { w with clock := t }
  | backend (w : World ρ) (r : ρ) (h : B.env w.backend r) : Drift B w { w with backend := r }

/-- A service of the control plane over a backend. -/
def Backend.service (B : Backend D ρ) (handler : ι → Program (calls D) β) (worker : Program (calls D) ω) :
    Service (calls D) (World ρ) ι β ω :=
  ⟨B.perform, B.Drift, handler, worker⟩

/-- The same calls in a world where no statement fails: `newID` supplies the ids and `run` the backend. -/
def execute (newID : World ρ → String) (run : (c : D.Call) → ρ → D.Answer c × ρ) :
    (c : (calls D).Call) → World ρ → (calls D).Answer c × World ρ
  | .now, w => (w.clock, w)
  | .newSandboxID, w => (newID w, w)
  | .store c, w => ((c.exec .none w.clock w.db).1, { w with db := (c.exec .none w.clock w.db).2 })
  | .backend c, w => ((run c w.backend).1, { w with backend := (run c w.backend).2 })
  | .decide _ _, w => ((), w)

theorem Backend.perform_execute {B : Backend D ρ} {newID : World ρ → String}
    {run : (c : D.Call) → ρ → D.Answer c × ρ} (hid : ∀ w, validateSandboxID (newID w) = .ok ())
    (hrun : ∀ c r, B.act c r (run c r).1 (run c r).2) (c : (calls D).Call) (w : World ρ) :
    B.perform c w (execute newID run c w).1 (execute newID run c w).2 := by
  cases c with
  | now => exact ⟨rfl, rfl⟩
  | newSandboxID => exact ⟨hid w, rfl⟩
  | store c => exact ⟨.none, _, rfl, rfl⟩
  | backend c => exact ⟨_, hrun c w.backend, rfl⟩
  | decide _ _ => exact rfl

/-- The tables after a call are what some store call left of them. -/
theorem Backend.perform_db {B : Backend D ρ} {c : (calls D).Call} {w w' : World ρ} {a : (calls D).Answer c}
    (h : B.perform c w a w') : w'.db = w.db ∨ ∃ s, c = .store s ∧ s.Effect w.clock w.db w'.db := by
  cases c with
  | now | newSandboxID => exact .inl (by rw [h.2])
  | store c =>
    obtain ⟨f, db, he, rfl⟩ := h
    exact .inr ⟨c, rfl, StoreCall.effect he⟩
  | backend c =>
    obtain ⟨r, -, rfl⟩ := h
    exact .inl rfl
  | decide _ _ => exact .inl (by rw [show w' = w from h])

theorem Backend.Drift.db_eq {B : Backend D ρ} {w w' : World ρ} (h : B.Drift w w') : w'.db = w.db := by
  cases h <;> rfl

/-- No call moves the clock, and the environment moves it forward. -/
theorem Backend.perform_clock {B : Backend D ρ} {c : (calls D).Call} {w w' : World ρ}
    {a : (calls D).Answer c} (h : B.perform c w a w') : w'.clock = w.clock := by
  cases c with
  | now | newSandboxID => rw [h.2]
  | store c =>
    obtain ⟨f, db, -, rfl⟩ := h
    rfl
  | backend c =>
    obtain ⟨r, -, rfl⟩ := h
    rfl
  | decide _ _ => rw [show w' = w from h]

theorem Backend.Drift.clock_le {B : Backend D ρ} {w w' : World ρ} (h : B.Drift w w') : w.clock ≤ w'.clock := by
  cases h with
  | tick _ h => exact h
  | backend => exact le_rfl

/-- The step is a store call, whichever thread issued it. -/
def Asks (l : Label (calls D) ι β ω) (c : StoreCall) (a : c.Answer) : Prop := l.Issues (.store c) a

theorem Asks.exec {B : Backend D ρ} {handler : ι → Program (calls D) β} {worker : Program (calls D) ω}
    {C C' : Config (calls D) (World ρ) ι β ω} {l : Label (calls D) ι β ω} {c : StoreCall} {a : c.Answer}
    (hl : Asks l c a) (hs : (B.service handler worker).Step C l C') :
    ∃ f db, c.exec f C.shared.clock C.shared.db = (a, db) ∧ C'.shared = { C.shared with db } :=
  hs.issued hl

/-- A step that changes the tables is a store call, and they are what it left. -/
theorem Backend.step_db {B : Backend D ρ} {handler : ι → Program (calls D) β} {worker : Program (calls D) ω}
    {C C' : Config (calls D) (World ρ) ι β ω} {l : Label (calls D) ι β ω} (hs : (B.service handler worker).Step C l C') :
    C'.shared.db = C.shared.db ∨
      ∃ s a, Asks l s a ∧ s.Effect C.shared.clock C.shared.db C'.shared.db := by
  have hcall : ∀ c a, l.Issues c a → C'.shared.db = C.shared.db ∨
      ∃ s a, Asks l s a ∧ s.Effect C.shared.clock C.shared.db C'.shared.db := by
    intro c a hl
    rcases B.perform_db (hs.issued hl) with he | ⟨s, rfl, he⟩
    · exact .inl he
    · exact .inr ⟨s, a, hl, he⟩
  cases hs with
  | request => exact hcall _ _ (.inr ⟨_, _, rfl⟩)
  | work => exact hcall _ _ (.inl rfl)
  | env h => exact .inl (Backend.Drift.db_eq h)
  | arrive | respond | wake | rest | crash => exact .inl rfl

theorem Backend.run_clock_le {B : Backend D ρ} {handler : ι → Program (calls D) β} {worker : Program (calls D) ω}
    {ok : _} {C C' : Config (calls D) (World ρ) ι β ω} {ls : List (Label (calls D) ι β ω)}
    (h : (B.service handler worker).Run ok C ls C') : C.shared.clock ≤ C'.shared.clock :=
  h.shared (R := fun w w' => w.clock ≤ w'.clock) (fun _ => le_rfl) (fun _ _ _ h₁ h₂ => h₁.trans h₂)
    (fun _ _ _ _ ha => (Backend.perform_clock ha).ge) fun _ _ he => Backend.Drift.clock_le he

/-! ## The store by itself -/

/-- A backend nobody calls. -/
def noRuntime : Signature := ⟨Empty, Empty.elim⟩

def Backend.idle : Backend noRuntime Unit := ⟨fun c => c.elim, fun _ _ => False⟩

/-- `Store.CreateSandbox`: the lookup of the key is not part of the inserting transaction. -/
def createSandboxRecord (idempotencyKey : String) (spec : SpecFile) (expiresAt : Time) :
    Program (calls D) (Except Err Sandbox) := do
  let op := "sqlite.Store.CreateSandbox"
  let msg := s!"creating sandbox for idempotency key {idempotencyKey}"
  match spec.validate with
  | .error err => return .error (wrap op msg err)
  | .ok () =>
    if expiresAt.isZero then return .error (E op msg (.sentinel .missingExpiry))
    else
      match ← store (.getIdempotencyKey idempotencyKey) with
      | .error err => return .error (wrap op msg err)
      | .ok (some key) =>
        match ← store (.getSandbox key.sandboxID) with
        | .error err => return .error (wrap op msg err)
        | .ok sbx => return .ok sbx
      | .ok none =>
        match spec.toJSON with
        | .error err => return .error (wrap op msg err)
        | .ok specJSON =>
          let sandboxID ← newSandboxID
          store (.insertSandbox idempotencyKey specJSON sandboxID expiresAt)

/-- The methods of the store: `CreateSandbox`, and those that are one atomic call. -/
inductive StoreRequest
  | createSandbox (idempotencyKey : String) (spec : SpecFile) (expiresAt : Time)
  | direct (c : StoreCall)

def StoreRequest.handle : StoreRequest → Program (calls noRuntime) Unit
  | .createSandbox key spec expiresAt => do
    let _ ← createSandboxRecord key spec expiresAt
  | .direct c => do
    let _ ← store c

/-- Any number of callers of the store, in any interleaving. -/
def storeService : Service (calls noRuntime) (World Unit) StoreRequest Unit Unit :=
  Backend.idle.service StoreRequest.handle (pure ())

/-- The store's callers in the world where no statement fails and every new id is `exampleID`. -/
def storeExec : (c : (calls noRuntime).Call) → World Unit → (calls noRuntime).Answer c × World Unit :=
  execute (fun _ => exampleID) fun c => Empty.elim c

theorem storeExec_performs (c : (calls noRuntime).Call) (w : World Unit) :
    Backend.idle.perform c w (storeExec c w).1 (storeExec c w).2 :=
  Backend.perform_execute (fun _ => validateSandboxID_exampleID) (fun c => Empty.elim c) c w

end Quickspin
