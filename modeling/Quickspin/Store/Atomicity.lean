import Quickspin.Calls
import Quickspin.Lib.Alone

/-! The writing methods of the store are all or nothing. A failed commit is taken as not applied; any
statement, scan or commit may fail, and so may the validations and the constraints. -/
namespace Quickspin
open Interaction Relational
set_option autoImplicit false

/-- A commit of these statements that fails is not applied. -/
def Faults.RollsBack (f : Faults) : Prop := f.commitTakesEffect = false

theorem Faults.RollsBack.commit {f : Faults} (h : f.RollsBack) (report : Err → Err) (e : Err) :
    f.commit report ≠ .failed e true := by
  unfold Faults.commit
  split
  · simp
  · rw [h]
    simp

/-! ## One call -/

namespace Sqlite
variable {f : Faults} {now : Time} {id : String} {db db' : Database} {e : Err}

theorem updateSandboxState_error {a b : TaskState} {reason : String} {v : ℤ} (hf : f.RollsBack)
    (h : updateSandboxState f now id a b reason v db = (.error e, db')) : db' = db := by
  unfold updateSandboxState at h
  dsimp only at h
  split at h
  · exact (Prod.mk.inj h).2.symm
  · exact rolled_back h (hf.commit _)

theorem updateSandboxExpiry_error {expiresAt : Time} (hf : f.RollsBack)
    (h : updateSandboxExpiry f now id expiresAt db = (.error e, db')) : db' = db := by
  unfold updateSandboxExpiry at h
  dsimp only at h
  split at h
  · exact (Prod.mk.inj h).2.symm
  · exact rolled_back h (hf.commit _)

theorem insertSandbox_error {key : String} {spec : Json} {expiresAt : Time} (hf : f.RollsBack)
    (h : insertSandbox f now key spec id expiresAt db = (.error e, db')) : db' = db := by
  unfold insertSandbox at h
  exact rolled_back h (hf.commit _)

end Sqlite

/-! ## The methods -/

/-- The writing methods. -/
inductive WriteMethod
  | createSandbox (idempotencyKey : String) (spec : SpecFile) (expiresAt : Time)
  | updateSandboxState (sandboxID : String) (fromState toState : TaskState) (reason : String) (versionID : ℤ)
  | updateSandboxExpiry (sandboxID : String) (expiresAt : Time)

def WriteMethod.handle : WriteMethod → Program (calls noRuntime) (Except Err Sandbox)
  | .createSandbox key spec expiresAt => createSandboxRecord key spec expiresAt
  | .updateSandboxState id a b reason v => store (.updateSandboxState id a b reason v)
  | .updateSandboxExpiry id expiresAt => store (.updateSandboxExpiry id expiresAt)

/-- One call of a method, any of whose statements may fail. -/
def rollingBack : (c : (calls noRuntime).Call) → World Unit → (calls noRuntime).Answer c → World Unit → Prop
  | .store c, w, a, w' => ∃ (f : Faults) (db : Database), f.RollsBack ∧ c.exec f w.clock w.db = (a, db) ∧ w' = { w with db }
  | c, w, a, w' => Backend.idle.perform c w a w'

/-- Nothing but the sandbox `id` has changed, and its history has grown by `n` events. -/
structure Gains (id : String) (n : ℕ) (db db' : Database) : Prop where
  others : ∀ id', id' ≠ id → db'.sandbox? id' = db.sandbox? id'
  events : ∃ new, db'.events.rows = db.events.rows ++ new ∧ new.length = n ∧ ∀ e ∈ new, e.sandboxId = id

theorem Transitioned.gains {now : Time} {id : String} {row : SandboxRow} {b : TaskState} {reason : String}
    {db db' : Database} (h : Transitioned now id row b reason db db') : Gains id 1 db db' := by
  obtain ⟨n, hev⟩ := h.events
  refine ⟨fun id' hne => ?_, _, hev, rfl, by simp⟩
  rw [h.sandbox, if_neg hne]

theorem Renewed.gains {now : Time} {id : String} {row : SandboxRow} {expiresAt : Time} {db db' : Database}
    (h : Renewed now id row expiresAt db db') : Gains id 0 db db' := by
  refine ⟨fun id' hne => ?_, [], by rw [h.events, List.append_nil], rfl, by simp⟩
  rw [h.sandbox, if_neg hne]

theorem Created.gains {now : Time} {key : String} {spec : Json} {id : String} {expiresAt : Time} {db db' : Database}
    (h : Created now key spec id expiresAt db db') : Gains id 1 db db' := by
  obtain ⟨n, hev⟩ := h.events
  obtain ⟨m, hfind⟩ := h.sandbox
  refine ⟨fun id' hne => ?_, _, hev, rfl, by simp⟩
  rw [hfind, if_neg hne]

/-- What a method that succeeds leaves. -/
def WriteMethod.Leaves (db db' : Database) (sbx : Sandbox) : WriteMethod → Prop
  | .createSandbox key _ _ =>
    (db.key? key = none ∧ db.sandbox? sbx.sandboxID = none ∧ Gains sbx.sandboxID 1 db db' ∧
      (∃ n t, db'.idempotencyKeys.rows = db.idempotencyKeys.rows ++ [⟨n, sbx.sandboxID, key, t, t⟩])) ∨
    (∃ k, db.key? key = some k ∧ k.sandboxId = sbx.sandboxID) ∧ db' = db
  | .updateSandboxState id _ _ _ _ => Gains id 1 db db' ∧ db'.idempotencyKeys = db.idempotencyKeys
  | .updateSandboxExpiry id _ => Gains id 0 db db' ∧ db'.idempotencyKeys = db.idempotencyKeys

section Claim
variable {w w' : World Unit} {log : List (Exchange (calls noRuntime))} {r : Except Err Sandbox}

/-- What the call leaves when it is answered so. -/
def WriteMethod.AllOrNothing (db db' : Database) (r : Except Err Sandbox) (m : WriteMethod) : Prop :=
  (∀ e, r = .error e → db' = db) ∧ ∀ sbx, r = .ok sbx → m.Leaves db db' sbx

theorem WriteMethod.refused {m : WriteMethod} {db : Database} (e : Err) : m.AllOrNothing db db (.error e) :=
  ⟨fun _ _ => rfl, fun _ hr => nomatch hr⟩

theorem insertSandbox_atomic {f : Faults} {now : Time} {key : String} {spec : SpecFile} {json : Json} {id : String}
    {expiresAt : Time} {db db' : Database} (hf : f.RollsBack)
    (h : Sqlite.insertSandbox f now key json id expiresAt db = (r, db')) :
    (WriteMethod.createSandbox key spec expiresAt).AllOrNothing db db' r := by
  refine ⟨fun e he => ?_, fun sbx hsbx => ?_⟩
  · subst he
    exact Sqlite.insertSandbox_error hf h
  · subst hsbx
    rcases Sqlite.insertSandbox_cases h with ⟨row, sbx', hc, hrow, hscan, hr⟩ | ⟨-, e, hr⟩
    · have hsame : sbx = sbx' := by
        rcases hr with hr | ⟨e, hr⟩
        · exact Except.ok.inj hr
        · cases hr
      have hid : sbx.sandboxID = id := by
        rw [hsame, Sqlite.scanSandbox_id hscan]
        exact Table.key_of_find? hrow
      obtain ⟨n, hkeys⟩ := hc.keys
      rw [← hid] at hc hkeys
      exact .inl ⟨hc.unkeyed, hc.fresh, hc.gains, n, _, hkeys⟩
    · cases hr

/-- **The creation**: an error leaves the tables as they were; a success has added a sandbox under a key that was free,
or has found the key and changed nothing. -/
theorem createSandbox_atomic {key : String} {spec : SpecFile} {expiresAt : Time}
    (h : (createSandboxRecord key spec expiresAt).Completes rollingBack Eq w log r w') :
    (WriteMethod.createSandbox key spec expiresAt).AllOrNothing w.db w'.db r := by
  unfold createSandboxRecord at h
  cases hz : expiresAt.isZero with
  | true =>
    rw [hz] at h
    obtain ⟨-, rfl, rfl⟩ := h
    exact WriteMethod.refused _
  | false =>
    rw [hz] at h
    obtain ⟨_, a, w₁, rest, rfl, ⟨f, db, -, he, rfl⟩, -, h⟩ := h
    obtain ⟨hread, rfl⟩ := Prod.mk.inj he
    cases a with
    | error err =>
      obtain ⟨-, rfl, rfl⟩ := h
      exact WriteMethod.refused _
    | ok k =>
      cases k with
      | some k =>
        obtain ⟨krow, hkrow, hk⟩ := Option.map_eq_some_iff.mp (Sqlite.getIdempotencyKey_ok hread).symm
        obtain ⟨_, a, w₂, rest, rfl, ⟨f', db, -, he, rfl⟩, -, h⟩ := h
        obtain ⟨hread', rfl⟩ := Prod.mk.inj he
        cases a with
        | error err =>
          obtain ⟨-, rfl, rfl⟩ := h
          exact WriteMethod.refused _
        | ok sbx =>
          obtain ⟨-, rfl, rfl⟩ := h
          refine ⟨fun e he => (nomatch he), fun sbx' hsbx => .inr ⟨⟨krow, hkrow, ?_⟩, rfl⟩⟩
          obtain rfl := Except.ok.inj hsbx
          obtain ⟨row, hrow, hscan⟩ := Sqlite.getSandbox_ok hread'
          rw [Sqlite.scanSandbox_id hscan, Table.key_of_find? hrow, ← hk]
          rfl
      | none =>
        cases hj : spec.toJSON with
        | error err =>
          dsimp only at h
          rw [hj] at h
          obtain ⟨-, rfl, rfl⟩ := h
          exact WriteMethod.refused _
        | ok json =>
          dsimp only at h
          rw [hj] at h
          obtain ⟨_, id, w₂, rest, rfl, ⟨-, rfl⟩, -, h⟩ := h
          obtain ⟨_, a, w₃, rest, rfl, ⟨f', db, hf, he, rfl⟩, -, h⟩ := h
          obtain ⟨-, rfl, rfl⟩ := h
          exact insertSandbox_atomic hf he

/-- **Store writes are all or nothing**, from every state, for all arguments, whichever steps fail. -/
theorem store_all_or_nothing (m : WriteMethod) (h : m.handle.Completes rollingBack Eq w log r w') :
    (∀ e, r = .error e → w'.db = w.db) ∧ ∀ sbx, r = .ok sbx → m.Leaves w.db w'.db sbx := by
  cases m with
  | createSandbox key spec expiresAt => exact createSandbox_atomic h
  | updateSandboxState id a b reason v =>
    obtain ⟨_, r', w₁, rest, rfl, ⟨f, db, hf, he, rfl⟩, -, h⟩ := h
    obtain ⟨-, rfl, rfl⟩ := h
    refine ⟨fun e hr => ?_, fun sbx hr => ?_⟩
    · subst hr
      exact Sqlite.updateSandboxState_error hf he
    · subst hr
      rcases Sqlite.updateSandboxState_cases he with ⟨row, sbx', ht, -⟩ | ⟨-, e, hr, -⟩
      · exact ⟨ht.gains, ht.keys⟩
      · cases hr
  | updateSandboxExpiry id expiresAt =>
    obtain ⟨_, r', w₁, rest, rfl, ⟨f, db, hf, he, rfl⟩, -, h⟩ := h
    obtain ⟨-, rfl, rfl⟩ := h
    refine ⟨fun e hr => ?_, fun sbx hr => ?_⟩
    · subst hr
      exact Sqlite.updateSandboxExpiry_error hf he
    · subst hr
      rcases Sqlite.updateSandboxExpiry_cases he with ⟨row, sbx', ht, -⟩ | ⟨-, e, hr⟩
      · exact ⟨ht.gains, ht.keys⟩
      · cases hr

end Claim

theorem storeExec_rollingBack (c : (calls noRuntime).Call) (w : World Unit) :
    rollingBack c w (storeExec c w).1 (storeExec c w).2 := by
  cases c with
  | store c => exact ⟨.none, _, rfl, rfl, rfl⟩
  | now => exact storeExec_performs .now w
  | newSandboxID => exact storeExec_performs .newSandboxID w
  | backend c => exact c.elim
  | decide id action => exact storeExec_performs (.decide id action) w

/-- The theorem at a creation in the empty store. -/
theorem store_all_or_nothing_created : ∃ log w' sbx,
    (WriteMethod.createSandbox "k" {} 1).handle.Completes rollingBack Eq ⟨.empty, 0, ()⟩ log (.ok sbx) w' ∧
      (WriteMethod.createSandbox "k" {} 1).Leaves .empty w'.db sbx := by
  obtain ⟨log, h, -⟩ := Program.completes_run (fun _ => rfl) storeExec_rollingBack
    (WriteMethod.createSandbox "k" {} 1).handle ⟨.empty, 0, ()⟩
  obtain ⟨sbx, hr⟩ := exists_ok_of_isOk (x := ((WriteMethod.createSandbox "k" {} 1).handle.run storeExec ⟨.empty, 0, ()⟩).1)
    (by decide +kernel)
  rw [hr] at h
  exact ⟨log, _, sbx, h, (store_all_or_nothing _ h).2 sbx rfl⟩

end Quickspin
