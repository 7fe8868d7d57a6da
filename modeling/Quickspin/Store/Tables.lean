import Quickspin.Events
import Quickspin.Lib.Table

/-! The schema (`migrations/000001_create_store.up.sql`) and the statements the store issues. The
UNIQUE indexes are those of `Table`, the foreign keys are fields of `Database`, so every database
that can be built satisfies the schema. No statement deletes a row, so AUTOINCREMENT counts the
rows. -/
namespace Quickspin
open Relational
set_option autoImplicit false

structure SandboxRow where
  id : ℕ
  versionId : ℤ
  platformId : String
  state : TaskState
  spec : Json
  expiresAt : Time
  createdAt : Time
  updatedAt : Time

structure KeyRow where
  id : ℕ
  sandboxId : String
  idempotencyKey : String
  createdAt : Time
  updatedAt : Time

structure EventRow where
  id : ℕ
  versionId : ℤ
  sandboxId : String
  fromState : TaskState
  toState : TaskState
  happenedAt : Time
  reason : String

structure Database where
  sandboxes : Table SandboxRow String SandboxRow.platformId
  idempotencyKeys : Table KeyRow String KeyRow.idempotencyKey
  events : Table EventRow (String × ℤ) fun e => (e.sandboxId, e.versionId)
  keyReferences : ∀ k ∈ idempotencyKeys.rows, (sandboxes.find? k.sandboxId).isSome
  eventReferences : ∀ e ∈ events.rows, (sandboxes.find? e.sandboxId).isSome

namespace Database

def empty : Database := ⟨.empty, .empty, .empty, by simp, by simp⟩

/-- `GetSandboxQuery` -/
def sandbox? (db : Database) (platformId : String) : Option SandboxRow := db.sandboxes.find? platformId

/-- `GetIdempotencyKeyQuery` -/
def key? (db : Database) (key : String) : Option KeyRow := db.idempotencyKeys.find? key

/-- `GetSandboxEventsQuery`: the rows of one sandbox, ordered by version. -/
def eventsOf (db : Database) (sandboxId : String) : List EventRow :=
  (db.events.rows.filter fun e => e.sandboxId = sandboxId).insertionSort fun a b => a.versionId ≤ b.versionId

def uniqueViolation (index : String) : Err := .foreign s!"UNIQUE constraint failed: {index}"
def foreignKeyViolation : Err := .foreign "FOREIGN KEY constraint failed"

/-- `InsertSandboxQuery` -/
def insertSandbox (state : TaskState) (spec : Json) (platformId : String) (expiresAt now : Time)
    (db : Database) : Except Err (SandboxRow × Database) :=
  let row : SandboxRow := ⟨db.sandboxes.rows.length + 1, 1, platformId, state, spec, expiresAt, now, now⟩
  match h : db.sandboxes.insert row with
  | none => .error (uniqueViolation "sandboxes.platform_id")
  | some sandboxes => .ok (row, { db with
      sandboxes
      keyReferences := fun k hk => by
        rw [Table.find?_of_insert h]
        split
        · rfl
        · exact db.keyReferences k hk
      eventReferences := fun e he => by
        rw [Table.find?_of_insert h]
        split
        · rfl
        · exact db.eventReferences e he })

/-- `InsertIdempotencyKeyQuery` -/
def insertKey (idempotencyKey sandboxId : String) (now : Time) (db : Database) :
    Except Err (KeyRow × Database) :=
  let row : KeyRow := ⟨db.idempotencyKeys.rows.length + 1, sandboxId, idempotencyKey, now, now⟩
  if hs : (db.sandboxes.find? sandboxId).isSome then
    match h : db.idempotencyKeys.insert row with
    | none => .error (uniqueViolation "idempotency_keys.idempotency_key")
    | some idempotencyKeys => .ok (row, { db with
        idempotencyKeys
        keyReferences := fun k hk => by
          rw [Table.rows_of_insert h] at hk
          rcases List.mem_append.mp hk with hk | hk
          · exact db.keyReferences k hk
          · rw [List.mem_singleton.mp hk]
            exact hs })
  else .error foreignKeyViolation

/-- `InsertEventQuery` -/
def insertEvent (versionId : ℤ) (sandboxId : String) (fromState toState : TaskState) (happenedAt : Time)
    (reason : String) (db : Database) : Except Err Database :=
  let row : EventRow := ⟨db.events.rows.length + 1, versionId, sandboxId, fromState, toState, happenedAt, reason⟩
  if hs : (db.sandboxes.find? sandboxId).isSome then
    match h : db.events.insert row with
    | none => .error (uniqueViolation "events.sandbox_id, events.version_id")
    | some events => .ok { db with
        events
        eventReferences := fun e he => by
          rw [Table.rows_of_insert h] at he
          rcases List.mem_append.mp he with he | he
          · exact db.eventReferences e he
          · rw [List.mem_singleton.mp he]
            exact hs }
  else .error foreignKeyViolation

theorem find?_modify_isSome (t : Table SandboxRow String SandboxRow.platformId) (k k' : String)
    (g : SandboxRow → SandboxRow) (hg : ∀ r, (g r).platformId = r.platformId) :
    ((t.modify k g hg).find? k').isSome = (t.find? k').isSome := by
  rw [Table.find?_modify]
  split <;> simp

/-- Write `set` to the row with the id; the caller has matched the row. -/
def writeSandbox (platformId : String) (set : SandboxRow → SandboxRow)
    (hset : ∀ r, (set r).platformId = r.platformId) (db : Database) : Database :=
  { db with
    sandboxes := db.sandboxes.modify platformId set hset
    keyReferences := fun k hk => by
      rw [find?_modify_isSome]
      exact db.keyReferences k hk
    eventReferences := fun e he => by
      rw [find?_modify_isSome]
      exact db.eventReferences e he }

/-- `UPDATE sandboxes SET .. WHERE platform_id = ? AND guard RETURNING ..` -/
def updateSandbox (platformId : String) (guard : SandboxRow → Bool) (set : SandboxRow → SandboxRow)
    (hset : ∀ r, (set r).platformId = r.platformId) (db : Database) : Option SandboxRow × Database :=
  match db.sandbox? platformId with
  | none => (none, db)
  | some row => if guard row then (some (set row), db.writeSandbox platformId set hset) else (none, db)

end Database

/-- The SET clause of `UpdateSandboxStateQuery`. -/
def SandboxRow.moveTo (toState : TaskState) (now : Time) (r : SandboxRow) : SandboxRow :=
  { r with state := toState, updatedAt := now, versionId := r.versionId + 1 }

/-- The SET clause of `UpdateSandboxExpiryQuery`. -/
def SandboxRow.renew (expiresAt now : Time) (r : SandboxRow) : SandboxRow :=
  { r with expiresAt := expiresAt, updatedAt := now }

theorem SandboxRow.moveTo_platformId (toState : TaskState) (now : Time) (r : SandboxRow) :
    (r.moveTo toState now).platformId = r.platformId := rfl

theorem SandboxRow.renew_platformId (expiresAt now : Time) (r : SandboxRow) :
    (r.renew expiresAt now).platformId = r.platformId := rfl

/-! ## What a statement does to the tables -/

namespace Database
variable {db db' : Database}

@[simp] theorem writeSandbox_keys (id : String) (set : SandboxRow → SandboxRow)
    (hset : ∀ r, (set r).platformId = r.platformId) :
    (db.writeSandbox id set hset).idempotencyKeys = db.idempotencyKeys := rfl

@[simp] theorem writeSandbox_events (id : String) (set : SandboxRow → SandboxRow)
    (hset : ∀ r, (set r).platformId = r.platformId) :
    (db.writeSandbox id set hset).events = db.events := rfl

theorem writeSandbox_sandbox? (id : String) (set : SandboxRow → SandboxRow)
    (hset : ∀ r, (set r).platformId = r.platformId) (id' : String) :
    (db.writeSandbox id set hset).sandbox? id' =
      if id' = id then (db.sandbox? id').map set else db.sandbox? id' :=
  Table.find?_modify set hset id'

theorem updateSandbox_some {id : String} {guard : SandboxRow → Bool} {set : SandboxRow → SandboxRow}
    {hset : ∀ r, (set r).platformId = r.platformId} {r : SandboxRow}
    (h : db.updateSandbox id guard set hset = (some r, db')) :
    ∃ row, db.sandbox? id = some row ∧ guard row = true ∧ r = set row ∧
      db' = db.writeSandbox id set hset := by
  unfold updateSandbox at h
  rcases hs : db.sandbox? id with _ | row <;> rw [hs] at h <;> dsimp only at h
  · cases h
  split at h
  · next hg =>
    obtain ⟨hr, rfl⟩ := Prod.mk.inj h
    exact ⟨row, rfl, hg, (Option.some.inj hr).symm, rfl⟩
  · cases h

theorem updateSandbox_none {id : String} {guard : SandboxRow → Bool} {set : SandboxRow → SandboxRow}
    {hset : ∀ r, (set r).platformId = r.platformId} (h : db.updateSandbox id guard set hset = (none, db')) :
    db' = db ∧ ∀ row, db.sandbox? id = some row → guard row = false := by
  unfold updateSandbox at h
  rcases hs : db.sandbox? id with _ | row <;> rw [hs] at h <;> dsimp only at h
  · exact ⟨(Prod.mk.inj h).2.symm, by simp⟩
  split at h
  · cases h
  · next hg =>
    refine ⟨(Prod.mk.inj h).2.symm, fun row' e => ?_⟩
    obtain rfl := Option.some.inj e
    simpa using hg

theorem insertSandbox_ok {state : TaskState} {spec : Json} {id : String} {expiresAt now : Time}
    {row : SandboxRow} (h : db.insertSandbox state spec id expiresAt now = .ok (row, db')) :
    row = ⟨db.sandboxes.rows.length + 1, 1, id, state, spec, expiresAt, now, now⟩ ∧
      db.sandbox? id = none ∧ db'.sandboxes.rows = db.sandboxes.rows ++ [row] ∧
      (∀ id', db'.sandbox? id' = if id = id' then some row else db.sandbox? id') ∧
      db'.idempotencyKeys = db.idempotencyKeys ∧ db'.events = db.events := by
  unfold insertSandbox at h
  dsimp only at h
  split at h
  · cases h
  · next sandboxes hi =>
    obtain ⟨rfl, rfl⟩ := Prod.mk.inj (Except.ok.inj h)
    exact ⟨rfl, Table.fresh_of_insert hi, Table.rows_of_insert hi, Table.find?_of_insert hi, rfl, rfl⟩

theorem insertKey_ok {key id : String} {now : Time} {row : KeyRow}
    (h : db.insertKey key id now = .ok (row, db')) :
    row = ⟨db.idempotencyKeys.rows.length + 1, id, key, now, now⟩ ∧ (db.sandbox? id).isSome ∧
      db.key? key = none ∧ db'.idempotencyKeys.rows = db.idempotencyKeys.rows ++ [row] ∧
      (∀ k, db'.key? k = if key = k then some row else db.key? k) ∧
      db'.sandboxes = db.sandboxes ∧ db'.events = db.events := by
  unfold insertKey at h
  dsimp only at h
  split at h
  · next hs =>
    split at h
    · cases h
    · next keys hi =>
      obtain ⟨rfl, rfl⟩ := Prod.mk.inj (Except.ok.inj h)
      exact ⟨rfl, hs, Table.fresh_of_insert hi, Table.rows_of_insert hi, Table.find?_of_insert hi, rfl, rfl⟩
  · cases h

theorem insertEvent_ok {versionId : ℤ} {id : String} {fromState toState : TaskState} {happenedAt : Time}
    {reason : String} (h : db.insertEvent versionId id fromState toState happenedAt reason = .ok db') :
    db'.sandboxes = db.sandboxes ∧ db'.idempotencyKeys = db.idempotencyKeys ∧
      db'.events.rows = db.events.rows ++
        [⟨db.events.rows.length + 1, versionId, id, fromState, toState, happenedAt, reason⟩] := by
  unfold insertEvent at h
  dsimp only at h
  split at h
  · split at h
    · cases h
    · next events hi =>
      obtain rfl := Except.ok.inj h
      exact ⟨rfl, rfl, Table.rows_of_insert hi⟩
  · cases h

theorem insertEvent_error {versionId : ℤ} {id : String} {fromState toState : TaskState} {happenedAt : Time}
    {reason : String} {e : Err} (h : db.insertEvent versionId id fromState toState happenedAt reason = .error e) :
    ∃ text, e = .foreign text := by
  unfold insertEvent at h
  dsimp only at h
  split at h
  · split at h
    · cases h
      exact ⟨_, rfl⟩
    · cases h
  · cases h
    exact ⟨_, rfl⟩

/-! ## Statements no constraint stops -/

theorem updateSandbox_hit {id : String} {guard : SandboxRow → Bool} {set : SandboxRow → SandboxRow}
    {hset : ∀ r, (set r).platformId = r.platformId} {row : SandboxRow} (h : db.sandbox? id = some row)
    (hg : guard row = true) : db.updateSandbox id guard set hset = (some (set row), db.writeSandbox id set hset) := by
  simp [updateSandbox, h, hg]

theorem insertSandbox_fresh (state : TaskState) (spec : Json) {id : String} (expiresAt now : Time)
    (h : db.sandbox? id = none) : ∃ row db', db.insertSandbox state spec id expiresAt now = .ok (row, db') := by
  unfold insertSandbox
  dsimp only
  split
  · next hn =>
    rw [Table.insert_eq_none_iff] at hn
    rw [sandbox?] at h
    simp [h] at hn
  · exact ⟨_, _, rfl⟩

theorem insertKey_fresh {key id : String} (now : Time) (hs : (db.sandbox? id).isSome)
    (h : db.key? key = none) : ∃ row db', db.insertKey key id now = .ok (row, db') := by
  unfold insertKey
  dsimp only
  rw [sandbox?] at hs
  rw [dif_pos hs]
  split
  · next hn =>
    rw [Table.insert_eq_none_iff] at hn
    rw [key?] at h
    simp [h] at hn
  · exact ⟨_, _, rfl⟩

theorem insertEvent_fresh {versionId : ℤ} {id : String} (fromState toState : TaskState) (happenedAt : Time)
    (reason : String) (hs : (db.sandbox? id).isSome)
    (h : ∀ e ∈ db.events.rows, e.sandboxId = id → e.versionId ≠ versionId) :
    ∃ db', db.insertEvent versionId id fromState toState happenedAt reason = .ok db' := by
  unfold insertEvent
  dsimp only
  rw [sandbox?] at hs
  rw [dif_pos hs]
  split
  · next hn =>
    rw [Table.insert_eq_none_iff, Table.find?_isSome_iff] at hn
    obtain ⟨e, he, hk⟩ := List.mem_map.mp hn
    obtain ⟨hid, hv⟩ := Prod.mk.inj hk
    exact absurd hv (h e he hid)
  · exact ⟨_, rfl⟩

end Database
end Quickspin
