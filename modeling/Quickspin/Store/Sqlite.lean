import Quickspin.Store.Tables
import Quickspin.Lib.Transaction

/-! The SQLite store (`internal/store/sqlite`). Each call below is atomic for the others: a function
of the database, the instant `CURRENT_TIMESTAMP` reads and the statements that fail.
`Store.CreateSandbox` is several of them and is assembled in `Calls`. -/
namespace Quickspin
open Relational
set_option autoImplicit false

/-- Where a store call can fail. -/
inductive Point
  | read | rows | begin | update | reread | insertSandbox | insertKey | insertEvent | commit
deriving DecidableEq

/-- The statements of one call that fail, with the driver's text, and whether a commit that reports a
failure took effect. -/
structure Faults where
  fails : Point → Option String
  commitTakesEffect : Bool

namespace Faults

def none : Faults := ⟨fun _ => .none, false⟩

def check (f : Faults) (p : Point) : Except Err Unit :=
  match f.fails p with
  | .none => .ok ()
  | some text => .error (.foreign text)

/-- The commit, its error as `report` words it. -/
def commit (f : Faults) (report : Err → Err) : Commit Err :=
  match f.fails .commit with
  | .none => .applied
  | some text => .failed (report (.foreign text)) f.commitTakesEffect

theorem check_error {f : Faults} {p : Point} {e : Err} (h : f.check p = .error e) :
    ∃ text, e = .foreign text := by
  unfold check at h
  split at h
  · cases h
  · next text _ => exact ⟨text, (Except.error.inj h).symm⟩

theorem commit_failed {f : Faults} {report : Err → Err} {e : Err} {applied : Bool}
    (h : f.commit report = .failed e applied) : ∃ text, e = report (.foreign text) := by
  unfold commit at h
  split at h
  · cases h
  · next text _ => exact ⟨text, (Commit.failed.inj h).1.symm⟩

end Faults

namespace Sqlite

/-! ## Scanning -/

def keyOf (r : KeyRow) : IdempotencyKey := ⟨r.id, r.sandboxId, r.idempotencyKey, r.createdAt, r.updatedAt⟩

def scanIdempotencyKey (r : KeyRow) : Except Err IdempotencyKey := .ok (keyOf r)

/-- The columns of a row and the spec read from its document. -/
def sandboxOf (r : SandboxRow) (spec : SpecFile) : Sandbox :=
  ⟨r.id, r.versionId, r.platformId, r.state, spec, r.expiresAt, r.createdAt, r.updatedAt⟩

def scanSandbox (r : SandboxRow) : Except Err Sandbox :=
  match SpecFile.ofJSON r.spec with
  | .error err => .error (E "sqlite.scanSandbox" "database contained invalid spec json" err)
  | .ok spec => .ok (sandboxOf r spec)

def scanEvent (r : EventRow) : Except Err Event :=
  .ok ⟨r.id, r.versionId, r.sandboxId, r.fromState, r.toState, r.happenedAt, r.reason⟩

/-- A statement that fails is reported by the scan of its row. -/
def sandboxRowError (err : Err) : Err := E "sqlite.scanSandbox" "scanning sandbox row" err

def keyRowError (err : Err) : Err := E "sqlite.scanIdempotencyKey" "scanning idempotency key row" err

section Scan
variable {ρ α : Type}

/-- The scan of a statement that answers at most one row. -/
def scanRow (ran : Except Err Unit) (rowError : Err → Err) (scan : ρ → Except Err α) (row : Option ρ) :
    Except Err α :=
  match ran with
  | .error err => .error (rowError err)
  | .ok () =>
    match row with
    | none => .error (.sentinel .storeNotFound)
    | some r => scan r

def scanEach (scan : ρ → Except Err α) : List ρ → Except Err (List α)
  | [] => .ok []
  | r :: rest =>
    match scan r with
    | .error err => .error (wrap "sqlite.scanRows" "" err)
    | .ok v => (scanEach scan rest).map (v :: ·)

/-- A cursor over all rows; the iteration's own error shows after the last row. -/
def scanRows (f : Faults) (scan : ρ → Except Err α) (rows : List ρ) : Except Err (List α) := do
  let items ← scanEach scan rows
  (f.check .rows).mapError (wrap "sqlite.scanRows" "error during rows iteration")
  return items

end Scan

/-! ## Reads -/

def getIdempotencyKey (f : Faults) (idempotencyKey : String) (db : Database) :
    Except Err (Option IdempotencyKey) :=
  match scanRow (f.check .read) keyRowError scanIdempotencyKey (db.key? idempotencyKey) with
  | .ok k => .ok (some k)
  | .error err =>
    if err.is .storeNotFound then .ok none
    else .error (wrap "sqlite.Store.GetIdempotencyKey" s!"reading idempotency key {idempotencyKey}" err)

def getSandbox (f : Faults) (sandboxID : String) (db : Database) : Except Err Sandbox :=
  (scanRow (f.check .read) sandboxRowError scanSandbox (db.sandbox? sandboxID)).mapError
    (wrap "sqlite.Store.GetSandbox" s!"reading sandbox {sandboxID}")

def getSandboxes (f : Faults) (db : Database) : Except Err (List Sandbox) := do
  (f.check .read).mapError (E "sqlite.Store.GetSandboxes" "listing sandboxes")
  (scanRows f scanSandbox db.sandboxes.rows).mapError (wrap "sqlite.Store.GetSandboxes" "listing sandboxes")

def getSandboxEvents (f : Faults) (sandboxID : String) (db : Database) : Except Err (List Event) := do
  let op := "sqlite.Store.GetSandboxEvents"
  let msg := s!"listing events for sandbox {sandboxID}"
  (f.check .read).mapError (E op msg)
  (scanRows f scanEvent (db.eventsOf sandboxID)).mapError (wrap op msg)

/-! ## Writes -/

def insertSandboxRow (f : Faults) (now : Time) (specJSON : Json) (sandboxID : String) (expiresAt : Time)
    (db : Database) : Except Err (Sandbox × Database) := do
  (f.check .insertSandbox).mapError sandboxRowError
  let (row, db) ← (db.insertSandbox .pending specJSON sandboxID expiresAt now).mapError sandboxRowError
  let sbx ← scanSandbox row
  return (sbx, db)

def insertKeyRow (f : Faults) (now : Time) (idempotencyKey sandboxID : String) (db : Database) :
    Except Err (IdempotencyKey × Database) := do
  (f.check .insertKey).mapError keyRowError
  let (row, db) ← (db.insertKey idempotencyKey sandboxID now).mapError keyRowError
  let k ← scanIdempotencyKey row
  return (k, db)

/-- The event goes into the caller's transaction, so the state and the history cannot diverge. -/
def appendEvent (f : Faults) (e : Event) (db : Database) : Except Err Database := do
  let op := "sqlite.Store.appendEvent"
  let msg := s!"appending the {e.fromState.text} -> {e.toState.text} event for sandbox {e.sandboxID}"
  e.validate.mapError (wrap op msg)
  (f.check .insertEvent).mapError (wrap op msg)
  (db.insertEvent e.versionID e.sandboxID e.fromState e.toState e.happenedAt e.reason).mapError (wrap op msg)

/-- A guarded UPDATE; a miss is told apart from an absent row by one more read in the transaction. -/
def guardedUpdate (f : Faults) (op msg sandboxID : String) (guard : SandboxRow → Bool)
    (set : SandboxRow → SandboxRow) (hset : ∀ r, (set r).platformId = r.platformId) (db : Database) :
    Except Err (Sandbox × Database) :=
  let (row, db') := db.updateSandbox sandboxID guard set hset
  match scanRow (f.check .update) sandboxRowError scanSandbox row with
  | .ok sbx => .ok (sbx, db')
  | .error err =>
    if err.is .storeNotFound then
      match scanRow (f.check .reread) sandboxRowError scanSandbox (db'.sandbox? sandboxID) with
      | .error getErr => .error (wrap op msg getErr)
      | .ok _ => .error (E op msg (.sentinel .invalidStateTransition))
    else .error (wrap op msg err)

def createIdempotencyKey (f : Faults) (now : Time) (idempotencyKey sandboxID : String) (db : Database) :
    Except Err IdempotencyKey × Database :=
  let report := wrap "sqlite.Store.CreateIdempotencyKey" s!"recording idempotency key {idempotencyKey}"
  atomically (.ok ()) (fun db => (insertKeyRow f now idempotencyKey sandboxID db).mapError report)
    (f.commit fun err => report (keyRowError err)) db

/-- The `WHERE` of `UpdateSandboxExpiryQuery`. -/
def renewable (r : SandboxRow) : Bool := r.state = .pending || r.state = .running

def updateSandboxExpiry (f : Faults) (now : Time) (sandboxID : String) (expiresAt : Time) (db : Database) :
    Except Err Sandbox × Database :=
  let op := "sqlite.Store.UpdateSandboxExpiry"
  let msg := s!"updating the expiry for sandbox {sandboxID}"
  if expiresAt.isZero then (.error (E op msg (.sentinel .missingExpiry)), db)
  else
    atomically ((f.check .begin).mapError (E op msg))
      (guardedUpdate f op msg sandboxID renewable (.renew expiresAt now)
        (SandboxRow.renew_platformId expiresAt now))
      (f.commit (E op msg)) db

/-- The `WHERE` of `UpdateSandboxStateQuery`: the state and the version the caller read. -/
def observed (fromState : TaskState) (versionID : ℤ) (r : SandboxRow) : Bool :=
  r.state = fromState && r.versionId = versionID

def updateSandboxState (f : Faults) (now : Time) (sandboxID : String) (fromState toState : TaskState)
    (reason : String) (versionID : ℤ) (db : Database) : Except Err Sandbox × Database :=
  let op := "sqlite.Store.UpdateSandboxState"
  let msg := s!"transitioning sandbox {sandboxID} from {fromState.text} to {toState.text}"
  match canTransition fromState toState with
  | .error err => (.error (E op msg err), db)
  | .ok () =>
    atomically ((f.check .begin).mapError (E op msg))
      (fun db => do
        let (sbx, db) ← guardedUpdate f op msg sandboxID (observed fromState versionID) (.moveTo toState now)
          (SandboxRow.moveTo_platformId toState now) db
        let db ← (appendEvent f ⟨0, sbx.versionID, sbx.sandboxID, fromState, toState, sbx.updatedAt, reason⟩
          db).mapError (wrap op msg)
        return (sbx, db))
      (f.commit (E op msg)) db

/-- The transaction of `Store.CreateSandbox`: the row, its key and the first event are one unit. The
first event has no from state. -/
def insertSandbox (f : Faults) (now : Time) (idempotencyKey : String) (specJSON : Json) (sandboxID : String)
    (expiresAt : Time) (db : Database) : Except Err Sandbox × Database :=
  let op := "sqlite.Store.CreateSandbox"
  let msg := s!"creating sandbox for idempotency key {idempotencyKey}"
  atomically ((f.check .begin).mapError (E op msg))
    (fun db => do
      let (sbx, db) ← (insertSandboxRow f now specJSON sandboxID expiresAt db).mapError (wrap op msg)
      let (_, db) ← (insertKeyRow f now idempotencyKey sbx.sandboxID db).mapError (wrap op msg)
      let db ← (appendEvent f ⟨0, sbx.versionID, sbx.sandboxID, .zero, sbx.state, sbx.createdAt,
        "sandbox record created"⟩ db).mapError (wrap op msg)
      return (sbx, db))
    (f.commit (E op msg)) db

end Sqlite

/-! ## The calls -/

/-- One atomic call of the store. -/
inductive StoreCall
  | getIdempotencyKey (idempotencyKey : String)
  | createIdempotencyKey (idempotencyKey sandboxID : String)
  | getSandbox (sandboxID : String)
  | getSandboxes
  | getSandboxEvents (sandboxID : String)
  | insertSandbox (idempotencyKey : String) (specJSON : Json) (sandboxID : String) (expiresAt : Time)
  | updateSandboxExpiry (sandboxID : String) (expiresAt : Time)
  | updateSandboxState (sandboxID : String) (fromState toState : TaskState) (reason : String) (versionID : ℤ)

namespace StoreCall

abbrev Answer : StoreCall → Type
  | .getIdempotencyKey _ => Except Err (Option IdempotencyKey)
  | .createIdempotencyKey _ _ => Except Err IdempotencyKey
  | .getSandbox _ => Except Err Sandbox
  | .getSandboxes => Except Err (List Sandbox)
  | .getSandboxEvents _ => Except Err (List Event)
  | .insertSandbox .. => Except Err Sandbox
  | .updateSandboxExpiry _ _ => Except Err Sandbox
  | .updateSandboxState .. => Except Err Sandbox

def exec (f : Faults) (clock : Time) : (c : StoreCall) → Database → c.Answer × Database
  | .getIdempotencyKey key, db => (Sqlite.getIdempotencyKey f key db, db)
  | .createIdempotencyKey key id, db => Sqlite.createIdempotencyKey f clock.currentTimestamp key id db
  | .getSandbox id, db => (Sqlite.getSandbox f id db, db)
  | .getSandboxes, db => (Sqlite.getSandboxes f db, db)
  | .getSandboxEvents id, db => (Sqlite.getSandboxEvents f id db, db)
  | .insertSandbox key spec id expiresAt, db =>
    Sqlite.insertSandbox f clock.currentTimestamp key spec id expiresAt db
  | .updateSandboxExpiry id expiresAt, db =>
    Sqlite.updateSandboxExpiry f clock.currentTimestamp id expiresAt db
  | .updateSandboxState id fromState toState reason versionID, db =>
    Sqlite.updateSandboxState f clock.currentTimestamp id fromState toState reason versionID db

end StoreCall
end Quickspin
