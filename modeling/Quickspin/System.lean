import Quickspin.Reconciler
import Quickspin.Lib.Table
import Quickspin.Lib.Schedule

/-! The control plane: the request handlers and one reconciler over a runtime backend. The reconciler's
lock is the service's single worker. The fleet is the runtime the contract promises, none of whose
calls fails. -/
namespace Quickspin
open Interaction Relational
set_option autoImplicit false

/-- The requests and the reconciler over a runtime. -/
def controlPlane {ρ : Type} (B : Backend Runtime.signature ρ) :
    Service (calls Runtime.signature) (World ρ) Request Response (Except Err (List ReconcileAction)) :=
  B.service Request.handle (Reconciler.reconcileOnce false)

abbrev ControlLabel := Label (calls Runtime.signature) Request Response (Except Err (List ReconcileAction))

abbrev ControlConfig (ρ : Type) :=
  Config (calls Runtime.signature) (World ρ) Request Response (Except Err (List ReconcileAction))

/-! ## The promised runtime -/

/-- At most one container for an id, and the daemon's clock. -/
structure Fleet where
  containers : Table Runtime.Info String Runtime.Info.id
  clock : Time

namespace Fleet

/-- Take the container of the id away. -/
def remove (f : Fleet) (id : String) : Fleet := { f with containers := f.containers.filter fun c => c.id ≠ id }

/-- Put a container, in place of one with its id. -/
def put (f : Fleet) (info : Runtime.Info) : Fleet := { f with containers := f.containers.put info }

/-- `Create` leaves a running container for the id, `Destroy` removes it. -/
def run : (c : Runtime.Call) → Fleet → c.Answer × Fleet
  | .create id _, f => (.ok ⟨id, .running, f.clock⟩, f.put ⟨id, .running, f.clock⟩)
  | .destroy id, f => (.ok (), f.remove id)
  | .list, f => (.ok f.containers.rows, f)

def empty : Fleet := ⟨.empty, 0⟩

theorem find?_remove (f : Fleet) (id id' : String) :
    (f.remove id).containers.find? id' = if id' = id then none else f.containers.find? id' := by
  unfold remove
  rw [Table.find?_filter]
  rcases h : f.containers.find? id' with _ | c
  · split <;> rfl
  · have hid : c.id = id' := Table.key_of_find? h
    by_cases he : id' = id
    · rw [if_pos he, Option.filter_some_neg (by simpa [hid] using he)]
    · rw [if_neg he, Option.filter_some_pos (by simpa [hid] using he)]

theorem find?_put (f : Fleet) (info : Runtime.Info) (id : String) :
    (f.put info).containers.find? id = if id = info.id then some info else f.containers.find? id :=
  Table.find?_put info id

end Fleet

/-- Nothing recorded, nothing running. -/
def World.empty : World Fleet := ⟨.empty, 0, .empty⟩

/-- The fleet as a backend: its calls do what `run` says, and containers do not move by themselves. -/
def Backend.fleet : Backend Runtime.signature Fleet where
  act c f a f' := (a, f') = Fleet.run c f
  env _ _ := False

/-- The control plane over the fleet in the world where nothing fails and every new id is `exampleID`. -/
def fleetExec : (c : (calls Runtime.signature).Call) → World Fleet → (calls Runtime.signature).Answer c × World Fleet :=
  execute (fun _ => exampleID) Fleet.run

theorem fleetExec_performs (c : (calls Runtime.signature).Call) (w : World Fleet) :
    Backend.fleet.perform c w (fleetExec c w).1 (fleetExec c w).2 :=
  Backend.perform_execute (fun _ => validateSandboxID_exampleID) (fun _ _ => rfl) c w

/-- A fleet with one sandbox running, its lease the default one. -/
def startedWorld : World Fleet :=
  ((Reconciler.reconcileOnce false).run fleetExec ((Request.handle (.create "k" {} 0)).run fleetExec .empty).2).2

end Quickspin
