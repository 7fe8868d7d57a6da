import Mathlib.Algebra.GroupWithZero.Nat
import Mathlib.Algebra.Order.BigOperators.Group.List
import Quickspin.System

/-! The Docker runtime (`internal/runtime/docker`), as far as the reconciler uses it: the labels by which it
finds its containers, the translation of the daemon's vocabulary, and the methods as programs over the
daemon's calls. -/
namespace Quickspin
open Interaction Relational
set_option autoImplicit false

namespace Docker

/-! ## The daemon's calls -/

/-- A failure the daemon reports, and whether `errdefs.IsNotFound` holds of it. -/
structure DaemonError where
  text : String
  notFound : Bool

def DaemonError.err (e : DaemonError) : Err := .foreign e.text

/-- `container.Summary`; `created` is in Unix seconds. -/
structure Summary where
  id : String
  labels : StringMap
  state : String
  created : ℤ

structure Config where
  image : String
  entrypoint : List String
  env : List String
  labels : StringMap

structure HostConfig where
  restartPolicy : String
  publishAllPorts : Bool
  networkMode : String
  runtime : String
  memory : Int64
  nanoCPUs : Int64
  pidsLimit : Option Int64

/-- A listing is of all statuses, filtered by labels; a removal is forced. -/
inductive Call
  | containerList (label : List (String × String))
  | imagePull (image : String)
  | pullWait (image : String)
  | containerCreate (config : Config) (hostConfig : HostConfig)
  | containerStart (containerID : String)
  | containerRemove (containerID : String)

abbrev Call.Answer : Call → Type
  | .containerList _ => Except DaemonError (List Summary)
  | .imagePull _ => Except DaemonError Unit
  | .pullWait _ => Except DaemonError Unit
  | .containerCreate _ _ => Except DaemonError String
  | .containerStart _ => Except DaemonError Unit
  | .containerRemove _ => Except DaemonError Unit

abbrev signature : Signature := ⟨Call, Call.Answer⟩

/-! ## Labels -/

def labelSandboxID : String := "quickspin.id"
def labelManaged : String := "quickspin.managed"
def labelManagedValue : String := "true"

def managedLabels (id : String) : StringMap :=
  .ofList [(labelSandboxID, id), (labelManaged, labelManagedValue)]

def isManaged (m : StringMap) : Bool := m.get labelManaged = labelManagedValue

def managedMarkerLabels : StringMap := .ofList [(labelManaged, labelManagedValue)]

def sandboxIDFromLabels (labels : StringMap) : Except Err String :=
  let id := labels.get labelSandboxID
  match validateSandboxID id with
  | .error err => .error err
  | .ok () => .ok id

/-- The id of a container of ours; one whose id label is unreadable cannot be named. -/
def managedSandboxID (labels : StringMap) : Option String :=
  if isManaged labels then
    match sandboxIDFromLabels labels with
    | .error _ => none
    | .ok id => some id
  else none

/-- One `label` term for each label, its key and value kept apart. -/
def labelFilter (labels : StringMap) : List (String × String) := labels.entries

theorem validateSandboxID_error {id : String} {e : Err} (h : validateSandboxID id = .error e) :
    e = .sentinel .invalidSandboxID := by
  unfold validateSandboxID at h
  dsimp only at h
  split at h
  · split at h
    · exact (Except.error.inj h).symm
    · split at h
      · exact (Except.error.inj h).symm
      · cases h
  · exact (Except.error.inj h).symm

theorem managedLabels_entries (id : String) :
    (managedLabels id).entries = [(labelSandboxID, id), (labelManaged, labelManagedValue)] := by
  have hlt : ¬labelManaged < labelSandboxID := by decide
  have hne : ¬labelManaged = labelSandboxID := by decide
  simp [managedLabels, StringMap.ofList, StringMap.insert, StringMap.put, StringMap.empty, hlt, hne]

theorem managedSandboxID_eq_some_iff {m : StringMap} {id : String} : managedSandboxID m = some id ↔
    isManaged m = true ∧ m.get labelSandboxID = id ∧ validateSandboxID id = .ok () := by
  unfold managedSandboxID sandboxIDFromLabels
  dsimp only
  rcases isManaged m with _ | _
  · simp
  · rcases hv : validateSandboxID (m.get labelSandboxID) with e | ⟨⟨⟩⟩
    · simp only [if_true, true_and, false_iff, not_and, reduceCtorEq]
      rintro rfl
      simp [hv]
    · simp only [if_true, true_and, Option.some.injEq]
      exact ⟨fun h => ⟨h, h ▸ hv⟩, fun h => h.1⟩

theorem managedSandboxID_managedLabels {id : String} (h : validateSandboxID id = .ok ()) :
    managedSandboxID (managedLabels id) = some id := by
  have hne : ¬labelSandboxID = labelManaged := by decide
  rw [managedSandboxID_eq_some_iff]
  refine ⟨?_, ?_, h⟩
  · simp [isManaged, StringMap.get, managedLabels_entries, hne]
  · simp [StringMap.get, managedLabels_entries]

/-! ## Translation -/

def startedStates : List String := ["running", "restarting"]

/-- An unrecognized status counts as stopped. -/
def stateFromContainerState (s : String) : Runtime.State := if startedStates.contains s then .running else .stopped

/-- The Unix epoch, counted from the zero time. -/
def unixEpoch : ℤ := 62135596800

/-- Zero means that the field was absent. -/
def createdAtFromUnix (sec : ℤ) : Time := if sec = 0 then 0 else ((unixEpoch + sec) * 1000000000).toNat

/-- The variables in the order of their names. -/
def envToArgs (env : Option StringMap) : List String :=
  match env with
  | none => []
  | some m => m.entries.map fun e => e.1 ++ "=" ++ e.2

/-- What the process knows of its host: the OCI runtime it asks for, and the machine's `int64(cores * 1e9)`. -/
structure Host where
  containerRuntime : String
  nanoCPUs : Float64 → Int64

/-- The one place a spec becomes the daemon's vocabulary. -/
def newContainerConfigs (host : Host) (spec : Runtime.Spec) (sandboxID : String) : Except Err (Config × HostConfig) :=
  match spec.validate with
  | .error err => .error (wrap "docker.newContainerConfigs" "" err)
  | .ok () => .ok (
      { image := spec.image
        entrypoint := ["sleep", "infinity"]
        env := envToArgs spec.env
        labels := managedLabels sandboxID },
      { restartPolicy := "always"
        publishAllPorts := true
        networkMode := if spec.allowNetwork then "bridge" else "none"
        runtime := host.containerRuntime
        memory := spec.memoryLimit
        nanoCPUs := host.nanoCPUs spec.cpuLimit
        pidsLimit := some spec.pidsLimit })

theorem newContainerConfigs_labels {host : Host} {spec : Runtime.Spec} {id : String} {config : Config}
    {hostConfig : HostConfig} (h : newContainerConfigs host spec id = .ok (config, hostConfig)) :
    config.labels = managedLabels id := by
  unfold newContainerConfigs at h
  split at h
  · cases h
  · cases h
    rfl

/-- The daemon's own text goes into the message when its error is replaced by a sentinel. -/
def classifyNotFound (op message : String) (sentinel : Sentinel) (e : DaemonError) : Err :=
  if e.notFound then E op s!"{message}: {e.text}" (.sentinel sentinel) else E op message e.err

/-! ## The methods -/

def pullImage (image : String) : Program (calls signature) (Except Err Unit) := do
  let op := "docker.Runtime.pullImage"
  match ← backend (D := signature) (.imagePull image) with
  | .error err => return .error (classifyNotFound op s!"requesting pull of {image}" .imageMissing err)
  | .ok () =>
    match ← backend (D := signature) (.pullWait image) with
    | .error err => return .error (classifyNotFound op s!"pulling {image}" .imageMissing err)
    | .ok () => return .ok ()

/-- A container that is already absent is removed. -/
def removeContainer (containerID : String) : Program (calls signature) (Except Err Unit) := do
  match ← backend (D := signature) (.containerRemove containerID) with
  | .error err =>
    if err.notFound then return .ok ()
    else return .error (E "docker.Runtime.removeContainer" s!"removing container {containerID}" err.err)
  | .ok () => return .ok ()

/-- Remove what a failed operation made; the answer is what the operation reports. -/
def cleanupFailed (op sandboxID containerID : String) (cause : Err) : Program (calls signature) Err := do
  match ← removeContainer containerID with
  | .error err => return wrap op s!"sandbox {sandboxID} leaked container {containerID}" (joinErr cause err)
  | .ok () => return cause

/-- The information of a container of ours that can be named. -/
def infoOf (c : Summary) : Option Runtime.Info :=
  (managedSandboxID c.labels).map fun id => ⟨id, stateFromContainerState c.state, createdAtFromUnix c.created⟩

def list : Program (calls signature) (Except Err (List Runtime.Info)) := do
  match ← backend (D := signature) (.containerList (labelFilter managedMarkerLabels)) with
  | .error err => return .error (E "docker.Runtime.List" "listing managed containers" err.err)
  | .ok items => return .ok (items.filterMap infoOf)

def create (host : Host) (sandboxID : String) (spec : Runtime.Spec) :
    Program (calls signature) (Except Err Runtime.Info) := do
  let op := "docker.Runtime.Create"
  match validateSandboxID sandboxID with
  | .error err => return .error (E op s!"creating sandbox {sandboxID.quote}" err)
  | .ok () =>
    match newContainerConfigs host spec sandboxID with
    | .error err => return .error (wrap op "" err)
    | .ok (config, hostConfig) =>
      match ← pullImage spec.image with
      | .error err => return .error (wrap op "" err)
      | .ok () =>
        match ← backend (D := signature) (.containerCreate config hostConfig) with
        | .error err =>
          return .error (classifyNotFound op s!"creating container from image {spec.image}" .imageMissing err)
        | .ok containerID =>
          match ← backend (D := signature) (.containerStart containerID) with
          | .error err =>
            let cause ← cleanupFailed op sandboxID containerID
              (E op s!"starting container {containerID} for sandbox {sandboxID}" err.err)
            return .error cause
          | .ok () =>
            let t ← now
            return .ok ⟨sandboxID, .running, t⟩

def getContainerBysandboxID (sandboxID : String) : Program (calls signature) (Except Err Summary) := do
  let op := "docker.Runtime.getContainerBysandboxID"
  match validateSandboxID sandboxID with
  | .error err => return .error (E op s!"resolving sandbox {sandboxID.quote}" err)
  | .ok () =>
    match ← backend (D := signature) (.containerList (labelFilter (managedLabels sandboxID))) with
    | .error err => return .error (E op s!"listing containers for sandbox {sandboxID}" err.err)
    | .ok items =>
      match items.find? fun c => managedSandboxID c.labels = some sandboxID with
      | some c => return .ok c
      | none =>
        return .error (E op s!"no container labelled {labelSandboxID}={sandboxID}" (.sentinel .runtimeNotFound))

/-- An absent sandbox is destroyed. -/
def destroy (sandboxID : String) : Program (calls signature) (Except Err Unit) := do
  let op := "docker.Runtime.Destroy"
  match ← getContainerBysandboxID sandboxID with
  | .error err => if err.is .runtimeNotFound then return .ok () else return .error (wrap op "" err)
  | .ok c =>
    match ← removeContainer c.id with
    | .error err => return .error (wrap op s!"destroying sandbox {sandboxID}" err)
    | .ok () => return .ok ()

/-- The list summary carries the state. -/
def inspect (sandboxID : String) : Program (calls signature) (Except Err Runtime.Info) := do
  let op := "docker.Runtime.Inspect"
  match ← getContainerBysandboxID sandboxID with
  | .error err => return .error (wrap op "" err)
  | .ok c => return .ok ⟨sandboxID, stateFromContainerState c.state, createdAtFromUnix c.created⟩

/-- The runtime contract, implemented over the daemon. -/
def impl (host : Host) : (c : (calls Runtime.signature).Call) → Program (calls signature) ((calls Runtime.signature).Answer c)
  | .now => now
  | .newSandboxID => newSandboxID
  | .store c => store c
  | .backend (.create id spec) => create host id spec
  | .backend (.destroy id) => destroy id
  | .backend .list => list
  | .decide id action => decided id action

end Docker

/-! ## The daemon -/

/-- The containers the daemon has, by their own ids. -/
structure Daemon where
  containers : Table Docker.Summary String Docker.Summary.id

namespace Daemon
open Docker

def empty : Daemon := ⟨.empty⟩

def remove (d : Daemon) (containerID : String) : Daemon := ⟨d.containers.filter fun c => c.id ≠ containerID⟩

def put (d : Daemon) (c : Summary) : Daemon := ⟨d.containers.put c⟩

def start (d : Daemon) (containerID : String) : Daemon :=
  ⟨d.containers.modify containerID (fun c => { c with state := "running" }) fun _ => rfl⟩

/-- The container has the labels a listing asks for. -/
def listed (label : List (String × String)) (c : Summary) : Bool := label.all fun e => c.labels.get e.1 = e.2

theorem listed_managedMarkerLabels {c : Summary} :
    listed (labelFilter managedMarkerLabels) c = isManaged c.labels := by
  simp [listed, labelFilter, managedMarkerLabels, StringMap.ofList, StringMap.insert, StringMap.put, StringMap.empty,
    isManaged]

/-- The containers that can be named by the id are listed under its labels. -/
theorem listed_managedLabels {c : Summary} {id : String} (h : managedSandboxID c.labels = some id) :
    listed (labelFilter (managedLabels id)) c = true := by
  obtain ⟨hmanaged, hid, -⟩ := managedSandboxID_eq_some_iff.mp h
  simpa [listed, labelFilter, managedLabels_entries, hid, isManaged] using hmanaged

/-- What a call may do. A listing that succeeds reports the containers there are; a call that fails may have
taken effect; `not found` is reported of no container that is there. -/
def act : (c : Docker.Call) → Daemon → c.Answer → Daemon → Prop
  | .containerList label, d, a, d' =>
    d' = d ∧ ∀ items, a = .ok items → ∀ c, c ∈ items ↔ c ∈ d.containers.rows ∧ listed label c = true
  | .imagePull _, d, _, d' => d' = d
  | .pullWait _, d, _, d' => d' = d
  | .containerCreate config _, d, a, d' =>
    (∃ created id, d.containers.find? id = none ∧ d' = d.put ⟨id, config.labels, "created", created⟩ ∧
      ∀ containerID, a = .ok containerID → containerID = id) ∨ d' = d ∧ ∃ e, a = .error e
  | .containerStart id, d, a, d' => d' = d.start id ∨ d' = d ∧ ∃ e, a = .error e
  | .containerRemove id, d, a, d' =>
    d' = d.remove id ∨ d' = d ∧ ∃ e, a = .error e ∧ (e.notFound = true → d.containers.find? id = none)

/-- Containers exit, come back and vanish by themselves; what is not managed may also appear. -/
def Moves (d d' : Daemon) : Prop :=
  ∀ c' ∈ d'.containers.rows, isManaged c'.labels = true →
    ∃ c ∈ d.containers.rows, c.id = c'.id ∧ c.labels = c'.labels

end Daemon

def Backend.docker : Backend Docker.signature Daemon := ⟨Daemon.act, Daemon.Moves⟩

/-- The requests and the reconciler over the daemon. -/
def dockerPlane (host : Docker.Host) :
    Service (calls Docker.signature) (World Daemon) Request Response (Except Err (List ReconcileAction)) :=
  Backend.docker.service Request.handle ((Reconciler.reconcileOnce false).translate (Docker.impl host))

/-! ### A daemon nothing fails at -/

namespace Daemon
open Docker

/-- An id that no container has: it is longer than all of theirs. -/
def freshID (d : Daemon) : String :=
  String.ofList (List.replicate ((d.containers.rows.map fun c => c.id.length).sum + 1) 'c')

theorem freshID_fresh (d : Daemon) : d.containers.find? d.freshID = none := by
  rw [Table.find?_eq_none_iff]
  intro hm
  obtain ⟨c, hc, he⟩ := List.mem_map.mp hm
  have hlen : c.id.length = (d.containers.rows.map fun c => c.id.length).sum + 1 := by simp [he, freshID]
  have hle := List.le_sum_of_mem (List.mem_map_of_mem (f := fun c : Summary => c.id.length) hc)
  omega

def run : (c : Docker.Call) → Daemon → c.Answer × Daemon
  | .containerList label, d => (.ok (d.containers.rows.filter (listed label)), d)
  | .imagePull _, d => (.ok (), d)
  | .pullWait _, d => (.ok (), d)
  | .containerCreate config _, d => (.ok d.freshID, d.put ⟨d.freshID, config.labels, "created", 0⟩)
  | .containerStart containerID, d => (.ok (), d.start containerID)
  | .containerRemove containerID, d => (.ok (), d.remove containerID)

theorem act_run (c : Docker.Call) (d : Daemon) : act c d (run c d).1 (run c d).2 := by
  cases c with
  | containerList label =>
    refine ⟨rfl, fun items hi c => ?_⟩
    obtain rfl := Except.ok.inj hi
    exact List.mem_filter
  | imagePull | pullWait => exact rfl
  | containerCreate config host => exact .inl ⟨0, d.freshID, d.freshID_fresh, rfl, fun _ h => (Except.ok.inj h).symm⟩
  | containerStart | containerRemove => exact .inl rfl

end Daemon

def exampleHost : Docker.Host := ⟨"runsc", fun _ => 1000000000⟩

/-- The system over that daemon where every new id is `exampleID`. -/
def dockerExec : (c : (calls Docker.signature).Call) → World Daemon → (calls Docker.signature).Answer c × World Daemon :=
  execute (fun _ => exampleID) Daemon.run

theorem dockerExec_performs (c : (calls Docker.signature).Call) (w : World Daemon) :
    Backend.docker.perform c w (dockerExec c w).1 (dockerExec c w).2 :=
  Backend.perform_execute (fun _ => validateSandboxID_exampleID) Daemon.act_run c w

end Quickspin
