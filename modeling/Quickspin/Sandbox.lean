import Quickspin.Errors
import Quickspin.Time
import Quickspin.StringMap
import Mathlib.Algebra.Group.Int.Defs
import Mathlib.Data.Rat.Defs

/-! What a sandbox is: the task state machine, the spec document with its JSON form, the lifetime
rule and the sandbox record (`internal/sandbox`). -/
namespace Quickspin
set_option autoImplicit false

/-! ## Task states -/

/-- `TaskState` is a string type; `other` holds every text that is not a declared state. -/
inductive TaskState
  | pending | running | failed | stopping | stopped
  | other (text : String) (h : text ∉ ["pending", "running", "failed", "stopping", "stopped"])
deriving DecidableEq, Repr

namespace TaskState

/-- The zero value, where a replay starts. -/
def zero : TaskState := .other "" (by decide)

def text : TaskState → String
  | .pending => "pending"
  | .running => "running"
  | .failed => "failed"
  | .stopping => "stopping"
  | .stopped => "stopped"
  | .other t _ => t

/-- Every declared state is a key. -/
def validTransitions : TaskState → Option (List TaskState)
  | .pending => some [.running, .failed]
  | .running => some [.failed, .stopping]
  | .failed => some []
  | .stopping => some [.stopped]
  | .stopped => some []
  | .other _ _ => none

def valid (s : TaskState) : Bool := s.validTransitions.isSome

end TaskState

def canTransition (fromState toState : TaskState) : Except Err Unit :=
  if !fromState.valid || !toState.valid then .error (.sentinel .invalidState)
  else if !((fromState.validTransitions.getD []).contains toState) then
    .error (.sentinel .invalidStateTransition)
  else .ok ()

/-- The transitions `canTransition` allows. -/
inductive Next : TaskState → TaskState → Prop
  | start : Next .pending .running
  | abandon : Next .pending .failed
  | fail : Next .running .failed
  | stop : Next .running .stopping
  | finish : Next .stopping .stopped

theorem canTransition_ok_iff (a b : TaskState) : canTransition a b = .ok () ↔ Next a b := by
  constructor
  · intro h
    cases a <;> cases b <;> first | constructor | cases h
  · intro h
    cases h <;> rfl

/-- How far along its life a state is; the last states are level. -/
def TaskState.depth : TaskState → ℕ
  | .pending => 0
  | .running => 1
  | .stopping => 2
  | _ => 3

theorem Next.depth_lt {a b : TaskState} (h : Next a b) : a.depth < b.depth := by
  cases h <;> decide

theorem TaskState.depth_le (s : TaskState) : s.depth ≤ 3 := by
  cases s <;> simp [TaskState.depth]

/-- `Stopped` and `Failed`, the states without a way out. -/
def TaskState.Terminal (s : TaskState) : Prop := s = .stopped ∨ s = .failed

instance (s : TaskState) : Decidable s.Terminal := inferInstanceAs (Decidable (_ ∨ _))

theorem Next.ne_zero {a b : TaskState} (h : Next a b) : b ≠ .zero := by
  cases h <;> decide

theorem Next.not_terminal {a b : TaskState} (h : Next a b) : ¬a.Terminal := by
  cases h <;> decide

/-! ## The spec document -/

/-- A 64-bit float, its finite values exact. -/
inductive Float64
  | finite (q : ℚ)
  | inf (negative : Bool)
  | nan
deriving DecidableEq

/-- The document `encoding/json` writes and reads; its text form is assumed to round-trip. -/
inductive Json
  | null
  | bool (b : Bool)
  | num (q : ℚ)
  | str (s : String)
  | arr (items : List Json)
  | obj (fields : List (String × Json))

/-- `none` is an absent field, which is not the same as an explicit zero. -/
structure SpecFile where
  image : Option String := none
  env : Option StringMap := none
  cpus : Option Float64 := none
  memory : Option String := none
  pidsLimit : Option Int64 := none
  allowNetwork : Option Bool := none
deriving DecidableEq

namespace SpecFile

/-- `encoding/json` writes a nil pointer or map as null and has no encoding for NaN or infinities. -/
def encodeCpus : Option Float64 → Except Err Json
  | none => .ok .null
  | some (.finite q) => .ok (.num q)
  | some _ => .error (.foreign "json: unsupported value")

def toJSON (s : SpecFile) : Except Err Json :=
  match encodeCpus s.cpus with
  | .error err => .error (E "sandbox.SpecFile.ToJSON" "marshaling spec to json" err)
  | .ok cpus => .ok (.obj [
      ("image", (s.image.map Json.str).getD .null),
      ("env", (s.env.map fun m => Json.obj (m.entries.map fun e => (e.1, .str e.2))).getD .null),
      ("cpus", cpus),
      ("memory", (s.memory.map Json.str).getD .null),
      ("pids-limit", (s.pidsLimit.map fun n => Json.num n.toInt).getD .null),
      ("allow-network", (s.allowNetwork.map Json.bool).getD .null)])

/-- A field of an object: the last one written wins, and an absent one reads as null. -/
def field (fields : List (String × Json)) (name : String) : Json :=
  (((fields.filter fun e => e.1 = name).getLast?).map (·.2)).getD .null

def mistyped : Err := .foreign "json: cannot unmarshal value into Go struct field"

def decodeString : Json → Except Err (Option String)
  | .null => .ok none
  | .str s => .ok (some s)
  | _ => .error mistyped

def decodeBool : Json → Except Err (Option Bool)
  | .null => .ok none
  | .bool b => .ok (some b)
  | _ => .error mistyped

def decodeFloat64 : Json → Except Err (Option Float64)
  | .null => .ok none
  | .num q => .ok (some (.finite q))
  | _ => .error mistyped

def decodeInt64 : Json → Except Err (Option Int64)
  | .null => .ok none
  | .num q =>
    if q.den = 1 ∧ -2 ^ 63 ≤ q.num ∧ q.num < 2 ^ 63 then .ok (some (Int64.ofInt q.num)) else .error mistyped
  | _ => .error mistyped

/-- A null value of a map entry leaves the element's zero value. -/
def decodeEntries : List (String × Json) → Except Err (List (String × String))
  | [] => .ok []
  | (k, .str v) :: rest => (decodeEntries rest).map ((k, v) :: ·)
  | (k, .null) :: rest => (decodeEntries rest).map ((k, "") :: ·)
  | _ :: _ => .error mistyped

def decodeMap : Json → Except Err (Option StringMap)
  | .null => .ok none
  | .obj fields => (decodeEntries fields).map fun l => some (StringMap.ofList l)
  | _ => .error mistyped

/-- `json.Unmarshal` into an empty spec. -/
def ofJSON : Json → Except Err SpecFile
  | .null => .ok {}
  | .obj fields => do
    let image ← decodeString (field fields "image")
    let env ← decodeMap (field fields "env")
    let cpus ← decodeFloat64 (field fields "cpus")
    let memory ← decodeString (field fields "memory")
    let pidsLimit ← decodeInt64 (field fields "pids-limit")
    let allowNetwork ← decodeBool (field fields "allow-network")
    return { image, env, cpus, memory, pidsLimit, allowNetwork }
  | _ => .error mistyped

/-- The method has a nil receiver to reject; a spec passed by value never is. -/
def validate (_s : SpecFile) : Except Err Unit := .ok ()

/-! ### A document that does not decode -/

theorem decodeString_error {j : Json} {e : Err} (h : decodeString j = .error e) : e = mistyped := by
  unfold decodeString at h
  split at h <;> cases h
  rfl

theorem decodeBool_error {j : Json} {e : Err} (h : decodeBool j = .error e) : e = mistyped := by
  unfold decodeBool at h
  split at h <;> cases h
  rfl

theorem decodeFloat64_error {j : Json} {e : Err} (h : decodeFloat64 j = .error e) : e = mistyped := by
  unfold decodeFloat64 at h
  split at h <;> cases h
  rfl

theorem decodeInt64_error {j : Json} {e : Err} (h : decodeInt64 j = .error e) : e = mistyped := by
  unfold decodeInt64 at h
  split at h
  · cases h
  · split at h <;> cases h
    rfl
  · cases h
    rfl

theorem decodeEntries_error {l : List (String × Json)} {e : Err} (h : decodeEntries l = .error e) :
    e = mistyped := by
  induction l with
  | nil => cases h
  | cons a l ih =>
    unfold decodeEntries at h
    split at h
    · cases h
    · next heq =>
      obtain ⟨rfl, rfl⟩ := List.cons.inj heq
      rcases hr : decodeEntries l with e' | es <;> rw [hr] at h <;> cases h
      exact ih hr
    · next heq =>
      obtain ⟨rfl, rfl⟩ := List.cons.inj heq
      rcases hr : decodeEntries l with e' | es <;> rw [hr] at h <;> cases h
      exact ih hr
    · cases h
      rfl

theorem decodeMap_error {j : Json} {e : Err} (h : decodeMap j = .error e) : e = mistyped := by
  unfold decodeMap at h
  split at h
  · cases h
  · next fields =>
    rcases hr : decodeEntries fields with e' | es <;> rw [hr] at h <;> cases h
    exact decodeEntries_error hr
  · cases h
    rfl

theorem ofJSON_error {j : Json} {e : Err} (h : ofJSON j = .error e) : e = mistyped := by
  unfold ofJSON at h
  split at h
  · cases h
  · simp only [bind_eq_error] at h
    rcases h with h | ⟨_, -, h | ⟨_, -, h | ⟨_, -, h | ⟨_, -, h | ⟨_, -, h | ⟨_, -, h⟩⟩⟩⟩⟩⟩
    · exact decodeString_error h
    · exact decodeMap_error h
    · exact decodeFloat64_error h
    · exact decodeString_error h
    · exact decodeInt64_error h
    · exact decodeBool_error h
    · cases h
  · cases h
    rfl

/-! ### The document reads back -/

theorem decodeString_encode (o : Option String) : decodeString ((o.map Json.str).getD .null) = .ok o := by
  cases o <;> rfl

theorem decodeBool_encode (o : Option Bool) : decodeBool ((o.map Json.bool).getD .null) = .ok o := by
  cases o <;> rfl

theorem decodeInt64_encode (o : Option Int64) :
    decodeInt64 ((o.map fun n => Json.num n.toInt).getD .null) = .ok o := by
  cases o with
  | none => rfl
  | some n =>
    have h₁ : -2 ^ 63 ≤ n.toInt := n.le_toInt
    have h₂ : n.toInt < 2 ^ 63 := n.toInt_lt
    simp only [Option.map_some, Option.getD_some, decodeInt64]
    rw [if_pos ⟨Rat.den_intCast _, by simpa using h₁, by simpa using h₂⟩]
    simp

theorem decodeEntries_encode (l : List (String × String)) :
    decodeEntries (l.map fun e => (e.1, .str e.2)) = .ok l := by
  induction l with
  | nil => rfl
  | cons e l ih =>
    rw [List.map_cons, decodeEntries, ih]
    rfl

theorem decodeMap_encode (o : Option StringMap) :
    decodeMap ((o.map fun m => Json.obj (m.entries.map fun e => (e.1, .str e.2))).getD .null) = .ok o := by
  cases o with
  | none => rfl
  | some m =>
    simp only [Option.map_some, Option.getD_some, decodeMap, decodeEntries_encode]
    simp [Except.map, StringMap.ofList_entries]

theorem decodeFloat64_encode {o : Option Float64} {j : Json} (h : encodeCpus o = .ok j) :
    decodeFloat64 j = .ok o := by
  unfold encodeCpus at h
  split at h <;> first | (cases h; rfl) | cases h

/-- **Round trip**: a spec that has a document is read back from it. -/
theorem ofJSON_toJSON {s : SpecFile} {j : Json} (h : s.toJSON = .ok j) : ofJSON j = .ok s := by
  unfold toJSON at h
  rcases hc : encodeCpus s.cpus with e | cpus <;> rw [hc] at h
  · cases h
  obtain rfl := Except.ok.inj h
  have hcpus := decodeFloat64_encode hc
  simp only [ofJSON, field, List.filter_cons, List.filter_nil]
  simp [decodeString_encode, decodeMap_encode, hcpus, decodeInt64_encode, decodeBool_encode, pure,
    Except.pure, bind, Except.bind]

end SpecFile

/-! ## Lifetimes -/

def DefaultTTL : Duration := 15 * Duration.minute
def MaxTTL : Duration := 24 * Duration.hour

/-- The lifetime that will be enforced for a requested one. The message prints the durations as
nanoseconds. -/
def resolveTTL (requested : Duration) : Except Err Duration :=
  if requested == 0 then .ok DefaultTTL
  else if requested < 0 || requested > MaxTTL then
    .error (E "sandbox.ResolveTTL" s!"ttl {requested} is outside (0, {MaxTTL}]" (.sentinel .invalidSpec))
  else .ok requested

/-! ## Records -/

structure Sandbox where
  id : ℕ
  versionID : ℤ
  sandboxID : String
  state : TaskState
  spec : SpecFile
  expiresAt : Time
  createdAt : Time
  updatedAt : Time
deriving DecidableEq

structure IdempotencyKey where
  id : ℕ
  sandboxID : String
  key : String
  createdAt : Time
  updatedAt : Time
deriving DecidableEq

end Quickspin
