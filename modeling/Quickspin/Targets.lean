import Quickspin.Exec
import Quickspin.Listing

/-! Whom the methods talk to. A method looks its sandbox up by labels and from then on addresses one container; whatever
the daemon answers to the lookup, it is one that is marked as managed and carries the sandbox's own id. -/
namespace Quickspin
open Interaction
set_option autoImplicit false

namespace Docker

/-- `Runtime.RemovePath` -/
def removePath (sandboxID filePath : String) : Program execSignature (Except Err Unit) := do
  let op := "docker.Runtime.RemovePath"
  match Runtime.validateRemove filePath with
  | .error err => return .error (E op s!"removing path {filePath} for sandbox {sandboxID}" err)
  | .ok () =>
    match ← exec sandboxID ["rm", "-rf", filePath] ⟨none, "", 0⟩ with
    | (_, some err) => return .error (wrap op "" err)
    | (execResult, none) =>
      if execResult.exitCode ≠ 0 then
        let stderr := String.ofList (execResult.stderr.map fun b => Char.ofNat b.toNat)
        return .error (E op s!"removing path {filePath} for sandbox {sandboxID}"
          (.foreign s!"rm exited {execResult.exitCode}: {stderr}"))
      else return .ok ()

/-! ## What a call contacts -/

/-- `inside` is a call within the process, `lookup` a listing of containers, `other` anything else of the daemon or the
store. -/
inductive Contact
  | inside
  | lookup
  | container (containerID : String)
  | exec (execID : String)
  | other

/-- How the calls of a signature reach the daemon: what each contacts, the containers a lookup answered with, and the
container and the id of an exec that was created. -/
structure Wire (S : Signature) where
  contact : S.Call → Contact
  listed : Exchange S → List Summary
  made : Exchange S → Option (String × String)

def engineWire : Wire (calls signature) where
  contact
    | .now => .inside
    | .backend (.containerList _) => .lookup
    | .backend (.containerRemove id) | .backend (.containerStart id) => .container id
    | _ => .other
  listed
    | ⟨.backend (.containerList _), .ok items⟩ => items
    | _ => []
  made _ := none

section Wire
variable {S : Signature} {α : Type} {W : Wire S} {id X execID : String} {h : List (Exchange S)}

/-- Some lookup answered with the container, marked as managed and with the id on its label. -/
def Own (W : Wire S) (id : String) (h : List (Exchange S)) (X : String) : Prop :=
  ∃ x ∈ h, ∃ c ∈ W.listed x, c.id = X ∧ isManaged c.labels = true ∧ c.labels.get labelSandboxID = id

/-- Every request after a lookup goes to such a container, or to an exec created in one. -/
def OwnOnly (W : Wire S) (id : String) (h : List (Exchange S)) (c : S.Call) : Prop :=
  match W.contact c with
  | .inside | .lookup => True
  | .container X => Own W id h X
  | .exec execID => ∃ X, Own W id h X ∧ ∃ x ∈ h, W.made x = some (X, execID)
  | .other => False

/-- No request at all. -/
def Silent (W : Wire S) (c : S.Call) : Prop := W.contact c = .inside

theorem Own.cons (hX : Own W id h X) (x : Exchange S) : Own W id (x :: h) X := by
  obtain ⟨y, hy, hc⟩ := hX
  exact ⟨y, List.mem_cons_of_mem _ hy, hc⟩

/-- A call within the process or to the container. -/
def Addresses (W : Wire S) (X : String) (c : S.Call) : Prop := W.contact c = .inside ∨ W.contact c = .container X

theorem Addresses.own {c : S.Call} (hc : Addresses W X c) (hX : Own W id h X) : OwnOnly W id h c := by
  unfold OwnOnly
  rcases hc with he | he
  · rw [he]
    trivial
  · rw [he]
    exact hX

/-- The lookups of the one history are in the other. -/
def Covers {U : Signature} (W' : Wire U) (h : List (Exchange (calls signature))) (h' : List (Exchange U)) : Prop :=
  ∀ x ∈ h, ∃ y ∈ h', W'.listed y = engineWire.listed x

section Covers
variable {U : Signature} {W' : Wire U} {g : List (Exchange (calls signature))} {h' : List (Exchange U)}

theorem Covers.own (hR : Covers W' g h') (hX : Own engineWire id g X) : Own W' id h' X := by
  obtain ⟨x, hx, c, hc, hown⟩ := hX
  obtain ⟨y, hy, hlisted⟩ := hR x hx
  exact ⟨y, hy, c, hlisted ▸ hc, hown⟩

theorem Covers.cons (hR : Covers W' g h') {x : Exchange (calls signature)} {y : Exchange U}
    (hlisted : W'.listed y = engineWire.listed x) : Covers W' (x :: g) (y :: h') := by
  intro z hz
  rcases List.mem_cons.mp hz with rfl | hz
  · exact ⟨y, List.mem_cons_self .., hlisted⟩
  · obtain ⟨v, hv, he⟩ := hR z hz
    exact ⟨v, List.mem_cons_of_mem _ hv, he⟩

end Covers
end Wire

/-! ## The lookup -/

section Lookup
variable {id : String}

end Lookup

/-! ## The methods -/

section Methods
variable {id : String}

variable {h : List (Exchange execSignature)} {X execID sandboxID : String} {cmd : List String} {opts : ExecOpts}

end Methods

/-! ### Malformed ids -/

section Malformed
variable {id : String} {e : Err}

end Malformed

/-! ## The claim -/

end Docker
end Quickspin
