import Quickspin.Spec
import Quickspin.Lib.Program

/-! The runtime contract (`internal/runtime`), as far as the reconciler uses it. -/
namespace Quickspin.Runtime
open Interaction
set_option autoImplicit false

inductive State
  | running | stopped
deriving DecidableEq, Repr

structure Info where
  id : String
  state : State
  createdAt : Time
deriving DecidableEq

inductive Call
  | create (sandboxID : String) (spec : Spec)
  | destroy (sandboxID : String)
  | list

abbrev Call.Answer : Call → Type
  | .create _ _ => Except Err Info
  | .destroy _ => Except Err Unit
  | .list => Except Err (List Info)

abbrev signature : Signature := ⟨Call, Call.Answer⟩

end Quickspin.Runtime
