import Quickspin.Lib.JsonValue

/-! Records as JSON objects: the members of an object are set in a record one after another, each by the field of its name.
What is there is kept where a member is missing or `null`. -/
namespace JsonText
set_option autoImplicit false

/-- What a value makes of what is there, unless it is of another type. -/
abbrev Decoder (τ : Type) : Type := Value → τ → Option τ

/-! ## Values -/

namespace Decoder
variable {τ σ : Type}

def string : Decoder (List UInt8)
  | .null, s => some s
  | .string s, _ => some s
  | _, _ => none

def text : Decoder String
  | .null, s => some s
  | .string s, _ => some (JsonText.text s)
  | _, _ => none

def bool : Decoder Bool
  | .null, b => some b
  | .bool b, _ => some b
  | _, _ => none

/-- An integer between `low` and `high`. -/
def integer (low high : ℤ) : Decoder ℤ
  | .null, n => some n
  | .number s, _ => (readInteger s).filter fun n => low ≤ n ∧ n ≤ high
  | _, _ => none

def byte : Value → Option UInt8
  | .null => some 0
  | .number s => ((readNatural s).filter fun n => n < 256).map Nat.toUInt8
  | _ => none

/-- A nil slice is `none`. -/
def bytes : Decoder (Option (List UInt8))
  | .null, _ => some none
  | .string s, _ => (base64Decode s).map some
  | .array items, _ => (items.mapM byte).map some
  | _, _ => none

/-- A slice begins anew, with `zero` for every item. -/
def list (d : Decoder τ) (zero : τ) : Decoder (List τ)
  | .null, _ => some []
  | .array items, _ => items.mapM fun v => d v zero
  | _, _ => none

end Decoder

/-! ## Records -/

/-- How a member of this name is set. -/
structure RecordField (σ : Type) where
  name : List UInt8
  decode : Decoder σ

/-- The part `get` of a record. -/
def RecordField.of {σ τ : Type} (name : String) (d : Decoder τ) (get : σ → τ) (set : σ → τ → σ) : RecordField σ :=
  ⟨ascii name, fun v s => (d v (get s)).map (set s)⟩

/-- `foldName`, as far as a name of ASCII letters can tell: the two letters beyond ASCII that fold to one of them are spelled
out. -/
def foldRune (r : ℕ) : ℕ :=
  if 97 ≤ r ∧ r ≤ 122 then r - 32 else if r = 0x17F then 83 else if r = 0x212A then 75 else r

def foldName (key : List UInt8) : List ℕ := (runes key).map fun r => foldRune r.codePoint

/-- The field of just this name, or else of the same letters. -/
def findField {σ : Type} (fields : List (RecordField σ)) (key : List UInt8) : Option (RecordField σ) :=
  (fields.find? fun f => f.name = key).or (fields.find? fun f => foldName f.name = foldName key)

/-- Set the members in turn. With `strict` a member that is no field is refused, else it is left out. -/
def setMembers {σ : Type} (strict : Bool) (fields : List (RecordField σ)) : List (List UInt8 × Value) → σ → Option σ
  | [], s => some s
  | (key, v) :: rest, s =>
    match findField fields key with
    | none => if strict then none else setMembers strict fields rest s
    | some f => (f.decode v s).bind (setMembers strict fields rest)

def Decoder.record {σ : Type} (strict : Bool) (fields : List (RecordField σ)) : Decoder σ
  | .null, s => some s
  | .object members, s => setMembers strict fields members s
  | _, _ => none

/-- Parse the text and set what it says in `zero`. -/
def unmarshal {τ : Type} (d : Decoder τ) (zero : τ) (s : List UInt8) : Except String τ :=
  match (parse s).bind fun v => d v zero with
  | none => .error "json: cannot unmarshal"
  | some r => .ok r

/-! ## What is printed is set -/

section Sets
variable {σ τ : Type} {strict : Bool} {fields : List (RecordField σ)} {s s' s'' : σ}

end Sets
end JsonText
