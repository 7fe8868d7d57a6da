import Quickspin.Sandbox

/-! From the spec document to enforceable limits: the memory grammar, the defaults, and the
validation of the resolved `runtime.Spec` (`internal/sandbox/spec_resolve.go`,
`internal/runtime/runtime.go`). -/
namespace Quickspin
set_option autoImplicit false

namespace Float64

/-- `<` of IEEE numbers: false as soon as one side is NaN. -/
def lt : Float64 → Float64 → Bool
  | .nan, _ | _, .nan => false
  | .inf true, .inf true => false
  | .inf true, _ => true
  | .inf false, _ => false
  | .finite _, .inf negative => !negative
  | .finite p, .finite q => p < q

end Float64

namespace Runtime

/-- The resolved limits of one sandbox. -/
structure Spec where
  image : String
  env : Option StringMap
  cpuLimit : Float64
  memoryLimit : Int64
  pidsLimit : Int64
  allowNetwork : Bool
deriving DecidableEq

def MinMemoryLimit : Int64 := 6 * 1024 * 1024
def MinCPULimit : Float64 := .finite (1 / 100)

/-- The cpu message leaves out the two numbers `%g` prints. -/
def Spec.validate (s : Spec) : Except Err Unit :=
  let op := "runtime.Spec.Validate"
  if s.image == "" then .error (E op "image is required" (.sentinel .runtimeInvalidSpec))
  else if s.cpuLimit.lt MinCPULimit then
    .error (E op "cpu limit is below the minimum" (.sentinel .runtimeInvalidSpec))
  else if s.memoryLimit < MinMemoryLimit then
    .error (E op s!"memory limit {s.memoryLimit} bytes is below the minimum {MinMemoryLimit}"
      (.sentinel .runtimeInvalidSpec))
  else if s.pidsLimit < 1 then
    .error (E op s!"pids limit {s.pidsLimit} must be positive" (.sentinel .runtimeInvalidSpec))
  else .ok ()

end Runtime

/-! ## The memory grammar -/

/-- `unicode.ToLower`, as far as the grammar can see it: the two non-ASCII letters whose lower case
is an ASCII letter are spelled out, and the other non-ASCII letters stay outside the grammar. -/
def lowerChar (c : Char) : Char :=
  if c = Char.ofNat 0x212A then 'k' else if c = Char.ofNat 0x130 then 'i' else c.toLower

/-- `unicode.IsSpace` -/
def isSpace (c : Char) : Bool :=
  c.toNat ∈ [0x09, 0x0A, 0x0B, 0x0C, 0x0D, 0x20, 0x85, 0xA0, 0x1680, 0x2028, 0x2029, 0x202F, 0x205F, 0x3000] ||
    (0x2000 ≤ c.toNat && c.toNat ≤ 0x200A)

/-- `strings.TrimSpace` on the characters of a string. -/
def trimSpace (s : List Char) : List Char := ((s.dropWhile isSpace).reverse.dropWhile isSpace).reverse

/-- A nonempty run of decimal digits. -/
def digitsValue : List Char → Option ℕ
  | [] => none
  | ds => if ds.all Char.isDigit then some (ds.foldl (fun n d => 10 * n + (d.toNat - '0'.toNat)) 0) else none

/-- `strconv.ParseInt(s, 10, 64)`: an optional sign, digits, and a value that fits. -/
def parseInt (s : List Char) : Option Int64 :=
  let value : Option ℤ := match s with
    | '+' :: ds => (digitsValue ds).map fun n : ℕ => (n : ℤ)
    | '-' :: ds => (digitsValue ds).map fun n : ℕ => -(n : ℤ)
    | ds => (digitsValue ds).map fun n : ℕ => (n : ℤ)
  value.bind fun v => if -2 ^ 63 ≤ v ∧ v < 2 ^ 63 then some (Int64.ofInt v) else none

theorem parseInt_plus (ds : List Char) : parseInt ('+' :: ds) = ((digitsValue ds).map fun n : ℕ => (n : ℤ)).bind
    fun v => if -2 ^ 63 ≤ v ∧ v < 2 ^ 63 then some (Int64.ofInt v) else none := rfl

theorem parseInt_minus (ds : List Char) : parseInt ('-' :: ds) = ((digitsValue ds).map fun n : ℕ => -(n : ℤ)).bind
    fun v => if -2 ^ 63 ≤ v ∧ v < 2 ^ 63 then some (Int64.ofInt v) else none := rfl

theorem parseInt_bare {s : List Char} (hplus : ∀ ds, s ≠ '+' :: ds) (hminus : ∀ ds, s ≠ '-' :: ds) :
    parseInt s = ((digitsValue s).map fun n : ℕ => (n : ℤ)).bind
      fun v => if -2 ^ 63 ≤ v ∧ v < 2 ^ 63 then some (Int64.ofInt v) else none := by
  unfold parseInt
  split
  · next ds => exact absurd rfl (hplus ds)
  · next ds => exact absurd rfl (hminus ds)
  · rfl

theorem fits_iff {v : ℤ} : (-2 ^ 63 ≤ v ∧ v < 2 ^ 63) ↔ -9223372036854775808 ≤ v ∧ v < 9223372036854775808 := by
  have hpow : (2 : ℤ) ^ 63 = 9223372036854775808 := by decide
  rw [hpow]

/-- The binary multiples a trailing letter stands for. -/
def memoryUnits : Char → Option Int64
  | 'b' => some 1
  | 'k' => some ((1 : Int64) <<< 10)
  | 'm' => some ((1 : Int64) <<< 20)
  | 'g' => some ((1 : Int64) <<< 30)
  | _ => none

/-- The error is the text of the message; the quoted value is printed as Lean quotes it. -/
def parseMemory (value : String) : Except String Int64 :=
  let trimmed := trimSpace (value.toList.map lowerChar)
  match trimmed.getLast? with
  | none => .error s!"invalid memory limit {value.quote}: expected a size like 512m"
  | some last =>
    let (multiplier, digits) : Int64 × List Char := match memoryUnits last with
      | some unit => (unit, trimmed.dropLast)
      | none => (1, trimmed)
    match parseInt digits with
    | none => .error s!"invalid memory limit {value.quote}: expected a whole number with an optional b/k/m/g suffix"
    | some n =>
      if n > ((1 : Int64) <<< 62) / multiplier then .error s!"invalid memory limit {value.quote}: too large"
      else .ok (n * multiplier)

/-! ## Resolution -/

def DefaultCPUs : Float64 := .finite 1
def DefaultMemory : String := "512m"
def DefaultPidsLimit : Int64 := 256
def DefaultImage : String := "alpine:3.20"

namespace SpecFile

/-- Apply the defaults and convert the memory limit to bytes. -/
def resolve (s : SpecFile) : Except Err Runtime.Spec :=
  match parseMemory (s.memory.getD DefaultMemory) with
  | .error text => .error (E "sandbox.SpecFile.Resolve" text (.sentinel .invalidSpec))
  | .ok memoryBytes => .ok {
      image := s.image.getD DefaultImage
      env := s.env
      cpuLimit := s.cpus.getD DefaultCPUs
      memoryLimit := memoryBytes
      pidsLimit := s.pidsLimit.getD DefaultPidsLimit
      allowNetwork := s.allowNetwork.getD false }

/-- A spec that both resolves and carries enforceable limits. -/
def resolveValidated (s : SpecFile) : Except Err Runtime.Spec :=
  match s.resolve with
  | .error err => .error err
  | .ok resolved =>
    match resolved.validate with
    | .error err => .error err
    | .ok () => .ok resolved

theorem validate_of_resolveValidated {s : SpecFile} {r : Runtime.Spec} (h : s.resolveValidated = .ok r) :
    r.validate = .ok () := by
  unfold resolveValidated at h
  split at h
  · cases h
  · split at h
    · cases h
    · next hv =>
      obtain rfl := Except.ok.inj h
      exact hv

/-- The spec that omits everything resolves to the defaults. -/
example : ({} : SpecFile).resolveValidated.isOk = true := by decide +kernel

end SpecFile
end Quickspin
