import Quickspin.Errors
import Mathlib.Data.List.Basic

/-! Sandbox ids (`internal/runtime/ids.go`) over the bytes of a string, with the UUID encodings that
`uuid.Parse` accepts: plain, `urn:uuid:`, braced and 32 hex digits. -/
namespace Quickspin
set_option autoImplicit false

/-- The UTF-8 bytes of a string. -/
def bytesOf (s : String) : List UInt8 := s.toList.flatMap String.utf8EncodeChar

namespace UUID

/-- The value of one hex digit. -/
def hexValue (b : UInt8) : Option UInt8 :=
  if 0x30 ≤ b ∧ b ≤ 0x39 then some (b - 0x30)
  else if 0x61 ≤ b ∧ b ≤ 0x66 then some (b - 0x61 + 10)
  else if 0x41 ≤ b ∧ b ≤ 0x46 then some (b - 0x41 + 10)
  else none

/-- Two hex digits to one byte. -/
def xtob (s : List UInt8) (i : ℕ) : Option UInt8 := do
  let hi ← hexValue (← s[i]?)
  let lo ← hexValue (← s[i + 1]?)
  return hi * 16 + lo

/-- Where the sixteen bytes start in the 8-4-4-4-12 form. -/
def offsets : List ℕ := [0, 2, 4, 6, 9, 11, 14, 16, 19, 21, 24, 26, 28, 30, 32, 34]

/-- `strings.EqualFold` on ASCII. -/
def equalFold (a b : List UInt8) : Bool :=
  let lower (x : UInt8) : UInt8 := if 0x41 ≤ x ∧ x ≤ 0x5A then x + 0x20 else x
  a.map lower == b.map lower

def parseDashed (s : List UInt8) : Option (List UInt8) :=
  if [8, 13, 18, 23].all fun i => s[i]? == some 0x2D then offsets.mapM (xtob s) else none

/-- `uuid.Parse`: the sixteen bytes. -/
def parse (s : List UInt8) : Option (List UInt8) :=
  if s.length = 36 then parseDashed s
  else if s.length = 45 then
    if equalFold (s.take 9) (bytesOf "urn:uuid:") then parseDashed (s.drop 9) else none
  else if s.length = 38 then parseDashed (s.drop 1)
  else if s.length = 32 then (List.range 16).mapM fun i => xtob s (2 * i)
  else none

def hexDigit (n : UInt8) : UInt8 := if n < 10 then n + 0x30 else n - 10 + 0x61

/-- `UUID.String`: the canonical lowercase 8-4-4-4-12 form. -/
def print (u : List UInt8) : List UInt8 :=
  let hex (bs : List UInt8) : List UInt8 := bs.flatMap fun b => [hexDigit (b / 16), hexDigit (b % 16)]
  hex (u.take 4) ++ [0x2D] ++ hex ((u.drop 4).take 2) ++ [0x2D] ++ hex ((u.drop 6).take 2) ++ [0x2D] ++
    hex ((u.drop 8).take 2) ++ [0x2D] ++ hex (u.drop 10)

/-- `uuid.Nil` -/
def nil : List UInt8 := List.replicate 16 0

end UUID

def sandboxIDPrefix : String := "sbx_"

/-- Reject anything `NewSandboxID` could not have produced. -/
def validateSandboxID (id : String) : Except Err Unit :=
  let bytes := bytesOf id
  if (bytesOf sandboxIDPrefix).isPrefixOf bytes then
    let uid := bytes.drop (bytesOf sandboxIDPrefix).length
    match UUID.parse uid with
    | none => .error (.sentinel .invalidSandboxID)
    | some v =>
      if v == UUID.nil || UUID.print v != uid then .error (.sentinel .invalidSandboxID) else .ok ()
  else .error (.sentinel .invalidSandboxID)

/-- An id of the documented form. -/
def exampleID : String := "sbx_9f1c0e3a-5c2b-4f27-9c6c-1a2d3e4f5a6b"

theorem validateSandboxID_exampleID : validateSandboxID exampleID = .ok () :=
  eq_ok_of_isOk (by decide +kernel)

/-- Its uppercase spelling is not canonical. -/
example : (validateSandboxID "sbx_9F1C0E3A-5C2B-4F27-9C6C-1A2D3E4F5A6B").isOk = false := by decide +kernel

/-! ## The canonical form -/

namespace UUID

/-- The digits of a run of bytes. -/
def hexOf (bs : List UInt8) : List UInt8 := bs.flatMap fun b => [hexDigit (b / 16), hexDigit (b % 16)]

theorem print_eq (u : List UInt8) :
    print u = hexOf (u.take 4) ++ [0x2D] ++ hexOf ((u.drop 4).take 2) ++ [0x2D] ++ hexOf ((u.drop 6).take 2) ++
      [0x2D] ++ hexOf ((u.drop 8).take 2) ++ [0x2D] ++ hexOf (u.drop 10) := rfl

/-- A lowercase hex digit. -/
def LowerHex (b : UInt8) : Prop := (0x30 ≤ b ∧ b ≤ 0x39) ∨ (0x61 ≤ b ∧ b ≤ 0x66)

instance (b : UInt8) : Decidable (LowerHex b) := inferInstanceAs (Decidable (_ ∨ _))

/-- Groups of 8, 4, 4, 4 and 12 lowercase hex digits with dashes between them, not all of them zero. -/
def Canonical (s : List UInt8) : Prop :=
  ∃ a b c d e : List UInt8, s = a ++ [0x2D] ++ b ++ [0x2D] ++ c ++ [0x2D] ++ d ++ [0x2D] ++ e ∧
    (a.length = 8 ∧ b.length = 4 ∧ c.length = 4 ∧ d.length = 4 ∧ e.length = 12) ∧
    (∀ x ∈ a ++ b ++ c ++ d ++ e, LowerHex x) ∧ ∃ x ∈ a ++ b ++ c ++ d ++ e, x ≠ 0x30

/-! ### One byte, two digits -/

section Digits
variable {b n m : UInt8}

theorem digit_eq (h : n.toNat < 16) : ∃ k : Fin 16, n = UInt8.ofNat k :=
  ⟨⟨n.toNat, h⟩, (UInt8.ofNat_toNat).symm⟩

theorem lowerHex_hexDigit (h : n.toNat < 16) : LowerHex (hexDigit n) := by
  have hall : ∀ k : Fin 16, LowerHex (hexDigit (UInt8.ofNat k)) := by decide
  obtain ⟨k, rfl⟩ := digit_eq h
  exact hall k

theorem hexValue_hexDigit (h : n.toNat < 16) : hexValue (hexDigit n) = some n := by
  have hall : ∀ k : Fin 16, hexValue (hexDigit (UInt8.ofNat k)) = some (UInt8.ofNat k) := by decide
  obtain ⟨k, rfl⟩ := digit_eq h
  exact hall k

theorem hexDigit_eq_zero (h : n.toNat < 16) : hexDigit n = 0x30 ↔ n = 0 := by
  have hall : ∀ k : Fin 16, hexDigit (UInt8.ofNat k) = 0x30 ↔ UInt8.ofNat k = 0 := by decide
  obtain ⟨k, rfl⟩ := digit_eq h
  exact hall k

theorem LowerHex.digit (h : LowerHex b) : ∃ n : UInt8, n.toNat < 16 ∧ hexDigit n = b := by
  have hdecimal : ∀ k : Fin 10, hexDigit (UInt8.ofNat k) = UInt8.ofNat (0x30 + k) := by decide
  have hletter : ∀ k : Fin 6, hexDigit (UInt8.ofNat (10 + k)) = UInt8.ofNat (0x61 + k) := by decide
  simp only [LowerHex, UInt8.le_iff_toNat_le, UInt8.reduceToNat] at h
  cases h with
  | inl h =>
    have hb := hdecimal ⟨b.toNat - 0x30, by omega⟩
    rw [Nat.add_sub_cancel' h.1, UInt8.ofNat_toNat] at hb
    exact ⟨_, by simp; omega, hb⟩
  | inr h =>
    have hb := hletter ⟨b.toNat - 0x61, by omega⟩
    rw [Nat.add_sub_cancel' h.1, UInt8.ofNat_toNat] at hb
    exact ⟨_, by simp; omega, hb⟩

theorem high_lt (b : UInt8) : (b / 16).toNat < 16 := by
  have hb := b.toNat_lt
  simp
  omega

theorem low_lt (b : UInt8) : (b % 16).toNat < 16 := by
  simp
  omega

theorem high_low (b : UInt8) : b / 16 * 16 + b % 16 = b := by
  apply UInt8.toNat_inj.mp
  have hb := b.toNat_lt
  simp
  omega

theorem halves (hn : n.toNat < 16) (hm : m.toNat < 16) : (n * 16 + m) / 16 = n ∧ (n * 16 + m) % 16 = m := by
  constructor <;> apply UInt8.toNat_inj.mp <;> simp <;> omega

end Digits

/-! ### Runs of digits -/

theorem length_hexOf (bs : List UInt8) : (hexOf bs).length = 2 * bs.length := by
  induction bs with
  | nil => rfl
  | cons b bs ih =>
    simp only [hexOf, List.flatMap_cons, List.length_append, List.length_cons, List.length_nil] at ih ⊢
    omega

theorem hexOf_append (bs cs : List UInt8) : hexOf (bs ++ cs) = hexOf bs ++ hexOf cs := List.flatMap_append

theorem lowerHex_of_mem_hexOf {bs : List UInt8} {x : UInt8} (h : x ∈ hexOf bs) : LowerHex x := by
  obtain ⟨b, _, hx⟩ := List.mem_flatMap.mp h
  simp only [List.mem_cons, List.not_mem_nil, or_false] at hx
  cases hx with
  | inl hx => exact hx ▸ lowerHex_hexDigit (high_lt b)
  | inr hx => exact hx ▸ lowerHex_hexDigit (low_lt b)

theorem hexOf_zero_iff (bs : List UInt8) : (∀ x ∈ hexOf bs, x = 0x30) ↔ ∀ b ∈ bs, b = 0 := by
  simp only [hexOf, List.mem_flatMap, List.mem_cons, List.not_mem_nil, or_false]
  constructor
  · intro h b hb
    have hhigh := (hexDigit_eq_zero (high_lt b)).mp (h _ ⟨b, hb, .inl rfl⟩)
    have hlow := (hexDigit_eq_zero (low_lt b)).mp (h _ ⟨b, hb, .inr rfl⟩)
    have hb := high_low b
    rw [hhigh, hlow] at hb
    exact hb.symm
  · rintro h x ⟨b, hb, hx⟩
    rw [h b hb] at hx
    cases hx with
    | inl hx => exact hx
    | inr hx => exact hx

theorem exists_hexOf (k : ℕ) (s : List UInt8) (hlen : s.length = 2 * k) (hs : ∀ x ∈ s, LowerHex x) :
    ∃ bs : List UInt8, bs.length = k ∧ hexOf bs = s := by
  induction k generalizing s with
  | zero => exact ⟨[], rfl, (List.length_eq_zero_iff.mp hlen).symm⟩
  | succ k ih =>
    match s, hlen with
    | x :: y :: s, hlen =>
      obtain ⟨n, hn, hx⟩ := (hs x (by simp)).digit
      obtain ⟨m, hm, hy⟩ := (hs y (by simp)).digit
      have hrest : s.length = 2 * k := by
        simp only [List.length_cons] at hlen
        omega
      obtain ⟨bs, hbs, hhex⟩ := ih s hrest fun z hz => hs z (by simp [hz])
      refine ⟨(n * 16 + m) :: bs, by simp [hbs], ?_⟩
      have hhalves := halves hn hm
      have hcons : hexOf ((n * 16 + m) :: bs) = [hexDigit n, hexDigit m] ++ hexOf bs := by
        simp only [hexOf, List.flatMap_cons, hhalves.1, hhalves.2]
      rw [hcons, hhex, hx, hy]
      rfl

/-! ### Printing and parsing -/

theorem hexOf_take (k : ℕ) (bs : List UInt8) : hexOf (bs.take k) = (hexOf bs).take (2 * k) := by
  induction bs generalizing k with
  | nil => simp [hexOf]
  | cons b bs ih =>
    cases k with
    | zero => simp [hexOf]
    | succ k =>
      simp only [hexOf, List.take_succ_cons, List.flatMap_cons, Nat.mul_succ, List.cons_append, List.nil_append] at ih ⊢
      rw [ih]

theorem hexOf_drop (k : ℕ) (bs : List UInt8) : hexOf (bs.drop k) = (hexOf bs).drop (2 * k) := by
  induction bs generalizing k with
  | nil => simp [hexOf]
  | cons b bs ih =>
    cases k with
    | zero => simp [hexOf]
    | succ k =>
      simp only [hexOf, List.drop_succ_cons, List.flatMap_cons, Nat.mul_succ, List.cons_append, List.nil_append] at ih ⊢
      rw [ih]

theorem groups_append (u : List UInt8) :
    u.take 4 ++ (u.drop 4).take 2 ++ (u.drop 6).take 2 ++ (u.drop 8).take 2 ++ u.drop 10 = u := by
  have hten : (u.drop 8).take 2 ++ u.drop 10 = u.drop 8 := by simpa using List.take_append_drop 2 (u.drop 8)
  have height : (u.drop 6).take 2 ++ u.drop 8 = u.drop 6 := by simpa using List.take_append_drop 2 (u.drop 6)
  have hsix : (u.drop 4).take 2 ++ u.drop 6 = u.drop 4 := by simpa using List.take_append_drop 2 (u.drop 4)
  rw [List.append_assoc, hten, List.append_assoc, height, List.append_assoc, hsix, List.take_append_drop]

theorem canonical_print {u : List UInt8} (hlen : u.length = 16) (hu : u ≠ nil) : Canonical (print u) := by
  have hall : hexOf (u.take 4) ++ hexOf ((u.drop 4).take 2) ++ hexOf ((u.drop 6).take 2) ++
      hexOf ((u.drop 8).take 2) ++ hexOf (u.drop 10) = hexOf u := by
    rw [← hexOf_append, ← hexOf_append, ← hexOf_append, ← hexOf_append, groups_append]
  refine ⟨_, _, _, _, _, print_eq u, ?_, ?_, ?_⟩
  · simp only [length_hexOf, List.length_take, List.length_drop]
    omega
  · rw [hall]
    intro x hx
    exact lowerHex_of_mem_hexOf hx
  · rw [hall]
    by_contra hzero
    have hzero : ∀ x ∈ hexOf u, x = 0x30 := by
      intro x hx
      by_contra hne
      exact hzero ⟨x, hx, hne⟩
    exact hu (List.eq_replicate_iff.mpr ⟨hlen, (hexOf_zero_iff u).mp hzero⟩)

theorem Canonical.print {s : List UInt8} (h : Canonical s) :
    ∃ u : List UInt8, u.length = 16 ∧ u ≠ nil ∧ UUID.print u = s := by
  obtain ⟨a, b, c, d, e, rfl, ⟨ha, hb, hc, hd, he⟩, hlower, x, hx, hne⟩ := h
  have hlen : (a ++ b ++ c ++ d ++ e).length = 2 * 16 := by
    simp only [List.length_append]
    omega
  obtain ⟨u, hu, hhex⟩ := exists_hexOf 16 _ hlen hlower
  refine ⟨u, hu, ?_, ?_⟩
  · intro hnil
    rw [← hhex] at hx
    refine hne ((hexOf_zero_iff u).mpr ?_ x hx)
    intro z hz
    rw [hnil] at hz
    exact (List.mem_replicate.mp hz).2
  · simp only [print_eq, hexOf_take, hexOf_drop, hhex]
    simp (disch := omega) [List.drop_append, List.drop_eq_nil_of_le, ha, hb, hc]

theorem parse_print {u : List UInt8} (hlen : u.length = 16) : parse (print u) = some u := by
  match u, hlen with
  | [b₀, b₁, b₂, b₃, b₄, b₅, b₆, b₇, b₈, b₉, b₁₀, b₁₁, b₁₂, b₁₃, b₁₄, b₁₅], _ =>
    have hhigh : ∀ b : UInt8, hexValue (hexDigit (b / 16)) = some (b / 16) := fun b => hexValue_hexDigit (high_lt b)
    have hlow : ∀ b : UInt8, hexValue (hexDigit (b % 16)) = some (b % 16) := fun b => hexValue_hexDigit (low_lt b)
    simp [parse, parseDashed, offsets, xtob, print, hhigh, hlow, high_low]

theorem length_of_mapM {α β : Type} {f : α → Option β} {l : List α} {r : List β} (h : l.mapM f = some r) :
    r.length = l.length := by
  induction l generalizing r with
  | nil =>
    cases h
    rfl
  | cons a l ih =>
    rw [List.mapM_cons] at h
    obtain ⟨b, _, h⟩ := Option.bind_eq_some_iff.mp h
    obtain ⟨bs, hbs, h⟩ := Option.bind_eq_some_iff.mp h
    cases h
    simp [ih hbs]

theorem length_of_parseDashed {s u : List UInt8} (h : parseDashed s = some u) : u.length = 16 := by
  unfold parseDashed at h
  split at h
  · exact length_of_mapM h
  · cases h

theorem length_of_parse {s u : List UInt8} (h : parse s = some u) : u.length = 16 := by
  unfold parse at h
  by_cases hplain : s.length = 36
  · rw [if_pos hplain] at h
    exact length_of_parseDashed h
  rw [if_neg hplain] at h
  by_cases hurn : s.length = 45
  · rw [if_pos hurn] at h
    split at h
    · exact length_of_parseDashed h
    · cases h
  rw [if_neg hurn] at h
  by_cases hbraced : s.length = 38
  · rw [if_pos hbraced] at h
    exact length_of_parseDashed h
  rw [if_neg hbraced] at h
  split at h
  · exact length_of_mapM h
  · cases h

/-- The round trip through the printer narrows the parser to the canonical form. -/
theorem canonical_iff {s : List UInt8} : Canonical s ↔ ∃ u, parse s = some u ∧ u ≠ nil ∧ UUID.print u = s := by
  constructor
  · intro h
    obtain ⟨u, hlen, hu, hprint⟩ := h.print
    have hparse := parse_print hlen
    rw [hprint] at hparse
    exact ⟨u, hparse, hu, hprint⟩
  · rintro ⟨u, hparse, hu, hprint⟩
    rw [← hprint]
    exact canonical_print (length_of_parse hparse) hu

end UUID

/-- `ValidateSandboxID` on the bytes of a string, which need not be valid UTF-8. -/
def validateSandboxIDBytes (bytes : List UInt8) : Except Err Unit :=
  if (bytesOf sandboxIDPrefix).isPrefixOf bytes then
    let uid := bytes.drop (bytesOf sandboxIDPrefix).length
    match UUID.parse uid with
    | none => .error (.sentinel .invalidSandboxID)
    | some v =>
      if v == UUID.nil || UUID.print v != uid then .error (.sentinel .invalidSandboxID) else .ok ()
  else .error (.sentinel .invalidSandboxID)

theorem validateSandboxID_bytes (id : String) : validateSandboxID id = validateSandboxIDBytes (bytesOf id) := rfl

theorem validateSandboxIDBytes_iff {bytes : List UInt8} :
    validateSandboxIDBytes bytes = .ok () ↔ ∃ uid, bytes = bytesOf sandboxIDPrefix ++ uid ∧ UUID.Canonical uid := by
  have hbody : ∀ uid : List UInt8, validateSandboxIDBytes (bytesOf sandboxIDPrefix ++ uid) = .ok () ↔
      UUID.Canonical uid := by
    intro uid
    have hprefix : (bytesOf sandboxIDPrefix).isPrefixOf (bytesOf sandboxIDPrefix ++ uid) = true :=
      List.isPrefixOf_iff_prefix.mpr (List.prefix_append _ _)
    rw [UUID.canonical_iff, validateSandboxIDBytes, if_pos hprefix, List.drop_left]
    cases hparse : UUID.parse uid with
    | none => simp [hparse]
    | some v =>
      by_cases hv : v = UUID.nil
      · simp [hparse, hv]
      · simp [hparse, hv]
  constructor
  · intro h
    by_cases hprefix : (bytesOf sandboxIDPrefix).isPrefixOf bytes = true
    · obtain ⟨uid, rfl⟩ := List.isPrefixOf_iff_prefix.mp hprefix
      exact ⟨uid, rfl, (hbody uid).mp h⟩
    · rw [validateSandboxIDBytes, if_neg hprefix] at h
      cases h
  · rintro ⟨uid, rfl, huid⟩
    exact (hbody uid).mpr huid

/-- The UUID an id denotes. -/
def uuidOf (bytes : List UInt8) : Option (List UInt8) := UUID.parse (bytes.drop (bytesOf sandboxIDPrefix).length)

theorem uuidOf_append (uid : List UInt8) : uuidOf (bytesOf sandboxIDPrefix ++ uid) = UUID.parse uid := by
  rw [uuidOf, List.drop_left]

theorem bytesOf_injective {s t : String} (h : bytesOf s = bytesOf t) : s = t := by
  have hutf8 : ∀ r : String, (bytesOf r).toByteArray = r.toByteArray := fun r => String.utf8Encode_toList
  apply String.toByteArray_inj.mp
  rw [← hutf8, ← hutf8, h]

theorem bytes_eq_of_uuid {bytes bytes' : List UInt8} (h : validateSandboxIDBytes bytes = .ok ())
    (h' : validateSandboxIDBytes bytes' = .ok ()) (huuid : uuidOf bytes = uuidOf bytes') : bytes = bytes' := by
  obtain ⟨uid, rfl, hcan⟩ := validateSandboxIDBytes_iff.mp h
  obtain ⟨uid', rfl, hcan'⟩ := validateSandboxIDBytes_iff.mp h'
  obtain ⟨u, hparse, _, hprint⟩ := UUID.canonical_iff.mp hcan
  obtain ⟨u', hparse', _, hprint'⟩ := UUID.canonical_iff.mp hcan'
  rw [uuidOf_append, uuidOf_append, hparse, hparse'] at huuid
  rw [← hprint, ← hprint', Option.some.inj huuid]

/-- **The grammar of sandbox ids**: `sbx_` before the canonical form of a UUID that is not all zeros, which the id
denotes and no other id does. -/
theorem sandboxID_grammar (bytes : List UInt8) :
    (validateSandboxIDBytes bytes = .ok () ↔ ∃ uid, bytes = bytesOf sandboxIDPrefix ++ uid ∧ UUID.Canonical uid) ∧
    (validateSandboxIDBytes bytes = .ok () → ∃ u : List UInt8, u.length = 16 ∧ u ≠ UUID.nil ∧
      uuidOf bytes = some u ∧ bytes = bytesOf sandboxIDPrefix ++ UUID.print u) ∧
    (∀ bytes', validateSandboxIDBytes bytes = .ok () → validateSandboxIDBytes bytes' = .ok () →
      uuidOf bytes = uuidOf bytes' → bytes = bytes') ∧
    ∀ id : String, validateSandboxID id = validateSandboxIDBytes (bytesOf id) ∧
      ∀ id', bytesOf id = bytesOf id' → id = id' := by
  refine ⟨validateSandboxIDBytes_iff, ?_, fun bytes' h h' => bytes_eq_of_uuid h h', ?_⟩
  · intro h
    obtain ⟨uid, rfl, hcan⟩ := validateSandboxIDBytes_iff.mp h
    obtain ⟨u, hparse, hu, hprint⟩ := UUID.canonical_iff.mp hcan
    refine ⟨u, UUID.length_of_parse hparse, hu, ?_, ?_⟩
    · rw [uuidOf_append, hparse]
    · rw [hprint]
  · intro id
    exact ⟨validateSandboxID_bytes id, fun id' => bytesOf_injective⟩

end Quickspin
