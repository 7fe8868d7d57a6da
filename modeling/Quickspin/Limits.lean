import Quickspin.Docker
import Mathlib.Data.Nat.Digits.Defs
import Mathlib.Algebra.Order.Floor.Ring
import Mathlib.Data.Rat.Floor

/-! Limits from text to the daemon. The memory grammar is stated apart from the parser, as numbers and
units over ℤ; the parser agrees with it wherever a negative product does not wrap. The limits a spec
resolves to reach the daemon unchanged wherever the cores fit into a count of nanoseconds. -/
namespace Quickspin
set_option autoImplicit false

/-! ## The grammar -/

/-- Decimal digits and the number they write. -/
def Digits (ds : List Char) (n : ℕ) : Prop :=
  ds ≠ [] ∧ (∀ d ∈ ds, d.isDigit = true) ∧ n = Nat.ofDigits 10 (ds.reverse.map fun d => d.toNat - '0'.toNat)

/-- Digits with an optional sign. -/
inductive Signed : List Char → ℤ → Prop
  | bare {ds : List Char} {n : ℕ} (h : Digits ds n) : Signed ds n
  | plus {ds : List Char} {n : ℕ} (h : Digits ds n) : Signed ('+' :: ds) n
  | minus {ds : List Char} {n : ℕ} (h : Digits ds n) : Signed ('-' :: ds) (-n)

/-- The optional unit and what it multiplies by. -/
inductive Suffix : List Char → ℤ → Prop
  | none : Suffix [] 1
  | bytes : Suffix ['b'] 1
  | kibi : Suffix ['k'] (2 ^ 10)
  | mebi : Suffix ['m'] (2 ^ 20)
  | gibi : Suffix ['g'] (2 ^ 30)

/-- Trimmed and lowercased, the text is the number `n` with the unit. -/
def MemoryText (v : String) (n unit : ℤ) : Prop :=
  ∃ number suffix, trimSpace (v.toList.map lowerChar) = number ++ suffix ∧ Signed number n ∧ Suffix suffix unit

/-! ## Reading numbers -/

theorem foldl_digits (ds : List Char) (acc : ℕ) :
    ds.foldl (fun n d => 10 * n + (d.toNat - '0'.toNat)) acc =
      Nat.ofDigits 10 (ds.reverse.map fun d => d.toNat - '0'.toNat) + 10 ^ ds.length * acc := by
  induction ds generalizing acc with
  | nil => simp
  | cons d ds ih =>
    rw [List.foldl_cons, ih, List.reverse_cons, List.map_append, Nat.ofDigits_append]
    simp only [List.length_map, List.length_reverse, List.map_cons, List.map_nil, Nat.ofDigits_singleton,
      List.length_cons, pow_succ]
    ring

theorem digitsValue_eq_some_iff {ds : List Char} {n : ℕ} : digitsValue ds = some n ↔ Digits ds n := by
  cases ds with
  | nil => simp [digitsValue, Digits]
  | cons d ds =>
    have hfold := foldl_digits (d :: ds) 0
    rw [Nat.mul_zero, Nat.add_zero] at hfold
    unfold digitsValue Digits
    dsimp only
    rw [hfold]
    by_cases hall : (d :: ds).all Char.isDigit = true
    · rw [if_pos hall, Option.some.injEq]
      rw [List.all_eq_true] at hall
      exact ⟨fun h => ⟨List.cons_ne_nil d ds, hall, h.symm⟩, fun h => h.2.2.symm⟩
    · rw [if_neg hall]
      rw [List.all_eq_true] at hall
      exact ⟨fun h => (nomatch h), fun h => absurd h.2.1 hall⟩

/-- A sign is no digit, so a text has one reading. -/
theorem parseInt_of_signed {s : List Char} {n : ℤ} (h : Signed s n) :
    (-9223372036854775808 ≤ n ∧ n < 9223372036854775808 → parseInt s = some (Int64.ofInt n)) ∧
      (¬(-9223372036854775808 ≤ n ∧ n < 9223372036854775808) → parseInt s = none) := by
  have hread : parseInt s = if -2 ^ 63 ≤ n ∧ n < 2 ^ 63 then some (Int64.ofInt n) else none := by
    cases h with
    | bare h =>
      have hplus : ∀ ds, s ≠ '+' :: ds := by
        rintro ds rfl
        exact absurd (h.2.1 '+' (List.mem_cons_self ..)) (by decide)
      have hminus : ∀ ds, s ≠ '-' :: ds := by
        rintro ds rfl
        exact absurd (h.2.1 '-' (List.mem_cons_self ..)) (by decide)
      rw [parseInt_bare hplus hminus, digitsValue_eq_some_iff.mpr h, Option.map_some, Option.bind_some]
    | plus h => rw [parseInt_plus, digitsValue_eq_some_iff.mpr h, Option.map_some, Option.bind_some]
    | minus h => rw [parseInt_minus, digitsValue_eq_some_iff.mpr h, Option.map_some, Option.bind_some]
  rw [hread]
  constructor
  · intro hfits
    rw [if_pos (fits_iff.mpr hfits)]
  · intro hfits
    rw [if_neg fun h => hfits (fits_iff.mp h)]

theorem signed_of_parseInt {s : List Char} {r : Int64} (h : parseInt s = some r) : ∃ n, Signed s n := by
  unfold parseInt at h
  dsimp only at h
  obtain ⟨v, hv, -⟩ := Option.bind_eq_some_iff.mp h
  split at hv
  · next ds =>
    obtain ⟨n, hn, rfl⟩ := Option.map_eq_some_iff.mp hv
    exact ⟨n, .plus (digitsValue_eq_some_iff.mp hn)⟩
  · next ds =>
    obtain ⟨n, hn, rfl⟩ := Option.map_eq_some_iff.mp hv
    exact ⟨-n, .minus (digitsValue_eq_some_iff.mp hn)⟩
  · obtain ⟨n, hn, rfl⟩ := Option.map_eq_some_iff.mp hv
    exact ⟨n, .bare (digitsValue_eq_some_iff.mp hn)⟩

/-! ## Reading limits -/

/-- What a unit is as a 64-bit number, and what the guard divides to. -/
theorem Suffix.multiplier {suffix : List Char} {unit : ℤ} (h : Suffix suffix unit) :
    0 < unit ∧ unit ≤ 1073741824 ∧ (Int64.ofInt unit).toInt = unit ∧
      (((1 : Int64) <<< 62) / Int64.ofInt unit).toInt = 4611686018427387904 / unit := by
  cases h <;> decide

theorem memoryUnits_suffix {c : Char} {unit : Int64} (h : memoryUnits c = some unit) : Suffix [c] unit.toInt := by
  unfold memoryUnits at h
  split at h <;> cases h
  · exact .bytes
  · exact .kibi
  · exact .mebi
  · exact .gibi

theorem digit_memoryUnits {c : Char} (h : c.isDigit = true) : memoryUnits c = none := by
  unfold memoryUnits
  split <;> first | rfl | (exact absurd h (by decide))

theorem Signed.last {s : List Char} {n : ℤ} (h : Signed s n) : ∃ init d, s = init ++ [d] ∧ d.isDigit = true := by
  have hdigits : ∀ {ds : List Char} {n : ℕ}, Digits ds n → ∃ init d, ds = init ++ [d] ∧ d.isDigit = true := by
    intro ds n h
    refine ⟨ds.dropLast, ds.getLast h.1, (List.dropLast_append_getLast h.1).symm, ?_⟩
    exact h.2.1 _ (List.getLast_mem h.1)
  cases h with
  | bare h => exact hdigits h
  | plus h =>
    obtain ⟨init, d, rfl, hd⟩ := hdigits h
    exact ⟨'+' :: init, d, rfl, hd⟩
  | minus h =>
    obtain ⟨init, d, rfl, hd⟩ := hdigits h
    exact ⟨'-' :: init, d, rfl, hd⟩

/-- The parser takes a text apart as the grammar does. -/
theorem parseMemory_of_split {v : String} {number suffix : List Char} {n unit : ℤ}
    (ht : trimSpace (v.toList.map lowerChar) = number ++ suffix) (hn : Signed number n) (hs : Suffix suffix unit) :
    parseMemory v = match parseInt number with
      | none => .error s!"invalid memory limit {v.quote}: expected a whole number with an optional b/k/m/g suffix"
      | some n =>
        if n > ((1 : Int64) <<< 62) / Int64.ofInt unit then .error s!"invalid memory limit {v.quote}: too large"
        else .ok (n * Int64.ofInt unit) := by
  obtain ⟨init, d, rfl, hd⟩ := hn.last
  have hdigit := digit_memoryUnits hd
  unfold parseMemory
  rw [ht]
  cases hs with
  | none =>
    dsimp only
    rw [List.append_nil, List.getLast?_append, List.getLast?_singleton]
    dsimp only [Option.some_or]
    rw [hdigit]
    rfl
  | bytes | kibi | mebi | gibi =>
    dsimp only
    rw [List.getLast?_append, List.getLast?_singleton, List.dropLast_concat]
    rfl

section Text
variable {v : String} {n unit : ℤ}

theorem parseMemory_accepts (h : MemoryText v n unit) (hn : -9223372036854775808 ≤ n)
    (hcap : n ≤ 4611686018427387904 / unit) : parseMemory v = .ok (Int64.ofInt n * Int64.ofInt unit) := by
  obtain ⟨number, suffix, ht, hsigned, hsuffix⟩ := h
  obtain ⟨hpos, hle, -, hguard⟩ := hsuffix.multiplier
  have hcap' : 4611686018427387904 / unit ≤ 4611686018427387904 := Int.ediv_le_self _ (by decide)
  have hfits : -9223372036854775808 ≤ n ∧ n < 9223372036854775808 := ⟨hn, by omega⟩
  have hint : (Int64.ofInt n).toInt = n := Int64.toInt_ofInt_of_le (by omega) (by omega)
  rw [parseMemory_of_split ht hsigned hsuffix, (parseInt_of_signed hsigned).1 hfits]
  dsimp only
  rw [if_neg]
  rw [gt_iff_lt, Int64.lt_iff_toInt_lt, hguard, hint]
  omega

theorem parseMemory_refuses (h : MemoryText v n unit)
    (hn : n < -9223372036854775808 ∨ 4611686018427387904 / unit < n) : ∃ text, parseMemory v = .error text := by
  obtain ⟨number, suffix, ht, hsigned, hsuffix⟩ := h
  obtain ⟨hpos, hle, -, hguard⟩ := hsuffix.multiplier
  rw [parseMemory_of_split ht hsigned hsuffix]
  by_cases hfits : -9223372036854775808 ≤ n ∧ n < 9223372036854775808
  · have hint : (Int64.ofInt n).toInt = n := Int64.toInt_ofInt_of_le (by omega) (by omega)
    rw [(parseInt_of_signed hsigned).1 hfits]
    dsimp only
    rw [if_pos]
    · exact ⟨_, rfl⟩
    · rw [gt_iff_lt, Int64.lt_iff_toInt_lt, hguard, hint]
      omega
  · rw [(parseInt_of_signed hsigned).2 hfits]
    exact ⟨_, rfl⟩

theorem memoryText_of_parseMemory {r : Int64} (h : parseMemory v = .ok r) : ∃ n unit, MemoryText v n unit := by
  unfold parseMemory at h
  dsimp only at h
  generalize ht : trimSpace (v.toList.map lowerChar) = trimmed at h
  cases hlast : trimmed.getLast? with
  | none =>
    rw [hlast] at h
    cases h
  | some last =>
    rw [hlast] at h
    dsimp only at h
    have hinit : trimmed = trimmed.dropLast ++ [last] := (List.dropLast_append_getLast? last hlast).symm
    cases hunit : memoryUnits last with
    | none =>
      rw [hunit] at h
      dsimp only at h
      cases hint : parseInt trimmed with
      | none =>
        rw [hint] at h
        cases h
      | some m =>
        obtain ⟨n, hn⟩ := signed_of_parseInt hint
        exact ⟨n, 1, trimmed, [], by rw [ht, List.append_nil], hn, .none⟩
    | some unit =>
      rw [hunit] at h
      dsimp only at h
      cases hint : parseInt trimmed.dropLast with
      | none =>
        rw [hint] at h
        cases h
      | some m =>
        obtain ⟨n, hn⟩ := signed_of_parseInt hint
        exact ⟨n, unit.toInt, trimmed.dropLast, [last], by rw [ht, ← hinit], hn, memoryUnits_suffix hunit⟩

theorem product_toInt (h : MemoryText v n unit) :
    (Int64.ofInt n * Int64.ofInt unit).toInt = (n * unit).bmod (2 ^ 64) := by
  obtain ⟨number, suffix, -, -, hsuffix⟩ := h
  obtain ⟨-, -, hunit, -⟩ := hsuffix.multiplier
  rw [Int64.toInt_mul, hunit, Int64.toInt_ofInt, Int.bmod_mul_bmod]
  rfl

/-! ## Memory limits -/

/-- The parser reads the text as the grammar does: what it accepts is the exact product, every text that is not of
the grammar or whose product has no 64-bit form is refused, and no spec with a negative limit is accepted. -/
structure ParsesExactly (v : String) : Prop where
  accepted : ∀ r, parseMemory v = .ok r →
    (∃ n unit, MemoryText v n unit) ∧ ∀ n unit, MemoryText v n unit → r.toInt = n * unit
  refused : (∀ n unit, MemoryText v n unit → ¬(-2 ^ 63 ≤ n * unit ∧ n * unit < 2 ^ 63)) →
    ∃ text, parseMemory v = .error text
  negative : ∀ n unit, MemoryText v n unit → n < 0 →
    ∀ s : SpecFile, s.memory = some v → ∃ err, s.resolveValidated = .error err

theorem memoryLimit_ge {r : Runtime.Spec} (h : r.validate = .ok ()) : 6291456 ≤ r.memoryLimit.toInt := by
  have hlow : ¬r.memoryLimit < Runtime.MinMemoryLimit := by
    intro hlt
    simp only [Runtime.Spec.validate, hlt, if_true] at h
    split at h
    · cases h
    · split at h <;> cases h
  rw [Int64.lt_iff_toInt_lt] at hlow
  have hmin : Runtime.MinMemoryLimit.toInt = 6291456 := by decide
  omega

theorem resolveValidated_memory {s : SpecFile} {r : Runtime.Spec} (h : s.resolveValidated = .ok r) :
    parseMemory (s.memory.getD DefaultMemory) = .ok r.memoryLimit ∧ r.validate = .ok () := by
  refine ⟨?_, SpecFile.validate_of_resolveValidated h⟩
  unfold SpecFile.resolveValidated SpecFile.resolve at h
  cases hm : parseMemory (s.memory.getD DefaultMemory) with
  | error text =>
    rw [hm] at h
    cases h
  | ok bytes =>
    rw [hm] at h
    dsimp only at h
    split at h
    · cases h
    · obtain rfl := Except.ok.inj h
      rfl

/-- **Memory limits parse exactly** if and only if no 64-bit number of units has a product below the 64-bit range:
the guard before the multiplication looks at the upper end only. -/
theorem memory_limits_exact (v : String) : ParsesExactly v ↔
    ∀ n unit, MemoryText v n unit → -2 ^ 63 ≤ n → -2 ^ 63 ≤ n * unit := by
  constructor
  · intro h n unit htext hn
    by_contra hlow
    have hunit : 0 < unit := by
      obtain ⟨_, _, -, -, hsuffix⟩ := htext
      exact hsuffix.multiplier.1
    have hneg : n < 0 := by
      by_contra hn0
      have := Int.mul_nonneg (Int.not_lt.mp hn0) hunit.le
      omega
    have hcap : n ≤ 4611686018427387904 / unit := by
      have := Int.ediv_nonneg (a := 4611686018427387904) (by decide) hunit.le
      omega
    have hok := parseMemory_accepts htext (by omega) hcap
    have hexact := (h.accepted _ hok).2 n unit htext
    have hle := Int64.le_toInt (Int64.ofInt n * Int64.ofInt unit)
    omega
  · intro h
    have hexact : ∀ r, parseMemory v = .ok r → ∀ n unit, MemoryText v n unit → r.toInt = n * unit := by
      intro r hr n unit htext
      have hin : -9223372036854775808 ≤ n ∧ n ≤ 4611686018427387904 / unit := by
        by_contra hout
        obtain ⟨text, he⟩ := parseMemory_refuses htext (by omega)
        rw [hr] at he
        cases he
      have hok := parseMemory_accepts htext hin.1 hin.2
      rw [hr] at hok
      obtain rfl := Except.ok.inj hok
      have hlow := h n unit htext (by omega)
      have hhigh : n * unit ≤ 4611686018427387904 := by
        obtain ⟨_, _, -, -, hsuffix⟩ := htext
        exact (Int.le_ediv_iff_mul_le hsuffix.multiplier.1).mp hin.2
      rw [product_toInt htext]
      exact Int.bmod_eq_of_le (by omega) (by omega)
    refine ⟨fun r hr => ⟨memoryText_of_parseMemory hr, hexact r hr⟩, fun hout => ?_, fun n unit htext hneg s hs => ?_⟩
    · cases hv : parseMemory v with
      | error text => exact ⟨text, rfl⟩
      | ok r =>
        obtain ⟨n, unit, htext⟩ := memoryText_of_parseMemory hv
        have hr := hexact r hv n unit htext
        have hle := r.le_toInt
        have hlt := r.toInt_lt
        exact absurd ⟨by omega, by omega⟩ (hout n unit htext)
    · cases hr : s.resolveValidated with
      | error err => exact ⟨err, rfl⟩
      | ok r =>
        obtain ⟨hparsed, hvalid⟩ := resolveValidated_memory hr
        rw [hs] at hparsed
        have hprod := hexact _ hparsed n unit htext
        have hge := memoryLimit_ge hvalid
        obtain ⟨_, _, -, -, hsuffix⟩ := htext
        have := Int.mul_neg_of_neg_of_pos hneg hsuffix.multiplier.1
        omega

end Text

/-- A large negative number of kibibytes is accepted as 6 MiB. -/
theorem memory_limit_wraps : ¬ParsesExactly "-18014398509475840k" ∧
    ({ memory := some "-18014398509475840k" } : SpecFile).resolveValidated.toOption.map (·.memoryLimit) =
      some 6291456 := by
  have hok : ({ memory := some "-18014398509475840k" } : SpecFile).resolveValidated.toOption.map (·.memoryLimit) =
      some 6291456 := by decide +kernel
  have htext : MemoryText "-18014398509475840k" (-18014398509475840) (2 ^ 10) := by
    refine ⟨"-18014398509475840".toList, ['k'], by decide +kernel, ?_, .kibi⟩
    exact .minus (n := 18014398509475840) ⟨by decide, List.all_eq_true.mp (by decide +kernel), by decide +kernel⟩
  refine ⟨fun h => ?_, hok⟩
  obtain ⟨err, herr⟩ := h.negative _ _ htext (by decide) { memory := some "-18014398509475840k" } rfl
  rw [herr] at hok
  cases hok

/-! ## Limits at the daemon -/

/-- The machine's conversion is exact where the truncated product has a 64-bit form. -/
def Docker.Host.Exact (host : Docker.Host) : Prop :=
  ∀ q : ℚ, 0 ≤ q → ⌊q * 1000000000⌋ < 2 ^ 63 → (host.nanoCPUs (.finite q)).toInt = ⌊q * 1000000000⌋

/-- The container of a sandbox whose spec `s` resolved to `r`, with `q` cores, is created under the limits of `r`, and
without a network unless `s` asks for one. -/
def Enforced (host : Docker.Host) (s : SpecFile) (r : Runtime.Spec) (q : ℚ) (id : String) : Prop :=
  ∃ config hostConfig, Docker.newContainerConfigs host r id = .ok (config, hostConfig) ∧
    (hostConfig.memory = r.memoryLimit ∧ 6291456 ≤ hostConfig.memory.toInt) ∧
    (hostConfig.nanoCPUs.toInt = ⌊q * 1000000000⌋ ∧ 10000000 ≤ hostConfig.nanoCPUs.toInt) ∧
    (∃ pids, hostConfig.pidsLimit = some pids ∧ pids = r.pidsLimit ∧ 1 ≤ pids.toInt) ∧
    (hostConfig.networkMode = "none" ∨ s.allowNetwork = some true)

section Enforced
variable {s : SpecFile} {r : Runtime.Spec} {q : ℚ}

theorem cpuLimit_ge (h : r.validate = .ok ()) (hq : r.cpuLimit = .finite q) : 1 / 100 ≤ q := by
  by_contra hlow
  have hlt : r.cpuLimit.lt Runtime.MinCPULimit = true := by
    rw [hq]
    exact decide_eq_true (not_le.mp hlow)
  simp only [Runtime.Spec.validate, hlt, if_true] at h
  split at h <;> cases h

theorem pidsLimit_ge (h : r.validate = .ok ()) : 1 ≤ r.pidsLimit.toInt := by
  have hlow : ¬r.pidsLimit < 1 := by
    intro hlt
    simp only [Runtime.Spec.validate, hlt, if_true] at h
    split at h
    · cases h
    · split at h
      · cases h
      · split at h <;> cases h
  rw [Int64.lt_iff_toInt_lt] at hlow
  exact not_lt.mp hlow

theorem allowNetwork_of_resolveValidated (h : s.resolveValidated = .ok r) (hr : r.allowNetwork = true) :
    s.allowNetwork = some true := by
  unfold SpecFile.resolveValidated SpecFile.resolve at h
  cases hm : parseMemory (s.memory.getD DefaultMemory) with
  | error text =>
    rw [hm] at h
    cases h
  | ok bytes =>
    rw [hm] at h
    dsimp only at h
    split at h
    · cases h
    · obtain rfl := Except.ok.inj h
      cases hn : s.allowNetwork with
      | none =>
        rw [hn] at hr
        cases hr
      | some b =>
        rw [hn] at hr
        exact congrArg some hr

/-- **Limits are never unlimited** if and only if the cores fit into a 64-bit count of nanoseconds: the validation
bounds them from below only. -/
theorem limits_enforced (host : Docker.Host) (hhost : host.Exact) (h : s.resolveValidated = .ok r)
    (hq : r.cpuLimit = .finite q) (id : String) : Enforced host s r q id ↔ q * 1000000000 < 2 ^ 63 := by
  have hvalid := SpecFile.validate_of_resolveValidated h
  have hmin := cpuLimit_ge hvalid hq
  constructor
  · rintro ⟨config, hostConfig, -, -, ⟨hnano, -⟩, -⟩
    have hlt := hostConfig.nanoCPUs.toInt_lt
    rw [hnano, Int.floor_lt] at hlt
    exact_mod_cast hlt
  · intro hfits
    have hfloor : ⌊q * 1000000000⌋ < 2 ^ 63 := Int.floor_lt.mpr (by exact_mod_cast hfits)
    have hnano : (host.nanoCPUs r.cpuLimit).toInt = ⌊q * 1000000000⌋ := by
      rw [hq]
      exact hhost q (by linarith) hfloor
    have hcores : 10000000 ≤ ⌊q * 1000000000⌋ := Int.le_floor.mpr (by push_cast; linarith)
    refine ⟨_, _, by rw [Docker.newContainerConfigs, hvalid], ⟨rfl, memoryLimit_ge hvalid⟩, ⟨hnano, ?_⟩, ?_, ?_⟩
    · show 10000000 ≤ (host.nanoCPUs r.cpuLimit).toInt
      omega
    · exact ⟨r.pidsLimit, rfl, rfl, pidsLimit_ge hvalid⟩
    · cases hr : r.allowNetwork with
      | false => exact .inl rfl
      | true => exact .inr (allowNetwork_of_resolveValidated h hr)

end Enforced

/-- A host whose conversion answers the least number for what is out of range. -/
def convertingHost : Docker.Host where
  containerRuntime := "runsc"
  nanoCPUs
    | .finite q => if -2 ^ 63 ≤ ⌊q * 1000000000⌋ ∧ ⌊q * 1000000000⌋ < 2 ^ 63 then Int64.ofInt ⌊q * 1000000000⌋ else Int64.minValue
    | _ => Int64.minValue

theorem convertingHost_exact : convertingHost.Exact := by
  intro q hq hlt
  have hpos : 0 ≤ ⌊q * 1000000000⌋ := Int.floor_nonneg.mpr (by positivity)
  show (if _ then _ else _ : Int64).toInt = _
  rw [if_pos ⟨by omega, hlt⟩, Int64.toInt_ofInt_of_le (by omega) hlt]

/-- The theorem at the spec that omits everything. -/
theorem limits_enforced_default :
    ∃ r, ({} : SpecFile).resolveValidated = .ok r ∧ Enforced convertingHost {} r 1 exampleID := by
  obtain ⟨r, hr⟩ := exists_ok_of_isOk (x := ({} : SpecFile).resolveValidated) (by decide +kernel)
  have hq : ({} : SpecFile).resolveValidated.toOption.map (·.cpuLimit) = some (.finite 1) := by decide +kernel
  rw [hr] at hq
  exact ⟨r, hr, (limits_enforced convertingHost convertingHost_exact hr (Option.some.inj hq) exampleID).mpr (by norm_num)⟩

/-- Ten thousand million cores are accepted and reach the daemon as a negative limit. -/
theorem cpu_limit_lost : ∃ r, ({ cpus := some (.finite 10000000000) } : SpecFile).resolveValidated = .ok r ∧
    ¬Enforced convertingHost { cpus := some (.finite 10000000000) } r 10000000000 exampleID ∧
    (Docker.newContainerConfigs convertingHost r exampleID).toOption.map (·.2.nanoCPUs) = some Int64.minValue := by
  obtain ⟨r, hr⟩ := exists_ok_of_isOk (x := ({ cpus := some (.finite 10000000000) } : SpecFile).resolveValidated)
    (by decide +kernel)
  have hnano : ({ cpus := some (.finite 10000000000) } : SpecFile).resolveValidated.toOption.bind
      (fun r => (Docker.newContainerConfigs convertingHost r exampleID).toOption.map (·.2.nanoCPUs)) =
        some Int64.minValue := by decide +kernel
  rw [hr] at hnano
  refine ⟨r, hr, fun h => ?_, hnano⟩
  obtain ⟨config, hostConfig, hok, -, ⟨hfloor, -⟩, -⟩ := h
  have hlt := hostConfig.nanoCPUs.toInt_lt
  rw [hfloor] at hlt
  norm_num at hlt

end Quickspin
