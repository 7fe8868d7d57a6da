import Quickspin.Lifetimes

/-! Durations from the client to the server. The encoders round up to whole seconds, the decoders multiply
back, and the server resolves what arrives. -/
namespace Quickspin
open Interaction
set_option autoImplicit false

/-! ## What arrives -/

/-- The lifetime the server's create handler passes on when the client is called with `ttl`. -/
def createArrives (spec : SpecFile) (ttl : Duration) : Except Err Duration := do
  let body ← Client.createBody spec ttl
  let req ← Api.CreateSandboxRequest.ofJSON body
  return req.ttl

/-- The lifetime the server's keepalive handler passes on. -/
def keepaliveArrives (ttl : Duration) : Except Err Duration := do
  let req ← Api.KeepaliveSandboxRequest.ofJSON (Client.keepaliveBody ttl)
  return req.ttl

/-- The options the server's exec handler passes on. -/
def execArrives (opts : Runtime.ExecOpts) : Except Err Runtime.ExecOpts := do
  let req ← Api.ExecOptions.ofJSON (Client.execOptions opts)
  return req.execOpts

theorem createArrives_eq {spec : SpecFile} {json : Json} (h : spec.toJSON = .ok json) (ttl : Duration) :
    createArrives spec ttl = .ok (Api.ceilSeconds ttl * Duration.second) := by
  obtain ⟨body, hbody⟩ : ∃ body, Client.createBody spec ttl = .ok body :=
    ⟨_, bind_eq_ok.mpr ⟨json, h, rfl⟩⟩
  exact bind_eq_ok.mpr ⟨body, hbody, bind_eq_ok.mpr ⟨_, Api.CreateSandboxRequest.ofJSON_toJSON hbody, rfl⟩⟩

theorem keepaliveArrives_eq (ttl : Duration) :
    keepaliveArrives ttl = .ok ((Api.NewKeepaliveSandboxRequest ttl).ttlSeconds * Duration.second) :=
  bind_eq_ok.mpr ⟨_, Api.KeepaliveSandboxRequest.ofJSON_toJSON _, rfl⟩

theorem execArrives_eq (opts : Runtime.ExecOpts) :
    ∃ o, execArrives opts = .ok o ∧ o.timeout = Api.ceilSeconds opts.timeout * Duration.second := by
  obtain ⟨env, henv, -⟩ := Api.ExecOptions.ofJSON_toJSON (Api.NewExecOptions opts)
  exact ⟨_, bind_eq_ok.mpr ⟨_, henv, rfl⟩, rfl⟩

/-! ## Rounding up -/

/-- `d` nanoseconds rounded up to whole seconds. -/
def wholeSeconds (d : ℤ) : ℤ := (d + 999999999) / 1000000000 * 1000000000

theorem ceilSeconds_nonpos {d : Duration} (h : d.toInt ≤ 0) : Api.ceilSeconds d = 0 := by
  have hd : d ≤ 0 := by
    rw [Int64.le_iff_toInt_le]
    exact h
  simp [Api.ceilSeconds, hd]

/-- The sum that is divided, before it wraps. -/
theorem ceilSeconds_toInt {d : Duration} (h : 0 < d.toInt) :
    (Api.ceilSeconds d).toInt = ((d.toInt + 999999999).bmod (2 ^ 64)).tdiv 1000000000 := by
  have hd : ¬d ≤ 0 := by
    rw [Int64.le_iff_toInt_le, Int64.toInt_zero]
    omega
  have hsum : (d + Duration.second - 1).toInt = (d.toInt + 999999999).bmod (2 ^ 64) := by
    have hone : d.toInt + 1000000000 - (1 : Int64).toInt = d.toInt + 999999999 := by
      rw [show (1 : Int64).toInt = 1 by decide]
      omega
    rw [Int64.toInt_sub, Int64.toInt_add, Int.bmod_sub_bmod, second_toInt, hone]
  rw [Api.ceilSeconds, if_neg hd, Int64.toInt_div_of_ne_right _ _ (by decide), hsum, second_toInt]

/-- Up to a second below the largest duration, the seconds are those of the duration. -/
theorem ceilSeconds_exact {d : Duration} (h₀ : 0 < d.toInt) (h₁ : d.toInt ≤ 9223372035854775808) :
    (Api.ceilSeconds d * Duration.second).toInt = wholeSeconds d.toInt := by
  have hsum : (d.toInt + 999999999).bmod (2 ^ 64) = d.toInt + 999999999 := Int.bmod_eq_of_le (by omega) (by omega)
  rw [mul_second_toInt, ceilSeconds_toInt h₀, hsum, Int.tdiv_eq_ediv_of_nonneg (by omega),
    wrapNanoseconds_of_le (by omega) (by omega), wholeSeconds]

theorem ceilSeconds_overflows {d : Duration} (h : 9223372035854775808 < d.toInt) :
    (Api.ceilSeconds d * Duration.second).toInt < 0 := by
  have hmax := d.toInt_lt
  have hsum : (d.toInt + 999999999).bmod (2 ^ 64) = -(2 ^ 64 - (d.toInt + 999999999)) := by
    rw [← Int.sub_bmod_right]
    refine (Int.bmod_eq_of_le ?_ ?_).trans ?_ <;> omega
  rw [mul_second_toInt, ceilSeconds_toInt (by omega), hsum, Int.neg_tdiv,
    Int.tdiv_eq_ediv_of_nonneg (by omega), wrapNanoseconds_of_le (by omega) (by omega)]
  omega

theorem keepalive_negative {d : Duration} (h : d.toInt < 0) :
    ((Api.NewKeepaliveSandboxRequest d).ttlSeconds * Duration.second).toInt < 0 := by
  have hd : d < 0 := by
    rw [Int64.lt_iff_toInt_lt]
    exact h
  have hmin := d.le_toInt
  have hdiv : (d / Duration.second).toInt = -(-d.toInt / 1000000000) := by
    rw [Int64.toInt_div_of_ne_right _ _ (by decide), second_toInt, ← Int.tdiv_eq_ediv_of_nonneg (by omega),
      Int.neg_tdiv, Int.neg_neg]
  have hneg : (-1 : Int64).toInt = -1 := by decide
  rw [mul_second_toInt, Api.NewKeepaliveSandboxRequest, if_pos hd, min_toInt, hdiv, hneg,
    wrapNanoseconds_of_le (by omega) (by omega)]
  omega

/-! ## What the server makes of it -/

theorem resolveTTL_self_iff {t : Duration} : resolveTTL t = .ok t ↔ 0 < t.toInt ∧ t.toInt ≤ 86400000000000 := by
  constructor
  · intro h
    by_contra hnot
    by_cases hzero : t.toInt = 0
    · rw [resolveTTL_default hzero] at h
      rw [← Except.ok.inj h, defaultTTL_toInt] at hzero
      omega
    · obtain ⟨e, he, -⟩ := resolveTTL_rejected (d := t) (by omega)
      rw [he] at h
      cases h
  · exact fun h => resolveTTL_exact h.1 h.2

theorem resolveTTL_error_iff {t : Duration} :
    (∃ e, resolveTTL t = .error e) ↔ t.toInt < 0 ∨ 86400000000000 < t.toInt := by
  constructor
  · rintro ⟨e, he⟩
    by_contra hnot
    by_cases hzero : t.toInt = 0
    · rw [resolveTTL_default hzero] at he
      cases he
    · rw [resolveTTL_exact (by omega) (by omega)] at he
      cases he
  · intro h
    obtain ⟨e, he, -⟩ := resolveTTL_rejected h
    exact ⟨e, he⟩

/-- The client asked for `d` and `t` arrives at a create: nothing asked for is the default, up to a day is rounded
up, and the rest is rejected. -/
structure CreateSurvives (d t : Duration) : Prop where
  default : t = 0 ↔ d = 0
  exact : t.toInt = wholeSeconds d.toInt ∧ resolveTTL t = .ok t ↔ 0 < d.toInt ∧ d.toInt ≤ 86400000000000
  rejected : (∃ e, resolveTTL t = .error e) ↔ d.toInt < 0 ∨ 86400000000000 < d.toInt

/-- The same at a keepalive, where more than a day is cut. -/
structure KeepaliveSurvives (d t : Duration) : Prop where
  default : t = 0 ↔ d = 0
  exact : t.toInt = wholeSeconds d.toInt ∧ resolveTTL (min t MaxTTL) = .ok t ↔
    0 < d.toInt ∧ d.toInt ≤ 86400000000000
  clamped : 86400000000000 < t.toInt ∧ resolveTTL (min t MaxTTL) = .ok MaxTTL ↔ 86400000000000 < d.toInt
  rejected : (∃ e, resolveTTL (min t MaxTTL) = .error e) ↔ d.toInt < 0

/-- A duration the client is called with means on the server what it meant to the client. -/
structure Survives (spec : SpecFile) (opts : Runtime.ExecOpts) (d : Duration) : Prop where
  create : ∃ t, createArrives spec d = .ok t ∧ CreateSurvives d t
  keepalive : ∃ t, keepaliveArrives d = .ok t ∧ KeepaliveSurvives d t
  exec : 0 < d.toInt → ∃ o, execArrives { opts with timeout := d } = .ok o ∧
    0 < o.execTimeout.toInt ∧ d.toInt ≤ o.execTimeout.toInt

/-- What the rounding up leaves of a duration: nothing, itself, or a negative number of seconds. -/
theorem ceilSeconds_cases (d : Duration) :
    (d.toInt ≤ 0 ∧ (Api.ceilSeconds d * Duration.second).toInt = 0) ∨
    (0 < d.toInt ∧ d.toInt ≤ 9223372035854775808 ∧
      (Api.ceilSeconds d * Duration.second).toInt = wholeSeconds d.toInt) ∨
    (9223372035854775808 < d.toInt ∧ (Api.ceilSeconds d * Duration.second).toInt < 0) := by
  rcases le_or_gt d.toInt 0 with h | h
  · exact .inl ⟨h, by rw [ceilSeconds_nonpos h]; rfl⟩
  · rcases le_or_gt d.toInt 9223372035854775808 with h' | h'
    · exact .inr (.inl ⟨h, h', ceilSeconds_exact h h'⟩)
    · exact .inr (.inr ⟨h', ceilSeconds_overflows h'⟩)

/-- A create loses the sign of a negative duration, and nothing else. -/
theorem createSurvives_iff (d : Duration) :
    CreateSurvives d (Api.ceilSeconds d * Duration.second) ↔ 0 ≤ d.toInt := by
  have hcases := ceilSeconds_cases d
  generalize Api.ceilSeconds d * Duration.second = t at hcases
  unfold wholeSeconds at hcases
  constructor
  · intro h
    have := h.rejected.not
    rw [resolveTTL_error_iff] at this
    omega
  · intro h
    refine ⟨?_, ?_, ?_⟩
    · rw [eq_zero_iff_toInt, eq_zero_iff_toInt]
      omega
    · rw [resolveTTL_self_iff, wholeSeconds]
      omega
    · rw [resolveTTL_error_iff]
      omega

theorem resolveTTL_min_self_iff {t : Duration} :
    resolveTTL (min t MaxTTL) = .ok t ↔ 0 < t.toInt ∧ t.toInt ≤ 86400000000000 := by
  have hmin : (min t MaxTTL).toInt = min t.toInt 86400000000000 := by rw [min_toInt, maxTTL_toInt]
  by_cases hneg : t.toInt < 0
  · obtain ⟨e, he, -⟩ := resolveTTL_rejected (d := min t MaxTTL) (.inl (by omega))
    rw [he]
    exact ⟨(nomatch ·), fun h => absurd h.1 (by omega)⟩
  · obtain ⟨u, hu, hval⟩ := resolveTTL_clamped (d := t) (by omega)
    rw [hu, Except.ok.injEq, ← Int64.toInt_inj, hval]
    split <;> omega

theorem resolveTTL_min_max_iff {t : Duration} (h : 86400000000000 < t.toInt) :
    resolveTTL (min t MaxTTL) = .ok MaxTTL := by
  obtain ⟨u, hu, hval⟩ := resolveTTL_clamped (d := t) (by omega)
  rw [hu, Except.ok.injEq, ← Int64.toInt_inj, hval, maxTTL_toInt]
  split <;> omega

theorem resolveTTL_min_error_iff {t : Duration} :
    (∃ e, resolveTTL (min t MaxTTL) = .error e) ↔ t.toInt < 0 := by
  rw [resolveTTL_error_iff, min_toInt, maxTTL_toInt]
  omega

/-- A keepalive loses the durations the rounding overflows on, and nothing else. -/
theorem keepaliveSurvives_iff (d : Duration) :
    KeepaliveSurvives d ((Api.NewKeepaliveSandboxRequest d).ttlSeconds * Duration.second) ↔
      d.toInt ≤ 9223372035854775808 := by
  have hcases : (d.toInt < 0 ∧ ((Api.NewKeepaliveSandboxRequest d).ttlSeconds * Duration.second).toInt < 0) ∨
      (0 ≤ d.toInt ∧ (Api.NewKeepaliveSandboxRequest d).ttlSeconds = Api.ceilSeconds d) := by
    rcases lt_or_ge d.toInt 0 with h | h
    · exact .inl ⟨h, keepalive_negative h⟩
    · refine .inr ⟨h, if_neg ?_⟩
      rw [Int64.lt_iff_toInt_lt, Int64.toInt_zero]
      omega
  have hceil := ceilSeconds_cases d
  have harrives : (d.toInt < 0 ∧ ((Api.NewKeepaliveSandboxRequest d).ttlSeconds * Duration.second).toInt < 0) ∨
      (d.toInt = 0 ∧ ((Api.NewKeepaliveSandboxRequest d).ttlSeconds * Duration.second).toInt = 0) ∨
      (0 < d.toInt ∧ d.toInt ≤ 9223372035854775808 ∧
        ((Api.NewKeepaliveSandboxRequest d).ttlSeconds * Duration.second).toInt = wholeSeconds d.toInt) ∨
      (9223372035854775808 < d.toInt ∧
        ((Api.NewKeepaliveSandboxRequest d).ttlSeconds * Duration.second).toInt < 0) := by
    rcases hcases with h | ⟨h, he⟩
    · exact .inl h
    · rw [he]
      omega
  generalize (Api.NewKeepaliveSandboxRequest d).ttlSeconds * Duration.second = t at harrives
  unfold wholeSeconds at harrives
  constructor
  · intro h
    have := h.rejected
    rw [resolveTTL_min_error_iff] at this
    omega
  · intro h
    refine ⟨?_, ?_, ⟨fun ht => ?_, fun hd => ?_⟩, ?_⟩
    · rw [eq_zero_iff_toInt, eq_zero_iff_toInt]
      omega
    · rw [resolveTTL_min_self_iff, wholeSeconds]
      omega
    · omega
    · have ht : 86400000000000 < t.toInt := by omega
      exact ⟨ht, resolveTTL_min_max_iff ht⟩
    · rw [resolveTTL_min_error_iff]
      omega

theorem execTimeout_toInt (o : Runtime.ExecOpts) :
    o.execTimeout.toInt = if o.timeout.toInt ≤ 0 then 30000000000 else o.timeout.toInt := by
  have hle : o.timeout ≤ 0 ↔ o.timeout.toInt ≤ 0 := by rw [Int64.le_iff_toInt_le, Int64.toInt_zero]
  unfold Runtime.ExecOpts.execTimeout
  split
  · next h =>
    rw [if_pos (hle.mp h)]
    rfl
  · next h => rw [if_neg fun h' => h (hle.mpr h')]

/-- **Client durations survive the trip to the server** exactly when they are not negative and leave room for the
rounding: a negative lifetime of a create arrives as the default, and close to the largest duration a keepalive
is rejected and an exec runs under the default timeout. -/
theorem client_durations_survive {spec : SpecFile} {json : Json} (hspec : spec.toJSON = .ok json)
    (opts : Runtime.ExecOpts) (d : Duration) :
    Survives spec opts d ↔ 0 ≤ d.toInt ∧ d.toInt ≤ 2 ^ 63 - 10 ^ 9 := by
  have hcreate := createArrives_eq hspec d
  have hkeepalive := keepaliveArrives_eq d
  constructor
  · intro h
    obtain ⟨t, ht, hc⟩ := h.create
    obtain rfl := Except.ok.inj (hcreate.symm.trans ht)
    obtain ⟨t, ht, hk⟩ := h.keepalive
    obtain rfl := Except.ok.inj (hkeepalive.symm.trans ht)
    exact ⟨(createSurvives_iff d).mp hc, by simpa using (keepaliveSurvives_iff d).mp hk⟩
  · intro h
    refine ⟨⟨_, hcreate, (createSurvives_iff d).mpr h.1⟩, ⟨_, hkeepalive, (keepaliveSurvives_iff d).mpr (by omega)⟩,
      fun hpos => ?_⟩
    obtain ⟨o, ho, htimeout⟩ := execArrives_eq { opts with timeout := d }
    have hexact := ceilSeconds_exact hpos (by omega)
    unfold wholeSeconds at hexact
    refine ⟨o, ho, ?_⟩
    rw [execTimeout_toInt, htimeout]
    dsimp only
    rw [hexact]
    split <;> omega

/-- The theorem at a second and a half. -/
theorem client_durations_survive_rounded : Survives {} ⟨none, "", 0⟩ 1500000000 := by
  exact (client_durations_survive (rfl : SpecFile.toJSON {} = _) _ _).mpr ⟨by decide, by decide⟩

/-- A create asked for a negative lifetime gets the default one, and an exec asked for the longest timeout gets
the default one. -/
theorem client_durations_lost : ¬Survives {} ⟨none, "", 0⟩ (-1) ∧ createArrives {} (-1) = .ok 0 ∧
    ¬Survives {} ⟨none, "", 0⟩ 9223372036854775807 := by
  refine ⟨fun h => ?_, rfl, fun h => ?_⟩
  · obtain ⟨t, ht, hc⟩ := h.create
    obtain rfl := Except.ok.inj (ht.symm.trans (rfl : createArrives {} (-1) = .ok 0))
    exact absurd (hc.default.mp rfl) (by decide)
  · obtain ⟨o, ho, -, hle⟩ := h.exec (by decide)
    obtain ⟨o', ho', htimeout⟩ := execArrives_eq ⟨none, "", 9223372036854775807⟩
    obtain rfl := Except.ok.inj (ho.symm.trans ho')
    have hneg := ceilSeconds_overflows (d := 9223372036854775807) (by decide)
    rw [execTimeout_toInt, htimeout, if_pos hneg.le] at hle
    exact absurd hle (by decide)

end Quickspin
