import Quickspin.HttpApi
import Quickspin.System

/-! Lifetimes on the wire. The server multiplies the seconds it is sent into a 64-bit count of nanoseconds
before it looks at their range, and the client rounds up to seconds by an addition that may overflow: what
is enforced is decided by the wrapped values. -/
namespace Quickspin
open Interaction
set_option autoImplicit false

/-! ## Durations as integers -/

theorem second_toInt : Duration.second.toInt = 1000000000 := by decide

theorem defaultTTL_toInt : DefaultTTL.toInt = 900000000000 := by decide

theorem maxTTL_toInt : MaxTTL.toInt = 86400000000000 := by decide

/-- Nanoseconds in `s` seconds, as a signed 64-bit product. -/
def wrapNanoseconds (s : ℤ) : ℤ := (s * 1000000000).bmod (2 ^ 64)

theorem mul_second_toInt (s : Int64) : (s * Duration.second).toInt = wrapNanoseconds s.toInt := by
  rw [Int64.toInt_mul, second_toInt, wrapNanoseconds]

theorem wrapNanoseconds_of_le {s : ℤ} (h₀ : -9223372036 ≤ s) (h₁ : s ≤ 9223372036) :
    wrapNanoseconds s = s * 1000000000 := by
  unfold wrapNanoseconds
  exact Int.bmod_eq_of_le (by omega) (by omega)

theorem min_toInt (a b : Int64) : (min a b).toInt = min a.toInt b.toInt := by
  show (if a ≤ b then a else b).toInt = _
  split
  · next h => rw [min_eq_left (Int64.le_iff_toInt_le.mp h)]
  · next h => rw [min_eq_right (le_of_not_ge fun hle => h (Int64.le_iff_toInt_le.mpr hle))]

theorem eq_zero_iff_toInt (d : Int64) : d = 0 ↔ d.toInt = 0 := by
  rw [← Int64.toInt_inj]
  rfl

/-! ### The outcomes of `resolveTTL` -/

theorem resolveTTL_default {d : Duration} (h : d.toInt = 0) : resolveTTL d = .ok DefaultTTL := by
  rw [(eq_zero_iff_toInt d).mpr h]
  rfl

theorem resolveTTL_exact {d : Duration} (h₀ : 0 < d.toInt) (h₁ : d.toInt ≤ 86400000000000) : resolveTTL d = .ok d := by
  have hzero : ¬d = 0 := by
    rw [eq_zero_iff_toInt]
    omega
  have hneg : ¬d < 0 := by
    rw [Int64.lt_iff_toInt_lt, Int64.toInt_zero]
    omega
  have hlong : ¬d > MaxTTL := by
    rw [gt_iff_lt, Int64.lt_iff_toInt_lt, maxTTL_toInt]
    omega
  simp [resolveTTL, hzero, hneg, hlong]

theorem resolveTTL_rejected {d : Duration} (h : d.toInt < 0 ∨ 86400000000000 < d.toInt) :
    ∃ e, resolveTTL d = .error e ∧ e.is .invalidSpec = true := by
  have hzero : ¬d = 0 := by
    rw [eq_zero_iff_toInt]
    omega
  have hout : d < 0 ∨ d > MaxTTL := by
    rwa [gt_iff_lt, Int64.lt_iff_toInt_lt, Int64.lt_iff_toInt_lt, Int64.toInt_zero, maxTTL_toInt]
  rw [resolveTTL, if_neg (by simpa using hzero), if_pos (by simpa using hout)]
  exact ⟨_, rfl, by simp⟩

/-! ## The handlers in a world where nothing fails -/

section Server
variable {D : Signature} {ρ : Type} {newID : World ρ → String} {run : (c : D.Call) → ρ → D.Answer c × ρ} {w : World ρ}

theorem SpecFile.toJSON_of_ofJSON {j : Json} {s : SpecFile} (h : SpecFile.ofJSON j = .ok s) :
    ∃ j', s.toJSON = .ok j' := by
  have hfinite : ∀ {j : Json} {o : Option Float64}, SpecFile.decodeFloat64 j = .ok o →
      ∃ j', SpecFile.encodeCpus o = .ok j' := by
    intro j o ho
    unfold SpecFile.decodeFloat64 at ho
    split at ho
    · obtain rfl := Except.ok.inj ho
      exact ⟨_, rfl⟩
    · obtain rfl := Except.ok.inj ho
      exact ⟨_, rfl⟩
    · cases ho
  have hcpus : ∃ j', SpecFile.encodeCpus s.cpus = .ok j' := by
    unfold SpecFile.ofJSON at h
    split at h
    · obtain rfl := Except.ok.inj h
      exact ⟨_, rfl⟩
    · simp only [bind_eq_ok] at h
      obtain ⟨_, -, _, -, cpus, hc, _, -, _, -, _, -, hs⟩ := h
      obtain rfl := Except.ok.inj hs
      exact hfinite hc
    · cases h
  obtain ⟨j', hj⟩ := hcpus
  exact ⟨_, by rw [SpecFile.toJSON, hj]⟩

/-- A create that nothing stands in the way of. -/
structure Admissible (newID : World ρ → String) (w : World ρ) (key : String) (spec : SpecFile) : Prop where
  keyed : key ≠ ""
  resolves : ∃ resolved, spec.resolveValidated = .ok resolved
  unkeyed : w.db.key? key = none
  named : newID w ≠ ""
  fresh : w.db.sandbox? (newID w) = none

theorem getIdempotencyKey_unkeyed {db : Database} {key : String} (h : db.key? key = none) :
    Sqlite.getIdempotencyKey .none key db = .ok none := by
  rw [Sqlite.getIdempotencyKey, h]
  rfl

theorem createSandboxRecord_run {key : String} {spec : SpecFile} {json : Json} {expiresAt : Time}
    (hjson : spec.toJSON = .ok json) (hkey : w.db.key? key = none) (hz : expiresAt.isZero = false) :
    (createSandboxRecord key spec expiresAt).run (execute newID run) w =
      execute newID run (.store (.insertSandbox key json (newID w) expiresAt)) w := by
  unfold createSandboxRecord
  rw [hz]
  show Program.run (execute newID run) (.call (.store (.getIdempotencyKey key)) _) w = _
  rw [Program.run_call]
  simp only [execute, StoreCall.exec, getIdempotencyKey_unkeyed hkey, hjson]
  rfl

variable (newID run) in
/-- An admissible create with an accepted lifetime records the row with it. -/
theorem createSandbox_runs {key : String} {spec : SpecFile} {json : Json} {ttl t : Duration}
    (h : Admissible newID w key spec) (hjson : spec.toJSON = .ok json) (ht : resolveTTL ttl = .ok t)
    (hpos : 0 < t.toInt) :
    ∃ sbx w' row, (Control.createSandbox key spec ttl).run (execute newID run) w = (.ok sbx, w') ∧
      w'.db.sandbox? (newID w) = some row ∧ row.expiresAt = w.clock.add t := by
  obtain ⟨resolved, hspec⟩ := h.resolves
  have hz : Time.isZero (w.clock.add t) = false := by simpa [Time.isZero] using w.clock.add_ne_zero hpos
  obtain ⟨sbx, db', hins⟩ := Sqlite.insertSandbox_succeeds w.clock.currentTimestamp
    (w.clock.add t) h.fresh h.named h.unkeyed (SpecFile.ofJSON_toJSON hjson)
  have hrun : (Control.createSandbox key spec ttl).run (execute newID run) w = (.ok sbx, { w with db := db' }) := by
    unfold Control.createSandbox
    rw [hspec, ht]
    show Program.run (execute newID run) (createSandboxRecord key spec (w.clock.add t) >>= _) w = _
    rw [Program.run_bind, createSandboxRecord_run hjson h.unkeyed hz]
    simp only [execute, StoreCall.exec, hins]
    rfl
  rcases Sqlite.insertSandbox_cases hins with ⟨row, sbx', hc, hrow, -⟩ | ⟨-, e, he⟩
  · obtain ⟨n, hfind⟩ := hc.sandbox
    refine ⟨sbx, _, row, hrun, hrow, ?_⟩
    rw [hfind, if_pos rfl] at hrow
    obtain rfl := Option.some.inj hrow
    rfl
  · cases he

theorem createSandbox_rejects {key : String} {spec : SpecFile} {ttl : Duration} {e : Err}
    (hspec : ∃ resolved, spec.resolveValidated = .ok resolved) (ht : resolveTTL ttl = .error e) :
    Control.createSandbox (D := D) key spec ttl =
      .done (.error (wrap "control.Control.CreateSandbox" "resolving the requested ttl" e)) := by
  obtain ⟨resolved, hspec⟩ := hspec
  unfold Control.createSandbox
  rw [hspec, ht]
  rfl

variable (newID run) in
/-- A keepalive of a live row with an accepted lifetime renews the row with it. -/
theorem keepaliveSandbox_runs {id : String} {row : SandboxRow} {spec : SpecFile} {ttl t : Duration}
    (hrow : w.db.sandbox? id = some row) (halive : row.state = .pending ∨ row.state = .running)
    (hspec : SpecFile.ofJSON row.spec = .ok spec) (ht : resolveTTL (min ttl MaxTTL) = .ok t) (hpos : 0 < t.toInt) :
    ∃ sbx w' row', (Control.keepaliveSandbox id ttl).run (execute newID run) w = (.ok sbx, w') ∧
      w'.db.sandbox? id = some row' ∧ row'.expiresAt = w.clock.add t := by
  obtain ⟨sbx, db', hren⟩ := Sqlite.updateSandboxExpiry_succeeds w.clock.currentTimestamp hrow halive
    (w.clock.add_ne_zero hpos) hspec
  have hrun : (Control.keepaliveSandbox id ttl).run (execute newID run) w = (.ok sbx, { w with db := db' }) := by
    unfold Control.keepaliveSandbox
    rw [ht]
    show (_, _) = _
    simp only [execute, StoreCall.exec, hren]
    rfl
  rcases Sqlite.updateSandboxExpiry_cases hren with ⟨row₀, sbx', hr, -⟩ | ⟨-, e, he⟩
  · exact ⟨sbx, _, _, hrun, (hr.sandbox id).trans (if_pos rfl), rfl⟩
  · cases he

theorem keepaliveSandbox_rejects {id : String} {ttl : Duration} {e : Err}
    (ht : resolveTTL (min ttl MaxTTL) = .error e) : Control.keepaliveSandbox (D := D) id ttl =
      .done (.error (wrap "control.Control.KeepaliveSandbox" "resolving the requested ttl" e)) := by
  unfold Control.keepaliveSandbox
  rw [ht]
  rfl

/-! ## The seconds a request carries -/

/-- The call succeeded and left the row with the lease. -/
def Leased (out : Except Err Sandbox × World ρ) (id : String) (expiresAt : ℤ) : Prop :=
  ∃ sbx row, out.1 = .ok sbx ∧ out.2.db.sandbox? id = some row ∧ (row.expiresAt : ℕ) = expiresAt

/-- A create with `s` seconds records the lifetime it was sent, or is rejected and leaves the store alone. -/
structure CreateEnforced (exec : (c : (calls D).Call) → World ρ → (calls D).Answer c × World ρ) (w : World ρ)
    (id : String) (s : ℤ) (p : Program (calls D) (Except Err Sandbox)) : Prop where
  default : s = 0 → Leased (p.run exec w) id ((w.clock : ℕ) + 900000000000)
  exact : 1 ≤ s → s ≤ 86400 → Leased (p.run exec w) id ((w.clock : ℕ) + s * 1000000000)
  rejected : s < 0 ∨ 86400 < s → ∃ e, p.run exec w = (.error e, w) ∧ e.is .invalidSpec = true

/-- A keepalive with `s` seconds renews by the lifetime it was sent, cut at a day, or is rejected without a call. -/
structure KeepaliveEnforced (exec : (c : (calls D).Call) → World ρ → (calls D).Answer c × World ρ) (w : World ρ)
    (id : String) (s : ℤ) (p : Program (calls D) (Except Err Sandbox)) : Prop where
  default : s = 0 → Leased (p.run exec w) id ((w.clock : ℕ) + 900000000000)
  exact : 1 ≤ s → s ≤ 86400 → Leased (p.run exec w) id ((w.clock : ℕ) + s * 1000000000)
  clamped : 86400 < s → Leased (p.run exec w) id ((w.clock : ℕ) + 86400000000000)
  rejected : s < 0 → ∃ e, p = .done (.error e)

section Create
variable {key : String} {body : Json} {spec : SpecFile} {s : Int64}

theorem document_of_body (hbody : Api.CreateSandboxRequest.ofJSON body = .ok ⟨spec, s⟩) :
    ∃ json, spec.toJSON = .ok json := by
  simp only [Api.CreateSandboxRequest.ofJSON, bind_eq_ok] at hbody
  obtain ⟨_, -, _, -, spec', hspec, _, -, hr⟩ := hbody
  cases hr
  exact SpecFile.toJSON_of_ofJSON hspec

theorem HttpApi.createSandbox_eq (hkey : key ≠ "") (hbody : Api.CreateSandboxRequest.ofJSON body = .ok ⟨spec, s⟩) :
    HttpApi.createSandbox (D := D) key body = (Control.createSandbox key spec (s * Duration.second) >>=
      fun sbx => pure (sbx.mapError (wrap "httpapi.API.CreateSandbox" "creating the sandbox"))) := by
  unfold HttpApi.createSandbox
  rw [hbody]
  simp [hkey, Api.CreateSandboxRequest.ttl]

variable (newID run) in
theorem create_leases (h : Admissible newID w key spec)
    (hbody : Api.CreateSandboxRequest.ofJSON body = .ok ⟨spec, s⟩) {t : Duration}
    (ht : resolveTTL (s * Duration.second) = .ok t) (hpos : 0 < t.toInt) :
    Leased ((HttpApi.createSandbox key body).run (execute newID run) w) (newID w) ((w.clock : ℕ) + t.toInt) := by
  obtain ⟨json, hjson⟩ := document_of_body hbody
  obtain ⟨sbx, w', row, hrun, hrow, hexp⟩ := createSandbox_runs newID run h hjson ht hpos
  rw [HttpApi.createSandbox_eq h.keyed hbody, Program.run_bind, hrun]
  exact ⟨sbx, row, rfl, hrow, by rw [hexp, Time.add_toInt _ hpos.le]⟩

theorem create_rejects (h : Admissible newID w key spec)
    (hbody : Api.CreateSandboxRequest.ofJSON body = .ok ⟨spec, s⟩)
    (hout : (s * Duration.second).toInt < 0 ∨ 86400000000000 < (s * Duration.second).toInt) :
    ∃ e, (HttpApi.createSandbox key body).run (execute newID run) w = (.error e, w) ∧ e.is .invalidSpec = true := by
  obtain ⟨e, he, his⟩ := resolveTTL_rejected hout
  rw [HttpApi.createSandbox_eq h.keyed hbody, createSandbox_rejects h.resolves he]
  exact ⟨_, rfl, by simp [his]⟩

theorem createEnforced_iff (h : Admissible newID w key spec)
    (hbody : Api.CreateSandboxRequest.ofJSON body = .ok ⟨spec, s⟩) :
    CreateEnforced (execute newID run) w (newID w) s.toInt (HttpApi.createSandbox key body) ↔
      (0 ≤ s.toInt ∧ s.toInt ≤ 86400) ∨
        wrapNanoseconds s.toInt < 0 ∨ 86400000000000 < wrapNanoseconds s.toInt := by
  have hproduct := mul_second_toInt s
  constructor
  · intro he
    by_contra hnot
    push Not at hnot
    obtain ⟨hrange, hlow, hhigh⟩ := hnot
    obtain ⟨e, hrun, -⟩ := he.rejected (by omega)
    -- the product is in range, so the create is accepted
    have hlease : ∃ t, resolveTTL (s * Duration.second) = .ok t ∧ 0 < t.toInt := by
      by_cases hzero : (s * Duration.second).toInt = 0
      · exact ⟨_, resolveTTL_default hzero, by rw [defaultTTL_toInt]; omega⟩
      · exact ⟨_, resolveTTL_exact (by omega) (by omega), by omega⟩
    obtain ⟨t, ht, hpos⟩ := hlease
    obtain ⟨sbx, row, hok, -⟩ := create_leases newID run h hbody ht hpos
    rw [hrun] at hok
    cases hok
  · intro hcond
    have hwrap : 0 ≤ s.toInt → s.toInt ≤ 86400 → (s * Duration.second).toInt = s.toInt * 1000000000 :=
      fun h₀ h₁ => hproduct.trans (wrapNanoseconds_of_le (by omega) (by omega))
    refine ⟨fun hz => ?_, fun h₀ h₁ => ?_, fun hout => create_rejects h hbody (by omega)⟩
    · have ht := resolveTTL_default (d := s * Duration.second) (by rw [hwrap (by omega) (by omega), hz]; rfl)
      have := create_leases newID run h hbody ht (by rw [defaultTTL_toInt]; omega)
      rwa [defaultTTL_toInt] at this
    · have hn := hwrap (by omega) h₁
      have := create_leases newID run h hbody (resolveTTL_exact (by omega) (by omega)) (by omega)
      rwa [hn] at this

end Create

section Keepalive
variable {id : String} {body : Option Json} {s : Int64} {row : SandboxRow} {spec : SpecFile}

/-- A live sandbox whose document reads. -/
structure Live (w : World ρ) (id : String) (row : SandboxRow) (spec : SpecFile) : Prop where
  found : w.db.sandbox? id = some row
  alive : row.state = .pending ∨ row.state = .running
  reads : SpecFile.ofJSON row.spec = .ok spec

theorem HttpApi.keepaliveSandbox_eq
    (hbody : (body.map Api.KeepaliveSandboxRequest.ofJSON).getD (.ok ⟨0⟩) = .ok ⟨s⟩) :
    HttpApi.keepaliveSandbox (D := D) id body = (Control.keepaliveSandbox id (s * Duration.second) >>=
      fun sbx => pure (sbx.mapError (wrap "httpapi.API.KeepaliveSandbox" "renewing the sandbox lease"))) := by
  unfold HttpApi.keepaliveSandbox
  rw [hbody]
  rfl

variable (newID run) in
theorem keepalive_leases (h : Live w id row spec)
    (hbody : (body.map Api.KeepaliveSandboxRequest.ofJSON).getD (.ok ⟨0⟩) = .ok ⟨s⟩) {t : Duration}
    (ht : resolveTTL (min (s * Duration.second) MaxTTL) = .ok t) (hpos : 0 < t.toInt) :
    Leased ((HttpApi.keepaliveSandbox id body).run (execute newID run) w) id ((w.clock : ℕ) + t.toInt) := by
  obtain ⟨sbx, w', row', hrun, hrow, hexp⟩ := keepaliveSandbox_runs newID run h.found h.alive
    h.reads ht hpos
  rw [HttpApi.keepaliveSandbox_eq hbody, Program.run_bind, hrun]
  exact ⟨sbx, row', rfl, hrow, by rw [hexp, Time.add_toInt _ hpos.le]⟩

variable (D id) in
theorem keepalive_rejects (hbody : (body.map Api.KeepaliveSandboxRequest.ofJSON).getD (.ok ⟨0⟩) = .ok ⟨s⟩)
    (hneg : (s * Duration.second).toInt < 0) : ∃ e, HttpApi.keepaliveSandbox (D := D) id body = .done (.error e) := by
  obtain ⟨e, he, -⟩ := resolveTTL_rejected (d := min (s * Duration.second) MaxTTL) (.inl (by
    rw [min_toInt]
    exact min_lt_of_left_lt hneg))
  rw [HttpApi.keepaliveSandbox_eq hbody, keepaliveSandbox_rejects he]
  exact ⟨_, rfl⟩

/-- What the server makes of a product that is not negative: the default, itself, or a day. -/
theorem resolveTTL_clamped {d : Duration} (h : 0 ≤ d.toInt) : ∃ t, resolveTTL (min d MaxTTL) = .ok t ∧
    t.toInt = if d.toInt = 0 then 900000000000 else min d.toInt 86400000000000 := by
  have hmin : (min d MaxTTL).toInt = min d.toInt 86400000000000 := by rw [min_toInt, maxTTL_toInt]
  by_cases hzero : d.toInt = 0
  · exact ⟨_, resolveTTL_default (by omega), by rw [if_pos hzero, defaultTTL_toInt]⟩
  · exact ⟨_, resolveTTL_exact (by omega) (by omega), by rw [if_neg hzero, hmin]⟩

theorem keepaliveEnforced_iff (h : Live w id row spec)
    (hbody : (body.map Api.KeepaliveSandboxRequest.ofJSON).getD (.ok ⟨0⟩) = .ok ⟨s⟩) :
    KeepaliveEnforced (execute newID run) w id s.toInt (HttpApi.keepaliveSandbox id body) ↔
      (0 ≤ s.toInt ∧ s.toInt ≤ 86400) ∨ (86400 < s.toInt ∧ 86400000000000 ≤ wrapNanoseconds s.toInt) ∨
        (s.toInt < 0 ∧ wrapNanoseconds s.toInt < 0) := by
  have hproduct := mul_second_toInt s
  have hlease : ∀ {x : ℤ}, 0 ≤ (s * Duration.second).toInt → (if (s * Duration.second).toInt = 0 then 900000000000
      else min (s * Duration.second).toInt 86400000000000) = x →
      Leased ((HttpApi.keepaliveSandbox id body).run (execute newID run) w) id ((w.clock : ℕ) + x) := by
    rintro x h₀ rfl
    obtain ⟨t, ht, hval⟩ := resolveTTL_clamped h₀
    rw [← hval]
    exact keepalive_leases newID run h hbody ht (by split at hval <;> omega)
  constructor
  · intro he
    by_contra hnot
    push Not at hnot
    obtain ⟨hrange, hlong, hneg⟩ := hnot
    rcases lt_or_ge s.toInt 0 with hs | hs
    · -- rejected as sent, but the product is not negative
      obtain ⟨e, hdone⟩ := he.rejected hs
      obtain ⟨sbx, row', hok, -⟩ := hlease (by have := hneg hs; omega) rfl
      rw [hdone] at hok
      cases hok
    · -- a day as sent, but the product is less
      have hbig := hrange hs
      have hsmall := hlong hbig
      obtain ⟨sbx, row', hok, hrow, hexp⟩ := he.clamped hbig
      by_cases hn : (s * Duration.second).toInt < 0
      · obtain ⟨e, hdone⟩ := keepalive_rejects D id hbody hn
        rw [hdone] at hok
        cases hok
      · obtain ⟨sbx', row'', -, hrow', hexp'⟩ := hlease (by omega) rfl
        obtain rfl := Option.some.inj (hrow.symm.trans hrow')
        rw [hexp] at hexp'
        split at hexp' <;> omega
  · intro hcond
    have hwrap : 0 ≤ s.toInt → s.toInt ≤ 86400 → (s * Duration.second).toInt = s.toInt * 1000000000 :=
      fun h₀ h₁ => hproduct.trans (wrapNanoseconds_of_le (by omega) (by omega))
    refine ⟨fun hz => ?_, fun h₀ h₁ => ?_, fun hlong => ?_, fun hneg => keepalive_rejects D id hbody (by omega)⟩
    · have hn := hwrap (by omega) (by omega)
      exact hlease (by omega) (if_pos (by omega))
    · have hn := hwrap (by omega) h₁
      exact hlease (by omega) (by rw [if_neg (by omega)]; omega)
    · exact hlease (by omega) (by rw [if_neg (by omega)]; omega)

end Keepalive

/-! ## As sent -/

/-- **The seconds on the wire are enforced as sent** by both handlers exactly where the product does not leave
its class by wrapping: never a longer or a shorter lease, never a wrong refusal. -/
theorem wire_ttl_enforced {w' : World ρ} {key id : String} {body : Json} {body' : Option Json} {spec spec' : SpecFile}
    {row : SandboxRow} {s : Int64} (hcreate : Admissible newID w key spec)
    (hbody : Api.CreateSandboxRequest.ofJSON body = .ok ⟨spec, s⟩) (hlive : Live w' id row spec')
    (hbody' : (body'.map Api.KeepaliveSandboxRequest.ofJSON).getD (.ok ⟨0⟩) = .ok ⟨s⟩) :
    CreateEnforced (execute newID run) w (newID w) s.toInt (HttpApi.createSandbox key body) ∧
        KeepaliveEnforced (execute newID run) w' id s.toInt (HttpApi.keepaliveSandbox id body') ↔
      (0 ≤ s.toInt ∧ s.toInt ≤ 86400) ∨ (86400 < s.toInt ∧ 86400000000000 < wrapNanoseconds s.toInt) ∨
        (s.toInt < 0 ∧ wrapNanoseconds s.toInt < 0) := by
  rw [createEnforced_iff hcreate hbody, keepaliveEnforced_iff hlive hbody']
  omega

end Server

/-! ### At two bodies -/

/-- The body of a create with an empty spec. -/
def createBody (seconds : ℚ) : Json := .obj [("spec", .obj []), ("ttl_seconds", .num seconds)]

def keepaliveBody (seconds : ℚ) : Option Json := some (.obj [("ttl_seconds", .num seconds)])

theorem admissible_empty : Admissible (fun _ => exampleID) World.empty "k" {} :=
  ⟨by decide, exists_ok_of_isOk (by decide +kernel), rfl, by decide, rfl⟩

theorem live_started : ∃ row spec, Live startedWorld exampleID row spec := by
  have hrow : (startedWorld.db.sandbox? exampleID).any
      (fun row => row.state = .running && (SpecFile.ofJSON row.spec).isOk) = true := by decide +kernel
  obtain ⟨row, hfound, hcond⟩ := (Option.any_eq_true ..).mp hrow
  obtain ⟨hstate, hreads⟩ := Bool.and_eq_true_iff.mp hcond
  obtain ⟨spec, hspec⟩ := exists_ok_of_isOk hreads
  exact ⟨row, spec, hfound, .inr (of_decide_eq_true hstate), hspec⟩

/-- The theorem at a minute. -/
theorem wire_ttl_enforced_minute :
    CreateEnforced fleetExec .empty exampleID 60 (HttpApi.createSandbox "k" (createBody 60)) ∧
      KeepaliveEnforced fleetExec startedWorld exampleID 60 (HttpApi.keepaliveSandbox exampleID (keepaliveBody 60)) := by
  obtain ⟨row, spec, hlive⟩ := live_started
  exact (wire_ttl_enforced (s := 60) admissible_empty rfl hlive rfl).mpr (.inl ⟨by decide, by decide⟩)

/-- 2^55 seconds are a multiple of 2^64 nanoseconds: the create is not rejected but gets the default lease, and
so does the keepalive, which should get a day. -/
theorem wire_ttl_wraps :
    Leased ((HttpApi.createSandbox "k" (createBody 36028797018963968)).run fleetExec .empty) exampleID 900000000000 ∧
    ¬CreateEnforced fleetExec .empty exampleID 36028797018963968
      (HttpApi.createSandbox "k" (createBody 36028797018963968)) ∧
    ¬KeepaliveEnforced fleetExec startedWorld exampleID 36028797018963968
      (HttpApi.keepaliveSandbox exampleID (keepaliveBody 36028797018963968)) := by
  obtain ⟨row, spec, hlive⟩ := live_started
  have hwrap : wrapNanoseconds 36028797018963968 = 0 := by decide +kernel
  have hlease := create_leases (D := Runtime.signature) _ Fleet.run (s := 36028797018963968) admissible_empty
    (rfl : Api.CreateSandboxRequest.ofJSON (createBody 36028797018963968) = _) (resolveTTL_default (by decide +kernel)) (by decide)
  refine ⟨hlease, fun h => ?_, fun h => ?_⟩
  · have := (createEnforced_iff (s := 36028797018963968) admissible_empty rfl).mp h
    simp only [show (36028797018963968 : Int64).toInt = 36028797018963968 by decide, hwrap] at this
    omega
  · have := (keepaliveEnforced_iff (s := 36028797018963968) hlive rfl).mp h
    simp only [show (36028797018963968 : Int64).toInt = 36028797018963968 by decide, hwrap] at this
    omega

end Quickspin
