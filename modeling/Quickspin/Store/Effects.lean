import Quickspin.Store.Sqlite

/-! What a store call may leave in the tables, and what its answer says about them. Every fact about a
store call that later modules use is one of these; none of them opens the call again. -/
namespace Quickspin
open Relational
set_option autoImplicit false

/-! ## The four ways the tables change -/

/-- The row of `id` went to `toState` and its event was appended. -/
structure Transitioned (now : Time) (id : String) (row : SandboxRow) (toState : TaskState) (reason : String)
    (db db' : Database) : Prop where
  found : db.sandbox? id = some row
  next : Next row.state toState
  sandbox : ∀ id', db'.sandbox? id' = if id' = id then some (row.moveTo toState now) else db.sandbox? id'
  keys : db'.idempotencyKeys = db.idempotencyKeys
  events : ∃ n, db'.events.rows =
    db.events.rows ++ [⟨n, row.versionId + 1, id, row.state, toState, now, reason⟩]

/-- The lease of `id` was replaced. -/
structure Renewed (now : Time) (id : String) (row : SandboxRow) (expiresAt : Time) (db db' : Database) :
    Prop where
  found : db.sandbox? id = some row
  alive : row.state = .pending ∨ row.state = .running
  sandbox : ∀ id', db'.sandbox? id' = if id' = id then some (row.renew expiresAt now) else db.sandbox? id'
  keys : db'.idempotencyKeys = db.idempotencyKeys
  events : db'.events = db.events

/-- The row of a new sandbox, its key and its first event were added. -/
structure Created (now : Time) (key : String) (spec : Json) (id : String) (expiresAt : Time)
    (db db' : Database) : Prop where
  fresh : db.sandbox? id = none
  unkeyed : db.key? key = none
  sandbox : ∃ n, ∀ id', db'.sandbox? id' =
    if id' = id then some ⟨n, 1, id, .pending, spec, expiresAt, now, now⟩ else db.sandbox? id'
  keys : ∃ n, db'.idempotencyKeys.rows = db.idempotencyKeys.rows ++ [⟨n, id, key, now, now⟩]
  key : ∃ n, ∀ k, db'.key? k = if k = key then some ⟨n, id, key, now, now⟩ else db.key? k
  events : ∃ n, db'.events.rows =
    db.events.rows ++ [⟨n, 1, id, .zero, .pending, now, "sandbox record created"⟩]

/-- A key was added for a sandbox that exists. -/
structure Keyed (key id : String) (db db' : Database) : Prop where
  exists_row : (db.sandbox? id).isSome
  unkeyed : db.key? key = none
  sandboxes : db'.sandboxes = db.sandboxes
  events : db'.events = db.events

/-! ## Statements and scans -/

namespace Sqlite
variable {db db' : Database}

theorem scanSandbox_error {r : SandboxRow} {e : Err} (h : scanSandbox r = .error e) : e.Unclassified := by
  unfold scanSandbox at h
  split at h
  · next err hj =>
    cases h
    rw [SpecFile.ofJSON_error hj]
    exact (unclassified_foreign _).E _ _
  · cases h

theorem scanSandbox_ok {r : SandboxRow} {sbx : Sandbox} (h : scanSandbox r = .ok sbx) :
    SpecFile.ofJSON r.spec = .ok sbx.spec ∧
      sbx = sandboxOf r sbx.spec := by
  unfold scanSandbox at h
  split at h
  · cases h
  · next spec hj =>
    cases h
    exact ⟨hj, rfl⟩

theorem scanSandbox_id {r : SandboxRow} {sbx : Sandbox} (h : scanSandbox r = .ok sbx) : sbx.sandboxID = r.platformId := by
  rw [(scanSandbox_ok h).2]
  rfl

theorem scanSandbox_state {r : SandboxRow} {sbx : Sandbox} (h : scanSandbox r = .ok sbx) : sbx.state = r.state := by
  rw [(scanSandbox_ok h).2]
  rfl

theorem scanSandbox_version {r : SandboxRow} {sbx : Sandbox} (h : scanSandbox r = .ok sbx) : sbx.versionID = r.versionId := by
  rw [(scanSandbox_ok h).2]
  rfl

theorem scanSandbox_expiresAt {r : SandboxRow} {sbx : Sandbox} (h : scanSandbox r = .ok sbx) :
    sbx.expiresAt = r.expiresAt := by
  rw [(scanSandbox_ok h).2]
  rfl

theorem scanRow_eq_ok {ρ α : Type} {ran : Except Err Unit} {g : Err → Err} {scan : ρ → Except Err α}
    {row : Option ρ} {a : α} : scanRow ran g scan row = .ok a ↔ ran = .ok () ∧ ∃ r, row = some r ∧ scan r = .ok a := by
  unfold scanRow
  rcases ran with e | ⟨⟨⟩⟩
  · simp
  · cases row <;> simp

/-- The sandbox scans report `ErrNotFound` for a missing row and for nothing else. -/
theorem scanSandboxRow_error {f : Faults} {p : Point} {row : Option SandboxRow} {e : Err}
    (h : scanRow (f.check p) sandboxRowError scanSandbox row = .error e) :
    e.Unclassified ∨ e = .sentinel .storeNotFound ∧ row = none := by
  unfold scanRow at h
  split at h
  · next err hc =>
    obtain ⟨text, rfl⟩ := f.check_error hc
    cases h
    exact .inl ((unclassified_foreign _).E _ _)
  · split at h
    · cases h
      exact .inr ⟨rfl, rfl⟩
    · exact .inl (scanSandbox_error h)

theorem getSandbox_ok {f : Faults} {id : String} {sbx : Sandbox} (h : getSandbox f id db = .ok sbx) :
    ∃ row, db.sandbox? id = some row ∧ scanSandbox row = .ok sbx := by
  unfold getSandbox at h
  rw [mapError_eq_ok, scanRow_eq_ok] at h
  exact h.2

/-- A read that fails with `ErrNotFound` has looked for a row that is not there. -/
theorem getSandbox_notFound {f : Faults} {id : String} {e : Err} (h : getSandbox f id db = .error e)
    (he : e.is .storeNotFound = true) : db.sandbox? id = none := by
  unfold getSandbox at h
  rw [mapError_eq_error] at h
  obtain ⟨e', hs, rfl⟩ := h
  rw [is_wrap] at he
  rcases scanSandboxRow_error hs with hu | ⟨-, hn⟩
  · rw [hu] at he
    cases he
  · exact hn

theorem scanEach_ok {ρ α : Type} {scan : ρ → Except Err α} {rows : List ρ} {items : List α}
    (h : scanEach scan rows = .ok items) : List.Forall₂ (fun r a => scan r = .ok a) rows items := by
  induction rows generalizing items with
  | nil =>
    cases h
    exact .nil
  | cons r rows ih =>
    unfold scanEach at h
    split at h
    · cases h
    · next v hv =>
      rcases hr : scanEach scan rows with e | rest <;> rw [hr] at h <;> cases h
      exact .cons hv (ih hr)

/-- A listing holds every row once, scanned, in the order of the table. -/
theorem getSandboxes_ok {f : Faults} {sbxs : List Sandbox} (h : getSandboxes f db = .ok sbxs) :
    List.Forall₂ (fun r s => scanSandbox r = .ok s) db.sandboxes.rows sbxs := by
  unfold getSandboxes scanRows at h
  simp only [bind_eq_ok, mapError_eq_ok] at h
  obtain ⟨-, -, items, hi, -, -, hr⟩ := h
  cases hr
  exact scanEach_ok hi

theorem mem_getSandboxes {f : Faults} {sbxs : List Sandbox} {sbx : Sandbox} (h : getSandboxes f db = .ok sbxs)
    (hs : sbx ∈ sbxs) : ∃ row ∈ db.sandboxes.rows, scanSandbox row = .ok sbx := by
  obtain ⟨k, hk, rfl⟩ := List.getElem_of_mem hs
  have hf := getSandboxes_ok h
  have hk' : k < db.sandboxes.rows.length := hf.length_eq ▸ hk
  exact ⟨db.sandboxes.rows[k], List.getElem_mem hk', hf.get hk' hk⟩

theorem getSandboxes_mem {f : Faults} {sbxs : List Sandbox} {row : SandboxRow} (h : getSandboxes f db = .ok sbxs)
    (hr : row ∈ db.sandboxes.rows) : ∃ sbx ∈ sbxs, scanSandbox row = .ok sbx := by
  obtain ⟨k, hk, rfl⟩ := List.getElem_of_mem hr
  have hf := getSandboxes_ok h
  have hk' : k < sbxs.length := hf.length_eq ▸ hk
  exact ⟨sbxs[k], List.getElem_mem hk', hf.get hk hk'⟩

theorem getSandboxes_row {f : Faults} {sbxs : List Sandbox} {sbx : Sandbox} (h : getSandboxes f db = .ok sbxs)
    (hs : sbx ∈ sbxs) : ∃ row, db.sandbox? sbx.sandboxID = some row ∧ scanSandbox row = .ok sbx := by
  obtain ⟨row, hr, hscan⟩ := mem_getSandboxes h hs
  exact ⟨row, scanSandbox_id hscan ▸ Table.find?_of_mem hr, hscan⟩

theorem getSandboxes_found {f : Faults} {sbxs : List Sandbox} {row : SandboxRow} {id : String}
    (h : getSandboxes f db = .ok sbxs) (hr : db.sandbox? id = some row) :
    ∃ sbx ∈ sbxs, scanSandbox row = .ok sbx ∧ sbx.sandboxID = id := by
  obtain ⟨sbx, hs, hscan⟩ := getSandboxes_mem h (Table.mem_of_find? hr)
  exact ⟨sbx, hs, hscan, (scanSandbox_id hscan).trans (Table.key_of_find? hr)⟩

theorem getSandboxes_nodup {f : Faults} {sbxs : List Sandbox} (h : getSandboxes f db = .ok sbxs) :
    (sbxs.map (·.sandboxID)).Nodup := by
  have hmap : ∀ {rows : List SandboxRow} {sbxs : List Sandbox}, List.Forall₂ (fun r s => scanSandbox r = .ok s) rows sbxs →
      sbxs.map (·.sandboxID) = rows.map SandboxRow.platformId := by
    intro rows sbxs hf
    induction hf with
    | nil => rfl
    | cons hscan _ ih =>
      obtain ⟨-, hsbx⟩ := scanSandbox_ok hscan
      rw [List.map_cons, List.map_cons, ih, hsbx]
      rfl
  rw [hmap (getSandboxes_ok h)]
  exact db.sandboxes.unique

theorem getIdempotencyKey_ok {f : Faults} {key : String} {k : Option IdempotencyKey}
    (h : getIdempotencyKey f key db = .ok k) :
    k = (db.key? key).map keyOf := by
  unfold getIdempotencyKey at h
  split at h
  · next k' hs =>
    obtain ⟨-, r, hr, hk⟩ := scanRow_eq_ok.mp hs
    cases h
    cases hk
    rw [hr]
    rfl
  · next err hs =>
    split at h
    · next he =>
      cases h
      unfold scanRow at hs
      split at hs
      · next e' hc =>
        obtain ⟨text, rfl⟩ := f.check_error hc
        cases hs
        simp [keyRowError] at he
      · split at hs
        · next hn =>
          rw [hn]
          rfl
        · cases hs
    · cases h

theorem insertSandboxRow_ok {f : Faults} {now : Time} {spec : Json} {id : String} {expiresAt : Time}
    {sbx : Sandbox} (h : insertSandboxRow f now spec id expiresAt db = .ok (sbx, db')) :
    ∃ row, db.insertSandbox .pending spec id expiresAt now = .ok (row, db') ∧ scanSandbox row = .ok sbx := by
  unfold insertSandboxRow at h
  simp only [bind_eq_ok, mapError_eq_ok] at h
  obtain ⟨-, -, ⟨row, db₁⟩, hi, sbx', hs, hr⟩ := h
  cases hr
  exact ⟨row, hi, hs⟩

theorem insertKeyRow_ok {f : Faults} {now : Time} {key id : String} {k : IdempotencyKey}
    (h : insertKeyRow f now key id db = .ok (k, db')) : ∃ row, db.insertKey key id now = .ok (row, db') := by
  unfold insertKeyRow at h
  simp only [bind_eq_ok, mapError_eq_ok] at h
  obtain ⟨-, -, ⟨row, db₁⟩, hi, k', -, hr⟩ := h
  cases hr
  exact ⟨row, hi⟩

theorem appendEvent_ok {f : Faults} {e : Event} (h : appendEvent f e db = .ok db') :
    e.validate = .ok () ∧
      db.insertEvent e.versionID e.sandboxID e.fromState e.toState e.happenedAt e.reason = .ok db' := by
  unfold appendEvent at h
  simp only [bind_eq_ok, mapError_eq_ok] at h
  obtain ⟨_, hv, _, _, hi⟩ := h
  exact ⟨hv, hi⟩

theorem appendEvent_error {f : Faults} {e : Event} {err : Err} (h : appendEvent f e db = .error err) :
    err.is .storeNotFound = false ∧ err.is .invalidStateTransition = false := by
  unfold appendEvent at h
  simp only [bind_eq_error, mapError_eq_error] at h
  rcases h with ⟨e', hv, rfl⟩ | ⟨-, -, ⟨e', hc, rfl⟩ | ⟨-, -, e', hi, rfl⟩⟩
  · rw [is_wrap, is_wrap, e.validate_error hv, e.validate_error hv]
    exact ⟨rfl, rfl⟩
  · obtain ⟨text, rfl⟩ := f.check_error hc
    exact ⟨(unclassified_foreign _).wrap _ _ _, (unclassified_foreign _).wrap _ _ _⟩
  · obtain ⟨text, rfl⟩ := Database.insertEvent_error hi
    exact ⟨(unclassified_foreign _).wrap _ _ _, (unclassified_foreign _).wrap _ _ _⟩

section GuardedUpdate
variable {f : Faults} {op msg id : String} {guard : SandboxRow → Bool} {set : SandboxRow → SandboxRow}
  {hset : ∀ r, (set r).platformId = r.platformId}

theorem guardedUpdate_ok {sbx : Sandbox} (h : guardedUpdate f op msg id guard set hset db = .ok (sbx, db')) :
    ∃ row, db.sandbox? id = some row ∧ guard row = true ∧ scanSandbox (set row) = .ok sbx ∧
      db' = db.writeSandbox id set hset := by
  unfold guardedUpdate at h
  rcases hu : db.updateSandbox id guard set hset with ⟨row, db₁⟩
  rw [hu] at h
  dsimp only at h
  split at h
  · next sbx' hs =>
    obtain ⟨-, r, rfl, hr⟩ := scanRow_eq_ok.mp hs
    obtain ⟨row, hf, hg, rfl, rfl⟩ := Database.updateSandbox_some hu
    cases h
    exact ⟨row, hf, hg, hr, rfl⟩
  · split at h
    · split at h <;> cases h
    · cases h

/-- What the two refusals a caller tests for say about the row. -/
theorem guardedUpdate_error {e : Err} (h : guardedUpdate f op msg id guard set hset db = .error e) :
    (e.is .storeNotFound = true → db.sandbox? id = none) ∧
      (e.is .invalidStateTransition = true → ∃ row, db.sandbox? id = some row ∧ guard row = false) := by
  unfold guardedUpdate at h
  rcases hu : db.updateSandbox id guard set hset with ⟨row, db₁⟩
  rw [hu] at h
  dsimp only at h
  split at h
  · cases h
  next err hs =>
  split at h
  · next he =>
    rcases scanSandboxRow_error hs with hun | ⟨-, rfl⟩
    · rw [hun] at he
      cases he
    obtain ⟨rfl, hmiss⟩ := Database.updateSandbox_none hu
    split at h
    · next getErr hg =>
      cases h
      simp only [is_wrap]
      rcases scanSandboxRow_error hg with hun | ⟨rfl, hn⟩
      · simp [hun _]
      · exact ⟨fun _ => hn, fun hi => by simp at hi⟩
    · next sbx hg =>
      cases h
      obtain ⟨-, row, hrow, -⟩ := scanRow_eq_ok.mp hg
      exact ⟨fun hn => by simp at hn, fun _ => ⟨row, hrow, hmiss row hrow⟩⟩
  · next he =>
    cases h
    simp only [is_wrap]
    rcases scanSandboxRow_error hs with hun | ⟨rfl, -⟩
    · simp [hun _]
    · simp at he

end GuardedUpdate

/-! ## One lemma for each call that writes -/

theorem canTransition_error {a b : TaskState} {e : Err} (h : canTransition a b = .error e) :
    e.is .storeNotFound = false ∧ ¬Next a b := by
  constructor
  · unfold canTransition at h
    split_ifs at h <;> cases h <;> rfl
  · intro hn
    rw [(canTransition_ok_iff a b).mpr hn] at h
    cases h

/-- The failures of opening and committing are never mistaken for a refusal. -/
theorem begin_error {f : Faults} {op msg : String} {e : Err}
    (h : (f.check .begin).mapError (E op msg) = .error e) : e.Unclassified := by
  obtain ⟨e', hc, rfl⟩ := mapError_eq_error.mp h
  obtain ⟨text, rfl⟩ := f.check_error hc
  exact (unclassified_foreign _).E _ _

theorem commit_unclassified {f : Faults} {op msg : String} {e : Err} {applied : Bool}
    (h : f.commit (E op msg) = .failed e applied) : e.Unclassified := by
  obtain ⟨text, rfl⟩ := f.commit_failed h
  exact (unclassified_foreign _).E _ _

variable {f : Faults} {now : Time} {id : String}

/-- **A transition**: either it committed, whatever the answer, or nothing changed; the two refusals
say why the guard missed. -/
theorem updateSandboxState_cases {a b : TaskState} {reason : String} {v : ℤ} {r : Except Err Sandbox}
    (h : updateSandboxState f now id a b reason v db = (r, db')) :
    (∃ row sbx, Transitioned now id row b reason db db' ∧ row.state = a ∧ row.versionId = v ∧
        scanSandbox (row.moveTo b now) = .ok sbx ∧ (r = .ok sbx ∨ ∃ e, r = .error e ∧ e.Unclassified)) ∨
      (db' = db ∧ ∃ e, r = .error e ∧ (e.is .storeNotFound = true → db.sandbox? id = none) ∧
        (Next a b → e.is .invalidStateTransition = true →
          ∃ row, db.sandbox? id = some row ∧ observed a v row = false)) := by
  unfold updateSandboxState at h
  dsimp only at h
  split at h
  · next err hc =>
    obtain ⟨rfl, rfl⟩ := Prod.mk.inj h
    obtain ⟨hnf, hnext⟩ := canTransition_error hc
    exact .inr ⟨rfl, _, rfl, by simp [hnf], fun hn => absurd hn hnext⟩
  next hc =>
  rcases atomically_cases h with ⟨rfl, e, rfl, he⟩ | ⟨sbx, hb, hr⟩
  · refine .inr ⟨rfl, e, rfl, ?_⟩
    rcases he with hbegin | hbody | ⟨applied, hcommit⟩
    · simp [begin_error hbegin _]
    · simp only [bind_eq_error, mapError_eq_error] at hbody
      rcases hbody with hu | ⟨_, _, ⟨e', ha, rfl⟩ | ⟨_, _, hr⟩⟩
      · obtain ⟨hnf, hist⟩ := guardedUpdate_error hu
        exact ⟨hnf, fun _ => hist⟩
      · obtain ⟨hnf, hist⟩ := appendEvent_error ha
        simp [hnf, hist]
      · cases hr
    · simp [commit_unclassified hcommit _]
  · simp only [bind_eq_ok, mapError_eq_ok] at hb
    obtain ⟨⟨sbx', db₁⟩, hu, db₂, happ, hret⟩ := hb
    cases hret
    obtain ⟨row, hfound, hguard, hscan, rfl⟩ := guardedUpdate_ok hu
    obtain ⟨-, hins⟩ := appendEvent_ok happ
    obtain ⟨hs, hk, hev⟩ := Database.insertEvent_ok hins
    obtain ⟨-, hsbx⟩ := scanSandbox_ok hscan
    simp only [observed, Bool.and_eq_true, decide_eq_true_eq] at hguard
    obtain ⟨hstate, hversion⟩ := hguard
    have hid : row.platformId = id := Table.key_of_find? hfound
    refine .inl ⟨row, sbx', ⟨hfound, ?_, fun id' => ?_, hk, ?_⟩, hstate, hversion, hscan, ?_⟩
    · rw [hstate]
      exact (canTransition_ok_iff a b).mp hc
    · rw [Database.sandbox?, hs]
      refine (Database.writeSandbox_sandbox? id _ (SandboxRow.moveTo_platformId b now) id').trans ?_
      split
      · next hi => rw [hi, hfound, Option.map_some]
      · rfl
    · rw [hev, hsbx, hstate]
      exact ⟨_, by rw [← hid]; rfl⟩
    · rcases hr with rfl | ⟨e, rfl, hcommit⟩
      · exact .inl rfl
      · exact .inr ⟨e, rfl, commit_unclassified hcommit⟩

/-- **A renewal**: it committed, whatever the answer, or nothing changed. -/
theorem updateSandboxExpiry_cases {expiresAt : Time} {r : Except Err Sandbox}
    (h : updateSandboxExpiry f now id expiresAt db = (r, db')) :
    (∃ row sbx, Renewed now id row expiresAt db db' ∧ expiresAt ≠ 0 ∧
        scanSandbox (row.renew expiresAt now) = .ok sbx ∧ (r = .ok sbx ∨ ∃ e, r = .error e)) ∨
      (db' = db ∧ ∃ e, r = .error e) := by
  unfold updateSandboxExpiry at h
  dsimp only at h
  split at h
  · obtain ⟨rfl, rfl⟩ := Prod.mk.inj h
    exact .inr ⟨rfl, _, rfl⟩
  next hz =>
  rcases atomically_cases h with ⟨rfl, e, rfl, -⟩ | ⟨sbx, hb, hr⟩
  · exact .inr ⟨rfl, e, rfl⟩
  · obtain ⟨row, hfound, hguard, hscan, rfl⟩ := guardedUpdate_ok hb
    refine .inl ⟨row, sbx, ⟨hfound, by simpa [renewable] using hguard, fun id' => ?_, rfl, rfl⟩,
      by simpa [Time.isZero] using hz, hscan, ?_⟩
    · rw [Database.writeSandbox_sandbox?]
      split
      · next hi => rw [hi, hfound, Option.map_some]
      · rfl
    · rcases hr with rfl | ⟨e, rfl, -⟩
      · exact .inl rfl
      · exact .inr ⟨e, rfl⟩

/-- The event of a sandbox without an id is not valid, so no row without one is committed. -/
theorem insertSandbox_unnamed {key : String} {spec : Json} {expiresAt : Time} {r : Except Err Sandbox}
    (h : insertSandbox f now key spec "" expiresAt db = (r, db')) : db' = db := by
  unfold insertSandbox at h
  dsimp only at h
  rcases atomically_cases h with ⟨rfl, -⟩ | ⟨sbx, hb, -⟩
  · rfl
  · simp only [bind_eq_ok, mapError_eq_ok] at hb
    obtain ⟨⟨sbx', db₁⟩, hsbx, ⟨k, db₂⟩, -, db₃, happ, -⟩ := hb
    obtain ⟨row, hins, hscan⟩ := insertSandboxRow_ok hsbx
    obtain ⟨rfl, -⟩ := Database.insertSandbox_ok hins
    obtain ⟨hvalid, -⟩ := appendEvent_ok happ
    exact absurd (scanSandbox_id hscan) ((Event.validate_ok_iff _).mp hvalid).1

/-- **A creation**: the row, its key and its first event, or nothing. -/
theorem insertSandbox_cases {key : String} {spec : Json} {expiresAt : Time} {r : Except Err Sandbox}
    (h : insertSandbox f now key spec id expiresAt db = (r, db')) :
    (∃ row sbx, Created now key spec id expiresAt db db' ∧ db'.sandbox? id = some row ∧
        scanSandbox row = .ok sbx ∧ (r = .ok sbx ∨ ∃ e, r = .error e)) ∨
      (db' = db ∧ ∃ e, r = .error e) := by
  unfold insertSandbox at h
  dsimp only at h
  rcases atomically_cases h with ⟨rfl, e, rfl, -⟩ | ⟨sbx, hb, hr⟩
  · exact .inr ⟨rfl, e, rfl⟩
  simp only [bind_eq_ok, mapError_eq_ok] at hb
  obtain ⟨⟨sbx', db₁⟩, hsbx, ⟨k, db₂⟩, hkey, db₃, happ, hret⟩ := hb
  cases hret
  obtain ⟨row, hins, hscan⟩ := insertSandboxRow_ok hsbx
  obtain ⟨hrow, hfresh, -, hfind, hkeys₁, hev₁⟩ := Database.insertSandbox_ok hins
  obtain ⟨krow, hkins⟩ := insertKeyRow_ok hkey
  obtain ⟨hkrow, -, hunkeyed, hkrows, hkfind, hs₂, hev₂⟩ := Database.insertKey_ok hkins
  obtain ⟨-, heins⟩ := appendEvent_ok happ
  obtain ⟨hs₃, hk₃, hev₃⟩ := Database.insertEvent_ok heins
  obtain ⟨-, hsbx⟩ := scanSandbox_ok hscan
  have hsandbox : ∀ id', db'.sandbox? id' = if id = id' then some row else db.sandbox? id' := fun id' => by
    rw [← hfind id', Database.sandbox?, Database.sandbox?, hs₃, hs₂]
  have hkey? : ∀ k, db'.key? k = if key = k then some krow else db.key? k := fun k => by
    have hk := hkfind k
    simp only [Database.key?, hk₃, hkeys₁] at hk ⊢
    exact hk
  have hsid : sbx'.sandboxID = id := by
    rw [hsbx, hrow]
    rfl
  refine .inl ⟨row, sbx', ⟨hfresh, ?_, ⟨db.sandboxes.rows.length + 1, fun id' => ?_⟩, ?_, ?_, ?_⟩, ?_, hscan, ?_⟩
  · simpa only [Database.key?, hkeys₁] using hunkeyed
  · rw [hsandbox id', hrow]
    simp only [eq_comm]
  · rw [hk₃, hkrows, hkrow, hkeys₁, hsid]
    exact ⟨_, rfl⟩
  · refine ⟨db₁.idempotencyKeys.rows.length + 1, fun k => ?_⟩
    rw [hkey? k, hkrow, hsid]
    simp only [eq_comm]
  · rw [hev₃, hev₂, hev₁, hsbx, hrow]
    exact ⟨_, rfl⟩
  · rw [hsandbox id, if_pos rfl]
  · rcases hr with rfl | ⟨e, rfl, -⟩
    · exact .inl rfl
    · exact .inr ⟨e, rfl⟩

theorem createIdempotencyKey_cases {key : String} {r : Except Err IdempotencyKey}
    (h : createIdempotencyKey f now key id db = (r, db')) : Keyed key id db db' ∨ db' = db := by
  unfold createIdempotencyKey at h
  dsimp only at h
  rcases atomically_cases h with ⟨rfl, -⟩ | ⟨k, hb, -⟩
  · exact .inr rfl
  rw [mapError_eq_ok] at hb
  obtain ⟨row, hins⟩ := insertKeyRow_ok hb
  obtain ⟨-, hrow, hunkeyed, -, -, hs, hev⟩ := Database.insertKey_ok hins
  exact .inl ⟨hrow, hunkeyed, hs, hev⟩

/-! ## Calls none of whose statements fails -/

theorem scanSandbox_of_spec {r : SandboxRow} {spec : SpecFile} (h : SpecFile.ofJSON r.spec = .ok spec) :
    scanSandbox r = .ok (sandboxOf r spec) := by
  rw [scanSandbox, h]

theorem scanEach_succeeds {ρ α : Type} {scan : ρ → Except Err α} {rows : List ρ}
    (h : ∀ r ∈ rows, ∃ a, scan r = .ok a) : ∃ items, scanEach scan rows = .ok items := by
  induction rows with
  | nil => exact ⟨[], rfl⟩
  | cons r rows ih =>
    obtain ⟨a, ha⟩ := h r (List.mem_cons_self ..)
    obtain ⟨items, hi⟩ := ih fun r hr => h r (List.mem_cons_of_mem _ hr)
    exact ⟨a :: items, by rw [scanEach, ha, hi]; rfl⟩

theorem getSandboxes_succeeds (h : ∀ r ∈ db.sandboxes.rows, ∃ sbx, scanSandbox r = .ok sbx) :
    ∃ sbxs, getSandboxes .none db = .ok sbxs := by
  obtain ⟨items, hi⟩ := scanEach_succeeds h
  exact ⟨items, bind_eq_ok.mpr ⟨(), rfl, mapError_eq_ok.mpr
    (bind_eq_ok.mpr ⟨items, hi, bind_eq_ok.mpr ⟨(), rfl, rfl⟩⟩)⟩⟩

theorem guardedUpdate_hit {op msg : String} {guard : SandboxRow → Bool} {set : SandboxRow → SandboxRow}
    {hset : ∀ r, (set r).platformId = r.platformId} {row : SandboxRow} {sbx : Sandbox}
    (h : db.sandbox? id = some row) (hg : guard row = true) (hs : scanSandbox (set row) = .ok sbx) :
    guardedUpdate .none op msg id guard set hset db = .ok (sbx, db.writeSandbox id set hset) := by
  simp [guardedUpdate, Database.updateSandbox_hit h hg, scanRow, Faults.check, Faults.none, hs]

theorem appendEvent_fresh {e : Event} (hv : e.validate = .ok ()) (hs : (db.sandbox? e.sandboxID).isSome)
    (h : ∀ r ∈ db.events.rows, r.sandboxId = e.sandboxID → r.versionId ≠ e.versionID) :
    ∃ db', appendEvent .none e db = .ok db' := by
  obtain ⟨db', hi⟩ := Database.insertEvent_fresh e.fromState e.toState e.happenedAt e.reason hs h
  exact ⟨db', bind_eq_ok.mpr ⟨(), mapError_eq_ok.mpr hv, bind_eq_ok.mpr ⟨(), rfl, mapError_eq_ok.mpr hi⟩⟩⟩

/-- A transition the row allows, whose event has a free version, commits. -/
theorem updateSandboxState_succeeds {row : SandboxRow} {b : TaskState} {reason : String} {spec : SpecFile}
    (h : db.sandbox? id = some row) (hn : Next row.state b) (hspec : SpecFile.ofJSON row.spec = .ok spec)
    (hid : id ≠ "") (hversion : 0 ≤ row.versionId) (hreason : reason ≠ "")
    (hfree : ∀ e ∈ db.events.rows, e.sandboxId = id → e.versionId ≠ row.versionId + 1) :
    ∃ sbx db', updateSandboxState .none now id row.state b reason row.versionId db = (.ok sbx, db') := by
  have hscan := scanSandbox_of_spec (r := row.moveTo b now) hspec
  have hrow : row.platformId = id := Table.key_of_find? h
  have hvalid : (⟨0, row.versionId + 1, row.platformId, row.state, b, now, reason⟩ : Event).validate = .ok () :=
    (Event.validate_ok_iff _).mpr
      ⟨by rwa [hrow], by show 1 ≤ row.versionId + 1; omega, hn.ne_zero, hreason⟩
  have hthere : ((db.writeSandbox id (.moveTo b now) (SandboxRow.moveTo_platformId b now)).sandbox?
      row.platformId).isSome := by
    rw [Database.writeSandbox_sandbox?, if_pos hrow, hrow, h]
    rfl
  obtain ⟨db', ha⟩ := appendEvent_fresh hvalid hthere fun e he hi => hfree e he (hi.trans hrow)
  refine ⟨sandboxOf (row.moveTo b now) spec, db', ?_⟩
  unfold updateSandboxState
  dsimp only
  rw [(canTransition_ok_iff _ _).mpr hn]
  refine atomically_applied (bind_eq_ok.mpr ⟨_, guardedUpdate_hit h (by simp [observed]) hscan, ?_⟩)
  exact bind_eq_ok.mpr ⟨db', mapError_eq_ok.mpr ha, rfl⟩

theorem updateSandboxExpiry_succeeds {row : SandboxRow} {expiresAt : Time} {spec : SpecFile} (now : Time)
    (h : db.sandbox? id = some row) (ha : row.state = .pending ∨ row.state = .running) (ht : expiresAt ≠ 0)
    (hspec : SpecFile.ofJSON row.spec = .ok spec) :
    ∃ sbx db', updateSandboxExpiry .none now id expiresAt db = (.ok sbx, db') := by
  have hscan := scanSandbox_of_spec (r := row.renew expiresAt now) hspec
  refine ⟨sandboxOf (row.renew expiresAt now) spec, db.writeSandbox id (.renew expiresAt now) (SandboxRow.renew_platformId expiresAt now), ?_⟩
  unfold updateSandboxExpiry
  dsimp only
  rw [if_neg (by simpa [Time.isZero] using ht)]
  exact atomically_applied (guardedUpdate_hit h (by simpa [renewable] using ha) hscan)

theorem insertSandboxRow_fresh {spec : Json} {s : SpecFile} (now expiresAt : Time) (hid : db.sandbox? id = none)
    (hspec : SpecFile.ofJSON spec = .ok s) : ∃ row db', row.spec = spec ∧
      db.insertSandbox .pending spec id expiresAt now = .ok (row, db') ∧
        insertSandboxRow .none now spec id expiresAt db = .ok (sandboxOf row s, db') := by
  obtain ⟨row, db', hins⟩ := Database.insertSandbox_fresh .pending spec expiresAt now hid
  obtain ⟨hrow, -⟩ := Database.insertSandbox_ok hins
  have hdoc : row.spec = spec := by rw [hrow]
  refine ⟨row, db', hdoc, hins, bind_eq_ok.mpr ⟨(), rfl, ?_⟩⟩
  refine bind_eq_ok.mpr ⟨(row, db'), mapError_eq_ok.mpr hins, bind_eq_ok.mpr ⟨sandboxOf row s, ?_, rfl⟩⟩
  exact scanSandbox_of_spec (hdoc ▸ hspec)

theorem insertKeyRow_fresh (now : Time) (key : String) (hs : (db.sandbox? id).isSome) (hkey : db.key? key = none) :
    ∃ k row db', db.insertKey key id now = .ok (row, db') ∧
      insertKeyRow .none now key id db = .ok (k, db') := by
  obtain ⟨row, db', hins⟩ := Database.insertKey_fresh now hs hkey
  refine ⟨keyOf row, row, db', hins, bind_eq_ok.mpr ⟨(), rfl, ?_⟩⟩
  exact bind_eq_ok.mpr ⟨(row, db'), mapError_eq_ok.mpr hins, bind_eq_ok.mpr ⟨_, rfl, rfl⟩⟩

theorem insertSandbox_succeeds {key : String} {spec : Json} {s : SpecFile} (now expiresAt : Time)
    (hid : db.sandbox? id = none) (hne : id ≠ "") (hkey : db.key? key = none)
    (hspec : SpecFile.ofJSON spec = .ok s) :
    ∃ sbx db', insertSandbox .none now key spec id expiresAt db = (.ok sbx, db') := by
  obtain ⟨row, db₁, -, hins, hinsert⟩ := insertSandboxRow_fresh now expiresAt hid hspec
  obtain ⟨rfl, -, -, hfind, hkeys, hev⟩ := Database.insertSandbox_ok hins
  have hthere : (db₁.sandbox? id).isSome := by
    rw [hfind, if_pos rfl]
    rfl
  obtain ⟨k, krow, db₂, hkins, hkinsert⟩ := insertKeyRow_fresh now key hthere
    (by rwa [Database.key?, hkeys])
  obtain ⟨-, -, -, -, -, hs₂, hev₂⟩ := Database.insertKey_ok hkins
  have hvalid : (⟨0, 1, id, .zero, .pending, now, "sandbox record created"⟩ : Event).validate = .ok () :=
    (Event.validate_ok_iff _).mpr ⟨hne, le_refl _, by simp [TaskState.zero], by simp⟩
  have hfree : ∀ e ∈ db₂.events.rows, e.sandboxId = id → e.versionId ≠ 1 := fun e he hi => by
    rw [hev₂, hev] at he
    have href := db.eventReferences e he
    rw [Database.sandbox?] at hid
    simp [hi, hid] at href
  obtain ⟨db₃, happ⟩ := appendEvent_fresh hvalid (by rwa [Database.sandbox?, hs₂]) hfree
  refine ⟨sandboxOf ⟨db.sandboxes.rows.length + 1, 1, id, .pending, spec, expiresAt, now, now⟩ s, db₃, ?_⟩
  unfold insertSandbox
  refine atomically_applied ?_
  refine bind_eq_ok.mpr ⟨_, mapError_eq_ok.mpr hinsert, ?_⟩
  refine bind_eq_ok.mpr ⟨_, mapError_eq_ok.mpr hkinsert, ?_⟩
  exact bind_eq_ok.mpr ⟨db₃, mapError_eq_ok.mpr happ, rfl⟩

end Sqlite

/-! ## One relation for all calls -/

/-- What a store call leaves of the tables, whatever fails. -/
inductive StoreCall.Effect (clock : Time) (db : Database) : StoreCall → Database → Prop
  | same (c : StoreCall) : Effect clock db c db
  | keyed {key id : String} {db' : Database} (h : Keyed key id db db') :
      Effect clock db (.createIdempotencyKey key id) db'
  | created {key id : String} {spec : Json} {expiresAt : Time} {db' : Database}
      (h : Created clock.currentTimestamp key spec id expiresAt db db') :
      Effect clock db (.insertSandbox key spec id expiresAt) db'
  | renewed {id : String} {expiresAt : Time} {row : SandboxRow} {db' : Database}
      (h : Renewed clock.currentTimestamp id row expiresAt db db') :
      Effect clock db (.updateSandboxExpiry id expiresAt) db'
  | transitioned {id reason : String} {a b : TaskState} {v : ℤ} {row : SandboxRow} {db' : Database}
      (h : Transitioned clock.currentTimestamp id row b reason db db') (hstate : row.state = a)
      (hversion : row.versionId = v) : Effect clock db (.updateSandboxState id a b reason v) db'

theorem StoreCall.effect {f : Faults} {clock : Time} {c : StoreCall} {db db' : Database} {a : c.Answer}
    (h : c.exec f clock db = (a, db')) : c.Effect clock db db' := by
  cases c with
  | getIdempotencyKey | getSandbox | getSandboxes | getSandboxEvents =>
    obtain ⟨-, rfl⟩ := Prod.mk.inj h
    exact .same _
  | createIdempotencyKey key id =>
    rcases Sqlite.createIdempotencyKey_cases h with hk | rfl
    · exact .keyed hk
    · exact .same _
  | insertSandbox key spec id expiresAt =>
    rcases Sqlite.insertSandbox_cases h with ⟨row, sbx, hc, -⟩ | ⟨rfl, -⟩
    · exact .created hc
    · exact .same _
  | updateSandboxExpiry id expiresAt =>
    rcases Sqlite.updateSandboxExpiry_cases h with ⟨row, sbx, hr, -⟩ | ⟨rfl, -⟩
    · exact .renewed hr
    · exact .same _
  | updateSandboxState id fromState toState reason v =>
    rcases Sqlite.updateSandboxState_cases h with ⟨row, sbx, ht, hs, hv, -⟩ | ⟨rfl, -⟩
    · exact .transitioned ht hs hv
    · exact .same _

theorem StoreCall.exec_named {f : Faults} {clock : Time} {c : StoreCall} {db db' : Database} {a : c.Answer}
    (h : c.exec f clock db = (a, db')) (hnone : db.sandbox? "" = none) : db'.sandbox? "" = none := by
  have hrow : ∀ {id : String} {row : SandboxRow}, db.sandbox? id = some row → "" ≠ id := by
    rintro id row hrow rfl
    rw [hnone] at hrow
    cases hrow
  have heff := StoreCall.effect h
  cases heff with
  | same => exact hnone
  | keyed hk => rwa [Database.sandbox?, hk.sandboxes]
  | @created key id spec expiresAt _ hc =>
    by_cases hid : id = ""
    · subst hid
      rwa [Sqlite.insertSandbox_unnamed h]
    · obtain ⟨n, hfind⟩ := hc.sandbox
      rwa [hfind, if_neg (Ne.symm hid)]
  | renewed hr => rwa [hr.sandbox, if_neg (hrow hr.found)]
  | transitioned ht => rwa [ht.sandbox, if_neg (hrow ht.found)]

/-! ## What a call does to one sandbox -/

/-- The events of one sandbox in the order they were stored. -/
def Database.logOf (db : Database) (id : String) : List EventRow :=
  db.events.rows.filter fun e => e.sandboxId = id

/-- What a caller reads is that, ordered by version. -/
theorem Database.eventsOf_eq (db : Database) (id : String) :
    db.eventsOf id = (db.logOf id).insertionSort fun a b => a.versionId ≤ b.versionId := rfl

section One
variable {db db' : Database} {id : String}

theorem logOf_append {e : EventRow} (h : db'.events.rows = db.events.rows ++ [e]) (id : String) :
    db'.logOf id = if e.sandboxId = id then db.logOf id ++ [e] else db.logOf id := by
  unfold Database.logOf
  rw [h, List.filter_append]
  split
  · next he => simp [he]
  · next he => simp [he]

theorem logOf_absent (h : db.sandbox? id = none) : db.logOf id = [] := by
  refine List.filter_eq_nil_iff.mpr fun e he hid => ?_
  have href := db.eventReferences e he
  rw [of_decide_eq_true hid] at href
  rw [Database.sandbox?] at h
  simp [h] at href

/-- **One row**: every call leaves a row and its events alone, renews its lease, or takes it through one
transition and appends the event. -/
theorem StoreCall.Effect.row {clock : Time} {c : StoreCall} {row : SandboxRow} (h : c.Effect clock db db')
    (hrow : db.sandbox? id = some row) :
    (db'.sandbox? id = some row ∧ db'.logOf id = db.logOf id) ∨
      (∃ expiresAt, c = .updateSandboxExpiry id expiresAt ∧ (row.state = .pending ∨ row.state = .running) ∧
        db'.sandbox? id = some (row.renew expiresAt clock.currentTimestamp) ∧ db'.logOf id = db.logOf id) ∨
      ∃ b reason n, c = .updateSandboxState id row.state b reason row.versionId ∧ Next row.state b ∧
        db'.sandbox? id = some (row.moveTo b clock.currentTimestamp) ∧ db'.logOf id =
          db.logOf id ++ [⟨n, row.versionId + 1, id, row.state, b, clock.currentTimestamp, reason⟩] := by
  cases h with
  | same => exact .inl ⟨hrow, rfl⟩
  | keyed h => exact .inl ⟨by rwa [Database.sandbox?, h.sandboxes], by rw [Database.logOf, h.events, Database.logOf]⟩
  | @created key id' spec expiresAt _ h =>
    obtain ⟨n, hfind⟩ := h.sandbox
    obtain ⟨m, hev⟩ := h.events
    have hne : id ≠ id' := by
      rintro rfl
      rw [h.fresh] at hrow
      cases hrow
    exact .inl ⟨by rw [hfind id, if_neg hne, hrow], (logOf_append hev id).trans (if_neg (Ne.symm hne))⟩
  | @renewed id' expiresAt row' _ h =>
    have hlog : db'.logOf id = db.logOf id := by rw [Database.logOf, h.events, Database.logOf]
    by_cases hid : id = id'
    · subst hid
      obtain rfl : row = row' := Option.some.inj (hrow.symm.trans h.found)
      exact .inr (.inl ⟨expiresAt, rfl, h.alive, by rw [h.sandbox, if_pos rfl], hlog⟩)
    · exact .inl ⟨by rw [h.sandbox, if_neg hid, hrow], hlog⟩
  | @transitioned id' reason a b v row' _ h hstate hversion =>
    obtain ⟨n, hev⟩ := h.events
    by_cases hid : id = id'
    · subst hid
      obtain rfl : row = row' := Option.some.inj (hrow.symm.trans h.found)
      subst hstate hversion
      exact .inr (.inr ⟨b, reason, n, rfl, h.next, by rw [h.sandbox, if_pos rfl],
        (logOf_append hev id).trans (if_pos rfl)⟩)
    · exact .inl ⟨by rw [h.sandbox, if_neg hid, hrow], (logOf_append hev id).trans (if_neg (Ne.symm hid))⟩

theorem StoreCall.Effect.appends {clock : Time} {c : StoreCall} (h : c.Effect clock db db') :
    ∃ l, db'.events.rows = db.events.rows ++ l := by
  cases h with
  | same => exact ⟨[], (List.append_nil _).symm⟩
  | keyed h => exact ⟨[], by rw [h.events, List.append_nil]⟩
  | renewed h => exact ⟨[], by rw [h.events, List.append_nil]⟩
  | created h =>
    obtain ⟨n, hev⟩ := h.events
    exact ⟨_, hev⟩
  | transitioned h =>
    obtain ⟨n, hev⟩ := h.events
    exact ⟨_, hev⟩

theorem StoreCall.Effect.elsewhere {clock : Time} {c : StoreCall} (h : c.Effect clock db db') {row : SandboxRow}
    (hrow : db.sandbox? id = some row) (hrenew : ∀ expiresAt, c ≠ .updateSandboxExpiry id expiresAt)
    (hmove : ∀ a b reason v, c ≠ .updateSandboxState id a b reason v) : db'.sandbox? id = some row := by
  rcases h.row hrow with ⟨hsame, -⟩ | ⟨expiresAt, rfl, -⟩ | ⟨b, reason, n, rfl, -⟩
  · exact hsame
  · exact absurd rfl (hrenew expiresAt)
  · exact absurd rfl (hmove _ _ _ _)

theorem StoreCall.Effect.absent {clock : Time} {c : StoreCall} (h : c.Effect clock db db')
    (hnone : db.sandbox? id = none) : db'.sandbox? id = none ∨ ∃ key spec expiresAt,
      c = .insertSandbox key spec id expiresAt ∧ Created clock.currentTimestamp key spec id expiresAt db db' := by
  cases h with
  | same => exact .inl hnone
  | keyed h => exact .inl (by rwa [Database.sandbox?, h.sandboxes])
  | @created key id' spec expiresAt _ h =>
    obtain ⟨n, hfind⟩ := h.sandbox
    by_cases hid : id = id'
    · subst hid
      exact .inr ⟨key, spec, expiresAt, rfl, h⟩
    · exact .inl (by rw [hfind id, if_neg hid, hnone])
  | @renewed id' expiresAt row' _ h =>
    have hid : id ≠ id' := by
      rintro rfl
      rw [h.found] at hnone
      cases hnone
    exact .inl (by rw [h.sandbox, if_neg hid, hnone])
  | @transitioned id' reason a b v row' _ h _ _ =>
    have hid : id ≠ id' := by
      rintro rfl
      rw [h.found] at hnone
      cases hnone
    exact .inl (by rw [h.sandbox, if_neg hid, hnone])

end One

end Quickspin
