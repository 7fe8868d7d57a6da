import Quickspin.System
import Quickspin.Pairing
import Quickspin.Actions
import Quickspin.Idempotency
import Quickspin.Lib.Trace

/-! Admitted specs. A create resolves the spec it is sent before it stores the document of that spec; the
document reads back as the spec, and nothing later writes it. So whatever the rows are read back as was
admitted, and resolves as it did then. -/
namespace Quickspin
open Interaction Service Relational
set_option autoImplicit false

/-! ## What the threads insert -/

/-- A request inserts the document of a spec it has resolved, under its own key, and takes no other key. -/
def Request.Inserts {D : Signature} : Request → (calls D).Call → Prop
  | .create key spec _, .store (.insertSandbox key' json _ _) =>
    key' = key ∧ spec.toJSON = .ok json ∧ ∃ resolved, spec.resolveValidated = .ok resolved
  | _, .store (.insertSandbox ..) => False
  | _, .store (.createIdempotencyKey ..) => False
  | _, _ => True

/-- The worker inserts nothing. -/
def InsertsNothing {D : Signature} : (calls D).Call → Prop
  | .store (.insertSandbox ..) => False
  | .store (.createIdempotencyKey ..) => False
  | _ => True

section Text
variable {D : Signature}

theorem createSandboxRecord_inserts {key : String} {spec : SpecFile} {resolved : Runtime.Spec} (ttl : Duration)
    (expiresAt : Time) (hr : spec.resolveValidated = .ok resolved) :
    (createSandboxRecord (D := D) key spec expiresAt).Calls (Request.Inserts (.create key spec ttl)) := by
  unfold createSandboxRecord
  cases expiresAt.isZero with
  | true => trivial
  | false =>
    refine ⟨trivial, fun a => ?_⟩
    cases (a : Except Err (Option IdempotencyKey)) with
    | error err => trivial
    | ok k =>
      cases k with
      | some k =>
        refine ⟨trivial, fun a => ?_⟩
        cases (a : Except Err Sandbox) <;> trivial
      | none =>
        dsimp only
        cases hj : spec.toJSON with
        | error err => trivial
        | ok json => exact ⟨trivial, fun id => ⟨⟨rfl, hj, resolved, hr⟩, fun _ => trivial⟩⟩

theorem Request.handle_inserts (i : Request) : (Request.handle (D := D) i).Calls i.Inserts := by
  cases i with
  | create key spec ttl =>
    refine Program.Calls.bind (p := Control.createSandbox key spec ttl) ?_ fun _ => trivial
    unfold Control.createSandbox
    cases hr : spec.resolveValidated with
    | error err => trivial
    | ok resolved =>
      cases resolveTTL ttl with
      | error err => trivial
      | ok ttl' => exact ⟨trivial, fun t => (createSandboxRecord_inserts ttl _ hr).bind fun _ => trivial⟩
  | keepalive id ttl =>
    refine Program.Calls.bind (p := Control.keepaliveSandbox id ttl) ?_ fun _ => trivial
    unfold Control.keepaliveSandbox
    cases resolveTTL (min ttl MaxTTL) with
    | error err => trivial
    | ok ttl' => exact ⟨trivial, fun t => ⟨trivial, fun _ => trivial⟩⟩
  | destroy id =>
    refine Program.Calls.bind (p := Control.destroySandbox id) ?_ fun _ => trivial
    unfold Control.destroySandbox
    refine ⟨trivial, fun a => ?_⟩
    cases (a : Except Err Sandbox) with
    | error err =>
      show Program.Calls _ (if err.is .storeNotFound then _ else _)
      split <;> trivial
    | ok sbx =>
      refine ⟨trivial, fun a => ?_⟩
      cases (a : Except Err Sandbox) with
      | ok sbx' => trivial
      | error err =>
        show Program.Calls _ (if err.is .storeNotFound || err.is .invalidStateTransition then _ else _)
        split <;> trivial

end Text

theorem Reconciler.reconcileOnce_inserts : (Reconciler.reconcileOnce false).Calls InsertsNothing := by
  refine Reconciler.reconcileOnce_calls trivial trivial trivial (fun _ _ => trivial) fun id desired c hc => ?_
  cases c with
  | now | newSandboxID | backend | decide => trivial
  | store s =>
    cases s with
    | insertSandbox | createIdempotencyKey => exact hc
    | getIdempotencyKey | getSandbox | getSandboxes | getSandboxEvents | updateSandboxExpiry | updateSandboxState =>
      trivial

/-! ## What the rows hold -/

/-- A create with the key has inserted the sandbox under the spec, which resolved. -/
def Admits (ls : List ControlLabel) (key id : String) (spec : SpecFile) : Prop :=
  ∃ n ttl json expiresAt a, .request n (.create key spec ttl) (.store (.insertSandbox key json id expiresAt)) a ∈ ls ∧
    ∃ resolved, spec.resolveValidated = .ok resolved

theorem Admits.cons {ls : List ControlLabel} {key id : String} {spec : SpecFile} (h : Admits ls key id spec)
    (l : ControlLabel) : Admits (l :: ls) key id spec := by
  obtain ⟨n, ttl, json, expiresAt, a, hm, hr⟩ := h
  exact ⟨n, ttl, json, expiresAt, a, List.mem_cons_of_mem _ hm, hr⟩

/-- Every row holds an admitted spec; the sandbox of a key was admitted under the key. -/
structure Admitted (ls : List ControlLabel) (db : Database) : Prop where
  row : ∀ id row, db.sandbox? id = some row → ∃ key spec, Admits ls key id spec ∧ SpecFile.ofJSON row.spec = .ok spec
  key : ∀ key k, db.key? key = some k → ∃ row spec, db.sandbox? k.sandboxId = some row ∧
    Admits ls key k.sandboxId spec ∧ SpecFile.ofJSON row.spec = .ok spec

section Run
variable {ρ : Type} {B : Backend Runtime.signature ρ} {ls : List ControlLabel} {C C' : ControlConfig ρ}
  {l : ControlLabel}

/-- The step inserts what a create has resolved. -/
theorem Asks.admits {key id : String} {json : Json} {expiresAt : Time} {a : Except Err Sandbox}
    (ho : Obeys (fun i c _ => i.Inserts c) (fun c _ => InsertsNothing c) C) (hs : (controlPlane B).Step C l C')
    (hl : Asks l (.insertSandbox key json id expiresAt) a) :
    ∃ spec, Admits (l :: ls) key id spec ∧ SpecFile.ofJSON json = .ok spec := by
  rcases hl with rfl | ⟨n, i, rfl⟩
  · cases hs with
    | work hw _ => exact (ho.worker _ hw).1.elim
  · obtain ⟨next, htext, -⟩ := hs.request_node ho
    cases i with
    | keepalive | destroy => exact htext.elim
    | create key' spec ttl =>
      obtain ⟨rfl, hjson, hr⟩ := htext
      exact ⟨spec, ⟨n, ttl, json, expiresAt, a, List.mem_cons_self .., hr⟩, SpecFile.ofJSON_toJSON hjson⟩

theorem Asks.keyless {key id : String} {a : Except Err IdempotencyKey}
    (ho : Obeys (fun i c _ => i.Inserts c) (fun c _ => InsertsNothing c) C) (hs : (controlPlane B).Step C l C')
    (hl : Asks l (.createIdempotencyKey key id) a) : False := by
  rcases hl with rfl | ⟨n, i, rfl⟩
  · cases hs with
    | work hw _ => exact (ho.worker _ hw).1
  · obtain ⟨next, htext, -⟩ := hs.request_node ho
    cases i <;> exact htext

/-- **Step lemma**: what a step leaves in the rows was admitted before it or by it. -/
theorem Admitted.step (h : Admitted ls C.shared.db)
    (ho : Obeys (fun i c _ => i.Inserts c) (fun c _ => InsertsNothing c) C) (hs : (controlPlane B).Step C l C') :
    Admitted (l :: ls) C'.shared.db := by
  rcases Backend.step_db hs with he | ⟨s, a, hl, he⟩
  · rw [he]
    constructor
    · intro id row hrow
      obtain ⟨key, spec, ha, hj⟩ := h.row id row hrow
      exact ⟨key, spec, ha.cons l, hj⟩
    · intro key k hk
      obtain ⟨row, spec, hrow, ha, hj⟩ := h.key key k hk
      exact ⟨row, spec, hrow, ha.cons l, hj⟩
  have hkeyless : ∀ key id, s ≠ .createIdempotencyKey key id := by
    rintro key id rfl
    exact hl.keyless ho hs
  have hkept : Kept C.shared.db C'.shared.db := .effect he hkeyless
  constructor
  · intro id row' hrow'
    cases hrow : C.shared.db.sandbox? id with
    | some row =>
      obtain ⟨key, spec, ha, hj⟩ := h.row id row hrow
      obtain ⟨row₁, hrow₁, hspec⟩ := hkept.row id row hrow
      rw [hrow'] at hrow₁
      obtain rfl := Option.some.inj hrow₁
      exact ⟨key, spec, ha.cons l, by rw [hspec, hj]⟩
    | none =>
      rcases he.absent hrow with hn | ⟨key, json, expiresAt, rfl, hc⟩
      · rw [hn] at hrow'
        cases hrow'
      · obtain ⟨spec, ha, hj⟩ := hl.admits ho hs
        obtain ⟨n, hfind⟩ := hc.sandbox
        rw [hfind id, if_pos rfl] at hrow'
        obtain rfl := Option.some.inj hrow'
        exact ⟨key, spec, ha, hj⟩
  · intro key k' hk'
    cases hk : C.shared.db.key? key with
    | some k =>
      obtain rfl : k' = k := Option.some.inj (hk'.symm.trans (hkept.key key k hk))
      obtain ⟨row, spec, hrow, ha, hj⟩ := h.key key k' hk
      obtain ⟨row₁, hrow₁, hspec⟩ := hkept.row _ row hrow
      exact ⟨row₁, spec, hrow₁, ha.cons l, by rw [hspec, hj]⟩
    | none =>
      obtain ⟨json, expiresAt, rfl, hc⟩ := new_key he hkeyless hk hk'
      obtain ⟨spec, ha, hj⟩ := hl.admits ho hs
      obtain ⟨n, hfind⟩ := hc.sandbox
      exact ⟨_, spec, (hfind _).trans (if_pos rfl), ha, hj⟩

variable {t₀ : Time} {r₀ : ρ}

theorem inserts_obeyed (h : (controlPlane B).Run Always (.idle ⟨.empty, t₀, r₀⟩) ls C) :
    Obeys (fun i c _ => i.Inserts c) (fun c _ => InsertsNothing c) C :=
  h.obeys Request.handle_inserts Reconciler.reconcileOnce_inserts (obeys_idle _)

/-- **Run lemma**: every row of a run holds an admitted spec. -/
theorem admitted_run (h : (controlPlane B).Run Always (.idle ⟨.empty, t₀, r₀⟩) ls C) : Admitted ls C.shared.db := by
  induction h with
  | nil =>
    constructor
    · intro id row hrow
      cases hrow
    · intro key k hk
      cases hk
  | cons hr _ hs ih => exact ih.step (inserts_obeyed hr) hs

theorem kept_run (h₀ : (controlPlane B).Run Always (.idle ⟨.empty, t₀, r₀⟩) ls C) {ms : List ControlLabel}
    (h : (controlPlane B).Run Always C ms C') : Kept C.shared.db C'.shared.db := by
  induction h with
  | nil => exact .refl _
  | @cons ms C₁ C₂ l hr _ hs ih =>
    refine ih.trans ?_
    rcases Backend.step_db hs with he | ⟨s, a, hl, he⟩
    · rw [he]
      exact .refl _
    · refine .effect he ?_
      rintro key id rfl
      exact hl.keyless (inserts_obeyed (h₀.trans hr)) hs

end Run

/-! ## What the creates answer -/

/-- A create that succeeds has inserted its own spec, or has found its key and read the key's sandbox. -/
def Request.Settles : Request → List (Exchange (calls Runtime.signature)) → Response → Prop
  | .create key spec _, h, r => ∀ sbx, r = .sandbox (.ok sbx) →
    (∃ json id expiresAt, spec.toJSON = .ok json ∧
      (⟨.store (.insertSandbox key json id expiresAt), Except.ok sbx⟩ : Exchange (calls Runtime.signature)) ∈ h) ∨
    ∃ k, (⟨.store (.getIdempotencyKey key), Except.ok (some k)⟩ : Exchange (calls Runtime.signature)) ∈ h ∧
      (⟨.store (.getSandbox k.sandboxID), Except.ok sbx⟩ : Exchange (calls Runtime.signature)) ∈ h
  | _, _, _ => True

theorem Request.handle_settles (i : Request) :
    (Request.handle i).Tells (fun _ _ => True) (Request.Settles i) [] := by
  cases i with
  | keepalive | destroy => exact Program.tells_true _ _
  | create key spec ttl =>
    show Program.Tells _ _ _ (Control.createSandbox key spec ttl >>= _)
    unfold Control.createSandbox
    cases spec.resolveValidated with
    | error err =>
      intro sbx hr
      cases hr
    | ok resolved =>
      cases resolveTTL ttl with
      | error err =>
        intro sbx hr
        cases hr
      | ok ttl' =>
        refine ⟨trivial, fun t => ?_⟩
        show Program.Tells _ _ _ ((createSandboxRecord key spec (Time.add t ttl') >>= _) >>= _)
        unfold createSandboxRecord
        cases hz : Time.isZero (Time.add t ttl') with
        | true =>
          intro sbx hr
          cases hr
        | false =>
          refine ⟨trivial, fun a => ?_⟩
          cases (a : Except Err (Option IdempotencyKey)) with
          | error err =>
            intro sbx hr
            cases hr
          | ok k =>
            cases k with
            | some k =>
              refine ⟨trivial, fun a => ?_⟩
              cases (a : Except Err Sandbox) with
              | error err =>
                intro sbx hr
                cases hr
              | ok sbx' =>
                intro sbx hr
                cases hr
                exact .inr ⟨k, by simp, by simp⟩
            | none =>
              dsimp only
              cases hj : spec.toJSON with
              | error err =>
                intro sbx hr
                cases hr
              | ok json =>
                refine ⟨trivial, fun id => ⟨trivial, fun a => ?_⟩⟩
                cases (a : Except Err Sandbox) with
                | error err =>
                  intro sbx hr
                  cases hr
                | ok sbx' =>
                  intro sbx hr
                  cases hr
                  exact .inl ⟨json, id, _, hj, List.mem_cons_self ..⟩

section Answers
variable {ρ : Type} {B : Backend Runtime.signature ρ} {ls : List ControlLabel} {C C' : ControlConfig ρ}
  {t₀ : Time} {r₀ : ρ}

/-- A call that was answered in a run, at the step that answered it. -/
theorem exchanged (h : (controlPlane B).Run Always (.idle ⟨.empty, t₀, r₀⟩) ls C) {n : ℕ} {i : Request}
    {c : StoreCall} {a : c.Answer} (hm : .request n i (.store c) a ∈ ls) :
    ∃ (pre : List ControlLabel) (C₁ C₂ : ControlConfig ρ), (controlPlane B).Run Always (.idle ⟨.empty, t₀, r₀⟩) pre C₁ ∧
      (∃ f, c.exec f C₁.shared.clock C₁.shared.db = (a, C₂.shared.db)) ∧ Kept C₁.shared.db C₂.shared.db ∧
      Kept C₂.shared.db C.shared.db := by
  obtain ⟨post, pre, rfl⟩ := List.append_of_mem hm
  obtain ⟨C₁, C₂, h₁, hs, h₂⟩ := h.split
  obtain ⟨f, db, he, hdb⟩ := Asks.exec (.inr ⟨n, i, rfl⟩) hs
  have hstep := h₁.cons trivial hs
  refine ⟨pre, C₁, C₂, h₁, ⟨f, by rw [he, hdb]⟩, ?_, kept_run hstep h₂⟩
  exact kept_run h₁ (Run.one hs)

/-- **An answered create**: in every later state its key names the sandbox it answered with, whose row still reads
back the spec it answered with. -/
theorem answered_create (h : (controlPlane B).Run Always (.idle ⟨.empty, t₀, r₀⟩) ls C) {n : ℕ} {key : String}
    {spec : SpecFile} {ttl : Duration} {sbx : Sandbox} (hm : .respond n (.create key spec ttl) (.sandbox (.ok sbx)) ∈ ls) :
    (∃ k, C.shared.db.key? key = some k ∧ k.sandboxId = sbx.sandboxID) ∧
      (∃ row, C.shared.db.sandbox? sbx.sandboxID = some row ∧ SpecFile.ofJSON row.spec = .ok sbx.spec) ∧
      (sbx.spec = spec ∨ ∃ k, .request n (.create key spec ttl) (.store (.getIdempotencyKey key)) (Except.ok (some k)) ∈ ls) := by
  obtain ⟨hist, hsettled, hlabels⟩ := h.respond_tells Request.handle_settles (fun _ => rfl) hm
  rcases hsettled sbx rfl with ⟨json, id, expiresAt, hj, hins⟩ | ⟨k, hkey, hget⟩
  · obtain ⟨pre, C₁, C₂, -, ⟨f, he⟩, -, hkept⟩ := exchanged h (hlabels _ hins)
    rcases Sqlite.insertSandbox_cases he with ⟨row, sbx', hc, hrow, hscan, hr⟩ | ⟨-, e, hr⟩
    · have hsame : sbx' = sbx := by
        rcases hr with hr | ⟨e, hr⟩
        · exact (Except.ok.inj hr).symm
        · cases hr
      subst hsame
      obtain ⟨hspec, -⟩ := Sqlite.scanSandbox_ok hscan
      have hid : sbx'.sandboxID = id := (Sqlite.scanSandbox_id hscan).trans (Table.key_of_find? hrow)
      obtain ⟨m, hfind⟩ := hc.key
      have hdoc : row.spec = json := by
        obtain ⟨m, hfind⟩ := hc.sandbox
        rw [hfind id, if_pos rfl] at hrow
        rw [← Option.some.inj hrow]
      have hkey : C.shared.db.key? key = some ⟨m, id, key, _, _⟩ := hkept.key key _ ((hfind key).trans (if_pos rfl))
      obtain ⟨row', hrow', hspec'⟩ := hkept.row id row hrow
      refine ⟨⟨_, hkey, hid.symm⟩, ⟨row', hid ▸ hrow', by rw [hspec', hspec]⟩, .inl ?_⟩
      rw [hdoc, SpecFile.ofJSON_toJSON hj] at hspec
      exact (Except.ok.inj hspec).symm
    · cases hr
  · have hfound := hlabels _ hkey
    obtain ⟨pre, C₁, C₂, -, ⟨f, he⟩, hstep, hkept⟩ := exchanged h hfound
    obtain ⟨hread, -⟩ := Prod.mk.inj he
    obtain ⟨krow, hkrow, hk⟩ := Option.map_eq_some_iff.mp (Sqlite.getIdempotencyKey_ok hread).symm
    have hkid : krow.sandboxId = k.sandboxID := by
      rw [← hk]
      rfl
    obtain ⟨pre', C₁', C₂', -, ⟨f', he'⟩, hstep', hkept'⟩ := exchanged h (hlabels _ hget)
    obtain ⟨hread', -⟩ := Prod.mk.inj he'
    obtain ⟨row, hrow, hscan⟩ := Sqlite.getSandbox_ok hread'
    obtain ⟨hspec, -⟩ := Sqlite.scanSandbox_ok hscan
    have hid : sbx.sandboxID = k.sandboxID := (Sqlite.scanSandbox_id hscan).trans (Table.key_of_find? hrow)
    obtain ⟨row', hrow', hspec'⟩ := (hstep'.trans hkept').row _ row hrow
    refine ⟨⟨krow, (hstep.trans hkept).key key krow hkrow, hkid.trans hid.symm⟩, ⟨row', hid ▸ hrow', ?_⟩, .inr ⟨k, hfound⟩⟩
    rw [hspec', hspec]

end Answers

/-! ## The unresolvable spec -/

namespace Reconciler

/-- The calls that fail a row because its spec does not resolve. -/
def Unresolved : (calls Runtime.signature).Call → Prop
  | .store (.updateSandboxState _ _ _ reason _) => reason = unresolvedReason
  | _ => False

/-- The pass has listed a row whose spec does not resolve. -/
def ListedUnresolved (h : List (Exchange (calls Runtime.signature))) : Prop :=
  ∃ sbxs, (⟨.store .getSandboxes, Except.ok sbxs⟩ : Exchange (calls Runtime.signature)) ∈ h ∧
    ∃ sbx ∈ sbxs, ∃ err, sbx.spec.resolveValidated = .error err

theorem reconcileOnce_unresolved :
    (reconcileOnce false).Tells (fun h c => Unresolved c → ListedUnresolved h) (fun _ _ => True) [] := by
  refine ⟨fun h => h.elim, fun a => ?_⟩
  cases (a : Except Err (List Sandbox)) with
  | error err => trivial
  | ok sbxs =>
    refine ⟨fun h => h.elim, fun a => ?_⟩
    cases (a : Except Err (List Runtime.Info)) with
    | error err => trivial
    | ok infos =>
      refine ⟨fun h => h.elim, fun t => ?_⟩
      refine Program.Tells.bind (p := reconcileItems t (pairSnapshots sbxs infos)) ?_
      by_cases hall : ∃ sbx ∈ sbxs, ∃ err, sbx.spec.resolveValidated = .error err
      · have hlisted : ListedUnresolved [⟨.now, t⟩, ⟨.backend .list, Except.ok infos⟩, ⟨.store .getSandboxes, Except.ok sbxs⟩] :=
          ⟨sbxs, by simp, hall⟩
        have hkeep : ∀ h c (a : (calls Runtime.signature).Answer c), ListedUnresolved h → True →
            ListedUnresolved (⟨c, a⟩ :: h) := fun h c a ⟨sbxs', hm, hbad⟩ _ => ⟨sbxs', List.mem_cons_of_mem _ hm, hbad⟩
        have htells : (reconcileItems t (pairSnapshots sbxs infos)).Tells (fun h c => Unresolved c → ListedUnresolved h)
            (fun h _ => ListedUnresolved h) _ :=
          Program.Calls.tells (Program.nodes_true _) (fun h c hl _ _ => hl) hkeep hlisted
        exact htells.mono fun _ _ _ => trivial
      · have hcalls : (reconcileItems t (pairSnapshots sbxs infos)).Calls fun c => ¬Unresolved c := by
          refine reconcileItems_calls t (fun _ _ => id) fun item hm c hc => ?_
          cases c with
          | now | newSandboxID | backend | decide => exact id
          | store s =>
            cases s with
            | updateSandboxState id a b reason v =>
              obtain ⟨-, sbx, hsbx, -, hbad⟩ := hc
              exact fun hr => hall ⟨sbx, desired_mem hm hsbx, hbad hr⟩
            | getIdempotencyKey | createIdempotencyKey | getSandbox | getSandboxes | getSandboxEvents | insertSandbox
              | updateSandboxExpiry => exact id
        exact (hcalls.tells (I := fun _ => True) (fun h c _ hc hu => absurd hu hc) (fun _ _ _ _ _ => trivial)
          trivial).mono fun _ _ _ => trivial

end Reconciler

section Claim
variable {ρ : Type} {B : Backend Runtime.signature ρ} {ls : List ControlLabel} {C C' : ControlConfig ρ}
  {t₀ : Time} {r₀ : ρ}

/-- What a listing reads of the rows was admitted, and resolves. -/
theorem Admitted.listed {db : Database} (h : Admitted ls db) {f : Faults} {sbxs : List Sandbox}
    (hl : Sqlite.getSandboxes f db = .ok sbxs) {sbx : Sandbox} (hs : sbx ∈ sbxs) :
    ∃ key, Admits ls key sbx.sandboxID sbx.spec := by
  obtain ⟨row, hrow, hscan⟩ := Sqlite.getSandboxes_row hl hs
  obtain ⟨hspec, -⟩ := Sqlite.scanSandbox_ok hscan
  obtain ⟨key, spec, ha, hj⟩ := h.row sbx.sandboxID row hrow
  rw [hspec] at hj
  obtain rfl := Except.ok.inj hj
  exact ⟨key, ha⟩

/-- **Admitted specs stay resolvable**, in every state of every run. A listing reads every row, each under the spec,
field for field, of the create that inserted it, which resolves as it did then. The sandbox a create has answered with
was admitted under its key and is still read back under the spec it was answered with, its own unless the key was
found. And no pass fails a row because its spec does not resolve. -/
theorem admitted_specs_resolve (h : (controlPlane B).Run Always (.idle ⟨.empty, t₀, r₀⟩) ls C) :
    (∃ sbxs, Sqlite.getSandboxes .none C.shared.db = .ok sbxs) ∧
    (∀ f sbxs, Sqlite.getSandboxes f C.shared.db = .ok sbxs → ∀ sbx ∈ sbxs,
      (∃ key, Admits ls key sbx.sandboxID sbx.spec) ∧ ∃ resolved, sbx.spec.resolveValidated = .ok resolved) ∧
    (∀ n key spec ttl sbx, .respond n (.create key spec ttl) (.sandbox (.ok sbx)) ∈ ls →
      Admits ls key sbx.sandboxID sbx.spec ∧
      (sbx.spec = spec ∨ ∃ k, .request n (.create key spec ttl) (.store (.getIdempotencyKey key)) (Except.ok (some k)) ∈ ls) ∧
      ∀ f sbxs, Sqlite.getSandboxes f C.shared.db = .ok sbxs →
        ∃ sbx' ∈ sbxs, sbx'.sandboxID = sbx.sandboxID ∧ sbx'.spec = sbx.spec) ∧
    ∀ id a b v r C', ¬(controlPlane B).Step C
      (.work (.store (.updateSandboxState id a b "reconciler failed sandbox: spec does not resolve" v)) r) C' := by
  have hadmitted := admitted_run h
  refine ⟨?_, ?_, ?_, ?_⟩
  · refine Sqlite.getSandboxes_succeeds fun row hrow => ?_
    obtain ⟨key, spec, -, hj⟩ := hadmitted.row row.platformId row (Table.find?_of_mem hrow)
    exact ⟨_, Sqlite.scanSandbox_of_spec hj⟩
  · intro f sbxs hl sbx hs
    obtain ⟨key, ha⟩ := hadmitted.listed hl hs
    obtain ⟨n, ttl, json, expiresAt, a, -, hr⟩ := id ha
    exact ⟨⟨key, ha⟩, hr⟩
  · intro n key spec ttl sbx hm
    obtain ⟨⟨k, hk, hkid⟩, ⟨row, hrow, hspec⟩, hown⟩ := answered_create h hm
    obtain ⟨row', spec', hrow', ha, hspec'⟩ := hadmitted.key key k hk
    rw [hkid] at hrow' ha
    rw [hrow] at hrow'
    obtain rfl := Option.some.inj hrow'
    rw [hspec] at hspec'
    obtain rfl := Except.ok.inj hspec'
    refine ⟨ha, hown, fun f sbxs hl => ?_⟩
    obtain ⟨sbx', hs, hscan, hid⟩ := Sqlite.getSandboxes_found hl hrow
    obtain ⟨hj, -⟩ := Sqlite.scanSandbox_ok hscan
    rw [hspec] at hj
    exact ⟨sbx', hs, hid, (Except.ok.inj hj).symm⟩
  · intro id a b v r C' hs
    obtain ⟨sbxs, hlisted, sbx, hsbx, err, herr⟩ := h.work_tells Reconciler.reconcileOnce_unresolved rfl hs rfl
    obtain ⟨post, pre, rfl, -⟩ := mem_passLog hlisted
    obtain ⟨C₁, C₂, h₁, hs₁, -⟩ := h.split
    obtain ⟨f, db, he, -⟩ := Asks.exec (.inl rfl) hs₁
    obtain ⟨hl, -⟩ := Prod.mk.inj he
    obtain ⟨key, n, ttl, json, expiresAt, a', -, resolved, hr⟩ := (admitted_run h₁).listed hl hsbx
    rw [hr] at herr
    cases herr

end Claim

/-- The theorem at a run that creates a sandbox with an explicit empty environment, starts it, and replays the create
under another spec. -/
theorem admitted_specs_resolve_replayed : ∃ ls C, (controlPlane .fleet).Run Always (.idle .empty) ls C ∧
    C.shared.db.sandboxes.rows.map (·.state) = [.running] ∧
    (Sqlite.getSandboxes .none C.shared.db).toOption.map (·.map fun sbx => (sbx.sandboxID, sbx.spec)) =
      some [(exampleID, { env := some .empty, pidsLimit := some 64 })] ∧
    ∀ f sbxs, Sqlite.getSandboxes f C.shared.db = .ok sbxs → ∀ sbx ∈ sbxs,
      ∃ resolved, sbx.spec.resolveValidated = .ok resolved := by
  obtain ⟨ls₁, h₁⟩ := (Run.start (controlPlane .fleet) Always (.idle .empty)).thenServe fleetExec_performs 0
    (.create "k" { env := some .empty, pidsLimit := some 64 } 0) rfl
  obtain ⟨ls₂, h₂⟩ := h₁.thenPass fleetExec_performs rfl
  obtain ⟨ls₃, h₃⟩ := h₂.thenServe fleetExec_performs 0 (.create "k" { image := some "other" } 0) rfl
  obtain ⟨-, hresolve, -⟩ := admitted_specs_resolve h₃
  exact ⟨_, _, h₃, by decide +kernel, by decide +kernel, fun f sbxs hl sbx hs => (hresolve f sbxs hl sbx hs).2⟩

end Quickspin
