import Quickspin.Control
import Quickspin.Lib.Schedule

/-! Idempotency keys under concurrent creates. The lookup of a key and the inserting transaction are
two calls, so two creates can both miss; the UNIQUE index on the key, hit after the loser's row was
inserted, and the rollback of that row keep keys and rows in bijection. -/
namespace Quickspin
open Interaction Service Relational
set_option autoImplicit false

section Text
variable {D : Signature}

/-- The call adds neither a sandbox nor a key. -/
def Unkeyed : (calls D).Call → Prop
  | .store (.createIdempotencyKey ..) => False
  | .store (.insertSandbox ..) => False
  | _ => True

/-- `CreateSandbox` calls, and any other threads that add no sandbox and no key by themselves. -/
inductive Caller (D : Signature)
  | create (idempotencyKey : String) (spec : SpecFile) (ttl : Duration)
  | other (p : Program (calls D) (Except Err Sandbox)) (h : p.Calls Unkeyed)

def Caller.handle : Caller D → Program (calls D) (Except Err Sandbox)
  | .create key spec ttl => Control.createSandbox key spec ttl
  | .other p _ => p

/-- The call changes nothing. -/
def Reading : (calls D).Call → Prop
  | .store (.getIdempotencyKey _) | .store (.getSandbox _) | .now | .newSandboxID => True
  | _ => False

/-- The text of a create: it reads, or inserts under its own key and spec; once it has found its key it
only reads, and an insert that fails is the end of it. -/
def CreateText (key : String) (spec : SpecFile) : (c : (calls D).Call) →
    ((calls D).Answer c → Program (calls D) (Except Err Sandbox)) → Prop
  | .store (.getIdempotencyKey _), next => ∀ k, (next (.ok (some k))).Calls Reading
  | .store (.insertSandbox key' specJSON _ _), next =>
    key' = key ∧ spec.toJSON = .ok specJSON ∧ ∀ err, ∃ err', next (.error err) = .done (.error err')
  | c, _ => Reading c

def Caller.Text : Caller D → (c : (calls D).Call) →
    ((calls D).Answer c → Program (calls D) (Except Err Sandbox)) → Prop
  | .create key spec _ => CreateText key spec
  | .other .. => fun c _ => Unkeyed c

theorem createSandbox_text (key : String) (spec : SpecFile) (ttl : Duration) :
    (Control.createSandbox (D := D) key spec ttl).Nodes (CreateText key spec) := by
  unfold Control.createSandbox
  rcases spec.resolveValidated with err | resolved
  · trivial
  rcases resolveTTL ttl with err | ttl'
  · trivial
  refine ⟨trivial, fun t => ?_⟩
  show Program.Nodes _ (createSandboxRecord key spec (Time.add t ttl') >>= _)
  unfold createSandboxRecord
  rcases hz : Time.isZero (Time.add t ttl') with _ | _
  · refine ⟨fun k => ⟨trivial, fun a => ?_⟩, fun a => ?_⟩
    · rcases (a : Except Err Sandbox) with err | sbx <;> trivial
    rcases (a : Except Err (Option IdempotencyKey)) with err | _ | k
    · trivial
    · dsimp only
      rcases hj : spec.toJSON with err | json
      · trivial
      · exact ⟨trivial, fun id => ⟨⟨rfl, hj, fun err => ⟨_, rfl⟩⟩, fun a => trivial⟩⟩
    · refine ⟨trivial, fun a => ?_⟩
      rcases (a : Except Err Sandbox) with err | sbx <;> trivial
  · trivial

theorem CreateText.reading {key : String} {spec : SpecFile} {c : (calls D).Call}
    {next : (calls D).Answer c → Program (calls D) (Except Err Sandbox)} (h : CreateText key spec c next)
    (hne : ∀ json id expiresAt, c ≠ .store (.insertSandbox key json id expiresAt)) : Reading c := by
  cases c with
  | now | newSandboxID => trivial
  | backend | decide => exact h
  | store s =>
    cases s with
    | getIdempotencyKey | getSandbox => trivial
    | insertSandbox key' json id expiresAt =>
      obtain ⟨rfl, -⟩ := h
      exact absurd rfl (hne json id expiresAt)
    | createIdempotencyKey | getSandboxes | getSandboxEvents | updateSandboxExpiry | updateSandboxState => exact h

theorem Caller.handle_text (i : Caller D) : i.handle.Nodes i.Text := by
  cases i with
  | other p h => exact h
  | create key spec ttl => exact createSandbox_text key spec ttl

end Text

/-! ## Keys and rows -/

/-- Every row has a key and no two keys name one sandbox; that a key names a row is the foreign key. -/
structure Matched (db : Database) : Prop where
  keyed : ∀ id row, db.sandbox? id = some row → ∃ k ∈ db.idempotencyKeys.rows, k.sandboxId = id
  single : ∀ k ∈ db.idempotencyKeys.rows, ∀ k' ∈ db.idempotencyKeys.rows, k.sandboxId = k'.sandboxId → k = k'

/-- Keys stay, and rows keep their documents. -/
structure Kept (db db' : Database) : Prop where
  key : ∀ key k, db.key? key = some k → db'.key? key = some k
  row : ∀ id row, db.sandbox? id = some row → ∃ row', db'.sandbox? id = some row' ∧ row'.spec = row.spec

theorem Kept.refl (db : Database) : Kept db db := ⟨fun _ _ h => h, fun _ row h => ⟨row, h, rfl⟩⟩

theorem Kept.trans {a b c : Database} (h₁ : Kept a b) (h₂ : Kept b c) : Kept a c where
  key key k h := h₂.key key k (h₁.key key k h)
  row id row h := by
    obtain ⟨row₁, hr₁, hs₁⟩ := h₁.row id row h
    obtain ⟨row₂, hr₂, hs₂⟩ := h₂.row id row₁ hr₁
    exact ⟨row₂, hr₂, hs₂.trans hs₁⟩

section Effect
variable {db db' : Database} {clock : Time} {c : StoreCall}

theorem Kept.effect (h : c.Effect clock db db') (hc : ∀ key id, c ≠ .createIdempotencyKey key id) :
    Kept db db' := by
  constructor
  · intro key k hk
    cases h with
    | same => exact hk
    | keyed => exact absurd rfl (hc _ _)
    | created h =>
      obtain ⟨n, hkey⟩ := h.key
      rw [hkey, if_neg, hk]
      rintro rfl
      rw [h.unkeyed] at hk
      cases hk
    | renewed h => rwa [Database.key?, h.keys]
    | transitioned h => rwa [Database.key?, h.keys]
  · intro id row hrow
    rcases h.row hrow with ⟨hr, -⟩ | ⟨_, -, -, hr, -⟩ | ⟨_, _, _, -, -, hr, -⟩
    · exact ⟨row, hr, rfl⟩
    · exact ⟨_, hr, rfl⟩
    · exact ⟨_, hr, rfl⟩

/-- A key that a call adds is that of the sandbox it creates. -/
theorem new_key (h : c.Effect clock db db') (hc : ∀ key id, c ≠ .createIdempotencyKey key id) {key : String}
    {k : KeyRow} (hnone : db.key? key = none) (hk : db'.key? key = some k) : ∃ spec expiresAt,
      c = .insertSandbox key spec k.sandboxId expiresAt ∧
        Created clock.currentTimestamp key spec k.sandboxId expiresAt db db' := by
  have hsame : db'.idempotencyKeys = db.idempotencyKeys → False := fun he => by
    rw [Database.key?, he] at hk
    rw [Database.key?, hk] at hnone
    cases hnone
  cases h with
  | same => exact (hsame rfl).elim
  | keyed => exact absurd rfl (hc _ _)
  | renewed h => exact (hsame h.keys).elim
  | transitioned h => exact (hsame h.keys).elim
  | @created key' id spec expiresAt _ h =>
    obtain ⟨n, hkey⟩ := h.key
    rw [hkey key] at hk
    split at hk
    · next he =>
      subst he
      cases hk
      exact ⟨spec, expiresAt, rfl, h⟩
    · rw [hnone] at hk
      cases hk

/-- A new row comes with a key for it, and its id is one no key names yet. -/
theorem Matched.created {now : Time} {key id : String} {spec : Json} {expiresAt : Time} (hm : Matched db)
    (h : Created now key spec id expiresAt db db') : Matched db' := by
  obtain ⟨n, hfind⟩ := h.sandbox
  obtain ⟨m, hkeys⟩ := h.keys
  have hfresh : ∀ k ∈ db.idempotencyKeys.rows, k.sandboxId ≠ id := by
    rintro k hk rfl
    have href := db.keyReferences k hk
    have hnone := h.fresh
    rw [Database.sandbox?] at hnone
    simp [hnone] at href
  constructor
  · intro id' row hrow
    rw [hkeys]
    rw [hfind id'] at hrow
    split at hrow
    · next hid => exact ⟨_, List.mem_append_right _ (List.mem_singleton_self _), hid.symm⟩
    · obtain ⟨k, hk, hid⟩ := hm.keyed id' row hrow
      exact ⟨k, List.mem_append_left _ hk, hid⟩
  · intro k hk k' hk' he
    rw [hkeys] at hk hk'
    rcases List.mem_append.mp hk with hk | hk <;> rcases List.mem_append.mp hk' with hk' | hk'
    · exact hm.single k hk k' hk' he
    · rw [List.mem_singleton.mp hk'] at he
      exact absurd he (hfresh k hk)
    · rw [List.mem_singleton.mp hk] at he
      exact absurd he.symm (hfresh k' hk')
    · rw [List.mem_singleton.mp hk, List.mem_singleton.mp hk']

theorem Matched.effect (hm : Matched db) (h : c.Effect clock db db')
    (hc : ∀ key id, c ≠ .createIdempotencyKey key id) : Matched db' := by
  have hrow : ∀ id row', db'.sandbox? id = some row' → db'.idempotencyKeys = db.idempotencyKeys →
      (∃ row, db.sandbox? id = some row) → ∃ k ∈ db'.idempotencyKeys.rows, k.sandboxId = id := by
    rintro id row' - hkeys ⟨row, hrow⟩
    rw [hkeys]
    exact hm.keyed id row hrow
  cases h with
  | same => exact hm
  | keyed => exact absurd rfl (hc _ _)
  | created h => exact hm.created h
  | renewed h =>
    refine ⟨fun id row hr => hrow id row hr h.keys ?_, by rw [h.keys]; exact hm.single⟩
    rw [h.sandbox id] at hr
    split at hr
    · next hid => exact ⟨_, hid ▸ h.found⟩
    · exact ⟨row, hr⟩
  | transitioned h =>
    refine ⟨fun id row hr => hrow id row hr h.keys ?_, by rw [h.keys]; exact hm.single⟩
    rw [h.sandbox id] at hr
    split at hr
    · next hid => exact ⟨_, hid ▸ h.found⟩
    · exact ⟨row, hr⟩

end Effect

/-- The pairing of keys and rows goes both ways. -/
theorem Matched.bijective {db : Database} (h : Matched db) :
    (∀ row ∈ db.sandboxes.rows, ∃! k, k ∈ db.idempotencyKeys.rows ∧ k.sandboxId = row.platformId) ∧
      ∀ k ∈ db.idempotencyKeys.rows, ∃! row, row ∈ db.sandboxes.rows ∧ row.platformId = k.sandboxId := by
  constructor
  · intro row hrow
    obtain ⟨k, hk, hid⟩ := h.keyed row.platformId row (Table.find?_of_mem hrow)
    exact ⟨k, ⟨hk, hid⟩, fun k' ⟨hk', hid'⟩ => h.single k' hk' k hk (hid'.trans hid.symm)⟩
  · intro k hk
    obtain ⟨row, hrow⟩ := Option.isSome_iff_exists.mp (db.keyReferences k hk)
    obtain ⟨hm, hid⟩ := Table.find?_eq_some_iff.mp hrow
    exact ⟨row, ⟨hm, hid⟩, fun row' ⟨hm', hid'⟩ => Table.eq_of_key hm' hm (hid'.trans hid.symm)⟩

/-! ## The outline of the callers -/

section Callers
variable {D : Signature} {ρ : Type} (B : Backend D ρ)

/-- Any number of callers, and no pass. -/
def callers : Service (calls D) (World ρ) (Caller D) (Except Err Sandbox) Unit :=
  B.service Caller.handle (pure ())

variable {B} {w w' : World ρ}

/-- What every call but `CreateIdempotencyKey` leaves. -/
theorem Backend.perform_keyed {c : (calls D).Call} {a : (calls D).Answer c}
    (hc : ∀ key id, c ≠ .store (.createIdempotencyKey key id)) (h : B.perform c w a w') :
    (Matched w.db → Matched w'.db) ∧ Kept w.db w'.db := by
  rcases B.perform_db h with he | ⟨s, rfl, he⟩
  · rw [he]
    exact ⟨id, .refl _⟩
  · have hs : ∀ key id, s ≠ .createIdempotencyKey key id := by
      rintro key id rfl
      exact hc key id rfl
    exact ⟨fun hm => hm.effect he hs, .effect he hs⟩

theorem Caller.text_keyless {i : Caller D} {c : (calls D).Call}
    {next : (calls D).Answer c → Program (calls D) (Except Err Sandbox)} (h : i.Text c next) (key id : String) :
    c ≠ .store (.createIdempotencyKey key id) := by
  rintro rfl
  cases i <;> exact h

/-- The key is taken by the sandbox the call answered with, under the spec it answered with. -/
structure Answers (key : String) (sbx : Sandbox) (db : Database) : Prop where
  key : ∃ k, db.key? key = some k ∧ k.sandboxId = sbx.sandboxID
  row : ∃ row, db.sandbox? sbx.sandboxID = some row ∧ SpecFile.ofJSON row.spec = .ok sbx.spec

theorem Answers.kept {key : String} {sbx : Sandbox} {db db' : Database} (h : Answers key sbx db)
    (hk : Kept db db') : Answers key sbx db' where
  key := by
    obtain ⟨k, hkey, hid⟩ := h.key
    exact ⟨k, hk.key _ _ hkey, hid⟩
  row := by
    obtain ⟨row, hrow, hspec⟩ := h.row
    obtain ⟨row', hrow', hs⟩ := hk.row _ _ hrow
    exact ⟨row', hrow', by rw [hs, hspec]⟩

/-- A thread that keeps keys and rows matched, and ends in `Q`, whatever the others add. -/
abbrev Careful (B : Backend D ρ) {α : Type} (Q : α → World ρ → Prop) (p : Program (calls D) α) (w : World ρ) :
    Prop :=
  p.Safe (fun c s a s' => True ∧ B.perform c s a s') (fun w => Matched w.db) (fun w w' => Kept w.db w'.db)
    (fun w w' => True ∧ Kept w.db w'.db) Q w

theorem careful_call {α : Type} {Q : α → World ρ → Prop} {c : (calls D).Call}
    {next : (calls D).Answer c → Program (calls D) α} (hc : ∀ key id, c ≠ .store (.createIdempotencyKey key id))
    (hnext : ∀ w₁ a w₂, Kept w.db w₁.db → B.perform c w₁ a w₂ → Careful B Q (next a) w₂) :
    Careful B Q (.call c next) w := by
  intro w₁ hk hm a w₂ ha
  obtain ⟨hm₂, hk₂⟩ := Backend.perform_keyed hc ha.2
  exact ⟨hm₂ hm, ⟨trivial, hk₂⟩, hnext w₁ a w₂ hk ha.2⟩

theorem careful_error {Q : Sandbox → World ρ → Prop} (err : Err) :
    Careful B (fun (r : Except Err Sandbox) w => ∀ sbx, r = .ok sbx → Q sbx w) (.done (.error err)) w :=
  fun _ _ _ _ h => nomatch h

/-- A recorded create has taken the key, or found it taken. -/
theorem createSandboxRecord_careful {key : String} {spec : SpecFile} {expiresAt : Time} :
    Careful B (fun r w => ∀ sbx, r = .ok sbx → Answers key sbx w.db)
      (createSandboxRecord key spec expiresAt) w := by
  have hdone : ∀ {sbx : Sandbox} {w : World ρ}, Answers key sbx w.db →
      Careful B (fun (r : Except Err Sandbox) w => ∀ sbx, r = .ok sbx → Answers key sbx w.db) (.done (.ok sbx)) w := by
    rintro sbx w h w' hk - sbx' he
    cases he
    exact h.kept hk
  unfold createSandboxRecord
  rcases hz : expiresAt.isZero with _ | _
  · refine careful_call (by simp) fun w₁ a w₂ _ ha => ?_
    obtain ⟨f, db, he, rfl⟩ := ha
    obtain ⟨hlookup, rfl⟩ := Prod.mk.inj he
    rcases (a : Except Err (Option IdempotencyKey)) with err | _ | k
    · exact careful_error _
    · dsimp only
      rcases hj : spec.toJSON with err | json
      · exact careful_error _
      · refine careful_call (by simp) fun _ id _ _ _ => careful_call (by simp) fun w₃ a w₄ _ ha => ?_
        obtain ⟨f, db, he, rfl⟩ := ha
        rcases Sqlite.insertSandbox_cases he with ⟨row, sbx, hc, hrow, hscan, rfl | ⟨e, rfl⟩⟩ | ⟨-, e, rfl⟩
        · obtain ⟨n, hkey⟩ := hc.key
          obtain ⟨hspec, -⟩ := Sqlite.scanSandbox_ok hscan
          have hid : sbx.sandboxID = id := (Sqlite.scanSandbox_id hscan).trans (Table.key_of_find? hrow)
          exact hdone ⟨⟨_, (hkey key).trans (if_pos rfl), hid.symm⟩, ⟨row, hid.symm ▸ hrow, hspec⟩⟩
        · exact careful_error e
        · exact careful_error e
    · refine careful_call (by simp) fun w₃ a w₄ hk ha => ?_
      obtain ⟨f, db, he, rfl⟩ := ha
      obtain ⟨hget, rfl⟩ := Prod.mk.inj he
      rcases (a : Except Err Sandbox) with err | sbx
      · exact careful_error _
      · obtain ⟨row, hrow, hscan⟩ := Sqlite.getSandbox_ok hget
        obtain ⟨hspec, -⟩ := Sqlite.scanSandbox_ok hscan
        have hid : sbx.sandboxID = k.sandboxID := (Sqlite.scanSandbox_id hscan).trans (Table.key_of_find? hrow)
        obtain ⟨kr, hkr, hko⟩ := Option.map_eq_some_iff.mp (Sqlite.getIdempotencyKey_ok hlookup).symm
        have hkid : kr.sandboxId = sbx.sandboxID := by
          rw [hid, ← hko]
          rfl
        exact hdone ⟨⟨kr, hk.key _ _ hkr, hkid⟩, ⟨row, hid.symm ▸ hrow, hspec⟩⟩
  · exact careful_error _

/-- What a request has reached when it answers. -/
def Caller.Post (i : Caller D) (r : Except Err Sandbox) (w : World ρ) : Prop :=
  match i with
  | .create key _ _ => ∀ sbx, r = .ok sbx → Answers key sbx w.db
  | .other .. => True

theorem Caller.careful (i : Caller D) : Careful B i.Post i.handle w := by
  cases i with
  | other p h =>
    refine (Program.Calls.safe h (fun c hc s a s' ha hm => ?_) w).mono fun _ _ _ => trivial
    have hkey : ∀ key id, c ≠ .store (.createIdempotencyKey key id) := by
      rintro key id rfl
      exact hc
    obtain ⟨hm', hk⟩ := Backend.perform_keyed hkey ha.2
    exact ⟨hm' hm, trivial, hk⟩
  | create key spec ttl =>
    show Careful B _ (Control.createSandbox key spec ttl) w
    unfold Control.createSandbox
    rcases spec.resolveValidated with err | resolved
    · exact careful_error _
    rcases resolveTTL ttl with err | ttl'
    · exact careful_error _
    refine careful_call (by simp) fun _ t w₂ _ _ => ?_
    refine Program.Safe.bind (p := createSandboxRecord key spec (Time.add t ttl')) (fun w => .refl w.db) ?_
    refine createSandboxRecord_careful.mono fun r w h w' hk _ sbx he => ?_
    exact (h sbx (mapError_eq_ok.mp he)).kept hk

/-- The outline: keys and rows stay matched, every answer holds when it is given. -/
def callersOutline (B : Backend D ρ) : (callers B).Outline fun _ _ => True where
  Inv w := Matched w.db
  relyW _ _ := True
  relyQ w w' := Kept w.db w'.db
  postQ := Caller.Post
  reflW _ := trivial
  transW _ _ _ _ _ := trivial
  reflQ w := .refl w.db
  transQ _ _ _ := .trans
  env w w' he hm := by
    have := Backend.Drift.db_eq he
    rw [this]
    exact ⟨hm, trivial, .refl _⟩
  worker _ _ := fun _ _ _ => trivial
  handler i _ _ := i.careful

variable {ls : List (Label (calls D) (Caller D) (Except Err Sandbox) Unit)}
  {C₀ C C' : Config (calls D) (World ρ) (Caller D) (Except Err Sandbox) Unit}
  {l : Label (calls D) (Caller D) (Except Err Sandbox) Unit}

theorem callers_obey (h : (callers B).Run Always (.idle w) ls C) :
    Obeys Caller.Text (fun _ _ => False) C :=
  h.obeys Caller.handle_text (W := fun _ _ => False) (show Program.Calls _ (.done ()) from trivial) (obeys_idle w)

/-- One step of the run, a call of the request, made the row of `id`. -/
def Inserted (B : Backend D ρ) (C₀ : Config (calls D) (World ρ) (Caller D) (Except Err Sandbox) Unit)
    (ls : List (Label (calls D) (Caller D) (Except Err Sandbox) Unit)) (id : String) (i : Caller D) : Prop :=
  ∃ pre post C₁ C₂ n c a, ls = post ++ .request n i c a :: pre ∧ (callers B).Run Always C₀ pre C₁ ∧
    (callers B).Step C₁ (.request n i c a) C₂ ∧ C₁.shared.db.sandbox? id = none ∧
    (C₂.shared.db.sandbox? id).isSome

theorem Inserted.cons {id : String} {i : Caller D} (h : Inserted B C₀ ls id i) : Inserted B C₀ (l :: ls) id i := by
  obtain ⟨pre, post, C₁, C₂, n, c, a, rfl, h⟩ := h
  exact ⟨pre, l :: post, C₁, C₂, n, c, a, rfl, h⟩

/-- The key names a row that a create under this key inserted, with that create's spec. -/
def Sourced (B : Backend D ρ) (C₀ : Config (calls D) (World ρ) (Caller D) (Except Err Sandbox) Unit)
    (ls : List (Label (calls D) (Caller D) (Except Err Sandbox) Unit)) (db : Database) (key : String)
    (k : KeyRow) : Prop :=
  ∃ spec ttl row, Inserted B C₀ ls k.sandboxId (.create key spec ttl) ∧ db.sandbox? k.sandboxId = some row ∧
    spec.toJSON = .ok row.spec

/-- **Step lemma**: a key in the table after a step was there before, or the step inserted it. -/
theorem sourced_step (hrun : (callers B).Run Always C₀ ls C) (ho : Obeys Caller.Text (fun _ _ => False) C)
    (hs : (callers B).Step C l C') {key : String} {k : KeyRow} (hk : C'.shared.db.key? key = some k)
    (ih : ∀ k, C.shared.db.key? key = some k → Sourced B C₀ ls C.shared.db key k) :
    Sourced B C₀ (l :: ls) C'.shared.db key k := by
  have hold : ∀ k, C.shared.db.key? key = some k → Kept C.shared.db C'.shared.db →
      Sourced B C₀ (l :: ls) C'.shared.db key k := by
    intro k hk hkept
    obtain ⟨spec, ttl, row, hins, hrow, hspec⟩ := ih k hk
    obtain ⟨row', hrow', he⟩ := hkept.row _ _ hrow
    exact ⟨spec, ttl, row', hins.cons, hrow', by rw [he, hspec]⟩
  rcases hs.moves ho with he | he | ⟨n, i, c, a, next, rfl, htext, ha⟩ | ⟨c, a, _, -, hf, -⟩
  · rw [he] at hk
    exact hold k hk (by rw [he]; exact .refl _)
  · have hdb := Backend.Drift.db_eq he
    rw [hdb] at hk
    exact hold k hk (by rw [hdb]; exact .refl _)
  · have hkept := (Backend.perform_keyed (Caller.text_keyless htext) ha).2
    rcases hk₀ : C.shared.db.key? key with _ | k₀
    · rcases B.perform_db ha with he | ⟨s, rfl, he⟩
      · rw [he, hk₀] at hk
        cases hk
      obtain ⟨json, expiresAt, rfl, hcr⟩ := new_key he
        (fun key id e => Caller.text_keyless htext key id (congrArg Call.store e)) hk₀ hk
      obtain ⟨m, hfind⟩ := hcr.sandbox
      have hrow := (hfind k.sandboxId).trans (if_pos rfl)
      cases i with
      | other p h => exact htext.elim
      | create key' spec ttl =>
        obtain ⟨rfl, hspec, -⟩ := htext
        refine ⟨spec, ttl, _, ⟨ls, [], C, C', n, _, a, rfl, hrun, hs, hcr.fresh, ?_⟩, hrow, hspec⟩
        rw [hrow]
        rfl
    · have := hkept.key key k₀ hk₀
      rw [hk] at this
      cases this
      exact hold k hk₀ hkept
  · exact hf.elim

/-- **Run lemma**: every key names a row a create under that key inserted. -/
theorem sourced {r₀ : ρ} {t₀ : Time} (h : (callers B).Run Always (.idle ⟨.empty, t₀, r₀⟩) ls C) {key : String}
    {k : KeyRow} (hk : C.shared.db.key? key = some k) :
    Sourced B (.idle ⟨.empty, t₀, r₀⟩) ls C.shared.db key k := by
  induction h generalizing k with
  | nil => cases hk
  | cons hr _ hs ih => exact sourced_step hr (callers_obey hr) hs hk fun k hk => ih hk

variable {r₀ : ρ} {t₀ : Time}

/-- The outline holds in every state reached from the empty store. -/
theorem callers_hold (h : (callers B).Run Always (.idle ⟨.empty, t₀, r₀⟩) ls C) : (callersOutline B).Holds C := by
  refine (callersOutline B).sound (Outline.holds_idle _ ?_) (Outline.within_always h)
  exact ⟨fun id row hrow => (nomatch hrow), fun k hk => (nomatch hk)⟩

theorem answered (h : (callers B).Run Always (.idle ⟨.empty, t₀, r₀⟩) ls C) {n : ℕ} {key : String}
    {spec : SpecFile} {ttl : Duration} {sbx : Sandbox} (hl : .respond n (.create key spec ttl) (.ok sbx) ∈ ls) :
    Answers key sbx C.shared.db := by
  induction h with
  | nil => cases hl
  | @cons ls C C' l hr _ hs ih =>
    have hholds := callers_hold hr
    rcases List.mem_cons.mp hl with rfl | hl
    · exact hholds.respond hs sbx rfl
    · exact (ih hl).kept (hholds.moved (by cases l <;> trivial : Outline.Within _ ls C l) hs).2.1

theorem Backend.perform_reading {c : (calls D).Call} {a : (calls D).Answer c} (hc : Reading c)
    (h : B.perform c w a w') : w'.db = w.db := by
  rcases B.perform_db h with he | ⟨s, rfl, he⟩
  · exact he
  · generalize w'.db = db' at he
    cases he with
    | same => rfl
    | keyed | created | renewed | transitioned => exact hc.elim

/-- After the lookup has found the key, the rest of the call changes nothing. -/
theorem found_reads {n : ℕ} {key key' : String} {spec : SpecFile} {ttl : Duration} {k : IdempotencyKey}
    (ho : Obeys Caller.Text (fun _ _ => False) C)
    (hs : (callers B).Step C (.request n (.create key spec ttl) (.store (.getIdempotencyKey key'))
      (Except.ok (some k))) C') {ms : _} {M M' : Config (calls D) (World ρ) (Caller D) (Except Err Sandbox) Unit}
    (hr : (callers B).Run Always C' ms M) (hresp : ∀ i b, .respond n i b ∉ ms) (hcrash : Label.crash ∉ ms)
    {i : Caller D} {c : (calls D).Call} {a : (calls D).Answer c}
    (hm : (callers B).Step M (.request n i c a) M') : M'.shared.db = M.shared.db := by
  obtain ⟨next, htext, -, hslot, -⟩ := hs.request_node ho
  obtain ⟨p, hp, hreads⟩ := hr.slot ⟨_, hslot, htext k⟩ hresp hcrash
  cases hm with
  | request hn ha =>
    rw [hp] at hn
    cases hn
    exact Backend.perform_reading hreads.1 ha

theorem lost_insert {n : ℕ} {key key' id : String} {spec : SpecFile} {ttl : Duration} {json : Json}
    {expiresAt : Time} {a : Except Err Sandbox} {k : KeyRow} (ho : Obeys Caller.Text (fun _ _ => False) C)
    (hs : (callers B).Step C (.request n (.create key spec ttl) (.store (.insertSandbox key' json id expiresAt))
      a) C') (hk : C.shared.db.key? key = some k) :
    C'.shared.db = C.shared.db ∧ ∃ err, C'.requests n = some (.create key spec ttl, .done (.error err)) := by
  obtain ⟨next, ⟨rfl, -, hlost⟩, -, hslot, ha⟩ := hs.request_node ho
  obtain ⟨f, db, he, hdb⟩ := ha
  rw [hdb]
  rcases Sqlite.insertSandbox_cases he with ⟨row, sbx, hc, -⟩ | ⟨rfl, e, rfl⟩
  · rw [hc.unkeyed] at hk
    cases hk
  · obtain ⟨err, hnext⟩ := hlost e
    exact ⟨rfl, err, by rw [hslot, hnext]⟩

/-- **Idempotency keys**, in every state any concurrent creates and any other threads reach from the
empty store, whatever fails: keys and rows are in bijection; the successful calls for one key answer
with one sandbox, under the spec of the call that inserted it; a call that finds its key changes
nothing; a call whose insert comes second fails and leaves nothing; and besides its insert no call of a
create changes anything. -/
theorem idempotency_keys (h : (callers B).Run Always (.idle ⟨.empty, t₀, r₀⟩) ls C) :
    ((∀ row ∈ C.shared.db.sandboxes.rows,
        ∃! k, k ∈ C.shared.db.idempotencyKeys.rows ∧ k.sandboxId = row.platformId) ∧
      ∀ k ∈ C.shared.db.idempotencyKeys.rows,
        ∃! row, row ∈ C.shared.db.sandboxes.rows ∧ row.platformId = k.sandboxId) ∧
    (∀ n key spec ttl sbx, .respond n (.create key spec ttl) (.ok sbx) ∈ ls →
      (∃ spec₀ ttl₀, Inserted B (.idle ⟨.empty, t₀, r₀⟩) ls sbx.sandboxID (.create key spec₀ ttl₀) ∧
        sbx.spec = spec₀) ∧
      ∀ n' spec' ttl' sbx', .respond n' (.create key spec' ttl') (.ok sbx') ∈ ls →
        sbx'.sandboxID = sbx.sandboxID ∧ sbx'.spec = sbx.spec) ∧
    (∀ n key key' spec ttl k C', (callers B).Step C (.request n (.create key spec ttl)
        (.store (.getIdempotencyKey key')) (Except.ok (some k))) C' → C'.shared.db = C.shared.db ∧
      ∀ ms M i c a M', (callers B).Run Always C' ms M → (∀ i b, .respond n i b ∉ ms) → .crash ∉ ms →
        (callers B).Step M (.request n i c a) M' → M'.shared.db = M.shared.db) ∧
    (∀ n key key' spec ttl json id expiresAt a k C', (callers B).Step C (.request n (.create key spec ttl)
        (.store (.insertSandbox key' json id expiresAt)) a) C' → C.shared.db.key? key = some k →
      C'.shared.db = C.shared.db ∧
        ∃ err, C'.requests n = some (.create key spec ttl, .done (.error err))) ∧
    ∀ n key spec ttl c a C', (callers B).Step C (.request n (.create key spec ttl) c a) C' →
      (∀ json id expiresAt, c ≠ .store (.insertSandbox key json id expiresAt)) →
        C'.shared.db = C.shared.db := by
  have ho := callers_obey h
  have hreads : ∀ n key spec ttl c a C', (callers B).Step C (.request n (.create key spec ttl) c a) C' →
      (∀ json id expiresAt, c ≠ .store (.insertSandbox key json id expiresAt)) →
        C'.shared.db = C.shared.db := by
    intro n key spec ttl c a C' hs hne
    obtain ⟨next, htext, -, -, ha⟩ := hs.request_node ho
    exact Backend.perform_reading (htext.reading hne) ha
  refine ⟨(callers_hold h).inv.bijective, ?_, ?_, ?_, hreads⟩
  · intro n key spec ttl sbx hl
    obtain ⟨⟨k, hk, hid⟩, row, hrow, hspec⟩ := answered h hl
    obtain ⟨spec₀, ttl₀, row₀, hins, hrow₀, hspec₀⟩ := sourced h hk
    rw [hid] at hins hrow₀
    rw [hrow] at hrow₀
    cases hrow₀
    have hspec' := SpecFile.ofJSON_toJSON hspec₀
    rw [hspec] at hspec'
    refine ⟨⟨spec₀, ttl₀, hins, Except.ok.inj hspec'⟩, fun n' spec' ttl' sbx' hl' => ?_⟩
    obtain ⟨⟨k', hk', hid'⟩, row', hrow', hspec'⟩ := answered h hl'
    rw [hk] at hk'
    cases hk'
    have hsame : sbx'.sandboxID = sbx.sandboxID := hid'.symm.trans hid
    rw [hsame, hrow] at hrow'
    cases hrow'
    rw [hspec] at hspec'
    exact ⟨hsame, (Except.ok.inj hspec').symm⟩
  · intro n key key' spec ttl k C' hs
    exact ⟨hreads _ _ _ _ _ _ _ hs (by simp), fun ms M i c a M' hr hresp hcrash hm =>
      found_reads ho hs hr hresp hcrash hm⟩
  · intro n key key' spec ttl json id expiresAt a k C' hs hk
    exact lost_insert ho hs hk

end Callers

/-- The theorem at a run in which a second create under the key carries another spec. -/
theorem idempotency_keys_repeated : ∃ ls C, (callers Backend.idle).Run Always (.idle ⟨.empty, 0, ()⟩) ls C ∧
    (∃ n r, .respond n (.create "k" { image := some "other" } 0) r ∈ ls ∧ r.toOption.map (·.spec) = some {}) ∧
    (∀ row ∈ C.shared.db.sandboxes.rows,
      ∃! k, k ∈ C.shared.db.idempotencyKeys.rows ∧ k.sandboxId = row.platformId) := by
  obtain ⟨ls₁, h₁⟩ := (Run.start (callers Backend.idle) Always (.idle ⟨.empty, 0, ()⟩)).thenServe storeExec_performs 0
    (.create "k" {} 0) rfl
  obtain ⟨ls₂, h₂⟩ := h₁.thenServe storeExec_performs 0 (.create "k" { image := some "other" } 0) rfl
  exact ⟨_, _, h₂, ⟨0, _, List.mem_cons_self .., by decide +kernel⟩, (idempotency_keys h₂).1.1⟩

end Quickspin
