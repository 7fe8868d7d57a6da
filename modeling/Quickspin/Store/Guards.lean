import Quickspin.Store.EventLog

/-! The version and state guards under any interleaving. Along every run a sandbox goes onward only:
its version does not fall, a state is left only by a rise of the version, and a final state is not
left at all. The five results below are read off that relation. -/
namespace Quickspin
open Interaction Service Versioned
set_option autoImplicit false

/-- What happens to a sandbox between two states of the store. -/
structure Onward (id : String) (row : SandboxRow) (db db' : Database) (row' : SandboxRow) : Prop where
  found : db'.sandbox? id = some row'
  version : row.versionId ≤ row'.versionId
  still : row'.versionId = row.versionId → row'.state = row.state ∧ db'.logOf id = db.logOf id
  final : row.state.Terminal → row' = row ∧ db'.logOf id = db.logOf id

namespace Onward
variable {id : String} {db db₁ db₂ : Database} {row row₁ row₂ : SandboxRow}

theorem refl (h : db.sandbox? id = some row) : Onward id row db db row :=
  ⟨h, le_rfl, fun _ => ⟨rfl, rfl⟩, fun _ => ⟨rfl, rfl⟩⟩

theorem trans (h₁ : Onward id row db db₁ row₁) (h₂ : Onward id row₁ db₁ db₂ row₂) :
    Onward id row db db₂ row₂ where
  found := h₂.found
  version := h₁.version.trans h₂.version
  still hv := by
    have hv₁ : row₁.versionId = row.versionId := le_antisymm (hv ▸ h₂.version) h₁.version
    obtain ⟨hs₁, hl₁⟩ := h₁.still hv₁
    obtain ⟨hs₂, hl₂⟩ := h₂.still (hv.trans hv₁.symm)
    exact ⟨hs₂.trans hs₁, hl₂.trans hl₁⟩
  final ht := by
    obtain ⟨rfl, hl₁⟩ := h₁.final ht
    obtain ⟨rfl, hl₂⟩ := h₂.final ht
    exact ⟨rfl, hl₂.trans hl₁⟩

/-- **Step lemma**: one store call takes every row onward. -/
theorem of_effect {clock : Time} {c : StoreCall} (h : db.sandbox? id = some row)
    (e : c.Effect clock db db₁) : ∃ row₁, Onward id row db db₁ row₁ := by
  rcases e.row h with ⟨hr, hl⟩ | ⟨expiresAt, -, halive, hr, hl⟩ | ⟨b, reason, n, -, hnext, hr, -⟩
  · exact ⟨row, hr, le_rfl, fun _ => ⟨rfl, hl⟩, fun _ => ⟨rfl, hl⟩⟩
  · refine ⟨_, hr, le_rfl, fun _ => ⟨rfl, hl⟩, fun ht => absurd ht ?_⟩
    rcases halive with he | he <;> rw [he] <;> decide
  · refine ⟨_, hr, ?_, fun hv => absurd hv ?_, fun ht => absurd ht hnext.not_terminal⟩
    · show row.versionId ≤ row.versionId + 1
      omega
    · show row.versionId + 1 ≠ row.versionId
      omega

end Onward

/-- Every row of the first database goes onward to the second. -/
def AllOnward (db db' : Database) : Prop :=
  ∀ id row, db.sandbox? id = some row → ∃ row', Onward id row db db' row'

section Run
variable {D : Signature} {ρ ι β ω : Type} {B : Backend D ρ} {handler : ι → Program (calls D) β}
  {worker : Program (calls D) ω} {ok : List (Label (calls D) ι β ω) → Config (calls D) (World ρ) ι β ω →
    Label (calls D) ι β ω → Prop}
  {ls : List (Label (calls D) ι β ω)} {C C' : Config (calls D) (World ρ) ι β ω}

theorem AllOnward.perform {c : (calls D).Call} {w w' : World ρ} {a : (calls D).Answer c}
    (h : B.perform c w a w') : AllOnward w.db w'.db := by
  intro id row hrow
  rcases B.perform_db h with he | ⟨s, -, he⟩
  · exact ⟨row, by rw [he]; exact .refl hrow⟩
  · exact Onward.of_effect hrow he

/-- **Run lemma**: along every run every row goes onward. -/
theorem AllOnward.run (h : (B.service handler worker).Run ok C ls C') : AllOnward C.shared.db C'.shared.db := by
  refine h.shared (R := fun w w' => AllOnward w.db w'.db) (fun w id row hrow => ⟨row, .refl hrow⟩) ?_
    (fun _ _ _ _ ha => AllOnward.perform ha) fun _ _ he => ?_
  · intro a b c h₁ h₂ id row hrow
    obtain ⟨row₁, ho₁⟩ := h₁ id row hrow
    obtain ⟨row₂, ho₂⟩ := h₂ id row₁ ho₁.found
    exact ⟨row₂, ho₁.trans ho₂⟩
  · rw [he.db_eq]
    exact fun id row hrow => ⟨row, .refl hrow⟩

end Run

/-! ## Winners and readers -/

section Guards
variable {D : Signature} {ρ ι β ω : Type}

/-- The step is an `UpdateSandboxState` of `id` carrying version `v` that succeeds. -/
def Wins (id : String) (v : ℤ) (l : Label (calls D) ι β ω) : Prop :=
  ∃ a b reason sbx, Asks l (.updateSandboxState id a b reason v) (Except.ok sbx)

/-- The step reads the row as `sbx`, by itself or in a listing. -/
def Reads (sbx : Sandbox) (l : Label (calls D) ι β ω) : Prop :=
  Asks l (.getSandbox sbx.sandboxID) (Except.ok sbx) ∨
    ∃ sbxs, sbx ∈ sbxs ∧ Asks l .getSandboxes (Except.ok sbxs)

variable {B : Backend D ρ} {handler : ι → Program (calls D) β} {worker : Program (calls D) ω}
  {ls : List (Label (calls D) ι β ω)} {C C' : Config (calls D) (World ρ) ι β ω} {l : Label (calls D) ι β ω}

theorem Wins.version {id : String} {v : ℤ} (hw : Wins id v l) (hs : (B.service handler worker).Step C l C') :
    ∃ row row', C.shared.db.sandbox? id = some row ∧ row.versionId = v ∧
      C'.shared.db.sandbox? id = some row' ∧ row'.versionId = v + 1 := by
  obtain ⟨a, b, reason, sbx, hl⟩ := hw
  obtain ⟨f, db, he, hdb⟩ := hl.exec hs
  rcases Sqlite.updateSandboxState_cases he with ⟨row, sbx', ht, hstate, hversion, -⟩ | ⟨-, e, hr, -⟩
  · have hmoved : C'.shared.db.sandbox? id = some (row.moveTo b C.shared.clock.currentTimestamp) := by
      rw [hdb]
      exact (ht.sandbox id).trans (if_pos rfl)
    refine ⟨row, _, ht.found, hversion, hmoved, ?_⟩
    show row.versionId + 1 = v + 1
    rw [hversion]
  · cases hr

theorem Reads.row {sbx : Sandbox} (hr : Reads sbx l) (hs : (B.service handler worker).Step C l C') :
    ∃ row, C.shared.db.sandbox? sbx.sandboxID = some row ∧ row.state = sbx.state ∧
      row.versionId = sbx.versionID ∧ C'.shared = C.shared := by
  rcases hr with hl | ⟨sbxs, hmem, hl⟩
  · obtain ⟨f, db, he, hdb⟩ := hl.exec hs
    obtain ⟨ha, rfl⟩ := Prod.mk.inj he
    obtain ⟨row, hrow, hscan⟩ := Sqlite.getSandbox_ok ha
    exact ⟨row, hrow, (Sqlite.scanSandbox_state hscan).symm, (Sqlite.scanSandbox_version hscan).symm, hdb⟩
  · obtain ⟨f, db, he, hdb⟩ := hl.exec hs
    obtain ⟨ha, rfl⟩ := Prod.mk.inj he
    obtain ⟨row, hrow, hscan⟩ := Sqlite.getSandboxes_row ha hmem
    exact ⟨row, hrow, (Sqlite.scanSandbox_state hscan).symm, (Sqlite.scanSandbox_version hscan).symm, hdb⟩

theorem Wins.past {id : String} {v : ℤ} {ok : _} (h : (B.service handler worker).Run ok C ls C') :
    ∀ x ∈ ls, Wins id v x → ∃ row, C'.shared.db.sandbox? id = some row ∧ v < row.versionId := by
  induction h with
  | nil => simp
  | cons hr _ hs ih =>
    intro x hx hw
    rcases List.mem_cons.mp hx with rfl | hx
    · obtain ⟨-, row', -, -, hrow', hv⟩ := hw.version hs
      exact ⟨row', hrow', by omega⟩
    · obtain ⟨row, hrow, hv⟩ := ih x hx hw
      obtain ⟨row', ho⟩ := AllOnward.run (Run.one hs) id row hrow
      exact ⟨row', ho.found, lt_of_lt_of_le hv ho.version⟩

/-! ## The five guarantees -/

theorem one_winner {ok : _} (h : (B.service handler worker).Run ok C ls C') (id : String) (v : ℤ) :
    ls.Pairwise fun x y => ¬(Wins id v x ∧ Wins id v y) := by
  induction h with
  | nil => exact .nil
  | cons hr _ hs ih =>
    refine List.pairwise_cons.mpr ⟨fun y hy ⟨hx, hw⟩ => ?_, ih⟩
    obtain ⟨row, -, hrow, hv, -⟩ := hx.version hs
    obtain ⟨row', hrow', hlt⟩ := Wins.past hr y hy hw
    obtain rfl := Option.some.inj (hrow.symm.trans hrow')
    omega

/-- Between a read and a write that wins with what was read, the row's state and version and its events
stand still. -/
theorem still_between {ok : _} {m₁ m₂ : List (Label (calls D) ι β ω)} {l₁ l₂ : Label (calls D) ι β ω}
    {C₁ M E E' : Config (calls D) (World ρ) ι β ω} {sbx : Sandbox}
    (hread : (B.service handler worker).Step C l₁ C₁) (h₁ : (B.service handler worker).Run ok C₁ m₁ M)
    (h₂ : (B.service handler worker).Run ok M m₂ E) (hwrite : (B.service handler worker).Step E l₂ E')
    (hr : Reads sbx l₁) (hw : Wins sbx.sandboxID sbx.versionID l₂) :
    ∃ row, M.shared.db.sandbox? sbx.sandboxID = some row ∧ row.state = sbx.state ∧
      row.versionId = sbx.versionID ∧ M.shared.db.logOf sbx.sandboxID = C.shared.db.logOf sbx.sandboxID := by
  obtain ⟨row, hrow, hstate, hversion, hsame⟩ := hr.row hread
  obtain ⟨row₂, -, hrow₂, hversion₂, -⟩ := hw.version hwrite
  rw [← hsame] at hrow ⊢
  obtain ⟨rowM, h₁⟩ := AllOnward.run h₁ _ _ hrow
  obtain ⟨rowE, h₂⟩ := AllOnward.run h₂ _ _ h₁.found
  obtain rfl : rowE = row₂ := Option.some.inj (h₂.found.symm.trans hrow₂)
  have hstill : rowM.versionId = row.versionId :=
    le_antisymm (by rw [hversion, ← hversion₂]; exact h₂.version) h₁.version
  obtain ⟨hs, hl⟩ := h₁.still hstill
  exact ⟨rowM, h₁.found, hs.trans hstate, hstill.trans hversion, hl⟩

theorem Asks.renewal_keeps {id : String} {expiresAt : Time} {a : Except Err Sandbox}
    (hl : Asks l (.updateSandboxExpiry id expiresAt) a) (hs : (B.service handler worker).Step C l C')
    (id' : String) : (C'.shared.db.sandbox? id').map (fun r => (r.state, r.versionId, r.spec)) =
        (C.shared.db.sandbox? id').map (fun r => (r.state, r.versionId, r.spec)) ∧
      C'.shared.db.eventsOf id' = C.shared.db.eventsOf id' := by
  obtain ⟨f, db, he, hdb⟩ := hl.exec hs
  rw [hdb]
  cases StoreCall.effect he with
  | same => exact ⟨rfl, rfl⟩
  | renewed h =>
    refine ⟨?_, by simp only [Database.eventsOf, h.events]⟩
    dsimp only
    rw [h.sandbox id']
    split
    · next hid =>
      rw [hid, h.found]
      rfl
    · rfl

theorem Asks.transition_keeps {id reason : String} {a b : TaskState} {v : ℤ} {r : Except Err Sandbox}
    (hl : Asks l (.updateSandboxState id a b reason v) r) (hs : (B.service handler worker).Step C l C')
    (id' : String) : (C'.shared.db.sandbox? id').map (fun r => (r.expiresAt, r.spec)) =
      (C.shared.db.sandbox? id').map (fun r => (r.expiresAt, r.spec)) := by
  obtain ⟨f, db, he, hdb⟩ := hl.exec hs
  rw [hdb]
  cases StoreCall.effect he with
  | same => rfl
  | transitioned h _ _ =>
    dsimp only
    rw [h.sandbox id']
    split
    · next hid =>
      rw [hid, h.found]
      rfl
    · rfl

end Guards

/-- A history of a sandbox has at most four states. -/
theorem Follows.version_le {db : Database} {id : String} {row : SandboxRow} {h : Life}
    (f : Follows db id row h) : row.versionId ≤ 4 ∧ (db.logOf id).length ≤ 1 + 3 := by
  have hv : h.version ≤ 3 + 1 :=
    History.version_le_of_rank TaskState.depth (fun _ _ => Next.depth_lt) TaskState.depth_le h
  have hl := congrArg List.length f.versions
  simp only [List.length_map, List.length_range'] at hl
  have := f.version
  omega

section Claim
variable {D : Signature} {ρ ι β ω : Type} {B : Backend D ρ} {handler : ι → Program (calls D) β}
  {worker : Program (calls D) ω} {ls : List (Label (calls D) ι β ω)} {C : Config (calls D) (World ρ) ι β ω}

/-- **No lost update and no resurrection**, for any threads in any interleaving from the empty store,
whatever fails: one winner for each version; a winner's read still stood when it wrote; a final row
and its events stay as they are; a row goes through at most three transitions after its creation; the
two writers leave each other's columns alone. -/
theorem no_lost_update {t₀ : Time} {r₀ : ρ}
    (h : (B.service handler worker).Run Always (.idle ⟨.empty, t₀, r₀⟩) ls C) :
    (∀ id v, ls.Pairwise fun x y => ¬(Wins id v x ∧ Wins id v y)) ∧
    (∀ l₁ C₁ m₁ M m₂ E l₂ E' sbx, (B.service handler worker).Step C l₁ C₁ →
      (B.service handler worker).Run Always C₁ m₁ M → (B.service handler worker).Run Always M m₂ E →
      (B.service handler worker).Step E l₂ E' → Reads sbx l₁ → Wins sbx.sandboxID sbx.versionID l₂ →
      ∃ row, M.shared.db.sandbox? sbx.sandboxID = some row ∧ row.state = sbx.state ∧
        row.versionId = sbx.versionID ∧
        M.shared.db.eventsOf sbx.sandboxID = C.shared.db.eventsOf sbx.sandboxID) ∧
    (∀ ms E, (B.service handler worker).Run Always C ms E → ∀ row ∈ C.shared.db.sandboxes.rows,
      row.state = .stopped ∨ row.state = .failed → row ∈ E.shared.db.sandboxes.rows ∧
        E.shared.db.eventsOf row.platformId = C.shared.db.eventsOf row.platformId) ∧
    (∀ row ∈ C.shared.db.sandboxes.rows, row.versionId ≤ 4 ∧
      (C.shared.db.eventsOf row.platformId).length ≤ 1 + 3) ∧
    ∀ l C', (B.service handler worker).Step C l C' →
      (∀ id expiresAt a, Asks l (.updateSandboxExpiry id expiresAt) a → ∀ id',
        (C'.shared.db.sandbox? id').map (fun r => (r.state, r.versionId, r.spec)) =
            (C.shared.db.sandbox? id').map (fun r => (r.state, r.versionId, r.spec)) ∧
          C'.shared.db.eventsOf id' = C.shared.db.eventsOf id') ∧
      ∀ id a b reason v r, Asks l (.updateSandboxState id a b reason v) r → ∀ id',
        (C'.shared.db.sandbox? id').map (fun r => (r.expiresAt, r.spec)) =
          (C.shared.db.sandbox? id').map (fun r => (r.expiresAt, r.spec)) := by
  have hrec : Recorded C.shared.db := Recorded.run h recorded_empty
  refine ⟨one_winner h, ?_, ?_, ?_, fun l C' hs => ⟨fun _ _ _ hl => hl.renewal_keeps hs,
    fun _ _ _ _ _ _ hl => hl.transition_keeps hs⟩⟩
  · intro l₁ C₁ m₁ M m₂ E l₂ E' sbx hread h₁ h₂ hwrite hr hw
    obtain ⟨row, hrow, hstate, hversion, hlog⟩ := still_between hread h₁ h₂ hwrite hr hw
    exact ⟨row, hrow, hstate, hversion, by rw [Database.eventsOf_eq, hlog, Database.eventsOf_eq]⟩
  · intro ms E hE row hmem hterm
    obtain ⟨row', ho⟩ := AllOnward.run hE _ row (Relational.Table.find?_of_mem hmem)
    obtain ⟨rfl, hlog⟩ := ho.final hterm
    exact ⟨Relational.Table.mem_of_find? ho.found, by rw [Database.eventsOf_eq, hlog, Database.eventsOf_eq]⟩
  · intro row hmem
    obtain ⟨l, hl⟩ := hrec row.platformId row (Relational.Table.find?_of_mem hmem)
    rw [hl.eventsOf_eq]
    exact hl.version_le

end Claim

/-- The theorem at a run whose caller reads a row and then moves it on. -/
theorem no_lost_update_started : ∃ ls C, storeService.Run Always (.idle ⟨.empty, 0, ()⟩) ls C ∧
    C.shared.db.sandboxes.rows.map (·.versionId) = [2] ∧
    (∀ id v, ls.Pairwise fun x y => ¬(Wins id v x ∧ Wins id v y)) ∧
    ∀ row ∈ C.shared.db.sandboxes.rows, row.versionId ≤ 4 ∧
      (C.shared.db.eventsOf row.platformId).length ≤ 1 + 3 := by
  obtain ⟨ls₁, h₁⟩ := (Run.start storeService Always (.idle ⟨.empty, 0, ()⟩)).thenServe storeExec_performs 0
    (.createSandbox "k" {} 1) rfl
  obtain ⟨ls₂, h₂⟩ := h₁.thenServe storeExec_performs 0 (.direct (.getSandbox exampleID)) rfl
  obtain ⟨ls₃, h₃⟩ := h₂.thenServe storeExec_performs 0
    (.direct (.updateSandboxState exampleID .pending .running "started" 1)) rfl
  have hclaim := no_lost_update h₃
  exact ⟨_, _, h₃, by decide +kernel, hclaim.1, hclaim.2.2.2.1⟩

end Quickspin
