import Quickspin.Store.Guards

/-! What has happened to a sandbox as one value: what was settled when it was recorded, its events, and the history of
states they log. Chronicles are ordered by how far they go, and along every run that of a sandbox only goes on. -/
namespace Quickspin
open Interaction Service Versioned
set_option autoImplicit false

structure Chronicle where
  sandboxID : String
  spec : Json
  createdAt : Time
  events : List EventRow
  life : Life
  log : events.map EventRow.entry = life.log.map entryOf

namespace Chronicle
variable {c c' : Chronicle}

/-- The second goes on from the first. -/
instance : Preorder Chronicle where
  le c c' := c.sandboxID = c'.sandboxID ∧ c.spec = c'.spec ∧ c.createdAt = c'.createdAt ∧ c.events <+: c'.events
  le_refl c := ⟨rfl, rfl, rfl, List.prefix_refl _⟩
  le_trans _ _ _ h h' :=
    ⟨h.1.trans h'.1, h.2.1.trans h'.2.1, h.2.2.1.trans h'.2.2.1, h.2.2.2.trans h'.2.2.2⟩

theorem states_eq (c : Chronicle) : c.events.map (·.toState) = c.life.states := by
  have hstates := congrArg (List.map fun e => e.2.2) c.log
  rw [List.map_map, List.map_map] at hstates
  have hlog : c.life.log.map (fun e => e.2.2) = c.life.states := History.entries_states 1 none c.life.states
  rw [← hlog]
  exact hstates

theorem versions_eq (c : Chronicle) : c.events.map (·.versionId) = (List.range' 1 c.life.version).map Nat.cast := by
  have hnumbers := congrArg (List.map fun e => e.1) c.log
  rw [List.map_map, List.map_map] at hnumbers
  rw [← c.life.log_numbers, List.map_map]
  exact hnumbers

theorem length_eq (c : Chronicle) : c.events.length = c.life.version := by
  rw [History.version, ← c.states_eq, List.length_map]

theorem getLast?_eq (c : Chronicle) : c.events.getLast?.map (·.toState) = some c.life.current := by
  rw [← List.getLast?_map, c.states_eq, List.getLast?_eq_some_getLast c.life.states_ne_nil]
  rfl

/-- The event that a version stands for. -/
theorem at_version {n : ℕ} {e : EventRow} (h : c.events[n]? = some e) : e.versionId = n + 1 := by
  have hn : n < c.life.version := by
    rw [← c.length_eq]
    exact (List.getElem?_eq_some_iff.mp h).1
  have hversion := congrArg (fun l => l[n]?) c.versions_eq
  simp only [List.getElem?_map, h, List.getElem?_range' hn, Option.map_some, Option.some.injEq] at hversion
  omega

theorem life_mono (h : c ≤ c') : c.life.states <+: c'.life.states := by
  rw [← c.states_eq, ← c'.states_eq]
  exact h.2.2.2.map _

theorem version_le (h : c ≤ c') : c.life.version ≤ c'.life.version := (life_mono h).length_le

/-- Where no version was added, nothing was. -/
theorem events_of_version (h : c ≤ c') (hv : c'.life.version ≤ c.life.version) : c'.events = c.events := by
  refine (h.2.2.2.eq_of_length_le ?_).symm
  rw [c.length_eq, c'.length_eq]
  exact hv

theorem current_of_version (h : c ≤ c') (hv : c'.life.version ≤ c.life.version) : c'.life.current = c.life.current := by
  have hlast := c'.getLast?_eq
  rw [events_of_version h hv, c.getLast?_eq] at hlast
  exact (Option.some.inj hlast).symm

/-- A final state is the end of the chronicle. -/
theorem final (h : c ≤ c') (ht : c.life.current.Terminal) : c'.life.version ≤ c.life.version := by
  obtain ⟨rest, hrest⟩ := life_mono h
  have hchain := c'.life.chain
  rw [← hrest, List.isChain_append] at hchain
  cases rest with
  | nil => rw [History.version, History.version, ← hrest, List.append_nil]
  | cons b rest =>
    have hnext := hchain.2.2 c.life.current (List.getLast?_eq_some_getLast c.life.states_ne_nil) b (by simp)
    exact absurd ht hnext.not_terminal

end Chronicle

/-! ## The chronicles of the tables -/

/-- The row and the events of `id` tell the chronicle. -/
structure Chronicled (db : Database) (id : String) (row : SandboxRow) (c : Chronicle) : Prop where
  found : db.sandbox? id = some row
  sandboxID : c.sandboxID = id
  spec : c.spec = row.spec
  createdAt : c.createdAt = row.createdAt
  events : c.events = db.logOf id
  follows : Follows db id row c.life

theorem Recorded.chronicled {db : Database} {id : String} {row : SandboxRow} (h : Recorded db)
    (hrow : db.sandbox? id = some row) : ∃ c, Chronicled db id row c := by
  obtain ⟨life, hlife⟩ := h id row hrow
  exact ⟨⟨id, row.spec, row.createdAt, db.logOf id, life, hlife.log⟩, hrow, rfl, rfl, rfl, rfl, hlife⟩

/-- Every row stays, and its events are added to. -/
def Grows (db db' : Database) : Prop :=
  ∀ id row, db.sandbox? id = some row → ∃ row', db'.sandbox? id = some row' ∧ row'.spec = row.spec ∧
    row'.createdAt = row.createdAt ∧ db.logOf id <+: db'.logOf id

theorem grows_refl (db : Database) : Grows db db := fun _ row h => ⟨row, h, rfl, rfl, List.prefix_refl _⟩

theorem Grows.trans {db₁ db₂ db₃ : Database} (h : Grows db₁ db₂) (h' : Grows db₂ db₃) : Grows db₁ db₃ := by
  intro id row hrow
  obtain ⟨row₂, hrow₂, hspec, hcreated, hlog⟩ := h id row hrow
  obtain ⟨row₃, hrow₃, hspec', hcreated', hlog'⟩ := h' id row₂ hrow₂
  exact ⟨row₃, hrow₃, hspec'.trans hspec, hcreated'.trans hcreated, hlog.trans hlog'⟩

/-- **Step lemma**: whatever a store call leaves of the tables, they have grown. -/
theorem StoreCall.Effect.grows {clock : Time} {s : StoreCall} {db db' : Database} (h : s.Effect clock db db') :
    Grows db db' := by
  intro id row hrow
  rcases h.row hrow with ⟨hsame, hlog⟩ | ⟨expiresAt, -, -, hrenewed, hlog⟩ | ⟨b, reason, n, -, -, hmoved, hlog⟩
  · exact ⟨row, hsame, rfl, rfl, hlog ▸ List.prefix_refl _⟩
  · exact ⟨_, hrenewed, rfl, rfl, hlog ▸ List.prefix_refl _⟩
  · exact ⟨_, hmoved, rfl, rfl, hlog ▸ List.prefix_append _ _⟩

/-- The later of two chronicles of a sandbox goes on from the earlier. -/
theorem Grows.chronicle_le {db db' : Database} {id : String} {row row' : SandboxRow} {c c' : Chronicle} (h : Grows db db')
    (hc : Chronicled db id row c) (hc' : Chronicled db' id row' c') : c ≤ c' := by
  obtain ⟨row'', hrow, hspec, hcreated, hlog⟩ := h id row hc.found
  obtain rfl := Option.some.inj (hrow.symm.trans hc'.found)
  refine ⟨hc.sandboxID.trans hc'.sandboxID.symm, ?_, ?_, ?_⟩
  · rw [hc.spec, hc'.spec, hspec]
  · rw [hc.createdAt, hc'.createdAt, hcreated]
  · rw [hc.events, hc'.events]
    exact hlog

section Run
variable {D : Signature} {ρ ι β ω : Type} {B : Backend D ρ} {handler : ι → Program (calls D) β}
  {worker : Program (calls D) ω} {ok : List (Label (calls D) ι β ω) → Config (calls D) (World ρ) ι β ω →
    Label (calls D) ι β ω → Prop}
  {ls : List (Label (calls D) ι β ω)} {C C' : Config (calls D) (World ρ) ι β ω}

theorem Grows.perform {s : (calls D).Call} {w w' : World ρ} {a : (calls D).Answer s} (h : B.perform s w a w') :
    Grows w.db w'.db := by
  rcases B.perform_db h with he | ⟨s, -, he⟩
  · rw [he]
    exact grows_refl _
  · exact he.grows

/-- **Run lemma**: along every run the tables grow. -/
theorem Grows.run (h : (B.service handler worker).Run ok C ls C') : Grows C.shared.db C'.shared.db :=
  h.shared (R := fun w w' => Grows w.db w'.db) (fun w => grows_refl w.db) (fun _ _ _ => Grows.trans)
    (fun _ _ _ _ ha => Grows.perform ha) fun w _ he => by
      rw [he.db_eq]
      exact grows_refl w.db

end Run
end Quickspin
