import Quickspin.Calls
import Quickspin.Lib.Lifecycle
import Quickspin.Lib.Schedule

/-! The event log against the rows. The abstract store keeps, for each sandbox, the history of its
states (`Life`); the tables refine it: a row is the end of its history and the events stored for it
are the history's log. Every call keeps the refinement, whatever fails. -/
namespace Quickspin
open Interaction Service Versioned
set_option autoImplicit false

/-- The states a sandbox has gone through. -/
abbrev Life := History TaskState Next .pending

def EventRow.entry (e : EventRow) : ℤ × TaskState × TaskState := (e.versionId, e.fromState, e.toState)

/-- An abstract entry as a row stores it; nothing is stored as the zero state. -/
def entryOf (e : ℕ × Option TaskState × TaskState) : ℤ × TaskState × TaskState :=
  (e.1, e.2.1.getD .zero, e.2.2)

/-- The row and the events of `id` are those of the history. -/
structure Follows (db : Database) (id : String) (row : SandboxRow) (h : Life) : Prop where
  state : row.state = h.current
  version : row.versionId = h.version
  log : (db.logOf id).map EventRow.entry = h.log.map entryOf

/-- Every row has a history it follows. -/
def Recorded (db : Database) : Prop :=
  ∀ id row, db.sandbox? id = some row → ∃ h : Life, Follows db id row h

/-! ## Every call keeps the refinement -/

theorem follows_created {db db' : Database} {now : Time} {key id : String} {spec : Json} {expiresAt : Time}
    {row : SandboxRow} (c : Created now key spec id expiresAt db db') (hrow : db'.sandbox? id = some row) :
    Follows db' id row (History.start TaskState.pending) := by
  obtain ⟨n, hfind⟩ := c.sandbox
  obtain ⟨m, hev⟩ := c.events
  have hlog := logOf_append hev id
  rw [if_pos rfl, logOf_absent c.fresh] at hlog
  rw [hfind id, if_pos rfl] at hrow
  cases hrow
  exact ⟨rfl, rfl, by rw [hlog]; rfl⟩

/-- **Step lemma**: whatever a store call leaves of the tables, they still follow the histories. -/
theorem Recorded.effect {clock : Time} {c : StoreCall} {db db' : Database} (h : Recorded db)
    (e : c.Effect clock db db') : Recorded db' := by
  intro id row' hrow'
  rcases hrow : db.sandbox? id with _ | row
  · rcases e.absent hrow with hn | ⟨key, spec, expiresAt, -, hc⟩
    · rw [hn] at hrow'
      cases hrow'
    · exact ⟨_, follows_created hc hrow'⟩
  obtain ⟨l, hs, hv, hl⟩ := h id row hrow
  rcases e.row hrow with ⟨hr, hlog⟩ | ⟨expiresAt, -, -, hr, hlog⟩ | ⟨b, reason, n, -, hnext, hr, hlog⟩ <;>
    obtain rfl := Option.some.inj (hr.symm.trans hrow')
  · exact ⟨l, hs, hv, by rw [hlog, hl]⟩
  · exact ⟨l, hs, hv, by rw [hlog, hl]⟩
  · refine ⟨l.extend b (hs ▸ hnext), (History.current_extend ..).symm, ?_, ?_⟩
    · rw [History.version_extend]
      show row.versionId + 1 = _
      rw [hv]
      rfl
    · rw [hlog, List.map_append, hl, History.log_extend, List.map_append, ← hs]
      simp only [List.map_singleton, EventRow.entry, entryOf, hv]
      rfl

theorem recorded_empty : Recorded .empty := fun id row h => by
  rw [Database.sandbox?] at h
  cases h

section Run
variable {D : Signature} {ρ ι β ω : Type} {B : Backend D ρ} {handler : ι → Program (calls D) β}
  {worker : Program (calls D) ω}

theorem Recorded.perform {c : (calls D).Call} {w w' : World ρ} {a : (calls D).Answer c}
    (ha : B.perform c w a w') (h : Recorded w.db) : Recorded w'.db := by
  rcases B.perform_db ha with he | ⟨s, -, he⟩
  · rw [he]
    exact h
  · exact h.effect he

/-- **Run lemma**: whatever threads run over whatever backend, the tables follow the histories. -/
theorem Recorded.run {ok : _} {C₀ C : Config (calls D) (World ρ) ι β ω} {ls : List (Label (calls D) ι β ω)}
    (h : (B.service handler worker).Run ok C₀ ls C) (h₀ : Recorded C₀.shared.db) : Recorded C.shared.db :=
  h.keeps (I := fun w => Recorded w.db) (fun _ _ _ _ ha => Recorded.perform ha)
    (fun _ _ he hr => (he.db_eq ▸ hr : Recorded _)) h₀

end Run

/-! ## Replaying the log -/

/-- What a replay of the stored events of a sandbox, ordered by version, finds. -/
structure Replays (db : Database) (row : SandboxRow) : Prop where
  versions : ∃ n : ℕ, row.versionId = n ∧
    (db.eventsOf row.platformId).map (·.versionId) = (List.range' 1 n).map Nat.cast
  starts : (db.eventsOf row.platformId).head?.map (fun e => (e.fromState, e.toState)) = some (.zero, .pending)
  follows : (db.eventsOf row.platformId).IsChain fun e e' =>
    e'.fromState = e.toState ∧ canTransition e'.fromState e'.toState = .ok ()
  ends : (db.eventsOf row.platformId).getLast?.map (·.toState) = some row.state

section Replay
variable {db : Database} {id : String} {row : SandboxRow} {h : Life}

theorem Follows.versions (f : Follows db id row h) :
    (db.logOf id).map (·.versionId) = (List.range' 1 h.version).map Nat.cast := by
  have hl := congrArg (List.map Prod.fst) f.log
  simp only [List.map_map] at hl
  rw [← History.log_numbers, List.map_map]
  exact hl

theorem Follows.eventsOf_eq (f : Follows db id row h) : db.eventsOf id = db.logOf id := by
  refine List.Pairwise.insertionSort_eq ?_
  have hp : ((db.logOf id).map (·.versionId)).Pairwise (· ≤ ·) := by
    rw [f.versions, List.pairwise_map]
    exact List.pairwise_le_range'.imp fun hab => Int.ofNat_le.mpr hab
  exact List.pairwise_map.mp hp

theorem Follows.replays (f : Follows db row.platformId row h) : Replays db row := by
  have hlog := f.log
  refine ⟨⟨h.version, f.version, by rw [f.eventsOf_eq, f.versions]⟩, ?_, ?_, ?_⟩
  · have hh := congrArg List.head? hlog
    rw [List.head?_map, List.head?_map, History.log_head] at hh
    rw [f.eventsOf_eq]
    have := congrArg (Option.map Prod.snd) hh
    rw [Option.map_map] at this
    exact this
  · have hc : ((db.logOf row.platformId).map EventRow.entry).IsChain
        fun e e' => e'.2.1 = e.2.2 ∧ Next e'.2.1 e'.2.2 := by
      rw [hlog]
      refine (List.isChain_map entryOf).mpr (h.log_chain.imp fun e e' hee => ?_)
      simp only [entryOf, hee.1, Option.getD_some]
      exact ⟨trivial, hee.2⟩
    rw [f.eventsOf_eq]
    exact ((List.isChain_map EventRow.entry).mp hc).imp fun e e' hee =>
      ⟨hee.1, (canTransition_ok_iff _ _).mpr hee.2⟩
  · rw [f.eventsOf_eq, f.state, ← History.log_last, ← List.getLast?_map, ← List.getLast?_map]
    have hl := congrArg (List.map fun e => e.2.2) hlog
    simp only [List.map_map] at hl
    exact congrArg List.getLast? hl

end Replay

variable {D : Signature} {ρ ι β ω : Type} {B : Backend D ρ} {handler : ι → Program (calls D) β}
  {worker : Program (calls D) ω} {ls : List (Label (calls D) ι β ω)} {C : Config (calls D) (World ρ) ι β ω}

/-- **The event log replays to the rows**, in every state that any threads, calling the store as they
like, can reach from the empty database, whatever statements fail. -/
theorem event_log_replays {t₀ : Time} {r₀ : ρ}
    (h : (B.service handler worker).Run Always (.idle ⟨.empty, t₀, r₀⟩) ls C) :
    (∀ row ∈ C.shared.db.sandboxes.rows, Replays C.shared.db row) ∧
      ∀ e ∈ C.shared.db.events.rows, ∃ row ∈ C.shared.db.sandboxes.rows, row.platformId = e.sandboxId := by
  have hrec : Recorded C.shared.db := Recorded.run h recorded_empty
  constructor
  · intro row hrow
    obtain ⟨l, hl⟩ := hrec row.platformId row (Relational.Table.find?_of_mem hrow)
    exact hl.replays
  · intro e he
    obtain ⟨row, hrow⟩ := Option.isSome_iff_exists.mp (C.shared.db.eventReferences e he)
    obtain ⟨hm, hid⟩ := Relational.Table.find?_eq_some_iff.mp hrow
    exact ⟨row, hm, hid⟩

/-- The theorem at a run that creates a sandbox and starts it. -/
theorem event_log_replays_started : ∃ ls C,
    storeService.Run Always (.idle ⟨.empty, 0, ()⟩) ls C ∧
      C.shared.db.sandboxes.rows.map (·.state) = [.running] ∧
      (∀ row ∈ C.shared.db.sandboxes.rows, Replays C.shared.db row) := by
  obtain ⟨ls₁, h₁⟩ := (Run.start storeService Always (.idle ⟨.empty, 0, ()⟩)).thenServe storeExec_performs 0
    (.createSandbox "k" {} 1) rfl
  obtain ⟨ls₂, h₂⟩ := h₁.thenServe storeExec_performs 0
    (.direct (.updateSandboxState exampleID .pending .running "started" 1)) rfl
  exact ⟨_, _, h₂, by decide +kernel, (event_log_replays h₂).1⟩
end Quickspin
