import Quickspin.Store.EventLog
import Quickspin.System

/-! Deletes under concurrency. A delete reads the row and then asks for running → stopping at the version it
read; a guard that missed is answered with success, whatever it missed. So a success sticks only where
the guard did not miss on a row that was pending, or had become running since the read. -/
namespace Quickspin
open Interaction Service Versioned
set_option autoImplicit false

/-! ## States a delete leaves alone -/

def TaskState.PastRunning (s : TaskState) : Prop := s = .stopping ∨ s = .stopped ∨ s = .failed

theorem Next.pastRunning {a b : TaskState} (h : Next a b) (ha : a.PastRunning) : b.PastRunning := by
  rcases ha with rfl | rfl | rfl
  · cases h
    exact .inr (.inl rfl)
  · cases h
  · cases h

/-- Every state of a life is a declared one. -/
theorem Life.declared (h : Life) : h.current = .pending ∨ h.current = .running ∨ h.current.PastRunning :=
  h.current_of_step (P := fun s => s = .pending ∨ s = .running ∨ s.PastRunning) (.inl rfl) fun a b hab => by
    cases hab with
    | start => exact .inr (.inl rfl)
    | abandon | fail => exact .inr (.inr (.inr (.inr rfl)))
    | stop => exact .inr (.inr (.inl rfl))
    | finish => exact .inr (.inr (.inr (.inl rfl)))

/-- The sandbox is absent or past running. -/
def Gone (id : String) (db : Database) : Prop := ∀ row, db.sandbox? id = some row → row.state.PastRunning

theorem Gone.effect {clock : Time} {c : StoreCall} {db db' : Database} {id : String} (h : Gone id db)
    (e : c.Effect clock db db') (hnew : ∀ key spec expiresAt, c ≠ .insertSandbox key spec id expiresAt) :
    Gone id db' := by
  intro row' hrow'
  rcases hrow : db.sandbox? id with _ | row
  · rcases e.absent hrow with hn | ⟨key, spec, expiresAt, hc, -⟩
    · rw [hn] at hrow'
      cases hrow'
    · exact absurd hc (hnew key spec expiresAt)
  have hpast := h row hrow
  rcases e.row hrow with ⟨hr, -⟩ | ⟨expiresAt, -, -, hr, -⟩ | ⟨b, reason, n, -, hnext, hr, -⟩ <;>
    obtain rfl := Option.some.inj (hr.symm.trans hrow')
  · exact hpast
  · exact hpast
  · exact hnext.pastRunning hpast

/-! ## The text of a delete -/

section Text
variable {D : Signature}

def accepted : Response := .nothing (.ok ())

/-- A delete reads its row, and answers with success where the row is absent, where its transition commits, or where
that is refused for an absent row or a missed guard. -/
def DeleteText (id : String) : (c : (calls D).Call) → ((calls D).Answer c → Program (calls D) Response) → Prop
  | .store (.getSandbox id'), next =>
    id' = id ∧ ∀ a, next a = .done accepted → ∃ e, a = .error e ∧ e.is .storeNotFound = true
  | .store (.updateSandboxState id' a b _ _), next => id' = id ∧ a = .running ∧ b = .stopping ∧
    ∀ r, next r = .done accepted → (∃ sbx, r = .ok sbx) ∨
      ∃ e, r = .error e ∧ (e.is .storeNotFound = true ∨ e.is .invalidStateTransition = true)
  | _, _ => False

def Request.Text : Request → (c : (calls D).Call) → ((calls D).Answer c → Program (calls D) Response) → Prop
  | .destroy id => DeleteText id
  | _ => fun _ _ => True

theorem destroySandbox_text (id : String) : (Request.handle (D := D) (.destroy id)).Nodes (DeleteText id) := by
  unfold Request.handle Control.destroySandbox
  refine ⟨⟨rfl, fun a h => ?_⟩, fun a => ?_⟩
  · rcases (a : Except Err Sandbox) with e | sbx
    · rcases he : e.is .storeNotFound with _ | _
      · simp [he, accepted, Program.bind] at h
      · exact ⟨e, rfl, he⟩
    · cases h
  rcases (a : Except Err Sandbox) with e | sbx
  · rcases he : e.is .storeNotFound with _ | _ <;> simp [he, Program.bind, Program.Nodes]
  refine ⟨⟨rfl, rfl, rfl, fun r h => ?_⟩, fun r => ?_⟩
  · rcases (r : Except Err Sandbox) with e | sbx'
    · rcases he : e.is .storeNotFound || e.is .invalidStateTransition with _ | _
      · simp [he, accepted, Program.bind] at h
      · exact .inr ⟨e, rfl, by simpa using he⟩
    · exact .inl ⟨sbx', rfl⟩
  · rcases (r : Except Err Sandbox) with e | sbx'
    · rcases he : e.is .storeNotFound || e.is .invalidStateTransition with _ | _ <;> simp [he, Program.bind, Program.Nodes]
    · trivial

theorem Request.handle_text (i : Request) : (Request.handle (D := D) i).Nodes i.Text := by
  cases i with
  | destroy id => exact destroySandbox_text id
  | create | keepalive => exact Program.nodes_true _

end Text

/-! ## Along a run -/

section Run
variable {ρ : Type} {B : Backend Runtime.signature ρ} {ls : List ControlLabel} {C C' : ControlConfig ρ}
  {l : ControlLabel}

/-- The guard of a delete never meets its row pending, nor running at a version other than the one read; and no
sandbox is created under an id that a delete has named before. -/
structure DeleteSeesItsRow (ls : List ControlLabel) (C : ControlConfig ρ) (l : ControlLabel) : Prop where
  seen : ∀ n id a b reason v r, l = .request n (.destroy id) (.store (.updateSandboxState id a b reason v)) r →
    ∀ row, C.shared.db.sandbox? id = some row → row.state ≠ .pending ∧ (row.state = .running → row.versionId = v)
  fresh : ∀ key spec id expiresAt r, Asks l (.insertSandbox key spec id expiresAt) r →
    ∀ n, .arrive n (.destroy id) ∉ ls

theorem Gone.step {id : String} (h : Gone id C.shared.db) (hs : (controlPlane B).Step C l C')
    (hok : DeleteSeesItsRow ls C l) {n : ℕ} (hn : .arrive n (.destroy id) ∈ ls) : Gone id C'.shared.db := by
  rcases Backend.step_db hs with he | ⟨s, a, hl, he⟩
  · rwa [he]
  · refine h.effect he ?_
    rintro key spec expiresAt rfl
    exact hok.fresh _ _ _ _ _ hl n hn

/-- **Step lemma**: the call that decides a delete's success leaves the sandbox gone. -/
theorem accepted_gone {n : ℕ} {id : String} {c : (calls Runtime.signature).Call}
    {a : (calls Runtime.signature).Answer c} (ho : Obeys Request.Text (fun _ _ => True) C)
    (hrec : Recorded C.shared.db) (hs : (controlPlane B).Step C (.request n (.destroy id) c a) C')
    (hok : DeleteSeesItsRow ls C (.request n (.destroy id) c a))
    (hn : C'.requests n = some (.destroy id, .done accepted)) : Gone id C'.shared.db := by
  obtain ⟨next, htext, -, hslot, ha⟩ := hs.request_node ho
  have hnext : next a = .done accepted := by
    rw [hn] at hslot
    exact (Prod.mk.inj (Option.some.inj hslot)).2.symm
  have habsent : C'.shared.db = C.shared.db → C.shared.db.sandbox? id = none → Gone id C'.shared.db := by
    intro he hnone row hrow
    rw [he, hnone] at hrow
    cases hrow
  cases c with
  | now | newSandboxID | backend | decide => exact htext.elim
  | store s =>
    obtain ⟨f, db, he, hdb⟩ := ha
    cases s with
    | getIdempotencyKey | createIdempotencyKey | getSandboxes | getSandboxEvents | insertSandbox
      | updateSandboxExpiry => exact htext.elim
    | getSandbox id' =>
      obtain ⟨rfl, hread⟩ := htext
      obtain ⟨e, rfl, hnf⟩ := hread a hnext
      obtain ⟨hget, rfl⟩ := Prod.mk.inj he
      exact habsent (by rw [hdb]) (Sqlite.getSandbox_notFound hget hnf)
    | updateSandboxState id' s s' reason v =>
      obtain ⟨rfl, rfl, rfl, hwrite⟩ := htext
      have he : Sqlite.updateSandboxState f C.shared.clock.currentTimestamp id' .running .stopping reason v
        C.shared.db = (a, db) := he
      rcases Sqlite.updateSandboxState_cases he with ⟨row, sbx, ht, -⟩ | ⟨rfl, e, rfl, hnf, hist⟩
      · intro row' hrow'
        rw [hdb, ht.sandbox, if_pos rfl] at hrow'
        cases hrow'
        exact .inl rfl
      rcases hwrite _ hnext with ⟨sbx, hr⟩ | ⟨e', he', hkind⟩
      · cases hr
      cases he'
      rcases hkind with hkind | hkind
      · exact habsent (by rw [hdb]) (hnf hkind)
      · obtain ⟨row, hrow, hmiss⟩ := hist .stop hkind
        intro row' hrow'
        rw [hdb] at hrow'
        obtain rfl : row' = row := Option.some.inj (hrow'.symm.trans hrow)
        obtain ⟨hp, hv⟩ := hok.seen n id' _ _ _ _ _ rfl row' hrow
        obtain ⟨life, hlife⟩ := hrec _ _ hrow
        rcases life.declared with hd | hd | hd <;> rw [← hlife.state] at hd
        · exact absurd hd hp
        · simp [Sqlite.observed, hd, hv hd] at hmiss
        · exact hd

/-- The successes given so far, and those about to be given, hold. -/
structure DeletesStick (ls : List ControlLabel) (C : ControlConfig ρ) : Prop where
  deciding : ∀ n id, C.requests n = some (.destroy id, .done accepted) → Gone id C.shared.db
  answered : ∀ n id, .respond n (.destroy id) accepted ∈ ls → Gone id C.shared.db

variable {t₀ : Time} {r₀ : ρ}

/-- **Run lemma**: where every delete sees its row, its success sticks. -/
theorem deletes_stick (h : (controlPlane B).Run DeleteSeesItsRow (.idle ⟨.empty, t₀, r₀⟩) ls C) :
    DeletesStick ls C := by
  induction h with
  | nil => exact ⟨fun n id hn => (nomatch hn), fun n id hl => (nomatch hl)⟩
  | @cons ls C C' l hr hok hs ih =>
    have hidle : ∀ n, (.idle ⟨.empty, t₀, r₀⟩ : ControlConfig ρ).requests n = none := fun _ => rfl
    have ho : Obeys Request.Text (fun _ _ => True) C :=
      hr.obeys Request.handle_text (Program.nodes_true _) (obeys_idle _)
    have hrec : Recorded C.shared.db := Recorded.run hr recorded_empty
    constructor
    · intro n id hn
      rcases hs.slot hn with ⟨hn', -⟩ | ⟨-, hp⟩ | ⟨c, next, a, rfl, -⟩
      · exact (ih.deciding n id hn').step hs hok (hr.arrived hidle hn')
      · cases hp
      · exact accepted_gone ho hrec hs hok hn
    · intro n id hl
      rcases List.mem_cons.mp hl with rfl | hl
      · cases hs with
        | respond hn => exact ih.deciding n id hn
      · exact (ih.answered n id hl).step hs hok (hr.responded hidle hl)

/-- **An accepted delete sticks** in every run, from the empty store, in which every delete sees its row: once it
was answered with success the sandbox is absent, stopping, stopped or failed in every state after. -/
theorem accepted_delete_sticks (h : (controlPlane B).Run DeleteSeesItsRow (.idle ⟨.empty, t₀, r₀⟩) ls C) {n : ℕ}
    {id : String} (hl : .respond n (.destroy id) (.nothing (.ok ())) ∈ ls) :
    ∀ row ∈ C.shared.db.sandboxes.rows, row.platformId = id →
      row.state = .stopping ∨ row.state = .stopped ∨ row.state = .failed := by
  rintro row hrow rfl
  exact (deletes_stick h).answered n _ hl row (Relational.Table.find?_of_mem hrow)

end Run

/-! ## Two runs over the fleet -/

/-- The response is the success of a delete. -/
def Response.isAccepted : Response → Bool
  | .nothing (.ok ()) => true
  | _ => false

theorem Response.eq_accepted {r : Response} (h : r.isAccepted = true) : r = .nothing (.ok ()) := by
  rcases r with r | ⟨e | ⟨⟨⟩⟩⟩
  · cases h
  · cases h
  · rfl

/-- A delete that meets its row pending succeeds, and the next pass starts the sandbox. -/
theorem accepted_delete_lost : ∃ ls C, (controlPlane .fleet).Run Always (.idle .empty) ls C ∧
    .respond 1 (.destroy exampleID) (.nothing (.ok ())) ∈ ls ∧
    C.shared.db.sandboxes.rows.map (fun row => (row.platformId, row.state)) = [(exampleID, .running)] := by
  obtain ⟨ls₁, h₁⟩ := (Run.start (controlPlane .fleet) Always (.idle .empty)).thenServe fleetExec_performs 0
    (.create "k" {} 0) rfl
  obtain ⟨ls₂, h₂⟩ := h₁.thenServe fleetExec_performs 1 (.destroy exampleID) rfl
  obtain ⟨ls₃, h₃⟩ := h₂.thenPass fleetExec_performs rfl
  rw [Response.eq_accepted (r := Prod.fst (Program.run _ ((controlPlane .fleet).handler (.destroy exampleID)) _))
    (by decide +kernel)] at h₃
  exact ⟨_, _, h₃, by simp, by decide +kernel⟩

/-- The check of `DeleteSeesItsRow.seen` on one call. -/
def seesItsRow : (c : (calls Runtime.signature).Call) → World Fleet → (calls Runtime.signature).Answer c → Bool
  | .store (.updateSandboxState id _ _ _ v), w, _ =>
    (w.db.sandbox? id).all fun row => row.state ≠ .pending && (row.state ≠ .running || row.versionId = v)
  | .store (.insertSandbox ..), _, _ => false
  | _, _, _ => true

/-- The theorem at a run that deletes the sandbox after the pass has started it. -/
theorem accepted_delete_sticks_running : ∃ ls C,
    (controlPlane .fleet).Run DeleteSeesItsRow (.idle .empty) ls C ∧
    .respond 1 (.destroy exampleID) (.nothing (.ok ())) ∈ ls ∧ C.shared.db.sandboxes.rows.length = 1 ∧
    ∀ row ∈ C.shared.db.sandboxes.rows, row.platformId = exampleID →
      row.state = .stopping ∨ row.state = .stopped ∨ row.state = .failed := by
  obtain ⟨ls₁, hl₁, h₁⟩ := Run.serve (P := fun _ _ _ => true) fleetExec_performs (n := 0) (i := .create "k" {} 0)
    (Run.start (controlPlane .fleet) DeleteSeesItsRow (.idle .empty)) rfl
    (Program.meets_true _ _) fun ms C' l _ hl _ => by
      constructor
      · rintro n id a b reason v r rfl
        simpa [Label.Of] using hl _ (List.mem_cons_self ..)
      · intro key spec id expiresAt r _ n hn
        have hms : .arrive n (.destroy id) ∈ ms := by simpa using hn
        simpa [Label.Of] using hl _ (List.mem_cons_of_mem _ hms)
  have hnone : ∀ n id, .arrive n (.destroy id) ∉ ls₁ := fun n id hn => by simpa [Label.Of] using hl₁ _ hn
  obtain ⟨ls₂, hl₂, h₂⟩ := Run.pass (P := fun _ _ _ => true) fleetExec_performs h₁ rfl (Program.meets_true _ _)
    fun ms C' l _ hl _ => by
      constructor
      · rintro n id a b reason v r rfl
        simpa [Label.OfWorker] using hl _ (List.mem_cons_self ..)
      · intro key spec id expiresAt r _ n hn
        have hms : .arrive n (.destroy id) ∈ ms := by simpa [hnone] using hn
        simpa [Label.OfWorker] using hl _ (List.mem_cons_of_mem _ hms)
  obtain ⟨ls₃, -, h₃⟩ := Run.serve (P := seesItsRow) fleetExec_performs (n := 1) (i := .destroy exampleID) h₂ rfl
    (by decide +kernel) fun ms C' l _ hl hP => by
      constructor
      · rintro n id a b reason v r rfl row hrow
        obtain ⟨rfl, rfl⟩ : n = 1 ∧ id = exampleID := by simpa [Label.Of] using hl _ (List.mem_cons_self ..)
        have hsees := hP _ _ rfl
        simp only [seesItsRow, hrow] at hsees
        simp_all [or_iff_not_imp_left]
      · rintro key spec id expiresAt r (rfl | ⟨n, i, rfl⟩)
        · simpa [Label.Of] using hl _ (List.mem_cons_self ..)
        · obtain ⟨rfl, rfl⟩ : n = 1 ∧ i = .destroy exampleID := by
            simpa [Label.Of] using hl _ (List.mem_cons_self ..)
          simpa [seesItsRow] using hP _ _ rfl
  rw [Response.eq_accepted (r := Prod.fst (Program.run _ ((controlPlane .fleet).handler (.destroy exampleID)) _))
    (by decide +kernel)] at h₃
  exact ⟨_, _, h₃, by simp, by decide +kernel, accepted_delete_sticks h₃ (n := 1) (by simp)⟩

end Quickspin
