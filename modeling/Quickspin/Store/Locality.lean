import Quickspin.Store.Effects
import Quickspin.Lib.Agree

/-! A transition looks at one sandbox. What it answers, and what it leaves of its row and of that row's events,
follows from the row and these events alone; the row number of the event is the exception, which counts the
events of all sandboxes. -/
namespace Quickspin
open Relational
set_option autoImplicit false

/-- The event without its row number. -/
def EventRow.unnumbered (e : EventRow) : EventRow := { e with id := 0 }

/-- The two databases hold the same of a sandbox: its row, and its events but for their row numbers. -/
structure SameRecord (id : String) (db db' : Database) : Prop where
  row : db.sandbox? id = db'.sandbox? id
  events : (db.logOf id).map EventRow.unnumbered = (db'.logOf id).map EventRow.unnumbered

section Same
variable {db db' : Database} {id : String}

theorem SameRecord.refl (id : String) (db : Database) : SameRecord id db db := ⟨rfl, rfl⟩

theorem SameRecord.symm (h : SameRecord id db db') : SameRecord id db' db := ⟨h.row.symm, h.events.symm⟩

theorem SameRecord.trans {db'' : Database} (h : SameRecord id db db') (h' : SameRecord id db' db'') :
    SameRecord id db db'' := ⟨h.row.trans h'.row, h.events.trans h'.events⟩

theorem sameRecord_effect {clock : Time} {id' reason : String} {a b : TaskState} {v : ℤ} (hne : id' ≠ id)
    (h : (StoreCall.updateSandboxState id' a b reason v).Effect clock db db') : SameRecord id db db' := by
  cases h with
  | same => exact .refl id db
  | transitioned h =>
    obtain ⟨n, hev⟩ := h.events
    refine ⟨by rw [h.sandbox, if_neg hne.symm], ?_⟩
    rw [logOf_append hev id, if_neg hne]

theorem SameRecord.version_free (h : SameRecord id db db') {v : ℤ} :
    (∃ e ∈ db.events.rows, e.sandboxId = id ∧ e.versionId = v) →
      ∃ e ∈ db'.events.rows, e.sandboxId = id ∧ e.versionId = v := by
  rintro ⟨e, he, hid, hv⟩
  have hmem : e.unnumbered ∈ (db.logOf id).map EventRow.unnumbered :=
    List.mem_map_of_mem (List.mem_filter.mpr ⟨he, decide_eq_true hid⟩)
  rw [h.events] at hmem
  obtain ⟨e', he', heq⟩ := List.mem_map.mp hmem
  obtain ⟨hrow', hid'⟩ := List.mem_filter.mp he'
  have hversion : e'.unnumbered.versionId = e.unnumbered.versionId := by rw [heq]
  exact ⟨e', hrow', of_decide_eq_true hid', hversion.trans hv⟩

/-! ## The event -/

/-- An insertion of an event fails for want of the row, or for an event of that version. -/
theorem insertEvent_taken {v : ℤ} {a b : TaskState} {t : Time} {reason : String} (hs : (db.sandbox? id).isSome)
    (h : ∃ e ∈ db.events.rows, e.sandboxId = id ∧ e.versionId = v) : db.insertEvent v id a b t reason =
      .error (Database.uniqueViolation "events.sandbox_id, events.version_id") := by
  unfold Database.insertEvent
  dsimp only
  rw [Database.sandbox?] at hs
  rw [dif_pos hs]
  split
  · rfl
  · next events hi =>
    obtain ⟨e, he, hid, hv⟩ := h
    have hfresh := Table.fresh_of_insert hi
    rw [Table.find?_eq_none_iff] at hfresh
    exact absurd (List.mem_map.mpr ⟨e, he, by rw [hid, hv]⟩) hfresh

theorem insertEvent_agree (h : SameRecord id db db') (v : ℤ) (a b : TaskState) (t : Time) (reason : String) :
    Agree (SameRecord id) (db.insertEvent v id a b t reason) (db'.insertEvent v id a b t reason) := by
  by_cases hs : (db.sandbox? id).isSome
  · have hs' : (db'.sandbox? id).isSome := h.row ▸ hs
    by_cases htaken : ∃ e ∈ db.events.rows, e.sandboxId = id ∧ e.versionId = v
    · rw [insertEvent_taken hs htaken, insertEvent_taken hs' (h.version_free htaken)]
      exact .error _
    · have hfree : ∀ e ∈ db.events.rows, e.sandboxId = id → e.versionId ≠ v := fun e he hid hv =>
        htaken ⟨e, he, hid, hv⟩
      have hfree' : ∀ e ∈ db'.events.rows, e.sandboxId = id → e.versionId ≠ v := fun e he hid hv =>
        htaken (h.symm.version_free ⟨e, he, hid, hv⟩)
      obtain ⟨db₁, hok⟩ := Database.insertEvent_fresh a b t reason hs hfree
      obtain ⟨db₁', hok'⟩ := Database.insertEvent_fresh a b t reason hs' hfree'
      obtain ⟨hrows, -, hev⟩ := Database.insertEvent_ok hok
      obtain ⟨hrows', -, hev'⟩ := Database.insertEvent_ok hok'
      rw [hok, hok']
      refine .ok ⟨by rw [Database.sandbox?, hrows, Database.sandbox?, hrows']; exact h.row, ?_⟩
      rw [logOf_append hev id, logOf_append hev' id, if_pos rfl, if_pos rfl, List.map_append, List.map_append, h.events]
      rfl
  · have hs' : ¬(db'.sandbox? id).isSome := h.row ▸ hs
    rw [Database.sandbox?] at hs hs'
    rw [Database.insertEvent, dif_neg hs, Database.insertEvent, dif_neg hs']
    exact .error _

theorem appendEvent_agree (h : SameRecord id db db') (f : Faults) (e : Event) (hid : e.sandboxID = id) :
    Agree (SameRecord id) (Sqlite.appendEvent f e db) (Sqlite.appendEvent f e db') := by
  subst hid
  unfold Sqlite.appendEvent
  refine Agree.bind (agree_same _) fun _ _ _ => Agree.bind (agree_same _) fun _ _ _ => ?_
  exact (insertEvent_agree h ..).mapError _

/-! ## The row -/

section Row
variable (guard : SandboxRow → Bool) (set : SandboxRow → SandboxRow) (hset : ∀ r, (set r).platformId = r.platformId)

theorem updateSandbox_agree (h : SameRecord id db db') :
    (db.updateSandbox id guard set hset).1 = (db'.updateSandbox id guard set hset).1 ∧
      SameRecord id (db.updateSandbox id guard set hset).2 (db'.updateSandbox id guard set hset).2 := by
  unfold Database.updateSandbox
  rw [h.row]
  cases hrow : db'.sandbox? id with
  | none => exact ⟨rfl, h⟩
  | some row =>
    dsimp only
    split
    · refine ⟨rfl, ?_, h.events⟩
      rw [Database.writeSandbox_sandbox?, Database.writeSandbox_sandbox?, if_pos rfl, if_pos rfl, h.row]
    · exact ⟨rfl, h⟩

theorem guardedUpdate_agree (h : SameRecord id db db') (f : Faults) (op msg : String) :
    Agree (fun a b => a.1 = b.1 ∧ SameRecord id a.2 b.2)
      (Sqlite.guardedUpdate f op msg id guard set hset db) (Sqlite.guardedUpdate f op msg id guard set hset db') := by
  obtain ⟨hrow, hsame⟩ := updateSandbox_agree guard set hset h
  unfold Sqlite.guardedUpdate
  generalize db.updateSandbox id guard set hset = x at hrow hsame
  generalize db'.updateSandbox id guard set hset = y at hrow hsame
  obtain ⟨row, db₁⟩ := x
  obtain ⟨row', db₁'⟩ := y
  obtain rfl : row = row' := hrow
  dsimp only
  cases Sqlite.scanRow (f.check .update) Sqlite.sandboxRowError Sqlite.scanSandbox row with
  | ok sbx => exact .ok ⟨rfl, hsame⟩
  | error err =>
    dsimp only
    split
    · rw [hsame.row]
      cases Sqlite.scanRow (f.check .reread) Sqlite.sandboxRowError Sqlite.scanSandbox (db₁'.sandbox? id) with
      | error getErr => exact .error _
      | ok sbx => exact .error _
    · exact .error _

end Row

/-- **A transition** answers alike where the sandbox is alike, and leaves it alike. -/
theorem updateSandboxState_agree (h : SameRecord id db db') (f : Faults) (now : Time) (a b : TaskState) (reason : String)
    (v : ℤ) : (Sqlite.updateSandboxState f now id a b reason v db).1 = (Sqlite.updateSandboxState f now id a b reason v db').1 ∧
      SameRecord id (Sqlite.updateSandboxState f now id a b reason v db).2
        (Sqlite.updateSandboxState f now id a b reason v db').2 := by
  unfold Sqlite.updateSandboxState
  dsimp only
  cases canTransition a b with
  | error err => exact ⟨rfl, h⟩
  | ok u =>
    refine atomically_agree h ?_
    have hupdate := (guardedUpdate_agree (Sqlite.observed a v) (SandboxRow.moveTo b now)
      (SandboxRow.moveTo_platformId b now) h f "sqlite.Store.UpdateSandboxState"
      s!"transitioning sandbox {id} from {a.text} to {b.text}").and (P := fun x => x.1.sandboxID = id) ?_
    · refine hupdate.bind fun x y hxy => ?_
      obtain ⟨⟨hsbx, hsame⟩, hid⟩ := hxy
      obtain ⟨sbx, db₁⟩ := x
      obtain ⟨sbx', db₁'⟩ := y
      obtain rfl : sbx = sbx' := hsbx
      refine Agree.bind ((appendEvent_agree hsame f _ hid).mapError _) fun d d' hd => ?_
      exact .ok ⟨rfl, hd⟩
    · rintro ⟨sbx, db₁⟩ hok
      obtain ⟨row, hrow, -, hscan, -⟩ := Sqlite.guardedUpdate_ok hok
      exact (Sqlite.scanSandbox_id hscan).trans (show row.platformId = id from Table.key_of_find? hrow)

end Same
end Quickspin
