import Quickspin.Gate
import Quickspin.Delete

/-! Runs of the server: any number of requests beside the reconciler, crashes and failing statements at any point. What a
request does to a sandbox, and what it is told of it, goes back to what the store held while the request was there. -/
namespace Quickspin
open Interaction Service
set_option autoImplicit false

/-! ## A sandbox that has run -/

/-- The sandbox is running, or past it. -/
def Started (id : String) (db : Database) : Prop :=
  ∃ row, db.sandbox? id = some row ∧ (row.state = .running ∨ row.state.PastRunning)

theorem Started.effect {clock : Time} {c : StoreCall} {db db' : Database} {id : String} (h : Started id db)
    (e : c.Effect clock db db') : Started id db' := by
  obtain ⟨row, hrow, hstate⟩ := h
  rcases e.row hrow with ⟨hr, -⟩ | ⟨expiresAt, -, -, hr, -⟩ | ⟨b, reason, n, -, hnext, hr, -⟩
  · exact ⟨row, hr, hstate⟩
  · exact ⟨_, hr, hstate⟩
  · refine ⟨_, hr, .inr ?_⟩
    cases hstate with
    | inl hrunning =>
      rw [hrunning] at hnext
      cases hnext with
      | fail => exact .inr (.inr rfl)
      | stop => exact .inl rfl
    | inr hpast => exact hnext.pastRunning hpast

theorem Started.run {D : Signature} {ρ ι β ω : Type} {B : Backend D ρ} {handler : ι → Program (calls D) β}
    {worker : Program (calls D) ω} {ok : _} {C₀ C : Config (calls D) (World ρ) ι β ω}
    {ls : List (Label (calls D) ι β ω)} {id : String} (h : (B.service handler worker).Run ok C₀ ls C)
    (h₀ : Started id C₀.shared.db) : Started id C.shared.db := by
  refine h.keeps (I := fun w => Started id w.db) (fun c w a w' ha hstarted => ?_) (fun w w' he hstarted => ?_) h₀
  · rcases B.perform_db ha with he | ⟨s, -, he⟩
    · rwa [he]
    · exact hstarted.effect he
  · rwa [he.db_eq]

namespace HttpApi

abbrev ServerLabel := Label (calls Runtime.methods) Request Reply (Except Err (List ReconcileAction))

abbrev ServerConfig (ρ : Type) :=
  Config (calls Runtime.methods) (World ρ) Request Reply (Except Err (List ReconcileAction))

section Run
variable {ρ : Type} {u : Unmarshal} {B : Backend Runtime.methods ρ} {w : World ρ} {ls : List ServerLabel}
  {C D : ServerConfig ρ} {n : ℕ} {i : Request} {b : Reply}

/-- The run from `C₀` to `C` went through `E`, after the request in the slot had arrived. -/
def Passed (u : Unmarshal) (B : Backend Runtime.methods ρ) (C₀ : ServerConfig ρ) (ls : List ServerLabel) (C : ServerConfig ρ)
    (n : ℕ) (i : Request) (E : ServerConfig ρ) : Prop :=
  ∃ post pre, ls = post ++ pre ∧ (server u B).Run Always C₀ pre E ∧ (server u B).Run Always E post C ∧
    .arrive n i ∈ pre ∧ ∀ j, .arrive n j ∉ post

theorem Passed.keeps {C₀ E : ServerConfig ρ} {P : Prop} (h : Passed u B C₀ ls C n i E)
    (hP : ∀ {ms}, (server u B).Run Always E ms C → P) : P := by
  obtain ⟨post, pre, -, -, hpost, -⟩ := h
  exact hP hpost

theorem server_tells (u : Unmarshal) (B : Backend Runtime.methods ρ) (i : Request) :
    ((server u B).handler i).Tells (i.Permits u) (i.Answered u) [] := Request.handle_tells u i

theorem idle_requests (w : World ρ) (n : ℕ) : (.idle w : ServerConfig ρ).requests n = none := rfl

/-- What a request has read is what the store held at a point of the run since it arrived. -/
theorem read_passed (h : (server u B).Run Always (.idle w) ls C) {p : API.Handler} (hp : C.requests n = some (i, p))
    {id : String} {answer : Except Err Sandbox} {l before : List ServerExchange}
    (hlog : slotLog n ls = l ++ read id answer :: before) :
    ∃ E f, Passed u B (.idle w) ls C n i E ∧ Sqlite.getSandbox f id E.shared.db = answer := by
  obtain ⟨post, pre, rfl, hin, hpost, -⟩ := h.slotLog_append (idle_requests w) hp hlog
  obtain ⟨E, E', hpre, hread, hrest⟩ := h.split
  obtain ⟨f, db, hexec, -⟩ := Asks.exec (B := B) (.inr ⟨n, i, rfl⟩) hread
  refine ⟨E, f, ⟨post ++ [.request n i (.store (.getSandbox id)) answer], pre, by simp [read], hpre,
    (Run.one hread).trans hrest, hin, fun j hj => ?_⟩, (Prod.mk.inj hexec).1⟩
  rcases List.mem_append.mp hj with hj | hj
  · exact hpost j hj
  · simp at hj

/-- **Operations are gated**: a request calls the runtime for the one operation it asks for, only once, and only on a
sandbox that it has itself found running since it arrived; by then the sandbox is running still, or past it. -/
theorem operations_gated (h : (server u B).Run Always (.idle w) ls C) {m : Runtime.Method} {a : m.Answer}
    (hs : (server u B).Step C (.request n i (.backend m) a) D) :
    ∃ o sbx, m = .operate o ∧ i.operation u = some o ∧ slotLog n ls = [read o.sandboxID (.ok sbx)] ∧
      (∃ E row, Passed u B (.idle w) ls C n i E ∧ E.shared.db.sandbox? o.sandboxID = some row ∧ row.state = .running) ∧
      ∃ row, C.shared.db.sandbox? o.sandboxID = some row ∧ (row.state = .running ∨ row.state.PastRunning) := by
  have hpermits : i.Permits u (slotLog n ls) (.backend m) := h.request_call_tells (server_tells u B) (idle_requests w) hs
  cases m with
  | base c => cases hpermits
  | operate o =>
    obtain ⟨hi, sbx, hlog, hstate⟩ := hpermits
    obtain ⟨next, hp⟩ : ∃ next, C.requests n = some (i, .call (.backend (.operate o)) next) := by
      cases hs with
      | request hn _ => exact ⟨_, hn⟩
    obtain ⟨E, f, hpassed, hread⟩ := read_passed h hp (l := []) hlog
    obtain ⟨row, hrow, hscan⟩ := Sqlite.getSandbox_ok hread
    have hrunning : row.state = .running := (Sqlite.scanSandbox_state hscan).symm.trans hstate
    have hstarted : Started o.sandboxID E.shared.db := ⟨row, hrow, .inl hrunning⟩
    exact ⟨o, sbx, rfl, hi, hlog, ⟨E, row, hpassed, hrow, hrunning⟩, hpassed.keeps fun hrun => hstarted.run hrun⟩

/-- The read found the sandbox running. -/
def foundRunning : Except Err Sandbox → Bool
  | .ok sbx => sbx.state = .running
  | .error _ => false

theorem eq_ok_of_foundRunning {r : Except Err Sandbox} (h : foundRunning r = true) :
    ∃ sbx, r = .ok sbx ∧ sbx.state = .running := by
  cases r with
  | error err => cases h
  | ok sbx => exact ⟨sbx, rfl, of_decide_eq_true h⟩

/-- A run that has created a sandbox and started it. -/
theorem exists_started_run : ∃ ls w, (server .zero .servedFleet).Run Always (.idle .empty) ls (.idle w) ∧
    foundRunning (Sqlite.getSandbox .none exampleID w.db) = true := by
  obtain ⟨ls₁, h₁⟩ := (Run.start (server .zero .servedFleet) Always (.idle .empty)).thenServe serverExec_performs 0
    (.createSandbox "k" .document) rfl
  obtain ⟨ls₂, h₂⟩ := h₁.thenPass serverExec_performs rfl
  exact ⟨_, _, h₂, by decide +kernel⟩

theorem inspectSandbox_text (u : Unmarshal) (id : String) :
    ∃ next, (Request.inspectSandbox id).handle u = .call (.store (.getSandbox id)) next ∧
      ∀ a, foundRunning a = true → ∃ f, next a = .call (.backend (.operate (.inspect id))) f := by
  refine ⟨_, rfl, fun a ha => ?_⟩
  obtain ⟨sbx, rfl, hstate⟩ := eq_ok_of_foundRunning ha
  dsimp only [Program.bind]
  rw [if_neg (not_not.mpr hstate)]
  exact ⟨_, rfl⟩

/-- The theorem at an inspection. -/
theorem operations_gated_inspect : ∃ ls C D a, (server .zero .servedFleet).Run Always (.idle .empty) ls C ∧
    (server .zero .servedFleet).Step C (.request 0 (.inspectSandbox exampleID) (.backend (.operate (.inspect exampleID))) a) D ∧
      ∃ row, C.shared.db.sandbox? exampleID = some row ∧ (row.state = .running ∨ row.state.PastRunning) := by
  obtain ⟨ls, w, h, hfound⟩ := exists_started_run
  obtain ⟨next, htext, hnext⟩ := inspectSandbox_text .zero exampleID
  obtain ⟨C₁, harrive, hshared₁, hslot₁⟩ := exists_arrive (V := server .zero .servedFleet) (.inspectSandbox exampleID)
    (idle_requests w 0)
  obtain ⟨C₂, hread, -, hslot₂⟩ := exists_request (V := server .zero .servedFleet) serverExec_performs
    (hslot₁.trans (congrArg (fun p => some (_, p)) htext))
  rw [hshared₁] at hread hslot₂
  obtain ⟨f, hf⟩ := hnext (serverExec (.store (.getSandbox exampleID)) w).1 hfound
  obtain ⟨C₃, hoperate, -⟩ := exists_request (V := server .zero .servedFleet) serverExec_performs
    (hslot₂.trans (congrArg (fun p => some (_, p)) hf))
  have hrun := (h.cons trivial harrive).cons trivial hread
  obtain ⟨o, sbx, ho, -, -, -, hrow⟩ := operations_gated hrun hoperate
  cases ho
  exact ⟨_, _, _, _, hrun, hoperate, hrow⟩

/-- An error in its envelope. -/
def failure (status : ℕ) (message : String) : Reply := ⟨status, some (.error (Api.CodeForStatus status) message)⟩

/-- A store call that only reads leaves the tables as they are. -/
theorem ReadOnly.effect {s : StoreCall} {clock : Time} {db db' : Database} (hr : ReadOnly s) (h : s.Effect clock db db') :
    db' = db := by
  cases h with
  | same => rfl
  | keyed | created | renewed | transitioned => cases hr

end Run
end HttpApi
end Quickspin
