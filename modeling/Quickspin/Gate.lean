import Quickspin.Server
import Quickspin.Idempotency
import Quickspin.Lib.Trace

/-! What the handlers may do, and what they may say. A sandbox is operated on only by a request that asked for just that,
after the request itself found the sandbox running; the reply names one of a fixed list of failures, whatever the errors
below carry. -/
namespace Quickspin
open Interaction Service
set_option autoImplicit false

namespace HttpApi

/-! ## What a request asks for -/

/-- The operation on a running sandbox that the request comes to, if its body and its query can be read. -/
def Request.operation (u : Unmarshal) : Request → Option Runtime.Operation
  | .inspectSandbox id => some (.inspect id)
  | .execInSandbox id body =>
    match decodeBody u.execRequest "exec request" body with
    | .error _ => none
    | .ok req => if req.command.isEmpty then none else some (.exec id req.command req.options.execOpts)
  | .writeInSandbox id body =>
    match decodeBody u.writeInSandboxRequest "write in sandbox request" body with
    | .error _ => none
    | .ok req => some (.writeFile id (JsonText.text req.path) (req.content.getD []) (fileMode req.fileMode))
  | .readFromSandbox id path => if path == "" then none else some (.readFile id path)
  | .removeFromSandbox id path => if path == "" then none else some (.removePath id path)
  | .listFromSandbox id path => if path == "" then none else some (.listDir id path)
  | _ => none

/-- The routes that operate on a running sandbox. -/
def Request.gated : Request → Bool
  | .inspectSandbox _ | .execInSandbox _ _ | .writeInSandbox _ _ | .readFromSandbox _ _ | .removeFromSandbox _ _
  | .listFromSandbox _ _ => true
  | _ => false

/-- What the request may ask of the store besides reading. -/
def Request.Writes : Request → StoreCall → Prop
  | .createSandbox key _, .insertSandbox key' _ _ _ => key' = key
  | .destroySandbox id, .updateSandboxState id' a b _ _ => id' = id ∧ a = .running ∧ b = .stopping
  | .keepaliveSandbox id _, .updateSandboxExpiry id' _ => id' = id
  | _, _ => False

/-- The call leaves the tables alone. -/
def ReadOnly : StoreCall → Prop
  | .getIdempotencyKey _ | .getSandbox _ | .getSandboxes | .getSandboxEvents _ => True
  | _ => False

abbrev ServerExchange := Exchange (calls Runtime.methods)

/-- A row that was read. -/
def read (id : String) (answer : Except Err Sandbox) : ServerExchange := ⟨.store (.getSandbox id), answer⟩

/-- An operation that was carried out. -/
def operated (o : Runtime.Operation) (answer : o.Answer) : ServerExchange := ⟨.backend (.operate o), answer⟩

/-- A call of a route that only keeps the record. -/
def Request.Records (i : Request) : (calls Runtime.methods).Call → Prop
  | .now | .newSandboxID => True
  | .store s => ReadOnly s ∨ i.Writes s
  | .backend _ | .decide _ _ => False

/-- What the request may call after the exchanges `h`: it operates once, on what it has just found running. -/
def Request.Permits (u : Unmarshal) (i : Request) (h : List ServerExchange) : (calls Runtime.methods).Call → Prop
  | .now | .newSandboxID => True
  | .store s => ReadOnly s ∨ i.Writes s
  | .backend (.operate o) => i.operation u = some o ∧ ∃ sbx, h = [read o.sandboxID (.ok sbx)] ∧ sbx.state = .running
  | .backend (.base _) | .decide _ _ => False

/-! ## What a request may be told -/

/-- What the answer to an operation is told as. -/
def outcome : (o : Runtime.Operation) → o.Answer → Reply
  | .inspect _, .ok info => respond StatusOK (some (.info (Api.NewInfoResponse info)))
  | .exec .., (execResult, none) => respond StatusOK (some (.exec (Api.NewExecResponse execResult)))
  | .writeFile .., .ok () | .removePath .., .ok () => respond StatusNoContent none
  | .readFile .., .ok valInBytes => respond StatusOK (some (.content valInBytes))
  | .listDir .., .ok infos => respond StatusOK (some (.files (infos.map Api.NewFileInfoResponse)))
  | .exec .., (_, some err) => failWith err
  | .inspect _, .error err | .writeFile .., .error err | .readFile .., .error err | .listDir .., .error err
  | .removePath .., .error err => failWith err

/-- The reply where the sandbox is not running. -/
def refused : Reply := failWith (.sentinel .sandboxNotRunning)

/-- The reply of a route that operates, by what it has exchanged. -/
inductive Gated (o : Runtime.Operation) : List ServerExchange → Reply → Prop
  | unread (err : Err) : Gated o [read o.sandboxID (.error err)] (failWith err)
  | refused (sbx : Sandbox) (h : sbx.state ≠ .running) : Gated o [read o.sandboxID (.ok sbx)] refused
  | served (sbx : Sandbox) (h : sbx.state = .running) (a : o.Answer) :
      Gated o [operated o a, read o.sandboxID (.ok sbx)] (outcome o a)

/-- Every failure a client can be told, with its status. -/
def publicFailures : List (ℕ × String) :=
  [(400, "Idempotency-Key header is required"),
   (400, "command is required"),
   (400, "the path query parameter is required"),
   (400, "request body is not a valid sandbox create request"),
   (400, "request body is not a valid sandbox keepalive request"),
   (400, "request body is not a valid exec request"),
   (400, "request body is not a valid write in sandbox request"),
   (413, "request body is larger than the server allows")] ++ unclassified :: precedence.map StatusGroup.answer

/-- A success, or one of the failures in an envelope whose code is that of the status. -/
inductive Reply.Public : Reply → Prop
  | success {status : ℕ} (h : status < 400) (v : Option Payload) (hv : ∀ code message, v ≠ some (.error code message)) :
      Reply.Public ⟨status, v⟩
  | failure {status : ℕ} {message : String} (h : (status, message) ∈ publicFailures) :
      Reply.Public ⟨status, some (.error (Api.CodeForStatus status) message)⟩

/-- What the request has exchanged by the time of its reply. -/
structure Request.Answered (u : Unmarshal) (i : Request) (h : List ServerExchange) (b : Reply) : Prop where
  told : b.Public
  gated : ∀ o, i.operation u = some o → Gated o h b
  malformed : i.gated = true → i.operation u = none → h = [] ∧ (b.status = 400 ∨ b.status = 413)

/-! ## Replies -/

section Replies
variable {err : Err}

theorem firstAnswer_mem (err : Err) (rows : List StatusGroup) :
    firstAnswer err rows ∈ unclassified :: rows.map StatusGroup.answer := by
  induction rows with
  | nil => exact List.mem_singleton.mpr rfl
  | cons g rest ih =>
    rw [firstAnswer, List.map_cons]
    split
    · exact List.mem_cons_of_mem _ (List.mem_cons_self ..)
    · cases List.mem_cons.mp ih with
      | inl h => exact h ▸ List.mem_cons_self ..
      | inr h => exact List.mem_cons_of_mem _ (List.mem_cons_of_mem _ h)

theorem classify_mem (err : Err) : classify err ∈ publicFailures := by
  rw [classify_eq_firstAnswer]
  exact List.mem_append_right _ (firstAnswer_mem err precedence)

theorem publicFailures_status {x : ℕ × String} (h : x ∈ publicFailures) : x.1 ≠ StatusNoContent := by
  have hall : ∀ y ∈ publicFailures, y.1 ≠ StatusNoContent := by decide
  exact hall x h

theorem fail_public {s : ℕ} {message : String} (h : (s, message) ∈ publicFailures) :
    (fail s "" message).reply.Public := by
  have hbody : ¬s = StatusNoContent := publicFailures_status h
  rw [Rejection.reply, respond, fail]
  dsimp only
  rw [if_neg hbody]
  exact .failure h

/-- The handlers that give the code themselves give that of the status. -/
theorem fail_invalidRequest {message : String} (h : (400, message) ∈ publicFailures) :
    (fail StatusBadRequest Api.CodeInvalidRequest message).reply.Public :=
  fail_public (s := 400) h

theorem failWith_public (err : Err) : (failWith err).Public := fail_public (classify_mem err)

theorem failWith_congr {err' : Err} (h : ∀ s, err.is s = err'.is s) : failWith err = failWith err' := by
  rw [failWith, failWith, classify_congr h]

theorem failWith_wrap (op message : String) (err : Err) : failWith (wrap op message err) = failWith err :=
  failWith_congr (is_wrap op message err)

theorem respond_public {status : ℕ} {v : Option Payload} (h : status < 400)
    (hv : ∀ code message, v ≠ some (.error code message)) : (respond status v).Public := by
  rw [respond]
  split
  · exact .success h none fun _ _ he => by cases he
  · exact .success h v hv

theorem outcome_public (o : Runtime.Operation) (a : o.Answer) : (outcome o a).Public := by
  cases o with
  | exec id cmd opts =>
    obtain ⟨execResult, err⟩ := (a : Docker.ExecResult × Option Err)
    cases err with
    | none => exact respond_public (by decide) (by simp)
    | some err => exact failWith_public err
  | inspect id =>
    cases (a : Except Err Runtime.Info) with
    | error err => exact failWith_public err
    | ok info => exact respond_public (by decide) (by simp)
  | writeFile id path content mode =>
    cases (a : Except Err Unit) with
    | error err => exact failWith_public err
    | ok v => exact respond_public (by decide) (by simp)
  | readFile id path =>
    cases (a : Except Err (List UInt8)) with
    | error err => exact failWith_public err
    | ok bytes => exact respond_public (by decide) (by simp)
  | listDir id path =>
    cases (a : Except Err (List Runtime.FileInfo)) with
    | error err => exact failWith_public err
    | ok infos => exact respond_public (by decide) (by simp)
  | removePath id path =>
    cases (a : Except Err Unit) with
    | error err => exact failWith_public err
    | ok v => exact respond_public (by decide) (by simp)

theorem Gated.told {o : Runtime.Operation} {h : List ServerExchange} {b : Reply} (hg : Gated o h b) : b.Public := by
  cases hg with
  | unread err => exact failWith_public err
  | refused sbx hs => exact failWith_public _
  | served sbx hs a => exact outcome_public o a

theorem decodeBody_rejects {τ : Type} {unmarshal : List UInt8 → Except String τ} {what : String} {body : Body} {r : Rejection}
    (h : decodeBody unmarshal what body = .error r) :
    r = fail 413 "" "request body is larger than the server allows" ∨
      r = fail 400 Api.CodeInvalidRequest ("request body is not a valid " ++ what) := by
  unfold decodeBody at h
  dsimp only at h
  split at h
  · exact .inl (Except.error.inj h).symm
  · exact .inr (Except.error.inj h).symm
  · split at h
    · exact .inr (Except.error.inj h).symm
    · cases h

theorem rejected_public {τ : Type} {unmarshal : List UInt8 → Except String τ} {what : String} {body : Body} {r : Rejection}
    (h : decodeBody unmarshal what body = .error r) (hwhat : (400, "request body is not a valid " ++ what) ∈ publicFailures) :
    r.reply.Public ∧ (r.reply.status = 400 ∨ r.reply.status = 413) := by
  rcases decodeBody_rejects h with rfl | rfl
  · exact ⟨fail_public (by decide), .inr rfl⟩
  · exact ⟨fail_invalidRequest hwhat, .inl rfl⟩

end Replies

/-! ## The routes -/

section Routes
variable {u : Unmarshal} {i : Request} {h : List ServerExchange} {b : Reply} {op id path : String} {o : Runtime.Operation}

theorem answered_of_ungated (hi : i.gated = false) (hb : b.Public) : i.Answered u h b := by
  refine ⟨hb, fun o ho => ?_, fun hg => ?_⟩
  · cases i with
    | createSandbox | listSandboxes | getSandboxEvents | destroySandbox | keepaliveSandbox => cases ho
    | inspectSandbox | execInSandbox | writeInSandbox | readFromSandbox | removeFromSandbox | listFromSandbox => cases hi
  · rw [hi] at hg
    cases hg

theorem answered_of_gated (hi : i.operation u = some o) (hg : Gated o h b) : i.Answered u h b := by
  refine ⟨hg.told, fun o' ho' => ?_, fun _ hn => ?_⟩
  · obtain rfl := Option.some.inj (hi.symm.trans ho')
    exact hg
  · rw [hi] at hn
    cases hn

theorem answered_of_malformed (hi : i.operation u = none) (hb : b.Public) (hstatus : b.status = 400 ∨ b.status = 413) :
    i.Answered u [] b := by
  refine ⟨hb, fun o ho => ?_, fun _ _ => ⟨rfl, hstatus⟩⟩
  rw [hi] at ho
  cases ho

/-- **The gate**: what follows it is reached with the row just read, and running. -/
theorem ensureRunning_tells {next : API.Handler} (hi : i.operation u = some o)
    (hnext : ∃ f, next = .call (.backend (.operate o)) f ∧ ∀ a, f a = .done (outcome o a)) :
    (API.ensureRunning op o.sandboxID next).Tells (i.Permits u) (i.Answered u) [] := by
  obtain ⟨f, rfl, hf⟩ := hnext
  refine ⟨.inl trivial, fun a => ?_⟩
  cases (a : Except Err Sandbox) with
  | error err =>
    have hanswer : i.Answered u [read o.sandboxID (.error err)] (failWith err) := answered_of_gated hi (.unread err)
    rw [← failWith_wrap "control.Control.RequireRunning" "loading the sandbox",
      ← failWith_wrap op "checking the sandbox is running"] at hanswer
    exact hanswer
  | ok sbx =>
    dsimp only [Program.bind]
    by_cases hs : sbx.state = .running
    · rw [if_neg (not_not.mpr hs)]
      refine ⟨⟨hi, sbx, rfl, hs⟩, fun a => ?_⟩
      rw [hf a]
      exact answered_of_gated hi (.served sbx hs a)
    · rw [if_pos hs]
      exact answered_of_gated hi (.refused sbx hs)

theorem inspectSandbox_tells (id : String) : (API.inspectSandbox id).Tells
    ((Request.inspectSandbox id).Permits u) ((Request.inspectSandbox id).Answered u) [] := by
  refine ensureRunning_tells (o := .inspect id) rfl ⟨_, rfl, fun a => ?_⟩
  cases (a : Except Err Runtime.Info) with
  | ok info => rfl
  | error err => exact congrArg _ (failWith_wrap _ _ err)

theorem execInSandbox_tells (id : String) (body : Body) : (API.execInSandbox u id body).Tells
    ((Request.execInSandbox id body).Permits u) ((Request.execInSandbox id body).Answered u) [] := by
  unfold API.execInSandbox
  dsimp only
  cases hbody : decodeBody u.execRequest "exec request" body with
  | error r =>
    obtain ⟨hpublic, hstatus⟩ := rejected_public hbody (by decide)
    exact answered_of_malformed (by simp only [Request.operation, hbody]) hpublic hstatus
  | ok req =>
    dsimp only
    by_cases hempty : req.command.isEmpty = true
    · rw [if_pos hempty]
      exact answered_of_malformed (by simp only [Request.operation, hbody, if_pos hempty])
        (fail_invalidRequest (by decide)) (.inl rfl)
    · rw [if_neg hempty]
      refine ensureRunning_tells (o := .exec id req.command req.options.execOpts)
        (by simp only [Request.operation, hbody, if_neg hempty]) ⟨_, rfl, fun a => ?_⟩
      obtain ⟨execResult, err⟩ := (a : Docker.ExecResult × Option Err)
      cases err with
      | none => rfl
      | some err => exact congrArg _ (failWith_wrap _ _ err)

theorem writeInSandbox_tells (id : String) (body : Body) : (API.writeInSandbox u id body).Tells
    ((Request.writeInSandbox id body).Permits u) ((Request.writeInSandbox id body).Answered u) [] := by
  unfold API.writeInSandbox
  dsimp only
  cases hbody : decodeBody u.writeInSandboxRequest "write in sandbox request" body with
  | error r =>
    obtain ⟨hpublic, hstatus⟩ := rejected_public hbody (by decide)
    exact answered_of_malformed (by simp only [Request.operation, hbody]) hpublic hstatus
  | ok req =>
    refine ensureRunning_tells (o := .writeFile id (JsonText.text req.path) (req.content.getD []) (fileMode req.fileMode))
      (by simp only [Request.operation, hbody]) ⟨_, rfl, fun a => ?_⟩
    cases (a : Except Err Unit) with
    | ok v => rfl
    | error err => exact congrArg _ (failWith_wrap _ _ err)

/-- A route that reads its path from the query comes to an operation on the path, unless it is missing. -/
theorem onPath_tells {next : String → API.Handler} (hid : o.sandboxID = id)
    (hi : i.operation u = if path == "" then none else some o)
    (hnext : ∃ f, next path = .call (.backend (.operate o)) f ∧ ∀ a, f a = .done (outcome o a)) :
    (API.onPath op id path next).Tells (i.Permits u) (i.Answered u) [] := by
  subst hid
  unfold API.onPath queryPath
  by_cases hpath : (path == "") = true
  · rw [if_pos hpath] at hi ⊢
    exact answered_of_malformed hi (fail_invalidRequest (by decide)) (.inl rfl)
  · rw [if_neg hpath] at hi ⊢
    exact ensureRunning_tells hi hnext

theorem readFromSandbox_tells (id path : String) : (API.readFromSandbox id path).Tells
    ((Request.readFromSandbox id path).Permits u) ((Request.readFromSandbox id path).Answered u) [] := by
  refine onPath_tells (o := .readFile id path) rfl rfl ⟨_, rfl, fun a => ?_⟩
  cases (a : Except Err (List UInt8)) with
  | ok bytes => rfl
  | error err => exact congrArg _ (failWith_wrap _ _ err)

theorem removeFromSandbox_tells (id path : String) : (API.removeFromSandbox id path).Tells
    ((Request.removeFromSandbox id path).Permits u) ((Request.removeFromSandbox id path).Answered u) [] := by
  refine onPath_tells (o := .removePath id path) rfl rfl ⟨_, rfl, fun a => ?_⟩
  cases (a : Except Err Unit) with
  | ok v => rfl
  | error err => exact congrArg _ (failWith_wrap _ _ err)

theorem listFromSandbox_tells (id path : String) : (API.listFromSandbox id path).Tells
    ((Request.listFromSandbox id path).Permits u) ((Request.listFromSandbox id path).Answered u) [] := by
  refine onPath_tells (o := .listDir id path) rfl rfl ⟨_, rfl, fun a => ?_⟩
  cases (a : Except Err (List Runtime.FileInfo)) with
  | ok infos => rfl
  | error err => exact congrArg _ (failWith_wrap _ _ err)

/-! ### The routes of the record -/

theorem Request.Records.permits {c : (calls Runtime.methods).Call} (hc : i.Records c) : i.Permits u h c := by
  cases c with
  | now | newSandboxID => trivial
  | store s => exact hc
  | backend c | decide id action => cases hc

/-- A route whose reply renders the answer of the control layer, or of the store. -/
theorem record_tells {γ : Type} {p : Program (calls Runtime.methods) γ} {f : γ → API.Handler} (hi : i.gated = false)
    (hp : p.Calls i.Records) (hf : ∀ r, ∃ b, f r = .done b ∧ b.Public) : (p >>= f).Tells (i.Permits u) (i.Answered u) h := by
  have hcalls : p.Tells (i.Permits u) (fun _ _ => True) h :=
    hp.tells (I := fun _ => True) (fun _ _ _ hc => hc.permits) (fun _ _ _ _ _ => trivial) trivial
  refine Program.Tells.bind (hcalls.mono fun k r _ => ?_)
  obtain ⟨b, hb, hpublic⟩ := hf r
  rw [hb]
  exact answered_of_ungated hi hpublic

theorem createSandbox_records {key : String} {body : Body} (spec : SpecFile) (ttl : Duration) :
    (Control.createSandbox (D := Runtime.methods) key spec ttl).Calls (Request.createSandbox key body).Records := by
  refine (createSandbox_text key spec ttl).mono fun c next hc => ?_
  cases c with
  | now | newSandboxID => trivial
  | backend c | decide id action => cases hc
  | store s =>
    cases s with
    | getIdempotencyKey | getSandbox => exact .inl trivial
    | insertSandbox key' json id expiresAt => exact .inr hc.1
    | createIdempotencyKey | getSandboxes | getSandboxEvents | updateSandboxExpiry | updateSandboxState => cases hc

theorem createSandbox_tells (key : String) (body : Body) : (API.createSandbox u key body).Tells
    ((Request.createSandbox key body).Permits u) ((Request.createSandbox key body).Answered u) [] := by
  unfold API.createSandbox
  dsimp only
  split
  · exact answered_of_ungated rfl (fail_invalidRequest (by decide))
  · cases hbody : decodeBody u.createSandboxRequest "sandbox create request" body with
    | error r => exact answered_of_ungated rfl (rejected_public hbody (by decide)).1
    | ok req =>
      refine record_tells rfl (createSandbox_records _ _) fun r => ?_
      cases r with
      | error err => exact ⟨_, rfl, failWith_public _⟩
      | ok sbx => exact ⟨_, rfl, respond_public (by decide) (by simp)⟩

theorem listSandboxes_tells : API.listSandboxes.Tells (Request.listSandboxes.Permits u) (Request.listSandboxes.Answered u) [] := by
  refine ⟨.inl trivial, fun a => ?_⟩
  cases (a : Except Err (List Sandbox)) with
  | error err => exact answered_of_ungated rfl (failWith_public _)
  | ok sbxs => exact answered_of_ungated rfl (respond_public (by decide) (by simp))

theorem getSandboxEvents_tells (id : String) : (API.getSandboxEvents id).Tells
    ((Request.getSandboxEvents id).Permits u) ((Request.getSandboxEvents id).Answered u) [] := by
  refine ⟨.inl trivial, fun a => ?_⟩
  cases (a : Except Err Sandbox) with
  | error err => exact answered_of_ungated rfl (failWith_public _)
  | ok sbx =>
    refine ⟨.inl trivial, fun a => ?_⟩
    cases (a : Except Err (List Event)) with
    | error err => exact answered_of_ungated rfl (failWith_public _)
    | ok events => exact answered_of_ungated rfl (respond_public (by decide) (by simp))

theorem destroySandbox_records (id : String) :
    (Control.destroySandbox (D := Runtime.methods) id).Calls (Request.destroySandbox id).Records := by
  refine ⟨.inl trivial, fun a => ?_⟩
  cases (a : Except Err Sandbox) with
  | error err =>
    dsimp only [Program.bind]
    split <;> trivial
  | ok sbx =>
    refine ⟨.inr ⟨rfl, rfl, rfl⟩, fun a => ?_⟩
    cases (a : Except Err Sandbox) with
    | error err =>
      dsimp only [Program.bind]
      split <;> trivial
    | ok sbx' => trivial

theorem destroySandbox_tells (id : String) : (API.destroySandbox id).Tells
    ((Request.destroySandbox id).Permits u) ((Request.destroySandbox id).Answered u) [] := by
  refine record_tells rfl (destroySandbox_records id) fun r => ?_
  cases r with
  | error err => exact ⟨_, rfl, failWith_public _⟩
  | ok v => exact ⟨_, rfl, respond_public (by decide) (by simp)⟩

theorem keepaliveSandbox_records {body : Option Body} (id : String) (ttl : Duration) :
    (Control.keepaliveSandbox (D := Runtime.methods) id ttl).Calls (Request.keepaliveSandbox id body).Records := by
  unfold Control.keepaliveSandbox
  cases resolveTTL (min ttl MaxTTL) with
  | error err => trivial
  | ok ttl' => exact ⟨trivial, fun t => ⟨.inr rfl, fun a => trivial⟩⟩

theorem keepaliveSandbox_tells (id : String) (body : Option Body) : (API.keepaliveSandbox u id body).Tells
    ((Request.keepaliveSandbox id body).Permits u) ((Request.keepaliveSandbox id body).Answered u) [] := by
  unfold API.keepaliveSandbox
  cases hbody : decodeOptionalBody ⟨0⟩ u.keepaliveSandboxRequest "sandbox keepalive request" body with
  | error r =>
    cases body with
    | none => cases hbody
    | some body => exact answered_of_ungated rfl (rejected_public hbody (by decide)).1
  | ok req =>
    refine record_tells rfl (keepaliveSandbox_records id _) fun r => ?_
    cases r with
    | error err => exact ⟨_, rfl, failWith_public _⟩
    | ok sbx => exact ⟨_, rfl, respond_public (by decide) (by simp)⟩

/-- **Every route** keeps to what it may call, and answers as it may. -/
theorem Request.handle_tells (u : Unmarshal) (i : Request) : (i.handle u).Tells (i.Permits u) (i.Answered u) [] := by
  cases i with
  | createSandbox key body => exact createSandbox_tells key body
  | listSandboxes => exact listSandboxes_tells
  | inspectSandbox id => exact inspectSandbox_tells id
  | getSandboxEvents id => exact getSandboxEvents_tells id
  | destroySandbox id => exact destroySandbox_tells id
  | keepaliveSandbox id body => exact keepaliveSandbox_tells id body
  | execInSandbox id body => exact execInSandbox_tells id body
  | writeInSandbox id body => exact writeInSandbox_tells id body
  | readFromSandbox id path => exact readFromSandbox_tells id path
  | removeFromSandbox id path => exact removeFromSandbox_tells id path
  | listFromSandbox id path => exact listFromSandbox_tells id path

end Routes
end HttpApi
end Quickspin
