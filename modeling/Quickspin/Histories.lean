import Quickspin.Serving
import Quickspin.Store.Chronicles

/-! What clients see of a sandbox over time. A reply with a record or a history in it shows what the store held at one moment
while its request was there; so two replies, the second asked for after the first was given, show a sandbox in the order in
which it went. -/
namespace Quickspin
open Interaction Service
set_option autoImplicit false

namespace HttpApi

/-! ## What a reply shows -/

/-- What a client sees of one sandbox. -/
inductive Sighting
  | record (resp : Api.SandboxResponse)
  | history (resp : List Api.SandboxEventResponse)

/-- The reply shows this of the sandbox. -/
inductive Shows : Request → Reply → String → Sighting → Prop
  | sandbox {i : Request} {b : Reply} {resp : Api.SandboxResponse} (h : b.body = some (.sandbox resp)) :
      Shows i b resp.sandboxID (.record resp)
  | listed {i : Request} {b : Reply} {resps : List Api.SandboxResponse} {resp : Api.SandboxResponse}
      (h : b.body = some (.sandboxes resps)) (hm : resp ∈ resps) : Shows i b resp.sandboxID (.record resp)
  | history {id : String} {b : Reply} {resps : List Api.SandboxEventResponse} (h : b.body = some (.events resps)) :
      Shows (.getSandboxEvents id) b id (.history resps)

/-- The first sighting may come before the second: the record is the same, its version has not fallen, and it has moved only
where that has risen, never from a final state; a history only goes on; and a record's version is an entry of every history
that comes later. -/
def Sighting.Before : Sighting → Sighting → Prop
  | .record r, .record r' => r'.spec = r.spec ∧ r'.createdAt = r.createdAt ∧ r.versionID ≤ r'.versionID ∧
      (r'.versionID = r.versionID → r'.state = r.state) ∧
      (r.state = "stopped" ∨ r.state = "failed" → r'.versionID = r.versionID)
  | .history l, .history l' => l <+: l'
  | .record r, .history l' => ∃ e ∈ l', e.versionID = r.versionID ∧ e.toState = r.state
  | .history l, .record r' => ∀ e ∈ l, e.versionID ≤ r'.versionID ∧ (e.versionID = r'.versionID → e.toState = r'.state)

/-- What `scanEvent` reads from a row. -/
def eventOf (r : EventRow) : Event := ⟨r.id, r.versionId, r.sandboxId, r.fromState, r.toState, r.happenedAt, r.reason⟩

/-- The events of a sandbox as a client is told them. -/
def toldEvents (rows : List EventRow) : List Api.SandboxEventResponse :=
  rows.map fun row => Api.NewSandboxEventResponse (eventOf row)

/-- What the reply shows is what the tables hold: a record is that of its row, a listing has every row once, and a history
every event of the sandbox. -/
def Reply.Snapshot (db : Database) (i : Request) (b : Reply) : Prop :=
  match b.body with
  | some (.sandbox resp) => (∀ id body, i = .keepaliveSandbox id body → resp.sandboxID = id) ∧
      ∃ row sbx, db.sandbox? resp.sandboxID = some row ∧ Sqlite.scanSandbox row = .ok sbx ∧ resp = Api.NewSandboxResponse sbx
  | some (.sandboxes resps) => List.Forall₂
      (fun row resp => ∃ sbx, Sqlite.scanSandbox row = .ok sbx ∧ resp = Api.NewSandboxResponse sbx) db.sandboxes.rows resps
  | some (.events resps) => ∃ id, i = .getSandboxEvents id ∧ (db.sandbox? id).isSome ∧ resps = toldEvents (db.eventsOf id)
  | _ => True

/-! ## Chronicles and sightings -/

/-- The sighting is of a sandbox with this chronicle. -/
def Sighting.Of (c : Chronicle) : Sighting → Prop
  | .record r => SpecFile.ofJSON c.spec = .ok r.spec ∧ r.createdAt = c.createdAt ∧ r.versionID = c.life.version ∧
      r.state = c.life.current.text
  | .history l => l = toldEvents c.events

theorem toldEvents_mono {rows rows' : List EventRow} (h : rows <+: rows') : toldEvents rows <+: toldEvents rows' := h.map _

section Of
variable {c c' : Chronicle}

theorem terminal_of_text {s : TaskState} (h : s.text = "stopped" ∨ s.text = "failed") : s.Terminal := by
  cases s with
  | stopped => exact .inl rfl
  | failed => exact .inr rfl
  | pending | running | stopping => revert h; decide
  | other t ht =>
    rcases h with rfl | rfl <;> exact absurd (by decide) ht

/-- The last event is told with the version and the state there are. -/
theorem told_current (c : Chronicle) : ∃ e ∈ toldEvents c.events, e.versionID = c.life.version ∧ e.toState = c.life.current.text := by
  have hlast := c.getLast?_eq
  obtain ⟨row, hrow, hstate⟩ := Option.map_eq_some_iff.mp hlast
  rw [List.getLast?_eq_getElem?] at hrow
  have hversion := c.at_version hrow
  have hpos : 0 < c.events.length := List.length_pos_of_mem (List.mem_of_getElem? hrow)
  have hlength := c.length_eq
  refine ⟨_, List.mem_map_of_mem (List.mem_of_getElem? hrow), ?_, congrArg TaskState.text hstate⟩
  show row.versionId = c.life.version
  omega

/-- An event that is told is within the version, and the one at the version is the last. -/
theorem told_le {e : Api.SandboxEventResponse} (h : e ∈ toldEvents c.events) :
    e.versionID ≤ c.life.version ∧ (e.versionID = c.life.version → e.toState = c.life.current.text) := by
  obtain ⟨row, hrow, rfl⟩ := List.mem_map.mp h
  obtain ⟨n, hn⟩ := List.mem_iff_getElem?.mp hrow
  have hversion := c.at_version hn
  have hlength := c.length_eq
  have hlt : n < c.events.length := (List.getElem?_eq_some_iff.mp hn).1
  refine ⟨?_, fun heq => ?_⟩
  · show row.versionId ≤ c.life.version
    omega
  · have heq' : row.versionId = c.life.version := heq
    obtain rfl : n = c.events.length - 1 := by omega
    have hlast := c.getLast?_eq
    rw [List.getLast?_eq_getElem?, hn] at hlast
    exact congrArg TaskState.text (Option.some.inj hlast)

/-- **Sightings go by their chronicles.** -/
theorem Sighting.before_of_le {s s' : Sighting} (h : c ≤ c') (hs : s.Of c) (hs' : s'.Of c') : s.Before s' := by
  have hversion : c.life.version ≤ c'.life.version := Chronicle.version_le h
  cases s with
  | record r =>
    obtain ⟨hspec, hcreated, hv, hstate⟩ := hs
    cases s' with
    | record r' =>
      obtain ⟨hspec', hcreated', hv', hstate'⟩ := hs'
      refine ⟨?_, ?_, ?_, fun heq => ?_, fun hfinal => ?_⟩
      · rw [← h.2.1, hspec] at hspec'
        exact (Except.ok.inj hspec').symm
      · rw [hcreated, hcreated', h.2.2.1]
      · omega
      · rw [hstate, hstate', Chronicle.current_of_version h (by omega)]
      · rw [hstate] at hfinal
        have hend : c'.life.version ≤ c.life.version := Chronicle.final h (terminal_of_text hfinal)
        omega
    | history l' =>
      obtain ⟨e, he, hev, hestate⟩ := told_current c
      obtain rfl : l' = toldEvents c'.events := hs'
      exact ⟨e, (toldEvents_mono h.2.2.2).subset he, hev.trans hv.symm, hestate.trans hstate.symm⟩
  | history l =>
    obtain rfl : l = toldEvents c.events := hs
    cases s' with
    | record r' =>
      obtain ⟨-, -, hv', hstate'⟩ := hs'
      intro e he
      obtain ⟨hle, -⟩ := told_le he
      obtain ⟨-, hcurrent⟩ := told_le ((toldEvents_mono h.2.2.2).subset he)
      exact ⟨by omega, fun heq => (hcurrent (heq.trans hv')).trans hstate'.symm⟩
    | history l' =>
      obtain rfl : l' = toldEvents c'.events := hs'
      exact toldEvents_mono h.2.2.2

/-- What a snapshot shows of a sandbox is a sighting of its chronicle. -/
theorem Reply.Snapshot.of {db : Database} {i : Request} {b : Reply} {id : String} {s : Sighting} (hdb : Recorded db)
    (h : b.Snapshot db i) (hs : Shows i b id s) : ∃ row c, Chronicled db id row c ∧ s.Of c := by
  have hrecord : ∀ {row : SandboxRow} {sbx : Sandbox}, db.sandbox? sbx.sandboxID = some row → Sqlite.scanSandbox row = .ok sbx →
      ∃ row c, Chronicled db sbx.sandboxID row c ∧ (Sighting.record (Api.NewSandboxResponse sbx)).Of c := by
    intro row sbx hrow hscan
    obtain ⟨c, hc⟩ := hdb.chronicled hrow
    obtain ⟨hspec, hsbx⟩ := Sqlite.scanSandbox_ok hscan
    refine ⟨row, c, hc, ?_, ?_, ?_, ?_⟩
    · rw [hc.spec]
      exact hspec
    · rw [hc.createdAt, Api.NewSandboxResponse, hsbx]
      rfl
    · rw [← hc.follows.version, ← Sqlite.scanSandbox_version hscan]
      rfl
    · rw [← hc.follows.state, ← Sqlite.scanSandbox_state hscan]
      rfl
  unfold Reply.Snapshot at h
  cases hs with
  | sandbox hb =>
    rw [hb] at h
    obtain ⟨-, row, sbx, hrow, hscan, rfl⟩ := h
    exact hrecord hrow hscan
  | listed hb hm =>
    rw [hb] at h
    obtain ⟨k, hk, rfl⟩ := List.getElem_of_mem hm
    have hk' : k < db.sandboxes.rows.length := List.Forall₂.length_eq h ▸ hk
    obtain ⟨sbx, hscan, hresp⟩ := List.Forall₂.get h hk' hk
    have hrow : db.sandbox? sbx.sandboxID = some db.sandboxes.rows[k] :=
      Sqlite.scanSandbox_id hscan ▸ Relational.Table.find?_of_mem (List.getElem_mem hk')
    rw [List.get_eq_getElem] at hresp
    rw [hresp]
    exact hrecord hrow hscan
  | history hb =>
    rw [hb] at h
    obtain ⟨id', hi, hsome, rfl⟩ := h
    obtain rfl := Request.getSandboxEvents.inj hi
    obtain ⟨row, hrow⟩ := Option.isSome_iff_exists.mp hsome
    obtain ⟨c, hc⟩ := hdb.chronicled hrow
    refine ⟨row, c, hc, ?_⟩
    show toldEvents _ = toldEvents _
    rw [hc.events, hc.follows.eventsOf_eq]

end Of

/-! ## Where a reply comes from -/

/-- The reply shows no sandbox. -/
def Reply.Silent (b : Reply) : Prop :=
  match b.body with
  | some (.sandbox _) | some (.sandboxes _) | some (.events _) => False
  | _ => True

/-- How a request was told of a sandbox: by the last thing it exchanged. -/
inductive Told : Request → List ServerExchange → Reply → Prop
  | silent {i : Request} {h : List ServerExchange} {b : Reply} (hb : b.Silent) : Told i h b
  | replayed {key id : String} {body : Body} {h : List ServerExchange} {sbx : Sandbox} :
      Told (.createSandbox key body) (read id (.ok sbx) :: h) ⟨StatusAccepted, some (.sandbox (Api.NewSandboxResponse sbx))⟩
  | inserted {key id : String} {body : Body} {spec : Json} {expiresAt : Time} {h : List ServerExchange} {sbx : Sandbox} :
      Told (.createSandbox key body) (⟨.store (.insertSandbox key spec id expiresAt), Except.ok sbx⟩ :: h)
        ⟨StatusAccepted, some (.sandbox (Api.NewSandboxResponse sbx))⟩
  | renewed {id : String} {body : Option Body} {expiresAt : Time} {h : List ServerExchange} {sbx : Sandbox} :
      Told (.keepaliveSandbox id body) (⟨.store (.updateSandboxExpiry id expiresAt), Except.ok sbx⟩ :: h)
        ⟨StatusOK, some (.sandbox (Api.NewSandboxResponse sbx))⟩
  | listed {h : List ServerExchange} {sbxs : List Sandbox} :
      Told .listSandboxes (⟨.store .getSandboxes, Except.ok sbxs⟩ :: h)
        ⟨StatusOK, some (.sandboxes (sbxs.map Api.NewSandboxResponse))⟩
  | history {id : String} {sbx : Sandbox} {events : List Event} :
      Told (.getSandboxEvents id) [⟨.store (.getSandboxEvents id), Except.ok events⟩, read id (.ok sbx)]
        ⟨StatusOK, some (.events (events.map Api.NewSandboxEventResponse))⟩

/-- Whatever is called. -/
def AnyCall (_ : List ServerExchange) (_ : (calls Runtime.methods).Call) : Prop := True

section Tells
variable {u : Unmarshal} {i : Request} {h : List ServerExchange} {b : Reply}

theorem failWith_silent (err : Err) : (failWith err).Silent := by
  unfold failWith Rejection.reply respond fail Reply.Silent
  dsimp only
  split_ifs <;> trivial

theorem rejection_silent (r : Rejection) : r.reply.Silent := by
  unfold Rejection.reply respond Reply.Silent
  dsimp only
  split_ifs <;> trivial

theorem outcome_silent (o : Runtime.Operation) (a : o.Answer) : (outcome o a).Silent := by
  cases o with
  | exec id cmd opts =>
    obtain ⟨execResult, err⟩ := (a : Docker.ExecResult × Option Err)
    cases err with
    | none => trivial
    | some err => exact failWith_silent err
  | inspect id => cases (a : Except Err Runtime.Info) <;> first | exact failWith_silent _ | trivial
  | readFile id path => cases (a : Except Err (List UInt8)) <;> first | exact failWith_silent _ | trivial
  | listDir id path => cases (a : Except Err (List Runtime.FileInfo)) <;> first | exact failWith_silent _ | trivial
  | writeFile | removePath => cases (a : Except Err Unit) <;> first | exact failWith_silent _ | trivial

theorem Gated.silent {o : Runtime.Operation} (hg : Gated o h b) : b.Silent := by
  cases hg with
  | unread err => exact failWith_silent err
  | refused sbx hs => exact failWith_silent _
  | served sbx hs a => exact outcome_silent o a

/-- What the record answers with is what it was last told. -/
def Gives (i : Request) (status : ℕ) (h : List ServerExchange) (r : Except Err Sandbox) : Prop :=
  ∀ sbx, r = .ok sbx → Told i h ⟨status, some (.sandbox (Api.NewSandboxResponse sbx))⟩

theorem gives_error (i : Request) (status : ℕ) (h : List ServerExchange) (err : Err) : Gives i status h (.error err) :=
  fun _ he => by cases he

theorem createSandboxRecord_gives {key : String} (body : Body) (spec : SpecFile) (expiresAt : Time) :
    (createSandboxRecord (D := Runtime.methods) key spec expiresAt).Tells AnyCall
      (Gives (.createSandbox key body) StatusAccepted) h := by
  unfold createSandboxRecord
  cases spec.validate with
  | error err => exact gives_error _ _ _ _
  | ok v =>
    cases expiresAt.isZero with
    | true => exact gives_error _ _ _ _
    | false =>
      refine ⟨trivial, fun a => ?_⟩
      cases (a : Except Err (Option IdempotencyKey)) with
      | error err => exact gives_error _ _ _ _
      | ok k =>
        cases k with
        | some k =>
          refine ⟨trivial, fun a => ?_⟩
          cases (a : Except Err Sandbox) with
          | error err => exact gives_error _ _ _ _
          | ok sbx =>
            intro sbx' he
            obtain rfl := Except.ok.inj he
            exact .replayed
        | none =>
          dsimp only
          cases spec.toJSON with
          | error err => exact gives_error _ _ _ _
          | ok json =>
            refine ⟨trivial, fun id => ⟨trivial, fun a => ?_⟩⟩
            intro sbx he
            obtain rfl : a = Except.ok sbx := he
            exact .inserted

theorem control_createSandbox_gives {key : String} (body : Body) (spec : SpecFile) (ttl : Duration) :
    (Control.createSandbox (D := Runtime.methods) key spec ttl).Tells AnyCall
      (Gives (.createSandbox key body) StatusAccepted) [] := by
  unfold Control.createSandbox
  cases spec.resolveValidated with
  | error err => exact gives_error _ _ _ _
  | ok resolved =>
    cases resolveTTL ttl with
    | error err => exact gives_error _ _ _ _
    | ok ttl' =>
      refine ⟨trivial, fun t => ((createSandboxRecord_gives body spec _).mono fun h r hr => ?_).bind⟩
      cases r with
      | error err => exact gives_error _ _ _ _
      | ok sbx => exact hr

theorem control_keepaliveSandbox_gives (body : Option Body) (id : String) (ttl : Duration) :
    (Control.keepaliveSandbox (D := Runtime.methods) id ttl).Tells AnyCall
      (Gives (.keepaliveSandbox id body) StatusOK) [] := by
  unfold Control.keepaliveSandbox
  cases resolveTTL (min ttl MaxTTL) with
  | error err => exact gives_error _ _ _ _
  | ok ttl' =>
    refine ⟨trivial, fun t => ⟨trivial, fun a => ?_⟩⟩
    cases (a : Except Err Sandbox) with
    | error err => exact gives_error _ _ _ _
    | ok sbx =>
      intro sbx' he
      obtain rfl := Except.ok.inj he
      exact .renewed

theorem createSandbox_told (key : String) (body : Body) :
    (API.createSandbox u key body).Tells AnyCall (Told (.createSandbox key body)) [] := by
  unfold API.createSandbox
  dsimp only
  split
  · exact .silent (rejection_silent _)
  cases decodeBody u.createSandboxRequest "sandbox create request" body with
  | error r => exact .silent (rejection_silent _)
  | ok req =>
    refine Program.Tells.bind ((control_createSandbox_gives body req.spec req.ttl).mono fun h r hr => ?_)
    cases r with
    | error err => exact .silent (failWith_silent _)
    | ok sbx => exact hr sbx rfl

theorem keepaliveSandbox_told (id : String) (body : Option Body) :
    (API.keepaliveSandbox u id body).Tells AnyCall (Told (.keepaliveSandbox id body)) [] := by
  unfold API.keepaliveSandbox
  cases decodeOptionalBody ⟨0⟩ u.keepaliveSandboxRequest "sandbox keepalive request" body with
  | error r => exact .silent (rejection_silent _)
  | ok req =>
    refine Program.Tells.bind ((control_keepaliveSandbox_gives body id req.ttl).mono fun h r hr => ?_)
    cases r with
    | error err => exact .silent (failWith_silent _)
    | ok sbx => exact hr sbx rfl

theorem destroySandbox_told (id : String) : (API.destroySandbox id).Tells AnyCall (Told (.destroySandbox id)) [] := by
  have hall : ((Control.destroySandbox (D := Runtime.methods) id).Tells AnyCall (fun _ _ => True) []) :=
    Program.tells_true _ _
  refine Program.Tells.bind (hall.mono fun h r _ => ?_)
  cases r with
  | error err => exact .silent (failWith_silent _)
  | ok v => exact .silent trivial

theorem listSandboxes_told : API.listSandboxes.Tells AnyCall (Told .listSandboxes) [] := by
  refine ⟨trivial, fun a => ?_⟩
  cases (a : Except Err (List Sandbox)) with
  | error err => exact .silent (failWith_silent _)
  | ok sbxs => exact .listed

theorem getSandboxEvents_told (id : String) : (API.getSandboxEvents id).Tells AnyCall (Told (.getSandboxEvents id)) [] := by
  refine ⟨trivial, fun a => ?_⟩
  cases (a : Except Err Sandbox) with
  | error err => exact .silent (failWith_silent _)
  | ok sbx =>
    refine ⟨trivial, fun a => ?_⟩
    cases (a : Except Err (List Event)) with
    | error err => exact .silent (failWith_silent _)
    | ok events => exact .history

/-- A route that operates shows no record and no history. -/
theorem gated_told (hi : i.gated = true) : (i.handle u).Tells AnyCall (Told i) [] := by
  refine ((Request.handle_tells u i).mono fun h b hb => .silent ?_).weaken fun _ _ _ => trivial
  cases ho : i.operation u with
  | some o => exact (hb.gated o ho).silent
  | none =>
    obtain ⟨-, hstatus⟩ := hb.malformed hi ho
    cases hb.told with
    | failure hf => trivial
    | success hlow =>
      dsimp only at hstatus
      omega

theorem Request.handle_told (u : Unmarshal) (i : Request) : (i.handle u).Tells AnyCall (Told i) [] := by
  cases i with
  | createSandbox key body => exact createSandbox_told key body
  | listSandboxes => exact listSandboxes_told
  | getSandboxEvents id => exact getSandboxEvents_told id
  | destroySandbox id => exact destroySandbox_told id
  | keepaliveSandbox id body => exact keepaliveSandbox_told id body
  | inspectSandbox | execInSandbox | writeInSandbox | readFromSandbox | removeFromSandbox | listFromSandbox =>
    exact gated_told rfl

end Tells

/-! ## What clients see -/

section Run
variable {ρ : Type} {u : Unmarshal} {B : Backend Runtime.methods ρ} {w : World ρ} {ls : List ServerLabel}
  {C D : ServerConfig ρ} {n : ℕ} {i : Request} {b : Reply}

theorem Passed.grows {C₀ E : ServerConfig ρ} (h : Passed u B C₀ ls C n i E) : Grows E.shared.db C.shared.db :=
  h.keeps Grows.run

/-- The last thing a request has exchanged, in the run it belongs to. -/
theorem exchange_passed (h : (server u B).Run Always (.idle w) ls C) {p : API.Handler} (hp : C.requests n = some (i, p))
    {x : ServerExchange} {before : List ServerExchange} (hlog : slotLog n ls = x :: before) :
    ∃ E E' pre, (server u B).Run Always (.idle w) pre E ∧ slotLog n pre = before ∧
      (server u B).Step E (.request n i x.1 x.2) E' ∧ Passed u B (.idle w) ls C n i E' := by
  obtain ⟨post, pre, rfl, hin, hpost, hbefore⟩ := h.slotLog_append (idle_requests w) hp (hlog.trans (List.nil_append _).symm)
  obtain ⟨E, E', hpre, hstep, hrest⟩ := h.split
  refine ⟨E, E', pre, hpre, hbefore, hstep, post, .request n i x.1 x.2 :: pre, rfl, hpre.cons trivial hstep, hrest, ?_, hpost⟩
  exact List.mem_cons_of_mem _ hin

theorem scanEach_events {rows : List EventRow} {events : List Event} (h : Sqlite.scanEach Sqlite.scanEvent rows = .ok events) :
    events.map Api.NewSandboxEventResponse = toldEvents rows := by
  have hf := Sqlite.scanEach_ok h
  clear h
  induction hf with
  | nil => rfl
  | cons hscan _ ih =>
    obtain rfl := Except.ok.inj hscan
    rw [List.map_cons, ih]
    rfl

theorem getSandboxEvents_ok {f : Faults} {id : String} {db : Database} {events : List Event}
    (h : Sqlite.getSandboxEvents f id db = .ok events) :
    events.map Api.NewSandboxEventResponse = toldEvents (db.eventsOf id) := by
  unfold Sqlite.getSandboxEvents Sqlite.scanRows at h
  simp only [bind_eq_ok, mapError_eq_ok] at h
  obtain ⟨-, -, items, hitems, -, -, hr⟩ := h
  cases hr
  exact scanEach_events hitems

theorem forall₂_told {rows : List SandboxRow} {sbxs : List Sandbox}
    (h : List.Forall₂ (fun r s => Sqlite.scanSandbox r = .ok s) rows sbxs) :
    List.Forall₂ (fun row resp => ∃ sbx, Sqlite.scanSandbox row = .ok sbx ∧ resp = Api.NewSandboxResponse sbx) rows
      (sbxs.map Api.NewSandboxResponse) :=
  List.forall₂_map_right_iff.mpr (h.imp fun _ sbx hscan => ⟨sbx, hscan, rfl⟩)

theorem Reply.Silent.snapshot {b : Reply} (h : b.Silent) (db : Database) (i : Request) : b.Snapshot db i := by
  obtain ⟨status, body⟩ := b
  cases body with
  | none => trivial
  | some v =>
    cases v with
    | sandbox | sandboxes | events => cases h
    | info | exec | content | files | error => trivial

theorem snapshot_record {db : Database} {status : ℕ} {sbx : Sandbox} {r : SandboxRow}
    (hrow : db.sandbox? r.platformId = some r) (hscan : Sqlite.scanSandbox r = .ok sbx)
    (hi : ∀ id body, i = .keepaliveSandbox id body → r.platformId = id) :
    Reply.Snapshot db i ⟨status, some (.sandbox (Api.NewSandboxResponse sbx))⟩ := by
  have hid : sbx.sandboxID = r.platformId := Sqlite.scanSandbox_id hscan
  exact And.intro (fun id body he => hid.trans (hi id body he)) ⟨r, sbx, (congrArg db.sandbox? hid).trans hrow, hscan, rfl⟩

/-- What a request is about to be told goes back to what it has exchanged. -/
theorem respond_told (h : (server u B).Run Always (.idle w) ls C) (hs : (server u B).Step C (.respond n i b) D) :
    ∃ p, C.requests n = some (i, p) ∧ Told i (slotLog n ls) b := by
  have htold : Told i (slotLog n ls) b := h.respond_slot_tells (Request.handle_told u) (idle_requests w) hs
  cases hs with
  | respond hn => exact ⟨_, hn, htold⟩

/-- What a request is told is what the store held where the last exchange behind it took place. -/
theorem Told.snapshot (htold : Told i (slotLog n ls) b) (h : (server u B).Run Always (.idle w) ls C) {p : API.Handler}
    (hp : C.requests n = some (i, p)) : ∃ E, Passed u B (.idle w) ls C n i E ∧ b.Snapshot E.shared.db i := by
  generalize hlog : slotLog n ls = k at htold
  cases htold with
  | silent hb =>
    exact ⟨C, ⟨[], ls, rfl, h, .nil, h.arrived (idle_requests w) hp, by simp⟩, hb.snapshot _ _⟩
  | @replayed key id body before sbx =>
    obtain ⟨E, E', pre, -, -, hstep, hpassed⟩ := exchange_passed h hp hlog
    obtain ⟨f, db, hexec, hE'⟩ := Asks.exec (B := B) (.inr ⟨n, _, rfl⟩) hstep
    obtain ⟨hread, rfl⟩ := Prod.mk.inj hexec
    obtain ⟨row, hrow, hscan⟩ := Sqlite.getSandbox_ok hread
    obtain rfl : row.platformId = id := Relational.Table.key_of_find? hrow
    refine ⟨E', hpassed, snapshot_record (r := row) ?_ hscan fun id body hi => by cases hi⟩
    rw [hE']
    exact hrow
  | @inserted key id body spec expiresAt before sbx =>
    obtain ⟨E, E', pre, -, -, hstep, hpassed⟩ := exchange_passed h hp hlog
    obtain ⟨f, db, hexec, hE'⟩ := Asks.exec (B := B) (.inr ⟨n, _, rfl⟩) hstep
    rcases Sqlite.insertSandbox_cases hexec with ⟨row, sbx', hc, hrow, hscan, hr | ⟨e, hr⟩⟩ | ⟨-, e, hr⟩
    · obtain rfl := Except.ok.inj hr
      obtain rfl : row.platformId = id := Relational.Table.key_of_find? hrow
      refine ⟨E', hpassed, snapshot_record (r := row) ?_ hscan fun id body hi => by cases hi⟩
      rw [hE']
      exact hrow
    · cases hr
    · cases hr
  | @renewed id body expiresAt before sbx =>
    obtain ⟨E, E', pre, -, -, hstep, hpassed⟩ := exchange_passed h hp hlog
    obtain ⟨f, db, hexec, hE'⟩ := Asks.exec (B := B) (.inr ⟨n, _, rfl⟩) hstep
    rcases Sqlite.updateSandboxExpiry_cases hexec with ⟨row, sbx', hrenewed, -, hscan, hr | ⟨e, hr⟩⟩ | ⟨-, e, hr⟩
    · obtain rfl := Except.ok.inj hr
      have hid : row.platformId = id := Relational.Table.key_of_find? hrenewed.found
      refine ⟨E', hpassed, snapshot_record (r := row.renew expiresAt E.shared.clock.currentTimestamp) ?_ hscan ?_⟩
      · rw [hE']
        exact (hrenewed.sandbox _).trans (if_pos hid)
      · rintro id' body' hi
        cases hi
        exact hid
    · cases hr
    · cases hr
  | @listed before sbxs =>
    obtain ⟨E, E', pre, -, -, hstep, hpassed⟩ := exchange_passed h hp hlog
    obtain ⟨f, db, hexec, hE'⟩ := Asks.exec (B := B) (.inr ⟨n, _, rfl⟩) hstep
    obtain ⟨hread, rfl⟩ := Prod.mk.inj hexec
    refine ⟨E', hpassed, ?_⟩
    rw [hE']
    exact forall₂_told (Sqlite.getSandboxes_ok hread)
  | @history id sbx events =>
    obtain ⟨E, E', pre, hpre, hbefore, hstep, hpassed⟩ := exchange_passed h hp hlog
    obtain ⟨f, db, hexec, hE'⟩ := Asks.exec (B := B) (.inr ⟨n, _, rfl⟩) hstep
    obtain ⟨hread, rfl⟩ := Prod.mk.inj hexec
    obtain ⟨next, hslot⟩ : ∃ next, E.requests n = some (.getSandboxEvents id, .call (.store (.getSandboxEvents id)) next) := by
      cases hstep with
      | request hn _ => exact ⟨_, hn⟩
    -- the row was read before the events, and no row goes away
    obtain ⟨E₀, f₀, hpassed₀, hfound⟩ := read_passed hpre hslot (l := []) hbefore
    obtain ⟨row₀, hrow₀, -⟩ := Sqlite.getSandbox_ok hfound
    obtain ⟨row, hrow, -⟩ := hpassed₀.grows id row₀ hrow₀
    refine ⟨E', hpassed, id, rfl, ?_, ?_⟩
    · rw [hE']
      exact Option.isSome_of_eq_some hrow
    · rw [hE']
      exact getSandboxEvents_ok hread

/-- **Clients see a sandbox go one way**: of two replies that show the same sandbox, in whatever routes and to whichever
clients, the second to a request that arrived after the first was given, the second shows it where it was or further on. -/
theorem reads_in_order {t₀ : Time} {r₀ : ρ} {post mid pre : List ServerLabel} {n₁ n₂ : ℕ} {i₁ i₂ : Request} {b₁ b₂ : Reply}
    {id : String} {s₁ s₂ : Sighting} (h : (server u B).Run Always (.idle ⟨.empty, t₀, r₀⟩)
      (post ++ .respond n₂ i₂ b₂ :: (mid ++ .respond n₁ i₁ b₁ :: pre)) C)
    (harrive : .arrive n₂ i₂ ∈ mid) (h₁ : Shows i₁ b₁ id s₁) (h₂ : Shows i₂ b₂ id s₂) : s₁.Before s₂ := by
  obtain ⟨C₂, D₂, hrun₂, hstep₂, -⟩ := h.split
  obtain ⟨p₂, hp₂, htold₂⟩ := respond_told hrun₂ hstep₂
  obtain ⟨E₂, ⟨post₂, pre₂, hls, hpre₂, -, -, hpost₂⟩, hsnap₂⟩ := htold₂.snapshot hrun₂ hp₂
  -- the second reply's moment comes after its arrival, so after the first reply
  obtain ⟨m, rfl, rfl⟩ : ∃ m, mid = post₂ ++ m ∧ pre₂ = m ++ .respond n₁ i₁ b₁ :: pre := by
    rcases List.append_eq_append_iff.mp hls with ⟨m, rfl, -⟩ | ⟨m, hmid, hpre⟩
    · exact absurd (List.mem_append_left m harrive) (hpost₂ i₂)
    · exact ⟨m, hmid, hpre⟩
  obtain ⟨C₁, D₁, hrun₁, hstep₁, hrest⟩ := hpre₂.split
  obtain ⟨p₁, hp₁, htold₁⟩ := respond_told hrun₁ hstep₁
  obtain ⟨E₁, hpassed₁, hsnap₁⟩ := htold₁.snapshot hrun₁ hp₁
  have hgrows : Grows E₁.shared.db E₂.shared.db :=
    (hpassed₁.grows.trans (Grows.run (Run.one hstep₁))).trans (Grows.run hrest)
  have hrec₁ : Recorded E₁.shared.db := by
    obtain ⟨_, pre₁, -, hpre₁, -⟩ := hpassed₁
    exact Recorded.run hpre₁ recorded_empty
  have hrec₂ : Recorded E₂.shared.db := Recorded.run hpre₂ recorded_empty
  obtain ⟨row₁, c₁, hc₁, hof₁⟩ := hsnap₁.of hrec₁ h₁
  obtain ⟨row₂, c₂, hc₂, hof₂⟩ := hsnap₂.of hrec₂ h₂
  exact Sighting.before_of_le (hgrows.chronicle_le hc₁ hc₂) hof₁ hof₂

/-- The record in a reply. -/
def Reply.record? (b : Reply) : Option Api.SandboxResponse :=
  match b.body with
  | some (.sandbox resp) => some resp
  | _ => none

/-- The history in a reply. -/
def Reply.history? (b : Reply) : Option (List Api.SandboxEventResponse) :=
  match b.body with
  | some (.events resp) => some resp
  | _ => none

theorem body_of_record? {b : Reply} {resp : Api.SandboxResponse} (h : b.record? = some resp) : b.body = some (.sandbox resp) := by
  unfold Reply.record? at h
  split at h
  · next hb => rw [hb, Option.some.inj h]
  · cases h

theorem body_of_history? {b : Reply} {resp : List Api.SandboxEventResponse} (h : b.history? = some resp) :
    b.body = some (.events resp) := by
  unfold Reply.history? at h
  split at h
  · next hb => rw [hb, Option.some.inj h]
  · cases h

/-- The reply to the first create, and the world it leaves. -/
def firstCreate : Reply × World Fleet :=
  ((server .zero .servedFleet).handler (.createSandbox "k" .document)).run serverExec .empty

/-- The theorem at a create and a reading of the events. -/
theorem reads_in_order_created : ∃ mid pre C b₁ b₂ r l, (server .zero .servedFleet).Run Always (.idle .empty)
      ([] ++ .respond 0 (.getSandboxEvents exampleID) b₂ :: (mid ++ .respond 0 (.createSandbox "k" .document) b₁ :: pre)) C ∧
    Shows (.createSandbox "k" .document) b₁ exampleID (.record r) ∧
    Shows (.getSandboxEvents exampleID) b₂ exampleID (.history l) ∧ (Sighting.record r).Before (.history l) := by
  obtain ⟨ms, h₁⟩ := (Run.start (server .zero .servedFleet) Always (.idle .empty)).thenServe serverExec_performs 0
    (.createSandbox "k" .document) rfl
  obtain ⟨mid, hin, h₂⟩ := h₁.thenReply serverExec_performs 0 (.getSandboxEvents exampleID) rfl
  have hrecord : (firstCreate.1.record?.map (·.sandboxID)) = some exampleID := by decide +kernel
  have hhistory : (((server .zero .servedFleet).handler (.getSandboxEvents exampleID)).run serverExec
      firstCreate.2).1.history?.isSome = true := by decide +kernel
  obtain ⟨r, hr, hid⟩ := Option.map_eq_some_iff.mp hrecord
  obtain ⟨l, hl⟩ := Option.isSome_iff_exists.mp hhistory
  have hshows₁ : Shows (.createSandbox "k" .document) firstCreate.1 exampleID (.record r) := hid ▸ .sandbox (body_of_record? hr)
  have hshows₂ : Shows (.getSandboxEvents exampleID) _ exampleID (.history l) := .history (body_of_history? hl)
  rw [← List.nil_append (_ :: _)] at h₂
  exact ⟨_, _, _, _, _, r, l, h₂, hshows₁, hshows₂, reads_in_order h₂ hin hshows₁ hshows₂⟩

end Run
end HttpApi
end Quickspin
