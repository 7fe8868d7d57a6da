import Quickspin.Serving
import Quickspin.Texts
import Quickspin.Lib.Simulation

/-! The server against the control plane. A create, a keepalive or a delete whose body can be read is a request of the
control plane, its answer put into a status and a body; every other request only reads the store, or operates on a
container, which the control plane sees as its environment moving. So what holds of every run of the control plane holds
of the HTTP server. -/
namespace Quickspin
open Interaction Service
set_option autoImplicit false

/-- The backend as the reconciler sees it: what the requests do to containers happens by itself. -/
def Backend.reconciled {ρ : Type} (B : Backend Runtime.methods ρ) : Backend Runtime.signature ρ where
  act c := B.act (.base c)
  env r r' := B.env r r' ∨ ∃ o a, B.act (.operate o) r a r'

namespace HttpApi

/-- The request of the control plane that the request comes to. -/
def Request.control (u : Unmarshal) : Request → Option Quickspin.Request
  | .createSandbox key body =>
    if key == "" then none
    else
      match decodeBody u.createSandboxRequest "sandbox create request" body with
      | .error _ => none
      | .ok req => some (.create key req.spec req.ttl)
  | .destroySandbox id => some (.destroy id)
  | .keepaliveSandbox id body =>
    match decodeOptionalBody ⟨0⟩ u.keepaliveSandboxRequest "sandbox keepalive request" body with
    | .error _ => none
    | .ok req => some (.keepalive id req.ttl)
  | _ => none

/-- A create and a delete are accepted only: the reconciler is what carries them out. -/
def Request.successStatus : Request → ℕ
  | .createSandbox _ _ | .destroySandbox _ => StatusAccepted
  | _ => StatusOK

/-- The answer of the control plane in words. -/
def Request.render (i : Request) : Response → Reply
  | .sandbox (.ok sbx) => respond i.successStatus (some (.sandbox (Api.NewSandboxResponse sbx)))
  | .nothing (.ok ()) => respond i.successStatus none
  | .sandbox (.error err) | .nothing (.error err) => failWith err

/-! ## The same text over either signature -/

section Text

theorem baseCalls_shares : Shares fun c => .call (baseCalls.call c) fun a => .done (baseCalls.answer c a) :=
  ⟨rfl, rfl, fun _ => rfl⟩

theorem createSandbox_embed (key : String) (spec : SpecFile) (ttl : Duration) :
    (Control.createSandbox (D := Runtime.signature) key spec ttl).embed baseCalls = Control.createSandbox key spec ttl := by
  rw [Program.embed_eq_translate, createSandbox_translate baseCalls_shares]

theorem keepaliveSandbox_embed (id : String) (ttl : Duration) :
    (Control.keepaliveSandbox (D := Runtime.signature) id ttl).embed baseCalls = Control.keepaliveSandbox id ttl := by
  rw [Program.embed_eq_translate, keepaliveSandbox_translate baseCalls_shares]

theorem destroySandbox_embed (id : String) :
    (Control.destroySandbox (D := Runtime.signature) id).embed baseCalls = Control.destroySandbox id := by
  rw [Program.embed_eq_translate, destroySandbox_translate baseCalls_shares]

/-- A request that comes to one of the control plane has its text, and renders its answer. -/
theorem handle_control {u : Unmarshal} {i : Request} {j : Quickspin.Request} (h : i.control u = some j) :
    i.handle u = ((Quickspin.Request.handle (D := Runtime.signature) j).embed baseCalls >>= fun b => .done (i.render b)) := by
  cases i with
  | createSandbox key body =>
    unfold Request.control at h
    unfold Request.handle API.createSandbox
    dsimp only at h ⊢
    split at h
    · cases h
    · next hkey =>
      rw [if_neg hkey]
      cases hbody : decodeBody u.createSandboxRequest "sandbox create request" body with
      | error r =>
        rw [hbody] at h
        cases h
      | ok req =>
        rw [hbody] at h
        obtain rfl := Option.some.inj h
        rw [Quickspin.Request.handle, Program.embed_bind, createSandbox_embed, Program.bind_assoc]
        refine congrArg (Control.createSandbox (D := Runtime.methods) key req.spec req.ttl >>= ·) (funext fun r => ?_)
        cases r with
        | error err => exact congrArg Program.done (failWith_wrap _ _ err)
        | ok sbx => rfl
  | destroySandbox id =>
    obtain rfl := Option.some.inj h
    rw [Quickspin.Request.handle, Program.embed_bind, destroySandbox_embed, Program.bind_assoc]
    refine congrArg (Control.destroySandbox (D := Runtime.methods) id >>= ·) (funext fun r => ?_)
    cases r with
    | error err => exact congrArg Program.done (failWith_wrap _ _ err)
    | ok v => rfl
  | keepaliveSandbox id body =>
    unfold Request.control at h
    unfold Request.handle API.keepaliveSandbox
    dsimp only at h ⊢
    cases hbody : decodeOptionalBody ⟨0⟩ u.keepaliveSandboxRequest "sandbox keepalive request" body with
    | error r =>
      rw [hbody] at h
      cases h
    | ok req =>
      rw [hbody] at h
      obtain rfl := Option.some.inj h
      rw [Quickspin.Request.handle, Program.embed_bind, keepaliveSandbox_embed, Program.bind_assoc]
      refine congrArg (Control.keepaliveSandbox (D := Runtime.methods) id req.ttl >>= ·) (funext fun r => ?_)
      cases r with
      | error err => exact congrArg Program.done (failWith_wrap _ _ err)
      | ok sbx => rfl
  | listSandboxes | inspectSandbox | getSandboxEvents | execInSandbox | writeInSandbox | readFromSandbox | removeFromSandbox
    | listFromSandbox => cases h

end Text

/-! ## The simulation -/

/-- A call of a request that has no part in the control plane. -/
def Apart : (calls Runtime.methods).Call → Prop
  | .now | .newSandboxID => True
  | .store s => ReadOnly s
  | .backend (.operate _) => True
  | .backend (.base _) | .decide _ _ => False

theorem handle_apart {u : Unmarshal} {i : Request} (h : i.control u = none) : (i.handle u).Calls Apart := by
  have hpermitted : (∀ s, ¬i.Writes s) → (i.handle u).Calls Apart := by
    intro hwrites
    refine (Request.handle_tells u i).calls fun k c hc => ?_
    cases c with
    | now | newSandboxID => trivial
    | store s => exact hc.elim id fun hw => absurd hw (hwrites s)
    | backend m =>
      cases m with
      | base c => cases hc
      | operate o => trivial
    | decide id action => cases hc
  cases i with
  | createSandbox key body =>
    unfold Request.control at h
    unfold Request.handle API.createSandbox
    dsimp only at h ⊢
    split at h
    · next hkey =>
      rw [if_pos hkey]
      trivial
    · next hkey =>
      rw [if_neg hkey]
      cases hbody : decodeBody u.createSandboxRequest "sandbox create request" body with
      | error r => trivial
      | ok req =>
        rw [hbody] at h
        cases h
  | destroySandbox id => cases h
  | keepaliveSandbox id body =>
    unfold Request.control at h
    unfold Request.handle API.keepaliveSandbox
    dsimp only at h ⊢
    cases hbody : decodeOptionalBody ⟨0⟩ u.keepaliveSandboxRequest "sandbox keepalive request" body with
    | error r => trivial
    | ok req =>
      rw [hbody] at h
      cases h
  | listSandboxes | inspectSandbox | getSandboxEvents | execInSandbox | writeInSandbox | readFromSandbox | removeFromSandbox
    | listFromSandbox => exact hpermitted fun s hs => by cases hs

section Simulation
variable {ρ : Type} (u : Unmarshal) (B : Backend Runtime.methods ρ)

/-- The server does the work of the control plane, and more. -/
def extendsControlPlane : Extends (server u B) (controlPlane B.reconciled) baseCalls where
  request := Request.control u
  render := Request.render
  Quiet := Apart
  handler _ _ h := handle_control h
  worker := rfl
  act c w a w' ha := by
    cases c with
    | now | newSandboxID | store | decide => exact ha
    | backend c => exact ha
  env w w' he := by
    cases he with
    | tick t h => exact .tick w t h
    | backend r h => exact .backend w r (.inl h)
  quiet _ h := handle_apart h
  quiet_act c w a w' hc ha := by
    cases c with
    | now | newSandboxID => exact .inl ha.2
    | store s =>
      obtain ⟨f, db, hexec, rfl⟩ := ha
      have hdb : db = w.db := ReadOnly.effect hc (StoreCall.effect hexec)
      exact .inl (by rw [hdb])
    | backend m =>
      cases m with
      | base c => cases hc
      | operate o =>
        obtain ⟨r, hr, rfl⟩ := ha
        exact .inr (.backend w r (.inr ⟨o, a, hr⟩))
    | decide id action => cases hc

variable {u B} {w : World ρ} {ls : List ServerLabel} {C : ServerConfig ρ}

/-- **The server refines the control plane**: beside every run of the server, step by step, there is one of the control
plane over the same store, clock and containers, in which every create, keepalive and delete that can be read has the
answer that the client is told. -/
theorem server_refines_controlPlane (h : (server u B).Run Always (.idle w) ls C) :
    ∃ ls' C', (controlPlane B.reconciled).Run Always (.idle w) ls' C' ∧ C'.shared = C.shared ∧
      (extendsControlPlane u B).Traces ls ls' ∧
      ∀ n i j b, i.control u = some j → .respond n i b ∈ ls → ∃ r, .respond n j r ∈ ls' ∧ b = i.render r := by
  obtain ⟨ls', C', hrun, htraces, hagrees⟩ := ((extendsControlPlane u B).agrees_idle w).run h
  exact ⟨ls', C', hrun, hagrees.shared.symm, htraces, fun n i j b hi hb => htraces.respond hi hb⟩

end Simulation

/-- The theorem at a create. -/
theorem server_refines_controlPlane_create : ∃ ls ls' C C', (server .zero .servedFleet).Run Always (.idle .empty) ls C ∧
    (controlPlane Backend.servedFleet.reconciled).Run Always (.idle .empty) ls' C' ∧ C'.shared = C.shared ∧
      C.shared.db.sandboxes.rows.map (·.state) = [.pending] := by
  obtain ⟨ls, h⟩ := (Run.start (server .zero .servedFleet) Always (.idle .empty)).thenServe serverExec_performs 0
    (.createSandbox "k" .document) rfl
  obtain ⟨ls', C', hrun, hshared, -⟩ := server_refines_controlPlane h
  exact ⟨_, ls', _, C', h, hrun, hshared, by decide +kernel⟩

end HttpApi
end Quickspin
