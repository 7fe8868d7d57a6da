import Quickspin.Control

/-! The requests of the control plane never reach the runtime: compiled to any lower signature that has the same clock,
ids and store, their text stays what it is. -/
namespace Quickspin
open Interaction
set_option autoImplicit false

/-- The clock, the generator of ids and the store are the same on both levels. -/
structure Shares {D D' : Signature} (impl : (c : (calls D).Call) → Program (calls D') ((calls D).Answer c)) : Prop where
  now : impl .now = now
  newSandboxID : impl .newSandboxID = newSandboxID
  store : ∀ c, impl (.store c) = store c

section Translate
variable {D D' : Signature} {impl : (c : (calls D).Call) → Program (calls D') ((calls D).Answer c)} {α : Type}

theorem Shares.translate_now (h : Shares impl) (next : Time → Program (calls D) α) :
    (Program.call (S := calls D) .now next).translate impl = .call (S := calls D') .now fun t => (next t).translate impl := by
  rw [Program.translate_call, h.now]
  rfl

theorem Shares.translate_newSandboxID (h : Shares impl) (next : String → Program (calls D) α) :
    (Program.call (S := calls D) .newSandboxID next).translate impl =
      .call (S := calls D') .newSandboxID fun id => (next id).translate impl := by
  rw [Program.translate_call, h.newSandboxID]
  rfl

theorem Shares.translate_store (h : Shares impl) (c : StoreCall) (next : c.Answer → Program (calls D) α) :
    (Program.call (S := calls D) (.store c) next).translate impl =
      .call (S := calls D') (.store c) fun a => (next a).translate impl := by
  rw [Program.translate_call, h.store]
  rfl

theorem createSandboxRecord_translate (h : Shares impl) (key : String) (spec : SpecFile) (expiresAt : Time) :
    (createSandboxRecord (D := D) key spec expiresAt).translate impl = createSandboxRecord key spec expiresAt := by
  unfold createSandboxRecord
  dsimp only
  cases spec.validate with
  | error err => rfl
  | ok v =>
    dsimp only
    split
    · rfl
    · refine (h.translate_store (.getIdempotencyKey key) _).trans (congrArg (Program.call _) (funext fun a => ?_))
      cases (a : Except Err (Option IdempotencyKey)) with
      | error err => rfl
      | ok found =>
        cases found with
        | some k =>
          refine (h.translate_store (.getSandbox k.sandboxID) _).trans (congrArg (Program.call _) (funext fun a => ?_))
          cases (a : Except Err Sandbox) <;> rfl
        | none =>
          dsimp only [Program.bind]
          cases spec.toJSON with
          | error err => rfl
          | ok json =>
            refine (h.translate_newSandboxID _).trans (congrArg (Program.call _) (funext fun id => ?_))
            exact h.translate_store (.insertSandbox key json id expiresAt) _

theorem createSandbox_translate (h : Shares impl) (key : String) (spec : SpecFile) (ttl : Duration) :
    (Control.createSandbox (D := D) key spec ttl).translate impl = Control.createSandbox key spec ttl := by
  unfold Control.createSandbox
  cases spec.resolveValidated with
  | error err => rfl
  | ok resolved =>
    cases resolveTTL ttl with
    | error err => rfl
    | ok ttl' =>
      refine (h.translate_now _).trans (congrArg (Program.call _) (funext fun t => ?_))
      show (createSandboxRecord (D := D) key spec (Time.add t ttl') >>= _).translate impl =
        (createSandboxRecord (D := D') key spec (Time.add t ttl') >>= _)
      rw [Program.translate_bind, createSandboxRecord_translate h]
      rfl

theorem keepaliveSandbox_translate (h : Shares impl) (id : String) (ttl : Duration) :
    (Control.keepaliveSandbox (D := D) id ttl).translate impl = Control.keepaliveSandbox id ttl := by
  unfold Control.keepaliveSandbox
  cases resolveTTL (min ttl MaxTTL) with
  | error err => rfl
  | ok ttl' =>
    refine (h.translate_now _).trans (congrArg (Program.call _) (funext fun t => ?_))
    exact h.translate_store (.updateSandboxExpiry id (Time.add t ttl')) _

theorem destroySandbox_translate (h : Shares impl) (id : String) :
    (Control.destroySandbox (D := D) id).translate impl = Control.destroySandbox id := by
  refine (h.translate_store (.getSandbox id) _).trans (congrArg (Program.call _) (funext fun a => ?_))
  cases (a : Except Err Sandbox) with
  | error err =>
    dsimp only [Program.bind]
    split <;> rfl
  | ok sbx =>
    refine (h.translate_store (.updateSandboxState id .running .stopping "destroy requested" sbx.versionID) _).trans
      (congrArg (Program.call _) (funext fun a => ?_))
    cases (a : Except Err Sandbox) with
    | error err =>
      dsimp only [Program.bind]
      split <;> rfl
    | ok sbx' => rfl

/-- The text of a request is the same on both levels. -/
theorem Request.handle_translate (h : Shares impl) (i : Request) :
    (Request.handle (D := D) i).translate impl = Request.handle i := by
  cases i with
  | create key spec ttl =>
    rw [Request.handle, Program.translate_bind, createSandbox_translate h]
    rfl
  | keepalive id ttl =>
    rw [Request.handle, Program.translate_bind, keepaliveSandbox_translate h]
    rfl
  | destroy id =>
    rw [Request.handle, Program.translate_bind, destroySandbox_translate h]
    rfl

end Translate
end Quickspin
