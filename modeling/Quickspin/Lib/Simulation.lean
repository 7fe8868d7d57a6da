import Quickspin.Lib.Alone

/-! A service that does the work of a smaller one, and more. Some of its requests are requests of the smaller service
with the answers put into other words; the calls of the others leave the shared state alone, or do what the smaller
service takes for a move of its environment. Every run of the larger service then has one of the smaller one beside it,
step by step. -/
namespace Interaction
set_option autoImplicit false

/-- The calls of `S` among those of `T`. -/
structure Embedding (S T : Signature) where
  call : S.Call → T.Call
  answer : (c : S.Call) → T.Answer (call c) → S.Answer c

variable {S T : Signature} {σ ι ι' β β' ω α γ : Type}

namespace Program

/-- The same text over the larger signature. -/
def embed (E : Embedding S T) : Program S α → Program T α
  | .done a => .done a
  | .call c next => .call (E.call c) fun a => (next (E.answer c a)).embed E

variable {E : Embedding S T}

@[simp] theorem embed_done (a : α) : (Program.done a : Program S α).embed E = .done a := rfl

@[simp] theorem embed_call (c : S.Call) (next : S.Answer c → Program S α) :
    (Program.call c next).embed E = .call (E.call c) fun a => (next (E.answer c a)).embed E := rfl

/-- Embedding is compiling every call to the one call that it is. -/
theorem embed_eq_translate (p : Program S α) :
    p.embed E = p.translate fun c => .call (E.call c) fun a => .done (E.answer c a) := by
  induction p with
  | done a => rfl
  | call c next ih =>
    rw [embed_call, translate_call, call_bind]
    congr 1
    funext a
    exact ih _

theorem embed_bind (p : Program S α) (f : α → Program S γ) :
    (p >>= f).embed E = (p.embed E >>= fun a => (f a).embed E) := by
  induction p with
  | done a => rfl
  | call c next ih =>
    rw [call_bind, embed_call, embed_call, call_bind]
    congr 1
    funext a
    exact ih _

theorem Calls.embed {P : S.Call → Prop} {Q : T.Call → Prop} {p : Program S α} (hp : p.Calls P)
    (h : ∀ c, P c → Q (E.call c)) : (p.embed E).Calls Q := by
  induction p with
  | done a => trivial
  | call c next ih => exact ⟨h c hp.1, fun a => ih _ (hp.2 _)⟩

/-- Embedded text completes as the text itself. -/
theorem Completes.of_embed {act : (c : S.Call) → σ → S.Answer c → σ → Prop}
    {act' : (c : T.Call) → σ → T.Answer c → σ → Prop} {drift : σ → σ → Prop} {p : Program S α} {s t : σ}
    {log : List (Exchange T)} {b : α} (hact : ∀ c s x t, act' (E.call c) s x t → act c s (E.answer c x) t)
    (h : (p.embed E).Completes act' drift s log b t) : ∃ log', p.Completes act drift s log' b t := by
  induction p generalizing s log with
  | done a => exact ⟨[], rfl, h.2⟩
  | call c next ih =>
    obtain ⟨u, x, v, rest, hsu, hx, -, hnext⟩ := h
    obtain ⟨log', hlog'⟩ := ih (E.answer c x) hnext
    exact ⟨⟨c, E.answer c x⟩ :: log', u, E.answer c x, v, log', hsu, hact c u x v hx, rfl, hlog'⟩

end Program

namespace Service

/-- How a service does the work of another one: `request` is what a request comes to there and `render` puts the answer into
words; `Quiet` holds of the calls of the requests that come to none. -/
structure Extends (V : Service T σ ι β ω) (V' : Service S σ ι' β' ω) (E : Embedding S T) where
  request : ι → Option ι'
  render : ι → β' → β
  Quiet : T.Call → Prop
  handler : ∀ i j, request i = some j → V.handler i = ((V'.handler j).embed E >>= fun b => .done (render i b))
  worker : V.worker = V'.worker.embed E
  act : ∀ c s a s', V.act (E.call c) s a s' → V'.act c s (E.answer c a) s'
  env : ∀ s s', V.env s s' → V'.env s s'
  quiet : ∀ i, request i = none → (V.handler i).Calls Quiet
  quiet_act : ∀ c s a s', Quiet c → V.act c s a s' → s' = s ∨ V'.env s s'

variable {V : Service T σ ι β ω} {V' : Service S σ ι' β' ω} {E : Embedding S T}

namespace Extends
variable (X : Extends V V' E)

/-- A step of the larger service and the step of the smaller one beside it. -/
inductive Beside : Label T ι β ω → Label S ι' β' ω → Prop
  | arrive (n : ℕ) {i : ι} {j : ι'} (h : X.request i = some j) : Beside (.arrive n i) (.arrive n j)
  | request (n : ℕ) {i : ι} {j : ι'} (h : X.request i = some j) (c : S.Call) (a : T.Answer (E.call c)) :
      Beside (.request n i (E.call c) a) (.request n j c (E.answer c a))
  | respond (n : ℕ) {i : ι} {j : ι'} (h : X.request i = some j) (b : β') :
      Beside (.respond n i (X.render i b)) (.respond n j b)
  | wake : Beside .wake .wake
  | work (c : S.Call) (a : T.Answer (E.call c)) : Beside (.work (E.call c) a) (.work c (E.answer c a))
  | rest (w : ω) : Beside (.rest w) (.rest w)
  | env : Beside .env .env
  | crash : Beside .crash .crash
  | quiet (n : ℕ) {i : ι} (h : X.request i = none) {c : T.Call} (hc : X.Quiet c) (a : T.Answer c) :
      Beside (.request n i c a) .env

/-- A step that the smaller service has no part in. -/
inductive Aside : Label T ι β ω → Prop
  | arrive (n : ℕ) {i : ι} (h : X.request i = none) : Aside (.arrive n i)
  | request (n : ℕ) {i : ι} (h : X.request i = none) {c : T.Call} (hc : X.Quiet c) (a : T.Answer c) :
      Aside (.request n i c a)
  | respond (n : ℕ) {i : ι} (h : X.request i = none) (b : β) : Aside (.respond n i b)

/-- Two histories, step by step. -/
inductive Traces : List (Label T ι β ω) → List (Label S ι' β' ω) → Prop
  | nil : Traces [] []
  | beside {l : Label T ι β ω} {l' : Label S ι' β' ω} {ls : List (Label T ι β ω)} {ls' : List (Label S ι' β' ω)}
      (hl : X.Beside l l') (h : Traces ls ls') : Traces (l :: ls) (l' :: ls')
  | aside {l : Label T ι β ω} {ls : List (Label T ι β ω)} {ls' : List (Label S ι' β' ω)} (hl : X.Aside l)
      (h : Traces ls ls') : Traces (l :: ls) ls'

/-- A slot of the larger service against the same slot of the smaller one. -/
inductive Slot : Option (ι × Program T β) → Option (ι' × Program S β') → Prop
  | free : Slot none none
  | shared {i : ι} {j : ι'} (h : X.request i = some j) (p : Program S β') :
      Slot (some (i, p.embed E >>= fun b => .done (X.render i b))) (some (j, p))
  | own {i : ι} (h : X.request i = none) {p : Program T β} (hp : p.Calls X.Quiet) : Slot (some (i, p)) none

/-- The two configurations stand at the same point. -/
structure Agrees (C : Config T σ ι β ω) (C' : Config S σ ι' β' ω) : Prop where
  shared : C.shared = C'.shared
  worker : C.worker = C'.worker.map fun p => p.embed E
  slot : ∀ n, X.Slot (C.requests n) (C'.requests n)

theorem agrees_idle (s : σ) : X.Agrees (.idle s) (.idle s) := ⟨rfl, rfl, fun _ => .free⟩

variable {X} {C D : Config T σ ι β ω} {C' : Config S σ ι' β' ω} {l : Label T ι β ω}

theorem Slot.inv {i : ι} {q : Program T β} {s : Option (ι' × Program S β')} (h : X.Slot (some (i, q)) s) :
    (∃ j p, X.request i = some j ∧ q = (p.embed E >>= fun b => .done (X.render i b)) ∧ s = some (j, p)) ∨
      (X.request i = none ∧ q.Calls X.Quiet ∧ s = none) := by
  generalize hx : some (i, q) = x at h
  cases h with
  | free => cases hx
  | shared h p =>
    obtain ⟨rfl, rfl⟩ := Prod.mk.inj (Option.some.inj hx)
    exact .inl ⟨_, p, h, rfl, rfl⟩
  | own h hp =>
    obtain ⟨rfl, rfl⟩ := Prod.mk.inj (Option.some.inj hx)
    exact .inr ⟨h, hp, rfl⟩

theorem Slot.none_inv {s : Option (ι' × Program S β')} (h : X.Slot none s) : s = none := by
  cases h
  rfl

/-- A slot is written on both sides. -/
theorem Agrees.update {s : σ} {n : ℕ} {x : Option (ι × Program T β)} {x' : Option (ι' × Program S β')}
    (h : X.Agrees C C') (hx : X.Slot x x') : X.Agrees { C with shared := s, requests := Function.update C.requests n x }
      { C' with shared := s, requests := Function.update C'.requests n x' } := by
  refine ⟨rfl, h.worker, fun m => ?_⟩
  by_cases hm : m = n
  · subst hm
    simpa only [Function.update_self] using hx
  · simpa only [Function.update_of_ne hm] using h.slot m

/-- A slot that the smaller service does not use is written on one side. -/
theorem Agrees.update_own {s : σ} {n : ℕ} {x : Option (ι × Program T β)} (h : X.Agrees C C') (hn : C'.requests n = none)
    (hx : X.Slot x none) : X.Agrees { C with shared := s, requests := Function.update C.requests n x }
      { C' with shared := s } := by
  have hsame : Function.update C'.requests n none = C'.requests := by
    rw [← hn]
    exact Function.update_eq_self n C'.requests
  have hboth := h.update (s := s) (n := n) hx
  rwa [hsame] at hboth

/-- **Step lemma**: a step of the larger service is none of the smaller one's, or has one beside it. -/
theorem Agrees.step (h : X.Agrees C C') (hs : V.Step C l D) :
    (X.Aside l ∧ X.Agrees D C') ∨ ∃ l' D', X.Beside l l' ∧ V'.Step C' l' D' ∧ X.Agrees D D' := by
  cases hs with
  | arrive n i hn =>
    have hn' : C'.requests n = none := (hn ▸ h.slot n).none_inv
    cases hi : X.request i with
    | none =>
      have hkept := h.update_own (s := C.shared) hn' (.own hi (X.quiet i hi))
      exact .inl ⟨.arrive n hi, by simpa only [h.shared] using hkept⟩
    | some j =>
      have hslot : X.Slot (some (i, V.handler i)) (some (j, V'.handler j)) := by
        rw [X.handler i j hi]
        exact .shared hi _
      have hboth := h.update (s := C.shared) (n := n) hslot
      exact .inr ⟨_, _, .arrive n hi, .arrive n j hn', by simpa only [h.shared] using hboth⟩
  | @request n i c next a s hn ha =>
    rcases (hn ▸ h.slot n).inv with ⟨j, p, hi, hp, hn'⟩ | ⟨hi, hp, hn'⟩
    · cases p with
      | done b => cases hp
      | call c' next' =>
        cases hp
        exact .inr ⟨_, _, .request n hi c' a, .request hn' (X.act c' _ a s (h.shared ▸ ha)), h.update (.shared hi _)⟩
    · rcases X.quiet_act c _ a s hp.1 ha with rfl | he
      · have hkept := h.update_own (s := C.shared) hn' (.own hi (hp.2 a))
        exact .inl ⟨.request n hi hp.1 a, by simpa only [h.shared] using hkept⟩
      · exact .inr ⟨_, _, .quiet n hi hp.1 a, .env (h.shared ▸ he), h.update_own hn' (.own hi (hp.2 a))⟩
  | @respond n i b hn =>
    rcases (hn ▸ h.slot n).inv with ⟨j, p, hi, hp, hn'⟩ | ⟨hi, hp, hn'⟩
    · cases p with
      | call c' next' => cases hp
      | done b' =>
        cases hp
        have hboth := h.update (s := C.shared) (n := n) (.free (X := X))
        exact .inr ⟨_, _, .respond n hi b', .respond hn', by simpa only [h.shared] using hboth⟩
    · have hkept := h.update_own (s := C.shared) hn' (.free (X := X))
      exact .inl ⟨.respond n hi b, by simpa only [h.shared] using hkept⟩
  | wake hw =>
    have hw' : C'.worker = none := Option.map_eq_none_iff.mp (h.worker.symm.trans hw)
    exact .inr ⟨_, _, .wake, .wake hw', h.shared, congrArg some X.worker, h.slot⟩
  | @work c next a s hw ha =>
    obtain ⟨p, hw', hp⟩ := Option.map_eq_some_iff.mp (h.worker.symm.trans hw)
    cases p with
    | done w => cases hp
    | call c' next' =>
      cases hp
      exact .inr ⟨_, _, .work c' a, .work hw' (X.act c' _ a s (h.shared ▸ ha)), rfl, rfl, h.slot⟩
  | @rest w hw =>
    obtain ⟨p, hw', hp⟩ := Option.map_eq_some_iff.mp (h.worker.symm.trans hw)
    cases p with
    | call c' next' => cases hp
    | done w' =>
      cases hp
      exact .inr ⟨_, _, .rest w, .rest hw', h.shared, rfl, h.slot⟩
  | @env s he => exact .inr ⟨_, _, .env, .env (h.shared ▸ X.env _ _ he), rfl, h.worker, h.slot⟩
  | crash => exact .inr ⟨_, _, .crash, .crash, by rw [h.shared]; exact X.agrees_idle _⟩

/-- **Simulation**: every run of the larger service has a run of the smaller one beside it. -/
theorem Agrees.run {C₀ : Config T σ ι β ω} {C₀' : Config S σ ι' β' ω} {ls : List (Label T ι β ω)} {ok : _}
    (h₀ : X.Agrees C₀ C₀') (h : V.Run ok C₀ ls C) :
    ∃ ls' C', V'.Run Always C₀' ls' C' ∧ X.Traces ls ls' ∧ X.Agrees C C' := by
  induction h with
  | nil => exact ⟨[], C₀', .nil, .nil, h₀⟩
  | cons _ _ hs ih =>
    obtain ⟨ls', C', hrun, htraces, hagrees⟩ := ih
    rcases hagrees.step hs with ⟨hl, hD⟩ | ⟨l', D', hl, hs', hD⟩
    · exact ⟨ls', C', hrun, .aside hl htraces, hD⟩
    · exact ⟨l' :: ls', D', .cons hrun trivial hs', .beside hl htraces, hD⟩

/-- A reply of the larger service is that of the smaller one, in other words. -/
theorem Traces.respond {ls : List (Label T ι β ω)} {ls' : List (Label S ι' β' ω)} (h : X.Traces ls ls') {n : ℕ} {i : ι}
    {j : ι'} {b : β} (hi : X.request i = some j) (hb : .respond n i b ∈ ls) :
    ∃ b', .respond n j b' ∈ ls' ∧ b = X.render i b' := by
  induction h with
  | nil => cases hb
  | beside hl _ ih =>
    rcases List.mem_cons.mp hb with rfl | hb
    · cases hl with
      | respond _ hj b' =>
        obtain rfl := Option.some.inj (hj.symm.trans hi)
        exact ⟨b', List.mem_cons_self .., rfl⟩
    · obtain ⟨b', hb', hrender⟩ := ih hb
      exact ⟨b', List.mem_cons_of_mem _ hb', hrender⟩
  | aside hl _ ih =>
    rcases List.mem_cons.mp hb with rfl | hb
    · cases hl with
      | respond _ hj _ =>
        rw [hi] at hj
        cases hj
    · exact ih hb

end Extends
end Service
end Interaction
