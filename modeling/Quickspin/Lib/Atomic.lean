import Quickspin.Lib.Alone

/-! Calls that a lower service carries out by programs of its own, as seen from above. While the worker is inside such a
program the others go on, the part of the state that only it reaches may move unasked, and the process may crash. Every
run of the lower service then has one of the upper service beside it in which each of these calls is a single step, at
the end of its program, and everything else that can be seen happens in the same order. -/
namespace Interaction
set_option autoImplicit false

variable {S T : Signature} {σ σ' κ ρ ρ' ε ι β ω : Type}

/-! ## What can be seen of a run -/

inductive Event (ε ι β ω : Type)
  | arrive (n : ℕ) (i : ι)
  | request (n : ℕ) (i : ι) (e : ε)
  | respond (n : ℕ) (i : ι) (b : β)
  | wake
  | work (e : ε)
  | rest (w : ω)
  | crash

/-- The step from outside: `see` is what can be seen of a call. -/
def Label.event (see : (c : S.Call) → S.Answer c → Option ε) : Label S ι β ω → Option (Event ε ι β ω)
  | .arrive n i => some (.arrive n i)
  | .request n i c a => (see c a).map (.request n i)
  | .respond n i b => some (.respond n i b)
  | .wake => some .wake
  | .work c a => (see c a).map .work
  | .rest w => some (.rest w)
  | .env => none
  | .crash => some .crash

/-- Two runs that look the same give the same answers. -/
theorem respond_of_event {ε : Type} {see : (c : S.Call) → S.Answer c → Option ε} {see' : (c : T.Call) → T.Answer c → Option ε}
    {ls : List (Label S ι β ω)} {ls' : List (Label T ι β ω)}
    (h : ls'.filterMap (Label.event see') = ls.filterMap (Label.event see)) {n : ℕ} {i : ι} {b : β}
    (hb : .respond n i b ∈ ls) : .respond n i b ∈ ls' := by
  have hevent : Event.respond n i b ∈ ls.filterMap (Label.event see) := List.mem_filterMap.mpr ⟨_, hb, rfl⟩
  rw [← h] at hevent
  obtain ⟨l, hl, he⟩ := List.mem_filterMap.mp hevent
  cases l with
  | respond m j b' =>
    obtain ⟨rfl, rfl, rfl⟩ := Event.respond.inj (Option.some.inj he)
    exact hl
  | request m j c a | work c a =>
    obtain ⟨x, -, hx⟩ := Option.map_eq_some_iff.mp he
    cases hx
  | arrive | wake | rest | env | crash => cases he

/-! ## Two services, one over the other -/

/-- The states of two services as a common part and one of their own; `abs` is what the upper service sees of the lower
one's. `inner` is what a call inside a program does to that part, and `moves` what happens to it unasked. -/
structure Layout (S T : Signature) (σ σ' κ ρ ρ' ε : Type) where
  low : κ → ρ → σ
  high : κ → ρ' → σ'
  abs : ρ → ρ'
  Inner : T.Call → Prop
  inner : (d : T.Call) → ρ → T.Answer d → ρ → Prop
  moves : ρ → ρ → Prop
  see : (d : T.Call) → T.Answer d → Option ε
  see' : (c : S.Call) → S.Answer c → Option ε

namespace Layout
variable (L : Layout S T σ σ' κ ρ ρ' ε) (V : Service T σ ι β ω) (V' : Service S σ' ι β ω)
  (impl : (c : S.Call) → Program T (S.Answer c))

/-- The call is one of the lower service's, on the common part. -/
def Direct (c : S.Call) : Prop :=
  ∃ (d : T.Call) (ans : T.Answer d → S.Answer c), impl c = .call d (fun a => .done (ans a)) ∧
    (∀ a, L.see d a = L.see' c (ans a)) ∧ ∀ k r a s, V.act d (L.low k r) a s →
      ∃ k', s = L.low k' r ∧ ∀ m, V'.act c (L.high k m) (ans a) (L.high k' m)

/-- From start to end the program does what the upper service says of its call, up to moves before and after it. -/
structure Block (c : S.Call) : Prop where
  calls : (impl c).Calls L.Inner
  unseen : ∀ a, L.see' c a = none
  act : ∀ log r₀ a r, (impl c).Completes L.inner L.moves r₀ log a r → ∀ k, ∃ m₁ m₂,
    V'.env (L.high k (L.abs r₀)) (L.high k m₁) ∧ V'.act c (L.high k m₁) a (L.high k m₂) ∧
      V'.env (L.high k m₂) (L.high k (L.abs r))

/-- The lower service is the upper one with each call carried out by its program. A call inside a program may always
fail without an effect. -/
structure Implements : Prop where
  handler : ∀ i, V.handler i = (V'.handler i).translate impl
  direct : ∀ i, (V'.handler i).Calls (L.Direct V V' impl)
  worker : V.worker = V'.worker.translate impl
  kinds : ∀ c, L.Direct V V' impl c ∨ L.Block V' impl c
  inner_act : ∀ d, L.Inner d → ∀ k r a s, V.act d (L.low k r) a s → ∃ r', s = L.low k r' ∧ L.inner d r a r'
  inner_unseen : ∀ d, L.Inner d → ∀ a, L.see d a = none
  abort : ∀ d, L.Inner d → ∀ r, ∃ a, L.inner d r a r
  env : ∀ k r s, V.env (L.low k r) s →
    (∃ k', s = L.low k' r ∧ ∀ m, V'.env (L.high k m) (L.high k' m)) ∨ ∃ r', s = L.low k r' ∧ L.moves r r'
  moves_refl : ∀ r, L.moves r r
  moves_trans : ∀ r s t, L.moves r s → L.moves s t → L.moves r t
  moves_env : ∀ k r r', L.moves r r' → V'.env (L.high k (L.abs r)) (L.high k (L.abs r'))

/-- The two passes in flight: the lower part when the upper service last moved, and as it is. Inside a program, the rest
of it from here completes what was begun there. -/
inductive Pass : ρ → ρ → Option (Program T ω) → Option (Program S ω) → Prop
  | idle (r : ρ) : Pass r r none none
  | between (r : ρ) (p : Program S ω) : Pass r r (some (p.translate impl)) (some p)
  | within {r₀ r : ρ} {c : S.Call} {next : S.Answer c → Program S ω} {q : Program T (S.Answer c)}
      (hc : L.Block V' impl c) (hq : q.Calls L.Inner)
      (hbegun : ∀ log a t, q.Completes L.inner L.moves r log a t →
        ∃ log', (impl c).Completes L.inner L.moves r₀ log' a t) :
      Pass r₀ r (some (q >>= fun a => (next a).translate impl)) (some (.call c next))

/-- A request in flight is the same text on both sides. -/
def Slot (x : Option (ι × Program T β)) (x' : Option (ι × Program S β)) : Prop :=
  x = x'.map (fun y => (y.1, y.2.translate impl)) ∧ ∀ i p, x' = some (i, p) → p.Calls (L.Direct V V' impl)

structure Agrees (C : Config T σ ι β ω) (C' : Config S σ' ι β ω) : Prop where
  pass : ∃ k r₀ r, C.shared = L.low k r ∧ C'.shared = L.high k (L.abs r₀) ∧ L.Pass V' impl r₀ r C.worker C'.worker
  slot : ∀ n, L.Slot V V' impl (C.requests n) (C'.requests n)

/-! ## Keeping step -/

section Step
variable {L V V' impl} {C D : Config T σ ι β ω} {C' : Config S σ' ι β ω} {l : Label T ι β ω} {r₀ r : ρ} {k : κ}

theorem agrees_idle (k : κ) (r : ρ) : L.Agrees V V' impl (.idle (L.low k r)) (.idle (L.high k (L.abs r))) :=
  ⟨⟨k, r, r, rfl, rfl, .idle r⟩, fun _ => ⟨rfl, fun _ _ h => nomatch h⟩⟩

theorem Pass.some_inv {q : Program T ω} {x' : Option (Program S ω)} (h : L.Pass V' impl r₀ r (some q) x') :
    ∃ p, x' = some p := by
  generalize hx : some q = x at h
  cases h with
  | idle => cases hx
  | between p => exact ⟨p, rfl⟩
  | within => exact ⟨_, rfl⟩

theorem Pass.none_inv {x' : Option (Program S ω)} (h : L.Pass V' impl r₀ r none x') : x' = none ∧ r₀ = r := by
  generalize hx : none = x at h
  cases h with
  | idle => exact ⟨rfl, rfl⟩
  | between => cases hx
  | within => cases hx

theorem Slot.update {n : ℕ} {x : Option (ι × Program T β)} {x' : Option (ι × Program S β)}
    (h : ∀ m, L.Slot V V' impl (C.requests m) (C'.requests m)) (hx : L.Slot V V' impl x x') (m : ℕ) :
    L.Slot V V' impl (Function.update C.requests n x m) (Function.update C'.requests n x' m) := by
  by_cases hm : m = n
  · subst hm
    simpa only [Function.update_self] using hx
  · simpa only [Function.update_of_ne hm] using h m

/-- The upper service takes the whole call in one step. -/
theorem Block.commit {c : S.Call} {next : S.Answer c → Program S ω} {a : S.Answer c} {log : List (Exchange T)}
    (hc : L.Block V' impl c) (hdone : (impl c).Completes L.inner L.moves r₀ log a r)
    (hshared : C'.shared = L.high k (L.abs r₀)) (hw : C'.worker = some (.call c next)) :
    ∃ ls, V'.Run Service.Always C' ls { C' with shared := L.high k (L.abs r), worker := some (next a) } ∧
      ls.filterMap (Label.event L.see') = [] := by
  obtain ⟨m₁, m₂, hbefore, hact, hafter⟩ := hc.act log r₀ a r hdone k
  rw [← hshared] at hbefore
  refine ⟨[.env, .work c a, .env], ?_, ?_⟩
  · exact (((Service.Run.nil.cons trivial (.env hbefore)).cons trivial (.work hw hact)).cons trivial (.env hafter))
  · simp [Label.event, hc.unseen]

/-- Every program begun may stop where it is. -/
theorem Implements.abandon (h : L.Implements V V' impl) {α : Type} {q : Program T α} (hq : q.Calls L.Inner) (r : ρ) :
    ∃ log a, q.Completes L.inner L.moves r log a r := by
  induction q with
  | done a => exact ⟨[], a, rfl, rfl, h.moves_refl r⟩
  | call d next ih =>
    obtain ⟨x, hx⟩ := h.abort d hq.1 r
    obtain ⟨log, a, hrest⟩ := ih x (hq.2 x)
    exact ⟨⟨d, x⟩ :: log, a, r, x, r, log, h.moves_refl r, hx, rfl, hrest⟩

/-- The pass with no program of the lower service finished but not yet taken by the upper one. -/
inductive Ready (L : Layout S T σ σ' κ ρ ρ' ε) (V : Service T σ ι β ω) (V' : Service S σ' ι β ω)
    (impl : (c : S.Call) → Program T (S.Answer c)) : ρ → ρ → Program T ω → Program S ω → Prop
  | rest (r : ρ) (w : ω) : Ready L V V' impl r r (.done w) (.done w)
  | direct (r : ρ) {c : S.Call} (next : S.Answer c → Program S ω) (hc : L.Direct V V' impl c) :
      Ready L V V' impl r r ((Program.call c next).translate impl) (.call c next)
  | within {r₀ r : ρ} {c : S.Call} (next : S.Answer c → Program S ω) {d : T.Call}
      {q : T.Answer d → Program T (S.Answer c)} (hc : L.Block V' impl c) (hq : (Program.call d q).Calls L.Inner)
      (hbegun : ∀ log a t, (Program.call d q).Completes L.inner L.moves r log a t →
        ∃ log', (impl c).Completes L.inner L.moves r₀ log' a t) :
      Ready L V V' impl r₀ r (.call d fun x => q x >>= fun a => (next a).translate impl) (.call c next)

/-- **The upper service catches up**: it takes the calls whose programs are at their end. -/
theorem Implements.catchUp (h : L.Implements V V' impl) {p : Program S ω} {q : Program T ω}
    (hpass : L.Pass V' impl r₀ r (some q) (some p)) (hshared : C'.shared = L.high k (L.abs r₀))
    (hw : C'.worker = some p) : ∃ ls r₁ p', V'.Run Service.Always C' ls
        { C' with shared := L.high k (L.abs r₁), worker := some p' } ∧
      ls.filterMap (Label.event L.see') = [] ∧ Ready L V V' impl r₁ r q p' := by
  induction p generalizing C' r₀ q with
  | done w =>
    cases hpass with
    | between =>
      refine ⟨[], r, .done w, ?_, rfl, .rest r w⟩
      rw [← hshared, ← hw]
      exact .nil
  | call c next ih =>
    have hinside : ∀ q' : Program T (S.Answer c), L.Block V' impl c → q'.Calls L.Inner →
        (∀ log a t, q'.Completes L.inner L.moves r log a t →
          ∃ log', (impl c).Completes L.inner L.moves r₀ log' a t) → ∃ ls r₁ p', V'.Run Service.Always C' ls
            { C' with shared := L.high k (L.abs r₁), worker := some p' } ∧
          ls.filterMap (Label.event L.see') = [] ∧
          Ready L V V' impl r₁ r (q' >>= fun a => (next a).translate impl) p' := by
      intro q' hc hq hbegun
      cases q' with
      | call d q' =>
        refine ⟨[], r₀, .call c next, ?_, rfl, .within next hc hq hbegun⟩
        rw [← hshared, ← hw]
        exact .nil
      | done a =>
        obtain ⟨log, hdone⟩ := hbegun [] a r ⟨rfl, rfl, h.moves_refl r⟩
        obtain ⟨ls, hrun, hls⟩ := hc.commit hdone hshared hw
        have hafter : ({ C' with shared := L.high k (L.abs r), worker := some (next a) } : Config S σ' ι β ω).shared =
          L.high k (L.abs r) := rfl
        obtain ⟨ls', r₁, p', hrun', hls', hready⟩ := ih a (.between r (next a)) hafter rfl
        refine ⟨ls' ++ ls, r₁, p', hrun.trans hrun', ?_, hready⟩
        rw [List.filterMap_append, hls, hls', List.append_nil]
    cases hpass with
    | between =>
      rcases h.kinds c with hc | hc
      · refine ⟨[], r, .call c next, ?_, rfl, .direct r next hc⟩
        rw [← hshared, ← hw]
        exact .nil
      · exact hinside (impl c) hc hc.calls fun log a t hdone => ⟨log, hdone⟩
    | within hc hq hbegun => exact hinside _ hc hq hbegun

theorem Slot.inv {i : ι} {q : Program T β} {x' : Option (ι × Program S β)} (h : L.Slot V V' impl (some (i, q)) x') :
    ∃ p, x' = some (i, p) ∧ q = p.translate impl ∧ p.Calls (L.Direct V V' impl) := by
  obtain ⟨hx, hcalls⟩ := h
  obtain ⟨⟨j, p⟩, rfl, hp⟩ := Option.map_eq_some_iff.mp hx.symm
  obtain ⟨rfl, rfl⟩ := Prod.mk.inj hp
  exact ⟨p, rfl, rfl, hcalls _ p rfl⟩

theorem Slot.none_inv {x' : Option (ι × Program S β)} (h : L.Slot V V' impl none x') : x' = none :=
  Option.map_eq_none_iff.mp h.1.symm

/-- A direct call is one call of the lower service. -/
theorem Direct.translate {α : Type} {c : S.Call} (h : L.Direct V V' impl c) (next : S.Answer c → Program S α) :
    ∃ (d : T.Call) (ans : T.Answer d → S.Answer c),
      (Program.call c next).translate impl = .call d (fun a => (next (ans a)).translate impl) ∧
      (∀ a, L.see d a = L.see' c (ans a)) ∧ ∀ k r a s, V.act d (L.low k r) a s →
        ∃ k', s = L.low k' r ∧ ∀ m, V'.act c (L.high k m) (ans a) (L.high k' m) := by
  obtain ⟨d, ans, himpl, hsee, hact⟩ := h
  refine ⟨d, ans, ?_, hsee, hact⟩
  rw [Program.translate_call, himpl]
  rfl

/-- A call of the pass, once the upper service has caught up: it takes the same call, or stays where it is. -/
theorem Ready.work (h : L.Implements V V' impl) {d : T.Call} {next : T.Answer d → Program T ω} {p : Program S ω}
    {a : T.Answer d} {s : σ} (hready : Ready L V V' impl r₀ r (.call d next) p) (ha : V.act d (L.low k r) a s)
    (hshared : C'.shared = L.high k (L.abs r₀)) (hw : C'.worker = some p) :
    ∃ ls k' r₀' r' p', s = L.low k' r' ∧
      V'.Run Service.Always C' ls { C' with shared := L.high k' (L.abs r₀'), worker := some p' } ∧
      ls.filterMap (Label.event L.see') = [Label.work (ι := ι) (β := β) (ω := ω) d a].filterMap (Label.event L.see) ∧
      L.Pass V' impl r₀' r' (some (next a)) (some p') := by
  generalize hq : Program.call d next = q at hready
  cases hready with
  | rest => cases hq
  | @direct c next' hc =>
    obtain ⟨d', ans, htranslate, hsee, hact⟩ := hc.translate next'
    obtain ⟨rfl, hnext⟩ := Program.call.inj (hq.trans htranslate)
    obtain rfl := eq_of_heq hnext
    obtain ⟨k', rfl, hhigh⟩ := hact k r₀ a s ha
    refine ⟨[.work c (ans a)], k', r₀, r₀, next' (ans a), rfl, ?_, ?_, .between r₀ _⟩
    · exact Service.Run.one (.work hw (hshared ▸ hhigh (L.abs r₀)))
    · simp only [List.filterMap_cons, List.filterMap_nil, Label.event, hsee]
  | @within _ c next' d' q' hc hinner hbegun =>
    obtain ⟨rfl, hnext⟩ := Program.call.inj hq
    obtain rfl := eq_of_heq hnext
    obtain ⟨r', rfl, hinner'⟩ := h.inner_act d hinner.1 k r a s ha
    refine ⟨[], k, r₀, r', .call c next', rfl, ?_, ?_, .within hc (hinner.2 a) fun log b t hrest => ?_⟩
    · rw [← hshared, ← hw]
      exact .nil
    · simp [Label.event, h.inner_unseen d hinner.1]
    · exact hbegun (⟨d, a⟩ :: log) b t ⟨r, a, r', log, h.moves_refl r, hinner', rfl, hrest⟩

theorem Ready.rest_inv {w : ω} {p : Program S ω} (h : Ready L V V' impl r₀ r (.done w) p) : r₀ = r ∧ p = .done w := by
  generalize hq : Program.done w = q at h
  cases h with
  | rest w' =>
    cases hq
    exact ⟨rfl, rfl⟩
  | @direct c next hc =>
    obtain ⟨d, ans, htranslate, -⟩ := hc.translate next
    cases hq.trans htranslate
  | within => cases hq

/-- A crash loses the pass, and leaves the upper service where the lower one is. -/
theorem Implements.crash (h : L.Implements V V' impl) {x : Option (Program T ω)} {x' : Option (Program S ω)}
    (hpass : L.Pass V' impl r₀ r x x') (hshared : C'.shared = L.high k (L.abs r₀)) (hw : C'.worker = x') :
    ∃ ls, V'.Run Service.Always C' ls (.idle (L.high k (L.abs r))) ∧
      ls.filterMap (Label.event L.see') = [.crash] := by
  cases hpass with
  | idle | between =>
    refine ⟨[.crash], ?_, rfl⟩
    rw [← hshared]
    exact Service.Run.one .crash
  | within hc hq hbegun =>
    obtain ⟨log, a, hrest⟩ := h.abandon hq r
    obtain ⟨log', hdone⟩ := hbegun log a r hrest
    obtain ⟨ls, hrun, hls⟩ := hc.commit hdone hshared hw
    refine ⟨.crash :: ls, hrun.cons trivial .crash, ?_⟩
    simp only [List.filterMap_cons, Label.event, hls]

/-- What happens to the lower part unasked, the upper service takes for its own environment, or for a part of the
program in flight. -/
theorem Implements.moved (h : L.Implements V V' impl) {x : Option (Program T ω)} {x' : Option (Program S ω)} {r' : ρ}
    (hpass : L.Pass V' impl r₀ r x x') (hmoves : L.moves r r') (hshared : C'.shared = L.high k (L.abs r₀)) :
    ∃ ls r₀', V'.Run Service.Always C' ls { C' with shared := L.high k (L.abs r₀') } ∧
      ls.filterMap (Label.event L.see') = [] ∧ L.Pass V' impl r₀' r' x x' := by
  have hstep : r₀ = r → V'.Run Service.Always C' [.env] { C' with shared := L.high k (L.abs r') } := by
    rintro rfl
    exact Service.Run.one (.env (hshared ▸ h.moves_env k r₀ r' hmoves))
  cases hpass with
  | idle => exact ⟨_, r', hstep rfl, rfl, .idle r'⟩
  | between p => exact ⟨_, r', hstep rfl, rfl, .between r' p⟩
  | within hc hq hbegun =>
    refine ⟨[], r₀, ?_, rfl, .within hc hq fun log a t hrest => ?_⟩
    · rw [← hshared]
      exact .nil
    · exact hbegun log a t (hrest.before h.moves_trans hmoves)

/-- **Step lemma**: a step of the lower service is a few steps of the upper one, that look the same. -/
theorem Agrees.step (h : L.Implements V V' impl) (hagrees : L.Agrees V V' impl C C') (hs : V.Step C l D) :
    ∃ ls D', V'.Run Service.Always C' ls D' ∧
      ls.filterMap (Label.event L.see') = [l].filterMap (Label.event L.see) ∧ L.Agrees V V' impl D D' := by
  obtain ⟨⟨k, r₀, r, hlow, hhigh, hpass⟩, hslot⟩ := hagrees
  cases hs with
  | arrive n i hn =>
    have hn' : C'.requests n = none := (hn ▸ hslot n).none_inv
    have hnew : L.Slot V V' impl (some (i, V.handler i)) (some (i, V'.handler i)) := by
      refine ⟨by rw [h.handler i]; rfl, fun j p hp => ?_⟩
      obtain ⟨rfl, rfl⟩ := Prod.mk.inj (Option.some.inj hp)
      exact h.direct i
    exact ⟨_, _, Service.Run.one (.arrive n i hn'), rfl, ⟨k, r₀, r, hlow, hhigh, hpass⟩, Slot.update hslot hnew⟩
  | @request n i d next a s hn ha =>
    obtain ⟨p, hn', hp, hcalls⟩ := (hn ▸ hslot n).inv
    cases p with
    | done b => cases hp
    | call c next' =>
      obtain ⟨d', ans, htranslate, hsee, hact⟩ := Direct.translate hcalls.1 next'
      obtain ⟨rfl, hnext⟩ := Program.call.inj (hp.trans htranslate)
      obtain rfl := eq_of_heq hnext
      obtain ⟨k', rfl, hupper⟩ := hact k r a s (hlow ▸ ha)
      refine ⟨_, _, Service.Run.one (.request hn' (hhigh ▸ hupper (L.abs r₀))), ?_,
        ⟨k', r₀, r, rfl, rfl, hpass⟩, Slot.update hslot ⟨rfl, fun j p hp => ?_⟩⟩
      · simp only [List.filterMap_cons, List.filterMap_nil, Label.event, hsee]
      · obtain ⟨rfl, rfl⟩ := Prod.mk.inj (Option.some.inj hp)
        exact hcalls.2 (ans a)
  | @respond n i b hn =>
    obtain ⟨p, hn', hp, hcalls⟩ := (hn ▸ hslot n).inv
    cases p with
    | call c next' =>
      obtain ⟨d, ans, htranslate, -⟩ := Direct.translate hcalls.1 next'
      cases hp.trans htranslate
    | done b' =>
      cases hp
      exact ⟨_, _, Service.Run.one (.respond hn'), rfl, ⟨k, r₀, r, hlow, hhigh, hpass⟩,
        Slot.update hslot ⟨rfl, fun _ _ hp => nomatch hp⟩⟩
  | wake hw =>
    rw [hw] at hpass
    generalize hx : C'.worker = x' at hpass
    cases hpass with
    | idle => exact ⟨_, _, Service.Run.one (.wake hx), rfl, ⟨k, r₀, r₀, hlow, hhigh, h.worker ▸ .between r₀ _⟩, hslot⟩
  | @work d next a s hw ha =>
    rw [hw] at hpass
    obtain ⟨p, hw'⟩ := hpass.some_inv
    rw [hw'] at hpass
    obtain ⟨ls, r₁, p', hrun, hls, hready⟩ := h.catchUp hpass hhigh hw'
    have hcaught : ({ C' with shared := L.high k (L.abs r₁), worker := some p' } : Config S σ' ι β ω).shared =
      L.high k (L.abs r₁) := rfl
    obtain ⟨ls', k', r₀', r', p'', rfl, hrun', hls', hpass'⟩ := hready.work h (hlow ▸ ha) hcaught rfl
    refine ⟨ls' ++ ls, _, hrun.trans hrun', ?_, ⟨k', r₀', r', rfl, rfl, hpass'⟩, hslot⟩
    rw [List.filterMap_append, hls, List.append_nil, hls']
  | @rest w hw =>
    rw [hw] at hpass
    obtain ⟨p, hw'⟩ := hpass.some_inv
    rw [hw'] at hpass
    obtain ⟨ls, r₁, p', hrun, hls, hready⟩ := h.catchUp hpass hhigh hw'
    obtain ⟨rfl, rfl⟩ := hready.rest_inv
    refine ⟨.rest w :: ls, _, hrun.cons trivial (.rest rfl), ?_, ⟨k, r₁, r₁, hlow, rfl, .idle r₁⟩, hslot⟩
    simp only [List.filterMap_cons, Label.event, hls, List.filterMap_nil]
  | @env s he =>
    rcases h.env k r s (hlow ▸ he) with ⟨k', rfl, hupper⟩ | ⟨r', rfl, hmoves⟩
    · exact ⟨_, _, Service.Run.one (.env (hhigh ▸ hupper (L.abs r₀))), rfl, ⟨k', r₀, r, rfl, rfl, hpass⟩, hslot⟩
    · obtain ⟨ls, r₀', hrun, hls, hpass'⟩ := h.moved hpass hmoves hhigh
      exact ⟨ls, _, hrun, hls, ⟨k, r₀', r', rfl, rfl, hpass'⟩, hslot⟩
  | crash =>
    obtain ⟨ls, hrun, hls⟩ := h.crash hpass hhigh rfl
    exact ⟨ls, _, hrun, hls, hlow ▸ agrees_idle k r⟩

/-- **Atomicity**: every run of the lower service has a run of the upper one beside it that looks the same. -/
theorem Agrees.run (h : L.Implements V V' impl) {C₀ : Config T σ ι β ω} {C₀' : Config S σ' ι β ω}
    {ls : List (Label T ι β ω)} {ok : _} (h₀ : L.Agrees V V' impl C₀ C₀') (hrun : V.Run ok C₀ ls C) :
    ∃ ls' C', V'.Run Service.Always C₀' ls' C' ∧
      ls'.filterMap (Label.event L.see') = ls.filterMap (Label.event L.see) ∧ L.Agrees V V' impl C C' := by
  induction hrun with
  | nil => exact ⟨[], C₀', .nil, rfl, h₀⟩
  | @cons ls C D l _ _ hs ih =>
    obtain ⟨ls', C', hrun', hls, hagrees⟩ := ih
    obtain ⟨ms, D', hms, hl, hagrees'⟩ := hagrees.step h hs
    refine ⟨ms ++ ls', D', hrun'.trans hms, ?_, hagrees'⟩
    rw [List.filterMap_append, hl, hls, ← List.filterMap_append]
    rfl

end Step
end Layout
end Interaction
