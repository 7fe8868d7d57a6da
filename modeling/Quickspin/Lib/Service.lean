import Quickspin.Lib.Program
import Mathlib.Logic.Function.Basic

/-! A service: one background worker and any number of request handlers over shared state, with
an environment that moves on its own and a process that may crash at any step. Every call is one
atomic step; between two calls of a thread anything else may happen. The rules below are the
rely-guarantee ones: a thread is `Safe` when it keeps the invariant under every interference its
rely allows, and a run of safe threads keeps the invariant (`Run.sound`). -/
namespace Interaction
set_option autoImplicit false

/-- `act` is what one call may do to the shared state, `env` what happens without the process. -/
structure Service (S : Signature) (σ ι β ω : Type) where
  act : (c : S.Call) → σ → S.Answer c → σ → Prop
  env : σ → σ → Prop
  handler : ι → Program S β
  worker : Program S ω

/-- The shared state, the worker's pass in flight and the requests in flight. -/
structure Config (S : Signature) (σ ι β ω : Type) where
  shared : σ
  worker : Option (Program S ω)
  requests : ℕ → Option (ι × Program S β)

inductive Label (S : Signature) (ι β ω : Type)
  | arrive (n : ℕ) (i : ι)
  | request (n : ℕ) (i : ι) (c : S.Call) (a : S.Answer c)
  | respond (n : ℕ) (i : ι) (b : β)
  | wake
  | work (c : S.Call) (a : S.Answer c)
  | rest (w : ω)
  | env
  | crash

variable {S : Signature} {σ ι β ω : Type}

/-- The step is a call `c` answered by `a`, whichever thread issued it. -/
def Label.Issues (l : Label S ι β ω) (c : S.Call) (a : S.Answer c) : Prop :=
  l = .work c a ∨ ∃ n i, l = .request n i c a

/-- No thread in flight. -/
def Config.idle (s : σ) : Config S σ ι β ω := ⟨s, none, fun _ => none⟩

namespace Service
variable (V : Service S σ ι β ω)

inductive Step : Config S σ ι β ω → Label S ι β ω → Config S σ ι β ω → Prop
  | arrive {C : Config S σ ι β ω} (n : ℕ) (i : ι) (h : C.requests n = none) :
      Step C (.arrive n i) { C with requests := Function.update C.requests n (some (i, V.handler i)) }
  | request {C : Config S σ ι β ω} {n : ℕ} {i : ι} {c : S.Call} {next : S.Answer c → Program S β}
      {a : S.Answer c} {s : σ} (h : C.requests n = some (i, .call c next)) (ha : V.act c C.shared a s) :
      Step C (.request n i c a)
        { C with shared := s, requests := Function.update C.requests n (some (i, next a)) }
  | respond {C : Config S σ ι β ω} {n : ℕ} {i : ι} {b : β} (h : C.requests n = some (i, .done b)) :
      Step C (.respond n i b) { C with requests := Function.update C.requests n none }
  | wake {C : Config S σ ι β ω} (h : C.worker = none) : Step C .wake { C with worker := some V.worker }
  | work {C : Config S σ ι β ω} {c : S.Call} {next : S.Answer c → Program S ω} {a : S.Answer c} {s : σ}
      (h : C.worker = some (.call c next)) (ha : V.act c C.shared a s) :
      Step C (.work c a) { C with shared := s, worker := some (next a) }
  | rest {C : Config S σ ι β ω} {w : ω} (h : C.worker = some (.done w)) :
      Step C (.rest w) { C with worker := none }
  | env {C : Config S σ ι β ω} {s : σ} (h : V.env C.shared s) : Step C .env { C with shared := s }
  | crash {C : Config S σ ι β ω} : Step C .crash (.idle C.shared)

/-- A run with its labels, the latest first, every step of which meets `ok`: what the run did so
far, the configuration before the step, and its label. -/
inductive Run (ok : List (Label S ι β ω) → Config S σ ι β ω → Label S ι β ω → Prop)
    (C₀ : Config S σ ι β ω) : List (Label S ι β ω) → Config S σ ι β ω → Prop
  | nil : Run ok C₀ [] C₀
  | cons {ls : List (Label S ι β ω)} {C D : Config S σ ι β ω} {l : Label S ι β ω}
      (h : Run ok C₀ ls C) (hok : ok ls C l) (hs : V.Step C l D) : Run ok C₀ (l :: ls) D

/-- No condition on the steps. -/
def Always : List (Label S ι β ω) → Config S σ ι β ω → Label S ι β ω → Prop := fun _ _ _ => True

variable {V} {ok ok' : List (Label S ι β ω) → Config S σ ι β ω → Label S ι β ω → Prop}
  {C₀ C D : Config S σ ι β ω} {ls ms : List (Label S ι β ω)}

theorem Run.start (V : Service S σ ι β ω) (ok : List (Label S ι β ω) → Config S σ ι β ω → Label S ι β ω → Prop)
    (C : Config S σ ι β ω) : V.Run ok C [] C := .nil

theorem Run.mono (h : V.Run ok C₀ ls C) (hk : ∀ ls C l, ok ls C l → ok' ls C l) : V.Run ok' C₀ ls C := by
  induction h with
  | nil => exact .nil
  | cons _ hok hs ih => exact .cons ih (hk _ _ _ hok) hs

theorem Run.trans (h₁ : V.Run Always C₀ ls C) (h₂ : V.Run Always C ms D) :
    V.Run Always C₀ (ms ++ ls) D := by
  induction h₂ with
  | nil => exact h₁
  | cons _ _ hs ih => exact .cons ih trivial hs

theorem Run.one {l : Label S ι β ω} (h : V.Step C l D) : V.Run Always C [l] D := .cons .nil trivial h

theorem Run.split {post pre : List (Label S ι β ω)} {l : Label S ι β ω} (h : V.Run ok C₀ (post ++ l :: pre) C) :
    ∃ C₁ C₂, V.Run ok C₀ pre C₁ ∧ V.Step C₁ l C₂ ∧ V.Run Always C₂ post C := by
  induction post generalizing C with
  | nil =>
    cases h with
    | cons hr _ hs => exact ⟨_, _, hr, hs, .nil⟩
  | cons x post ih =>
    cases h with
    | cons hr _ hs =>
      obtain ⟨C₁, C₂, h₁, h₂, h₃⟩ := ih hr
      exact ⟨C₁, C₂, h₁, h₂, h₃.cons trivial hs⟩

theorem Step.issued {l : Label S ι β ω} {c : S.Call} {a : S.Answer c} (h : V.Step C l D)
    (hl : l.Issues c a) : V.act c C.shared a D.shared := by
  rcases hl with rfl | ⟨n, i, rfl⟩
  · cases h with
    | work _ ha => exact ha
  · cases h with
    | request _ ha => exact ha

/-! ## One call at a time: relations every step keeps -/

/-- The shared state moves by `R` whenever every call and the environment do. -/
theorem Step.shared {R : σ → σ → Prop} {l : Label S ι β ω} (hrefl : ∀ s, R s s)
    (hact : ∀ c s a s', V.act c s a s' → R s s') (henv : ∀ s s', V.env s s' → R s s')
    (h : V.Step C l D) : R C.shared D.shared := by
  cases h with
  | request _ ha => exact hact _ _ _ _ ha
  | work _ ha => exact hact _ _ _ _ ha
  | env h => exact henv _ _ h
  | arrive | respond | wake | rest | crash => exact hrefl _

theorem Run.shared {R : σ → σ → Prop} (hrefl : ∀ s, R s s) (htrans : ∀ a b c, R a b → R b c → R a c)
    (hact : ∀ c s a s', V.act c s a s' → R s s') (henv : ∀ s s', V.env s s' → R s s')
    (h : V.Run ok C₀ ls C) : R C₀.shared C.shared := by
  induction h with
  | nil => exact hrefl _
  | cons _ _ hs ih => exact htrans _ _ _ ih (hs.shared hrefl hact henv)

/-- An invariant every call and the environment keep holds in every state of a run. -/
theorem Run.keeps {I : σ → Prop} (hact : ∀ c s a s', V.act c s a s' → I s → I s')
    (henv : ∀ s s', V.env s s' → I s → I s') (h : V.Run ok C₀ ls C) (h₀ : I C₀.shared) : I C.shared :=
  h.shared (R := fun s s' => I s → I s') (fun _ hi => hi) (fun _ _ _ h₁ h₂ hi => h₂ (h₁ hi)) hact henv h₀

/-! ## Where a thread in flight comes from -/

/-- A request in flight after a step was there before it, has just arrived, or has just had one of
its calls answered. -/
theorem Step.slot {l : Label S ι β ω} {m : ℕ} {j : ι} {p : Program S β} (h : V.Step C l D)
    (hm : D.requests m = some (j, p)) :
    (C.requests m = some (j, p) ∧ (∀ c a, l ≠ .request m j c a)) ∨ (l = .arrive m j ∧ p = V.handler j) ∨
      ∃ c next a, l = .request m j c a ∧ C.requests m = some (j, .call c next) ∧ p = next a ∧
        V.act c C.shared a D.shared := by
  cases h with
  | arrive n i _ =>
    by_cases hn : m = n
    · subst hn
      simp only [Function.update_self, Option.some.injEq, Prod.mk.injEq] at hm
      obtain ⟨rfl, rfl⟩ := hm
      exact .inr (.inl ⟨rfl, rfl⟩)
    · simp only [Function.update_of_ne hn] at hm
      exact .inl ⟨hm, by simp⟩
  | @request n i c next a s hn' ha =>
    by_cases hn : m = n
    · subst hn
      simp only [Function.update_self, Option.some.injEq, Prod.mk.injEq] at hm
      obtain ⟨rfl, rfl⟩ := hm
      exact .inr (.inr ⟨c, next, a, rfl, hn', rfl, ha⟩)
    · simp only [Function.update_of_ne hn] at hm
      refine .inl ⟨hm, fun c a e => hn ?_⟩
      simp only [Label.request.injEq] at e
      exact e.1.symm
  | @respond n i b _ =>
    by_cases hn : m = n
    · subst hn
      simp at hm
    · simp only [Function.update_of_ne hn] at hm
      exact .inl ⟨hm, by simp⟩
  | wake | work | rest | env => exact .inl ⟨hm, by simp⟩
  | crash => simp [Config.idle] at hm

theorem Step.pass {l : Label S ι β ω} {p : Program S ω} (h : V.Step C l D) (hm : D.worker = some p) :
    (C.worker = some p ∧ (∀ c a, l ≠ .work c a)) ∨ (l = .wake ∧ p = V.worker) ∨
      ∃ c next a, l = .work c a ∧ C.worker = some (.call c next) ∧ p = next a ∧
        V.act c C.shared a D.shared := by
  cases h with
  | wake _ => exact .inr (.inl ⟨rfl, (Option.some.inj hm).symm⟩)
  | @work c next a s hw ha => exact .inr (.inr ⟨c, next, a, rfl, hw, (Option.some.inj hm).symm, ha⟩)
  | rest _ => cases hm
  | crash => simp [Config.idle] at hm
  | arrive | request | respond | env => exact .inl ⟨hm, by simp⟩

theorem Run.arrived {n : ℕ} {i : ι} {p : Program S β} (h : V.Run ok C₀ ls C) (h₀ : ∀ n, C₀.requests n = none)
    (hn : C.requests n = some (i, p)) : .arrive n i ∈ ls := by
  induction h generalizing p with
  | nil =>
    rw [h₀] at hn
    cases hn
  | cons _ _ hs ih =>
    rcases hs.slot hn with ⟨hn', -⟩ | ⟨rfl, -⟩ | ⟨_, _, _, -, hn', -, -⟩
    · exact List.mem_cons_of_mem _ (ih hn')
    · exact List.mem_cons_self ..
    · exact List.mem_cons_of_mem _ (ih hn')

theorem Run.responded {n : ℕ} {i : ι} {b : β} (h : V.Run ok C₀ ls C) (h₀ : ∀ n, C₀.requests n = none)
    (hb : .respond n i b ∈ ls) : .arrive n i ∈ ls := by
  induction h with
  | nil => cases hb
  | cons hr _ hs ih =>
    rcases List.mem_cons.mp hb with rfl | hb
    · cases hs with
      | respond hn => exact List.mem_cons_of_mem _ (hr.arrived h₀ hn)
    · exact List.mem_cons_of_mem _ (ih hb)

/-- Every call a thread in flight has left is one its text allows. -/
structure Obeys (P : ι → (c : S.Call) → (S.Answer c → Program S β) → Prop)
    (W : (c : S.Call) → (S.Answer c → Program S ω) → Prop) (C : Config S σ ι β ω) : Prop where
  request : ∀ n i p, C.requests n = some (i, p) → p.Nodes (P i)
  worker : ∀ p, C.worker = some p → p.Nodes W

section Obeys
variable {P : ι → (c : S.Call) → (S.Answer c → Program S β) → Prop}
  {W : (c : S.Call) → (S.Answer c → Program S ω) → Prop}

theorem obeys_idle (s : σ) : Obeys P W (Config.idle s : Config S σ ι β ω) :=
  ⟨by simp [Config.idle], by simp [Config.idle]⟩

theorem Step.obeys {l : Label S ι β ω} (hP : ∀ i, (V.handler i).Nodes (P i)) (hW : V.worker.Nodes W)
    (h : V.Step C l D) (hC : Obeys P W C) : Obeys P W D := by
  constructor
  · intro m j p hm
    rcases h.slot hm with ⟨hm', -⟩ | ⟨-, rfl⟩ | ⟨c, next, a, -, hm', rfl, -⟩
    · exact hC.request m j p hm'
    · exact hP j
    · exact (hC.request m j _ hm').2 a
  · intro p hp
    rcases h.pass hp with ⟨hp', -⟩ | ⟨-, rfl⟩ | ⟨c, next, a, -, hp', rfl, -⟩
    · exact hC.worker p hp'
    · exact hW
    · exact (hC.worker _ hp').2 a

theorem Run.obeys (hP : ∀ i, (V.handler i).Nodes (P i)) (hW : V.worker.Nodes W) (h : V.Run ok C₀ ls C)
    (h₀ : Obeys P W C₀) : Obeys P W C := by
  induction h with
  | nil => exact h₀
  | cons _ _ hs ih => exact hs.obeys hP hW ih

/-- What moves the shared state: the environment, or a call the issuing thread's text allows. -/
theorem Step.moves {l : Label S ι β ω} (h : V.Step C l D) (hC : Obeys P W C) :
    D.shared = C.shared ∨ V.env C.shared D.shared ∨
      (∃ n i c a next, l = .request n i c a ∧ P i c next ∧ V.act c C.shared a D.shared) ∨
      ∃ c a next, l = .work c a ∧ W c next ∧ V.act c C.shared a D.shared := by
  cases h with
  | request hn ha => exact .inr (.inr (.inl ⟨_, _, _, _, _, rfl, (hC.request _ _ _ hn).1, ha⟩))
  | work hw ha => exact .inr (.inr (.inr ⟨_, _, _, rfl, (hC.worker _ hw).1, ha⟩))
  | env he => exact .inr (.inl he)
  | arrive | respond | wake | rest | crash => exact .inl rfl

/-- A call of a request, and what the request goes on with. -/
theorem Step.request_node {n : ℕ} {i : ι} {c : S.Call} {a : S.Answer c} (h : V.Step C (.request n i c a) D)
    (hC : Obeys P W C) : ∃ next, P i c next ∧ (∀ a, (next a).Nodes (P i)) ∧
      D.requests n = some (i, next a) ∧ V.act c C.shared a D.shared := by
  cases h with
  | request hn ha => exact ⟨_, (hC.request _ _ _ hn).1, (hC.request _ _ _ hn).2, Function.update_self .., ha⟩

end Obeys

/-- A request that neither answers nor is lost in a crash goes on with its own text. -/
theorem Run.slot {n : ℕ} {i : ι} {T : (c : S.Call) → (S.Answer c → Program S β) → Prop} (h : V.Run ok C ls D)
    (hC : ∃ p, C.requests n = some (i, p) ∧ p.Nodes T) (hr : ∀ i b, .respond n i b ∉ ls)
    (hc : Label.crash ∉ ls) : ∃ p, D.requests n = some (i, p) ∧ p.Nodes T := by
  induction h with
  | nil => exact hC
  | @cons ls C' D l _ _ hs ih =>
    obtain ⟨p, hp, hT⟩ := ih (fun i b hm => hr i b (List.mem_cons_of_mem _ hm))
      fun hm => hc (List.mem_cons_of_mem _ hm)
    cases hs with
    | @arrive m j hm =>
      have hne : n ≠ m := by
        rintro rfl
        rw [hp] at hm
        cases hm
      exact ⟨p, by simpa only [Function.update_of_ne hne] using hp, hT⟩
    | @request m j c next a s hm ha =>
      by_cases hne : n = m
      · subst hne
        rw [hp] at hm
        cases hm
        exact ⟨next a, Function.update_self .., hT.2 a⟩
      · exact ⟨p, by simpa only [Function.update_of_ne hne] using hp, hT⟩
    | @respond m j b hm =>
      have hne : n ≠ m := by
        rintro rfl
        exact hr j b (List.mem_cons_self ..)
      exact ⟨p, by simpa only [Function.update_of_ne hne] using hp, hT⟩
    | wake | work | rest | env => exact ⟨p, hp, hT⟩
    | crash => exact absurd (List.mem_cons_self ..) hc

end Service

/-! ## Rely and guarantee -/

/-- Whatever the others do by `R` between its calls, the thread finds `Inv` and keeps it, moves the
shared state by `G` only, and ends in `Q`. -/
def Program.Safe {α : Type} (act : (c : S.Call) → σ → S.Answer c → σ → Prop) (Inv : σ → Prop)
    (R G : σ → σ → Prop) (Q : α → σ → Prop) : Program S α → σ → Prop
  | .done a, s => ∀ s', R s s' → Inv s' → Q a s'
  | .call c next, s => ∀ s₁, R s s₁ → Inv s₁ → ∀ a s₂, act c s₁ a s₂ →
      Inv s₂ ∧ G s₁ s₂ ∧ (next a).Safe act Inv R G Q s₂

namespace Program
section Safe
variable {α γ : Type} {act : (c : S.Call) → σ → S.Answer c → σ → Prop} {Inv : σ → Prop}
  {R G : σ → σ → Prop} {Q : α → σ → Prop} {Q' : γ → σ → Prop} {s s' : σ}

theorem Safe.stable {p : Program S α} (htrans : ∀ a b c, R a b → R b c → R a c)
    (hp : p.Safe act Inv R G Q s) (h : R s s') : p.Safe act Inv R G Q s' := by
  cases p with
  | done a => exact fun t ht => hp t (htrans _ _ _ h ht)
  | call c next => exact fun t ht => hp t (htrans _ _ _ h ht)

/-- A thread that is safe wherever the others may have taken the state is safe now. -/
theorem safe_of_rely {p : Program S α} (hrefl : ∀ a, R a a)
    (hp : ∀ s', R s s' → Inv s' → p.Safe act Inv R G Q s') : p.Safe act Inv R G Q s := by
  cases p with
  | done a => exact fun t ht hi => hp t ht hi t (hrefl t) hi
  | call c next => exact fun t ht hi => hp t ht hi t (hrefl t) hi

theorem Safe.bind {p : Program S α} {f : α → Program S γ} (hrefl : ∀ a, R a a)
    (hp : p.Safe act Inv R G (fun a t => (f a).Safe act Inv R G Q' t) s) :
    (p >>= f).Safe act Inv R G Q' s := by
  induction p generalizing s with
  | done a => exact safe_of_rely hrefl hp
  | call c next ih =>
    intro s₁ h₁ hi a s₂ ha
    obtain ⟨hi₂, hg, hn⟩ := hp s₁ h₁ hi a s₂ ha
    exact ⟨hi₂, hg, ih a hn⟩

theorem Safe.mono {p : Program S α} {Q₂ : α → σ → Prop} (hp : p.Safe act Inv R G Q s)
    (h : ∀ a t, Q a t → Q₂ a t) : p.Safe act Inv R G Q₂ s := by
  induction p generalizing s with
  | done a => exact fun t ht hi => h a t (hp t ht hi)
  | call c next ih =>
    intro s₁ h₁ hi a s₂ ha
    obtain ⟨hi₂, hg, hn⟩ := hp s₁ h₁ hi a s₂ ha
    exact ⟨hi₂, hg, ih a hn⟩

/-- A thread none of whose calls can break the invariant or the guarantee needs no rely. -/
theorem Calls.safe {P : S.Call → Prop} {p : Program S α} (hp : p.Calls P)
    (h : ∀ c, P c → ∀ s a s', act c s a s' → Inv s → Inv s' ∧ G s s') (s : σ) :
    p.Safe act Inv R G (fun _ _ => True) s := by
  induction p generalizing s with
  | done a => exact fun _ _ _ => trivial
  | call c next ih =>
    intro s₁ _ hi a s₂ ha
    obtain ⟨hi₂, hg⟩ := h c hp.1 s₁ a s₂ ha hi
    exact ⟨hi₂, hg, ih a (hp.2 a) s₂⟩

end Safe
end Program

namespace Service

/-- A proof outline of a service whose calls are issued only where `lim` allows: the invariant,
what the worker and the requests each tolerate, and what a request has reached when it answers. -/
structure Outline (V : Service S σ ι β ω) (lim : S.Call → σ → Prop) where
  Inv : σ → Prop
  relyW : σ → σ → Prop
  relyQ : σ → σ → Prop
  postQ : ι → β → σ → Prop
  reflW : ∀ s, relyW s s
  transW : ∀ s t u, relyW s t → relyW t u → relyW s u
  reflQ : ∀ s, relyQ s s
  transQ : ∀ s t u, relyQ s t → relyQ t u → relyQ s u
  env : ∀ s s', V.env s s' → Inv s → Inv s' ∧ relyW s s' ∧ relyQ s s'
  worker : ∀ s, Inv s → V.worker.Safe (fun c s a s' => lim c s ∧ V.act c s a s') Inv relyW relyQ
    (fun _ _ => True) s
  handler : ∀ i s, Inv s → (V.handler i).Safe (fun c s a s' => lim c s ∧ V.act c s a s') Inv relyQ
    (fun s s' => relyW s s' ∧ relyQ s s') (postQ i) s

namespace Outline
variable {V : Service S σ ι β ω} {lim : S.Call → σ → Prop} (O : Outline V lim)

/-- The outline holds of a configuration: its invariant, and every thread in flight is safe. -/
structure Holds (C : Config S σ ι β ω) : Prop where
  inv : O.Inv C.shared
  worker : ∀ p, C.worker = some p → p.Safe (fun c s a s' => lim c s ∧ V.act c s a s') O.Inv O.relyW
    O.relyQ (fun _ _ => True) C.shared
  request : ∀ n i p, C.requests n = some (i, p) → p.Safe (fun c s a s' => lim c s ∧ V.act c s a s')
    O.Inv O.relyQ (fun s s' => O.relyW s s' ∧ O.relyQ s s') (O.postQ i) C.shared

theorem holds_idle {s : σ} (h : O.Inv s) : O.Holds (.idle s) :=
  ⟨h, by simp [Config.idle], by simp [Config.idle]⟩

/-- The step meets the limit on calls. -/
def Within (lim : S.Call → σ → Prop) :
    List (Label S ι β ω) → Config S σ ι β ω → Label S ι β ω → Prop
  | _, C, .request _ _ c _ => lim c C.shared
  | _, C, .work c _ => lim c C.shared
  | _, _, _ => True

theorem within_always {C₀ C : Config S σ ι β ω} {ls : List (Label S ι β ω)} (h : V.Run Always C₀ ls C) :
    V.Run (Within fun _ _ => True) C₀ ls C :=
  h.mono fun _ _ l _ => by cases l <;> trivial

variable {O} {ls : List (Label S ι β ω)} {C D : Config S σ ι β ω} {l : Label S ι β ω}

/-- What one step leaves of the shared state, for the threads that did not take it. -/
theorem Holds.moved (h : O.Holds C) (hok : Within lim ls C l) (hs : V.Step C l D) :
    O.Inv D.shared ∧ O.relyQ C.shared D.shared ∧
      ((∀ c a, l ≠ .work c a) → O.relyW C.shared D.shared) := by
  cases hs with
  | request hn ha =>
    obtain ⟨hi, hg, -⟩ := h.request _ _ _ hn _ (O.reflQ _) h.inv _ _ ⟨hok, ha⟩
    exact ⟨hi, hg.2, fun _ => hg.1⟩
  | work hw ha =>
    obtain ⟨hi, hg, -⟩ := h.worker _ hw _ (O.reflW _) h.inv _ _ ⟨hok, ha⟩
    exact ⟨hi, hg, fun hne => absurd rfl (hne _ _)⟩
  | env he =>
    obtain ⟨hi, hw, hq⟩ := O.env _ _ he h.inv
    exact ⟨hi, hq, fun _ => hw⟩
  | arrive | respond | wake | rest | crash => exact ⟨h.inv, O.reflQ _, fun _ => O.reflW _⟩

theorem Holds.step (h : O.Holds C) (hok : Within lim ls C l) (hs : V.Step C l D) : O.Holds D := by
  obtain ⟨hi, hq, hw⟩ := h.moved hok hs
  refine ⟨hi, fun p hp => ?_, fun n i p hp => ?_⟩
  · rcases hs.pass hp with ⟨hp', hne⟩ | ⟨-, rfl⟩ | ⟨c, next, a, rfl, hp', rfl, ha⟩
    · exact (h.worker p hp').stable O.transW (hw hne)
    · exact O.worker _ hi
    · exact (h.worker _ hp' _ (O.reflW _) h.inv a _ ⟨hok, ha⟩).2.2
  · rcases hs.slot hp with ⟨hp', -⟩ | ⟨-, rfl⟩ | ⟨c, next, a, rfl, hp', rfl, ha⟩
    · exact (h.request n i p hp').stable O.transQ hq
    · exact O.handler i _ hi
    · exact (h.request n i _ hp' _ (O.reflQ _) h.inv a _ ⟨hok, ha⟩).2.2

/-- **Soundness**: every configuration a run within the limit reaches satisfies the outline. -/
theorem sound {C₀ : Config S σ ι β ω} (h₀ : O.Holds C₀) (h : V.Run (Within lim) C₀ ls C) : O.Holds C := by
  induction h with
  | nil => exact h₀
  | cons _ hok hs ih => exact ih.step hok hs

/-- A request that answers has reached its postcondition. -/
theorem Holds.respond {n : ℕ} {i : ι} {b : β} (h : O.Holds C) (hs : V.Step C (.respond n i b) D) :
    O.postQ i b D.shared := by
  cases hs with
  | respond hn => exact h.request _ _ _ hn _ (O.reflQ _) h.inv

end Outline
end Service
end Interaction
