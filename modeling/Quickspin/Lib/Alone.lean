import Quickspin.Lib.Trace

/-! Threads that have the world to themselves. A program `Completes` when it runs to its end with nothing
between its calls but what `drift` allows; the exchanges it has are listed in their order. A pass of a
service completes so, where the others drift. -/
namespace Interaction
set_option autoImplicit false

variable {S T : Signature} {σ ι β ω α γ : Type}

namespace Program

/-- From `s` the program comes to the result `b` and the state `t`, by the exchanges `log`. -/
def Completes (act : (c : S.Call) → σ → S.Answer c → σ → Prop) (drift : σ → σ → Prop) :
    Program S α → σ → List (Exchange S) → α → σ → Prop
  | .done a, s, log, b, t => log = [] ∧ b = a ∧ drift s t
  | .call c next, s, log, b, t => ∃ u x v rest, drift s u ∧ act c u x v ∧ log = ⟨c, x⟩ :: rest ∧
      (next x).Completes act drift v rest b t

section Completes
variable {act act' : (c : S.Call) → σ → S.Answer c → σ → Prop} {drift drift' : σ → σ → Prop} {s t u : σ}
  {log : List (Exchange S)}

theorem Completes.mono {p : Program S α} {b : α} (h : p.Completes act drift s log b t)
    (ha : ∀ c s x t, act c s x t → act' c s x t) (hd : ∀ s t, drift s t → drift' s t) :
    p.Completes act' drift' s log b t := by
  induction p generalizing s log with
  | done a =>
    obtain ⟨hlog, hb, hst⟩ := h
    exact ⟨hlog, hb, hd _ _ hst⟩
  | call c next ih =>
    obtain ⟨u, x, v, rest, hsu, hx, hlog, hnext⟩ := h
    exact ⟨u, x, v, rest, hd _ _ hsu, ha _ _ _ _ hx, hlog, ih x hnext⟩

theorem Completes.before {p : Program S α} {b : α} (htrans : ∀ s t u, drift s t → drift t u → drift s u)
    (hd : drift s u) (h : p.Completes act drift u log b t) : p.Completes act drift s log b t := by
  cases p with
  | done a =>
    obtain ⟨hlog, hb, hut⟩ := h
    exact ⟨hlog, hb, htrans _ _ _ hd hut⟩
  | call c next =>
    obtain ⟨v, x, w, rest, huv, hx, hlog, hnext⟩ := h
    exact ⟨v, x, w, rest, htrans _ _ _ hd huv, hx, hlog, hnext⟩

theorem Completes.after {p : Program S α} {b : α} (htrans : ∀ s t u, drift s t → drift t u → drift s u)
    (h : p.Completes act drift s log b t) (hd : drift t u) : p.Completes act drift s log b u := by
  induction p generalizing s log with
  | done a =>
    obtain ⟨hlog, hb, hst⟩ := h
    exact ⟨hlog, hb, htrans _ _ _ hst hd⟩
  | call c next ih =>
    obtain ⟨v, x, w, rest, hsv, hx, hlog, hnext⟩ := h
    exact ⟨v, x, w, rest, hsv, hx, hlog, ih x hnext⟩

/-- A relation that every call of the program and the drift keep holds from start to end. -/
theorem Completes.keeps {P : S.Call → Prop} {R : σ → σ → Prop} {p : Program S α} {b : α} (hp : p.Calls P)
    (htrans : ∀ s t u, R s t → R t u → R s u) (hact : ∀ c, P c → ∀ s x t, act c s x t → R s t)
    (hdrift : ∀ s t, drift s t → R s t) (h : p.Completes act drift s log b t) : R s t := by
  induction p generalizing s log with
  | done a => exact hdrift _ _ h.2.2
  | call c next ih =>
    obtain ⟨u, x, v, rest, hsu, hx, -, hnext⟩ := h
    exact htrans _ _ _ (hdrift _ _ hsu) (htrans _ _ _ (hact c hp.1 _ _ _ hx) (ih x (hp.2 x) hnext))

theorem Completes.calls {P : S.Call → Prop} {p : Program S α} {b : α} (hp : p.Calls P)
    (h : p.Completes act drift s log b t) : ∀ e ∈ log, P e.1 := by
  induction p generalizing s log with
  | done a =>
    rw [h.1]
    exact fun e he => nomatch he
  | call c next ih =>
    obtain ⟨u, x, v, rest, -, -, rfl, hnext⟩ := h
    intro e he
    rcases List.mem_cons.mp he with rfl | he
    · exact hp.1
    · exact ih x (hp.2 x) hnext e he

/-- **Two executions** of one program whose calls are answered alike from alike states: they have the same exchanges
and the same result, and end in alike states. -/
theorem Completes.agree {τ : Type} {actτ : (c : S.Call) → τ → S.Answer c → τ → Prop} {driftτ : τ → τ → Prop}
    {R : σ → τ → Prop} {P : S.Call → Prop} {p : Program S α} {b b' : α} {s' t' : τ} {log' : List (Exchange S)}
    (hp : p.Calls P) (hdrift : ∀ s t s' t', drift s t → driftτ s' t' → R s s' → R t t')
    (hact : ∀ c, P c → ∀ s x t s' x' t', R s s' → act c s x t → actτ c s' x' t' → x = x' ∧ R t t')
    (hR : R s s') (h : p.Completes act drift s log b t) (h' : p.Completes actτ driftτ s' log' b' t') :
    log = log' ∧ b = b' ∧ R t t' := by
  induction p generalizing s s' log log' with
  | done a =>
    obtain ⟨rfl, rfl, hst⟩ := h
    obtain ⟨rfl, rfl, hst'⟩ := h'
    exact ⟨rfl, rfl, hdrift _ _ _ _ hst hst' hR⟩
  | call c next ih =>
    obtain ⟨u, x, v, rest, hsu, hx, rfl, hnext⟩ := h
    obtain ⟨u', x', v', rest', hsu', hx', rfl, hnext'⟩ := h'
    obtain ⟨rfl, hR'⟩ := hact c hp.1 _ _ _ _ _ _ (hdrift _ _ _ _ hsu hsu' hR) hx hx'
    obtain ⟨rfl, hb, ht⟩ := ih x (hp.2 x) hR' hnext hnext'
    exact ⟨rfl, hb, ht⟩

/-- The calls of the program run alone, with the answers they get. -/
def exchanges (exec : (c : S.Call) → σ → S.Answer c × σ) : Program S α → σ → List (Exchange S)
  | .done _, _ => []
  | .call c next, s => ⟨c, (exec c s).1⟩ :: (next (exec c s).1).exchanges exec (exec c s).2

theorem mem_exchanges {exec : (c : S.Call) → σ → S.Answer c × σ} {p : Program S α} {c : S.Call} {a : S.Answer c}
    (h : ⟨c, a⟩ ∈ p.exchanges exec s) : ∃ u, a = (exec c u).1 := by
  induction p generalizing s with
  | done b => cases h
  | call c' next ih =>
    rcases List.mem_cons.mp h with he | h
    · cases he
      exact ⟨s, rfl⟩
    · exact ih _ h

/-- A program completes as it runs where every call, after what may drift before it, is answered as `act` allows. -/
theorem completes_drifting {exec : (c : S.Call) → σ → S.Answer c × σ} (hrefl : ∀ s, drift s s)
    (hexec : ∀ c s, ∃ u, drift s u ∧ act c u (exec c s).1 (exec c s).2) (p : Program S α) (s : σ) :
    p.Completes act drift s (p.exchanges exec s) (p.run exec s).1 (p.run exec s).2 := by
  induction p generalizing s with
  | done a => exact ⟨rfl, rfl, hrefl s⟩
  | call c next ih =>
    obtain ⟨u, hsu, hact⟩ := hexec c s
    exact ⟨u, _, _, _, hsu, hact, rfl, ih _ _⟩

theorem completes_exchanges {exec : (c : S.Call) → σ → S.Answer c × σ} (hrefl : ∀ s, drift s s)
    (hexec : ∀ c s, act c s (exec c s).1 (exec c s).2) (p : Program S α) (s : σ) :
    p.Completes act drift s (p.exchanges exec s) (p.run exec s).1 (p.run exec s).2 :=
  completes_drifting hrefl (fun c s => ⟨s, hrefl s, hexec c s⟩) p s

theorem completes_run {exec : (c : S.Call) → σ → S.Answer c × σ} (hrefl : ∀ s, drift s s)
    (hexec : ∀ c s, act c s (exec c s).1 (exec c s).2) (p : Program S α) (s : σ) :
    ∃ log, p.Completes act drift s log (p.run exec s).1 (p.run exec s).2 ∧
      ∀ c a, ⟨c, a⟩ ∈ log → ∃ u, a = (exec c u).1 :=
  ⟨_, completes_exchanges hrefl hexec p s, fun _ _ h => mem_exchanges h⟩

/-- What the exchanges of an execution have in common can be asked of its calls. -/
theorem Completes.restrict {P : (c : S.Call) → S.Answer c → Prop} {p : Program S α} {b : α}
    (h : p.Completes act drift s log b t) (hP : ∀ e ∈ log, P e.1 e.2) :
    p.Completes (fun c s x t => act c s x t ∧ P c x) drift s log b t := by
  induction p generalizing s log with
  | done a => exact h
  | call c next ih =>
    obtain ⟨u, x, v, rest, hsu, hx, rfl, hnext⟩ := h
    have hfirst : P c x := hP ⟨c, x⟩ (List.mem_cons_self ..)
    exact ⟨u, x, v, rest, hsu, ⟨hx, hfirst⟩, rfl, ih x hnext fun e he => hP e (List.mem_cons_of_mem _ he)⟩

theorem Completes.of_bind {p : Program S α} {f : α → Program S γ} {b : γ} (hrefl : ∀ s, drift s s)
    (h : (p >>= f).Completes act drift s log b t) : ∃ l l' a u, log = l ++ l' ∧
      p.Completes act drift s l a u ∧ (f a).Completes act drift u l' b t := by
  induction p generalizing s log with
  | done a => exact ⟨[], log, a, s, rfl, ⟨rfl, rfl, hrefl s⟩, h⟩
  | call c next ih =>
    obtain ⟨u, x, v, rest, hsu, hx, rfl, hnext⟩ := h
    obtain ⟨l, l', a, w, rfl, hp, hf⟩ := ih x hnext
    exact ⟨⟨c, x⟩ :: l, l', a, w, rfl, ⟨u, x, v, l, hsu, hx, rfl, hp⟩, hf⟩

/-- Compiled code completes as its source does, an implementation's completion for each call. -/
theorem Completes.of_translate {impl : (c : S.Call) → Program T (S.Answer c)}
    {act : (c : T.Call) → σ → T.Answer c → σ → Prop} {p : Program S α} {b : α} {log : List (Exchange T)}
    (hrefl : ∀ s, drift s s) (h : (p.translate impl).Completes act drift s log b t) :
    ∃ log', p.Completes (fun c s x t => ∃ l, (impl c).Completes act drift s l x t) drift s log' b t := by
  induction p generalizing s log with
  | done a =>
    obtain ⟨-, hb, hst⟩ := h
    exact ⟨[], rfl, hb, hst⟩
  | call c next ih =>
    obtain ⟨l, l', x, v, -, himpl, hnext⟩ := Completes.of_bind (p := impl c) hrefl h
    obtain ⟨log', hlog'⟩ := ih x hnext
    exact ⟨⟨c, x⟩ :: log', s, x, v, log', hrefl s, ⟨l, himpl⟩, rfl, hlog'⟩

end Completes

end Program

/-! ## Passes of a service -/

namespace Service
variable {V : Service S σ ι β ω} {C D : Config S σ ι β ω} {I : Config S σ ι β ω → Prop} {R : σ → σ → Prop}
  {P : Label S ι β ω → Prop}

/-- While the others move the shared state by `R`, what the pass has left completes it; the exchanges in between are
steps of the run. -/
theorem Run.completing {p : Program S ω} {ms : List (Label S ι β ω)} (hrefl : ∀ s, R s s)
    (htrans : ∀ s t u, R s t → R t u → R s u) (hI : ∀ C l D, V.Step C l D → I C → I D)
    (hothers : ∀ C l D, V.Step C l D → I C → P l → R C.shared D.shared ∧ D.worker = C.worker)
    (hw : C.worker = some p) (hC : I C) (h : V.Run Always C ms D) (hms : ∀ l ∈ ms, (∃ c a, l = .work c a) ∨ P l) :
    I D ∧ ∃ q log, D.worker = some q ∧ (∀ c a, ⟨c, a⟩ ∈ log → .work c a ∈ ms) ∧
      ∀ log' b t, q.Completes V.act R D.shared log' b t → p.Completes V.act R C.shared (log ++ log') b t := by
  induction h with
  | nil => exact ⟨hC, p, [], hw, fun _ _ h => (nomatch h), fun _ _ _ h => h⟩
  | @cons ms C₁ C₂ l _ _ hs ih =>
    obtain ⟨hC₁, q, log, hq, hmem, hlog⟩ := ih fun l hl => hms l (List.mem_cons_of_mem _ hl)
    have hold : ∀ c a, ⟨c, a⟩ ∈ log → .work c a ∈ l :: ms := fun c a hm => List.mem_cons_of_mem _ (hmem c a hm)
    refine ⟨hI _ _ _ hs hC₁, ?_⟩
    rcases hms l (List.mem_cons_self ..) with ⟨c, a, rfl⟩ | hP
    · cases hs with
      | @work c next a s hw' ha =>
        obtain rfl : q = .call c next := Option.some.inj (hq.symm.trans hw')
        refine ⟨next a, log ++ [⟨c, a⟩], rfl, fun c' a' hm => ?_, fun log' b t h => ?_⟩
        · rcases List.mem_append.mp hm with hm | hm
          · exact hold c' a' hm
          · cases List.mem_singleton.mp hm
            exact List.mem_cons_self ..
        · rw [List.append_assoc]
          exact hlog _ _ _ ⟨_, a, s, log', hrefl _, ha, rfl, h⟩
    · obtain ⟨hR, hsame⟩ := hothers _ _ _ hs hC₁ hP
      exact ⟨q, log, hsame.trans hq, hold, fun log' b t h => hlog _ _ _ (h.before htrans hR)⟩

/-- **A pass among others** completes its program. -/
theorem Run.completes {p : Program S ω} {w : ω} {ms : List (Label S ι β ω)} {E : Config S σ ι β ω}
    (hrefl : ∀ s, R s s) (htrans : ∀ s t u, R s t → R t u → R s u) (hI : ∀ C l D, V.Step C l D → I C → I D)
    (hothers : ∀ C l D, V.Step C l D → I C → P l → R C.shared D.shared ∧ D.worker = C.worker)
    (hw : C.worker = some p) (hC : I C) (h : V.Run Always C ms D) (hms : ∀ l ∈ ms, (∃ c a, l = .work c a) ∨ P l)
    (hrest : V.Step D (.rest w) E) : ∃ log, (∀ c a, ⟨c, a⟩ ∈ log → .work c a ∈ ms) ∧
      p.Completes V.act R C.shared log w E.shared := by
  obtain ⟨-, q, log, hq, hmem, hlog⟩ := h.completing hrefl htrans hI hothers hw hC hms
  cases hrest with
  | rest hd =>
    obtain rfl : q = .done w := Option.some.inj (hq.symm.trans hd)
    have hend := hlog [] w D.shared ⟨rfl, rfl, hrefl _⟩
    rw [List.append_nil] at hend
    exact ⟨log, hmem, hend⟩

end Service
end Interaction
