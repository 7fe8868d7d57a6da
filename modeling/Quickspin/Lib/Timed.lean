import Quickspin.Lib.Trace

/-! Threads among clocks. A program `Spans` a stretch of time when it runs to its end, each call answered at an
instant of its own, none before the one of the call before it; which answers a call may have depends on the
instant. -/
namespace Interaction
set_option autoImplicit false

/-- An exchange with its instant. -/
abbrev Timed (S : Signature) := ℕ × Exchange S

variable {S T : Signature} {σ α β : Type}

namespace Program

/-- From the instant `t` the program comes to the result `b` at the instant `u`, by the exchanges `log`. -/
def Spans (admits : ℕ → (c : S.Call) → S.Answer c → Prop) : Program S α → ℕ → List (Timed S) → α → ℕ → Prop
  | .done a, t, log, b, u => log = [] ∧ b = a ∧ t ≤ u
  | .call c next, t, log, b, u => ∃ v x rest, t ≤ v ∧ admits v c x ∧ log = (v, ⟨c, x⟩) :: rest ∧
      (next x).Spans admits v rest b u

variable {admits : ℕ → (c : S.Call) → S.Answer c → Prop} {t u : ℕ} {log : List (Timed S)} {b : α}

theorem Spans.le {p : Program S α} (h : p.Spans admits t log b u) : t ≤ u := by
  induction p generalizing t log with
  | done a => exact h.2.2
  | call c next ih =>
    obtain ⟨v, x, rest, htv, -, -, hnext⟩ := h
    exact Nat.le_trans htv (ih x hnext)

theorem Spans.instants {p : Program S α} (h : p.Spans admits t log b u) : ∀ e ∈ log, t ≤ e.1 ∧ e.1 ≤ u := by
  induction p generalizing t log with
  | done a =>
    rw [h.1]
    exact fun e he => nomatch he
  | call c next ih =>
    obtain ⟨v, x, rest, htv, -, rfl, hnext⟩ := h
    intro e he
    cases List.mem_cons.mp he with
    | inl he => exact he ▸ ⟨htv, hnext.le⟩
    | inr he =>
      have hrest := ih x hnext e he
      exact ⟨Nat.le_trans htv hrest.1, hrest.2⟩

theorem Spans.calls {P : S.Call → Prop} {p : Program S α} (hp : p.Calls P) (h : p.Spans admits t log b u) :
    ∀ e ∈ log, P e.2.1 := by
  induction p generalizing t log with
  | done a =>
    rw [h.1]
    exact fun e he => nomatch he
  | call c next ih =>
    obtain ⟨v, x, rest, -, -, rfl, hnext⟩ := h
    intro e he
    cases List.mem_cons.mp he with
    | inl he => exact he ▸ hp.1
    | inr he => exact ih x (hp.2 x) hnext e he

theorem Spans.of_bind {p : Program S α} {f : α → Program S β} {b : β} (h : (p >>= f).Spans admits t log b u) :
    ∃ l l' a v, log = l ++ l' ∧ p.Spans admits t l a v ∧ (f a).Spans admits v l' b u := by
  induction p generalizing t log with
  | done a => exact ⟨[], log, a, t, rfl, ⟨rfl, rfl, Nat.le_refl t⟩, h⟩
  | call c next ih =>
    obtain ⟨v, x, rest, htv, hx, rfl, hnext⟩ := h
    obtain ⟨l, l', a, w, rfl, hp, hf⟩ := ih x hnext
    exact ⟨(v, ⟨c, x⟩) :: l, l', a, w, rfl, ⟨v, x, l, htv, hx, rfl, hp⟩, hf⟩

/-- What every result of the program satisfies, whatever the answers. -/
theorem Spans.result {H : List (Exchange S) → S.Call → Prop} {Q : α → Prop} {h : List (Exchange S)} {p : Program S α}
    (hp : p.Tells H (fun _ a => Q a) h) (hs : p.Spans admits t log b u) : Q b := by
  induction p generalizing t log h with
  | done a =>
    rw [hs.2.1]
    exact hp
  | call c next ih =>
    obtain ⟨v, x, rest, -, -, -, hnext⟩ := hs
    exact ih x (hp.2 x) hnext

theorem Spans.earlier {s : ℕ} {p : Program S α} (hst : s ≤ t) (h : p.Spans admits t log b u) :
    p.Spans admits s log b u := by
  cases p with
  | done a => exact ⟨h.1, h.2.1, Nat.le_trans hst h.2.2⟩
  | call c next =>
    obtain ⟨v, x, rest, htv, hx, hlog, hnext⟩ := h
    exact ⟨v, x, rest, Nat.le_trans hst htv, hx, hlog, hnext⟩

/-- Run with an answer for every call at every instant, one instant a call, a program spans its run. -/
theorem exists_spans {answer : (c : S.Call) → ℕ → S.Answer c} (hadmits : ∀ t c, admits t c (answer c t))
    (p : Program S α) (t : ℕ) :
    ∃ log u, p.Spans admits t log (p.run (fun c t => (answer c t, t + 1)) t).1 u := by
  induction p generalizing t with
  | done a => exact ⟨[], t, rfl, rfl, Nat.le_refl t⟩
  | call c next ih =>
    obtain ⟨log, u, hlog⟩ := ih (answer c t) (t + 1)
    exact ⟨_, u, t, answer c t, log, Nat.le_refl t, hadmits t c, rfl, hlog.earlier (Nat.le_succ t)⟩

end Program
end Interaction
