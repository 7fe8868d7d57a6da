import Quickspin.Lib.Service

/-! Runs in which one thread has the world to itself. Where `exec` answers every call in a way the
service allows, running a program by `exec` is a run of the service: a request served to its end, a
pass from wake to rest, or the first calls of a pass. The steps of such a run meet a condition when
the calls of the program, checked one after another, do. -/
namespace Interaction
set_option autoImplicit false

variable {S : Signature} {σ ι β ω α : Type}

/-- The labels of the first `k` calls of a thread, the latest first. -/
def Program.trace (exec : (c : S.Call) → σ → S.Answer c × σ) (tag : (c : S.Call) → S.Answer c → Label S ι β ω) :
    ℕ → Program S α → σ → List (Label S ι β ω)
  | 0, _, _ => []
  | _ + 1, .done _, _ => []
  | k + 1, .call c next, s => trace exec tag k (next (exec c s).1) (exec c s).2 ++ [tag c (exec c s).1]

/-- Every call of the program, run alone, passes the check `P` in the state it is issued in. -/
def Program.meets (exec : (c : S.Call) → σ → S.Answer c × σ) (P : (c : S.Call) → σ → S.Answer c → Bool) :
    Program S α → σ → Bool
  | .done _, _ => true
  | .call c next, s => P c s (exec c s).1 && (next (exec c s).1).meets exec P (exec c s).2

theorem Program.meets_true {exec : (c : S.Call) → σ → S.Answer c × σ} (p : Program S α) (s : σ) :
    p.meets exec (fun _ _ _ => true) s = true := by
  induction p generalizing s with
  | done a => rfl
  | call c next ih => exact ih _ _

/-- The step is one of the request. -/
def Label.Of (n : ℕ) (i : ι) (l : Label S ι β ω) : Prop :=
  l = .arrive n i ∨ (∃ c a, l = .request n i c a) ∨ ∃ b, l = .respond n i b

/-- The step is one of the worker. -/
def Label.OfWorker (l : Label S ι β ω) : Prop := l = .wake ∨ (∃ c a, l = .work c a) ∨ ∃ w, l = .rest w

namespace Service
variable {V : Service S σ ι β ω} {exec : (c : S.Call) → σ → S.Answer c × σ}
  {ok : List (Label S ι β ω) → Config S σ ι β ω → Label S ι β ω → Prop}
  {P : (c : S.Call) → σ → S.Answer c → Bool} {C₀ C : Config S σ ι β ω} {ls : List (Label S ι β ω)}

theorem Run.work_advance (hexec : ∀ c s, V.act c s (exec c s).1 (exec c s).2) (k : ℕ) {p : Program S ω}
    (h : C.worker = some p) : V.Run Always C (p.trace exec .work k C.shared)
      { C with shared := (p.advance exec k C.shared).2, worker := some (p.advance exec k C.shared).1 } := by
  induction k generalizing C p with
  | zero =>
    have he : ({ C with worker := some p } : Config S σ ι β ω) = C := by rw [← h]
    show V.Run Always C [] { C with worker := some p }
    rw [he]
    exact .nil
  | succ k ih =>
    cases p with
    | done w =>
      have he : ({ C with worker := some (.done w) } : Config S σ ι β ω) = C := by rw [← h]
      show V.Run Always C [] { C with worker := some (.done w) }
      rw [he]
      exact .nil
    | call c next => exact (Run.one (.work h (hexec c C.shared))).trans (ih rfl)

theorem exists_arrive {n : ℕ} (i : ι) (hn : C.requests n = none) : ∃ D, V.Step C (.arrive n i) D ∧
    D.shared = C.shared ∧ D.requests n = some (i, V.handler i) :=
  ⟨_, .arrive n i hn, rfl, Function.update_self ..⟩

theorem exists_request (hexec : ∀ c s, V.act c s (exec c s).1 (exec c s).2) {n : ℕ} {i : ι} {c : S.Call}
    {next : S.Answer c → Program S β} (hn : C.requests n = some (i, .call c next)) :
    ∃ D, V.Step C (.request n i c (exec c C.shared).1) D ∧ D.shared = (exec c C.shared).2 ∧
      D.requests n = some (i, next (exec c C.shared).1) :=
  ⟨_, .request hn (hexec c C.shared), rfl, Function.update_self ..⟩

/-! ## Under a condition -/

theorem Run.finish (hexec : ∀ c s, V.act c s (exec c s).1 (exec c s).2) {p : Program S ω}
    (h : V.Run ok C₀ ls C) (hw : C.worker = some p) (hp : p.meets exec P C.shared = true)
    (hok : ∀ ms C' l, V.Run ok C₀ (ms ++ ls) C' → (∀ x ∈ l :: ms, x.OfWorker) → (∀ c a, l = .work c a → P c C'.shared a = true) → ok (ms ++ ls) C' l) :
    ∃ ms, (∀ x ∈ ms, x.OfWorker) ∧ V.Run ok C₀ (.rest (p.run exec C.shared).1 :: ms ++ ls)
      { C with shared := (p.run exec C.shared).2, worker := none } := by
  induction p generalizing C ls with
  | done w =>
    have hrest : (Label.rest w : Label S ι β ω).OfWorker := .inr (.inr ⟨w, rfl⟩)
    exact ⟨[], by simp, h.cons (hok [] C _ h (by simpa using hrest) (by simp)) (.rest hw)⟩
  | call c next ih =>
    rw [Program.meets, Bool.and_eq_true] at hp
    have hlabel : (Label.work c (exec c C.shared).1 : Label S ι β ω).OfWorker := .inr (.inl ⟨c, _, rfl⟩)
    have hstep := h.cons (hok [] C _ h (by simpa using hlabel) fun c' a he => by
      obtain ⟨rfl, rfl⟩ := Label.work.inj he
      exact hp.1) (.work hw (hexec c C.shared))
    obtain ⟨ms, hms, hr⟩ := ih _ hstep rfl hp.2 fun ms C' l hr hl hP => by
      have := hok (ms ++ [.work c (exec c C.shared).1]) C' l (by simpa using hr) (by simpa [or_imp, forall_and, hlabel] using hl) hP
      simpa using this
    refine ⟨ms ++ [.work c (exec c C.shared).1], List.forall_mem_append.mpr ⟨hms, by simpa using hlabel⟩, by simpa using hr⟩

theorem Run.pass (hexec : ∀ c s, V.act c s (exec c s).1 (exec c s).2) (h : V.Run ok C₀ ls C)
    (hw : C.worker = none) (hp : V.worker.meets exec P C.shared = true)
    (hok : ∀ ms C' l, V.Run ok C₀ (ms ++ ls) C' → (∀ x ∈ l :: ms, x.OfWorker) → (∀ c a, l = .work c a → P c C'.shared a = true) → ok (ms ++ ls) C' l) :
    ∃ ms, (∀ x ∈ ms, x.OfWorker) ∧ V.Run ok C₀ (.rest (V.worker.run exec C.shared).1 :: ms ++ ls)
      { C with shared := (V.worker.run exec C.shared).2 } := by
  have hlabel : (Label.wake : Label S ι β ω).OfWorker := .inl rfl
  have hwake := h.cons (hok [] C _ h (by simpa using hlabel) (by simp)) (.wake hw)
  obtain ⟨ms, hms, hr⟩ := Run.finish hexec hwake rfl hp fun ms C' l hr hl hP => by
    have := hok (ms ++ [.wake]) C' l (by simpa using hr) (by simpa [or_imp, forall_and, hlabel] using hl) hP
    simpa using this
  rw [← hw] at hr
  refine ⟨ms ++ [.wake], List.forall_mem_append.mpr ⟨hms, by simpa using hlabel⟩, by simpa using hr⟩

theorem Run.answer (hexec : ∀ c s, V.act c s (exec c s).1 (exec c s).2) {n : ℕ} {i : ι} {p : Program S β}
    (h : V.Run ok C₀ ls C) (hn : C.requests n = some (i, p)) (hp : p.meets exec P C.shared = true)
    (hok : ∀ ms C' l, V.Run ok C₀ (ms ++ ls) C' → (∀ x ∈ l :: ms, x.Of n i) → (∀ c a, l = .request n i c a → P c C'.shared a = true) → ok (ms ++ ls) C' l) :
    ∃ ms, (∀ x ∈ ms, x.Of n i) ∧ V.Run ok C₀ (.respond n i (p.run exec C.shared).1 :: ms ++ ls)
      { C with shared := (p.run exec C.shared).2, requests := Function.update C.requests n none } := by
  induction p generalizing C ls with
  | done b =>
    have hresp : (Label.respond n i b : Label S ι β ω).Of n i := .inr (.inr ⟨b, rfl⟩)
    exact ⟨[], by simp, h.cons (hok [] C _ h (by simpa using hresp) (by simp)) (.respond hn)⟩
  | call c next ih =>
    rw [Program.meets, Bool.and_eq_true] at hp
    have hlabel : (Label.request n i c (exec c C.shared).1 : Label S ι β ω).Of n i := .inr (.inl ⟨c, _, rfl⟩)
    have hstep := h.cons (hok [] C _ h (by simpa using hlabel) fun c' a he => by
      obtain ⟨-, -, rfl, rfl⟩ := Label.request.inj he
      exact hp.1) (.request hn (hexec c C.shared))
    obtain ⟨ms, hms, hr⟩ := ih _ hstep (Function.update_self ..) hp.2 fun ms C' l hr hl hP => by
      have := hok (ms ++ [.request n i c (exec c C.shared).1]) C' l
        (by simpa using hr) (by simpa [or_imp, forall_and, hlabel] using hl) hP
      simpa using this
    rw [Function.update_idem] at hr
    refine ⟨ms ++ [.request n i c (exec c C.shared).1], List.forall_mem_append.mpr ⟨hms, by simpa using hlabel⟩, by simpa using hr⟩

theorem Run.serve (hexec : ∀ c s, V.act c s (exec c s).1 (exec c s).2) {n : ℕ} {i : ι} (h : V.Run ok C₀ ls C)
    (hn : C.requests n = none) (hp : (V.handler i).meets exec P C.shared = true)
    (hok : ∀ ms C' l, V.Run ok C₀ (ms ++ ls) C' → (∀ x ∈ l :: ms, x.Of n i) → (∀ c a, l = .request n i c a → P c C'.shared a = true) → ok (ms ++ ls) C' l) :
    ∃ ms, (∀ x ∈ ms, x.Of n i) ∧ V.Run ok C₀ (.respond n i ((V.handler i).run exec C.shared).1 :: ms ++ ls)
      { C with shared := ((V.handler i).run exec C.shared).2 } := by
  have hlabel : (Label.arrive n i : Label S ι β ω).Of n i := .inl rfl
  have harrive := h.cons (hok [] C _ h (by simpa using hlabel) (by simp)) (.arrive n i hn)
  obtain ⟨ms, hms, hr⟩ := Run.answer hexec harrive (Function.update_self ..) hp fun ms C' l hr hl hP => by
    have := hok (ms ++ [.arrive n i]) C' l (by simpa using hr) (by simpa [or_imp, forall_and, hlabel] using hl) hP
    simpa using this
  rw [Function.update_idem, ← hn, Function.update_eq_self] at hr
  refine ⟨ms ++ [.arrive n i], List.forall_mem_append.mpr ⟨hms, by simpa using hlabel⟩, by simpa using hr⟩

/-! ## Without a condition -/

theorem Run.thenServe (h : V.Run Always C₀ ls C) (hexec : ∀ c s, V.act c s (exec c s).1 (exec c s).2) (n : ℕ)
    (i : ι) (hn : C.requests n = none) :
    ∃ ms, V.Run Always C₀ (.respond n i ((V.handler i).run exec C.shared).1 :: ms ++ ls)
      { C with shared := ((V.handler i).run exec C.shared).2 } := by
  obtain ⟨ms, -, hs⟩ := Run.serve hexec h hn (Program.meets_true _ _) fun _ _ _ _ _ _ => trivial
  exact ⟨ms, hs⟩

/-- A request served by itself has arrived after what was before. -/
theorem Run.thenReply (h : V.Run Always C₀ ls C) (hexec : ∀ c s, V.act c s (exec c s).1 (exec c s).2) (n : ℕ)
    (i : ι) (hn : C.requests n = none) :
    ∃ ms, .arrive n i ∈ ms ∧ V.Run Always C₀ (.respond n i ((V.handler i).run exec C.shared).1 :: (ms ++ ls))
      { C with shared := ((V.handler i).run exec C.shared).2 } := by
  obtain ⟨ms, -, hr⟩ := Run.answer hexec (h.cons trivial (.arrive n i hn)) (Function.update_self ..)
    (Program.meets_true _ _) fun _ _ _ _ _ _ => trivial
  rw [Function.update_idem, ← hn, Function.update_eq_self] at hr
  exact ⟨ms ++ [.arrive n i], by simp, by simpa using hr⟩

theorem Run.thenPass (h : V.Run Always C₀ ls C) (hexec : ∀ c s, V.act c s (exec c s).1 (exec c s).2)
    (hw : C.worker = none) : ∃ ms, V.Run Always C₀ (.rest (V.worker.run exec C.shared).1 :: ms ++ ls)
      { C with shared := (V.worker.run exec C.shared).2 } := by
  obtain ⟨ms, -, hs⟩ := Run.pass hexec h hw (Program.meets_true _ _) fun _ _ _ _ _ _ => trivial
  exact ⟨ms, hs⟩

end Service
end Interaction
