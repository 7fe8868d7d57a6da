import Quickspin.Lib.Service

/-! What a thread has exchanged so far. A program `Tells` when each of its calls is justified by the
exchanges before it, and its result by all of them; along a run the exchanges of a thread are the labels
it has left behind. -/
namespace Interaction
set_option autoImplicit false

/-- A call with the answer it got. -/
abbrev Exchange (S : Signature) := (c : S.Call) × S.Answer c

variable {S : Signature} {σ ι β ω α γ : Type}

namespace Program

/-- After the exchanges `h`, the latest first: every call satisfies `T` of the exchanges before it, and
the result satisfies `Q` of all of them. -/
def Tells (T : List (Exchange S) → S.Call → Prop) (Q : List (Exchange S) → α → Prop) :
    List (Exchange S) → Program S α → Prop
  | h, .done a => Q h a
  | h, .call c next => T h c ∧ ∀ a, (next a).Tells T Q (⟨c, a⟩ :: h)

variable {T : List (Exchange S) → S.Call → Prop} {Q Q' : List (Exchange S) → α → Prop} {h : List (Exchange S)}

theorem Tells.mono {p : Program S α} (hp : p.Tells T Q h) (hQ : ∀ h a, Q h a → Q' h a) : p.Tells T Q' h := by
  induction p generalizing h with
  | done a => exact hQ h a hp
  | call c next ih => exact ⟨hp.1, fun a => ih a (hp.2 a)⟩

/-- Less is asked of the calls. -/
theorem Tells.weaken {T' : List (Exchange S) → S.Call → Prop} {p : Program S α} (hp : p.Tells T Q h)
    (hT : ∀ h c, T h c → T' h c) : p.Tells T' Q h := by
  induction p generalizing h with
  | done a => exact hp
  | call c next ih => exact ⟨hT h c hp.1, fun a => ih a (hp.2 a)⟩

theorem Tells.bind {R : List (Exchange S) → γ → Prop} {p : Program S α} {f : α → Program S γ}
    (hp : p.Tells T (fun h a => (f a).Tells T R h) h) : (p >>= f).Tells T R h := by
  induction p generalizing h with
  | done a => exact hp
  | call c next ih => exact ⟨hp.1, fun a => ih a (hp.2 a)⟩

theorem tells_true (p : Program S α) (h : List (Exchange S)) : p.Tells (fun _ _ => True) (fun _ _ => True) h := by
  induction p generalizing h with
  | done a => trivial
  | call c next ih => exact ⟨trivial, fun a => ih a _⟩

theorem Tells.calls {P : S.Call → Prop} {p : Program S α} (hp : p.Tells T Q h) (hT : ∀ h c, T h c → P c) :
    p.Calls P := by
  induction p generalizing h with
  | done a => trivial
  | call c next ih => exact ⟨hT h c hp.1, fun a => ih a (hp.2 a)⟩

/-- Calls of a kind that is justified wherever `I` holds of the exchanges, and keeps `I`. -/
theorem Calls.tells {P : S.Call → Prop} {I : List (Exchange S) → Prop} {p : Program S α} (hp : p.Calls P)
    (hT : ∀ h c, I h → P c → T h c) (hI : ∀ h c a, I h → P c → I (⟨c, a⟩ :: h)) (h₀ : I h) :
    p.Tells T (fun h _ => I h) h := by
  induction p generalizing h with
  | done a => exact h₀
  | call c next ih => exact ⟨hT h c h₀ hp.1, fun a => ih a (hp.2 a) (hI h c a h₀ hp.1)⟩

/-- Compiled code is justified where the implementation of every justified call is: `R` relates the exchanges of the source
to those of the compiled code. -/
theorem Tells.translate {U : Signature} {R : List (Exchange S) → List (Exchange U) → Prop}
    {impl : (c : S.Call) → Program U (S.Answer c)} {T' : List (Exchange U) → U.Call → Prop}
    {Q' : List (Exchange U) → α → Prop} {h' : List (Exchange U)} {p : Program S α} (hp : p.Tells T Q h) (hR : R h h')
    (himpl : ∀ h h' c, R h h' → T h c → (impl c).Tells T' (fun k a => R (⟨c, a⟩ :: h) k) h')
    (hQ : ∀ h h' a, R h h' → Q h a → Q' h' a) : (p.translate impl).Tells T' Q' h' := by
  induction p generalizing h h' with
  | done a => exact hQ h h' a hR hp
  | call c next ih => exact Tells.bind ((himpl h h' c hR hp.1).mono fun k a hk => ih a (hp.2 a) hk)

end Program

namespace Service
variable {V : Service S σ ι β ω} {ok : List (Label S ι β ω) → Config S σ ι β ω → Label S ι β ω → Prop}
  {C₀ C D : Config S σ ι β ω} {ls : List (Label S ι β ω)}

/-- The exchanges of the worker since it last woke, the latest first. -/
def passLog : List (Label S ι β ω) → List (Exchange S)
  | [] => []
  | .wake :: _ => []
  | .work c a :: ls => ⟨c, a⟩ :: passLog ls
  | _ :: ls => passLog ls

theorem passLog_of_ne {l : Label S ι β ω} (hwake : l ≠ .wake) (hwork : ∀ c a, l ≠ .work c a) :
    passLog (l :: ls) = passLog ls := by
  cases l with
  | wake => exact absurd rfl hwake
  | work c a => exact absurd rfl (hwork c a)
  | arrive | request | respond | rest | env | crash => rfl

/-- An exchange of the pass is a step of the run, and the worker has not woken since. -/
theorem mem_passLog {c : S.Call} {a : S.Answer c} (h : ⟨c, a⟩ ∈ passLog ls) :
    ∃ post pre, ls = post ++ .work c a :: pre ∧ .wake ∉ post := by
  induction ls with
  | nil => cases h
  | cons l ls ih =>
    by_cases hwake : l = .wake
    · subst hwake
      cases h
    by_cases hwork : ∃ c' a', l = .work c' a'
    · obtain ⟨c', a', rfl⟩ := hwork
      rcases List.mem_cons.mp h with he | h
      · cases he
        exact ⟨[], ls, rfl, by simp⟩
      · obtain ⟨post, pre, rfl, hpost⟩ := ih h
        exact ⟨_ :: post, pre, rfl, by simpa using hpost⟩
    · rw [passLog_of_ne hwake fun c a e => hwork ⟨c, a, e⟩] at h
      obtain ⟨post, pre, rfl, hpost⟩ := ih h
      exact ⟨l :: post, pre, rfl, by simpa [Ne.symm hwake] using hpost⟩

section Worker
variable {T : List (Exchange S) → S.Call → Prop} {Q : List (Exchange S) → ω → Prop}

/-- The pass in flight goes on from the exchanges it has had. -/
theorem Run.pass_tells (hW : V.worker.Tells T Q []) (h : V.Run ok C₀ ls C) (h₀ : C₀.worker = none)
    {p : Program S ω} (hp : C.worker = some p) : p.Tells T Q (passLog ls) := by
  induction h generalizing p with
  | nil =>
    rw [h₀] at hp
    cases hp
  | @cons ls C C' l _ _ hs ih =>
    rcases hs.pass hp with ⟨hp', hne⟩ | ⟨rfl, rfl⟩ | ⟨c, next, a, rfl, hp', rfl, -⟩
    · rw [passLog_of_ne ?_ hne]
      · exact ih hp'
      · rintro rfl
        cases hs with
        | wake hn =>
          rw [hp'] at hn
          cases hn
    · exact hW
    · exact (ih hp').2 a

/-- A call of the pass is justified by the exchanges before it. -/
theorem Run.work_tells (hW : V.worker.Tells T Q []) (h : V.Run ok C₀ ls C) (h₀ : C₀.worker = none) {c : S.Call}
    {a : S.Answer c} (hs : V.Step C (.work c a) D) : T (passLog ls) c := by
  cases hs with
  | work hw _ => exact (h.pass_tells hW h₀ hw).1

end Worker

section Requests
variable {T : ι → List (Exchange S) → S.Call → Prop} {Q : ι → List (Exchange S) → β → Prop} {n : ℕ} {i : ι}

/-- A request in flight goes on from exchanges it has had. -/
theorem Run.request_tells (hP : ∀ i, (V.handler i).Tells (T i) (Q i) []) (h : V.Run ok C₀ ls C)
    (h₀ : ∀ n, C₀.requests n = none) {p : Program S β} (hp : C.requests n = some (i, p)) :
    ∃ h, p.Tells (T i) (Q i) h ∧ ∀ x ∈ h, .request n i x.1 x.2 ∈ ls := by
  induction h generalizing p with
  | nil =>
    rw [h₀] at hp
    cases hp
  | @cons ls C C' l _ _ hs ih =>
    rcases hs.slot hp with ⟨hp', -⟩ | ⟨-, rfl⟩ | ⟨c, next, a, rfl, hp', rfl, -⟩
    · obtain ⟨h, ht, hm⟩ := ih hp'
      exact ⟨h, ht, fun x hx => List.mem_cons_of_mem _ (hm x hx)⟩
    · exact ⟨[], hP i, by simp⟩
    · obtain ⟨h, ht, hm⟩ := ih hp'
      refine ⟨_, ht.2 a, fun x hx => ?_⟩
      rcases List.mem_cons.mp hx with rfl | hx
      · exact List.mem_cons_self ..
      · exact List.mem_cons_of_mem _ (hm x hx)

/-- The exchanges of the request in the slot since it arrived, the latest first. -/
def slotLog (n : ℕ) : List (Label S ι β ω) → List (Exchange S)
  | [] => []
  | .arrive m _ :: ls => if m = n then [] else slotLog n ls
  | .request m _ c a :: ls => if m = n then ⟨c, a⟩ :: slotLog n ls else slotLog n ls
  | _ :: ls => slotLog n ls

/-- A request in flight goes on from the exchanges it has had. -/
theorem Run.slot_tells (hP : ∀ i, (V.handler i).Tells (T i) (Q i) []) (h : V.Run ok C₀ ls C)
    (h₀ : ∀ n, C₀.requests n = none) {p : Program S β} (hp : C.requests n = some (i, p)) :
    p.Tells (T i) (Q i) (slotLog n ls) := by
  induction h generalizing p with
  | nil =>
    rw [h₀] at hp
    cases hp
  | @cons ls C C' l _ _ hs ih =>
    rcases hs.slot hp with ⟨hp', hne⟩ | ⟨rfl, rfl⟩ | ⟨c, next, a, rfl, hp', rfl, -⟩
    · have hlog : slotLog n (l :: ls) = slotLog n ls := by
        cases l with
        | arrive m j =>
          refine if_neg fun he => ?_
          subst he
          cases hs with
          | arrive _ _ hfree =>
            rw [hp'] at hfree
            cases hfree
        | request m j c a =>
          refine if_neg fun he => ?_
          subst he
          cases hs with
          | request hm _ =>
            rw [hp'] at hm
            cases hm
            exact hne c a rfl
        | respond | wake | work | rest | env | crash => rfl
      rw [hlog]
      exact ih hp'
    · rw [slotLog, if_pos rfl]
      exact hP i
    · rw [slotLog, if_pos rfl]
      exact (ih hp').2 a

/-- A call of a request is justified by the exchanges before it. -/
theorem Run.request_call_tells (hP : ∀ i, (V.handler i).Tells (T i) (Q i) []) (h : V.Run ok C₀ ls C)
    (h₀ : ∀ n, C₀.requests n = none) {c : S.Call} {a : S.Answer c} (hs : V.Step C (.request n i c a) D) :
    T i (slotLog n ls) c := by
  cases hs with
  | request hn _ => exact (h.slot_tells hP h₀ hn).1

/-- A response is justified by the exchanges of the request. -/
theorem Run.respond_slot_tells (hP : ∀ i, (V.handler i).Tells (T i) (Q i) []) (h : V.Run ok C₀ ls C)
    (h₀ : ∀ n, C₀.requests n = none) {b : β} (hs : V.Step C (.respond n i b) D) : Q i (slotLog n ls) b := by
  cases hs with
  | respond hn => exact h.slot_tells hP h₀ hn

/-- What a request in flight has exchanged stands in the run since its arrival, the exchanges before it having come
before. -/
theorem Run.slotLog_append (h : V.Run ok C₀ ls C) (h₀ : ∀ n, C₀.requests n = none) {p : Program S β}
    (hp : C.requests n = some (i, p)) {x : Exchange S} {later before : List (Exchange S)}
    (hlog : slotLog n ls = later ++ x :: before) : ∃ post pre, ls = post ++ .request n i x.1 x.2 :: pre ∧
      .arrive n i ∈ pre ∧ (∀ j, .arrive n j ∉ post) ∧ slotLog n pre = before := by
  induction h generalizing p later with
  | nil =>
    rw [h₀] at hp
    cases hp
  | @cons ls C C' l hr _ hs ih =>
    have hearlier : ∀ {q : Program S β} {later : List (Exchange S)}, C.requests n = some (i, q) → (∀ j, .arrive n j ≠ l) →
        slotLog n ls = later ++ x :: before → ∃ post pre, l :: ls = post ++ .request n i x.1 x.2 :: pre ∧
          .arrive n i ∈ pre ∧ (∀ j, .arrive n j ∉ post) ∧ slotLog n pre = before := by
      intro q later hq hne hlog
      obtain ⟨post, pre, rfl, hin, hpost, hpre⟩ := ih hq hlog
      exact ⟨l :: post, pre, rfl, hin, fun j hj => (List.mem_cons.mp hj).elim (hne j) (hpost j), hpre⟩
    rcases hs.slot hp with ⟨hp', hne⟩ | ⟨rfl, rfl⟩ | ⟨c, next, a, rfl, hp', rfl, -⟩
    · have harrive : ∀ j, .arrive n j ≠ l := by
        rintro j rfl
        cases hs with
        | arrive _ _ hfree =>
          rw [hp'] at hfree
          cases hfree
      have hkept : slotLog n (l :: ls) = slotLog n ls := by
        cases l with
        | arrive m j => exact if_neg fun he => harrive j (by rw [he])
        | request m j c a =>
          refine if_neg fun he => ?_
          subst he
          cases hs with
          | request hm _ =>
            rw [hp'] at hm
            cases hm
            exact hne c a rfl
        | respond | wake | work | rest | env | crash => rfl
      exact hearlier hp' harrive (hkept.symm.trans hlog)
    · rw [slotLog, if_pos rfl] at hlog
      exact absurd hlog (by simp)
    · rw [slotLog, if_pos rfl] at hlog
      cases later with
      | nil =>
        obtain ⟨rfl, hbefore⟩ := List.cons.inj hlog
        exact ⟨[], ls, rfl, hr.arrived h₀ hp', by simp, hbefore⟩
      | cons y later => exact hearlier hp' (fun j => by simp) (List.cons.inj hlog).2

/-- The response of a request is justified by exchanges of the request. -/
theorem Run.respond_tells (hP : ∀ i, (V.handler i).Tells (T i) (Q i) []) (h : V.Run ok C₀ ls C)
    (h₀ : ∀ n, C₀.requests n = none) {b : β} (hb : .respond n i b ∈ ls) :
    ∃ h, Q i h b ∧ ∀ x ∈ h, .request n i x.1 x.2 ∈ ls := by
  induction h with
  | nil => cases hb
  | cons hr _ hs ih =>
    rcases List.mem_cons.mp hb with rfl | hb
    · cases hs with
      | respond hn =>
        obtain ⟨h, ht, hm⟩ := hr.request_tells hP h₀ hn
        exact ⟨h, ht, fun x hx => List.mem_cons_of_mem _ (hm x hx)⟩
    · obtain ⟨h, hq, hm⟩ := ih hb
      exact ⟨h, hq, fun x hx => List.mem_cons_of_mem _ (hm x hx)⟩

end Requests
end Service
end Interaction
