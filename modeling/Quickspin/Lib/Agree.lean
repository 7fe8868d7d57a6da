import Quickspin.Lib.Transaction

/-! Two computations that fail alike. `Agree R` says that two results are the same error, or values related by
`R`; sequencing and transactions keep it. -/
namespace Relational
set_option autoImplicit false

variable {ε α β γ δ σ τ : Type}

inductive Agree (R : α → β → Prop) : Except ε α → Except ε β → Prop
  | error (e : ε) : Agree R (.error e) (.error e)
  | ok {a : α} {b : β} (h : R a b) : Agree R (.ok a) (.ok b)

section Agree
variable {R : α → β → Prop} {Q : γ → δ → Prop} {x : Except ε α} {y : Except ε β}

theorem agree_same (z : Except ε α) : Agree Eq z z := by
  cases z with
  | error e => exact .error e
  | ok a => exact .ok rfl

/-- What a value of the first computation satisfies may be added. -/
theorem Agree.and {P : α → Prop} (h : Agree R x y) (hP : ∀ a, x = .ok a → P a) :
    Agree (fun a b => R a b ∧ P a) x y := by
  cases h with
  | error e => exact .error e
  | ok h => exact .ok ⟨h, hP _ rfl⟩

theorem Agree.bind {f : α → Except ε γ} {g : β → Except ε δ} (h : Agree R x y)
    (hf : ∀ a b, R a b → Agree Q (f a) (g b)) : Agree Q (x >>= f) (y >>= g) := by
  cases h with
  | error e => exact .error e
  | ok h => exact hf _ _ h

theorem Agree.mapError {ε' : Type} (g : ε → ε') (h : Agree R x y) : Agree R (x.mapError g) (y.mapError g) := by
  cases h with
  | error e => exact .error (g e)
  | ok h => exact .ok h

/-- Transactions whose bodies agree answer alike, and leave related databases. -/
theorem atomically_agree {P : σ → τ → Prop} {begin : Except ε Unit} {body : σ → Except ε (α × σ)}
    {body' : τ → Except ε (α × τ)} {commit : Commit ε} {s : σ} {t : τ} (hP : P s t)
    (hbody : Agree (fun a b => a.1 = b.1 ∧ P a.2 b.2) (body s) (body' t)) :
    (atomically begin body commit s).1 = (atomically begin body' commit t).1 ∧
      P (atomically begin body commit s).2 (atomically begin body' commit t).2 := by
  unfold atomically
  cases begin with
  | error e => exact ⟨rfl, hP⟩
  | ok u =>
    dsimp only
    generalize body s = x at hbody
    generalize body' t = y at hbody
    cases hbody with
    | error e => exact ⟨rfl, hP⟩
    | @ok a b h =>
      obtain ⟨ha, hs⟩ := h
      cases commit with
      | applied => exact ⟨congrArg _ ha, hs⟩
      | failed e tookEffect =>
        refine ⟨rfl, ?_⟩
        cases tookEffect with
        | true => exact hs
        | false => exact hP

end Agree
end Relational
