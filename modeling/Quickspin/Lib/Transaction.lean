import Mathlib.Tactic.Common

/-! All-or-nothing transactions. A body works on a copy of the database and either fails or
returns a value with the database it leaves; `atomically` opens the transaction, runs the body and
commits. Opening and committing can fail, and a commit that reports a failure may nevertheless
have taken effect. -/
namespace Relational
set_option autoImplicit false

/-- What the commit did: `failed` carries the reported error and whether the writes took effect. -/
inductive Commit (ε : Type)
  | applied
  | failed (e : ε) (tookEffect : Bool)

variable {τ ε α : Type}

def atomically (begin : Except ε Unit) (body : τ → Except ε (α × τ)) (commit : Commit ε) (t : τ) :
    Except ε α × τ :=
  match begin with
  | .error e => (.error e, t)
  | .ok () =>
    match body t with
    | .error e => (.error e, t)
    | .ok (a, t') =>
      match commit with
      | .applied => (.ok a, t')
      | .failed e tookEffect => (.error e, if tookEffect then t' else t)

/-- **All or nothing**: the database is as before, with an error, or as the body left it. -/
theorem atomically_cases {begin : Except ε Unit} {body : τ → Except ε (α × τ)} {commit : Commit ε}
    {t t' : τ} {r : Except ε α} (h : atomically begin body commit t = (r, t')) :
    (t' = t ∧ ∃ e, r = .error e ∧ (begin = .error e ∨ body t = .error e ∨
        ∃ applied, commit = .failed e applied)) ∨
      ∃ a, body t = .ok (a, t') ∧ (r = .ok a ∨ ∃ e, r = .error e ∧ commit = .failed e true) := by
  unfold atomically at h
  rcases begin with e | ⟨⟨⟩⟩
  · obtain ⟨rfl, rfl⟩ := Prod.mk.inj h
    exact .inl ⟨rfl, e, rfl, .inl rfl⟩
  rcases hb : body t with e | ⟨a, u⟩ <;> rw [hb] at h <;> dsimp only at h
  · obtain ⟨rfl, rfl⟩ := Prod.mk.inj h
    exact .inl ⟨rfl, e, rfl, .inr (.inl rfl)⟩
  rcases commit with _ | ⟨e, applied⟩ <;> obtain ⟨rfl, rfl⟩ := Prod.mk.inj h
  · exact .inr ⟨a, rfl, .inl rfl⟩
  · cases applied
    · exact .inl ⟨rfl, e, rfl, .inr (.inr ⟨_, rfl⟩)⟩
    · exact .inr ⟨a, rfl, .inr ⟨e, rfl, rfl⟩⟩

/-- **Rollback**: where a commit that fails is not applied, a transaction that reports an error changed nothing. -/
theorem rolled_back {begin : Except ε Unit} {body : τ → Except ε (α × τ)} {commit : Commit ε} {t t' : τ} {e : ε}
    (h : atomically begin body commit t = (.error e, t')) (hc : ∀ e, commit ≠ .failed e true) : t' = t := by
  rcases atomically_cases h with ⟨rfl, -⟩ | ⟨a, -, ha | ⟨e', -, he⟩⟩
  · rfl
  · cases ha
  · exact absurd he (hc e')

/-- A transaction nothing of which fails. -/
theorem atomically_applied {body : τ → Except ε (α × τ)} {t t' : τ} {a : α} (h : body t = .ok (a, t')) :
    atomically (.ok ()) body .applied t = (.ok a, t') := by
  simp [atomically, h]

end Relational
