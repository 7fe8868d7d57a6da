import Mathlib.Tactic.Common

/-! Programs that act on the world through calls. A `Program S α` is the code of one thread: it
either has finished with a value or waits for the answer to one call of the signature `S`. The
same text is run alone (`run`), cut off after some calls (`advance`), or compiled to a lower
signature (`translate`); the interleaved reading is in `Lib.Service`. -/
namespace Interaction
set_option autoImplicit false

/-- The calls a thread may issue and the type of each call's answer. -/
structure Signature where
  Call : Type
  Answer : Call → Type

inductive Program (S : Signature) (α : Type) : Type
  | done (a : α)
  | call (c : S.Call) (next : S.Answer c → Program S α)

namespace Program
variable {S T : Signature} {α β γ σ : Type}

protected def bind : Program S α → (α → Program S β) → Program S β
  | .done a, f => f a
  | .call c next, f => .call c (fun a => (next a).bind f)

instance : Monad (Program S) where
  pure := .done
  bind := Program.bind

/-- The thread that issues one call and returns its answer. -/
def perform (c : S.Call) : Program S (S.Answer c) := .call c .done

@[simp] theorem pure_eq (a : α) : (pure a : Program S α) = .done a := rfl

@[simp] theorem done_bind (a : α) (f : α → Program S β) : (Program.done a >>= f) = f a := rfl

@[simp] theorem call_bind (c : S.Call) (next : S.Answer c → Program S α) (f : α → Program S β) :
    (Program.call c next >>= f) = .call c (fun a => next a >>= f) := rfl

@[simp] theorem perform_bind (c : S.Call) (f : S.Answer c → Program S β) :
    (perform c >>= f) = .call c f := rfl

theorem bind_assoc (p : Program S α) (f : α → Program S β) (g : β → Program S γ) :
    ((p >>= f) >>= g) = (p >>= fun a => f a >>= g) := by
  induction p with
  | done a => rfl
  | call c next ih =>
    simp only [call_bind]
    congr 1
    funext a
    exact ih a

/-! ## Running alone -/

/-- Run to the end, every call answered by `exec`. -/
def run (exec : (c : S.Call) → σ → S.Answer c × σ) : Program S α → σ → α × σ
  | .done a, s => (a, s)
  | .call c next, s => (next (exec c s).1).run exec (exec c s).2

/-- The thread and the state after at most `n` calls. -/
def advance (exec : (c : S.Call) → σ → S.Answer c × σ) : ℕ → Program S α → σ → Program S α × σ
  | 0, p, s => (p, s)
  | _ + 1, .done a, s => (.done a, s)
  | n + 1, .call c next, s => advance exec n (next (exec c s).1) (exec c s).2

section Run
variable (exec : (c : S.Call) → σ → S.Answer c × σ)

@[simp] theorem run_done (a : α) (s : σ) : (Program.done a : Program S α).run exec s = (a, s) := rfl

@[simp] theorem run_call (c : S.Call) (next : S.Answer c → Program S α) (s : σ) :
    (Program.call c next).run exec s = (next (exec c s).1).run exec (exec c s).2 := rfl

theorem run_bind (p : Program S α) (f : α → Program S β) (s : σ) :
    (p >>= f).run exec s = (f (p.run exec s).1).run exec (p.run exec s).2 := by
  induction p generalizing s with
  | done a => rfl
  | call c next ih => exact ih _ _

end Run

/-! ## Compiling calls -/

/-- Replace every call by the program that implements it. -/
def translate (impl : (c : S.Call) → Program T (S.Answer c)) : Program S α → Program T α
  | .done a => .done a
  | .call c next => impl c >>= fun a => (next a).translate impl

section Translate
variable (impl : (c : S.Call) → Program T (S.Answer c))

@[simp] theorem translate_done (a : α) : (Program.done a : Program S α).translate impl = .done a := rfl

@[simp] theorem translate_call (c : S.Call) (next : S.Answer c → Program S α) :
    (Program.call c next).translate impl = (impl c >>= fun a => (next a).translate impl) := rfl

theorem translate_bind (p : Program S α) (f : α → Program S β) :
    (p >>= f).translate impl = (p.translate impl >>= fun a => (f a).translate impl) := by
  induction p with
  | done a => rfl
  | call c next ih =>
    rw [call_bind, translate_call, translate_call, bind_assoc]
    congr 1
    funext a
    exact ih a

end Translate

/-! ## The calls a program can issue -/

/-- Every call the program can come to, whatever the answers before it, satisfies `T` together with
what the program goes on with. -/
def Nodes (T : (c : S.Call) → (S.Answer c → Program S α) → Prop) : Program S α → Prop
  | .done _ => True
  | .call c next => T c next ∧ ∀ a, (next a).Nodes T

theorem nodes_true (p : Program S α) : p.Nodes fun _ _ => True := by
  induction p with
  | done a => trivial
  | call c next ih => exact ⟨trivial, ih⟩

theorem Nodes.mono {T U : (c : S.Call) → (S.Answer c → Program S α) → Prop} {p : Program S α} (hp : p.Nodes T)
    (h : ∀ c next, T c next → U c next) : p.Nodes U := by
  induction p with
  | done a => trivial
  | call c next ih => exact ⟨h c next hp.1, fun a => ih a (hp.2 a)⟩

/-- Every call the program can come to satisfies `P`. -/
abbrev Calls (P : S.Call → Prop) (p : Program S α) : Prop := p.Nodes fun c _ => P c

section Calls
variable {P Q : S.Call → Prop}

theorem Calls.mono {p : Program S α} (hp : p.Calls P) (h : ∀ c, P c → Q c) : p.Calls Q := by
  induction p with
  | done a => trivial
  | call c next ih => exact ⟨h c hp.1, fun a => ih a (hp.2 a)⟩

theorem Calls.bind {p : Program S α} {f : α → Program S β} (hp : p.Calls P)
    (hf : ∀ a, (f a).Calls P) : (p >>= f).Calls P := by
  induction p with
  | done a => exact hf a
  | call c next ih => exact ⟨hp.1, fun a => ih a (hp.2 a)⟩

theorem Calls.translate {R : T.Call → Prop} {impl : (c : S.Call) → Program T (S.Answer c)}
    {p : Program S α} (hp : p.Calls P) (h : ∀ c, P c → (impl c).Calls R) :
    (p.translate impl).Calls R := by
  induction p with
  | done a => trivial
  | call c next ih => exact (h c hp.1).bind fun a => ih a (hp.2 a)

end Calls

end Program
end Interaction
