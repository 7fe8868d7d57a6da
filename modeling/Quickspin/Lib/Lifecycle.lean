import Mathlib.Data.List.Chain
import Mathlib.Logic.Relation
import Mathlib.Tactic.Common

/-! Histories of a versioned state. A history is the list of states an entity went through, every
step allowed by a transition relation; its version is its length. When a rank rises along every
transition, a history cannot be longer than the ranks allow, and a state of top rank is final. -/
namespace Versioned
set_option autoImplicit false

/-- A run through the transition relation that starts in `init`; a history is never empty. -/
structure History (α : Type) (Next : α → α → Prop) (init : α) where
  states : List α
  starts : states.head? = some init
  chain : states.IsChain Next

namespace History
variable {α : Type} {Next : α → α → Prop} {init : α}

theorem states_ne_nil (h : History α Next init) : h.states ≠ [] := fun e => by
  have := h.starts
  rw [e] at this
  cases this

/-- The state now. -/
def current (h : History α Next init) : α := h.states.getLast h.states_ne_nil

/-- The number of states so far. -/
def version (h : History α Next init) : ℕ := h.states.length

def start (init : α) : History α Next init := ⟨[init], rfl, List.isChain_singleton _⟩

/-- One more transition. -/
def extend (h : History α Next init) (a : α) (ha : Next h.current a) : History α Next init where
  states := h.states ++ [a]
  starts := by rw [List.head?_append_of_ne_nil _ h.states_ne_nil, h.starts]
  chain := by
    refine List.isChain_append.mpr ⟨h.chain, List.isChain_singleton _, ?_⟩
    intro x hx y hy
    rw [List.getLast?_eq_some_getLast h.states_ne_nil] at hx
    cases hx
    cases hy
    exact ha

/-- What holds of the first state and of whatever a transition reaches holds now. -/
theorem current_of_step {P : α → Prop} (h₀ : P init) (hstep : ∀ a b, Next a b → P b) (h : History α Next init) :
    P h.current := by
  have all : ∀ (l : List α) (a : α), P a → (a :: l).IsChain Next → ∀ b ∈ a :: l, P b := by
    intro l
    induction l with
    | nil =>
      intro a ha _ b hb
      rwa [List.mem_singleton.mp hb]
    | cons c l ih =>
      intro a ha hc b hb
      obtain ⟨hac, hl⟩ := List.isChain_cons_cons.mp hc
      rcases List.mem_cons.mp hb with rfl | hb
      · exact ha
      · exact ih c (hstep a c hac) hl b hb
  obtain ⟨states, hs, hc⟩ := h
  cases states with
  | nil => cases hs
  | cons a l =>
    obtain rfl := Option.some.inj hs
    exact all l a h₀ hc _ (List.getLast_mem _)

@[simp] theorem version_start : (start init : History α Next init).version = 1 := rfl

@[simp] theorem current_start : (start init : History α Next init).current = init := rfl

@[simp] theorem version_extend (h : History α Next init) (a : α) (ha : Next h.current a) :
    (h.extend a ha).version = h.version + 1 := by simp [version, extend]

@[simp] theorem current_extend (h : History α Next init) (a : α) (ha : Next h.current a) :
    (h.extend a ha).current = a := by simp [current, extend]

/-! ## The log of a history -/

/-- One entry for each state, numbered from `n`, with the state before it. -/
def entries : ℕ → Option α → List α → List (ℕ × Option α × α)
  | _, _, [] => []
  | n, before, a :: rest => (n, before, a) :: entries (n + 1) (some a) rest

/-- The log: the first entry comes from nothing and is numbered 1. -/
def log (h : History α Next init) : List (ℕ × Option α × α) := entries 1 none h.states

theorem entries_append (n : ℕ) (before : Option α) {l : List α} (hl : l ≠ []) (a : α) :
    entries n before (l ++ [a]) = entries n before l ++ [(n + l.length, some (l.getLast hl), a)] := by
  induction l generalizing n before with
  | nil => exact absurd rfl hl
  | cons b l ih =>
    cases l with
    | nil => rfl
    | cons c l =>
      have hnum : n + 1 + (c :: l).length = n + (b :: c :: l).length := by
        simp only [List.length_cons]
        omega
      rw [List.cons_append, entries, ih (n + 1) (some b) (List.cons_ne_nil c l), hnum,
        List.getLast_cons (List.cons_ne_nil c l)]
      rfl

@[simp] theorem log_start : (start init : History α Next init).log = [(1, none, init)] := rfl

theorem log_extend (h : History α Next init) (a : α) (ha : Next h.current a) :
    (h.extend a ha).log = h.log ++ [(h.version + 1, some h.current, a)] := by
  unfold log extend
  rw [entries_append 1 none h.states_ne_nil a, Nat.add_comm 1]
  rfl

theorem entries_numbers (n : ℕ) (before : Option α) (l : List α) :
    (entries n before l).map (·.1) = List.range' n l.length := by
  induction l generalizing n before with
  | nil => rfl
  | cons a l ih => rw [entries, List.map_cons, ih, List.length_cons, List.range'_succ]

theorem entries_states (n : ℕ) (before : Option α) (l : List α) :
    (entries n before l).map (·.2.2) = l := by
  induction l generalizing n before with
  | nil => rfl
  | cons a l ih => rw [entries, List.map_cons, ih]

/-- Consecutive entries meet: each comes from the state the one before it reached. -/
theorem entries_chain (n : ℕ) (before : Option α) {l : List α} (hl : l.IsChain Next) :
    (entries n before l).IsChain fun e e' => e'.2.1 = some e.2.2 ∧ Next e.2.2 e'.2.2 := by
  induction l generalizing n before with
  | nil => exact List.isChain_nil
  | cons a l ih =>
    cases l with
    | nil => exact List.isChain_singleton _
    | cons b l =>
      obtain ⟨hab, hl⟩ := List.isChain_cons_cons.mp hl
      exact List.isChain_cons_cons.mpr ⟨⟨rfl, hab⟩, ih (n + 1) (some a) hl⟩

/-- The entries of a log are numbered 1, 2, .. up to the version. -/
theorem log_numbers (h : History α Next init) : h.log.map (·.1) = List.range' 1 h.version :=
  entries_numbers 1 none h.states

theorem log_chain (h : History α Next init) :
    h.log.IsChain fun e e' => e'.2.1 = some e.2.2 ∧ Next e.2.2 e'.2.2 := entries_chain 1 none h.chain

theorem log_head (h : History α Next init) : h.log.head? = some (1, none, init) := by
  obtain ⟨states, hs, hc⟩ := h
  cases states with
  | nil => cases hs
  | cons a rest =>
    obtain rfl := Option.some.inj hs
    rfl

theorem log_last (h : History α Next init) : h.log.getLast?.map (·.2.2) = some h.current := by
  rw [← List.getLast?_map, log, entries_states, List.getLast?_eq_some_getLast h.states_ne_nil]
  rfl

/-! ## Ranks -/

/-- A chain along which a rank rises is no longer than the ranks above its start. -/
theorem length_le_of_rank {rank : α → ℕ} {top : ℕ} (hlt : ∀ a b, Next a b → rank a < rank b)
    (hle : ∀ a, rank a ≤ top) {a : α} {l : List α} (h : (a :: l).IsChain Next) :
    (a :: l).length + rank a ≤ top + 1 := by
  induction l generalizing a with
  | nil =>
    have := hle a
    simp only [List.length_singleton]
    omega
  | cons b l ih =>
    obtain ⟨hab, hl⟩ := List.isChain_cons_cons.mp h
    have := ih hl
    have := hlt a b hab
    simp only [List.length_cons] at *
    omega

/-- The version is bounded by the ranks there are. -/
theorem version_le_of_rank (rank : α → ℕ) {top : ℕ} (hlt : ∀ a b, Next a b → rank a < rank b)
    (hle : ∀ a, rank a ≤ top) (h : History α Next init) : h.version ≤ top + 1 := by
  obtain ⟨states, hs, hc⟩ := h
  cases states with
  | nil => cases hs
  | cons a l =>
    have := length_le_of_rank hlt hle hc
    simp only [version]
    omega

end History
end Versioned
