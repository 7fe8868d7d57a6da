import Quickspin.Archive
import Quickspin.Compensation
import Quickspin.HttpApi

/-! Where an error becomes an answer (`classify` of `internal/httpapi`): one table decides what each
sentinel means, and the first of its rows with a sentinel anywhere in the error decides the status. -/
namespace Quickspin
set_option autoImplicit false

/-! ## Errors as trees -/

mutual

theorem Err.reaches_of_is (e : Err) (s : Sentinel) (h : e.is s = true) : e.Reaches (.sentinel s) := by
  match e with
  | .sentinel t =>
    have hts : t = s := by simpa using h
    rw [hts]
    exact .self _
  | .foreign text => simp at h
  | .envelope op message none => simp [Err.is] at h
  | .envelope op message (some inner) =>
    rw [Err.is] at h
    exact .inner (Err.reaches_of_is inner s h)
  | .join errs =>
    rw [Err.is] at h
    have hchild := Err.reaches_of_anyIs errs s h
    exact .joined hchild.choose_spec.1 hchild.choose_spec.2

theorem Err.reaches_of_anyIs (errs : List Err) (s : Sentinel) (h : Err.anyIs errs s = true) :
    ∃ e ∈ errs, e.Reaches (.sentinel s) := by
  match errs with
  | [] => simp [Err.anyIs] at h
  | e :: rest =>
    rw [Err.anyIs, Bool.or_eq_true] at h
    cases h with
    | inl he => exact ⟨e, List.mem_cons_self .., Err.reaches_of_is e s he⟩
    | inr hrest =>
      obtain ⟨e', he', hr⟩ := Err.reaches_of_anyIs rest s hrest
      exact ⟨e', List.mem_cons_of_mem e he', hr⟩

end

/-- `errors.Is` finds exactly the sentinels that occur in the tree. -/
theorem Err.is_iff_reaches (e : Err) (s : Sentinel) : e.is s = true ↔ e.Reaches (.sentinel s) := by
  constructor
  · exact Err.reaches_of_is e s
  · intro h
    exact h.is (by simp)

/-- The two trees differ in the order of the children of their joins, at any depth. -/
inductive Err.Reordered : Err → Err → Prop
  | refl (e : Err) : Reordered e e
  | envelope {op message : String} {e e' : Err} (h : Reordered e e') :
      Reordered (.envelope op message (some e)) (.envelope op message (some e'))
  | permuted {errs errs' : List Err} (h : errs.Perm errs') : Reordered (.join errs) (.join errs')
  | child {before after : List Err} {e e' : Err} (h : Reordered e e') :
      Reordered (.join (before ++ e :: after)) (.join (before ++ e' :: after))
  | trans {e e' e'' : Err} (h : Reordered e e') (h' : Reordered e' e'') : Reordered e e''

theorem Err.reaches_join {errs : List Err} {s : Sentinel} :
    (Err.join errs).Reaches (.sentinel s) ↔ ∃ e ∈ errs, e.Reaches (.sentinel s) := by
  constructor
  · intro h
    cases h with
    | joined he hr => exact ⟨_, he, hr⟩
  · rintro ⟨e, he, hr⟩
    exact .joined he hr

theorem Err.Reordered.reaches {e e' : Err} (h : e.Reordered e') (s : Sentinel) :
    e.Reaches (.sentinel s) ↔ e'.Reaches (.sentinel s) := by
  induction h with
  | refl e => exact Iff.rfl
  | envelope _ ih =>
    constructor
    · intro hr
      cases hr with
      | inner hr => exact .inner (ih.mp hr)
    · intro hr
      cases hr with
      | inner hr => exact .inner (ih.mpr hr)
  | permuted hp =>
    rw [Err.reaches_join, Err.reaches_join]
    simp only [hp.mem_iff]
  | child _ ih =>
    rw [Err.reaches_join, Err.reaches_join]
    simp only [List.mem_append, List.mem_cons, or_and_right, exists_or, exists_eq_left, ih]
  | trans _ _ ih ih' => exact ih.trans ih'

/-! ## The table -/

namespace HttpApi

def StatusBadRequest : Nat := 400

def StatusNotFound : Nat := 404

def StatusConflict : Nat := 409

def StatusRequestEntityTooLarge : Nat := 413

def StatusUnprocessableEntity : Nat := 422

def StatusInternalServerError : Nat := 500

def StatusGatewayTimeout : Nat := 504

/-- The status and the message the client reads. -/
def classify (err : Err) : Nat × String :=
  if err.is .apiInternal || err.is .internal then
    (StatusInternalServerError, "the request could not be completed")
  else if err.is .imageMissing then
    (StatusUnprocessableEntity, "the requested image does not exist")
  else if err.is .invalidSpec || err.is .runtimeInvalidSpec then
    (StatusUnprocessableEntity, "sandbox spec is invalid")
  else if err.is .invalidStateTransition || err.is .invalidState || err.is .sandboxNotRunning then
    (StatusConflict, "the sandbox is not in a state that allows this")
  else if err.is .invalidPath then
    (StatusUnprocessableEntity, "the path is not valid")
  else if err.is .pathNotFound then
    (StatusNotFound, "path not found in the sandbox")
  else if err.is .fileTooLarge || err.is .totalFilesTooLarge then
    (StatusRequestEntityTooLarge, "the file is larger than the server allows")
  else if err.is .execTimeout then
    (StatusGatewayTimeout, "the command did not finish in time")
  -- A malformed id is a 404 rather than a 400: either way no such sandbox exists.
  else if err.is .storeNotFound || err.is .runtimeNotFound || err.is .invalidSandboxID || err.is .apiNotFound then
    (StatusNotFound, "sandbox not found")
  else if err.is .invalidRequest then
    (StatusBadRequest, "the request is not valid")
  else
    (StatusInternalServerError, "the request could not be completed")

/-- The error `failInternal` reports: it must read as ours regardless of the sentinels it carries. -/
def internalError (op message : String) (err : Err) : Err :=
  wrap op message (joinErr (.sentinel .apiInternal) err)

/-- A row of the table: any of its sentinels gives its answer. -/
structure StatusGroup where
  sentinels : List Sentinel
  status : Nat
  message : String

def StatusGroup.answer (g : StatusGroup) : Nat × String := (g.status, g.message)

/-- What the table is for: the rows in the order in which they decide. -/
def precedence : List StatusGroup :=
  [⟨[.apiInternal, .internal], 500, "the request could not be completed"⟩,
   ⟨[.imageMissing], 422, "the requested image does not exist"⟩,
   ⟨[.invalidSpec, .runtimeInvalidSpec], 422, "sandbox spec is invalid"⟩,
   ⟨[.invalidStateTransition, .invalidState, .sandboxNotRunning], 409,
     "the sandbox is not in a state that allows this"⟩,
   ⟨[.invalidPath], 422, "the path is not valid"⟩,
   ⟨[.pathNotFound], 404, "path not found in the sandbox"⟩,
   ⟨[.fileTooLarge, .totalFilesTooLarge], 413, "the file is larger than the server allows"⟩,
   ⟨[.execTimeout], 504, "the command did not finish in time"⟩,
   ⟨[.storeNotFound, .runtimeNotFound, .invalidSandboxID, .apiNotFound], 404, "sandbox not found"⟩,
   ⟨[.invalidRequest], 400, "the request is not valid"⟩]

/-- The answer for an error that carries no sentinel of the table. -/
def unclassified : Nat × String := (500, "the request could not be completed")

/-- A sentinel of the row occurs somewhere in the tree. -/
def StatusGroup.Occurs (g : StatusGroup) (err : Err) : Prop := ∃ s ∈ g.sentinels, err.Reaches (.sentinel s)

/-- The answer of the first row that occurs. -/
def firstAnswer (err : Err) : List StatusGroup → Nat × String
  | [] => unclassified
  | g :: rest => if g.sentinels.any err.is then g.answer else firstAnswer err rest

theorem classify_eq_firstAnswer (err : Err) : classify err = firstAnswer err precedence := by
  simp only [classify, firstAnswer, precedence, List.any_cons, List.any_nil, Bool.or_false, StatusGroup.answer,
    unclassified, StatusBadRequest, StatusNotFound, StatusConflict, StatusRequestEntityTooLarge,
    StatusUnprocessableEntity, StatusInternalServerError, StatusGatewayTimeout, Bool.or_assoc]

theorem StatusGroup.any_is_iff (g : StatusGroup) (err : Err) :
    g.sentinels.any err.is = true ↔ g.Occurs err := by
  simp only [List.any_eq_true, StatusGroup.Occurs, Err.is_iff_reaches]

theorem firstAnswer_skip {err : Err} {before rest : List StatusGroup} (h : ∀ g ∈ before, ¬ g.Occurs err) :
    firstAnswer err (before ++ rest) = firstAnswer err rest := by
  induction before with
  | nil => rfl
  | cons g before ih =>
    have hg : ¬ g.sentinels.any err.is = true := by
      rw [g.any_is_iff]
      exact h g (List.mem_cons_self ..)
    rw [List.cons_append, firstAnswer, if_neg hg]
    exact ih fun g' hg' => h g' (List.mem_cons_of_mem g hg')

/-- The first row with a sentinel in the tree decides. -/
theorem classify_first {err : Err} {before after : List StatusGroup} {g : StatusGroup}
    (hrows : precedence = before ++ g :: after) (hbefore : ∀ g' ∈ before, ¬ g'.Occurs err) (hg : g.Occurs err) :
    classify err = g.answer := by
  rw [classify_eq_firstAnswer, hrows, firstAnswer_skip hbefore, firstAnswer, if_pos ((g.any_is_iff err).mpr hg)]

theorem classify_default {err : Err} (h : ∀ g ∈ precedence, ¬ g.Occurs err) : classify err = unclassified := by
  have hskip : firstAnswer err (precedence ++ []) = firstAnswer err [] := firstAnswer_skip h
  rw [List.append_nil] at hskip
  rw [classify_eq_firstAnswer, hskip, firstAnswer]

theorem classify_congr {err err' : Err} (h : ∀ s, err.is s = err'.is s) : classify err = classify err' := by
  simp only [classify, h]

theorem classify_internal {err : Err}
    (h : err.Reaches (.sentinel .apiInternal) ∨ err.Reaches (.sentinel .internal)) :
    classify err = (500, "the request could not be completed") := by
  have hg : StatusGroup.Occurs ⟨[.apiInternal, .internal], 500, "the request could not be completed"⟩ err := by
    cases h with
    | inl h => exact ⟨.apiInternal, by simp, h⟩
    | inr h => exact ⟨.internal, by simp, h⟩
  have hrows : precedence = [] ++ precedence.head (by simp [precedence]) :: precedence.tail := rfl
  exact classify_first hrows (by simp) hg

/-! ## What the handlers report -/

theorem classify_internalError (op message : String) (err : Err) :
    classify (internalError op message err) = unclassified :=
  classify_internal (.inl ((Err.reaches_left _ err).wrap op message))

/-- A failure to record a sandbox is the client's fault only when its spec is not valid. -/
theorem classify_recordingError (op message : String) {err : Err} (h : err.is .invalidSpec = false) :
    classify (wrap op message (Control.recordingError err)) = unclassified := by
  have hrec : Control.recordingError err = joinErr (.sentinel .internal) err := by
    simp [Control.recordingError, h]
  rw [hrec]
  exact classify_internal (.inr ((Err.reaches_left _ err).wrap op message))

/-- **The status of an error tree**: the first row of the table with a sentinel anywhere in the tree decides,
whatever stands around the sentinel and in whatever order errors were joined; an internal mark outranks
everything. -/
theorem classify_exact (err : Err) :
    (∀ (before after : List StatusGroup) (g : StatusGroup), precedence = before ++ g :: after →
      (∀ g' ∈ before, ¬ g'.Occurs err) → g.Occurs err → classify err = g.answer) ∧
    ((∀ g ∈ precedence, ¬ g.Occurs err) → classify err = unclassified) ∧
    (∀ op message, classify (E op message err) = classify err ∧ classify (wrap op message err) = classify err ∧
      classify (errorf message err) = classify err) ∧
    (∀ err', err.Reordered err' → classify err' = classify err) ∧
    (err.Reaches (.sentinel .apiInternal) ∨ err.Reaches (.sentinel .internal) → (classify err).1 = 500) := by
  refine ⟨?_, classify_default, ?_, ?_, ?_⟩
  · intro before after g hrows hbefore hg
    exact classify_first hrows hbefore hg
  · intro op message
    refine ⟨classify_congr fun s => is_E op message err s, classify_congr fun s => is_wrap op message err s, ?_⟩
    exact classify_congr fun s => by rw [errorf, Err.is]
  · intro err' hre
    apply classify_congr
    intro s
    rw [Bool.eq_iff_iff, Err.is_iff_reaches, Err.is_iff_reaches]
    exact (hre.reaches s).symm
  · intro h
    rw [classify_internal h]

end HttpApi
end Quickspin
