import Quickspin.Reconciler
import Quickspin.Lib.Trace

/-! The loop of the reconciler (`Reconciler.Start`): a pass at every tick, and after each a new period, the interval
and a random part of it. What the loop asks of the timer and of the random source are calls; where the library
panics, a call has no answer. -/
namespace Quickspin
open Interaction
set_option autoImplicit false

/-! ## The calls -/

/-- What the loop is woken by. -/
inductive Wake
  | done | tick
deriving DecidableEq

/-- `base` is a call of a pass; `tryLock` answers whether the lock was free. -/
inductive LoopCall
  | base (c : (calls Runtime.signature).Call)
  | tryLock
  | newTicker (d : Duration)
  | select
  | int64N (n : Int64)
  | reset (d : Duration)

abbrev LoopCall.Answer : LoopCall → Type
  | .base c => (calls Runtime.signature).Answer c
  | .tryLock => Bool
  | .newTicker _ => Unit
  | .select => Wake
  | .int64N _ => Int64
  | .reset _ => Unit

abbrev loopSignature : Signature := ⟨LoopCall, LoopCall.Answer⟩

namespace Reconciler

def await (c : LoopCall) : Program loopSignature c.Answer := Program.perform (S := loopSignature) c

def defaultInterval : Duration := 15 * Duration.second

/-! ## The loop -/

/-- The pass of one tick. Its error is logged and does not end the loop. -/
def tickPass : Program loopSignature Unit := do
  let acquired ← await .tryLock
  let _ ← (reconcileOnce !acquired).translate fun c => await (.base c)
  return ()

/-- The loop, as far as its first `n` turns; it ends when the context is done. -/
def loop (interval : Duration) : ℕ → Program loopSignature Unit
  | 0 => return ()
  | n + 1 => do
    match ← await .select with
    | .done => return ()
    | .tick => do
      tickPass
      let jitter ← await (.int64N (interval / 10))
      await (.reset (interval + jitter))
      loop interval n

/-- An interval that is not positive means the default. -/
def start (interval : Duration) (n : ℕ) : Program loopSignature Unit := do
  let interval := if interval ≤ 0 then defaultInterval else interval
  await (.newTicker interval)
  loop interval n

/-! ## What the library asks for -/

/-- An answer the library can give. `NewTicker`, `Reset` and `Int64N` have none but for positive arguments. -/
def Possible : Exchange loopSignature → Prop
  | ⟨.newTicker d, _⟩ => 0 < d
  | ⟨.reset d, _⟩ => 0 < d
  | ⟨.int64N n, v⟩ => 0 < n ∧ 0 ≤ (v : Int64) ∧ v < n
  | ⟨.base _, _⟩ | ⟨.tryLock, _⟩ | ⟨.select, _⟩ => True

/-- A call of the loop with the effective interval `i`, after the exchanges `h`, is no panic: its argument is positive, and a
period is the interval and the random part just drawn, less than a tenth of it. -/
def InRange (i : Duration) (h : List (Exchange loopSignature)) : LoopCall → Prop
  | .newTicker d => 0 < d
  | .int64N n => 0 < n
  | .reset p => 0 < p ∧ i.toInt ≤ p.toInt ∧ p.toInt < i.toInt + i.toInt / 10 + 1 ∧
      ∃ n v h', h = ⟨.int64N n, v⟩ :: h' ∧ p.toInt = i.toInt + (v : Int64).toInt
  | .base _ | .tryLock | .select => True

def effective (interval : Duration) : Duration := if interval ≤ 0 then defaultInterval else interval

/-- No call of any run of the loop is a panic, whatever its ticks, its passes and the random source come to. -/
def NeverPanics (interval : Duration) : Prop :=
  ∀ n, (start interval n).Tells (fun h c => (∀ e ∈ h, Possible e) → InRange (effective interval) h c) (fun _ _ => True) []

/-- The tenth of the interval is positive, and a period below eleven tenths of it fits. -/
structure Roomy (i : Duration) : Prop where
  tenth : 10 ≤ i.toInt
  sum : i.toInt + i.toInt / 10 ≤ 2 ^ 63

/-! ## The arithmetic of a period -/

section Period
variable {i v : Duration}

theorem pos_iff : 0 < i ↔ 0 < i.toInt := by rw [Int64.lt_iff_toInt_lt, Int64.toInt_zero]

theorem defaultInterval_roomy : Roomy defaultInterval := ⟨by decide, by decide⟩

theorem tenth_toInt (h : 0 < i.toInt) : (i / 10).toInt = i.toInt / 10 := by
  rw [Int64.toInt_div_of_ne_right _ _ (by decide)]
  exact Int.tdiv_eq_ediv_of_nonneg (Int.le_of_lt h)

theorem pred_tenth_toInt (h : 0 < i.toInt) : (i / 10 - 1).toInt = i.toInt / 10 - 1 := by
  have hlt := i.toInt_lt
  have hone : (1 : Int64).toInt = 1 := rfl
  rw [Int64.toInt_sub, tenth_toInt h, hone]
  exact Int.bmod_eq_of_le (by omega) (by omega)

theorem Roomy.tenth_pos (h : Roomy i) : 0 < i / 10 := by
  have hten := h.tenth
  rw [pos_iff, tenth_toInt (by omega)]
  omega

/-- A period does not wrap. -/
theorem Roomy.period (h : Roomy i) (hlow : 0 ≤ v.toInt) (hhigh : v.toInt < i.toInt / 10) :
    (i + v).toInt = i.toInt + v.toInt := by
  have hten := h.tenth
  have hsum := h.sum
  rw [Int64.toInt_add]
  exact Int.bmod_eq_of_le (by omega) (by omega)

end Period

/-! ## Every run -/

section Runs
variable {i : Duration} {h : List (Exchange loopSignature)}

/-- **Step lemma**: whatever was drawn, the next period is in range. -/
theorem Roomy.reset_inRange {v : Int64} (hi : Roomy i) (hlow : 0 ≤ v) (hhigh : v < i / 10) :
    InRange i (⟨.int64N (i / 10), v⟩ :: h) (.reset (i + v)) := by
  have hten := hi.tenth
  rw [Int64.le_iff_toInt_le, Int64.toInt_zero] at hlow
  rw [Int64.lt_iff_toInt_lt, tenth_toInt (by omega)] at hhigh
  have hperiod := hi.period hlow hhigh
  refine ⟨?_, ?_, ?_, _, v, _, rfl, hperiod⟩
  · rw [pos_iff, hperiod]
    omega
  · rw [hperiod]
    omega
  · rw [hperiod]
    omega

/-- A pass asks nothing of the timer and the random source. -/
theorem tickPass_calls {P : LoopCall → Prop} (hlock : P .tryLock) (hbase : ∀ c, P (.base c)) : tickPass.Calls P := by
  refine ⟨hlock, fun acquired => ?_⟩
  have hpass : ((reconcileOnce !acquired).translate fun c => await (.base c)).Calls P :=
    Program.Calls.translate (Program.nodes_true _) fun c _ => ⟨hbase c, fun _ => trivial⟩
  exact hpass.bind fun _ => trivial

/-- **Run lemma**: the turns of a loop with a roomy interval. -/
theorem loop_tells (hi : Roomy i) (n : ℕ) :
    (loop i n).Tells (fun h c => (∀ e ∈ h, Possible e) → InRange i h c) (fun _ _ => True) h := by
  induction n generalizing h with
  | zero => trivial
  | succ n ih =>
    refine ⟨fun _ => trivial, fun woken => ?_⟩
    cases (woken : Wake) with
    | done => trivial
    | tick =>
      have hcalls : tickPass.Calls fun c => ∀ h, InRange i h c := tickPass_calls (fun _ => trivial) fun _ _ => trivial
      have hpass : tickPass.Tells (fun h c => (∀ e ∈ h, Possible e) → InRange i h c) (fun _ _ => True) (⟨.select, .tick⟩ :: h) :=
        hcalls.tells (I := fun _ => True) (fun h c _ hc _ => hc h) (fun _ _ _ _ _ => trivial) trivial
      refine Program.Tells.bind (p := tickPass) (hpass.mono fun h _ _ => ?_)
      refine ⟨fun _ => hi.tenth_pos, fun v => ⟨fun hpossible => ?_, fun _ => ih⟩⟩
      obtain ⟨-, hlow, hhigh⟩ : 0 < i / 10 ∧ 0 ≤ (v : Int64) ∧ v < i / 10 := hpossible _ (List.mem_cons_self ..)
      exact hi.reset_inRange hlow hhigh

theorem start_tells {interval : Duration} (hi : Roomy (effective interval)) : NeverPanics interval := by
  have hpos : 0 < effective interval := by
    have hten := hi.tenth
    rw [pos_iff]
    omega
  exact fun n => ⟨fun _ => hpos, fun _ => loop_tells hi n⟩

/-- One turn, its pass skipped for another one in flight and the largest random part drawn, shows that the interval is
roomy. -/
theorem roomy_of_turn (hpos : 0 < i.toInt) (hpossible : ∀ e ∈ h, Possible e)
    (hturn : (loop i 1).Tells (fun h c => (∀ e ∈ h, Possible e) → InRange i h c) (fun _ _ => True) h) : Roomy i := by
  have hskipped : ∀ e ∈ (⟨.tryLock, false⟩ :: ⟨.select, .tick⟩ :: h : List (Exchange loopSignature)), Possible e :=
    List.forall_mem_cons.mpr ⟨trivial, List.forall_mem_cons.mpr ⟨trivial, hpossible⟩⟩
  have hdraw := (hturn.2 Wake.tick).2 false
  have htenth : 0 < i / 10 := hdraw.1 hskipped
  have htenth' := pos_iff.mp htenth
  rw [tenth_toInt hpos] at htenth'
  have hmax := pred_tenth_toInt hpos
  have hdrawn : Possible ⟨.int64N (i / 10), i / 10 - 1⟩ := by
    refine ⟨htenth, ?_, ?_⟩
    · rw [Int64.le_iff_toInt_le, hmax, Int64.toInt_zero]
      omega
    · rw [Int64.lt_iff_toInt_lt, hmax, tenth_toInt hpos]
      omega
  obtain ⟨-, -, -, n, v, h', hlog, hsum⟩ := (hdraw.2 (i / 10 - 1)).1 (List.forall_mem_cons.mpr ⟨hdrawn, hskipped⟩)
  cases hlog
  -- the sum is the period as the loop has it, so it is below 2^63
  have hfits := (i + (i / 10 - 1)).toInt_lt
  rw [hsum, hmax] at hfits
  exact ⟨by omega, by omega⟩

end Runs

/-- **The loop never panics**, whatever its ticks, its passes and the random source come to, exactly when its interval is
not positive, which means the default, or is at least ten nanoseconds and leaves room for the random part. -/
theorem loop_never_panics (interval : Duration) :
    NeverPanics interval ↔
      interval.toInt ≤ 0 ∨ (10 ≤ interval.toInt ∧ interval.toInt + interval.toInt / 10 ≤ 2 ^ 63) := by
  have hle : interval ≤ 0 ↔ interval.toInt ≤ 0 := by rw [Int64.le_iff_toInt_le, Int64.toInt_zero]
  constructor
  · intro hnever
    by_cases hpos : interval.toInt ≤ 0
    · exact .inl hpos
    · have heffective : effective interval = interval := if_neg fun h => hpos (hle.mp h)
      have hstart := hnever 1
      have hticker : 0 < effective interval := by
        rw [heffective, pos_iff]
        omega
      have hloop := hstart.2 ()
      have hroomy : Roomy (effective interval) :=
        roomy_of_turn (pos_iff.mp hticker) (fun e he => by
          obtain rfl := List.mem_singleton.mp he
          exact hticker) hloop
      rw [heffective] at hroomy
      exact .inr ⟨hroomy.tenth, hroomy.sum⟩
  · rintro (hdefault | ⟨htenth, hsum⟩)
    · have heffective : effective interval = defaultInterval := if_pos (hle.mpr hdefault)
      refine start_tells ?_
      rw [heffective]
      exact defaultInterval_roomy
    · have heffective : effective interval = interval := if_neg fun h => by
        have hnonpos := hle.mp h
        omega
      refine start_tells ?_
      rw [heffective]
      exact ⟨htenth, hsum⟩

/-- An interval of nine nanoseconds passes the guard, and its tenth is zero, so the first turn draws from nothing; one close
to the largest duration is reset to a negative period. -/
theorem loop_panics : ¬NeverPanics 9 ∧ ¬NeverPanics 9223372036854775807 := by
  constructor
  · intro hnever
    have hdraw : (∀ e ∈ [⟨.tryLock, false⟩, ⟨.select, .tick⟩, ⟨.newTicker 9, ()⟩], Possible e) →
        InRange 9 _ (.int64N (9 / 10)) := ((((hnever 1).2 ()).2 Wake.tick).2 false).1
    have hpos : (0 : Int64) < 9 / 10 := hdraw (by simp [Possible])
    exact absurd hpos (by decide)
  · intro hnever
    have hreset : (∀ e ∈ [⟨.int64N (9223372036854775807 / 10), 900000000000000000⟩, ⟨.tryLock, false⟩, ⟨.select, .tick⟩,
        ⟨.newTicker 9223372036854775807, ()⟩], Possible e) →
        InRange 9223372036854775807 _ (.reset (9223372036854775807 + 900000000000000000)) :=
      (((((hnever 1).2 ()).2 Wake.tick).2 false).2 (900000000000000000 : Int64)).1
    obtain ⟨hpos, -⟩ := hreset (by simp [Possible])
    exact absurd hpos (by decide)

end Reconciler
end Quickspin
