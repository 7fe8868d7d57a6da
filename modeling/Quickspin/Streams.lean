import Quickspin.Errors

/-! The captured output of a command (`internal/runtime/docker/stream.go`). -/
namespace Quickspin.Docker
set_option autoImplicit false

abbrev Bytes := List UInt8

/-- The first `limit` bytes written, and whether anything was dropped. -/
structure CappedWriter where
  buf : Bytes
  limit : ℕ
  truncated : Bool
  capped : buf.length ≤ limit

namespace CappedWriter

def new (limit : ℕ) : CappedWriter := ⟨[], limit, false, Nat.zero_le _⟩

/-- The full length is claimed as written, also what is dropped, and never an error: a short count would stop the copy. -/
def write (w : CappedWriter) (p : Bytes) : (ℕ × Option Err) × CappedWriter :=
  let room := w.limit - w.buf.length
  ((p.length, none),
    { buf := w.buf ++ p.take room
      limit := w.limit
      truncated := w.truncated || decide (room < p.length)
      capped := by
        have htake : (p.take room).length ≤ room := List.length_take_le _ _
        have hfit := w.capped
        rw [List.length_append]
        omega })

end CappedWriter

inductive OutputStream
  | stdout | stderr
deriving DecidableEq

/-- Each frame goes to the writer of its stream. -/
def demux (limit : ℕ) (frames : List (OutputStream × Bytes)) : CappedWriter × CappedWriter :=
  frames.foldl (fun (out, err) (stream, p) =>
    match stream with
    | .stdout => ((out.write p).2, err)
    | .stderr => (out, (err.write p).2)) (.new limit, .new limit)

/-! ## What is kept -/

/-- The first bytes of the data, as many as fit, and whether there are more. -/
structure CappedWriter.Holds (w : CappedWriter) (data : Bytes) : Prop where
  buf : w.buf = data.take w.limit
  truncated : w.truncated = true ↔ w.limit < data.length

section Kept
variable {w : CappedWriter} {data : Bytes}

theorem CappedWriter.holds_new (limit : ℕ) : (CappedWriter.new limit).Holds [] :=
  ⟨by simp [CappedWriter.new], by simp [CappedWriter.new]⟩

/-- **Step lemma**: a write appends to the data. -/
theorem CappedWriter.Holds.write (h : w.Holds data) (p : Bytes) : (w.write p).2.Holds (data ++ p) := by
  have hlen : w.buf.length = min w.limit data.length := by rw [h.buf, List.length_take]
  constructor
  · show w.buf ++ p.take (w.limit - w.buf.length) = (data ++ p).take w.limit
    rw [List.take_append, ← h.buf]
    by_cases hfull : w.limit ≤ data.length
    · have hroom : w.limit - w.buf.length = 0 := by omega
      have hrest : w.limit - data.length = 0 := by omega
      rw [hroom, hrest]
    · have hroom : w.buf.length = data.length := by omega
      rw [hroom]
  · show (w.truncated || decide (w.limit - w.buf.length < p.length)) = true ↔ w.limit < (data ++ p).length
    rw [Bool.or_eq_true, h.truncated, decide_eq_true_iff, List.length_append]
    omega

/-- One write after another, with what each of them reports. -/
def CappedWriter.writes (w : CappedWriter) : List Bytes → List (ℕ × Option Err) × CappedWriter
  | [] => ([], w)
  | p :: ps =>
    let rest := (w.write p).2.writes ps
    ((w.write p).1 :: rest.1, rest.2)

theorem CappedWriter.writes_reports (w : CappedWriter) (ps : List Bytes) :
    (w.writes ps).1 = ps.map fun p => (p.length, none) := by
  induction ps generalizing w with
  | nil => rfl
  | cons p ps ih => exact congrArg _ (ih _)

theorem CappedWriter.writes_limit (w : CappedWriter) (ps : List Bytes) : (w.writes ps).2.limit = w.limit := by
  induction ps generalizing w with
  | nil => rfl
  | cons p ps ih => exact ih _

/-- **Run lemma**: the data are what was written, in one piece. -/
theorem CappedWriter.Holds.writes (h : w.Holds data) (ps : List Bytes) : (w.writes ps).2.Holds (data ++ ps.flatten) := by
  induction ps generalizing w data with
  | nil =>
    rw [List.flatten_nil, List.append_nil]
    exact h
  | cons p ps ih =>
    rw [List.flatten_cons, ← List.append_assoc]
    exact ih (h.write p)

/-! ## Two streams -/

/-- The frames of one stream, in their order. -/
def ownFrames (stream : OutputStream) (frames : List (OutputStream × Bytes)) : List Bytes :=
  (frames.filter fun f => f.1 = stream).map (·.2)

/-- What the frames hold for one stream. -/
def streamBytes (stream : OutputStream) (frames : List (OutputStream × Bytes)) : Bytes :=
  (frames.filter fun f => f.1 = stream).flatMap (·.2)

theorem flatten_ownFrames (stream : OutputStream) (frames : List (OutputStream × Bytes)) :
    (ownFrames stream frames).flatten = streamBytes stream frames := by
  rw [streamBytes, List.flatMap_def, ownFrames]

/-- One frame of `demux`. -/
def demuxFrame (writers : CappedWriter × CappedWriter) (frame : OutputStream × Bytes) : CappedWriter × CappedWriter :=
  match frame.1 with
  | .stdout => ((writers.1.write frame.2).2, writers.2)
  | .stderr => (writers.1, (writers.2.write frame.2).2)

theorem demux_eq (limit : ℕ) (frames : List (OutputStream × Bytes)) :
    demux limit frames = frames.foldl demuxFrame (.new limit, .new limit) := rfl

/-- **Run lemma**: each writer has the frames of its own stream, however they are interleaved. -/
theorem demuxFrames_eq (frames : List (OutputStream × Bytes)) (out err : CappedWriter) :
    frames.foldl demuxFrame (out, err) =
      ((out.writes (ownFrames .stdout frames)).2, (err.writes (ownFrames .stderr frames)).2) := by
  induction frames generalizing out err with
  | nil => rfl
  | cons frame rest ih =>
    obtain ⟨stream, p⟩ := frame
    rw [List.foldl_cons]
    cases stream with
    | stdout =>
      have hrest := ih (out.write p).2 err
      simpa [demuxFrame, ownFrames, CappedWriter.writes] using hrest
    | stderr =>
      have hrest := ih out (err.write p).2
      simpa [demuxFrame, ownFrames, CappedWriter.writes] using hrest

theorem holds_demux (limit : ℕ) (frames : List (OutputStream × Bytes)) :
    (demux limit frames).1.Holds (streamBytes .stdout frames) ∧
      (demux limit frames).2.Holds (streamBytes .stderr frames) := by
  rw [demux_eq, demuxFrames_eq, ← flatten_ownFrames, ← flatten_ownFrames]
  exact ⟨(CappedWriter.holds_new limit).writes _, (CappedWriter.holds_new limit).writes _⟩

theorem demux_limit (limit : ℕ) (frames : List (OutputStream × Bytes)) :
    (demux limit frames).1.limit = limit ∧ (demux limit frames).2.limit = limit := by
  rw [demux_eq, demuxFrames_eq]
  exact ⟨CappedWriter.writes_limit _ _, CappedWriter.writes_limit _ _⟩

/-- **Capped streams**: whatever is written to a writer, each write reports its full length and no error, the buffer has
the first bytes of all that was written, up to the limit, and the flag says whether there was more; and of two writers
fed with frames, however interleaved, each is as if it had been written its own frames alone. -/
theorem capped_streams :
    (∀ (limit : ℕ) (ps : List Bytes),
      ((CappedWriter.new limit).writes ps).1 = (ps.map fun p => (p.length, none)) ∧
      ((CappedWriter.new limit).writes ps).2.buf = ps.flatten.take (min limit ps.flatten.length) ∧
      (((CappedWriter.new limit).writes ps).2.truncated = true ↔ limit < ps.flatten.length)) ∧
    ∀ (limitOut limitErr : ℕ) (frames : List (OutputStream × Bytes)),
      frames.foldl demuxFrame (.new limitOut, .new limitErr) =
        (((CappedWriter.new limitOut).writes (ownFrames .stdout frames)).2,
          ((CappedWriter.new limitErr).writes (ownFrames .stderr frames)).2) := by
  refine ⟨fun limit ps => ?_, fun limitOut limitErr frames => demuxFrames_eq frames _ _⟩
  have hholds := (CappedWriter.holds_new limit).writes ps
  have hlimit := CappedWriter.writes_limit (CappedWriter.new limit) ps
  rw [List.nil_append] at hholds
  refine ⟨CappedWriter.writes_reports _ ps, ?_, ?_⟩
  · rw [hholds.buf, hlimit, ← List.take_eq_take_min]
    rfl
  · rw [hholds.truncated, hlimit]
    rfl

end Kept
end Quickspin.Docker
