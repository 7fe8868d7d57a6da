import Mathlib.Data.Nat.Log
import Mathlib.Tactic.IntervalCases

/-! JSON as text. A text is its bytes: what the standard library's encoder writes for strings, byte slices and
numbers, how its scanner goes over a text byte by byte, and how its decoder reads one value from a stream that may
end or fail. -/
namespace JsonText
set_option autoImplicit false

/-- The code of an ASCII character. -/
def ch (c : Char) : UInt8 := c.toNat.toUInt8

def ascii (s : String) : List UInt8 := s.toList.map ch

def isSpace (c : UInt8) : Bool := c == ch ' ' || c == ch '\t' || c == ch '\r' || c == ch '\n'

def isDigit (c : UInt8) : Bool := ch '0' ≤ c && c ≤ ch '9'

def isHex (c : UInt8) : Bool := isDigit c || (ch 'a' ≤ c && c ≤ ch 'f') || (ch 'A' ≤ c && c ≤ ch 'F')

/-! ## The scanner -/

/-- What the next byte is matched against. `inStringEscU` has so many hex digits to come, `literal` the rest of `true`,
`false` or `null`. -/
inductive State
  | beginValue | beginValueOrEmpty | beginString | beginStringOrEmpty
  | endValue | endTop
  | inString | inStringEsc | inStringEscU (left : ℕ)
  | neg | digits | zero | dot | fraction | e | eSign | exponent
  | literal (rest : List UInt8)
  | error
deriving DecidableEq

/-- Where a value stands in the object or the array around it. -/
inductive Place
  | objectKey | objectValue | arrayValue
deriving DecidableEq

/-- What a byte meant, as far as the decoder tells it apart: more of the value, the end of an object or an array, the
first byte after the value, or a byte that cannot stand there. -/
inductive Op
  | scanContinue | scanEndComposite | scanEnd | scanError
deriving DecidableEq

/-- The state, and the objects and arrays that are open, the innermost first. -/
structure Scanner where
  state : State
  nested : List Place
deriving DecidableEq

namespace Scanner

def maxNestingDepth : ℕ := 10000

def reset : Scanner := ⟨.beginValue, []⟩

def goes (s : Scanner) (state : State) : Op × Scanner := (.scanContinue, { s with state := state })

def fails (s : Scanner) : Op × Scanner := (.scanError, { s with state := .error })

def push (s : Scanner) (state : State) (place : Place) : Op × Scanner :=
  if s.nested.length + 1 ≤ maxNestingDepth then (.scanContinue, ⟨state, place :: s.nested⟩)
  else (.scanError, ⟨.error, place :: s.nested⟩)

def pop (outer : List Place) : Op × Scanner := (.scanEndComposite, ⟨if outer = [] then .endTop else .endValue, outer⟩)

/-- After the value only space may follow; a byte that is none is complained about at the next one. -/
def stateEndTop (s : Scanner) (c : UInt8) : Op × Scanner :=
  (.scanEnd, if isSpace c then s else { s with state := .error })

def stateEndValue (s : Scanner) (c : UInt8) : Op × Scanner :=
  match s.nested with
  | [] => stateEndTop { s with state := .endTop } c
  | place :: outer =>
    if isSpace c then s.goes .endValue
    else
      match place with
      | .objectKey => if c = ch ':' then (.scanContinue, ⟨.beginValue, .objectValue :: outer⟩) else s.fails
      | .objectValue =>
        if c = ch ',' then (.scanContinue, ⟨.beginString, .objectKey :: outer⟩)
        else if c = ch '}' then pop outer
        else s.fails
      | .arrayValue =>
        if c = ch ',' then (.scanContinue, ⟨.beginValue, .arrayValue :: outer⟩)
        else if c = ch ']' then pop outer
        else s.fails

def stateBeginValue (s : Scanner) (c : UInt8) : Op × Scanner :=
  if isSpace c then s.goes s.state
  else if c = ch '{' then s.push .beginStringOrEmpty .objectKey
  else if c = ch '[' then s.push .beginValueOrEmpty .arrayValue
  else if c = ch '"' then s.goes .inString
  else if c = ch '-' then s.goes .neg
  else if c = ch '0' then s.goes .zero
  else if c = ch 't' then s.goes (.literal (ascii "rue"))
  else if c = ch 'f' then s.goes (.literal (ascii "alse"))
  else if c = ch 'n' then s.goes (.literal (ascii "ull"))
  else if isDigit c then s.goes .digits
  else s.fails

def stateBeginString (s : Scanner) (c : UInt8) : Op × Scanner :=
  if isSpace c then s.goes s.state
  else if c = ch '"' then s.goes .inString
  else s.fails

/-- The end of an empty object is that of one whose last value is over. -/
def stateBeginStringOrEmpty (s : Scanner) (c : UInt8) : Op × Scanner :=
  if c = ch '}' then stateEndValue { s with nested := .objectValue :: s.nested.tail } c else stateBeginString s c

def stateZero (s : Scanner) (c : UInt8) : Op × Scanner :=
  if c = ch '.' then s.goes .dot
  else if c = ch 'e' ∨ c = ch 'E' then s.goes .e
  else stateEndValue s c

def stateESign (s : Scanner) (c : UInt8) : Op × Scanner := if isDigit c then s.goes .exponent else s.fails

def step (s : Scanner) (c : UInt8) : Op × Scanner :=
  match s.state with
  | .beginValue => stateBeginValue s c
  | .beginValueOrEmpty => if c = ch ']' then stateEndValue s c else stateBeginValue s c
  | .beginString => stateBeginString s c
  | .beginStringOrEmpty => stateBeginStringOrEmpty s c
  | .endValue => stateEndValue s c
  | .endTop => stateEndTop s c
  | .inString =>
    if c = ch '"' then s.goes .endValue
    else if c = ch '\\' then s.goes .inStringEsc
    else if c < 0x20 then s.fails
    else s.goes .inString
  | .inStringEsc =>
    if c ∈ ascii "bfnrt\\/\"" then s.goes .inString
    else if c = ch 'u' then s.goes (.inStringEscU 4)
    else s.fails
  | .inStringEscU left => if isHex c then s.goes (if left ≤ 1 then .inString else .inStringEscU (left - 1)) else s.fails
  | .neg =>
    if c = ch '0' then s.goes .zero
    else if isDigit c then s.goes .digits
    else s.fails
  | .digits => if isDigit c then s.goes .digits else stateZero s c
  | .zero => stateZero s c
  | .dot => if isDigit c then s.goes .fraction else s.fails
  | .fraction =>
    if isDigit c then s.goes .fraction
    else if c = ch 'e' ∨ c = ch 'E' then s.goes .e
    else stateEndValue s c
  | .e => if c = ch '+' ∨ c = ch '-' then s.goes .eSign else stateESign s c
  | .eSign => stateESign s c
  | .exponent => if isDigit c then s.goes .exponent else stateEndValue s c
  | .literal rest =>
    match rest with
    | [] => s.fails
    | x :: rest => if c = x then s.goes (if rest = [] then .endValue else .literal rest) else s.fails
  | .error => s.fails

end Scanner

/-! ## The decoder -/

/-- Why no value was read; `reader` is an error of the stream. -/
inductive ReadError (ε : Type)
  | syntaxError | eof | unexpectedEOF
  | reader (err : ε)

/-- Read one value: the bytes that arrive before the stream ends, or fails with `failure`, are scanned up to the end of
the value; an error of the stream counts only where the value is not over before it. -/
def readValue {ε : Type} (failure : Option ε) (s : Scanner) (seen : List UInt8) : List UInt8 → Except (ReadError ε) (List UInt8)
  | [] =>
    match failure with
    | some err => .error (.reader err)
    | none =>
      if (s.step (ch ' ')).1 = .scanEnd then .ok seen
      else .error (if seen.all isSpace then .eof else .unexpectedEOF)
  | c :: rest =>
    match s.step c with
    | (.scanContinue, s) => readValue failure s (seen ++ [c]) rest
    -- the byte after the object or the array is not waited for
    | (.scanEndComposite, s) =>
      if (s.stateEndValue (ch ' ')).1 = .scanEnd then .ok (seen ++ [c])
      else readValue failure (s.stateEndValue (ch ' ')).2 (seen ++ [c]) rest
    | (.scanEnd, _) => .ok seen
    | (.scanError, _) => .error .syntaxError

/-! ## Texts that are scanned through -/

/-- The scanner after a text in which no value ends, and nothing is refused. -/
def Scanner.pass (s : Scanner) : List UInt8 → Option Scanner
  | [] => some s
  | c :: rest =>
    match s.step c with
    | (.scanContinue, s) => s.pass rest
    | _ => none

section Pass
variable {ε : Type} {failure : Option ε} {s s' : Scanner} {c : UInt8} {l l' seen rest : List UInt8}

theorem Scanner.pass_cons (h : s.step c = (.scanContinue, s')) : s.pass (c :: rest) = s'.pass rest := by
  rw [Scanner.pass, h]

theorem Scanner.pass_append (h : s.pass l = some s') : s.pass (l ++ l') = s'.pass l' := by
  induction l generalizing s with
  | nil =>
    obtain rfl := Option.some.inj h
    rfl
  | cons c l ih =>
    rw [List.cons_append]
    rw [Scanner.pass] at h ⊢
    split at h
    · next hstep => exact ih h
    · cases h

theorem Scanner.exists_pass_take (h : s.pass l = some s') (n : ℕ) : ∃ u, s.pass (l.take n) = some u := by
  induction l generalizing s n with
  | nil => exact ⟨s, by rw [List.take_nil]; rfl⟩
  | cons c l ih =>
    cases n with
    | zero => exact ⟨s, rfl⟩
    | succ n =>
      rw [List.take_succ_cons]
      rw [Scanner.pass] at h ⊢
      split at h
      · next hstep => exact ih h n
      · cases h

/-- A text that is scanned through is read, and reading goes on behind it. -/
theorem readValue_pass (h : s.pass l = some s') : readValue failure s seen (l ++ rest) = readValue failure s' (seen ++ l) rest := by
  induction l generalizing s seen with
  | nil =>
    obtain rfl := Option.some.inj h
    rw [List.nil_append, List.append_nil]
  | cons c l ih =>
    rw [List.cons_append]
    rw [Scanner.pass] at h
    rw [readValue]
    split at h
    · next s₁ hstep =>
      rw [hstep]
      dsimp only
      rw [ih h, List.append_assoc, List.singleton_append]
    · cases h

/-- **An object** is read to its last byte, whatever comes after it. -/
theorem readValue_object (h : Scanner.reset.pass l = some s') (hclose : s'.step (ch '}') = Scanner.pop []) :
    readValue failure .reset [] (l ++ ch '}' :: rest) = .ok (l ++ [ch '}']) := by
  rw [readValue_pass h, List.nil_append, readValue, hclose]
  rfl

/-- A stream that fails within a value is a failed read. -/
theorem readValue_cut {err : ε} (h : Scanner.reset.pass l = some s') (n : ℕ) :
    readValue (some err) .reset [] (l.take n) = .error (.reader err) := by
  obtain ⟨u, hu⟩ := Scanner.exists_pass_take h n
  have hread : readValue (some err) .reset [] (l.take n ++ []) = readValue (some err) u ([] ++ l.take n) [] := readValue_pass hu
  rw [List.append_nil] at hread
  rw [hread]
  rfl

end Pass

/-! ## Strings -/

/-- A byte of a string's text that stands for itself. -/
def Plain (c : UInt8) : Prop := ch '"' ≠ c ∧ ch '\\' ≠ c ∧ 0x20 ≤ c

/-- A character of a text in UTF-8, or a byte that is part of none. -/
inductive Rune
  | single (b : UInt8)
  | multi (bytes : List UInt8)
  | invalid (b : UInt8)
deriving DecidableEq

def Rune.bytes : Rune → List UInt8
  | .single b | .invalid b => [b]
  | .multi bytes => bytes

/-- The length of a character of several bytes, and between which bytes its second one is. -/
def leads (b : UInt8) : Option (ℕ × UInt8 × UInt8) :=
  if 0xC2 ≤ b ∧ b ≤ 0xDF then some (2, 0x80, 0xBF)
  else if b = 0xE0 then some (3, 0xA0, 0xBF)
  else if b = 0xED then some (3, 0x80, 0x9F)
  else if 0xE1 ≤ b ∧ b ≤ 0xEF then some (3, 0x80, 0xBF)
  else if b = 0xF0 then some (4, 0x90, 0xBF)
  else if b = 0xF4 then some (4, 0x80, 0x8F)
  else if 0xF1 ≤ b ∧ b ≤ 0xF3 then some (4, 0x80, 0xBF)
  else none

/-- The bytes after the first one of a character. -/
def follows (low high : UInt8) : List UInt8 → Bool
  | [] => false
  | b :: rest => low ≤ b && b ≤ high && rest.all fun c => 0x80 ≤ c && c ≤ 0xBF

/-- The first character of a text that begins with `b`. -/
def decodeRune (b : UInt8) (rest : List UInt8) : Rune :=
  if b < 0x80 then .single b
  else
    match leads b with
    | none => .invalid b
    | some (size, low, high) =>
      if (rest.take (size - 1)).length = size - 1 ∧ follows low high (rest.take (size - 1)) then
        .multi (b :: rest.take (size - 1))
      else .invalid b

/-- The characters of a text but for its first `skip` bytes. -/
def runesFrom : ℕ → List UInt8 → List Rune
  | _, [] => []
  | skip + 1, _ :: rest => runesFrom skip rest
  | 0, b :: rest => decodeRune b rest :: runesFrom ((decodeRune b rest).bytes.length - 1) rest

def runes (s : List UInt8) : List Rune := runesFrom 0 s

/-- A hex digit. -/
def hex (v : UInt8) : UInt8 := (ascii "0123456789abcdef").getD v.toNat (ch '0')

/-- A character as the encoder writes it within a string, HTML escaped. -/
def Rune.escaped : Rune → List UInt8
  | .single b =>
    if b = ch '\\' ∨ b = ch '"' then [ch '\\', b]
    else if b = 0x08 then ascii "\\b"
    else if b = 0x0C then ascii "\\f"
    else if b = 0x0A then ascii "\\n"
    else if b = 0x0D then ascii "\\r"
    else if b = 0x09 then ascii "\\t"
    else if b < 0x20 ∨ b = ch '<' ∨ b = ch '>' ∨ b = ch '&' then ascii "\\u00" ++ [hex (b >>> 4), hex (b &&& 0xF)]
    else [b]
  -- the line and the paragraph separator
  | .multi bytes =>
    if bytes = [0xE2, 0x80, 0xA8] then ascii "\\u2028"
    else if bytes = [0xE2, 0x80, 0xA9] then ascii "\\u2029"
    else bytes
  | .invalid _ => ascii "\\ufffd"

def quoted (s : List UInt8) : List UInt8 := ch '"' :: (runes s).flatMap Rune.escaped ++ [ch '"']

/-- How many bytes a character takes within a string. -/
def Rune.cost : Rune → ℕ
  | .single b =>
    if b = ch '\\' ∨ b = ch '"' ∨ b = 0x08 ∨ b = 0x0C ∨ b = 0x0A ∨ b = 0x0D ∨ b = 0x09 then 2
    else if b < 0x20 ∨ b = ch '<' ∨ b = ch '>' ∨ b = ch '&' then 6
    else 1
  | .multi bytes => if bytes = [0xE2, 0x80, 0xA8] ∨ bytes = [0xE2, 0x80, 0xA9] then 6 else bytes.length
  | .invalid _ => 6

/-- How many bytes a text takes within a string. -/
def cost (s : List UInt8) : ℕ := ((runes s).map Rune.cost).sum

/-- What a character comes to within a string, and how many bytes that takes. -/
inductive Spelled : List UInt8 → ℕ → Prop
  | plain (bytes : List UInt8) (h : ∀ c ∈ bytes, Plain c) : Spelled bytes bytes.length
  | short (c : UInt8) (h : c ∈ ascii "bfnrt\\/\"") : Spelled [ch '\\', c] 2
  | long (digits : List UInt8) (hlen : digits.length = 4) (h : ∀ c ∈ digits, isHex c = true) :
      Spelled (ch '\\' :: ch 'u' :: digits) 6

theorem Spelled.length {text : List UInt8} {n : ℕ} (h : Spelled text n) : text.length = n := by
  cases h with
  | plain bytes h => rfl
  | short c h => rfl
  | long digits hlen h => rw [List.length_cons, List.length_cons, hlen]

theorem isHex_hex (v : UInt8) : isHex (hex v) = true := by
  have hall : ∀ c ∈ ascii "0123456789abcdef", isHex c = true := by decide +kernel
  unfold hex
  rw [List.getD_eq_getElem?_getD]
  cases hget : (ascii "0123456789abcdef")[v.toNat]? with
  | none => decide
  | some c => exact hall c (List.mem_of_getElem? hget)

/-- Only the bytes of ASCII have a meaning within a string. -/
theorem plain_of_high {c : UInt8} (h : 0x80 ≤ c) : Plain c := by
  refine ⟨?_, ?_, ?_⟩
  · rintro rfl
    exact absurd h (by decide)
  · rintro rfl
    exact absurd h (by decide)
  · exact UInt8.le_trans (by decide) h

/-- The bytes of a character of several bytes are none of ASCII. -/
def Rune.High (r : Rune) : Prop := ∀ bytes, r = .multi bytes → ∀ c ∈ bytes, 0x80 ≤ c

theorem Rune.spelled_single (b : UInt8) : Spelled (Rune.single b).escaped (Rune.single b).cost := by
  by_cases hshort : b = ch '\\' ∨ b = ch '"' ∨ b = 0x08 ∨ b = 0x0C ∨ b = 0x0A ∨ b = 0x0D ∨ b = 0x09
  · rcases hshort with rfl | rfl | rfl | rfl | rfl | rfl | rfl
    · exact .short (ch '\\') (by decide)
    · exact .short (ch '"') (by decide)
    · exact .short (ch 'b') (by decide)
    · exact .short (ch 'f') (by decide)
    · exact .short (ch 'n') (by decide)
    · exact .short (ch 'r') (by decide)
    · exact .short (ch 't') (by decide)
  · simp only [Rune.cost, if_neg hshort]
    simp only [not_or] at hshort
    obtain ⟨hback, hquote, h8, hC, hA, hD, h9⟩ := hshort
    by_cases hlong : b < 0x20 ∨ b = ch '<' ∨ b = ch '>' ∨ b = ch '&'
    · rw [if_pos hlong]
      simp only [Rune.escaped, if_neg (not_or.mpr ⟨hback, hquote⟩), if_neg h8, if_neg hC, if_neg hA, if_neg hD, if_neg h9,
        if_pos hlong]
      refine .long [ch '0', ch '0', hex (b >>> 4), hex (b &&& 0xF)] rfl ?_
      simp only [List.forall_mem_cons, isHex_hex]
      exact ⟨by decide, by decide, trivial, trivial, by simp⟩
    · rw [if_neg hlong]
      simp only [Rune.escaped, if_neg (not_or.mpr ⟨hback, hquote⟩), if_neg h8, if_neg hC, if_neg hA, if_neg hD, if_neg h9,
        if_neg hlong]
      have hlow : 0x20 ≤ b := UInt8.not_lt.mp fun h => hlong (.inl h)
      exact .plain [b] (by simpa using ⟨Ne.symm hquote, Ne.symm hback, hlow⟩)

theorem Rune.spelled (r : Rune) (hr : r.High) : Spelled r.escaped r.cost := by
  cases r with
  | single b => exact Rune.spelled_single b
  | multi bytes =>
    by_cases hline : bytes = [0xE2, 0x80, 0xA8]
    · subst hline
      exact .long (ascii "2028") rfl (by decide +kernel)
    · by_cases hparagraph : bytes = [0xE2, 0x80, 0xA9]
      · subst hparagraph
        exact .long (ascii "2029") rfl (by decide +kernel)
      · simp only [Rune.escaped, Rune.cost, if_neg hline, if_neg hparagraph, if_neg (not_or.mpr ⟨hline, hparagraph⟩)]
        exact .plain bytes fun c hc => plain_of_high (hr bytes rfl c hc)
  | invalid b => exact .long (ascii "fffd") rfl (by decide +kernel)

theorem follows_high {low high : UInt8} {rest : List UInt8} (hlow : 0x80 ≤ low) (h : follows low high rest = true) :
    ∀ c ∈ rest, 0x80 ≤ c := by
  cases rest with
  | nil => exact fun c hc => nomatch hc
  | cons b rest =>
    simp only [follows, Bool.and_eq_true, decide_eq_true_eq, List.all_eq_true] at h
    intro c hc
    cases List.mem_cons.mp hc with
    | inl hb => exact hb ▸ UInt8.le_trans hlow h.1.1
    | inr hc => exact (h.2 c hc).1

theorem leads_high {b : UInt8} {size : ℕ} {low high : UInt8} (h : leads b = some (size, low, high)) : 0x80 ≤ low := by
  unfold leads at h
  split_ifs at h <;> (obtain ⟨-, rfl, -⟩ := h; decide)

theorem decodeRune_high (b : UInt8) (rest : List UInt8) : (decodeRune b rest).High := by
  unfold decodeRune
  split
  · exact fun bytes h => nomatch h
  · next hb =>
    split
    · exact fun bytes h => nomatch h
    · next size low high hlead =>
      split
      · next hfollows =>
        intro bytes hbytes c hc
        obtain rfl := Rune.multi.inj hbytes
        cases List.mem_cons.mp hc with
        | inl hcb => exact hcb ▸ UInt8.not_lt.mp hb
        | inr hc => exact follows_high (leads_high hlead) hfollows.2 c hc
      · exact fun bytes h => nomatch h

theorem runesFrom_high (skip : ℕ) (s : List UInt8) : ∀ r ∈ runesFrom skip s, r.High := by
  induction s generalizing skip with
  | nil => exact fun r hr => nomatch hr
  | cons b rest ih =>
    cases skip with
    | succ skip => exact ih skip
    | zero =>
      intro r hr
      cases List.mem_cons.mp hr with
      | inl hr => exact hr ▸ decodeRune_high b rest
      | inr hr => exact ih _ r hr

theorem length_quoted (s : List UInt8) : (quoted s).length = cost s + 2 := by
  have hlength : (runes s).map (fun r => r.escaped.length) = (runes s).map Rune.cost :=
    List.map_congr_left fun r hr => (r.spelled (runesFrom_high 0 s r hr)).length
  rw [quoted, List.length_append, List.length_cons, List.length_flatMap, hlength, cost, List.length_singleton]

theorem leads_size {b : UInt8} {size : ℕ} {low high : UInt8} (h : leads b = some (size, low, high)) : size ≤ 4 := by
  unfold leads at h
  split_ifs at h <;> (obtain ⟨rfl, -⟩ := h; decide)

theorem cost_decodeRune (b : UInt8) (rest : List UInt8) : (decodeRune b rest).cost ≤ 6 := by
  unfold decodeRune
  split
  · unfold Rune.cost
    dsimp only
    split_ifs <;> decide
  · split
    · exact Nat.le_refl 6
    · next size low high hlead =>
      split
      · have hsize := leads_size hlead
        unfold Rune.cost
        dsimp only
        split_ifs
        · exact Nat.le_refl 6
        · rw [List.length_cons, List.length_take]
          omega
      · exact Nat.le_refl 6

theorem cost_le (s : List UInt8) : cost s ≤ 6 * s.length := by
  have hfrom : ∀ (s : List UInt8) (skip : ℕ), ((runesFrom skip s).map Rune.cost).sum ≤ 6 * s.length := by
    intro s
    induction s with
    | nil => exact fun _ => Nat.zero_le _
    | cons b rest ih =>
      intro skip
      rw [List.length_cons]
      cases skip with
      | succ skip =>
        have hrest := ih skip
        rw [runesFrom]
        omega
      | zero =>
        have hrest := ih ((decodeRune b rest).bytes.length - 1)
        have hfirst := cost_decodeRune b rest
        rw [runesFrom, List.map_cons, List.sum_cons]
        omega
  exact hfrom s 0

/-- A text of ASCII none of which is escaped takes its own length. -/
theorem cost_of_unescaped {s : List UInt8} (h : ∀ b ∈ s, b < 0x80 ∧ (Rune.single b).cost = 1) : cost s = s.length := by
  unfold cost runes
  induction s with
  | nil => rfl
  | cons b rest ih =>
    obtain ⟨hascii, hcost⟩ := h b (List.mem_cons_self ..)
    have hb : decodeRune b rest = .single b := if_pos hascii
    have hrest := ih fun b hb => h b (List.mem_cons_of_mem _ hb)
    rw [runesFrom, hb, List.map_cons, List.sum_cons, hcost, List.length_cons, Nat.add_comm]
    exact congrArg (· + 1) hrest

section Scanned
variable {nested : List Place} {l : List UInt8}

theorem step_plain {c : UInt8} (h : Plain c) :
    (Scanner.mk .inString nested).step c = (.scanContinue, ⟨.inString, nested⟩) := by
  obtain ⟨hquote, hback, hlow⟩ := h
  simp only [Scanner.step, if_neg (Ne.symm hquote), if_neg (Ne.symm hback), if_neg (UInt8.not_lt.mpr hlow), Scanner.goes]

theorem pass_plain (h : ∀ c ∈ l, Plain c) : (Scanner.mk .inString nested).pass l = some ⟨.inString, nested⟩ := by
  induction l with
  | nil => rfl
  | cons c l ih =>
    rw [Scanner.pass_cons (step_plain (h c (List.mem_cons_self ..)))]
    exact ih fun c hc => h c (List.mem_cons_of_mem _ hc)

theorem step_hex {c : UInt8} (h : isHex c = true) (left : ℕ) : (Scanner.mk (.inStringEscU (left + 2)) nested).step c =
    (.scanContinue, ⟨.inStringEscU (left + 1), nested⟩) := by
  have hmore : ¬left + 2 ≤ 1 := by omega
  simp only [Scanner.step, if_pos h, Scanner.goes, if_neg hmore, Nat.add_succ_sub_one]

theorem step_lastHex {c : UInt8} (h : isHex c = true) :
    (Scanner.mk (.inStringEscU 1) nested).step c = (.scanContinue, ⟨.inString, nested⟩) := by
  simp only [Scanner.step, if_pos h, Scanner.goes, if_pos (Nat.le_refl 1)]

theorem Spelled.pass {n : ℕ} (h : Spelled l n) : (Scanner.mk .inString nested).pass l = some ⟨.inString, nested⟩ := by
  cases h with
  | plain bytes h => exact pass_plain h
  | short c h =>
    have hstep : (Scanner.mk .inStringEsc nested).step c = (.scanContinue, ⟨.inString, nested⟩) := by
      simp only [Scanner.step, if_pos h, Scanner.goes]
    exact Scanner.pass_cons hstep
  | long digits hlen h =>
    match digits, hlen with
    | [d₁, d₂, d₃, d₄], _ =>
      simp only [List.forall_mem_cons] at h
      obtain ⟨h₁, h₂, h₃, h₄, -⟩ := h
      show (Scanner.mk (.inStringEscU 4) nested).pass [d₁, d₂, d₃, d₄] = some ⟨.inString, nested⟩
      rw [Scanner.pass_cons (step_hex h₁ 2), Scanner.pass_cons (step_hex h₂ 1), Scanner.pass_cons (step_hex h₃ 0),
        Scanner.pass_cons (step_lastHex h₄)]
      rfl

/-- **A quoted text** is one string to the scanner. -/
theorem pass_quoted (s : List UInt8) : (Scanner.mk .beginValue nested).pass (quoted s) = some ⟨.endValue, nested⟩ := by
  have hrunes : ∀ rs : List Rune, (∀ r ∈ rs, r.High) →
      (Scanner.mk .inString nested).pass (rs.flatMap Rune.escaped) = some ⟨.inString, nested⟩ := by
    intro rs hrs
    induction rs with
    | nil => rfl
    | cons r rs ih =>
      rw [List.flatMap_cons, Scanner.pass_append (r.spelled (hrs r (List.mem_cons_self ..))).pass]
      exact ih fun r hr => hrs r (List.mem_cons_of_mem _ hr)
  show (Scanner.mk .inString nested).pass ((runes s).flatMap Rune.escaped ++ [ch '"']) = some ⟨.endValue, nested⟩
  rw [Scanner.pass_append (hrunes (runes s) (runesFrom_high 0 s))]
  rfl

example : quoted (ascii "/a<b\n") = ascii "\"/a\\u003cb\\n\"" := by decide +kernel

end Scanned

/-! ## Byte slices -/

def base64Alphabet : List UInt8 := ascii "ABCDEFGHIJKLMNOPQRSTUVWXYZabcdefghijklmnopqrstuvwxyz0123456789+/"

def base64Char (v : UInt8) : UInt8 := base64Alphabet.getD v.toNat (ch '/')

/-- The standard encoding with padding: four characters for every three bytes. -/
def base64 : List UInt8 → List UInt8
  | [] => []
  | [a] => [base64Char (a >>> 2), base64Char ((a &&& 0x3) <<< 4), ch '=', ch '=']
  | [a, b] => [base64Char (a >>> 2), base64Char ((a &&& 0x3) <<< 4 ||| b >>> 4), base64Char ((b &&& 0xF) <<< 2), ch '=']
  | a :: b :: c :: rest =>
    base64Char (a >>> 2) :: base64Char ((a &&& 0x3) <<< 4 ||| b >>> 4) ::
      base64Char ((b &&& 0xF) <<< 2 ||| c >>> 6) :: base64Char (c &&& 0x3F) :: base64 rest

/-- A byte slice as the encoder writes it; a nil slice is `null`. -/
def byteSlice : Option (List UInt8) → List UInt8
  | none => ascii "null"
  | some bytes => ch '"' :: base64 bytes ++ [ch '"']

theorem plain_base64Char (v : UInt8) : Plain (base64Char v) := by
  have hall : ∀ c ∈ base64Alphabet, ch '"' ≠ c ∧ ch '\\' ≠ c ∧ 0x20 ≤ c := by decide +kernel
  unfold base64Char
  rw [List.getD_eq_getElem?_getD]
  cases hget : base64Alphabet[v.toNat]? with
  | none => exact ⟨by decide, by decide, by decide⟩
  | some c => exact hall c (List.mem_of_getElem? hget)

theorem plain_base64 (bytes : List UInt8) : ∀ c ∈ base64 bytes, Plain c := by
  have hpad : Plain (ch '=') := ⟨by decide, by decide, by decide⟩
  induction bytes using base64.induct with
  | case1 => exact fun c hc => nomatch hc
  | case2 a => simpa [base64] using ⟨plain_base64Char _, plain_base64Char _, hpad⟩
  | case3 a b => simpa [base64] using ⟨plain_base64Char _, plain_base64Char _, plain_base64Char _, hpad⟩
  | case4 a b c rest ih =>
    simpa [base64] using ⟨plain_base64Char _, plain_base64Char _, plain_base64Char _, plain_base64Char _, ih⟩

theorem length_base64 (bytes : List UInt8) : (base64 bytes).length = 4 * ((bytes.length + 2) / 3) := by
  induction bytes using base64.induct with
  | case1 => rfl
  | case2 a => simp [base64]
  | case3 a b => simp [base64]
  | case4 a b c rest ih =>
    simp only [base64, List.length_cons, ih]
    omega

theorem pass_byteSlice {nested : List Place} (bytes : Option (List UInt8)) :
    (Scanner.mk .beginValue nested).pass (byteSlice bytes) = some ⟨.endValue, nested⟩ := by
  cases bytes with
  | none => rfl
  | some bytes =>
    show (Scanner.mk .inString nested).pass (base64 bytes ++ [ch '"']) = some ⟨.endValue, nested⟩
    rw [Scanner.pass_append (pass_plain (plain_base64 bytes))]
    rfl

/-! ## Numbers -/

def decimal (n : ℕ) : List UInt8 := (Nat.toDigits 10 n).map ch

theorem length_decimal (n : ℕ) : (decimal n).length = Nat.log 10 n + 1 := by
  rw [decimal, List.length_map]
  refine Nat.le_antisymm ?_ ?_
  · exact (Nat.length_toDigits_le_iff (by decide) (Nat.succ_pos _)).mpr (Nat.lt_pow_succ_log_self (by decide) n)
  · by_contra hshort
    have hlog : 0 < Nat.log 10 n := by
      have hpos := Nat.length_toDigits_pos (b := 10) (n := n)
      omega
    have hlt := (Nat.length_toDigits_le_iff (b := 10) (n := n) (by decide) hlog).mp (by omega)
    have hle := Nat.pow_log_le_self 10 (x := n) (by rintro rfl; simp at hlog)
    omega

theorem decimal_of_le {n : ℕ} (h : 10 ≤ n) : decimal n = decimal (n / 10) ++ decimal (n % 10) := by
  have hlast : n % 10 < 10 := Nat.mod_lt n (by decide)
  rw [decimal, Nat.toDigits_of_base_le (by decide) h, List.map_append, decimal, decimal, Nat.toDigits_of_lt_base hlast]

theorem pass_digit {nested : List Place} {d : ℕ} (h : d < 10) :
    (Scanner.mk .digits nested).pass (decimal d) = some ⟨.digits, nested⟩ := by
  rw [decimal, Nat.toDigits_of_lt_base h]
  interval_cases d <;> rfl

/-- The state after a number: a zero stands alone. -/
theorem pass_decimal {nested : List Place} (n : ℕ) :
    (Scanner.mk .beginValue nested).pass (decimal n) = some ⟨if n = 0 then .zero else .digits, nested⟩ := by
  induction n using Nat.strong_induction_on with
  | _ n ih =>
    by_cases hn : n < 10
    · rw [decimal, Nat.toDigits_of_lt_base hn]
      interval_cases n <;> rfl
    · have hhead : n / 10 ≠ 0 := by omega
      have hzero : n ≠ 0 := by omega
      have hrest := ih (n / 10) (by omega)
      rw [if_neg hhead] at hrest
      rw [decimal_of_le (by omega), Scanner.pass_append hrest, if_neg hzero]
      exact pass_digit (Nat.mod_lt n (by decide))

/-- A signed number. -/
def integer (n : ℤ) : List UInt8 := if n < 0 then ch '-' :: decimal n.natAbs else decimal n.natAbs

end JsonText
