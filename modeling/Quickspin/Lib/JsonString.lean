import Quickspin.Lib.Utf8

/-! How the standard library's decoder reads strings, byte slices and numbers back: what it makes of each text the encoder
writes. A string that is no UTF-8 comes back with a replacement character for every byte that is part of none. -/
namespace JsonText
set_option autoImplicit false

/-! ## Strings -/

def hexValue (c : UInt8) : Option ℕ :=
  if isDigit c then some (c.toNat - 48)
  else if ch 'a' ≤ c && c ≤ ch 'f' then some (c.toNat - 87)
  else if ch 'A' ≤ c && c ≤ ch 'F' then some (c.toNat - 55)
  else none

/-- `getu4`: the four hex digits at the start. -/
def getu4 : List UInt8 → Option ℕ
  | a :: b :: c :: d :: _ => do
    let a ← hexValue a
    let b ← hexValue b
    let c ← hexValue c
    let d ← hexValue d
    return ((a * 16 + b) * 16 + c) * 16 + d
  | _ => none

def isSurrogate (r : ℕ) : Bool := 0xD800 ≤ r && r < 0xE000

/-- The code point of the two halves of a pair. -/
def decodePair (r₁ r₂ : ℕ) : Option ℕ :=
  if 0xD800 ≤ r₁ ∧ r₁ < 0xDC00 ∧ 0xDC00 ≤ r₂ ∧ r₂ < 0xE000 then some ((r₁ - 0xD800) * 1024 + (r₂ - 0xDC00) + 0x10000)
  else none

/-- The second half, where another escape follows at once. -/
def secondHalf : List UInt8 → Option ℕ
  | c :: u :: digits => if c = ch '\\' ∧ u = ch 'u' then getu4 digits else none
  | _ => none

/-- What a code point stands for by its digits, and how many bytes its escape takes after the backslash. A surrogate without
its other half is replaced. -/
def readCode (digits : List UInt8) : Option (List UInt8 × ℕ) :=
  match getu4 digits with
  | none => none
  | some r =>
    if isSurrogate r then
      match (secondHalf (digits.drop 4)).bind (decodePair r) with
      | some pair => some (encodeRune pair, 11)
      | none => some (replacement, 5)
    else some (encodeRune r, 5)

/-- What an escape stands for, by what follows its backslash, and how many bytes of that it takes. -/
def readEscape : List UInt8 → Option (List UInt8 × ℕ)
  | [] => none
  | e :: rest =>
    if e = ch '"' ∨ e = ch '\\' ∨ e = ch '/' ∨ e = ch '\'' then some ([e], 1)
    else if e = ch 'b' then some ([0x08], 1)
    else if e = ch 'f' then some ([0x0C], 1)
    else if e = ch 'n' then some ([0x0A], 1)
    else if e = ch 'r' then some ([0x0D], 1)
    else if e = ch 't' then some ([0x09], 1)
    else if e = ch 'u' then readCode rest
    else none

/-- What the first character of a string's text stands for, and how many bytes more it takes. -/
def readUnit (c : UInt8) (rest : List UInt8) : Option (List UInt8 × ℕ) :=
  if c = ch '\\' then readEscape rest
  else if c = ch '"' ∨ c < 0x20 then none
  else some ((decodeRune c rest).coerced, (decodeRune c rest).bytes.length - 1)

/-- `unquote` of a text but for its quotes and its first `skip` bytes. -/
def unescapeFrom : ℕ → List UInt8 → Option (List UInt8)
  | _, [] => some []
  | skip + 1, _ :: rest => unescapeFrom skip rest
  | 0, c :: rest =>
    match readUnit c rest with
    | none => none
    | some (bytes, more) => (unescapeFrom more rest).map (bytes ++ ·)

def unescape (text : List UInt8) : Option (List UInt8) := unescapeFrom 0 text

section Unescape
variable {rest : List UInt8}

theorem unescapeFrom_skip (l rest : List UInt8) : unescapeFrom l.length (l ++ rest) = unescapeFrom 0 rest := by
  induction l with
  | nil => rfl
  | cons c l ih => exact ih

/-- A character's text, read whatever follows it. -/
theorem unescapeFrom_unit {c : UInt8} {l bytes : List UInt8} (h : readUnit c (l ++ rest) = some (bytes, l.length)) :
    unescapeFrom 0 (c :: l ++ rest) = (unescapeFrom 0 rest).map (bytes ++ ·) := by
  rw [List.cons_append, unescapeFrom, h]
  dsimp only
  rw [unescapeFrom_skip]

theorem hexValue_hex {v : UInt8} (h : v < 16) : hexValue (hex v) = some v.toNat := by
  have hall : ∀ n, n < 16 → hexValue (hex n.toUInt8) = some n := by decide +kernel
  have hv := hall v.toNat h
  rwa [Nat.toUInt8_eq, UInt8.ofNat_toNat] at hv

/-- The escape of a code point that is no surrogate. -/
theorem unescapeFrom_code (digits : List UInt8) {r : ℕ} (hlen : digits.length = 4) (h : getu4 (digits ++ rest) = some r)
    (hr : isSurrogate r = false) :
    unescapeFrom 0 (ch '\\' :: ch 'u' :: digits ++ rest) = (unescapeFrom 0 rest).map (encodeRune r ++ ·) := by
  refine unescapeFrom_unit (l := ch 'u' :: digits) ?_
  have hcode : readCode (digits ++ rest) = some (encodeRune r, 5) := by
    simp only [readCode, h, hr]
    rfl
  rw [readUnit, if_pos rfl, List.length_cons, hlen]
  exact hcode

theorem getu4_halves {b : UInt8} : getu4 ([ch '0', ch '0', hex (b >>> 4), hex (b &&& 0xF)] ++ rest) = some b.toNat := by
  have hlt : b.toNat < 256 := b.toNat_lt
  have hhigh : (b >>> 4).toNat = b.toNat / 16 := by
    rw [UInt8.toNat_shiftRight]
    exact Nat.shiftRight_eq_div_pow b.toNat 4
  have hlow : (b &&& 0xF).toNat = b.toNat % 16 := by
    rw [UInt8.toNat_and]
    exact Nat.and_two_pow_sub_one_eq_mod b.toNat 4
  have hhex : hexValue (hex (b >>> 4)) = some (b.toNat / 16) := by
    rw [← hhigh]
    refine hexValue_hex ?_
    rw [UInt8.lt_iff_toNat_lt, hhigh]
    show b.toNat / 16 < 16
    omega
  have hhex' : hexValue (hex (b &&& 0xF)) = some (b.toNat % 16) := by
    rw [← hlow]
    refine hexValue_hex ?_
    rw [UInt8.lt_iff_toNat_lt, hlow]
    exact Nat.mod_lt _ (by decide)
  have hzero : hexValue (ch '0') = some 0 := by decide
  have hsplit : ((0 * 16 + 0) * 16 + b.toNat / 16) * 16 + b.toNat % 16 = b.toNat := by omega
  simp only [List.cons_append, getu4, hzero, hhex, hhex', Option.bind_eq_bind, Option.bind_some, hsplit]
  rfl

theorem encodeRune_ascii {b : UInt8} (hb : b < 0x80) : encodeRune b.toNat = [b] := by
  have hlt : b.toNat < 128 := hb
  rw [encodeRune, if_pos hlt, Nat.toUInt8_eq, UInt8.ofNat_toNat]

theorem unescapeFrom_single {b : UInt8} (hb : b < 0x80) :
    unescapeFrom 0 ((Rune.single b).escaped ++ rest) = (unescapeFrom 0 rest).map ([b] ++ ·) := by
  have hshort : ∀ e c : UInt8, readEscape (e :: rest) = some ([c], 1) →
      unescapeFrom 0 ([ch '\\', e] ++ rest) = (unescapeFrom 0 rest).map ([c] ++ ·) := by
    intro e c he
    refine unescapeFrom_unit (l := [e]) ?_
    rw [readUnit, if_pos rfl]
    exact he
  by_cases hsame : b = ch '\\' ∨ b = ch '"'
  · simp only [Rune.escaped, if_pos hsame]
    refine hshort b b ?_
    rcases hsame with rfl | rfl <;> rfl
  simp only [Rune.escaped, if_neg hsame]
  by_cases h8 : b = 0x08
  · subst h8
    exact hshort (ch 'b') 0x08 rfl
  by_cases hC : b = 0x0C
  · subst hC
    exact hshort (ch 'f') 0x0C rfl
  by_cases hA : b = 0x0A
  · subst hA
    exact hshort (ch 'n') 0x0A rfl
  by_cases hD : b = 0x0D
  · subst hD
    exact hshort (ch 'r') 0x0D rfl
  by_cases h9 : b = 0x09
  · subst h9
    exact hshort (ch 't') 0x09 rfl
  simp only [if_neg h8, if_neg hC, if_neg hA, if_neg hD, if_neg h9]
  by_cases hlong : b < 0x20 ∨ b = ch '<' ∨ b = ch '>' ∨ b = ch '&'
  · rw [if_pos hlong, ← encodeRune_ascii hb]
    refine unescapeFrom_code [ch '0', ch '0', hex (b >>> 4), hex (b &&& 0xF)] rfl getu4_halves ?_
    have hlt : b.toNat < 128 := hb
    have hlow : ¬0xD800 ≤ b.toNat := by omega
    rw [isSurrogate, decide_eq_false hlow, Bool.false_and]
  · rw [if_neg hlong]
    refine unescapeFrom_unit (l := []) ?_
    simp only [not_or] at hsame hlong
    have hrune : decodeRune b ([] ++ rest) = .single b := if_pos hb
    rw [readUnit, if_neg hsame.1, if_neg (not_or.mpr ⟨hsame.2, hlong.1⟩), hrune]
    rfl

/-- **One character**: what the encoder writes for it is read as what is left of it, whatever follows. -/
theorem unescapeFrom_escaped (b : UInt8) (text rest : List UInt8) :
    unescapeFrom 0 ((decodeRune b text).escaped ++ rest) =
      (unescapeFrom 0 rest).map ((decodeRune b text).coerced ++ ·) := by
  cases hrune : decodeRune b text with
  | invalid c => exact unescapeFrom_code (ascii "fffd") (r := 0xFFFD) rfl rfl rfl
  | single c =>
    refine unescapeFrom_single ?_
    unfold decodeRune at hrune
    split at hrune
    · next hb => exact Rune.single.inj hrune ▸ hb
    · split at hrune
      · cases hrune
      · split at hrune <;> cases hrune
  | multi bytes =>
    obtain ⟨tail, rfl, hhigh, hagain⟩ := decodeRune_append hrune rest
    by_cases hline : b :: tail = [0xE2, 0x80, 0xA8]
    · rw [hline]
      exact unescapeFrom_code (ascii "2028") (r := 0x2028) rfl rfl rfl
    by_cases hparagraph : b :: tail = [0xE2, 0x80, 0xA9]
    · rw [hparagraph]
      exact unescapeFrom_code (ascii "2029") (r := 0x2029) rfl rfl rfl
    simp only [Rune.escaped, if_neg hline, if_neg hparagraph]
    refine unescapeFrom_unit (l := tail) ?_
    obtain ⟨hquote, hback, hlow⟩ := plain_of_high hhigh
    rw [readUnit, if_neg (Ne.symm hback), if_neg (not_or.mpr ⟨Ne.symm hquote, UInt8.not_lt.mpr hlow⟩), hagain]
    rfl

/-- **Strings**: the text the encoder writes for a string is read as the string with what is no UTF-8 in it replaced. -/
theorem unescape_escaped (s : List UInt8) : unescape ((runes s).flatMap Rune.escaped) = some (coerced s) := by
  have hfrom : ∀ (s : List UInt8) (skip : ℕ), unescapeFrom 0 ((runesFrom skip s).flatMap Rune.escaped) =
      some ((runesFrom skip s).flatMap Rune.coerced) := by
    intro s
    induction s with
    | nil => exact fun skip => by cases skip <;> rfl
    | cons b rest ih =>
      intro skip
      cases skip with
      | succ skip => exact ih skip
      | zero =>
        rw [runesFrom, List.flatMap_cons, unescapeFrom_escaped, ih, Option.map_some, List.flatMap_cons]
  exact hfrom s 0

/-- `rescanLiteral` of a string: its text up to the quote that ends it, and what follows. A byte behind a backslash is passed
over. -/
def stringText : Bool → List UInt8 → Option (List UInt8 × List UInt8)
  | _, [] => none
  | true, c :: rest => (stringText false rest).map fun p => (c :: p.1, p.2)
  | false, c :: rest =>
    if c = ch '"' then some ([], rest)
    else (stringText (c = ch '\\') rest).map fun p => (c :: p.1, p.2)

theorem stringText_plain {l : List UInt8} (h : ∀ c ∈ l, Plain c) :
    stringText false (l ++ rest) = (stringText false rest).map fun p => (l ++ p.1, p.2) := by
  induction l with
  | nil => simp
  | cons c l ih =>
    obtain ⟨hquote, hback, -⟩ := h c (List.mem_cons_self ..)
    rw [List.cons_append, stringText, if_neg (Ne.symm hquote), decide_eq_false (Ne.symm hback),
      ih fun c hc => h c (List.mem_cons_of_mem _ hc), Option.map_map]
    rfl

theorem stringText_escape (e : UInt8) {l : List UInt8} (h : ∀ c ∈ l, Plain c) :
    stringText false (ch '\\' :: e :: l ++ rest) =
      (stringText false rest).map fun p => (ch '\\' :: e :: l ++ p.1, p.2) := by
  have hback : ch '\\' ≠ ch '"' := by decide
  rw [List.cons_append, List.cons_append, stringText, if_neg hback, decide_eq_true rfl, stringText, stringText_plain h,
    Option.map_map, Option.map_map]
  rfl

theorem plain_of_isHex {c : UInt8} (h : isHex c = true) : Plain c := by
  refine ⟨?_, ?_, ?_⟩
  · rintro rfl
    exact absurd h (by decide)
  · rintro rfl
    exact absurd h (by decide)
  · by_contra hlow
    have hall : ∀ n, n < 32 → isHex n.toUInt8 = false := by decide +kernel
    have hc := hall c.toNat (by simpa [UInt8.le_iff_toNat_le] using hlow)
    rw [Nat.toUInt8_eq, UInt8.ofNat_toNat, h] at hc
    cases hc

theorem Spelled.stringText {l : List UInt8} {n : ℕ} (h : Spelled l n) :
    JsonText.stringText false (l ++ rest) = (JsonText.stringText false rest).map fun p => (l ++ p.1, p.2) := by
  cases h with
  | plain bytes h => exact stringText_plain h
  | short c h => exact stringText_escape c (by simp)
  | long digits hlen h => exact stringText_escape (ch 'u') fun c hc => plain_of_isHex (h c hc)

/-- A quoted text ends at its own quote. -/
theorem stringText_quoted (s : List UInt8) :
    stringText false ((runes s).flatMap Rune.escaped ++ ch '"' :: rest) = some ((runes s).flatMap Rune.escaped, rest) := by
  have hrunes : ∀ rs : List Rune, (∀ r ∈ rs, r.High) →
      stringText false (rs.flatMap Rune.escaped ++ ch '"' :: rest) = some (rs.flatMap Rune.escaped, rest) := by
    intro rs hrs
    induction rs with
    | nil => rfl
    | cons r rs ih =>
      rw [List.flatMap_cons, List.append_assoc, (r.spelled (hrs r (List.mem_cons_self ..))).stringText,
        ih fun r hr => hrs r (List.mem_cons_of_mem _ hr)]
      rfl
  exact hrunes (runes s) (runesFrom_high 0 s)

end Unescape

/-! ## Byte slices -/

def base64Value (c : UInt8) : Option UInt8 := (base64Alphabet.idxOf? c).map Nat.toUInt8

/-- The standard decoding of a text without line breaks: groups of four, of which only the last may be padded. The bits that
a padded group leaves over are not looked at. -/
def decodeGroups : List UInt8 → Option (List UInt8)
  | [] => some []
  | a :: b :: c :: d :: rest => do
    let x ← base64Value a
    let y ← base64Value b
    if c = ch '=' then
      if d = ch '=' ∧ rest = [] then some [x <<< 2 ||| y >>> 4] else none
    else
      let z ← base64Value c
      if d = ch '=' then
        if rest = [] then some [x <<< 2 ||| y >>> 4, y <<< 4 ||| z >>> 2] else none
      else
        let w ← base64Value d
        let more ← decodeGroups rest
        some ((x <<< 2 ||| y >>> 4) :: (y <<< 4 ||| z >>> 2) :: (z <<< 6 ||| w) :: more)
  | _ => none

/-- Line breaks may stand anywhere. -/
def base64Decode (text : List UInt8) : Option (List UInt8) :=
  decodeGroups (text.filter fun c => c ≠ ch '\r' ∧ c ≠ ch '\n')

section Bits
variable (a b c : UInt8)

end Bits

def digitsValue (l : List UInt8) : ℕ := l.foldl (fun n c => 10 * n + (c.toNat - 48)) 0

def readNatural (l : List UInt8) : Option ℕ := if l ≠ [] ∧ l.all isDigit then some (digitsValue l) else none

/-- `strconv.ParseInt` in base 10 of a number's text, which has no plus sign; a fraction or an exponent is no integer. -/
def readInteger : List UInt8 → Option ℤ
  | [] => none
  | c :: rest => if c = ch '-' then (readNatural rest).map fun n : ℕ => -(n : ℤ)
    else (readNatural (c :: rest)).map fun n : ℕ => (n : ℤ)

end JsonText
