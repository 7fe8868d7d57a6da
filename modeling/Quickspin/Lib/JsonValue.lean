import Quickspin.Lib.JsonString

/-! JSON documents: how the encoder prints one, how the decoder parses a text into one, and that it parses what was printed.
A number is its text, and a string the bytes it stands for. -/
namespace JsonText
set_option autoImplicit false

inductive Value
  | null
  | bool (b : Bool)
  | number (text : List UInt8)
  | string (s : List UInt8)
  | array (items : List Value)
  | object (fields : List (List UInt8 × Value))

/-! ## Printing -/

mutual

/-- Without spaces, the fields in the order they have. -/
def Value.print : Value → List UInt8
  | .null => ascii "null"
  | .bool true => ascii "true"
  | .bool false => ascii "false"
  | .number text => text
  | .string s => quoted s
  | .array [] => [ch '[', ch ']']
  | .array (v :: rest) => ch '[' :: (v.print ++ printItems rest)
  | .object [] => [ch '{', ch '}']
  | .object ((k, v) :: rest) => ch '{' :: (quoted k ++ ch ':' :: (v.print ++ printFields rest))

def printItems : List Value → List UInt8
  | [] => [ch ']']
  | v :: rest => ch ',' :: (v.print ++ printItems rest)

def printFields : List (List UInt8 × Value) → List UInt8
  | [] => [ch '}']
  | (k, v) :: rest => ch ',' :: (quoted k ++ ch ':' :: (v.print ++ printFields rest))

end

/-! ## Parsing -/

def skipSpace (s : List UInt8) : List UInt8 := s.dropWhile isSpace

/-- What follows the byte, spaces before it left out. -/
def expect (c : UInt8) (s : List UInt8) : Option (List UInt8) :=
  match skipSpace s with
  | [] => none
  | x :: rest => if x = c then some rest else none

/-- A byte of a number's text. -/
def numberByte (c : UInt8) : Bool := isDigit c || c = ch '-' || c = ch '+' || c = ch '.' || c = ch 'e' || c = ch 'E'

def parseLiteral (s : List UInt8) : Option (Value × List UInt8) :=
  if (ascii "null").isPrefixOf s then some (.null, s.drop 4)
  else if (ascii "true").isPrefixOf s then some (.bool true, s.drop 4)
  else if (ascii "false").isPrefixOf s then some (.bool false, s.drop 5)
  else if s.takeWhile numberByte = [] then none
  else some (.number (s.takeWhile numberByte), s.dropWhile numberByte)

mutual

/-- A value and what follows it; every value takes one unit of `fuel`, and so does every field. -/
def parseValue : ℕ → List UInt8 → Option (Value × List UInt8)
  | 0, _ => none
  | fuel + 1, s =>
    match skipSpace s with
    | [] => none
    | c :: rest =>
      if c = ch '{' then
        match expect (ch '}') rest with
        | some rest => some (.object [], rest)
        | none => do
          let (first, rest) ← parseField fuel rest
          let (more, rest) ← parseFields fuel rest
          return (.object (first :: more), rest)
      else if c = ch '[' then
        match expect (ch ']') rest with
        | some rest => some (.array [], rest)
        | none => do
          let (first, rest) ← parseValue fuel rest
          let (more, rest) ← parseItems fuel rest
          return (.array (first :: more), rest)
      else if c = ch '"' then do
        let (text, rest) ← stringText false rest
        let s ← unescape text
        return (.string s, rest)
      else parseLiteral (c :: rest)

/-- What follows an item of an array. -/
def parseItems : ℕ → List UInt8 → Option (List Value × List UInt8)
  | 0, _ => none
  | fuel + 1, s =>
    match skipSpace s with
    | [] => none
    | c :: rest =>
      if c = ch ']' then some ([], rest)
      else if c = ch ',' then do
        let (first, rest) ← parseValue fuel rest
        let (more, rest) ← parseItems fuel rest
        return (first :: more, rest)
      else none

def parseField : ℕ → List UInt8 → Option ((List UInt8 × Value) × List UInt8)
  | 0, _ => none
  | fuel + 1, s => do
    let rest ← expect (ch '"') s
    let (text, rest) ← stringText false rest
    let key ← unescape text
    let rest ← expect (ch ':') rest
    let (v, rest) ← parseValue fuel rest
    return ((key, v), rest)

/-- What follows a field of an object. -/
def parseFields : ℕ → List UInt8 → Option (List (List UInt8 × Value) × List UInt8)
  | 0, _ => none
  | fuel + 1, s =>
    match skipSpace s with
    | [] => none
    | c :: rest =>
      if c = ch '}' then some ([], rest)
      else if c = ch ',' then do
        let (first, rest) ← parseField fuel rest
        let (more, rest) ← parseFields fuel rest
        return (first :: more, rest)
      else none

end

/-- The value a text begins with. -/
def parse (s : List UInt8) : Option Value := (parseValue s.length s).map (·.1)

/-! ## What is printed parses -/

mutual

/-- The value with what is no UTF-8 in its strings replaced. -/
def Value.coerced : Value → Value
  | .string s => .string (JsonText.coerced s)
  | .array items => .array (coercedItems items)
  | .object fields => .object (coercedFields fields)
  | v => v

def coercedItems : List Value → List Value
  | [] => []
  | v :: rest => v.coerced :: coercedItems rest

def coercedFields : List (List UInt8 × Value) → List (List UInt8 × Value)
  | [] => []
  | (k, v) :: rest => (JsonText.coerced k, v.coerced) :: coercedFields rest

end

/-- A state in which a value may be over. -/
def State.Ended (st : State) : Prop := st = .endValue ∨ st = .zero ∨ st = .digits ∨ st = .fraction ∨ st = .exponent

/-- The text of a number, as the scanner takes it. -/
structure NumberText (text : List UInt8) : Prop where
  nonempty : text ≠ []
  bytes : ∀ c ∈ text, numberByte c = true
  scanned : ∃ st : State, st.Ended ∧ ∀ nested, (Scanner.mk .beginValue nested).pass text = some ⟨st, nested⟩

mutual

/-- Every number in the value is the text of one. -/
def Value.Printable : Value → Prop
  | .number text => NumberText text
  | .array items => PrintableItems items
  | .object fields => PrintableFields fields
  | _ => True

def PrintableItems : List Value → Prop
  | [] => True
  | v :: rest => v.Printable ∧ PrintableItems rest

def PrintableFields : List (List UInt8 × Value) → Prop
  | [] => True
  | (_, v) :: rest => v.Printable ∧ PrintableFields rest

end

/-- A number ends before what follows. -/
def Stops (rest : List UInt8) : Prop := ∀ c ∈ rest.head?, numberByte c = false

section Parse
variable {c : UInt8} {rest : List UInt8}

theorem skipSpace_cons (h : isSpace c = false) : skipSpace (c :: rest) = c :: rest := by
  rw [skipSpace, List.dropWhile_cons_of_neg (by simp [h])]

theorem expect_cons (h : isSpace c = false) : expect c (c :: rest) = some rest := by
  rw [expect, skipSpace_cons h]
  exact if_pos rfl

theorem expect_ne {x : UInt8} (h : isSpace x = false) (hx : x ≠ c) : expect c (x :: rest) = none := by
  rw [expect, skipSpace_cons h]
  exact if_neg hx

/-- A byte that a number may begin with. -/
theorem not_space_of_numberByte (h : numberByte c = true) :
    isSpace c = false ∧ c ≠ ch '{' ∧ c ≠ ch '[' ∧ c ≠ ch '"' ∧ c ≠ ch '}' ∧ c ≠ ch ']' ∧ c ≠ ch 'n' ∧ c ≠ ch 't' ∧ c ≠ ch 'f' := by
  have hall : ∀ n, n < 256 → numberByte n.toUInt8 = true → isSpace n.toUInt8 = false ∧ n.toUInt8 ≠ ch '{' ∧ n.toUInt8 ≠ ch '[' ∧
      n.toUInt8 ≠ ch '"' ∧ n.toUInt8 ≠ ch '}' ∧ n.toUInt8 ≠ ch ']' ∧ n.toUInt8 ≠ ch 'n' ∧ n.toUInt8 ≠ ch 't' ∧
      n.toUInt8 ≠ ch 'f' := by decide +kernel
  have hc := hall c.toNat c.toNat_lt
  rw [Nat.toUInt8_eq, UInt8.ofNat_toNat] at hc
  exact hc h

/-- No value begins with a space or with the end of another. -/
theorem print_head {v : Value} (h : v.Printable) :
    ∃ c l, v.print = c :: l ∧ isSpace c = false ∧ c ≠ ch '}' ∧ c ≠ ch ']' := by
  cases v with
  | null => exact ⟨ch 'n', ascii "ull", rfl, by decide, by decide, by decide⟩
  | bool b =>
    cases b with
    | true => exact ⟨ch 't', ascii "rue", rfl, by decide, by decide, by decide⟩
    | false => exact ⟨ch 'f', ascii "alse", rfl, by decide, by decide, by decide⟩
  | string s => exact ⟨ch '"', _, rfl, by decide, by decide, by decide⟩
  | number text =>
    obtain ⟨hne, hbytes, -⟩ := h
    cases text with
    | nil => exact absurd rfl hne
    | cons c l =>
      obtain ⟨hspace, -, -, -, hbrace, hbracket, -⟩ := not_space_of_numberByte (hbytes c (List.mem_cons_self ..))
      exact ⟨c, l, rfl, hspace, hbrace, hbracket⟩
  | array items => cases items <;> exact ⟨ch '[', _, rfl, by decide, by decide, by decide⟩
  | object fields =>
    cases fields with
    | nil => exact ⟨ch '{', _, rfl, by decide, by decide, by decide⟩
    | cons e fields =>
      obtain ⟨k, v⟩ := e
      exact ⟨ch '{', _, rfl, by decide, by decide, by decide⟩

theorem stops_items (items : List Value) (rest : List UInt8) : Stops (printItems items ++ rest) := by
  cases items with
  | nil =>
    rintro c hc
    obtain rfl := Option.some.inj hc
    decide
  | cons v items =>
    rintro c hc
    obtain rfl := Option.some.inj hc
    decide

theorem stops_fields (fields : List (List UInt8 × Value)) (rest : List UInt8) : Stops (printFields fields ++ rest) := by
  cases fields with
  | nil =>
    rintro c hc
    obtain rfl := Option.some.inj hc
    decide
  | cons e fields =>
    obtain ⟨k, v⟩ := e
    rintro c hc
    obtain rfl := Option.some.inj hc
    decide

theorem takeWhile_number {text : List UInt8} (h : ∀ c ∈ text, numberByte c = true) (hrest : Stops rest) :
    (text ++ rest).takeWhile numberByte = text ∧ (text ++ rest).dropWhile numberByte = rest := by
  induction text with
  | nil =>
    cases rest with
    | nil => exact ⟨rfl, rfl⟩
    | cons c rest =>
      have hc : ¬numberByte c = true := by simp [hrest c rfl]
      exact ⟨List.takeWhile_cons_of_neg hc, List.dropWhile_cons_of_neg hc⟩
  | cons c text ih =>
    have hc := h c (List.mem_cons_self ..)
    obtain ⟨htake, hdrop⟩ := ih fun c hc => h c (List.mem_cons_of_mem _ hc)
    rw [List.cons_append, List.takeWhile_cons_of_pos hc, List.dropWhile_cons_of_pos hc, htake, hdrop]
    exact ⟨rfl, rfl⟩

theorem parseLiteral_number {text : List UInt8} (h : NumberText text) (hrest : Stops rest) :
    parseLiteral (text ++ rest) = some (.number text, rest) := by
  obtain ⟨hne, hbytes, -⟩ := h
  obtain ⟨htake, hdrop⟩ := takeWhile_number hbytes hrest
  have hprefix : ∀ {x : UInt8} {word : List UInt8}, numberByte x = false → (x :: word).isPrefixOf (text ++ rest) = false := by
    intro x word hx
    cases text with
    | nil => exact absurd rfl hne
    | cons c text =>
      have hcx : x ≠ c := by
        rintro rfl
        rw [hbytes x (List.mem_cons_self ..)] at hx
        cases hx
      rw [List.cons_append, List.isPrefixOf, beq_eq_false_iff_ne.mpr hcx, Bool.false_and]
  have hnull : ascii "null" = ch 'n' :: ascii "ull" := rfl
  have htrue : ascii "true" = ch 't' :: ascii "rue" := rfl
  have hfalse : ascii "false" = ch 'f' :: ascii "alse" := rfl
  rw [parseLiteral, hnull, htrue, hfalse, hprefix (by decide), hprefix (by decide), hprefix (by decide), htake, hdrop, if_neg hne]
  rfl

/-- A quoted text within another. -/
theorem read_quoted (s rest : List UInt8) : quoted s ++ rest = ch '"' :: ((runes s).flatMap Rune.escaped ++ ch '"' :: rest) := by
  rw [quoted, List.append_assoc, List.cons_append, List.singleton_append]

/-- A value that parses again where it was printed. -/
def Value.Parses (v : Value) : Prop := ∀ fuel rest, v.print.length ≤ fuel → Stops rest →
  parseValue fuel (v.print ++ rest) = some (v.coerced, rest)

theorem parseField_print {v : Value} (hv : v.Parses) (k : List UInt8) (fuel : ℕ)
    (hfuel : (quoted k ++ ch ':' :: v.print).length ≤ fuel) (hrest : Stops rest) :
    parseField fuel (quoted k ++ ch ':' :: (v.print ++ rest)) = some ((coerced k, v.coerced), rest) := by
  have hquoted := length_quoted k
  rw [List.length_append, List.length_cons] at hfuel
  cases fuel with
  | zero => omega
  | succ fuel =>
    have hcolon : isSpace (ch ':') = false := by decide
    have hvalue := hv fuel rest (by omega) hrest
    rw [read_quoted, parseField, expect_cons (by decide)]
    simp only [Option.bind_eq_bind, Option.bind_some, stringText_quoted, unescape_escaped, expect_cons hcolon, hvalue]
    rfl

theorem parses_null : Value.null.Parses := by
  intro fuel rest hfuel _
  cases fuel with
  | zero => exact absurd hfuel (by decide)
  | succ fuel => rfl

theorem parses_bool (b : Bool) : (Value.bool b).Parses := by
  intro fuel rest hfuel _
  cases fuel with
  | zero => cases b <;> exact absurd hfuel (by decide)
  | succ fuel => cases b <;> rfl

theorem parses_string (s : List UInt8) : (Value.string s).Parses := by
  intro fuel rest hfuel _
  cases fuel with
  | zero => exact absurd hfuel (by rw [Value.print, length_quoted]; omega)
  | succ fuel =>
    rw [Value.print, read_quoted, parseValue, skipSpace_cons (by decide)]
    dsimp only
    rw [if_neg (by decide), if_neg (by decide), if_pos rfl, stringText_quoted]
    simp only [Option.bind_eq_bind, Option.bind_some, unescape_escaped]
    rfl

theorem parses_number {text : List UInt8} (h : NumberText text) : (Value.number text).Parses := by
  intro fuel rest hfuel hrest
  have hliteral := parseLiteral_number h hrest
  obtain ⟨hne, hbytes, -⟩ := h
  cases text with
  | nil => exact absurd rfl hne
  | cons c text =>
    obtain ⟨hspace, hbrace, hbracket, hquote, -⟩ := not_space_of_numberByte (hbytes c (List.mem_cons_self ..))
    cases fuel with
    | zero => exact absurd hfuel (by rw [Value.print, List.length_cons]; omega)
    | succ fuel =>
      rw [List.cons_append] at hliteral
      rw [Value.print, List.cons_append, parseValue, skipSpace_cons hspace]
      dsimp only
      rw [if_neg hbrace, if_neg hbracket, if_neg hquote]
      exact hliteral

/-- The items that parse again where they were printed. -/
def ItemsParse (items : List Value) : Prop := ∀ fuel rest, (printItems items).length ≤ fuel →
  parseItems fuel (printItems items ++ rest) = some (coercedItems items, rest)

def FieldsParse (fields : List (List UInt8 × Value)) : Prop := ∀ fuel rest, (printFields fields).length ≤ fuel →
  parseFields fuel (printFields fields ++ rest) = some (coercedFields fields, rest)

theorem itemsParse_nil : ItemsParse [] := by
  intro fuel rest hfuel
  cases fuel with
  | zero => exact absurd hfuel (by decide)
  | succ fuel => rfl

theorem fieldsParse_nil : FieldsParse [] := by
  intro fuel rest hfuel
  cases fuel with
  | zero => exact absurd hfuel (by decide)
  | succ fuel => rfl

theorem itemsParse_cons {v : Value} {items : List Value} (hv : v.Parses) (hitems : ItemsParse items) :
    ItemsParse (v :: items) := by
  intro fuel rest hfuel
  rw [printItems, List.length_cons, List.length_append] at hfuel
  cases fuel with
  | zero => omega
  | succ fuel =>
    rw [printItems, List.cons_append, List.append_assoc, parseItems, skipSpace_cons (by decide)]
    dsimp only
    rw [if_neg (by decide), if_pos rfl, hv fuel _ (by omega) (stops_items items rest)]
    simp only [Option.bind_eq_bind, Option.bind_some, hitems fuel rest (by omega)]
    rfl

theorem fieldsParse_cons {v : Value} {fields : List (List UInt8 × Value)} (hv : v.Parses) (hfields : FieldsParse fields)
    (k : List UInt8) : FieldsParse ((k, v) :: fields) := by
  intro fuel rest hfuel
  simp only [printFields, List.length_cons, List.length_append] at hfuel
  cases fuel with
  | zero => omega
  | succ fuel =>
    have hfield := parseField_print hv k fuel (by simp only [List.length_append, List.length_cons]; omega)
      (stops_fields fields rest)
    rw [printFields, List.cons_append, List.append_assoc, List.cons_append, List.append_assoc, parseFields,
      skipSpace_cons (by decide)]
    dsimp only
    rw [if_neg (by decide), if_pos rfl, hfield]
    simp only [Option.bind_eq_bind, Option.bind_some, hfields fuel rest (by omega)]
    rfl

theorem parses_array_nil : (Value.array []).Parses := by
  intro fuel rest hfuel _
  cases fuel with
  | zero => exact absurd hfuel (by decide)
  | succ fuel => rfl

theorem parses_array_cons {v : Value} {items : List Value} (hv : v.Parses) (hprint : v.Printable) (hitems : ItemsParse items) :
    (Value.array (v :: items)).Parses := by
  intro fuel rest hfuel _
  rw [Value.print, List.length_cons, List.length_append] at hfuel
  cases fuel with
  | zero => omega
  | succ fuel =>
    obtain ⟨c, l, hhead, hspace, -, hbracket⟩ := print_head hprint
    have hopen : expect (ch ']') (v.print ++ (printItems items ++ rest)) = none := by
      rw [hhead, List.cons_append]
      exact expect_ne hspace hbracket
    rw [Value.print, List.cons_append, List.append_assoc, parseValue, skipSpace_cons (by decide)]
    dsimp only
    rw [if_neg (by decide), if_pos rfl, hopen]
    dsimp only
    rw [hv fuel _ (by omega) (stops_items items rest)]
    simp only [Option.bind_eq_bind, Option.bind_some, hitems fuel rest (by omega)]
    rfl

theorem parses_object_nil : (Value.object []).Parses := by
  intro fuel rest hfuel _
  cases fuel with
  | zero => exact absurd hfuel (by decide)
  | succ fuel => rfl

theorem parses_object_cons {v : Value} {fields : List (List UInt8 × Value)} (hv : v.Parses) (hfields : FieldsParse fields)
    (k : List UInt8) : (Value.object ((k, v) :: fields)).Parses := by
  intro fuel rest hfuel _
  simp only [Value.print, List.length_cons, List.length_append] at hfuel
  cases fuel with
  | zero => omega
  | succ fuel =>
    have hfield := parseField_print hv k fuel (by simp only [List.length_append, List.length_cons]; omega)
      (stops_fields fields rest)
    have hopen : expect (ch '}') (quoted k ++ ch ':' :: (v.print ++ (printFields fields ++ rest))) = none :=
      expect_ne (by decide) (by decide)
    rw [Value.print, List.cons_append, List.append_assoc, List.cons_append, List.append_assoc, parseValue,
      skipSpace_cons (by decide)]
    dsimp only
    rw [if_pos rfl, hopen]
    dsimp only
    rw [hfield]
    simp only [Option.bind_eq_bind, Option.bind_some, hfields fuel rest (by omega)]
    rfl

mutual

theorem parses_printable : ∀ v : Value, v.Printable → v.Parses
  | .null, _ => parses_null
  | .bool b, _ => parses_bool b
  | .number _, h => parses_number h
  | .string s, _ => parses_string s
  | .array [], _ => parses_array_nil
  | .array (v :: items), h => parses_array_cons (parses_printable v h.1) h.1 (itemsParse_printable items h.2)
  | .object [], _ => parses_object_nil
  | .object ((k, v) :: fields), h => parses_object_cons (parses_printable v h.1) (fieldsParse_printable fields h.2) k

theorem itemsParse_printable : ∀ items : List Value, PrintableItems items → ItemsParse items
  | [], _ => itemsParse_nil
  | v :: items, h => itemsParse_cons (parses_printable v h.1) (itemsParse_printable items h.2)

theorem fieldsParse_printable : ∀ fields : List (List UInt8 × Value), PrintableFields fields → FieldsParse fields
  | [], _ => fieldsParse_nil
  | (k, v) :: fields, h => fieldsParse_cons (parses_printable v h.1) (fieldsParse_printable fields h.2) k

end

/-- **Documents**: a document that is printed parses as itself, with what is no UTF-8 in its strings replaced; what follows it
in the text is left alone. -/
theorem parse_print {v : Value} (h : v.Printable) (hrest : Stops rest) : parse (v.print ++ rest) = some v.coerced := by
  rw [parse, parses_printable v h _ rest (by rw [List.length_append]; omega) hrest]
  rfl

end Parse

/-! ## What is printed is scanned -/

mutual

/-- How many objects and arrays are open at once within the value. -/
def Value.depth : Value → ℕ
  | .array items => depthItems items + 1
  | .object fields => depthFields fields + 1
  | _ => 0

def depthItems : List Value → ℕ
  | [] => 0
  | v :: rest => max v.depth (depthItems rest)

def depthFields : List (List UInt8 × Value) → ℕ
  | [] => 0
  | (_, v) :: rest => max v.depth (depthFields rest)

end

theorem depthItems_le {n : ℕ} : ∀ {items : List Value}, (∀ v ∈ items, v.depth ≤ n) → depthItems items ≤ n
  | [], _ => Nat.zero_le n
  | v :: _, h => Nat.max_le.mpr ⟨h v (List.mem_cons_self ..), depthItems_le fun w hw => h w (List.mem_cons_of_mem _ hw)⟩

theorem depthFields_le {n : ℕ} : ∀ {fields : List (List UInt8 × Value)}, (∀ e ∈ fields, e.2.depth ≤ n) → depthFields fields ≤ n
  | [], _ => Nat.zero_le n
  | e :: _, h => Nat.max_le.mpr ⟨h e (List.mem_cons_self ..), depthFields_le fun e' he => h e' (List.mem_cons_of_mem _ he)⟩

/-- The scanner after a text in which objects and arrays may end, but not the outermost. -/
def Scanner.through (s : Scanner) : List UInt8 → Option Scanner
  | [] => some s
  | c :: rest =>
    match s.step c with
    | (.scanContinue, s) => s.through rest
    | (.scanEndComposite, s) => if s.nested = [] then none else (s.stateEndValue (ch ' ')).2.through rest
    | _ => none

section Scan
variable {s s' : Scanner} {c : UInt8} {l l' rest seen : List UInt8} {nested outer : List Place} {st : State}

theorem Scanner.through_cons (h : s.step c = (.scanContinue, s')) : s.through (c :: rest) = s'.through rest := by
  rw [Scanner.through, h]

/-- The end of an object or an array within another. -/
theorem Scanner.through_pop {place : Place} (h : s.step c = pop (place :: outer)) :
    s.through (c :: rest) = (Scanner.mk .endValue (place :: outer)).through rest := by
  rw [Scanner.through, h, pop]
  dsimp only
  rw [if_neg (List.cons_ne_nil _ _)]
  rfl

theorem Scanner.through_append (h : s.through l = some s') : s.through (l ++ l') = s'.through l' := by
  induction l generalizing s with
  | nil =>
    obtain rfl := Option.some.inj h
    rfl
  | cons c l ih =>
    rw [List.cons_append, Scanner.through]
    rw [Scanner.through] at h
    cases hstep : s.step c with
    | mk op s₁ =>
      rw [hstep] at h
      cases op with
      | scanContinue => exact ih h
      | scanEndComposite =>
        dsimp only at h ⊢
        by_cases hnested : s₁.nested = []
        · rw [if_pos hnested] at h
          cases h
        · rw [if_neg hnested] at h ⊢
          exact ih h
      | scanEnd | scanError => cases h

theorem Scanner.through_of_pass (h : s.pass l = some s') : s.through l = some s' := by
  induction l generalizing s with
  | nil => exact h
  | cons c l ih =>
    rw [Scanner.pass] at h
    rw [Scanner.through]
    cases hstep : s.step c with
    | mk op s₁ =>
      rw [hstep] at h
      cases op with
      | scanContinue => exact ih h
      | scanEndComposite | scanEnd | scanError => cases h

/-- What follows a value that is over is seen by what is around it. -/
theorem step_ended (h : st.Ended) (hc : numberByte c = false) :
    (Scanner.mk st nested).step c = (Scanner.mk st nested).stateEndValue c := by
  have hdigit : isDigit c = false := by
    cases hd : isDigit c with
    | false => rfl
    | true => rw [numberByte, hd] at hc; cases hc
  have hdot : c ≠ ch '.' := by
    rintro rfl
    exact absurd hc (by decide)
  have he : ¬(c = ch 'e' ∨ c = ch 'E') := by
    rintro (rfl | rfl) <;> exact absurd hc (by decide)
  have hdigit' : ¬isDigit c = true := by simp [hdigit]
  rcases h with rfl | rfl | rfl | rfl | rfl
  · rfl
  · simp only [Scanner.step, Scanner.stateZero, if_neg hdot, if_neg he]
  · simp only [Scanner.step, Scanner.stateZero, if_neg hdot, if_neg he, if_neg hdigit']
  · simp only [Scanner.step, if_neg he, if_neg hdigit']
  · simp only [Scanner.step, if_neg hdigit']

/-- A value that is scanned where it was printed: to a state in which it may be over, or up to the end of its object or
array. -/
def Value.Scanned (v : Value) : Prop := ∀ nested : List Place, nested.length + v.depth ≤ Scanner.maxNestingDepth →
  (∃ st : State, st.Ended ∧ (Scanner.mk .beginValue nested).through v.print = some ⟨st, nested⟩) ∨
    ∃ l close s, v.print = l ++ [close] ∧ (Scanner.mk .beginValue nested).through l = some s ∧ s.step close = Scanner.pop nested

/-- A value within an object or an array. -/
theorem Value.Scanned.within {v : Value} (h : v.Scanned) (place : Place) (outer : List Place)
    (hdepth : outer.length + 1 + v.depth ≤ Scanner.maxNestingDepth) : ∃ st : State, st.Ended ∧
      (Scanner.mk .beginValue (place :: outer)).through v.print = some ⟨st, place :: outer⟩ := by
  rcases h (place :: outer) hdepth with hended | ⟨l, close, s, hprint, hthrough, hclose⟩
  · exact hended
  · refine ⟨.endValue, .inl rfl, ?_⟩
    rw [hprint, Scanner.through_append hthrough, Scanner.through_pop hclose]
    rfl

/-- The items up to the bracket that ends them. -/
def ItemsScanned (items : List Value) : Prop := ∃ l, printItems items = l ++ [ch ']'] ∧
  ∀ (st : State) (outer : List Place), st.Ended → outer.length + 1 + depthItems items ≤ Scanner.maxNestingDepth →
    ∃ st' : State, st'.Ended ∧ (Scanner.mk st (.arrayValue :: outer)).through l = some ⟨st', .arrayValue :: outer⟩

/-- The fields up to the brace that ends them. -/
def FieldsScanned (fields : List (List UInt8 × Value)) : Prop := ∃ l, printFields fields = l ++ [ch '}'] ∧
  ∀ (st : State) (outer : List Place), st.Ended → outer.length + 1 + depthFields fields ≤ Scanner.maxNestingDepth →
    ∃ st' : State, st'.Ended ∧ (Scanner.mk st (.objectValue :: outer)).through l = some ⟨st', .objectValue :: outer⟩

theorem itemsScanned_nil : ItemsScanned [] := ⟨[], rfl, fun st _ hst _ => ⟨st, hst, rfl⟩⟩

theorem fieldsScanned_nil : FieldsScanned [] := ⟨[], rfl, fun st _ hst _ => ⟨st, hst, rfl⟩⟩

theorem itemsScanned_cons {v : Value} {items : List Value} (hv : v.Scanned) (hitems : ItemsScanned items) :
    ItemsScanned (v :: items) := by
  obtain ⟨l, hprint, hscan⟩ := hitems
  refine ⟨ch ',' :: (v.print ++ l), by rw [printItems, hprint, List.cons_append, List.append_assoc], fun st outer hst hdepth => ?_⟩
  rw [depthItems] at hdepth
  obtain ⟨st₁, hst₁, hvalue⟩ := hv.within .arrayValue outer (by omega)
  have hcomma : (Scanner.mk st (.arrayValue :: outer)).step (ch ',') = (.scanContinue, ⟨.beginValue, .arrayValue :: outer⟩) :=
    step_ended hst (by decide)
  rw [Scanner.through_cons hcomma, Scanner.through_append hvalue]
  exact hscan st₁ outer hst₁ (by omega)

/-- A field behind the byte before its key. -/
theorem scanned_field {v : Value} (hv : v.Scanned) (k : List UInt8) (outer : List Place) {s : Scanner}
    (hs : s.step (ch '"') = (.scanContinue, ⟨.inString, .objectKey :: outer⟩))
    (hdepth : outer.length + 1 + v.depth ≤ Scanner.maxNestingDepth) : ∃ st : State, st.Ended ∧
      s.through (quoted k ++ ch ':' :: v.print) = some ⟨st, .objectValue :: outer⟩ := by
  obtain ⟨st, hst, hvalue⟩ := hv.within .objectValue outer hdepth
  refine ⟨st, hst, ?_⟩
  have hkey : s.through (quoted k) = some ⟨.endValue, .objectKey :: outer⟩ := by
    have hpass : (Scanner.mk .beginValue (.objectKey :: outer)).through (quoted k) = some ⟨.endValue, .objectKey :: outer⟩ :=
      Scanner.through_of_pass (pass_quoted k)
    rw [quoted, List.cons_append, Scanner.through_cons hs]
    exact hpass
  have hcolon : (Scanner.mk .endValue (.objectKey :: outer)).step (ch ':') =
      (.scanContinue, ⟨.beginValue, .objectValue :: outer⟩) := rfl
  rw [Scanner.through_append hkey, Scanner.through_cons hcolon]
  exact hvalue

theorem fieldsScanned_cons {v : Value} {fields : List (List UInt8 × Value)} (hv : v.Scanned) (hfields : FieldsScanned fields)
    (k : List UInt8) : FieldsScanned ((k, v) :: fields) := by
  obtain ⟨l, hprint, hscan⟩ := hfields
  refine ⟨ch ',' :: ((quoted k ++ ch ':' :: v.print) ++ l), ?_, fun st outer hst hdepth => ?_⟩
  · rw [printFields, hprint]
    simp only [List.cons_append, List.append_assoc]
  · rw [depthFields] at hdepth
    obtain ⟨st₁, hst₁, hfield⟩ := scanned_field hv k outer (s := ⟨.beginString, .objectKey :: outer⟩) rfl (by omega)
    have hcomma : (Scanner.mk st (.objectValue :: outer)).step (ch ',') =
        (.scanContinue, ⟨.beginString, .objectKey :: outer⟩) := step_ended hst (by decide)
    rw [Scanner.through_cons hcomma, Scanner.through_append hfield]
    exact hscan st₁ outer hst₁ (by omega)

theorem step_push {state : State} {place : Place} (h : nested.length + 1 ≤ Scanner.maxNestingDepth) :
    (Scanner.mk .beginValue nested).push state place = (.scanContinue, ⟨state, place :: nested⟩) := if_pos h

/-- The first item of an array may not be its end. -/
theorem step_beginValueOrEmpty (hspace : isSpace c = false) (hbracket : c ≠ ch ']') :
    (Scanner.mk .beginValueOrEmpty nested).step c = (Scanner.mk .beginValue nested).step c := by
  have hnospace : ¬isSpace c = true := by simp [hspace]
  simp only [Scanner.step, if_neg hbracket, Scanner.stateBeginValue, if_neg hnospace]
  rfl

theorem scanned_array_nil : (Value.array []).Scanned := by
  intro nested hdepth
  refine .inr ⟨[ch '['], ch ']', ⟨.beginValueOrEmpty, .arrayValue :: nested⟩, rfl, ?_, rfl⟩
  have hopen : (Scanner.mk .beginValue nested).step (ch '[') = (.scanContinue, ⟨.beginValueOrEmpty, .arrayValue :: nested⟩) :=
    step_push hdepth
  rw [Scanner.through_cons hopen]
  rfl

theorem scanned_object_nil : (Value.object []).Scanned := by
  intro nested hdepth
  refine .inr ⟨[ch '{'], ch '}', ⟨.beginStringOrEmpty, .objectKey :: nested⟩, rfl, ?_, rfl⟩
  have hopen : (Scanner.mk .beginValue nested).step (ch '{') = (.scanContinue, ⟨.beginStringOrEmpty, .objectKey :: nested⟩) :=
    step_push hdepth
  rw [Scanner.through_cons hopen]
  rfl

theorem scanned_array_cons {v : Value} {items : List Value} (hv : v.Scanned) (hprint : v.Printable)
    (hitems : ItemsScanned items) : (Value.array (v :: items)).Scanned := by
  intro nested hdepth
  obtain ⟨l, hl, hscan⟩ := hitems
  rw [Value.depth, depthItems] at hdepth
  obtain ⟨st, hst, hvalue⟩ := hv.within .arrayValue nested (by omega)
  obtain ⟨st', hst', hrest⟩ := hscan st nested hst (by omega)
  refine .inr ⟨ch '[' :: (v.print ++ l), ch ']', ⟨st', .arrayValue :: nested⟩, ?_, ?_, step_ended hst' (by decide)⟩
  · rw [Value.print, hl, List.cons_append, List.append_assoc]
  · have hopen : (Scanner.mk .beginValue nested).step (ch '[') =
        (.scanContinue, ⟨.beginValueOrEmpty, .arrayValue :: nested⟩) := step_push (by omega)
    obtain ⟨c, text, hhead, hspace, -, hbracket⟩ := print_head hprint
    have hfirst : (Scanner.mk .beginValueOrEmpty (.arrayValue :: nested)).through v.print = some ⟨st, .arrayValue :: nested⟩ := by
      rw [hhead, Scanner.through] at hvalue ⊢
      rw [step_beginValueOrEmpty hspace hbracket]
      exact hvalue
    rw [Scanner.through_cons hopen, Scanner.through_append hfirst]
    exact hrest

theorem scanned_object_cons {v : Value} {fields : List (List UInt8 × Value)} (hv : v.Scanned) (hfields : FieldsScanned fields)
    (k : List UInt8) : (Value.object ((k, v) :: fields)).Scanned := by
  intro nested hdepth
  obtain ⟨l, hl, hscan⟩ := hfields
  rw [Value.depth, depthFields] at hdepth
  obtain ⟨st, hst, hfield⟩ := scanned_field hv k nested (s := ⟨.beginStringOrEmpty, .objectKey :: nested⟩) rfl (by omega)
  obtain ⟨st', hst', hrest⟩ := hscan st nested hst (by omega)
  refine .inr ⟨ch '{' :: ((quoted k ++ ch ':' :: v.print) ++ l), ch '}', ⟨st', .objectValue :: nested⟩, ?_, ?_,
    step_ended hst' (by decide)⟩
  · rw [Value.print, hl]
    simp only [List.cons_append, List.append_assoc]
  · have hopen : (Scanner.mk .beginValue nested).step (ch '{') =
        (.scanContinue, ⟨.beginStringOrEmpty, .objectKey :: nested⟩) := step_push (by omega)
    rw [Scanner.through_cons hopen, Scanner.through_append hfield]
    exact hrest

theorem scanned_text {v : Value} (h : ∃ st : State, st.Ended ∧ ∀ nested, (Scanner.mk .beginValue nested).pass v.print =
    some ⟨st, nested⟩) : v.Scanned := by
  obtain ⟨st, hst, hpass⟩ := h
  exact fun nested _ => .inl ⟨st, hst, Scanner.through_of_pass (hpass nested)⟩

mutual

theorem scanned_printable : ∀ v : Value, v.Printable → v.Scanned
  | .null, _ => scanned_text ⟨.endValue, .inl rfl, fun _ => rfl⟩
  | .bool true, _ => scanned_text ⟨.endValue, .inl rfl, fun _ => rfl⟩
  | .bool false, _ => scanned_text ⟨.endValue, .inl rfl, fun _ => rfl⟩
  | .number _, h => scanned_text h.scanned
  | .string s, _ => scanned_text ⟨.endValue, .inl rfl, fun _ => pass_quoted s⟩
  | .array [], _ => scanned_array_nil
  | .array (v :: items), h => scanned_array_cons (scanned_printable v h.1) h.1 (itemsScanned_printable items h.2)
  | .object [], _ => scanned_object_nil
  | .object ((k, v) :: fields), h => scanned_object_cons (scanned_printable v h.1) (fieldsScanned_printable fields h.2) k

theorem itemsScanned_printable : ∀ items : List Value, PrintableItems items → ItemsScanned items
  | [], _ => itemsScanned_nil
  | v :: items, h => itemsScanned_cons (scanned_printable v h.1) (itemsScanned_printable items h.2)

theorem fieldsScanned_printable : ∀ fields : List (List UInt8 × Value), PrintableFields fields → FieldsScanned fields
  | [], _ => fieldsScanned_nil
  | (k, v) :: fields, h => fieldsScanned_cons (scanned_printable v h.1) (fieldsScanned_printable fields h.2) k

end

/-! ## What is printed is read -/

end Scan

/-! ## Integers -/

end JsonText
