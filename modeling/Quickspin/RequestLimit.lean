import Quickspin.Classify
import Quickspin.Lib.JsonText

/-! The bodies of requests as bytes: what `Client.WriteFile` sends, and how `decodeBody` of `internal/httpapi` reads one
value from a body up to the limit. A path is its bytes. -/
namespace Quickspin
open JsonText
set_option autoImplicit false

/-! ## The wire -/

namespace Api

def CodeInvalidRequest : String := "invalid_request"
def CodeNotFound : String := "not_found"
def CodeConflict : String := "conflict"
def CodeUnprocessable : String := "unprocessable"
def CodeTooLarge : String := "too_large"
def CodeTimeout : String := "timeout"
def CodeInternal : String := "internal"

open HttpApi in
def CodeForStatus (status : ℕ) : String :=
  if status = StatusBadRequest then CodeInvalidRequest
  else if status = StatusNotFound then CodeNotFound
  else if status = StatusConflict then CodeConflict
  else if status = StatusUnprocessableEntity then CodeUnprocessable
  else if status = StatusRequestEntityTooLarge then CodeTooLarge
  else if status = StatusGatewayTimeout then CodeTimeout
  else CodeInternal

/-- A nil content is `none`. -/
structure WriteInSandboxRequest where
  path : List UInt8
  content : Option (List UInt8)
  fileMode : Int64

/-- `json.Marshal` -/
def WriteInSandboxRequest.marshal (r : WriteInSandboxRequest) : List UInt8 :=
  ascii "\x7b\"path\":" ++ quoted r.path ++ ascii ",\"content\":" ++ byteSlice r.content ++ ascii ",\"fileMode\":" ++
    integer r.fileMode.toInt ++ [ch '}']

end Api

/-- The body of `Client.WriteFile`. -/
def Client.writeBody (path : List UInt8) (content : Option (List UInt8)) (mode : Docker.FileMode) : List UInt8 :=
  (Api.WriteInSandboxRequest.mk path content (Int64.ofNat mode.toNat)).marshal

/-! ## The limit -/

namespace HttpApi

def maxRequestBytes : ℕ := Runtime.MaxFileSize / 3 * 4 + 4096

/-- What arrives of a body before it ends, or fails. -/
structure Body where
  bytes : List UInt8
  failure : Option String

inductive BodyError
  | tooLarge (limit : ℕ)
  | failed (text : String)

/-- `http.MaxBytesReader`: what lies beyond the limit is not delivered but an error. -/
def maxBytesReader (limit : ℕ) (body : Body) : List UInt8 × Option BodyError :=
  if limit < body.bytes.length then (body.bytes.take limit, some (.tooLarge limit))
  else (body.bytes, body.failure.map .failed)

/-- The status of a rejected request, and the envelope of its error. -/
structure Rejection where
  status : ℕ
  code : String
  message : String

/-- An empty code is filled in from the status. -/
def fail (status : ℕ) (code message : String) : Rejection :=
  ⟨status, if code == "" then Api.CodeForStatus status else code, message⟩

/-- Read one value and unmarshal it; what follows it in the body is not looked at. -/
def decodeBody {τ : Type} (unmarshal : List UInt8 → Except String τ) (what : String) (body : Body) : Except Rejection τ :=
  let (arrived, failure) := maxBytesReader maxRequestBytes body
  match readValue failure .reset [] arrived with
  | .error (.reader (.tooLarge _)) =>
    .error (fail StatusRequestEntityTooLarge "" "request body is larger than the server allows")
  | .error _ => .error (fail StatusBadRequest Api.CodeInvalidRequest ("request body is not a valid " ++ what))
  | .ok value =>
    match unmarshal value with
    | .error _ => .error (fail StatusBadRequest Api.CodeInvalidRequest ("request body is not a valid " ++ what))
    | .ok v => .ok v

/-! ## The size of a write -/

/-- The content within the body, its quotes included. -/
def contentSize : Option (List UInt8) → ℕ
  | none => 4
  | some bytes => 4 * ((bytes.length + 2) / 3) + 2

/-- What a write takes: its path, each character as it is escaped, its content in base64, and the digits of its mode. -/
def writeSize (path : List UInt8) (content : Option (List UInt8)) (mode : Docker.FileMode) : ℕ :=
  34 + cost path + contentSize content + (Nat.log 10 mode.toNat + 1)

section Size
variable {path : List UInt8} {content : Option (List UInt8)} {mode : Docker.FileMode}

theorem length_byteSlice (content : Option (List UInt8)) : (byteSlice content).length = contentSize content := by
  cases content with
  | none => rfl
  | some bytes =>
    rw [byteSlice, List.length_append, List.length_cons, length_base64, contentSize]
    rfl

theorem integer_mode (mode : Docker.FileMode) : integer (Int64.ofNat mode.toNat).toInt = decimal mode.toNat := by
  have hlt : mode.toNat < 2 ^ 32 := mode.toNat_lt
  have hmode : (Int64.ofNat mode.toNat).toInt = (mode.toNat : ℤ) := Int64.toInt_ofNat_of_lt (by omega)
  rw [integer, hmode, if_neg (by omega), Int.natAbs_natCast]

theorem length_writeBody (path : List UInt8) (content : Option (List UInt8)) (mode : Docker.FileMode) :
    (Client.writeBody path content mode).length = writeSize path content mode := by
  simp only [Client.writeBody, Api.WriteInSandboxRequest.marshal, integer_mode, List.length_append, length_quoted,
    length_byteSlice, length_decimal, writeSize]
  have hkeys : (ascii "\x7b\"path\":").length = 8 ∧ (ascii ",\"content\":").length = 11 ∧
      (ascii ",\"fileMode\":").length = 12 ∧ [ch '}'].length = 1 := ⟨rfl, rfl, rfl, rfl⟩
  omega

/-- Up to its last byte the body is within one object. -/
theorem pass_writeBody (path : List UInt8) (content : Option (List UInt8)) (mode : Docker.FileMode) :
    ∃ l s, Client.writeBody path content mode = l ++ [ch '}'] ∧ Scanner.reset.pass l = some s ∧
      s.step (ch '}') = Scanner.pop [] := by
  have hpath : Scanner.reset.pass (ascii "\x7b\"path\":" ++ quoted path) = some ⟨.endValue, [.objectValue]⟩ := by
    have hkey : Scanner.reset.pass (ascii "\x7b\"path\":") = some ⟨.beginValue, [.objectValue]⟩ := rfl
    rw [Scanner.pass_append hkey]
    exact pass_quoted path
  have hcontent : (Scanner.mk .endValue [.objectValue]).pass (ascii ",\"content\":" ++ byteSlice content) =
      some ⟨.endValue, [.objectValue]⟩ := by
    have hkey : (Scanner.mk .endValue [.objectValue]).pass (ascii ",\"content\":") = some ⟨.beginValue, [.objectValue]⟩ := rfl
    rw [Scanner.pass_append hkey]
    exact pass_byteSlice content
  have hmode : (Scanner.mk .endValue [.objectValue]).pass (ascii ",\"fileMode\":" ++ decimal mode.toNat) =
      some ⟨if mode.toNat = 0 then .zero else .digits, [.objectValue]⟩ := by
    have hkey : (Scanner.mk .endValue [.objectValue]).pass (ascii ",\"fileMode\":") = some ⟨.beginValue, [.objectValue]⟩ := rfl
    rw [Scanner.pass_append hkey]
    exact pass_decimal mode.toNat
  refine ⟨(ascii "\x7b\"path\":" ++ quoted path) ++ ((ascii ",\"content\":" ++ byteSlice content) ++
    (ascii ",\"fileMode\":" ++ decimal mode.toNat)), ⟨if mode.toNat = 0 then .zero else .digits, [.objectValue]⟩, ?_, ?_, ?_⟩
  · simp only [Client.writeBody, Api.WriteInSandboxRequest.marshal, integer_mode, List.append_assoc]
  · rw [Scanner.pass_append hpath, Scanner.pass_append hcontent, hmode]
  · split_ifs <;> rfl

/-- **Paths of at most 4095 bytes** fit with every content that leaves room for the escapes of all of them. -/
theorem writeSize_le_of_room (hpath : path.length ≤ 4095)
    (hcontent : (content.getD []).length ≤ Runtime.MaxFileSize - 15391) : writeSize path content mode ≤ maxRequestBytes := by
  have hcost := cost_le path
  have hdigits : Nat.log 10 mode.toNat < 10 := by
    have hlt : mode.toNat < 2 ^ 32 := mode.toNat_lt
    exact Nat.log_lt_of_lt_pow' (by decide) (by omega)
  have hlimit : maxRequestBytes = 13985108 := rfl
  have hmax : Runtime.MaxFileSize = 10485760 := rfl
  have hsize : contentSize content ≤ 13960494 := by
    cases content with
    | none => exact Nat.le_of_ble_eq_true rfl
    | some bytes =>
      rw [Option.getD_some] at hcontent
      rw [contentSize]
      omega
  rw [writeSize]
  omega

end Size

/-! ## What becomes of it -/

section Decoded
variable {τ : Type} {unmarshal : List UInt8 → Except String τ} {what : String} {l : List UInt8} {s : Scanner}

theorem decodeBody_within (hpass : Scanner.reset.pass l = some s) (hclose : s.step (ch '}') = Scanner.pop [])
    (hfits : (l ++ [ch '}']).length ≤ maxRequestBytes) :
    decodeBody unmarshal what ⟨l ++ [ch '}'], none⟩ =
      (unmarshal (l ++ [ch '}'])).mapError fun _ =>
        fail StatusBadRequest Api.CodeInvalidRequest ("request body is not a valid " ++ what) := by
  have hread : readValue (none : Option BodyError) .reset [] (l ++ [ch '}']) = .ok (l ++ [ch '}']) :=
    readValue_object hpass hclose
  rw [decodeBody, maxBytesReader, if_neg (Nat.not_lt.mpr hfits)]
  dsimp only [Option.map_none]
  rw [hread]
  dsimp only
  cases unmarshal (l ++ [ch '}']) with
  | error text => rfl
  | ok v => rfl

theorem decodeBody_beyond (hpass : Scanner.reset.pass l = some s) (hlarge : maxRequestBytes < (l ++ [ch '}']).length) :
    decodeBody unmarshal what ⟨l ++ [ch '}'], none⟩ =
      .error (fail StatusRequestEntityTooLarge "" "request body is larger than the server allows") := by
  have hcut : (l ++ [ch '}']).take maxRequestBytes = l.take maxRequestBytes := by
    rw [List.length_append, List.length_singleton] at hlarge
    exact List.take_append_of_le_length (by omega)
  have hread : readValue (some (BodyError.tooLarge maxRequestBytes)) .reset [] (l.take maxRequestBytes) =
      .error (.reader (.tooLarge maxRequestBytes)) := readValue_cut hpass maxRequestBytes
  rw [decodeBody, maxBytesReader, if_pos hlarge]
  dsimp only
  rw [hcut, hread]

end Decoded

theorem writeBody_answered (path : List UInt8) (content : Option (List UInt8)) (mode : Docker.FileMode) {τ : Type}
    (unmarshal : List UInt8 → Except String τ) (what : String) :
    (∃ r, decodeBody unmarshal what ⟨Client.writeBody path content mode, none⟩ = .error r ∧
      r.status = StatusRequestEntityTooLarge) ↔ maxRequestBytes < (Client.writeBody path content mode).length := by
  obtain ⟨l, s, htext, hpass, hclose⟩ := pass_writeBody path content mode
  rw [htext]
  constructor
  · rintro ⟨r, hr, hstatus⟩
    by_contra hfits
    rw [decodeBody_within hpass hclose (Nat.not_lt.mp hfits)] at hr
    obtain ⟨_, -, rfl⟩ := mapError_eq_error.mp hr
    exact absurd (show StatusBadRequest = StatusRequestEntityTooLarge from hstatus) (by decide)
  · intro hlarge
    exact ⟨_, decodeBody_beyond hpass hlarge, rfl⟩

/-- **Writes and the request limit**: the body of a write fits, and is never answered with 413, if and only if its path as it
is escaped, its content in base64 and the digits of its mode leave the 34 bytes of the envelope. -/
theorem write_requests_fit (path : List UInt8) (content : Option (List UInt8)) (mode : Docker.FileMode) :
    ((Client.writeBody path content mode).length ≤ maxRequestBytes ∧
      ∀ {τ : Type} (unmarshal : List UInt8 → Except String τ) (what : String) (r : Rejection),
        decodeBody unmarshal what ⟨Client.writeBody path content mode, none⟩ = .error r →
          r.status ≠ StatusRequestEntityTooLarge) ↔
      34 + cost path + contentSize content + (Nat.log 10 mode.toNat + 1) ≤ maxRequestBytes := by
  have hsize : (Client.writeBody path content mode).length =
      34 + cost path + contentSize content + (Nat.log 10 mode.toNat + 1) := length_writeBody path content mode
  rw [hsize]
  constructor
  · exact fun h => h.1
  · refine fun hfits => ⟨hfits, fun unmarshal what r hr hstatus => ?_⟩
    have hlarge := (writeBody_answered path content mode unmarshal what).mp ⟨r, hr, hstatus⟩
    omega

/-! ## A write that is too large -/

/-- A path whose characters are its bytes. -/
def pathText (path : List UInt8) : String := String.ofList (path.map fun b => Char.ofNat b.toNat)

/-- The path of `n` letters below the root. -/
def letterPath (n : ℕ) : List UInt8 := ch '/' :: List.replicate n (ch 'a')

section Letters
variable {n : ℕ} {content : List UInt8}

theorem length_letterPath : (letterPath n).length = n + 1 := by rw [letterPath, List.length_cons, List.length_replicate]

theorem plain_letters (hn : 2 < n) : Paths.Plain (List.replicate n 'a') := by
  refine ⟨fun hnil => ?_, fun hdot => ?_, fun hdots => ?_, fun hslash => ?_⟩
  · have hlen := congrArg List.length hnil
    rw [List.length_replicate, List.length_nil] at hlen
    omega
  · have hlen := congrArg List.length hdot
    rw [List.length_replicate, List.length_singleton] at hlen
    omega
  · have hlen : n = 2 := by simpa using congrArg List.length hdots
    omega
  · exact absurd (List.mem_replicate.mp hslash).2 (by decide)

theorem validateWrite_letterPath (hn : 2 < n) (h : content.length ≤ Runtime.MaxFileSize) :
    Runtime.validateWrite (pathText (letterPath n)) content = .ok () := by
  have hleads : Leads (pathText (letterPath n)) [List.replicate n 'a'] := by
    refine ⟨?_, List.cons_ne_nil _ _, fun name hname => ?_⟩
    · rw [pathText, letterPath, String.toList_ofList, List.map_cons, List.map_replicate]
      exact congrArg (List.cons '/') (by simp [Paths.join, ch])
    · rw [List.mem_singleton.mp hname]
      exact plain_letters hn
  rw [Runtime.validateWrite, validateRead_iff.mpr ⟨_, hleads⟩]
  exact if_neg (Nat.not_lt.mpr h)

theorem cost_letterPath : cost (letterPath n) = n + 1 := by
  have hunescaped : ∀ b ∈ letterPath n, b < 0x80 ∧ (Rune.single b).cost = 1 := by
    intro b hb
    cases List.mem_cons.mp hb with
    | inl hb =>
      rw [hb]
      decide
    | inr hb =>
      rw [(List.mem_replicate.mp hb).2]
      decide
  rw [cost_of_unescaped hunescaped, length_letterPath]

end Letters

/-- A file of the largest size at a path of 4095 bytes, all of them letters: its body is 42 bytes too long. -/
theorem write_requests_rejected :
    ¬∀ (path : List UInt8) (content : Option (List UInt8)) (mode : Docker.FileMode),
      (content.getD []).length ≤ Runtime.MaxFileSize → path.length ≤ 4095 →
      Runtime.validateWrite (pathText path) (content.getD []) = .ok () →
      (Client.writeBody path content mode).length ≤ maxRequestBytes ∧
        ∀ {τ : Type} (unmarshal : List UInt8 → Except String τ) (what : String) (r : Rejection),
          decodeBody unmarshal what ⟨Client.writeBody path content mode, none⟩ = .error r →
            r.status ≠ StatusRequestEntityTooLarge := by
  intro hall
  have hlen : (List.replicate Runtime.MaxFileSize (0 : UInt8)).length = Runtime.MaxFileSize := List.length_replicate
  obtain ⟨hfits, -⟩ := hall (letterPath 4094) (some (List.replicate Runtime.MaxFileSize 0)) 0o644 hlen.le
    length_letterPath.le (validateWrite_letterPath (by decide) hlen.le)
  rw [length_writeBody, writeSize, cost_letterPath, contentSize, hlen] at hfits
  have hmode : Nat.log 10 (0o644 : Docker.FileMode).toNat = 2 := by
    show Nat.log 10 420 = 2
    exact Nat.log_eq_of_pow_le_of_lt_pow (by decide) (by decide)
  rw [hmode] at hfits
  exact absurd hfits (by decide)

end HttpApi
end Quickspin
