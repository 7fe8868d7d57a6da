import Quickspin.Errors
import Quickspin.Lib.Paths

/-! The archive of one file (`internal/runtime/docker/file_archive.go`) and the checks on file paths
(`internal/runtime/file_info.go`). An archive is the list of its entries, as `archive/tar` writes and reads
it; which headers the writer refuses is a parameter. A name is a sequence of characters, so a byte string
is one whose characters are its bytes. -/
namespace Quickspin
open Paths
set_option autoImplicit false

/-! ## Checks on paths -/

namespace Runtime

def MaxFileSize : ℕ := 10 <<< 20

def validatePath (p : String) : Except Err Unit :=
  if p == "" then .error (.sentinel .invalidPath)
  else if !isAbs p.toList then .error (.sentinel .invalidPath)
  else if p.toList ≠ clean p.toList then .error (.sentinel .invalidPath)
  else .ok ()

/-- `/` is a valid path but not a file to read or to write. -/
def validateRead (filePath : String) : Except Err Unit :=
  match validatePath filePath with
  | .error err => .error err
  | .ok () => if filePath == "/" then .error (.sentinel .invalidPath) else .ok ()

def validateRemove (p : String) : Except Err Unit := validateRead p

def validateWrite (filePath : String) (content : List UInt8) : Except Err Unit :=
  match validateRead filePath with
  | .error err => .error err
  | .ok () => if content.length > MaxFileSize then .error (.sentinel .fileTooLarge) else .ok ()

end Runtime

/-- `fmt.Errorf` with the error wrapped at the end of the message. -/
def errorf (message : String) (err : Err) : Err := .envelope "" message (some err)

/-! ## `archive/tar` -/

namespace Tar

/-- `other` is what is neither a regular file nor a directory. -/
inductive Typeflag
  | reg | dir | other
deriving DecidableEq

structure Header where
  name : String
  mode : ℕ
  size : ℕ
  typeflag : Typeflag
deriving DecidableEq

structure Entry where
  header : Header
  content : List UInt8
deriving DecidableEq

/-- The entries begun, the latest first, and how many bytes the latest still takes. -/
structure Writer where
  entries : List Entry
  remaining : ℕ

namespace Writer

def new : Writer := ⟨[], 0⟩

def flush (tw : Writer) : Except Err Unit :=
  if 0 < tw.remaining then .error (.foreign s!"archive/tar: missed writing {tw.remaining} bytes") else .ok ()

/-- Begin an entry; `refuses` is the error for a header that cannot be encoded. -/
def writeHeader (refuses : Header → Option String) (tw : Writer) (hdr : Header) : Except Err Writer :=
  match tw.flush with
  | .error err => .error err
  | .ok () =>
    match refuses hdr with
    | some text => .error (.foreign text)
    | none => .ok ⟨⟨hdr, []⟩ :: tw.entries, if hdr.typeflag = .reg then hdr.size else 0⟩

def write (tw : Writer) (b : List UInt8) : Except Err Writer :=
  if tw.remaining < b.length then .error (.foreign "archive/tar: write too long")
  else
    match tw.entries with
    | [] => .ok tw
    | e :: rest => .ok ⟨{ e with content := e.content ++ b } :: rest, tw.remaining - b.length⟩

def close (tw : Writer) : Except Err (List Entry) :=
  match tw.flush with
  | .error err => .error err
  | .ok () => .ok tw.entries.reverse

end Writer

/-- What a reader comes to: the entries with the bytes that arrive for each, and how the stream ends. -/
inductive Stream
  | eof
  | broken
  | entry (header : Header) (content : List UInt8) (rest : Stream)

/-- The entries that arrive before the stream ends or breaks. -/
def Stream.entries : Stream → List Entry
  | .eof | .broken => []
  | .entry header content rest => ⟨header, content⟩ :: rest.entries

/-- Every header parses. -/
def Stream.parses : Stream → Bool
  | .eof => true
  | .broken => false
  | .entry _ _ rest => rest.parses

end Tar

/-! ## One file -/

namespace Docker
open Tar

abbrev FileMode := UInt32

def FileMode.perm (mode : FileMode) : ℕ := (mode &&& 0o777).toNat

def archiveDirMode : ℕ := 0o750

/-- The path is one that `validateWrite` accepts. -/
def fileArchive (refuses : Header → Option String) (filePath : String) (content : List UInt8) (mode : FileMode) :
    Except Err (List Entry) := do
  let name := filePath.toList.drop 1
  let tokens := split name
  let tw ← (List.range (tokens.length - 1)).foldlM (fun tw i =>
    (tw.writeHeader refuses
      { name := String.ofList (join (tokens.take (i + 1)) ++ ['/'])
        mode := archiveDirMode
        size := 0
        typeflag := .dir }).mapError (errorf s!"creating tar header for {filePath}")) Writer.new
  let tw ← (tw.writeHeader refuses
    { name := String.ofList name
      mode := FileMode.perm mode
      size := content.length
      typeflag := .reg }).mapError (errorf s!"creating tar header for {filePath}")
  let tw ← (tw.write content).mapError (errorf s!"writing tar content for {filePath}")
  tw.close.mapError (errorf s!"closing tar archive for {filePath}")

/-- The first regular entry under the path's last name; links are not followed. -/
def fileUnarchive (filePath : String) : Stream → Except Err (List UInt8)
  | .eof => .error (.sentinel .pathNotFound)
  | .broken => .error (.foreign "failed parsing tar stream headers")
  | .entry header content rest =>
    if header.typeflag ≠ .reg ∨ header.name ≠ String.ofList (base filePath.toList) then fileUnarchive filePath rest
    else if header.size > Runtime.MaxFileSize then .error (.sentinel .fileTooLarge)
    else if content.length < header.size then
      .error (errorf "failed reading tar archive contents" (.foreign "unexpected EOF"))
    else .ok (content.take header.size)

end Docker

/-! ## What is accepted -/

/-- The text is a slash before one or more plain names. -/
structure Leads (p : String) (names : List Name) : Prop where
  text : p.toList = '/' :: join names
  ne_nil : names ≠ []
  plain : ∀ n ∈ names, Plain n

section Accepted
variable {p : String} {names : List Name} {content : List UInt8}

theorem validatePath_ok (h : Runtime.validatePath p = .ok ()) : isAbs p.toList = true ∧ p.toList = clean p.toList := by
  unfold Runtime.validatePath at h
  split at h
  · cases h
  · split at h
    · cases h
    · next habs =>
      split at h
      · cases h
      · next hclean => exact ⟨by simpa using habs, by simpa using hclean⟩

/-- **Accepted paths** lead by plain names to something below the root. -/
theorem validateRead_leads (h : Runtime.validateRead p = .ok ()) : Leads p (resolve true p.toList) := by
  unfold Runtime.validateRead at h
  cases hpath : Runtime.validatePath p with
  | error e =>
    rw [hpath] at h
    cases h
  | ok u =>
    rw [hpath] at h
    obtain ⟨habs, hclean⟩ := validatePath_ok hpath
    have htext := eq_join_of_clean habs hclean
    refine ⟨htext, fun hnil => ?_, resolve_plain⟩
    have hroot : p = "/" := by
      rw [hnil] at htext
      exact String.toList_inj.mp htext
    simp [hroot] at h

theorem validateWrite_ok (h : Runtime.validateWrite p content = .ok ()) :
    Runtime.validateRead p = .ok () ∧ content.length ≤ Runtime.MaxFileSize := by
  unfold Runtime.validateWrite at h
  cases hread : Runtime.validateRead p with
  | error e =>
    rw [hread] at h
    cases h
  | ok u =>
    rw [hread] at h
    dsimp only at h
    split at h
    · cases h
    · next hlen => exact ⟨rfl, Nat.le_of_not_lt hlen⟩

/-- A slash before plain names is its own cleaning. -/
theorem Leads.clean (h : Leads p names) : clean p.toList = p.toList := by
  have hrooted : isAbs p.toList = true := by
    rw [h.text]
    rfl
  have hresolve : resolve true p.toList = names := by
    rw [h.text, resolve_slash]
    exact (resolve_join h.ne_nil h.plain true).1
  unfold Paths.clean
  rw [hrooted, hresolve, h.text]
  simp

theorem Leads.ne_root (h : Leads p names) : p ≠ "/" := by
  rintro rfl
  have hjoin : join names = [] := (List.cons.inj h.text).2.symm
  obtain ⟨n, rest, hnames⟩ := List.exists_cons_of_ne_nil h.ne_nil
  have hn := h.plain n (hnames ▸ List.mem_cons_self ..)
  have hsplit := split_join h.ne_nil h.plain
  rw [hjoin, hnames] at hsplit
  have hnil : n = [] := (List.cons.inj hsplit).1.symm
  exact hn.1 hnil

theorem validatePath_clean (hne : p ≠ "") (habs : isAbs p.toList = true) (hclean : p.toList = clean p.toList) :
    Runtime.validatePath p = .ok () := by
  unfold Runtime.validatePath
  rw [if_neg (by simpa using hne), habs, if_neg (by decide), if_neg (not_not_intro hclean)]

theorem Leads.valid (h : Leads p names) : Runtime.validatePath p = .ok () := by
  have habs : isAbs p.toList = true := by
    rw [h.text]
    rfl
  refine validatePath_clean ?_ habs h.clean.symm
  rintro rfl
  have htext := h.text
  simp at htext

theorem validateRead_iff : Runtime.validateRead p = .ok () ↔ ∃ names, Leads p names := by
  constructor
  · intro h
    exact ⟨_, validateRead_leads h⟩
  · rintro ⟨names, h⟩
    unfold Runtime.validateRead
    rw [h.valid]
    exact if_neg (by simpa using h.ne_root)

theorem validatePath_iff {p : String} : Runtime.validatePath p = .ok () ↔ p = "/" ∨ ∃ names, Leads p names := by
  constructor
  · intro h
    by_cases hroot : p = "/"
    · exact .inl hroot
    · refine .inr (validateRead_iff.mp ?_)
      unfold Runtime.validateRead
      rw [h]
      exact if_neg (by simpa using hroot)
  · rintro (rfl | ⟨names, h⟩)
    · exact validatePath_clean (by decide) (by decide) (by decide)
    · exact h.valid

/-- **The grammar of paths**: the root, or a slash before one or more plain names; only the latter is a file to read or to
write. -/
theorem path_grammar (p : String) :
    (Runtime.validatePath p = .ok () ↔ p = "/" ∨ ∃ names, Leads p names) ∧
    (Runtime.validateRead p = .ok () ↔ Runtime.validatePath p = .ok () ∧ p ≠ "/") ∧
    ∀ content : List UInt8, Runtime.validateWrite p content = .ok () ↔
      (Runtime.validatePath p = .ok () ∧ p ≠ "/") ∧ content.length ≤ Runtime.MaxFileSize := by
  have hread : Runtime.validateRead p = .ok () ↔ Runtime.validatePath p = .ok () ∧ p ≠ "/" := by
    rw [validateRead_iff, validatePath_iff]
    constructor
    · rintro ⟨names, h⟩
      exact ⟨.inr ⟨names, h⟩, h.ne_root⟩
    · rintro ⟨rfl | h, hne⟩
      · exact absurd rfl hne
      · exact h
  refine ⟨validatePath_iff, hread, fun content => ?_⟩
  rw [← hread]
  constructor
  · exact validateWrite_ok
  · rintro ⟨h, hlen⟩
    unfold Runtime.validateWrite
    rw [h]
    exact if_neg (Nat.not_lt.mpr hlen)

namespace Docker
open Tar

def directoryEntry (names : List Name) : Entry :=
  ⟨⟨String.ofList (join names ++ ['/']), archiveDirMode, 0, .dir⟩, []⟩

def regularEntry (names : List Name) (mode : FileMode) (content : List UInt8) : Entry :=
  ⟨⟨String.ofList (join names), FileMode.perm mode, content.length, .reg⟩, content⟩

/-! ## What is written -/

section Written
variable {refuses : Header → Option String} {tw tw' : Writer} {hdr : Header} {mode : FileMode} {archive : List Entry}

theorem writeHeader_ok (h : tw.writeHeader refuses hdr = .ok tw') :
    tw' = ⟨⟨hdr, []⟩ :: tw.entries, if hdr.typeflag = .reg then hdr.size else 0⟩ := by
  unfold Writer.writeHeader at h
  split at h
  · cases h
  · split at h
    · cases h
    · exact (Except.ok.inj h).symm

theorem writeHeaders_ok {g : Err → Err} {hdr : ℕ → Header} (is : List ℕ)
    (h : is.foldlM (fun tw i => (Writer.writeHeader refuses tw (hdr i)).mapError g) tw = .ok tw') :
    tw'.entries = (is.map fun i => ⟨hdr i, []⟩).reverse ++ tw.entries := by
  induction is generalizing tw with
  | nil =>
    obtain rfl := Except.ok.inj h
    simp
  | cons i is ih =>
    rw [List.foldlM_cons] at h
    obtain ⟨tw₁, hstep, hrest⟩ := bind_eq_ok.mp h
    obtain rfl := writeHeader_ok (mapError_eq_ok.mp hstep)
    rw [ih hrest]
    simp

/-- **The archive of a file**: its ancestors, outermost first, and then the file. -/
theorem fileArchive_ok (hleads : Leads p names) (h : fileArchive refuses p content mode = .ok archive) :
    archive = (ancestors names).map directoryEntry ++ [regularEntry names mode content] := by
  have hname : p.toList.drop 1 = join names := by
    rw [hleads.text]
    rfl
  have htokens : split (join names) = names := split_join hleads.ne_nil hleads.plain
  unfold fileArchive at h
  dsimp only at h
  rw [hname, htokens] at h
  obtain ⟨tw₁, hdirs, h⟩ := bind_eq_ok.mp h
  obtain ⟨tw₂, hreg, h⟩ := bind_eq_ok.mp h
  obtain ⟨tw₃, hwrite, hclose⟩ := bind_eq_ok.mp h
  have h₁ := writeHeaders_ok _ hdirs
  have h₂ := writeHeader_ok (mapError_eq_ok.mp hreg)
  have h₃ : tw₃.entries = regularEntry names mode content :: tw₁.entries := by
    have hw := mapError_eq_ok.mp hwrite
    rw [h₂] at hw
    simp only [Writer.write, if_true, Nat.lt_irrefl, if_false] at hw
    obtain rfl := Except.ok.inj hw
    simp [regularEntry]
  have h₄ : archive = tw₃.entries.reverse := by
    have hc := mapError_eq_ok.mp hclose
    unfold Writer.close at hc
    split at hc
    · cases hc
    · exact (Except.ok.inj hc).symm
  rw [h₄, h₃, h₁]
  simp [Writer.new, ancestors, directoryEntry, Function.comp_def]

end Written

/-! ## What is read back -/

/-- The entry is the file itself. -/
def wanted (filePath : String) (e : Entry) : Bool :=
  e.header.typeflag = .reg && e.header.name = String.ofList (base filePath.toList)

theorem fileUnarchive_skip {header : Header} {bytes : List UInt8} {rest : Stream} (h : wanted p ⟨header, bytes⟩ = false) :
    fileUnarchive p (.entry header bytes rest) = fileUnarchive p rest := by
  have hskip : header.typeflag ≠ .reg ∨ header.name ≠ String.ofList (base p.toList) := by
    by_cases hreg : header.typeflag = .reg
    · right
      intro hname
      rw [wanted, hreg, hname] at h
      simp at h
    · exact .inl hreg
  rw [fileUnarchive, if_pos hskip]

theorem fileUnarchive_wanted {header : Header} {bytes : List UInt8} (rest : Stream) (h : wanted p ⟨header, bytes⟩ = true) :
    fileUnarchive p (.entry header bytes rest) =
      if header.size > Runtime.MaxFileSize then .error (.sentinel .fileTooLarge)
      else if bytes.length < header.size then
        .error (errorf "failed reading tar archive contents" (.foreign "unexpected EOF"))
      else .ok (bytes.take header.size) := by
  have hread : ¬(header.typeflag ≠ .reg ∨ header.name ≠ String.ofList (base p.toList)) := by
    have hboth : header.typeflag = .reg ∧ header.name = String.ofList (base p.toList) := by simpa [wanted] using h
    exact fun hor => hor.elim (fun hne => hne hboth.1) fun hne => hne hboth.2
  rw [fileUnarchive, if_neg hread]

/-- What a stream comes to: nothing of the file, or its entry. -/
theorem fileUnarchive_eq (s : Stream) : fileUnarchive p s =
    match s.entries.find? (wanted p) with
    | none => if s.parses then .error (.sentinel .pathNotFound) else .error (.foreign "failed parsing tar stream headers")
    | some e =>
      if e.header.size > Runtime.MaxFileSize then .error (.sentinel .fileTooLarge)
      else if e.content.length < e.header.size then
        .error (errorf "failed reading tar archive contents" (.foreign "unexpected EOF"))
      else .ok (e.content.take e.header.size) := by
  induction s with
  | eof => rfl
  | broken => rfl
  | entry header bytes rest ih =>
    cases hw : wanted p ⟨header, bytes⟩ with
    | true =>
      rw [fileUnarchive_wanted rest hw, Stream.entries, List.find?_cons_of_pos hw]
    | false =>
      rw [fileUnarchive_skip hw, ih, Stream.entries, List.find?_cons_of_neg (by simp [hw]), Stream.parses]

/-- **Reading a file out of an archive**: its first entry decides, whatever stands before and after it. -/
theorem fileUnarchive_exact (p : String) (s : Stream) :
    (∀ bytes, fileUnarchive p s = .ok bytes ↔ ∃ e, s.entries.find? (wanted p) = some e ∧
      e.header.size ≤ Runtime.MaxFileSize ∧ e.header.size ≤ e.content.length ∧ bytes = e.content.take e.header.size) ∧
    ((∃ err, fileUnarchive p s = .error err ∧ err.is .fileTooLarge = true) ↔
      ∃ e, s.entries.find? (wanted p) = some e ∧ Runtime.MaxFileSize < e.header.size) ∧
    ((∃ err, fileUnarchive p s = .error err ∧ err.is .pathNotFound = true) ↔
      s.entries.find? (wanted p) = none ∧ s.parses = true) := by
  rw [fileUnarchive_eq]
  cases hfind : s.entries.find? (wanted p) with
  | none =>
    cases hparses : s.parses with
    | true => simp
    | false => simp
  | some e =>
    by_cases hlarge : e.header.size > Runtime.MaxFileSize
    · have hnot : ¬e.header.size ≤ Runtime.MaxFileSize := Nat.not_le.mpr hlarge
      simp [hlarge, hnot]
    · have hfits : e.header.size ≤ Runtime.MaxFileSize := Nat.le_of_not_lt hlarge
      by_cases hshort : e.content.length < e.header.size
      · have hnot : ¬e.header.size ≤ e.content.length := Nat.not_le.mpr hshort
        simp [hlarge, hshort, hnot, errorf, Err.is]
      · have hwhole : e.header.size ≤ e.content.length := Nat.le_of_not_lt hshort
        dsimp only
        rw [if_neg hlarge, if_neg hshort]
        refine ⟨fun bytes => ⟨fun h => ⟨e, rfl, hfits, hwhole, (Except.ok.inj h).symm⟩, ?_⟩, ?_, by simp⟩
        · rintro ⟨e', he, -, -, rfl⟩
          rw [Option.some.inj he]
        · constructor
          · rintro ⟨err, h, -⟩
            cases h
          · rintro ⟨e', he, hlt⟩
            rw [← Option.some.inj he] at hlt
            exact absurd hlt hlarge

/-- One regular entry under the path's last name reads as its bytes. -/
theorem fileUnarchive_single {last : Name} {before : List Name} {header : Header}
    (htext : p.toList = '/' :: join (before ++ [last])) (hplain : Plain last) (hreg : header.typeflag = .reg) (hname : header.name = String.ofList last)
    (hsize : header.size = content.length) (hfits : content.length ≤ Runtime.MaxFileSize) :
    fileUnarchive p (.entry header content .eof) = .ok content := by
  have hbase : base p.toList = last := by
    rw [htext]
    exact base_join hplain
  have hskip : ¬(header.typeflag ≠ .reg ∨ header.name ≠ String.ofList (base p.toList)) := by
    simp [hreg, hname, hbase]
  rw [fileUnarchive, if_neg hskip, hsize, if_neg (Nat.not_lt.mpr hfits), if_neg (Nat.lt_irrefl _), List.take_length]

end Docker
end Accepted
end Quickspin
