import Quickspin.Files

/-! The listing of a directory out of an archive (`listDirectoryFromTarStream`) and `Runtime.ListDir`. The daemon names
the entries relative to the directory's parent; joined onto it they are the entries' paths again, at any depth. -/
namespace Quickspin
open Interaction Paths
set_option autoImplicit false

namespace Runtime

def MaxTotalFiles : ℕ := 1000

structure FileInfo where
  path : String
  size : ℕ
  mode : Docker.FileMode
  isDir : Bool
deriving DecidableEq

end Runtime

namespace Docker
open Tar

/-! ## The code -/

/-- The loop; `fileInfoMode` is `header.FileInfo().Mode()`. -/
def listEntries (fileInfoMode : Header → FileMode) (dirPath : String) (parent : List Char)
    (fileInfos : List Runtime.FileInfo) : Stream → Except Err (List Runtime.FileInfo)
  | .eof => .ok fileInfos
  | .broken => .error (.foreign "failed parsing tar stream headers")
  | .entry header _ rest =>
    let entryPath := String.ofList (joinElems [parent, header.name.toList])
    let isDir := decide (header.typeflag = .dir)
    if isDir && entryPath == dirPath then listEntries fileInfoMode dirPath parent fileInfos rest
    else
      let fileInfos := fileInfos ++ [⟨entryPath, header.size, fileInfoMode header, isDir⟩]
      if fileInfos.length > Runtime.MaxTotalFiles then .error (.sentinel .totalFilesTooLarge)
      else listEntries fileInfoMode dirPath parent fileInfos rest

/-- The path is one that `validatePath` accepts. -/
def listDirectoryFromTarStream (fileInfoMode : Header → FileMode) (dirPath : String) (content : Stream) :
    Except Err (List Runtime.FileInfo) :=
  listEntries fileInfoMode dirPath (dir dirPath.toList) [] content

def listDir (fileInfoMode : Header → FileMode) (sandboxID dirPath : String) :
    Program fileCalls (Except Err (List Runtime.FileInfo)) := do
  let op := "docker.Runtime.ListDir"
  match Runtime.validatePath dirPath with
  | .error err => return .error (E op s!"listing directory {dirPath} for sandbox {sandboxID}" err)
  | .ok () =>
    match ← engine (getContainerBysandboxID sandboxID) with
    | .error err => return .error (wrap op "" err)
    | .ok c =>
      match ← copyFromContainer c.id dirPath with
      | .error err =>
        return .error (classifyNotFound op s!"loading tar reader from container {c.id} for sandbox {sandboxID}"
          .pathNotFound err)
      | .ok res =>
        match listDirectoryFromTarStream fileInfoMode dirPath res.content with
        | .error err =>
          return .error (E op s!"listing directory from container {c.id} for sandbox {sandboxID}" err)
        | .ok fileInfos => return .ok fileInfos

/-! ## The loop over any stream -/

section Loop
variable {fileInfoMode : Header → FileMode} {dirPath : String} {parent : List Char}

/-- The entry as the loop sees it. -/
def joined (fileInfoMode : Header → FileMode) (parent : List Char) (header : Header) : Runtime.FileInfo :=
  ⟨String.ofList (joinElems [parent, header.name.toList]), header.size, fileInfoMode header, decide (header.typeflag = .dir)⟩

/-- The loop leaves the entry out. -/
def skipped (dirPath : String) (parent : List Char) (e : Entry) : Bool :=
  decide (e.header.typeflag = .dir) && String.ofList (joinElems [parent, e.header.name.toList]) == dirPath

/-- What the loop collects of the entries that arrive. -/
def collected (fileInfoMode : Header → FileMode) (dirPath : String) (parent : List Char) (s : Stream) :
    List Runtime.FileInfo :=
  (s.entries.filter fun e => !skipped dirPath parent e).map fun e => joined fileInfoMode parent e.header

theorem listEntries_entry (fileInfos : List Runtime.FileInfo) (header : Header) (bytes : List UInt8) (rest : Stream) :
    listEntries fileInfoMode dirPath parent fileInfos (.entry header bytes rest) =
      if skipped dirPath parent ⟨header, bytes⟩ = true then listEntries fileInfoMode dirPath parent fileInfos rest
      else if (fileInfos ++ [joined fileInfoMode parent header]).length > Runtime.MaxTotalFiles then
        .error (.sentinel .totalFilesTooLarge)
      else listEntries fileInfoMode dirPath parent (fileInfos ++ [joined fileInfoMode parent header]) rest := rfl

theorem collected_entry (header : Header) (bytes : List UInt8) (rest : Stream) :
    collected fileInfoMode dirPath parent (.entry header bytes rest) =
      if skipped dirPath parent ⟨header, bytes⟩ = true then collected fileInfoMode dirPath parent rest
      else joined fileInfoMode parent header :: collected fileInfoMode dirPath parent rest := by
  unfold collected
  rw [Stream.entries]
  by_cases hskip : skipped dirPath parent ⟨header, bytes⟩ = true
  · rw [if_pos hskip, List.filter_cons_of_neg (by simp [hskip])]
  · rw [if_neg hskip, List.filter_cons_of_pos (by simpa using hskip), List.map_cons]

/-- **The loop**: it collects what it does not leave out, until there is too much of it or the stream is over. -/
theorem listEntries_eq (s : Stream) {fileInfos : List Runtime.FileInfo} (h : fileInfos.length ≤ Runtime.MaxTotalFiles) :
    listEntries fileInfoMode dirPath parent fileInfos s =
      if Runtime.MaxTotalFiles < (fileInfos ++ collected fileInfoMode dirPath parent s).length then
        .error (.sentinel .totalFilesTooLarge)
      else if s.parses then .ok (fileInfos ++ collected fileInfoMode dirPath parent s)
      else .error (.foreign "failed parsing tar stream headers") := by
  induction s generalizing fileInfos with
  | eof =>
    have hfits : ¬Runtime.MaxTotalFiles < fileInfos.length := Nat.not_lt.mpr h
    simp [listEntries, collected, Stream.entries, Stream.parses, hfits]
  | broken =>
    have hfits : ¬Runtime.MaxTotalFiles < fileInfos.length := Nat.not_lt.mpr h
    simp [listEntries, collected, Stream.entries, Stream.parses, hfits]
  | entry header bytes rest ih =>
    rw [listEntries_entry, collected_entry, Stream.parses]
    by_cases hskip : skipped dirPath parent ⟨header, bytes⟩ = true
    · rw [if_pos hskip, if_pos hskip, ih h]
    · have hassoc : fileInfos ++ joined fileInfoMode parent header :: collected fileInfoMode dirPath parent rest =
          fileInfos ++ [joined fileInfoMode parent header] ++ collected fileInfoMode dirPath parent rest := by
        rw [List.append_assoc, List.singleton_append]
      rw [if_neg hskip, if_neg hskip, hassoc]
      by_cases hfull : (fileInfos ++ [joined fileInfoMode parent header]).length > Runtime.MaxTotalFiles
      · have hmore : Runtime.MaxTotalFiles < (fileInfos ++ [joined fileInfoMode parent header] ++
            collected fileInfoMode dirPath parent rest).length := by
          rw [List.length_append]
          omega
        rw [if_pos hfull, if_pos hmore]
      · rw [if_neg hfull, ih (Nat.le_of_not_lt hfull)]

end Loop

/-! ## The daemon's names -/

/-- The names that lead to the entry: those of the directory's parent and those of its own name. -/
def leadsTo (dirPath : String) (header : Header) : List Name :=
  (resolve true dirPath.toList).dropLast ++ resolve false header.name.toList

/-- The name is a clean path from the directory's parent to the directory or below it; that of a directory may end in a
slash. -/
def WellNamed (dirPath : String) (header : Header) : Prop :=
  ∃ names, (∀ n ∈ names, Plain n) ∧ (header.name.toList = relative names ∨
      header.typeflag = .dir ∧ header.name.toList = relative names ++ ['/']) ∧
    resolve true dirPath.toList <+: (resolve true dirPath.toList).dropLast ++ names

/-- The directory's own entry. -/
def self (dirPath : String) (e : Entry) : Bool :=
  decide (e.header.typeflag = .dir) && decide (leadsTo dirPath e.header = resolve true dirPath.toList)

/-- The entries of the listing, in the order they arrive. -/
def listing (fileInfoMode : Header → FileMode) (dirPath : String) (s : Stream) : List Runtime.FileInfo :=
  (s.entries.filter fun e => !self dirPath e).map fun e =>
    ⟨String.ofList ('/' :: join (leadsTo dirPath e.header)), e.header.size, fileInfoMode e.header,
      decide (e.header.typeflag = .dir)⟩

section Names
variable {dirPath : String} {header : Header}

theorem validatePath_text (h : Runtime.validatePath dirPath = .ok ()) :
    dirPath.toList = '/' :: join (resolve true dirPath.toList) := by
  obtain ⟨habs, hclean⟩ := validatePath_ok h
  exact eq_join_of_clean habs hclean

theorem WellNamed.names (h : WellNamed dirPath header) : (∀ n ∈ leadsTo dirPath header, Plain n) ∧
    resolve true dirPath.toList <+: leadsTo dirPath header := by
  obtain ⟨names, hplain, htext, hbelow⟩ := h
  rw [leadsTo, resolve_relative hplain false (htext.imp id And.right)]
  refine ⟨fun n hn => ?_, hbelow⟩
  rcases List.mem_append.mp hn with hn | hn
  · exact resolve_plain n (List.mem_of_mem_dropLast hn)
  · exact hplain n hn

theorem WellNamed.joined (hdir : Runtime.validatePath dirPath = .ok ()) (h : WellNamed dirPath header) :
    joinElems [dir dirPath.toList, header.name.toList] = '/' :: join (leadsTo dirPath header) := by
  obtain ⟨names, hplain, htext, -⟩ := h
  have hparent : dir dirPath.toList = '/' :: join (resolve true dirPath.toList).dropLast := by
    rw [validatePath_text hdir, dir_join resolve_plain, resolve_rooted_join resolve_plain]
  have hdropped : ∀ n ∈ (resolve true dirPath.toList).dropLast, Plain n :=
    fun n hn => resolve_plain n (List.mem_of_mem_dropLast hn)
  have htext' : header.name.toList = relative names ∨ header.name.toList = relative names ++ ['/'] := htext.imp id And.right
  rw [hparent, joinElems_relative hdropped hplain htext', leadsTo, resolve_relative hplain false htext']

theorem WellNamed.self_iff (hdir : Runtime.validatePath dirPath = .ok ()) {e : Entry} (h : WellNamed dirPath e.header) :
    skipped dirPath (dir dirPath.toList) e = self dirPath e := by
  have hpath : (String.ofList (joinElems [dir dirPath.toList, e.header.name.toList]) == dirPath) =
      decide (leadsTo dirPath e.header = resolve true dirPath.toList) := by
    rw [h.joined hdir, Bool.eq_iff_iff, beq_iff_eq, decide_eq_true_iff, ← String.toList_inj, String.toList_ofList,
      validatePath_text hdir, resolve_rooted_join resolve_plain]
    constructor
    · intro he
      rw [← resolve_rooted_join h.names.1, he, resolve_rooted_join resolve_plain]
    · intro he
      rw [he]
  rw [skipped, self, hpath]

theorem WellNamed.below (h : WellNamed dirPath header) :
    Runtime.validatePath (String.ofList ('/' :: join (leadsTo dirPath header))) = .ok () ∧
      ∃ rest, leadsTo dirPath header = resolve true dirPath.toList ++ rest := by
  obtain ⟨hplain, rest, hrest⟩ := h.names
  refine ⟨validatePath_iff.mpr ?_, rest, hrest.symm⟩
  by_cases hnil : leadsTo dirPath header = []
  · left
    rw [hnil]
    rfl
  · exact .inr ⟨leadsTo dirPath header, String.toList_ofList, hnil, hplain⟩

end Names

/-! ## The listing -/

section Exact
variable (fileInfoMode : Header → FileMode) {dirPath : String} {s : Stream}

theorem collected_eq (hdir : Runtime.validatePath dirPath = .ok ()) (hnames : ∀ e ∈ s.entries, WellNamed dirPath e.header) :
    collected fileInfoMode dirPath (dir dirPath.toList) s = listing fileInfoMode dirPath s := by
  have hfilter : (s.entries.filter fun e => !skipped dirPath (dir dirPath.toList) e) =
      s.entries.filter fun e => !self dirPath e := by
    refine List.filter_congr fun e he => ?_
    rw [(hnames e he).self_iff hdir]
  unfold collected listing
  rw [hfilter]
  refine List.map_congr_left fun e he => ?_
  have hm := (List.mem_filter.mp he).1
  rw [joined, (hnames e hm).joined hdir]

/-- **A directory listing** has the entries that arrive but the directory's own, in their order and under their own paths,
unless there are too many of them or the stream breaks before. -/
theorem listing_exact (hdir : Runtime.validatePath dirPath = .ok ()) (hnames : ∀ e ∈ s.entries, WellNamed dirPath e.header) :
    (s.parses = true → (listing fileInfoMode dirPath s).length ≤ Runtime.MaxTotalFiles →
      listDirectoryFromTarStream fileInfoMode dirPath s = .ok (listing fileInfoMode dirPath s)) ∧
    (Runtime.MaxTotalFiles < (listing fileInfoMode dirPath s).length →
      listDirectoryFromTarStream fileInfoMode dirPath s = .error (.sentinel .totalFilesTooLarge)) ∧
    (s.parses = false → (listing fileInfoMode dirPath s).length ≤ Runtime.MaxTotalFiles →
      ∃ err, listDirectoryFromTarStream fileInfoMode dirPath s = .error err ∧ err.Unclassified) ∧
    ∀ info ∈ listing fileInfoMode dirPath s, Runtime.validatePath info.path = .ok () ∧
      (info.path = dirPath ∨ ∃ rest, rest ≠ [] ∧ Leads info.path (resolve true dirPath.toList ++ rest)) := by
  have heq : listDirectoryFromTarStream fileInfoMode dirPath s =
      if Runtime.MaxTotalFiles < (listing fileInfoMode dirPath s).length then .error (.sentinel .totalFilesTooLarge)
      else if s.parses then .ok (listing fileInfoMode dirPath s)
      else .error (.foreign "failed parsing tar stream headers") := by
    unfold listDirectoryFromTarStream
    rw [listEntries_eq s (Nat.zero_le _), List.nil_append, collected_eq fileInfoMode hdir hnames]
  refine ⟨fun hparses hfits => ?_, fun hmore => ?_, fun hbroken hfits => ?_, fun info hm => ?_⟩
  · rw [heq, if_neg (Nat.not_lt.mpr hfits), if_pos hparses]
  · rw [heq, if_pos hmore]
  · refine ⟨_, ?_, unclassified_foreign "failed parsing tar stream headers"⟩
    rw [heq, if_neg (Nat.not_lt.mpr hfits), hbroken]
    rfl
  · obtain ⟨e, he, rfl⟩ := List.mem_map.mp hm
    have hnamed := hnames e (List.mem_filter.mp he).1
    obtain ⟨hvalid, rest, hrest⟩ := hnamed.below
    refine ⟨hvalid, ?_⟩
    by_cases hnil : rest = []
    · left
      rw [hnil, List.append_nil] at hrest
      rw [← String.toList_inj, String.toList_ofList, hrest]
      exact (validatePath_text hdir).symm
    · right
      refine ⟨rest, hnil, ?_⟩
      rw [← hrest]
      exact ⟨String.toList_ofList, by simp [hrest, hnil], hnamed.names.1⟩

end Exact

/-! ### A directory with a file in it -/

def workStream : Stream :=
  .entry ⟨"work/", 0o750, 0, .dir⟩ [] (.entry ⟨"work/notes.txt", 0o640, 3, .reg⟩ [104, 101, 121] .eof)

/-- The theorem at that directory, which is not listed itself. -/
theorem listing_exact_work : listDirectoryFromTarStream (fun _ => 0) "/home/work" workStream =
    .ok [⟨"/home/work/notes.txt", 3, 0, false⟩] := by
  have hnames : ∀ e ∈ workStream.entries, WellNamed "/home/work" e.header := by
    intro e he
    rcases List.mem_cons.mp he with rfl | he
    · exact ⟨["work".toList], by simp [Plain], .inr ⟨rfl, by decide⟩, by decide⟩
    · rcases List.mem_cons.mp he with rfl | he
      · exact ⟨["work".toList, "notes.txt".toList], by simp [Plain], .inl (by decide), by decide⟩
      · cases he
  have hdir : Runtime.validatePath "/home/work" = .ok () := eq_ok_of_isOk (by decide)
  have hlisting : listing (fun _ => 0) "/home/work" workStream = [⟨"/home/work/notes.txt", 3, 0, false⟩] := by
    decide +kernel
  obtain ⟨hok, -⟩ := listing_exact (fun _ => 0) hdir hnames
  rw [hlisting] at hok
  exact hok rfl (by decide)

end Docker
end Quickspin
