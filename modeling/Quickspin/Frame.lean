import Quickspin.Files
import Quickspin.Lib.FileSystem

/-! What a write changes in a sandbox's file system, over a daemon that extracts the entries of an archive in
order and applies the mode and the owner of each to its target, to a directory that is there as well; a target
of the other kind gives way together with what is under it. -/
namespace Quickspin
open Interaction Paths
set_option autoImplicit false

namespace Docker
open Tar

/-! ## The daemon -/

structure Attr where
  mode : ℕ
  uid : ℕ
  gid : ℕ
deriving DecidableEq

abbrev Disk := FileSystem Name Attr (List UInt8)

/-- No header of this package sets `Uid` or `Gid`, which leaves them at zero. -/
def headerAttr (hdr : Header) : Attr := ⟨hdr.mode, 0, 0⟩

def entryItem (e : Entry) : Option (FileSystem.Item Attr (List UInt8)) :=
  match e.header.typeflag with
  | .dir => some (.directory (headerAttr e.header))
  | .reg => some (.regular (headerAttr e.header) e.content)
  | .other => none

/-- What is at the path is of the item's kind, or there is nothing. -/
def sameKind (t : Disk) (path : List Name) (x : FileSystem.Item Attr (List UInt8)) : Bool :=
  match t.item path with
  | none => true
  | some y => y.isDirectory == x.isDirectory

def unpackEntry (options : CopyToContainerOptions) (t : Disk) (e : Entry) : Option Disk := do
  let path := resolve true (options.destinationPath ++ "/" ++ e.header.name).toList
  let x ← entryItem e
  if options.allowOverwriteDirWithFile || sameKind t path x then t.put path x else none

/-- The entries in order. -/
def unpack (options : CopyToContainerOptions) (t : Disk) : Option Disk :=
  options.content.foldlM (unpackEntry options) t

/-- The containers, and the file system of each. -/
structure Disks where
  world : World Daemon
  disks : String → Disk

/-- A copy in that fails may leave anything in its container, and a copy out may have any answer. -/
def FileCall.actOnDisk : (c : FileCall) → Disks → c.Answer → Disks → Prop
  | .engine c, s, a, s' => Backend.docker.perform c s.world a s'.world ∧ s'.disks = s.disks
  | .copyToContainer id options, s, a, s' =>
    s'.world = s.world ∧ (∀ id', id' ≠ id → s'.disks id' = s.disks id') ∧
      (a = .ok () → unpack options (s.disks id) = some (s'.disks id))
  | .copyFromContainer _ _, s, _, s' => s' = s

/-- Nobody else acts. -/
def UndisturbedDisks (s s' : Disks) : Prop := s' = s

theorem undisturbedDisks_refl (s : Disks) : UndisturbedDisks s s := rfl

abbrev DiskFinishes {α : Type} (p : Program fileCalls α) (s : Disks) (log : List (Exchange fileCalls)) (r : α)
    (s' : Disks) : Prop :=
  p.Completes FileCall.actOnDisk UndisturbedDisks s log r s'

/-! ## The archive of a file -/

section Unpack
variable {t t' : Disk} {names q : List Name} {content : List UInt8} {mode : FileMode} {archive : List Entry}

/-- The attributes of every directory entry. -/
def archiveDirAttr : Attr := ⟨archiveDirMode, 0, 0⟩

theorem unpackEntry_directory {d : List Name} (hne : d ≠ []) (hplain : ∀ n ∈ d, Plain n) :
    unpackEntry (writeOptions archive) t (directoryEntry d) = t.put d (.directory archiveDirAttr) := by
  unfold unpackEntry
  dsimp only [writeOptions]
  rw [directoryEntry_path hne hplain]
  simp [entryItem, directoryEntry, headerAttr, archiveDirAttr]

theorem unpackEntry_regular (hne : names ≠ []) (hplain : ∀ n ∈ names, Plain n) :
    unpackEntry (writeOptions archive) t (regularEntry names mode content) =
      t.put names (.regular ⟨FileMode.perm mode, 0, 0⟩ content) := by
  unfold unpackEntry
  dsimp only [writeOptions]
  rw [regularEntry_path hne hplain]
  simp [entryItem, regularEntry, headerAttr]

theorem unpack_ancestors (ds : List (List Name)) (hds : ∀ d ∈ ds, d ≠ [] ∧ ∀ n ∈ d, Plain n) (t : Disk) :
    (ds.map directoryEntry).foldlM (unpackEntry (writeOptions archive)) t =
      ds.foldlM (fun (t : Disk) d => t.put d (.directory archiveDirAttr)) t := by
  induction ds generalizing t with
  | nil => rfl
  | cons d ds ih =>
    have hd := hds d (List.mem_cons_self ..)
    have hrest : ∀ t₁ : Disk, (ds.map directoryEntry).foldlM (unpackEntry (writeOptions archive)) t₁ =
        ds.foldlM (fun (t : Disk) d => t.put d (.directory archiveDirAttr)) t₁ :=
      fun t₁ => ih (fun e he => hds e (List.mem_cons_of_mem d he)) t₁
    rw [List.map_cons, List.foldlM_cons, List.foldlM_cons, unpackEntry_directory hd.1 hd.2]
    simp only [hrest]

def fileEntries (names : List Name) (mode : FileMode) (content : List UInt8) : List Entry :=
  (ancestors names).map directoryEntry ++ [regularEntry names mode content]

theorem unpack_file_eq (hne : names ≠ []) (hplain : ∀ n ∈ names, Plain n) :
    unpack (writeOptions (fileEntries names mode content)) t =
      ((ancestors names).foldlM (fun (t : Disk) d => t.put d (.directory archiveDirAttr)) t).bind
        fun t₁ => t₁.put names (.regular ⟨FileMode.perm mode, 0, 0⟩ content) := by
  have hds : ∀ d ∈ ancestors names, d ≠ [] ∧ ∀ n ∈ d, Plain n := by
    intro d hd
    obtain ⟨hd, hpre, -⟩ := mem_ancestors.mp hd
    exact ⟨hd, fun n hn => hplain n (hpre.subset hn)⟩
  have hrun : unpack (writeOptions (fileEntries names mode content)) t =
      ((ancestors names).map directoryEntry ++ [regularEntry names mode content]).foldlM
        (unpackEntry (writeOptions (fileEntries names mode content))) t := rfl
  rw [hrun, List.foldlM_append, unpack_ancestors _ hds]
  simp only [List.foldlM_cons, List.foldlM_nil, unpackEntry_regular hne hplain, bind_pure]
  rfl

/-- **Extraction** of a file's archive, item by item: the ancestors become directories of the archive's mode, the
file replaces what was at its path and under it, and everything else stays. -/
theorem unpack_file_item (hne : names ≠ []) (hplain : ∀ n ∈ names, Plain n)
    (h : unpack (writeOptions (fileEntries names mode content)) t = some t') (q : List Name) :
    t'.item q = if q = names then some (.regular ⟨FileMode.perm mode, 0, 0⟩ content)
      else if names <+: q then none
      else if q ∈ ancestors names then some (.directory archiveDirAttr)
      else t.item q := by
  rw [unpack_file_eq hne hplain] at h
  obtain ⟨t₁, hdirs, hput⟩ := Option.bind_eq_some_iff.mp h
  by_cases hself : q = names
  · rw [if_pos hself, hself, FileSystem.put_self hput]
  rw [if_neg hself]
  by_cases hbelow : names <+: q
  · rw [if_pos hbelow, FileSystem.put_regular hput hbelow hself]
  rw [if_neg hbelow, FileSystem.put_beside hput hbelow, FileSystem.put_directories hdirs]
  by_cases habove : q ∈ ancestors names
  · rw [if_pos habove, if_pos habove]
  · rw [if_neg habove, if_neg habove]

theorem unpack_file_total (hne : names ≠ []) (hplain : ∀ n ∈ names, Plain n) (t : Disk) :
    ∃ t', unpack (writeOptions (fileEntries names mode content)) t = some t' := by
  obtain ⟨t₁, hdirs⟩ := FileSystem.put_ancestors t archiveDirAttr names
  have hparent : t₁.isDir names.dropLast = true := by
    by_cases hnil : names.dropLast = []
    · rw [hnil]
      exact FileSystem.isDir_iff.mpr t₁.root
    · have hlen : names.dropLast ≠ names := by
        intro he
        have hlen := congrArg List.length he
        have hpos := List.length_pos_iff.mpr hne
        rw [List.length_dropLast] at hlen
        omega
      have hmem : names.dropLast ∈ ancestors names := mem_ancestors.mpr ⟨hnil, List.dropLast_prefix names, hlen⟩
      refine FileSystem.isDir_iff.mpr ⟨archiveDirAttr, ?_⟩
      rw [FileSystem.put_directories hdirs, if_pos hmem]
  have hadmits : t₁.admits names (.regular ⟨FileMode.perm mode, 0, 0⟩ content) = true := by
    rw [FileSystem.admits, if_neg hne]
    exact hparent
  rw [unpack_file_eq hne hplain, hdirs]
  exact ⟨_, dif_pos hadmits⟩

end Unpack

/-! ## The frame -/

/-- The whole of the frame: everything but the path itself is as it was. -/
structure Framed (names : List Name) (t t' : Disk) : Prop where
  made : ∀ d ∈ ancestors names, t.item d = none → t'.isDir d = true
  file : ∃ attr content, t'.item names = some (.regular attr content)
  kept : ∀ q x, q ≠ names → t.item q = some x → t'.item q = some x

/-- The frame of a write: the path lies in directories and holds the file, and what is neither above it nor under
it is as it was. -/
structure FramedBeside (names : List Name) (mode : FileMode) (content : List UInt8) (t t' : Disk) : Prop where
  above : ∀ d ∈ ancestors names, t'.isDir d = true
  file : ∃ attr, t'.item names = some (.regular attr content) ∧ attr.mode = FileMode.perm mode
  kept : ∀ q, ¬ names <+: q → q ∉ ancestors names → t'.item q = t.item q

section Frame
variable {t t' : Disk} {names : List Name} {content : List UInt8} {mode : FileMode}

theorem framedBeside_unpack (hne : names ≠ []) (hplain : ∀ n ∈ names, Plain n)
    (h : unpack (writeOptions (fileEntries names mode content)) t = some t') : FramedBeside names mode content t t' := by
  have hitem := unpack_file_item hne hplain h
  refine ⟨?_, ⟨⟨FileMode.perm mode, 0, 0⟩, ?_, rfl⟩, ?_⟩
  · intro d hd
    obtain ⟨-, hpre, hproper⟩ := mem_ancestors.mp hd
    have hnot : ¬ names <+: d := fun hpre' => hproper (hpre.eq_of_length_le hpre'.length_le)
    refine FileSystem.isDir_iff.mpr ⟨archiveDirAttr, ?_⟩
    rw [hitem, if_neg hproper, if_neg hnot, if_pos hd]
  · rw [hitem, if_pos rfl]
  · intro q hbelow habove
    have hself : q ≠ names := fun he => hbelow (he ▸ List.prefix_refl _)
    rw [hitem, if_neg hself, if_neg hbelow, if_neg habove]

/-- An ancestor that is there keeps what it was only where it was already what the archive says. -/
theorem framed_unpack_iff (hne : names ≠ []) (hplain : ∀ n ∈ names, Plain n)
    (h : unpack (writeOptions (fileEntries names mode content)) t = some t') : Framed names t t' ↔
      (∀ d ∈ ancestors names, ∀ x, t.item d = some x → x = .directory archiveDirAttr) ∧
        ∀ rest, rest ≠ [] → t.item (names ++ rest) = none := by
  have hitem := unpack_file_item hne hplain h
  have hframed := framedBeside_unpack hne hplain h
  have habove : ∀ d ∈ ancestors names, t'.item d = some (.directory archiveDirAttr) := by
    intro d hd
    obtain ⟨-, hpre, hproper⟩ := mem_ancestors.mp hd
    have hnot : ¬ names <+: d := fun hpre' => hproper (hpre.eq_of_length_le hpre'.length_le)
    rw [hitem, if_neg hproper, if_neg hnot, if_pos hd]
  constructor
  · intro hkept
    constructor
    · intro d hd x hx
      have hnew := hkept.kept d x (mem_ancestors.mp hd).2.2 hx
      rw [habove d hd] at hnew
      exact (Option.some.inj hnew).symm
    · intro rest hrest
      have hself : names ++ rest ≠ names := by simpa using hrest
      by_contra hsome
      obtain ⟨x, hx⟩ := Option.ne_none_iff_exists'.mp hsome
      have hnew := hkept.kept _ x hself hx
      rw [hitem, if_neg hself, if_pos (List.prefix_append _ _)] at hnew
      cases hnew
  · rintro ⟨hdirs, hunder⟩
    obtain ⟨attr, hfile, -⟩ := hframed.file
    refine ⟨fun d hd _ => hframed.above d hd, ⟨attr, content, hfile⟩, ?_⟩
    intro q x hq hx
    by_cases hbelow : names <+: q
    · obtain ⟨rest, rfl⟩ := hbelow
      have hrest : rest ≠ [] := fun he => hq (by simp [he])
      rw [hunder rest hrest] at hx
      cases hx
    · by_cases hanc : q ∈ ancestors names
      · rw [habove q hanc, hdirs q hanc x hx]
      · rw [hframed.kept q hbelow hanc, hx]

end Frame

section Write
variable {refuses : Header → Option String} {id p : String} {content : List UInt8} {mode : FileMode} {s s' : Disks}
  {log : List (Exchange fileCalls)}

theorem writeFile_unpacks (h : DiskFinishes (writeFile refuses id p content mode) s log (.ok ()) s') :
    Leads p (resolve true p.toList) ∧ ∃ c ∈ s.world.backend.containers.rows, Carries id c ∧
      (∀ id', id' ≠ c.id → s'.disks id' = s.disks id') ∧
      unpack (writeOptions (fileEntries (resolve true p.toList) mode content)) (s.disks c.id) = some (s'.disks c.id) := by
  obtain ⟨hleads, -, c, hc, hid, v, hdisks, -, -, hother, hunpack⟩ :=
    writeFile_completes (fun _ _ _ _ hact => hact) (fun _ _ hs => hs) undisturbedDisks_refl h
  refine ⟨hleads, c, hc, hid, ?_, ?_⟩
  · intro id' hne
    rw [hother id' hne, hdisks]
  · rw [← hdisks]
    exact hunpack rfl

/-- **The frame of WriteFile**: a write that answers nil has changed one container that carries the id; there the
path lies in directories and holds the file, and every file and directory that is neither above the path nor under
it has its content, its mode and its owner. -/
theorem writeFile_frame (h : DiskFinishes (writeFile refuses id p content mode) s log (.ok ()) s') :
    ∃ names, Leads p names ∧ ∃ c ∈ s.world.backend.containers.rows, Carries id c ∧
      (∀ id', id' ≠ c.id → s'.disks id' = s.disks id') ∧
      FramedBeside names mode content (s.disks c.id) (s'.disks c.id) := by
  obtain ⟨hleads, c, hc, hid, hother, hunpack⟩ := writeFile_unpacks h
  exact ⟨_, hleads, c, hc, hid, hother, framedBeside_unpack hleads.ne_nil hleads.plain hunpack⟩

end Write

/-! ## A write over a directory -/

def unpackedIn (s : Disks) (id : String) : Option Disk → Except DaemonError Unit × Disks
  | none => (.error ⟨"extraction point is not a directory", false⟩, s)
  | some t => (.ok (), { s with disks := fun id' => if id' = id then t else s.disks id' })

def diskExec : (c : FileCall) → Disks → c.Answer × Disks
  | .engine c, s => ((dockerExec c s.world).1, { s with world := (dockerExec c s.world).2 })
  | .copyToContainer id options, s => unpackedIn s id (unpack options (s.disks id))
  | .copyFromContainer _ _, s => (.error ⟨"Could not find the file", true⟩, s)

theorem actOnDisk_diskExec (c : FileCall) (s : Disks) : FileCall.actOnDisk c s (diskExec c s).1 (diskExec c s).2 := by
  cases c with
  | engine c => exact ⟨dockerExec_performs c s.world, rfl⟩
  | copyToContainer id options =>
    show FileCall.actOnDisk (.copyToContainer id options) s (unpackedIn s id (unpack options (s.disks id))).1
      (unpackedIn s id _).2
    cases h : unpack options (s.disks id) with
    | none => exact ⟨rfl, fun _ _ => rfl, fun he => nomatch he⟩
    | some t => exact ⟨rfl, fun id' hne => if_neg hne, fun _ => h.trans (by simp [unpackedIn])⟩
  | copyFromContainer id sourcePath => rfl

/-- A shared directory that everyone may write to, and in it a directory of another user with one file. -/
def sharedDisk : Option Disk := do
  let t ← (FileSystem.empty ⟨0o755, 0, 0⟩ : Disk).put ["tmp".toList] (.directory ⟨0o1777, 0, 0⟩)
  let t ← t.put ["tmp".toList, "out".toList] (.directory ⟨0o755, 1000, 1000⟩)
  t.put ["tmp".toList, "out".toList, "log".toList] (.regular ⟨0o644, 1000, 1000⟩ [111, 107])

def sharedSandbox : Disks := ⟨createdOnce, fun _ => sharedDisk.getD (FileSystem.empty ⟨0o755, 0, 0⟩)⟩

def sharedWritten : Except Err Unit × Disks :=
  (writeFile refusesNul exampleID "/tmp/out" [104, 105, 10] 0o100644).run diskExec sharedSandbox

theorem sharedWritten_finishes : ∃ log, DiskFinishes (writeFile refusesNul exampleID "/tmp/out" [104, 105, 10] 0o100644)
    sharedSandbox log (.ok ()) sharedWritten.2 := by
  have hrun : DiskFinishes (writeFile refusesNul exampleID "/tmp/out" [104, 105, 10] 0o100644) sharedSandbox _
      sharedWritten.1 sharedWritten.2 := Program.completes_exchanges undisturbedDisks_refl actOnDisk_diskExec _ _
  have hok : sharedWritten.1 = .ok () := eq_ok_of_isOk (by decide +kernel)
  rw [hok] at hrun
  exact ⟨_, hrun⟩

theorem writeFile_frame_shared : ∃ log, DiskFinishes (writeFile refusesNul exampleID "/tmp/out" [104, 105, 10] 0o100644)
      sharedSandbox log (.ok ()) sharedWritten.2 ∧
    ∃ names, Leads "/tmp/out" names ∧ ∃ c ∈ sharedSandbox.world.backend.containers.rows, Carries exampleID c ∧
      (∀ id', id' ≠ c.id → sharedWritten.2.disks id' = sharedSandbox.disks id') ∧
      FramedBeside names 0o100644 [104, 105, 10] (sharedSandbox.disks c.id) (sharedWritten.2.disks c.id) := by
  obtain ⟨log, hwrite⟩ := sharedWritten_finishes
  have hframe := writeFile_frame hwrite
  exact ⟨log, hwrite, hframe⟩

/-- The file under the directory that the write replaces is gone. -/
theorem writeFile_unframed : ∃ log, DiskFinishes (writeFile refusesNul exampleID "/tmp/out" [104, 105, 10] 0o100644)
      sharedSandbox log (.ok ()) sharedWritten.2 ∧
    ∃ names, Leads "/tmp/out" names ∧ ∃ c ∈ sharedSandbox.world.backend.containers.rows, Carries exampleID c ∧
      ¬ Framed names (sharedSandbox.disks c.id) (sharedWritten.2.disks c.id) := by
  obtain ⟨log, hwrite⟩ := sharedWritten_finishes
  obtain ⟨hleads, c, hc, hid, -, hunpack⟩ := writeFile_unpacks hwrite
  refine ⟨log, hwrite, _, hleads, c, hc, hid, ?_⟩
  intro hframed
  have hempty := ((framed_unpack_iff hleads.ne_nil hleads.plain hunpack).mp hframed).2 ["log".toList] (by simp)
  have hthere : ((sharedDisk.getD (FileSystem.empty ⟨0o755, 0, 0⟩)).item
      (resolve true "/tmp/out".toList ++ ["log".toList])).isSome = true := by decide +kernel
  change (sharedDisk.getD (FileSystem.empty ⟨0o755, 0, 0⟩)).item _ = none at hempty
  rw [hempty] at hthere
  cases hthere

end Docker
end Quickspin
