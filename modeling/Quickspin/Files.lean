import Quickspin.Archive
import Quickspin.Destroy
import Quickspin.Lib.FileTree

/-! Files in a sandbox: `WriteFile` and `ReadFile` over a daemon whose containers have file trees. It
extracts the entries of an archive in order, and answers a copy of a regular file with one entry; what is
written is then what is read, and no other file changes. -/
namespace Quickspin
open Interaction Paths FileTree
set_option autoImplicit false

namespace Docker
open Tar

/-! ## The calls -/

structure CopyToContainerOptions where
  destinationPath : String
  content : List Entry
  allowOverwriteDirWithFile : Bool
  copyUIDGID : Bool

/-- `engine` is a call of the methods without files. -/
inductive FileCall
  | engine (c : (calls signature).Call)
  | copyToContainer (containerID : String) (options : CopyToContainerOptions)
  | copyFromContainer (containerID sourcePath : String)

/-- The size that the daemon's stat reports, beside the stream. -/
structure CopyFromContainerResult where
  size : ℕ
  content : Stream

abbrev FileCall.Answer : FileCall → Type
  | .engine c => (calls signature).Answer c
  | .copyToContainer _ _ => Except DaemonError Unit
  | .copyFromContainer _ _ => Except DaemonError CopyFromContainerResult

abbrev fileCalls : Signature := ⟨FileCall, FileCall.Answer⟩

def engine {α : Type} (p : Program (calls signature) α) : Program fileCalls α :=
  p.translate fun c => Program.perform (S := fileCalls) (.engine c)

def copyToContainer (containerID : String) (options : CopyToContainerOptions) :
    Program fileCalls (Except DaemonError Unit) :=
  Program.perform (S := fileCalls) (.copyToContainer containerID options)

def copyFromContainer (containerID sourcePath : String) :
    Program fileCalls (Except DaemonError CopyFromContainerResult) :=
  Program.perform (S := fileCalls) (.copyFromContainer containerID sourcePath)

/-! ## The methods -/

def writeFile (refuses : Header → Option String) (sandboxID filePath : String) (content : List UInt8)
    (mode : FileMode) : Program fileCalls (Except Err Unit) := do
  let op := "docker.Runtime.WriteFile"
  match Runtime.validateWrite filePath content with
  | .error err => return .error (E op s!"writing file {filePath} for sandbox {sandboxID}" err)
  | .ok () =>
    match ← engine (getContainerBysandboxID sandboxID) with
    | .error err => return .error (wrap op "" err)
    | .ok c =>
      match fileArchive refuses filePath content mode with
      | .error err => return .error (E op s!"archiving file {filePath}" err)
      | .ok archive =>
        match ← copyToContainer c.id
            { destinationPath := "/"
              content := archive
              allowOverwriteDirWithFile := true
              copyUIDGID := true } with
        | .error err => return .error (E op s!"copying to container {c.id} for sandbox {sandboxID}" err.err)
        | .ok () => return .ok ()

def readFile (sandboxID filePath : String) : Program fileCalls (Except Err (List UInt8)) := do
  let op := "docker.Runtime.ReadFile"
  match Runtime.validateRead filePath with
  | .error err => return .error (E op s!"reading file {filePath} for sandbox {sandboxID}" err)
  | .ok () =>
    match ← engine (getContainerBysandboxID sandboxID) with
    | .error err => return .error (wrap op "" err)
    | .ok c =>
      match ← copyFromContainer c.id filePath with
      | .error err =>
        return .error (classifyNotFound op s!"loading tar reader from container {c.id} for sandbox {sandboxID}"
          .pathNotFound err)
      | .ok res =>
        if res.size > Runtime.MaxFileSize then return .error (wrap op "" (.sentinel .fileTooLarge))
        else
          match fileUnarchive filePath res.content with
          | .error err =>
            return .error (E op s!"unarchiving tar contents from container {c.id} for sandbox {sandboxID}" err)
          | .ok fileBytes => return .ok fileBytes

/-! ## The daemon -/

structure File where
  mode : ℕ
  content : List UInt8
deriving DecidableEq

abbrev Files := Tree Name File

/-- The containers, and the file tree of each. -/
structure Sandboxes where
  world : World Daemon
  files : String → Files

def entryNode (e : Entry) : Node File :=
  match e.header.typeflag with
  | .dir => .directory
  | .reg => .regular ⟨e.header.mode, e.content⟩
  | .other => .special

/-- A directory is not replaced by something else, nor the other way round, unless the caller allows it. -/
def replaceable (t : Files) (path : List Name) (n : Node File) : Bool :=
  match t.node path with
  | none => true
  | some m => m.isDirectory == n.isDirectory

def extractEntry (options : CopyToContainerOptions) (t : Files) (e : Entry) : Option Files :=
  let path := resolve true (options.destinationPath ++ "/" ++ e.header.name).toList
  if options.allowOverwriteDirWithFile || replaceable t path (entryNode e) then t.place path (entryNode e) else none

/-- The entries in order. -/
def extract (options : CopyToContainerOptions) (t : Files) : Option Files :=
  options.content.foldlM (extractEntry options) t

/-- One regular entry under the last name of the path. -/
def copyOut (path : List Name) (file : File) : CopyFromContainerResult :=
  ⟨file.content.length,
    .entry ⟨String.ofList (path.getLastD []), file.mode, file.content.length, .reg⟩ file.content .eof⟩

/-- What a call may do: a copy in that fails may leave anything in its container, and a copy out of what is
no regular file may have any answer. -/
def FileCall.act : (c : FileCall) → Sandboxes → c.Answer → Sandboxes → Prop
  | .engine c, s, a, s' => Backend.docker.perform c s.world a s'.world ∧ s'.files = s.files
  | .copyToContainer id options, s, a, s' =>
    s'.world = s.world ∧ (∀ id', id' ≠ id → s'.files id' = s.files id') ∧
      (a = .ok () → extract options (s.files id) = some (s'.files id))
  | .copyFromContainer id sourcePath, s, a, s' =>
    s' = s ∧ ∀ file, (s.files id).node (resolve true sourcePath.toList) = some (.regular file) →
      a = .ok (copyOut (resolve true sourcePath.toList) file)

/-- Nobody else acts. -/
def Undisturbed (s s' : Sandboxes) : Prop := s' = s

theorem undisturbed_refl (s : Sandboxes) : Undisturbed s s := rfl

/-- The method comes from `s` to the answer `r` and to `s'`, nobody else acting. -/
abbrev FileFinishes {α : Type} (p : Program fileCalls α) (s : Sandboxes) (log : List (Exchange fileCalls)) (r : α)
    (s' : Sandboxes) : Prop :=
  p.Completes FileCall.act Undisturbed s log r s'

/-! ## What the calls leave -/

section Claim
variable {s s' s'' : Sandboxes} {id p : String} {names : List Name} {refuses : Header → Option String}
  {content : List UInt8} {mode : FileMode} {t t' : Files}

section Engine
variable {σ ρ : Type} {act : (c : FileCall) → σ → c.Answer → σ → Prop} {still : σ → σ → Prop} {world : σ → World Daemon}
  {files : σ → ρ} {u u' : σ}

/-- A method without files changes none, on any daemon whose other calls have none to do with them. -/
theorem engine_completes {α : Type} {q : Program (calls signature) α} {log : List (Exchange fileCalls)} {r : α}
    (hact : ∀ c s a s', act (.engine c) s a s' → Backend.docker.perform c (world s) a (world s') ∧ files s' = files s)
    (hstill : ∀ s s', still s s' → s' = s) (h : (engine q).Completes act still u log r u') : files u' = files u ∧
      ∃ log', Finishes q (world u) log' r (world u') ∧ ∀ c a, ⟨c, a⟩ ∈ log' → ⟨.engine c, a⟩ ∈ log := by
  induction q generalizing u log with
  | done a =>
    obtain ⟨-, rfl, hs⟩ := h
    rw [hstill _ _ hs]
    exact ⟨rfl, [], ⟨rfl, rfl, rfl⟩, fun _ _ hm => nomatch hm⟩
  | call c next ih =>
    obtain ⟨v, a, w, rest, rfl, hs, hcall, hnext⟩ :
        ∃ v a w rest, log = ⟨.engine c, a⟩ :: rest ∧ still u v ∧ act (.engine c) v a w ∧
          (engine (next a)).Completes act still w rest r u' := by
      obtain ⟨v, a, w, rest, hs, hcall, hlog, hnext⟩ := h
      exact ⟨v, a, w, rest, hlog, hs, hcall, hnext⟩
    rw [hstill _ _ hs] at hcall
    obtain ⟨hperform, hfiles⟩ := hact _ _ _ _ hcall
    obtain ⟨hrest, log', hlog', hmem⟩ := ih a hnext
    refine ⟨hrest.trans hfiles, ⟨c, a⟩ :: log', ⟨world u, a, world w, log', rfl, hperform, rfl, hlog'⟩, fun c' a' hm => ?_⟩
    rcases List.mem_cons.mp hm with he | hm
    · cases he
      exact List.mem_cons_self ..
    · exact List.mem_cons_of_mem _ (hmem c' a' hm)

/-- A write that answers nil has had the file's archive copied into a container that carries the id. -/
theorem writeFile_completes {log : List (Exchange fileCalls)}
    (hact : ∀ c s a s', act (.engine c) s a s' → Backend.docker.perform c (world s) a (world s') ∧ files s' = files s)
    (hstill : ∀ s s', still s s' → s' = s) (hrefl : ∀ s, still s s)
    (h : (writeFile refuses id p content mode).Completes act still u log (.ok ()) u') :
    Leads p (resolve true p.toList) ∧ content.length ≤ Runtime.MaxFileSize ∧
      ∃ c ∈ (world u).backend.containers.rows, Carries id c ∧ ∃ v, files v = files u ∧
        (world v).backend = (world u).backend ∧ act (.copyToContainer c.id
          ⟨"/", (ancestors (resolve true p.toList)).map directoryEntry ++
            [regularEntry (resolve true p.toList) mode content], true, true⟩) v (.ok ()) u' := by
  unfold writeFile at h
  cases hv : Runtime.validateWrite p content with
  | error e =>
    rw [hv] at h
    exact nomatch h.2.1
  | ok _ =>
    obtain ⟨hread, hfits⟩ := validateWrite_ok hv
    have hleads := validateRead_leads hread
    rw [hv] at h
    obtain ⟨l, l', r₁, v, -, hget, h⟩ := h.of_bind hrefl
    obtain ⟨hfiles, log', hlookup, -⟩ := engine_completes hact hstill hget
    obtain ⟨hsame, ⟨c, hc, rfl, hid⟩ | ⟨e, rfl, -⟩⟩ := getContainerBysandboxID_finishes hlookup
    · dsimp only at h
      cases harchive : fileArchive refuses p content mode with
      | error e =>
        rw [harchive] at h
        exact nomatch h.2.1
      | ok archive =>
        rw [harchive] at h
        obtain ⟨v', a, w, rest, hs, hcopy, -, h⟩ := h
        cases a with
        | error e => exact nomatch h.2.1
        | ok x =>
          obtain ⟨-, -, hlast⟩ := h
          rw [hstill _ _ hs, fileArchive_ok hleads harchive] at hcopy
          rw [hstill _ _ hlast]
          exact ⟨hleads, hfits, c, hc, hid, v, hfiles, hsame, hcopy⟩
    · exact nomatch h.2.1

end Engine

theorem engine_finishes {α : Type} {q : Program (calls signature) α} {log : List (Exchange fileCalls)} {r : α}
    (h : FileFinishes (engine q) s log r s') : s'.files = s.files ∧
      ∃ log', Finishes q s.world log' r s'.world ∧ ∀ c a, ⟨c, a⟩ ∈ log' → ⟨.engine c, a⟩ ∈ log :=
  engine_completes (fun _ _ _ _ hact => hact) (fun _ _ hs => hs) h

/-! ### Extraction -/

/-- Nothing but directories stands above the path, and no directory at it. -/
structure Clear (t : Files) (names : List Name) : Prop where
  above : ∀ d ∈ ancestors names, t.passable d = true
  self : t.node names ≠ some .directory

/-- The two trees have the same regular files, the path apart. -/
def SameFiles (names : List Name) (t t' : Files) : Prop :=
  ∀ q, q ≠ names → ∀ file, t'.node q = some (.regular file) ↔ t.node q = some (.regular file)

/-- **Step lemma**: an ancestor's entry changes no file, and leaves the way clear. -/
theorem extract_ancestor (hclear : Clear t names) {d : List Name} (hd : d ∈ ancestors names)
    (h : t.place d .directory = some t') : Clear t' names ∧ SameFiles names t t' := by
  obtain ⟨hne, hpre, hproper⟩ := mem_ancestors.mp hd
  have hshort : ¬names <+: d := fun hpre' => hproper (hpre.eq_of_length_le hpre'.length_le)
  refine ⟨⟨fun e he => Tree.place_directory_passable hne h (hclear.above e he), ?_⟩, fun q hq file => ?_⟩
  · exact Tree.place_directory_above hne h hshort hclear.self
  · by_cases hqd : q = d
    · have hnew : t'.node d = some .directory := Tree.place_self hne h
      have hold : t.node d ≠ some (.regular file) := Tree.regular_of_passable (hclear.above d hd)
      rw [hqd, hnew]
      simp [hold]
    · exact Tree.place_regular hne (.inl rfl) h hqd file

/-- What `writeFile` asks of the daemon. -/
def writeOptions (archive : List Entry) : CopyToContainerOptions := ⟨"/", archive, true, true⟩

theorem directoryEntry_path {d : List Name} (hne : d ≠ []) (hplain : ∀ n ∈ d, Plain n) :
    resolve true ("/" ++ "/" ++ (directoryEntry d).header.name).toList = d := by
  have htext : ("/" ++ "/" ++ (directoryEntry d).header.name).toList = '/' :: '/' :: (join d ++ ['/']) := by
    simp [directoryEntry]
  rw [htext, resolve_slash, resolve_slash]
  exact (resolve_join hne hplain true).2

theorem regularEntry_path (hne : names ≠ []) (hplain : ∀ n ∈ names, Plain n) :
    resolve true ("/" ++ "/" ++ (regularEntry names mode content).header.name).toList = names := by
  have htext : ("/" ++ "/" ++ (regularEntry names mode content).header.name).toList = '/' :: '/' :: join names := by
    simp [regularEntry]
  rw [htext, resolve_slash, resolve_slash]
  exact (resolve_join hne hplain true).1

theorem extractEntry_directory {archive : List Entry} {d : List Name} (hne : d ≠ []) (hplain : ∀ n ∈ d, Plain n) :
    extractEntry (writeOptions archive) t (directoryEntry d) = t.place d .directory := by
  unfold extractEntry
  dsimp only [writeOptions]
  rw [directoryEntry_path hne hplain]
  simp [entryNode, directoryEntry]

theorem extractEntry_regular {archive : List Entry} (hne : names ≠ []) (hplain : ∀ n ∈ names, Plain n) :
    extractEntry (writeOptions archive) t (regularEntry names mode content) =
      t.place names (.regular ⟨FileMode.perm mode, content⟩) := by
  unfold extractEntry
  dsimp only [writeOptions]
  rw [regularEntry_path hne hplain]
  simp [entryNode, regularEntry]

/-- **Run lemma**: the ancestors' entries, in whatever number. -/
theorem extract_ancestors {archive : List Entry} (hplain : ∀ n ∈ names, Plain n) (ds : List (List Name))
    (hds : ∀ d ∈ ds, d ∈ ancestors names) (hclear : Clear t names)
    (h : (ds.map directoryEntry).foldlM (extractEntry (writeOptions archive)) t = some t') :
    Clear t' names ∧ SameFiles names t t' := by
  induction ds generalizing t with
  | nil =>
    obtain rfl := Option.some.inj h
    exact ⟨hclear, fun _ _ _ => Iff.rfl⟩
  | cons d ds ih =>
    have hd := hds d (List.mem_cons_self ..)
    obtain ⟨hne, hpre, -⟩ := mem_ancestors.mp hd
    rw [List.map_cons, List.foldlM_cons, extractEntry_directory hne fun n hn => hplain n (hpre.subset hn)] at h
    obtain ⟨t₁, hplace, hrest⟩ := Option.bind_eq_some_iff.mp h
    obtain ⟨hclear₁, hsame₁⟩ := extract_ancestor hclear hd hplace
    obtain ⟨hclear', hsame'⟩ := ih (fun e he => hds e (List.mem_cons_of_mem _ he)) hclear₁ hrest
    exact ⟨hclear', fun q hq file => (hsame' q hq file).trans (hsame₁ q hq file)⟩

/-- **Extraction** of a file's archive where the way is clear puts the file there and changes no other. -/
theorem extract_file (hleads : Leads p names) (hclear : Clear t names)
    (h : extract (writeOptions ((ancestors names).map directoryEntry ++ [regularEntry names mode content])) t = some t') :
    t'.node names = some (.regular ⟨FileMode.perm mode, content⟩) ∧ SameFiles names t t' := by
  have hfold : (_ ++ [_]).foldlM (extractEntry (writeOptions _)) t = some t' := h
  rw [List.foldlM_append] at hfold
  obtain ⟨t₁, hdirs, h⟩ := Option.bind_eq_some_iff.mp hfold
  obtain ⟨hclear₁, hsame₁⟩ := extract_ancestors hleads.plain _ (fun _ hd => hd) hclear hdirs
  rw [List.foldlM_cons, extractEntry_regular hleads.ne_nil hleads.plain] at h
  obtain ⟨t₂, hplace, h⟩ := Option.bind_eq_some_iff.mp h
  obtain rfl := Option.some.inj h
  have hsame₂ : SameFiles names t₁ t₂ := fun q hq file =>
    Tree.place_regular hleads.ne_nil (.inr hclear₁.self) hplace hq file
  exact ⟨Tree.place_self hleads.ne_nil hplace, fun q hq file => (hsame₂ q hq file).trans (hsame₁ q hq file)⟩

/-! ### The methods -/

theorem writeFile_finishes {log : List (Exchange fileCalls)}
    (h : FileFinishes (writeFile refuses id p content mode) s log (.ok ()) s') :
    Leads p (resolve true p.toList) ∧ content.length ≤ Runtime.MaxFileSize ∧
      s'.world.backend = s.world.backend ∧ ∃ c ∈ s.world.backend.containers.rows, Carries id c ∧
        (∀ id', id' ≠ c.id → s'.files id' = s.files id') ∧
        extract (writeOptions ((ancestors (resolve true p.toList)).map directoryEntry ++
          [regularEntry (resolve true p.toList) mode content])) (s.files c.id) = some (s'.files c.id) := by
  obtain ⟨hleads, hfits, c, hc, hid, v, hfiles, hsame, hworld, hother, hextract⟩ :=
    writeFile_completes (fun _ _ _ _ hact => hact) (fun _ _ hs => hs) undisturbed_refl h
  refine ⟨hleads, hfits, by rw [hworld]; exact hsame, c, hc, hid, fun id' hne => ?_, ?_⟩
  · rw [hother id' hne, hfiles]
  · rw [← hfiles]
    exact hextract rfl

theorem readFile_finishes {log : List (Exchange fileCalls)} {r : Except Err (List UInt8)} {file : File}
    (hread : Runtime.validateRead p = .ok ()) (hfits : file.content.length ≤ Runtime.MaxFileSize)
    (hthere : ∃ c ∈ s.world.backend.containers.rows, Carries id c)
    (hfile : ∀ c ∈ s.world.backend.containers.rows, Carries id c →
      (s.files c.id).node (resolve true p.toList) = some (.regular file))
    (hlist : ∀ label e, ⟨.engine (.backend (.containerList label)), .error e⟩ ∉ log)
    (h : FileFinishes (readFile id p) s log r s') : r = .ok file.content := by
  have hleads := validateRead_leads hread
  unfold readFile at h
  rw [hread] at h
  obtain ⟨l, l', r₁, s₁, rfl, hget, h⟩ := h.of_bind undisturbed_refl
  obtain ⟨hfiles, log', hlookup, hmem⟩ := engine_finishes hget
  obtain ⟨hsame, ⟨c, hc, rfl, hid⟩ | ⟨e, rfl, habsent, hnf⟩⟩ := getContainerBysandboxID_finishes hlookup
  · obtain ⟨u, a, v, rest, rfl, ⟨-, hcopy⟩, -, h⟩ := h
    rw [hfiles] at hcopy
    obtain rfl := hcopy file (hfile c hc hid)
    obtain ⟨last, before, hnames⟩ : ∃ last before, resolve true p.toList = before ++ [last] :=
      ⟨_, _, (List.dropLast_append_getLast hleads.ne_nil).symm⟩
    have hlast : Plain last := hleads.plain last (by simp [hnames])
    have htext : p.toList = '/' :: join (before ++ [last]) := hnames ▸ hleads.text
    have hunarchive : fileUnarchive p (copyOut (resolve true p.toList) file).content = .ok file.content :=
      fileUnarchive_single htext hlast rfl (by simp [hnames]) rfl hfits
    have hsmall : ¬(copyOut (resolve true p.toList) file).size > Runtime.MaxFileSize := Nat.not_lt.mpr hfits
    dsimp only [Program.bind] at h
    rw [if_neg hsmall, hunarchive] at h
    exact h.2.1
  · obtain ⟨c, hc, hid⟩ := hthere
    have hvalid := (managedSandboxID_eq_some_iff.mp hid).2.2
    have hnotFound := hnf hvalid fun label e hm => hlist label e (List.mem_append_left _ (hmem _ _ hm))
    exact absurd hid (habsent hnotFound c hc)

/-- **WriteFile, then ReadFile**: the archive of an accepted path is its ancestors, outermost first, and then the
file; and where the sandbox has one container, whose tree has only directories above the path and no directory at
it, what a write that answers nil was given is what a read answers, and no other regular file changes. -/
theorem writeFile_readFile (hv : Runtime.validateWrite p content = .ok ()) : ∃ names, Leads p names ∧
    (∀ archive, fileArchive refuses p content mode = .ok archive →
      archive = (ancestors names).map directoryEntry ++ [regularEntry names mode content]) ∧
    ∀ id s log s' log' r s'', Sole id s.world →
      (∀ c ∈ s.world.backend.containers.rows, Carries id c → Clear (s.files c.id) names) →
      FileFinishes (writeFile refuses id p content mode) s log (.ok ()) s' →
      FileFinishes (readFile id p) s' log' r s'' →
      (∀ label e, ⟨.engine (.backend (.containerList label)), .error e⟩ ∉ log') →
      r = .ok content ∧ ∃ c ∈ s.world.backend.containers.rows, Carries id c ∧
        SameFiles names (s.files c.id) (s'.files c.id) ∧ ∀ id', id' ≠ c.id → s'.files id' = s.files id' := by
  obtain ⟨hread, hfits⟩ := validateWrite_ok hv
  have hleads := validateRead_leads hread
  refine ⟨resolve true p.toList, hleads, fun archive => fileArchive_ok hleads, ?_⟩
  intro id s log s' log' r s'' hsole hclear hwrite hreads hlist
  obtain ⟨-, -, hsame, c, hc, hid, hother, hextract⟩ := writeFile_finishes hwrite
  obtain ⟨hfile, hkept⟩ := extract_file hleads (hclear c hc hid) hextract
  have hwritten : ∀ d ∈ s'.world.backend.containers.rows, Carries id d →
      (s'.files d.id).node (resolve true p.toList) = some (.regular ⟨FileMode.perm mode, content⟩) := by
    intro d hd hdid
    rw [hsame] at hd
    rw [hsole d hd c hc hdid hid]
    exact hfile
  have hthere : ∃ d ∈ s'.world.backend.containers.rows, Carries id d := ⟨c, by rwa [hsame], hid⟩
  exact ⟨readFile_finishes hread hfits hthere hwritten hlist hreads, c, hc, hid, hkept, hother⟩

end Claim

/-! ### Where nothing fails -/

/-- A header whose name holds a NUL byte cannot be encoded. -/
def refusesNul (hdr : Header) : Option String :=
  if '\x00' ∈ hdr.name.toList then some "archive/tar: cannot encode header" else none

def copiedIn (s : Sandboxes) (id : String) : Option Files → Except DaemonError Unit × Sandboxes
  | none => (.error ⟨"extraction point is not a directory", false⟩, s)
  | some t => (.ok (), { s with files := fun id' => if id' = id then t else s.files id' })

def copiedOut (path : List Name) : Option (Node File) → Except DaemonError CopyFromContainerResult
  | some (.regular file) => .ok (copyOut path file)
  | _ => .error ⟨"Could not find the file", true⟩

def fileExec : (c : FileCall) → Sandboxes → c.Answer × Sandboxes
  | .engine c, s => ((dockerExec c s.world).1, { s with world := (dockerExec c s.world).2 })
  | .copyToContainer id options, s => copiedIn s id (extract options (s.files id))
  | .copyFromContainer id sourcePath, s =>
    (copiedOut (resolve true sourcePath.toList) ((s.files id).node (resolve true sourcePath.toList)), s)

theorem act_fileExec (c : FileCall) (s : Sandboxes) : FileCall.act c s (fileExec c s).1 (fileExec c s).2 := by
  cases c with
  | engine c => exact ⟨dockerExec_performs c s.world, rfl⟩
  | copyToContainer id options =>
    show FileCall.act (.copyToContainer id options) s (copiedIn s id (extract options (s.files id))).1 (copiedIn s id _).2
    cases h : extract options (s.files id) with
    | none => exact ⟨rfl, fun _ _ => rfl, fun he => nomatch he⟩
    | some t => exact ⟨rfl, fun id' hne => if_neg hne, fun _ => h.trans (by simp [copiedIn])⟩
  | copyFromContainer id sourcePath =>
    refine ⟨rfl, fun file hfile => ?_⟩
    show copiedOut _ _ = _
    rw [hfile]
    rfl

/-- One sandbox whose container has no files. -/
def emptySandbox : Sandboxes := ⟨createdOnce, fun _ => .empty⟩

def helloWritten : Except Err Unit × Sandboxes :=
  (writeFile refusesNul exampleID "/srv/app/hello.txt" [104, 105, 10] 0o100644).run fileExec emptySandbox

def helloRead : Except Err (List UInt8) × Sandboxes :=
  (readFile exampleID "/srv/app/hello.txt").run fileExec helloWritten.2

theorem sole_createdOnce : Sole exampleID createdOnce := by
  have hone : createdOnce.backend.containers.rows.length = 1 := by decide +kernel
  obtain ⟨only, hrows⟩ := List.length_eq_one_iff.mp hone
  intro c hc c' hc' _ _
  rw [hrows, List.mem_singleton] at hc hc'
  rw [hc, hc']

theorem clear_empty {names : List Name} (hne : names ≠ []) : Clear .empty names where
  above d hd := by
    have hd' := (mem_ancestors.mp hd).1
    simp [Tree.passable, Tree.empty, hd']
  self := by simp [Tree.empty, hne]

theorem writeFile_readFile_hello : ∃ log log' r,
    FileFinishes (writeFile refusesNul exampleID "/srv/app/hello.txt" [104, 105, 10] 0o100644) emptySandbox log
      (.ok ()) helloWritten.2 ∧
    FileFinishes (readFile exampleID "/srv/app/hello.txt") helloWritten.2 log' r helloRead.2 ∧
    r = .ok [104, 105, 10] := by
  obtain ⟨log, hwrite, -⟩ := Program.completes_run undisturbed_refl act_fileExec
    (writeFile refusesNul exampleID "/srv/app/hello.txt" [104, 105, 10] 0o100644) emptySandbox
  have hok : helloWritten.1 = .ok () := eq_ok_of_isOk (by decide +kernel)
  change FileFinishes _ _ log helloWritten.1 _ at hwrite
  rw [hok] at hwrite
  obtain ⟨log', hread, hanswers⟩ := Program.completes_run undisturbed_refl act_fileExec
    (readFile exampleID "/srv/app/hello.txt") helloWritten.2
  have hv : Runtime.validateWrite "/srv/app/hello.txt" [104, 105, 10] = .ok () := eq_ok_of_isOk (by decide +kernel)
  obtain ⟨names, hleads, hentries, htrip⟩ := writeFile_readFile hv
  refine ⟨log, log', _, hwrite, hread, ?_⟩
  refine (htrip exampleID emptySandbox log _ log' _ _ sole_createdOnce (fun _ _ _ => clear_empty hleads.ne_nil)
    hwrite hread fun label e hm => ?_).1
  obtain ⟨u, hu⟩ := hanswers _ _ hm
  cases hu

end Docker
end Quickspin
