import Quickspin.Lib.Paths

/-! File systems whose directories have attributes of their own, by the names that lead to their items. Putting
an item replaces one of the other kind together with what is under it, and gives a directory that is there new
attributes; what that leaves as it was is exactly what is neither at the path nor, where the item is no
directory, below it. -/
open Paths
set_option autoImplicit false

variable {α κ δ : Type}

/-- A directory or a regular file, each with its attributes. -/
inductive FileSystem.Item (κ δ : Type)
  | directory (attr : κ)
  | regular (attr : κ) (content : δ)
deriving DecidableEq

def FileSystem.Item.isDirectory : FileSystem.Item κ δ → Bool
  | .directory _ => true
  | .regular _ _ => false

/-- Every item stands in a directory. -/
structure FileSystem (α κ δ : Type) where
  item : List α → Option (FileSystem.Item κ δ)
  root : ∃ attr, item [] = some (.directory attr)
  parent : ∀ dir name, item (dir ++ [name]) ≠ none → ∃ attr, item dir = some (.directory attr)

namespace FileSystem
variable {t t' : FileSystem α κ δ} {path q : List α} {x : Item κ δ} {attr : κ}

def isDir (t : FileSystem α κ δ) (q : List α) : Bool := (t.item q).any Item.isDirectory

theorem isDir_iff : t.isDir q = true ↔ ∃ attr, t.item q = some (.directory attr) := by
  unfold isDir
  cases t.item q with
  | none => simp
  | some x => cases x <;> simp [Item.isDirectory]

/-- Only a root. -/
def empty (attr : κ) : FileSystem α κ δ where
  item q := if q.isEmpty then some (.directory attr) else none
  root := ⟨attr, rfl⟩
  parent dir name h := by simp at h

theorem absent_under (h : t.isDir path = false) {rest : List α} (hrest : rest ≠ []) : t.item (path ++ rest) = none := by
  induction rest using List.reverseRecOn with
  | nil => exact absurd rfl hrest
  | append_singleton rest name ih =>
    by_contra hsome
    have hdir := isDir_iff.mpr (t.parent (path ++ rest) name (by rwa [List.append_assoc]))
    by_cases hnil : rest = []
    · rw [hnil, List.append_nil, h] at hdir
      cases hdir
    · simp [isDir, ih hnil] at hdir

section Put
variable [DecidableEq α]

/-- What is at `q` once `x` is at `path`: only a directory in place of a directory keeps what is under it. -/
def putItem (t : FileSystem α κ δ) (path : List α) (x : Item κ δ) (q : List α) : Option (Item κ δ) :=
  if q = path then some x
  else if path <+: q then if t.isDir path && x.isDirectory then t.item q else none
  else t.item q

/-- The root stays a directory, and an item is put into a directory. -/
def admits (t : FileSystem α κ δ) (path : List α) (x : Item κ δ) : Bool :=
  if path = [] then x.isDirectory else t.isDir path.dropLast

theorem putItem_root (h : t.admits path x = true) : ∃ attr, t.putItem path x [] = some (.directory attr) := by
  unfold admits at h
  by_cases hpath : path = []
  · rw [if_pos hpath] at h
    rw [putItem, if_pos hpath.symm]
    cases x with
    | directory attr => exact ⟨attr, rfl⟩
    | regular attr content => cases h
  · have hnot : ¬ path <+: [] := fun hpre => hpath (List.prefix_nil.mp hpre)
    rw [putItem, if_neg (Ne.symm hpath), if_neg hnot]
    exact t.root

theorem putItem_parent (h : t.admits path x = true) (dir : List α) (name : α)
    (hq : t.putItem path x (dir ++ [name]) ≠ none) : ∃ attr, t.putItem path x dir = some (.directory attr) := by
  have hdir : dir <+: dir ++ [name] := List.prefix_append _ _
  unfold putItem at hq
  by_cases hself : dir ++ [name] = path
  · have hne : dir ≠ path := fun he => by simp [he] at hself
    have hnot : ¬ path <+: dir := fun hpre => by
      have hle := hpre.length_le
      rw [← hself, List.length_append, List.length_singleton] at hle
      omega
    have hpath : path ≠ [] := fun he => by simp [he] at hself
    rw [admits, if_neg hpath, ← hself, List.dropLast_concat] at h
    rw [putItem, if_neg hne, if_neg hnot]
    exact isDir_iff.mp h
  rw [if_neg hself] at hq
  by_cases hbelow : path <+: dir ++ [name]
  · have hpre : path <+: dir := by
      cases List.prefix_concat_iff.mp hbelow with
      | inl he => exact absurd he.symm hself
      | inr hpre => exact hpre
    rw [if_pos hbelow] at hq
    by_cases hkeep : (t.isDir path && x.isDirectory) = true
    · rw [if_pos hkeep] at hq
      by_cases heq : dir = path
      · rw [putItem, if_pos heq]
        cases x with
        | directory attr => exact ⟨attr, rfl⟩
        | regular attr content => simp [Item.isDirectory] at hkeep
      · rw [putItem, if_neg heq, if_pos hpre, if_pos hkeep]
        exact t.parent dir name hq
    · rw [if_neg hkeep] at hq
      exact absurd rfl hq
  · have hne : dir ≠ path := fun he => hbelow (he ▸ hdir)
    have hnot : ¬ path <+: dir := fun hpre => hbelow (hpre.trans hdir)
    rw [if_neg hbelow] at hq
    rw [putItem, if_neg hne, if_neg hnot]
    exact t.parent dir name hq

def put (t : FileSystem α κ δ) (path : List α) (x : Item κ δ) : Option (FileSystem α κ δ) :=
  if h : t.admits path x = true then
    some { item := t.putItem path x, root := putItem_root h, parent := putItem_parent h }
  else none

theorem put_item (h : t.put path x = some t') : t'.item = t.putItem path x := by
  unfold put at h
  split at h
  · cases h
    rfl
  · cases h

theorem put_self (h : t.put path x = some t') : t'.item path = some x := by
  rw [put_item h, putItem, if_pos rfl]

/-- **Putting** an item leaves what is not under its path as it was. -/
theorem put_beside (h : t.put path x = some t') (hq : ¬ path <+: q) : t'.item q = t.item q := by
  have hne : q ≠ path := fun he => hq (he ▸ List.prefix_refl _)
  rw [put_item h, putItem, if_neg hne, if_neg hq]

/-- Putting a directory leaves everything else as it was. -/
theorem put_directory (h : t.put path (.directory attr) = some t') (hq : q ≠ path) : t'.item q = t.item q := by
  rw [put_item h, putItem, if_neg hq]
  by_cases hbelow : path <+: q
  · rw [if_pos hbelow]
    obtain ⟨rest, rfl⟩ := hbelow
    have hrest : rest ≠ [] := fun he => hq (by simp [he])
    cases hdir : t.isDir path with
    | true => simp [Item.isDirectory]
    | false => simp [absent_under hdir hrest]
  · rw [if_neg hbelow]

/-- Nothing is under a regular file that was put. -/
theorem put_regular {content : δ} (h : t.put path (.regular attr content) = some t') (hbelow : path <+: q)
    (hq : q ≠ path) : t'.item q = none := by
  rw [put_item h, putItem, if_neg hq, if_pos hbelow]
  simp [Item.isDirectory]

/-- **Run lemma**: directories put one after another. -/
theorem put_directories {ds : List (List α)} (h : ds.foldlM (fun t d => t.put d (.directory attr)) t = some t')
    (q : List α) : t'.item q = if q ∈ ds then some (.directory attr) else t.item q := by
  induction ds generalizing t with
  | nil =>
    obtain rfl := Option.some.inj h
    simp
  | cons d ds ih =>
    rw [List.foldlM_cons] at h
    obtain ⟨t₁, hput, hrest⟩ := Option.bind_eq_some_iff.mp h
    rw [ih hrest]
    by_cases hmem : q ∈ ds
    · simp [hmem]
    · by_cases hqd : q = d
      · simp [hqd, put_self hput]
      · simp [hmem, hqd, put_directory hput hqd]

/-- The directories that lead to a path can always be put, outermost first. -/
theorem put_ancestors (t : FileSystem α κ δ) (attr : κ) (path : List α) :
    ∃ t', (ancestors path).foldlM (fun t d => t.put d (.directory attr)) t = some t' := by
  have hchain : ∀ k, k ≤ path.length - 1 → ∃ t', ((List.range k).map fun i => path.take (i + 1)).foldlM
      (fun t d => t.put d (.directory attr)) t = some t' ∧ t'.isDir (path.take k) = true := by
    intro k
    induction k with
    | zero =>
      intro
      exact ⟨t, rfl, isDir_iff.mpr t.root⟩
    | succ k ih =>
      intro hk
      obtain ⟨t₁, hrun, hdir⟩ := ih (by omega)
      have hlen : (path.take (k + 1)).length = k + 1 := by
        rw [List.length_take]
        omega
      have hne : path.take (k + 1) ≠ [] := fun he => by simp [he] at hlen
      have hlast : (path.take (k + 1)).dropLast = path.take k := by
        rw [List.dropLast_eq_take, hlen, List.take_take]
        congr 1
        omega
      have hadmits : t₁.admits (path.take (k + 1)) (.directory attr) = true := by
        rw [admits, if_neg hne, hlast]
        exact hdir
      have hput : t₁.put (path.take (k + 1)) (.directory attr) = some _ := dif_pos hadmits
      refine ⟨_, ?_, isDir_iff.mpr ⟨attr, put_self hput⟩⟩
      rw [List.range_succ, List.map_append, List.foldlM_append, hrun]
      simpa using hput
  obtain ⟨t', hrun, -⟩ := hchain _ (Nat.le_refl _)
  exact ⟨t', hrun⟩

end Put
end FileSystem
