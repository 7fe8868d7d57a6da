import Quickspin.Lib.Paths

/-! Trees of directories and files, by the names that lead to their entries. Placing an entry makes the
directories above it and replaces what is there; where no ancestor is anything but a directory and no
directory is replaced by something else, it leaves every other file as it was. -/
namespace FileTree
open Paths
set_option autoImplicit false

variable {α β : Type}

/-- `special` is neither a directory nor a regular file. -/
inductive Node (β : Type)
  | directory
  | regular (file : β)
  | special

def Node.isDirectory : Node β → Bool
  | .directory => true
  | .regular _ => false
  | .special => false

theorem Node.isDirectory_iff {n : Node β} : n.isDirectory = true ↔ n = .directory := by
  cases n <;> simp [Node.isDirectory]

/-- Every entry stands in a directory. -/
structure Tree (α β : Type) where
  node : List α → Option (Node β)
  root : node [] = some .directory
  parent : ∀ dir name, node (dir ++ [name]) ≠ none → node dir = some .directory

namespace Tree
variable {t t' : Tree α β} {path q : List α} {n : Node β}

def empty : Tree α β where
  node q := if q.isEmpty then some .directory else none
  root := rfl
  parent dir name h := by simp at h

theorem absent_below (h : t.node path ≠ some .directory) {rest : List α} (hrest : rest ≠ []) :
    t.node (path ++ rest) = none := by
  induction rest using List.reverseRecOn with
  | nil => exact absurd rfl hrest
  | append_singleton rest name ih =>
    by_contra hsome
    have hdir := t.parent (path ++ rest) name (by rwa [List.append_assoc])
    by_cases hnil : rest = []
    · rw [hnil, List.append_nil] at hdir
      exact h hdir
    · rw [ih hnil] at hdir
      cases hdir

section Place
variable [DecidableEq α]

/-- Nothing stands in the way of a directory at `q`. -/
def passable (t : Tree α β) (q : List α) : Bool :=
  match t.node q with
  | none => true
  | some n => n.isDirectory

/-- What is at `q` once `n` is at `path`: directories lead to it, and only a directory keeps what was below. -/
def placed (t : Tree α β) (path : List α) (n : Node β) (q : List α) : Option (Node β) :=
  if q = path then some n
  else if path <+: q then if n.isDirectory then t.node q else none
  else if q <+: path then some .directory
  else t.node q

theorem placed_parent (dir : List α) (name : α)
    (h : placed t path n (dir ++ [name]) ≠ none) : placed t path n dir = some .directory := by
  have hdir : dir <+: dir ++ [name] := List.prefix_append _ _
  have hlen : (dir ++ [name]).length = dir.length + 1 := by simp
  unfold placed at h ⊢
  by_cases hself : dir ++ [name] = path
  · have hne : dir ≠ path := fun he => by
      have hsame := congrArg List.length (hself.trans he.symm)
      omega
    have hnot : ¬path <+: dir := fun hpre => by
      have hle := hpre.length_le
      rw [← hself] at hle
      omega
    rw [if_neg hne, if_neg hnot, if_pos (hself ▸ hdir)]
  · rw [if_neg hself] at h
    by_cases hbelow : path <+: dir ++ [name]
    · rw [if_pos hbelow] at h
      have hpre : path <+: dir := by
        rcases List.prefix_concat_iff.mp hbelow with he | hpre
        · exact absurd he.symm hself
        · exact hpre
      cases hn : n.isDirectory with
      | false => simp [hn] at h
      | true =>
        rw [hn, if_pos rfl] at h
        have hold := t.parent dir name h
        by_cases heq : dir = path
        · rw [if_pos heq, Node.isDirectory_iff.mp hn]
        · rw [if_neg heq, if_pos hpre, if_pos rfl, hold]
    · rw [if_neg hbelow] at h
      have hnot : ¬path <+: dir := fun hpre => hbelow (hpre.trans hdir)
      have hne : dir ≠ path := fun he => hnot (he ▸ List.prefix_refl _)
      rw [if_neg hne, if_neg hnot]
      by_cases habove : dir <+: path
      · rw [if_pos habove]
      · rw [if_neg habove]
        rw [if_neg fun hpre => habove (hdir.trans hpre)] at h
        exact t.parent dir name h

/-- Put an entry at `path`, unless something is in the way of a directory above it. -/
def place (t : Tree α β) (path : List α) (n : Node β) : Option (Tree α β) :=
  if hp : path = [] then if n.isDirectory then some t else none
  else if (ancestors path).all t.passable then
    some
      { node := placed t path n
        root := by
          have hpre : ([] : List α) <+: path := List.nil_prefix
          have hnot : ¬path <+: [] := fun h => hp (List.prefix_nil.mp h)
          simp [placed, Ne.symm hp, hnot, hpre]
        parent := placed_parent }
  else none

theorem place_node (hp : path ≠ []) (h : t.place path n = some t') : t'.node = placed t path n := by
  unfold place at h
  rw [dif_neg hp] at h
  split at h
  · cases h
    rfl
  · cases h

theorem place_passable (hp : path ≠ []) (h : t.place path n = some t') {d : List α} (hd : d ∈ ancestors path) :
    t.passable d = true := by
  unfold place at h
  rw [dif_neg hp] at h
  split at h
  · next hall => exact List.all_eq_true.mp hall d hd
  · cases h

theorem place_self (hp : path ≠ []) (h : t.place path n = some t') : t'.node path = some n := by
  rw [place_node hp h, placed, if_pos rfl]

omit [DecidableEq α] in
theorem regular_of_passable {file : β} (h : t.passable q = true) : t.node q ≠ some (.regular file) := by
  intro hq
  unfold passable at h
  rw [hq] at h
  cases h

/-- **Placing** an entry leaves every other file as it was, unless a directory gives way to something else. -/
theorem place_regular (hp : path ≠ []) (hkeep : n = .directory ∨ t.node path ≠ some .directory)
    (h : t.place path n = some t') (hq : q ≠ path) (file : β) :
    t'.node q = some (.regular file) ↔ t.node q = some (.regular file) := by
  rw [place_node hp h, placed, if_neg hq]
  by_cases hbelow : path <+: q
  · rw [if_pos hbelow]
    rcases hkeep with rfl | hdir
    · simp [Node.isDirectory]
    · obtain ⟨rest, rfl⟩ := hbelow
      have hrest : rest ≠ [] := fun he => hq (by simp [he])
      rw [absent_below hdir hrest]
      simp
  · rw [if_neg hbelow]
    by_cases habove : q <+: path
    · rw [if_pos habove]
      have hold : t.node q ≠ some (.regular file) := by
        by_cases hroot : q = []
        · rw [hroot, t.root]
          simp
        · exact regular_of_passable (place_passable hp h (mem_ancestors.mpr ⟨hroot, habove, hq⟩))
      simp [hold]
    · rw [if_neg habove]

/-- A directory placed where it may be leaves nothing in the way of another one. -/
theorem place_directory_passable (hp : path ≠ []) (h : t.place path .directory = some t')
    (hq : t.passable q = true) : t'.passable q = true := by
  unfold passable
  rw [place_node hp h, placed]
  by_cases hself : q = path
  · simp [hself, Node.isDirectory]
  · rw [if_neg hself]
    by_cases hbelow : path <+: q
    · rw [if_pos hbelow]
      exact hq
    · rw [if_neg hbelow]
      by_cases habove : q <+: path
      · simp [habove, Node.isDirectory]
      · rw [if_neg habove]
        exact hq

/-- A directory placed above an entry does not make that entry a directory. -/
theorem place_directory_above (hp : path ≠ []) (h : t.place path .directory = some t') (hq : ¬q <+: path)
    (hdir : t.node q ≠ some .directory) : t'.node q ≠ some .directory := by
  have hne : q ≠ path := fun he => hq (he ▸ List.prefix_refl _)
  rw [place_node hp h, placed, if_neg hne]
  by_cases hbelow : path <+: q
  · rw [if_pos hbelow]
    exact hdir
  · rw [if_neg hbelow, if_neg hq]
    exact hdir

end Place
end Tree
end FileTree
