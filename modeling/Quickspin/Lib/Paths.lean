import Mathlib.Data.List.Infix

/-! Slash-separated paths, cleaned as the standard library's `path` package does it: an absolute text that
is its own cleaning is a slash before plain names, and splits back into them. A text is the list of its
characters, of which only the slash and the dot matter. -/
namespace Paths
set_option autoImplicit false

abbrev Name := List Char

def split (s : List Char) : List Name := s.splitOn '/'

def join (names : List Name) : List Char := ['/'].intercalate names

/-- A name that stands for an entry of a directory. -/
def Plain (n : Name) : Prop := n ≠ [] ∧ n ≠ ['.'] ∧ n ≠ ['.', '.'] ∧ '/' ∉ n

/-- One element against the names before it, the last of them first. -/
def cleanStep (rooted : Bool) (names : List Name) (n : Name) : List Name :=
  if n = [] ∨ n = ['.'] then names
  else if n = ['.', '.'] then
    match names with
    | [] => if rooted then [] else [n]
    | last :: rest => if last = ['.', '.'] then n :: names else rest
  else n :: names

/-- The names a text comes to. -/
def resolve (rooted : Bool) (s : List Char) : List Name := ((split s).foldl (cleanStep rooted) []).reverse

def isAbs (s : List Char) : Bool := s.head? = some '/'

/-- `path.Clean` -/
def clean (s : List Char) : List Char :=
  let out := (if isAbs s then ['/'] else []) ++ join (resolve (isAbs s) s)
  if out = [] then ['.'] else out

/-- `path.Base`: the last element, trailing slashes apart. -/
def base (s : List Char) : List Char :=
  if s = [] then ['.']
  else
    let last := ((s.reverse.dropWhile (· = '/')).takeWhile (· ≠ '/')).reverse
    if last = [] then ['/'] else last

/-- `path.Dir`: what stands before the last element, cleaned. -/
def dir (s : List Char) : List Char := clean (s.reverse.dropWhile (· ≠ '/')).reverse

/-- `path.Join`: empty elements are ignored. -/
def joinElems (elems : List (List Char)) : List Char :=
  if elems.filter (· ≠ []) = [] then [] else clean (join (elems.filter (· ≠ [])))

/-- The clean text that leads by the names from a directory; a dot is the directory itself. -/
def relative (names : List Name) : List Char := if names = [] then ['.'] else join names

/-! ## Splitting and joining -/

section Names
variable {names : List Name} {n : Name}

theorem not_mem_of_mem_split {s : List Char} (h : n ∈ split s) : '/' ∉ n := by
  induction s generalizing n with
  | nil =>
    have hn : n = [] := by simpa [split] using h
    simp [hn]
  | cons c s ih =>
    unfold split at h ih
    rw [List.splitOn_cons_eq_if_modifyHead] at h
    by_cases hc : c = '/'
    · rw [if_pos (by simpa using hc)] at h
      rcases List.mem_cons.mp h with rfl | h
      · simp
      · exact ih h
    · rw [if_neg (by simpa using hc)] at h
      cases hs : s.splitOn '/' with
      | nil => exact absurd hs (List.splitOn_ne_nil _ _)
      | cons first rest =>
        rw [hs] at h ih
        rcases List.mem_cons.mp h with rfl | h
        · have hfirst : '/' ∉ first := ih (List.mem_cons_self ..)
          simp [hfirst, Ne.symm hc]
        · exact ih (List.mem_cons_of_mem _ h)

theorem split_join (hne : names ≠ []) (h : ∀ n ∈ names, Plain n) : split (join names) = names :=
  List.splitOn_intercalate '/' (fun n hn => (h n hn).2.2.2) hne

theorem split_join_slash (hne : names ≠ []) (h : ∀ n ∈ names, Plain n) :
    split (join names ++ ['/']) = names ++ [[]] := by
  unfold split
  rw [List.splitOn_append_cons_self, List.splitOn_nil]
  exact congrArg (· ++ [[]]) (split_join hne h)

theorem split_slash (s : List Char) : split ('/' :: s) = [] :: split s := by
  simp [split, List.splitOn_cons_eq_if_modifyHead]

theorem join_append_singleton (hne : names ≠ []) : join (names ++ [n]) = join names ++ '/' :: n := by
  induction names with
  | nil => exact absurd rfl hne
  | cons m names ih =>
    by_cases hnil : names = []
    · simp [hnil, join]
    · have hlong : names ++ [n] ≠ [] := by simp
      unfold join at ih ⊢
      rw [List.cons_append, List.intercalate_cons_of_ne_nil hlong, ih hnil, List.intercalate_cons_of_ne_nil hnil]
      simp

/-! ## Cleaning -/

theorem cleanStep_plain (h : Plain n) (rooted : Bool) (names : List Name) :
    cleanStep rooted names n = n :: names := by
  unfold cleanStep
  rw [if_neg (by simp [h.1, h.2.1]), if_neg h.2.2.1]

/-- From the root up no name but a plain one is kept. -/
theorem cleanStep_rooted (h : ∀ m ∈ names, Plain m) (hn : '/' ∉ n) : ∀ m ∈ cleanStep true names n, Plain m := by
  unfold cleanStep
  by_cases hempty : n = [] ∨ n = ['.']
  · rw [if_pos hempty]
    exact h
  · rw [if_neg hempty]
    have hplain : n ≠ ['.', '.'] → Plain n := fun hup =>
      ⟨fun he => hempty (.inl he), fun he => hempty (.inr he), hup, hn⟩
    by_cases hup : n = ['.', '.']
    · rw [if_pos hup]
      cases names with
      | nil => simp
      | cons last rest =>
        have hlast : last ≠ ['.', '.'] := (h last (List.mem_cons_self ..)).2.2.1
        simpa [hlast] using fun m hm => h m (List.mem_cons_of_mem _ hm)
    · rw [if_neg hup]
      intro m hm
      rcases List.mem_cons.mp hm with rfl | hm
      · exact hplain hup
      · exact h m hm

theorem resolve_plain {s : List Char} : ∀ m ∈ resolve true s, Plain m := by
  have hfold : ∀ (elements : List Name) (names : List Name), (∀ n ∈ elements, '/' ∉ n) → (∀ m ∈ names, Plain m) →
      ∀ m ∈ elements.foldl (cleanStep true) names, Plain m := by
    intro elements
    induction elements with
    | nil => exact fun _ _ h => h
    | cons n elements ih =>
      intro names hslash h
      have hn : '/' ∉ n := hslash n (List.mem_cons_self ..)
      exact ih _ (fun x hx => hslash x (List.mem_cons_of_mem _ hx)) (cleanStep_rooted h hn)
  intro m hm
  exact hfold _ [] (fun n hn => not_mem_of_mem_split hn) (fun _ hm => nomatch hm) m (List.mem_reverse.mp hm)

theorem foldl_cleanStep (h : ∀ n ∈ names, Plain n) (rooted : Bool) (before : List Name) :
    names.foldl (cleanStep rooted) before = names.reverse ++ before := by
  induction names generalizing before with
  | nil => rfl
  | cons n names ih =>
    have hn : Plain n := h n (List.mem_cons_self ..)
    rw [List.foldl_cons, cleanStep_plain hn, ih fun m hm => h m (List.mem_cons_of_mem _ hm)]
    simp

/-- **Plain names** come to themselves, with a trailing slash and without. -/
theorem resolve_join (hne : names ≠ []) (h : ∀ n ∈ names, Plain n) (rooted : Bool) :
    resolve rooted (join names) = names ∧ resolve rooted (join names ++ ['/']) = names := by
  unfold resolve
  rw [split_join hne h, split_join_slash hne h, List.foldl_append, foldl_cleanStep h]
  simp [cleanStep]

theorem resolve_slash (s : List Char) (rooted : Bool) : resolve rooted ('/' :: s) = resolve rooted s := by
  simp [resolve, split_slash, cleanStep]

/-- An absolute text that is its own cleaning is a slash before plain names. -/
theorem eq_join_of_clean {s : List Char} (habs : isAbs s = true) (h : s = clean s) :
    s = '/' :: join (resolve true s) := by
  unfold clean at h
  rw [habs] at h
  simpa using h

theorem base_join (hn : Plain n) : base ('/' :: join (names ++ [n])) = n := by
  have hlast : ∃ before, '/' :: join (names ++ [n]) = before ++ '/' :: n := by
    by_cases hnil : names = []
    · exact ⟨[], by simp [hnil, join]⟩
    · exact ⟨'/' :: join names, by rw [join_append_singleton hnil]; simp⟩
  obtain ⟨before, hb⟩ := hlast
  have hrev : n.reverse ≠ [] := by simpa using hn.1
  have hmem : ∀ c ∈ n.reverse, c ≠ '/' := fun c hc he => hn.2.2.2 (he ▸ List.mem_reverse.mp hc)
  obtain ⟨c, rest, hc⟩ := List.exists_cons_of_ne_nil hrev
  have hhead : c ≠ '/' := hmem c (hc ▸ List.mem_cons_self ..)
  have hdrop : (before ++ '/' :: n).reverse.dropWhile (· = '/') = n.reverse ++ '/' :: before.reverse := by
    simp [hc, hhead]
  have htake : (n.reverse ++ '/' :: before.reverse).takeWhile (· ≠ '/') = n.reverse := by
    rw [List.takeWhile_append_of_pos fun c hx => by simpa using hmem c hx]
    simp
  unfold base
  rw [if_neg (by simp), hb, hdrop, htake]
  simp [hn.1]

theorem clean_rooted {s : List Char} (h : isAbs s = true) : clean s = '/' :: join (resolve true s) := by
  unfold clean
  rw [h]
  simp

/-- What stands after a slash goes on from what stands before it. -/
theorem resolve_append (a b : List Char) (rooted : Bool) :
    resolve rooted (a ++ '/' :: b) = ((split b).foldl (cleanStep rooted) (resolve rooted a).reverse).reverse := by
  unfold resolve split
  rw [List.splitOn_append_cons_self, List.foldl_append, List.reverse_reverse]

/-- A relative text adds its names, with a trailing slash and without. -/
theorem foldl_relative (h : ∀ n ∈ names, Plain n) (rooted : Bool) (before : List Name) :
    (split (relative names)).foldl (cleanStep rooted) before = names.reverse ++ before ∧
      (split (relative names ++ ['/'])).foldl (cleanStep rooted) before = names.reverse ++ before := by
  unfold relative
  by_cases hnil : names = []
  · rw [if_pos hnil, hnil]
    exact ⟨rfl, rfl⟩
  · rw [if_neg hnil, split_join hnil h, split_join_slash hnil h, List.foldl_append, foldl_cleanStep h]
    exact ⟨rfl, rfl⟩

theorem resolve_relative {text : List Char} (h : ∀ n ∈ names, Plain n) (rooted : Bool)
    (htext : text = relative names ∨ text = relative names ++ ['/']) : resolve rooted text = names := by
  obtain ⟨hbare, hslash⟩ := foldl_relative h rooted []
  unfold resolve
  rcases htext with rfl | rfl
  · rw [hbare]
    simp
  · rw [hslash]
    simp

theorem resolve_rooted_join (h : ∀ n ∈ names, Plain n) : resolve true ('/' :: join names) = names := by
  by_cases hnil : names = []
  · rw [hnil]
    rfl
  · rw [resolve_slash, (resolve_join hnil h true).1]

theorem dir_join (h : ∀ n ∈ names, Plain n) : dir ('/' :: join names) = '/' :: join names.dropLast := by
  induction names using List.reverseRecOn with
  | nil => rfl
  | append_singleton before n _ =>
    have hn : Plain n := h n (by simp)
    have hbefore : ∀ m ∈ before, Plain m := fun m hm => h m (by simp [hm])
    obtain ⟨start, hstart, hup⟩ : ∃ start, '/' :: join (before ++ [n]) = start ++ '/' :: n ∧
        resolve true start = before := by
      by_cases hnil : before = []
      · exact ⟨[], by simp [hnil, join], by rw [hnil]; rfl⟩
      · refine ⟨'/' :: join before, ?_, resolve_rooted_join hbefore⟩
        rw [join_append_singleton hnil]
        simp
    have hmem : ∀ c ∈ n.reverse, (decide (c ≠ '/')) = true := by
      intro c hc
      have hne : c ≠ '/' := fun he => hn.2.2.2 (he ▸ List.mem_reverse.mp hc)
      exact decide_eq_true hne
    have hdrop : (start ++ '/' :: n).reverse.dropWhile (· ≠ '/') = '/' :: start.reverse := by
      rw [List.reverse_append, List.reverse_cons, List.append_assoc, List.dropWhile_append_of_pos hmem]
      rfl
    have habs : isAbs (start ++ ['/']) = true := by
      cases start with
      | nil => rfl
      | cons c rest =>
        have hc : c = '/' := (List.cons.inj hstart).1.symm
        rw [hc]
        rfl
    unfold dir
    rw [hstart, hdrop, List.reverse_cons, List.reverse_reverse, clean_rooted habs, resolve_append, hup, List.dropLast_concat]
    have hfold : (split []).foldl (cleanStep true) before.reverse = before.reverse := rfl
    rw [hfold, List.reverse_reverse]

/-- **Joining** a directory and a relative text follows the names of both. -/
theorem joinElems_relative {below : List Name} {text : List Char} (h : ∀ n ∈ names, Plain n) (hb : ∀ n ∈ below, Plain n)
    (htext : text = relative below ∨ text = relative below ++ ['/']) :
    joinElems ['/' :: join names, text] = '/' :: join (names ++ below) := by
  have hne : text ≠ [] := by
    intro he
    have hnil : relative below = [] := by
      rcases htext with ht | ht
      · rw [← ht, he]
      · rw [he] at ht
        simp at ht
    unfold relative at hnil
    by_cases hbelow : below = []
    · rw [if_pos hbelow] at hnil
      cases hnil
    · rw [if_neg hbelow] at hnil
      have hsplit := split_join hbelow hb
      obtain ⟨n, rest, hcons⟩ := List.exists_cons_of_ne_nil hbelow
      rw [hnil, hcons] at hsplit
      have hn : n = [] := (List.cons.inj hsplit).1.symm
      exact (hb n (hcons ▸ List.mem_cons_self ..)).1 hn
  have hfilter : [('/' :: join names), text].filter (· ≠ []) = ['/' :: join names, text] := by simp [hne]
  have hjoin : join ['/' :: join names, text] = ('/' :: join names) ++ '/' :: text := by simp [join]
  have habs : isAbs (('/' :: join names) ++ '/' :: text) = true := rfl
  have hresolve : resolve true (('/' :: join names) ++ '/' :: text) = names ++ below := by
    rw [resolve_append, resolve_rooted_join h]
    obtain ⟨hplain, hslash⟩ := foldl_relative hb true names.reverse
    rcases htext with rfl | rfl
    · rw [hplain]
      simp
    · rw [hslash]
      simp
  unfold joinElems
  rw [hfilter, if_neg (by simp), hjoin, clean_rooted habs, hresolve]

end Names

/-! ## Ancestors -/

section Ancestors
variable {α : Type} {names d : List α}

/-- The proper ancestors of what the names lead to, the root apart, outermost first. -/
def ancestors (names : List α) : List (List α) := (List.range (names.length - 1)).map fun i => names.take (i + 1)

theorem mem_ancestors : d ∈ ancestors names ↔ d ≠ [] ∧ d <+: names ∧ d ≠ names := by
  unfold ancestors
  constructor
  · intro h
    obtain ⟨i, hi, rfl⟩ := List.mem_map.mp h
    have hlt : i + 1 < names.length := by
      have := List.mem_range.mp hi
      omega
    have hlen : (names.take (i + 1)).length = i + 1 := List.length_take_of_le (by omega)
    refine ⟨fun he => ?_, List.take_prefix _ _, fun he => ?_⟩
    · simp [he] at hlen
    · rw [he] at hlen
      omega
  · rintro ⟨hne, hpre, hproper⟩
    have hpos : 0 < d.length := List.length_pos_iff.mpr hne
    have hlt : d.length < names.length := by
      rcases Nat.lt_or_ge d.length names.length with h | h
      · exact h
      · exact absurd (hpre.eq_of_length_le h) hproper
    refine List.mem_map.mpr ⟨d.length - 1, List.mem_range.mpr (by omega), ?_⟩
    rw [Nat.sub_add_cancel hpos]
    exact (List.prefix_iff_eq_take.mp hpre).symm

end Ancestors
end Paths
