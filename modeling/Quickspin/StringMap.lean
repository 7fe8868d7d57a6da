import Mathlib.Data.String.Basic
import Mathlib.Data.List.Sort
import Mathlib.Tactic.Common

/-! The source's `map[string]string`, held as its entries in key order, so that equal maps are equal
values. -/
namespace Quickspin
set_option autoImplicit false

structure StringMap where
  entries : List (String × String)
  sorted : entries.Pairwise fun a b => a.1 < b.1
deriving DecidableEq

namespace StringMap

def empty : StringMap := ⟨[], .nil⟩

/-- Put `v` at `k`, in place of what was there. -/
def put (k v : String) : List (String × String) → List (String × String)
  | [] => [(k, v)]
  | e :: rest =>
    if k < e.1 then (k, v) :: e :: rest
    else if k = e.1 then (k, v) :: rest
    else e :: put k v rest

theorem fst_mem_put {k v : String} {l : List (String × String)} {e : String × String}
    (h : e ∈ put k v l) : e.1 = k ∨ e ∈ l := by
  induction l with
  | nil => simp_all [put]
  | cons a l ih =>
    unfold put at h
    split at h
    · rcases List.mem_cons.mp h with rfl | h
      · exact .inl rfl
      · exact .inr h
    · split at h
      · rcases List.mem_cons.mp h with rfl | h
        · exact .inl rfl
        · exact .inr (List.mem_cons_of_mem _ h)
      · rcases List.mem_cons.mp h with rfl | h
        · exact .inr (List.mem_cons_self ..)
        · exact (ih h).imp_right (List.mem_cons_of_mem _)

theorem sorted_put (k v : String) {l : List (String × String)}
    (h : l.Pairwise fun a b => a.1 < b.1) : (put k v l).Pairwise fun a b => a.1 < b.1 := by
  induction l with
  | nil => exact List.pairwise_singleton ..
  | cons a l ih =>
    obtain ⟨ha, hl⟩ := List.pairwise_cons.mp h
    unfold put
    split
    · next hlt =>
      refine List.pairwise_cons.mpr ⟨fun b hb => ?_, h⟩
      rcases List.mem_cons.mp hb with rfl | hb
      · exact hlt
      · exact hlt.trans (ha b hb)
    · next hge =>
      split
      · next heq => exact List.pairwise_cons.mpr ⟨fun b hb => heq ▸ ha b hb, hl⟩
      · next hne =>
        refine List.pairwise_cons.mpr ⟨fun b hb => ?_, ih hl⟩
        rcases fst_mem_put hb with e | hb
        · rw [e]
          exact lt_of_le_of_ne (not_lt.mp hge) (Ne.symm hne)
        · exact ha b hb

def insert (m : StringMap) (k v : String) : StringMap := ⟨put k v m.entries, sorted_put k v m.sorted⟩

/-- `m[k]`, the empty string where `k` is absent. -/
def get (m : StringMap) (k : String) : String := ((m.entries.find? fun e => e.1 = k).map (·.2)).getD ""

/-- The entries put one after another; a later one replaces an earlier one. -/
def ofList (l : List (String × String)) : StringMap := l.foldl (fun m e => m.insert e.1 e.2) empty

theorem put_above {k v : String} {l : List (String × String)} (h : ∀ e ∈ l, e.1 < k) :
    put k v l = l ++ [(k, v)] := by
  induction l with
  | nil => rfl
  | cons a l ih =>
    have ha : a.1 < k := h a (List.mem_cons_self ..)
    rw [put, if_neg (not_lt.mpr ha.le), if_neg ha.ne', ih fun e he => h e (List.mem_cons_of_mem _ he)]
    rfl

theorem ofList_entries (m : StringMap) : ofList m.entries = m := by
  have key : ∀ (l : List (String × String)) (acc : StringMap),
      (acc.entries ++ l).Pairwise (fun a b => a.1 < b.1) →
        (l.foldl (fun m e => m.insert e.1 e.2) acc).entries = acc.entries ++ l := by
    intro l
    induction l with
    | nil => simp
    | cons e l ih =>
      intro acc h
      have hput : put e.1 e.2 acc.entries = acc.entries ++ [e] :=
        put_above fun a ha => (List.pairwise_append.mp h).2.2 a ha e (List.mem_cons_self ..)
      have hins : (acc.insert e.1 e.2).entries = acc.entries ++ [e] := hput
      rw [List.foldl_cons, ih _ (by rw [hins]; simpa using h), hins]
      simp
  obtain ⟨l, hl⟩ := m
  have h := key l empty (by simpa [empty] using hl)
  simp only [ofList]
  generalize hm : l.foldl (fun m e => m.insert e.1 e.2) empty = m' at h
  obtain ⟨l', hl'⟩ := m'
  simp only [empty, List.nil_append] at h
  subst h
  rfl

/-! ## Lookup -/

def lookup (m : StringMap) (k : String) : Option String := (m.entries.find? fun e => e.1 = k).map (·.2)

/-- `maps.Copy(dst, src)` -/
def copy (dst src : StringMap) : StringMap := src.entries.foldl (fun m e => m.insert e.1 e.2) dst

theorem find?_put (k v a : String) (l : List (String × String)) (h : l.Pairwise fun a b => a.1 < b.1) :
    ((put k v l).find? fun e => e.1 = a) = if a = k then some (k, v) else l.find? fun e => e.1 = a := by
  induction l with
  | nil =>
    by_cases hak : a = k
    · simp [put, hak]
    · simp [put, hak, Ne.symm hak]
  | cons e l ih =>
    have hl := (List.pairwise_cons.mp h).2
    unfold put
    by_cases hlt : k < e.1
    · rw [if_pos hlt]
      by_cases hak : a = k
      · simp [hak]
      · simp [hak, Ne.symm hak]
    rw [if_neg hlt]
    by_cases hke : k = e.1
    · rw [if_pos hke]
      by_cases hak : a = k
      · simp [hak]
      · have hae : ¬ e.1 = a := fun h => hak (hke.trans h).symm
        simp [hak, Ne.symm hak, hae]
    · rw [if_neg hke, List.find?_cons, List.find?_cons, ih hl]
      by_cases hea : e.1 = a
      · have hak : ¬ a = k := fun h => hke (hea.trans h).symm
        simp [hea, hak]
      · simp [hea]

theorem lookup_insert (m : StringMap) (k v a : String) :
    (m.insert k v).lookup a = if a = k then some v else m.lookup a := by
  have hfind := find?_put k v a m.entries m.sorted
  unfold lookup
  rw [insert, hfind]
  by_cases hak : a = k
  · simp [hak]
  · simp [hak]

theorem lookup_empty (k : String) : empty.lookup k = none := rfl

/-- The last entry of a key wins over the earlier ones and over the map it is put into. -/
theorem lookup_foldl (l : List (String × String)) (m : StringMap) (k : String) :
    (l.foldl (fun m e => m.insert e.1 e.2) m).lookup k =
      ((l.reverse.find? fun e => e.1 = k).map (·.2)).or (m.lookup k) := by
  induction l generalizing m with
  | nil => rfl
  | cons e l ih =>
    rw [List.foldl_cons, ih, lookup_insert, List.reverse_cons, List.find?_append]
    cases hrest : l.reverse.find? fun e => e.1 = k with
    | some x => simp
    | none =>
      by_cases hek : e.1 = k
      · simp [hek]
      · simp [hek, Ne.symm hek]

theorem find?_eq_some_iff_mem {l : List (String × String)} (h : l.Pairwise fun a b => a.1 ≠ b.1) (k v : String) :
    ((l.find? fun e => e.1 = k).map (·.2)) = some v ↔ (k, v) ∈ l := by
  induction l with
  | nil => simp
  | cons e l ih =>
    obtain ⟨he, hl⟩ := List.pairwise_cons.mp h
    rw [List.find?_cons]
    by_cases hek : e.1 = k
    · have hnot : (k, v) ∉ l := fun hmem => he _ hmem hek
      obtain ⟨a, b⟩ := e
      simp only at hek
      simp [hek, hnot, eq_comm]
    · have hne : ¬ (k, v) = e := fun h => hek (by rw [← h])
      simp only [hek, decide_false, List.mem_cons, hne, false_or]
      exact ih hl

theorem keys_ne (m : StringMap) : m.entries.Pairwise fun a b => a.1 ≠ b.1 := m.sorted.imp fun h => h.ne

theorem lookup_eq_some_iff {m : StringMap} {k v : String} : m.lookup k = some v ↔ (k, v) ∈ m.entries :=
  find?_eq_some_iff_mem m.keys_ne k v

theorem lookup_copy (dst src : StringMap) (k : String) : (dst.copy src).lookup k = (src.lookup k).or (dst.lookup k) := by
  have hreverse : (src.entries.reverse.find? fun e => e.1 = k).map (·.2) = src.lookup k := by
    have hne : src.entries.reverse.Pairwise fun a b => a.1 ≠ b.1 :=
      List.pairwise_reverse.mpr (src.keys_ne.imp Ne.symm)
    ext v
    rw [find?_eq_some_iff_mem hne, List.mem_reverse, lookup_eq_some_iff]
  rw [copy, lookup_foldl, hreverse]

end StringMap
end Quickspin
