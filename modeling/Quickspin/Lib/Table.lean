import Mathlib.Data.List.Nodup
import Mathlib.Tactic.Common

/-! Tables with a unique index: rows in insertion order, no two of which have the same key. The
index is a field of the structure, so a table that breaks it cannot be built; `insert` answers
`none` where a database reports the violated constraint. -/
namespace Relational
set_option autoImplicit false

structure Table (ρ κ : Type) (key : ρ → κ) where
  rows : List ρ
  unique : (rows.map key).Nodup

namespace Table
variable {ρ κ : Type} {key : ρ → κ} [DecidableEq κ]

def empty : Table ρ κ key := ⟨[], List.nodup_nil⟩

/-- The row with key `k`. -/
def find? (t : Table ρ κ key) (k : κ) : Option ρ := t.rows.find? fun r => key r = k

/-- Append a row, unless its key is taken. -/
def insert (t : Table ρ κ key) (r : ρ) : Option (Table ρ κ key) :=
  if h : key r ∈ t.rows.map key then none
  else some ⟨t.rows ++ [r], by
    rw [List.map_append, List.map_singleton]
    exact List.nodup_append.mpr ⟨t.unique, List.nodup_singleton _, fun a ha b hb => by
      rw [List.mem_singleton.mp hb]
      exact fun e => h (e ▸ ha)⟩⟩

theorem map_key_rewrite (rows : List ρ) (k : κ) {g : ρ → ρ} (hg : ∀ r, key (g r) = key r) :
    (rows.map fun r => if key r = k then g r else r).map key = rows.map key := by
  rw [List.map_map]
  apply List.map_congr_left
  intro r _
  simp only [Function.comp_apply]
  split
  · exact hg r
  · rfl

/-- Rewrite the row with key `k`; `g` leaves the key alone. -/
def modify (t : Table ρ κ key) (k : κ) (g : ρ → ρ) (hg : ∀ r, key (g r) = key r) : Table ρ κ key :=
  ⟨t.rows.map fun r => if key r = k then g r else r, by
    rw [map_key_rewrite t.rows k hg]
    exact t.unique⟩

/-- Drop the rows that do not satisfy `p`. -/
def filter (t : Table ρ κ key) (p : ρ → Bool) : Table ρ κ key :=
  ⟨t.rows.filter p, t.unique.sublist (List.filter_sublist.map key)⟩

/-- Put a row, in place of the one with its key. -/
def put (t : Table ρ κ key) (r : ρ) : Table ρ κ key :=
  ⟨t.rows.filter (fun r' => key r' ≠ key r) ++ [r], by
    rw [List.map_append, List.map_singleton]
    refine List.nodup_append.mpr ⟨(t.filter _).unique, List.nodup_singleton _, fun a ha b hb => ?_⟩
    obtain ⟨r', hr', rfl⟩ := List.mem_map.mp ha
    rw [List.mem_singleton.mp hb]
    exact of_decide_eq_true (List.mem_filter.mp hr').2⟩

variable {t t' : Table ρ κ key} {k k' : κ} {r r' : ρ}

theorem key_of_find? (h : t.find? k = some r) : key r = k := by
  simpa using List.find?_some h

theorem mem_of_find? (h : t.find? k = some r) : r ∈ t.rows := List.mem_of_find?_eq_some h

theorem find?_of_mem (h : r ∈ t.rows) : t.find? (key r) = some r := by
  obtain ⟨rows, hu⟩ := t
  simp only [find?] at *
  induction rows with
  | nil => cases h
  | cons a rows ih =>
    rw [List.map_cons, List.nodup_cons] at hu
    rcases List.mem_cons.mp h with rfl | hr
    · simp
    · have hne : key a ≠ key r := fun e => hu.1 (e ▸ List.mem_map_of_mem hr)
      rw [List.find?_cons_of_neg (by simpa using hne)]
      exact ih hu.2 hr

theorem find?_eq_some_iff : t.find? k = some r ↔ r ∈ t.rows ∧ key r = k :=
  ⟨fun h => ⟨mem_of_find? h, key_of_find? h⟩, fun ⟨h, e⟩ => e ▸ find?_of_mem h⟩

theorem find?_eq_none_iff : t.find? k = none ↔ k ∉ t.rows.map key := by
  simp [find?, List.find?_eq_none]

theorem find?_isSome_iff : (t.find? k).isSome ↔ k ∈ t.rows.map key := by
  rw [Option.isSome_iff_ne_none, Ne, find?_eq_none_iff, not_not]

theorem eq_of_key (h : r ∈ t.rows) (h' : r' ∈ t.rows) (e : key r = key r') : r = r' := by
  have hr := find?_of_mem h
  rw [e, find?_of_mem h'] at hr
  exact (Option.some.inj hr).symm

@[simp] theorem find?_empty : (empty : Table ρ κ key).find? k = none := rfl

omit [DecidableEq κ] in
@[simp] theorem rows_empty : (empty : Table ρ κ key).rows = [] := rfl

theorem insert_eq_none_iff : t.insert r = none ↔ (t.find? (key r)).isSome := by
  unfold insert
  rw [find?_isSome_iff]
  split <;> simp_all

theorem rows_of_insert (h : t.insert r = some t') : t'.rows = t.rows ++ [r] := by
  unfold insert at h
  split at h
  · cases h
  · rw [← Option.some.inj h]

theorem fresh_of_insert (h : t.insert r = some t') : t.find? (key r) = none := by
  have hn : ¬(t.find? (key r)).isSome := fun hs => by
    rw [insert_eq_none_iff.mpr hs] at h
    cases h
  simpa using hn

theorem find?_of_insert (h : t.insert r = some t') (k : κ) :
    t'.find? k = if key r = k then some r else t.find? k := by
  have hf := fresh_of_insert h
  simp only [find?, rows_of_insert h, List.find?_append] at hf ⊢
  split
  · next e =>
    subst e
    rw [hf]
    simp
  · next hne => simp [hne]

@[simp] theorem rows_modify (g : ρ → ρ) (hg : ∀ r, key (g r) = key r) :
    (t.modify k g hg).rows = t.rows.map fun r => if key r = k then g r else r := rfl

theorem find?_modify (g : ρ → ρ) (hg : ∀ r, key (g r) = key r) (k' : κ) :
    (t.modify k g hg).find? k' = if k' = k then (t.find? k').map g else t.find? k' := by
  have hkey : ∀ a, key (if key a = k then g a else a) = key a := by
    intro a
    split
    · exact hg a
    · rfl
  obtain ⟨rows, hu⟩ := t
  simp only [find?, modify]
  clear hu
  induction rows with
  | nil => simp
  | cons a rows ih =>
    rw [List.map_cons, List.find?_cons, List.find?_cons, hkey a]
    by_cases ha : key a = k'
    · subst ha
      by_cases hk : key a = k <;> simp [hk]
    · simpa [ha] using ih

theorem find?_filter (p : ρ → Bool) (k : κ) : (t.filter p).find? k = (t.find? k).filter p := by
  rcases h : t.find? k with _ | r
  · rw [Option.filter_none, find?_eq_none_iff]
    rw [find?_eq_none_iff] at h
    exact fun hm => h ((List.filter_sublist.map key).subset hm)
  · by_cases hp : p r
    · rw [Option.filter_some_pos hp, find?_eq_some_iff]
      obtain ⟨hm, e⟩ := find?_eq_some_iff.mp h
      exact ⟨List.mem_filter.mpr ⟨hm, hp⟩, e⟩
    · rw [Option.filter_some_neg (by simpa using hp), find?_eq_none_iff]
      intro hm
      obtain ⟨r', hr', e⟩ := List.mem_map.mp hm
      obtain ⟨hm', hp'⟩ := List.mem_filter.mp hr'
      have : r' = r := eq_of_key hm' (mem_of_find? h) (e.trans (key_of_find? h).symm)
      exact hp (this ▸ hp')

theorem find?_put (r : ρ) (k : κ) : (t.put r).find? k = if k = key r then some r else t.find? k := by
  have hf := find?_filter (t := t) (fun r' => key r' ≠ key r) k
  simp only [find?, put, filter, List.find?_append] at hf ⊢
  rw [hf]
  by_cases hk : k = key r
  · subst hk
    rw [if_pos rfl]
    rcases h : t.rows.find? (fun r' => key r' = key r) with _ | r'
    · simp
    · have hr' : key r' = key r := by simpa using List.find?_some h
      rw [Option.filter_some_neg (by simpa using hr')]
      simp
  · rw [if_neg hk]
    rcases h : t.rows.find? (fun r' => key r' = k) with _ | r'
    · simp [Ne.symm hk]
    · have hr' : key r' = k := by simpa using List.find?_some h
      simp [hr', hk]

end Table
end Relational
