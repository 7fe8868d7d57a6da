import Quickspin.Reconciler
import Quickspin.Store.Effects

/-! What a decision says about the pair it was made on, and what the pairing of two listings holds: each
row once with its container, each container without a row once, in the order of the ids. -/
namespace Quickspin
set_option autoImplicit false

/-! ## The listing of the rows -/

theorem listed_row {f : Faults} {db : Database} {sbxs : List Sandbox} (h : Sqlite.getSandboxes f db = .ok sbxs) (x : String) :
    sbxs.find? (fun sbx => sbx.sandboxID = x) = (db.sandbox? x).bind fun row => (Sqlite.scanSandbox row).toOption := by
  cases hrow : db.sandbox? x with
  | none =>
    refine List.find?_eq_none.mpr fun sbx hm hid => ?_
    obtain ⟨row, hfound, -⟩ := Sqlite.getSandboxes_row h hm
    rw [of_decide_eq_true hid, hrow] at hfound
    cases hfound
  | some row =>
    obtain ⟨sbx, hm, hscan, hsid⟩ := Sqlite.getSandboxes_found h hrow
    rw [Option.bind_some, hscan]
    cases hf : sbxs.find? fun sbx => sbx.sandboxID = x with
    | none => exact absurd hsid (by simpa using List.find?_eq_none.mp hf sbx hm)
    | some other =>
      have hother : other.sandboxID = x := by simpa using List.find?_some hf
      have hsame := List.inj_on_of_nodup_map (Sqlite.getSandboxes_nodup h) (List.mem_of_find?_eq_some hf) hm
        (hother.trans hsid.symm)
      exact congrArg some hsame

theorem listed_rows {f : Faults} {db : Database} {sbxs : List Sandbox} (h : Sqlite.getSandboxes f db = .ok sbxs) :
    sbxs = db.sandboxes.rows.filterMap fun row => (Sqlite.scanSandbox row).toOption := by
  have hmap : ∀ {rows : List SandboxRow} {sbxs : List Sandbox}, List.Forall₂ (fun r s => Sqlite.scanSandbox r = .ok s) rows sbxs →
      sbxs = rows.filterMap fun row => (Sqlite.scanSandbox row).toOption := by
    intro rows sbxs hf
    induction hf with
    | nil => rfl
    | @cons row sbx rows sbxs hscan _ ih => rw [List.filterMap_cons_some (by rw [hscan]; rfl), ← ih]
  exact hmap (Sqlite.getSandboxes_ok h)

/-! ## The decision -/

/-- The table read backwards: the pairs an action is decided on. -/
def Cell (desired : Option Sandbox) (observed : Option Runtime.Info) (now : Time) : ReconcileAction → Prop
  | .none => True
  | .create => ∃ sbx, desired = some sbx ∧ sbx.state = .pending ∧ observed = none
  | .destroy => ∃ sbx info, desired = some sbx ∧ observed = some info ∧ (sbx.state = .stopping ∨ sbx.state.Terminal)
  | .destroyOrphan => ∃ info, desired = none ∧ observed = some info
  | .reap => ∃ sbx, desired = some sbx ∧ ¬sbx.state.Terminal ∧ now.after sbx.expiresAt = true
  | .markFailed => ∃ sbx, desired = some sbx ∧ (sbx.state = .pending ∨ sbx.state = .running)
  | .markStopped => ∃ sbx, desired = some sbx ∧ sbx.state = .stopping ∧ observed = none
  | .markRunning => ∃ sbx info, desired = some sbx ∧ sbx.state = .pending ∧ observed = some info

theorem cell_decide (desired : Option Sandbox) (observed : Option Runtime.Info) (now : Time) :
    Cell desired observed now (decideReconcileAction desired observed now) := by
  rcases desired with _ | sbx
  · rcases observed with _ | info
    · trivial
    · exact ⟨info, rfl, rfl⟩
  unfold decideReconcileAction
  dsimp only
  split
  · next h =>
    simp only [Bool.and_eq_true, Bool.not_eq_true', Bool.or_eq_false_iff, beq_eq_false_iff_ne] at h
    exact ⟨sbx, rfl, fun ht => ht.elim h.1.1 h.1.2, h.2⟩
  · rcases hs : sbx.state with _ | _ | _ | _ | _ | ⟨text, ht⟩ <;> rcases observed with _ | info <;> dsimp only
    · exact ⟨sbx, rfl, hs, rfl⟩
    · split
      · exact ⟨sbx, rfl, .inl hs⟩
      · exact ⟨sbx, info, rfl, hs, rfl⟩
    · exact ⟨sbx, rfl, .inr hs⟩
    · split
      · exact ⟨sbx, rfl, .inr hs⟩
      · trivial
    · trivial
    · exact ⟨sbx, info, rfl, rfl, .inr (.inr hs)⟩
    · exact ⟨sbx, rfl, hs, rfl⟩
    · exact ⟨sbx, info, rfl, rfl, .inl hs⟩
    · trivial
    · exact ⟨sbx, info, rfl, rfl, .inr (.inl hs)⟩
    · trivial
    · trivial

theorem cell_of_decide {desired : Option Sandbox} {observed : Option Runtime.Info} {now : Time}
    {action : ReconcileAction} (h : decideReconcileAction desired observed now = action) :
    Cell desired observed now action := h ▸ cell_decide desired observed now

/-- Expiry comes before the table. -/
theorem decide_expired {sbx : Sandbox} {now : Time} (hlive : ¬sbx.state.Terminal) (hafter : now.after sbx.expiresAt = true)
    (observed : Option Runtime.Info) : decideReconcileAction (some sbx) observed now = .reap := by
  have hover : (!(sbx.state == .stopped || sbx.state == .failed) && now.after sbx.expiresAt) = true := by
    rw [hafter]
    simpa [TaskState.Terminal] using hlive
  unfold decideReconcileAction
  dsimp only
  rw [if_pos hover]

theorem decide_current {sbx : Sandbox} {now : Time} (hcurrent : now.after sbx.expiresAt = false)
    (observed : Option Runtime.Info) : decideReconcileAction (some sbx) observed now =
      match sbx.state, observed with
      | .pending, none => .create
      | .pending, some info => if info.state = .stopped then .markFailed else .markRunning
      | .running, none => .markFailed
      | .running, some info => if info.state = .stopped then .markFailed else .none
      | .stopping, none => .markStopped
      | .stopped, none | .failed, none => .none
      | .stopping, some _ | .stopped, some _ | .failed, some _ => .destroy
      | .other _ _, _ => .none := by
  unfold decideReconcileAction
  dsimp only
  rw [hcurrent, Bool.and_false, if_neg (by decide)]
  cases sbx.state <;> cases observed <;> rfl

theorem decide_terminal {sbx : Sandbox} (hterminal : sbx.state.Terminal) (observed : Option Runtime.Info) (now : Time) :
    decideReconcileAction (some sbx) observed now = if observed.isNone then .none else .destroy := by
  unfold decideReconcileAction
  dsimp only
  rcases hterminal with hs | hs <;> cases observed <;> simp [hs]

/-! ## The join -/

theorem mem_indexInfos {infos : List Runtime.Info} {info : Runtime.Info} (h : info ∈ indexInfos infos) :
    info ∈ infos := by
  induction infos with
  | nil => exact h
  | cons a infos ih =>
    unfold indexInfos at h
    split at h
    · exact List.mem_cons_of_mem _ (ih h)
    · rcases List.mem_cons.mp h with rfl | h
      · exact List.mem_cons_self ..
      · exact List.mem_cons_of_mem _ (ih h)

theorem exists_indexInfos {infos : List Runtime.Info} {info : Runtime.Info} (h : info ∈ infos) :
    ∃ other ∈ indexInfos infos, other.id = info.id := by
  induction infos generalizing info with
  | nil => cases h
  | cons a infos ih =>
    unfold indexInfos
    rcases List.mem_cons.mp h with rfl | h
    · split
      · next hany =>
        obtain ⟨other, ho, hid⟩ := List.any_eq_true.mp hany
        obtain ⟨other', ho', hid'⟩ := ih ho
        exact ⟨other', ho', hid'.trans (by simpa using hid)⟩
      · exact ⟨info, List.mem_cons_self .., rfl⟩
    · obtain ⟨other, ho, hid⟩ := ih h
      split
      · exact ⟨other, ho, hid⟩
      · exact ⟨other, List.mem_cons_of_mem _ ho, hid⟩

theorem indexInfos_nodup (infos : List Runtime.Info) : ((indexInfos infos).map (·.id)).Nodup := by
  induction infos with
  | nil => exact List.nodup_nil
  | cons a infos ih =>
    unfold indexInfos
    split
    · exact ih
    · next hany =>
      rw [List.map_cons, List.nodup_cons]
      refine ⟨fun hm => hany ?_, ih⟩
      obtain ⟨other, ho, hid⟩ := List.mem_map.mp hm
      exact List.any_eq_true.mpr ⟨other, mem_indexInfos ho, by simpa using hid⟩

/-- Listings without a repeated id are their own index. -/
theorem indexInfos_eq {infos : List Runtime.Info} (h : (infos.map (·.id)).Nodup) : indexInfos infos = infos := by
  induction infos with
  | nil => rfl
  | cons a infos ih =>
    rw [List.map_cons, List.nodup_cons] at h
    rw [indexInfos, if_neg, ih h.2]
    intro hany
    obtain ⟨other, ho, hid⟩ := List.any_eq_true.mp hany
    exact h.1 (List.mem_map.mpr ⟨other, ho, by simpa using hid⟩)

/-- The observation of an id is a listed container of that id, and `none` means there is none. -/
theorem find?_indexInfos {infos : List Runtime.Info} {id : String} :
    (∀ info, (indexInfos infos).find? (fun info => info.id = id) = some info → info ∈ infos ∧ info.id = id) ∧
      ((indexInfos infos).find? (fun info => info.id = id) = none → ∀ info ∈ infos, info.id ≠ id) := by
  constructor
  · intro info h
    exact ⟨mem_indexInfos (List.mem_of_find?_eq_some h), by simpa using List.find?_some h⟩
  · rintro h info hm rfl
    obtain ⟨other, ho, hid⟩ := exists_indexInfos hm
    exact absurd hid (by simpa using List.find?_eq_none.mp h other ho)

/-- **The join**: the rows, each with the first container of its id, and the containers without a row. -/
theorem mem_joinSnapshots {sbxs : List Sandbox} {infos : List Runtime.Info} {item : ReconcileItem}
    (hn : (sbxs.map (·.sandboxID)).Nodup) : item ∈ joinSnapshots sbxs infos ↔
      (∃ sbx ∈ sbxs, item = .row sbx (infos.find? fun info => info.id = sbx.sandboxID)) ∨
        ∃ info ∈ infos, (∀ sbx ∈ sbxs, sbx.sandboxID ≠ info.id) ∧ item = .orphan info := by
  induction sbxs generalizing infos with
  | nil => simp [joinSnapshots, eq_comm]
  | cons s sbxs ih =>
    rw [List.map_cons, List.nodup_cons] at hn
    have hne : ∀ sbx ∈ sbxs, s.sandboxID ≠ sbx.sandboxID := fun sbx hm he =>
      hn.1 (he ▸ List.mem_map_of_mem hm)
    -- the containers taken by `s` are of no use to the other rows
    have hfind : ∀ sbx ∈ sbxs, (infos.filter fun info => info.id ≠ s.sandboxID).find?
        (fun info => info.id = sbx.sandboxID) = infos.find? fun info => info.id = sbx.sandboxID := by
      intro sbx hm
      rw [List.find?_filter]
      congr 1
      funext info
      by_cases he : info.id = sbx.sandboxID
      · simp [he, Ne.symm (hne sbx hm)]
      · simp [he]
    rw [joinSnapshots, List.mem_cons, ih hn.2]
    constructor
    · rintro (rfl | ⟨sbx, hm, rfl⟩ | ⟨info, hm, hno, rfl⟩)
      · exact .inl ⟨s, List.mem_cons_self .., rfl⟩
      · exact .inl ⟨sbx, List.mem_cons_of_mem _ hm, by rw [hfind sbx hm]⟩
      · obtain ⟨hm, hid⟩ := List.mem_filter.mp hm
        refine .inr ⟨info, hm, fun sbx hs => ?_, rfl⟩
        rcases List.mem_cons.mp hs with rfl | hs
        · exact Ne.symm (by simpa using hid)
        · exact hno sbx hs
    · rintro (⟨sbx, hm, rfl⟩ | ⟨info, hm, hno, rfl⟩)
      · rcases List.mem_cons.mp hm with rfl | hm
        · exact .inl rfl
        · exact .inr (.inl ⟨sbx, hm, by rw [hfind sbx hm]⟩)
      · refine .inr (.inr ⟨info, List.mem_filter.mpr ⟨hm, ?_⟩, fun sbx hs => hno sbx (List.mem_cons_of_mem _ hs), rfl⟩)
        simpa using Ne.symm (hno s (List.mem_cons_self ..))

/-- The ids of the items: those of the rows, and those of the containers without a row. -/
theorem joinSnapshots_nodup {sbxs : List Sandbox} {infos : List Runtime.Info}
    (hn : (sbxs.map (·.sandboxID)).Nodup) (hi : (infos.map (·.id)).Nodup) :
    ((joinSnapshots sbxs infos).map (·.id)).Nodup := by
  induction sbxs generalizing infos with
  | nil => simpa [joinSnapshots, ReconcileItem.id, Function.comp_def] using hi
  | cons s sbxs ih =>
    rw [List.map_cons, List.nodup_cons] at hn
    rw [joinSnapshots, List.map_cons, List.nodup_cons]
    refine ⟨fun hm => ?_, ih hn.2 (hi.sublist (List.filter_sublist.map _))⟩
    obtain ⟨item, hm, hid⟩ := List.mem_map.mp hm
    rcases (mem_joinSnapshots hn.2).mp hm with ⟨sbx, hs, rfl⟩ | ⟨info, hi, -, rfl⟩
    · exact hn.1 (List.mem_map.mpr ⟨sbx, hs, hid⟩)
    · have hne : info.id ≠ s.sandboxID := by simpa using (List.mem_filter.mp hi).2
      exact hne hid

/-! ## The pairing -/

section Pair
variable {sbxs : List Sandbox} {infos : List Runtime.Info} {item : ReconcileItem}

theorem mem_pairSnapshots (hn : (sbxs.map (·.sandboxID)).Nodup) : item ∈ pairSnapshots sbxs infos ↔
    (∃ sbx ∈ sbxs, item = .row sbx ((indexInfos infos).find? fun info => info.id = sbx.sandboxID)) ∨
      ∃ info ∈ indexInfos infos, (∀ sbx ∈ sbxs, sbx.sandboxID ≠ info.id) ∧ item = .orphan info := by
  rw [pairSnapshots, List.mem_insertionSort, mem_joinSnapshots hn]

theorem pairSnapshots_nodup (hn : (sbxs.map (·.sandboxID)).Nodup) :
    ((pairSnapshots sbxs infos).map (·.id)).Nodup :=
  ((List.perm_insertionSort _ _).map _).nodup_iff.mpr (joinSnapshots_nodup hn (indexInfos_nodup infos))

theorem sorted_by_id (items : List ReconcileItem) :
    (items.insertionSort fun a b => a.id ≤ b.id).Pairwise fun a b => a.id ≤ b.id :=
  have : IsTrans ReconcileItem fun a b => a.id ≤ b.id := ⟨fun _ _ _ => le_trans⟩
  have : Std.Total fun a b : ReconcileItem => a.id ≤ b.id := ⟨fun a b => le_total a.id b.id⟩
  List.pairwise_insertionSort _ items

/-- The items are visited in the order of their ids, whatever order they were collected in: the iteration
order of the source's map does not show. -/
theorem pairSnapshots_eq (hn : (sbxs.map (·.sandboxID)).Nodup) {items : List ReconcileItem}
    (hp : items.Perm (joinSnapshots sbxs (indexInfos infos))) :
    items.insertionSort (fun a b => a.id ≤ b.id) = pairSnapshots sbxs infos := by
  have hperm : (items.insertionSort fun a b => a.id ≤ b.id).Perm (pairSnapshots sbxs infos) :=
    (List.perm_insertionSort _ _).trans (hp.trans (List.perm_insertionSort _ _).symm)
  refine List.Perm.eq_of_pairwise (fun a b ha hb hab hba => ?_) (sorted_by_id items) (sorted_by_id _) hperm
  exact List.inj_on_of_nodup_map (pairSnapshots_nodup hn) (hperm.mem_iff.mp ha) hb (le_antisymm hab hba)

/-- The item of a sandbox, from its row and its container. -/
def itemOf : Option Sandbox → Option Runtime.Info → Option ReconcileItem
  | some sbx, observed => some (.row sbx observed)
  | none, some info => some (.orphan info)
  | none, none => none

/-- **One sandbox of the pairing**: its item is made of its row and its container in the listings. -/
theorem mem_pairSnapshots_index {x : String} {desired : Option Sandbox} {observed : Option Runtime.Info}
    (hn : (sbxs.map (·.sandboxID)).Nodup) (hd : sbxs.find? (fun sbx => sbx.sandboxID = x) = desired)
    (ho : (indexInfos infos).find? (fun info => info.id = x) = observed) :
    item ∈ pairSnapshots sbxs infos ∧ item.id = x ↔ itemOf desired observed = some item := by
  rw [mem_pairSnapshots hn]
  cases desired with
  | some sbx =>
    have hid : sbx.sandboxID = x := by simpa using List.find?_some hd
    have hm := List.mem_of_find?_eq_some hd
    constructor
    · rintro ⟨⟨other, hother, rfl⟩ | ⟨info, -, hno, rfl⟩, hx⟩
      · have hsame : other = sbx := List.inj_on_of_nodup_map hn hother hm (Eq.trans hx hid.symm)
        rw [hsame, hid, ho]
        rfl
      · exact absurd (hid.trans hx.symm) (hno sbx hm)
    · intro h
      obtain rfl := Option.some.inj h
      exact ⟨.inl ⟨sbx, hm, by rw [hid, ho]⟩, hid⟩
  | none =>
    have hnone : ∀ sbx ∈ sbxs, sbx.sandboxID ≠ x := by simpa using List.find?_eq_none.mp hd
    cases observed with
    | none =>
      have hmissed : ∀ info ∈ indexInfos infos, info.id ≠ x := by simpa using List.find?_eq_none.mp ho
      refine ⟨fun h => ?_, fun h => (nomatch h)⟩
      rcases h with ⟨⟨sbx, hs, rfl⟩ | ⟨info, hm, -, rfl⟩, hid⟩
      · exact absurd hid (hnone sbx hs)
      · exact absurd hid (hmissed info hm)
    | some info =>
      have hid : info.id = x := by simpa using List.find?_some ho
      have hm := List.mem_of_find?_eq_some ho
      constructor
      · rintro ⟨⟨sbx, hs, rfl⟩ | ⟨other, hother, -, rfl⟩, hx⟩
        · exact absurd hx (hnone sbx hs)
        · have hsame : other = info := List.inj_on_of_nodup_map (indexInfos_nodup infos) hother hm (Eq.trans hx hid.symm)
          rw [hsame]
          rfl
      · intro h
        obtain rfl := Option.some.inj h
        exact ⟨.inr ⟨info, hm, fun sbx hs => hid ▸ hnone sbx hs, rfl⟩, hid⟩

theorem mem_pairSnapshots_of {x : String} {desired : Option Sandbox} {observed : Option Runtime.Info}
    (hn : (sbxs.map (·.sandboxID)).Nodup) (hi : (infos.map (·.id)).Nodup)
    (hd : sbxs.find? (fun sbx => sbx.sandboxID = x) = desired) (ho : infos.find? (fun info => info.id = x) = observed) :
    item ∈ pairSnapshots sbxs infos ∧ item.id = x ↔ itemOf desired observed = some item :=
  mem_pairSnapshots_index hn hd (by rw [indexInfos_eq hi, ho])

theorem find?_of_perm {a b : List Runtime.Info} (h : a.Perm b) (hn : (b.map (·.id)).Nodup) (id : String) :
    a.find? (fun info => info.id = id) = b.find? fun info => info.id = id := by
  have hna : (a.map (·.id)).Nodup := (h.map _).nodup_iff.mpr hn
  cases hb : b.find? fun info => info.id = id with
  | none =>
    refine List.find?_eq_none.mpr fun info hm => ?_
    simpa using List.find?_eq_none.mp hb info (h.mem_iff.mp hm)
  | some info =>
    have hid : info.id = id := by simpa using List.find?_some hb
    have hm := h.mem_iff.mpr (List.mem_of_find?_eq_some hb)
    cases ha : a.find? fun info => info.id = id with
    | none => exact absurd hid (by simpa using List.find?_eq_none.mp ha info hm)
    | some other =>
      have hother : other.id = id := by simpa using List.find?_some ha
      rw [List.inj_on_of_nodup_map hna (List.mem_of_find?_eq_some ha) hm (hother.trans hid.symm)]

/-- **The order of the listings** does not show in the pairing. -/
theorem pairSnapshots_perm {sbxs' : List Sandbox} {infos' : List Runtime.Info} (hs : sbxs.Perm sbxs')
    (hi : infos.Perm infos') (hn : (sbxs'.map (·.sandboxID)).Nodup) (hni : (infos'.map (·.id)).Nodup) :
    pairSnapshots sbxs infos = pairSnapshots sbxs' infos' := by
  have hn₀ : (sbxs.map (·.sandboxID)).Nodup := (hs.map _).nodup_iff.mpr hn
  have hni₀ : (infos.map (·.id)).Nodup := (hi.map _).nodup_iff.mpr hni
  refine pairSnapshots_eq hn ?_
  rw [indexInfos_eq hni, indexInfos_eq hni₀]
  refine (List.perm_ext_iff_of_nodup (joinSnapshots_nodup hn₀ hni₀).of_map (joinSnapshots_nodup hn hni).of_map).mpr
    fun item => ?_
  rw [mem_joinSnapshots hn₀, mem_joinSnapshots hn]
  simp only [find?_of_perm hi hni, hs.mem_iff, hi.mem_iff]

/-! ### The order of the map -/

/-- The items as the source collects them: the containers the rows have left in the map come in the order it is iterated
in. -/
def collectItems (iterate : List Runtime.Info → List Runtime.Info) : List Sandbox → List Runtime.Info → List ReconcileItem
  | [], infos => (iterate infos).map .orphan
  | sbx :: rest, infos =>
    .row sbx (infos.find? fun info => info.id = sbx.sandboxID) ::
      collectItems iterate rest (infos.filter fun info => info.id ≠ sbx.sandboxID)

theorem collectItems_perm {iterate : List Runtime.Info → List Runtime.Info} (h : ∀ infos, (iterate infos).Perm infos)
    (sbxs : List Sandbox) (infos : List Runtime.Info) : (collectItems iterate sbxs infos).Perm (joinSnapshots sbxs infos) := by
  induction sbxs generalizing infos with
  | nil => exact (h infos).map _
  | cons sbx rest ih => exact (ih _).cons _

/-- **The outer join**: whatever the map's order and however the items are sorted, each row comes once with its container,
each container without a row once, nothing else, in the order of the ids, and the order of the listings does not show. -/
theorem pairSnapshots_outer_join {items : List ReconcileItem} {iterate : List Runtime.Info → List Runtime.Info}
    (hn : (sbxs.map (·.sandboxID)).Nodup) (hi : (infos.map (·.id)).Nodup)
    (hiterate : ∀ infos, (iterate infos).Perm infos) (hitems : items.Perm (collectItems iterate sbxs (indexInfos infos)))
    (hsorted : items.Pairwise fun a b => a.id ≤ b.id) :
    items = pairSnapshots sbxs infos ∧
    (∀ item, item ∈ items ↔ (∃ sbx ∈ sbxs, item = .row sbx (infos.find? fun info => info.id = sbx.sandboxID)) ∨
      ∃ info ∈ infos, (∀ sbx ∈ sbxs, sbx.sandboxID ≠ info.id) ∧ item = .orphan info) ∧
    (items.Pairwise fun a b => a.id < b.id) ∧
    ∀ sbxs' infos', sbxs.Perm sbxs' → infos.Perm infos' → pairSnapshots sbxs' infos' = items := by
  have hjoined : items.Perm (joinSnapshots sbxs (indexInfos infos)) :=
    hitems.trans (collectItems_perm hiterate sbxs (indexInfos infos))
  have hids : (items.map (·.id)).Nodup := (hjoined.map _).nodup_iff.mpr (joinSnapshots_nodup hn (indexInfos_nodup infos))
  have hpaired : items = pairSnapshots sbxs infos := by
    have hsame : items.insertionSort (fun a b => a.id ≤ b.id) = items := List.Pairwise.insertionSort_eq hsorted
    rw [← hsame]
    exact pairSnapshots_eq hn hjoined
  refine ⟨hpaired, fun item => ?_, ?_, fun sbxs' infos' hs hi' => ?_⟩
  · rw [hjoined.mem_iff, mem_joinSnapshots hn, indexInfos_eq hi]
  · rw [List.Nodup, List.pairwise_map] at hids
    exact (hsorted.and hids).imp fun h => lt_of_le_of_ne h.1 h.2
  · have hn' : (sbxs'.map (·.sandboxID)).Nodup := (hs.map _).nodup_iff.mp hn
    have hni' : (infos'.map (·.id)).Nodup := (hi'.map _).nodup_iff.mp hi
    rw [hpaired]
    exact (pairSnapshots_perm hs hi' hn' hni').symm

theorem desired_mem {sbx : Sandbox} (h : item ∈ pairSnapshots sbxs infos) (hd : item.desired = some sbx) :
    sbx ∈ sbxs := by
  rw [pairSnapshots, List.mem_insertionSort] at h
  generalize indexInfos infos = infos at h
  induction sbxs generalizing infos with
  | nil =>
    obtain ⟨info, -, rfl⟩ := List.mem_map.mp h
    cases hd
  | cons s sbxs ih =>
    rcases List.mem_cons.mp h with rfl | h
    · obtain rfl := Option.some.inj hd
      exact List.mem_cons_self ..
    · exact List.mem_cons_of_mem _ (ih _ h)

end Pair

/-! ### Three rows and three containers -/

def sampleRow (id : String) : Sandbox := ⟨0, 0, id, .running, {}, 0, 0, 0⟩

def sampleRows : List Sandbox := [sampleRow "sbx-c", sampleRow "sbx-a", sampleRow "sbx-d"]

def sampleInfos : List Runtime.Info := [⟨"sbx-b", .running, 0⟩, ⟨"sbx-d", .running, 0⟩, ⟨"sbx-a", .running, 0⟩]

def sampleItems : List ReconcileItem :=
  (collectItems List.reverse sampleRows (indexInfos sampleInfos)).insertionSort fun a b => a.id ≤ b.id

/-- The theorem at these, the map iterated backwards. -/
theorem pairSnapshots_outer_join_mixed : sampleItems = pairSnapshots sampleRows sampleInfos ∧
    sampleItems.map (·.id) = ["sbx-a", "sbx-b", "sbx-c", "sbx-d"] := by
  have hperm := List.perm_insertionSort (fun a b : ReconcileItem => a.id ≤ b.id)
    (collectItems List.reverse sampleRows (indexInfos sampleInfos))
  have hsorted := sorted_by_id (collectItems List.reverse sampleRows (indexInfos sampleInfos))
  obtain ⟨hpaired, -⟩ := pairSnapshots_outer_join (by decide +kernel) (by decide +kernel) List.reverse_perm hperm hsorted
  exact ⟨hpaired, by decide +kernel⟩

end Quickspin
