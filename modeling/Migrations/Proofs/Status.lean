import Migrations.Proofs.Choice
import Migrations.Proofs.Script.Catalog
import Migrations.Status

/-!
# Status and Plans

The status of all changes and the plans are made from the same scripts and the same ledger, each in
its own way: the status looks up the row of every script, a plan filters scripts and rows by ids.
They tell the same: what the status counts as pending is what a run upwards would execute, and what
it calls missing is what every plan warns of.

## Main statements

- `Status.mem_changes`: which changes are shown, and in which form.
- `Status.filter_changes`, `Status.missing_eq`: what is pending, and what is missing.
- `Status.applied_add_pending`, `Status.applied_add_missing`: the counts.
- `Status.merge_agrees`: status and plans together.
-/

namespace Migrations

namespace Status

variable {catalog : Catalog} {ledger : List Change}

/-! ## Rows -/

theorem row?_eq_some {entry : ScriptEntry} {row : Change} (h : row? ledger entry = some row) :
    row ∈ ledger ∧ row.id = entry.id :=
  ⟨List.mem_of_find?_eq_some h, by simpa using List.find?_some h⟩

theorem isSome_row? {entry : ScriptEntry} :
    (row? ledger entry).isSome = true ↔ entry.id ∈ ledger.map Change.id := by
  simp [row?, List.find?_isSome]

theorem row?_eq_none {entry : ScriptEntry} :
    row? ledger entry = none ↔ entry.id ∉ ledger.map Change.id := by
  rw [← isSome_row?, Option.not_isSome_iff_eq_none]

/-- In a ledger that has no id twice a row is found by its id. -/
theorem row?_of_mem (hledger : (ledger.map Change.id).Nodup) {entry : ScriptEntry} {row : Change}
    (hrow : row ∈ ledger) (hid : row.id = entry.id) : row? ledger entry = some row := by
  cases hfind : row? ledger entry with
  | none => exact absurd (hid ▸ List.mem_map_of_mem hrow) (row?_eq_none.mp hfind)
  | some other =>
    obtain ⟨hother, hsame⟩ := row?_eq_some hfind
    exact congrArg some (List.inj_on_of_nodup_map hledger hother hrow (hsame.trans hid.symm))

/-- A change is shown under the id of its script. -/
theorem id_ofEntry (entry : ScriptEntry) : (ofEntry ledger entry).id = entry.id := by
  unfold ofEntry
  split
  · rename_i row hrow
    exact (row?_eq_some hrow).2
  · rfl

theorem mem_unknown {change : Change} :
    change ∈ unknown catalog ledger ↔ change ∈ ledger ∧ change.id ∉ catalog.ids := by
  simp [unknown]

/-- Plans know the same rows that belong to no script. -/
theorem sort_unknown : Change.sort (unknown catalog ledger) = catalog.missing ledger := by
  refine congrArg Change.sort (List.filter_congr fun change _ => ?_)
  rw [Bool.eq_iff_iff, Bool.not_eq_true', Bool.not_eq_true', ← Bool.not_eq_true, ← Bool.not_eq_true,
    Catalog.contains_iff, List.contains_iff_mem]

/-! ## The changes that are shown -/

theorem changes_perm : (merge catalog ledger).changes.Perm
    (catalog.entries.map (ofEntry ledger) ++ unknown catalog ledger) := List.mergeSort_perm _ _

/-- The changes of the scripts are shown, and the rows that belong to none. -/
theorem mem_changes {change : Change} : change ∈ (merge catalog ledger).changes ↔
    (∃ entry ∈ catalog.entries, ofEntry ledger entry = change) ∨
      change ∈ ledger ∧ change.id ∉ catalog.ids := by
  rw [changes_perm.mem_iff, List.mem_append, List.mem_map, mem_unknown]

/-- The ids that are shown are those of the scripts, followed by those of the other rows. -/
theorem map_id_changes_perm : ((merge catalog ledger).changes.map Change.id).Perm
    (catalog.ids ++ (unknown catalog ledger).map Change.id) := by
  have hids : (catalog.entries.map (ofEntry ledger)).map Change.id = catalog.ids := by
    rw [List.map_map]
    exact List.map_congr_left fun entry _ => id_ofEntry entry
  rw [← hids, ← List.map_append]
  exact changes_perm.map Change.id

theorem mem_map_id_changes {id : ChangeId} : id ∈ (merge catalog ledger).changes.map Change.id ↔
    id ∈ catalog.ids ∨ id ∈ ledger.map Change.id := by
  rw [map_id_changes_perm.mem_iff, List.mem_append]
  constructor
  · rintro (h | h)
    · exact .inl h
    · obtain ⟨row, hrow, rfl⟩ := List.mem_map.mp h
      exact .inr (List.mem_map_of_mem (mem_unknown.mp hrow).1)
  · rintro (h | h)
    · exact .inl h
    · obtain ⟨row, hrow, rfl⟩ := List.mem_map.mp h
      by_cases hid : row.id ∈ catalog.ids
      · exact .inl hid
      · exact .inr (List.mem_map_of_mem (mem_unknown.mpr ⟨hrow, hid⟩))

/-- Every id is shown once, and the ids ascend. -/
theorem changes_ascending (hledger : (ledger.map Change.id).Nodup) :
    (merge catalog ledger).changes.Pairwise (fun a b => a.id < b.id) := by
  -- the scripts differ in their ids, so do the rows, and the other rows have ids of no script
  have hunknown : ((unknown catalog ledger).map Change.id).Nodup :=
    hledger.sublist (List.filter_sublist.map Change.id)
  have hdisjoint : List.Disjoint catalog.ids ((unknown catalog ledger).map Change.id) := by
    intro id hid hid'
    obtain ⟨row, hrow, rfl⟩ := List.mem_map.mp hid'
    exact (mem_unknown.mp hrow).2 hid
  have hnodup : ((merge catalog ledger).changes.map Change.id).Nodup :=
    map_id_changes_perm.nodup_iff.mpr (catalog.nodup_ids.append hunknown hdisjoint)
  exact ((Change.sort_ascending _).and (List.pairwise_map.mp hnodup)).imp fun h =>
    ChangeId.lt_of_le_of_ne h.1 h.2

/-- A row is shown as the ledger has it, under the file name of its script if it has one. -/
theorem exists_shown (hledger : (ledger.map Change.id).Nodup) {row : Change} (hrow : row ∈ ledger) :
    ∃ change ∈ (merge catalog ledger).changes,
      change.id = row.id ∧ change.appliedAt = row.appliedAt ∧
      change.description = row.description ∧
      (∀ entry ∈ catalog.entries, entry.id = row.id → change.filename = some entry.filename) ∧
      (row.id ∉ catalog.ids → change = row) := by
  by_cases hid : row.id ∈ catalog.ids
  · obtain ⟨entry, hentry, hsame⟩ := List.mem_map.mp hid
    refine ⟨row.named entry.filename, mem_changes.mpr (.inl ⟨entry, hentry, ?_⟩), rfl, rfl, rfl,
      fun other hother heq => ?_, fun hnot => absurd hid hnot⟩
    · rw [ofEntry, row?_of_mem hledger hrow hsame.symm]
    · rw [ChangeId.eq_of_ascending catalog.ascending hother hentry (heq.trans hsame.symm)]
      rfl
  · refine ⟨row, mem_changes.mpr (.inr ⟨hrow, hid⟩), rfl, rfl, rfl, fun entry hentry heq => ?_,
      fun _ => rfl⟩
    exact absurd (heq ▸ List.mem_map_of_mem hentry) hid

/-! ## What is pending, and what is missing -/

/-- The changes that are not in the ledger are those that plans call pending. -/
theorem filter_changes (hledger : (ledger.map Change.id).Nodup) :
    (merge catalog ledger).changes.filter
        (fun change => decide (change.id ∉ ledger.map Change.id)) = catalog.pending ledger := by
  have hpending : (catalog.pending ledger).Pairwise (fun a b => a.id < b.id) :=
    List.pairwise_map.mpr Catalog.pendingEntries_ascending
  -- both are in the order of the ids, so it is enough that they have the same members
  refine eq_of_pairwise_of_mem (fun _ _ => ChangeId.lt_asymm)
    ((changes_ascending hledger).filter _) hpending
    fun change => ?_
  rw [List.mem_filter, decide_eq_true_iff, mem_changes]
  constructor
  · rintro ⟨(⟨entry, hentry, rfl⟩ | ⟨hrow, -⟩), hnew⟩
    · rw [id_ofEntry] at hnew
      rw [ofEntry, row?_eq_none.mpr hnew]
      exact List.mem_map_of_mem (Catalog.mem_pendingEntries.mpr ⟨hentry, hnew⟩)
    · exact absurd (List.mem_map_of_mem hrow) hnew
  · intro hpending
    obtain ⟨entry, hentry, rfl⟩ := List.mem_map.mp hpending
    obtain ⟨hmem, hnew⟩ := Catalog.mem_pendingEntries.mp hentry
    refine ⟨.inl ⟨entry, hmem, ?_⟩, hnew⟩
    rw [ofEntry, row?_eq_none.mpr hnew]

/-- What is missing are the ids of the rows that plans call missing. -/
theorem missing_eq :
    (merge catalog ledger).missing = (catalog.missing ledger).map Change.id := by
  have hsorted : ((catalog.missing ledger).map Change.id).Pairwise
      (fun a b => decide (a ≤ b) = true) :=
    List.pairwise_map.mpr ((Change.sort_ascending _).imp decide_eq_true)
  rw [← sort_unknown] at hsorted ⊢
  exact (eq_mergeSort_of_perm (ChangeId.le_trans_by id) (ChangeId.le_total_by id) hsorted
    ((List.mergeSort_perm _ _).map Change.id) fun a _ b _ hab hba =>
      ChangeId.le_antisymm (of_decide_eq_true hab) (of_decide_eq_true hba)).symm

/-! ## Counts -/

theorem applied_add_pending :
    (merge catalog ledger).applied + (merge catalog ledger).pending = catalog.entries.length := by
  have hpending : (fun entry => (row? ledger entry).isNone) =
      fun entry => decide ¬ (row? ledger entry).isSome = true := by
    funext entry
    cases row? ledger entry <;> rfl
  rw [merge, hpending]
  exact (List.length_eq_countP_add_countP _).symm

theorem pending_eq : (merge catalog ledger).pending = (catalog.pending ledger).length := by
  have hnew : (fun entry => (row? ledger entry).isNone) =
      fun entry => !Catalog.recorded ledger entry.id := by
    funext entry
    rw [Bool.eq_iff_iff, Option.isNone_iff_eq_none, row?_eq_none, ← Catalog.recorded_iff]
    simp
  rw [Catalog.pending, List.length_map, Catalog.pendingEntries, ← hnew]
  exact List.countP_eq_length_filter

/-- Every row is applied or missing, when no id has two of them. -/
theorem applied_add_missing (hledger : (ledger.map Change.id).Nodup) :
    (merge catalog ledger).applied + (merge catalog ledger).missing.length = ledger.length := by
  -- the scripts with a row are the rows with a script, by their ids
  have happlied : (merge catalog ledger).applied =
      (catalog.ids.filter fun id => decide (id ∈ ledger.map Change.id)).length := by
    have hfound : (fun entry => (row? ledger entry).isSome) =
        (fun id => decide (id ∈ ledger.map Change.id)) ∘ ScriptEntry.id := by
      funext entry
      rw [Bool.eq_iff_iff, isSome_row?, Function.comp_apply, decide_eq_true_iff]
    rw [Catalog.ids, List.filter_map, List.length_map, ← hfound]
    exact List.countP_eq_length_filter
  have hboth : (catalog.ids.filter fun id => decide (id ∈ ledger.map Change.id)).Perm
      ((ledger.map Change.id).filter fun id => decide (id ∈ catalog.ids)) := by
    refine (List.perm_ext_iff_of_nodup (catalog.nodup_ids.filter _) (hledger.filter _)).mpr
      fun id => ?_
    simp only [List.mem_filter, decide_eq_true_eq, and_comm]
  have hmissing : (merge catalog ledger).missing.length =
      ((ledger.map Change.id).filter fun id => decide ¬ id ∈ catalog.ids).length := by
    rw [merge, List.length_mergeSort, List.filter_map, unknown]
    refine congrArg (fun rows => (rows.map Change.id).length) (List.filter_congr fun row _ => ?_)
    simp
  rw [happlied, hboth.length_eq, hmissing, ← List.countP_eq_length_filter,
    ← List.countP_eq_length_filter, ← List.length_map Change.id]
  have hsplit := List.length_eq_countP_add_countP (fun id => decide (id ∈ catalog.ids))
    (l := ledger.map Change.id)
  simpa using hsplit.symm

/-! ## Plans -/

/-- The ids of a run upwards to the end are those that are pending. -/
theorem ids_latest {home : Home} {plan : Plan} (hgenuine : catalog.Genuine)
    (h : Plan.make catalog home ledger .up .latest = .ok plan) :
    plan.ids = (catalog.pending ledger).map Change.id := by
  obtain ⟨-, scripts, hscripts, rfl⟩ := Plan.make_up_eq_ok.mp h
  rw [Catalog.selectUp_latest] at hscripts
  have hloads := Catalog.loads_of_loadAll
    (fun entry hmem => (Catalog.mem_pendingEntries.mp hmem).1) hscripts
  rw [Catalog.pending, List.map_map]
  exact hgenuine.map_id_eq hloads

theorem exists_latest {home : Home}
    (h : ∀ entry ∈ catalog.pendingEntries ledger, ∃ script, catalog.load home entry = .ok script) :
    ∃ plan, Plan.make catalog home ledger .up .latest = .ok plan := by
  obtain ⟨scripts, hscripts⟩ := Catalog.exists_loadAll h
  rw [← Catalog.selectUp_latest] at hscripts
  exact ⟨_, Plan.make_up_eq_ok.mpr ⟨nofun, scripts, hscripts, rfl⟩⟩

/-- Status and plans tell the same story.  Every id of the scripts and of the ledger is shown once,
in ascending order, and a row is shown as the ledger has it.  The scripts are applied or pending and
the rows are applied or missing.  What is pending is what a run upwards to the end executes, in its
order, and what is missing is what every plan warns of. -/
theorem merge_agrees (hledger : (ledger.map Change.id).Nodup) :
    let status := merge catalog ledger
    status.changes.Pairwise (fun a b => a.id < b.id) ∧
    (∀ id, id ∈ status.changes.map Change.id ↔ id ∈ catalog.ids ∨ id ∈ ledger.map Change.id) ∧
    (∀ row ∈ ledger, ∃ change ∈ status.changes,
      change.id = row.id ∧ change.appliedAt = row.appliedAt ∧
      change.description = row.description ∧
      (∀ entry ∈ catalog.entries, entry.id = row.id → change.filename = some entry.filename) ∧
      (row.id ∉ catalog.ids → change = row)) ∧
    status.applied + status.pending = catalog.entries.length ∧
    status.applied + status.missing.length = ledger.length ∧
    status.changes.filter (fun change => decide (change.id ∉ ledger.map Change.id)) =
      catalog.pending ledger ∧
    status.pending = (catalog.pending ledger).length ∧
    status.missing = (catalog.missing ledger).map Change.id ∧
    ∀ home,
      (catalog.Genuine → ∀ plan, Plan.make catalog home ledger .up .latest = .ok plan →
        plan.ids = (catalog.pending ledger).map Change.id) ∧
      ((∀ entry ∈ catalog.pendingEntries ledger,
          ∃ script, catalog.load home entry = .ok script) →
        ∃ plan, Plan.make catalog home ledger .up .latest = .ok plan) ∧
      (∀ direction target plan, Plan.make catalog home ledger direction target = .ok plan →
        plan.missing = catalog.missing ledger) ∧
      (∀ id plan, Plan.toVersion catalog home ledger id = .ok plan →
        plan.missing = catalog.missing ledger) :=
  ⟨changes_ascending hledger, fun _ => mem_map_id_changes, fun _ => exists_shown hledger,
    applied_add_pending, applied_add_missing hledger, filter_changes hledger, pending_eq,
    missing_eq, fun _ => ⟨fun hgenuine _ => ids_latest hgenuine, exists_latest,
      fun _ _ _ => Plan.missing_make, fun _ _ => Plan.missing_toVersion⟩⟩

/-- Two scripts, of which the first one has been given another name since it was applied. -/
private def renamed : Catalog where
  entries := [.ofScript (.ofUp ⟨1⟩ "a" "a;"), .ofScript (.ofUp ⟨2⟩ "b" "b;")]
  ascending := by decide

/-- The row of the first script, and one whose script is gone. -/
private def kept : List Change := [⟨⟨3⟩, "c", some ⟨7, 0⟩, none⟩, ⟨⟨1⟩, "old", some ⟨5, 0⟩, none⟩]

private theorem genuine_renamed : renamed.Genuine :=
  .inr ⟨[.ofUp ⟨1⟩ "a" "a;", .ofUp ⟨2⟩ "b" "b;"],
    Catalog.ofEntries_eq_ok.mpr ⟨List.Perm.refl _, rfl, rfl⟩⟩

/-- The row of the first script is shown with its own description and the script's file name, the
second script is pending and its run is planned, and the third change is missing. -/
theorem merge_agrees_renamed :
    (kept.map Change.id).Nodup ∧ renamed.Genuine ∧
    (⟨⟨1⟩, "old", some ⟨5, 0⟩, some "1_a.sql"⟩ : Change) ∈ (merge renamed kept).changes ∧
    (merge renamed kept).changes.filter (fun change => decide (change.id ∉ kept.map Change.id)) =
      [(Change.pending ⟨2⟩ "b").named "2_b.sql"] ∧
    (merge renamed kept).missing = [⟨3⟩] ∧
    ∃ plan, Plan.make renamed ⟨[]⟩ kept .up .latest = .ok plan ∧ plan.ids = [⟨2⟩] ∧
      plan.missing = [⟨⟨3⟩, "c", some ⟨7, 0⟩, none⟩] := by
  have hdistinct : (kept.map Change.id).Nodup := by decide
  have hpending : renamed.pending kept = [(Change.pending ⟨2⟩ "b").named "2_b.sql"] := by
    decide +kernel
  have hmissing : renamed.missing kept = [⟨⟨3⟩, "c", some ⟨7, 0⟩, none⟩] := by
    have hgone : kept.filter (fun change => !renamed.contains change.id) =
        [⟨⟨3⟩, "c", some ⟨7, 0⟩, none⟩] := by decide +kernel
    rw [Catalog.missing, hgone]
    exact List.mergeSort_singleton _
  obtain ⟨-, -, hshown, -, -, hnew, -, hgone, hplans⟩ := @merge_agrees renamed kept hdistinct
  obtain ⟨hids, hexists, hplanned, -⟩ := hplans ⟨[]⟩
  obtain ⟨change, hchange, hid, happlied, hdescription, hname, -⟩ :=
    hshown ⟨⟨1⟩, "old", some ⟨5, 0⟩, none⟩ (by decide)
  have hfilename := hname (.ofScript (.ofUp ⟨1⟩ "a" "a;")) (by decide) rfl
  obtain ⟨plan, hplan⟩ := hexists fun entry hmem => by
    obtain ⟨hentry, -⟩ := Catalog.mem_pendingEntries.mp hmem
    simp only [renamed, List.mem_cons, List.not_mem_nil, or_false] at hentry
    rcases hentry with rfl | rfl <;> exact ⟨_, rfl⟩
  refine ⟨hdistinct, genuine_renamed, ?_, hnew.trans hpending, by rw [hgone, hmissing]; rfl, plan,
    hplan, by rw [hids genuine_renamed plan hplan, hpending]; rfl,
    (hplanned _ _ _ hplan).trans hmissing⟩
  obtain ⟨_, _, _, _⟩ := change
  cases hid
  cases happlied
  cases hdescription
  cases hfilename
  exact hchange

end Status

end Migrations
