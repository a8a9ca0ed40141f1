import Migrations.Plan

/-!
# What Plans Select

The selections of scripts and changes in terms of ids alone: what is pending is in the catalog and
not in the ledger, and a run upwards reaches a first part of it; what is applied is undone from the
end of the ledger.  A script is found by its id because the entries ascend.

## Main statements

- `Catalog.find?_eq_some`: the search finds the entry with an id, and nothing else.
- `Catalog.selectUp_first`: a run upwards reaches the first pending entries.
- `Catalog.pendingEntries_rest`: once they are in the ledger, the other ones are pending.
- `Catalog.newestFirst_of_ascending`: the rows of a ledger are undone from the last to the first.
- `Catalog.latest?_eq_some`: the latest change is the one with the greatest id.
-/

namespace Migrations

/-- Where things that stand before each other are the same, there is one way to sort them. -/
theorem eq_mergeSort_of_perm {α : Type} {le : α → α → Bool} {sorted all : List α}
    (htrans : ∀ a b c, le a b = true → le b c = true → le a c = true)
    (htotal : ∀ a b, (le a b || le b a) = true)
    (hsorted : sorted.Pairwise (fun a b => le a b = true)) (hperm : sorted.Perm all)
    (hsame : ∀ a ∈ all, ∀ b ∈ all, le a b = true → le b a = true → a = b) :
    sorted = all.mergeSort le := by
  refine (hperm.trans (List.mergeSort_perm all le).symm).eq_of_pairwise
    (fun a b ha hb hab hba => ?_) hsorted (List.pairwise_mergeSort htrans htotal all)
  exact hsame a (hperm.subset ha) b (List.mem_mergeSort.mp hb) hab hba

/-- Lists in a strict order are known by what they contain. -/
theorem eq_of_pairwise_of_mem {α : Type} {before : α → α → Prop} {first second : List α}
    (hasymm : ∀ a b, before a b → ¬ before b a) (hfirst : first.Pairwise before)
    (hsecond : second.Pairwise before) (h : ∀ a, a ∈ first ↔ a ∈ second) : first = second := by
  have hne : ∀ {a b : α}, before a b → a ≠ b := by
    rintro a _ hab rfl
    exact hasymm a a hab hab
  have hperm : first.Perm second :=
    (List.perm_ext_iff_of_nodup (hfirst.imp hne) (hsecond.imp hne)).mpr h
  exact hperm.eq_of_pairwise (fun a b _ _ hab hba => absurd hba (hasymm a b hab)) hfirst hsecond

/-! ## The order of ids -/

namespace ChangeId

theorem lt_irrefl (a : ChangeId) : ¬ a < a := Nat.lt_irrefl a.toNat

theorem lt_asymm {a b : ChangeId} (h : a < b) : ¬ b < a := Nat.lt_asymm h

theorem le_refl (a : ChangeId) : a ≤ a := Nat.le_refl a.toNat

theorem not_lt {a b : ChangeId} : ¬ a < b ↔ b ≤ a := Nat.not_lt

theorem not_le {a b : ChangeId} : ¬ a ≤ b ↔ b < a := Nat.not_le

theorem le_of_lt {a b : ChangeId} (h : a < b) : a ≤ b := Nat.le_of_lt h

theorem le_antisymm {a b : ChangeId} (hab : a ≤ b) (hba : b ≤ a) : a = b :=
  toNat_inj.mp (Nat.le_antisymm hab hba)

theorem le_trans {a b c : ChangeId} (hab : a ≤ b) (hbc : b ≤ c) : a ≤ c := Nat.le_trans hab hbc

theorem lt_of_lt_of_le {a b c : ChangeId} (hab : a < b) (hbc : b ≤ c) : a < c :=
  Nat.lt_of_lt_of_le hab hbc

theorem lt_of_le_of_ne {a b : ChangeId} (hab : a ≤ b) (hne : a ≠ b) : a < b :=
  Nat.lt_of_le_of_ne hab fun heq => hne (toNat_inj.mp heq)

theorem le_trans_by {α : Type} (key : α → ChangeId) (a b c : α)
    (hab : decide (key a ≤ key b) = true) (hbc : decide (key b ≤ key c) = true) :
    decide (key a ≤ key c) = true :=
  decide_eq_true (le_trans (of_decide_eq_true hab) (of_decide_eq_true hbc))

theorem le_total_by {α : Type} (key : α → ChangeId) (a b : α) :
    (decide (key a ≤ key b) || decide (key b ≤ key a)) = true := by
  simp only [Bool.or_eq_true, decide_eq_true_eq]
  exact Nat.le_total (key a).toNat (key b).toNat

/-- In the order of their ids things are known by their ids. -/
theorem eq_of_ascending {α : Type} {key : α → ChangeId} {all : List α}
    (h : all.Pairwise (fun a b => key a < key b)) {a b : α} (ha : a ∈ all) (hb : b ∈ all)
    (hid : key a = key b) : a = b := by
  induction all with
  | nil => cases ha
  | cons first rest ih =>
    obtain ⟨hfirst, hrest⟩ := List.pairwise_cons.mp h
    -- nothing in the rest has the id of the first one
    cases ha with
    | head =>
      cases hb with
      | head => rfl
      | tail _ hb => exact absurd (hid ▸ hfirst b hb) (lt_irrefl _)
    | tail _ ha =>
      cases hb with
      | head => exact absurd (hid ▸ hfirst a ha) (lt_irrefl _)
      | tail _ hb => exact ih hrest ha hb

end ChangeId

/-- Rows that were added at the end are taken away again. -/
theorem Change.filter_append_new {before new : List Change}
    (h : (before ++ new).Pairwise (fun a b => a.id < b.id)) :
    (before ++ new).filter (fun row => row.id ∉ new.map Change.id) = before := by
  obtain ⟨-, -, hbefore⟩ := List.pairwise_append.mp h
  have hkept : before.filter (fun row => row.id ∉ new.map Change.id) = before := by
    refine List.filter_eq_self.mpr fun row hrow => decide_eq_true fun hid => ?_
    obtain ⟨other, hother, heq⟩ := List.mem_map.mp hid
    exact ChangeId.lt_irrefl _ (heq ▸ hbefore row hrow other hother)
  have hgone : new.filter (fun row => row.id ∉ new.map Change.id) = [] := by
    refine List.filter_eq_nil_iff.mpr fun row hrow hnot => ?_
    exact of_decide_eq_true hnot (List.mem_map_of_mem hrow)
  rw [List.filter_append, hkept, hgone, List.append_nil]

namespace Catalog

variable {catalog : Catalog} {ledger : List Change}

/-! ## Lookup -/

/-- Places are in the order of the ids of their entries. -/
theorem id_lt_iff {i j : Nat} {entry other : ScriptEntry}
    (hi : catalog.entries[i]? = some entry) (hj : catalog.entries[j]? = some other) :
    entry.id < other.id ↔ i < j := by
  have hmono : ∀ {i j : Nat} {entry other : ScriptEntry}, catalog.entries[i]? = some entry →
      catalog.entries[j]? = some other → i < j → entry.id < other.id := by
    intro i j entry other hi hj hlt
    obtain ⟨hilen, rfl⟩ := List.getElem?_eq_some_iff.mp hi
    obtain ⟨hjlen, rfl⟩ := List.getElem?_eq_some_iff.mp hj
    exact List.pairwise_iff_getElem.mp catalog.ascending i j hilen hjlen hlt
  refine ⟨fun hid => ?_, hmono hi hj⟩
  rcases Nat.lt_trichotomy i j with h | rfl | h
  · exact h
  · obtain rfl := Option.some.inj (hi.symm.trans hj)
    exact absurd hid (ChangeId.lt_irrefl _)
  · exact absurd hid (ChangeId.lt_asymm (hmono hj hi h))

/-- The search keeps the place of an entry among those that are left, whichever half it leaves. -/
theorem narrow_eq {entry : ScriptEntry} {place base size : Nat}
    (hplace : catalog.entries[place]? = some entry) (hbase : base ≤ place)
    (hsize : place < base + size) : catalog.narrow entry.id base size = place := by
  fun_induction narrow catalog entry.id base size with
  | case1 base size hmany half hafter ih =>
    -- the entry in the middle comes after the one that is looked for, or there is none
    refine ih hbase ?_
    have hbefore : place < base + half := by
      cases hmiddle : catalog.entries[base + half]? with
      | none =>
        have hlen := (List.getElem?_eq_some_iff.mp hplace).1
        have hend := List.getElem?_eq_none_iff.mp hmiddle
        omega
      | some middle =>
        rw [hmiddle] at hafter
        exact (id_lt_iff hplace hmiddle).mp (of_decide_eq_true hafter)
    omega
  | case2 base size hmany half hnotAfter ih =>
    refine ih ?_ (by omega)
    cases hmiddle : catalog.entries[base + half]? with
    | none => simp [hmiddle] at hnotAfter
    | some middle =>
      rw [hmiddle] at hnotAfter
      refine Nat.not_lt.mp fun hlt => hnotAfter (decide_eq_true ?_)
      exact (id_lt_iff hplace hmiddle).mpr hlt
  | case3 base size hone => omega

theorem find?_eq_some {id : ChangeId} {entry : ScriptEntry} :
    catalog.find? id = some entry ↔ entry ∈ catalog.entries ∧ entry.id = id := by
  rw [find?, Option.filter_eq_some_iff]
  constructor
  · rintro ⟨hentry, hid⟩
    exact ⟨List.mem_of_getElem? hentry, by simpa using hid⟩
  · rintro ⟨hmem, rfl⟩
    obtain ⟨place, hplace⟩ := List.mem_iff_getElem?.mp hmem
    have hlen := (List.getElem?_eq_some_iff.mp hplace).1
    rw [narrow_eq hplace (Nat.zero_le place) (by omega)]
    exact ⟨hplace, by simp⟩

/-- An entry is found by its id. -/
theorem find?_of_mem {entry : ScriptEntry} (h : entry ∈ catalog.entries) :
    catalog.find? entry.id = some entry :=
  find?_eq_some.mpr ⟨h, rfl⟩

theorem contains_iff {id : ChangeId} : catalog.contains id = true ↔ id ∈ catalog.ids := by
  rw [contains, Option.isSome_iff_exists, ids, List.mem_map]
  exact exists_congr fun entry => find?_eq_some

/-! ## Pending entries -/

theorem recorded_iff {id : ChangeId} :
    recorded ledger id = true ↔ id ∈ ledger.map Change.id := by
  simp [recorded]

theorem mem_pendingEntries {entry : ScriptEntry} :
    entry ∈ catalog.pendingEntries ledger ↔
      entry ∈ catalog.entries ∧ entry.id ∉ ledger.map Change.id := by
  rw [pendingEntries, List.mem_filter, ← recorded_iff]
  simp

theorem pendingEntries_ascending :
    (catalog.pendingEntries ledger).Pairwise (fun a b => a.id < b.id) :=
  catalog.ascending.filter _

/-- When the first pending entries are in the ledger, the other ones are what is pending. -/
theorem pendingEntries_rest {next : List Change} {done rest : List ScriptEntry}
    (hpending : catalog.pendingEntries ledger = done ++ rest)
    (hnext : ∀ id, id ∈ next.map Change.id ↔
      id ∈ ledger.map Change.id ∨ id ∈ done.map ScriptEntry.id) :
    catalog.pendingEntries next = rest := by
  have hascending : (done ++ rest).Pairwise (fun a b => a.id < b.id) :=
    hpending ▸ pendingEntries_ascending
  -- an entry is left when it was pending and is not one of the first entries
  have hleft : catalog.pendingEntries next =
      (catalog.pendingEntries ledger).filter fun entry => entry.id ∉ done.map ScriptEntry.id := by
    unfold pendingEntries
    rw [List.filter_filter]
    refine List.filter_congr fun entry _ => ?_
    rw [Bool.eq_iff_iff]
    simp only [Bool.not_eq_true', Bool.and_eq_true, decide_eq_true_eq, ← Bool.not_eq_true,
      recorded_iff, hnext entry.id]
    rw [not_or, and_comm]
  rw [hleft, hpending, List.filter_append]
  have hdone : done.filter (fun entry => entry.id ∉ done.map ScriptEntry.id) = [] :=
    List.filter_eq_nil_iff.mpr fun entry hmem => by simpa using ⟨entry, hmem, rfl⟩
  have hrest : rest.filter (fun entry => entry.id ∉ done.map ScriptEntry.id) = rest := by
    refine List.filter_eq_self.mpr fun entry hmem => decide_eq_true fun hid => ?_
    obtain ⟨other, hother, heq⟩ := List.mem_map.mp hid
    exact ChangeId.lt_irrefl _ (heq ▸ (List.pairwise_append.mp hascending).2.2 other hother
      entry hmem)
  rw [hdone, hrest, List.nil_append]

/-! ## Upwards -/

theorem selectUp_latest : catalog.selectUp ledger .latest = catalog.pendingEntries ledger :=
  List.filter_eq_self.mpr fun _ _ => rfl

theorem mem_selectUp_through {id : ChangeId} {entry : ScriptEntry} :
    entry ∈ catalog.selectUp ledger (.through id) ↔
      entry ∈ catalog.pendingEntries ledger ∧ entry.id ≤ id := by
  simp [selectUp, within]

theorem selectUp_steps (n : Nat) :
    catalog.selectUp ledger (.steps n) = (catalog.pendingEntries ledger).take n :=
  congrArg (List.take n) (List.filter_eq_self.mpr fun _ _ => rfl)

/-- A run upwards reaches the first pending entries. -/
theorem selectUp_first (target : Target) :
    catalog.selectUp ledger target <+: catalog.pendingEntries ledger := by
  cases target with
  | latest => exact selectUp_latest ▸ List.prefix_refl _
  | steps n => exact selectUp_steps n ▸ List.take_prefix n _
  | through id =>
    -- the ids ascend, so those up to the given one come first
    have hfirst : ∀ entries : List ScriptEntry, entries.Pairwise (fun a b => a.id < b.id) →
        entries.filter (fun entry => decide (entry.id ≤ id)) <+: entries := by
      intro entries hascending
      induction entries with
      | nil => exact List.prefix_refl _
      | cons entry rest ih =>
        obtain ⟨hentry, hrest⟩ := List.pairwise_cons.mp hascending
        by_cases hle : entry.id ≤ id
        · rw [List.filter_cons_of_pos (by simpa using hle)]
          exact List.prefix_cons_inj entry |>.mpr (ih hrest)
        · have hnone : rest.filter (fun entry => decide (entry.id ≤ id)) = [] :=
            List.filter_eq_nil_iff.mpr fun other hmem hother =>
              hle (ChangeId.le_trans (ChangeId.le_of_lt (hentry other hmem))
                (by simpa using hother))
          rw [List.filter_cons_of_neg (by simpa using hle), hnone]
          exact List.nil_prefix
    exact hfirst _ pendingEntries_ascending

/-! ## The latest change -/

theorem latest?_eq_none : latest? ledger = none ↔ ledger = [] := by
  cases ledger with
  | nil => simp [latest?]
  | cons change rest =>
    rw [latest?]
    cases latest? rest <;> simp

/-- The latest change is the one with the greatest id. -/
theorem latest?_eq_some {id : ChangeId} :
    latest? ledger = some id ↔
      id ∈ ledger.map Change.id ∧ ∀ other ∈ ledger.map Change.id, other ≤ id := by
  have hgreatest : ∀ {changes : List Change} {latest : ChangeId}, latest? changes = some latest →
      latest ∈ changes.map Change.id ∧ ∀ other ∈ changes.map Change.id, other ≤ latest := by
    intro changes
    induction changes with
    | nil => simp [latest?]
    | cons change rest ih =>
      intro latest h
      rw [latest?] at h
      cases hrest : latest? rest with
      | none =>
        rw [hrest] at h
        cases h
        simp [latest?_eq_none.mp hrest, ChangeId.le_refl]
      | some id =>
        rw [hrest] at h
        obtain ⟨hmem, hle⟩ := ih hrest
        by_cases hid : id ≤ change.id
        -- the first change is the latest one, or the latest one of the rest is
        · simp only [hid, if_true, Option.some.injEq] at h
          subst h
          refine ⟨List.mem_cons_self, fun other hother => ?_⟩
          rcases List.mem_cons.mp hother with rfl | hother
          · exact ChangeId.le_refl _
          · exact ChangeId.le_trans (hle other hother) hid
        · simp only [hid, if_false, Option.some.injEq] at h
          subst h
          refine ⟨List.mem_cons_of_mem _ hmem, fun other hother => ?_⟩
          rcases List.mem_cons.mp hother with rfl | hother
          · exact ChangeId.le_of_lt (ChangeId.not_le.mp hid)
          · exact hle other hother
  constructor
  · exact hgreatest
  · rintro ⟨hmem, hle⟩
    cases hlatest : latest? ledger with
    | none =>
      rw [latest?_eq_none.mp hlatest] at hmem
      cases hmem
    | some latest =>
      obtain ⟨hlatest, hge⟩ := hgreatest hlatest
      exact congrArg some (ChangeId.le_antisymm (hle latest hlatest) (hge id hmem))

/-- The latest one of ascending rows is the last one. -/
theorem latest?_of_ascending (h : ledger.Pairwise (fun a b => a.id < b.id)) :
    latest? ledger = ledger.getLast?.map Change.id := by
  cases hlast : ledger.getLast? with
  | none => exact latest?_eq_none.mpr (List.getLast?_eq_none_iff.mp hlast)
  | some last =>
    obtain ⟨before, rfl⟩ := List.getLast?_eq_some_iff.mp hlast
    refine latest?_eq_some.mpr ⟨List.mem_map_of_mem (by simp), fun other hother => ?_⟩
    obtain ⟨change, hchange, rfl⟩ := List.mem_map.mp hother
    rcases List.mem_append.mp hchange with hchange | hchange
    · exact ChangeId.le_of_lt ((List.pairwise_append.mp h).2.2 change hchange last (by simp))
    · rw [List.mem_singleton.mp hchange]
      exact ChangeId.le_refl _

/-- Nothing is skipped when every pending entry is later than the whole ledger. -/
theorem skippedChanges_eq_nil (h : catalog.skippedChanges ledger = []) :
    ∀ entry ∈ catalog.pendingEntries ledger, ∀ id ∈ ledger.map Change.id, id < entry.id := by
  intro entry hentry id hid
  unfold skippedChanges at h
  cases hlatest : latest? ledger with
  | none =>
    rw [latest?_eq_none.mp hlatest] at hid
    cases hid
  | some latest =>
    rw [hlatest] at h
    obtain ⟨hmem, hgreatest⟩ := latest?_eq_some.mp hlatest
    have hle : latest ≤ entry.change.id := by
      have hchange : entry.change ∈ catalog.pending ledger := List.mem_map_of_mem hentry
      simpa [ChangeId.not_lt] using List.filter_eq_nil_iff.mp h _ hchange
    -- the entry is not in the ledger, so it differs from the latest change
    have hne : latest ≠ entry.id := fun heq => (mem_pendingEntries.mp hentry).2 (heq ▸ hmem)
    exact Nat.lt_of_le_of_lt (hgreatest id hid) (ChangeId.lt_of_le_of_ne hle hne)

/-! ## Downwards -/

theorem mergeSort_descending (ledger : List Change) :
    (ledger.mergeSort fun a b => decide (b.id ≤ a.id)).Pairwise (fun a b => b.id ≤ a.id) :=
  (List.pairwise_mergeSort (fun a b c hab hbc => ChangeId.le_trans_by Change.id c b a hbc hab)
    (fun a b => ChangeId.le_total_by Change.id b a) ledger).imp of_decide_eq_true

/-- Ascending rows are undone from the last to the first. -/
theorem newestFirst_of_ascending (h : ledger.Pairwise (fun a b => a.id < b.id)) :
    newestFirst ledger = ledger.reverse := by
  have hdescending : ledger.reverse.Pairwise (fun a b => b.id < a.id) :=
    List.pairwise_reverse.mpr h
  -- sorting gives the rows in descending order, and there is only one such order
  have hsorted := mergeSort_descending ledger
  have hperm : (ledger.mergeSort fun a b => decide (b.id ≤ a.id)).Perm ledger.reverse :=
    (List.mergeSort_perm _ _).trans (List.reverse_perm _).symm
  have hreverse : ledger.mergeSort (fun a b => decide (b.id ≤ a.id)) = ledger.reverse := by
    refine List.Perm.eq_of_pairwise (fun a b ha hb hba hab => ?_) hsorted
      (hdescending.imp fun hlt => ChangeId.le_of_lt hlt) hperm
    exact ChangeId.eq_of_ascending h (List.mem_mergeSort.mp ha) (List.mem_reverse.mp hb)
      (ChangeId.le_antisymm hab hba)
  -- no two rows have one id, so none is dropped
  have hkept : ∀ rows : List Change, rows.Pairwise (fun a b => b.id < a.id) →
      rows.foldr (fun change rest =>
        change :: rest.dropWhile (fun other => other.id == change.id)) [] = rows := by
    intro rows hrows
    induction rows with
    | nil => rfl
    | cons change rest ih =>
      obtain ⟨hchange, hrest⟩ := List.pairwise_cons.mp hrows
      rw [List.foldr_cons, ih hrest]
      refine congrArg (change :: ·) ?_
      cases rest with
      | nil => rfl
      | cons other others =>
        refine List.dropWhile_cons_of_neg ?_
        have hlt := hchange other List.mem_cons_self
        simpa using fun heq => ChangeId.lt_irrefl _ (heq ▸ hlt)
  rw [newestFirst, hreverse, hkept _ hdescending]

/-- As many steps as there are last rows, or the way down to the first of them, undo these rows. -/
theorem selectDown_append {before new : List Change} {first : ChangeId} {back : Target}
    (h : (before ++ new).Pairwise (fun a b => a.id < b.id))
    (hfirst : (new.map Change.id).head? = some first)
    (hback : back = .steps new.length ∨ back = .through first) :
    selectDown (before ++ new) back = new.reverse := by
  have hnewest := newestFirst_of_ascending h
  obtain ⟨-, hnew, hbefore⟩ := List.pairwise_append.mp h
  cases new with
  | nil => cases hfirst
  | cons row rest =>
    obtain rfl : row.id = first := Option.some.inj hfirst
    rcases hback with rfl | rfl
    · rw [selectDown, hnewest, List.reverse_append]
      exact List.take_left' List.length_reverse
    -- by the id of the first row the last ones are told from those before them
    · have hkept : (row :: rest).filter (fun other => decide (row.id ≤ other.id)) =
          row :: rest := by
        refine List.filter_eq_self.mpr fun other hother => decide_eq_true ?_
        rcases List.mem_cons.mp hother with rfl | hother
        · exact ChangeId.le_refl _
        · exact ChangeId.le_of_lt ((List.pairwise_cons.mp hnew).1 other hother)
      have hleft : before.filter (fun other => decide (row.id ≤ other.id)) = [] := by
        refine List.filter_eq_nil_iff.mpr fun other hother hle => ?_
        exact ChangeId.not_lt.mpr (of_decide_eq_true hle)
          (hbefore other hother row List.mem_cons_self)
      rw [selectDown, hnewest, List.filter_reverse, List.filter_append, hleft, hkept,
        List.nil_append]

/-- Steps down undo the rows from the last one on. -/
theorem selectDown_steps (h : ledger.Pairwise (fun a b => a.id < b.id)) (n : Nat) :
    selectDown ledger (.steps n) = ledger.reverse.take n := by
  rw [selectDown, newestFirst_of_ascending h]

theorem mem_selectDown_through (h : ledger.Pairwise (fun a b => a.id < b.id)) {id : ChangeId}
    {change : Change} :
    change ∈ selectDown ledger (.through id) ↔ change ∈ ledger ∧ id ≤ change.id := by
  simp [selectDown, newestFirst_of_ascending h]

end Catalog

end Migrations
