import Migrations.Proofs.Text.Line

/-!
# Occurrences of a Text

Where one text occurs in another, and what is left of a text when the occurrences are taken out of
it.  A word has no blanks, so it never occurs across one: at blanks a text falls into parts whose
occurrences have nothing to do with each other.

## Main statements

- `Text.occursIn_iff`: occurring is being a part.
- `Text.exists_beforeLast`: after the last occurrence there is no other one.
- `Text.breakOn_append`, `Text.exists_breakOn`: a text is broken at the first occurrence.
- `Text.Word.substance_blank`: what a text says is what its parts before and after a blank say.
- `Text.Word.content_lines`: and so it is what its lines say.
- `Text.Word.length_substance_cut`: where a text is cut at the last occurrence of a word, what it
  says has the length of what both sides say.
-/

namespace Migrations.Text

/-! ## The last occurrence -/

theorem occursIn_iff {d cs : List Char} : occursIn d cs = true ↔ d <:+: cs := by
  rw [occursIn, Option.isSome_iff_ne_none, ne_eq, beforeLast_eq_none, Classical.not_not]

/-- What stands before the last occurrence, and what stands after it. -/
theorem exists_beforeLast {d cs front : List Char} (h : beforeLast d cs = some front) :
    ∃ tail, cs = front ++ d ++ tail ∧ (d ≠ [] → ¬ d <:+: (d ++ tail).tail) := by
  induction cs generalizing front with
  | nil =>
    cases d with
    | nil =>
      cases h
      exact ⟨[], rfl, fun hd => absurd rfl hd⟩
    | cons c d => cases h
  | cons c cs ih =>
    rw [beforeLast] at h
    cases hrest : beforeLast d cs with
    | some before =>
      rw [hrest] at h
      cases h
      obtain ⟨tail, rfl, htail⟩ := ih hrest
      exact ⟨tail, rfl, htail⟩
    | none =>
      rw [hrest] at h
      dsimp only at h
      split at h
      · rename_i hprefix
        cases h
        obtain ⟨tail, htail⟩ := List.isPrefixOf_iff_prefix.mp hprefix
        refine ⟨tail, htail.symm, fun _ => ?_⟩
        rw [htail]
        exact beforeLast_eq_none.mp hrest
      · cases h

/-! ## The first occurrence -/

/-- A text is broken where `d` is first, so before that there is no first character of it. -/
theorem breakOn_append {d front : List Char} {c : Char} (h : c ∉ front) (rest : List Char) :
    breakOn (c :: d) (front ++ (c :: d) ++ rest) = some (front, rest) := by
  induction front with
  | nil =>
    have hprefix : (c :: d).isPrefixOf (c :: d ++ rest) = true :=
      List.isPrefixOf_iff_prefix.mpr (List.prefix_append _ _)
    rw [List.nil_append, List.cons_append, breakOn, ← List.cons_append, if_pos hprefix,
      List.drop_left]
  | cons e front ih =>
    obtain ⟨hfirst, hrest⟩ := List.ne_and_not_mem_of_not_mem_cons h
    have hprefix : ¬ (c :: d).isPrefixOf (e :: (front ++ c :: d ++ rest)) = true := by
      rw [List.isPrefixOf_iff_prefix]
      exact fun hd => hfirst (List.cons_prefix_cons.mp hd).1
    show breakOn (c :: d) (e :: (front ++ c :: d ++ rest)) = _
    rw [breakOn, if_neg hprefix, ih hrest]
    rfl

/-- What stands before the first occurrence, and what stands after it. -/
theorem exists_breakOn {d cs front rest : List Char} (hd : d ≠ [])
    (h : breakOn d cs = some (front, rest)) : cs = front ++ (d ++ rest) ∧ ¬ d <:+: front := by
  induction cs generalizing front with
  | nil => simp [breakOn, hd] at h
  | cons c cs ih =>
    rw [breakOn] at h
    split at h
    · next hprefix =>
      cases h
      obtain ⟨tail, htail⟩ := List.isPrefixOf_iff_prefix.mp hprefix
      rw [← htail, List.drop_left]
      exact ⟨rfl, fun hnil => hd (List.infix_nil.mp hnil)⟩
    · next hprefix =>
      obtain ⟨⟨before, after⟩, hbefore, heq⟩ := Option.map_eq_some_iff.mp h
      cases heq
      obtain ⟨rfl, hapart⟩ := ih hbefore
      refine ⟨rfl, fun hinfix => ?_⟩
      rcases List.infix_cons_iff.mp hinfix with hstart | hlater
      · -- one that starts the part before starts the text
        apply hprefix
        rw [List.isPrefixOf_iff_prefix]
        exact hstart.trans (List.prefix_append (c :: before) (d ++ rest))
      · exact hapart hlater

theorem breakOn_eq_none {d cs : List Char} (h : breakOn d cs = none) : ¬ d <:+: cs := by
  induction cs with
  | nil =>
    intro hinfix
    simp [breakOn, List.infix_nil.mp hinfix] at h
  | cons c cs ih =>
    rw [breakOn] at h
    split at h
    · cases h
    · next hprefix =>
      intro hinfix
      rcases List.infix_cons_iff.mp hinfix with hstart | hlater
      · exact hprefix (List.isPrefixOf_iff_prefix.mpr hstart)
      · exact ih (Option.map_eq_none_iff.mp h) hlater

/-! ## Taking occurrences out -/

/-- What is left of the text without the occurrences of `d`, taken from left to right, when so many
characters of it still belong to the last one. -/
def withoutFrom (d : List Char) : Nat → List Char → List Char
  | _, [] => []
  | skip + 1, _ :: cs => withoutFrom d skip cs
  | 0, c :: cs =>
    if d.isPrefixOf (c :: cs) then withoutFrom d (d.length - 1) cs else c :: withoutFrom d 0 cs

/-- The text without the occurrences of `d`, which are taken from left to right. -/
def without (d cs : List Char) : List Char := withoutFrom d 0 cs

variable {d cs : List Char}

theorem withoutFrom_eq (skip : Nat) (cs : List Char) :
    withoutFrom d skip cs = without d (cs.drop skip) := by
  -- characters that are still to be skipped are dropped one by one
  induction cs generalizing skip with
  | nil => cases skip <;> rfl
  | cons c cs ih =>
    cases skip with
    | zero => rfl
    | succ skip => exact ih skip

theorem without_self_append (hd : d ≠ []) (rest : List Char) :
    without d (d ++ rest) = without d rest := by
  cases d with
  | nil => exact absurd rfl hd
  | cons c d =>
    have hprefix : (c :: d).isPrefixOf (c :: (d ++ rest)) = true :=
      List.isPrefixOf_iff_prefix.mpr (List.prefix_append (c :: d) rest)
    rw [List.cons_append, without, withoutFrom, if_pos hprefix, withoutFrom_eq]
    simp

theorem without_cons {c : Char} (h : ¬ d <+: c :: cs) :
    without d (c :: cs) = c :: without d cs := by
  rw [without, withoutFrom, if_neg (mt List.isPrefixOf_iff_prefix.mp h)]
  rfl

/-- Nothing is taken out of a text in which there is no occurrence. -/
theorem without_eq_self (h : ¬ d <:+: cs) : without d cs = cs := by
  induction cs with
  | nil => rfl
  | cons c cs ih =>
    rw [List.infix_cons_iff, not_or] at h
    rw [without_cons h.1, ih h.2]

/-- A text starts with an occurrence, or with a character that stays. -/
theorem occurrence_induction {motive : List Char → Prop} (hd : d ≠ []) (nil : motive [])
    (occurrence : ∀ rest, motive rest → motive (d ++ rest))
    (kept : ∀ c rest, ¬ d <+: c :: rest → motive rest → motive (c :: rest)) (cs : List Char) :
    motive cs := by
  induction hlength : cs.length using Nat.strongRecOn generalizing cs with
  | ind n ih =>
    subst hlength
    by_cases hprefix : d <+: cs
    · obtain ⟨rest, rfl⟩ := hprefix
      have hpositive := List.length_pos_iff.mpr hd
      exact occurrence rest (ih rest.length (by rw [List.length_append]; omega) rest rfl)
    · cases cs with
      | nil => exact nil
      | cons c rest => exact kept c rest hprefix (ih rest.length (by simp) rest rfl)

/-! ## What a text says -/

/-- What a text says apart from occurrences of `d` and from blanks. -/
def substance (d cs : List Char) : List Char := (without d cs).filter fun c => !isBlank c

/-- What lines say, one after the other. -/
def content (d : List Char) (ls : List (List Char)) : List Char := ls.flatMap (substance d)

theorem content_append (first second : List (List Char)) :
    content d (first ++ second) = content d first ++ content d second := List.flatMap_append

theorem substance_self_append (hd : d ≠ []) (rest : List Char) :
    substance d (d ++ rest) = substance d rest := by
  rw [substance, without_self_append hd, substance]

theorem substance_cons {c : Char} (h : ¬ d <+: c :: cs) :
    substance d (c :: cs) = [c].filter (fun c => !isBlank c) ++ substance d cs := by
  rw [substance, without_cons h, ← List.singleton_append, List.filter_append, substance]

theorem substance_eq_nil (h : ¬ d <:+: cs) : substance d cs = [] ↔ allBlank cs = true := by
  rw [substance, without_eq_self h, List.filter_eq_nil_iff, allBlank_iff]
  simp

namespace Word

/-- A text says what its parts before and after a blank say. -/
theorem substance_blank {w : Char} (h : Word d) (hw : isBlank w = true) (front back : List Char) :
    substance d (front ++ w :: back) = substance d front ++ substance d back := by
  induction front using occurrence_induction h.ne_nil with
  | nil =>
    have hnot : ¬ d <+: w :: back := fun hd =>
      h.ne_nil (List.prefix_nil.mp ((h.prefix_append_blank hw [] back).mp hd))
    rw [List.nil_append, substance_cons hnot, List.filter_cons_of_neg (by simp [hw])]
    rfl
  | occurrence rest ih =>
    rw [List.append_assoc, substance_self_append h.ne_nil, ih, substance_self_append h.ne_nil]
  | kept c rest hkept ih =>
    have hnot : ¬ d <+: c :: (rest ++ w :: back) := fun hd =>
      hkept ((h.prefix_append_blank hw (c :: rest) back).mp hd)
    rw [List.cons_append, substance_cons hnot, ih, substance_cons hkept, List.append_assoc]

theorem substance_append_blank {ws : List Char} (h : Word d) (hws : allBlank ws = true)
    (cs : List Char) : substance d (cs ++ ws) = substance d cs := by
  induction ws generalizing cs with
  | nil => rw [List.append_nil]
  | cons w ws ih =>
    have hblank := allBlank_iff.mp hws
    have hrest : allBlank ws = true :=
      allBlank_iff.mpr fun c hc => hblank c (List.mem_cons_of_mem _ hc)
    rw [h.substance_blank (hblank w List.mem_cons_self), ← List.nil_append ws, ih hrest]
    exact List.append_nil _

theorem substance_of_blank {ws : List Char} (h : Word d) (hws : allBlank ws = true) :
    substance d ws = [] := h.substance_append_blank hws []

theorem substance_blank_append {ws : List Char} (h : Word d) (hws : allBlank ws = true)
    (cs : List Char) : substance d (ws ++ cs) = substance d cs := by
  induction ws with
  | nil => rfl
  | cons w ws ih =>
    have hblank := allBlank_iff.mp hws
    have hrest : allBlank ws = true :=
      allBlank_iff.mpr fun c hc => hblank c (List.mem_cons_of_mem _ hc)
    rw [List.cons_append, ← ih hrest]
    exact h.substance_blank (hblank w List.mem_cons_self) [] (ws ++ cs)

theorem substance_trim (h : Word d) (cs : List Char) : substance d (trim cs) = substance d cs := by
  obtain ⟨front, back, hfront, hback, hcs⟩ := exists_trim cs
  rw [hcs, h.substance_append_blank hback, h.substance_blank_append hfront, ← hcs]

/-- A text says what its lines say. -/
theorem content_lines (h : Word d) (cs : List Char) : content d (lines cs) = substance d cs := by
  induction hlength : cs.length using Nat.strongRecOn generalizing cs with
  | ind n ih =>
    subst hlength
    by_cases hfeed : '\n' ∈ cs
    · obtain ⟨front, back, rfl, hfront⟩ := List.eq_append_cons_of_mem hfeed
      obtain ⟨line, ws, rfl, hws, hlines⟩ := exists_firstLine hfront back
      have hblank : allBlank ws = true := by
        rcases hws with rfl | rfl
        · rfl
        · decide
      rw [hlines, h.substance_blank (by decide), h.substance_append_blank hblank,
        ← ih back.length (by simp; omega) back rfl]
      rfl
    · cases cs with
      | nil => rfl
      | cons c cs =>
        rw [lines_eq_singleton (List.cons_ne_nil c cs) hfeed]
        exact List.append_nil _

end Word

/-! ## Texts that are cut at an occurrence -/

/-- No proper end of the text is a start of it, so its occurrences do not overlap. -/
def Apart (d : List Char) : Prop := ∀ n < d.length, 0 < n → ¬ d.drop n <+: d

instance (d : List Char) : Decidable (Apart d) :=
  inferInstanceAs (Decidable (∀ n < d.length, _))

/-- An occurrence that starts before another one and is not over by then overlaps it. -/
theorem exists_overlap {front tail : List Char} (hfront : ¬ d <+: front)
    (h : d <+: front ++ (d ++ tail)) :
    ∃ back beyond, back ≠ [] ∧ d = front ++ back ∧ d = back ++ beyond ∧
      front ++ (d ++ tail) = d ++ (beyond ++ tail) := by
  obtain ⟨rest, hrest⟩ := h
  rcases List.append_eq_append_iff.mp hrest with ⟨more, rfl, -⟩ | ⟨back, hd, hback⟩
  · exact absurd (List.prefix_append _ _) hfront
  · have hne : back ≠ [] := by
      rintro rfl
      exact hfront ⟨[], by simpa using hd⟩
    have hlength : back.length ≤ d.length := by simp [hd]
    obtain ⟨beyond, hover⟩ := List.prefix_of_prefix_length_le ⟨rest, hback.symm⟩
      (List.prefix_append d tail) hlength
    refine ⟨back, beyond, hne, hd, hover.symm, ?_⟩
    calc front ++ (d ++ tail)
        = front ++ (back ++ beyond ++ tail) := by rw [hover]
      _ = front ++ back ++ (beyond ++ tail) := by simp only [List.append_assoc]
      _ = d ++ (beyond ++ tail) := by rw [← hd]

namespace Word

theorem substance_of_part (h : Word d) {part : List Char} (hpart : part <:+: d)
    (hlength : part.length < d.length) : substance d part = part := by
  have hnot : ¬ d <:+: part := fun hd => Nat.not_lt.mpr hd.length_le hlength
  rw [substance, without_eq_self hnot]
  exact List.filter_eq_self.mpr fun c hc => by simp [h.solid c (hpart.subset hc)]

/-- Where a text is cut at the last occurrence of a word, what it says has the length of what both
sides say.  Which characters those are may differ when occurrences overlap. -/
theorem length_substance_cut {tail : List Char} (h : Word d) (htail : ¬ d <:+: (d ++ tail).tail)
    (front : List Char) :
    (substance d (front ++ (d ++ tail))).length =
      (substance d front).length + (substance d tail).length := by
  induction front using occurrence_induction h.ne_nil with
  | nil =>
    rw [List.nil_append, substance_self_append h.ne_nil]
    exact (Nat.zero_add _).symm
  | occurrence rest ih =>
    rw [List.append_assoc, substance_self_append h.ne_nil, ih, substance_self_append h.ne_nil]
  | kept c rest hkept ih =>
    by_cases hcross : d <+: c :: (rest ++ (d ++ tail))
    · -- the overlapping occurrence is taken out, and the end of the last one stays in its place
      obtain ⟨back, beyond, hback, hfront, hover, hsame⟩ :=
        @exists_overlap d (c :: rest) tail hkept hcross
      have hrest : ¬ d <:+: beyond ++ tail := by
        obtain ⟨b, back, rfl⟩ := List.exists_cons_of_ne_nil hback
        refine fun hd => htail (hd.trans (List.IsSuffix.isInfix ⟨back, ?_⟩))
        rw [hover]
        simp
      have hpositive := List.length_pos_iff.mpr hback
      have hsize : d.length = (c :: rest).length + back.length := by
        rw [← List.length_append, ← hfront]
      have hother : d.length = back.length + beyond.length := by rw [← List.length_append, ← hover]
      -- neither the front nor what stays has another occurrence
      have hstays : substance d (beyond ++ tail) = beyond ++ substance d tail := by
        rw [substance, without_eq_self hrest, List.filter_append, substance,
          without_eq_self fun hd => hrest (hd.trans (List.suffix_append beyond tail).isInfix)]
        refine congrArg (· ++ _) (List.filter_eq_self.mpr fun c hc => ?_)
        simp [h.solid c (by rw [hover]; exact List.mem_append_right back hc)]
      have hfirst : substance d (c :: rest) = c :: rest :=
        h.substance_of_part ⟨[], back, hfront.symm⟩ (by omega)
      rw [hsame, substance_self_append h.ne_nil, hstays, hfirst, List.length_append]
      omega
    · rw [List.cons_append, substance_cons hcross, substance_cons hkept, List.length_append, ih,
        List.length_append, Nat.add_assoc]

/-- Where occurrences do not overlap, what a text says is what both sides of one say. -/
theorem substance_cut (h : Word d) (hapart : Apart d) (front tail : List Char) :
    substance d (front ++ (d ++ tail)) = substance d front ++ substance d tail := by
  induction front using occurrence_induction h.ne_nil with
  | nil =>
    rw [List.nil_append, substance_self_append h.ne_nil]
    rfl
  | occurrence rest ih =>
    rw [List.append_assoc, substance_self_append h.ne_nil, ih, substance_self_append h.ne_nil]
  | kept c rest hkept ih =>
    have hcross : ¬ d <+: c :: (rest ++ (d ++ tail)) := by
      intro hcross
      obtain ⟨back, beyond, hback, hfront, hover, -⟩ :=
        @exists_overlap d (c :: rest) tail hkept hcross
      have hpositive := List.length_pos_iff.mpr hback
      have hsize : d.length = (c :: rest).length + back.length := by
        rw [← List.length_append, ← hfront]
      have hend : d.drop (c :: rest).length = back :=
        (congrArg _ hfront).trans (List.drop_left' rfl)
      refine hapart (c :: rest).length (by omega) (by simp) ?_
      rw [hend]
      exact ⟨beyond, hover.symm⟩
    rw [List.cons_append, substance_cons hcross, substance_cons hkept, ih, List.append_assoc]

end Word

end Migrations.Text
