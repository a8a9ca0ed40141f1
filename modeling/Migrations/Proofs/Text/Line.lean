import Migrations.Text.Blank
import Migrations.Text.Line
import Migrations.Text.Numeral
import Migrations.Text.Search

/-!
# Lines and Blanks

How texts fall into lines when they are put together, and what blanks at the end of a text are good
for: nothing, when it is trimmed or when the last occurrence of a word is looked for.

## Main statements

- `Text.lines_break`: a line feed in a text separates its lines.
- `Text.lines_append`: a text without line feeds starts a line.
- `Text.lines_unlines`, `Text.exists_lines_eq`: lines can be put together again.
- `Text.lines_trimRight`: without the blanks at its end, a text has the same lines up to blanks.
- `Text.Word.beforeLast_append_blank`: a word does not occur in blanks.
-/

namespace Migrations.Text

/-! ## Blanks -/

theorem allBlank_iff {cs : List Char} : allBlank cs = true ↔ ∀ c ∈ cs, isBlank c = true :=
  List.all_eq_true

theorem allBlank_append {cs ds : List Char} :
    allBlank (cs ++ ds) = (allBlank cs && allBlank ds) := List.all_append

/-- What is cut off at the end is blank. -/
theorem exists_trimRight (cs : List Char) :
    ∃ ws, allBlank ws = true ∧ cs = trimRight isBlank cs ++ ws := by
  refine ⟨(cs.reverse.takeWhile isBlank).reverse, ?_, ?_⟩
  · rw [allBlank, List.all_reverse]
    exact List.all_takeWhile
  · rw [trimRight, ← List.reverse_append, List.takeWhile_append_dropWhile, List.reverse_reverse]

theorem dropWhile_blank {ws : List Char} (hws : allBlank ws = true) :
    ws.dropWhile isBlank = [] := by
  have hgone := @List.dropWhile_append_of_pos _ isBlank ws [] (allBlank_iff.mp hws)
  rwa [List.append_nil] at hgone

theorem trimRight_append_blank {ws : List Char} (hws : allBlank ws = true) (cs : List Char) :
    trimRight isBlank (cs ++ ws) = trimRight isBlank cs := by
  have hback : allBlank ws.reverse = true := by rwa [allBlank, List.all_reverse]
  rw [trimRight, trimRight, List.reverse_append, List.dropWhile_append, dropWhile_blank hback]
  rfl

theorem trim_append_blank {ws : List Char} (hws : allBlank ws = true) (cs : List Char) :
    trim (cs ++ ws) = trim cs := by
  rw [trim, trim, trimLeft, trimLeft, List.dropWhile_append]
  split
  · -- nothing but blanks
    rename_i hnone
    rw [dropWhile_blank hws, List.isEmpty_iff.mp hnone]
  · exact trimRight_append_blank hws _

/-- Only the ends of a text are trimmed. -/
theorem exists_trim (cs : List Char) :
    ∃ front back, allBlank front = true ∧ allBlank back = true ∧ cs = front ++ trim cs ++ back := by
  obtain ⟨back, hback, hrest⟩ := exists_trimRight (trimLeft isBlank cs)
  refine ⟨cs.takeWhile isBlank, back, List.all_takeWhile, hback, ?_⟩
  rw [List.append_assoc, trim, ← hrest, trimLeft, List.takeWhile_append_dropWhile]

theorem trim_eq_nil {cs : List Char} : trim cs = [] ↔ allBlank cs = true := by
  constructor
  · intro h
    -- the text is what was cut off at its start and what was cut off at its end
    obtain ⟨front, back, hfront, hback, hcs⟩ := exists_trim cs
    rw [hcs, h, List.append_nil, allBlank_append, hfront, hback]
    rfl
  · intro h
    exact trim_append_blank h []

/-! ## Last occurrences -/

theorem beforeLast_eq_none {d cs : List Char} : beforeLast d cs = none ↔ ¬ d <:+: cs := by
  induction cs with
  | nil => cases d <;> simp [beforeLast]
  | cons c cs ih =>
    rw [beforeLast, List.infix_cons_iff, not_or, ← ih, and_comm]
    cases beforeLast d cs with
    | some before => simp
    | none => simp

/-! ## Tight texts and words -/

/-- A text with something to see at both of its ends. -/
structure Tight (cs : List Char) : Prop where
  ne_nil : cs ≠ []
  first : isBlank (cs.head ne_nil) = false
  last : isBlank (cs.getLast ne_nil) = false

/-- A text of at least one character without blanks. -/
structure Word (d : List Char) : Prop where
  ne_nil : d ≠ []
  solid : ∀ c ∈ d, isBlank c = false

instance (d : List Char) : Decidable (Word d) :=
  decidable_of_iff (d ≠ [] ∧ (d.all fun c => !isBlank c) = true)
    ⟨fun ⟨hne, hall⟩ => ⟨hne, by simpa using hall⟩, fun h => ⟨h.ne_nil, by simpa using h.solid⟩⟩

namespace Tight

variable {cs : List Char}

theorem append {ds : List Char} (hcs : Tight cs) (hds : Tight ds) : Tight (cs ++ ds) where
  ne_nil := List.append_ne_nil_of_left_ne_nil hcs.ne_nil ds
  first := by rw [List.head_append_of_ne_nil hcs.ne_nil]; exact hcs.first
  last := by rw [List.getLast_append_of_ne_nil _ hds.ne_nil]; exact hds.last

/-- Only the ends of a text count. -/
theorem cons_append {c : Char} (hc : isBlank c = false) (middle : List Char) (h : Tight cs) :
    Tight (c :: (middle ++ cs)) where
  ne_nil := List.cons_ne_nil _ _
  first := hc
  last := by
    rw [List.getLast_cons (List.append_ne_nil_of_right_ne_nil _ h.ne_nil),
      List.getLast_append_of_ne_nil _ h.ne_nil]
    exact h.last

theorem trimLeft_append (h : Tight cs) (front : List Char) :
    trimLeft isBlank (front ++ cs) = trimLeft isBlank front ++ cs := by
  have hkept : cs.dropWhile isBlank = cs := by
    cases cs with
    | nil => exact absurd rfl h.ne_nil
    | cons c rest => exact List.dropWhile_cons_of_neg (by simpa using h.first)
  rw [trimLeft, List.dropWhile_append, hkept, trimLeft]
  split
  · rename_i hnone
    rw [List.isEmpty_iff.mp hnone, List.nil_append]
  · rfl

theorem trimRight_append (h : Tight cs) (front : List Char) :
    trimRight isBlank (front ++ cs) = front ++ cs := by
  have hlast : isBlank ((front ++ cs).getLast (by simp [h.ne_nil])) = false := by
    rw [List.getLast_append_of_ne_nil _ h.ne_nil]
    exact h.last
  rw [trimRight]
  cases hback : (front ++ cs).reverse with
  | nil => simp_all
  | cons c rest =>
    have hends : front ++ cs = rest.reverse ++ [c] := by
      rw [← List.reverse_reverse (front ++ cs), hback, List.reverse_cons]
    have hc : isBlank c = false := by simpa [hends] using hlast
    rw [List.dropWhile_cons_of_neg (by simp [hc]), List.reverse_cons, hends]

/-- Before a tight text only the blanks at the start are trimmed. -/
theorem trim_append (h : Tight cs) (front : List Char) :
    trim (front ++ cs) = trimLeft isBlank front ++ cs := by
  rw [trim, h.trimLeft_append, h.trimRight_append]

theorem trim_eq (h : Tight cs) : trim cs = cs := h.trim_append []

end Tight

/-- What trimming leaves has something to see at both ends, if it leaves anything. -/
theorem tight_trim {cs : List Char} (h : trim cs ≠ []) : Tight (trim cs) where
  ne_nil := h
  first := by
    -- the blanks at the end do not change what the text starts with
    obtain ⟨ws, -, hws⟩ := exists_trimRight (trimLeft isBlank cs)
    have hfirst := List.head?_dropWhile_not isBlank cs
    rw [← trimLeft, hws, ← trim] at hfirst
    obtain ⟨c, rest, htrim⟩ := List.exists_cons_of_ne_nil h
    simp only [htrim] at hfirst ⊢
    exact hfirst
  last := by
    simp only [trim, trimRight, List.getLast_reverse]
    exact List.head_dropWhile_not isBlank _

namespace Word

variable {d : List Char}

theorem tight (h : Word d) : Tight d where
  ne_nil := h.ne_nil
  first := h.solid _ (List.head_mem h.ne_nil)
  last := h.solid _ (List.getLast_mem h.ne_nil)

theorem lineEnd_notMem (h : Word d) : '\n' ∉ d ∧ '\r' ∉ d :=
  ⟨fun hmem => absurd (h.solid _ hmem) (by decide), fun hmem => absurd (h.solid _ hmem) (by decide)⟩

theorem lineFeed_notMem (h : Word d) : '\n' ∉ d := h.lineEnd_notMem.1

/-- A word that starts a text starts it before the first blank. -/
theorem prefix_append_blank {w : Char} (h : Word d) (hw : isBlank w = true)
    (front back : List Char) :
    d <+: front ++ w :: back ↔ d <+: front := by
  constructor
  · rintro ⟨rest, hrest⟩
    rcases List.append_eq_append_iff.mp hrest with ⟨more, rfl, -⟩ | ⟨more, hd, hback⟩
    · exact List.prefix_append _ _
    -- what the word has beyond the text would start with the blank
    · cases more with
      | nil => exact ⟨[], by simpa using hd⟩
      | cons c more =>
        obtain ⟨rfl, -⟩ := List.cons.inj hback
        have hsolid := h.solid w (by simp [hd])
        rw [hw] at hsolid
        cases hsolid
  · exact fun hd => hd.trans (List.prefix_append _ _)

/-- A word that starts a text with blanks at its end starts it without them. -/
theorem isPrefixOf_append_blank {ws : List Char} (h : Word d) (hws : allBlank ws = true)
    (cs : List Char) : d.isPrefixOf (cs ++ ws) = d.isPrefixOf cs := by
  cases ws with
  | nil => rw [List.append_nil]
  | cons w ws =>
    rw [Bool.eq_iff_iff, List.isPrefixOf_iff_prefix, List.isPrefixOf_iff_prefix,
      h.prefix_append_blank (allBlank_iff.mp hws w List.mem_cons_self)]

/-- A word does not occur in blanks. -/
theorem beforeLast_blank {ws : List Char} (h : Word d) (hws : allBlank ws = true) :
    beforeLast d ws = none := by
  refine beforeLast_eq_none.mpr fun hpart => ?_
  have hfirst := List.head_mem h.ne_nil
  have hblank := allBlank_iff.mp hws _ (hpart.subset hfirst)
  rw [h.solid _ hfirst] at hblank
  cases hblank

theorem beforeLast_append_blank {ws : List Char} (h : Word d) (hws : allBlank ws = true)
    (cs : List Char) : beforeLast d (cs ++ ws) = beforeLast d cs := by
  induction cs with
  | nil =>
    rw [List.nil_append, h.beforeLast_blank hws]
    simp [beforeLast, h.ne_nil]
  | cons c cs ih =>
    have hstart := h.isPrefixOf_append_blank hws (c :: cs)
    rw [List.cons_append] at hstart ⊢
    rw [beforeLast, beforeLast, ih, hstart]

end Word

/-- The last occurrence of a text that stands at the end. -/
theorem beforeLast_append_self {d : List Char} (hd : d ≠ []) (cs : List Char) :
    beforeLast d (cs ++ d) = some cs := by
  induction cs with
  | nil =>
    cases d with
    | nil => exact absurd rfl hd
    | cons c d =>
      have hshort : ¬ c :: d <:+: d := fun hpart => Nat.not_lt.mpr hpart.length_le (by simp)
      rw [List.nil_append, beforeLast, beforeLast_eq_none.mpr hshort]
      simp
  | cons c cs ih => rw [List.cons_append, beforeLast, ih]

/-! ## Digits -/

theorem isDigit_iff {c : Char} : c.isDigit = true ↔ '0' ≤ c ∧ c ≤ '9' := by
  rw [Char.isDigit, Bool.and_eq_true, decide_eq_true_eq, decide_eq_true_eq]
  rfl

theorem isDigit_of_numeral? {cs : List Char} {n : Nat} (h : numeral? cs = some n) :
    cs ≠ [] ∧ ∀ c ∈ cs, c.isDigit = true := by
  unfold numeral? at h
  split at h
  · cases h
  · rename_i hdigits
    simp only [Bool.or_eq_true, List.isEmpty_iff, not_or, Bool.not_eq_true', Bool.not_eq_false,
      List.all_eq_true] at hdigits
    exact hdigits

theorem isBlank_of_isDigit {c : Char} (h : c.isDigit = true) : isBlank c = false := by
  simp only [Char.isDigit, Bool.and_eq_true, decide_eq_true_eq, ge_iff_le,
    UInt32.le_iff_toNat_le] at h
  have hlow : 48 ≤ c.toNat := h.1
  have hhigh : c.toNat ≤ 57 := h.2
  simp only [isBlank, Bool.or_eq_false_iff, Bool.and_eq_false_iff, decide_eq_false_iff_not,
    beq_eq_false_iff_ne]
  omega

theorem toUpper_of_isDigit {c : Char} (h : c.isDigit = true) : c.toUpper = c := by
  simp only [Char.isDigit, Bool.and_eq_true, decide_eq_true_eq, ge_iff_le,
    UInt32.le_iff_toNat_le] at h
  have hhigh : c.val.toNat ≤ 57 := h.2
  unfold Char.toUpper
  split
  · rename_i hlower
    have hlow : 97 ≤ c.val.toNat := UInt32.le_iff_toNat_le.mp hlower.1
    omega
  · rfl

theorem word_toDigits (n : Nat) : Word (Nat.toDigits 10 n) where
  ne_nil := Nat.toDigits_ne_nil
  solid := fun _ hc => isBlank_of_isDigit (Nat.isDigit_of_mem_toDigits (by decide) (by decide) hc)

theorem lineFeed_notMem_padded (width n : Nat) : '\n' ∉ padded width n := by
  unfold padded
  simp only [List.mem_append, List.mem_replicate, not_or, not_and]
  exact ⟨fun _ => by decide, (word_toDigits n).lineFeed_notMem⟩

/-! ## Lines -/

theorem lines_lineFeed (cs : List Char) : lines ('\n' :: cs) = [] :: lines cs := by rw [lines]

/-- A character that does not belong to a line end is put before the first line. -/
theorem lines_cons {c : Char} {cs : List Char} (hc : c ≠ '\n')
    (hreturn : ∀ rest, c = '\r' → cs ≠ '\n' :: rest) :
    lines (c :: cs) = (c :: (lines cs).headD []) :: (lines cs).tail := by
  rw [lines.eq_4 c cs hc hreturn]
  cases lines cs <;> rfl

theorem mem_of_mem_lines {cs line : List Char} {c : Char} (hline : line ∈ lines cs)
    (hc : c ∈ line) : c ∈ cs := by
  induction cs using lines.induct generalizing line with
  | case1 => cases hline
  | case2 cs ih =>
    rw [lines_lineFeed] at hline
    rcases List.mem_cons.mp hline with rfl | hline
    · cases hc
    · exact List.mem_cons_of_mem _ (ih hline hc)
  | case3 cs ih =>
    rw [lines] at hline
    rcases List.mem_cons.mp hline with rfl | hline
    · cases hc
    · exact List.mem_cons_of_mem _ (List.mem_cons_of_mem _ (ih hline hc))
  | case4 d cs hd hreturn hnil ih =>
    rw [lines.eq_4 d cs hd hreturn, hnil] at hline
    rw [List.mem_singleton.mp hline] at hc
    rw [List.mem_singleton.mp hc]
    exact List.mem_cons_self
  | case5 d cs hd hreturn first others hlines ih =>
    rw [lines.eq_4 d cs hd hreturn, hlines] at hline
    rw [hlines] at ih
    rcases List.mem_cons.mp hline with rfl | hline
    · rcases List.mem_cons.mp hc with rfl | hc
      · exact List.mem_cons_self
      · exact List.mem_cons_of_mem _ (ih List.mem_cons_self hc)
    · exact List.mem_cons_of_mem _ (ih (List.mem_cons_of_mem _ hline) hc)

theorem allBlank_of_mem_lines {ws line : List Char} (hws : allBlank ws = true)
    (hline : line ∈ lines ws) : allBlank line = true :=
  allBlank_iff.mpr fun c hc => allBlank_iff.mp hws c (mem_of_mem_lines hline hc)

theorem lines_eq_nil {cs : List Char} : lines cs = [] ↔ cs = [] := by
  constructor
  · intro h
    unfold lines at h
    split at h
    · rfl
    · cases h
    · cases h
    · split at h <;> cases h
  · rintro rfl
    rfl

/-- The lines before and after a line feed. -/
theorem lines_break (front back : List Char) :
    lines (front ++ '\n' :: back) = lines (front ++ ['\n']) ++ lines back := by
  induction front using lines.induct with
  | case1 => simp [lines]
  | case2 cs ih => simp only [List.cons_append, lines_lineFeed, ih]
  | case3 cs ih => simp only [List.cons_append, lines, ih]
  | case4 c cs hc hreturn hnil ih =>
    -- the line feed follows directly, and only a carriage return would go with it
    obtain rfl := lines_eq_nil.mp hnil
    by_cases hr : c = '\r'
    · subst hr
      simp [lines]
    · rw [List.cons_append, List.cons_append, lines_cons hc fun _ h => absurd h hr,
        lines_cons hc fun _ h => absurd h hr]
      simp [lines]
  | case5 c cs hc hreturn first others hlines ih =>
    cases cs with
    | nil => cases hlines
    | cons d cs =>
      have hkept : ∀ back rest, c = '\r' → d :: (cs ++ '\n' :: back) ≠ '\n' :: rest := by
        intro back rest hr heq
        exact hreturn cs hr (by rw [(List.cons.inj heq).1])
      simp only [List.cons_append] at ih ⊢
      rw [lines_cons hc (hkept back), lines_cons hc (hkept []), ih]
      cases hfront : lines (d :: (cs ++ ['\n'])) with
      | nil => cases lines_eq_nil.mp hfront
      | cons line others => rfl

/-- A text without line feeds starts a line.  It does not end in a carriage return, so nothing of it
goes with a line end that follows. -/
theorem lines_append {line : List Char} (hne : line ≠ [])
    (hlast : isBlank (line.getLast hne) = false) (hline : '\n' ∉ line) (rest : List Char) :
    lines (line ++ rest) = (line ++ (lines rest).headD []) :: (lines rest).tail := by
  induction line with
  | nil => exact absurd rfl hne
  | cons c cs ih =>
    have hc : c ≠ '\n' := fun h => hline (h ▸ List.mem_cons_self)
    cases cs with
    | nil =>
      have hreturn : c ≠ '\r' := fun h => by
        rw [List.getLast_singleton, h] at hlast
        exact absurd hlast (by decide)
      exact lines_cons hc fun _ h => absurd h hreturn
    | cons d cs =>
      have hd : d ≠ '\n' := fun h => hline (h ▸ List.mem_cons_of_mem _ List.mem_cons_self)
      rw [List.getLast_cons (List.cons_ne_nil d cs)] at hlast
      have hrest := ih (List.cons_ne_nil d cs) hlast fun h => hline (List.mem_cons_of_mem _ h)
      rw [List.cons_append] at hrest
      rw [List.cons_append, List.cons_append,
        lines_cons hc (fun _ _ h => hd (List.cons.inj h).1), hrest]
      rfl

/-- A line that is followed by its line end. -/
theorem Tight.lines_lineFeed {line : List Char} (h : Tight line) (hline : '\n' ∉ line)
    (rest : List Char) : lines (line ++ '\n' :: rest) = line :: lines rest := by
  rw [lines_append h.ne_nil h.last hline, Text.lines_lineFeed, List.headD_cons, List.append_nil,
    List.tail_cons]

/-- A text without line feeds is one line. -/
theorem lines_eq_singleton {cs : List Char} (hne : cs ≠ []) (hcs : '\n' ∉ cs) :
    lines cs = [cs] := by
  induction cs with
  | nil => exact absurd rfl hne
  | cons c cs ih =>
    have hc : c ≠ '\n' := fun h => hcs (h ▸ List.mem_cons_self)
    have hrest : '\n' ∉ cs := fun h => hcs (List.mem_cons_of_mem _ h)
    rw [lines_cons hc fun rest _ h => hrest (by rw [h]; exact List.mem_cons_self)]
    cases cs with
    | nil => rfl
    | cons d cs => rw [ih (List.cons_ne_nil d cs) hrest, List.headD_cons, List.tail_cons]

/-- What stands before a line feed is a line, but for a carriage return at its end. -/
theorem exists_firstLine {front : List Char} (hfront : '\n' ∉ front) (rest : List Char) :
    ∃ line ws, front = line ++ ws ∧ (ws = [] ∨ ws = ['\r']) ∧
      lines (front ++ '\n' :: rest) = line :: lines rest := by
  induction front with
  | nil => exact ⟨[], [], rfl, .inl rfl, lines_lineFeed rest⟩
  | cons c front ih =>
    have hc : c ≠ '\n' := fun h => hfront (h ▸ List.mem_cons_self)
    have hmore : '\n' ∉ front := fun h => hfront (List.mem_cons_of_mem _ h)
    by_cases hreturn : c = '\r' ∧ front = []
    · obtain ⟨rfl, rfl⟩ := hreturn
      exact ⟨[], ['\r'], rfl, .inr rfl, by simp [lines]⟩
    · obtain ⟨line, ws, rfl, hws, hlines⟩ := ih hmore
      refine ⟨c :: line, ws, rfl, hws, ?_⟩
      rw [List.cons_append, lines_cons hc, hlines]
      · rfl
      · intro others hr h
        cases hall : line ++ ws with
        | nil => exact hreturn ⟨hr, hall⟩
        | cons d more =>
          rw [hall] at h
          exact hmore (hall ▸ (List.cons.inj h).1 ▸ List.mem_cons_self)

/-- What the first line loses with its line end is blank. -/
theorem exists_firstLine_blank {front : List Char} (hfront : '\n' ∉ front) (rest : List Char) :
    ∃ line ws, front = line ++ ws ∧ allBlank ws = true ∧
      lines (front ++ '\n' :: rest) = line :: lines rest := by
  obtain ⟨line, ws, hparts, rfl | rfl, hlines⟩ := exists_firstLine hfront rest
  · exact ⟨line, [], hparts, rfl, hlines⟩
  · exact ⟨line, ['\r'], hparts, rfl, hlines⟩

/-- Without carriage returns the line before a line feed is all that stands there. -/
theorem lines_line {line : List Char} (hline : '\n' ∉ line) (hreturn : '\r' ∉ line)
    (rest : List Char) : lines (line ++ '\n' :: rest) = line :: lines rest := by
  obtain ⟨kept, ws, rfl, rfl | rfl, hlines⟩ := exists_firstLine hline rest
  · rw [hlines, List.append_nil]
  · exact absurd (List.mem_append_right kept List.mem_cons_self) hreturn

theorem unlines_cons (line : List Char) (ls : List (List Char)) :
    unlines (line :: ls) = line ++ '\n' :: unlines ls := by
  rw [unlines, List.flatMap_cons, List.append_assoc, List.singleton_append, unlines]

theorem unlines_concat (ls : List (List Char)) (line : List Char) :
    unlines (ls ++ [line]) = unlines ls ++ line ++ ['\n'] := by
  rw [unlines, List.flatMap_append, List.flatMap_singleton, List.append_assoc, unlines]

theorem lines_unlines {ls : List (List Char)} (hls : ∀ line ∈ ls, '\n' ∉ line ∧ '\r' ∉ line)
    (rest : List Char) : lines (unlines ls ++ rest) = ls ++ lines rest := by
  induction ls with
  | nil => rfl
  | cons line ls ih =>
    obtain ⟨hline, hreturn⟩ := hls line List.mem_cons_self
    rw [unlines_cons, List.append_assoc, List.cons_append, lines_line hline hreturn,
      ih fun other hmem => hls other (List.mem_cons_of_mem _ hmem), List.cons_append]

theorem lineFeed_notMem_of_mem_lines {cs line : List Char} (hline : line ∈ lines cs) :
    '\n' ∉ line := by
  induction cs using lines.induct generalizing line with
  | case1 => cases hline
  | case2 cs ih =>
    rw [lines_lineFeed] at hline
    rcases List.mem_cons.mp hline with rfl | hline
    · exact List.not_mem_nil
    · exact ih hline
  | case3 cs ih =>
    rw [lines] at hline
    rcases List.mem_cons.mp hline with rfl | hline
    · exact List.not_mem_nil
    · exact ih hline
  | case4 c cs hc hreturn hnil ih =>
    rw [lines.eq_4 c cs hc hreturn, hnil] at hline
    rw [List.mem_singleton.mp hline, List.mem_singleton]
    exact fun h => hc h.symm
  | case5 c cs hc hreturn first others hlines ih =>
    rw [lines.eq_4 c cs hc hreturn, hlines] at hline
    rw [hlines] at ih
    rcases List.mem_cons.mp hline with rfl | hline
    · rw [List.mem_cons, not_or]
      exact ⟨fun h => hc h.symm, ih List.mem_cons_self⟩
    · exact ih (List.mem_cons_of_mem _ hline)

/-- A text that goes on after its last line feed is made of its lines. -/
theorem exists_lines_eq {cs : List Char} (hne : cs ≠ []) (hlast : cs.getLast hne ≠ '\n')
    (hreturn : '\r' ∉ cs) :
    ∃ done line, lines cs = done ++ [line] ∧ cs = unlines done ++ line := by
  induction cs using lines.induct with
  | case1 => exact absurd rfl hne
  | case2 cs ih =>
    have hcs : cs ≠ [] := by
      rintro rfl
      exact hlast rfl
    rw [List.getLast_cons hcs] at hlast
    obtain ⟨done, line, hlines, heq⟩ := ih hcs hlast fun h => hreturn (List.mem_cons_of_mem _ h)
    exact ⟨[] :: done, line, by rw [lines_lineFeed, hlines]; rfl, congrArg ('\n' :: ·) heq⟩
  | case3 cs ih => exact absurd List.mem_cons_self hreturn
  | case4 c cs hc hr hnil ih =>
    obtain rfl := lines_eq_nil.mp hnil
    exact ⟨[], [c], by rw [lines.eq_4 c [] hc hr, hnil]; rfl, rfl⟩
  | case5 c cs hc hr first others hlines ih =>
    have hcs : cs ≠ [] := by
      rintro rfl
      cases hlines
    rw [List.getLast_cons hcs] at hlast
    obtain ⟨done, line, hsplit, heq⟩ := ih hcs hlast fun h => hreturn (List.mem_cons_of_mem _ h)
    rw [lines.eq_4 c cs hc hr, hlines]
    rw [hlines] at hsplit
    -- the character goes to the first line, which may be the last one too
    cases done with
    | nil =>
      obtain ⟨rfl, rfl⟩ := List.cons.inj hsplit
      exact ⟨[], c :: first, rfl, congrArg (c :: ·) heq⟩
    | cons before done =>
      obtain ⟨rfl, rfl⟩ := List.cons.inj hsplit
      exact ⟨(c :: first) :: done, line, rfl, congrArg (c :: ·) heq⟩

/-- What stands before and after the last line feed, if there is one. -/
theorem exists_lastLineFeed (cs : List Char) :
    '\n' ∉ cs ∨ ∃ front back, cs = front ++ '\n' :: back ∧ '\n' ∉ back := by
  by_cases hfeed : '\n' ∈ cs
  · obtain ⟨back, front, hsplit, hback⟩ :=
      List.eq_append_cons_of_mem (List.mem_reverse.mpr hfeed)
    refine .inr ⟨front.reverse, back.reverse, ?_, fun h => hback (List.mem_reverse.mp h)⟩
    rw [← List.reverse_reverse cs, hsplit, List.reverse_append, List.reverse_cons,
      List.append_assoc, List.singleton_append]
  · exact .inl hfeed

/-- The last line of a text goes on with what is put after the text. -/
theorem exists_lastLine {cs : List Char} (hne : cs ≠ [])
    (hlast : isBlank (cs.getLast hne) = false) :
    ∃ done line, ∀ rest,
      lines (cs ++ rest) = done ++ (line ++ (lines rest).headD []) :: (lines rest).tail := by
  obtain hfeed | ⟨front, back, rfl, hline⟩ := exists_lastLineFeed cs
  · exact ⟨[], cs, fun rest => lines_append hne hlast hfeed rest⟩
  · -- the text does not end with its last line feed
    have hback : back ≠ [] := by
      rintro rfl
      simp only [List.getLast_append_of_ne_nil _ (List.cons_ne_nil _ _),
        List.getLast_singleton] at hlast
      exact absurd hlast (by decide)
    have hend : isBlank (back.getLast hback) = false := by
      simpa only [List.getLast_append_of_ne_nil _ (List.cons_ne_nil _ _),
        List.getLast_cons hback] using hlast
    refine ⟨lines (front ++ ['\n']), back, fun rest => ?_⟩
    rw [List.append_assoc, List.cons_append, lines_break, lines_append hback hend hline]

/-- A line end after a text ends its last line, of which a carriage return may go with it, or makes
an empty one. -/
theorem exists_lines_lineFeed (cs : List Char) :
    lines (cs ++ ['\n']) = lines cs ++ [[]] ∨
    ∃ done line ws, allBlank ws = true ∧ lines cs = done ++ [line ++ ws] ∧
      lines (cs ++ ['\n']) = done ++ [line] := by
  have hlast : ∀ back : List Char, '\n' ∉ back → back ≠ [] →
      ∃ line ws, allBlank ws = true ∧ lines back = [line ++ ws] ∧
        lines (back ++ ['\n']) = [line] := by
    intro back hfeed hne
    obtain ⟨line, ws, rfl, hws, hlines⟩ := exists_firstLine_blank hfeed []
    exact ⟨line, ws, hws, lines_eq_singleton hne hfeed, hlines⟩
  obtain hfeed | ⟨front, back, rfl, hfeed⟩ := exists_lastLineFeed cs
  · by_cases hne : cs = []
    · subst hne
      exact .inl rfl
    · obtain ⟨line, ws, hws, hback, hlines⟩ := hlast cs hfeed hne
      exact .inr ⟨[], line, ws, hws, hback, hlines⟩
  · rw [List.append_assoc, List.cons_append, lines_break front, lines_break front back]
    by_cases hne : back = []
    · subst hne
      exact .inl (by rw [List.append_assoc]; rfl)
    · obtain ⟨line, ws, hws, hback, hlines⟩ := hlast back hfeed hne
      exact .inr ⟨_, line, ws, hws, by rw [hback], by rw [hlines]⟩

/-- The lines of a text have no more characters than the text. -/
theorem length_flatten_lines (cs : List Char) : (lines cs).flatten.length ≤ cs.length := by
  induction cs using lines.induct with
  | case1 => exact Nat.le_refl _
  | case2 cs ih =>
    rw [lines_lineFeed, List.flatten_cons, List.nil_append, List.length_cons]
    omega
  | case3 cs ih =>
    rw [lines.eq_3, List.flatten_cons, List.nil_append, List.length_cons, List.length_cons]
    omega
  | case4 c cs hc hr hnil ih =>
    rw [lines.eq_4 c cs hc hr, hnil, List.flatten_singleton, List.length_cons, List.length_cons]
    exact Nat.succ_le_succ (Nat.zero_le _)
  | case5 c cs hc hr first others hlines ih =>
    rw [hlines, List.flatten_cons] at ih
    rw [lines.eq_4 c cs hc hr, hlines, List.flatten_cons, List.cons_append, List.length_cons,
      List.length_cons]
    exact Nat.succ_le_succ ih

/-- Without the blanks at its end a text that is not blank has the same lines, up to blanks in its
last line and blank lines after that. -/
theorem lines_trimRight {cs : List Char} (hcs : allBlank cs = false) :
    ∃ done line ws blanks, allBlank ws = true ∧ (∀ blank ∈ blanks, allBlank blank = true) ∧
      lines cs = done ++ (line ++ ws) :: blanks ∧
      ∀ rest, lines (trimRight isBlank cs ++ '\n' :: rest) = done ++ line :: lines rest := by
  obtain ⟨ws, hws, hsplit⟩ := exists_trimRight cs
  have hne : trimRight isBlank cs ≠ [] := fun h => by
    rw [hsplit, h, List.nil_append, hws] at hcs
    cases hcs
  have hlast : isBlank ((trimRight isBlank cs).getLast hne) = false := by
    simp only [trimRight, List.getLast_reverse]
    exact List.head_dropWhile_not isBlank _
  obtain ⟨done, line, hlines⟩ := exists_lastLine hne hlast
  -- the last line goes on up to the first line end that was cut off, and the others are blank
  have hblank : ∀ blank ∈ lines ws, allBlank blank = true := fun _ => allBlank_of_mem_lines hws
  refine ⟨done, line, (lines ws).headD [], (lines ws).tail, ?_,
    fun blank hmem => hblank blank (List.mem_of_mem_tail hmem), ?_, fun rest => ?_⟩
  · cases hfirst : lines ws with
    | nil => rfl
    | cons first others => exact hblank first (by simp [hfirst])
  · rw [← hlines, ← hsplit]
  · rw [hlines, lines_lineFeed, List.headD_cons, List.append_nil, List.tail_cons]

end Migrations.Text
