import Mathlib.Data.List.Infix
import Migrations.Proofs.Script.Unfilled
import Migrations.Proofs.Text.Slice
import Migrations.Script.InPlace

/-!
# Filling in Place Is Filling

The loops that fill a text in place never ask for a slice that is refused, and they come to an end
with the text that reading and filling its pieces gives.  What makes the look back at one byte safe
is that the text before the offset ends with a brace whenever there is any, so a backslash before an
opener has not been copied yet.

## Main statements

- `InPlace.Stands`: how the text is divided where the loops stand.
- `InPlace.stands_step`: every turn divides the text further.
- `InPlace.run_fills`: no slice is refused, the offset advances, and the text is filled.
-/

namespace Migrations

open Text

namespace Placeholder

variable {lookup : List Char → Option (List Char)} {cs gap name rest : List Char}

/-! ## What is filled up to an opener -/

theorem fill_append_literal (hcs : ¬ opener <:+: cs) (hrest : rest.head? ≠ some '{')
    (hlast : cs.getLast? = some '\\' → ¬ opener <+: rest) :
    fill lookup (cs ++ rest) = cs ++ fill lookup rest := by
  rw [fill, read_literal hcs hrest hlast, List.flatMap_append, List.flatMap_map]
  simp [Piece.fill, fill]

theorem fill_literal (hcs : ¬ opener <:+: cs) : fill lookup cs = cs := by
  have hnil : fill lookup [] = [] := by
    rw [fill, read_nil]
    rfl
  have happend := @fill_append_literal lookup cs [] hcs (by simp) (by simp [opener])
  rwa [List.append_nil, hnil, List.append_nil] at happend

theorem fill_escapedOpener (hgap : ¬ opener <:+: gap) (rest : List Char) :
    fill lookup (gap ++ ['\\'] ++ (opener ++ rest)) = gap ++ opener ++ fill lookup rest := by
  have hread : fill lookup ('\\' :: (opener ++ rest)) = opener ++ fill lookup rest := by
    rw [fill, opener, List.cons_append, List.singleton_append, read_escapedOpener,
      List.flatMap_cons]
    rfl
  rw [List.append_assoc, List.singleton_append, fill_append_literal hgap (by simp), hread,
    List.append_assoc]
  simp [opener]

theorem fill_opener (hgap : ¬ opener <:+: gap) (hlast : gap.getLast? ≠ some '\\')
    (rest : List Char) :
    fill lookup (gap ++ (opener ++ rest)) = gap ++ fill lookup (opener ++ rest) :=
  fill_append_literal hgap (by simp [opener]) fun h => absurd h hlast

theorem fill_hole (h : name? cs = some (name, rest)) :
    fill lookup (opener ++ cs) =
      (lookup name).getD (opener ++ name ++ ['}']) ++ fill lookup rest := by
  rw [fill, read_hole h, List.flatMap_cons]
  rfl

theorem fill_unclosed (h : name? cs = none) : fill lookup (opener ++ cs) = opener ++ cs := by
  rw [fill, read_unclosed h]
  simp [Piece.fill]

/-! ## Names up to a brace -/

theorem name?_of_notMem (h : '}' ∉ cs) : name? cs = none := by
  cases hname : name? cs with
  | none => rfl
  | some result =>
    obtain ⟨name, rest⟩ := result
    rw [eq_escapedName_of_name? hname] at h
    simp at h

theorem name?_close (hgap : '}' ∉ gap) (hlast : gap.getLast? ≠ some '\\') (rest : List Char) :
    name? (gap ++ '}' :: rest) = some (gap, rest) := by
  have hname := name?_escapedName hlast rest
  rwa [(escapedName_eq_self gap).mpr hgap] at hname

theorem name?_escapedClose (hgap : '}' ∉ gap) (rest : List Char) :
    name? (gap ++ '\\' :: '}' :: rest) =
      (name? rest).map fun (name, after) => (gap ++ '}' :: name, after) := by
  induction gap with
  | nil => rfl
  | cons c gap ih =>
    obtain ⟨hc, hrest⟩ := List.ne_and_not_mem_of_not_mem_cons hgap
    have hescape : ∀ more, c = '\\' → gap ++ '\\' :: '}' :: rest = '}' :: more → False := by
      intro more _ hmore
      cases gap with
      | nil => simp at hmore
      | cons d gap =>
        obtain ⟨rfl, -⟩ := List.cons.inj hmore
        simp at hrest
    rw [List.cons_append, name?.eq_4 _ _ hescape (Ne.symm hc), ih hrest, Option.map_map]
    rfl

/-- What is written is read as the start of a name, which goes on with what the rest is read as. -/
def Continues (written name rest : List Char) : Prop :=
  name? (written ++ rest) = (name? rest).map fun (more, after) => (name ++ more, after)

theorem continues_nil (rest : List Char) : Continues [] [] rest := by
  rw [Continues, List.nil_append]
  cases name? rest <;> rfl

namespace Continues

variable {written : List Char}

theorem escapedClose (h : Continues written name (gap ++ ['\\'] ++ '}' :: rest))
    (hgap : '}' ∉ gap) :
    Continues (written ++ (gap ++ ['\\'] ++ ['}'])) (name ++ gap ++ ['}']) rest := by
  have hescape : gap ++ ['\\'] ++ '}' :: rest = gap ++ '\\' :: '}' :: rest := by simp
  have hwritten : written ++ (gap ++ ['\\'] ++ ['}']) ++ rest =
      written ++ (gap ++ ['\\'] ++ '}' :: rest) := by simp
  rw [Continues, hwritten, h, hescape, name?_escapedClose hgap, Option.map_map]
  congr 1
  funext result
  simp

theorem close (h : Continues written name (gap ++ '}' :: rest)) (hgap : '}' ∉ gap)
    (hlast : gap.getLast? ≠ some '\\') :
    name? (written ++ (gap ++ '}' :: rest)) = some (name ++ gap, rest) := by
  rw [h, name?_close hgap hlast]
  rfl

theorem unclosed (h : Continues written name rest) (hrest : '}' ∉ rest) :
    name? (written ++ rest) = none := by
  rw [h, name?_of_notMem hrest]
  rfl

end Continues

end Placeholder

/-! ## Stages -/

namespace InPlace

open Placeholder

variable {lookup : List Char → Option (List Char)} {text front gap rest out : List Char}

/-- How the text is divided where the loops stand. -/
inductive Stands (lookup : List Char → Option (List Char)) (text : List Char) : Stage → Prop where
  /-- The part before the offset is filled, and the next opener comes after a gap. -/
  | opener {front gap rest out : List Char} {start offset : Nat}
    (htext : text = front ++ (gap ++ (opener ++ rest))) (hoffset : size front = offset)
    (hstart : size (front ++ gap) = start) (hfront : front.getLast? ≠ some '\\')
    (hgap : ¬ opener <:+: gap)
    (hout : out ++ fill lookup (gap ++ (opener ++ rest)) = fill lookup text) :
    Stands lookup text (.opener start offset out)
  /-- Some of the name is written after the opener, and the rest of it comes after the offset. -/
  | name {front written rest name out : List Char} {start offset : Nat} {close : Option Nat}
    (htext : text = front ++ (opener ++ (written ++ rest))) (hstart : size front = start)
    (hoffset : size (front ++ (opener ++ written)) = offset)
    (hclose : findFrom? ['}'] text offset = some close)
    (hname : Continues written name rest)
    (hout : out ++ fill lookup (opener ++ (written ++ rest)) = fill lookup text) :
    Stands lookup text (.name start offset close name out)
  | finished : Stands lookup text (.finished (fill lookup text))

/-- How far the text is read, as long as it is not filled. -/
def Stage.offset? : Stage → Option Nat
  | opener _ offset _ => some offset
  | name _ offset _ _ _ => some offset
  | finished _ => none

/-- The offset advances, unless the text is filled then. -/
def Stage.Advances (stage next : Stage) : Prop :=
  ∀ later ∈ next.offset?, ∃ offset ∈ stage.offset?, offset < later

/-- A backslash before an opener or a brace comes after the offset, so the slice that ends before it
does not end before it starts. -/
def Stage.LooksBack (text : List Char) : Stage → Prop
  | opener start offset _ => escaped? text 0 start = some true → 0 < start ∧ offset ≤ start - 1
  | name _ offset (some close) _ _ =>
    escaped? text offset close = some true → 0 < close ∧ offset ≤ close - 1
  | _ => True

theorem escaped?_eq (front gap rest : List Char) :
    escaped? (front ++ (gap ++ rest)) (size front) (size (front ++ gap)) =
      some (decide (gap.getLast? = some '\\')) := by
  rw [escaped?, size_append]
  by_cases hnil : gap = []
  · simp [hnil]
  · have hpos : 0 < size gap := Nat.pos_of_ne_zero fun h => hnil (size_eq_zero.mp h)
    have hlast : (front ++ gap).getLast? = gap.getLast? := by
      rw [List.getLast?_append, Option.or_of_isSome (List.getLast?_isSome.mpr hnil)]
    rw [if_pos (by omega), ← size_append, ← List.append_assoc,
      getElem?_bytes (List.append_ne_nil_of_right_ne_nil _ hnil), hlast]

/-- Since the part before the offset does not end with a backslash, one before the opener stands in
the gap. -/
theorem escaped?_opener (htext : text = front ++ (gap ++ rest))
    (hfront : front.getLast? ≠ some '\\') :
    escaped? text 0 (size (front ++ gap)) = some (decide (gap.getLast? = some '\\')) := by
  have hlast : (front ++ gap).getLast? = some '\\' ↔ gap.getLast? = some '\\' := by
    rw [List.getLast?_append]
    cases gap.getLast? with
    | none => simp [hfront]
    | some c => simp
  have hbyte := escaped?_eq [] (front ++ gap) rest
  rw [List.nil_append, List.append_assoc, ← htext] at hbyte
  exact hbyte.trans (congrArg some (decide_eq_decide.mpr hlast))

/-- Where the rest of the text goes on that is still to be filled: at the next opener, or at the
end. -/
theorem stands_seek (htext : text = front ++ rest)
    (hfront : front.getLast? = some '\\' → rest = [])
    (hout : out ++ fill lookup rest = fill lookup text) :
    ∃ next, seek text (size front) out = some next ∧ Stands lookup text next ∧
      ∀ later ∈ next.offset?, later = size front := by
  subst htext
  rw [seek, findFrom?_append]
  cases hbreak : breakOn opener rest with
  | none =>
    have hout' : out ++ rest = fill lookup (front ++ rest) := by
      rw [← hout, fill_literal (breakOn_eq_none hbreak)]
    refine ⟨.finished (out ++ rest), ?_, ?_, nofun⟩
    · show (slice? (front ++ rest) (size front) (size (front ++ rest))).bind _ = _
      rw [slice?_size]
      rfl
    · rw [hout']
      exact .finished
  | some result =>
    obtain ⟨gap, after⟩ := result
    obtain ⟨rfl, hgap⟩ := exists_breakOn (by simp [opener]) hbreak
    have hlast : front.getLast? ≠ some '\\' := by
      intro h
      simpa [opener] using hfront h
    refine ⟨_, rfl, ?_, by simp [Stage.offset?]⟩
    exact .opener rfl rfl (size_append front gap) hlast hgap hout

/-- At the end of the text there is nothing left to fill. -/
theorem seek_size (text out : List Char) : seek text (size text) out = some (.finished out) := by
  have hfound := findFrom?_append opener text []
  have hslice := slice?_size text []
  rw [List.append_nil] at hfound hslice
  rw [seek, hfound, Option.bind_eq_bind, Option.bind_some]
  show (slice? text (size text) (size text)).bind _ = _
  rw [hslice, Option.bind_some, List.append_nil]
  rfl

/-! ## One turn -/

section

variable {start offset close : Nat} {name part : List Char} {found : Option Nat}

theorem step_escapedOpener (hescaped : escaped? text 0 start = some true)
    (hpart : slice? text offset (start - 1) = some part) :
    step lookup text (.opener start offset out) =
      seek text (start + size opener) (out ++ part ++ opener) := by
  simp [step, hescaped, hpart]

theorem step_opener (hescaped : escaped? text 0 start = some false)
    (hpart : slice? text offset start = some part)
    (hfound : findFrom? ['}'] text (start + size opener) = some found) :
    step lookup text (.opener start offset out) =
      some (.name start (start + size opener) found [] (out ++ part)) := by
  simp [step, hescaped, hpart, hfound]

theorem step_escapedClose (hescaped : escaped? text offset close = some true)
    (hpart : slice? text offset (close - 1) = some part)
    (hfound : findFrom? ['}'] text (close + 1) = some found) :
    step lookup text (.name start offset (some close) name out) =
      some (.name start (close + 1) found (name ++ part ++ ['}']) out) := by
  simp [step, hescaped, hpart, hfound]

theorem step_close (hescaped : escaped? text offset close = some false)
    (hpart : slice? text offset close = some part) :
    step lookup text (.name start offset (some close) name out) =
      seek text (close + 1)
        (out ++ (lookup (name ++ part)).getD (opener ++ (name ++ part) ++ ['}'])) := by
  simp [step, hescaped, hpart]

theorem step_unclosed (hpart : slice? text start (size text) = some part) :
    step lookup text (.name start offset none name out) =
      seek text (size text) (out ++ part) := by
  simp [step, hpart]

end

/-- The part of a gap before a backslash at its end, which is one byte. -/
theorem slice?_backslash (front part rest : List Char) :
    slice? (front ++ (part ++ ['\\'] ++ rest)) (size front)
      (size (front ++ (part ++ ['\\'])) - 1) = some part := by
  have hsize : size (front ++ (part ++ ['\\'])) - 1 = size (front ++ part) := by
    rw [← List.append_assoc, size_append, show size ['\\'] = 1 from rfl, Nat.add_sub_cancel]
  rw [hsize, List.append_assoc]
  exact slice?_append front part _

/-- At an opener: after a backslash it is copied, and else a name starts after it. -/
theorem stands_step_opener (htext : text = front ++ (gap ++ (opener ++ rest)))
    (hfront : front.getLast? ≠ some '\\') (hgap : ¬ opener <:+: gap)
    (hout : out ++ fill lookup (gap ++ (opener ++ rest)) = fill lookup text) :
    ∃ next, step lookup text (.opener (size (front ++ gap)) (size front) out) = some next ∧
      Stands lookup text next ∧ ∀ later ∈ next.offset?, size front < later := by
  have hescaped := escaped?_opener htext hfront
  have hopener : size (front ++ gap) + size opener = size (front ++ gap ++ opener) :=
    (size_append ..).symm
  have hlater : size front < size (front ++ gap ++ opener) := by
    have hpos : 0 < size opener := by decide
    rw [size_append, size_append]
    omega
  have hsplit : text = front ++ gap ++ opener ++ rest := by simp [htext]
  by_cases hlast : gap.getLast? = some '\\'
  · obtain ⟨part, rfl⟩ := List.getLast?_eq_some_iff.mp hlast
    have hpart : ¬ opener <:+: part := fun h => hgap (h.trans (List.prefix_append ..).isInfix)
    -- the backslash is the last byte of the gap, so it comes after the offset
    have hslice : slice? text (size front) (size (front ++ (part ++ ['\\'])) - 1) = some part :=
      htext ▸ slice?_backslash front part (opener ++ rest)
    have hfill : out ++ part ++ opener ++ fill lookup rest = fill lookup text := by
      rw [← hout, fill_escapedOpener hpart]
      simp
    obtain ⟨next, hseek, hnext, hoffset⟩ := stands_seek hsplit (by simp [opener]) hfill
    rw [step_escapedOpener (by simp [hescaped]) hslice, hopener]
    exact ⟨next, hseek, hnext, fun later h => hoffset later h ▸ hlater⟩
  · have hslice : slice? text (size front) (size (front ++ gap)) = some gap :=
      htext ▸ slice?_append front gap (opener ++ rest)
    have hfound := findFrom?_append ['}'] (front ++ gap ++ opener) rest
    rw [← hsplit, ← hopener] at hfound
    have hhead : text = front ++ gap ++ (opener ++ ([] ++ rest)) := by simp [htext]
    have hoffset : size (front ++ gap ++ (opener ++ [])) = size (front ++ gap) + size opener := by
      rw [hopener, List.append_nil]
    have hfill : out ++ gap ++ fill lookup (opener ++ ([] ++ rest)) = fill lookup text := by
      rw [← hout, fill_opener hgap hlast, List.append_assoc, List.nil_append]
    rw [step_opener (by simp [hescaped, hlast]) hslice hfound]
    refine ⟨_, rfl, .name hhead rfl hoffset hfound (continues_nil rest) hfill, ?_⟩
    simpa [Stage.offset?, hopener] using hlater

/-- At a brace: after a backslash it belongs to the name, and else the placeholder is complete. -/
theorem stands_step_close {written gap after name : List Char}
    (htext : text = front ++ (opener ++ (written ++ (gap ++ '}' :: after))))
    (hgap : '}' ∉ gap)
    (hname : Continues written name (gap ++ '}' :: after))
    (hout : out ++ fill lookup (opener ++ (written ++ (gap ++ '}' :: after))) =
      fill lookup text) :
    ∃ next, step lookup text (.name (size front) (size (front ++ (opener ++ written)))
        (some (size (front ++ (opener ++ written) ++ gap))) name out) = some next ∧
      Stands lookup text next ∧
      ∀ later ∈ next.offset?, size (front ++ (opener ++ written)) < later := by
  generalize hhead : front ++ (opener ++ written) = head
  have hsplit : text = head ++ (gap ++ '}' :: after) := by simp [htext, ← hhead]
  have hescaped : escaped? text (size head) (size (head ++ gap)) =
      some (decide (gap.getLast? = some '\\')) :=
    hsplit ▸ escaped?_eq head gap ('}' :: after)
  have hclose : size (head ++ gap) + 1 = size (head ++ (gap ++ ['}'])) := by
    rw [← List.append_assoc, size_append _ ['}']]
    rfl
  have hrest : text = head ++ (gap ++ ['}']) ++ after := by simp [hsplit]
  have hlater : size head < size (head ++ gap) + 1 := by
    rw [size_append]
    omega
  by_cases hlast : gap.getLast? = some '\\'
  · obtain ⟨part, rfl⟩ := List.getLast?_eq_some_iff.mp hlast
    have hpart : '}' ∉ part := fun h => hgap (List.mem_append_left _ h)
    have hslice : slice? text (size head) (size (head ++ (part ++ ['\\'])) - 1) = some part :=
      hsplit ▸ slice?_backslash head part ('}' :: after)
    have hfound := findFrom?_append ['}'] (head ++ (part ++ ['\\'] ++ ['}'])) after
    rw [← hrest, ← hclose] at hfound
    have hwritten : written ++ (part ++ ['\\'] ++ '}' :: after) =
        written ++ (part ++ ['\\'] ++ ['}']) ++ after := by simp
    have hoffset : size (front ++ (opener ++ (written ++ (part ++ ['\\'] ++ ['}'])))) =
        size (head ++ (part ++ ['\\'])) + 1 := by
      rw [hclose, ← hhead]
      simp
    rw [hwritten] at htext hout
    rw [step_escapedClose (by simp [hescaped]) hslice hfound]
    exact ⟨_, rfl, .name htext rfl hoffset hfound (hname.escapedClose hpart) hout,
      by simpa [Stage.offset?] using hlater⟩
  · have hslice : slice? text (size head) (size (head ++ gap)) = some gap :=
      hsplit ▸ slice?_append head gap ('}' :: after)
    have hfill : out ++ (lookup (name ++ gap)).getD (opener ++ (name ++ gap) ++ ['}']) ++
        fill lookup after = fill lookup text := by
      rw [← hout, fill_hole (hname.close hgap hlast), List.append_assoc]
    obtain ⟨next, hseek, hnext, hoffset⟩ := stands_seek hrest (by simp) hfill
    rw [step_close (by simp [hescaped, hlast]) hslice, hclose]
    exact ⟨next, hseek, hnext, fun later h => hoffset later h ▸ hclose ▸ hlater⟩

/-- Without a brace that closes it, a placeholder is copied with all that comes after it. -/
theorem stands_step_unclosed {written name : List Char} {offset : Nat}
    (htext : text = front ++ (opener ++ (written ++ rest))) (hrest : '}' ∉ rest)
    (hname : Continues written name rest)
    (hout : out ++ fill lookup (opener ++ (written ++ rest)) = fill lookup text) :
    step lookup text (.name (size front) offset none name out) =
      some (.finished (fill lookup text)) := by
  have hslice : slice? text (size front) (size text) = some (opener ++ (written ++ rest)) :=
    htext ▸ slice?_size front _
  rw [fill_unclosed (hname.unclosed hrest)] at hout
  rw [step_unclosed hslice, hout, seek_size]

/-- Every turn divides the text further. -/
theorem stands_step {stage : Stage} (h : Stands lookup text stage) :
    ∃ next, step lookup text stage = some next ∧ Stands lookup text next ∧
      stage.Advances next := by
  cases h with
  | opener htext hoffset hstart hfront hgap hout =>
    subst hoffset hstart
    obtain ⟨next, hstep, hnext, hlater⟩ := stands_step_opener htext hfront hgap hout
    exact ⟨next, hstep, hnext, fun later h => ⟨_, rfl, hlater later h⟩⟩
  | @name front written rest name out start offset close htext hstart hoffset hclose hname hout =>
    subst hstart hoffset
    have hsplit : text = front ++ (opener ++ written) ++ rest := by simp [htext]
    have hfound := findFrom?_append ['}'] (front ++ (opener ++ written)) rest
    rw [← hsplit, hclose, Option.some_inj] at hfound
    subst hfound
    cases hbreak : breakOn ['}'] rest with
    | none =>
      have hrest := breakOn_eq_none hbreak
      rw [List.singleton_infix_iff] at hrest
      exact ⟨_, stands_step_unclosed htext hrest hname hout, .finished, nofun⟩
    | some result =>
      obtain ⟨gap, after⟩ := result
      obtain ⟨rfl, hgap⟩ := exists_breakOn (by simp) hbreak
      rw [List.singleton_infix_iff] at hgap
      obtain ⟨next, hstep, hnext, hlater⟩ := stands_step_close htext hgap hname hout
      rw [size_append (front ++ (opener ++ written)) gap] at hstep
      exact ⟨next, hstep, hnext, fun later h => ⟨_, rfl, hlater later h⟩⟩
  | finished => exact ⟨_, rfl, .finished, nofun⟩

/-! ## The run -/

theorem Stands.looksBack {stage : Stage} (h : Stands lookup text stage) :
    stage.LooksBack text := by
  cases h with
  | @opener front gap rest out start offset htext hoffset hstart hfront hgap hout =>
    subst hoffset hstart
    intro hescaped
    rw [escaped?_opener htext hfront, Option.some_inj, decide_eq_true_iff] at hescaped
    have hne : gap ≠ [] := by
      intro hnil
      simp [hnil] at hescaped
    have hpos : 0 < size gap := Nat.pos_of_ne_zero fun h => hne (size_eq_zero.mp h)
    rw [size_append]
    omega
  | @name front written rest name out start offset close htext hstart hoffset hclose hname hout =>
    cases close with
    | none => trivial
    | some close =>
      intro hescaped
      rw [escaped?] at hescaped
      split at hescaped
      · omega
      · cases hescaped
  | finished => trivial

/-- The offset stands between two characters. -/
theorem Stands.isValid {text : String} {stage : Stage} (h : Stands lookup text.toList stage) :
    ∀ offset ∈ stage.offset?, String.Pos.Raw.IsValid text ⟨offset⟩ := by
  intro offset hoffset
  rw [isValid_iff]
  cases h with
  | opener htext hsize hstart hfront hgap hout =>
    cases hoffset
    exact ⟨_, _, htext, hsize⟩
  | @name front written rest name out start offset close htext hstart hsize hclose hname hout =>
    cases hoffset
    exact ⟨_, rest, by simp [htext], hsize⟩
  | finished => cases hoffset

theorem stands_first (lookup : List Char → Option (List Char)) (text : List Char) :
    Stands lookup text (first text) := by
  rw [first]
  cases hbreak : breakOn opener text with
  | none =>
    have hfill := @fill_literal lookup text (breakOn_eq_none hbreak)
    have hfinished := @Stands.finished lookup text
    rwa [hfill] at hfinished
  | some result =>
    obtain ⟨gap, rest⟩ := result
    obtain ⟨rfl, hgap⟩ := exists_breakOn (by simp [opener]) hbreak
    exact @Stands.opener lookup _ [] gap rest [] _ _ rfl rfl rfl (by simp) hgap rfl

/-- No turn is refused, and after so many of them the offset is at least that far. -/
theorem stands_run (lookup : List Char → Option (List Char)) (text : List Char) (n : Nat) :
    ∃ stage, run lookup text n = some stage ∧ Stands lookup text stage ∧
      ∀ offset ∈ stage.offset?, n ≤ offset := by
  induction n with
  | zero => exact ⟨_, rfl, stands_first lookup text, fun _ _ => Nat.zero_le _⟩
  | succ n ih =>
    obtain ⟨stage, hrun, hstage, hoffset⟩ := ih
    obtain ⟨next, hstep, hnext, hadvances⟩ := stands_step hstage
    have hrun' : run lookup text (n + 1) = some next := by
      rw [run, hrun]
      exact hstep
    refine ⟨next, hrun', hnext, fun later hlater => ?_⟩
    obtain ⟨offset, hmem, hlt⟩ := hadvances later hlater
    have hle := hoffset offset hmem
    omega

/-- A slice is granted only between two positions that are valid in the text, the first of them not
after the second; and in no text does filling in place ask for a slice that is refused.  At every
turn the offset stands between two characters and advances, and a backslash that an opener or a brace
looks back at comes after it.  So after as many turns as the text has bytes, and one more, the text
is filled, and it is filled with the same as by its pieces. -/
theorem run_fills (scope : Scope) (text : String) :
    let lookup name := (scope.lookup (String.ofList name)).map String.toList
    (∀ start stop, (slice? text.toList start stop).isSome ↔
      start ≤ stop ∧ String.Pos.Raw.IsValid text ⟨start⟩ ∧ String.Pos.Raw.IsValid text ⟨stop⟩) ∧
    (∀ n, ∃ stage next, run lookup text.toList n = some stage ∧
      run lookup text.toList (n + 1) = some next ∧ stage.Advances next ∧
      stage.LooksBack text.toList ∧
      ∀ offset ∈ stage.offset?, String.Pos.Raw.IsValid text ⟨offset⟩) ∧
    run lookup text.toList (text.utf8ByteSize + 1) = some (.finished (scope.fill text).toList) := by
  intro lookup
  refine ⟨fun _ _ => isSome_slice?, fun n => ?_, ?_⟩
  · obtain ⟨stage, hrun, hstage, -⟩ := stands_run lookup text.toList n
    obtain ⟨next, hstep, -, hadvances⟩ := stands_step hstage
    refine ⟨stage, next, hrun, ?_, hadvances, hstage.looksBack, hstage.isValid⟩
    rw [run, hrun]
    exact hstep
  · obtain ⟨stage, hrun, hstage, hoffset⟩ :=
      stands_run lookup text.toList (text.utf8ByteSize + 1)
    -- no offset of the text is that far
    have hnone : stage.offset? = none := by
      rw [Option.eq_none_iff_forall_not_mem]
      intro offset hmem
      obtain ⟨front, rest, htext, hsize⟩ := isValid_iff.mp (hstage.isValid offset hmem)
      have hle := hoffset offset hmem
      rw [utf8ByteSize_eq, htext, size_append] at hle
      omega
    cases hstage with
    | opener => cases hnone
    | name => cases hnone
    | finished => rw [hrun, Scope.fill, String.toList_ofList]

end InPlace

end Migrations
