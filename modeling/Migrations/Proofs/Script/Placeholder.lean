import Mathlib.Data.List.Chain
import Migrations.Script.Placeholder

/-!
# Writing Texts with Placeholders

What a text with placeholders is written from comes back when it is read: text that stands for
itself, openers after a backslash, and names between an opener and a closing brace, in which a
backslash goes before each brace.  The parts are told apart where they meet, since none but text
starts with a brace, and text before a placeholder does not end with the backslash that would take
the opener for itself.

## Main statements

- `Placeholder.name?_escapedName`: a name that is written comes back, whatever follows.
- `Placeholder.read_literal`: text without an opener stands for itself.
- `Placeholder.read_written`: parts that are written are read as they are.
- `Placeholder.fill_escaped`: with a backslash before each opener a text stands for itself.
- `Placeholder.fill_written`: what is filled in takes the place of its name, and nothing else
  changes.
-/

namespace Migrations

namespace Placeholder

variable {c : Char} {cs rest : List Char}

/-! ## Equations of reading -/

theorem read_nil : read [] = [] := read.eq_1

theorem read_escapedOpener (cs : List Char) :
    read ('\\' :: '$' :: '{' :: cs) = .escapedOpener :: read cs := read.eq_2 cs

/-- A character that neither starts an opener nor escapes one. -/
theorem read_plain (hopen : ¬ opener <+: c :: cs) (hescape : c = '\\' → ¬ opener <+: cs) :
    read (c :: cs) = .plain c :: read cs := by
  refine read.eq_4 c cs (fun more hc hcs => ?_) (fun more hc hcs => ?_)
  · exact hescape hc ⟨more, hcs.symm⟩
  · subst hc hcs
    exact hopen ⟨more, rfl⟩

theorem read_hole {name : List Char} (h : name? cs = some (name, rest)) :
    read (opener ++ cs) = .hole name :: read rest := by
  rw [opener, List.cons_append, List.singleton_append, read.eq_3]
  split
  · rename_i other more hother
    rw [h] at hother
    cases hother
    rfl
  · rename_i hnone
    rw [h] at hnone
    cases hnone

/-! ## Names -/

/-- A name as it is written between the braces. -/
def escapedName (name : List Char) : List Char :=
  name.flatMap fun c => if c = '}' then ['\\', '}'] else [c]

theorem escapedName_brace (name : List Char) :
    escapedName ('}' :: name) = '\\' :: '}' :: escapedName name := rfl

theorem escapedName_cons (hc : c ≠ '}') (name : List Char) :
    escapedName (c :: name) = c :: escapedName name := by
  rw [escapedName, List.flatMap_cons, if_neg hc, List.singleton_append, escapedName]

/-- What is written for a name does not start with a brace. -/
theorem escapedName_append_ne {name : List Char} (hname : name ≠ []) (rest more : List Char) :
    escapedName name ++ rest ≠ '}' :: more := by
  cases name with
  | nil => exact absurd rfl hname
  | cons c name =>
    intro h
    by_cases hc : c = '}'
    · subst hc
      exact absurd (List.cons.inj h).1 (by decide)
    · rw [escapedName_cons hc] at h
      exact hc (List.cons.inj h).1

/-- A name that is written comes back, unless its last backslash goes with the closing brace. -/
theorem name?_escapedName {name : List Char} (hlast : name.getLast? ≠ some '\\')
    (rest : List Char) : name? (escapedName name ++ '}' :: rest) = some (name, rest) := by
  -- a backslash is written before a brace and before nothing else
  induction name with
  | nil => rw [escapedName, List.flatMap_nil, List.nil_append, name?]
  | cons c name ih =>
    have hname := ih fun h => hlast (by rw [List.getLast?_cons, h]; rfl)
    by_cases hc : c = '}'
    · subst hc
      rw [escapedName_brace, List.cons_append, List.cons_append, name?, hname]
      rfl
    · rw [escapedName_cons hc, List.cons_append, name?.eq_4 _ _ ?_ hc, hname]
      · rfl
      · -- the brace after a backslash would have to be the closing one
        intro more hbackslash hbrace
        by_cases hnil : name = []
        · exact hlast (by rw [hnil, hbackslash]; rfl)
        · exact escapedName_append_ne hnil _ more hbrace

/-! ## Texts without openers -/

/-- An opener does not go from a text into one that does not start with a brace. -/
theorem not_opener_append (hcs : cs ≠ []) (hopen : ¬ opener <+: cs)
    (hrest : rest.head? ≠ some '{') : ¬ opener <+: cs ++ rest := by
  rintro ⟨more, h⟩
  match cs with
  | [] => exact hcs rfl
  | [c] =>
    have htail := (List.cons.inj h).2
    exact hrest (congrArg List.head? htail.symm)
  | c :: d :: cs =>
    obtain ⟨rfl, htail⟩ := List.cons.inj h
    obtain ⟨rfl, -⟩ := List.cons.inj htail
    exact hopen ⟨cs, rfl⟩

/-- Text without an opener stands for itself, as long as none starts in it or is escaped by it. -/
theorem read_literal (hcs : ¬ opener <:+: cs) (hrest : rest.head? ≠ some '{')
    (hlast : cs.getLast? = some '\\' → ¬ opener <+: rest) :
    read (cs ++ rest) = cs.map .plain ++ read rest := by
  induction cs with
  | nil => rfl
  | cons c cs ih =>
    -- neither the character nor what follows it can be the start of an opener
    have htail : ¬ opener <:+: cs := fun h => hcs (List.infix_cons h)
    have hmore := ih htail fun h => hlast (by rw [List.getLast?_cons, h]; rfl)
    have hopen : ¬ opener <+: c :: (cs ++ rest) :=
      not_opener_append (List.cons_ne_nil c cs) (fun h => hcs h.isInfix) hrest
    have hescape : c = '\\' → ¬ opener <+: cs ++ rest := by
      rintro rfl
      by_cases hnil : cs = []
      · subst hnil
        exact hlast rfl
      · exact not_opener_append hnil (fun h => htail h.isInfix) hrest
    rw [List.cons_append, read_plain hopen hescape, hmore]
    rfl

/-! ## Parts -/

/-- What a text with placeholders is written from. -/
inductive Part where
  /-- Text that stands for itself. -/
  | literal (text : String)
  /-- An opener that stands for itself. -/
  | escapedOpener
  /-- The place of the text that a name has. -/
  | placeholder (name : String)
  deriving DecidableEq, Repr

namespace Part

/-- A part as it is written. -/
def written : Part → List Char
  | literal text => text.toList
  | escapedOpener => '\\' :: opener
  | placeholder name => opener ++ (escapedName name.toList ++ ['}'])

/-- The pieces that a part is read as. -/
def pieces : Part → List Piece
  | literal text => text.toList.map .plain
  | escapedOpener => [.escapedOpener]
  | placeholder name => [.hole name.toList]

/-- A part as it is filled in. -/
def filled (scope : Scope) : Part → List Char
  | literal text => text.toList
  | escapedOpener => opener
  | placeholder name => ((scope.lookup name).getD "").toList

/-- Parts that can follow each other: two texts would be one, and a backslash before a placeholder
would escape its opener. -/
def Before : Part → Part → Prop
  | literal _, literal _ => False
  | literal text, placeholder _ => text.toList.getLast? ≠ some '\\'
  | _, _ => True

instance : DecidableRel Before := fun
  | literal _, literal _ => inferInstanceAs (Decidable False)
  | literal _, escapedOpener => inferInstanceAs (Decidable True)
  | literal _, placeholder _ => inferInstanceAs (Decidable (_ ≠ _))
  | escapedOpener, _ => inferInstanceAs (Decidable True)
  | placeholder _, _ => inferInstanceAs (Decidable True)

/-- A part that can be written: there is no opener in a text, and the closing brace of a placeholder
is not escaped by the name. -/
def Sound : Part → Prop
  | literal text => ¬ opener <:+: text.toList
  | escapedOpener => True
  | placeholder name => name.toList.getLast? ≠ some '\\'

/-- The name of a placeholder has a text. -/
def Known (scope : Scope) : Part → Prop
  | placeholder name => (scope.lookup name).isSome = true
  | _ => True

instance : DecidablePred Sound := fun
  | literal _ => inferInstanceAs (Decidable (¬ _))
  | escapedOpener => inferInstanceAs (Decidable True)
  | placeholder _ => inferInstanceAs (Decidable (_ ≠ _))

instance (scope : Scope) : DecidablePred (Known scope) := fun
  | literal _ => inferInstanceAs (Decidable True)
  | escapedOpener => inferInstanceAs (Decidable True)
  | placeholder _ => inferInstanceAs (Decidable (_ = _))

end Part

/-- Parts that can be told apart when they are written one after the other. -/
structure Legible (parts : List Part) : Prop where
  sound : ∀ part ∈ parts, part.Sound
  apart : parts.IsChain Part.Before

theorem Legible.tail {part : Part} {parts : List Part} (h : Legible (part :: parts)) :
    Legible parts where
  sound := fun other hmem => h.sound other (List.mem_cons_of_mem _ hmem)
  apart := h.apart.tail

/-- What follows a text does not start with a brace, and no placeholder follows a backslash. -/
theorem Legible.after_literal {text : String} {parts : List Part}
    (h : Legible (.literal text :: parts)) :
    (parts.flatMap Part.written).head? ≠ some '{' ∧
      (text.toList.getLast? = some '\\' → ¬ opener <+: parts.flatMap Part.written) := by
  cases parts with
  | nil => exact ⟨by simp, fun _ hopen => absurd (List.prefix_nil.mp hopen) (by decide)⟩
  | cons part parts =>
    have hbefore : Part.Before (.literal text) part := h.apart.rel
    cases part with
    | literal other => exact hbefore.elim
    | escapedOpener =>
      refine ⟨by simp [Part.written], fun _ ⟨more, hmore⟩ => ?_⟩
      exact absurd (List.cons.inj hmore).1 (by decide)
    | placeholder name => exact ⟨by simp [Part.written, opener], fun hlast => absurd hlast hbefore⟩

/-- Parts that are written are read as they are. -/
theorem read_written {parts : List Part} (h : Legible parts) :
    read (parts.flatMap Part.written) = parts.flatMap Part.pieces := by
  -- what is written for the parts behind one part cannot change how that part is read
  induction parts with
  | nil => exact read_nil
  | cons part parts ih =>
    have hsound := h.sound part List.mem_cons_self
    rw [List.flatMap_cons, List.flatMap_cons, ← ih h.tail]
    cases part with
    | literal text =>
      obtain ⟨hrest, hlast⟩ := h.after_literal
      exact read_literal hsound hrest hlast
    | escapedOpener => exact read_escapedOpener _
    | placeholder name =>
      have hname := name?_escapedName hsound (parts.flatMap Part.written)
      rw [Part.written, List.append_assoc, List.append_assoc]
      exact read_hole hname

/-! ## Escaped texts -/

/-- The text with a backslash before each opener. -/
def escaped : List Char → List Char
  | [] => []
  | '$' :: '{' :: cs => '\\' :: '$' :: '{' :: escaped cs
  | c :: cs => c :: escaped cs

/-- A text that starts with a brace when it is escaped starts with it as it is. -/
theorem exists_of_escaped {more : List Char} (h : escaped cs = '{' :: more) :
    ∃ others, cs = '{' :: others := by
  unfold escaped at h
  split at h
  · cases h
  · exact absurd (List.cons.inj h).1 (by decide)
  · rename_i d others hother
    obtain ⟨rfl, -⟩ := List.cons.inj h
    exact ⟨others, rfl⟩

theorem not_opener_cons_escaped (hopen : ¬ opener <+: c :: cs) : ¬ opener <+: c :: escaped cs := by
  rintro ⟨more, h⟩
  obtain ⟨rfl, hmore⟩ := List.cons.inj h
  obtain ⟨others, rfl⟩ := exists_of_escaped hmore.symm
  exact hopen ⟨others, rfl⟩

/-- No opener starts an escaped text. -/
theorem not_opener_escaped (cs : List Char) : ¬ opener <+: escaped cs := by
  unfold escaped
  split
  · decide
  · rintro ⟨more, h⟩
    exact absurd (List.cons.inj h).1 (by decide)
  · rename_i d others hother
    refine not_opener_cons_escaped ?_
    rintro ⟨more, h⟩
    obtain ⟨rfl, hmore⟩ := List.cons.inj h
    exact hother more rfl hmore.symm

/-- With a backslash before each opener a text stands for itself. -/
theorem fill_escaped (lookup : List Char → Option (List Char)) (cs : List Char) :
    fill lookup (escaped cs) = cs := by
  -- by the cases of the escaping: the end, an opener, another character
  induction cs using escaped.induct with
  | case1 =>
    rw [escaped, fill, read_nil]
    rfl
  | case2 cs ih =>
    rw [escaped, fill, read_escapedOpener, List.flatMap_cons, ← fill, ih]
    rfl
  | case3 c cs hother ih =>
    have hopen : ¬ opener <+: c :: cs := by
      rintro ⟨more, h⟩
      obtain ⟨rfl, hmore⟩ := List.cons.inj h
      exact hother more rfl hmore.symm
    rw [escaped.eq_3 c cs hother, fill,
      read_plain (not_opener_cons_escaped hopen) fun _ => not_opener_escaped cs,
      List.flatMap_cons, ← fill, ih]
    rfl

/-! ## Filling -/

/-- The pieces of a part are filled in as the part is, when its name has a text. -/
theorem flatMap_fill_pieces {scope : Scope} {part : Part} (hknown : part.Known scope) :
    part.pieces.flatMap (Piece.fill fun name =>
      (scope.lookup (String.ofList name)).map String.toList) = part.filled scope := by
  cases part with
  | literal text =>
    rw [Part.pieces, List.flatMap_map]
    exact List.flatMap_singleton' text.toList
  | escapedOpener => rfl
  | placeholder name =>
    obtain ⟨value, hvalue⟩ := Option.isSome_iff_exists.mp hknown
    simp [Part.pieces, Part.filled, Piece.fill, hvalue]

/-- Parts that can be told apart are filled in one by one: text stays, an escaped opener becomes an
opener, and the text of a name takes the place of its placeholder as it is.  A text with a backslash
before each opener stays but for those backslashes, whatever names have a text. -/
theorem fill_written (scope : Scope) :
    (∀ parts : List Part, Legible parts → (∀ part ∈ parts, part.Known scope) →
      scope.fill (String.ofList (parts.flatMap Part.written)) =
        String.ofList (parts.flatMap (Part.filled scope))) ∧
    ∀ text : String, scope.fill (String.ofList (escaped text.toList)) = text := by
  refine ⟨fun parts hlegible hknown => ?_, fun text => ?_⟩
  · rw [Scope.fill, String.toList_ofList, fill, read_written hlegible, List.flatMap_assoc]
    exact congrArg String.ofList
      (List.flatMap_congr fun part hpart => flatMap_fill_pieces (hknown part hpart))
  · rw [Scope.fill, String.toList_ofList, fill_escaped, String.ofList_toList]

/-- The text `${\}}{$${n}\\${\${ü`, in which a name is a brace, a dollar sign stands before a
placeholder and a backslash before an escaped opener, and values that look like openers. -/
theorem fill_written_braces :
    let scope : Scope := ⟨[.ofList [("n", "old"), ("\x7d", "$\x7bn\x7d")],
      .ofList [("n", "\\$\x7b")]]⟩
    let parts : List Part := [.placeholder "\x7d", .literal "\x7b$", .placeholder "n",
      .literal "\\", .escapedOpener, .escapedOpener, .literal "ü"]
    String.ofList (parts.flatMap Part.written) =
      "$\x7b\\\x7d\x7d\x7b$$\x7bn\x7d\\\\$\x7b\\$\x7bü" ∧
    scope.fill (String.ofList (parts.flatMap Part.written)) =
      "$\x7bn\x7d" ++ "\x7b$" ++ "\\$\x7b" ++ "\\" ++ "$\x7b" ++ "$\x7b" ++ "ü" ∧
    scope.fill "\\\\$\x7bn\x7d" = "\\$\x7bn\x7d" := by
  intro scope parts
  have hlegible : Legible parts := ⟨by decide +kernel, by decide +kernel⟩
  have hfill := (fill_written scope).1 parts hlegible (by decide +kernel)
  have hescaped : String.ofList (escaped "\\$\x7bn\x7d".toList) = "\\\\$\x7bn\x7d" := by
    decide +kernel
  have hstays := (fill_written scope).2 "\\$\x7bn\x7d"
  rw [hescaped] at hstays
  refine ⟨by decide +kernel, hfill.trans ?_, hstays⟩
  decide +kernel

end Placeholder

end Migrations
