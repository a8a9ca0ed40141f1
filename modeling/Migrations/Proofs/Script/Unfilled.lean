import Mathlib.Algebra.Order.BigOperators.Group.List
import Mathlib.Algebra.Order.Group.Nat
import Migrations.Proofs.Script.Placeholder

/-!
# Placeholders of Unknown Names

Reading a text loses nothing: each piece has the text that it was read from, and these texts put
together are the text.  Filling puts the pieces together again, and a placeholder whose name has no
text is put together from its name as it was read.  The backslashes that were before the braces of
that name are gone by then, and so a text stays as it is when there were none.

## Main statements

- `Placeholder.flatMap_source_read`: a text is what its pieces were read from.
- `Placeholder.fill_unknown_iff`: a text with unknown names only stays as it is exactly when no name
  in it has a brace.
-/

namespace Migrations

namespace Placeholder

variable {cs name rest : List Char}

/-! ## What was read -/

/-- The text that a piece is read from. -/
def Piece.source : Piece → List Char
  | .plain c => [c]
  | .escapedOpener => '\\' :: opener
  | .hole name => opener ++ (escapedName name ++ ['}'])
  | .unclosed rest => opener ++ rest

/-- What is read as a name is how the name is written. -/
theorem eq_escapedName_of_name? (h : name? cs = some (name, rest)) :
    cs = escapedName name ++ '}' :: rest := by
  -- by the cases of the reader: the end, an escaped brace, the closing brace, another character
  induction cs using name?.induct generalizing name with
  | case1 => cases h
  | case2 cs ih =>
    obtain ⟨⟨tail, others⟩, htail, heq⟩ := Option.map_eq_some_iff.mp h
    cases heq
    rw [escapedName_brace, List.cons_append, List.cons_append, ← ih htail]
  | case3 cs =>
    cases h
    rfl
  | case4 c cs hescape hbrace ih =>
    rw [name?.eq_4 c cs hescape hbrace] at h
    obtain ⟨⟨tail, others⟩, htail, heq⟩ := Option.map_eq_some_iff.mp h
    cases heq
    rw [escapedName_cons hbrace, List.cons_append, ← ih htail]

theorem read_unclosed (h : name? cs = none) : read (opener ++ cs) = [.unclosed cs] := by
  rw [opener, List.cons_append, List.singleton_append, read.eq_3]
  split
  · rename_i name rest hname
    rw [h] at hname
    cases hname
  · rfl

/-- A text is what its pieces were read from. -/
theorem flatMap_source_read (cs : List Char) : (read cs).flatMap Piece.source = cs := by
  -- each case of the reader takes one piece off the front of the text
  induction cs using read.induct with
  | case1 =>
    rw [read_nil]
    rfl
  | case2 cs ih =>
    rw [read_escapedOpener, List.flatMap_cons, ih]
    rfl
  | case3 cs name rest h _ ih =>
    have hread : read ('$' :: '{' :: cs) = .hole name :: read rest := read_hole h
    rw [hread, List.flatMap_cons, ih, Piece.source, List.append_assoc, List.append_assoc,
      List.singleton_append, ← eq_escapedName_of_name? h]
    rfl
  | case4 cs h =>
    have hread : read ('$' :: '{' :: cs) = [.unclosed cs] := read_unclosed h
    rw [hread, List.flatMap_cons, List.flatMap_nil, List.append_nil]
    rfl
  | case5 c cs hescape hopen ih =>
    rw [read.eq_4 c cs hescape hopen, List.flatMap_cons, ih]
    rfl

/-- An opener is read as escaped only where a backslash stands before it. -/
theorem escapedOpener_not_mem (hescape : ¬ '\\' :: opener <:+: cs) :
    Piece.escapedOpener ∉ read cs := by
  intro hmem
  obtain ⟨before, after, hread⟩ := List.append_of_mem hmem
  refine hescape ⟨before.flatMap Piece.source, after.flatMap Piece.source, ?_⟩
  calc before.flatMap Piece.source ++ '\\' :: opener ++ after.flatMap Piece.source
    _ = (read cs).flatMap Piece.source := by
      rw [hread, List.flatMap_append, List.flatMap_cons, ← List.append_assoc]
      rfl
    _ = cs := flatMap_source_read cs

/-- The names of the placeholders of a text, from left to right. -/
def names (cs : List Char) : List (List Char) :=
  (read cs).filterMap fun
    | .hole name => some name
    | _ => none

theorem mem_names : name ∈ names cs ↔ Piece.hole name ∈ read cs := by
  rw [names, List.mem_filterMap]
  constructor
  · rintro ⟨piece, hpiece, hname⟩
    cases piece with
    | hole other =>
      cases hname
      exact hpiece
    | plain | escapedOpener | unclosed => cases hname
  · intro h
    exact ⟨_, h, rfl⟩

/-! ## Names that stay -/

/-- Each brace of a name takes a backslash when the name is written. -/
theorem length_escapedName (name : List Char) :
    (escapedName name).length = name.length + name.count '}' := by
  induction name with
  | nil => rfl
  | cons c name ih =>
    by_cases hc : c = '}'
    · subst hc
      rw [escapedName_brace, List.count_cons_self]
      simp only [List.length_cons, ih]
      omega
    · rw [escapedName_cons hc, List.count_cons_of_ne hc]
      simp only [List.length_cons, ih]
      omega

theorem escapedName_eq_self (name : List Char) : escapedName name = name ↔ '}' ∉ name := by
  constructor
  · intro h
    have hlength := length_escapedName name
    rw [h] at hlength
    exact List.count_eq_zero.mp (by omega)
  · intro h
    have hsingle : ∀ c ∈ name, (if c = '}' then ['\\', '}'] else [c]) = [c] := by
      intro c hc
      exact if_neg (ne_of_mem_of_not_mem hc h)
    rw [escapedName, List.flatMap_congr hsingle, List.flatMap_singleton']

/-- Texts that are nowhere longer are equal only piece by piece. -/
theorem eq_of_flatMap_eq {α β : Type} {f g : α → List β} (hle : ∀ x, (f x).length ≤ (g x).length)
    {xs : List α} (h : xs.flatMap f = xs.flatMap g) : ∀ x ∈ xs, f x = g x := by
  induction xs with
  | nil => exact fun x hx => absurd hx List.not_mem_nil
  | cons x xs ih =>
    have hrest : (xs.flatMap f).length ≤ (xs.flatMap g).length := by
      rw [List.length_flatMap, List.length_flatMap]
      exact List.sum_le_sum fun y _ => hle y
    -- no part is longer on the left and the whole texts have one length, so no part is shorter
    have hlength := congrArg List.length h
    rw [List.flatMap_cons, List.flatMap_cons] at h
    simp only [List.flatMap_cons, List.length_append] at hlength
    have hx := hle x
    obtain ⟨hhead, htail⟩ := List.append_inj h (by omega)
    exact List.forall_mem_cons.mpr ⟨hhead, ih htail⟩

/-- The text that is left of a piece whose name has no text. -/
theorem fill_length_le_source (piece : Piece) :
    (piece.fill fun _ => none).length ≤ piece.source.length := by
  cases piece with
  | plain | unclosed => exact Nat.le_refl _
  | escapedOpener => exact Nat.le_succ _
  | hole name =>
    simp only [Piece.fill, Piece.source, Option.getD_none, List.length_append,
      length_escapedName name]
    omega

/-- A placeholder whose name has no text stays as it was written exactly when its name has no
brace. -/
theorem fill_hole_eq_source (name : List Char) :
    ((Piece.hole name).fill fun _ => none) = (Piece.hole name).source ↔ '}' ∉ name := by
  rw [← escapedName_eq_self, Piece.fill, Option.getD_none, Piece.source, ← List.append_assoc,
    List.append_left_inj, List.append_right_inj]
  exact eq_comm

/-- A text in which no backslash stands before an opener, and no name of a placeholder has a text in
any layer, stays as it is exactly when none of these names has a brace.  Openers that nothing closes
stay in any case. -/
theorem fill_unknown_iff (scope : Scope) (text : String)
    (hescape : ¬ '\\' :: opener <:+: text.toList)
    (hunknown : ∀ name ∈ names text.toList, scope.lookup (String.ofList name) = none) :
    scope.fill text = text ↔ ∀ name ∈ names text.toList, '}' ∉ name := by
  -- none of the names that are asked for has a text, so the scope might as well be empty
  have hfill : scope.fill text =
      String.ofList ((read text.toList).flatMap (Piece.fill fun _ => none)) := by
    refine congrArg String.ofList (List.flatMap_congr fun piece hpiece => ?_)
    cases piece with
    | hole name =>
      rw [Piece.fill, hunknown name (mem_names.mpr hpiece)]
      rfl
    | plain | escapedOpener | unclosed => rfl
  have hsource : String.ofList ((read text.toList).flatMap Piece.source) = text := by
    rw [flatMap_source_read, String.ofList_toList]
  constructor
  · intro hstays name hname
    have hpieces : (read text.toList).flatMap (Piece.fill fun _ => none) =
        (read text.toList).flatMap Piece.source :=
      String.ofList_injective (hfill.symm.trans (hstays.trans hsource.symm))
    -- no piece is filled with more than it was read from, so every piece stays as it was
    have hhole := eq_of_flatMap_eq fill_length_le_source hpieces _ (mem_names.mp hname)
    exact (fill_hole_eq_source name).mp hhole
  · intro hbrace
    refine hfill.trans (Eq.trans ?_ hsource)
    refine congrArg String.ofList (List.flatMap_congr fun piece hpiece => ?_)
    cases piece with
    | hole name => exact (fill_hole_eq_source name).mpr (hbrace name (mem_names.mpr hpiece))
    | escapedOpener => exact absurd hpiece (escapedOpener_not_mem hescape)
    | plain | unclosed => rfl

/-- A name with an opener in it, and an opener that only an escaped brace follows. -/
theorem fill_unknown_iff_nested :
    let scope : Scope := ⟨[.ofList [("b", "1")], .ofList [("open", "2")]]⟩
    let text := "$\x7ba$\x7bb\x7d\x7d $\x7bopen\\\x7d"
    ¬ '\\' :: opener <:+: text.toList ∧
    (∀ name ∈ names text.toList, scope.lookup (String.ofList name) = none) ∧
    (∀ name ∈ names text.toList, '}' ∉ name) ∧
    scope.fill text = text := by
  intro scope text
  have hescape : ¬ '\\' :: opener <:+: text.toList := by decide +kernel
  have hunknown : ∀ name ∈ names text.toList, scope.lookup (String.ofList name) = none := by
    decide +kernel
  have hbrace : ∀ name ∈ names text.toList, '}' ∉ name := by decide +kernel
  exact ⟨hescape, hunknown, hbrace, (fill_unknown_iff scope text hescape hunknown).mpr hbrace⟩

/-- Without any variable a backslash before a brace of a name is lost. -/
theorem fill_unknown_drops_escape :
    let text := "$\x7bx\\\x7dy\x7d"
    ¬ '\\' :: opener <:+: text.toList ∧
    (∀ name ∈ names text.toList, (Scope.mk []).lookup (String.ofList name) = none) ∧
    (Scope.mk []).fill text = "$\x7bx\x7dy\x7d" ∧ (Scope.mk []).fill text ≠ text := by
  decide +kernel

end Placeholder

end Migrations
