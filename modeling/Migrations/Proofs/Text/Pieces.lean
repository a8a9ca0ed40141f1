import Migrations.Proofs.Text.Line

/-!
# Pieces of a Text

How the pieces of a text come from the pieces of its parts.  A separator keeps what stands before it
and what stands behind it apart, so the runs of a text with a separator are those of both sides.

## Main statements

- `Text.pieces_append`: pieces around a separator.
- `Text.pieces_join`: texts that are put together are cut one by one.
- `Text.pieces_or`: cutting at two kinds of characters is cutting at the one and then at the other.
- `Text.runs_trim`: what is trimmed off has no runs.
-/

namespace Migrations.Text

variable {p q : Char → Bool} {c : Char} {cs : List Char}

/-! ## Pieces -/

theorem pieces_cons_of_pos (h : p c = true) (cs : List Char) :
    pieces p (c :: cs) = [] :: pieces p cs := by
  rw [pieces, if_pos h]

/-- A character that is not a separator belongs to the first piece. -/
theorem exists_pieces_cons (cs : List Char) (h : p c = false) :
    ∃ w ws, pieces p cs = w :: ws ∧ pieces p (c :: cs) = (c :: w) :: ws := by
  have hne : pieces p cs ≠ [] := by
    cases cs with
    | nil => exact List.cons_ne_nil _ _
    | cons d cs =>
      rw [pieces]
      split
      · exact List.cons_ne_nil _ _
      · split <;> exact List.cons_ne_nil _ _
  obtain ⟨w, ws, hpieces⟩ := List.exists_cons_of_ne_nil hne
  refine ⟨w, ws, hpieces, ?_⟩
  rw [pieces, h, hpieces]
  rfl

theorem pieces_append (h : p c = true) (front back : List Char) :
    pieces p (front ++ c :: back) = pieces p front ++ pieces p back := by
  induction front with
  | nil => exact pieces_cons_of_pos h back
  | cons d front ih =>
    cases hd : p d with
    | true =>
      rw [List.cons_append, pieces_cons_of_pos hd, pieces_cons_of_pos hd, ih, List.cons_append]
    | false =>
      obtain ⟨w, ws, hfront, hcons⟩ := exists_pieces_cons front hd
      obtain ⟨v, vs, hall, hlong⟩ := exists_pieces_cons (front ++ c :: back) hd
      -- the first piece of the whole text is the first piece of its front
      rw [ih, hfront] at hall
      obtain ⟨rfl, rfl⟩ := List.cons.inj hall
      rw [List.cons_append, hlong, hcons]
      rfl

theorem pieces_eq_singleton (h : ∀ c ∈ cs, p c = false) : pieces p cs = [cs] := by
  induction cs with
  | nil => rfl
  | cons c cs ih =>
    obtain ⟨w, ws, hrest, hcons⟩ := exists_pieces_cons cs (h c List.mem_cons_self)
    rw [ih fun d hd => h d (List.mem_cons_of_mem _ hd)] at hrest
    obtain ⟨rfl, rfl⟩ := List.cons.inj hrest
    exact hcons

theorem pieces_or (p q : Char → Bool) (cs : List Char) :
    pieces (fun c => p c || q c) cs = (pieces p cs).flatMap (pieces q) := by
  induction cs with
  | nil => rfl
  | cons c cs ih =>
    cases hp : p c with
    | true =>
      have hor : (p c || q c) = true := by rw [hp, Bool.true_or]
      rw [pieces_cons_of_pos hp, @pieces_cons_of_pos (fun c => p c || q c) c hor, ih]
      rfl
    | false =>
      obtain ⟨w, ws, hrest, hcons⟩ := exists_pieces_cons cs hp
      rw [hrest, List.flatMap_cons] at ih
      rw [hcons, List.flatMap_cons]
      cases hq : q c with
      | true =>
        have hor : (p c || q c) = true := by rw [hq, Bool.or_true]
        rw [pieces_cons_of_pos hq, @pieces_cons_of_pos (fun c => p c || q c) c hor, ih]
        rfl
      | false =>
        have hor : (p c || q c) = false := by rw [hp, hq, Bool.or_false]
        obtain ⟨v, vs, hfirst, hlong⟩ := exists_pieces_cons w hq
        obtain ⟨u, us, hall, hwhole⟩ := @exists_pieces_cons (fun c => p c || q c) c cs hor
        -- both cut the rest of the text in the same way, and the character goes in front of it
        rw [ih, hfirst] at hall
        obtain ⟨rfl, rfl⟩ := List.cons.inj hall
        rw [hwhole, hlong]
        rfl

/-- Texts that are put together with separators are cut one by one. -/
theorem pieces_join (h : p c = true) (w : List Char) (ws : List (List Char)) :
    pieces p (join [c] (w :: ws)) = (w :: ws).flatMap (pieces p) := by
  induction ws generalizing w with
  | nil => exact (List.append_nil _).symm
  | cons v vs ih =>
    have hjoin : join [c] (w :: v :: vs) = w ++ c :: join [c] (v :: vs) :=
      List.append_assoc w [c] _
    rw [hjoin, pieces_append h, ih]
    rfl

/-! ## Runs -/

theorem ne_nil_of_mem_runs {w : List Char} (h : w ∈ runs p cs) : w ≠ [] := by
  rintro rfl
  exact Bool.false_ne_true (List.mem_filter.mp h).2

theorem runs_append (h : p c = true) (front back : List Char) :
    runs p (front ++ c :: back) = runs p front ++ runs p back := by
  rw [runs, pieces_append h, List.filter_append]
  rfl

theorem runs_cons_of_pos (h : p c = true) (cs : List Char) : runs p (c :: cs) = runs p cs :=
  runs_append h [] cs

theorem runs_eq_nil (h : ∀ c ∈ cs, p c = true) : runs p cs = [] := by
  induction cs with
  | nil => rfl
  | cons c cs ih =>
    rw [runs_cons_of_pos (h c List.mem_cons_self)]
    exact ih fun d hd => h d (List.mem_cons_of_mem _ hd)

/-- Separators at the ends are not part of a run. -/
theorem runs_between {front back : List Char} (hfront : ∀ c ∈ front, p c = true)
    (hback : ∀ c ∈ back, p c = true) (cs : List Char) :
    runs p (front ++ cs ++ back) = runs p cs := by
  have hfirst : runs p (front ++ cs) = runs p cs := by
    induction front with
    | nil => rfl
    | cons c front ih =>
      rw [List.cons_append, runs_cons_of_pos (hfront c List.mem_cons_self)]
      exact ih fun d hd => hfront d (List.mem_cons_of_mem _ hd)
  cases back with
  | nil => rw [List.append_nil, hfirst]
  | cons c back =>
    rw [runs_append (hback c List.mem_cons_self), hfirst,
      runs_eq_nil fun d hd => hback d (List.mem_cons_of_mem _ hd), List.append_nil]

theorem runs_trim (h : ∀ c, isBlank c = true → p c = true) (cs : List Char) :
    runs p (trim cs) = runs p cs := by
  obtain ⟨front, back, hfront, hback, hcs⟩ := exists_trim cs
  have hwhole := runs_between (fun c hc => h c (allBlank_iff.mp hfront c hc))
    (fun c hc => h c (allBlank_iff.mp hback c hc)) (trim cs)
  rw [← hcs] at hwhole
  exact hwhole.symm

theorem runs_or (p q : Char → Bool) (cs : List Char) :
    runs (fun c => p c || q c) cs = (runs p cs).flatMap (runs q) := by
  rw [runs, pieces_or, List.filter_flatMap, runs]
  generalize pieces p cs = ws
  -- an empty piece has no runs
  induction ws with
  | nil => rfl
  | cons w ws ih =>
    cases w with
    | nil => exact ih
    | cons c w =>
      rw [List.flatMap_cons, List.filter_cons_of_pos rfl, List.flatMap_cons, ih]
      rfl

end Migrations.Text
