import Mathlib.Data.List.Induction
import Migrations.Proofs.Text.Occurrence
import Migrations.Text.Slice

/-!
# Sizes and Slices

A text that is put together from parts has slices where the parts are, and no slice is granted that
is not such a part.

## Main statements

- `Text.slice?_eq_some`: which parts of a text are its slices.
- `Text.isSome_slice?`: a slice is granted exactly between two positions that are valid in the text.
- `Text.getLast?_bytes`: the last byte of a text is a backslash exactly when its last character is
  one.
-/

namespace Migrations.Text

variable {cs front rest part : List Char} {start stop offset : Nat}

/-! ## Sizes -/

theorem bytes_append (cs rest : List Char) : bytes (cs ++ rest) = bytes cs ++ bytes rest :=
  List.flatMap_append

@[simp] theorem size_nil : size [] = 0 := rfl

theorem size_cons (c : Char) (cs : List Char) : size (c :: cs) = c.utf8Size + size cs := by
  simp [size, bytes]

theorem size_append (cs rest : List Char) : size (cs ++ rest) = size cs + size rest := by
  simp [size, bytes_append]

theorem size_eq_zero : size cs = 0 ↔ cs = [] := by
  cases cs with
  | nil => simp
  | cons c cs =>
    have hpos := c.utf8Size_pos
    simp [size_cons]
    omega

theorem utf8ByteSize_eq (text : String) : text.utf8ByteSize = size text.toList := by
  conv => lhs; rw [← text.ofList_toList]
  rw [String.utf8ByteSize, String.toByteArray_ofList, List.utf8Encode, List.size_toByteArray]
  rfl

/-! ## Slices -/

theorem split?_append (front rest : List Char) :
    split? (front ++ rest) (size front) = some (front, rest) := by
  induction front with
  | nil => cases rest <;> rfl
  | cons c front ih =>
    -- a character has bytes, so this is not the offset of the start
    have hpos := c.utf8Size_pos
    have hne : size (c :: front) = 0 → False := by
      rw [size_cons]
      omega
    have hle : c.utf8Size ≤ size (c :: front) := by simp [size_cons]
    rw [List.cons_append, split?.eq_3 _ _ _ hne, if_pos hle, size_cons, Nat.add_sub_cancel_left, ih]
    rfl

theorem split?_eq_some : split? cs offset = some (front, rest) ↔
    cs = front ++ rest ∧ size front = offset := by
  constructor
  · intro h
    induction cs, offset using split?.induct generalizing front with
    | case1 cs =>
      cases cs <;> cases h <;> exact ⟨rfl, rfl⟩
    | case2 n => cases h
    | case3 c cs offset hne hle ih =>
      rw [split?.eq_3 _ _ _ hne, if_pos hle] at h
      obtain ⟨⟨before, after⟩, hsplit, heq⟩ := Option.map_eq_some_iff.mp h
      cases heq
      obtain ⟨rfl, hsize⟩ := ih hsplit
      refine ⟨rfl, ?_⟩
      rw [size_cons, hsize]
      omega
    | case4 c cs offset hne hle =>
      rw [split?.eq_3 _ _ _ hne, if_neg hle] at h
      cases h
  · intro h
    obtain ⟨rfl, rfl⟩ := h
    exact split?_append front rest

theorem slice?_append (front part back : List Char) :
    slice? (front ++ (part ++ back)) (size front) (size (front ++ part)) = some part := by
  rw [slice?, ← List.append_assoc, split?_append (front ++ part)]
  simp [split?_append, guard, size_append]

/-- The slices of a text are its parts, and they are found by their offsets. -/
theorem slice?_eq_some : slice? cs start stop = some part ↔
    ∃ front back, cs = front ++ (part ++ back) ∧ size front = start ∧
      size (front ++ part) = stop := by
  constructor
  · intro h
    simp only [slice?, guard, Option.bind_eq_bind] at h
    obtain ⟨-, -, h⟩ := Option.bind_eq_some_iff.mp h
    obtain ⟨⟨both, back⟩, hboth, h⟩ := Option.bind_eq_some_iff.mp h
    obtain ⟨⟨front, part'⟩, hfront, h⟩ := Option.bind_eq_some_iff.mp h
    cases h
    obtain ⟨rfl, hstop⟩ := split?_eq_some.mp hboth
    obtain ⟨rfl, hstart⟩ := split?_eq_some.mp hfront
    exact ⟨front, back, List.append_assoc .., hstart, hstop⟩
  · intro h
    obtain ⟨front, back, rfl, rfl, rfl⟩ := h
    exact slice?_append front part back

/-- The part of a text from the end of another part to the end of the text. -/
theorem slice?_size (front rest : List Char) :
    slice? (front ++ rest) (size front) (size (front ++ rest)) = some rest := by
  simpa using slice?_append front rest []

/-- The positions that are valid in a text are the ones where it has parts. -/
theorem isValid_iff {text : String} : String.Pos.Raw.IsValid text ⟨offset⟩ ↔
    ∃ front rest, text.toList = front ++ rest ∧ size front = offset := by
  rw [String.Pos.Raw.isValid_iff_exists_append]
  constructor
  · intro h
    obtain ⟨front, rest, rfl, heq⟩ := h
    refine ⟨front.toList, rest.toList, by simp, ?_⟩
    rw [← utf8ByteSize_eq]
    exact (congrArg String.Pos.Raw.byteIdx heq).symm
  · intro h
    obtain ⟨front, rest, htext, rfl⟩ := h
    refine ⟨String.ofList front, String.ofList rest, ?_, ?_⟩
    · rw [← String.ofList_append, ← htext, String.ofList_toList]
    · have hsize := utf8ByteSize_eq (String.ofList front)
      rw [String.toList_ofList] at hsize
      exact congrArg String.Pos.Raw.mk hsize.symm

/-- A slice is granted exactly between two positions that are valid in the text, the first of them
not after the second. -/
theorem isSome_slice? {text : String} : (slice? text.toList start stop).isSome ↔
    start ≤ stop ∧ String.Pos.Raw.IsValid text ⟨start⟩ ∧ String.Pos.Raw.IsValid text ⟨stop⟩ := by
  rw [isValid_iff, isValid_iff, Option.isSome_iff_exists]
  constructor
  · intro h
    obtain ⟨part, hpart⟩ := h
    obtain ⟨front, back, htext, rfl, rfl⟩ := slice?_eq_some.mp hpart
    refine ⟨by simp [size_append], ⟨front, _, htext, rfl⟩, ⟨front ++ part, back, ?_, rfl⟩⟩
    rw [htext, List.append_assoc]
  · intro h
    obtain ⟨hle, ⟨front, rest, htext, rfl⟩, ⟨both, back, htext', rfl⟩⟩ := h
    -- both are beginnings of the text, and the longer one goes on where the shorter one ends
    rcases List.append_eq_append_iff.mp (htext.symm.trans htext') with
      ⟨part, rfl, -⟩ | ⟨more, rfl, -⟩
    · exact ⟨part, slice?_eq_some.mpr ⟨front, back, by simpa using htext', rfl, rfl⟩⟩
    · rw [size_append] at hle
      have hnil : more = [] := size_eq_zero.mp (by omega)
      subst hnil
      exact ⟨[], slice?_eq_some.mpr ⟨both, back, by simpa using htext', by simp, by simp⟩⟩

theorem findFrom?_append (d front rest : List Char) :
    findFrom? d (front ++ rest) (size front) =
      some ((breakOn d rest).map fun (before, _) => size front + size before) := by
  rw [findFrom?, slice?_size]
  rfl

/-! ## The byte before an offset -/

/-- Only the byte of a backslash is one: a character outside ASCII ends with a byte past ASCII. -/
theorem getLast?_utf8EncodeChar (c : Char) :
    (String.utf8EncodeChar c).getLast? = some 92 ↔ c = '\\' := by
  have hvalue : c = '\\' ↔ c.val.toNat = 92 := by
    rw [← Char.val_inj, ← UInt32.toNat_inj]
    rfl
  have hbyte : ∀ n : Nat, UInt8.ofNat n = 92 ↔ n % 256 = 92 := by
    intro n
    rw [← UInt8.toNat_inj, UInt8.toNat_ofNat']
    rfl
  rw [hvalue]
  simp only [String.utf8EncodeChar]
  generalize c.val.toNat = value
  split
  · simp only [List.getLast?_singleton, Option.some_inj, hbyte]
    omega
  · -- the last of several bytes has its highest bit set
    have hlast : ∀ front : List UInt8,
        (front ++ [UInt8.ofNat (value % 64 + 128)]).getLast? = some 92 ↔ value = 92 := by
      intro front
      simp only [List.getLast?_concat, Option.some_inj, hbyte]
      omega
    split
    · exact hlast [_]
    · split
      · exact hlast [_, _]
      · exact hlast [_, _, _]

theorem getLast?_bytes (cs : List Char) :
    (bytes cs).getLast? = some 92 ↔ cs.getLast? = some '\\' := by
  cases cs using List.reverseRecOn with
  | nil => simp [bytes]
  | append_singleton front c =>
    have hne : String.utf8EncodeChar c ≠ [] := by
      rw [← List.length_pos_iff, String.length_utf8EncodeChar]
      exact c.utf8Size_pos
    obtain ⟨last, hlast⟩ := Option.isSome_iff_exists.mp (List.getLast?_isSome.mpr hne)
    rw [bytes, List.flatMap_append, List.flatMap_singleton, List.getLast?_append, hlast,
      Option.some_or, ← hlast, getLast?_utf8EncodeChar, List.getLast?_concat, Option.some_inj]

/-- The byte before an offset is the last one of the part before it. -/
theorem getElem?_bytes (hfront : front ≠ []) (rest : List Char) :
    (bytes (front ++ rest))[size front - 1]?.map (· == 92) =
      some (decide (front.getLast? = some '\\')) := by
  have hsize : size front ≠ 0 := fun h => hfront (size_eq_zero.mp h)
  have hbytes : bytes front ≠ [] := fun h => hsize (congrArg List.length h)
  have hlt : size front - 1 < (bytes front).length := by
    show size front - 1 < size front
    omega
  obtain ⟨last, hlast⟩ := Option.isSome_iff_exists.mp (List.getLast?_isSome.mpr hbytes)
  have hget : (bytes (front ++ rest))[size front - 1]? = some last := by
    rw [bytes_append, List.getElem?_append_left hlt, ← hlast, List.getLast?_eq_getElem?]
    rfl
  have hiff := getLast?_bytes front
  rw [hlast, Option.some_inj] at hiff
  rw [hget, Option.map_some, Option.some_inj, Bool.eq_iff_iff, decide_eq_true_iff, beq_iff_eq,
    hiff]

end Migrations.Text
