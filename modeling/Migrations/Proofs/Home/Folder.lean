import Migrations.Home.Tree
import Migrations.Proofs.Procedure.Ending
import Migrations.Proofs.Text.Pieces

/-!
# Folders of the Tree

What a directory holds is decided by what stands at its place and below it.  A file that is created
directly in a directory is one more node there, and nothing else changes.

## Main statements

- `Path.directlyIn_join`: a single name is joined to a directory as its last name.
- `Home.place_join`: a single name leads from a directory to a place directly below it.
- `Home.SameFolder.list`, `Home.SameFolder.isFolder`: a directory that was left alone is listed as
  before.
- `Home.create_eq_ok`: when a file can be created, and that it is one more node then.
- `Home.gainsFile_of_create`: so the directory gains a file, whatever happens elsewhere.
- `Home.list_extended`: what is listed then.
-/

namespace Migrations

/-! ## Paths into a directory -/

/-- The text names one thing in a directory: there is no slash in it, and it leads neither to the
directory itself nor to the one above. -/
structure Path.Single (name : String) : Prop where
  noSlash : '/' ∉ name.toList
  ne_empty : name ≠ ""
  ne_dot : name ≠ "."
  ne_dots : name ≠ ".."

namespace Path

open Text

variable {dir : Path} {name : String}

theorem Single.pieces_eq (hname : Single name) :
    pieces (· == '/') name.toList = [name.toList] := by
  refine pieces_eq_singleton fun c hc => ?_
  rw [beq_eq_false_iff_ne]
  rintro rfl
  exact hname.noSlash hc

theorem Single.isAbsolute_eq (hname : Single name) : (Path.mk name).isAbsolute = false := by
  rw [isAbsolute, beq_eq_false_iff_ne]
  exact fun h => hname.noSlash (List.mem_of_head? h)

/-- The names of a path into a directory; a slash at the end of the directory counts for nothing. -/
theorem exists_names_join (dir : Path) (hname : Single name) :
    ∃ front, (dir.join name).names = front ++ [name] ∧
      (dir.names = front ∨ dir.names = front ++ [""]) := by
  by_cases hdir : dir.text = ""
  · refine ⟨[], ?_, .inr ?_⟩
    · rw [join, hname.isAbsolute_eq, hdir]
      simp [names, hname.pieces_eq]
    · rw [names, hdir]
      rfl
  have hthere : dir.text.isEmpty = false := by simpa using hdir
  -- the name is cut off at the slash in front of it
  have hcut : ∀ front : List Char, (pieces (· == '/') (front ++ '/' :: name.toList)).map
      String.ofList = (pieces (· == '/') front).map String.ofList ++ [name] := by
    intro front
    rw [pieces_append rfl, hname.pieces_eq, List.map_append, List.map_singleton,
      String.ofList_toList]
  -- a slash is put in front of the name unless the directory ends with one
  by_cases hlast : dir.text.toList.getLast? = some '/'
  · obtain ⟨front, hfront⟩ := List.getLast?_eq_some_iff.mp hlast
    refine ⟨(pieces (· == '/') front).map String.ofList, ?_, .inr ?_⟩
    · rw [join, hname.isAbsolute_eq, hthere, hlast]
      simp only [Bool.false_eq_true, if_false, BEq.rfl, Bool.or_true, if_true, names,
        String.toList_append, hfront, List.append_assoc, List.singleton_append]
      exact hcut front
    · rw [names, hfront, pieces_append rfl, List.map_append]
      rfl
  · refine ⟨dir.names, ?_, .inl rfl⟩
    have hother : (dir.text.toList.getLast? == some '/') = false := beq_eq_false_iff_ne.mpr hlast
    rw [join, hname.isAbsolute_eq, hthere, hother]
    simp only [Bool.false_eq_true, if_false, Bool.or_false, names, String.toList_append,
      List.append_assoc]
    exact hcut dir.text.toList

theorem isAbsolute_join (dir : Path) (hname : Single name) :
    (dir.join name).isAbsolute = dir.isAbsolute := by
  rw [join, hname.isAbsolute_eq]
  cases hdir : dir.text.toList with
  | nil =>
    obtain ⟨text⟩ := dir
    obtain rfl : text = "" := String.toList_eq_nil_iff.mp hdir
    simpa [isAbsolute] using hname.isAbsolute_eq
  | cons c cs =>
    -- whatever comes after it, the directory is where the path starts
    rw [if_neg Bool.false_ne_true]
    split <;> simp [isAbsolute, hdir]

/-- The names of a path that lead on: an empty name and a single dot do not. -/
def steps (path : Path) : List String :=
  path.names.filter (fun name => name ≠ "" && name ≠ ".")

/-- The path leads to one name directly in a directory, wherever the directory is. -/
structure DirectlyIn (path dir : Path) (name : String) : Prop where
  single : Single name
  steps : path.steps = dir.steps ++ [name]
  isAbsolute : path.isAbsolute = dir.isAbsolute
  fileName : path.fileName = name

theorem steps_join (dir : Path) (hname : Single name) :
    (dir.join name).steps = dir.steps ++ [name] := by
  obtain ⟨front, hnames, hfront⟩ := exists_names_join dir hname
  have hlast : [name].filter (fun name => name ≠ "" && name ≠ ".") = [name] := by
    simp [hname.ne_empty, hname.ne_dot]
  have hsame : dir.steps = front.filter (fun name => name ≠ "" && name ≠ ".") := by
    rcases hfront with hfront | hfront
    · rw [steps, hfront]
    · rw [steps, hfront, List.filter_append]
      exact List.append_nil _
  rw [steps, hnames, List.filter_append, hlast, hsame]

theorem directlyIn_join (dir : Path) (hname : Single name) :
    (dir.join name).DirectlyIn dir name where
  single := hname
  steps := steps_join dir hname
  isAbsolute := isAbsolute_join dir hname
  fileName := by
    have hlast : (dir.join name).steps.getLast? = some name := by
      rw [steps_join dir hname, List.getLast?_concat]
    rw [steps] at hlast
    rw [fileName, hlast]
    exact if_neg hname.ne_dots

end Path

namespace Home

variable {home other : Home} {path dir : Path} {place : List String} {name : String}

/-! ## Walking -/

theorem walk_append (home : Home) (path : Path) (place names more : List String) :
    home.walk path place (names ++ more) =
      home.walk path place names >>= fun last => home.walk path last more := by
  induction names generalizing place with
  | nil => rfl
  | cons name names ih =>
    rw [List.cons_append, walk, walk]
    split
    · rfl
    · rfl
    · split
      · exact ih place
      · split
        · exact ih place.dropLast
        · exact ih (place ++ [name])

/-- Where there are more directories, names that lead somewhere lead there still. -/
theorem walk_mono {path other' : Path} {place last names : List String}
    (h : ∀ place, home.node? place = some .folder → other.node? place = some .folder)
    (hwalk : home.walk path place names = .ok last) :
    other.walk other' place names = .ok last := by
  -- a walk only asks whether there are directories on its way
  induction names generalizing place with
  | nil => exact hwalk
  | cons name names ih =>
    rw [walk] at hwalk ⊢
    split at hwalk
    · cases hwalk
    · cases hwalk
    · rename_i hfolder
      rw [h place hfolder]
      dsimp only
      split at hwalk
      · rename_i hstay
        rw [if_pos hstay]
        exact ih hwalk
      · rename_i hgo
        rw [if_neg hgo]
        split at hwalk
        · rename_i hup
          rw [if_pos hup]
          exact ih hwalk
        · rename_i hdown
          rw [if_neg hdown]
          exact ih hwalk

theorem place_eq_ok : home.place path = .ok place ↔
    path.text ≠ "" ∧ home.walk path [] path.names = .ok place := by
  unfold Home.place
  by_cases h : path.text = ""
  · simp [h]
  · simp [h]

/-- A single name leads from a directory to a place directly below it. -/
theorem place_join (hdir : home.place dir = .ok place) (hfolder : home.node? place = some .folder)
    (hname : Path.Single name) : home.place (dir.join name) = .ok (place ++ [name]) := by
  obtain ⟨htext, hwalk⟩ := place_eq_ok.mp hdir
  obtain ⟨front, hnames, hfront⟩ := Path.exists_names_join dir hname
  have hstart : home.walk dir [] front = .ok place := by
    rcases hfront with hfront | hfront
    · rwa [← hfront]
    · -- the slash at the end of the directory stays at its place
      rw [hfront, walk_append] at hwalk
      obtain ⟨last, hlast, hend⟩ := bind_eq_ok.mp hwalk
      rw [walk] at hend
      split at hend
      · cases hend
      · cases hend
      · rw [if_pos (.inl rfl)] at hend
        rw [hlast]
        exact hend
  refine place_eq_ok.mpr ⟨?_, ?_⟩
  · intro hempty
    have hnone : (dir.join name).names = [""] := by
      rw [Path.names, hempty]
      rfl
    have hlast := congrArg List.getLast? (hnames.symm.trans hnone)
    rw [List.getLast?_concat] at hlast
    exact hname.ne_empty (Option.some.inj hlast)
  · rw [hnames, walk_append]
    refine bind_eq_ok.mpr ⟨place, walk_mono (fun _ h => h) hstart, ?_⟩
    rw [walk, hfolder]
    dsimp only
    rw [if_neg (not_or.mpr ⟨hname.ne_empty, hname.ne_dot⟩), if_neg hname.ne_dots]
    rfl

theorem isFolder_iff : home.isFolder path = true ↔
    ∃ place, home.place path = .ok place ∧ home.node? place = some .folder := by
  unfold isFolder find? find
  cases hplace : home.place path with
  | error fault => simp [bind, Except.bind, Except.toOption]
  | ok place =>
    cases hnode : home.node? place with
    | none => simp [bind, Except.bind, Except.toOption, hnode]
    | some node => cases node <;> simp [bind, Except.bind, Except.toOption, hnode]

theorem hasPath_eq (hplace : home.place path = .ok place) :
    home.hasPath path = (home.node? place).isSome := by
  unfold hasPath find? find
  rw [hplace]
  cases hnode : home.node? place <;> simp [bind, Except.bind, Except.toOption, hnode]

/-! ## What a directory holds -/

/-- What stands at a place and below it. -/
def below (home : Home) (place : List String) : List (List String × Node) :=
  home.nodes.filter fun entry => place.isPrefixOf entry.1

theorem node?_eq_below {rest : List String} (h : place <+: rest) :
    home.node? rest = if rest.isEmpty then some .folder else
      ((home.below place).find? (fun entry => entry.1 == rest)).map Prod.snd := by
  have hfind : (home.below place).find? (fun entry => entry.1 == rest) =
      home.nodes.find? (fun entry => entry.1 == rest) := by
    rw [below, List.find?_filter]
    refine congrArg (fun p => home.nodes.find? p) (funext fun entry => ?_)
    rw [Bool.eq_iff_iff]
    simp only [List.isPrefixOf_iff_prefix, decide_eq_true_eq, beq_iff_eq, and_iff_right_iff_imp]
    rintro rfl
    exact h
  rw [node?, hfind]

theorem entriesAt_eq_below (home : Home) (place : List String) :
    home.entriesAt place = (Home.mk (home.below place)).entriesAt place := by
  rw [entriesAt, entriesAt, below, List.filterMap_filter]
  refine congrArg (fun f => home.nodes.filterMap f) (funext fun entry => ?_)
  obtain ⟨rest, node⟩ := entry
  dsimp only
  -- a node that does not stand below the place is not listed
  by_cases hbelow : place <+: rest
  · rw [if_pos (List.isPrefixOf_iff_prefix.mpr hbelow)]
  · rw [if_neg (mt List.isPrefixOf_iff_prefix.mp hbelow)]
    split
    · rw [if_neg]
      rintro rfl
      exact hbelow (List.dropLast_prefix rest)
    · rfl

/-- The path leads to the same place in both trees, and the same things stand there and below. -/
structure SameFolder (path : Path) (home other : Home) : Prop where
  place : other.place path = home.place path
  below : ∀ place, home.place path = .ok place → other.below place = home.below place

namespace SameFolder

theorem refl (path : Path) (home : Home) : SameFolder path home home := ⟨rfl, fun _ _ => rfl⟩

theorem node? (h : SameFolder path home other) (hplace : home.place path = .ok place)
    {rest : List String} (hrest : place <+: rest) : other.node? rest = home.node? rest := by
  rw [node?_eq_below hrest, node?_eq_below hrest, h.below place hplace]

theorem isFolder (h : SameFolder path home other) : other.isFolder path = home.isFolder path := by
  rw [Bool.eq_iff_iff, isFolder_iff, isFolder_iff, h.place]
  refine exists_congr fun place => and_congr_right fun hplace => ?_
  rw [h.node? hplace (List.prefix_refl place)]

theorem list (h : SameFolder path home other) : other.list path = home.list path := by
  unfold Home.list
  rw [h.place]
  cases hplace : home.place path with
  | error fault => rfl
  | ok place =>
    dsimp only
    rw [h.node? hplace (List.prefix_refl place), entriesAt_eq_below other,
      entriesAt_eq_below home, h.below place hplace]

end SameFolder

/-! ## One more file -/

/-- The tree with one more node. -/
def extended (home : Home) (place : List String) (node : Node) : Home :=
  ⟨home.nodes ++ [(place, node)]⟩

/-- Files can have names that are short enough and have no zero byte. -/
theorem all_isName_iff : place.all isName = true ↔
    ∀ name ∈ place, name.utf8ByteSize ≤ 255 ∧ '\x00' ∉ name.toList := by
  rw [List.all_eq_true]
  refine forall₂_congr fun name _ => ?_
  rw [isName, String.contains_char_eq]
  simp

/-- When a file can be created: nothing stands at its place, which is directly in a directory. -/
theorem create_eq_ok {after : Home} {bytes : ByteArray} (hplace : home.place path = .ok place) :
    home.create path bytes = .ok after ↔ home.node? place = none ∧ place.all isName = true ∧
      home.isFolderAt place.dropLast = true ∧ after = home.extended place (.file bytes false) := by
  unfold create
  rw [hasPath_eq hplace]
  cases hnode : home.node? place with
  | some node =>
    constructor
    · intro h
      cases h
    · rintro ⟨⟨⟩, -⟩
  | none =>
    -- nothing stands at the place, so nothing is replaced there
    have hothers : home.nodes.filter (fun entry => entry.1 != place) = home.nodes := by
      unfold Home.node? at hnode
      split at hnode
      · cases hnode
      · rw [Option.map_eq_none_iff, List.find?_eq_none] at hnode
        exact List.filter_eq_self.mpr fun entry hentry => by simpa using hnode entry hentry
    have hfree : home.isFolderAt place = false := by
      rw [isFolderAt, hnode]
    unfold write target
    rw [hplace]
    simp only [Option.isSome_none, hfree, Bool.false_eq_true, if_false, true_and]
    cases place.all isName <;> cases home.isFolderAt place.dropLast <;>
      simp [hnode, set, hothers, extended, eq_comm]

variable {node : Node}

theorem node?_extended {rest : List String} {found : Node} (h : home.node? rest = some found) :
    (home.extended place node).node? rest = some found := by
  unfold Home.node? extended at *
  split at h
  · rename_i hroot
    rw [if_pos hroot]
    exact h
  · rename_i hroot
    obtain ⟨entry, hentry, rfl⟩ := Option.map_eq_some_iff.mp h
    rw [if_neg hroot, List.find?_append, hentry]
    rfl

/-- What led somewhere leads there still. -/
theorem place_extended (h : home.place path = .ok place) {rest : List String} :
    (home.extended rest node).place path = .ok place := by
  obtain ⟨htext, hwalk⟩ := place_eq_ok.mp h
  exact place_eq_ok.mpr ⟨htext, walk_mono (fun _ => node?_extended) hwalk⟩

theorem below_extended {rest : List String} (h : place <+: rest) :
    (home.extended rest node).below place = home.below place ++ [(rest, node)] := by
  rw [below, extended, List.filter_append, below]
  simp [List.isPrefixOf_iff_prefix.mpr h]

/-- One file is new in a directory.  Nothing stood under its name, and whatever else stands in the
directory and below stood there before. -/
structure GainsFile (dir : Path) (name : String) (before after : Home) (place : List String)
    (bytes : ByteArray) : Prop where
  stood : before.place dir = .ok place
  stands : after.place dir = .ok place
  fresh : before.hasPath (dir.join name) = false
  path : after.place (dir.join name) = .ok (place ++ [name])
  below : after.below place = before.below place ++ [(place ++ [name], .file bytes false)]

/-- The file may be created after and before things happen that leave the directory alone. -/
theorem gainsFile_of_create {third last : Home} {bytes : ByteArray}
    (hplace : home.place dir = .ok place) (hfolder : home.node? place = some .folder)
    (hname : Path.Single name) (hother : SameFolder dir home other)
    (hcreate : other.create (dir.join name) bytes = .ok third)
    (hlast : SameFolder dir third last) : GainsFile dir name home last place bytes := by
  have hthere : other.place dir = .ok place := hother.place.trans hplace
  have hnode : other.node? place = some .folder :=
    (hother.node? hplace (List.prefix_refl place)).trans hfolder
  obtain ⟨hfree, -, -, rfl⟩ := (create_eq_ok (place_join hthere hnode hname)).mp hcreate
  have hextended := @place_extended other dir place (.file bytes false) hthere (place ++ [name])
  have hstands : last.place dir = .ok place := hlast.place.trans hextended
  have hbelow : place <+: place ++ [name] := List.prefix_append place [name]
  have hstill : last.node? place = some .folder :=
    (hlast.node? hextended (List.prefix_refl place)).trans (node?_extended hnode)
  refine ⟨hplace, hstands, ?_, place_join hstands hstill hname, ?_⟩
  · rw [hasPath_eq (place_join hplace hfolder hname), ← hother.node? hplace hbelow, hfree]
    rfl
  · rw [hlast.below place hextended, below_extended hbelow, hother.below place hplace]

/-- Such a directory is the one that the file was added to. -/
theorem GainsFile.sameFolder {bytes : ByteArray} (h : GainsFile dir name home other place bytes) :
    SameFolder dir (home.extended (place ++ [name]) (.file bytes false)) other where
  place := h.stands.trans (place_extended h.stood).symm
  below rest hrest := by
    obtain rfl := Except.ok.inj ((place_extended h.stood).symm.trans hrest)
    rw [h.below, below_extended (List.prefix_append _ _)]

/-- A directory with one more file lists one more file. -/
theorem list_extended {bytes : ByteArray} {listing : List Entry}
    (hplace : home.place dir = .ok place) (h : home.list dir = .ok listing) :
    (home.extended (place ++ [name]) (.file bytes false)).list dir =
      .ok (listing ++ [⟨some name, true⟩]) := by
  unfold list at h ⊢
  rw [hplace] at h
  rw [place_extended hplace]
  dsimp only at h ⊢
  cases hnode : home.node? place with
  | none =>
    rw [hnode] at h
    cases h
  | some node =>
    rw [hnode] at h
    rw [node?_extended hnode]
    cases node with
    | file bytes executable => cases h
    | folder =>
      cases h
      dsimp only
      rw [entriesAt, extended, List.filterMap_append, ← entriesAt]
      simp

end Home

end Migrations
