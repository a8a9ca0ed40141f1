import Migrations.Yaml.Scalar

/-!
# Reading YAML

The document in a YAML text: block mappings and sequences by indentation, flow collections, scalars
of all kinds, comments, document markers, and anchors with their aliases.  A text without a document
has no node.
-/

namespace Migrations.Yaml

/-! ## Cursors -/

/-- A place in the text: what comes next and in which column. -/
structure Cursor where
  rest : List Char
  column : Nat

namespace Cursor

/-- The cursor at a later place, given by the text from there on. -/
def moveTo (here : Cursor) (rest : List Char) : Cursor :=
  let passed := here.rest.take (here.rest.length - rest.length)
  ⟨rest, passed.foldl (fun column c => if c = '\n' then 0 else column + 1) here.column⟩

def forward (here : Cursor) (n : Nat) : Cursor := ⟨here.rest.drop n, here.column + n⟩

/-- The cursor at the next token, after blanks, comments and line breaks, and whether a line break
was passed.  `fresh` says that indentation may be due, where no tab may stand. -/
def toToken (fuel : Nat) (flow fresh crossed : Bool) (here : Cursor) : Cursor × Bool :=
  match fuel with
  | 0 => (here, crossed)
  | fuel + 1 =>
    match here.rest with
    | ' ' :: _ => toToken fuel flow fresh crossed (here.forward 1)
    | '\t' :: _ =>
      if flow || !fresh then toToken fuel flow fresh crossed (here.forward 1) else (here, crossed)
    | '#' :: rest =>
      toToken fuel flow fresh crossed (here.moveTo (rest.dropWhile (· != '\n')))
    | '\n' :: rest => toToken fuel flow true true ⟨rest, 0⟩
    | _ => (here, crossed)

def skip (here : Cursor) (flow fresh : Bool) : Cursor × Bool :=
  toToken (here.rest.length + 1) flow fresh false here

def atEnd (here : Cursor) : Bool := here.rest.isEmpty || (here.column == 0 && atMarker here.rest)

def atEntry (here : Cursor) : Bool :=
  match here.rest with
  | '-' :: rest => atGap rest
  | _ => false

end Cursor

/-- What reading gives: the node, the anchors met so far, the place after it, and whether that place
lies on a line of its own already. -/
structure Reading where
  value : Node
  anchors : List (String × Node)
  cursor : Cursor
  onNewLine : Bool

/-! ## Pieces of nodes -/

/-- Whether a plain scalar can start here. -/
def startsPlain (flow : Bool) : List Char → Bool
  | [] => false
  | c :: cs =>
    if c = '-' then !atGap cs
    else if c = '?' ∨ c = ':' then !flow && !atGap cs
    else !("-?:,[]\x7b\x7d#&*!|>'\"%@\x60\n\t ".toList.contains c)

/-- A quoted scalar here, if a quote stands here. -/
def quotedHere? (here : Cursor) : Option (Except Fault (String × Cursor)) :=
  let finish (double : Bool) (rest : List Char) : Except Fault (String × Cursor) :=
    match quoted (rest.length + 1) double rest with
    | .ok (text, rest) => .ok (String.ofList text, here.moveTo rest)
    | .error fault => .error fault
  match here.rest with
  | '"' :: rest => some (finish true rest)
  | '\'' :: rest => some (finish false rest)
  | _ => none

/-- The key that ends with a colon on this line, and the place after the colon. -/
def key? (here : Cursor) : Option (String × Cursor) :=
  match quotedHere? here with
  | some (.ok (text, after)) =>
    let gap := (after.rest.takeWhile isGap).length
    let passed := here.rest.take (here.rest.length - after.rest.length)
    match after.rest.drop gap with
    | ':' :: rest =>
      if atGap rest && !passed.contains '\n' then some (text, after.forward (gap + 1)) else none
    | _ => none
  | some (.error _) => none
  | none =>
    if startsPlain false here.rest then
      let (chunk, rest) := plainLine false false here.rest
      match rest with
      | ':' :: after =>
        some (String.ofList (Text.trimRight isGap chunk), here.moveTo after)
      | _ => none
    else if here.rest.head? == some ':' && atGap (here.rest.drop 1) then
      some ("", here.forward 1)
    else none

/-- The name of an anchor or an alias, or the rest of a tag. -/
def nameChars (cs : List Char) : List Char :=
  cs.takeWhile (fun c => !(isGap c || c == '\n' || isFlowMark c))

/-- The node of a block scalar, after its opening mark. -/
def blockNode (least : Nat) (folded : Bool) (anchors : List (String × Node)) (cs : List Char) :
    Except Fault Reading :=
  match block least folded cs with
  | .ok (text, column, rest) =>
    .ok ⟨.scalar (String.ofList text) false, anchors, ⟨rest, column⟩, true⟩
  | .error fault => .error fault

/-! ## Nodes -/

mutual

/-- The node here.  Its further lines are indented by at least `least`; inside a line, after a key,
no block collection can start. -/
def node (fuel least : Nat) (inline : Bool) (anchors : List (String × Node)) (here : Cursor) :
    Except Fault Reading :=
  match fuel with
  | 0 => .error .unclosed
  | fuel + 1 =>
    let keyHere := if inline then none else key? here
    if here.atEntry then
      if inline then .error (.unexpected '-')
      else sequence fuel here.column anchors [] here
    else if keyHere.isSome then mapping fuel here.column anchors [] here
    else match here.rest with
    | '&' :: rest =>
      let name := nameChars rest
      let (next, crossed) := (here.forward (name.length + 1)).skip false false
      if name.isEmpty then .error (.unexpected '&')
      else
        let read : Except Fault Reading :=
          if next.atEnd || (crossed && next.column < least) then
            .ok ⟨Node.blank, anchors, next, true⟩
          else node fuel least (inline && !crossed) anchors next
        match read with
        | .ok r => .ok { r with anchors := (String.ofList name, r.value) :: r.anchors }
        | .error fault => .error fault
    | '*' :: rest =>
      let name := nameChars rest
      match anchors.find? (fun entry => entry.1 == String.ofList name) with
      | some (_, value) => .ok ⟨value, anchors, here.forward (name.length + 1), false⟩
      | none => .error .unknownAlias
    | '!' :: rest =>
      let name := nameChars rest
      let (next, crossed) := (here.forward (name.length + 1)).skip false false
      let read : Except Fault Reading :=
        if next.atEnd || (crossed && next.column < least) then
          .ok ⟨Node.blank, anchors, next, true⟩
        else node fuel least (inline && !crossed) anchors next
      match read with
      | .ok ⟨.scalar text plain, anchors, cursor, onNewLine⟩ =>
        let plain := plain && name != [] && name != "!str".toList
        .ok ⟨.scalar text plain, anchors, cursor, onNewLine⟩
      | read => read
    | '|' :: rest => blockNode least false anchors rest
    | '>' :: rest => blockNode least true anchors rest
    | '[' :: _ => flowNode fuel anchors here
    | '{' :: _ => flowNode fuel anchors here
    | cs =>
      match quotedHere? here with
      | some (.ok (text, after)) => .ok ⟨.scalar text false, anchors, after, false⟩
      | some (.error fault) => .error fault
      | none =>
        if startsPlain false cs then
          match plain (cs.length + 1) least false cs with
          | .ok (text, rest) =>
            .ok ⟨.scalar (String.ofList text) true, anchors, here.moveTo rest, false⟩
          | .error fault => .error fault
        else .error (.unexpected (cs.headD '\n'))

/-- The entries of a block mapping from here on, in the given column. -/
def mapping (fuel column : Nat) (anchors : List (String × Node)) (done : List (Node × Node))
    (here : Cursor) : Except Fault Reading :=
  match fuel with
  | 0 => .error .unclosed
  | fuel + 1 =>
    if here.atEnd || here.column < column then .ok ⟨.map done.reverse, anchors, here, true⟩
    else if here.column > column then .error (.unexpected (here.rest.headD '\n'))
    else match key? here with
      | none => .error (.unexpected (here.rest.headD '\n'))
      | some (key, after) =>
        let (next, crossed) := after.skip false false
        let value : Except Fault Reading :=
          if next.atEnd then .ok ⟨Node.blank, anchors, next, true⟩
          else if !crossed then node fuel (column + 1) true anchors next
          else if next.column > column then node fuel (column + 1) false anchors next
          else if next.column = column && next.atEntry then
            sequence fuel column anchors [] next
          else .ok ⟨Node.blank, anchors, next, true⟩
        match value with
        | .error fault => .error fault
        | .ok ⟨value, anchors, cursor, onNewLine⟩ =>
          let (next, crossed) := cursor.skip false onNewLine
          if !crossed && !onNewLine && !next.atEnd then
            .error (.unexpected (next.rest.headD '\n'))
          else mapping fuel column anchors ((.scalar key true, value) :: done) next

/-- The entries of a block sequence from here on, in the given column. -/
def sequence (fuel column : Nat) (anchors : List (String × Node)) (done : List Node)
    (here : Cursor) : Except Fault Reading :=
  match fuel with
  | 0 => .error .unclosed
  | fuel + 1 =>
    if here.atEnd || here.column < column || (here.column = column && !here.atEntry) then
      .ok ⟨.list done.reverse, anchors, here, true⟩
    else if here.column > column then .error (.unexpected (here.rest.headD '\n'))
    else
      let (next, crossed) := (here.forward 1).skip false true
      let value : Except Fault Reading :=
        if next.atEnd then .ok ⟨Node.blank, anchors, next, true⟩
        else if !crossed || next.column > column then
          node fuel (column + 1) false anchors next
        else .ok ⟨Node.blank, anchors, next, true⟩
      match value with
      | .error fault => .error fault
      | .ok ⟨value, anchors, cursor, onNewLine⟩ =>
        let (next, crossed) := cursor.skip false onNewLine
        if !crossed && !onNewLine && !next.atEnd then
          .error (.unexpected (next.rest.headD '\n'))
        else sequence fuel column anchors (value :: done) next

/-- The node here, inside a flow collection or as one. -/
def flowNode (fuel : Nat) (anchors : List (String × Node)) (here : Cursor) :
    Except Fault Reading :=
  match fuel with
  | 0 => .error .unclosed
  | fuel + 1 =>
    match here.rest with
    | '[' :: _ => flowList fuel anchors [] ((here.forward 1).skip true false).1
    | '{' :: _ => flowMap fuel anchors [] ((here.forward 1).skip true false).1
    | '&' :: rest =>
      let name := nameChars rest
      match flowNode fuel anchors ((here.forward (name.length + 1)).skip true false).1 with
      | .ok r => .ok { r with anchors := (String.ofList name, r.value) :: r.anchors }
      | .error fault => .error fault
    | '*' :: rest =>
      let name := nameChars rest
      match anchors.find? (fun entry => entry.1 == String.ofList name) with
      | some (_, value) => .ok ⟨value, anchors, here.forward (name.length + 1), false⟩
      | none => .error .unknownAlias
    | '!' :: rest =>
      let name := nameChars rest
      flowNode fuel anchors ((here.forward (name.length + 1)).skip true false).1
    | cs =>
      match quotedHere? here with
      | some (.ok (text, after)) => .ok ⟨.scalar text false, anchors, after, false⟩
      | some (.error fault) => .error fault
      | none =>
        if startsPlain true cs then
          match plain (cs.length + 1) 0 true cs with
          | .ok (text, rest) =>
            .ok ⟨.scalar (String.ofList text) true, anchors, here.moveTo rest, false⟩
          | .error fault => .error fault
        else .error (.unexpected (cs.headD '\n'))

/-- The items of a flow sequence, from the start of an item or its closing bracket on. -/
def flowList (fuel : Nat) (anchors : List (String × Node)) (done : List Node) (here : Cursor) :
    Except Fault Reading :=
  match fuel with
  | 0 => .error .unclosed
  | fuel + 1 =>
    match here.rest with
    | [] => .error .unclosed
    | ']' :: _ => .ok ⟨.list done.reverse, anchors, here.forward 1, false⟩
    | _ =>
      match flowNode fuel anchors here with
      | .error fault => .error fault
      | .ok ⟨item, anchors, cursor, _⟩ =>
        let next := (cursor.skip true false).1
        match next.rest with
        | ',' :: _ => flowList fuel anchors (item :: done) ((next.forward 1).skip true false).1
        | ']' :: _ => .ok ⟨.list (item :: done).reverse, anchors, next.forward 1, false⟩
        | ':' :: _ =>
          let start := ((next.forward 1).skip true false).1
          match flowValue fuel anchors start with
          | .error fault => .error fault
          | .ok ⟨value, anchors, cursor, _⟩ =>
            let next := (cursor.skip true false).1
            let pair := Node.map [(item, value)]
            match next.rest with
            | ',' :: _ =>
              flowList fuel anchors (pair :: done) ((next.forward 1).skip true false).1
            | ']' :: _ => .ok ⟨.list (pair :: done).reverse, anchors, next.forward 1, false⟩
            | [] => .error .unclosed
            | c :: _ => .error (.unexpected c)
        | [] => .error .unclosed
        | c :: _ => .error (.unexpected c)

/-- The value after the colon of a flow pair, which may be left out. -/
def flowValue (fuel : Nat) (anchors : List (String × Node)) (here : Cursor) :
    Except Fault Reading :=
  match fuel with
  | 0 => .error .unclosed
  | fuel + 1 =>
    match here.rest with
    | ',' :: _ => .ok ⟨Node.blank, anchors, here, false⟩
    | ']' :: _ => .ok ⟨Node.blank, anchors, here, false⟩
    | '}' :: _ => .ok ⟨Node.blank, anchors, here, false⟩
    | _ => flowNode fuel anchors here

/-- The entries of a flow mapping, from the start of an entry or its closing brace on. -/
def flowMap (fuel : Nat) (anchors : List (String × Node)) (done : List (Node × Node))
    (here : Cursor) : Except Fault Reading :=
  match fuel with
  | 0 => .error .unclosed
  | fuel + 1 =>
    match here.rest with
    | [] => .error .unclosed
    | '}' :: _ => .ok ⟨.map done.reverse, anchors, here.forward 1, false⟩
    | _ =>
      match flowNode fuel anchors here with
      | .error fault => .error fault
      | .ok ⟨key, anchors, cursor, _⟩ =>
        let next := (cursor.skip true false).1
        let value : Except Fault Reading :=
          match next.rest with
          | ':' :: _ => flowValue fuel anchors ((next.forward 1).skip true false).1
          | _ => .ok ⟨Node.blank, anchors, next, true⟩
        match value with
        | .error fault => .error fault
        | .ok ⟨value, anchors, cursor, _⟩ =>
          let next := (cursor.skip true false).1
          match next.rest with
          | ',' :: _ =>
            flowMap fuel anchors ((key, value) :: done) ((next.forward 1).skip true false).1
          | '}' :: _ => .ok ⟨.map ((key, value) :: done).reverse, anchors, next.forward 1, false⟩
          | [] => .error .unclosed
          | c :: _ => .error (.unexpected c)

end

/-! ## Documents -/

/-- Whether a character may stand in a YAML text. -/
def isAllowed (c : Char) : Bool :=
  let n := c.toNat
  n == 0x09 || n == 0x0A || n == 0x0D || (0x20 ≤ n && n ≤ 0x7E) || n == 0x85 ||
    (0xA0 ≤ n && n ≤ 0xFFFD) || 0x10000 ≤ n

/-- The text with line feeds as its only line breaks. -/
def lineFeeds : List Char → List Char
  | [] => []
  | '\r' :: '\n' :: cs => '\n' :: lineFeeds cs
  | '\r' :: cs => '\n' :: lineFeeds cs
  | c :: cs => c :: lineFeeds cs

def skipDirectives (fuel : Nat) (here : Cursor) : Cursor :=
  match fuel with
  | 0 => here
  | fuel + 1 =>
    let next := (here.skip false true).1
    match next.rest with
    | '%' :: rest =>
      if next.column = 0 then skipDirectives fuel (next.moveTo (rest.dropWhile (· != '\n')))
      else next
    | _ => next

def finished (fuel : Nat) (here : Cursor) : Except Fault Unit :=
  match fuel with
  | 0 => .ok ()
  | fuel + 1 =>
    let next := (here.skip false true).1
    match next.rest with
    | [] => .ok ()
    | '.' :: '.' :: '.' :: rest =>
      if next.column = 0 && atGap rest then finished fuel (next.forward 3)
      else .error (.unexpected '.')
    | c :: rest =>
      if next.column = 0 && atMarker (c :: rest) then .error .manyDocuments
      else .error (.unexpected c)

/-- The node of the document in a text; nothing when there is no document. -/
def ofText (text : String) : Except Fault (Option Node) :=
  let cs := match lineFeeds text.toList with
    | '\uFEFF' :: cs => cs
    | cs => cs
  if !cs.all isAllowed then .error .badCharacter
  else
    let start := skipDirectives (cs.length + 1) ⟨cs, 0⟩
    let fuel := 4 * cs.length + 16
    let body (inline : Bool) (here : Cursor) : Except Fault (Option Node) :=
      if here.atEnd then (finished fuel here).map fun _ => some Node.blank
      else match node fuel 0 inline [] here with
        | .ok ⟨root, _, cursor, _⟩ => (finished fuel cursor).map fun _ => some root
        | .error fault => .error fault
    match start.rest with
    | [] => .ok none
    | '-' :: '-' :: '-' :: rest =>
      if start.column = 0 && atGap rest then
        let (next, crossed) := (start.forward 3).skip false false
        body (!crossed) next
      else body false start
    | _ =>
      if start.column == 0 && atMarker start.rest then .error (.unexpected '.')
      else body false start

end Migrations.Yaml
