import Migrations.Shell.Machine
import Migrations.Text.Numeral

/-!
# Shell Programs

The programs that the commands of a shell can name: those that write texts and files, those that
test something, and those that end the shell.
-/

namespace Migrations.Shell

namespace Machine

/-! ## Escapes -/

/-- The value of up to `n` octal digits, and what follows them. -/
def octal : Nat → Nat → List Char → Nat × List Char
  | 0, value, cs => (value, cs)
  | _ + 1, value, [] => (value, [])
  | n + 1, value, c :: cs =>
    if '0' ≤ c ∧ c ≤ '7' then octal n (value * 8 + (c.toNat - 48)) cs else (value, c :: cs)

/-- The byte of an escape that is a single letter. -/
def letterEscape? (c : Char) : Option UInt8 :=
  [('a', 7), ('b', 8), ('f', 12), ('n', 10), ('r', 13), ('t', 9), ('v', 11), ('\\', 92)].lookup c

/-- The bytes of a text with its escapes undone, and whether an escape ends all output.  An octal
escape has up to three digits, after a zero that is not part of it where one is asked for.  The fuel
bounds the length of the text. -/
def unescape (zero : Bool) : Nat → List Char → ByteArray × Bool
  | 0, _ => (.empty, false)
  | _ + 1, [] => (.empty, false)
  | fuel + 1, '\\' :: c :: cs =>
    match letterEscape? c with
    | some b =>
      let (bytes, ended) := unescape zero fuel cs
      (⟨#[b]⟩ ++ bytes, ended)
    | none =>
      if c = 'c' then (.empty, true)
      else
        let digits := if !zero then c :: cs else if c = '0' then cs else []
        if (zero && c == '0') || (!zero && '0' ≤ c && c ≤ '7') then
          let (value, rest) := octal 3 0 digits
          let (bytes, ended) := unescape zero fuel rest
          (⟨#[UInt8.ofNat value]⟩ ++ bytes, ended)
        else
          let (bytes, ended) := unescape zero fuel cs
          (("\\".push c).toUTF8 ++ bytes, ended)
  | fuel + 1, c :: cs =>
    let (bytes, ended) := unescape zero fuel cs
    ((String.singleton c).toUTF8 ++ bytes, ended)

def unescaped (zero : Bool) (text : String) : ByteArray × Bool :=
  unescape zero (text.length + 1) text.toList

/-! ## Writing -/

/-- Writes its arguments, with blanks between them and a line end after them. -/
def echo (machine : Machine) (streams : Streams) (arguments : List String) : Machine :=
  let (arguments, lineEnd) := match arguments with
    | "-n" :: rest => (rest, "")
    | rest => (rest, "\n")
  let (bytes, ended) := unescaped true (" ".intercalate arguments)
  let bytes := if ended then bytes else bytes ++ lineEnd.toUTF8
  (machine.write streams.out bytes).finish 0

/-- How wide an argument is written. -/
structure Width where
  /-- At the left of its place. -/
  left : Bool := false
  /-- With zeros before it. -/
  zeros : Bool := false
  least : Nat := 0
  most : Option Nat := none

/-- The width that a format asks for after its percent sign, and what follows it. -/
def width (cs : List Char) : Width × List Char :=
  let flags := cs.takeWhile (fun c => c == '-' || c == '0')
  let rest := cs.drop flags.length
  let least := rest.takeWhile Char.isDigit
  let rest := rest.drop least.length
  let (most, rest) := match rest with
    | '.' :: rest =>
      let digits := rest.takeWhile Char.isDigit
      (some (Nat.ofDigitChars 10 digits 0), rest.drop digits.length)
    | rest => (none, rest)
  (⟨flags.contains '-', flags.contains '0', Nat.ofDigitChars 10 least 0, most⟩, rest)

def Width.fit (width : Width) (number : Bool) (text : String) : String :=
  let text := match width.most with
    | some most => if number then text else (text.take most).toString
    | none => text
  let missing := width.least - text.length
  if width.left then text ++ String.ofList (List.replicate missing ' ')
  else if width.zeros && number then String.ofList (List.replicate missing '0') ++ text
  else String.ofList (List.replicate missing ' ') ++ text

/-- The bytes of an argument that a format asks for with a letter. -/
def argument? (width : Width) (letter : Char) (text : String) : Option ByteArray :=
  if letter = 's' then some (width.fit false text).toUTF8
  else if letter = 'b' then some (unescaped true text).1
  else if letter = 'c' then some (width.fit false (text.take 1).toString).toUTF8
  else if letter = 'd' ∨ letter = 'i' ∨ letter = 'u' then
    some (width.fit true (toString (text.toInt?.getD 0))).toUTF8
  else if letter = 'x' then
    some (width.fit true (String.ofList (Nat.toDigits 16 (text.toNat?.getD 0)))).toUTF8
  else if letter = 'o' then
    some (width.fit true (String.ofList (Nat.toDigits 8 (text.toNat?.getD 0)))).toUTF8
  else none

/-- The bytes of a format with the next arguments in it, and the arguments after those.  The fuel
bounds the length of the format. -/
def format : Nat → List Char → List String → ByteArray × List String
  | 0, _, arguments => (.empty, arguments)
  | _ + 1, [], arguments => (.empty, arguments)
  | fuel + 1, '%' :: '%' :: cs, arguments =>
    let (bytes, arguments) := format fuel cs arguments
    ("%".toUTF8 ++ bytes, arguments)
  | fuel + 1, '\\' :: c :: cs, arguments =>
    let octalLength := if '0' ≤ c ∧ c ≤ '7' then
        (cs.take 2).takeWhile (fun d => decide ('0' ≤ d ∧ d ≤ '7'))
      else []
    let (first, _) := unescaped false (String.ofList ('\\' :: c :: octalLength))
    let (bytes, rest) := format fuel (cs.drop octalLength.length) arguments
    (first ++ bytes, rest)
  | fuel + 1, c :: cs, arguments =>
    let plain : ByteArray × List String :=
      let (bytes, rest) := format fuel cs arguments
      ((String.singleton c).toUTF8 ++ bytes, rest)
    if c ≠ '%' then plain
    else
      let (width, rest) := width cs
      match rest with
      | letter :: rest =>
        match argument? width letter (arguments.headD "") with
        | some first =>
          let (bytes, left) := format fuel rest (arguments.drop 1)
          (first ++ bytes, left)
        | none => plain
      | [] => plain

/-- Writes a format as often as it takes to use up the arguments.  The fuel bounds their number. -/
def formatAll : Nat → String → List String → ByteArray
  | 0, _, _ => .empty
  | fuel + 1, template, arguments =>
    let (bytes, rest) := format (template.length + 1) template.toList arguments
    if rest.isEmpty || rest.length = arguments.length then bytes
    else bytes ++ formatAll fuel template rest

def printf (machine : Machine) (streams : Streams) : List String → Machine
  | [] => (machine.say streams.err "printf: usage: printf format [arguments]\n").finish 2
  | template :: arguments =>
    (machine.write streams.out (formatAll (arguments.length + 1) template arguments)).finish 0

def cat (machine : Machine) (streams : Streams) (files : List String) : Machine :=
  (if files.isEmpty then ["-"] else files).foldl (fun machine file =>
    if file = "-" then
      { machine.write streams.out machine.input with input := .empty }
    else match machine.home.read (machine.path file) with
      | .ok bytes => machine.write streams.out bytes
      | .error (.notFile _) =>
        (machine.say streams.err s!"cat: {file}: Is a directory\n").finish 1
      | .error (.notFolder _) =>
        (machine.say streams.err s!"cat: {file}: Not a directory\n").finish 1
      | .error _ =>
        (machine.say streams.err s!"cat: {file}: No such file or directory\n").finish 1)
    (machine.finish 0)

def namesIn (every hidden : Bool) (entries : List Home.Entry) : List String :=
  let names := (entries.filterMap Home.Entry.name?).filter
    (fun name => hidden || !name.startsWith ".")
  (if every then "." :: ".." :: names else names).mergeSort (fun a b => decide (a ≤ b))

/-- Writes the names in directories, and those that start with a dot only if asked to.  Files come
first, and of several arguments each directory has a heading. -/
def ls (machine : Machine) (streams : Streams) (arguments : List String) : Machine :=
  let every := arguments.contains "-a"
  let hidden := every || arguments.contains "-A"
  let dirs := arguments.filter (fun argument => !argument.startsWith "-")
  let dirs := (if dirs.isEmpty then ["."] else dirs).mergeSort (fun a b => decide (a ≤ b))
  let (present, absent) := dirs.partition fun dir => machine.home.hasPath (machine.path dir)
  let (files, folders) := present.partition fun dir => machine.home.isFile (machine.path dir)
  let machine := absent.foldl (fun machine dir => machine.say streams.err
    s!"ls: cannot access '{dir}': No such file or directory\n") machine
  let listings := folders.map fun dir =>
    let names := match machine.home.list (machine.path dir) with
      | .ok entries => namesIn every hidden entries
      | .error _ => []
    let heading := if dirs.length = 1 then [] else [dir ++ ":"]
    String.join ((heading ++ names).map (· ++ "\n"))
  let listings := if files.isEmpty then listings
    else String.join (files.map (· ++ "\n")) :: listings
  (machine.say streams.out ("\n".intercalate listings)).finish (if absent.isEmpty then 0 else 2)

/-! ## Testing -/

def compare (p : Int → Int → Bool) (a b : String) : Except String Bool :=
  match a.toInt?, b.toInt? with
  | some m, some n => .ok (p m n)
  | none, _ => .error s!"Illegal number: {a}"
  | _, none => .error s!"Illegal number: {b}"

/-- A test of what a path leads to. -/
def testPath (machine : Machine) (operator a : String) : Option Bool :=
  let path := machine.path a
  if operator = "-f" then some (machine.home.isFile path)
  else if operator = "-d" then some (machine.home.isFolder path)
  else if ["-e", "-r", "-w"].contains operator then some (machine.home.hasPath path)
  else if operator = "-x" then
    some (match machine.home.find? path with
      | some (.file _ executable) => executable
      | some .folder => true
      | none => false)
  else if operator = "-s" then
    some (((machine.home.read path).toOption.getD .empty).size != 0)
  else none

/-- The truth of a single test, or why it makes no sense. -/
def testOne (machine : Machine) : List String → Except String Bool
  | [] => .ok false
  | [a] => .ok (!a.isEmpty)
  | ["-n", a] => .ok (!a.isEmpty)
  | ["-z", a] => .ok a.isEmpty
  | [a, "=", b] => .ok (a = b)
  | [a, "!=", b] => .ok (a != b)
  | [a, "-eq", b] => compare (· == ·) a b
  | [a, "-ne", b] => compare (· != ·) a b
  | [a, "-lt", b] => compare (· < ·) a b
  | [a, "-le", b] => compare (· ≤ ·) a b
  | [a, "-gt", b] => compare (· > ·) a b
  | [a, "-ge", b] => compare (· ≥ ·) a b
  | "!" :: rest => (machine.testOne rest).map (!·)
  | [operator, a] =>
    match machine.testPath operator a with
    | some truth => .ok truth
    | none => .error s!"{operator}: unexpected operator"
  | operator :: _ => .error s!"{operator}: unexpected operator"

/-- The parts of a list between the occurrences of a word. -/
def partsAt (word : String) : List String → List (List String)
  | [] => [[]]
  | a :: rest =>
    if a = word then [] :: partsAt word rest
    else match partsAt word rest with
      | part :: parts => (a :: part) :: parts
      | [] => [[a]]

/-- The truth of tests, any one of which is enough; each of them may have parts that all have to
hold. -/
def test (machine : Machine) (arguments : List String) : Except String Bool :=
  if arguments.length ≤ 4 then machine.testOne arguments
  else do
    let truths ← (partsAt "-o" arguments).mapM fun part => do
      return (← (partsAt "-a" part).mapM machine.testOne).all id
    return truths.any id

def runTest (machine : Machine) (streams : Streams) (line : Nat) (name : String)
    (arguments : List String) : Machine :=
  match machine.test arguments with
  | .ok truth => machine.finish (if truth then 0 else 1)
  | .error reason =>
    let script := machine.name
    (machine.say streams.err s!"{script}: {line}: {name}: {reason}\n").finish 2

/-! ## Variables and endings -/

/-- Reads a line of the input into variables; the last one gets all that is left. -/
def read (machine : Machine) (names : List String) : Machine :=
  let bytes := machine.input.toList
  let line := bytes.takeWhile (· != 10)
  let rest := bytes.drop (line.length + 1)
  let text := Text.decode ⟨line.toArray⟩
  let rec fill (vars : Variables) (cs : List Char) : List String → Variables
    | [] => vars
    | [name] => vars.insert name (String.ofList (Text.trim cs))
    | name :: names =>
      let cs := cs.dropWhile isSeparator
      let field := cs.takeWhile (fun c => !isSeparator c)
      fill (vars.insert name (String.ofList field)) (cs.drop field.length) names
  { machine with
    input := ⟨rest.toArray⟩
    vars := fill machine.vars text names
    status := if line.length < bytes.length then 0 else 1 }

/-- Sets variables from words such as `name=value`. -/
def exportAll (machine : Machine) (arguments : List String) : Machine :=
  arguments.foldl (fun machine argument =>
    match Text.breakOn ['='] argument.toList with
    | some (name, value) =>
      { machine with
        vars := machine.vars.insert (String.ofList name) (String.ofList value) }
    | none => machine) (machine.finish 0)

/-- Forgets variables. -/
def unsetAll (machine : Machine) (names : List String) : Machine :=
  { machine.finish 0 with vars := machine.vars.filter (fun name => !names.contains name) }

/-- Turns the strict mode on or off, or sets the arguments. -/
def set (machine : Machine) : List String → Machine
  | "--" :: arguments => { machine.finish 0 with arguments := arguments }
  | argument :: rest =>
    let flags := argument.toList
    if flags.head? == some '-' then
      set { machine with strict := machine.strict || flags.contains 'e' } rest
    else if flags.head? == some '+' then
      set { machine with strict := machine.strict && !flags.contains 'e' } rest
    else { machine.finish 0 with arguments := argument :: rest }
  | [] => machine.finish 0

/-- Makes a directory the one that relative paths start from. -/
def enter (machine : Machine) (streams : Streams) (line : Nat) (dir : String) : Machine :=
  let path := machine.path dir
  if machine.home.isFolder path then { machine.finish 0 with dir := path }
  else
    let name := machine.name
    (machine.say streams.err s!"{name}: {line}: cd: can't cd to {dir}\n").finish 2

def exit (machine : Machine) (streams : Streams) (line : Nat) : List String → Machine
  | [] => { machine with ending := some (.exit machine.status) }
  | status :: _ =>
    match Text.numeral? status.toList with
    | some n => { machine.finish (n % 256) with ending := some (.exit (n % 256)) }
    | none =>
      let name := machine.name
      let machine := machine.say streams.err
        s!"{name}: {line}: exit: Illegal number: {status}\n"
      { machine.finish 2 with ending := some (.exit 2) }

/-- The number of a signal's name. -/
def signal? (name : String) : Option Nat :=
  match name.toNat? with
  | some n => some n
  | none =>
    [("HUP", 1), ("INT", 2), ("QUIT", 3), ("ABRT", 6), ("KILL", 9), ("USR1", 10), ("USR2", 12),
      ("PIPE", 13), ("ALRM", 14), ("TERM", 15)].lookup name

/-- Ends the program by a signal. -/
def kill (machine : Machine) (arguments : List String) : Machine :=
  let number := match arguments with
    | "-s" :: name :: _ => signal? name
    | first :: _ :: _ => if first.startsWith "-" then signal? (first.drop 1).toString else some 15
    | _ => some 15
  match number with
  | some n => { machine with ending := some (.signal n) }
  | none => machine.finish 1

def restore (names : List String) (before after : Variables) : Variables :=
  names.foldl (fun vars name =>
    match before.get? name with
    | some value => vars.insert name value
    | none => vars.filter (fun other => other != name)) after

/-! ## All programs -/

/-- The programs after which assignments to their variables stay. -/
def lasting : List String := [":", "export", "unset", "set", "shift", "exit"]

/-- The machine after a program of the given name; nothing if there is no such program. -/
def program? (machine : Machine) (streams : Streams) (line : Nat) (name : String)
    (arguments : List String) : Option Machine :=
  match name with
  | ":" => some (machine.finish 0)
  | "true" => some (machine.finish 0)
  | "false" => some (machine.finish 1)
  | "echo" => some (machine.echo streams arguments)
  | "printf" => some (machine.printf streams arguments)
  | "cat" => some (machine.cat streams arguments)
  | "ls" => some (machine.ls streams arguments)
  | "test" => some (machine.runTest streams line name arguments)
  | "[" => some (machine.runTest streams line name arguments.dropLast)
  | "read" => some (machine.read (arguments.filter (· != "-r")))
  | "export" => some (machine.exportAll arguments)
  | "unset" => some (machine.unsetAll arguments)
  | "set" => some (machine.set arguments)
  | "cd" => some (machine.enter streams line (arguments.headD ""))
  | "pwd" => some ((machine.say streams.out (machine.dir.text ++ "\n")).finish 0)
  | "shift" => some { machine.finish 0 with arguments := machine.arguments.drop 1 }
  | "exit" => some (machine.exit streams line arguments)
  | "kill" => some (machine.kill arguments)
  | _ => none

end Machine

end Migrations.Shell
