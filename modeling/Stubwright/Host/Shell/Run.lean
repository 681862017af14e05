import Stubwright.Host.FileTree
import Stubwright.Host.Shell.Script
import Stubwright.Text.Utf8

/-!
# Running shell scripts

A script runs on a file tree, with arguments and parameters of its own, and leaves the tree, what it
wrote and how it ended. Commands are those that need no other program. Runs are bounded by a fuel
that no loop over arguments and words can use up.
-/

namespace Stubwright.Host.Shell

/-- How a script ends before its last command. -/
inductive Ending where
  | exited (code : Nat)
  | killed
  deriving DecidableEq, Repr

/-- A running script. -/
structure Session where
  tree : FileTree
  base : Place
  /-- The path of the script, then its arguments. -/
  arguments : List String
  bindings : List (String × String) := []
  stdout : Bytes := []
  stderr : Bytes := []
  status : Nat := 0
  ending? : Option Ending := none

/-- The number of the running shell. -/
def processNumber : String := "4242"

/-! ### Patterns -/

/-- A character of a pattern: it stands for itself, for any one character, or for any characters. -/
inductive Glob where
  | one (c : Char)
  | any
  | many
  deriving DecidableEq, Repr

/-- A pattern character as written without quotes. -/
def Glob.ofChar (c : Char) : Glob := if c == '*' then .many else if c == '?' then .any else .one c

/-- Whether a pattern matches all of a text. -/
def isMatch : List Glob → List Char → Bool
  | [], cs => cs.isEmpty
  | .many :: ps, [] => isMatch ps []
  | .many :: ps, c :: cs => isMatch ps (c :: cs) || isMatch (.many :: ps) cs
  | .any :: ps, _ :: cs => isMatch ps cs
  | .one p :: ps, c :: cs => p == c && isMatch ps cs
  | _ :: _, [] => false
termination_by ps cs => ps.length + cs.length

/-- A text without the shortest or longest end that matches the pattern. -/
def dropEnd (pattern : List Glob) (longest : Bool) (cs : List Char) : List Char :=
  let cuts := List.range (cs.length + 1)
  let cuts := if longest then cuts else cuts.reverse
  match cuts.find? fun n => isMatch pattern (cs.drop n) with
  | some n => cs.take n
  | none => cs

/-- A text without the shortest or longest start that matches the pattern. -/
def dropStart (pattern : List Glob) (longest : Bool) (cs : List Char) : List Char :=
  let cuts := List.range (cs.length + 1)
  let cuts := if longest then cuts.reverse else cuts
  match cuts.find? fun n => isMatch pattern (cs.take n) with
  | some n => cs.drop n
  | none => cs

/-! ### Words -/

namespace Session

/-- The value of a parameter. -/
def value (s : Session) (name : String) : String :=
  match name with
  | "$" => processNumber
  | "?" => toString s.status
  | "#" => toString (s.arguments.length - 1)
  | "@" | "*" => " ".intercalate (s.arguments.drop 1)
  | _ =>
    match name.toNat? with
    | some n => (s.arguments[n]?).getD ""
    | none => (s.bindings.lookup name).getD ""

/-- The characters of a piece, each with whether it is quoted. -/
def expandPiece (s : Session) : Piece → List (Char × Bool)
  | .text chars quoted => chars.map (·, quoted)
  | .value name quoted => (s.value name).toList.map (·, quoted)
  | .cut name atEnd longest pattern quoted =>
    let globs := pattern.map Glob.ofChar
    let cs := (s.value name).toList
    (if atEnd then dropEnd globs longest cs else dropStart globs longest cs).map (·, quoted)

/-- The characters of a word. -/
def expandChars (s : Session) (w : Word) : List (Char × Bool) := w.pieces.flatMap s.expandPiece

/-- A word as one text. -/
def expand (s : Session) (w : Word) : String := String.ofList ((s.expandChars w).map (·.1))

/-- A word as a pattern: quoted characters stand for themselves. -/
def expandPattern (s : Session) (w : Word) : List Glob :=
  (s.expandChars w).map fun (c, quoted) => if quoted then .one c else Glob.ofChar c

/-- The arguments a word makes: all of them for `$@`, none for an empty word without quotes. -/
def expandWord (s : Session) (w : Word) : List String :=
  match w.pieces with
  | [.value "@" _] => s.arguments.drop 1
  | _ =>
    let text := s.expand w
    if text.isEmpty && !w.quoted then [] else [text]

end Session

/-! ### Built-in commands -/

/-- The digits of an octal escape. -/
def isOctalDigit (c : Char) : Bool := '0' ≤ c && c ≤ '7'

/-- The byte a letter stands for after a backslash. -/
def letterEscape? (c : Char) : Option UInt8 :=
  (("ntrabfv\\".toList.zip [10, 9, 13, 7, 8, 12, 11, 92]).lookup c)

/-- The bytes of a text in which backslashes escape: letters, or up to three octal digits. -/
def escaped (cs : List Char) : Bytes :=
  match cs with
  | [] => []
  | '\\' :: c :: rest =>
    match letterEscape? c with
    | some byte => byte :: escaped rest
    | none =>
      let digits := ((c :: rest).take 3).takeWhile isOctalDigit
      if digits.isEmpty then Text.utf8 (String.ofList ['\\', c]) ++ escaped rest
      else
        let code := digits.foldl (fun acc d => acc * 8 + (d.toNat - '0'.toNat)) 0
        UInt8.ofNat code :: escaped ((c :: rest).drop digits.length)
  | c :: rest => Text.utf8 c.toString ++ escaped rest
termination_by cs.length
decreasing_by
  all_goals
    simp only [List.length_cons, List.length_drop]
    omega

/-- What the conversion with the given letter shows, and the arguments left. -/
def conversion (c : Char) (args : List String) : String × List String :=
  match c, args with
  | '%', _ => ("%", args)
  | _, [] => (if c == 'd' then "0" else "", [])
  | _, a :: args => (a, args)

/-- The bytes of a format: backslashes escape in its plain text only, not in what is converted. -/
def format : Nat → List Char → List String → Bytes
  | 0, _, _ => []
  | fuel + 1, cs, args =>
    let plain := cs.takeWhile (· != '%')
    match cs.dropWhile (· != '%') with
    | '%' :: c :: rest =>
      let (shown, args) := conversion c args
      escaped plain ++ Text.utf8 shown ++ format fuel rest args
    | _ => escaped cs

/-- The bytes `printf` writes: the format is used again while arguments are left. -/
def printf : Nat → List Char → List String → Bytes
  | 0, _, _ => []
  | fuel + 1, cs, args =>
    let uses := (cs.zip (cs.drop 1)).filter (fun (a, b) => a == '%' && b != '%')
    let bytes := format (cs.length + 1) cs (args.take uses.length)
    let left := args.drop uses.length
    if uses.isEmpty || left.isEmpty then bytes else bytes ++ printf fuel cs left

/-- What a test of the shell says. -/
def holds (s : Session) : List String → Bool
  | ["!", a] => a.isEmpty
  | ["-n", a] => !a.isEmpty
  | ["-z", a] => a.isEmpty
  | [op, a] =>
    match op, s.tree.find s.base ⟨a⟩ with
    | "-f", .ok (_, .file _ _) => true
    | "-x", .ok (_, .file _ executable) => executable
    | "-s", .ok (_, .file content _) => !content.isEmpty
    | "-d", .ok (_, .directory) => true
    | "-e", .ok _ => true
    | _, _ => false
  | [a, "=", b] => a == b
  | [a, "!=", b] => a != b
  | [a, "-eq", b] => a.toInt? == b.toInt?
  | [a, "-ne", b] => a.toInt? != b.toInt?
  | [a, "-lt", b] => (a.toInt?.getD 0) < (b.toInt?.getD 0)
  | [a, "-gt", b] => (b.toInt?.getD 0) < (a.toInt?.getD 0)
  | [a] => !a.isEmpty
  | _ => false

/-- What a built-in command does: its status, what it writes, and the script after it. -/
structure Effect where
  session : Session
  status : Nat := 0
  out : Bytes := []
  err : Bytes := []

/-- A command that failed complains of what it could not do. -/
def Effect.complaint (s : Session) (what : String) (e : IoError) : Effect :=
  ⟨s, 1, [], Text.utf8 (what ++ ": " ++ e.reason ++ "\n")⟩

/-- Changes the tree, or complains. -/
def Effect.change (s : Session) (what path : String) (changed : Except IoError FileTree) : Effect :=
  match changed with
  | .ok tree => ⟨{ s with tree }, 0, [], []⟩
  | .error e => .complaint s (what ++ " '" ++ path ++ "'") e

/-- Whether a signal is meant to be sent to the shell itself. -/
def killsItself (args : List String) : Bool := args.getLast? == some processNumber

/-- Runs a built-in command. -/
def builtin (s : Session) (command : String) (args : List String) : Effect :=
  match command, args with
  | ":", _ | "true", _ => ⟨s, 0, [], []⟩
  | "false", _ => ⟨s, 1, [], []⟩
  | "echo", "-n" :: args => ⟨s, 0, escaped (" ".intercalate args).toList, []⟩
  | "echo", _ => ⟨s, 0, escaped (" ".intercalate args).toList ++ [10], []⟩
  | "printf", "--" :: text :: args | "printf", text :: args =>
    ⟨s, 0, printf (args.length + 1) text.toList args, []⟩
  | "exit", _ =>
    let code := ((args.head?.bind String.toNat?).getD s.status) % 256
    ⟨{ s with ending? := some (.exited code) }, code, [], []⟩
  | "kill", _ =>
    if killsItself args then ⟨{ s with ending? := some .killed }, 0, [], []⟩ else ⟨s, 1, [], []⟩
  | "test", _ => ⟨s, if holds s args then 0 else 1, [], []⟩
  | "[", _ => ⟨s, if holds s args.dropLast then 0 else 1, [], []⟩
  | "shift", _ =>
    let n := (args.head?.bind String.toNat?).getD 1
    ⟨{ s with arguments := s.arguments.take 1 ++ s.arguments.drop (n + 1) }, 0, [], []⟩
  | "set", _ | "umask", _ | "sleep", _ => ⟨s, 0, [], []⟩
  | "cat", [path] =>
    match s.tree.readFile s.base ⟨path⟩ with
    | .ok content => ⟨s, 0, content, []⟩
    | .error e => .complaint s ("cat: " ++ path) e
  | "cp", [source, target] =>
    .change s "cp: cannot stat" source do
      let content ← s.tree.readFile s.base ⟨source⟩
      s.tree.writeFile s.base ⟨target⟩ content false
  | "mv", [source, target] =>
    .change s "mv: cannot stat" source (s.tree.rename s.base ⟨source⟩ ⟨target⟩)
  | "mkdir", [path] =>
    .change s "mkdir: cannot create directory" path (s.tree.makeDirectory s.base ⟨path⟩)
  | "touch", [path] =>
    match s.tree.find s.base ⟨path⟩ with
    | .ok _ => ⟨s, 0, [], []⟩
    | .error _ => .change s "touch: cannot touch" path (s.tree.writeFile s.base ⟨path⟩ [] false)
  | "rm", ["-f", path] =>
    match s.tree.removeFile s.base ⟨path⟩ with
    | .ok tree => ⟨{ s with tree }, 0, [], []⟩
    | .error _ => ⟨s, 0, [], []⟩
  | "rm", ["-rf", path] =>
    match s.tree.removeTree s.base ⟨path⟩ with
    | .ok tree => ⟨{ s with tree }, 0, [], []⟩
    | .error _ => ⟨s, 0, [], []⟩
  | "rm", [path] => .change s "rm: cannot remove" path (s.tree.removeFile s.base ⟨path⟩)
  | _, _ => ⟨s, 127, [], Text.utf8 (command ++ ": not found\n")⟩

/-! ### Redirections -/

/-- Where a descriptor leads. -/
inductive Sink where
  | stdout
  | stderr
  | file (path : Path)
  deriving DecidableEq, Repr

/-- Opens redirections from the left: the sinks of both outputs, or a complaint. -/
def openRedirects (s : Session) (out err : Sink) :
    List Redirect → Except IoError (Session × Sink × Sink)
  | [] => .ok (s, out, err)
  | r :: rest => do
    let target := s.expand r.target
    let path : Path := ⟨target⟩
    let assign (s : Session) (sink : Sink) :=
      if r.descriptor == 1 then openRedirects s sink err rest
      else if r.descriptor == 2 then openRedirects s out sink rest
      else openRedirects s out err rest
    match r.kind with
    | .duplicate =>
      assign s (if target == "1" then out else if target == "2" then err else .file path)
    | .write =>
      if target == "/dev/null" then assign s (.file path)
      else
        let executable := match s.tree.find s.base path with
          | .ok (_, .file _ executable) => executable
          | _ => false
        assign { s with tree := ← s.tree.writeFile s.base path [] executable } (.file path)
    | .append =>
      match s.tree.find s.base path with
      | .ok _ => assign s (.file path)
      | .error _ => assign { s with tree := ← s.tree.writeFile s.base path [] false } (.file path)
    | .input => do
      let _ ← s.tree.readFile s.base path
      openRedirects s out err rest

/-- Writes to a sink. What no file takes is lost. -/
def Session.write (s : Session) (sink : Sink) (bytes : Bytes) : Session :=
  match sink with
  | .stdout => { s with stdout := s.stdout ++ bytes }
  | .stderr => { s with stderr := s.stderr ++ bytes }
  | .file path =>
    match s.tree.append s.base path bytes with
    | .ok tree => { s with tree }
    | .error _ => s

/-- Assigns values to parameters. -/
def Session.assign (s : Session) (assignments : List (String × Word)) : Session :=
  assignments.foldl (fun s (name, w) => { s with bindings := (name, s.expand w) :: s.bindings }) s

/-- Runs a simple command. -/
def runSimple (s : Session) (assignments : List (String × Word)) (words : List Word)
    (redirects : List Redirect) : Session :=
  match openRedirects s .stdout .stderr redirects with
  | .error e => { s with status := 2, stderr := s.stderr ++ Text.utf8 ("sh: " ++ e.message ++ "\n") }
  | .ok (opened, out, err) =>
    match words.flatMap opened.expandWord with
    | [] => { opened.assign assignments with status := 0 }
    | command :: args =>
      let effect := builtin opened command args
      let s := (effect.session.write out effect.out).write err effect.err
      { s with status := effect.status }

/-! ### Commands -/

mutual

/-- Runs commands one after another until the script ends. -/
def runAll : Nat → List Command → Session → Session
  | 0, _, s => s
  | _ + 1, [], s => s
  | fuel + 1, c :: rest, s =>
    if s.ending?.isSome then s else runAll fuel rest (runCommand fuel c s)

/-- Runs a body for each item. -/
def runEach : Nat → String → List String → List Command → Session → Session
  | 0, _, _, _, s => s
  | _ + 1, _, [], _, s => s
  | fuel + 1, name, item :: items, body, s =>
    if s.ending?.isSome then s
    else
      runEach fuel name items body
        (runAll fuel body { s with bindings := (name, item) :: s.bindings })

/-- Runs the body of the first arm whose condition succeeds. -/
def runBranch : Nat → List (List Command × List Command) → List Command → Session → Session
  | 0, _, _, s => s
  | fuel + 1, [], otherwise, s => runAll fuel otherwise { s with status := 0 }
  | fuel + 1, (condition, body) :: arms, otherwise, s =>
    let s := runAll fuel condition s
    if s.ending?.isSome then s
    else if s.status == 0 then runAll fuel body s
    else runBranch fuel arms otherwise s

/-- Runs one command. -/
def runCommand : Nat → Command → Session → Session
  | 0, _, s => s
  | fuel + 1, command, s =>
    match command with
    | .simple assignments words redirects => runSimple s assignments words redirects
    | .forEach name items? body =>
      let items := match items? with
        | some words => words.flatMap s.expandWord
        | none => s.arguments.drop 1
      runEach fuel name items body { s with status := 0 }
    | .choose subject arms =>
      let cs := (s.expand subject).toList
      match arms.find? fun (patterns, _) => patterns.any fun w => isMatch (s.expandPattern w) cs with
      | some (_, body) => runAll fuel body { s with status := 0 }
      | none => { s with status := 0 }
    | .branch arms otherwise => runBranch fuel arms otherwise s
    | .both first second =>
      let s := runCommand fuel first s
      if s.ending?.isSome || s.status != 0 then s else runCommand fuel second s
    | .either first second =>
      let s := runCommand fuel first s
      if s.ending?.isSome || s.status == 0 then s else runCommand fuel second s
    | .negate command =>
      let s := runCommand fuel command s
      { s with status := if s.status == 0 then 1 else 0 }
    | .group body => runAll fuel body s

end

/-- Runs the script with the given text: the tree after it, and how it ended. -/
def runScript (tree : FileTree) (base : Place) (text : String) (path : String)
    (args : List String) : FileTree × ProgramResult :=
  match parse? text with
  | none => (tree, ⟨some 2, [], Text.utf8 "sh: unexpected end of script\n"⟩)
  | some commands =>
    let fuel := (text.length + 1) * (args.length + 1) + text.length
    let s := runAll fuel commands { tree, base, arguments := path :: args }
    let code? : Option Int := match s.ending? with
      | some .killed => none
      | some (.exited code) => some code
      | none => some s.status
    (s.tree, ⟨code?, s.stdout, s.stderr⟩)

end Stubwright.Host.Shell
