/-!
# Shell scripts

    script text ──tokens──▶ tokens ──parse?──▶ commands

The part of the shell language in which stand-ins for compilers are written: simple commands with
redirections, `for`, `case`, `if`, lists joined by `&&` and `||`, quoting, and parameters with a
pattern taken off either end. Reading takes as many steps as the text has characters at most, and
that number is its fuel.
-/

namespace Stubwright.Host.Shell

/-- A piece of a word. -/
inductive Piece where
  /-- Characters that stand for themselves; quoted ones are no pattern. -/
  | text (chars : List Char) (quoted : Bool)
  /-- The value of a parameter. -/
  | value (name : String) (quoted : Bool)
  /-- The value without what the pattern matches at its end or at its start. -/
  | cut (name : String) (atEnd longest : Bool) (pattern : List Char) (quoted : Bool)
  deriving Repr, Inhabited

/-- A word as written. -/
structure Word where
  pieces : List Piece
  /-- Whether some of it was quoted, so that it stays a word even if it has no characters. -/
  quoted : Bool
  deriving Repr, Inhabited

/-- The characters of a piece that is neither quoted nor a parameter. -/
def Piece.plain? : Piece → Option (List Char)
  | .text chars false => some chars
  | _ => none

/-- The characters of a word that is written without quotes and parameters. -/
def Word.plain? (w : Word) : Option String :=
  if w.quoted then none
  else (w.pieces.mapM Piece.plain?).map fun chars => String.ofList chars.flatten

/-- A token of a script. -/
inductive Token where
  | word (w : Word)
  /-- An operator, a line break among them. -/
  | op (text : String)
  /-- The number in front of a redirection. -/
  | descriptor (n : Nat)
  deriving Repr, Inhabited

/-! ### Words -/

/-- Characters that end a word. -/
def isMeta (c : Char) : Bool := " \t\n;&|<>()".toList.contains c

/-- Characters of parameter names. -/
def isNamePart (c : Char) : Bool := c.isAlphanum || c == '_'

/-- The parameter at the head of `cs`, which follows a dollar sign, and what follows it. -/
def readParameter (quoted : Bool) (cs : List Char) : Piece × List Char :=
  match cs with
  | '{' :: rest =>
    let name := String.ofList (rest.takeWhile fun c => isNamePart c || "@*?$!".toList.contains c)
    let afterName := rest.drop name.length
    let body := afterName.takeWhile (· != '}')
    let after := (afterName.dropWhile (· != '}')).drop 1
    let piece := match body with
      | '%' :: '%' :: pattern => .cut name true true pattern quoted
      | '%' :: pattern => .cut name true false pattern quoted
      | '#' :: '#' :: pattern => .cut name false true pattern quoted
      | '#' :: pattern => .cut name false false pattern quoted
      | _ => .value name quoted
    (piece, after)
  | c :: rest =>
    if c.isDigit || "@*#?$!".toList.contains c then (.value c.toString quoted, rest)
    else if isNamePart c then
      (.value (String.ofList (cs.takeWhile isNamePart)) quoted, cs.dropWhile isNamePart)
    else (.text ['$'] quoted, cs)
  | [] => (.text ['$'] quoted, [])

/-- The pieces up to a closing double quote, and what follows it. -/
def readQuoted : Nat → List Char → List Piece × List Char
  | 0, cs => ([], cs)
  | _ + 1, [] => ([], [])
  | _ + 1, '"' :: rest => ([], rest)
  | fuel + 1, '\\' :: c :: rest =>
    let (pieces, after) := readQuoted fuel rest
    if "\"\\$`".toList.contains c then (.text [c] true :: pieces, after)
    else if c == '\n' then (pieces, after)
    else (.text ['\\', c] true :: pieces, after)
  | fuel + 1, '$' :: rest =>
    let (piece, after) := readParameter true rest
    let (pieces, after) := readQuoted fuel after
    (piece :: pieces, after)
  | fuel + 1, c :: rest =>
    let (pieces, after) := readQuoted fuel rest
    (.text [c] true :: pieces, after)

/-- The word at the head of `cs`, and what follows it. -/
def readWord : Nat → List Char → Word × List Char
  | 0, cs => (⟨[], false⟩, cs)
  | _ + 1, [] => (⟨[], false⟩, [])
  | fuel + 1, '\'' :: rest =>
    let (word, after) := readWord fuel ((rest.dropWhile (· != '\'')).drop 1)
    (⟨.text (rest.takeWhile (· != '\'')) true :: word.pieces, true⟩, after)
  | fuel + 1, '"' :: rest =>
    let (pieces, after) := readQuoted rest.length rest
    let (word, after) := readWord fuel after
    (⟨pieces ++ word.pieces, true⟩, after)
  | fuel + 1, '\\' :: c :: rest =>
    let (word, after) := readWord fuel rest
    if c == '\n' then (word, after) else (⟨.text [c] true :: word.pieces, true⟩, after)
  | fuel + 1, '$' :: rest =>
    let (piece, after) := readParameter false rest
    let (word, after) := readWord fuel after
    (⟨piece :: word.pieces, word.quoted⟩, after)
  | fuel + 1, c :: rest =>
    if isMeta c then (⟨[], false⟩, c :: rest)
    else
      let (word, after) := readWord fuel rest
      (⟨.text [c] false :: word.pieces, word.quoted⟩, after)

/-! ### Tokens -/

/-- The operators, longer ones before those they start with. -/
def operators : List String :=
  [";;", "&&", "||", ">>", ">&", "<&", ";", "&", "|", "(", ")", ">", "<", "\n"]

/-- The tokens of a script. -/
def tokensFrom : Nat → List Char → List Token
  | 0, _ => []
  | _ + 1, [] => []
  | fuel + 1, c :: rest =>
    if c == ' ' || c == '\t' then tokensFrom fuel rest
    else if c == '\\' && rest.head? == some '\n' then tokensFrom fuel (rest.drop 1)
    else if c == '#' then tokensFrom fuel (rest.dropWhile (· != '\n'))
    else match operators.find? (·.toList.isPrefixOf (c :: rest)) with
      | some text => .op text :: tokensFrom fuel ((c :: rest).drop text.length)
      | none =>
        if c.isDigit && (rest.head?.any fun d => d == '>' || d == '<') then
          .descriptor (c.toNat - '0'.toNat) :: tokensFrom fuel rest
        else
          let (word, after) := readWord (rest.length + 1) (c :: rest)
          .word word :: tokensFrom fuel after

/-- The tokens of a script. -/
def tokens (text : String) : List Token := tokensFrom text.length text.toList

/-! ### Commands -/

/-- Where a redirection leads. -/
inductive RedirectKind where
  | write
  | append
  | duplicate
  | input
  deriving DecidableEq, Repr

/-- A redirection of a descriptor. -/
structure Redirect where
  descriptor : Nat
  kind : RedirectKind
  target : Word
  deriving Repr

/-- A command. -/
inductive Command where
  | simple (assignments : List (String × Word)) (words : List Word) (redirects : List Redirect)
  /-- Runs the body for each item; without a list the items are the arguments. -/
  | forEach (name : String) (items? : Option (List Word)) (body : List Command)
  | choose (subject : Word) (arms : List (List Word × List Command))
  | branch (arms : List (List Command × List Command)) (otherwise : List Command)
  | both (first second : Command)
  | either (first second : Command)
  | negate (command : Command)
  | group (body : List Command)

/-- A parser of tokens. -/
abbrev Parser (α : Type) := List Token → Option (α × List Token)

/-- What follows the line breaks at the head. -/
def skipLines : List Token → List Token
  | .op "\n" :: rest => skipLines rest
  | ts => ts

/-- The plain word at the head. -/
def head? : List Token → Option String
  | .word w :: _ => w.plain?
  | _ => none

/-- What follows the given keyword, which has to come next but for line breaks. -/
def keyword? (text : String) (ts : List Token) : Option (List Token) :=
  match skipLines ts with
  | .word w :: rest => if w.plain? == some text then some rest else none
  | _ => none

/-- The words that end a list of commands. -/
def closers : List String := ["do", "done", "then", "elif", "else", "fi", "esac", "\x7d"]

/-- Whether a list of commands ends here. -/
def isClosed (ts : List Token) : Bool :=
  match ts with
  | [] => true
  | .op text :: _ => text == ";;" || text == ")"
  | _ => (head? ts).any closers.contains

/-- The words up to the next operator. -/
def takeWords : List Token → List Word × List Token
  | .word w :: rest =>
    let (words, after) := takeWords rest
    (w :: words, after)
  | ts => ([], ts)

/-- The name and value of a word that is an assignment. -/
def assignment? (w : Word) : Option (String × Word) :=
  let letters := w.pieces.takeWhile fun p => (p.plain?.getD []).any isNamePart
  match w.pieces.drop letters.length with
  | .text ['='] false :: value =>
    let name := String.ofList (letters.flatMap fun p => p.plain?.getD [])
    if name.isEmpty || name.toList.head?.any Char.isDigit then none else some (name, ⟨value, true⟩)
  | _ => none

/-- The redirection an operator starts. -/
def redirect? (n? : Option Nat) : List Token → Option (Redirect × List Token)
  | .op ">" :: .word w :: rest => some (⟨n?.getD 1, .write, w⟩, rest)
  | .op ">>" :: .word w :: rest => some (⟨n?.getD 1, .append, w⟩, rest)
  | .op ">&" :: .word w :: rest => some (⟨n?.getD 1, .duplicate, w⟩, rest)
  | .op "<" :: .word w :: rest => some (⟨n?.getD 0, .input, w⟩, rest)
  | _ => none

/-- A simple command: assignments, words and redirections up to the next operator. -/
def parseSimple : Nat → List (String × Word) → List Word → List Redirect → Parser Command
  | 0, _, _, _, _ => none
  | fuel + 1, assignments, words, redirects, ts =>
    let done := some (.simple assignments words redirects, ts)
    let redirected (found : Option (Redirect × List Token)) := match found with
      | some (r, rest) => parseSimple fuel assignments words (redirects ++ [r]) rest
      | none => none
    match ts with
    | .word w :: rest =>
      match if words.isEmpty then assignment? w else none with
      | some a => parseSimple fuel (assignments ++ [a]) words redirects rest
      | none => parseSimple fuel assignments (words ++ [w]) redirects rest
    | .descriptor n :: rest => redirected (redirect? (some n) rest)
    | .op text :: _ =>
      if [">", ">>", ">&", "<"].contains text then redirected (redirect? none ts) else done
    | [] => done

/-- The patterns in front of a case arm, up to the parenthesis that ends them. -/
def parsePatterns : Nat → Parser (List Word)
  | 0, _ => none
  | fuel + 1, .op "(" :: rest => parsePatterns fuel rest
  | _ + 1, .word w :: .op ")" :: rest => some ([w], rest)
  | fuel + 1, .word w :: .op "|" :: rest => do
    let (words, after) ← parsePatterns fuel rest
    return (w :: words, after)
  | _ + 1, _ => none

mutual

/-- Commands one after another, up to a word or an operator that ends the list. -/
def parseList : Nat → Parser (List Command)
  | 0, _ => none
  | fuel + 1, ts =>
    match ts with
    | .op "\n" :: rest | .op ";" :: rest => parseList fuel rest
    | _ =>
      if isClosed ts then some ([], ts)
      else do
        let (first, rest) ← parseCommand fuel ts
        let (command, rest) ← parseJoined fuel first rest
        let (commands, rest) ← parseList fuel rest
        return (command :: commands, rest)

/-- What is joined to a command by `&&` and `||`, from the left. -/
def parseJoined : Nat → Command → Parser Command
  | 0, _, _ => none
  | fuel + 1, first, ts =>
    match ts with
    | .op "&&" :: rest => do
      let (second, rest) ← parseCommand fuel (skipLines rest)
      parseJoined fuel (.both first second) rest
    | .op "||" :: rest => do
      let (second, rest) ← parseCommand fuel (skipLines rest)
      parseJoined fuel (.either first second) rest
    | .op text :: _ => if ["\n", ";", ";;", ")"].contains text then some (first, ts) else none
    | _ => if isClosed ts then some (first, ts) else none

/-- One command. -/
def parseCommand : Nat → Parser Command
  | 0, _ => none
  | fuel + 1, ts =>
    match head? ts with
    | some "!" => do
      let (command, rest) ← parseCommand fuel (ts.drop 1)
      return (.negate command, rest)
    | some "for" =>
      match ts.drop 1 with
      | .word w :: rest => do
        let name ← w.plain?
        let (items?, rest) := match keyword? "in" rest with
          | some rest =>
            let (words, rest) := takeWords rest
            (some words, rest)
          | none => (none, rest)
        let rest := match rest with
          | .op ";" :: rest => rest
          | _ => rest
        let (body, rest) ← parseList fuel (← keyword? "do" rest)
        return (.forEach name items? body, ← keyword? "done" rest)
      | _ => none
    | some "case" =>
      match ts.drop 1 with
      | .word w :: rest => do
        let (arms, rest) ← parseArms fuel (← keyword? "in" rest)
        return (.choose w arms, rest)
      | _ => none
    | some "if" => parseBranch fuel [] (ts.drop 1)
    | some "\x7b" => do
      let (body, rest) ← parseList fuel (ts.drop 1)
      return (.group body, ← keyword? "\x7d" rest)
    | _ => parseSimple (ts.length + 1) [] [] [] ts

/-- The arms of a `case`, up to its end. -/
def parseArms : Nat → Parser (List (List Word × List Command))
  | 0, _ => none
  | fuel + 1, ts =>
    match keyword? "esac" ts with
    | some rest => some ([], rest)
    | none => do
      let (patterns, rest) ← parsePatterns (ts.length + 1) (skipLines ts)
      let (body, rest) ← parseList fuel rest
      let rest := match rest with
        | .op ";;" :: rest => rest
        | _ => rest
      let (arms, rest) ← parseArms fuel rest
      return ((patterns, body) :: arms, rest)

/-- The rest of an `if` after its keyword or that of a further condition. -/
def parseBranch : Nat → List (List Command × List Command) → Parser Command
  | 0, _, _ => none
  | fuel + 1, arms, ts => do
    let (condition, rest) ← parseList fuel ts
    let (body, rest) ← parseList fuel (← keyword? "then" rest)
    let arms := arms ++ [(condition, body)]
    match keyword? "elif" rest with
    | some rest => parseBranch fuel arms rest
    | none =>
      match keyword? "else" rest with
      | some rest => do
        let (otherwise, rest) ← parseList fuel rest
        return (.branch arms otherwise, ← keyword? "fi" rest)
      | none => return (.branch arms [], ← keyword? "fi" rest)

end

/-- The commands of a script. -/
def parse? (text : String) : Option (List Command) :=
  let ts := tokens text
  match parseList (2 * ts.length + 2) ts with
  | some (commands, []) => some commands
  | _ => none

end Stubwright.Host.Shell
