import Stubwright.Build.ClassPath
import Stubwright.Stub.Source

/-!
# Options and arguments

    arguments ──normalize──▶ arguments ──read──▶ Draft ──complete──▶ Options

Options take a value in the next argument or attached to them, switches take none; two arguments
without a dash are the type and the path. What an option was given is taken in as soon as something
else follows it, and only then checked: an unknown option is complained of before the value in front
of it. Options that are absent may be given by the environment.
-/

namespace Stubwright.CommandLine

open Build

/-- What one invocation is asked to do. -/
structure Options where
  /-- Whether to package the stub instead of writing its source. -/
  jar : Bool := false
  typeName : String
  path : Path
  types : List Path
  javac? : Option Path := none
  classPath : ClassPath := []
  scratchDir? : Option Path := none
  indent : Nat := Stub.defaultIndent
  verbose : Bool := false
  deriving DecidableEq, Repr, Inhabited

/-- Why arguments ask for nothing that can be done. -/
inductive ArgumentError where
  | missingRequired
  | unknown
  | conflict
  | invalidValue
  | badNumber
  | tooManyValues
  | helpWanted
  | versionWanted
  deriving DecidableEq, Repr, Inhabited

/-- The exit code: help and version are no failures. -/
def ArgumentError.exitCode : ArgumentError → Nat
  | helpWanted | versionWanted => 0
  | _ => 2

/-- Replaces the single-dash form of `--jar`. -/
def normalize (args : List String) : List String :=
  args.map fun arg => if arg == "-jar" then "--jar" else arg

/-- The variables of the environment that stand in for options. -/
def typesVariable : String := "IRONIMPL_TYPES"

def javacVariable : String := "IRONIMPL_JAVAC"

/-! ### What arguments can set -/

/-- What takes a value. The last two take arguments without a dash. -/
inductive Setting where
  | types
  | javac
  | classPath
  | scratchDir
  | indent
  | typeName
  | path
  deriving DecidableEq, Repr

/-- What takes no value. -/
inductive Switch where
  | jar
  | verbose
  | help
  | version
  deriving DecidableEq, Repr

/-- The options with two dashes. -/
def long? (name : String) : Option (Setting ⊕ Switch) :=
  match name with
  | "types" => some (.inl .types)
  | "javac" => some (.inl .javac)
  | "class-path" => some (.inl .classPath)
  | "scratch-dir" => some (.inl .scratchDir)
  | "indent" => some (.inl .indent)
  | "jar" => some (.inr .jar)
  | "verbose" => some (.inr .verbose)
  | "help" => some (.inr .help)
  | "version" => some (.inr .version)
  | _ => none

/-- The options with one dash. -/
def short? (c : Char) : Option (Setting ⊕ Switch) :=
  if c == 't' then some (.inl .types)
  else if c == 'v' then some (.inr .verbose)
  else if c == 'h' then some (.inr .help)
  else if c == 'V' then some (.inr .version)
  else none

/-! ### Taking values in -/

/-- What arguments have said so far. -/
structure Draft where
  jar : Bool := false
  verbose : Bool := false
  typeName? : Option String := none
  path? : Option Path := none
  types? : Option (List Path) := none
  javac? : Option Path := none
  classPath : ClassPath := []
  scratchDir? : Option Path := none
  indent? : Option Nat := none
  deriving DecidableEq, Repr, Inhabited

/-- A path, which has to have characters. -/
def pathValue (text : String) : Except ArgumentError Path :=
  if text.isEmpty then .error .invalidValue else .ok ⟨text⟩

/-- The largest number an option takes. -/
def numberLimit : Nat := 0x10000000000000000

/-- A number: digits, after a plus sign or not. -/
def numberValue (text : String) : Except ArgumentError Nat :=
  let digits := match text.toList with
    | '+' :: rest => rest
    | cs => cs
  let n := digits.foldl (fun acc c => acc * 10 + (c.toNat - '0'.toNat)) 0
  if !digits.isEmpty && digits.all Char.isDigit && n < numberLimit then .ok n
  else .error .badNumber

/-- What may be given only once. -/
def once {α : Type} (given? : Option α) (value : Except ArgumentError α) :
    Except ArgumentError (Option α) :=
  if given?.isSome then .error .conflict else value.map some

/-- The character between the files of one `types` value. -/
def typesSeparator : Char := ','

/-- Takes in the value of a setting. -/
def Draft.set (d : Draft) (setting : Setting) (value : String) : Except ArgumentError Draft :=
  match setting with
  | .types => do
    let paths ← (Text.pieces (· == typesSeparator) value).mapM pathValue
    return { d with types? := some (d.types?.getD [] ++ paths) }
  | .classPath => do return { d with classPath := d.classPath ++ [← pathValue value] }
  | .javac => do return { d with javac? := ← once d.javac? (pathValue value) }
  | .scratchDir => do return { d with scratchDir? := ← once d.scratchDir? (pathValue value) }
  | .indent => do return { d with indent? := ← once d.indent? (numberValue value) }
  | .typeName => .ok { d with typeName? := some value }
  | .path => do return { d with path? := some (← pathValue value) }

/-- Takes in a switch. -/
def Draft.turnOn (d : Draft) : Switch → Except ArgumentError Draft
  | .jar => if d.jar then .error .conflict else .ok { d with jar := true }
  | .verbose => if d.verbose then .error .conflict else .ok { d with verbose := true }
  | .help => .error .helpWanted
  | .version => .error .versionWanted

/-! ### Reading arguments -/

/-- A setting that was met, and the value it was given, if any, not taken in yet. -/
structure Pending where
  setting : Setting
  value? : Option String
  deriving DecidableEq, Repr

/-- The state between two arguments. -/
structure Reading where
  draft : Draft := {}
  pending? : Option Pending := none
  /-- Whether `--` was met, after which no argument is an option. -/
  plain : Bool := false
  deriving Repr, Inhabited

namespace Reading

/-- Takes the pending value in. A setting without a value is an error. -/
def settle (r : Reading) : Except ArgumentError Reading :=
  match r.pending? with
  | none => .ok r
  | some ⟨_, none⟩ => .error .invalidValue
  | some ⟨setting, some value⟩ => do
    return { r with draft := ← r.draft.set setting value, pending? := none }

/-- Takes a switch in. -/
def switch (r : Reading) (s : Switch) : Except ArgumentError Reading := do
  let r ← r.settle
  return { r with draft := ← r.draft.turnOn s }

/-- A setting is met, with a value attached or not. -/
def setting (r : Reading) (s : Setting) (attached? : Option String) :
    Except ArgumentError Reading := do
  let r ← r.settle
  match attached? with
  | none => return { r with pending? := some ⟨s, none⟩ }
  | some value => return { r with draft := ← r.draft.set s value }

/-- Reads an option with two dashes, given what follows these. -/
def long (r : Reading) (cs : List Char) : Except ArgumentError Reading :=
  let name := String.ofList (cs.takeWhile (· != '='))
  let attached? := match cs.dropWhile (· != '=') with
    | '=' :: value => some (String.ofList value)
    | _ => none
  match long? name with
  | none => .error .unknown
  | some (.inl s) => r.setting s attached?
  | some (.inr s) => if attached?.isSome then .error .tooManyValues else r.switch s

/-- Reads options with one dash, given what follows it: switches, and at most one setting, to which
the rest is attached. -/
def short (r : Reading) : List Char → Except ArgumentError Reading
  | [] => .ok r
  | c :: cs =>
    match short? c with
    | none => .error .unknown
    | some (.inr s) => do (← r.switch s).short cs
    | some (.inl s) =>
      match cs with
      | [] => r.setting s none
      | '=' :: value => r.setting s (some (String.ofList value))
      | value => r.setting s (some (String.ofList value))

/-- The setting that the next argument without a dash is for. -/
def nextPositional? (r : Reading) : Option Setting :=
  match r.pending? with
  | some ⟨.typeName, _⟩ => some .path
  | some ⟨.path, _⟩ => none
  | _ =>
    if r.draft.typeName?.isNone then some .typeName
    else if r.draft.path?.isNone then some .path
    else none

/-- Reads an argument that is no option. -/
def positional (r : Reading) (arg : String) : Except ArgumentError Reading :=
  match r.nextPositional? with
  | none => .error .unknown
  | some s => do return { ← r.settle with pending? := some ⟨s, some arg⟩ }

/-- Reads an argument. -/
def step (r : Reading) (arg : String) : Except ArgumentError Reading :=
  if r.plain then r.positional arg
  else match arg.toList with
    | ['-', '-'] => .ok { r with plain := true }
    | '-' :: '-' :: cs => r.long cs
    | '-' :: c :: cs => r.short (c :: cs)
    | _ =>
      match r.pending? with
      | some ⟨setting, none⟩ => .ok { r with pending? := some ⟨setting, some arg⟩ }
      | _ => r.positional arg

end Reading

/-! ### The whole -/

/-- Takes in what the environment says of settings that are absent. -/
def Draft.fromEnvironment (d : Draft) (environment : String → Option String) :
    Except ArgumentError Draft := do
  let d ← match d.types?, environment typesVariable with
    | none, some value => d.set .types value
    | _, _ => pure d
  match d.javac?, environment javacVariable with
  | none, some value => d.set .javac value
  | _, _ => return d

/-- The options of a draft that lacks nothing. -/
def Draft.complete (d : Draft) : Except ArgumentError Options :=
  match d.types?, d.typeName?, d.path? with
  | some types, some typeName, some path =>
    .ok { jar := d.jar, typeName, path, types, javac? := d.javac?, classPath := d.classPath,
          scratchDir? := d.scratchDir?, indent := d.indent?.getD Stub.defaultIndent,
          verbose := d.verbose }
  | _, _, _ => .error .missingRequired

/-- Reads the arguments of an invocation. -/
def Options.read (environment : String → Option String) (args : List String) :
    Except ArgumentError Options := do
  let r ← (normalize args).foldlM Reading.step {}
  let r ← r.settle
  (← r.draft.fromEnvironment environment).complete

end Stubwright.CommandLine
