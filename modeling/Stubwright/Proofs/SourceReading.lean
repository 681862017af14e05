import Stubwright.Proofs.SourceLines

/-!
# Sources are read back

    target, members ──source──▶ text ──splitOn──▶ lines ──readLine──▶ Line ──step──▶ Outline

A source says nothing of where its parts begin: with no indentation, the brace that closes a method
looks like the one that closes the class. `readSource` tells them apart by what came before. It reads
each line by itself, without the blanks in front of it, and keeps track of where in the class it is.

Each member is written in lines that lead from the place between two methods back there, and add one
method (`foldlM_member`). So all of them are found, in order, and the package, the names in the class
line and the members are told from the text alone, whatever the indentation is
(`readSource_source`).
-/

namespace Stubwright.Stub

open Java Library

/-! ## Outlines -/

/-- The part of a method in front of its body. Types are given by their full names. -/
structure Heading where
  returns : String
  name : String
  /-- The type and the name of each parameter. -/
  parameters : List (String × String)
  exceptions : List String
  deriving DecidableEq, Repr

/-- A method of a stub class. -/
structure Method extends Heading where
  annotations : List String
  /-- The statement in the body, if there is one. -/
  statement? : Option String
  deriving DecidableEq, Repr

/-- What a source says. -/
structure Outline where
  /-- Empty for the default package. -/
  package : String
  className : String
  /-- Whether the class implements its target; otherwise it extends it. -/
  implements : Bool
  target : String
  methods : List Method
  deriving DecidableEq, Repr

/-- The heading of a member. -/
def Heading.ofMember (m : Member) : Heading where
  returns := m.returns.canonicalName
  name := m.name
  parameters := m.parameters.map fun p => (p.type.canonicalName, p.name)
  exceptions := m.exceptions.map JavaType.canonicalName

/-- The stub of a member. -/
def Method.ofMember (m : Member) : Method :=
  { Heading.ofMember m with
    annotations := m.annotations
    statement? := defaultStatement? m.returns }

/-- What the source of a stub is to say. -/
def outline (target : Descriptor) (members : List Member) : Outline where
  package := target.package
  className := target.simpleName ++ "Impl"
  implements := target.isInterface
  target := targetName target
  methods := members.map Method.ofMember

/-! ## Reading -/

/-- The items of a list between commas. -/
def readList {α : Type} (read : List Char → α) (cs : List Char) : List α :=
  if cs.isEmpty then [] else (cs.splitOn ',').map fun item => read (item.dropWhile (· = ' '))

/-- The type and the name of a parameter. -/
def readTyped (cs : List Char) : String × String :=
  (String.ofList (before ' ' cs), String.ofList (behind ' ' cs))

/-- The heading of a method. The modifier comes first, and the word in front of the exceptions is not
looked at. -/
def readHeading (cs : List Char) : Heading :=
  let typed := behind ' ' cs
  let method := behind ' ' typed
  let rest := behind '(' method
  { returns := String.ofList (before ' ' typed)
    name := String.ofList (before '(' method)
    parameters := readList readTyped (before ')' rest)
    exceptions := readList String.ofList (behind ' ' (behind ' ' (behind ')' rest))) }

/-- What stands in a line of a class. -/
inductive Line where
  | empty
  /-- The brace that closes a body. -/
  | brace
  /-- An annotation. -/
  | note (text : String)
  | heading (h : Heading)
  | statement (text : String)
  deriving DecidableEq, Repr

/-- The text in front of the brace that opens a body at the end of a line. -/
def opened? (cs : List Char) : Option (List Char) :=
  match cs.reverse with
  | '\x7b' :: ' ' :: rest => some rest.reverse
  | _ => none

/-- A line that is known by its first character is told without it being looked at to the end. -/
def readText (cs : List Char) : Line :=
  match cs with
  | [] => .empty
  | ['\x7d'] => .brace
  | '@' :: _ => .note (String.ofList cs)
  | _ =>
    match opened? cs with
    | some heading => .heading (readHeading heading)
    | none => .statement (String.ofList cs)

/-- Reads a line; the blanks in front do not count. -/
def readLine (cs : List Char) : Line := readText (cs.dropWhile (· = ' '))

/-- A position between the lines of a class, and the methods in front of it. -/
inductive ClassPosition where
  | between (methods : List Method)
  | above (methods : List Method) (annotations : List String)
  | inside (methods : List Method) (m : Method)
  | closed (methods : List Method)
  deriving DecidableEq, Repr

/-- Goes on by one line; nothing may follow the class but an empty line. -/
def step : ClassPosition → Line → Option ClassPosition
  | .between methods, .empty => some (.above methods [])
  | .between methods, .brace => some (.closed methods)
  | .above methods annotations, .note text =>
    some (.above methods (annotations ++ [text]))
  | .above methods annotations, .heading h => some (.inside methods ⟨h, annotations, none⟩)
  | .inside methods ⟨h, annotations, none⟩, .statement text =>
    some (.inside methods ⟨h, annotations, some text⟩)
  | .inside methods m, .brace => some (.between (methods ++ [m]))
  | .closed methods, .empty => some (.closed methods)
  | _, _ => none

/-- The methods of a class, from the lines behind its first one. -/
def readMethods (lines : List Line) : Option (List Method) := do
  match ← lines.foldlM step (.between []) with
  | .closed methods => some methods
  | _ => none

/-- The package, and the lines behind it. -/
def readPackage : List (List Char) → String × List (List Char)
  | [] => ("", [])
  | line :: lines =>
    if before ' ' line = "package".toList then
      (String.ofList (before ';' (behind ' ' line)), lines.tail)
    else ("", line :: lines)

/-- The name of the class, whether it implements its target, and the target. -/
def readClassLine (line : List Char) : Option (String × Bool × String) :=
  match line.splitOn ' ' with
  | [_, _, name, relation, target, _] =>
    some (String.ofList name, relation == "implements".toList, String.ofList target)
  | _ => none

/-- The outline of a source. -/
def readSource (text : String) : Option Outline :=
  match readPackage (text.toList.splitOn '\n') with
  | (_, []) => none
  | (package, line :: lines) => do
    let (className, implements, target) ← readClassLine line
    let methods ← readMethods (lines.map readLine)
    some ⟨package, className, implements, target, methods⟩

/-! ## Headings -/

variable {m : Member} {members : List Member} {target : Descriptor}

/-- Items that hold no comma and do not start with a blank are told apart. -/
theorem readList_intercalate {α : Type} (read : List Char → α) {items : List (List Char)}
    (hcomma : ∀ item ∈ items, ',' ∉ item)
    (hstart : ∀ item ∈ items, ∃ c rest, item = c :: rest ∧ c ≠ ' ') :
    readList read ([',', ' '].intercalate items) = items.map read := by
  have hdrop : ∀ item ∈ items, item.dropWhile (· = ' ') = item := by
    intro item hitem
    obtain ⟨c, rest, rfl, hc⟩ := hstart item hitem
    exact List.dropWhile_cons_of_neg (by simpa using hc)
  cases items with
  | nil => rfl
  | cons first later =>
    rw [List.forall_mem_cons] at hcomma hdrop
    obtain ⟨c, rest, hfirst, -⟩ := hstart first List.mem_cons_self
    have hne : ¬ ([',', ' '].intercalate (first :: later)).isEmpty = true := by
      rw [hfirst, List.intercalate_cons_cons_left]
      simp
    rw [readList, if_neg hne, splitOn_intercalate hcomma.1 hcomma.2, List.map_cons, hdrop.1,
      List.map_cons, List.map_map]
    refine congrArg _ (List.map_congr_left fun item hitem => ?_)
    show read ((' ' :: item).dropWhile (· = ' ')) = read item
    rw [List.dropWhile_cons_of_pos (by simp), hdrop.2 item hitem]

theorem readTyped_parameterText {p : Parameter} (h : UndividedParameter p) :
    readTyped (parameterText p).toList = (p.type.canonicalName, p.name) := by
  have hblank : ' ' ∉ p.type.canonicalName.toList := h.type.not_mem ' ' (by decide)
  rw [readTyped, toList_parameterText, before_append hblank, behind_append hblank,
    String.ofList_toList, String.ofList_toList]

theorem readList_parameterList (h : PlainMember m) :
    readList readTyped (parameterList m.parameters).toList
      = m.parameters.map fun p => (p.type.canonicalName, p.name) := by
  have hps := h.undividedParameters
  rw [toList_parameterList, readList_intercalate]
  · rw [List.map_map]
    exact List.map_congr_left fun p hp => readTyped_parameterText (hps p hp)
  · refine List.forall_mem_map.mpr fun p hp => ?_
    exact not_mem_parameterText (hps p hp) (by decide) (by decide)
  · refine List.forall_mem_map.mpr fun p hp => ?_
    rw [toList_parameterText]
    exact (h.parameterTypes p hp).start _

theorem readList_throwsClause (h : PlainMember m) :
    readList String.ofList (behind ' ' (behind ' ' (throwsClause m.exceptions).toList))
      = m.exceptions.map JavaType.canonicalName := by
  by_cases hne : m.exceptions = []
  · rw [hne]
    rfl
  · rw [toList_throwsClause hne, ← List.nil_append (' ' :: _), behind_append List.not_mem_nil,
      behind_append (by decide), readList_intercalate]
    · rw [List.map_map]
      exact List.map_congr_left fun e _ => String.ofList_toList
    · exact List.forall_mem_map.mpr fun e he => (h.exceptions e he).not_mem (by decide)
    · refine List.forall_mem_map.mpr fun e he => ?_
      rw [← List.append_nil e.canonicalName.toList]
      exact (h.exceptions e he).start []

/-- **The heading of a member is read off its signature.** -/
theorem readHeading_signature (h : PlainMember m) :
    readHeading (signature m).toList = Heading.ofMember m := by
  have hblank : ' ' ∉ m.returns.canonicalName.toList := h.returns.not_mem (by decide)
  have hname : '(' ∉ m.name.toList := h.name.not_mem (by decide)
  have hclosed := not_mem_parameterList h.undividedParameters
  unfold readHeading
  dsimp only
  rw [toList_signature, behind_append (by decide), before_append hblank, behind_append hblank,
    before_append hname, behind_append hname, before_append hclosed, behind_append hclosed,
    readList_parameterList h, readList_throwsClause h, String.ofList_toList, String.ofList_toList]
  rfl

/-! ## Lines of members -/

/-- Indentation does not count. -/
theorem readLine_margin (indent : Nat) (s : String) :
    readLine (margin indent ++ s).toList = readLine s.toList := by
  have hmargin : ∀ c ∈ (margin indent).toList, decide (c = ' ') = true := by
    intro c hc
    rw [margin, String.toList_ofList] at hc
    exact decide_eq_true (List.eq_of_mem_replicate hc)
  rw [readLine, String.toList_append, List.dropWhile_append_of_pos hmargin, readLine]

theorem readLine_note {a : String} (h : a.toList.head? = some '@') :
    readLine a.toList = .note a := by
  cases ha : a.toList with
  | nil =>
    rw [ha] at h
    cases h
  | cons c cs =>
    rw [ha] at h
    obtain rfl : c = '@' := Option.some.inj h
    rw [readLine, List.dropWhile_cons_of_neg (by simp), readText, ← ha, String.ofList_toList]

theorem opened?_append (cs : List Char) : opened? (cs ++ [' ', '\x7b']) = some cs := by
  simp [opened?]

theorem readLine_heading (h : PlainMember m) :
    readLine (signature m ++ " \x7b").toList = .heading (Heading.ofMember m) := by
  obtain ⟨rest, hrest⟩ : ∃ rest, (signature m).toList = 'p' :: rest := by
    rw [toList_signature]
    exact ⟨_, rfl⟩
  have hopened := opened?_append (signature m).toList
  have hheading := readHeading_signature h
  rw [hrest] at hopened hheading
  have hline : (signature m ++ " \x7b").toList = ('p' :: rest) ++ [' ', '\x7b'] := by
    rw [String.toList_append, hrest]
    rfl
  rw [hline, readLine, List.cons_append, List.dropWhile_cons_of_neg (by decide), ← List.cons_append]
  show (match opened? (('p' :: rest) ++ [' ', '\x7b']) with
    | some heading => Line.heading (readHeading heading)
    | none => .statement (String.ofList (('p' :: rest) ++ [' ', '\x7b']))) = _
  rw [hopened]
  exact congrArg Line.heading hheading

theorem readLine_statement {t : JavaType} {s : String} (h : defaultStatement? t = some s) :
    readLine s.toList = .statement s := by
  have hread : ∀ s ∈ statements, readLine s.toList = .statement s := by decide
  exact hread s (mem_statements h)

/-- What the lines of a member say. -/
def memberTokens (m : Member) : List Line :=
  m.annotations.map .note ++
    .heading (Heading.ofMember m) :: (defaultStatement? m.returns).toList.map .statement ++ [.brace]

/-- **The lines of a member are told apart by how they start**, whatever the indentation is. -/
theorem map_readLine_memberLines (h : Printable m) (indent : Nat) :
    (memberLines indent m).map (fun line => readLine line.toList) = memberTokens m := by
  have hannotations : m.annotations.map (fun a => readLine (margin indent ++ a).toList)
      = m.annotations.map .note := by
    refine List.map_congr_left fun a ha => ?_
    rw [readLine_margin, readLine_note (h.annotations a ha).1]
  have hstatement : (defaultStatement? m.returns).toList.map
        (fun s => readLine (margin indent ++ (margin indent ++ s)).toList)
      = (defaultStatement? m.returns).toList.map .statement := by
    refine List.map_congr_left fun s hs => ?_
    rw [readLine_margin, readLine_margin, readLine_statement (Option.mem_toList.mp hs)]
  have hbrace : readLine (margin indent ++ "\x7d").toList = .brace := by
    rw [readLine_margin]
    rfl
  simp only [memberLines, memberTokens, List.map_append, List.map_cons, List.map_map, List.map_nil,
    Function.comp_def]
  rw [hannotations, hstatement, hbrace, readLine_margin, readLine_heading h.plain]

/-! ## From line to line -/

theorem foldlM_annotations (methods : List Method) (before annotations : List String) :
    (annotations.map Line.note).foldlM step (.above methods before)
      = some (.above methods (before ++ annotations)) := by
  induction annotations generalizing before with
  | nil => rw [List.append_nil]; rfl
  | cons a annotations ih =>
    show (annotations.map Line.note).foldlM step (.above methods (before ++ [a])) = _
    rw [ih, List.append_assoc, List.singleton_append]

/-- **The lines of a member add one method**, and lead back to the place between methods. -/
theorem foldlM_member (methods : List Method) (m : Member) :
    (memberTokens m).foldlM step (.above methods [])
      = some (.between (methods ++ [Method.ofMember m])) := by
  rw [memberTokens, List.append_assoc, List.foldlM_append, foldlM_annotations]
  -- what is left is the heading, the statement if there is one, and the brace
  show (Line.heading (Heading.ofMember m) ::
    ((defaultStatement? m.returns).toList.map Line.statement ++ [Line.brace])).foldlM step
      (.above methods m.annotations) = _
  unfold Method.ofMember
  cases defaultStatement? m.returns <;> rfl

theorem foldlM_members (methods : List Method) (members : List Member) :
    (members.flatMap fun m => Line.empty :: memberTokens m).foldlM step (.between methods)
      = some (.between (methods ++ members.map Method.ofMember)) := by
  induction members generalizing methods with
  | nil => rw [List.map_nil, List.append_nil]; rfl
  | cons m members ih =>
    rw [List.flatMap_cons, List.cons_append, List.foldlM_cons]
    show (memberTokens m ++ _).foldlM step (.above methods []) = _
    rw [List.foldlM_append, foldlM_member]
    show (members.flatMap _).foldlM step (.between (methods ++ [Method.ofMember m])) = _
    rw [ih, List.map_cons, List.append_assoc, List.singleton_append]

/-- **The methods of a class are read, one for each member and in order.** -/
theorem readMethods_members (h : ∀ m ∈ members, Printable m) (indent : Nat) :
    readMethods ((((members.flatMap fun m => "" :: memberLines indent m) ++ ["\x7d"]).map
        String.toList ++ [[]]).map readLine)
      = some (members.map Method.ofMember) := by
  have hlines : ((members.flatMap fun m => "" :: memberLines indent m).map
        fun line => readLine line.toList)
      = members.flatMap fun m => .empty :: memberTokens m := by
    rw [List.map_flatMap]
    refine List.flatMap_congr fun m hm => ?_
    rw [List.map_cons, map_readLine_memberLines (h m hm)]
    rfl
  rw [List.map_append, List.map_append, List.map_append, List.map_map, Function.comp_def, hlines]
  unfold readMethods
  rw [List.append_assoc, List.foldlM_append, foldlM_members]
  rfl

/-! ## Sources -/

theorem before_classLine (target : Descriptor) :
    before ' ' (" ".intercalate (classWords target)).toList = "public".toList := by
  rw [toList_classWords, classWords, List.map_cons, List.intercalate_cons_of_ne_nil (by simp),
    List.append_assoc]
  exact before_append (by decide)

theorem readPackage_packageLines (h : isBinaryName target.name = true) {line : List Char}
    (hline : before ' ' line ≠ "package".toList) (rest : List (List Char)) :
    readPackage ((packageLines target).map String.toList ++ line :: rest)
      = (target.package, line :: rest) := by
  unfold packageLines
  cases hempty : target.package.isEmpty with
  | true =>
    rw [if_pos rfl, List.map_nil, List.nil_append, readPackage, if_neg hline,
      String.isEmpty_iff.mp hempty]
  | false =>
    have hend : ';' ∉ target.package.toList := fun hmem =>
      absurd (isNameChar_of_package h _ hmem) (by decide)
    have htext : ("package " ++ (target.package ++ ";")).toList
        = "package".toList ++ ' ' :: (target.package.toList ++ ';' :: []) := by
      rw [String.toList_append, String.toList_append]
      rfl
    rw [if_neg Bool.false_ne_true, List.map_cons, List.cons_append, htext, readPackage,
      before_append (by decide), if_pos rfl, behind_append (by decide), before_append hend,
      String.ofList_toList]
    rfl

theorem readClassLine_classWords (h : isBinaryName target.name = true) :
    readClassLine (" ".intercalate (classWords target)).toList
      = some (className target, target.isInterface, targetName target) := by
  have hblank : ∀ word ∈ (classWords target).map String.toList, ' ' ∉ word :=
    List.forall_mem_map.mpr (forall_classWords ((plain_className h).not_mem (by decide))
      ((plain_targetName h).not_mem (by decide)) (by decide))
  have hrelation : ((relation target).toList == "implements".toList) = target.isInterface := by
    rcases relation_cases target with ⟨heq, hkind⟩ | ⟨heq, hkind⟩ <;> rw [heq, hkind] <;> decide
  rw [readClassLine, toList_classWords, List.splitOn_intercalate ' ' hblank (by simp [classWords])]
  show some (String.ofList (className target).toList, _, String.ofList (targetName target).toList)
    = _
  rw [hrelation, String.ofList_toList, String.ofList_toList]

/-- **The text of a source says all that was to be written**, and the name of its class is an
identifier: the package, the target and the members are read back in order, whatever the indentation
is. -/
theorem readSource_source (h : isBinaryName target.name = true)
    (hmembers : ∀ m ∈ members, Printable m) (indent : Nat) :
    readSource (source indent target members).text = some (outline target members) ∧
      isIdentifier (outline target members).className = true := by
  refine ⟨?_, isIdentifier_className h⟩
  have hstart : before ' ' (" ".intercalate (classWords target)).toList ≠ "package".toList := by
    rw [before_classLine]
    decide
  have hlines := splitOn_source h hmembers indent
  rw [sourceLines, List.map_append, List.map_cons, List.append_assoc,
    List.cons_append] at hlines
  unfold readSource
  rw [hlines, readPackage_packageLines h hstart]
  dsimp only
  rw [readClassLine_classWords h, readMethods_members hmembers indent]
  rfl

/-- A nested interface. -/
def sink : Descriptor := { name := "a.Map$Sink" }

/-- Two methods of one name, one with all parts and one with none. -/
def putMembers : List Member := [
  { name := "put"
    returns := .array (.reference "a.Map$Entry")
    parameters := [⟨"key", .reference "a.Map$Key"⟩, ⟨"counts", .array (.primitive .int)⟩]
    exceptions := [.reference "a.Full", .reference "java.io.IOException"]
    annotations := ["@Deprecated", "@Since(\"2, \x7d\")"] },
  { name := "put", returns := .primitive .void }]

theorem readSource_source_put :
    isBinaryName sink.name = true ∧ (∀ m ∈ putMembers, Printable m) ∧
      readSource (source 0 sink putMembers).text = some (outline sink putMembers) ∧
      isIdentifier (outline sink putMembers).className = true := by
  have hname : isBinaryName sink.name = true := by decide +kernel
  have hchecked : ∀ m ∈ putMembers, checkMember "a.Map$Sink" m = .ok () := by decide +kernel
  have hread : ∀ m ∈ putMembers, ∀ t ∈ m.types, JavaType.ofName? t.binaryName = some t := by
    decide +kernel
  have hannotations : ∀ m ∈ putMembers, ∀ a ∈ m.annotations,
      a.toList.head? = some '@' ∧ '\n' ∉ a.toList := by decide +kernel
  have hmembers : ∀ m ∈ putMembers, Printable m := fun m hm =>
    ⟨⟨_, hchecked m hm⟩, fun t ht => ⟨t.binaryName, hread m hm t ht⟩, hannotations m hm⟩
  exact ⟨hname, hmembers, readSource_source hname hmembers 0⟩

end Stubwright.Stub
