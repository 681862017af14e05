import Stubwright.Proofs.Locations
import Stubwright.Proofs.SignatureReading

/-!
# Sources are made of lines

    target, members ──sourceLines──▶ lines ──ended──▶ text ──splitOn──▶ the same lines

The text of a source is that of its lines (`toList_source`). Names, types and annotations of a member
that passes its checks hold no end of a line (`Printable`), and neither does anything else that is put
between them. So the text falls apart into these lines again (`splitOn_source`).
-/

namespace Stubwright.Stub

open Java Library

/-! ## Lines -/

/-- The statement that returns the default of a type. -/
def defaultStatement? : JavaType → Option String
  | .primitive .void => none
  | .primitive .boolean => some "return true;"
  | .primitive _ => some "return 0;"
  | .reference _ => some "return null;"
  | .array _ => some "return null;"

/-- Lines, each with its end. -/
def ended (lines : List String) : List Char := lines.flatMap fun line => line.toList ++ ['\n']

theorem ended_cons (line : String) (lines : List String) :
    ended (line :: lines) = line.toList ++ '\n' :: ended lines := by
  rw [ended, List.flatMap_cons, List.append_assoc]
  rfl

theorem ended_append (lines lines' : List String) :
    ended (lines ++ lines') = ended lines ++ ended lines' :=
  List.flatMap_append

theorem splitOn_ended {lines : List String} (h : ∀ line ∈ lines, '\n' ∉ line.toList) :
    (ended lines).splitOn '\n' = lines.map String.toList ++ [[]] := by
  induction lines with
  | nil => rfl
  | cons line lines ih =>
    rw [List.forall_mem_cons] at h
    rw [ended_cons, List.splitOn, List.splitOnP_append_cons_of_forall_mem
      (fun c hc => beq_false_of_ne (ne_of_mem_of_not_mem hc h.1)) '\n' (by simp)]
    exact congrArg (line.toList :: ·) (ih h.2)

/-- The lines of a member. -/
def memberLines (indent : Nat) (m : Member) : List String :=
  (m.annotations.map fun a => margin indent ++ a) ++
    (margin indent ++ (signature m ++ " \x7b")) ::
      ((defaultStatement? m.returns).toList.map fun s => margin indent ++ (margin indent ++ s)) ++
    [margin indent ++ "\x7d"]

/-- The lines in front of the class. -/
def packageLines (target : Descriptor) : List String :=
  if target.package.isEmpty then [] else ["package " ++ (target.package ++ ";"), ""]

/-- The words of the class line. -/
def classWords (target : Descriptor) : List String :=
  ["public", "class", className target, relation target, targetName target, "\x7b"]

/-- The lines of a source. -/
def sourceLines (indent : Nat) (target : Descriptor) (members : List Member) : List String :=
  packageLines target ++ " ".intercalate (classWords target) ::
    ((members.flatMap fun m => "" :: memberLines indent m) ++ ["\x7d"])

/-- All statements there are. -/
def statements : List String := ["return true;", "return 0;", "return null;"]

theorem mem_statements {t : JavaType} {s : String} (h : defaultStatement? t = some s) :
    s ∈ statements := by
  unfold defaultStatement? at h
  split at h <;> cases h <;> decide

theorem statement?_eq (t : JavaType) :
    (ReturnCategory.ofType t).statement? = defaultStatement? t := by
  have hnull : "return " ++ "null" ++ ";" = "return null;" := by decide
  cases t with
  | primitive p => cases p <;> decide
  | reference name => exact congrArg some hnull
  | array element => exact congrArg some hnull

theorem toList_memberText (indent : Nat) (m : Member) :
    (memberText indent m).toList = ended (memberLines indent m) := by
  have hannotations : ∀ annotations : List String,
      (String.join (annotations.map fun a => margin indent ++ a ++ "\n")).toList
        = ended (annotations.map fun a => margin indent ++ a) := by
    intro annotations
    simp [ended, String.toList_join, List.flatMap_map]
  rw [memberText, statement?_eq, memberLines]
  simp only [String.toList_append, ended_append, hannotations]
  cases defaultStatement? m.returns with
  | none => simp [ended]
  | some s => simp [ended]

/-- Three words in the frame of a class line. -/
theorem frame_eq (name relation target : String) :
    "public class " ++ name ++ " " ++ relation ++ " " ++ target ++ " \x7b\n"
      = " ".intercalate ["public", "class", name, relation, target, "\x7b"] ++ "\n" := by
  have hstart : "public class ".toList
      = "public".toList ++ (" ".toList ++ ("class".toList ++ " ".toList)) := by decide
  have hend : " \x7b\n".toList = " ".toList ++ ("\x7b".toList ++ "\n".toList) := by decide
  apply String.toList_inj.mp
  simp only [String.intercalate_cons_cons, String.intercalate_singleton, String.toList_append]
  rw [hstart, hend]
  simp only [List.append_assoc]

theorem classLine_eq (target : Descriptor) :
    classLine target = " ".intercalate (classWords target) ++ "\n" :=
  frame_eq _ _ _

theorem toList_source (indent : Nat) (target : Descriptor) (members : List Member) :
    (source indent target members).text.toList = ended (sourceLines indent target members) := by
  have hpackage : (packageLine target).toList = ended (packageLines target) := by
    unfold packageLine packageLines
    split <;> simp [ended]
  have hmembers : (String.join (members.map fun m => "\n" ++ memberText indent m)).toList
      = ended (members.flatMap fun m => "" :: memberLines indent m) := by
    induction members with
    | nil => rfl
    | cons m members ih =>
      rw [List.flatMap_cons, ended_append, ended_cons, ← ih, ← toList_memberText]
      simp [String.toList_join]
  simp only [source, String.toList_append, hpackage, hmembers, classLine_eq, sourceLines,
    ended_append, ended_cons, List.append_assoc]
  rfl

/-! ## Members that can be written -/

/-- A member that passes its checks, with types that can be read and annotations of one line each. -/
structure Printable (m : Member) : Prop where
  checked : ∃ owner, checkMember owner m = .ok ()
  types : ∀ t ∈ m.types, Readable t
  annotations : ∀ a ∈ m.annotations, a.toList.head? = some '@' ∧ '\n' ∉ a.toList

/-- A member whose names and types are words. -/
structure PlainMember (m : Member) : Prop where
  returns : Plain m.returns.canonicalName.toList
  name : Plain m.name.toList
  parameterTypes : ∀ p ∈ m.parameters, Plain p.type.canonicalName.toList
  parameterNames : ∀ p ∈ m.parameters, Plain p.name.toList
  exceptions : ∀ e ∈ m.exceptions, Plain e.canonicalName.toList

variable {m : Member} {members : List Member} {target : Descriptor}

theorem Printable.plain (h : Printable m) : PlainMember m := by
  obtain ⟨owner, hchecked⟩ := h.checked
  have hlegal := (checkMember_eq_ok_iff h.types).mp hchecked
  obtain ⟨hreturns, hparameters, hexceptions⟩ := Member.forall_mem_types.mp hlegal.types
  exact {
    returns := plain_of_legal hreturns
    name := plain_of_isIdentifier hlegal.name
    parameterTypes := fun p hp => plain_of_legal (hparameters p hp)
    parameterNames := fun p hp => plain_of_isIdentifier (hlegal.parameterNames p hp)
    exceptions := fun e he => plain_of_legal (hexceptions e he) }

theorem PlainMember.undividedParameters (h : PlainMember m) :
    ∀ p ∈ m.parameters, UndividedParameter p := fun p hp =>
  ⟨undivided_of_plain (h.parameterTypes p hp), undivided_of_plain (h.parameterNames p hp)⟩

/-! ## Names in front of the methods -/

theorem plain_className (h : isBinaryName target.name = true) :
    Plain (className target).toList :=
  plain_of_isIdentifier (isIdentifier_className h)

theorem plain_targetName (h : isBinaryName target.name = true) :
    Plain (targetName target).toList := by
  unfold targetName
  split
  · exact plain_dotted (isBinaryName_iff.mp h)
  · exact plain_of_isWord (isWord_simpleName h)

theorem isNameChar_of_package (h : isBinaryName target.name = true) :
    ∀ c ∈ target.package.toList, isNameChar c = true := by
  rcases package_cases target with hempty | ⟨after, hname⟩
  · rw [hempty]
    exact List.forall_mem_nil _
  · have hchars := isNameChar_of_binaryName (isBinaryName_iff.mp h)
    rw [hname] at hchars
    exact (List.forall_mem_append.mp hchars).1

theorem relation_cases (target : Descriptor) :
    relation target = "implements" ∧ target.isInterface = true ∨
      relation target = "extends" ∧ target.isInterface = false := by
  unfold relation
  cases target.isInterface
  · exact .inr ⟨rfl, rfl⟩
  · exact .inl ⟨rfl, rfl⟩

/-! ## Ends of lines -/

theorem toList_throwsClause {exceptions : List JavaType} (hne : exceptions ≠ []) :
    (throwsClause exceptions).toList = ' ' :: ("throws".toList ++
      ' ' :: [',', ' '].intercalate (exceptions.map fun e => e.canonicalName.toList)) := by
  have hlist : (", ".intercalate (exceptions.map JavaType.canonicalName)).toList
      = [',', ' '].intercalate (exceptions.map fun e => e.canonicalName.toList) := by
    rw [String.toList_intercalate, List.map_map]
    rfl
  rw [throwsClause, if_neg (by simpa using hne), String.toList_append, hlist]
  rfl

theorem newline_not_mem_signature (h : PlainMember m) : '\n' ∉ (signature m).toList := by
  have hplain : ∀ {cs : List Char}, Plain cs → '\n' ∉ cs := fun h => h.not_mem (by decide)
  have hparameters : '\n' ∉ (parameterList m.parameters).toList := by
    rw [toList_parameterList]
    refine not_mem_intercalate (by decide) (List.forall_mem_map.mpr fun p hp => ?_)
    rw [toList_parameterText, List.mem_append, List.mem_cons, not_or, not_or]
    exact ⟨hplain (h.parameterTypes p hp), by decide, hplain (h.parameterNames p hp)⟩
  have hthrows : '\n' ∉ (throwsClause m.exceptions).toList := by
    by_cases hne : m.exceptions = []
    · rw [hne]
      decide
    · rw [toList_throwsClause hne, List.mem_cons, List.mem_append, List.mem_cons, not_or, not_or,
        not_or]
      refine ⟨by decide, by decide, by decide, not_mem_intercalate (by decide) ?_⟩
      exact List.forall_mem_map.mpr fun e he => hplain (h.exceptions e he)
  rw [toList_signature]
  simp only [List.mem_append, List.mem_cons, not_or]
  exact ⟨by decide, by decide, hplain h.returns, by decide, hplain h.name, by decide, hparameters,
    by decide, hthrows⟩

theorem newline_not_mem_margin {indent : Nat} {s : String} (h : '\n' ∉ s.toList) :
    '\n' ∉ (margin indent ++ s).toList := by
  rw [String.toList_append, List.mem_append, not_or]
  refine ⟨fun hmem => ?_, h⟩
  rw [margin, String.toList_ofList] at hmem
  exact absurd (List.eq_of_mem_replicate hmem) (by decide)

theorem newline_not_mem_memberLines (h : Printable m) (indent : Nat) :
    ∀ line ∈ memberLines indent m, '\n' ∉ line.toList := by
  have hheading : '\n' ∉ (signature m ++ " \x7b").toList := by
    rw [String.toList_append, List.mem_append, not_or]
    exact ⟨newline_not_mem_signature h.plain, by decide⟩
  have hstatement : ∀ s ∈ (defaultStatement? m.returns).toList, '\n' ∉ s.toList := by
    have hall : ∀ s ∈ statements, '\n' ∉ s.toList := by decide
    exact fun s hs => hall s (mem_statements (Option.mem_toList.mp hs))
  refine List.forall_mem_append.mpr ⟨List.forall_mem_append.mpr ⟨?_, ?_⟩, ?_⟩
  · exact List.forall_mem_map.mpr fun a ha => newline_not_mem_margin (h.annotations a ha).2
  · refine List.forall_mem_cons.mpr ⟨newline_not_mem_margin hheading, ?_⟩
    exact List.forall_mem_map.mpr fun s hs =>
      newline_not_mem_margin (newline_not_mem_margin (hstatement s hs))
  · exact List.forall_mem_singleton.mpr (newline_not_mem_margin (by decide))

theorem newline_not_mem_packageLines (h : isBinaryName target.name = true) :
    ∀ line ∈ packageLines target, '\n' ∉ line.toList := by
  unfold packageLines
  split
  · exact List.forall_mem_nil _
  · refine List.forall_mem_cons.mpr ⟨fun hmem => ?_, List.forall_mem_singleton.mpr (by decide)⟩
    rw [String.toList_append, String.toList_append, List.mem_append, List.mem_append] at hmem
    rcases hmem with hmem | hmem | hmem
    · exact absurd hmem (by decide)
    · exact absurd (isNameChar_of_package h _ hmem) (by decide)
    · exact absurd hmem (by decide)

theorem toList_classWords (target : Descriptor) :
    (" ".intercalate (classWords target)).toList
      = [' '].intercalate ((classWords target).map String.toList) :=
  String.toList_intercalate

/-- What is true of all words of a class line. -/
theorem forall_classWords {P : String → Prop} (hname : P (className target))
    (htarget : P (targetName target))
    (hothers : ∀ s ∈ ["public", "class", "implements", "extends", "\x7b"], P s) :
    ∀ word ∈ classWords target, P word := by
  have hrelation : P (relation target) := by
    rcases relation_cases target with ⟨heq, -⟩ | ⟨heq, -⟩ <;> rw [heq] <;>
      exact hothers _ (by decide)
  simp only [classWords, List.forall_mem_cons]
  exact ⟨hothers _ (by decide), hothers _ (by decide), hname, hrelation, htarget,
    hothers _ (by decide), List.forall_mem_nil _⟩

/-- **No line of a source ends within itself.** -/
theorem newline_not_mem_sourceLines (h : isBinaryName target.name = true)
    (hmembers : ∀ m ∈ members, Printable m) (indent : Nat) :
    ∀ line ∈ sourceLines indent target members, '\n' ∉ line.toList := by
  have hclass : '\n' ∉ (" ".intercalate (classWords target)).toList := by
    rw [toList_classWords]
    refine not_mem_intercalate (by decide) (List.forall_mem_map.mpr ?_)
    exact forall_classWords ((plain_className h).not_mem (by decide))
      ((plain_targetName h).not_mem (by decide)) (by decide)
  refine List.forall_mem_append.mpr ⟨newline_not_mem_packageLines h,
    List.forall_mem_cons.mpr ⟨hclass, List.forall_mem_append.mpr ⟨?_, ?_⟩⟩⟩
  · intro line hline
    obtain ⟨m, hm, hline⟩ := List.mem_flatMap.mp hline
    rcases List.mem_cons.mp hline with rfl | hline
    · decide
    · exact newline_not_mem_memberLines (hmembers m hm) indent line hline
  · exact List.forall_mem_singleton.mpr (by decide)

/-- **A source falls apart into its lines.** -/
theorem splitOn_source (h : isBinaryName target.name = true) (hmembers : ∀ m ∈ members, Printable m)
    (indent : Nat) :
    (source indent target members).text.toList.splitOn '\n'
      = (sourceLines indent target members).map String.toList ++ [[]] := by
  rw [toList_source, splitOn_ended (newline_not_mem_sourceLines h hmembers indent)]

end Stubwright.Stub
