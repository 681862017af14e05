import Mathlib.Data.List.Infix
import Stubwright.CommandLine.Error

/-!
# Reports tell every cause once

    error of the machine ──▶ DocumentError ──▶ LibraryError ──▶ StubError ──▶ BuildError ──▶ RunError

An error that has a cause ends its own wording with that of the cause. So, from the inside out, the
wording of every error tells all causes behind it (`Tells`): one lemma per type of errors, each from
those of the types it wraps. Errors from elsewhere are taken to tell what is behind them. Main
statement (`report_tells`): the wording of whatever ends an invocation tells every cause as it is
nested there, so that its report is the label with the wording and nothing is appended.
-/

namespace Stubwright

/-! ## Wordings within wordings -/

/-- Each of the causes is told by the wording. -/
def Tells (wording : String) (causes : List String) : Prop :=
  ∀ cause ∈ causes, cause.toList <:+: wording.toList

variable {wording : String} {causes : List String}

theorem tells_nil (wording : String) : Tells wording [] := List.forall_mem_nil _

/-- What is told stays told behind other words. -/
theorem Tells.behind (h : Tells wording causes) (words : String) : Tells (words ++ wording) causes := by
  intro cause hcause
  rw [String.toList_append]
  exact (h cause hcause).trans (List.suffix_append _ _).isInfix

/-- **An error whose wording ends with that of its cause tells the cause, and all that it tells.** -/
theorem Tells.wrap (h : Tells wording causes) (words : String) :
    Tells (words ++ wording) (wording :: causes) := by
  refine List.forall_mem_cons.mpr ⟨?_, h.behind words⟩
  rw [String.toList_append]
  exact (List.suffix_append _ _).isInfix

/-! ## Every type of errors -/

section

variable {behind : String → List String} (hbehind : ∀ wording, Tells wording (behind wording))

include hbehind

theorem DocumentError.tells (e : DocumentError) : Tells e.message (e.causes behind) := by
  cases e with
  | markup fault => exact (hbehind _).wrap _
  | escape fault => exact (hbehind _).wrap _
  | missingAttribute element key => exact tells_nil _
  | invalidAttribute element key value => exact tells_nil _
  | duplicate what name => exact tells_nil _
  | invalidStructure reason => exact tells_nil _
  | io error => exact (hbehind _).wrap _

theorem LibraryError.tells (e : LibraryError) : Tells e.message (e.causes behind) := by
  cases e with
  | document error => exact (error.tells hbehind).wrap _
  | typeNotFound name => exact tells_nil _
  | circularReference path => exact tells_nil _
  | invalid reason => exact tells_nil _

theorem StubError.tells (e : StubError) : Tells e.message (e.causes behind) := by
  cases e with
  | document error => exact (error.tells hbehind).wrap _
  | library error => exact (error.tells hbehind).wrap _
  | invalidTarget name reason => exact tells_nil _
  | write path error => exact (hbehind _).wrap _
  | directory path error => exact (hbehind _).wrap _

theorem ArchiveError.tells (e : ArchiveError) : Tells e.message (e.causes behind) := by
  cases e with
  | io path error => exact (hbehind _).wrap _
  | container fault => exact (hbehind _).wrap _
  | missingArtifact path => exact tells_nil _

namespace Build

theorem CompileError.tells (e : CompileError) : Tells e.message (e.causes behind) := by
  cases e with
  | unavailable program error => exact (hbehind _).wrap _
  | failed code diagnostics => exact tells_nil _
  | missingOutput path => exact tells_nil _
  | classPath reason => exact tells_nil _
  | io error => exact (hbehind _).wrap _

theorem BuildError.tells (e : BuildError) : Tells e.message (e.causes behind) := by
  cases e with
  | generate error => exact (error.tells hbehind).wrap _
  | scratch parent error => exact (hbehind _).wrap _
  | compile error => exact (error.tells hbehind).wrap _
  | archive error => exact (error.tells hbehind).wrap _
  | cleanup path error => exact (hbehind _).wrap _

end Build

namespace CommandLine

/-- A stub error and a build error end an invocation as they are, with the causes they have. -/
theorem RunError.tells (e : RunError) : Tells e.message (e.causes behind) := by
  cases e with
  | library path error => exact (error.tells hbehind).wrap _
  | invalidLibrary error => exact (error.tells hbehind).wrap _
  | invalidPath path reason => exact tells_nil _
  | stub error => exact error.tells hbehind
  | build error => exact error.tells hbehind

end CommandLine

end

/-! ## Reports -/

/-- Looking for a text finds it wherever it occurs. -/
theorem Text.occursIn_iff {needle hay : List Char} :
    Text.occursIn needle hay = true ↔ needle <:+: hay := by
  induction hay with
  | nil => rw [Text.occursIn, List.isEmpty_iff, List.infix_nil]
  | cons c hay ih =>
    rw [Text.occursIn, Bool.or_eq_true, ih, List.isPrefixOf_iff_prefix, List.infix_cons_iff]

namespace CommandLine.RunError

/-- A report that tells all causes stays as it is. -/
theorem foldl_addCause (h : Tells wording causes) : causes.foldl addCause wording = wording := by
  induction causes with
  | nil => rfl
  | cons cause causes ih =>
    obtain ⟨hcause, hcauses⟩ := List.forall_mem_cons.mp h
    rw [List.foldl_cons, addCause, if_pos (Text.occursIn_iff.mpr hcause)]
    exact ih hcauses

/-- **A report tells every cause, as it is nested, and appends nothing.** -/
theorem report_tells {behind : String → List String}
    (hbehind : ∀ wording, Tells wording (behind wording)) (e : RunError) :
    Tells e.message (e.causes behind) ∧
      e.reportWith behind = e.category ++ ": " ++ e.message ∧
      e.report = e.reportWith behind := by
  have hreport : ∀ {behind : String → List String}, (∀ wording, Tells wording (behind wording)) →
      e.reportWith behind = e.category ++ ": " ++ e.message := by
    intro behind hbehind
    exact foldl_addCause ((e.tells hbehind).behind _)
  refine ⟨e.tells hbehind, hreport hbehind, ?_⟩
  rw [hreport hbehind]
  exact hreport fun wording => tells_nil wording

/-- What is behind one fault of a reader of markup. -/
def behindSyntax (wording : String) : List String :=
  if wording = "syntax error: bad name" then ["bad name"] else []

/-- The fault is wrapped four times. -/
def deepError : RunError :=
  .build (.generate (.library (.document (.markup (.other "syntax error: bad name")))))

theorem report_tells_deep :
    (∀ wording, Tells wording (behindSyntax wording)) ∧
      (deepError.causes behindSyntax).length = 5 ∧
      (∀ cause ∈ deepError.causes behindSyntax, cause.toList <:+: deepError.message.toList) ∧
      deepError.reportWith behindSyntax =
        "type library error: generate stage failed: type library error: parse error: " ++
          "XML parsing error: syntax error: bad name" := by
  have hbehind : ∀ wording, Tells wording (behindSyntax wording) := by
    intro wording
    unfold behindSyntax
    split
    · next h =>
      rw [h]
      exact List.forall_mem_singleton.mpr (by decide)
    · exact tells_nil _
  obtain ⟨htells, hreport, -⟩ := report_tells hbehind deepError
  exact ⟨hbehind, by decide, htells, hreport.trans (by decide)⟩

end CommandLine.RunError
end Stubwright
