import Stubwright.Build.Package
import Stubwright.Proofs.FileReads

/-!
# Errors that programs end with

    program ──error──▶ error of the program around it

Which errors can come out of a program is known from its text, whatever machine it runs on. `Errors`
follows the text: an error of an operation is passed on, or another takes its place
(`Errors.bind`, `errors_bind`). Once the text of a source is there, what remains can fail because of
the files, the compiler or the archive, but no more because of the target (`package_errors`).
-/

namespace Stubwright

namespace Host

variable {σ α β ε ε' : Type} {P : ε → Prop} {Q : ε' → Prop}

/-- All errors that the program can end with have the property. -/
def Errors (P : ε → Prop) (x : StateM σ (Except ε α)) : Prop :=
  ∀ s e, (x s).1 = .error e → P e

/-- A program that succeeds has no error. -/
theorem errors_ok (a : α) : Errors P (pure (.ok a) : StateM σ (Except ε α)) := by
  intro s e h
  cases h

theorem errors_error {e : ε} (h : P e) : Errors P (pure (.error e) : StateM σ (Except ε α)) := by
  intro s e' h'
  cases h'
  exact h

/-- What comes after a step decides on the errors. -/
theorem errors_bind {x : StateM σ β} {k : β → StateM σ (Except ε α)} (h : ∀ b, Errors P (k b)) :
    Errors P (x >>= k) := by
  intro s e he
  exact h (x s).1 (x s).2 e he

/-- An error of a step is known to what comes after it. -/
theorem Errors.bind {x : StateM σ (Except ε β)} {k : Except ε β → StateM σ (Except ε' α)}
    (hx : Errors P x) (herror : ∀ e, P e → Errors Q (k (.error e)))
    (hok : ∀ b, Errors Q (k (.ok b))) : Errors Q (x >>= k) := by
  intro s e he
  rw [bind_apply] at he
  cases hrun : (x s).1 with
  | error e' =>
    rw [hrun] at he
    exact herror e' (hx s e' hrun) _ e he
  | ok b =>
    rw [hrun] at he
    exact hok b _ e he

end Host

namespace Stub

open Host

variable {σ : Type} (host : Host (StateM σ))

/-- Errors that tell of the files. -/
inductive AboutFiles : StubError → Prop
  | write (path : Path) (e : IoError) : AboutFiles (.write path e)
  | directory (path : Path) (e : IoError) : AboutFiles (.directory path e)

theorem preparePath_errors (root : Path) (target : Java.Descriptor) :
    Errors AboutFiles (preparePath host root target) := by
  refine errors_bind fun made => ?_
  cases made with
  | error e => exact errors_error (.directory _ e)
  | ok u => exact errors_ok _

theorem writeAtOnce_errors (path : Path) (content : Bytes) :
    Errors AboutFiles (writeAtOnce host path content) := by
  have hwrite : ∀ e, AboutFiles (.write path e) := .write path
  refine errors_bind fun staged => ?_
  cases staged with
  | error e => exact errors_error (hwrite e)
  | ok p =>
    refine errors_bind fun written => ?_
    cases written with
    | error e => exact errors_bind fun _ => errors_error (hwrite e)
    | ok u =>
      refine errors_bind fun renamed => ?_
      cases renamed with
      | error e => exact errors_bind fun _ => errors_error (hwrite e)
      | ok u => exact errors_ok ()

/-- **A source that is there can fail to be written only because of the files.** -/
theorem writeSource_errors (root : Path) (target : Java.Descriptor) (source : Source) :
    Errors AboutFiles (writeSource host root target source) := by
  refine (preparePath_errors host root target).bind (fun e he => errors_error he) fun path => ?_
  exact (writeAtOnce_errors host path _).bind (fun e he => errors_error he) fun u => errors_ok path

end Stub

namespace Build

open Host Stub

variable {σ : Type} (host : Host (StateM σ)) (settings : Settings (StateM σ))

/-- Errors of a build that has the text of the source. -/
inductive AfterRendering : BuildError → Prop
  | generate {e : StubError} : AboutFiles e → AfterRendering (.generate e)
  | scratch (parent : Path) (e : IoError) : AfterRendering (.scratch parent e)
  | compile (e : CompileError) : AfterRendering (.compile e)
  | archive (e : ArchiveError) : AfterRendering (.archive e)
  | cleanup (path : Path) (e : IoError) : AfterRendering (.cleanup path e)

theorem buildIn_errors (target : Java.Descriptor) (source : Source) (destination scratch : Path) :
    Errors AfterRendering (buildIn host settings target source destination scratch) := by
  refine (writeSource_errors host scratch target source).bind
    (fun e he => errors_error (.generate he)) fun sourceFile => errors_bind fun compiled => ?_
  cases compiled with
  | error e => exact errors_error (.compile e)
  | ok classFile =>
    refine errors_bind fun written => ?_
    cases written with
    | error e => exact errors_error (.archive e)
    | ok u => exact errors_ok _

/-- **A target that has a source is no reason for a build to fail.** -/
theorem package_errors {L : Library} {target : Java.Descriptor} {source : Source}
    (hsource : render L settings.indent target = .ok source) (destination : Path) :
    Errors AfterRendering (package host settings L target destination) := by
  unfold package
  rw [hsource]
  refine errors_bind fun made => ?_
  cases made with
  | error e => exact errors_error (.scratch _ e)
  | ok scratch =>
    refine (buildIn_errors host settings target source destination scratch).bind
      (fun e he => errors_bind fun _ => errors_error he) fun artifact => errors_bind fun removed => ?_
    cases removed with
    | error e => exact errors_error (.cleanup scratch e)
    | ok u => exact errors_ok _

end Build
end Stubwright
