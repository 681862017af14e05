import Stubwright.Host.Basic

/-!
# Missing directories

`makeDirectories` creates a directory and whatever is missing above it, from the top down. A
directory that is there already is as good as one that was made, so that repeating it is harmless.
-/

namespace Stubwright

theorem Path.length_dropTrailing_le : ∀ cs, (Path.dropTrailing cs).length ≤ cs.length := by
  intro cs
  fun_induction Path.dropTrailing cs with
  | case1 => simp
  | case2 rest _ ih => simp only [List.length_cons]; omega
  | case3 rest ih => simp only [List.length_cons] at ih ⊢; omega
  | case4 => simp

/-- A parent is shorter than its path. -/
theorem Path.length_parent? {p q : Path} (h : p.parent? = some q) :
    q.text.toList.length < p.text.toList.length := by
  have hle : p.trailing.length ≤ p.text.toList.length := by
    simpa [Path.trailing] using Path.length_dropTrailing_le p.text.toList.reverse
  unfold Path.parent? at h
  split at h
  · cases h
  · cases h
  · next cs hnil hroot =>
    cases h
    simp only [String.toList_ofList, List.length_reverse]
    have h1 := Path.length_dropTrailing_le (p.trailing.dropWhile (· != '/'))
    have h2 := (List.dropWhile_suffix (l := p.trailing) (· != '/')).length_le
    suffices h3 : (Path.dropTrailing (p.trailing.dropWhile (· != '/'))).length < p.trailing.length
      by omega
    cases hcs : p.trailing with
    | nil => exact absurd hcs hnil
    | cons c rest =>
      by_cases hc : c = '/'
      · subst hc
        cases rest with
        | nil => exact absurd hcs hroot
        | cons d rest =>
          have h4 := Path.length_dropTrailing_le (d :: rest)
          simp only [List.dropWhile_cons, bne_self_eq_false, Bool.false_eq_true, if_false,
            Path.dropTrailing, List.length_cons] at h4 ⊢
          omega
      · have h4 := (List.dropWhile_suffix (l := rest) (· != '/')).length_le
        have h5 := Path.length_dropTrailing_le (rest.dropWhile (· != '/'))
        simp only [List.dropWhile_cons, bne_iff_ne, ne_eq, hc, not_false_eq_true, if_true,
          List.length_cons] at h4 ⊢
        omega

namespace Host

variable {m : Type → Type} [Monad m]

/-- Creates one directory; one that is there is fine. -/
def ensureDirectory (host : Host m) (p : Path) : m (Except IoError Unit) := do
  match ← host.makeDirectory p with
  | .ok () => return .ok ()
  | .error e => return if ← host.isDirectory p then .ok () else .error e

/-- Creates a directory and all that is missing above it. -/
def makeDirectories (host : Host m) (p : Path) : m (Except IoError Unit) := do
  if p.isEmpty then return .ok ()
  match ← host.makeDirectory p with
  | .ok () => return .ok ()
  | .error e =>
    if e.isNotFound then
      match _h : p.parent? with
      | none => return .error (.described "failed to create whole tree")
      | some parent =>
        match ← makeDirectories host parent with
        | .ok () => host.ensureDirectory p
        | .error e => return .error e
    else return if ← host.isDirectory p then .ok () else .error e
termination_by p.text.toList.length
decreasing_by exact Path.length_parent? _h

end Host
end Stubwright
