import Stubwright.Library.Supertypes
import Stubwright.Stub.Target

/-!
# Inherited members

    target ──lineage──▶ types, in the order in which they are met
           ──offered──▶ members with their owners
           ──absorb───▶ slots, one for each key
           ──members──▶ what the stub has to provide

A stub provides the members of its target and of all types the target reaches, static and final ones
apart. The first declaration of a key takes a slot, in order. A later declaration changes the slot
only if its owner is no supertype of the owner the slot has: then only exceptions that both allow
remain, and a more specific return type, with its owner, replaces the one there. A key that is first
met as final is sealed for good.
-/

namespace Stubwright.Stub

open Java

/-! ### Which types -/

/-- The type known under a name: the target under its own, otherwise what the library declares. -/
def known (L : Library) (target : Descriptor) (name : String) : Option Descriptor :=
  if name = target.name then some target else L.get? name

/-- The supertypes of the type known under a name. -/
def knownSupertypes (L : Library) (target : Descriptor) (name : String) : List String :=
  match known L target name with
  | some d => d.supertypes
  | none => []

/-- The target and the declared types it reaches, depth first, each once. -/
def lineage (L : Library) (target : Descriptor) : List Descriptor :=
  (Graph.preorder (knownSupertypes L target) (target.name :: L.names) target.name).filterMap
    (known L target)

/-! ### Which declarations -/

/-- A member with the name of the type that declares it. -/
structure Declaration where
  owner : String
  member : Member
  deriving DecidableEq, Repr

/-- The declarations a type brings. Static members are not inherited. -/
def declarations (d : Descriptor) : List Declaration :=
  (d.members.filter (!·.isStatic)).map (⟨d.name, ·⟩)

/-- All declarations the target meets, its own first. -/
def offered (L : Library) (target : Descriptor) : List Declaration :=
  (lineage L target).flatMap declarations

/-! ### Return types -/

/-- The type every other reference type is a subtype of. -/
def rootClass : JavaType := .reference "java.lang.Object"

/-- Whether a member that returns `candidate` can take the place of one that returns `current`, but
not the other way round. -/
def isMoreSpecific (L : Library) (candidate current : JavaType) : Bool :=
  match candidate, current with
  | .primitive _, .primitive _ => false
  | .primitive _, _ => true
  | _, .primitive _ => false
  | .reference sub, .reference super =>
    if current == rootClass then candidate != rootClass
    else sub != super && L.isSubtype sub super
  | .array _, .reference _ => current == rootClass
  | .array sub, .array super =>
    !sub.isPrimitive && !super.isPrimitive && isMoreSpecific L sub super
  | .reference _, .array _ => false

/-! ### Slots -/

/-- What is known of a key. -/
inductive Standing where
  /-- Final, so that it cannot be overridden. -/
  | sealed
  /-- To be provided, as last declared by the owner. -/
  | kept (owner : String) (member : Member)
  deriving DecidableEq, Repr

/-- A key that was met. -/
structure Slot where
  key : MemberKey
  standing : Standing
  deriving DecidableEq, Repr

/-- The slot a first declaration takes. -/
def Slot.first (d : Declaration) : Slot :=
  ⟨d.member.key, if d.member.isFinal then .sealed else .kept d.owner d.member⟩

/-- What becomes of a key when another declaration is met. -/
def Standing.meet (L : Library) (d : Declaration) : Standing → Standing
  | sealed => sealed
  | kept owner member =>
    if L.isSubtype owner d.owner then kept owner member
    else
      let shared := { member with
        exceptions := member.exceptions.filter d.member.exceptions.contains }
      if isMoreSpecific L d.member.returns member.returns then
        kept d.owner { shared with returns := d.member.returns }
      else kept owner shared

/-- Takes in a declaration: its key's slot changes, or a new one is added. -/
def absorb (L : Library) : List Slot → Declaration → List Slot
  | [], d => [Slot.first d]
  | slot :: slots, d =>
    if slot.key = d.member.key then { slot with standing := slot.standing.meet L d } :: slots
    else slot :: absorb L slots d

/-- The member a slot provides. -/
def Slot.member? (slot : Slot) : Option Member :=
  match slot.standing with
  | .sealed => none
  | .kept _ member => some member

/-- The slots of all declarations the target meets. -/
def slots (L : Library) (target : Descriptor) : List Slot :=
  (offered L target).foldl (absorb L) []

/-- The members a stub of the target provides, in order. -/
def members (L : Library) (target : Descriptor) : Except StubError (List Member) := do
  checkTarget target
  return (slots L target).filterMap Slot.member?

end Stubwright.Stub
