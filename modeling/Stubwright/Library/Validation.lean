import Stubwright.Java.Identifier
import Stubwright.Library.Supertypes

/-!
# Checking a library

    library ──each type by itself──▶ names and signatures legal ──▶ no supertype cycle

A library is valid if every type is legal by itself and no type reaches itself over declared
supertypes. The first defect found is reported: types in declaration order, in a type first the name,
then the supertypes, then member after member. The search for cycles keeps the names on the way from
the type it started with and the names it is done with.
-/

namespace Stubwright.Library

open Java

/-! ### Types by themselves -/

/-- What makes a type definition illegal. The context names the member, as `Type#member`. -/
inductive Defect where
  | typeName (name : String)
  | supertype (supertype owner : String)
  | memberName (name owner : String)
  | duplicateMember (key : MemberKey) (owner : String)
  | emptyTypeName (context : String)
  | typeNameIn (name context : String)
  | arrayOfVoid (name context : String)
  | voidParameter (name context : String)
  | parameterName (name context : String)
  | duplicateParameter (name context : String)
  | exceptionType (type : JavaType) (context : String)
  deriving DecidableEq, Repr, Inhabited

/-- The wording of a defect. -/
def Defect.message : Defect → String
  | typeName name => "Invalid type name '" ++ name ++ "'"
  | supertype super owner => "Invalid supertype '" ++ super ++ "' of type '" ++ owner ++ "'"
  | memberName name owner => "Invalid member name '" ++ name ++ "' in type '" ++ owner ++ "'"
  | duplicateMember key owner =>
    "Duplicate member '" ++ key.text ++ "' in type '" ++ owner ++ "'"
  | emptyTypeName context => "Empty type name in " ++ context
  | typeNameIn name context => "Invalid type name '" ++ name ++ "' in " ++ context
  | arrayOfVoid name context => "Array of void '" ++ name ++ "' in " ++ context
  | voidParameter name context => "Parameter '" ++ name ++ "' of " ++ context ++ " cannot be void"
  | parameterName name context => "Invalid parameter name '" ++ name ++ "' in " ++ context
  | duplicateParameter name context => "Duplicate parameter name '" ++ name ++ "' in " ++ context
  | exceptionType type context =>
    "Exception type '" ++ type.canonicalName ++ "' of " ++ context ++ " must be a class"

/-- Checks a type name as it is written: its innermost element is a keyword or a binary name, and
there is no array of `void`. -/
def checkTypeName (name context : String) : Except Defect Unit :=
  match JavaType.ofName? name with
  | none => .error (.emptyTypeName context)
  | some type =>
    match type.innermost with
    | .reference binaryName =>
      if isBinaryName binaryName then .ok () else .error (.typeNameIn name context)
    | .primitive .void => if type.isArray then .error (.arrayOfVoid name context) else .ok ()
    | _ => .ok ()

/-- Checks parameters in order; `seen` holds the names of those before. -/
def checkParameters (context : String) (seen : List String) :
    List Parameter → Except Defect Unit
  | [] => .ok ()
  | p :: rest => do
    if p.type.isVoid then throw (.voidParameter p.name context)
    if !isIdentifier p.name then throw (.parameterName p.name context)
    if seen.contains p.name then throw (.duplicateParameter p.name context)
    checkTypeName p.type.binaryName context
    checkParameters context (p.name :: seen) rest

/-- Checks exception types in order: each is a class. -/
def checkExceptions (context : String) : List JavaType → Except Defect Unit
  | [] => .ok ()
  | .reference name :: rest => do
    checkTypeName name context
    checkExceptions context rest
  | type :: _ => .error (.exceptionType type context)

/-- Checks one member of the type `owner`. -/
def checkMember (owner : String) (m : Member) : Except Defect Unit := do
  let context := owner ++ "#" ++ m.name
  if !isIdentifier m.name then throw (.memberName m.name owner)
  checkTypeName m.returns.binaryName context
  checkParameters context [] m.parameters
  checkExceptions context m.exceptions

/-- Checks members in order; `seen` holds the keys of those before. -/
def checkMembers (owner : String) (seen : List MemberKey) : List Member → Except Defect Unit
  | [] => .ok ()
  | m :: rest => do
    checkMember owner m
    if seen.contains m.key then throw (.duplicateMember m.key owner)
    checkMembers owner (m.key :: seen) rest

/-- Checks supertypes in order: each reads as a class or interface with a binary name. -/
def checkSupertypes (owner : String) : List String → Except Defect Unit
  | [] => .ok ()
  | s :: rest =>
    match JavaType.ofName? s with
    | some (.reference binaryName) =>
      if isBinaryName binaryName then checkSupertypes owner rest
      else .error (.supertype s owner)
    | _ => .error (.supertype s owner)

/-- Checks one type definition. -/
def checkType (d : Descriptor) : Except Defect Unit := do
  if !isBinaryName d.name then throw (.typeName d.name)
  checkSupertypes d.name d.supertypes
  checkMembers d.name [] d.members

/-! ### Cycles -/

/-- Follows the supertypes of `pending`, in order; `path` holds the names on the way to them, the
latest first, and `finished` those from which no cycle can be reached. Gives the finished names, or as
an error the way into the first cycle up to the name that closes it. -/
def searchCycle (L : Library) (path pending finished : List String) :
    Except (List String) (List String) :=
  match pending with
  | [] => .ok finished
  | name :: rest =>
    if name ∈ finished then searchCycle L path rest finished
    else if _hp : name ∈ path then .error (name :: path).reverse
    else
      match _hd : L.get? name with
      | none => searchCycle L path rest finished
      | some d =>
        match searchCycle L (name :: path) d.supertypes finished with
        | .error cycle => .error cycle
        | .ok finished => searchCycle L path rest (name :: finished)
termination_by Graph.weight L.supertypesOf L.names path + pending.length
decreasing_by
  · simp
  · simp
  · have hmem : name ∈ L.names := declares_iff.1 (by simp [declares, _hd])
    have h : Graph.weight L.supertypesOf L.names (name :: path) + (L.supertypesOf name).length
        < Graph.weight L.supertypesOf L.names path := Graph.weight_cons_lt hmem _hp
    simp only [supertypesOf, _hd, List.length_cons] at h ⊢
    omega
  · simp

/-- The arrows between the names of a cycle. -/
def arrow : String := " -> "

/-- Checks that no type reaches itself over declared supertypes. -/
def checkSupertypeGraph (L : Library) : Except LibraryError Unit :=
  match searchCycle L [] L.names [] with
  | .ok _ => .ok ()
  | .error cycle => .error (.circularReference (arrow.intercalate cycle))

/-! ### The whole library -/

/-- Checks the types in order, then their supertype graph. -/
def validate (L : Library) : Except LibraryError Unit := do
  match L.types.forM checkType with
  | .error defect => throw (.invalid defect.message)
  | .ok () => checkSupertypeGraph L

end Stubwright.Library
