import Stubwright.Library.Basic
import Stubwright.Markup.Scan

/-!
# Library documents

    document text ──Markup.scan──▶ events ──Reading.step──▶ Reading ──finish──▶ Library

A library is written as a `typeLibrary` element that holds `type` elements, which hold `extends`,
`implements` and `method` elements, which hold `param`, `throws` and `annotation` elements. The reader
is a machine that takes one event at a time, so that reading a sequence of events is a fold over it.
Its `Focus` tells which element the next event belongs to.

An unknown element between types or inside a type is skipped with all it holds; inside a method only
the names of elements count, at any depth, and the next end tag of a method closes it. The end of the
text closes whatever is open. Every start of a `typeLibrary` element between types starts the library
anew.
-/

namespace Stubwright

open Java Markup

namespace Library

/-! ### Attributes -/

/-- The attributes of a tag. -/
def attributesOf (tag : Tag) : Except DocumentError (List Attribute) :=
  tag.attributes.mapError .escape

/-- Reads a flag. -/
def flag (element key value : String) : Except DocumentError Bool :=
  if value == "true" then .ok true
  else if value == "false" then .ok false
  else .error (.invalidAttribute element key value)

/-- Reads the type an attribute names. -/
def typeNamed (element key value : String) : Except DocumentError JavaType :=
  match JavaType.ofName? value with
  | some type => .ok type
  | none => .error (.invalidAttribute element key value)

/-- The value of an attribute the element must have. -/
def required (element key : String) (tag : Tag) : Except DocumentError String := do
  match valueOf? key (← attributesOf tag) with
  | some value => return value
  | none => throw (.missingAttribute element key)

/-! ### Elements -/

/-- What the attributes of a `type` element say. -/
structure TypeHead where
  name? : Option String := none
  kind : TypeKind := .interfaceType
  isFinal : Bool := false
  deriving DecidableEq, Repr

/-- Takes in one attribute of a `type` element. -/
def TypeHead.take (head : TypeHead) : Attribute → Except DocumentError TypeHead
  | ("name", value) => .ok { head with name? := some value }
  | ("kind", value) =>
    match TypeKind.ofAttribute? value with
    | some kind => .ok { head with kind }
    | none => .error (.invalidAttribute "type" "kind" value)
  | ("final", value) => do return { head with isFinal := ← flag "type" "final" value }
  | _ => .ok head

/-- The type a `type` element describes, before its content. Its name reads as a class name. -/
def typeOf (tag : Tag) : Except DocumentError Descriptor := do
  let head ← (← attributesOf tag).foldlM TypeHead.take {}
  let some name := head.name? | throw (.missingAttribute "type" "name")
  match JavaType.ofName? name with
  | some (.reference _) => return { name, kind := head.kind, isFinal := head.isFinal }
  | _ => throw (.invalidAttribute "type" "name" name)

/-- What the attributes of a `method` element say. -/
structure MethodHead where
  name? : Option String := none
  returns : JavaType := .primitive .void
  isStatic : Bool := false
  isFinal : Bool := false
  deriving DecidableEq, Repr

/-- Takes in one attribute of a `method` element. -/
def MethodHead.take (head : MethodHead) : Attribute → Except DocumentError MethodHead
  | ("name", value) => .ok { head with name? := some value }
  | ("returns", value) => do return { head with returns := ← typeNamed "method" "returns" value }
  | ("static", value) => do return { head with isStatic := ← flag "method" "static" value }
  | ("final", value) => do return { head with isFinal := ← flag "method" "final" value }
  | _ => .ok head

/-- The member a `method` element describes, before its content. -/
def methodOf (tag : Tag) : Except DocumentError Member := do
  let head ← (← attributesOf tag).foldlM MethodHead.take {}
  match head.name? with
  | none => throw (.missingAttribute "method" "name")
  | some name =>
    return { name, returns := head.returns, isStatic := head.isStatic, isFinal := head.isFinal }

/-- What the attributes of a `param` element say. -/
structure ParameterHead where
  name? : Option String := none
  type? : Option JavaType := none
  deriving DecidableEq, Repr

/-- Takes in one attribute of a `param` element. An empty name is none. -/
def ParameterHead.take (head : ParameterHead) : Attribute → Except DocumentError ParameterHead
  | ("name", value) => .ok (if value.isEmpty then head else { head with name? := some value })
  | ("type", value) => do return { head with type? := ← typeNamed "param" "type" value }
  | _ => .ok head

/-- The parameter a `param` element describes at the given position. -/
def parameterOf (index : Nat) (tag : Tag) : Except DocumentError Parameter := do
  let head ← (← attributesOf tag).foldlM ParameterHead.take {}
  match head.type? with
  | none => throw (.missingAttribute "param" "type")
  | some type => return { name := head.name?.getD (Parameter.defaultName index), type }

/-- Takes in an element inside a method. -/
def methodChild (m : Member) (tag : Tag) : Except DocumentError Member :=
  match tag.name with
  | "param" => do
    let parameter ← parameterOf m.parameters.length tag
    return { m with parameters := m.parameters ++ [parameter] }
  | "throws" => do
    let type ← typeNamed "throws" "type" (← required "throws" "type" tag)
    return { m with exceptions := m.exceptions ++ [type] }
  | "annotation" => do
    let text ← required "annotation" "text" tag
    return { m with annotations := m.annotations ++ [text] }
  | _ => .ok m

/-- The type with one more member. -/
def withMember (d : Descriptor) (m : Member) : Descriptor := { d with members := d.members ++ [m] }

/-- The type with one more supertype. -/
def withSupertype (d : Descriptor) (name : String) : Descriptor :=
  { d with supertypes := d.supertypes ++ [name] }

/-! ### The machine -/

/-- The element the next event belongs to. -/
inductive Focus where
  /-- Between types. -/
  | document
  /-- Inside a type. -/
  | type (d : Descriptor)
  /-- Inside a method of a type. -/
  | method (d : Descriptor) (m : Member)
  /-- Inside an unknown element of the document or of a type, under `depth` further elements. -/
  | skipping (d? : Option Descriptor) (depth : Nat)
  deriving DecidableEq

/-- The library read so far, if one has started, and where the reader is. -/
structure Reading where
  library? : Option Library := none
  focus : Focus := .document
  deriving DecidableEq

namespace Reading

/-- No library has started. -/
def missingRoot : DocumentError := .invalidStructure "No typeLibrary element found"

/-- Adds a type that is complete; the reader is between types again. -/
def addType (r : Reading) (d : Descriptor) : Except DocumentError Reading :=
  match r.library? with
  | none => .error missingRoot
  | some L => do return ⟨some (← L.add d), .document⟩

/-- An element starts or stands between types. -/
def documentChild (r : Reading) (opens : Bool) (tag : Tag) : Except DocumentError Reading :=
  match tag.name with
  | "typeLibrary" => .ok { r with library? := some Library.empty }
  | "type" => do
    let d ← typeOf tag
    if opens then return { r with focus := .type d } else r.addType d
  | _ => .ok (if opens then { r with focus := .skipping none 0 } else r)

/-- An element starts or stands inside the type `d`. -/
def typeChild (r : Reading) (d : Descriptor) (opens : Bool) (tag : Tag) :
    Except DocumentError Reading :=
  let supertype (element : String) : Except DocumentError Reading := do
    let d := withSupertype d (← required element "type" tag)
    return { r with focus := if opens then .skipping (some d) 0 else .type d }
  match tag.name with
  | "extends" => supertype "extends"
  | "implements" => supertype "implements"
  | "method" => do
    let m ← methodOf tag
    return { r with focus := if opens then .method d m else .type (withMember d m) }
  | _ => .ok (if opens then { r with focus := .skipping (some d) 0 } else r)

/-- The focus after a skipped element ends. -/
def afterSkipped : Option Descriptor → Focus
  | none => .document
  | some d => .type d

/-- Takes in one event. -/
def step (r : Reading) (event : Event) : Except DocumentError Reading :=
  match r.focus, event with
  | .document, .start tag => r.documentChild true tag
  | .document, .empty tag => r.documentChild false tag
  | .document, .close _ => .ok r
  | .type d, .start tag => r.typeChild d true tag
  | .type d, .empty tag => r.typeChild d false tag
  | .type d, .close _ => r.addType d
  | .method d m, .start tag | .method d m, .empty tag => do
    return { r with focus := .method d (← methodChild m tag) }
  | .method d m, .close name =>
    .ok (if name == "method" then { r with focus := .type (withMember d m) } else r)
  | .skipping d? depth, .start _ => .ok { r with focus := .skipping d? (depth + 1) }
  | .skipping _ _, .empty _ => .ok r
  | .skipping d? 0, .close _ => .ok { r with focus := afterSkipped d? }
  | .skipping d? (depth + 1), .close _ => .ok { r with focus := .skipping d? depth }

/-- Closes what is open at the end of the text. -/
def finish (r : Reading) : Except DocumentError Library := do
  let r ← match r.focus with
    | .document | .skipping none _ => pure r
    | .type d | .skipping (some d) _ => r.addType d
    | .method d m => r.addType (withMember d m)
  match r.library? with
  | none => throw missingRoot
  | some L => return L

end Reading

/-- Reads a transcript: its events, then its fault or the end. -/
def ofTranscript (t : Transcript) : Except DocumentError Library := do
  let r ← t.events.foldlM Reading.step {}
  match t.fault? with
  | some fault => throw (.markup fault)
  | none => r.finish

/-- Reads a library document. -/
def ofDocument (text : String) : Except DocumentError Library := ofTranscript (scan text)

end Library
end Stubwright
