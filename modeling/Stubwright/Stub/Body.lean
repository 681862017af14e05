import Stubwright.Java.JavaType

/-!
# Stub bodies

A stub does nothing but return a default: `true` for truth values, zero for numbers, `null` for
references and arrays. What returns nothing has an empty body.
-/

namespace Stubwright.Stub

open Java

/-- What a return type asks of the body. -/
inductive ReturnCategory where
  | boolean
  | void
  | numeric
  | reference
  deriving DecidableEq, Repr, Inhabited

namespace ReturnCategory

/-- The category of a return type. -/
def ofType : JavaType → ReturnCategory
  | .primitive .boolean => boolean
  | .primitive .void => void
  | .primitive _ => numeric
  | .reference _ => reference
  | .array _ => reference

/-- The literal a stub returns. -/
def literal? : ReturnCategory → Option String
  | boolean => some "true"
  | void => none
  | numeric => some "0"
  | reference => some "null"

/-- The statement of the body. -/
def statement? (c : ReturnCategory) : Option String :=
  c.literal?.map fun literal => "return " ++ literal ++ ";"

end ReturnCategory
end Stubwright.Stub
