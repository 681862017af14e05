/-!
# Cutting texts apart

Names and paths are cut at separators: a package into its segments, a class path into its entries, a
binary name into package and class. `pieces` cuts at every separator and so never gives an empty
list; `cutLast?` cuts at the last one.
-/

namespace Stubwright.Text

/-- The pieces of `s` between the characters that satisfy `p`; one piece if there is none. -/
def pieces (p : Char → Bool) (s : String) : List String :=
  (s.toList.splitOnP p).map String.ofList

/-- `cs` before and after its last character satisfying `p`, which belongs to neither part. -/
def cutLast? (p : Char → Bool) (cs : List Char) : Option (List Char × List Char) :=
  match cs.reverse.dropWhile (!p ·) with
  | [] => none
  | _ :: before => some (before.reverse, (cs.reverse.takeWhile (!p ·)).reverse)

/-- What follows the last character satisfying `p`; all of `s` if there is none. -/
def afterLast (p : Char → Bool) (s : String) : String :=
  String.ofList (s.toList.reverse.takeWhile (!p ·)).reverse

/-- Whether `needle` occurs somewhere inside `hay`. -/
def occursIn (needle : List Char) : List Char → Bool
  | [] => needle.isEmpty
  | c :: hay => needle.isPrefixOf (c :: hay) || occursIn needle hay

end Stubwright.Text
