import Stubwright.Archive.Crc32
import Stubwright.Host.Basic
import Stubwright.Text.Utf8

/-!
# The archive container

    members ──encode──▶ bytes ──decode?──▶ members

A container is a sequence of members, each a local record with its header, name and data, followed by
a directory that lists them all and an end record. Numbers are written with the low byte first. Data
is stored as it is, or deflated into blocks that hold it literally. All members carry the same date
and the permissions of a plain file, so that equal members make equal bytes.

A container is read from its local records; reading accepts the bytes that writing gives, no others.
-/

namespace Stubwright.Archive

/-- How the data of a member is kept. -/
inductive Compression where
  | stored
  | deflated
  deriving DecidableEq, Repr, Inhabited

/-- A file inside an archive. -/
structure Member where
  name : String
  compression : Compression
  content : Bytes
  deriving DecidableEq, Repr, Inhabited

namespace Container

/-! ### Constants of the format -/

/-- The permissions of every member: a plain file its owner may write. -/
def memberMode : Nat := 0o100644

/-- The date of every member, in the packed form of the format: 1 January 1980. The time of day is
midnight, which is packed as zero. -/
def packedDate : Nat := 0x21

/-- The number of a way to keep data. -/
def methodNumber : Compression → Nat
  | .stored => 0
  | .deflated => 8

/-- The first bytes of a local record, of a directory record and of the end record. -/
def localMark : Nat := 0x04034b50

def directoryMark : Nat := 0x02014b50

def endMark : Nat := 0x06054b50

/-! ### Numbers -/

/-- A number in `count` bytes, the low byte first. -/
def number : Nat → Nat → Bytes
  | 0, _ => []
  | count + 1, n => UInt8.ofNat n :: number count (n / 256)

/-- The number in bytes, the low byte first. -/
def readNumber : Bytes → Nat
  | [] => 0
  | b :: rest => b.toNat + 256 * readNumber rest

/-! ### Data -/

/-- The most bytes of a block. -/
def blockLimit : Nat := 65535

/-- A block that holds its bytes literally. -/
def block (last : Bool) (bytes : Bytes) : Bytes :=
  (if last then 1 else 0) :: number 2 bytes.length ++ number 2 (blockLimit - bytes.length) ++ bytes

/-- Deflates data into literal blocks. -/
def deflate (bytes : Bytes) : Bytes :=
  if bytes.length ≤ blockLimit then block true bytes
  else block false (bytes.take blockLimit) ++ deflate (bytes.drop blockLimit)
termination_by bytes.length
decreasing_by simp only [List.length_drop, blockLimit] at *; omega

/-- Inflates literal blocks. -/
def inflate? (bytes : Bytes) : Option Bytes :=
  match bytes with
  | head :: low :: high :: _ :: _ :: rest =>
    let size := readNumber [low, high]
    if rest.length < size then none
    else if head == 1 then some (rest.take size)
    else (inflate? (rest.drop size)).map (rest.take size ++ ·)
  | _ => none
termination_by bytes.length
decreasing_by simp only [List.length_drop, List.length_cons]; omega

/-- The data of a member as kept. -/
def pack : Compression → Bytes → Bytes
  | .stored, content => content
  | .deflated, content => deflate content

/-- The content from data as kept. -/
def unpack? : Compression → Bytes → Option Bytes
  | .stored, data => some data
  | .deflated, data => inflate? data

/-! ### Writing -/

/-- The fields that a local record and a directory record share. -/
def sharedFields (m : Member) : Bytes :=
  number 2 20 ++ number 2 0x0800 ++ number 2 (methodNumber m.compression) ++ number 2 0 ++
    number 2 packedDate ++ number 4 (Crc32.checksum m.content).toNat ++
    number 4 (pack m.compression m.content).length ++ number 4 m.content.length ++
    number 2 (Text.utf8 m.name).length ++ number 2 0

/-- The local record of a member. -/
def localRecord (m : Member) : Bytes :=
  number 4 localMark ++ sharedFields m ++ Text.utf8 m.name ++ pack m.compression m.content

/-- The directory record of a member whose local record starts at `offset`. -/
def directoryRecord (offset : Nat) (m : Member) : Bytes :=
  number 4 directoryMark ++ number 2 0x0314 ++ sharedFields m ++ number 2 0 ++ number 2 0 ++
    number 2 0 ++ number 4 (memberMode * 0x10000) ++ number 4 offset ++ Text.utf8 m.name

/-- The directory of members whose first local record starts at `offset`. -/
def directory (offset : Nat) : List Member → Bytes
  | [] => []
  | m :: rest =>
    directoryRecord offset m ++ directory (offset + (localRecord m).length) rest

/-- The record that ends a container of `count` members with a directory of `size` bytes that starts
at `offset`. -/
def endRecord (count size offset : Nat) : Bytes :=
  number 4 endMark ++ number 2 0 ++ number 2 0 ++ number 2 count ++ number 2 count ++
    number 4 size ++ number 4 offset ++ number 2 0

/-- All local records. -/
def records (members : List Member) : Bytes := members.flatMap localRecord

/-- What follows the local records. -/
def trailer (members : List Member) : Bytes :=
  let entries := directory 0 members
  entries ++ endRecord members.length entries.length (records members).length

/-- The bytes of a container. -/
def encode (members : List Member) : Bytes := records members ++ trailer members

/-! ### Reading -/

/-- The way to keep data with the given number. -/
def compressionOf? (n : Nat) : Option Compression :=
  if n = 0 then some .stored else if n = 8 then some .deflated else none

/-- The member whose local record is at the head, and what follows it. -/
def readRecord? (bytes : Bytes) : Option (Member × Bytes) := do
  if readNumber (bytes.take 4) ≠ localMark then none
  let compression ← compressionOf? (readNumber ((bytes.drop 8).take 2))
  let size := readNumber ((bytes.drop 18).take 4)
  let nameSize := readNumber ((bytes.drop 26).take 2)
  let name ← Text.ofUtf8? ((bytes.drop 30).take nameSize)
  let content ← unpack? compression ((bytes.drop (30 + nameSize)).take size)
  some (⟨name, compression, content⟩, bytes.drop (30 + nameSize + size))

/-- The members whose local records are at the head. -/
def readRecords (bytes : Bytes) : List Member :=
  match readRecord? bytes with
  | none => []
  | some (m, rest) => if rest.length < bytes.length then m :: readRecords rest else [m]
termination_by bytes.length

/-- The members of a container. -/
def decode? (bytes : Bytes) : Option (List Member) :=
  let members := readRecords bytes
  if encode members == bytes then some members else none

end Container
end Stubwright.Archive
