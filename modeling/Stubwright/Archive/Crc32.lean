/-!
# Checksums

The cyclic redundancy check of archives: 32 bits, reflected, with the polynomial `0xEDB88320`, all
bits inverted before and after.
-/

namespace Stubwright.Archive.Crc32

/-- Shifts one bit out of the register. -/
def shift (crc : UInt32) : UInt32 :=
  if crc &&& 1 == 1 then (crc >>> 1) ^^^ 0xEDB88320 else crc >>> 1

/-- Takes in one byte. -/
def step (crc : UInt32) (byte : UInt8) : UInt32 :=
  Nat.repeat shift 8 (crc ^^^ byte.toUInt32)

/-- The checksum of the bytes. -/
def checksum (bytes : List UInt8) : UInt32 := ~~~ (bytes.foldl step 0xFFFFFFFF)

end Stubwright.Archive.Crc32
