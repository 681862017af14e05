import Stubwright.Host.Basic
import Stubwright.Text.Utf8

/-!
# Copying in chunks

    reads ──refill──▶ buffer ──take──▶ written

A file is copied by reading it chunk by chunk into one buffer. What an attempt to read has put into the
buffer is written before the next attempt overwrites it; behind it stands what earlier attempts left,
and that is not written again. Interrupted reads are repeated; the copy ends with the file, or with the
first failure. What was read until then has been written.
-/

namespace Stubwright.Host

/-- What a copy did: the bytes it wrote, and their number or why it failed. -/
structure Copied where
  written : Bytes
  outcome : Except IoError Nat

/-- The bytes a chunk holds at most. -/
def chunkSize : Nat := 8 * 1024

/-- A buffer into which `bytes` were read: they overwrite its beginning, as far as it has room. -/
def refill (buffer bytes : Bytes) : Bytes :=
  (bytes ++ buffer.drop bytes.length).take buffer.length

theorem length_refill (buffer bytes : Bytes) : (refill buffer bytes).length = buffer.length := by
  simp only [refill, List.length_take, List.length_append, List.length_drop]
  omega

/-- What fits in the buffer can be read off it again. -/
theorem take_refill {buffer bytes : Bytes} (h : bytes.length ≤ buffer.length) :
    (refill buffer bytes).take bytes.length = bytes := by
  rw [refill, List.take_take, Nat.min_eq_left h, List.take_left]

/-- Copies what the reads give, through the buffer; `total` bytes were written before. -/
def copyFrom (buffer : Bytes) (total : Nat) : List ReadResult → Copied
  | [] => ⟨[], .ok total⟩
  | .chunk [] :: _ => ⟨[], .ok total⟩
  | .chunk bytes :: rest =>
    let buffer := refill buffer bytes
    let copied := copyFrom buffer (total + bytes.length) rest
    { copied with written := buffer.take bytes.length ++ copied.written }
  | .interrupted :: rest => copyFrom buffer total rest
  | .failed e :: _ => ⟨[], .error e⟩

/-- Copies what the reads give, through a buffer of zeros. -/
def copyChunks (reads : List ReadResult) : Copied :=
  copyFrom (List.replicate chunkSize 0) 0 reads

variable {m : Type → Type} [Monad m]

/-- Reads a whole file. -/
def readAll (host : Host m) (path : Path) : m (Except IoError Bytes) := do
  match ← host.read path chunkSize with
  | .error e => return .error e
  | .ok reads =>
    let copied := copyChunks reads
    match copied.outcome with
    | .error e => return .error e
    | .ok _ => return .ok copied.written

/-- Reads a whole file as text. -/
def readText (host : Host m) (path : Path) : m (Except IoError String) := do
  match ← host.readAll path with
  | .error e => return .error e
  | .ok bytes =>
    match Text.ofUtf8? bytes with
    | some text => return .ok text
    | none => return .error (.described "stream did not contain valid UTF-8")

end Stubwright.Host
