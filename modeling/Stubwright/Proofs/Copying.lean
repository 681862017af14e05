import Stubwright.Host.Copy

/-!
# Copies are whole

    reads ──copyChunks──▶ the bytes they delivered, one after the other

An attempt to read delivers a chunk, is interrupted, fails or finds the end. Whatever the attempts are,
a copy writes what they delivered until the end or the first failure, every byte once and in order, and
it counts right (`copyChunks_lossless`). The buffer that all chunks pass through does not show: nothing
of an earlier chunk is written with a shorter one that comes later. What the loop keeps is that the
buffer has its size, so that each chunk fits (`copyFrom_passed`).
-/

namespace Stubwright.Host

/-- The bytes that an attempt delivers. -/
def ReadResult.bytes : ReadResult → Bytes
  | .chunk bytes => bytes
  | .interrupted => []
  | .failed _ => []

/-- An attempt after which a copy goes on: it delivered something, no more than a chunk holds, or it
was interrupted. -/
def ReadResult.Passes : ReadResult → Prop
  | .chunk bytes => 1 ≤ bytes.length ∧ bytes.length ≤ chunkSize
  | .interrupted => True
  | .failed _ => False

/-- The bytes that attempts deliver, one after the other. -/
def delivered (reads : List ReadResult) : Bytes := reads.flatMap ReadResult.bytes

@[simp] theorem delivered_nil : delivered [] = [] := rfl

@[simp] theorem delivered_cons (r : ReadResult) (reads : List ReadResult) :
    delivered (r :: reads) = r.bytes ++ delivered reads := rfl

variable {buffer : Bytes} {passed : List ReadResult}

/-! ## Steps of a copy -/

/-- A chunk that fits is written, and the copy goes on behind it. -/
theorem copyFrom_chunk {bytes : Bytes} (hsome : 1 ≤ bytes.length)
    (hfits : bytes.length ≤ buffer.length) (total : Nat) (rest : List ReadResult) :
    copyFrom buffer total (.chunk bytes :: rest) =
      ⟨bytes ++ (copyFrom (refill buffer bytes) (total + bytes.length) rest).written,
        (copyFrom (refill buffer bytes) (total + bytes.length) rest).outcome⟩ := by
  cases bytes with
  | nil => cases hsome
  | cons b bytes =>
    rw [copyFrom, take_refill hfits]
    exact List.cons_ne_nil b bytes

/-- Attempts that pass are copied, and the copy goes on behind them with a buffer of the same size. -/
theorem copyFrom_passed (h : ∀ r ∈ passed, r.Passes) (hbuffer : buffer.length = chunkSize)
    (total : Nat) (rest : List ReadResult) :
    ∃ buffer', buffer'.length = chunkSize ∧
      copyFrom buffer total (passed ++ rest) =
        ⟨delivered passed
            ++ (copyFrom buffer' (total + (delivered passed).length) rest).written,
          (copyFrom buffer' (total + (delivered passed).length) rest).outcome⟩ := by
  induction passed generalizing buffer total with
  | nil => exact ⟨buffer, hbuffer, rfl⟩
  | cons r passed ih =>
    rw [List.forall_mem_cons] at h
    obtain ⟨hr, h⟩ := h
    cases r with
    | chunk bytes =>
      obtain ⟨hsome, hfits⟩ := hr
      have hrefilled : (refill buffer bytes).length = chunkSize := by rw [length_refill, hbuffer]
      obtain ⟨buffer', hbuffer', hcopy⟩ := ih h hrefilled (total + bytes.length)
      refine ⟨buffer', hbuffer', ?_⟩
      rw [List.cons_append, copyFrom_chunk hsome (by omega), hcopy]
      simp only [delivered_cons, ReadResult.bytes, List.length_append, List.append_assoc,
        Nat.add_assoc]
    | interrupted => exact ih h hbuffer total
    | failed e => cases hr

/-- Interruptions leave no trace: neither the output nor the count shows them. -/
theorem copyFrom_filter (buffer : Bytes) (total : Nat) (reads : List ReadResult) :
    copyFrom buffer total (reads.filter (· ≠ .interrupted)) = copyFrom buffer total reads := by
  induction reads generalizing buffer total with
  | nil => rfl
  | cons r reads ih =>
    cases r with
    | chunk bytes =>
      rw [List.filter_cons_of_pos (by simp)]
      cases bytes with
      | nil => rfl
      | cons b bytes => simp only [copyFrom, ih]
    | interrupted =>
      rw [List.filter_cons_of_neg (by simp), ih]
      rfl
    | failed e =>
      rw [List.filter_cons_of_pos (by simp)]
      rfl

theorem copyChunks_congr {reads reads' : List ReadResult}
    (h : reads.filter (· ≠ .interrupted) = reads'.filter (· ≠ .interrupted)) :
    copyChunks reads = copyChunks reads' := by
  rw [copyChunks, copyChunks, ← copyFrom_filter, h, copyFrom_filter]

/-! ## Whole copies -/

/-- A copy that ends behind attempts that pass: it has written what these delivered, and how it ends
hangs on their number of bytes only. -/
theorem copyChunks_passed (h : ∀ r ∈ passed, r.Passes) (rest : List ReadResult)
    (outcome : Nat → Except IoError Nat)
    (hrest : ∀ buffer total, copyFrom buffer total rest = ⟨[], outcome total⟩) :
    copyChunks (passed ++ rest) = ⟨delivered passed, outcome (delivered passed).length⟩ := by
  obtain ⟨buffer, -, hcopy⟩ := copyFrom_passed h List.length_replicate 0 rest
  rw [copyChunks, hcopy, hrest, List.append_nil, Nat.zero_add]

/-- A copy ends well where nothing more is read. -/
theorem copyChunks_end (h : ∀ r ∈ passed, r.Passes) :
    copyChunks passed = ⟨delivered passed, .ok (delivered passed).length⟩ := by
  have hcopy := copyChunks_passed h [] .ok fun _ _ => rfl
  rwa [List.append_nil] at hcopy

/-- A copy ends with a failure where an attempt fails. -/
theorem copyChunks_failed (h : ∀ r ∈ passed, r.Passes) (e : IoError) (rest : List ReadResult) :
    copyChunks (passed ++ .failed e :: rest) = ⟨delivered passed, .error e⟩ :=
  copyChunks_passed h (.failed e :: rest) (fun _ => .error e) fun _ _ => rfl

/-- **A copy loses nothing and repeats nothing.** Whatever chunks the attempts before the end deliver
and wherever they are interrupted, the bytes delivered are written once each, in order. At the end
their number is given, whether the end is an empty chunk or there are no attempts left; at a failure,
the failure. What would be read behind that does not count, and interruptions change nothing. -/
theorem copyChunks_lossless (h : ∀ r ∈ passed, r.Passes) (rest : List ReadResult) :
    copyChunks passed = ⟨delivered passed, .ok (delivered passed).length⟩ ∧
    copyChunks (passed ++ .chunk [] :: rest) = ⟨delivered passed, .ok (delivered passed).length⟩ ∧
    (∀ e, copyChunks (passed ++ .failed e :: rest) = ⟨delivered passed, .error e⟩) ∧
    ∀ reads, reads.filter (· ≠ .interrupted) = (passed ++ rest).filter (· ≠ .interrupted) →
      copyChunks reads = copyChunks (passed ++ rest) := by
  have hend : copyChunks (passed ++ .chunk [] :: rest)
      = ⟨delivered passed, .ok (delivered passed).length⟩ :=
    copyChunks_passed h (.chunk [] :: rest) .ok fun _ _ => rfl
  refine ⟨copyChunks_end h, hend, fun e => copyChunks_failed h e rest, ?_⟩
  intro reads hreads
  exact copyChunks_congr hreads

/-! ### A full chunk before a short one -/

/-- A chunk that fills the buffer, an interruption, and a byte that overwrites only its beginning. -/
def fullThenShort : List ReadResult :=
  [.interrupted, .chunk (List.replicate chunkSize 7), .interrupted, .chunk [8]]

theorem copyChunks_lossless_fullThenShort :
    (∀ r ∈ fullThenShort, r.Passes) ∧
    copyChunks (fullThenShort ++ [.chunk [], .chunk [9]])
      = ⟨List.replicate chunkSize 7 ++ [8], .ok (chunkSize + 1)⟩ ∧
    (∀ e, copyChunks (fullThenShort ++ [.failed e, .chunk [9]])
      = ⟨List.replicate chunkSize 7 ++ [8], .error e⟩) ∧
    copyChunks [.chunk (List.replicate chunkSize 7), .chunk [8], .interrupted, .chunk [9]]
      = copyChunks (fullThenShort ++ [.chunk [9]]) := by
  have hsize : 1 ≤ chunkSize := by decide
  have hpasses : ∀ r ∈ fullThenShort, r.Passes := by
    simp [fullThenShort, ReadResult.Passes, hsize]
  have hdelivered : delivered fullThenShort = List.replicate chunkSize 7 ++ [8] := by
    simp [fullThenShort, ReadResult.bytes]
  have hlength : (delivered fullThenShort).length = chunkSize + 1 := by simp [hdelivered]
  obtain ⟨-, hend, hfailed, hsame⟩ := copyChunks_lossless hpasses [.chunk [9]]
  rw [hlength, hdelivered] at hend
  rw [hdelivered] at hfailed
  exact ⟨hpasses, hend, hfailed, hsame _ (by simp [fullThenShort])⟩

end Stubwright.Host
