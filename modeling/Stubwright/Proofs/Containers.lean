import Mathlib.Algebra.Group.Nat.Defs
import Stubwright.Archive.Container
import Stubwright.Proofs.Encoding

/-!
# Containers are read back

    members ──encode──▶ local records, directory, end ──decode?──▶ the same members

A local record says how long its name and its data are, so that reading it gives the member and leaves
what follows (`readRecord?_append`). The directory starts with another mark, and reading ends there.
Main statement (`decode?_encode`): members whose sizes fit their fields are read back from their
container, in order, and nothing else is.
-/

namespace Stubwright.Archive.Container

/-! ## Numbers -/

@[simp] theorem length_number (count n : Nat) : (number count n).length = count := by
  induction count generalizing n with
  | zero => rfl
  | succ count ih => rw [number, List.length_cons, ih]

theorem readNumber_number {count n : Nat} (h : n < 256 ^ count) :
    readNumber (number count n) = n := by
  induction count generalizing n with
  | zero => exact (Nat.lt_one_iff.mp h).symm
  | succ count ih =>
    have hrest : n / 256 < 256 ^ count := by
      rw [Nat.div_lt_iff_lt_mul (by decide), ← Nat.pow_succ]
      exact h
    rw [number, readNumber, ih hrest, UInt8.toNat_ofNat']
    exact Nat.mod_add_div n 256

/-- A field is found by the number of bytes in front of it. -/
theorem take_drop_field {bytes field : Bytes} (before after : Bytes) {start size : Nat}
    (h : bytes = before ++ (field ++ after)) (hstart : before.length = start)
    (hsize : field.length = size) : (bytes.drop start).take size = field := by
  subst h hstart hsize
  rw [List.drop_left, List.take_left]

/-! ## Data -/

theorem inflate?_block_last {content : Bytes} (h : content.length ≤ blockLimit) :
    inflate? (block true content) = some content := by
  have hsize : readNumber (number 2 content.length) = content.length :=
    readNumber_number (by simp only [blockLimit] at h; omega)
  simp only [number] at hsize
  simp [block, number, inflate?, hsize]

theorem inflate?_block_append {content rest : Bytes} (h : content.length ≤ blockLimit) :
    inflate? (block false content ++ rest) = (inflate? rest).map (content ++ ·) := by
  have hsize : readNumber (number 2 content.length) = content.length :=
    readNumber_number (by simp only [blockLimit] at h; omega)
  simp only [number] at hsize
  have hlong : ¬ content.length + rest.length < content.length := by omega
  rw [inflate?.eq_def]
  simp [block, number, hsize, hlong]

/-- What was deflated is inflated. -/
theorem inflate?_deflate (content : Bytes) : inflate? (deflate content) = some content := by
  fun_induction deflate content with
  | case1 content hshort => exact inflate?_block_last hshort
  | case2 content hlong ih =>
    rw [inflate?_block_append (List.length_take_le _ _), ih, Option.map_some,
      List.take_append_drop]

theorem unpack?_pack (compression : Compression) (content : Bytes) :
    unpack? compression (pack compression content) = some content := by
  cases compression with
  | stored => rfl
  | deflated => exact inflate?_deflate content

theorem compressionOf?_methodNumber (compression : Compression) :
    compressionOf? (methodNumber compression) = some compression := by
  cases compression <;> rfl

/-! ## Local records -/

/-- The sizes of a member fit the fields that are there for them. -/
structure Fits (m : Member) : Prop where
  name : (Text.utf8 m.name).length < 0x10000
  data : (pack m.compression m.content).length < 0x100000000

/-- The part of a local record in front of the name. -/
def recordHead (m : Member) : Bytes := number 4 localMark ++ sharedFields m

theorem length_recordHead (m : Member) : (recordHead m).length = 30 := by
  simp [recordHead, sharedFields]

theorem localRecord_eq (m : Member) :
    localRecord m = recordHead m ++ (Text.utf8 m.name ++ pack m.compression m.content) := by
  rw [localRecord, recordHead, List.append_assoc, List.append_assoc]

/-- A field in front of the name is found by the number of bytes before it. -/
theorem field_recordHead {m : Member} (before : Bytes) {field after more : Bytes}
    (h : recordHead m = before ++ (field ++ after)) {start size : Nat}
    (hstart : before.length = start) (hsize : field.length = size) :
    ((recordHead m ++ more).drop start).take size = field := by
  refine take_drop_field before (after ++ more) ?_ hstart hsize
  rw [h, List.append_assoc, List.append_assoc]

/-- **A local record is read as its member, and what follows it is left.** -/
theorem readRecord?_append {m : Member} (h : Fits m) (rest : Bytes) :
    readRecord? (localRecord m ++ rest) = some (m, rest) := by
  rw [localRecord_eq, List.append_assoc, List.append_assoc]
  generalize hmore : Text.utf8 m.name ++ (pack m.compression m.content ++ rest) = more
  -- the fields in front of the name have fixed sizes, and so fixed places
  have hmark : (recordHead m ++ more).take 4 = number 4 localMark := by
    rw [recordHead, List.append_assoc]
    exact List.take_left' (length_number 4 _)
  have hmethod : ((recordHead m ++ more).drop 8).take 2
      = number 2 (methodNumber m.compression) :=
    field_recordHead (number 4 localMark ++ number 2 20 ++ number 2 0x0800)
      (by simp only [recordHead, sharedFields, List.append_assoc]; rfl) rfl rfl
  have hsize : ((recordHead m ++ more).drop 18).take 4
      = number 4 (pack m.compression m.content).length :=
    field_recordHead (number 4 localMark ++ number 2 20 ++ number 2 0x0800 ++
        number 2 (methodNumber m.compression) ++ number 2 0 ++ number 2 packedDate ++
        number 4 (Crc32.checksum m.content).toNat)
      (by simp only [recordHead, sharedFields, List.append_assoc]; rfl) rfl rfl
  have hnameSize : ((recordHead m ++ more).drop 26).take 2
      = number 2 (Text.utf8 m.name).length :=
    field_recordHead (number 4 localMark ++ number 2 20 ++ number 2 0x0800 ++
        number 2 (methodNumber m.compression) ++ number 2 0 ++ number 2 packedDate ++
        number 4 (Crc32.checksum m.content).toNat ++
        number 4 (pack m.compression m.content).length ++ number 4 m.content.length)
      (by simp only [recordHead, sharedFields, List.append_assoc]; rfl) rfl rfl
  have hname : ((recordHead m ++ more).drop 30).take (Text.utf8 m.name).length
      = Text.utf8 m.name :=
    take_drop_field _ _ (congrArg (recordHead m ++ ·) hmore.symm) (length_recordHead m) rfl
  have hdata : ((recordHead m ++ more).drop (30 + (Text.utf8 m.name).length)).take
      (pack m.compression m.content).length = pack m.compression m.content := by
    refine take_drop_field (recordHead m ++ Text.utf8 m.name) rest ?_ ?_ rfl
    · rw [← hmore, List.append_assoc]
    · rw [List.length_append, length_recordHead]
  have hrest : (recordHead m ++ more).drop (30 + (Text.utf8 m.name).length +
      (pack m.compression m.content).length) = rest := by
    rw [← hmore, ← List.append_assoc, ← List.append_assoc]
    exact List.drop_left' (by simp [length_recordHead, Nat.add_assoc])
  have hfour : localMark < 256 ^ 4 := by decide
  have htwo : methodNumber m.compression < 256 ^ 2 := by cases m.compression <;> decide
  unfold readRecord?
  rw [hmark, hmethod, hsize, hnameSize, readNumber_number hfour, readNumber_number htwo,
    readNumber_number h.data, readNumber_number h.name, compressionOf?_methodNumber]
  dsimp only
  rw [hname, hdata, hrest, Text.ofUtf8?_utf8, if_neg (not_not_intro rfl)]
  change (unpack? m.compression (pack m.compression m.content) >>= fun content =>
    some ((⟨m.name, m.compression, content⟩ : Member), rest)) = some (m, rest)
  rw [unpack?_pack]
  rfl

/-! ## Containers -/

/-- A member of a container is shorter than the container. -/
theorem length_pack_le {m : Member} {members : List Member} (h : m ∈ members) :
    (pack m.compression m.content).length ≤ (encode members).length := by
  have hrecord : (pack m.compression m.content).length ≤ (localRecord m).length := by
    rw [localRecord, List.length_append]
    exact Nat.le_add_left _ _
  have hrecords : (localRecord m).length ≤ (records members).length :=
    (List.sublist_flatten_of_mem (List.mem_map_of_mem h)).length_le
  rw [encode, List.length_append]
  omega

theorem records_cons (m : Member) (members : List Member) :
    records (m :: members) = localRecord m ++ records members := rfl

/-- Behind the local records, each record starts with another mark. -/
theorem readRecord?_trailer (members : List Member) : readRecord? (trailer members) = none := by
  have hother : ∀ mark ∈ [directoryMark, endMark], mark < 256 ^ 4 ∧ mark ≠ localMark := by decide
  have hmark : ∃ mark ∈ [directoryMark, endMark], (trailer members).take 4 = number 4 mark := by
    cases members with
    | nil => exact ⟨endMark, by simp, List.take_left' (length_number 4 _)⟩
    | cons m members => exact ⟨directoryMark, by simp, List.take_left' (length_number 4 _)⟩
  obtain ⟨mark, hmem, hmark⟩ := hmark
  obtain ⟨hfour, hne⟩ := hother mark hmem
  unfold readRecord?
  rw [hmark, readNumber_number hfour, if_pos hne]
  rfl

theorem readRecords_append {members : List Member} (h : ∀ m ∈ members, Fits m) {rest : Bytes}
    (hrest : readRecord? rest = none) : readRecords (records members ++ rest) = members := by
  induction members with
  | nil =>
    rw [show records [] ++ rest = rest from rfl, readRecords, hrest]
  | cons m members ih =>
    rw [List.forall_mem_cons] at h
    rw [records_cons, List.append_assoc, readRecords, readRecord?_append h.1]
    have hshorter : (records members ++ rest).length
        < (localRecord m ++ (records members ++ rest)).length := by
      have hhead := length_recordHead m
      rw [localRecord_eq]
      simp only [List.length_append]
      omega
    dsimp only
    rw [if_pos hshorter, ih h.2]

/-- **Members are read back from their container**, if their sizes fit the format. -/
theorem decode?_encode {members : List Member} (h : ∀ m ∈ members, Fits m) :
    decode? (encode members) = some members := by
  have hmembers : readRecords (encode members) = members :=
    readRecords_append h (readRecord?_trailer members)
  unfold decode?
  rw [hmembers]
  simp

end Stubwright.Archive.Container
