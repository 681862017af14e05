import Stubwright.Host.Memory
import Stubwright.Proofs.Copying
import Stubwright.Proofs.Encoding

/-!
# Reading files

    content ──chunks──▶ reads ──copyChunks──▶ the same content ──ofUtf8?──▶ text

A file is read chunk by chunk. What is put together again is the whole content (`copyChunks_chunks`),
and if that is UTF-8, it is read as the text it was written from (`readText_memory`). The machine is
left as it was.
-/

namespace Stubwright.Host

/-- A machine goes on in the state it was left in. -/
theorem bind_apply {σ α β : Type} (x : StateM σ α) (f : α → StateM σ β) (s : σ) :
    (x >>= f) s = f (x s).1 (x s).2 := rfl

/-! ## Chunks -/

/-- A content is cut into chunks that hold something and fit. -/
theorem passes_of_mem_chunks {content : Bytes} {r : ReadResult}
    (h : r ∈ Memory.chunks chunkSize content) : r.Passes := by
  have hsize : 1 ≤ chunkSize := by decide
  generalize hchunk : chunkSize = size at h
  fun_induction Memory.chunks size content with
  | case1 content hshort hempty => cases h
  | case2 content hshort hne =>
    obtain rfl := List.mem_singleton.mp h
    have hne : content ≠ [] := fun hnil => hne (List.isEmpty_iff.mpr hnil)
    have hlength : 0 < content.length := List.length_pos_iff.mpr hne
    exact ⟨hlength, by omega⟩
  | case3 content hlong ih =>
    rcases List.mem_cons.mp h with rfl | h
    · have hlength : (content.take size).length = size := List.length_take_of_le (by omega)
      exact ⟨by omega, by omega⟩
    · exact ih h

theorem delivered_chunks (size : Nat) (content : Bytes) :
    delivered (Memory.chunks size content) = content := by
  fun_induction Memory.chunks size content with
  | case1 content hshort hempty => exact (List.isEmpty_iff.mp hempty).symm
  | case2 content hshort hne => exact List.append_nil content
  | case3 content hlong ih =>
    rw [delivered_cons, ih]
    exact List.take_append_drop size content

/-- **What is read in chunks is the whole content.** -/
theorem copyChunks_chunks (content : Bytes) :
    copyChunks (Memory.chunks chunkSize content) = ⟨content, .ok content.length⟩ := by
  rw [copyChunks_end fun r => passes_of_mem_chunks, delivered_chunks]

/-- A read that breaks off is not taken for a whole one. -/
theorem outcome_copyChunks_broken (content : Bytes) (n : Nat) (e : IoError) :
    (copyChunks ((Memory.chunks chunkSize content).take n ++ [.failed e])).outcome = .error e := by
  have hpasses : ∀ r ∈ (Memory.chunks chunkSize content).take n, r.Passes :=
    fun r hr => passes_of_mem_chunks (List.mem_of_mem_take hr)
  rw [copyChunks_failed hpasses]

/-! ## Files of a machine -/

variable {memory : Memory} {path : Path}

theorem readAll_memory {content : Bytes}
    (h : memory.tree.readFile memory.base path = .ok content) :
    Memory.host.readAll path memory = (.ok content, memory) := by
  have hread : Memory.host.read path chunkSize memory
      = (.ok (Memory.chunks chunkSize content), memory) := by
    unfold FileTree.readFile at h
    simp only [Memory.host]
    cases hfind : memory.tree.find memory.base path with
    | error e =>
      rw [hfind] at h
      cases h
    | ok found =>
      rw [hfind] at h
      obtain ⟨place, node⟩ := found
      cases node with
      | directory => cases h
      | file content' executable =>
        cases h
        rfl
  unfold readAll
  rw [bind_apply, hread]
  dsimp only
  rw [copyChunks_chunks]
  rfl

/-- There is a file with the text at the path. -/
def Holds (memory : Memory) (path : Path) (text : String) : Prop :=
  memory.tree.readFile memory.base path = .ok (Text.utf8 text)

/-- **A file is read as its text.** -/
theorem readText_memory {text : String} (h : Holds memory path text) :
    Memory.host.readText path memory = (.ok text, memory) := by
  unfold readText
  rw [bind_apply, readAll_memory h]
  dsimp only
  rw [Text.ofUtf8?_utf8]
  rfl

end Stubwright.Host
