import Mathlib.Data.List.DropRight
import Stubwright.Proofs.Reading

/-!
# Which types a document gives

Between types the reader does two things that count: it starts the library anew at a `typeLibrary`
element, and it adds a type when it is complete. The journal of a reading notes both down, in the
order in which they happen. Main statement (`types_eq_parsed_iff`): the library has exactly the
types that were parsed after the last root, in their order. So it has all parsed types if, and only
if, no root comes after a type; a second document in the same text takes the types of the first
away (`second_root_drops_types`).
-/

namespace Stubwright.Library

open Java Markup

/-! ## The journal -/

/-- What the reader notes down between types. -/
inductive JournalEntry where
  /-- A library starts. -/
  | root
  /-- A type is complete. -/
  | parsed (d : Descriptor)
  deriving DecidableEq

/-- The type of an entry that has one. -/
def JournalEntry.type? : JournalEntry → Option Descriptor
  | root => none
  | parsed d => some d

/-- The types the entries tell of, in order. -/
def parsedTypes (entries : List JournalEntry) : List Descriptor :=
  entries.filterMap JournalEntry.type?

/-- The types that were parsed after the last root. -/
def sinceRoot (entries : List JournalEntry) : List Descriptor :=
  parsedTypes (entries.rtakeWhile fun e => e.type?.isSome)

theorem parsedTypes_concat_root (entries : List JournalEntry) :
    parsedTypes (entries ++ [.root]) = parsedTypes entries := by
  simp [parsedTypes, JournalEntry.type?]

theorem parsedTypes_concat (entries : List JournalEntry) (d : Descriptor) :
    parsedTypes (entries ++ [.parsed d]) = parsedTypes entries ++ [d] := by
  simp [parsedTypes, JournalEntry.type?]

theorem sinceRoot_concat_root (entries : List JournalEntry) :
    sinceRoot (entries ++ [.root]) = [] := by
  rw [sinceRoot, List.rtakeWhile_concat]
  rfl

theorem sinceRoot_concat (entries : List JournalEntry) (d : Descriptor) :
    sinceRoot (entries ++ [.parsed d]) = sinceRoot entries ++ [d] := by
  rw [sinceRoot, List.rtakeWhile_concat]
  exact parsedTypes_concat _ d

/-- A type was parsed, and a root came later. -/
def Dropped (entries : List JournalEntry) (d : Descriptor) : Prop :=
  [JournalEntry.parsed d, .root].Sublist entries

theorem mem_parsedTypes {entries : List JournalEntry} {d : Descriptor} :
    d ∈ parsedTypes entries ↔ .parsed d ∈ entries := by
  rw [parsedTypes, List.mem_filterMap]
  constructor
  · rintro ⟨e, he, htype⟩
    cases e with
    | root => cases htype
    | parsed d' =>
      cases htype
      exact he
  · intro h
    exact ⟨_, h, rfl⟩

theorem dropped_concat_root {entries : List JournalEntry} {d : Descriptor} :
    Dropped (entries ++ [.root]) d ↔ d ∈ parsedTypes entries := by
  rw [mem_parsedTypes, Dropped]
  constructor
  · intro h
    have h : [JournalEntry.parsed d].Sublist entries := by
      have h : ([JournalEntry.parsed d] ++ [JournalEntry.root]).Sublist
          (entries ++ [JournalEntry.root]) := h
      exact (List.append_sublist_append_right _).mp h
    exact h.subset List.mem_cons_self
  · intro h
    exact (List.singleton_sublist.mpr h).append (List.Sublist.refl [JournalEntry.root])

theorem dropped_concat {entries : List JournalEntry} {d d' : Descriptor} :
    Dropped (entries ++ [.parsed d']) d ↔ Dropped entries d := by
  constructor
  · intro h
    -- the last entry is no root, so that it takes no part
    have h : [JournalEntry.root, .parsed d].Sublist (.parsed d' :: entries.reverse) := by
      simpa using List.reverse_sublist.mpr h
    cases h with
    | cons _ h =>
      rw [← List.reverse_sublist, List.reverse_reverse] at h
      exact h
  · intro h
    exact h.trans (List.sublist_append_left _ _)

/-- Everything parsed is still there exactly if nothing was dropped. -/
theorem sinceRoot_eq_parsedTypes_iff (entries : List JournalEntry) :
    sinceRoot entries = parsedTypes entries ↔ ∀ d, ¬ Dropped entries d := by
  induction entries using List.reverseRecOn with
  | nil => exact iff_of_true rfl (fun d h => by cases h)
  | append_singleton entries e ih =>
    cases e with
    | root =>
      rw [sinceRoot_concat_root, parsedTypes_concat_root, eq_comm, List.eq_nil_iff_forall_not_mem]
      exact forall_congr' fun d => not_congr dropped_concat_root.symm
    | parsed d' =>
      rw [sinceRoot_concat, parsedTypes_concat, List.append_left_inj, ih]
      exact forall_congr' fun d => not_congr dropped_concat.symm

namespace Reading

/-- What the reader notes down at an event. -/
def entries (r : Reading) : Event → List JournalEntry
  | .start tag =>
    match r.focus, tag.name with
    | .document, "typeLibrary" => [.root]
    | _, _ => []
  | .empty tag =>
    match r.focus, tag.name, typeOf tag with
    | .document, "typeLibrary", _ => [.root]
    | .document, "type", .ok d => [.parsed d]
    | _, _, _ => []
  | .close _ =>
    match r.focus with
    | .type d => [.parsed d]
    | _ => []

/-- What the reader notes down at the events and at the end, where the open type is complete. -/
def journal (r : Reading) : List Event → List JournalEntry
  | [] => (unfinished? r.focus).toList.map .parsed
  | event :: events =>
    r.entries event ++
      match r.step event with
      | .ok r' => r'.journal events
      | .error _ => []

end Reading

/-- The journal of a document. -/
def journalOf (text : String) : List JournalEntry := ({} : Reading).journal (scan text).events

/-! ## The library against the journal -/

namespace Reading

variable {r r' : Reading} {entries₀ : List JournalEntry} {event : Event}

/-- The library has the types since the last root. Before the first root there are neither. -/
def Records (entries : List JournalEntry) : Option Library → Prop
  | none => entries = []
  | some L => L.types = sinceRoot entries

/-- A root starts a library. -/
theorem Records.exists_library {entries : List JournalEntry} {L? : Option Library}
    (h : Records entries L?) (hroot : .root ∈ entries) : ∃ L, L? = some L := by
  cases L? with
  | none =>
    have h : entries = [] := h
    rw [h] at hroot
    cases hroot
  | some L => exact ⟨L, rfl⟩

theorem Records.add {entries : List JournalEntry} {d : Descriptor} (h : Records entries r.library?)
    (h' : r.addType d = .ok r') : Records (entries ++ [.parsed d]) r'.library? := by
  obtain ⟨L, L', hL, hadd, rfl⟩ := addType_eq_ok_iff.mp h'
  rw [hL] at h
  have h : L.types = sinceRoot entries := h
  show L'.types = sinceRoot (entries ++ [.parsed d])
  rw [(add_eq_ok_iff.mp hadd).2, h, sinceRoot_concat]

theorem Records.root (entries : List JournalEntry) :
    Records (entries ++ [.root]) (some Library.empty) :=
  (sinceRoot_concat_root entries).symm

/-- A tag between types. -/
theorem Records.documentChild {entries : List JournalEntry} {opens : Bool} {tag : Tag}
    (h : Records entries r.library?) (hfocus : r.focus = .document)
    (hstep : r.documentChild opens tag = .ok r') :
    Records (entries ++ r.entries (if opens then .start tag else .empty tag)) r'.library? := by
  rcases documentChild_cases hstep with ⟨hname, rfl⟩ | ⟨d, hname, hd, hr⟩ | ⟨hroot, htype, rfl⟩
  · -- whatever the library had so far, it is empty now
    have hentries : r.entries (if opens then .start tag else .empty tag) = [.root] := by
      cases opens <;> simp [Reading.entries, hfocus, hname]
    rw [hentries]
    exact Records.root entries
  · cases opens with
    | true =>
      have hentries : r.entries (.start tag) = [] := by simp [Reading.entries, hfocus, hname]
      simp only [if_true] at hr ⊢
      rw [hentries, List.append_nil, hr]
      exact h
    | false =>
      have hentries : r.entries (.empty tag) = [.parsed d] := by
        simp [Reading.entries, hfocus, hname, hd]
      simp only [Bool.false_eq_true, if_false] at hr ⊢
      rw [hentries]
      exact h.add hr
  · have hentries : r.entries (if opens then .start tag else .empty tag) = [] := by
      cases opens <;> simp [Reading.entries, hfocus, hroot, htype]
    rw [hentries, List.append_nil]
    cases opens <;> exact h

/-- **Every event keeps library and journal together.** -/
theorem Records.step {entries : List JournalEntry} (h : Records entries r.library?)
    (hstep : r.step event = .ok r') : Records (entries ++ r.entries event) r'.library? := by
  cases hfocus : r.focus with
  | document =>
    cases event with
    | start tag | empty tag =>
      simp only [Reading.step_document hfocus] at hstep
      exact h.documentChild hfocus hstep
    | close name =>
      simp only [Reading.step_document hfocus] at hstep
      cases hstep
      simpa [Reading.entries, hfocus] using h
  | type d =>
    -- inside a type only its end counts
    have hchild : ∀ {opens tag}, r.typeChild d opens tag = .ok r' → r'.library? = r.library? := by
      intro opens tag hchild
      rcases typeChild_cases hchild with ⟨d', name, -, rfl⟩ | ⟨m, -, -, rfl⟩ | rfl
      · rfl
      · rfl
      · cases opens <;> rfl
    cases event with
    | start tag | empty tag =>
      simp only [Reading.step_type hfocus] at hstep
      rw [hchild hstep]
      simpa [Reading.entries, hfocus] using h
    | close name =>
      simp only [Reading.step_type hfocus] at hstep
      have hentries : r.entries (.close name) = [.parsed d] := by simp [Reading.entries, hfocus]
      rw [hentries]
      exact h.add hstep
  | method d m =>
    -- inside a method the library is not touched, and nothing is noted down
    have hlibrary : r'.library? = r.library? := by
      rcases methodStep_cases hfocus hstep with ⟨tag, m', -, -, rfl⟩ | ⟨-, rfl⟩ | ⟨name, -, -, rfl⟩
      · rfl
      · rfl
      · rfl
    rw [hlibrary]
    cases event <;> simpa [Reading.entries, hfocus] using h
  | skipping d? depth =>
    have hlibrary : r'.library? = r.library? := by
      rcases skippingStep_cases hfocus hstep with
        ⟨tag, -, rfl⟩ | ⟨tag, -, rfl⟩ | ⟨name, -, -, rfl⟩ | ⟨name, inner, -, -, rfl⟩
      · rfl
      · rfl
      · rfl
      · rfl
    rw [hlibrary]
    cases event <;> simpa [Reading.entries, hfocus] using h

/-- At the end the open type is added. -/
theorem Records.settle {entries : List JournalEntry} (h : Records entries r.library?)
    (hsettle : r.settle = .ok r') :
    Records (entries ++ (unfinished? r.focus).toList.map .parsed) r'.library? := by
  unfold Reading.settle at hsettle
  cases hopen : unfinished? r.focus with
  | none =>
    rw [hopen] at hsettle
    cases hsettle
    simpa using h
  | some d =>
    rw [hopen] at hsettle
    exact h.add hsettle

/-- A run keeps them together; what the journal has beyond that is the type that is still open. -/
theorem Records.run {entries : List JournalEntry} {events : List Event} (h : Records entries r.library?)
    (hrun : r.run events = .ok r') :
    ∃ entries', Records entries' r'.library? ∧
      entries ++ r.journal events = entries' ++ (unfinished? r'.focus).toList.map .parsed := by
  induction events generalizing r entries with
  | nil =>
    cases hrun
    exact ⟨entries, h, rfl⟩
  | cons event events ih =>
    rw [run_cons, bind_eq_ok] at hrun
    obtain ⟨next, hstep, hrun⟩ := hrun
    obtain ⟨entries', hrecords, hjournal⟩ := ih (h.step hstep) hrun
    refine ⟨entries', hrecords, ?_⟩
    rw [journal, hstep, ← List.append_assoc, hjournal]

/-- **At the end the library has the types since the last root.** -/
theorem Records.finish {entries : List JournalEntry} {events : List Event} {L : Library}
    (h : Records entries r.library?) (hrun : r.run events = .ok r') (hfinish : r'.finish = .ok L) :
    L.types = sinceRoot (entries ++ r.journal events) := by
  obtain ⟨entries', hrecords, hjournal⟩ := h.run hrun
  rw [finish_eq, bind_eq_ok] at hfinish
  obtain ⟨settled, hsettle, hresult⟩ := hfinish
  have htypes := hrecords.settle hsettle
  rwa [result_eq_ok_iff.mp hresult, ← hjournal] at htypes

end Reading

/-! ## What a document gives -/

/-- **A document gives the types that were parsed after its last root**, each once and in their
order; these are all parsed types exactly if no root comes after a type. -/
theorem types_eq_parsed_iff {text : String} {L : Library} (h : ofDocument text = .ok L) :
    L.types = sinceRoot (journalOf text) ∧ (L.types.map (·.name)).Nodup ∧
      (L.types = parsedTypes (journalOf text) ↔ ∀ d, ¬ Dropped (journalOf text) d) := by
  obtain ⟨-, r, hrun, hfinish⟩ := ofTranscript_eq_ok h
  have hstart : Reading.Records [] ({} : Reading).library? := rfl
  have htypes : L.types = sinceRoot (journalOf text) := hstart.finish hrun hfinish
  refine ⟨htypes, L.distinct, ?_⟩
  rw [htypes, sinceRoot_eq_parsedTypes_iff]

example : journalOf "<typeLibrary><type name=\"a.B\"/></typeLibrary><typeLibrary/>"
    = [.root, .parsed { name := "a.B" }, .root] := by decide +kernel

/-! ### Two documents in one text -/

/-- A library of one type, twice. -/
def twoRoots : String :=
  "<typeLibrary><type name=\"a.B\"/></typeLibrary><typeLibrary><type name=\"a.C\"/></typeLibrary>"

theorem types_eq_parsed_iff_twoRoots :
    ∃ L, ofDocument twoRoots = .ok L ∧ L.types = sinceRoot (journalOf twoRoots) ∧
      (L.types.map (·.name)).Nodup ∧
      (L.types = parsedTypes (journalOf twoRoots) ↔ ∀ d, ¬ Dropped (journalOf twoRoots) d) := by
  have h : ofDocument twoRoots = .ok ⟨[{ name := "a.C" }], by decide⟩ := by decide +kernel
  exact ⟨_, h, types_eq_parsed_iff h⟩

/-- The types of the first document are gone. -/
theorem second_root_drops_types :
    ∃ L, ofDocument twoRoots = .ok L ∧ L.types ≠ parsedTypes (journalOf twoRoots) := by
  refine ⟨⟨[{ name := "a.C" }], by decide⟩, by decide +kernel, ?_⟩
  decide +kernel

end Stubwright.Library
