import Mathlib.Data.List.Nodup
import Stubwright.Proofs.Precedence
import Stubwright.Proofs.Provided
import Stubwright.Proofs.Readability
import Stubwright.Proofs.SignatureReading
import Stubwright.Stub.Source

/-!
# Methods that are written alike

    key ──provided──▶ member ──signature──▶ text ──readHead──▶ Head
     └──────────────────Head.ofKey───────────────────────────────▲

A stub has every key once, and keys tell parameter types apart by their library names. Source text
shows the full names instead, in which a nested class and a class of a package can be the same. Main
statement (`heads_nodup_iff`): the source of a stub repeats a method if, and only if, two keys that
it provides are written alike. Both keys are provided if they are left open where they are first met,
and nothing in a valid library prevents that (`nested_name_repeats`).
-/

namespace Stubwright.Stub

open Java Library

variable {L : Library} {T : Descriptor} {k : MemberKey} {m : Member} {ms : List Member}

/-! ## Which keys are provided -/

/-- Some reached type leaves the key open and is met before all others that declare it. -/
def OpenedFirst (L : Library) (T : Descriptor) (k : MemberKey) : Prop :=
  ∃ E e, L.Reaches T E ∧ Declares E k e ∧ e.isFinal = false ∧ MetFirst L T k E

theorem openedFirst_iff (hL : L.validate = .ok ()) (hT : T ∈ L.types)
    (hms : ∀ m, m ∈ ms ↔ ∃ owner, settled L (offers L T m.key) = some (.kept owner m)) :
    OpenedFirst L T k ↔ ∃ m ∈ ms, m.key = k := by
  have hname : NoNamesake L T := noNamesake_of_mem hT
  rw [exists_member_iff hms]
  constructor
  · rintro ⟨E, e, hE, he, hopen, hfirst⟩
    have hoffer : (⟨E.name, e⟩ : Declaration) ∈ offers L T k := mem_offers_of_declares hname hE he
    obtain ⟨d, rest, hoffers⟩ := List.exists_cons_of_ne_nil (List.ne_nil_of_mem hoffer)
    obtain rfl := (metFirst_iff hL hT hoffers hE he).mp hfirst
    exact ⟨_, rest, hoffers, hopen⟩
  · rintro ⟨d, rest, hoffers, hopen⟩
    have hd : d ∈ offers L T k := hoffers ▸ List.mem_cons_self
    obtain ⟨E, hE, howner, he⟩ := (mem_offers_iff hname).mp hd
    refine ⟨E, d.member, hE, he, hopen, ?_⟩
    rw [metFirst_iff hL hT hoffers hE he, ← howner]

/-! ## The heads in a source -/

/-- **The source of a stub repeats no method exactly if no two keys that are provided are written
alike.** The head of each method is read off its signature. -/
theorem heads_nodup_iff {text : String} (hread : Library.ofDocument text = .ok L)
    (hL : L.validate = .ok ()) (hT : T ∈ L.types) (hcheck : checkTarget T = .ok ())
    (indent : Nat) :
    ∃ ms, render L indent T = .ok (source indent T ms) ∧
      (∀ m ∈ ms, readHead (signature m)
        = ⟨m.name, m.parameters.map (·.type.canonicalName)⟩) ∧
      ((ms.map fun m => readHead (signature m)).Nodup ↔
        ∀ k k', OpenedFirst L T k → OpenedFirst L T k' → Head.ofKey k = Head.ofKey k' → k = k') := by
  obtain ⟨ms, hmembers, hnodup, hms⟩ := members_spec (L := L) hcheck
  have hhead : ∀ m ∈ ms, readHead (signature m) = Head.ofKey m.key := by
    intro m hm
    exact readHead_signature (legalMember_of_mem hT hms hm (readableMembers_of_ofDocument hread) hL)
  refine ⟨ms, by rw [render, hmembers]; rfl, ?_, ?_⟩
  · intro m hm
    rw [hhead m hm, head_ofKey_key]
  · rw [List.map_congr_left hhead, List.nodup_map_iff_inj_on hnodup.of_map]
    constructor
    · intro hinj k k' hk hk' heq
      obtain ⟨m, hm, rfl⟩ := (openedFirst_iff hL hT hms).mp hk
      obtain ⟨n, hn, rfl⟩ := (openedFirst_iff hL hT hms).mp hk'
      rw [hinj m hm n hn heq]
    · intro hinj m hm n hn heq
      have hkeys : m.key = n.key :=
        hinj m.key n.key ((openedFirst_iff hL hT hms).mpr ⟨m, hm, rfl⟩)
          ((openedFirst_iff hL hT hms).mpr ⟨n, hn, rfl⟩) heq
      exact List.inj_on_of_nodup_map hnodup hm hn hkeys

/-! ### A nested class and a class of a package -/

/-- The parameter types are a class inside `B`, and a class of a package `B`. -/
def nestedName : String :=
  "<typeLibrary><type name=\"T\"><method name=\"m\"><param type=\"B$C\"/></method>" ++
    "<method name=\"m\"><param type=\"B.C\"/></method></type></typeLibrary>"

def nestedNameType : Descriptor where
  name := "T"
  members := [
    { name := "m", returns := .primitive .void, parameters := [⟨"arg0", .reference "B$C"⟩] },
    { name := "m", returns := .primitive .void, parameters := [⟨"arg0", .reference "B.C"⟩] }]

theorem ofDocument_nestedName :
    Library.ofDocument nestedName = .ok ⟨[nestedNameType], by decide⟩ := by
  decide +kernel

theorem heads_nodup_iff_nestedName :
    ∃ L, Library.ofDocument nestedName = .ok L ∧ L.validate = .ok () ∧ nestedNameType ∈ L.types ∧
      checkTarget nestedNameType = .ok () ∧
      ∃ ms, render L defaultIndent nestedNameType
          = .ok (source defaultIndent nestedNameType ms) ∧
        (∀ m ∈ ms, readHead (signature m)
          = ⟨m.name, m.parameters.map (·.type.canonicalName)⟩) ∧
        ((ms.map fun m => readHead (signature m)).Nodup ↔
          ∀ k k', OpenedFirst L nestedNameType k → OpenedFirst L nestedNameType k' →
            Head.ofKey k = Head.ofKey k' → k = k') := by
  have hL : (⟨[nestedNameType], by decide⟩ : Library).validate = .ok () := by decide +kernel
  have hcheck : checkTarget nestedNameType = .ok () := by decide
  exact ⟨_, ofDocument_nestedName, hL, List.mem_cons_self, hcheck,
    heads_nodup_iff ofDocument_nestedName hL List.mem_cons_self hcheck defaultIndent⟩

/-- The source has the method `m(B.C)` twice. -/
theorem nested_name_repeats :
    ∃ L ms, Library.ofDocument nestedName = .ok L ∧ L.validate = .ok () ∧
      nestedNameType ∈ L.types ∧ checkTarget nestedNameType = .ok () ∧
      render L defaultIndent nestedNameType = .ok (source defaultIndent nestedNameType ms) ∧
      ms.map (fun m => readHead (signature m)) = [⟨"m", ["B.C"]⟩, ⟨"m", ["B.C"]⟩] := by
  refine ⟨_, nestedNameType.members, ofDocument_nestedName, ?_, List.mem_cons_self, ?_, ?_, ?_⟩
  · decide +kernel
  · decide
  · decide +kernel
  · decide +kernel

end Stubwright.Stub
