import Stubwright.Proofs.SupertypeNames

/-!
# Depth first, in the order of declaration

    target ──Follows──▶ types, each where it is met first ──iff──▶ lineage

The lineage of a target is computed by a loop over pending names, leaves included. `Follows` says by
rules what a walk over supertypes is meant to be: entry after entry, and from each type that is met
for the first time all that its own entries lead to before the next entry is looked at. Main statement
(`depthFirst_iff`): the lineage is the one list of types these rules allow, on every graph.
-/

namespace Stubwright

open Java

namespace Library

variable {L : Library} {seen seen' rest : List String} {met : List Descriptor}

/-- Following entries in order, when the names in `seen` have been visited: which types are met, and
the names that have been visited in the end. -/
inductive Follows (L : Library) : List String → List String → List Descriptor → List String → Prop
  | done {seen : List String} : Follows L seen [] [] seen
  /-- No type is declared under the entry. -/
  | undeclared {s : String} {seen rest seen' : List String} {met : List Descriptor} :
      L.get? s = none → Follows L seen rest met seen' → Follows L seen (s :: rest) met seen'
  /-- The entry leads back to a name that was visited. -/
  | again {s : String} {seen rest seen' : List String} {met : List Descriptor} :
      s ∈ seen → Follows L seen rest met seen' → Follows L seen (s :: rest) met seen'
  /-- The entry leads to a type for the first time: its own entries come before the others. -/
  | visit {s : String} {D : Descriptor} {seen mid rest seen' : List String}
      {below later : List Descriptor} :
      L.get? s = some D → s ∉ seen → Follows L (s :: seen) D.supertypes below mid →
      Follows L mid rest later seen' → Follows L seen (s :: rest) (D :: (below ++ later)) seen'

/-- The rules leave no choice. -/
theorem Follows.unique {met₁ met₂ : List Descriptor} {seen₁ seen₂ : List String}
    (h₁ : L.Follows seen rest met₁ seen₁) (h₂ : L.Follows seen rest met₂ seen₂) :
    met₁ = met₂ ∧ seen₁ = seen₂ := by
  induction h₁ generalizing met₂ seen₂ with
  | done =>
    cases h₂
    exact ⟨rfl, rfl⟩
  | undeclared hget _ ih =>
    cases h₂ with
    | undeclared _ h₂ => exact ih h₂
    | again _ h₂ => exact ih h₂
    | visit hget' _ _ _ =>
      rw [hget] at hget'
      cases hget'
  | again hseen _ ih =>
    cases h₂ with
    | undeclared _ h₂ => exact ih h₂
    | again _ h₂ => exact ih h₂
    | visit _ hnew _ _ => exact absurd hseen hnew
  | visit hget hnew _ _ ihbelow ihlater =>
    cases h₂ with
    | undeclared hget' _ =>
      rw [hget] at hget'
      cases hget'
    | again hseen _ => exact absurd hseen hnew
    | visit hget' _ hbelow hlater =>
      rw [hget, Option.some.injEq] at hget'
      subst hget'
      obtain ⟨rfl, rfl⟩ := ihbelow hbelow
      obtain ⟨rfl, rfl⟩ := ihlater hlater
      exact ⟨rfl, rfl⟩

/-- Entries are followed one after the other. -/
theorem Follows.split {first later : List String} (h : L.Follows seen (first ++ later) met seen') :
    ∃ mid before after, L.Follows seen first before mid ∧ L.Follows mid later after seen' ∧
      met = before ++ after := by
  generalize hentries : first ++ later = entries at h
  induction h generalizing first with
  | done =>
    obtain ⟨rfl, rfl⟩ := List.append_eq_nil_iff.mp hentries
    exact ⟨_, [], [], .done, .done, rfl⟩
  | @undeclared s seen rest seen' met hget h ih =>
    cases first with
    | nil =>
      obtain rfl : later = s :: rest := hentries
      exact ⟨seen, [], met, .done, .undeclared hget h, rfl⟩
    | cons s' first =>
      obtain ⟨rfl, hrest⟩ := List.cons_eq_cons.mp hentries
      obtain ⟨mid, before, after, hfirst, hlater, rfl⟩ := ih hrest
      exact ⟨mid, before, after, .undeclared hget hfirst, hlater, rfl⟩
  | @again s seen rest seen' met hseen h ih =>
    cases first with
    | nil =>
      obtain rfl : later = s :: rest := hentries
      exact ⟨seen, [], met, .done, .again hseen h, rfl⟩
    | cons s' first =>
      obtain ⟨rfl, hrest⟩ := List.cons_eq_cons.mp hentries
      obtain ⟨mid, before, after, hfirst, hlater, rfl⟩ := ih hrest
      exact ⟨mid, before, after, .again hseen hfirst, hlater, rfl⟩
  | @visit s D seen mid rest seen' below others hget hnew hbelow h _ ih =>
    cases first with
    | nil =>
      obtain rfl : later = s :: rest := hentries
      exact ⟨seen, [], _, .done, .visit hget hnew hbelow h, rfl⟩
    | cons s' first =>
      obtain ⟨rfl, hrest⟩ := List.cons_eq_cons.mp hentries
      obtain ⟨mid', before, after, hfirst, hlater, rfl⟩ := ih hrest
      refine ⟨mid', D :: (below ++ before), after, .visit hget hnew hbelow hfirst, hlater, ?_⟩
      rw [List.cons_append, List.append_assoc]

end Library

namespace Stub

open Library

variable {L : Library} {T : Descriptor}

/-- The target, and the types its entries lead to, in the order in which they are met. The target
itself counts as visited under its name. -/
def DepthFirst (L : Library) (T : Descriptor) (types : List Descriptor) : Prop :=
  ∃ met seen, L.Follows [T.name] T.supertypes met seen ∧ types = T :: met

/-- The loop over pending names follows them as the rules say. It also visits names that have no type,
so that its visited names are compared with `seen` only where there are types. -/
theorem follows_preorderFrom (pending seen : List String) {visited : List String}
    (hself : T.name ∈ visited)
    (hseen : ∀ name ∈ T.name :: L.names, name ∈ seen ↔ name ∈ visited) :
    ∃ met seen', L.Follows seen pending met seen' ∧
      (Graph.preorderFrom (knownSupertypes L T) (T.name :: L.names) pending visited).filterMap
          (known L T)
        = visited.reverse.filterMap (known L T) ++ met := by
  fun_induction Graph.preorderFrom (knownSupertypes L T) (T.name :: L.names) pending visited
    generalizing seen with
  | case1 visited => exact ⟨[], seen, .done, by rw [List.append_nil]⟩
  | case2 visited s pending hvisited ih =>
    obtain ⟨met, seen', h, hmet⟩ := ih seen hself hseen
    refine ⟨met, seen', ?_, hmet⟩
    by_cases hnode : s ∈ T.name :: L.names
    · exact .again ((hseen s hnode).mpr hvisited) h
    · exact .undeclared (get?_eq_none_iff.mpr fun hs => hnode (List.mem_cons_of_mem _ hs)) h
  | case3 visited s pending hvisited hnode ih =>
    -- the target has been visited, so the name is one that the library declares
    have hne : s ≠ T.name := fun hs => hvisited (hs ▸ hself)
    obtain ⟨D, hD, rfl⟩ := List.mem_map.mp ((List.mem_cons.mp hnode).resolve_left hne)
    have hget : L.get? D.name = some D := get?_name hD
    have hknown : known L T D.name = some D := by rw [known, if_neg hne, hget]
    have hsuper : knownSupertypes L T D.name = D.supertypes := by rw [knownSupertypes, hknown]
    have hseen' : ∀ name ∈ T.name :: L.names,
        name ∈ D.name :: seen ↔ name ∈ D.name :: visited := by
      intro name hname
      rw [List.mem_cons, List.mem_cons, hseen name hname]
    obtain ⟨met, seen', h, hmet⟩ := ih (D.name :: seen) (List.mem_cons_of_mem _ hself) hseen'
    rw [hsuper] at h
    obtain ⟨mid, below, later, hbelow, hlater, rfl⟩ := h.split
    refine ⟨D :: (below ++ later), seen', ?_, ?_⟩
    · exact .visit hget (fun hs => hvisited ((hseen _ hnode).mp hs)) hbelow hlater
    · rw [hmet, List.reverse_cons, List.filterMap_append, List.filterMap_cons_some hknown,
        List.filterMap_nil, List.append_assoc, List.singleton_append]
  | case4 visited s pending hvisited hleaf ih =>
    -- a leaf is visited by the loop only
    have hseen' : ∀ name ∈ T.name :: L.names, name ∈ seen ↔ name ∈ s :: visited := by
      intro name hname
      have hne : name ≠ s := fun hs => hleaf (hs ▸ hname)
      rw [List.mem_cons, hseen name hname, or_iff_right hne]
    obtain ⟨met, seen', h, hmet⟩ := ih seen (List.mem_cons_of_mem _ hself) hseen'
    have hunknown : known L T s = none := known_eq_none (by simpa [isNode] using hleaf)
    refine ⟨met, seen', ?_, ?_⟩
    · exact .undeclared (get?_eq_none_iff.mpr fun hs => hleaf (List.mem_cons_of_mem _ hs)) h
    · rw [hmet, List.reverse_cons, List.filterMap_append, List.filterMap_cons_none hunknown,
        List.filterMap_nil, List.append_nil]

/-- The lineage starts with the target and goes on as its entries are followed. -/
theorem exists_follows_lineage (L : Library) (T : Descriptor) :
    ∃ met seen, L.Follows [T.name] T.supertypes met seen ∧ lineage L T = T :: met := by
  have hknown : known L T T.name = some T := if_pos rfl
  have hsuper : knownSupertypes L T T.name = T.supertypes := by rw [knownSupertypes, hknown]
  obtain ⟨met, seen, h, hmet⟩ := follows_preorderFrom (L := L) (T := T) T.supertypes [T.name]
    List.mem_cons_self fun _ _ => Iff.rfl
  refine ⟨met, seen, h, ?_⟩
  rw [lineage, Graph.preorder, Graph.preorderFrom_inner List.not_mem_nil List.mem_cons_self,
    hsuper, List.append_nil, hmet, List.reverse_singleton, List.filterMap_cons_some hknown,
    List.filterMap_nil, List.singleton_append]

/-- **The lineage of a target is what the search for its types meets**, and nothing else is. -/
theorem depthFirst_iff {types : List Descriptor} :
    DepthFirst L T types ↔ types = lineage L T := by
  obtain ⟨met, seen, h, hlineage⟩ := exists_follows_lineage L T
  constructor
  · rintro ⟨met', seen', h', rfl⟩
    rw [hlineage, (h'.unique h).1]
  · rintro rfl
    exact ⟨met, seen, h, hlineage⟩

end Stub
end Stubwright
