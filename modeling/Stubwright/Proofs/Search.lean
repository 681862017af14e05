import Stubwright.Graph.Search
import Stubwright.Proofs.Walk

/-!
# What a search finds

A search answers `true` exactly if its start leads to its target, on every graph, cycles or not
(`leadsTo_iff`). The two directions are two inductions along the loop:

* `leads_of_searchFrom` — what is met was led to by a node that was pending.
* `not_leads_of_searchFrom` — a search that ends without the target has visited all that its start
  leads to. What it keeps until then is `Searching`: nothing that the start leads to is lost, since the
  first node on the way that is not yet visited is pending.
-/

namespace Stubwright.Graph

variable {α : Type} {successors : α → List α} {nodes : List α} {start target : α}
  {pending visited more : List α} {n : α}

/-! ## How far a search has come -/

/-- Where a search stands that goes on: its start is visited or pending, its target is not visited, and
all that visited nodes lead to in one step is visited or pending. -/
structure Searching (successors : α → List α) (start target : α) (pending visited : List α) :
    Prop where
  held : start ∈ visited ∨ start ∈ pending
  unmet : target ∉ visited
  covered : Covered successors pending visited

namespace Searching

/-- A search begins with its start pending. -/
theorem initial (start target : α) : Searching successors start target [start] [] where
  held := Or.inr List.mem_cons_self
  unmet := List.not_mem_nil
  covered := .start [start]

/-- A node that is visited is taken for nothing. -/
theorem again (h : Searching successors start target (n :: pending) visited) (hv : n ∈ visited) :
    Searching successors start target pending visited where
  held := held_again hv h.held
  unmet := h.unmet
  covered := h.covered.again hv

/-- A node that is not the target is visited, and its successors are put down. -/
theorem visit (h : Searching successors start target (n :: pending) visited) (hne : n ≠ target)
    (hmore : ∀ b ∈ successors n, b ∈ more) :
    Searching successors start target (more ++ pending) (n :: visited) where
  held := held_visit more h.held
  unmet := by
    intro hmem
    rcases List.mem_cons.mp hmem with heq | hmem
    · exact hne heq.symm
    · exact h.unmet hmem
  covered := h.covered.visit hmore

/-- With nothing pending, all that the start leads to is visited, and the target is not. -/
theorem not_leads (h : Searching successors start target [] visited) :
    ¬ Relation.ReflTransGen (Edge successors) start target := by
  have hclosed : ∀ b, Relation.ReflTransGen (Edge successors) start b → b ∈ visited := by
    intro b hleads
    induction hleads with
    | refl => exact h.held.resolve_right List.not_mem_nil
    | tail _ hab ih => exact h.covered.closed ih hab
  intro hleads
  exact h.unmet (hclosed target hleads)

end Searching

/-! ## The loop -/

variable [DecidableEq α]

/-- A search that meets its target was led to it by a pending node. -/
theorem leads_of_searchFrom (h : searchFrom successors nodes target pending visited = true) :
    ∃ p ∈ pending, Relation.ReflTransGen (Edge successors) p target := by
  fun_induction searchFrom successors nodes target pending visited with
  | case1 visited => cases h
  | case2 visited pending => exact ⟨target, List.mem_cons_self, .refl⟩
  | case3 visited n pending hne hv ih => exact leads_cons n (ih h)
  | case4 visited n pending hne hv hn ih =>
    exact leads_more (fun b hb => List.mem_reverse.mp hb) (ih h)
  | case5 visited n pending hne hv hn ih => exact leads_cons n (ih h)

/-- A search that ends without its target does not lead to it. -/
theorem not_leads_of_searchFrom (leaves : ∀ n ∉ nodes, successors n = [])
    (h : searchFrom successors nodes target pending visited = false)
    (hsearching : Searching successors start target pending visited) :
    ¬ Relation.ReflTransGen (Edge successors) start target := by
  fun_induction searchFrom successors nodes target pending visited with
  | case1 visited => exact hsearching.not_leads
  | case2 visited pending => cases h
  | case3 visited n pending hne hv ih => exact ih h (hsearching.again hv)
  | case4 visited n pending hne hv hn ih =>
    exact ih h (hsearching.visit hne fun b hb => List.mem_reverse.mpr hb)
  | case5 visited n pending hne hv hn ih =>
    -- a leaf is visited like any node, but has no successors to put down
    have hmore : ∀ b ∈ successors n, b ∈ [] := fun b hb => leaves n hn ▸ hb
    exact ih h (hsearching.visit hne hmore)

/-- **A search finds exactly what its start leads to.** Nodes outside `nodes` are leaves. -/
theorem leadsTo_iff (leaves : ∀ n ∉ nodes, successors n = []) :
    leadsTo successors nodes start target = true
      ↔ Relation.ReflTransGen (Edge successors) start target := by
  constructor
  · intro h
    obtain ⟨p, hp, hpt⟩ := leads_of_searchFrom h
    rwa [List.mem_singleton.mp hp] at hpt
  · intro hleads
    cases h : leadsTo successors nodes start target with
    | true => rfl
    | false => exact absurd hleads (not_leads_of_searchFrom leaves h (.initial start target))

end Stubwright.Graph
