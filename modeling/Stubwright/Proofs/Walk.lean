import Mathlib.Data.List.Nodup
import Mathlib.Logic.Relation
import Stubwright.Graph.Walk

/-!
# What a walk visits

`preorderFrom` is a loop over pending nodes. Four facts say what it computes, on every graph, cycles
or not:

* `mem_preorder_iff` — a walk visits exactly the nodes its start leads to.
* `nodup_preorder` — it visits none of them twice.
* `preorder_filter` — leaves can be left out of the graph beforehand or of the visited nodes later.
* `preorder_congr` — the order in which the inner nodes are listed does not matter.

Each comes from a statement about `preorderFrom` with arbitrary visited nodes, by the induction of
`preorderFrom` itself. What the loop keeps on its way, and any other loop over pending nodes with it,
is `Covered`: no edge leads from a visited node to one that is neither visited nor pending.
-/

namespace Stubwright.Graph

variable {α : Type} {successors : α → List α} {nodes : List α}

/-- An edge leads from a node to each of its successors. -/
def Edge (successors : α → List α) (a b : α) : Prop := b ∈ successors a

/-! ## What visited nodes lead to -/

section

variable {pending visited more : List α} {n a b : α}

/-- What was visited or pending stays so when a visited node is taken from the pending ones. -/
theorem held_again (hv : n ∈ visited) (h : a ∈ visited ∨ a ∈ n :: pending) :
    a ∈ visited ∨ a ∈ pending := by
  rcases h with h | h
  · exact Or.inl h
  · rcases List.mem_cons.mp h with rfl | h
    · exact Or.inl hv
    · exact Or.inr h

/-- What was visited or pending stays so when a node is visited. -/
theorem held_visit (more : List α) (h : a ∈ visited ∨ a ∈ n :: pending) :
    a ∈ n :: visited ∨ a ∈ more ++ pending := by
  rcases h with h | h
  · exact Or.inl (List.mem_cons_of_mem n h)
  · rcases List.mem_cons.mp h with rfl | h
    · exact Or.inl List.mem_cons_self
    · exact Or.inr (List.mem_append_right more h)

/-- What successors of a node lead to, the node leads to. -/
theorem leads_more (hmore : ∀ b ∈ more, b ∈ successors n)
    (h : ∃ p ∈ more ++ pending, Relation.ReflTransGen (Edge successors) p a) :
    ∃ p ∈ n :: pending, Relation.ReflTransGen (Edge successors) p a := by
  obtain ⟨p, hp, hpa⟩ := h
  rcases List.mem_append.mp hp with hp | hp
  · exact ⟨n, List.mem_cons_self, .head (hmore p hp) hpa⟩
  · exact ⟨p, List.mem_cons_of_mem n hp, hpa⟩

theorem leads_cons (n : α) (h : ∃ p ∈ pending, Relation.ReflTransGen (Edge successors) p a) :
    ∃ p ∈ n :: pending, Relation.ReflTransGen (Edge successors) p a :=
  leads_more (List.forall_mem_nil _) h

/-- No edge leads from a visited node to one that is neither visited nor pending. -/
def Covered (successors : α → List α) (pending visited : List α) : Prop :=
  ∀ a ∈ visited, ∀ b ∈ successors a, b ∈ visited ∨ b ∈ pending

namespace Covered

theorem start (pending : List α) : Covered successors pending [] := List.forall_mem_nil _

theorem again (h : Covered successors (n :: pending) visited) (hv : n ∈ visited) :
    Covered successors pending visited :=
  fun a ha b hb => held_again hv (h a ha b hb)

theorem visit (h : Covered successors (n :: pending) visited)
    (hmore : ∀ b ∈ successors n, b ∈ more) :
    Covered successors (more ++ pending) (n :: visited) := by
  intro a ha b hb
  rcases List.mem_cons.mp ha with rfl | ha
  · exact Or.inr (List.mem_append_left pending (hmore b hb))
  · exact held_visit more (h a ha b hb)

/-- With nothing pending, the visited nodes are closed under edges. -/
theorem closed (h : Covered successors [] visited) (ha : a ∈ visited) (hb : b ∈ successors a) :
    b ∈ visited :=
  (h a ha b hb).resolve_right List.not_mem_nil

end Covered

end

variable [DecidableEq α]

/-! ## The equations of the loop -/

theorem preorderFrom_nil (visited : List α) :
    preorderFrom successors nodes [] visited = visited.reverse := by
  rw [preorderFrom]

theorem preorderFrom_visited {n : α} {visited : List α} (hv : n ∈ visited) (pending : List α) :
    preorderFrom successors nodes (n :: pending) visited
      = preorderFrom successors nodes pending visited := by
  rw [preorderFrom, dif_pos hv]

theorem preorderFrom_inner {n : α} {visited : List α} (hv : n ∉ visited) (hn : n ∈ nodes)
    (pending : List α) :
    preorderFrom successors nodes (n :: pending) visited
      = preorderFrom successors nodes (successors n ++ pending) (n :: visited) := by
  rw [preorderFrom, dif_neg hv, dif_pos hn]

theorem preorderFrom_leaf {n : α} {visited : List α} (hv : n ∉ visited) (hn : n ∉ nodes)
    (pending : List α) :
    preorderFrom successors nodes (n :: pending) visited
      = preorderFrom successors nodes pending (n :: visited) := by
  rw [preorderFrom, dif_neg hv, dif_neg hn]

/-! ## Nothing is visited twice -/

theorem nodup_preorderFrom {pending visited : List α} (h : visited.Nodup) :
    (preorderFrom successors nodes pending visited).Nodup := by
  fun_induction preorderFrom successors nodes pending visited with
  | case1 visited => exact List.nodup_reverse.mpr h
  | case2 visited n pending hv ih => exact ih h
  | case3 visited n pending hv hn ih => exact ih (List.nodup_cons.mpr ⟨hv, h⟩)
  | case4 visited n pending hv hn ih => exact ih (List.nodup_cons.mpr ⟨hv, h⟩)

/-- **No node is visited twice.** -/
theorem nodup_preorder (start : α) : (preorder successors nodes start).Nodup :=
  nodup_preorderFrom List.nodup_nil

/-! ## Exactly what is reached is visited -/

/-- What was visited or pending is visited in the end. -/
theorem mem_preorderFrom_of_held {n : α} {pending visited : List α}
    (h : n ∈ visited ∨ n ∈ pending) : n ∈ preorderFrom successors nodes pending visited := by
  fun_induction preorderFrom successors nodes pending visited with
  | case1 visited => exact List.mem_reverse.mpr (h.resolve_right List.not_mem_nil)
  | case2 visited m pending hv ih => exact ih (held_again hv h)
  | case3 visited m pending hv hm ih => exact ih (held_visit (successors m) h)
  | case4 visited m pending hv hm ih => exact ih (held_visit [] h)

/-- A visited node comes from the nodes visited before, or a pending node leads to it. -/
theorem reached_of_mem_preorderFrom {n : α} {pending visited : List α}
    (h : n ∈ preorderFrom successors nodes pending visited) :
    n ∈ visited ∨ ∃ p ∈ pending, Relation.ReflTransGen (Edge successors) p n := by
  fun_induction preorderFrom successors nodes pending visited with
  | case1 visited => exact Or.inl (List.mem_reverse.mp h)
  | case2 visited m pending hv ih => exact (ih h).imp_right (leads_cons m)
  | case3 visited m pending hv hm ih =>
    rcases ih h with h | h
    · rcases List.mem_cons.mp h with rfl | h
      · exact Or.inr ⟨n, List.mem_cons_self, .refl⟩
      · exact Or.inl h
    · exact Or.inr (leads_more (fun _ hb => hb) h)
  | case4 visited m pending hv hm ih =>
    rcases ih h with h | h
    · rcases List.mem_cons.mp h with rfl | h
      · exact Or.inr ⟨n, List.mem_cons_self, .refl⟩
      · exact Or.inl h
    · exact Or.inr (leads_cons m h)

/-- What is visited is closed under edges, if the edges that leave `visited` end in `visited` or
`pending`. -/
theorem preorderFrom_closed (leaves : ∀ n ∉ nodes, successors n = []) {pending visited : List α}
    (hcovered : Covered successors pending visited) {a b : α}
    (ha : a ∈ preorderFrom successors nodes pending visited) (hb : b ∈ successors a) :
    b ∈ preorderFrom successors nodes pending visited := by
  fun_induction preorderFrom successors nodes pending visited with
  | case1 visited =>
    exact List.mem_reverse.mpr (hcovered.closed (List.mem_reverse.mp ha) hb)
  | case2 visited n pending hv ih => exact ih (hcovered.again hv) ha
  | case3 visited n pending hv hn ih => exact ih (hcovered.visit fun _ hc => hc) ha
  | case4 visited n pending hv hn ih =>
    -- a node outside `nodes` has no edges
    have hmore : ∀ c ∈ successors n, c ∈ [] := fun c hc => leaves n hn ▸ hc
    exact ih (hcovered.visit hmore) ha

/-- **A walk visits exactly the nodes its start leads to.** Nodes outside `nodes` are leaves. -/
theorem mem_preorder_iff (leaves : ∀ n ∉ nodes, successors n = []) {start n : α} :
    n ∈ preorder successors nodes start ↔ Relation.ReflTransGen (Edge successors) start n := by
  constructor
  · intro h
    rcases reached_of_mem_preorderFrom h with h | ⟨p, hp, hpn⟩
    · cases h
    · rwa [List.mem_singleton.mp hp] at hpn
  · intro h
    induction h with
    | refl => exact mem_preorderFrom_of_held (Or.inr List.mem_cons_self)
    | tail _ hbc ih =>
      exact preorderFrom_closed leaves (.start [start]) ih hbc

/-! ## Leaves that may be left out -/

/-- A walk that passes over some leaves, wherever they are listed, visits the same nodes apart from
these, and in the same order. -/
theorem preorderFrom_filter {keep : α → Bool} (hkeep : ∀ n ∈ nodes, keep n = true)
    (pending visited : List α) :
    (preorderFrom successors nodes pending visited).filter keep
      = preorderFrom (fun n => (successors n).filter keep) nodes (pending.filter keep)
          (visited.filter keep) := by
  fun_induction preorderFrom successors nodes pending visited with
  | case1 visited => rw [List.filter_nil, preorderFrom_nil, List.filter_reverse]
  | case2 visited n pending hv ih =>
    rw [ih]
    by_cases hn : keep n = true
    · rw [List.filter_cons_of_pos hn, preorderFrom_visited (List.mem_filter.mpr ⟨hv, hn⟩)]
    · rw [List.filter_cons_of_neg hn]
  | case3 visited n pending hv hmem ih =>
    have hn : keep n = true := hkeep n hmem
    have hv' : n ∉ visited.filter keep := fun h => hv (List.mem_of_mem_filter h)
    rw [ih, List.filter_append, List.filter_cons_of_pos hn, List.filter_cons_of_pos hn,
      preorderFrom_inner hv' hmem]
  | case4 visited n pending hv hmem ih =>
    rw [ih]
    by_cases hn : keep n = true
    · have hv' : n ∉ visited.filter keep := fun h => hv (List.mem_of_mem_filter h)
      rw [List.filter_cons_of_pos hn, List.filter_cons_of_pos hn, preorderFrom_leaf hv' hmem]
    · rw [List.filter_cons_of_neg hn, List.filter_cons_of_neg hn]

theorem preorder_filter {keep : α → Bool} (hkeep : ∀ n ∈ nodes, keep n = true) {start : α}
    (hstart : keep start = true) :
    (preorder successors nodes start).filter keep
      = preorder (fun n => (successors n).filter keep) nodes start := by
  unfold preorder
  rw [preorderFrom_filter hkeep, List.filter_cons_of_pos hstart, List.filter_nil]

/-! ## The list of inner nodes -/

theorem preorderFrom_congr {nodes' : List α} (h : ∀ n, n ∈ nodes ↔ n ∈ nodes')
    (pending visited : List α) :
    preorderFrom successors nodes pending visited
      = preorderFrom successors nodes' pending visited := by
  fun_induction preorderFrom successors nodes pending visited with
  | case1 visited => rw [preorderFrom_nil]
  | case2 visited n pending hv ih => rw [ih, preorderFrom_visited hv]
  | case3 visited n pending hv hn ih => rw [ih, preorderFrom_inner hv ((h n).mp hn)]
  | case4 visited n pending hv hn ih => rw [ih, preorderFrom_leaf hv fun hn' => hn ((h n).mpr hn')]

/-- **The inner nodes count as a set.** -/
theorem preorder_congr {nodes' : List α} (h : ∀ n, n ∈ nodes ↔ n ∈ nodes') (start : α) :
    preorder successors nodes start = preorder successors nodes' start :=
  preorderFrom_congr h _ _

end Stubwright.Graph
