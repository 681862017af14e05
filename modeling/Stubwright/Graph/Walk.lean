/-!
# Walks over a graph

A graph is given by the list of its inner nodes and a function from a node to its successors; nodes
outside the list are leaves. `preorder` walks depth first and visits every node once, when it is first
met, and its successors in order. It ends on every graph, cycles or not: a visit makes its successors
pending, but these were part of what the nodes not yet visited stood for (`weight_cons_lt`).
-/

namespace Stubwright.Graph

variable {α : Type} [DecidableEq α]

/-- What the nodes that are not in `visited` stand for: each for itself and for its successors. -/
def weight (successors : α → List α) (nodes visited : List α) : Nat :=
  match nodes with
  | [] => 0
  | n :: nodes =>
    (if n ∈ visited then 0 else (successors n).length + 1) + weight successors nodes visited

theorem weight_cons_le (successors : α → List α) (nodes visited : List α) (n : α) :
    weight successors nodes (n :: visited) ≤ weight successors nodes visited := by
  induction nodes with
  | nil => exact Nat.le_refl _
  | cons a nodes ih =>
    rw [weight, weight]
    refine Nat.add_le_add ?_ ih
    split
    · exact Nat.zero_le _
    · next ha => exact Nat.le_of_eq (if_neg fun h => ha (List.mem_cons_of_mem n h)).symm

theorem weight_cons_lt {successors : α → List α} {nodes visited : List α} {n : α} (hn : n ∈ nodes)
    (hv : n ∉ visited) :
    weight successors nodes (n :: visited) + (successors n).length
      < weight successors nodes visited := by
  induction nodes with
  | nil => cases hn
  | cons a nodes ih =>
    rw [weight, weight]
    by_cases ha : a = n
    · subst ha
      have hle := weight_cons_le successors nodes visited a
      rw [if_pos List.mem_cons_self, if_neg hv]
      omega
    · have hlt := ih ((List.mem_cons.mp hn).resolve_left (Ne.symm ha))
      simp only [List.mem_cons, ha, false_or]
      omega

/-- Visits the pending nodes and all they lead to; `visited` holds the nodes visited so far, the
latest first. Gives all visited nodes, the first visited first. -/
def preorderFrom (successors : α → List α) (nodes pending visited : List α) : List α :=
  match pending with
  | [] => visited.reverse
  | n :: pending =>
    if _hv : n ∈ visited then preorderFrom successors nodes pending visited
    else if _hn : n ∈ nodes then
      preorderFrom successors nodes (successors n ++ pending) (n :: visited)
    else preorderFrom successors nodes pending (n :: visited)
termination_by weight successors nodes visited + pending.length
decreasing_by
  · simp
  · have h : weight successors nodes (n :: visited) + (successors n).length
        < weight successors nodes visited := weight_cons_lt _hn _hv
    simp only [List.length_append, List.length_cons]
    omega
  · have h := weight_cons_le successors nodes visited n
    simp only [List.length_cons]
    omega

/-- The nodes reached from `start`, depth first, in the order in which they are met. -/
def preorder (successors : α → List α) (nodes : List α) (start : α) : List α :=
  preorderFrom successors nodes [start] []

end Stubwright.Graph
