import Stubwright.Graph.Walk

/-!
# Searches in a graph

A search asks whether one node leads to another. It takes the node that was put down last, ends as
soon as that is the one it looks for, passes over nodes it has visited and puts down the successors of
the others. A node may lie on the stack several times: it counts as visited when it is taken, not when
it is put down. That a search ends has the reason that a walk ends (`weight_cons_lt`).
-/

namespace Stubwright.Graph

variable {α : Type} [DecidableEq α]

/-- Whether `target` is met among the pending nodes and those they lead to. Nodes outside `nodes` are
leaves; `visited` holds the nodes taken so far, the latest first. -/
def searchFrom (successors : α → List α) (nodes : List α) (target : α)
    (pending visited : List α) : Bool :=
  match pending with
  | [] => false
  | n :: pending =>
    if n = target then true
    else if _hv : n ∈ visited then searchFrom successors nodes target pending visited
    else if _hn : n ∈ nodes then
      searchFrom successors nodes target ((successors n).reverse ++ pending) (n :: visited)
    else searchFrom successors nodes target pending (n :: visited)
termination_by weight successors nodes visited + pending.length
decreasing_by
  · simp
  · have h : weight successors nodes (n :: visited) + (successors n).length
        < weight successors nodes visited := weight_cons_lt _hn _hv
    simp only [List.length_append, List.length_reverse, List.length_cons]
    omega
  · have h := weight_cons_le successors nodes visited n
    simp only [List.length_cons]
    omega

/-- Whether `start` is `target` or leads to it. -/
def leadsTo (successors : α → List α) (nodes : List α) (start target : α) : Bool :=
  searchFrom successors nodes target [start] []

end Stubwright.Graph
