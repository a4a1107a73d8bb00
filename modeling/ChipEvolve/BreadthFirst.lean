import Mathlib.Data.List.Perm.Basic
import Mathlib.Tactic.Common

/-!
# Walking a tree level by level

A queue of nodes, each followed by its children at the end of the queue.  What the
walk gathers from the nodes is, up to order, what a recursion over the tree gathers.
-/

namespace Rose

/-- The weights of some nodes together. -/
def totalWeight {ν : Type*} (weight : ν → ℕ) : List ν → ℕ
  | [] => 0
  | node :: nodes => weight node + totalWeight weight nodes

theorem totalWeight_append {ν : Type*} (weight : ν → ℕ) (nodes nodes' : List ν) :
    totalWeight weight (nodes ++ nodes') = totalWeight weight nodes + totalWeight weight nodes' := by
  induction nodes with
  | nil => exact (Nat.zero_add _).symm
  | cons node nodes ih =>
      rw [List.cons_append, totalWeight, totalWeight, ih, Nat.add_assoc]

end Rose

/-- Nodes with their children, and a weight that the children share less than all of. -/
structure Rose (ν : Type*) where
  children : ν → List ν
  weight : ν → ℕ
  weight_children : ∀ node, Rose.totalWeight weight (children node) < weight node

namespace Rose

variable {ν β : Type*} (t : Rose ν)

/-- `while todo: node = todo.popleft(); todo.extend(children(node)); yield node` -/
def walk : List ν → List ν
  | [] => []
  | node :: todo => node :: walk (todo ++ t.children node)
termination_by todo => totalWeight t.weight todo
decreasing_by
  have hless := t.weight_children node
  rw [totalWeight_append, totalWeight]
  omega

@[simp] theorem walk_nil : t.walk [] = [] := by rw [walk]

theorem walk_cons (node : ν) (todo : List ν) :
    t.walk (node :: todo) = node :: t.walk (todo ++ t.children node) := by rw [walk]

variable {f total : ν → List β}

theorem flatMap_walk_perm (h : ∀ node, total node = f node ++ (t.children node).flatMap total)
    (todo : List ν) : ((t.walk todo).flatMap f).Perm (todo.flatMap total) := by
  induction todo using walk.induct t with
  | case1 => simp
  | case2 node todo ih =>
      rw [walk_cons, List.flatMap_cons, List.flatMap_cons, h node]
      rw [List.flatMap_append] at ih
      calc
        f node ++ (t.walk (todo ++ t.children node)).flatMap f
        _ |>.Perm (f node ++ (todo.flatMap total ++ (t.children node).flatMap total)) :=
          ih.append_left _
        _ |>.Perm (f node ++ ((t.children node).flatMap total ++ todo.flatMap total)) :=
          List.perm_append_comm.append_left _
        _ = f node ++ (t.children node).flatMap total ++ todo.flatMap total :=
          (List.append_assoc ..).symm

end Rose
