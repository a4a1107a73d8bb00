import ChipEvolve.Guardrails.Rules

/-!
# What the gate for unreachable code sees

A node holds lists of statements in the fields `body`, `orelse` and `finalbody`.
The gate compares neighbours in the lists of the first field only, wherever in the
tree the node is; a statement that can never run in an `else` or a `finally` passes.
-/

namespace ChipEvolve.Guardrails

/-! ## The lists of statements of a tree -/

/-- The fields that hold lists of statements. -/
inductive Field where
  | body
  | orelse
  | finalbody
  deriving DecidableEq

mutual

/-- All lists of statements below a statement, with the field each stands in. -/
def Stmt.blocks : Stmt → List (Field × List Stmt)
  | .simple .. => []
  | .functionDef _ _ _ body _ => (.body, body) :: stmtsBlocks body
  | .classDef _ _ body _ => (.body, body) :: stmtsBlocks body
  | .forLoop _ _ _ _ body orelse =>
      (.body, body) :: (.orelse, orelse) :: (stmtsBlocks body ++ stmtsBlocks orelse)
  | .whileLoop _ _ body orelse =>
      (.body, body) :: (.orelse, orelse) :: (stmtsBlocks body ++ stmtsBlocks orelse)
  | .ifElse _ _ body orelse =>
      (.body, body) :: (.orelse, orelse) :: (stmtsBlocks body ++ stmtsBlocks orelse)
  | .withBlock _ _ _ body => (.body, body) :: stmtsBlocks body
  | .tryBlock _ _ body handlers orelse finalbody =>
      (.body, body) :: (.orelse, orelse) :: (.finalbody, finalbody) :: (stmtsBlocks body ++
        handlersBlocks handlers ++ stmtsBlocks orelse ++ stmtsBlocks finalbody)
  | .matchBlock _ _ cases => casesBlocks cases

def Handler.blocks : Handler → List (Field × List Stmt)
  | .mk _ body => (.body, body) :: stmtsBlocks body

def Case.blocks : Case → List (Field × List Stmt)
  | .mk _ body => (.body, body) :: stmtsBlocks body

def stmtsBlocks : List Stmt → List (Field × List Stmt)
  | [] => []
  | s :: ss => s.blocks ++ stmtsBlocks ss

def handlersBlocks : List Handler → List (Field × List Stmt)
  | [] => []
  | h :: hs => h.blocks ++ handlersBlocks hs

def casesBlocks : List Case → List (Field × List Stmt)
  | [] => []
  | c :: cs => c.blocks ++ casesBlocks cs

end

/-- All lists of statements of a module. -/
def moduleBlocks (tree : List Stmt) : List (Field × List Stmt) :=
  (.body, tree) :: stmtsBlocks tree

/-- The neighbours in a list of which the first is terminal. -/
def deadPairs (body : List Stmt) : List (Stmt × Stmt) :=
  (body.zip body.tail).filter fun pair ↦ pair.1.isTerminal

/-- One violation for each statement directly after a terminal one in its list. -/
def blockViolations (rel : String) (block : Field × List Stmt) : List Violation :=
  (deadPairs block.2).map fun pair ↦ unreachable rel pair.1 pair.2

def expectedOf (file : SourceFile) : List Violation :=
  match file.tree with
  | none => []
  | some tree => (moduleBlocks tree).flatMap (blockViolations file.rel)

/-- What the gate should report. -/
def expectedViolations (files : List SourceFile) : List Violation :=
  (walkPython files).flatMap expectedOf

/-! ## Lists of one node -/

namespace Node

def blocks : Node → List (Field × List Stmt)
  | module body => moduleBlocks body
  | stmt s => s.blocks
  | handler h => h.blocks
  | case c => c.blocks
  | expr _ => []

/-- The lists of the node itself. -/
def ownBlocks : Node → List (Field × List Stmt)
  | module body => [(.body, body)]
  | stmt (.simple ..) => []
  | stmt (.functionDef _ _ _ body _) => [(.body, body)]
  | stmt (.classDef _ _ body _) => [(.body, body)]
  | stmt (.forLoop _ _ _ _ body orelse) => [(.body, body), (.orelse, orelse)]
  | stmt (.whileLoop _ _ body orelse) => [(.body, body), (.orelse, orelse)]
  | stmt (.ifElse _ _ body orelse) => [(.body, body), (.orelse, orelse)]
  | stmt (.withBlock _ _ _ body) => [(.body, body)]
  | stmt (.tryBlock _ _ body _ orelse finalbody) =>
      [(.body, body), (.orelse, orelse), (.finalbody, finalbody)]
  | stmt (.matchBlock ..) => []
  | handler (.mk _ body) => [(.body, body)]
  | case (.mk _ body) => [(.body, body)]
  | expr _ => []

theorem flatMap_blocks_stmts (ss : List Stmt) : (ss.map stmt).flatMap blocks = stmtsBlocks ss := by
  induction ss with
  | nil => rfl
  | cons s ss ih => exact congrArg (s.blocks ++ ·) ih

theorem flatMap_blocks_handlers (hs : List Handler) :
    (hs.map handler).flatMap blocks = handlersBlocks hs := by
  induction hs with
  | nil => rfl
  | cons h hs ih => exact congrArg (h.blocks ++ ·) ih

theorem flatMap_blocks_cases (cs : List Case) :
    (cs.map case).flatMap blocks = casesBlocks cs := by
  induction cs with
  | nil => rfl
  | cons c cs ih => exact congrArg (c.blocks ++ ·) ih

theorem flatMap_blocks_exprs (es : List Expr) : (es.map expr).flatMap blocks = [] := by
  induction es with
  | nil => rfl
  | cons e es ih => exact ih

/-- The lists of a tree are those of its root and those of its children. -/
theorem blocks_eq (node : Node) :
    node.blocks = node.ownBlocks ++ node.children.flatMap blocks := by
  cases node with
  | module body => rw [blocks, ownBlocks, children, flatMap_blocks_stmts, moduleBlocks]; rfl
  | stmt s =>
      cases s <;> simp [blocks, ownBlocks, children, Stmt.blocks, flatMap_blocks_stmts,
        flatMap_blocks_handlers, flatMap_blocks_cases, flatMap_blocks_exprs]
  | handler h =>
      cases h
      simp [blocks, ownBlocks, children, Handler.blocks, flatMap_blocks_stmts,
        flatMap_blocks_exprs]
  | case c =>
      cases c
      simp [blocks, ownBlocks, children, Case.blocks, flatMap_blocks_stmts, flatMap_blocks_exprs]
  | expr e => cases e <;> simp [blocks, ownBlocks, children, flatMap_blocks_exprs]

end Node

/-! ## What is read of them -/

theorem blockViolations_cons (rel : String) (field : Field) (stmt next : Stmt) (body : List Stmt) :
    blockViolations rel (field, stmt :: next :: body) =
      (if stmt.isTerminal then [unreachable rel stmt next] else []) ++
        blockViolations rel (field, next :: body) := by
  unfold blockViolations deadPairs
  cases hterminal : stmt.isTerminal <;> simp [hterminal]

theorem filterMap_violationAt (rel : String) (field : Field) (before body : List Stmt) :
    ((body.dropLast.zipIdx before.length).filterMap fun entry ↦
      violationAt rel (before ++ body) entry.1 entry.2) = blockViolations rel (field, body) := by
  induction body generalizing before with
  | nil => rfl
  | cons stmt body ih =>
      cases body with
      | nil => rfl
      | cons next body =>
          have hrest := ih (before ++ [stmt])
          rw [List.length_append, List.length_singleton, List.append_assoc,
            List.singleton_append] at hrest
          rw [blockViolations_cons, ← hrest, List.dropLast_cons_cons, List.zipIdx_cons,
            List.filterMap_cons]
          cases hterminal : stmt.isTerminal <;> simp [violationAt, hterminal]

/-- The loop over the body finds the neighbours of which the first is terminal. -/
theorem bodyViolations_eq (rel : String) (body : List Stmt) :
    bodyViolations rel body = blockViolations rel (.body, body) :=
  filterMap_violationAt rel .body [] body

/-- The lists in a field that the gate reads. -/
def readBlocks (blocks : List (Field × List Stmt)) : List (Field × List Stmt) :=
  blocks.filter fun block ↦ block.1 = .body

theorem nodeViolations_eq (rel : String) (node : Node) :
    nodeViolations rel node = (readBlocks node.ownBlocks).flatMap (blockViolations rel) := by
  cases node with
  | module body => simp [nodeViolations, Node.body, Node.ownBlocks, readBlocks, bodyViolations_eq]
  | stmt s =>
      cases s <;>
        simp [nodeViolations, Node.body, Node.ownBlocks, readBlocks, bodyViolations_eq]
  | handler h =>
      cases h
      simp [nodeViolations, Node.body, Node.ownBlocks, readBlocks, bodyViolations_eq]
  | case c =>
      cases c
      simp [nodeViolations, Node.body, Node.ownBlocks, readBlocks, bodyViolations_eq]
  | expr e => cases e <;> rfl

theorem readBlocks_eq (rel : String) (node : Node) :
    (readBlocks node.blocks).flatMap (blockViolations rel) = nodeViolations rel node ++
      node.children.flatMap fun child ↦
        (readBlocks child.blocks).flatMap (blockViolations rel) := by
  rw [node.blocks_eq, nodeViolations_eq, readBlocks, List.filter_append, List.flatMap_append,
    List.filter_flatMap, List.flatMap_assoc]
  rfl

@[simp] theorem Node.rose_children (node : Node) : Node.rose.children node = node.children := rfl

/-- The walk reports what stands in the bodies of the tree. -/
theorem fileViolations_perm (file : SourceFile) {tree : List Stmt} (htree : file.tree = some tree) :
    (fileViolations file).Perm
      ((readBlocks (moduleBlocks tree)).flatMap (blockViolations file.rel)) := by
  have hwalk := Node.rose.flatMap_walk_perm (readBlocks_eq file.rel) [.module tree]
  rw [fileViolations, htree]
  simpa [Node.blocks, astWalk] using hwalk

/-- What the gate has not looked at. -/
def missedOf (file : SourceFile) : List Violation :=
  match file.tree with
  | none => []
  | some tree => ((moduleBlocks tree).filter fun block ↦ block.1 ≠ .body).flatMap
      (blockViolations file.rel)

theorem expectedOf_perm (file : SourceFile) :
    (expectedOf file).Perm (fileViolations file ++ missedOf file) := by
  cases htree : file.tree with
  | none => simp [expectedOf, fileViolations, missedOf, htree]
  | some tree =>
      have hsplit : (moduleBlocks tree).Perm (readBlocks (moduleBlocks tree) ++
          (moduleBlocks tree).filter fun block ↦ block.1 ≠ .body) := by
        have hfilter := List.filter_append_perm (fun block : Field × List Stmt ↦ block.1 = .body)
          (moduleBlocks tree)
        simpa [readBlocks] using hfilter.symm
      have hexpected : (expectedOf file).Perm ((readBlocks (moduleBlocks tree)).flatMap
          (blockViolations file.rel) ++ missedOf file) := by
        simp only [expectedOf, missedOf, htree]
        rw [← List.flatMap_append]
        exact hsplit.flatMap_right _
      exact hexpected.trans ((fileViolations_perm file htree).symm.append_right _)

theorem missedOf_eq_nil_iff (file : SourceFile) : missedOf file = [] ↔
    ∀ tree ∈ file.tree, ∀ block ∈ moduleBlocks tree, block.1 ≠ .body →
      deadPairs block.2 = [] := by
  cases htree : file.tree with
  | none => simp [missedOf, htree]
  | some tree => simp [missedOf, htree, blockViolations]

theorem expectedViolations_perm (files : List SourceFile) : (expectedViolations files).Perm
    (unreachableCodeViolations files ++ (walkPython files).flatMap missedOf) := by
  unfold expectedViolations unreachableCodeViolations
  induction walkPython files with
  | nil => rfl
  | cons file files ih =>
      have hfile := (expectedOf_perm file).append ih
      refine hfile.trans ?_
      simp only [List.flatMap_cons, List.append_assoc]
      refine List.Perm.append_left _ ?_
      rw [← List.append_assoc, ← List.append_assoc]
      exact List.perm_append_comm.append_right _

/-- The gate reports exactly the statements after a terminal one as long as none of them
stands in an `else` or a `finally`. -/
theorem unreachableCodeViolations_perm_iff (files : List SourceFile) :
    (unreachableCodeViolations files).Perm (expectedViolations files) ↔
      ∀ file ∈ walkPython files, ∀ tree ∈ file.tree, ∀ block ∈ moduleBlocks tree,
        block.1 ≠ .body → deadPairs block.2 = [] := by
  have hexpected := expectedViolations_perm files
  have hmissed : (walkPython files).flatMap missedOf = [] ↔
      ∀ file ∈ walkPython files, ∀ tree ∈ file.tree, ∀ block ∈ moduleBlocks tree,
        block.1 ≠ .body → deadPairs block.2 = [] := by
    simp only [List.flatMap_eq_nil_iff, missedOf_eq_nil_iff]
  rw [← hmissed]
  constructor
  · intro h
    have hlength := (h.trans hexpected).length_eq
    rw [List.length_append] at hlength
    exact List.eq_nil_of_length_eq_zero (by omega)
  · intro h
    rw [h, List.append_nil] at hexpected
    exact hexpected.symm

/-! ## A statement that the gate lets through -/

/-- `def f(): if x: pass else: return; y` -/
def deadElse : SourceFile where
  parts := ["app.py"]
  tree := some [.functionDef false 1 (.other []) [
    .ifElse 2 (.other []) [.simple .Pass 3 []] [.simple .Return 5 [], .simple .Expr 6 [.other []]]]
    []]

theorem deadElse_passes : unreachableCodeViolations [deadElse] = [] ∧
    expectedViolations [deadElse] = [{ rule := "G12", path := "app.py", line := 6,
                                       detail := "unreachable Expr after Return" }] := by
  constructor
  · simp [unreachableCodeViolations, walkPython, fileViolations, deadElse, skipDirNames, astWalk,
      Rose.walk_cons, Node.children, nodeViolations, Node.body, bodyViolations, violationAt,
      Stmt.isTerminal]
  · rfl

theorem deadElse_not_perm :
    ¬(unreachableCodeViolations [deadElse]).Perm (expectedViolations [deadElse]) := by
  rw [deadElse_passes.1, deadElse_passes.2]
  simp

end ChipEvolve.Guardrails
