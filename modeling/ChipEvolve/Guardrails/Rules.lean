import ChipEvolve.BreadthFirst
import Mathlib.Data.Finset.Sort
import Mathlib.Data.String.Basic

/-!
# Two gates of the guardrails

G17 looks for a cycle among the imports of the kernel's packages, with a
depth-first search over three colours and a stack of growing paths.  G12 walks the
syntax tree of each file and reads the field `body` of its nodes.
-/

namespace ChipEvolve.Guardrails

structure Violation where
  rule : String
  path : String
  line : ℕ
  detail : String
  deriving DecidableEq

/-- The exceptions a gate can end with. -/
inductive PyError where
  | valueError
  | indexError
  deriving DecidableEq

/-! ## G17: the kernel's packages form a directed acyclic graph -/

/-- A dictionary from names to sets of names that are keys themselves. -/
structure Graph (α : Type) [DecidableEq α] where
  names : Finset α
  edges : α → Finset α
  closed : ∀ name ∈ names, edges name ⊆ names

def Graph.Edge {α : Type} [DecidableEq α] (g : Graph α) (name target : α) : Prop :=
  name ∈ g.names ∧ target ∈ g.edges name

inductive Colour where
  | white
  | grey
  | black
  deriving DecidableEq

/-- The local variables of the search: the colours, and the stack with its top in front. -/
structure Search (α : Type) where
  colour : α → Colour
  stack : List (α × List α)

/-- What one turn of the inner loop comes to. -/
inductive Turn (α : Type) where
  | next (s : Search α)
  | returned (cycle : List α)
  /-- `path.index` found nothing -/
  | raised (error : PyError)

/-- How the inner loop ends. -/
inductive Ending (α : Type) where
  | emptied (colour : α → Colour)
  | returned (cycle : List α)
  | raised (error : PyError)

section FindCycle

variable {α : Type} [LinearOrder α]

/-- `sorted(t for t in edges[node] if colour[t] != BLACK)` -/
def unvisited (g : Graph α) (colour : α → Colour) (node : α) : List α :=
  ((g.edges node).filter fun t ↦ colour t ≠ .black).sort (· ≤ ·)

/-- The body of the inner loop; its `for` never gets past the first target. -/
def turn (g : Graph α) (colour : α → Colour) (node : α) (path : List α)
    (below : List (α × List α)) : Turn α :=
  let colour := Function.update colour node .grey
  match unvisited g colour node with
  | [] => .next { colour := Function.update colour node .black, stack := below }
  | target :: _ =>
      if colour target = .grey then
        match path.idxOf? target with
        | some index => .returned (path.drop index ++ [target])
        | none => .raised .valueError
      else
        .next { colour := colour, stack := (target, path ++ [target]) :: (node, path) :: below }

/-- `while stack`, for as many turns as there is fuel. -/
def searchStack (g : Graph α) : ℕ → Search α → Option (Ending α)
  | fuel, { colour, stack } =>
      match stack, fuel with
      | [], _ => some (.emptied colour)
      | _ :: _, 0 => none
      | (node, path) :: below, fuel + 1 =>
          match turn g colour node path below with
          | .next s => searchStack g fuel s
          | .returned cycle => some (.returned cycle)
          | .raised error => some (.raised error)

/-- `for start in sorted(edges)` -/
def searchStarts (g : Graph α) (fuel : ℕ) :
    List α → (α → Colour) → Option (Except PyError (Option (List α)))
  | [], _ => some (.ok none)
  | start :: starts, colour =>
      if colour start ≠ .white then searchStarts g fuel starts colour
      else
        match searchStack g fuel { colour := colour, stack := [(start, [start])] } with
        | none => none
        | some (.emptied colour) => searchStarts g fuel starts colour
        | some (.returned cycle) => some (.ok (some cycle))
        | some (.raised error) => some (.error error)

def findCycle (g : Graph α) (fuel : ℕ) : Option (Except PyError (Option (List α))) :=
  searchStarts g fuel (g.names.sort (· ≤ ·)) fun _ ↦ .white

end FindCycle

/-- `module.split(".")[0]` -/
def topLevel (module : String) : String := String.ofList (module.toList.takeWhile (· ≠ '.'))

/-- The kernel packages each one imports; `imported` are the modules its files name. -/
def packageEdges (packages : Finset String) (imported : String → List String) : Graph String where
  names := packages
  edges name := ((imported name).map topLevel).toFinset.filter fun target ↦
    target ∈ packages ∧ target ≠ name
  closed := by
    intro name _ target htarget
    exact (Finset.mem_filter.mp htarget).2.1

/-- `directory` is where a package lies below the root. -/
def cycleViolations (directory : String → String) :
    Option (List String) → Except PyError (List Violation)
  | none => .ok []
  | some [] => .error .indexError
  | some (first :: rest) =>
      .ok [{ rule := "G17"
             path := directory first
             line := 0
             detail := "kernel packages import each other in a cycle: " ++
               " -> ".intercalate (first :: rest) }]

def kernelPackageCycleViolations (packages : Finset String) (directory : String → String)
    (imported : String → List String) (fuel : ℕ) : Option (Except PyError (List Violation)) :=
  (findCycle (packageEdges packages imported) fuel).map (·.bind (cycleViolations directory))

/-! ## G12: unreachable code -/

/-- The nodes that hold no statements: expressions, arguments, aliases, patterns.  Those with
a field `body` have an expression there. -/
inductive Expr where
  | lambda (args body : Expr)
  | ifExp (test body orelse : Expr)
  | other (children : List Expr)

/-- The statements without blocks. -/
inductive SimpleKind where
  | Return
  | Delete
  | Assign
  | TypeAlias
  | AugAssign
  | AnnAssign
  | Raise
  | Assert
  | Import
  | ImportFrom
  | Global
  | Nonlocal
  | Expr
  | Pass
  | Break
  | Continue
  deriving DecidableEq, Repr

mutual

inductive Stmt where
  | simple (kind : SimpleKind) (lineno : ℕ) (children : List Expr)
  | functionDef (async : Bool) (lineno : ℕ) (args : Expr) (body : List Stmt) (rest : List Expr)
  | classDef (lineno : ℕ) (bases : List Expr) (body : List Stmt) (rest : List Expr)
  | forLoop (async : Bool) (lineno : ℕ) (target iter : Expr) (body orelse : List Stmt)
  | whileLoop (lineno : ℕ) (test : Expr) (body orelse : List Stmt)
  | ifElse (lineno : ℕ) (test : Expr) (body orelse : List Stmt)
  | withBlock (async : Bool) (lineno : ℕ) (items : List Expr) (body : List Stmt)
  | tryBlock (star : Bool) (lineno : ℕ) (body : List Stmt) (handlers : List Handler)
      (orelse finalbody : List Stmt)
  | matchBlock (lineno : ℕ) (subject : Expr) (cases : List Case)

/-- `ExceptHandler` -/
inductive Handler where
  | mk (type : List Expr) (body : List Stmt)

/-- `match_case`, its pattern and its guard in front -/
inductive Case where
  | mk (head : List Expr) (body : List Stmt)

end

namespace Stmt

/-- `type(stmt).__name__` -/
def typeName : Stmt → String
  | simple kind _ _ => match kind with
      | .Return => "Return"
      | .Delete => "Delete"
      | .Assign => "Assign"
      | .TypeAlias => "TypeAlias"
      | .AugAssign => "AugAssign"
      | .AnnAssign => "AnnAssign"
      | .Raise => "Raise"
      | .Assert => "Assert"
      | .Import => "Import"
      | .ImportFrom => "ImportFrom"
      | .Global => "Global"
      | .Nonlocal => "Nonlocal"
      | .Expr => "Expr"
      | .Pass => "Pass"
      | .Break => "Break"
      | .Continue => "Continue"
  | functionDef async .. => if async then "AsyncFunctionDef" else "FunctionDef"
  | classDef .. => "ClassDef"
  | forLoop async .. => if async then "AsyncFor" else "For"
  | whileLoop .. => "While"
  | ifElse .. => "If"
  | withBlock async .. => if async then "AsyncWith" else "With"
  | tryBlock star .. => if star then "TryStar" else "Try"
  | matchBlock .. => "Match"

def lineno : Stmt → ℕ
  | simple _ lineno _ => lineno
  | functionDef _ lineno .. => lineno
  | classDef lineno .. => lineno
  | forLoop _ lineno .. => lineno
  | whileLoop lineno .. => lineno
  | ifElse lineno .. => lineno
  | withBlock _ lineno .. => lineno
  | tryBlock _ lineno .. => lineno
  | matchBlock lineno .. => lineno

/-- `isinstance(stmt, _TERMINAL)` -/
def isTerminal : Stmt → Bool
  | simple kind _ _ => kind = .Return || kind = .Raise || kind = .Continue || kind = .Break
  | _ => false

end Stmt

inductive Node where
  | module (body : List Stmt)
  | stmt (s : Stmt)
  | handler (h : Handler)
  | case (c : Case)
  | expr (e : Expr)

namespace Node

/-- `ast.iter_child_nodes` -/
def children : Node → List Node
  | module body => body.map stmt
  | stmt (.simple _ _ children) => children.map expr
  | stmt (.functionDef _ _ args body rest) => expr args :: (body.map stmt ++ rest.map expr)
  | stmt (.classDef _ bases body rest) => bases.map expr ++ body.map stmt ++ rest.map expr
  | stmt (.forLoop _ _ target iter body orelse) =>
      expr target :: expr iter :: (body.map stmt ++ orelse.map stmt)
  | stmt (.whileLoop _ test body orelse) => expr test :: (body.map stmt ++ orelse.map stmt)
  | stmt (.ifElse _ test body orelse) => expr test :: (body.map stmt ++ orelse.map stmt)
  | stmt (.withBlock _ _ items body) => items.map expr ++ body.map stmt
  | stmt (.tryBlock _ _ body handlers orelse finalbody) =>
      body.map stmt ++ handlers.map handler ++ orelse.map stmt ++ finalbody.map stmt
  | stmt (.matchBlock _ subject cases) => expr subject :: cases.map case
  | handler (.mk type body) => type.map expr ++ body.map stmt
  | case (.mk head body) => head.map expr ++ body.map stmt
  | expr (.lambda args body) => [expr args, expr body]
  | expr (.ifExp test body orelse) => [expr test, expr body, expr orelse]
  | expr (.other children) => children.map expr

/-- `getattr(node, "body", None)` -/
inductive Body where
  | statements (body : List Stmt)
  | expression (body : Expr)
  | missing

def body : Node → Body
  | module body => .statements body
  | stmt (.simple ..) => .missing
  | stmt (.functionDef _ _ _ body _) => .statements body
  | stmt (.classDef _ _ body _) => .statements body
  | stmt (.forLoop _ _ _ _ body _) => .statements body
  | stmt (.whileLoop _ _ body _) => .statements body
  | stmt (.ifElse _ _ body _) => .statements body
  | stmt (.withBlock _ _ _ body) => .statements body
  | stmt (.tryBlock _ _ body _ _ _) => .statements body
  | stmt (.matchBlock ..) => .missing
  | handler (.mk _ body) => .statements body
  | case (.mk _ body) => .statements body
  | expr (.lambda _ body) => .expression body
  | expr (.ifExp _ body _) => .expression body
  | expr (.other _) => .missing

end Node

mutual

/-- How many nodes an expression has. -/
def Expr.weight : Expr → ℕ
  | .lambda args body => 1 + (args.weight + body.weight)
  | .ifExp test body orelse => 1 + (test.weight + body.weight + orelse.weight)
  | .other children => 1 + exprsWeight children

def exprsWeight : List Expr → ℕ
  | [] => 0
  | e :: es => e.weight + exprsWeight es

end

mutual

def Stmt.weight : Stmt → ℕ
  | .simple _ _ children => 1 + exprsWeight children
  | .functionDef _ _ args body rest => 1 + (args.weight + stmtsWeight body + exprsWeight rest)
  | .classDef _ bases body rest => 1 + (exprsWeight bases + stmtsWeight body + exprsWeight rest)
  | .forLoop _ _ target iter body orelse =>
      1 + (target.weight + iter.weight + stmtsWeight body + stmtsWeight orelse)
  | .whileLoop _ test body orelse => 1 + (test.weight + stmtsWeight body + stmtsWeight orelse)
  | .ifElse _ test body orelse => 1 + (test.weight + stmtsWeight body + stmtsWeight orelse)
  | .withBlock _ _ items body => 1 + (exprsWeight items + stmtsWeight body)
  | .tryBlock _ _ body handlers orelse finalbody =>
      1 + (stmtsWeight body + handlersWeight handlers + stmtsWeight orelse + stmtsWeight finalbody)
  | .matchBlock _ subject cases => 1 + (subject.weight + casesWeight cases)

def Handler.weight : Handler → ℕ
  | .mk type body => 1 + (exprsWeight type + stmtsWeight body)

def Case.weight : Case → ℕ
  | .mk head body => 1 + (exprsWeight head + stmtsWeight body)

def stmtsWeight : List Stmt → ℕ
  | [] => 0
  | s :: ss => s.weight + stmtsWeight ss

def handlersWeight : List Handler → ℕ
  | [] => 0
  | h :: hs => h.weight + handlersWeight hs

def casesWeight : List Case → ℕ
  | [] => 0
  | c :: cs => c.weight + casesWeight cs

end

namespace Node

def weight : Node → ℕ
  | module body => 1 + stmtsWeight body
  | stmt s => s.weight
  | handler h => h.weight
  | case c => c.weight
  | expr e => e.weight

open Rose (totalWeight totalWeight_append)

theorem totalWeight_stmts (ss : List Stmt) :
    totalWeight weight (ss.map stmt) = stmtsWeight ss := by
  induction ss with
  | nil => rfl
  | cons s ss ih => exact congrArg (s.weight + ·) ih

theorem totalWeight_exprs (es : List Expr) :
    totalWeight weight (es.map expr) = exprsWeight es := by
  induction es with
  | nil => rfl
  | cons e es ih => exact congrArg (e.weight + ·) ih

theorem totalWeight_handlers (hs : List Handler) :
    totalWeight weight (hs.map handler) = handlersWeight hs := by
  induction hs with
  | nil => rfl
  | cons h hs ih => exact congrArg (h.weight + ·) ih

theorem totalWeight_cases (cs : List Case) :
    totalWeight weight (cs.map case) = casesWeight cs := by
  induction cs with
  | nil => rfl
  | cons c cs ih => exact congrArg (c.weight + ·) ih

/-- A node counts itself and its children. -/
theorem weight_eq (node : Node) : weight node = 1 + totalWeight weight (children node) := by
  cases node with
  | module body => rw [children, totalWeight_stmts, weight]
  | stmt s =>
      cases s <;> simp only [children, totalWeight_append, totalWeight, totalWeight_stmts,
        totalWeight_exprs, totalWeight_handlers, totalWeight_cases, weight, Stmt.weight,
        Nat.add_assoc]
  | handler h =>
      cases h
      simp only [children, totalWeight_append, totalWeight_stmts, totalWeight_exprs, weight,
        Handler.weight]
  | case c =>
      cases c
      simp only [children, totalWeight_append, totalWeight_stmts, totalWeight_exprs, weight,
        Case.weight]
  | expr e =>
      cases e <;> simp only [children, totalWeight, totalWeight_exprs, weight, Expr.weight,
        Nat.add_assoc, Nat.add_zero]

def rose : Rose Node where
  children := children
  weight := weight
  weight_children node := by
    rw [node.weight_eq]
    omega

end Node

/-- `ast.walk` -/
def astWalk (tree : List Stmt) : List Node := Node.rose.walk [.module tree]

/-- The statement at an index of the body and the one after it. -/
def unreachable (rel : String) (stmt next : Stmt) : Violation where
  rule := "G12"
  path := rel
  line := next.lineno
  detail := "unreachable " ++ next.typeName ++ " after " ++ stmt.typeName

def violationAt (rel : String) (body : List Stmt) (stmt : Stmt) (index : ℕ) : Option Violation :=
  if stmt.isTerminal then body[index + 1]?.map (unreachable rel stmt) else none

/-- `for index, stmt in enumerate(body[:-1])` -/
def bodyViolations (rel : String) (body : List Stmt) : List Violation :=
  body.dropLast.zipIdx.filterMap fun entry ↦ violationAt rel body entry.1 entry.2

def nodeViolations (rel : String) (node : Node) : List Violation :=
  match node.body with
  | .statements body => bodyViolations rel body
  | .expression _ => []
  | .missing => []

/-- A file below the root: the parts of its path, and its tree unless it has a syntax error. -/
structure SourceFile where
  parts : List String
  tree : Option (List Stmt)

def skipDirNames : List String :=
  [".git", "__pycache__", ".pytest_cache", "node_modules", ".venv", "venv", "guardrails",
    ".mypy_cache", ".ruff_cache", "build", "dist", ".eggs"]

/-- `_walk_python`, of the files in order of their paths -/
def walkPython (files : List SourceFile) : List SourceFile :=
  files.filter fun file ↦ file.parts.all (· ∉ skipDirNames)

def SourceFile.rel (file : SourceFile) : String := "/".intercalate file.parts

def fileViolations (file : SourceFile) : List Violation :=
  match file.tree with
  | none => []
  | some tree => (astWalk tree).flatMap (nodeViolations file.rel)

def unreachableCodeViolations (files : List SourceFile) : List Violation :=
  (walkPython files).flatMap fileViolations

end ChipEvolve.Guardrails
