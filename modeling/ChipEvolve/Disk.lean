import Mathlib.Logic.Function.Basic
import Mathlib.Tactic.Common

/-!
# Names, links and files

A path is the list of its components.  A name may be a symbolic link, which
stands for another path, and a file may have several names.  Opening a path
follows the links on the way; removing or renaming a name does not.  Writing a
file changes no name, so where paths lead is settled by the names alone.
-/

abbrev FilePath := List String

/-- A file: one that several names share, or the one that only this name has. -/
inductive FileNode where
  | shared (inode : Nat)
  | own (name : FilePath)
  deriving DecidableEq

/-- The links, by the absolute paths they stand for, and the names of shared files. -/
structure Names where
  link : FilePath → Option FilePath := fun _ ↦ none
  inode : FilePath → Option Nat := fun _ ↦ none

namespace Names

/-- The components one by one; a link goes on with `jump`. -/
def walk (link jump : FilePath → Option FilePath) : FilePath → FilePath → Option FilePath
  | done, [] => some done
  | done, c :: rest =>
      match link (done ++ [c]) with
      | none => walk link jump (done ++ [c]) rest
      | some target => jump (target ++ rest)

/-- Follow at most so many links. -/
def follow (link : FilePath → Option FilePath) : Nat → FilePath → Option FilePath
  | 0 => walk link (fun _ ↦ none) []
  | limit + 1 => walk link (follow link limit) []

/-- Where a path leads, unless there are too many links. -/
def place (n : Names) (path : FilePath) : Option FilePath := follow n.link 40 path

/-- The file of a name that is no link. -/
def node (n : Names) (name : FilePath) : FileNode :=
  match n.inode name with
  | some inode => .shared inode
  | none => .own name

/-- The file a path leads to, whether or not it is there. -/
def leads (n : Names) (path : FilePath) : Option FileNode := (n.place path).map n.node

/-- The path leads to a place below the directory. -/
def Inside (n : Names) (directory path : FilePath) : Prop :=
  ∃ q, n.place path = some q ∧ directory <+: q ∧ q ≠ directory

def unlink (n : Names) (name : FilePath) : Names :=
  { link := Function.update n.link name none
    inode := Function.update n.inode name none }

def rename (n : Names) (source target : FilePath) : Names :=
  { link := Function.update (Function.update n.link target (n.link source)) source none
    inode := Function.update (Function.update n.inode target (n.inode source)) source none }

/-! ## Where paths lead -/

/-- No beginning of the path is a link. -/
def Clear (n : Names) (path : FilePath) : Prop :=
  ∀ front, front <+: path → front ≠ [] → n.link front = none

variable {n : Names} {path q : FilePath}

theorem Clear.concat (h : n.Clear path) {c : String} (hc : n.link (path ++ [c]) = none) :
    n.Clear (path ++ [c]) := by
  intro front hfront hne
  rcases List.prefix_concat_iff.mp hfront with rfl | hshort
  · exact hc
  · exact h front hshort hne

theorem clear_nil : n.Clear [] := by
  intro front hfront hne
  exact absurd (List.prefix_nil.mp hfront) hne

theorem Clear.of_append {rest : FilePath} (h : n.Clear (path ++ rest)) : n.Clear path :=
  fun front hfront hne ↦ h front (hfront.trans (List.prefix_append _ _)) hne

theorem walk_of_clear (jump : FilePath → Option FilePath) :
    ∀ {done rest : FilePath}, n.Clear (done ++ rest) →
      walk n.link jump done rest = some (done ++ rest) := by
  intro done rest
  induction rest generalizing done with
  | nil => simp [walk]
  | cons c rest ih =>
      intro hclear
      have hsplit : done ++ c :: rest = done ++ [c] ++ rest := by simp
      rw [hsplit] at hclear
      have hc : n.link (done ++ [c]) = none :=
        hclear.of_append _ List.prefix_rfl (by simp)
      rw [walk, hc, hsplit]
      exact ih hclear

theorem Clear.unlink (h : n.Clear path) (name : FilePath) : (n.unlink name).Clear path := by
  intro front hfront hne
  change Function.update n.link name none front = none
  rw [Function.update_apply]
  split
  · rfl
  · exact h front hfront hne

/-- A path without links leads to itself. -/
theorem Clear.place_eq (h : n.Clear path) : n.place path = some path :=
  walk_of_clear _ h

theorem clear_of_walk {jump : FilePath → Option FilePath}
    (hjump : ∀ p q, jump p = some q → n.Clear q) :
    ∀ {done rest : FilePath}, n.Clear done → walk n.link jump done rest = some q → n.Clear q := by
  intro done rest
  induction rest generalizing done with
  | nil =>
      intro hdone hwalk
      obtain rfl := Option.some.inj hwalk
      exact hdone
  | cons c rest ih =>
      intro hdone hwalk
      rw [walk] at hwalk
      cases hlink : n.link (done ++ [c]) with
      | none =>
          rw [hlink] at hwalk
          exact ih (hdone.concat hlink) hwalk
      | some target =>
          rw [hlink] at hwalk
          exact hjump _ _ hwalk

theorem clear_of_follow (limit : Nat) : ∀ p q, follow n.link limit p = some q → n.Clear q := by
  induction limit with
  | zero =>
      intro p q h
      exact clear_of_walk (fun _ _ h ↦ by cases h) clear_nil h
  | succ limit ih =>
      intro p q h
      exact clear_of_walk ih clear_nil h

/-- Where a path leads there is no link, nor on the way to it. -/
theorem clear_of_place (h : n.place path = some q) : n.Clear q :=
  clear_of_follow 40 path q h

theorem leads_of_place (h : n.place path = some q) : n.leads path = some (n.node q) := by
  rw [leads, h, Option.map_some]

/-- The file a path leads to has that path's place as its own name only if the place is neither
a link nor a shared name. -/
theorem own_of_leads {name : FilePath} (h : n.leads path = some (.own name)) :
    n.Clear name ∧ n.inode name = none := by
  obtain ⟨q, hq, hnode⟩ := Option.map_eq_some_iff.mp h
  unfold node at hnode
  split at hnode
  · cases hnode
  · next hinode =>
      obtain rfl := FileNode.own.inj hnode
      exact ⟨clear_of_place hq, hinode⟩

theorem leads_own (hclear : n.Clear path) (hinode : n.inode path = none) :
    n.leads path = some (.own path) := by
  rw [leads_of_place hclear.place_eq, node, hinode]

/-! ### Without links -/

theorem clear_plain (path : FilePath) : ({} : Names).Clear path := fun _ _ _ ↦ rfl

@[simp] theorem place_plain (path : FilePath) : ({} : Names).place path = some path :=
  (clear_plain path).place_eq

@[simp] theorem leads_plain (path : FilePath) : ({} : Names).leads path = some (.own path) :=
  leads_own (clear_plain path) rfl

@[simp] theorem unlink_plain (name : FilePath) : ({} : Names).unlink name = {} := by
  simp [unlink]

@[simp] theorem rename_plain (source target : FilePath) :
    ({} : Names).rename source target = {} := by
  simp [rename]

theorem inside_plain {directory path : FilePath} :
    ({} : Names).Inside directory path ↔ directory <+: path ∧ path ≠ directory := by
  simp [Inside]

end Names

/-! ## Contents -/

/-- Names, and what the files hold. -/
structure Disk (α : Type) where
  names : Names := {}
  content : FileNode → Option α := fun _ ↦ none

namespace Disk

variable {α : Type} {d : Disk α} {path name source target : FilePath} {a : α}

/-- Write the file a path leads to, which may make it. -/
def write (d : Disk α) (path : FilePath) (a : α) : Option (Disk α) :=
  (d.names.leads path).map fun node ↦
    { d with content := Function.update d.content node (some a) }

/-- What the file a path leads to holds, if it is there. -/
def read (d : Disk α) (path : FilePath) : Option α := (d.names.leads path).bind d.content

/-- Remove a name; a file that has no other name is gone. -/
def unlink (d : Disk α) (name : FilePath) : Disk α :=
  { names := d.names.unlink name
    content := Function.update d.content (.own name) none }

/-- Give a file, or a link, another name, which replaces what had it. -/
def rename (d : Disk α) (source target : FilePath) : Disk α :=
  { names := d.names.rename source target
    content := Function.update
      (Function.update d.content (.own target) (d.content (.own source))) (.own source) none }

/-- Open a file for appending, which makes an empty one if there is none. -/
def touch (d : Disk α) (path : FilePath) (empty : α) : Option (Disk α) :=
  (d.names.leads path).map fun node ↦
    { d with content := Function.update d.content node (some ((d.content node).getD empty)) }

/-- One write after the other. -/
def writeAll : List (FilePath × α) → Disk α → Option (Disk α)
  | [], d => some d
  | w :: ws, d => (d.write w.1 w.2).bind (writeAll ws)

variable {d' : Disk α} {node : FileNode} {ws : List (FilePath × α)}

theorem write_eq_some (h : d.write path a = some d') :
    ∃ node, d.names.leads path = some node ∧
      d' = { d with content := Function.update d.content node (some a) } := by
  obtain ⟨node, hnode, rfl⟩ := Option.map_eq_some_iff.mp h
  exact ⟨node, hnode, rfl⟩

theorem names_of_write (h : d.write path a = some d') : d'.names = d.names := by
  obtain ⟨node, _, rfl⟩ := write_eq_some h
  rfl

/-- What was written is read back. -/
theorem read_of_write (h : d.write path a = some d') : d'.read path = some a := by
  obtain ⟨node, hnode, rfl⟩ := write_eq_some h
  simp [read, hnode]

/-- What a file holds after a write was written, or was there and the write went elsewhere. -/
theorem content_of_write (h : d.write path a = some d') (node : FileNode) :
    (d.names.leads path = some node ∧ d'.content node = some a) ∨
      (d.names.leads path ≠ some node ∧ d'.content node = d.content node) := by
  obtain ⟨target, htarget, rfl⟩ := write_eq_some h
  by_cases heq : node = target
  · exact .inl ⟨heq ▸ htarget, by simp [heq]⟩
  · exact .inr ⟨fun hnode ↦ heq (Option.some.inj (hnode.symm.trans htarget)), by simp [heq]⟩

theorem names_of_writeAll (h : writeAll ws d = some d') : d'.names = d.names := by
  induction ws generalizing d with
  | nil => rw [Option.some.inj h]
  | cons w ws ih =>
      obtain ⟨d₁, hwrite, hrest⟩ := Option.bind_eq_some_iff.mp h
      rw [ih hrest, names_of_write hwrite]

/-- Writes that go elsewhere keep a file. -/
theorem content_kept (h : writeAll ws d = some d')
    (hne : ∀ w ∈ ws, d.names.leads w.1 ≠ some node) : d'.content node = d.content node := by
  induction ws generalizing d with
  | nil => rw [Option.some.inj h]
  | cons w ws ih =>
      obtain ⟨d₁, hwrite, hrest⟩ := Option.bind_eq_some_iff.mp h
      rw [List.forall_mem_cons] at hne
      have hlater : ∀ v ∈ ws, d₁.names.leads v.1 ≠ some node := by
        rw [names_of_write hwrite]
        exact hne.2
      rw [ih hrest hlater]
      exact ((content_of_write hwrite node).resolve_left fun h ↦ hne.1 h.1).2

/-- What a file holds in the end was there and all writes went elsewhere, or was written. -/
theorem content_traced (h : writeAll ws d = some d') (ha : d'.content node = some a) :
    (d.content node = some a ∧ ∀ w ∈ ws, d.names.leads w.1 ≠ some node) ∨
      ∃ w ∈ ws, d.names.leads w.1 = some node ∧ w.2 = a := by
  induction ws generalizing d with
  | nil => exact .inl ⟨by rw [Option.some.inj h, ha], by simp⟩
  | cons w ws ih =>
      obtain ⟨d₁, hwrite, hrest⟩ := Option.bind_eq_some_iff.mp h
      have hnames := names_of_write hwrite
      rcases ih hrest with ⟨hold, hne⟩ | ⟨v, hv, hleads, hvalue⟩
      · rw [hnames] at hne
        rcases content_of_write hwrite node with ⟨hleads, hwritten⟩ | ⟨hhead, hkept⟩
        · exact .inr ⟨w, List.mem_cons_self, hleads, Option.some.inj (hwritten.symm.trans hold)⟩
        · exact .inl ⟨hkept.symm.trans hold, List.forall_mem_cons.mpr ⟨hhead, hne⟩⟩
      · exact .inr ⟨v, List.mem_cons_of_mem w hv, hnames ▸ hleads, hvalue⟩

/-- Every write can be read back in the end exactly when no two went to one file. -/
theorem read_all_iff (hnodup : (ws.map Prod.snd).Nodup) (h : writeAll ws d = some d') :
    (∀ w ∈ ws, d'.read w.1 = some w.2) ↔
      ws.Pairwise fun v w ↦ d.names.leads v.1 ≠ d.names.leads w.1 := by
  induction ws generalizing d with
  | nil => simp
  | cons w ws ih =>
      obtain ⟨d₁, hwrite, hrest⟩ := Option.bind_eq_some_iff.mp h
      rw [List.map_cons, List.nodup_cons] at hnodup
      have hnames := names_of_write hwrite
      obtain ⟨node, hnode, hcontent⟩ := write_eq_some hwrite
      have hhead : d'.read w.1 = d'.content node := by
        rw [read, names_of_writeAll hrest, hnames, hnode, Option.bind_some]
      have hwritten : d₁.content node = some w.2 := by simp [hcontent]
      rw [List.forall_mem_cons, List.pairwise_cons, ih hnodup.2 hrest, hnames]
      refine and_congr_left fun _ ↦ ?_
      rw [hhead]
      constructor
      · intro hlast v hv heq
        rcases content_traced hrest hlast with ⟨_, hne⟩ | ⟨v', hv', _, hvalue⟩
        · exact hne v hv (by rw [hnames, ← heq, hnode])
        · exact hnodup.1 (List.mem_map.mpr ⟨v', hv', hvalue⟩)
      · intro hne
        rw [content_kept hrest fun v hv ↦ ?_, hwritten]
        rw [hnames, ← hnode]
        exact (hne v hv).symm

/-! ### Removed and renamed files -/

theorem content_unlink : (d.unlink name).content node =
    if node = .own name then none else d.content node := by
  simp [unlink, Function.update_apply]

theorem content_rename : (d.rename source target).content node =
    if node = .own source then none
    else if node = .own target then d.content (.own source) else d.content node := by
  simp [rename, Function.update_apply]

theorem content_touch {empty : α} (h : d.touch path empty = some d') (ha : a ≠ empty) :
    d'.content node = some a ↔ d.content node = some a := by
  obtain ⟨target, _, rfl⟩ := Option.map_eq_some_iff.mp h
  by_cases heq : node = target
  · subst heq
    cases hold : d.content node with
    | none => simp [ha.symm]
    | some b => simp
  · simp [heq]

theorem names_of_touch {empty : α} (h : d.touch path empty = some d') : d'.names = d.names := by
  obtain ⟨target, _, rfl⟩ := Option.map_eq_some_iff.mp h
  rfl

end Disk
