import ChipEvolve.Worklist
import Mathlib.Logic.Function.Basic

/-!
# The process tree of an adapter

`ProcessGuardian._process_tree` (`runtime/guardian.py`) collects the descendants
of a process.  It follows `/proc/P/task/P/children`, and where the root has no
such file it builds the tree from the parents that `/proc/*/stat` names.  The
index is kept per thread: `/proc/P/task/T/children` lists the children that
thread `T` forked, and the walk reads the main thread's file only.
-/

namespace ChipEvolve

/-- An entry of `/proc`, with the thread of its parent that it is a child of.
The main thread of a process has the number of the process. -/
structure Process where
  pid : ℕ
  ppid : ℕ
  parentThread : ℕ
  deriving DecidableEq

/-- The processes of the host. -/
structure ProcessTable where
  processes : List Process
  pid_nodup : (processes.map (·.pid)).Nodup

namespace ProcessTable

def pids (table : ProcessTable) : List ℕ := table.processes.map (·.pid)

/-- `/proc/{pid}/task/{thread}/children`, which is missing when the process is. -/
def childrenFile (table : ProcessTable) (pid thread : ℕ) : Option (List ℕ) :=
  if pid ∈ table.pids then
    some ((table.processes.filter fun p ↦ p.ppid = pid ∧ p.parentThread = thread).map (·.pid))
  else none

/-- The children the index names; a file that cannot be read names none. -/
def indexedChildren (table : ProcessTable) (parent : ℕ) : List ℕ :=
  (table.childrenFile parent parent).getD []

/-- `children.setdefault(int(tail[1]), []).append(int(entry.name))` -/
def addEntry (children : ℕ → List ℕ) (p : Process) : ℕ → List ℕ :=
  Function.update children p.ppid (children p.ppid ++ [p.pid])

/-- `children.get(parent, ())` after the scan of `/proc`. -/
def statChildren (table : ProcessTable) : ℕ → List ℕ :=
  table.processes.foldl addEntry fun _ ↦ []

/-- The tree by the parents that `/proc/*/stat` names. -/
def statTree (table : ProcessTable) (fuel root : ℕ) : Option (Finset ℕ) :=
  Worklist.loop table.statChildren fuel (.start root)

/-- `_process_tree`: by the index, unless the file of the root cannot be read. -/
def processTree (table : ProcessTable) (fuel root : ℕ) : Option (Finset ℕ) :=
  (Worklist.loop table.indexedChildren fuel (.start root)).bind fun result ↦
    if (table.childrenFile root root).isSome then some result else table.statTree fuel root

/-- `b` is a child of `a`, whichever thread forked it. -/
def IsChild (table : ProcessTable) (a b : ℕ) : Prop :=
  ∃ p ∈ table.processes, p.ppid = a ∧ p.pid = b

/-- The root and all its descendants. -/
def InTree (table : ProcessTable) (root : ℕ) : ℕ → Prop :=
  Relation.ReflTransGen table.IsChild root

/-- Both walks end, with the root and all its descendants. -/
def WalksAgree (table : ProcessTable) (root : ℕ) : Prop :=
  ∃ tree, (∃ rounds, ∀ fuel, rounds ≤ fuel →
      table.processTree fuel root = some tree ∧ table.statTree fuel root = some tree) ∧
    ∀ pid, pid ∈ tree ↔ table.InTree root pid

variable {table : ProcessTable} {root a b : ℕ}

/-! ## The two indices -/

theorem mem_indexedChildren :
    b ∈ table.indexedChildren a ↔
      a ∈ table.pids ∧ ∃ p ∈ table.processes, p.ppid = a ∧ p.parentThread = a ∧ p.pid = b := by
  unfold indexedChildren childrenFile
  split
  · rename_i ha
    simp [ha, and_assoc]
  · rename_i ha
    simp [ha]

theorem mem_addEntry {children : ℕ → List ℕ} {p : Process} :
    b ∈ addEntry children p a ↔ b ∈ children a ∨ p.ppid = a ∧ p.pid = b := by
  unfold addEntry
  by_cases hp : a = p.ppid
  · subst hp
    rw [Function.update_self, List.mem_append, List.mem_singleton]
    simp [eq_comm]
  · have hne : ¬p.ppid = a := fun h ↦ hp h.symm
    simp [Function.update_of_ne hp, hne]

theorem mem_foldl_addEntry (processes : List Process) (children : ℕ → List ℕ) :
    b ∈ processes.foldl addEntry children a ↔
      b ∈ children a ∨ ∃ p ∈ processes, p.ppid = a ∧ p.pid = b := by
  induction processes generalizing children with
  | nil => simp
  | cons q processes ih =>
      rw [List.foldl_cons, ih, mem_addEntry]
      simp only [List.mem_cons, exists_eq_or_imp, or_assoc]

theorem mem_statChildren : b ∈ table.statChildren a ↔ table.IsChild a b := by
  simp [statChildren, mem_foldl_addEntry, IsChild]

theorem IsChild.mem_pids (h : table.IsChild a b) : b ∈ table.pids := by
  obtain ⟨p, hp, _, rfl⟩ := h
  exact List.mem_map_of_mem hp

theorem isChild_of_mem_indexed (h : b ∈ table.indexedChildren a) : table.IsChild a b := by
  obtain ⟨_, p, hp, hppid, _, hpid⟩ := mem_indexedChildren.mp h
  exact ⟨p, hp, hppid, hpid⟩

theorem eq_of_pid_eq {p q : Process} (hp : p ∈ table.processes) (hq : q ∈ table.processes)
    (h : p.pid = q.pid) : p = q :=
  List.inj_on_of_nodup_map table.pid_nodup hp hq h

theorem mem_pids_of_inTree (hroot : root ∈ table.pids) (h : table.InTree root a) :
    a ∈ table.pids := by
  cases h with
  | refl => exact hroot
  | tail _ hlast => exact hlast.mem_pids

/-! ## What the walks return -/

/-- Everything a walk can come to. -/
def known (table : ProcessTable) (root : ℕ) : Finset ℕ := insert root table.pids.toFinset

theorem statTree_eq (table : ProcessTable) (root : ℕ) :
    ∃ slow, (∀ fuel, (table.known root).card ≤ fuel → table.statTree fuel root = some slow) ∧
      ∀ pid, pid ∈ slow ↔ table.InTree root pid := by
  have hknown : ∀ a, ∀ b ∈ table.statChildren a, b ∈ table.known root := fun a b hb ↦
    Finset.mem_insert_of_mem (List.mem_toFinset.mpr (mem_statChildren.mp hb).mem_pids)
  obtain ⟨slow, hloop, hmem⟩ := Worklist.loop_start hknown (Finset.mem_insert_self _ _)
  have hedge : Worklist.Edge table.statChildren = table.IsChild := by
    funext a b
    exact propext mem_statChildren
  refine ⟨slow, hloop, fun pid ↦ ?_⟩
  rw [hmem, Worklist.Reach, hedge]
  rfl

theorem processTree_eq (hroot : root ∈ table.pids) :
    ∃ fast, (∀ fuel, (table.known root).card ≤ fuel → table.processTree fuel root = some fast) ∧
      ∀ pid, pid ∈ fast ↔ Worklist.Reach table.indexedChildren root pid := by
  have hknown : ∀ a, ∀ b ∈ table.indexedChildren a, b ∈ table.known root := fun a b hb ↦
    Finset.mem_insert_of_mem (List.mem_toFinset.mpr (isChild_of_mem_indexed hb).mem_pids)
  obtain ⟨fast, hloop, hmem⟩ := Worklist.loop_start hknown (Finset.mem_insert_self _ _)
  refine ⟨fast, fun fuel hfuel ↦ ?_, hmem⟩
  simp [processTree, hloop fuel hfuel, childrenFile, hroot]

theorem inTree_of_indexed {pid : ℕ} (h : Worklist.Reach table.indexedChildren root pid) :
    table.InTree root pid := by
  have hle : Worklist.Edge table.indexedChildren ≤ table.IsChild :=
    fun _ _ ↦ isChild_of_mem_indexed
  exact Relation.ReflTransGen.mono hle _ _ h

/-- The index reaches every process that is in the tree and whose ancestors in the
tree were all forked by main threads. -/
theorem indexed_of_inTree (hroot : root ∈ table.pids)
    (hmain : ∀ p ∈ table.processes, table.InTree root p.pid → p.pid ≠ root →
      p.parentThread = p.ppid) {pid : ℕ} (h : table.InTree root pid) :
    Worklist.Reach table.indexedChildren root pid := by
  induction h with
  | refl => exact .refl
  | @tail parent child hparent hchild ih =>
      obtain ⟨p, hp, rfl, rfl⟩ := hchild
      by_cases hself : p.pid = root
      · rw [hself]
        exact .refl
      · have htree : table.InTree root p.pid := hparent.tail ⟨p, hp, rfl, rfl⟩
        have hthread : p.parentThread = p.ppid := hmain p hp htree hself
        exact ih.tail (mem_indexedChildren.mpr
          ⟨mem_pids_of_inTree hroot hparent, p, hp, rfl, hthread, rfl⟩)

/-- What the index reaches below the root is a child of a main thread. -/
theorem main_of_indexed {p : Process} (hp : p ∈ table.processes)
    (h : Worklist.Reach table.indexedChildren root p.pid) (hself : p.pid ≠ root) :
    p.parentThread = p.ppid := by
  rcases h.cases_tail with hrefl | ⟨parent, _, hlast⟩
  · exact absurd hrefl hself
  · obtain ⟨_, q, hq, hppid, hthread, hpid⟩ := mem_indexedChildren.mp hlast
    obtain rfl : q = p := eq_of_pid_eq hq hp hpid
    rw [hthread, hppid]

/-- The walk over `/proc/*/stat` always returns the whole tree.  The walk over the index agrees
with it exactly when no process of the tree was forked by another than the main thread. -/
theorem walks_agree_iff (table : ProcessTable) (root : ℕ) (hroot : root ∈ table.pids) :
    (∃ fast slow, (∃ rounds, ∀ fuel, rounds ≤ fuel →
        table.processTree fuel root = some fast ∧ table.statTree fuel root = some slow) ∧
      fast ⊆ slow ∧ ∀ pid, pid ∈ slow ↔ table.InTree root pid) ∧
    (table.WalksAgree root ↔
      ∀ p ∈ table.processes, table.InTree root p.pid → p.pid ≠ root →
        p.parentThread = p.ppid) := by
  obtain ⟨slow, hslow, hslowMem⟩ := statTree_eq table root
  obtain ⟨fast, hfast, hfastMem⟩ := processTree_eq hroot
  have hends : ∀ fuel, (table.known root).card ≤ fuel →
      table.processTree fuel root = some fast ∧ table.statTree fuel root = some slow :=
    fun fuel hfuel ↦ ⟨hfast fuel hfuel, hslow fuel hfuel⟩
  refine ⟨⟨fast, slow, ⟨_, hends⟩, fun pid hpid ↦ ?_, hslowMem⟩, ?_, ?_⟩
  · exact (hslowMem pid).mpr (inTree_of_indexed ((hfastMem pid).mp hpid))
  · rintro ⟨tree, ⟨rounds, hrounds⟩, htree⟩ p hp hin hself
    have htreeFast : tree = fast := by
      have hboth := (hrounds _ (le_max_left rounds (table.known root).card)).1
      rw [hfast _ (le_max_right _ _)] at hboth
      exact (Option.some.inj hboth).symm
    have hreach := (hfastMem p.pid).mp (htreeFast ▸ (htree p.pid).mpr hin)
    exact main_of_indexed hp hreach hself
  · intro hmain
    have hsame : fast = slow := by
      ext pid
      rw [hfastMem, hslowMem]
      exact ⟨inTree_of_indexed, indexed_of_inTree hroot hmain⟩
    exact ⟨slow, ⟨_, fun fuel hfuel ↦ hsame ▸ hends fuel hfuel⟩, hslowMem⟩

end ProcessTable

/-! ## A child of a worker thread -/

/-- Process 10 with a second thread 11, which forked process 20. -/
def workerForked : ProcessTable where
  processes := [⟨1, 0, 0⟩, ⟨10, 1, 1⟩, ⟨20, 10, 11⟩]
  pid_nodup := by decide

theorem worker_child_escapes : ¬workerForked.WalksAgree 10 := by
  rintro ⟨tree, ⟨rounds, hrounds⟩, _⟩
  obtain ⟨hfast, hslow⟩ := hrounds (rounds + 4) (by omega)
  have hfew : workerForked.processTree (rounds + 4) 10 = some {10} := rfl
  have hall : workerForked.statTree (rounds + 4) 10 = some {20, 10} := rfl
  have hsame : ({10} : Finset ℕ) = {20, 10} :=
    Option.some.inj (hfew.symm.trans (hfast.trans (hslow.symm.trans hall)))
  exact absurd hsame (by decide)

/-- A driver that forks its stages from its main thread. -/
def mainForked : ProcessTable where
  processes := [⟨1, 0, 0⟩, ⟨10, 1, 1⟩, ⟨20, 10, 10⟩, ⟨30, 20, 20⟩]
  pid_nodup := by decide

theorem walks_agree_mainForked : mainForked.WalksAgree 10 := by
  have hmain : ∀ p ∈ mainForked.processes, p.parentThread = p.ppid := by decide
  exact (ProcessTable.walks_agree_iff mainForked 10 (by decide)).2.mpr
    fun p hp _ _ ↦ hmain p hp

end ChipEvolve
