import ChipEvolve.Gateway.Reads

/-!
# The pages of a list of runs

`EvidenceIndex.runs` and `count_runs` (`index.py`) read from one store page by page, and
`KernelApi.design_tree` (`kernel_api.py`), whose body says where to read on.  It learns that
there is more from a row beyond the page, which the ceiling of `runs` withholds where the
page is as large as the ceiling; there a full page counts as one that has a successor.
-/

namespace ChipEvolve.Provenance

namespace Records

variable {x : Records} {f : RunFilter} {wanted : Option RuntimeStatus}

/-- Everything a filter lists, newest first. -/
def listed (x : Records) (f : RunFilter) (wanted : Option RuntimeStatus) : List RunSummary :=
  (x.newestFirst.filter (f.admits wanted)).map x.summary

theorem runs_eq (hwanted : f.wantedStatus = .ok wanted) {limit : Int} (hlimit : 1 ≤ limit)
    (hceiling : limit ≤ maxRunLimit) (offset : Nat) :
    x.runs f limit offset = .ok (((x.listed f wanted).drop offset).take limit.toNat) := by
  have hpositive : 0 < limit.toNat := by omega
  have hnonneg : ¬(offset : Int) < 0 := by omega
  unfold runs raiseIf
  rw [if_neg (not_not.mpr ⟨hlimit, hceiling⟩), if_neg hnonneg, hwanted]
  simp only [bind, Except.bind, pure, Except.pure]
  rw [Paging.page_eq hpositive (Nat.zero_le _), List.map_take, List.map_drop]
  rfl

theorem countRuns_eq (hwanted : f.wantedStatus = .ok wanted) :
    x.countRuns f = .ok (x.listed f wanted).length := by
  unfold countRuns
  rw [hwanted]
  simp only [bind, Except.bind, pure, Except.pure]
  rw [Paging.countPages_eq, List.countP_eq_length_filter, Nat.sub_zero, listed, List.length_map]

theorem pages_eq (hwanted : f.wantedStatus = .ok wanted) {n : Nat} (hn : 1 ≤ n)
    (hceiling : n ≤ maxRunLimit) (k : Nat) :
    ((List.range k).mapM fun i ↦ x.runs f n (i * n : Nat)) =
      .ok ((List.range k).map fun i ↦ ((x.listed f wanted).drop (i * n)).take n) := by
  refine Except.mapM_of_forall₂ (List.forall₂_map_right_iff.mpr (List.forall₂_same.mpr ?_))
  intro i _
  exact runs_eq hwanted (by omega) (by omega) (i * n)

theorem mem_listed {summary : RunSummary} (h : summary ∈ x.listed f wanted) :
    ∃ run ∈ x.tables.runs, summary.runId = run.runId := by
  obtain ⟨run, hrun, rfl⟩ := List.mem_map.mp h
  exact ⟨run, (List.mem_insertionSort _).mp (List.mem_of_mem_filter hrun), rfl⟩

/-- What is listed can be described. -/
theorem runDetail_of_listed {summary : RunSummary} (h : summary ∈ x.listed f wanted) :
    ∃ d, x.runDetail summary.runId = .ok d ∧ d.run.runId = summary.runId := by
  obtain ⟨run, hrun, hid⟩ := mem_listed h
  obtain ⟨found, hfound⟩ := Option.isSome_iff_exists.mp
    (Table.get?_isSome_iff.mpr (List.mem_map_of_mem (f := RunRow.runId) hrun))
  rw [← hid] at hfound
  exact ⟨_, runDetail_eq_ok.mpr ⟨found, hfound, rfl⟩, Table.key_of_get? hfound⟩

end Records

end ChipEvolve.Provenance

namespace ChipEvolve.Gateway

open Identity Provenance Paging

/-! ## Nodes under their revisions -/

/-- The ids of the runs that a tree shows. -/
def TreeBody.shown (t : TreeBody) : List RunId :=
  t.revisions.flatMap fun r ↦ r.runs.map fun n ↦ n.detail.run.runId

section Revisions

variable {revisions : List (String × RevisionBody)} {node : RunNode}

theorem perm_fileAt {revision : String} (hnodup : (revisions.map Prod.fst).Nodup)
    (hmem : revision ∈ revisions.map Prod.fst) :
    ((revisions.map fun (key, body) ↦
        if key = revision then (key, { body with runs := body.runs ++ [node] })
        else (key, body)).flatMap fun r ↦ r.2.runs).Perm
      ((revisions.flatMap fun r ↦ r.2.runs) ++ [node]) := by
  induction revisions with
  | nil => cases hmem
  | cons r revisions ih =>
      obtain ⟨key, body⟩ := r
      obtain ⟨hnew, hnodup⟩ := List.nodup_cons.mp hnodup
      rw [List.map_cons, List.flatMap_cons, List.flatMap_cons]
      dsimp only at hnew ⊢
      by_cases hkey : key = revision
      · have hrest : (revisions.map fun (key, body) ↦
            if key = revision then (key, { body with runs := body.runs ++ [node] })
            else (key, body)) = revisions := by
          refine (List.map_congr_left fun r' hr' ↦ ?_).trans (List.map_id revisions)
          have hne : r'.1 ≠ revision := fun heq ↦
            hnew (hkey.trans heq.symm ▸ List.mem_map_of_mem hr')
          simp [hne]
        rw [hrest, if_pos hkey, List.append_assoc, List.append_assoc]
        exact (List.Perm.refl _).append (List.perm_append_comm)
      · have hmem : revision ∈ revisions.map Prod.fst :=
          (List.mem_cons.mp hmem).resolve_left (Ne.symm hkey)
        rw [if_neg hkey, List.append_assoc]
        exact (ih hnodup hmem).append_left _

theorem perm_fileUnder (hnodup : (revisions.map Prod.fst).Nodup) (summary : RunSummary) :
    ((fileUnder revisions (summary, node)).map Prod.fst).Nodup ∧
      ((fileUnder revisions (summary, node)).flatMap fun r ↦ r.2.runs).Perm
        ((revisions.flatMap fun r ↦ r.2.runs) ++ [node]) := by
  unfold fileUnder
  dsimp only
  generalize (if summary.designRevisionId.getD "" = "" then "unversioned"
    else summary.designRevisionId.getD "") = revision
  by_cases hany : revisions.any (·.1 = revision) = true
  · have hmem : revision ∈ revisions.map Prod.fst := by
      obtain ⟨r, hr, hkey⟩ := List.any_eq_true.mp hany
      exact List.mem_map.mpr ⟨r, hr, of_decide_eq_true hkey⟩
    rw [if_pos hany]
    refine ⟨?_, perm_fileAt hnodup hmem⟩
    convert hnodup using 1
    rw [List.map_map]
    refine List.map_congr_left fun r _ ↦ ?_
    by_cases hkey : r.1 = revision <;> simp [hkey]
  · have hnew : revision ∉ revisions.map Prod.fst := by
      intro hmem
      obtain ⟨r, hr, rfl⟩ := List.mem_map.mp hmem
      exact hany (List.any_eq_true.mpr ⟨r, hr, decide_eq_true rfl⟩)
    rw [if_neg hany, List.map_append, List.flatMap_append]
    exact ⟨List.nodup_append.mpr ⟨hnodup, List.nodup_singleton _, fun a ha b hb heq ↦
      hnew (by simp_all)⟩, by simp⟩

theorem perm_foldl_fileUnder {entries : List (RunSummary × RunNode)}
    (hnodup : (revisions.map Prod.fst).Nodup) :
    ((entries.foldl fileUnder revisions).flatMap fun r ↦ r.2.runs).Perm
      ((revisions.flatMap fun r ↦ r.2.runs) ++ entries.map Prod.snd) := by
  induction entries generalizing revisions with
  | nil => simp
  | cons entry entries ih =>
      obtain ⟨hfiled, hperm⟩ := @perm_fileUnder revisions entry.2 hnodup entry.1
      rw [List.foldl_cons, List.map_cons]
      refine (ih hfiled).trans ?_
      rw [List.append_cons]
      exact hperm.append_right _

end Revisions

namespace KernelApi

variable {session : Option AuthSession} {b : Backend} {designId : String}

/-- The runs of a design that the caller may see, newest first. -/
def designRuns (session : Option AuthSession) (b : Backend) (designId : String) :
    List RunSummary :=
  b.records.listed (treeFilter session b designId) none

/-- A page of the tree. -/
structure TreePage (session : Option AuthSession) (b : Backend) (designId : String)
    (offset limit : Nat) (body : TreeBody) : Prop where
  shown : body.shown.Perm
    ((((designRuns session b designId).drop offset).take limit).map RunSummary.runId)
  runCount : body.runCount = (designRuns session b designId).length
  hasMore : body.hasMore = true ↔ offset + limit < body.runCount ∨
    limit = 500 ∧ offset + limit = body.runCount
  nextOffset : body.nextOffset = if body.hasMore then some ((offset : Int) + limit) else none

theorem shown_treeOf {offset : Int} {limit : Nat} {summaries : List RunSummary} {total : Nat}
    {nodes : List RunNode} (hnodes : List.Forall₂ (fun (summary : RunSummary) (node : RunNode) ↦
      node.detail.run.runId = summary.runId) (summaries.take limit) nodes) :
    (treeOf designId offset limit summaries total nodes).shown.Perm
      ((summaries.take limit).map RunSummary.runId) := by
  have hfiled : (((summaries.take limit).zip nodes).foldl fileUnder []).flatMap
      (fun r ↦ r.2.runs) |>.Perm (((summaries.take limit).zip nodes).map Prod.snd) :=
    perm_foldl_fileUnder List.nodup_nil
  have hfiled := hfiled.map fun n ↦ n.detail.run.runId
  have hids : nodes.map (fun n ↦ n.detail.run.runId) =
      (summaries.take limit).map RunSummary.runId := by
    rw [← List.forall₂_eq_eq_eq, List.forall₂_map_left_iff, List.forall₂_map_right_iff]
    exact hnodes.flip
  rw [List.map_snd_zip hnodes.length_eq.ge, hids] at hfiled
  unfold TreeBody.shown treeOf
  rw [List.flatMap_map]
  rwa [List.map_flatMap] at hfiled

/-- A page of the tree is always answered. -/
theorem treeBody_page (api : KernelApi) (session : Option AuthSession) (totals : Int × Int)
    (b : Backend) (designId : String) (offset : Nat) {limit : Nat} (hlimit : 1 ≤ limit)
    (hceiling : limit ≤ 500) :
    ∃ body, api.treeBody session totals b designId offset limit = .ok body ∧
      TreePage session b designId offset limit body := by
  have hwanted : (treeFilter session b designId).wantedStatus = .ok none := rfl
  have hruns : b.records.runs (treeFilter session b designId) (min ((limit : Int) + 1) 500) offset =
      .ok (((designRuns session b designId).drop offset).take
        (min ((limit : Int) + 1) 500).toNat) :=
    Records.runs_eq hwanted (by omega) (by simp [maxRunLimit]) offset
  have hcount : b.records.countRuns (treeFilter session b designId) =
      .ok (designRuns session b designId).length := Records.countRuns_eq hwanted
  have htoNat : (limit : Int).toNat = limit := Int.toNat_natCast limit
  have hfetched : (min ((limit : Int) + 1) 500).toNat = min (limit + 1) 500 := by omega
  rw [hfetched] at hruns
  obtain ⟨found, hfound⟩ : ∃ found, ((designRuns session b designId).drop offset).take
      (min (limit + 1) 500) = found := ⟨_, rfl⟩
  have hlength : found.length =
      min (min (limit + 1) 500) ((designRuns session b designId).length - offset) := by
    rw [← hfound, List.length_take, List.length_drop]
  have htake : found.take limit = ((designRuns session b designId).drop offset).take limit := by
    have hmin : min limit (min (limit + 1) 500) = limit := by omega
    rw [← hfound, List.take_take, hmin]
  have hdescribed : ∀ summary ∈ found.take limit, ∃ node,
      api.runDetail totals b summary.runId = .ok node ∧
        node.detail.run.runId = summary.runId := by
    intro summary hsummary
    rw [htake] at hsummary
    obtain ⟨d, hd, hid⟩ := Records.runDetail_of_listed
      (List.mem_of_mem_drop (List.mem_of_mem_take hsummary))
    obtain ⟨waiting, hwaiting⟩ := api.waiting_returns totals d.run
    refine ⟨{ detail := d, waitingFor := waiting }, ?_, hid⟩
    unfold runDetail
    rw [hd]
    simp only [bind, Except.bind, hwaiting]
    rfl
  obtain ⟨nodes, hnodes⟩ := Pointwise.exists_of_forall hdescribed
  have hmapM := Except.mapM_of_forall₂ (hnodes.imp fun _ _ h ↦ h.1)
  refine ⟨treeOf designId offset limit found (designRuns session b designId).length nodes, ?_, ?_⟩
  · unfold treeBody
    rw [hruns, hcount]
    simp only [bind, Except.bind, pure, Except.pure]
    rw [hfound, htoNat, hmapM]
  · refine ⟨?_, rfl, ?_, rfl⟩
    · rw [← htake]
      exact shown_treeOf (hnodes.imp fun _ _ h ↦ h.2)
    · simp only [treeOf, Bool.or_eq_true, Bool.and_eq_true, decide_eq_true_eq]
      omega

/-- Whoever follows `next_offset` is shown every run once, and comes to an end. -/
theorem reads_tree (api : KernelApi) (totals : Int × Int) {limit : Nat} (hlimit : 1 ≤ limit)
    (hceiling : limit ≤ 500) {offset : Nat}
    (hoffset : offset ≤ (designRuns session b designId).length) :
    ∃ bodies, Reads (fun offset body ↦
        api.treeBody session totals b designId offset limit = .ok body)
        TreeBody.nextOffset (offset : Int) bodies ∧
      (bodies.flatMap TreeBody.shown).Perm
        (((designRuns session b designId).drop offset).map RunSummary.runId) := by
  induction hk : (designRuns session b designId).length - offset using Nat.strong_induction_on
    generalizing offset with
  | _ k ih =>
      obtain ⟨body, hbody, hpage⟩ :=
        treeBody_page api session totals b designId offset hlimit hceiling
      obtain ⟨hshown, hcount, hmore, hnext⟩ := hpage
      rw [hcount] at hmore
      cases hhas : body.hasMore with
      | false =>
          have hlast : (designRuns session b designId).length ≤ offset + limit := by
            by_contra hlt
            rw [hmore.mpr (.inl (by omega))] at hhas
            cases hhas
          refine ⟨[body], .last hbody (by rw [hnext, hhas]; rfl), ?_⟩
          rw [List.take_of_length_le (by rw [List.length_drop]; omega)] at hshown
          simpa using hshown
      | true =>
          have hle : offset + limit ≤ (designRuns session b designId).length := by
            have := hmore.mp hhas
            omega
          obtain ⟨bodies, hbodies, hrest⟩ := ih _ (by omega) hle rfl
          refine ⟨body :: bodies, .more hbody ?_ hbodies, ?_⟩
          · rw [hnext, hhas]
            rfl
          · rw [List.flatMap_cons]
            refine (hshown.append hrest).trans ?_
            rw [← List.map_append, ← List.drop_drop, List.take_append_drop]

/-- Pages of `runs` and pages of the tree, from one store. -/
theorem run_pages_exact (api : KernelApi) (session : Option AuthSession) (totals : Int × Int)
    (b : Backend) {n : Nat} (hn : 1 ≤ n) (hceiling : n ≤ 500) :
    (∀ (f : RunFilter) (wanted : Option RuntimeStatus), f.wantedStatus = .ok wanted →
      (∀ k, ∃ pages, ((List.range k).mapM fun i ↦ b.records.runs f n (i * n : Nat)) = .ok pages ∧
        pages.flatten = (b.records.listed f wanted).take (k * n)) ∧
      b.records.countRuns f = .ok (b.records.listed f wanted).length) ∧
    ∀ designId : String,
      (∀ offset : Nat, ∃ body, api.treeBody session totals b designId offset n = .ok body ∧
        TreePage session b designId offset n body) ∧
      ∃ bodies, Reads (fun offset body ↦
          api.treeBody session totals b designId offset n = .ok body)
          TreeBody.nextOffset 0 bodies ∧
        (bodies.flatMap TreeBody.shown).Perm
          ((designRuns session b designId).map RunSummary.runId) := by
  refine ⟨fun f wanted hwanted ↦ ⟨fun k ↦ ?_, Records.countRuns_eq hwanted⟩,
    fun designId ↦ ⟨?_, ?_⟩⟩
  · exact ⟨_, Records.pages_eq hwanted hn hceiling k, flatten_pages n k⟩
  · exact fun offset ↦ treeBody_page api session totals b designId offset hn hceiling
  · exact reads_tree api totals hn hceiling (Nat.zero_le _)

end KernelApi

/-! ## A design with as many runs as a page can have -/

namespace Sample

def crowded (n : Nat) : Backend where
  records :=
    { system := { tables := { runs := (List.range n).map fun i ↦
        { ownRun with runId := "r" ++ toString i } } } }

theorem length_crowded (n : Nat) :
    (KernelApi.designRuns none (crowded n) "design").length = n := by
  have hall : ∀ run ∈ (crowded n).records.newestFirst,
      (KernelApi.treeFilter none (crowded n) "design").admits none run = true := by
    intro run hrun
    obtain ⟨i, _, rfl⟩ := List.mem_map.mp ((List.mem_insertionSort _).mp hrun)
    rfl
  unfold KernelApi.designRuns Records.listed
  rw [List.filter_eq_self.mpr hall, List.length_map, Records.newestFirst,
    List.length_insertionSort]
  exact (List.length_map _).trans List.length_range

/-- The last page is full, and yet there is said to be more. -/
theorem full_page_has_more :
    ¬∀ body, api.treeBody none (0, 0) (crowded 500) "design" (0 : Nat) (500 : Nat) = .ok body →
      (body.hasMore = true ↔ 0 + 500 < body.runCount) := by
  intro hclaim
  obtain ⟨body, hbody, _, hcount, hmore, _⟩ :=
    KernelApi.treeBody_page api none (0, 0) (crowded 500) "design" 0 (by decide) (le_refl 500)
  rw [length_crowded] at hcount
  have hlt := (hclaim body hbody).mp (hmore.mpr (.inr ⟨rfl, by omega⟩))
  omega

theorem run_pages_exact_crowded :
    ∃ bodies, Reads (fun offset body ↦
        api.treeBody none (0, 0) (crowded 500) "design" offset (500 : Nat) = .ok body)
        TreeBody.nextOffset 0 bodies ∧
      (bodies.flatMap TreeBody.shown).length = 500 := by
  obtain ⟨bodies, hbodies, hperm⟩ := ((KernelApi.run_pages_exact api none (0, 0) (crowded 500)
    (by decide) (le_refl 500)).2 "design").2
  refine ⟨bodies, hbodies, ?_⟩
  rw [hperm.length_eq, List.length_map, length_crowded]

end Sample

end ChipEvolve.Gateway
