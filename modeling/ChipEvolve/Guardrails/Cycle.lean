import ChipEvolve.ClosedWalk
import ChipEvolve.Guardrails.Rules

/-!
# The search for an import cycle

The stack of the search is always one trail of the graph, held with all its
beginnings.  The grey names lie on it, every name under the top is grey, and
from a black name no walk goes on for ever.  Each turn either makes a name black or
makes the trail longer by a white one, so the search ends.
-/

namespace ChipEvolve.Guardrails

open ClosedWalk

section FindCycle

variable {α : Type} [LinearOrder α] {g : Graph α} {colour : α → Colour} {trail : List α}
  {v w target : α}

/-! ## The invariant -/

/-- The stack that belongs to a trail, both with the latest name in front. -/
def entries : List α → List (α × List α)
  | [] => []
  | v :: trail => (v, (v :: trail).reverse) :: entries trail

/-- What holds between two turns; `due` are the names the search has started from. -/
structure Searching (g : Graph α) (due : Set α) (colour : α → Colour) (trail : List α) : Prop where
  nodup : trail.Nodup
  names : ∀ v ∈ trail, v ∈ g.names
  chain : trail.IsChain (flip g.Edge)
  onTrail : ∀ v, colour v = .grey → v ∈ trail
  notBlack : ∀ v ∈ trail, colour v ≠ .black
  below : ∀ v ∈ trail.tail, colour v = .grey
  finished : ∀ v, colour v = .black → Acc (flip g.Edge) v
  reached : ∀ v ∈ due, v ∈ trail ∨ colour v = .black

variable {due : Set α}

/-- The names that are not yet black. -/
def unfinished (g : Graph α) (colour : α → Colour) : Finset α :=
  g.names.filter fun v ↦ colour v ≠ .black

theorem mem_unfinished : v ∈ unfinished g colour ↔ v ∈ g.names ∧ colour v ≠ .black :=
  Finset.mem_filter

theorem Searching.length_le (h : Searching g due colour trail) :
    trail.length ≤ (unfinished g colour).card := by
  rw [← List.toFinset_card_of_nodup h.nodup]
  apply Finset.card_le_card
  intro v hv
  rw [List.mem_toFinset] at hv
  exact mem_unfinished.mpr ⟨h.names v hv, h.notBlack v hv⟩

theorem Searching.start (h : Searching g due colour []) (hv : v ∈ g.names)
    (hwhite : colour v = .white) : Searching g (insert v due) colour [v] where
  nodup := List.nodup_singleton v
  names := by simpa using hv
  chain := List.isChain_singleton v
  onTrail w hw := absurd (h.onTrail w hw) List.not_mem_nil
  notBlack := by simp [hwhite]
  below := by simp
  finished := h.finished
  reached := by
    rintro w (rfl | hw)
    · exact .inl List.mem_cons_self
    · rcases h.reached w hw with hmem | hblack
      · exact absurd hmem List.not_mem_nil
      · exact .inr hblack

/-! ## One turn -/

theorem mem_unvisited : target ∈ unvisited g colour v ↔
    target ∈ g.edges v ∧ colour target ≠ .black := by
  simp [unvisited]

/-- A name without successors that are not black becomes black. -/
theorem Searching.blacken (h : Searching g due colour (v :: trail))
    (hnone : unvisited g (Function.update colour v .grey) v = []) :
    Searching g due (Function.update (Function.update colour v .grey) v .black) trail := by
  obtain ⟨hnotMem, hnodup⟩ := List.nodup_cons.mp h.nodup
  have hne : ∀ w ∈ trail, w ≠ v := fun w hw heq ↦ hnotMem (heq ▸ hw)
  have hsuccessors : ∀ t ∈ g.edges v, colour t = .black := by
    intro t ht
    by_contra hblack
    have hgrey : Function.update colour v .grey t ≠ .black := by
      by_cases heq : t = v <;> simp [heq, Function.update_of_ne, hblack]
    have hmem := mem_unvisited.mpr ⟨ht, hgrey⟩
    rw [hnone] at hmem
    exact List.not_mem_nil hmem
  rw [Function.update_idem]
  refine ⟨hnodup, fun w hw ↦ h.names w (List.mem_cons_of_mem v hw), h.chain.tail,
    ?_, ?_, ?_, ?_, ?_⟩
  · intro w hw
    obtain rfl | hwv := eq_or_ne w v
    · simp at hw
    · rw [Function.update_of_ne hwv] at hw
      exact (List.mem_cons.mp (h.onTrail w hw)).resolve_left hwv
  · intro w hw
    rw [Function.update_of_ne (hne w hw)]
    exact h.notBlack w (List.mem_cons_of_mem v hw)
  · intro w hw
    have hw' := List.mem_of_mem_tail hw
    rw [Function.update_of_ne (hne w hw')]
    exact h.below w hw'
  · intro w hw
    obtain rfl | hwv := eq_or_ne w v
    · exact .intro _ fun t ht ↦ h.finished t (hsuccessors t ht.2)
    · rw [Function.update_of_ne hwv] at hw
      exact h.finished w hw
  · intro w hw
    obtain rfl | hwv := eq_or_ne w v
    · exact .inr (Function.update_self ..)
    · rw [Function.update_of_ne hwv]
      exact (h.reached w hw).imp_left fun hmem ↦ (List.mem_cons.mp hmem).resolve_left hwv

/-- The trail goes on to a white successor. -/
theorem Searching.push (h : Searching g due colour (v :: trail)) (hedge : target ∈ g.edges v)
    (hgrey : Function.update colour v .grey target ≠ .grey)
    (hblack : Function.update colour v .grey target ≠ .black) :
    Searching g due (Function.update colour v .grey) (target :: v :: trail) := by
  have hname : v ∈ g.names := h.names v List.mem_cons_self
  have htail : ∀ w ∈ v :: trail, Function.update colour v .grey w = .grey := by
    intro w hw
    obtain rfl | hwv := eq_or_ne w v
    · exact Function.update_self ..
    · rw [Function.update_of_ne hwv]
      exact h.below w ((List.mem_cons.mp hw).resolve_left hwv)
  refine ⟨List.nodup_cons.mpr ⟨fun hmem ↦ hgrey (htail target hmem), h.nodup⟩, ?_,
    List.isChain_cons_cons.mpr ⟨⟨hname, hedge⟩, h.chain⟩, ?_, ?_, htail, ?_, ?_⟩
  · rintro w (_ | ⟨_, hw⟩)
    · exact g.closed v hname hedge
    · exact h.names w hw
  · intro w hw
    obtain rfl | hwv := eq_or_ne w v
    · simp
    · rw [Function.update_of_ne hwv] at hw
      exact List.mem_cons_of_mem target (h.onTrail w hw)
  · rintro w (_ | ⟨_, hw⟩)
    · exact hblack
    · simp [htail w hw]
  · intro w hw
    obtain rfl | hwv := eq_or_ne w v
    · simp at hw
    · rw [Function.update_of_ne hwv] at hw
      exact h.finished w hw
  · intro w hw
    rcases h.reached w hw with hmem | hdone
    · exact .inl (List.mem_cons_of_mem target hmem)
    · obtain rfl | hwv := eq_or_ne w v
      · simp
      · exact .inr (by rwa [Function.update_of_ne hwv])

/-- A grey successor closes the trail. -/
theorem Searching.close (h : Searching g due colour (v :: trail)) (hedge : target ∈ g.edges v)
    (hgrey : Function.update colour v .grey target = .grey) :
    target ∈ (v :: trail).reverse ∧ IsSimple g.Edge
      ((v :: trail).reverse.drop ((v :: trail).reverse.idxOf target) ++ [target]) := by
  have hname : v ∈ g.names := h.names v List.mem_cons_self
  have hmem : target ∈ (v :: trail).reverse := by
    rw [List.mem_reverse]
    obtain rfl | htv := eq_or_ne target v
    · exact List.mem_cons_self
    · rw [Function.update_of_ne htv] at hgrey
      exact h.onTrail target hgrey
  refine ⟨hmem, isSimple_of_trail (List.isChain_reverse.mpr h.chain)
    (List.nodup_reverse.mpr h.nodup) ?_ ⟨hname, hedge⟩ hmem⟩
  simp

theorem unfinished_grey (hv : colour v ≠ .black) :
    unfinished g (Function.update colour v .grey) = unfinished g colour := by
  ext w
  rw [mem_unfinished, mem_unfinished]
  obtain rfl | hwv := eq_or_ne w v
  · simp [hv]
  · rw [Function.update_of_ne hwv]

theorem card_unfinished_black (hname : v ∈ g.names) (hv : colour v ≠ .black) :
    (unfinished g (Function.update (Function.update colour v .grey) v .black)).card + 1 =
      (unfinished g colour).card := by
  have herase : unfinished g (Function.update (Function.update colour v .grey) v .black) =
      (unfinished g colour).erase v := by
    ext w
    rw [Function.update_idem, Finset.mem_erase, mem_unfinished, mem_unfinished]
    obtain rfl | hwv := eq_or_ne w v
    · simp
    · simp [hwv]
  rw [herase]
  exact Finset.card_erase_add_one (mem_unfinished.mpr ⟨hname, hv⟩)

theorem idxOf?_eq_some_idxOf {path : List α} (h : target ∈ path) :
    path.idxOf? target = some (path.idxOf target) := by
  obtain ⟨index, hindex⟩ := Option.isSome_iff_exists.mp (List.isSome_idxOf?.mpr h)
  rw [List.idxOf_eq_getD_idxOf?, hindex]
  rfl

/-- Each turn keeps the invariant or returns a cycle. -/
theorem turn_spec (h : Searching g due colour (v :: trail)) :
    (∃ colour' trail', turn g colour v (v :: trail).reverse (entries trail) =
        .next { colour := colour', stack := entries trail' } ∧
      Searching g due colour' trail' ∧ 2 * (unfinished g colour').card + (trail.length + 2) =
        2 * (unfinished g colour).card + trail'.length) ∨
      ∃ cycle, turn g colour v (v :: trail).reverse (entries trail) = .returned cycle ∧
        IsSimple g.Edge cycle := by
  have hv : colour v ≠ .black := h.notBlack v List.mem_cons_self
  cases hnext : unvisited g (Function.update colour v .grey) v with
  | nil =>
      refine .inl ⟨_, trail, ?_, h.blacken hnext, ?_⟩
      · simp only [turn, hnext]
      · have hcard := card_unfinished_black (h.names v List.mem_cons_self) hv
        omega
  | cons target rest =>
      have hmem : target ∈ unvisited g (Function.update colour v .grey) v := by
        rw [hnext]
        exact List.mem_cons_self
      obtain ⟨hedge, hblack⟩ := mem_unvisited.mp hmem
      by_cases hgrey : Function.update colour v .grey target = .grey
      · obtain ⟨htarget, hcycle⟩ := h.close hedge hgrey
        refine .inr ⟨_, ?_, hcycle⟩
        simp only [turn, hnext, hgrey, if_true, idxOf?_eq_some_idxOf htarget]
      · refine .inl ⟨Function.update colour v .grey, target :: v :: trail, ?_,
          h.push hedge hgrey hblack, ?_⟩
        · simp only [turn, hnext, hgrey, if_false, entries, List.reverse_cons]
        · rw [unfinished_grey hv]
          rfl

/-! ## The loops -/

/-- With a turn for every name that is not black, less those on the trail, and as many
again, the inner loop ends. -/
theorem searchStack_spec {fuel : ℕ} (h : Searching g due colour trail)
    (hfuel : 2 * (unfinished g colour).card ≤ fuel + trail.length) :
    (∃ colour', searchStack g fuel { colour := colour, stack := entries trail } =
        some (.emptied colour') ∧ Searching g due colour' []) ∨
      ∃ cycle, searchStack g fuel { colour := colour, stack := entries trail } =
        some (.returned cycle) ∧ IsSimple g.Edge cycle := by
  induction fuel generalizing colour trail with
  | zero =>
      have hlength := h.length_le
      obtain rfl : trail = [] := List.eq_nil_of_length_eq_zero (by omega)
      exact .inl ⟨colour, rfl, h⟩
  | succ fuel ih =>
      cases trail with
      | nil => exact .inl ⟨colour, rfl, h⟩
      | cons v trail =>
          rcases turn_spec h with ⟨colour', trail', hturn, h', hcard⟩ | ⟨cycle, hturn, hcycle⟩
          · have hrest := ih h' (by
              rw [List.length_cons] at hfuel
              omega)
            simpa only [entries, searchStack, hturn] using hrest
          · refine .inr ⟨cycle, ?_, hcycle⟩
            simp only [entries, searchStack, hturn]

theorem searchStack_mono {fuel more : ℕ} {s : Search α} {e : Ending α} (hle : fuel ≤ more)
    (h : searchStack g fuel s = some e) : searchStack g more s = some e := by
  induction fuel generalizing more s with
  | zero =>
      obtain ⟨colour, stack⟩ := s
      cases stack with
      | nil =>
          rw [← h]
          cases more <;> rfl
      | cons => cases h
  | succ fuel ih =>
      obtain ⟨more, rfl⟩ := Nat.exists_eq_add_of_le' (Nat.le_of_add_left_le hle)
      obtain ⟨colour, stack⟩ := s
      cases stack with
      | nil => exact h
      | cons entry below =>
          obtain ⟨node, path⟩ := entry
          rw [searchStack] at h ⊢
          cases hturn : turn g colour node path below with
          | next s =>
              rw [hturn] at h
              exact ih (Nat.le_of_succ_le_succ hle) h
          | returned cycle => rwa [hturn] at h
          | raised error => rwa [hturn] at h

theorem searchStarts_spec {starts : List α} (h : Searching g due colour [])
    (hstarts : ∀ v ∈ starts, v ∈ g.names) (hdue : ∀ v ∈ g.names, v ∈ due ∨ v ∈ starts) :
    (∀ fuel ≥ 2 * g.names.card, searchStarts g fuel starts colour = some (.ok none)) ∧
        Acyclic g.Edge ∨
      ∃ cycle, (∀ fuel ≥ 2 * g.names.card,
        searchStarts g fuel starts colour = some (.ok (some cycle))) ∧ IsSimple g.Edge cycle := by
  induction starts generalizing colour due with
  | nil =>
      refine .inl ⟨fun _ _ ↦ rfl, acyclic_of_acc fun v _ hedge ↦ ?_⟩
      have hv : v ∈ due := (hdue v hedge.1).resolve_right List.not_mem_nil
      exact h.finished v ((h.reached v hv).resolve_left List.not_mem_nil)
  | cons start starts ih =>
      obtain ⟨hstart, hstarts⟩ := List.forall_mem_cons.mp hstarts
      by_cases hwhite : colour start = .white
      · have hfirst := h.start hstart hwhite
        have hcard : (unfinished g colour).card ≤ g.names.card :=
          Finset.card_le_card (Finset.filter_subset _ _)
        have hfuel : 2 * (unfinished g colour).card ≤ 2 * g.names.card + [start].length := by
          omega
        rcases searchStack_spec hfirst hfuel with ⟨colour', hend, h'⟩ | ⟨cycle, hend, hcycle⟩
        · have hend' : ∀ fuel ≥ 2 * g.names.card, searchStarts g fuel (start :: starts) colour =
              searchStarts g fuel starts colour' := by
            intro fuel hle
            rw [searchStarts, if_neg (not_not.mpr hwhite)]
            rw [show [(start, [start])] = entries [start] from rfl, searchStack_mono hle hend]
          have hdue' : ∀ v ∈ g.names, v ∈ insert start due ∨ v ∈ starts := by
            intro v hv
            rcases hdue v hv with hmem | hmem
            · exact .inl (.inr hmem)
            · exact (List.mem_cons.mp hmem).imp_left .inl
          rcases ih h' hstarts hdue' with ⟨hnone, hacyclic⟩ | ⟨cycle, hsome, hcycle⟩
          · exact .inl ⟨fun fuel hle ↦ (hend' fuel hle).trans (hnone fuel hle), hacyclic⟩
          · exact .inr ⟨cycle, fun fuel hle ↦ (hend' fuel hle).trans (hsome fuel hle), hcycle⟩
        · refine .inr ⟨cycle, fun fuel hle ↦ ?_, hcycle⟩
          rw [searchStarts, if_neg (not_not.mpr hwhite)]
          rw [show [(start, [start])] = entries [start] from rfl, searchStack_mono hle hend]
      · -- no name is grey between two starts, so this one has been finished
        have hskip : ∀ fuel, searchStarts g fuel (start :: starts) colour =
            searchStarts g fuel starts colour := fun fuel ↦ by
          rw [searchStarts, if_pos hwhite]
        have hblack : colour start = .black := by
          cases hcolour : colour start with
          | white => exact absurd hcolour hwhite
          | grey => exact absurd (h.onTrail start hcolour) List.not_mem_nil
          | black => rfl
        have h' : Searching g (insert start due) colour [] :=
          { h with
            reached := by
              rintro v (rfl | hv)
              · exact .inr hblack
              · exact h.reached v hv }
        simp only [hskip]
        refine ih h' hstarts fun v hv ↦ ?_
        rcases hdue v hv with hmem | hmem
        · exact .inl (.inr hmem)
        · exact (List.mem_cons.mp hmem).imp_left .inl

end FindCycle

theorem Searching.initial {α : Type} [LinearOrder α] (g : Graph α) :
    Searching g ∅ (fun _ ↦ .white) [] := by
  constructor <;> simp

theorem findCycle_spec {α : Type} [LinearOrder α] (g : Graph α) :
    (∀ fuel ≥ 2 * g.names.card, findCycle g fuel = some (.ok none)) ∧ Acyclic g.Edge ∨
      ∃ cycle, (∀ fuel ≥ 2 * g.names.card, findCycle g fuel = some (.ok (some cycle))) ∧
        IsSimple g.Edge cycle := by
  have hstarts : ∀ v ∈ g.names.sort (· ≤ ·), v ∈ g.names := by simp
  exact searchStarts_spec (Searching.initial g) hstarts (by simp)

/-- The search ends, and finds nothing exactly when there is no cycle; what it finds is
a closed walk through distinct names. -/
theorem findCycle_correct {α : Type} [LinearOrder α] (g : Graph α) :
    ∃ found : Option (List α),
      (∀ fuel ≥ 2 * g.names.card, findCycle g fuel = some (.ok found)) ∧
      (found = none ↔ Acyclic g.Edge) ∧ ∀ cycle ∈ found, IsSimple g.Edge cycle := by
  rcases findCycle_spec g with ⟨hnone, hacyclic⟩ | ⟨cycle, hsome, hcycle⟩
  · exact ⟨none, hnone, by simpa using hacyclic, by simp⟩
  · exact ⟨some cycle, hsome, by simpa using hcycle.not_acyclic, by simpa using hcycle⟩

/-! ## The gate -/

theorem cycleViolations_of_isSimple {r : String → String → Prop} {cycle : List String}
    (h : IsSimple r cycle) (directory : String → String) :
    ∃ violation, cycleViolations directory (some cycle) = .ok [violation] := by
  obtain ⟨first, rest, rfl, _⟩ := h
  exact ⟨_, rfl⟩

/-- The gate passes exactly the kernels whose packages do not import each other in a cycle. -/
theorem kernelPackageCycleViolations_eq_nil_iff (packages : Finset String)
    (directory : String → String) (imported : String → List String) :
    ∃ violations,
      (∀ fuel ≥ 2 * packages.card,
        kernelPackageCycleViolations packages directory imported fuel = some (.ok violations)) ∧
      (violations = [] ↔ Acyclic (packageEdges packages imported).Edge) := by
  rcases findCycle_spec (packageEdges packages imported) with
    ⟨hnone, hacyclic⟩ | ⟨cycle, hsome, hcycle⟩
  · refine ⟨[], fun fuel hle ↦ ?_, by simpa using hacyclic⟩
    rw [kernelPackageCycleViolations, hnone fuel hle]
    rfl
  · obtain ⟨violation, hviolation⟩ := cycleViolations_of_isSimple hcycle directory
    refine ⟨[violation], fun fuel hle ↦ ?_, by simpa using hcycle.not_acyclic⟩
    rw [kernelPackageCycleViolations, hsome fuel hle]
    exact congrArg some hviolation

end ChipEvolve.Guardrails
