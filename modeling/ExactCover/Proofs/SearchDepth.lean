import ExactCover.Proofs.Counters

/-! # How deep a search goes

When every row sets exactly one of some marked columns, each row that is tried takes one of the live
marked columns. A search then never has more columns open than there are live marked columns at its
start, and just as many at every leaf that is solved.
-/

namespace ExactCover

namespace SearchTree

variable {visit : Visit} {places : List Visit} {bound : Nat}

theorem visitsOf_eq (depth : Nat) (options : List (Nat × SearchTree)) :
    visitsOf depth options = options.flatMap fun option => option.2.visits depth := by
  induction options with
  | nil => rfl
  | cons option rest ih => rw [visitsOf, ih, List.flatMap_cons]

/-! ### Counters of places -/

theorem opening_le_deepest (member : visit ∈ places) : visit.opening ≤ deepest places := by
  induction places with
  | nil => cases member
  | cons first rest ih =>
      have split : deepest (first :: rest) = max first.opening (deepest rest) := rfl
      rw [split]
      rcases List.mem_cons.mp member with rfl | later
      · exact Nat.le_max_left _ _
      · exact (ih later).trans (Nat.le_max_right _ _)

theorem deepest_le (each : ∀ visit ∈ places, visit.opening ≤ bound) : deepest places ≤ bound := by
  induction places with
  | nil => exact Nat.zero_le bound
  | cons first rest ih =>
      obtain ⟨here, later⟩ := List.forall_mem_cons.mp each
      exact Nat.max_le.mpr ⟨here, ih later⟩

/-- No place is both a cover and a dead end. -/
theorem countP_deadEnd_add_solved_le (places : List Visit) :
    places.countP Visit.isDeadEnd + places.countP Visit.isSolved ≤ places.length := by
  induction places with
  | nil => exact Nat.le_refl 0
  | cons visit rest ih =>
      have one : (if visit.isDeadEnd then 1 else 0) + (if visit.isSolved then 1 else 0) ≤ 1 := by
        cases visit <;> simp [Visit.isDeadEnd, Visit.isSolved]
      rw [List.countP_cons, List.countP_cons, List.length_cons]
      omega

/-! ### The way down -/

mutual

/-- A search comes to a leaf that is solved after it has opened as many columns as are open
    there. -/
theorem opened_of_solved (depth count d : Nat) : ∀ tree : SearchTree,
    .solved d ∈ (tree.visits depth).take count →
      d = depth ∨ .opened d ∈ (tree.visits depth).take count
  | .solved => by
      intro member
      left
      simpa [visits] using List.mem_of_mem_take member
  | .branch _ [] => by
      intro member
      have only := List.mem_of_mem_take member
      simp [visits] at only
  | .branch _ (first :: rest) => by
      intro member
      cases count with
      | zero => cases member
      | succ count =>
          rw [visits, List.take_succ_cons] at member ⊢
          rcases List.mem_cons.mp member with same | later
          · cases same
          · rcases opened_of_solved_below (depth + 1) count d (first :: rest) later with
              here | opened
            · exact .inr (here ▸ List.mem_cons_self)
            · exact .inr (List.mem_cons_of_mem _ opened)

theorem opened_of_solved_below (depth count d : Nat) : ∀ options : List (Nat × SearchTree),
    .solved d ∈ (visitsOf depth options).take count →
      d = depth ∨ .opened d ∈ (visitsOf depth options).take count
  | [] => by
      intro member
      rw [visitsOf, List.take_nil] at member
      cases member
  | (_, below) :: rest => by
      intro member
      rw [visitsOf, List.take_append, List.mem_append] at member ⊢
      rcases member with first | later
      · exact (opened_of_solved depth count d below first).imp_right .inl
      · exact (opened_of_solved_below depth _ d rest later).imp_right .inr

end

end SearchTree

open SearchTree IncidenceMatrix AlgorithmX

variable {matrix : IncidenceMatrix} {mark : Nat → Bool} {live : List Nat} {row column : Nat}

/-- Every row that sets a column sets exactly one of the marked ones. -/
def IncidenceMatrix.MarkedOnce (matrix : IncidenceMatrix) (mark : Nat → Bool) : Prop :=
  ∀ row, matrix.rowAt row ≠ [] → (matrix.rowAt row).countP mark = 1

theorem IncidenceMatrix.nodup_liveColumns (matrix : IncidenceMatrix) (covered : List Nat) :
    (matrix.liveColumns covered).Nodup :=
  List.nodup_range.filter _

/-- The place lies no deeper than the bottom, and at the bottom when it is solved. -/
def SearchTree.Visit.Above (bottom : Nat) : Visit → Prop
  | .solved depth => depth = bottom
  | .deadEnd depth => depth ≤ bottom
  | .opened depth => depth ≤ bottom

theorem SearchTree.Visit.Above.opening_le {bottom : Nat} {visit : Visit} (h : visit.Above bottom) :
    visit.opening ≤ bottom := by
  cases visit with
  | solved depth => exact Nat.zero_le bottom
  | deadEnd depth => exact Nat.zero_le bottom
  | opened depth => exact h

namespace AlgorithmX

/-- A row that is tried takes one of the live marked columns. -/
theorem countP_without (once : matrix.MarkedOnce mark) (distinct : live.Nodup)
    (opened : row ∈ openRows matrix live column) :
    live.countP mark = (without matrix live row).countP mark + 1 := by
  obtain ⟨sets, within⟩ := mem_openRows.mp opened
  have taken : (live.filter (matrix.get row ·)).Perm (matrix.rowAt row) := by
    apply (List.perm_ext_iff_of_nodup (distinct.filter _) (nodup_rowAt row)).mpr
    intro j
    rw [List.mem_filter, mem_rowAt]
    exact and_iff_right_of_imp fun own => within (mem_rowAt.mpr own)
  have one := once row (List.ne_nil_of_mem (mem_rowAt.mpr sets))
  rw [List.countP_eq_countP_filter_add live mark (matrix.get row ·), taken.countP_eq, one,
    Nat.add_comm]
  rfl

/-- A search has at most as many columns open as there are live marked columns, and as many at the
    leaves that are solved. -/
theorem above_of_mem_visits (once : matrix.MarkedOnce mark) (distinct : live.Nodup) (depth : Nat)
    {visit : Visit} (member : visit ∈ (tree matrix live).visits depth) :
    visit.Above (depth + live.countP mark) := by
  induction size : live.length using Nat.strong_induction_on generalizing live depth with
  | _ size ih =>
      cases picked : pick matrix live live with
      | none =>
          rw [tree_of_none picked] at member
          rw [pick_eq_none_iff.mp picked, List.mem_singleton.mp member]
          rfl
      | some column =>
          cases found : openRows matrix live column with
          | nil =>
              rw [tree_of_some picked, found] at member
              rw [List.mem_singleton.mp member]
              exact Nat.le_add_right depth _
          | cons first rest =>
              have opened : first ∈ openRows matrix live column := found ▸ List.mem_cons_self
              have split : (tree matrix live).visits depth = .opened (depth + 1) ::
                  visitsOf (depth + 1) ((openRows matrix live column).map fun row =>
                    (row, tree matrix (without matrix live row))) := by
                rw [tree_of_some picked, found]
                rfl
              rw [split, visitsOf_eq] at member
              rcases List.mem_cons.mp member with rfl | below
              · have taken := countP_without once distinct opened
                change depth + 1 ≤ depth + live.countP mark
                omega
              · obtain ⟨option, listed, below⟩ := List.mem_flatMap.mp below
                obtain ⟨row, opened, rfl⟩ := List.mem_map.mp listed
                have shorter := size ▸ length_without_lt (pick_mem picked) opened
                have deeper := ih _ shorter (distinct.filter _) (depth + 1) below rfl
                have same : depth + 1 + (without matrix live row).countP mark =
                    depth + live.countP mark := by
                  rw [countP_without once distinct opened]
                  omega
                exact same ▸ deeper

theorem deepest_take_le (once : matrix.MarkedOnce mark) (distinct : live.Nodup) (count : Nat) :
    deepest (((tree matrix live).visits 0).take count) ≤ live.countP mark := by
  apply deepest_le
  intro visit member
  have above := above_of_mem_visits once distinct 0 (List.mem_of_mem_take member)
  rw [Nat.zero_add] at above
  exact above.opening_le

/-- A search that has come to a cover has been as deep as there are live marked columns. -/
theorem deepest_take_eq (once : matrix.MarkedOnce mark) (distinct : live.Nodup) {count : Nat}
    (solved : 0 < (((tree matrix live).visits 0).take count).countP Visit.isSolved) :
    deepest (((tree matrix live).visits 0).take count) = live.countP mark := by
  apply Nat.le_antisymm (deepest_take_le once distinct count)
  obtain ⟨visit, member, leaf⟩ := List.countP_pos_iff.mp solved
  cases visit with
  | deadEnd depth => cases leaf
  | opened depth => cases leaf
  | solved depth =>
      have bottom : depth = 0 + live.countP mark :=
        above_of_mem_visits once distinct 0 (List.mem_of_mem_take member)
      rw [Nat.zero_add] at bottom
      subst bottom
      rcases opened_of_solved 0 count _ (tree matrix live) member with none | opened
      · rw [none]
        exact Nat.zero_le _
      · exact opening_le_deepest opened

end AlgorithmX

end ExactCover
