import ExactCover.AlgorithmX
import ExactCover.Proofs.ForcedRows

/-! # What the search without links finds

A list of rows fills some columns when its rows set these columns only, and every one of them
exactly once. The covers at the leaves of a search tree are the lists that fill the live columns,
each once up to the order of its rows.
-/

namespace ExactCover

namespace IncidenceMatrix

variable {matrix : IncidenceMatrix} {live chosen rest rows covered : List Nat} {row column : Nat}

/-- The rows set a column each, only columns of the list, and each of these exactly once. -/
structure Fills (matrix : IncidenceMatrix) (live chosen : List Nat) : Prop where
  inside : ∀ row ∈ chosen, matrix.rowAt row ≠ [] ∧ matrix.rowAt row ⊆ live
  once : ∀ column ∈ live, chosen.countP (matrix.get · column) = 1

theorem Fills.perm (h : matrix.Fills live chosen) (same : chosen.Perm rows) :
    matrix.Fills live rows where
  inside := fun row member => h.inside row (same.mem_iff.mpr member)
  once := fun column member => (same.countP_eq _).symm.trans (h.once column member)

/-- A row of the list fills its own columns, and the others the rest. -/
theorem fills_cons_iff (proper : matrix.rowAt row ≠ []) (within : matrix.rowAt row ⊆ live) :
    matrix.Fills live (row :: rest) ↔
      matrix.Fills (AlgorithmX.without matrix live row) rest := by
  constructor
  · intro h
    refine ⟨fun other member => ⟨(h.inside other (List.mem_cons_of_mem row member)).1, ?_⟩, ?_⟩
    · intro column sets
      have alive := (h.inside other (List.mem_cons_of_mem row member)).2 sets
      have met : 0 < rest.countP (matrix.get · column) :=
        List.countP_pos_iff.mpr ⟨other, member, mem_rowAt.mp sets⟩
      refine List.mem_filter.mpr ⟨alive, ?_⟩
      have total := h.once column alive
      rw [List.countP_cons] at total
      cases own : matrix.get row column with
      | false => rfl
      | true =>
          rw [own, if_pos rfl] at total
          omega
    · intro column member
      obtain ⟨alive, unset⟩ := List.mem_filter.mp member
      have total := h.once column alive
      rw [List.countP_cons] at total
      simp_all
  · intro h
    refine ⟨?_, ?_⟩
    · intro other member
      rcases List.mem_cons.mp member with rfl | member
      · exact ⟨proper, within⟩
      · have inside := h.inside other member
        exact ⟨inside.1, fun column sets => List.mem_of_mem_filter (inside.2 sets)⟩
    · intro column alive
      rw [List.countP_cons]
      cases own : matrix.get row column with
      | false =>
          have remains : column ∈ AlgorithmX.without matrix live row :=
            List.mem_filter.mpr ⟨alive, by simp [own]⟩
          simp [h.once column remains]
      | true =>
          have none : rest.countP (matrix.get · column) = 0 := by
            refine List.countP_eq_zero.mpr fun other member sets => ?_
            have left := (h.inside other member).2 (mem_rowAt.mpr sets)
            simp [AlgorithmX.without, own] at left
          simp [none]

theorem fills_nil_iff : matrix.Fills [] chosen ↔ chosen = [] := by
  constructor
  · intro h
    refine List.eq_nil_iff_forall_not_mem.mpr fun row member => ?_
    exact (h.inside row member).1 (List.subset_nil.mp (h.inside row member).2)
  · rintro rfl
    exact ⟨by simp, by simp⟩

theorem Fills.nodup (h : matrix.Fills live chosen) : chosen.Nodup := by
  refine List.nodup_iff_count_le_one.mpr fun row => ?_
  by_cases member : row ∈ chosen
  · obtain ⟨proper, within⟩ := h.inside row member
    obtain ⟨column, sets⟩ := List.exists_mem_of_ne_nil _ proper
    have total := h.once column (within sets)
    have fewer : chosen.count row ≤ chosen.countP (matrix.get · column) := by
      refine List.countP_mono_left fun other _ same => ?_
      rw [eq_of_beq same]
      exact mem_rowAt.mp sets
    omega
  · simp [List.count_eq_zero_of_not_mem member]

end IncidenceMatrix

namespace AlgorithmX

open IncidenceMatrix

variable {matrix : IncidenceMatrix} {live chosen : List Nat} {row column : Nat}

theorem mem_openRows : row ∈ openRows matrix live column ↔
    matrix.get row column = true ∧ matrix.rowAt row ⊆ live := by
  simp only [openRows, List.mem_filter, List.mem_range, isOpen]
  cases found : matrix.row? row with
  | none => simp [get_eq, found]
  | some columns =>
      have inside : row < matrix.size := (Array.getElem?_eq_some_iff.mp found).1
      simp [get_eq, rowAt, found, inside, List.subset_def]

theorem pick_eq_none_iff {columns : List Nat} :
    pick matrix live columns = none ↔ columns = [] := by
  cases columns with
  | nil => simp [pick]
  | cons first rest =>
      simp only [pick, reduceCtorEq, iff_false]
      split
      · simp
      · split <;> simp

/-- The column picked has the fewest open rows, and every earlier column has more. -/
theorem pick_least {columns : List Nat} (h : pick matrix live columns = some column) :
    ∃ left right, columns = left ++ column :: right ∧
      (∀ j ∈ left, (openRows matrix live column).length < (openRows matrix live j).length) ∧
      ∀ j ∈ right, (openRows matrix live column).length ≤ (openRows matrix live j).length := by
  induction columns generalizing column with
  | nil => simp [pick] at h
  | cons first rest ih =>
      simp only [pick] at h
      cases found : pick matrix live rest with
      | none =>
          rw [found] at h
          obtain rfl := Option.some.inj h
          rw [pick_eq_none_iff.mp found]
          exact ⟨[], [], rfl, by simp, by simp⟩
      | some best =>
          obtain ⟨left, right, split, before, after⟩ := ih found
          rw [found] at h
          simp only at h
          by_cases fewer : (openRows matrix live best).length < (openRows matrix live first).length
          · rw [if_pos fewer] at h
            obtain rfl := Option.some.inj h
            refine ⟨first :: left, right, by rw [split]; rfl, ?_, after⟩
            intro j member
            rcases List.mem_cons.mp member with rfl | member
            · exact fewer
            · exact before j member
          · rw [if_neg fewer] at h
            obtain rfl := Option.some.inj h
            refine ⟨[], rest, rfl, by simp, fun j member => ?_⟩
            have least : (openRows matrix live best).length ≤ (openRows matrix live j).length := by
              rw [split] at member
              rcases List.mem_append.mp member with member | member
              · exact (before j member).le
              · rcases List.mem_cons.mp member with rfl | member
                · exact Nat.le_refl _
                · exact after j member
            omega

theorem tree_of_none (h : pick matrix live live = none) : tree matrix live = .solved := by
  rw [tree]
  split <;> simp_all

theorem tree_of_some (h : pick matrix live live = some column) : tree matrix live =
    .branch column ((openRows matrix live column).map fun row =>
      (row, tree matrix (without matrix live row))) := by
  rw [tree]
  split <;> simp_all

theorem coversOf_eq (options : List (Nat × SearchTree)) : SearchTree.coversOf options =
    options.flatMap fun option => option.2.covers.map (option.1 :: ·) := by
  induction options with
  | nil => rfl
  | cons option rest ih => rw [SearchTree.coversOf, ih, List.flatMap_cons]

theorem covers_tree_none (h : pick matrix live live = none) : (tree matrix live).covers = [[]] := by
  rw [tree_of_none h]
  rfl

theorem covers_tree_some (h : pick matrix live live = some column) : (tree matrix live).covers =
    (openRows matrix live column).flatMap fun row =>
      (tree matrix (without matrix live row)).covers.map (row :: ·) := by
  rw [tree_of_some h, SearchTree.covers, coversOf_eq, List.flatMap_map]

theorem mem_without {j : Nat} :
    j ∈ without matrix live row ↔ j ∈ live ∧ matrix.get row j = false := by
  simp [without]

/-- The rows of a leaf fill the live columns. -/
theorem fills_of_mem_covers (found : chosen ∈ (tree matrix live).covers) :
    matrix.Fills live chosen := by
  induction size : live.length using Nat.strong_induction_on generalizing live chosen with
  | _ size ih =>
      cases picked : pick matrix live live with
      | none =>
          rw [covers_tree_none picked, List.mem_singleton] at found
          rw [pick_eq_none_iff.mp picked]
          exact fills_nil_iff.mpr found
      | some column =>
          rw [covers_tree_some picked, List.mem_flatMap] at found
          obtain ⟨row, opened, found⟩ := found
          obtain ⟨rest, leaf, rfl⟩ := List.mem_map.mp found
          obtain ⟨sets, within⟩ := mem_openRows.mp opened
          have shorter := length_without_lt (pick_mem picked) opened
          refine (fills_cons_iff (List.ne_nil_of_mem (mem_rowAt.mpr sets)) within).mpr ?_
          exact ih _ (size ▸ shorter) leaf rfl

/-- Whatever fills the live columns is at a leaf, in some order. -/
theorem exists_mem_covers (h : matrix.Fills live chosen) :
    ∃ rows ∈ (tree matrix live).covers, rows.Perm chosen := by
  induction size : live.length using Nat.strong_induction_on generalizing live chosen with
  | _ size ih =>
      cases picked : pick matrix live live with
      | none =>
          rw [pick_eq_none_iff.mp picked] at h
          rw [fills_nil_iff.mp h, covers_tree_none picked]
          exact ⟨[], List.mem_singleton_self _, List.Perm.refl _⟩
      | some column =>
          have alive := pick_mem picked
          have met : 0 < chosen.countP (matrix.get · column) := by
            rw [h.once column alive]
            exact Nat.one_pos
          obtain ⟨row, member, sets⟩ := List.countP_pos_iff.mp met
          have order := List.perm_cons_erase member
          have within := (h.inside row member).2
          have opened : row ∈ openRows matrix live column := mem_openRows.mpr ⟨sets, within⟩
          have rest := (fills_cons_iff (h.inside row member).1 within).mp (h.perm order)
          obtain ⟨rows, found, same⟩ :=
            ih _ (size ▸ length_without_lt alive opened) rest rfl
          refine ⟨row :: rows, ?_, (same.cons row).trans order.symm⟩
          rw [covers_tree_some picked]
          exact List.mem_flatMap.mpr ⟨row, opened, List.mem_map.mpr ⟨rows, found, rfl⟩⟩

/-- No two leaves hold the same rows. -/
theorem pairwise_covers (matrix : IncidenceMatrix) (live : List Nat) :
    (tree matrix live).covers.Pairwise fun a b => ¬ a.Perm b := by
  induction size : live.length using Nat.strong_induction_on generalizing live with
  | _ size ih =>
      cases picked : pick matrix live live with
      | none => simp [covers_tree_none picked]
      | some column =>
          have alive := pick_mem picked
          rw [covers_tree_some picked, List.pairwise_flatMap]
          constructor
          · intro row opened
            have below := ih _ (size ▸ length_without_lt alive opened) _ rfl
            exact List.pairwise_map.mpr (below.imp fun differs same => differs same.cons_inv)
          · -- Two rows of one column never stand in one cover.
            have distinct : (openRows matrix live column).Nodup := List.nodup_range.filter _
            refine distinct.imp_of_mem fun {row other} opened opened' differs a ha b hb same => ?_
            obtain ⟨rest, found, rfl⟩ := List.mem_map.mp ha
            obtain ⟨rest', found', rfl⟩ := List.mem_map.mp hb
            have member : other ∈ rest := by
              have listed := same.mem_iff.mpr List.mem_cons_self
              exact (List.mem_cons.mp listed).resolve_left (Ne.symm differs)
            have sets := (mem_openRows.mp opened').1
            have left := ((fills_of_mem_covers found).inside other member).2 (mem_rowAt.mpr sets)
            have own := (mem_openRows.mp opened).1
            exact Bool.noConfusion (own.symm.trans (mem_without.mp left).2)

theorem without_liveColumns (covered : List Nat) (row : Nat) :
    without matrix (matrix.liveColumns covered) row =
      matrix.liveColumns (covered ++ matrix.rowAt row) := by
  simp only [without, liveColumns, List.filter_filter]
  refine List.filter_congr fun j _ => ?_
  have sets : j ∈ matrix.rowAt row ↔ matrix.get row j = true := mem_rowAt
  cases own : matrix.get row j <;> simp_all

end AlgorithmX

namespace IncidenceMatrix

open AlgorithmX

variable {matrix : IncidenceMatrix} {chosen rest rows covered forced : List Nat}

theorem isExactCover_iff :
    matrix.IsExactCover chosen ↔ matrix.Fills (List.range matrix.columns) chosen := by
  constructor
  · intro h
    refine ⟨fun row member => ?_, fun column below => ?_⟩
    · obtain ⟨columns, found, sets⟩ := h.proper row member
      have same : matrix.rowAt row = columns := by rw [rowAt, found, Option.getD_some]
      refine ⟨same ▸ sets, fun column here => ?_⟩
      exact List.mem_range.mpr (get_inside (mem_rowAt.mp here)).2
    · obtain ⟨row, member, sets, unique⟩ := h.covered column (List.mem_range.mp below)
      have order := List.perm_cons_erase member
      have absent := (List.nodup_cons.mp (order.nodup_iff.mp h.nodup)).1
      have none : (chosen.erase row).countP (matrix.get · column) = 0 :=
        List.countP_eq_zero.mpr fun other left also =>
          absent (unique other (List.mem_of_mem_erase left) also ▸ left)
      rw [order.countP_eq, List.countP_cons, none, if_pos sets]
  · intro h
    refine ⟨h.nodup, fun row member => ?_, fun column below => ?_⟩
    · have proper := (h.inside row member).1
      cases found : matrix.row? row with
      | none => simp [rowAt, found] at proper
      | some columns => exact ⟨columns, rfl, by simpa [rowAt, found] using proper⟩
    · have total := h.once column (List.mem_range.mpr below)
      obtain ⟨row, member, sets⟩ :=
        List.countP_pos_iff.mp (total.symm ▸ Nat.one_pos : 0 < chosen.countP _)
      refine ⟨row, member, sets, fun other listed also => ?_⟩
      by_contra differs
      have order := List.perm_cons_erase member
      have left : other ∈ chosen.erase row := (List.mem_erase_of_ne differs).mpr listed
      have more : 0 < (chosen.erase row).countP (matrix.get · column) :=
        List.countP_pos_iff.mpr ⟨other, left, also⟩
      rw [order.countP_eq, List.countP_cons, if_pos sets] at total
      omega

theorem IsExactCover.perm (h : matrix.IsExactCover chosen) (same : chosen.Perm rows) :
    matrix.IsExactCover rows :=
  isExactCover_iff.mpr ((isExactCover_iff.mp h).perm same)

/-- Rows that are compatible with each other and with what is covered fill their columns, and the
    others of a cover fill what then remains live. -/
theorem fills_append_iff (compatible : matrix.Compatible rows)
    (apart : ∀ row ∈ rows, ∀ column ∈ matrix.rowAt row, column ∉ covered)
    (proper : ∀ row ∈ rows, matrix.rowAt row ≠ []) :
    matrix.Fills (matrix.liveColumns covered) (rows ++ rest) ↔
      matrix.Fills (matrix.liveColumns (covered ++ rows.flatMap matrix.rowAt)) rest := by
  induction rows generalizing covered with
  | nil => simp
  | cons row rows ih =>
      obtain ⟨first, compatible⟩ := List.pairwise_cons.mp compatible
      have within : matrix.rowAt row ⊆ matrix.liveColumns covered := fun column sets =>
        mem_liveColumns.mpr ⟨(get_inside (mem_rowAt.mp sets)).2,
          apart row List.mem_cons_self column sets⟩
      have apart' : ∀ other ∈ rows, ∀ column ∈ matrix.rowAt other,
          column ∉ covered ++ matrix.rowAt row := by
        intro other member column sets known
        rcases List.mem_append.mp known with known | known
        · exact apart other (List.mem_cons_of_mem row member) column sets known
        · exact first other member column known sets
      rw [List.cons_append, fills_cons_iff (proper row List.mem_cons_self) within,
        without_liveColumns, ih compatible apart'
          fun other member => proper other (List.mem_cons_of_mem row member),
        List.flatMap_cons, List.append_assoc]

theorem Fills.compatible {live : List Nat} (h : matrix.Fills live (rows ++ rest)) :
    matrix.Compatible rows := by
  induction rows generalizing live with
  | nil => exact List.Pairwise.nil
  | cons row rows ih =>
      obtain ⟨proper, within⟩ := h.inside row List.mem_cons_self
      have below := (fills_cons_iff proper within).mp h
      refine List.pairwise_cons.mpr ⟨fun other member column own sets => ?_, ih below⟩
      have left := (below.inside other (List.mem_append_left rest member)).2 sets
      exact Bool.noConfusion ((mem_rowAt.mp own).symm.trans (mem_without.mp left).2)

/-- The exact covers that have the forced rows, in the order of the search without links. -/
def coversWith (matrix : IncidenceMatrix) (forced : List Nat) : List (List Nat) :=
  if matrix.Compatible (matrix.forcedRows forced) then
    (tree matrix (matrix.liveColumns ((matrix.forcedRows forced).flatMap matrix.rowAt))).covers.map
      (matrix.forcedRows forced ++ ·)
  else []

theorem fills_forcedRows_iff (compatible : matrix.Compatible (matrix.forcedRows forced)) :
    matrix.IsExactCover (matrix.forcedRows forced ++ rest) ↔
      matrix.Fills (matrix.liveColumns ((matrix.forcedRows forced).flatMap matrix.rowAt)) rest := by
  have all : matrix.liveColumns [] = List.range matrix.columns := by simp [liveColumns]
  rw [isExactCover_iff, ← all]
  exact fills_append_iff compatible (by simp) fun row member => (mem_forcedRows.mp member).2

theorem isExactCover_of_mem (found : rows ∈ matrix.coversWith forced) :
    matrix.IsExactCover rows ∧ matrix.forcedRows forced ⊆ rows := by
  unfold coversWith at found
  split at found
  · rename_i compatible
    obtain ⟨rest, leaf, rfl⟩ := List.mem_map.mp found
    exact ⟨(fills_forcedRows_iff compatible).mpr (fills_of_mem_covers leaf),
      List.subset_append_left _ _⟩
  · exact absurd found List.not_mem_nil

theorem exists_mem_coversWith (h : matrix.IsExactCover chosen)
    (has : matrix.forcedRows forced ⊆ chosen) :
    ∃ rows ∈ matrix.coversWith forced, rows.Perm chosen := by
  have distinct : (matrix.forcedRows forced).Nodup := List.nodup_range.filter _
  have order : (matrix.forcedRows forced ++ chosen.diff (matrix.forcedRows forced)).Perm chosen :=
    List.subperm_append_diff_self_of_count_le
      (List.subperm_ext_iff.mp (List.subperm_of_subset distinct has))
  have fills := (isExactCover_iff.mp h).perm order.symm
  have compatible := fills.compatible
  obtain ⟨rest, leaf, same⟩ := exists_mem_covers
    ((fills_forcedRows_iff compatible).mp (isExactCover_iff.mpr fills))
  refine ⟨_, ?_, (same.append_left _).trans order⟩
  rw [coversWith, if_pos compatible]
  exact List.mem_map.mpr ⟨rest, leaf, rfl⟩

theorem pairwise_coversWith (matrix : IncidenceMatrix) (forced : List Nat) :
    (matrix.coversWith forced).Pairwise fun a b => ¬ a.Perm b := by
  unfold coversWith
  split
  · refine List.pairwise_map.mpr ((pairwise_covers matrix _).imp fun differs same => ?_)
    exact differs ((List.perm_append_left_iff _).mp same)
  · exact List.Pairwise.nil

/-- Every exact cover that has the forced rows is found at exactly one place. -/
theorem existsUnique_coversWith (h : matrix.IsExactCover chosen)
    (has : matrix.forcedRows forced ⊆ chosen) :
    ∃! i : Fin (matrix.coversWith forced).length,
      ∀ row, row ∈ (matrix.coversWith forced)[i] ↔ row ∈ chosen := by
  obtain ⟨rows, found, same⟩ := exists_mem_coversWith h has
  obtain ⟨i, below, rfl⟩ := List.mem_iff_getElem.mp found
  refine ⟨⟨i, below⟩, fun row => same.mem_iff, fun j members => ?_⟩
  have distinct := (isExactCover_of_mem (List.getElem_mem j.isLt)).1.nodup
  have other : ((matrix.coversWith forced)[j]).Perm (matrix.coversWith forced)[i] :=
    ((List.perm_ext_iff_of_nodup distinct h.nodup).mpr members).trans same.symm
  have apart := List.pairwise_iff_getElem.mp (pairwise_coversWith matrix forced)
  rcases Nat.lt_trichotomy j i with less | equal | more
  · exact absurd other (apart j i j.isLt below less)
  · exact Fin.ext equal
  · exact absurd other.symm (apart i j below j.isLt more)

/-- Without columns the only exact cover has no rows. -/
theorem coversWith_of_columns_eq_zero (none : matrix.columns = 0) :
    matrix.coversWith forced = [[]] := by
  have empty : matrix.forcedRows forced = [] := by
    refine List.eq_nil_iff_forall_not_mem.mpr fun row member => ?_
    obtain ⟨column, sets⟩ := List.exists_mem_of_ne_nil _ (mem_forcedRows.mp member).2
    have inside := (get_inside (mem_rowAt.mp sets)).2
    omega
  have live : matrix.liveColumns [] = [] := by
    simp [liveColumns, none]
  have leaf : pick matrix [] [] = .none := rfl
  have compatible : matrix.Compatible [] := List.Pairwise.nil
  rw [coversWith, empty, if_pos compatible, List.flatMap_nil, live, covers_tree_none leaf]
  rfl

end IncidenceMatrix

end ExactCover
