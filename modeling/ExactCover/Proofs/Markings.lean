import ExactCover.Proofs.JoinedSortings
import Mathlib.Algebra.Order.BigOperators.Group.List

/-! # Thirteen ways on from a box

The rows of a box have to be set apart from those of the two boxes to the right, and its columns
from those of the two boxes below. Marks on its places tell how: a digit goes on to the next line
where there is a mark, and to the one after that where there is none. Of thirteen choices of marks,
at least seven leave in one corner of the grid what any two sortings join, and at least seven do so
in the opposite corner. So there is a choice that serves both corners.
-/

namespace ExactCover

namespace Sorting

variable {α : Type}

/-- One line on where there is a mark, and two lines on where there is none. -/
def turn (f : Sorting α) (marks : α → Bool) : Sorting α :=
  fun a => f a + bif marks a then 1 else 2

theorem apart_turn (f : Sorting α) (marks : α → Bool) :
    Apart f (turn f marks) (turn f fun a => !marks a) := by
  have lines : ∀ (line : Fin 3) (mark : Bool),
      line ≠ line + (bif mark then 1 else 2) ∧ line ≠ line + (bif !mark then 1 else 2) ∧
        line + (bif mark then 1 else 2) ≠ line + (bif !mark then 1 else 2) := by
    decide
  exact fun a => lines (f a) (marks a)

/-- Marks on the places of a box, for its rows and for its columns. -/
structure Marking where
  rows : Spot → Bool
  columns : Spot → Bool

namespace Marking

variable (marking : Marking)

/-- The rows of the box to the right. -/
def right : Sorting Spot := turn Prod.fst marking.rows

/-- The rows of the box at the far right. -/
def farRight : Sorting Spot := turn Prod.fst fun spot => !marking.rows spot

/-- The columns of the box below. -/
def below : Sorting Spot := turn Prod.snd marking.columns

/-- The columns of the box at the far end below. -/
def farBelow : Sorting Spot := turn Prod.snd fun spot => !marking.columns spot

/-- Marks on a diagonal, or on a column when it does not slope. -/
def diagonal (slope start : Fin 3) (spot : Spot) : Bool :=
  decide (slope * spot.1 + spot.2 = start)

/-- Marks on or off a diagonal, in the same places for rows and columns or in opposite places. -/
def alongDiagonal (start : Fin 3) : List Marking :=
  [⟨diagonal 1 start, diagonal 1 start⟩,
    ⟨fun spot => !diagonal 1 start spot, fun spot => !diagonal 1 start spot⟩,
    ⟨diagonal 2 start, fun spot => !diagonal 2 start spot⟩,
    ⟨fun spot => !diagonal 2 start spot, diagonal 2 start⟩]

/-- The thirteen choices. -/
def all : List Marking :=
  ⟨diagonal 0 0, fun _ => false⟩ :: (List.finRange 3).flatMap alongDiagonal

theorem crosses_of_mem_all : ∀ marking ∈ all,
    marking.right.Crosses marking.farBelow ∧ marking.below.Crosses marking.farRight := by
  decide +kernel

end Marking

/-! ### What a choice costs -/

/-- What stands in the way of joining two sortings on the side of one of them: it costs two to share
    a line with the near one, and one to cross the far one. -/
def cost (f near far : Sorting Spot) : Nat :=
  if f.Shares near then 2 else if f.Crosses far then 1 else 0

variable {f g near far : Sorting Spot}

theorem joined_of_cost_lt (crosses : near.Crosses far) (even : f.Even) (even' : g.Even)
    (cheap : cost f near far + cost g far near < 2) : Joined near far f g := by
  rcases joined_or (by decide) crosses even even' with joined | shared | shared | both
  · exact joined
  · rw [cost, if_pos shared] at cheap
    omega
  · rw [cost.eq_def g, if_pos shared] at cheap
    omega
  · have first : 1 ≤ cost f near far := by
      rw [cost, if_pos both.1]
      split <;> decide
    have second : 1 ≤ cost g far near := by
      rw [cost, if_pos both.2]
      split <;> decide
    omega

theorem cost_relabel (σ : Equiv.Perm (Fin 3)) : cost (σ ∘ f) near far = cost f near far := by
  simp only [cost, shares_relabel, crosses_relabel]

/-- The places of a line as a mask. -/
def lineMask (f : Sorting Spot) (line : Fin 3) : Nat :=
  (spots.filter fun spot => decide (f spot = line)).foldl
    (fun seen spot => seen ||| 1 <<< byRow spot) 0

/-- The masks of all lines as bits of one mask. -/
def linesMask (f : Sorting Spot) : Nat :=
  (List.finRange 3).foldl (fun seen line => seen ||| 1 <<< lineMask f line) 0

/-- The mask of a sorting that is not given by its rows of places. -/
def maskOf (f : Sorting Spot) : Nat :=
  mask byRow (rowNumber fun place => f (0, place)) (rowNumber fun place => f (1, place))
    (rowNumber fun place => f (2, place))

theorem shows_maskOf (f : Sorting Spot) : Shows (maskOf f) f := by
  have shown : Shows (maskOf f) (ofRows _ _ _) := shows_mask
  rwa [ofRows_rowNumber] at shown

theorem land_linesMask_ne_zero (h : f.Shares g) : linesMask f &&& linesMask g ≠ 0 := by
  obtain ⟨line, line', same⟩ := h
  have masks : lineMask f line = lineMask g line' := by
    simp only [lineMask, same]
  have bit : ∀ f line, (linesMask f).testBit (lineMask f line) = true := by
    intro f line
    rw [linesMask, testBit_foldl_or]
    exact .inr ⟨line, List.mem_finRange line, rfl⟩
  intro zero
  have both := Nat.testBit_and (linesMask f) (linesMask g) (lineMask f line)
  rw [zero, Nat.zero_testBit, bit, masks, bit] at both
  cases both

/-- At most what a sorting costs, from the mask of its lines and its own mask. -/
def costAtMost (lines mask : Nat) (near far : Sorting Spot) : Nat :=
  bif Nat.beq (lines &&& linesMask near) 0 then
    bif Nat.beq (mask &&& maskOf far) 0 then 1 else 0
  else 2

theorem cost_le_costAtMost {m : Nat} (h : Shows m f) :
    cost f near far ≤ costAtMost (linesMask f) m near far := by
  unfold cost costAtMost
  by_cases shared : f.Shares near
  · have apart : Nat.beq (linesMask f &&& linesMask near) 0 = false := by
      rw [Bool.eq_false_iff, ne_eq, Nat.beq_eq]
      exact land_linesMask_ne_zero shared
    rw [if_pos shared, apart, cond_false]
  · rw [if_neg shared]
    split
    case isTrue crosses =>
      have disjoint : Nat.beq (m &&& maskOf far) 0 = true := by
        rw [Nat.beq_eq]
        exact (h.land_eq_zero_iff (shows_maskOf far)).mpr crosses
      rw [disjoint, cond_true]
      cases Nat.beq (linesMask f &&& linesMask near) 0 <;> decide
    case isFalse => exact Nat.zero_le _

/-- Bounds on what a sorting costs in all, next to the near and the far sorting of each choice. -/
def bounds : List (Nat × (Marking → Sorting Spot) × (Marking → Sorting Spot)) :=
  [(7, Marking.right, Marking.farBelow), (6, Marking.farBelow, Marking.right),
    (6, Marking.below, Marking.farRight), (7, Marking.farRight, Marking.below)]

/-- Whether no sorting costs more than the bounds. -/
def allBounded : Bool :=
  (overSortings fun x y z => (linesMask (ofRows x y z), mask byRow x y z)).all fun one =>
    bounds.all fun (bound, near, far) =>
      Nat.ble (Marking.all.map fun marking =>
        costAtMost one.1 one.2 (near marking) (far marking)).sum bound

theorem allBounded_eq : allBounded = true := by
  decide +kernel

theorem sum_cost_le {bound : Nat} {near far : Marking → Sorting Spot}
    (listed : (bound, near, far) ∈ bounds) (even : f.Even) :
    (Marking.all.map fun marking => cost f (near marking) (far marking)).sum ≤ bound := by
  obtain ⟨σ, x, _, y, _, z, _, same, member⟩ :=
    mem_overSortings (fun x y z => (linesMask (ofRows x y z), mask byRow x y z)) even
  have checked := List.all_eq_true.mp (List.all_eq_true.mp allBounded_eq _ member) _ listed
  refine le_trans (List.sum_le_sum fun marking _ => ?_) (Nat.le_of_ble_eq_true checked)
  rw [← cost_relabel σ, ← same]
  exact cost_le_costAtMost shows_mask

/-! ### A choice for both corners -/

theorem two_mul_countP_le {choices : List α} {price : α → Nat} {bad : α → Bool}
    (costly : ∀ choice, bad choice = true → 2 ≤ price choice) :
    2 * choices.countP bad ≤ (choices.map price).sum := by
  induction choices with
  | nil => exact Nat.le_refl 0
  | cons choice choices ih =>
      rw [List.countP_cons, List.map_cons, List.sum_cons]
      cases h : bad choice with
      | true =>
          have := costly choice h
          rw [if_pos rfl]
          omega
      | false =>
          rw [if_neg Bool.false_ne_true]
          omega

/-- Whether a choice costs so much with two sortings that they need not join anything. -/
def isDear (near far : Marking → Sorting Spot) (f g : Sorting Spot) (marking : Marking) : Bool :=
  decide (2 ≤ cost f (near marking) (far marking) + cost g (far marking) (near marking))

theorem joined_of_not_isDear {near far : Marking → Sorting Spot} {marking : Marking}
    (crosses : (near marking).Crosses (far marking)) (even : f.Even) (even' : g.Even)
    (cheap : ¬isDear near far f g marking = true) :
    Joined (near marking) (far marking) f g :=
  joined_of_cost_lt crosses even even' (not_le.mp fun dear => cheap (decide_eq_true dear))

/-- At most six choices are dear where all thirteen cost no more than thirteen. -/
theorem countP_isDear_le (bound bound' : Nat) {near far : Marking → Sorting Spot}
    (listed : (bound, near, far) ∈ bounds) (listed' : (bound', far, near) ∈ bounds)
    (thirteen : bound + bound' = 13) (even : f.Even) (even' : g.Even) :
    Marking.all.countP (isDear near far f g) ≤ 6 := by
  have dear : 2 * Marking.all.countP (isDear near far f g) ≤ _ :=
    two_mul_countP_le fun _ => of_decide_eq_true
  have first := sum_cost_le listed even
  have second := sum_cost_le listed' even'
  rw [List.sum_map_add] at dear
  omega

open Marking in
theorem exists_marking {f' g' : Sorting Spot} (even_f : f.Even) (even_g : g.Even)
    (even_f' : f'.Even) (even_g' : g'.Even) : ∃ marking : Marking,
      Joined marking.right marking.farBelow f g ∧ Joined marking.below marking.farRight f' g' := by
  have few : Marking.all.countP (isDear right farBelow f g) ≤ 6 :=
    countP_isDear_le 7 6 (by simp [bounds]) (by simp [bounds]) rfl even_f even_g
  have few' : Marking.all.countP (isDear below farRight f' g') ≤ 6 :=
    countP_isDear_le 6 7 (by simp [bounds]) (by simp [bounds]) rfl even_f' even_g'
  -- Six choices may be dear in each corner, which leaves one of the thirteen.
  by_contra none
  have dear : ∀ marking ∈ Marking.all, ¬isDear right farBelow f g marking = true →
      isDear below farRight f' g' marking = true := by
    intro marking member cheap
    obtain ⟨crosses, crosses'⟩ := crosses_of_mem_all marking member
    by_contra cheap'
    exact none ⟨marking, joined_of_not_isDear crosses even_f even_g cheap,
      joined_of_not_isDear crosses' even_f' even_g' cheap'⟩
  have rest : Marking.all.countP (fun marking => decide ¬isDear right farBelow f g marking = true) ≤
      Marking.all.countP (isDear below farRight f' g') :=
    List.countP_mono_left fun marking member cheap =>
      dear marking member (of_decide_eq_true cheap)
  have thirteen : Marking.all.length = 13 := rfl
  have split := List.length_eq_countP_add_countP (isDear right farBelow f g) (l := Marking.all)
  omega

/-- The rows and the columns of a box can be set apart from others in such a way that both corners
    of the grid can be filled. -/
theorem exists_corners [Fintype α] (nine : Fintype.card α = 9) {rows columns f g f' g' : Sorting α}
    (crosses : rows.Crosses columns) (even_f : f.Even) (even_g : g.Even) (even_f' : f'.Even)
    (even_g' : g'.Even) : ∃ q r q' r', Apart rows q r ∧ Apart columns q' r' ∧
      Joined q r' f g ∧ Joined q' r f' g' := by
  obtain ⟨e, rfl, rfl⟩ := exists_places nine crosses
  obtain ⟨marking, one, two⟩ := exists_marking ((even_comp e.symm).mpr even_f)
    ((even_comp e.symm).mpr even_g) ((even_comp e.symm).mpr even_f')
    ((even_comp e.symm).mpr even_g')
  refine ⟨_, _, _, _, (apart_turn Prod.fst marking.rows).comp e,
    (apart_turn Prod.snd marking.columns).comp e, ?_, ?_⟩
  · rw [← comp_symm_comp e f, ← comp_symm_comp e g]
    exact one.comp e
  · rw [← comp_symm_comp e f', ← comp_symm_comp e g']
    exact two.comp e

end Sorting

end ExactCover
