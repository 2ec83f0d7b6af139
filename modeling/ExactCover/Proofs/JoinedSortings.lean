import ExactCover.Proofs.Masks
import ExactCover.Proofs.Sortings
import Mathlib.Algebra.BigOperators.Fin
import Mathlib.Data.Fintype.Perm
import Mathlib.Data.List.FinRange
import Mathlib.Tactic.FinCases

/-! # Sortings that are joined

The rows and the columns of a box are joined by two sortings, unless one of these shares a line with
the rows, or the other one with the columns, or each of them crosses the one that is further away.
There are 280 ways to sort nine places evenly, when the numbers of the lines do not matter, and all
pairs of them are tried. A sorting is written as three numbers, one for each row of places, and the
pairs of places that it puts into one line are a mask.
-/

namespace ExactCover

namespace Sorting

/-! ### Rows of places as numbers -/

/-- The line that a place is in, in a row of places; the row is a number of three digits. -/
def label (row : Nat) (place : Fin 3) : Fin 3 := Fin.ofNat 3 (row / 3 ^ place.val)

/-- The number of a row of places. -/
def rowNumber (line : Fin 3 → Fin 3) : Nat := line 0 + 3 * line 1 + 9 * line 2

/-- One of three rows. -/
def oneOf (x y z : Nat) : Fin 3 → Nat
  | 0 => x
  | 1 => y
  | 2 => z

/-- The sorting with these three rows of places. -/
def ofRows (x y z : Nat) : Sorting Spot := fun spot => label (oneOf x y z spot.1) spot.2

variable {x y z x' y' z' : Nat} {f g : Sorting Spot}

theorem rowNumber_lt (line : Fin 3 → Fin 3) : rowNumber line < 27 := by
  unfold rowNumber
  omega

theorem label_rowNumber (line : Fin 3 → Fin 3) (place : Fin 3) :
    label (rowNumber line) place = line place := by
  unfold label rowNumber
  apply Fin.ext
  rw [Fin.val_ofNat]
  fin_cases place
  · simp
    omega
  · simp
    omega
  · simp
    omega

theorem ofRows_rowNumber (f : Sorting Spot) :
    ofRows (rowNumber fun place => f (0, place)) (rowNumber fun place => f (1, place))
      (rowNumber fun place => f (2, place)) = f := by
  funext ⟨row, place⟩
  fin_cases row
  · exact label_rowNumber (fun place => f (0, place)) place
  · exact label_rowNumber (fun place => f (1, place)) place
  · exact label_rowNumber (fun place => f (2, place)) place

/-! ### Even sortings -/

/-- All places, row by row. -/
def spots : List Spot :=
  [(0, 0), (0, 1), (0, 2), (1, 0), (1, 1), (1, 2), (2, 0), (2, 1), (2, 2)]

theorem mem_spots (spot : Spot) : spot ∈ spots := by
  revert spot
  decide

/-- How many places of a row are in each line, as the digits of a number. -/
def weight (row : Nat) : Nat :=
  4 ^ (label row 0).val + 4 ^ (label row 1).val + 4 ^ (label row 2).val

/-- The first line that the places come to after line zero, row by row. -/
def nextLine (f : Sorting Spot) : Option (Fin 3) :=
  (spots.map f).find? fun line => decide (line ≠ 0)

/-- What a function makes of the rows of all even sortings whose lines are numbered by their first
    places. -/
def overSortings {α : Type} (value : Nat → Nat → Nat → α) : List α :=
  ((List.range 27).filter fun x => decide (label x 0 = 0)).flatMap fun x =>
    (List.range 27).flatMap fun y => ((List.range 27).filter fun z =>
      Nat.beq (weight x + weight y + weight z) 63 &&
        decide (nextLine (ofRows x y z) = some 1)).map (value x y)

theorem sum_pow_of_even (even : f.Even) : ∑ spot, 4 ^ (f spot).val = 63 := by
  have each : ∀ line, ∑ spot with f spot = line, 4 ^ (f spot).val = 3 * 4 ^ line.val := by
    intro line
    rw [Finset.sum_congr rfl fun spot member => by rw [(Finset.mem_filter.mp member).2],
      Finset.sum_const, even line, smul_eq_mul]
  rw [← Finset.sum_fiberwise Finset.univ f, Finset.sum_congr rfl fun line _ => each line]
  decide

theorem weight_of_even (even : (ofRows x y z).Even) : weight x + weight y + weight z = 63 := by
  have sum := sum_pow_of_even even
  rw [Fintype.sum_prod_type, Fin.sum_univ_three] at sum
  simp only [Fin.sum_univ_three] at sum
  exact sum

theorem Even.exists_ne (even : f.Even) (spot : Spot) : ∃ other, f other ≠ f spot := by
  by_contra constant
  push Not at constant
  have all := even (f spot)
  rw [Finset.filter_true_of_mem fun other _ => constant other] at all
  exact absurd all (by decide)

/-- The lines of an even sorting can be numbered by their first places. -/
theorem exists_ordered (even : f.Even) :
    ∃ σ : Equiv.Perm (Fin 3), σ (f (0, 0)) = 0 ∧ nextLine (σ ∘ f) = some 1 := by
  obtain ⟨other, differs⟩ := even.exists_ne (0, 0)
  obtain ⟨first, found⟩ : ∃ first, spots.find? (fun spot => decide (f spot ≠ f (0, 0))) =
      some first :=
    Option.isSome_iff_exists.mp
      (List.find?_isSome.mpr ⟨other, mem_spots other, decide_eq_true differs⟩)
  have second : f first ≠ f (0, 0) := of_decide_eq_true (List.find?_some found :)
  have renumber : ∀ one two : Fin 3, two ≠ one →
      ∃ σ : Equiv.Perm (Fin 3), σ one = 0 ∧ σ two = 1 := by
    decide
  obtain ⟨σ, zero, one⟩ := renumber _ _ second
  refine ⟨σ, zero, ?_⟩
  have same : (fun line : Fin 3 => decide (line ≠ 0)) ∘ (σ ∘ f) =
      fun spot => decide (f spot ≠ f (0, 0)) := by
    funext spot
    apply decide_eq_decide.mpr
    exact not_congr ⟨fun same => σ.injective (same.trans zero.symm),
      fun same => (congrArg σ same).trans zero⟩
  rw [nextLine, List.find?_map, same, found, Option.map_some, Function.comp_apply, one]

theorem mem_overSortings {α : Type} (value : Nat → Nat → Nat → α) (even : f.Even) :
    ∃ σ : Equiv.Perm (Fin 3), ∃ x < 27, ∃ y < 27, ∃ z < 27, ofRows x y z = σ ∘ f ∧
      value x y z ∈ overSortings value := by
  obtain ⟨σ, first, next⟩ := exists_ordered even
  obtain ⟨x, hx, y, hy, z, hz, same⟩ : ∃ x < 27, ∃ y < 27, ∃ z < 27, ofRows x y z = σ ∘ f :=
    ⟨_, rowNumber_lt _, _, rowNumber_lt _, _, rowNumber_lt _, ofRows_rowNumber (σ ∘ f)⟩
  have weights := weight_of_even (same ▸ even_relabel σ even)
  have zero : label x 0 = 0 := (congrFun same (0, 0)).trans first
  rw [← same] at next
  refine ⟨σ, x, hx, y, hy, z, hz, same, ?_⟩
  simp only [overSortings, List.mem_flatMap, List.mem_map, List.mem_filter, List.mem_range]
  refine ⟨x, ⟨hx, decide_eq_true zero⟩, y, hy, z, ⟨hz, ?_⟩, rfl⟩
  rw [weights, next]
  decide

/-! ### Rows set apart from each other -/

/-- The line that is left for a place next to two others. -/
def third (row other : Nat) (place : Fin 3) : Fin 3 := -(label row place + label other place)

/-- The rows have no place in the same line, and the lines that are left are all different. -/
def fits (row other : Nat) : Bool :=
  decide ((∀ place, label row place ≠ label other place) ∧
    ∀ one two, third row other one = third row other two → one = two)

def choices (row : Nat) : List Nat := (List.range 27).filter (fits row)

/-- There are two choices for a row, unless all of it is in one line. -/
theorem choices_cases : ∀ row < 27,
    (choices row).length = 2 ∨ ∀ place, label row place = label row 0 := by
  decide +kernel

theorem exists_apart (one : x' ∈ choices x) (two : y' ∈ choices y) (three : z' ∈ choices z) :
    ∃ r, Apart (ofRows x y z) (ofRows x' y' z') r ∧ r.Crosses Prod.fst := by
  have each : ∀ row, fits (oneOf x y z row) (oneOf x' y' z' row) = true := by
    intro row
    fin_cases row
    · exact (List.mem_filter.mp one).2
    · exact (List.mem_filter.mp two).2
    · exact (List.mem_filter.mp three).2
  have left : ∀ line other : Fin 3, line ≠ other →
      line ≠ other ∧ line ≠ -(line + other) ∧ other ≠ -(line + other) := by
    decide
  refine ⟨fun spot => third (oneOf x y z spot.1) (oneOf x' y' z' spot.1) spot.2, ?_, ?_⟩
  · exact fun spot => left _ _ ((of_decide_eq_true (each spot.1)).1 spot.2)
  · rintro ⟨row, place⟩ ⟨_, other⟩ same rfl
    exact Prod.ext rfl ((of_decide_eq_true (each row)).2 place other same)

/-- An even sorting with a row in one line shares this row. -/
theorem shares_of_constant (even : (ofRows x y z).Even) {row : Fin 3}
    (constant : ∀ place, label (oneOf x y z row) place = label (oneOf x y z row) 0) :
    (ofRows x y z).Shares Prod.fst := by
  refine ⟨label (oneOf x y z row) 0, row, fun spot => ?_⟩
  have inside : (Finset.univ.filter fun spot : Spot => spot.1 = row) ⊆
      Finset.univ.filter (ofRows x y z · = label (oneOf x y z row) 0) := by
    intro spot member
    obtain rfl := (Finset.mem_filter.mp member).2
    exact Finset.mem_filter.mpr ⟨Finset.mem_univ spot, constant spot.2⟩
  have rows : ∀ row : Fin 3, (Finset.univ.filter fun spot : Spot => spot.1 = row).card = 3 := by
    decide
  have all := Finset.eq_of_subset_of_card_le inside ((even _).trans (rows row).symm).le
  have member := Finset.ext_iff.mp all spot
  simpa using member.symm

/-! ### Pairs of places as masks -/

/-- The pairs of places, one in a row of places and one in another, that are in the same line. -/
def clash (cell : Spot → Nat) (row row' : Fin 3) (x y : Nat) : Nat :=
  (spots.filter fun places =>
      decide ((row, places.1) ≠ (row', places.2) ∧ label x places.1 = label y places.2)).foldl
    (fun seen places => seen ||| 1 <<< (9 * cell (row, places.1) + cell (row', places.2))) 0

/-- The pairs of places that are in the same line. -/
def mask (cell : Spot → Nat) (x y z : Nat) : Nat :=
  -- Each part depends on two numbers only, so that the kernel meets the same parts again and again.
  clash cell 0 0 x x ||| clash cell 0 1 x y ||| clash cell 0 2 x z |||
  clash cell 1 0 y x ||| clash cell 1 1 y y ||| clash cell 1 2 y z |||
  clash cell 2 0 z x ||| clash cell 2 1 z y ||| clash cell 2 2 z z

def byRow (spot : Spot) : Nat := 3 * spot.1 + spot.2

def byColumn (spot : Spot) : Nat := 3 * spot.2 + spot.1

/-- A mask has the pairs of places that a sorting has in the same line. -/
def Shows (m : Nat) (f : Sorting Spot) : Prop := ∀ i, m.testBit i = true ↔
  ∃ one two, one ≠ two ∧ f one = f two ∧ 9 * byRow one + byRow two = i

theorem testBit_clash {cell : Spot → Nat} {row row' : Fin 3} {i : Nat} :
    (clash cell row row' x y).testBit i = true ↔ ∃ place place',
      (row, place) ≠ (row', place') ∧ label x place = label y place' ∧
        9 * cell (row, place) + cell (row', place') = i := by
  rw [clash, testBit_foldl_or, Nat.zero_testBit]
  simp only [List.mem_filter, mem_spots, true_and, decide_eq_true_eq, Bool.false_eq_true, false_or,
    Prod.exists, and_assoc]

theorem testBit_mask {cell : Spot → Nat} {i : Nat} : (mask cell x y z).testBit i = true ↔
    ∃ one two, one ≠ two ∧ ofRows x y z one = ofRows x y z two ∧ 9 * cell one + cell two = i := by
  simp only [mask, Nat.testBit_or, Bool.or_eq_true, testBit_clash, ofRows, Prod.exists]
  constructor
  · rintro ((((((((h | h) | h) | h) | h) | h) | h) | h) | h) <;>
      obtain ⟨place, place', rest⟩ := h
    · exact ⟨0, place, 0, place', rest⟩
    · exact ⟨0, place, 1, place', rest⟩
    · exact ⟨0, place, 2, place', rest⟩
    · exact ⟨1, place, 0, place', rest⟩
    · exact ⟨1, place, 1, place', rest⟩
    · exact ⟨1, place, 2, place', rest⟩
    · exact ⟨2, place, 0, place', rest⟩
    · exact ⟨2, place, 1, place', rest⟩
    · exact ⟨2, place, 2, place', rest⟩
  · rintro ⟨row, place, row', place', rest⟩
    fin_cases row <;> fin_cases row'
    · exact .inl (.inl (.inl (.inl (.inl (.inl (.inl (.inl ⟨place, place', rest⟩)))))))
    · exact .inl (.inl (.inl (.inl (.inl (.inl (.inl (.inr ⟨place, place', rest⟩)))))))
    · exact .inl (.inl (.inl (.inl (.inl (.inl (.inr ⟨place, place', rest⟩))))))
    · exact .inl (.inl (.inl (.inl (.inl (.inr ⟨place, place', rest⟩)))))
    · exact .inl (.inl (.inl (.inl (.inr ⟨place, place', rest⟩))))
    · exact .inl (.inl (.inl (.inr ⟨place, place', rest⟩)))
    · exact .inl (.inl (.inr ⟨place, place', rest⟩))
    · exact .inl (.inr ⟨place, place', rest⟩)
    · exact .inr ⟨place, place', rest⟩

theorem shows_mask : Shows (mask byRow x y z) (ofRows x y z) := fun _ => testBit_mask

theorem shows_mask_swap : Shows (mask byColumn x y z) (ofRows x y z ∘ Prod.swap) := by
  intro i
  rw [testBit_mask]
  constructor
  · rintro ⟨one, two, differ, same, number⟩
    exact ⟨one.swap, two.swap, fun equal => differ (Prod.swap_injective equal), same, number⟩
  · rintro ⟨one, two, differ, same, number⟩
    exact ⟨one.swap, two.swap, fun equal => differ (Prod.swap_injective equal), same, number⟩

namespace Shows

variable {m n : Nat}

theorem lt (h : Shows m f) : m < 2 ^ 81 := by
  apply Nat.lt_pow_two_of_testBit
  intro i high
  rw [Bool.eq_false_iff]
  intro bit
  obtain ⟨one, two, _, _, number⟩ := (h i).mp bit
  unfold byRow at number
  omega

/-- Sortings cross when no pair of places is in the same line of both. -/
theorem land_eq_zero_iff (h : Shows m f) (h' : Shows n g) : m &&& n = 0 ↔ f.Crosses g := by
  constructor
  · intro disjoint one two same same'
    by_contra differ
    have bit := Nat.zero_testBit (9 * byRow one + byRow two)
    rw [← disjoint, Nat.testBit_and, (h _).mpr ⟨one, two, differ, same, rfl⟩,
      (h' _).mpr ⟨one, two, differ, same', rfl⟩] at bit
    cases bit
  · intro crosses
    apply Nat.eq_of_testBit_eq
    intro i
    rw [Nat.zero_testBit, Nat.testBit_and, Bool.and_eq_false_iff]
    by_contra both
    rw [not_or, Bool.not_eq_false, Bool.not_eq_false] at both
    obtain ⟨one, two, differ, same, number⟩ := (h i).mp both.1
    obtain ⟨one', two', _, same', number'⟩ := (h' i).mp both.2
    have numbers : byRow one = byRow one' ∧ byRow two = byRow two' := by
      unfold byRow at number number' ⊢
      omega
    have injective : ∀ {one two}, byRow one = byRow two → one = two := by
      intro one two equal
      unfold byRow at equal
      ext <;> omega
    obtain rfl := injective numbers.1
    obtain rfl := injective numbers.2
    exact differ (crosses one two same same')

end Shows

/-! ### All pairs of sortings -/

/-- The masks of the sortings that can be chosen, row by row. -/
def masksApart (cell : Spot → Nat) (x y z : Nat) : List Nat :=
  (choices x).flatMap fun x => (choices y).flatMap fun y => (choices z).map fun z => mask cell x y z

/-- Whether every line has a place in each column. -/
def isLatin (x y z : Nat) : Bool := Nat.beq (mask byRow x y z &&& mask byRow 21 21 21) 0

/-- Whether there is nothing to choose, whether the sorting crosses the columns, and the masks of
    the sortings that can be chosen. -/
def facts (cell : Spot → Nat) (packed : List Nat → Nat) (x y z : Nat) : Bool × Bool × Nat :=
  ((masksApart cell x y z).isEmpty, isLatin x y z, packed (masksApart cell x y z))

/-- Whether any two sortings have disjoint masks among those that can be chosen, unless there is
    nothing to choose for one of them or both cross the columns. -/
def allJoined : Bool :=
  (overSortings (facts byRow packEach)).all fun one =>
    one.1 || (overSortings (facts byColumn packRound)).all fun two =>
      bif allMeet one.2.2 two.2.2 then two.1 || (one.2.1 && two.2.1) else true

theorem allJoined_eq : allJoined = true := by
  decide +kernel

theorem mem_masksApart {cell : Spot → Nat} {m : Nat} (member : m ∈ masksApart cell x y z) :
    ∃ x' y' z', mask cell x' y' z' = m ∧
      ∃ r, Apart (ofRows x y z) (ofRows x' y' z') r ∧ r.Crosses Prod.fst := by
  obtain ⟨x', one, member⟩ := List.mem_flatMap.mp member
  obtain ⟨y', two, member⟩ := List.mem_flatMap.mp member
  obtain ⟨z', three, same⟩ := List.mem_map.mp member
  exact ⟨x', y', z', same, exists_apart one two three⟩

/-- Eight sortings can be chosen, unless there is a row in one line. -/
theorem masksApart_cases (cell : Spot → Nat) (hx : x < 27) (hy : y < 27) (hz : z < 27) :
    (masksApart cell x y z).length = 8 ∨
      ∃ row, ∀ place, label (oneOf x y z row) place = label (oneOf x y z row) 0 := by
  rcases choices_cases x hx with one | constant
  · rcases choices_cases y hy with two | constant
    · rcases choices_cases z hz with three | constant
      · left
        simp [masksApart, List.length_flatMap, List.map_const', one, two, three]
      · exact .inr ⟨2, constant⟩
    · exact .inr ⟨1, constant⟩
  · exact .inr ⟨0, constant⟩

theorem isLatin_iff : isLatin x y z = true ↔ (ofRows x y z).Crosses Prod.snd := by
  have columns : ofRows 21 21 21 = Prod.snd := by decide
  rw [isLatin, Nat.beq_eq, ← columns]
  exact shows_mask.land_eq_zero_iff shows_mask

theorem lt_of_mem_masksApart {cell : Spot → Nat} {m : Nat}
    (shows_each : ∀ x y z, ∃ f, Shows (mask cell x y z) f) (member : m ∈ masksApart cell x y z) :
    m < 2 ^ 81 := by
  obtain ⟨x', y', z', rfl, _⟩ := mem_masksApart member
  obtain ⟨f, shown⟩ := shows_each x' y' z'
  exact shown.lt

/-- If eight sortings can be chosen on both sides, two of them are disjoint, unless both sortings
    cross the columns. -/
theorem exists_disjoint_masks
    (first : facts byRow packEach x y z ∈ overSortings (facts byRow packEach))
    (second : facts byColumn packRound x' y' z' ∈ overSortings (facts byColumn packRound))
    (eight : (masksApart byRow x y z).length = 8)
    (eight' : (masksApart byColumn x' y' z').length = 8)
    (plain : ¬(isLatin x y z = true ∧ isLatin x' y' z' = true)) :
    ∃ one ∈ masksApart byRow x y z, ∃ two ∈ masksApart byColumn x' y' z', one &&& two = 0 := by
  have some_one : (masksApart byRow x y z).isEmpty = false := by
    rw [List.isEmpty_eq_false_iff, ← List.length_pos_iff, eight]
    decide
  have some_two : (masksApart byColumn x' y' z').isEmpty = false := by
    rw [List.isEmpty_eq_false_iff, ← List.length_pos_iff, eight']
    decide
  have checked := List.all_eq_true.mp allJoined_eq _ first
  rw [facts, some_one, Bool.false_or] at checked
  have checked := List.all_eq_true.mp checked _ second
  rw [facts, some_two, Bool.false_or, Bool.eq_false_iff.mpr fun both =>
    plain (Bool.and_eq_true_iff.mp both)] at checked
  refine exists_disjoint eight eight'
    (fun one => lt_of_mem_masksApart fun x y z => ⟨_, shows_mask⟩)
    (fun two => lt_of_mem_masksApart fun x y z => ⟨_, shows_mask_swap⟩) ?_
  cases meet : allMeet (packEach (masksApart byRow x y z))
      (packRound (masksApart byColumn x' y' z')) with
  | false => rfl
  | true =>
      rw [meet] at checked
      cases checked

theorem spots_joined_or (even : f.Even) (even' : g.Even) :
    Joined Prod.fst Prod.snd f g ∨ f.Shares Prod.fst ∨ g.Shares Prod.snd ∨
      (f.Crosses Prod.snd ∧ g.Crosses Prod.fst) := by
  let swap := Equiv.prodComm (Fin 3) (Fin 3)
  obtain ⟨σ, x, hx, y, hy, z, hz, same, member⟩ := mem_overSortings (facts byRow packEach) even
  obtain ⟨τ, x', hx', y', hy', z', hz', same', member'⟩ :=
    mem_overSortings (facts byColumn packRound) ((even_comp swap).mpr even')
  -- Nothing can be chosen for a sorting just when it shares a row or a column.
  rcases masksApart_cases byRow hx hy hz with eight | ⟨row, constant⟩
  case inr =>
    have shared := shares_of_constant (same ▸ even_relabel σ even) constant
    exact .inr (.inl ((shares_relabel σ).mp (same ▸ shared)))
  rcases masksApart_cases byColumn hx' hy' hz' with eight' | ⟨row, constant⟩
  case inr =>
    have shared := shares_of_constant (same' ▸ even_relabel τ ((even_comp swap).mpr even')) constant
    exact .inr (.inr (.inl ((shares_comp swap).mp ((shares_relabel τ).mp (same' ▸ shared)))))
  by_cases both : isLatin x y z = true ∧ isLatin x' y' z' = true
  · refine .inr (.inr (.inr ⟨(crosses_relabel σ).mp (same ▸ isLatin_iff.mp both.1), ?_⟩))
    exact (crosses_comp swap).mp ((crosses_relabel τ).mp (same' ▸ isLatin_iff.mp both.2))
  · left
    obtain ⟨_, one, _, two, disjoint⟩ := exists_disjoint_masks member member' eight eight' both
    obtain ⟨x₁, y₁, z₁, rfl, r₁, apart, crosses⟩ := mem_masksApart one
    obtain ⟨x₂, y₂, z₂, rfl, r₂, apart', crosses'⟩ := mem_masksApart two
    rw [same] at apart
    rw [same'] at apart'
    refine Joined.of_relabel σ τ ⟨_, _, r₂ ∘ swap, _, apart,
      (Apart.comp swap apart').symm, crosses,
      (shows_mask.land_eq_zero_iff shows_mask_swap).mp disjoint, ?_⟩
    exact (crosses_comp swap).mpr crosses'

/-- Two sortings join two others that cross, unless one of them shares a line with the first one, or
    the other one with the last one, or each of them crosses the one that is further away. -/
theorem joined_or {α : Type} [Fintype α] (nine : Fintype.card α = 9) {X Y f g : Sorting α}
    (crosses : X.Crosses Y) (even : f.Even) (even' : g.Even) :
    Joined X Y f g ∨ f.Shares X ∨ g.Shares Y ∨ (f.Crosses Y ∧ g.Crosses X) := by
  obtain ⟨e, rfl, rfl⟩ := exists_places nine crosses
  have cases := spots_joined_or ((even_comp e.symm).mpr even) ((even_comp e.symm).mpr even')
  rw [← shares_comp e, ← shares_comp e, ← crosses_comp e, ← crosses_comp e, comp_symm_comp,
    comp_symm_comp] at cases
  exact cases.imp_left fun joined => by simpa only [comp_symm_comp] using joined.comp e

end Sorting

end ExactCover
