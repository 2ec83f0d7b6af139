import Mathlib.Data.Nat.Bitwise
import Mathlib.Tactic.Ring

/-! # Masks

A mask is a number whose bits are a set. Masks of 81 bits can stand side by side in one number, each
with a spare bit above it. One addition then shows whether every one of them has a bit set: the mask
and all 81 bits together carry into the spare bit just when the mask is not empty.
-/

namespace ExactCover

theorem testBit_foldl_or {α : Type} (place : α → Nat) (items : List α) (seen i : Nat) :
    (items.foldl (fun seen item => seen ||| 1 <<< place item) seen).testBit i = true ↔
      seen.testBit i = true ∨ ∃ item ∈ items, place item = i := by
  induction items generalizing seen with
  | nil => simp
  | cons item items ih =>
      rw [List.foldl_cons, ih, Nat.testBit_or, Bool.or_eq_true, Nat.one_shiftLeft,
        Nat.testBit_two_pow, decide_eq_true_iff, or_assoc]
      simp only [List.mem_cons, exists_eq_or_imp]

/-! ### Side by side -/

/-- Numbers side by side in places of this width. -/
def pack (width : Nat) (items : List Nat) : Nat :=
  items.foldr (fun item rest => item + 2 ^ width * rest) 0

variable {width : Nat} {items others : List Nat}

theorem pack_cons (item : Nat) :
    pack width (item :: items) = item + 2 ^ width * pack width items :=
  rfl

theorem pack_append : pack width (items ++ others) =
    pack width items + 2 ^ (width * items.length) * pack width others := by
  induction items with
  | nil => simp [pack]
  | cons item items ih =>
      rw [List.cons_append, pack_cons, pack_cons, ih, List.length_cons, Nat.mul_succ, pow_add]
      ring

theorem pack_replicate (n item : Nat) :
    pack width (List.replicate n item) = pack width (List.replicate n 1) * item := by
  induction n with
  | zero => simp [pack]
  | succ n ih =>
      rw [List.replicate_succ, List.replicate_succ, pack_cons, pack_cons, ih]
      ring

theorem land_add_mul {a b low low' : Nat} (small : low < 2 ^ width) (small' : low' < 2 ^ width) :
    (low + 2 ^ width * a) &&& (low' + 2 ^ width * b) = (low &&& low') + 2 ^ width * (a &&& b) := by
  apply Nat.eq_of_testBit_eq
  intro i
  rw [Nat.testBit_and, Nat.add_comm low, Nat.add_comm low', Nat.add_comm (low &&& low'),
    Nat.testBit_two_pow_mul_add a small, Nat.testBit_two_pow_mul_add b small',
    Nat.testBit_two_pow_mul_add _ (Nat.and_lt_two_pow low small')]
  split <;> rw [Nat.testBit_and]

theorem land_pack (same : items.length = others.length) (small : ∀ item ∈ items, item < 2 ^ width)
    (small' : ∀ item ∈ others, item < 2 ^ width) :
    pack width items &&& pack width others = pack width (List.zipWith (· &&& ·) items others) := by
  induction items generalizing others with
  | nil => simp [pack]
  | cons item items ih =>
      cases others with
      | nil => cases same
      | cons other others =>
          obtain ⟨first, rest⟩ := List.forall_mem_cons.mp small
          obtain ⟨first', rest'⟩ := List.forall_mem_cons.mp small'
          rw [pack_cons, pack_cons, land_add_mul first first', ih (Nat.succ.inj same) rest rest',
            List.zipWith_cons_cons, pack_cons]

/-- Spare bits above as many masks. -/
def spareBits (n : Nat) : Nat := pack 82 (List.replicate n (2 ^ 81))

/-- As many masks with all their bits. -/
def allBits (n : Nat) : Nat := pack 82 (List.replicate n (2 ^ 81 - 1))

theorem carry_land {mask : Nat} (some_bit : mask ≠ 0) (small : mask < 2 ^ 81) :
    (mask + (2 ^ 81 - 1)) &&& 2 ^ 81 = 2 ^ 81 := by
  obtain ⟨less, rfl⟩ := Nat.exists_eq_succ_of_ne_zero some_bit
  have carried : less.succ + (2 ^ 81 - 1) = 2 ^ 81 * 1 + less := by omega
  rw [carried, Nat.and_two_pow, Nat.testBit_two_pow_mul_add 1 (Nat.lt_of_succ_lt small),
    if_neg (Nat.lt_irrefl 81), Nat.sub_self, Nat.testBit_one_zero, Bool.toNat_true, Nat.one_mul]

/-- If every mask has a bit set, all of them carry. -/
theorem spareBits_of_forall {masks : List Nat} (each : ∀ mask ∈ masks, mask ≠ 0 ∧ mask < 2 ^ 81) :
    (pack 82 masks + allBits masks.length) &&& spareBits masks.length =
      spareBits masks.length := by
  unfold allBits spareBits
  induction masks with
  | nil => rfl
  | cons mask masks ih =>
      obtain ⟨⟨some_bit, small⟩, rest⟩ := List.forall_mem_cons.mp each
      rw [List.length_cons, List.replicate_succ, List.replicate_succ, pack_cons, pack_cons,
        pack_cons, Nat.add_add_add_comm, ← Nat.mul_add]
      rw [land_add_mul (by omega) (by omega), carry_land some_bit small, ih rest]

/-! ### All pairs of two lists -/

theorem pack_flatMap_replicate (n : Nat) :
    pack width (items.flatMap (List.replicate n)) =
      pack width (List.replicate n 1) * pack (width * n) items := by
  induction items with
  | nil => rfl
  | cons item items ih =>
      rw [List.flatMap_cons, pack_append, ih, pack_replicate n item, List.length_replicate,
        pack_cons, Nat.mul_add, Nat.mul_left_comm]

theorem pack_flatten_replicate (n : Nat) :
    pack width (List.replicate n items).flatten =
      pack (width * items.length) (List.replicate n 1) * pack width items := by
  induction n with
  | zero => simp [pack]
  | succ n ih =>
      rw [List.replicate_succ, List.replicate_succ, List.flatten_cons, pack_append, ih, pack_cons,
        Nat.add_mul, Nat.one_mul, Nat.mul_assoc]

/-- Each of eight masks eight times, one after the other. -/
def packEach (masks : List Nat) : Nat := pack 82 (List.replicate 8 1) * pack (82 * 8) masks

/-- All of eight masks, eight times over. -/
def packRound (masks : List Nat) : Nat := pack (82 * 8) (List.replicate 8 1) * pack 82 masks

/-- Whether each of eight masks meets each of eight others. -/
def allMeet (one two : Nat) : Bool :=
  Nat.beq (((one &&& two) + allBits 64) &&& spareBits 64) (spareBits 64)

/-- Eight masks and eight others that do not all meet have two that are disjoint. -/
theorem exists_disjoint {ones twos : List Nat} (eight : ones.length = 8) (eight' : twos.length = 8)
    (small : ∀ one ∈ ones, one < 2 ^ 81) (small' : ∀ two ∈ twos, two < 2 ^ 81)
    (apart : allMeet (packEach ones) (packRound twos) = false) :
    ∃ one ∈ ones, ∃ two ∈ twos, one &&& two = 0 := by
  by_contra meet
  push Not at meet
  have from_ones : ∀ item ∈ ones.flatMap (List.replicate 8), item ∈ ones := by
    intro item member
    obtain ⟨one, listed, same⟩ := List.mem_flatMap.mp member
    exact List.eq_of_mem_replicate same ▸ listed
  have from_twos : ∀ item ∈ (List.replicate 8 twos).flatten, item ∈ twos := by
    intro item member
    obtain ⟨list, listed, inside⟩ := List.mem_flatten.mp member
    exact List.eq_of_mem_replicate listed ▸ inside
  have lengths : (ones.flatMap (List.replicate 8)).length = 64 ∧
      (List.replicate 8 twos).flatten.length = 64 := by
    constructor <;> simp [List.length_flatMap, List.map_const', eight, eight']
  have each : ∀ mask ∈ List.zipWith (· &&& ·) (ones.flatMap (List.replicate 8))
      (List.replicate 8 twos).flatten, mask ≠ 0 ∧ mask < 2 ^ 81 := by
    intro mask member
    obtain ⟨i, inside, rfl⟩ := List.mem_iff_getElem.mp member
    rw [List.length_zipWith, lengths.1, lengths.2, Nat.min_self] at inside
    rw [List.getElem_zipWith]
    have one := from_ones _ (List.getElem_mem (lengths.1.symm ▸ inside))
    have two := from_twos _ (List.getElem_mem (lengths.2.symm ▸ inside))
    exact ⟨meet _ one _ two, Nat.and_lt_two_pow _ (small' _ two)⟩
  have carries := spareBits_of_forall each
  rw [List.length_zipWith, lengths.1, lengths.2, Nat.min_self] at carries
  have packed : packEach ones &&& packRound twos = pack 82 (List.zipWith (· &&& ·)
      (ones.flatMap (List.replicate 8)) (List.replicate 8 twos).flatten) := by
    rw [packEach, packRound, ← pack_flatMap_replicate, ← eight', ← pack_flatten_replicate, eight']
    refine land_pack (lengths.1.trans lengths.2.symm) (fun item member => ?_) fun item member => ?_
    · exact (small _ (from_ones item member)).trans (by decide)
    · exact (small' _ (from_twos item member)).trans (by decide)
  rw [allMeet, packed, carries] at apart
  exact absurd (Nat.beq_refl _) (by rw [apart]; decide)

end ExactCover
