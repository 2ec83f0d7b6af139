import Mathlib.Data.Fintype.Card
import Mathlib.Data.Fintype.Prod
import Mathlib.Data.Fin.VecNotation

/-! # Sortings into three lines

The rows of a box sort the nine digits into three lines, and so do its columns. Both together tell
where each digit stands, because the sortings cross: no two digits are in the same row and in the
same column. What is said here of sortings does not depend on what is sorted, nor on how the lines
are numbered.
-/

namespace ExactCover

/-- Which of three lines everything is in. -/
abbrev Sorting (α : Type) := α → Fin 3

namespace Sorting

variable {α β : Type} {f g q r X Y : Sorting α}

/-- Lines have numerals, because there is a line. As with digits, the instance is named, so that a
    numeral is the same term wherever it is written. -/
scoped instance neZero : @NeZero Nat (@Zero.ofOfNat0 Nat (instOfNatNat 0)) 3 :=
  ⟨Nat.succ_ne_zero 2⟩

/-- No two things are in the same line of both sortings. -/
def Crosses (f g : Sorting α) : Prop := ∀ a b, f a = f b → g a = g b → a = b

/-- A line of one sorting holds what a line of the other one holds. -/
def Shares (f g : Sorting α) : Prop := ∃ x y, ∀ a, f a = x ↔ g a = y

/-- Everything is in a different line of each of the three sortings. -/
def Apart (f q r : Sorting α) : Prop := ∀ a, f a ≠ q a ∧ f a ≠ r a ∧ q a ≠ r a

/-- Three things are in every line. -/
def Even [Fintype α] (f : Sorting α) : Prop := ∀ x, (Finset.univ.filter (f · = x)).card = 3

instance [Fintype α] [DecidableEq α] : Decidable (f.Crosses g) :=
  inferInstanceAs (Decidable (∀ a b, f a = f b → g a = g b → a = b))

instance [Fintype α] : Decidable (f.Shares g) :=
  inferInstanceAs (Decidable (∃ x y, ∀ a, f a = x ↔ g a = y))

/-- Two sortings can each be set apart from two others, so that of these the first one crosses `X`,
    the last one crosses `Y`, and the two between them cross each other. -/
def Joined (X Y f g : Sorting α) : Prop := ∃ q r q' r', Apart f q r ∧ Apart g q' r' ∧
  Crosses r X ∧ Crosses q r' ∧ Crosses q' Y

theorem Crosses.symm (h : f.Crosses g) : g.Crosses f := fun a b one two => h a b two one

theorem Apart.symm (h : Apart f q r) : Apart f r q :=
  fun a => ⟨(h a).2.1, (h a).1, (h a).2.2.symm⟩

/-! ### What is sorted -/

theorem crosses_comp (e : α ≃ β) {f g : Sorting β} : Crosses (f ∘ e) (g ∘ e) ↔ f.Crosses g := by
  constructor
  · intro h a b one two
    refine e.symm.injective (h _ _ ?_ ?_)
    · simpa using one
    · simpa using two
  · exact fun h a b one two => e.injective (h (e a) (e b) one two)

theorem shares_comp (e : α ≃ β) {f g : Sorting β} : Shares (f ∘ e) (g ∘ e) ↔ f.Shares g := by
  refine exists₂_congr fun x y => ⟨fun h b => ?_, fun h a => h (e a)⟩
  simpa using h (e.symm b)

theorem even_comp [Fintype α] [Fintype β] (e : α ≃ β) {f : Sorting β} :
    Even (f ∘ e) ↔ f.Even := by
  refine forall_congr' fun x => ?_
  rw [Finset.card_equiv e]
  simp

theorem Apart.comp (e : α ≃ β) {f q r : Sorting β} (h : Apart f q r) :
    Apart (f ∘ e) (q ∘ e) (r ∘ e) :=
  fun a => h (e a)

theorem Joined.comp (e : α ≃ β) {X Y f g : Sorting β} (h : Joined X Y f g) :
    Joined (X ∘ e) (Y ∘ e) (f ∘ e) (g ∘ e) := by
  obtain ⟨q, r, q', r', first, second, start, middle, finish⟩ := h
  exact ⟨q ∘ e, r ∘ e, q' ∘ e, r' ∘ e, first.comp e, second.comp e, (crosses_comp e).mpr start,
    (crosses_comp e).mpr middle, (crosses_comp e).mpr finish⟩

theorem comp_symm_comp (e : α ≃ β) (f : Sorting α) : (f ∘ e.symm) ∘ e = f := by
  rw [Function.comp_assoc, e.symm_comp_self, Function.comp_id]

/-! ### How lines are numbered -/

theorem crosses_relabel (σ : Equiv.Perm (Fin 3)) : Crosses (σ ∘ f) g ↔ f.Crosses g := by
  simp only [Crosses, Function.comp_apply, σ.injective.eq_iff]

theorem shares_relabel (σ : Equiv.Perm (Fin 3)) : Shares (σ ∘ f) g ↔ f.Shares g := by
  constructor
  · rintro ⟨x, y, same⟩
    exact ⟨σ.symm x, y, fun a => by rw [← same, Function.comp_apply, Equiv.eq_symm_apply]⟩
  · rintro ⟨x, y, same⟩
    exact ⟨σ x, y, fun a => by rw [← same, Function.comp_apply, σ.injective.eq_iff]⟩

theorem even_relabel [Fintype α] (σ : Equiv.Perm (Fin 3)) (h : f.Even) : Even (σ ∘ f) := by
  intro x
  have same := h (σ.symm x)
  simpa only [Equiv.eq_symm_apply, Function.comp_apply] using same

theorem Apart.of_relabel (σ : Equiv.Perm (Fin 3)) (h : Apart (σ ∘ f) q r) :
    Apart f (σ.symm ∘ q) (σ.symm ∘ r) := by
  intro a
  obtain ⟨one, two, three⟩ := h a
  exact ⟨fun same => one (σ.eq_symm_apply.mp same), fun same => two (σ.eq_symm_apply.mp same),
    fun same => three (σ.symm.injective same)⟩

theorem Joined.of_relabel (σ τ : Equiv.Perm (Fin 3)) (h : Joined X Y (σ ∘ f) (τ ∘ g)) :
    Joined X Y f g := by
  obtain ⟨q, r, q', r', first, second, start, middle, finish⟩ := h
  refine ⟨_, _, _, _, first.of_relabel, second.of_relabel, (crosses_relabel _).mpr start, ?_,
    (crosses_relabel _).mpr finish⟩
  exact ((crosses_relabel τ.symm).mpr ((crosses_relabel σ.symm).mpr middle).symm).symm

/-! ### Crossing sortings as places -/

/-- The places of a box, by row and column. -/
abbrev Spot := Fin 3 × Fin 3

/-- Two sortings of nine things that cross are the rows and columns of an arrangement in a box. -/
theorem exists_places [Fintype α] (nine : Fintype.card α = 9) (h : f.Crosses g) :
    ∃ e : α ≃ Spot, Prod.fst ∘ e = f ∧ Prod.snd ∘ e = g := by
  have injective : Function.Injective fun a => (f a, g a) := by
    intro a b same
    obtain ⟨one, two⟩ := Prod.mk.inj same
    exact h a b one two
  have bijective : Function.Bijective fun a => (f a, g a) := by
    rw [Fintype.bijective_iff_injective_and_card, nine]
    exact ⟨injective, rfl⟩
  exact ⟨Equiv.ofBijective _ bijective, rfl, rfl⟩

end Sorting

end ExactCover
