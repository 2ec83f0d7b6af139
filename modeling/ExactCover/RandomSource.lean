/-! # A seeded source of random numbers

A generator on 64 bit words that steps by an odd constant and mixes by one product of 128 bits.
The same seed gives the same numbers.
-/

namespace ExactCover

/-- A way to draw numbers below a positive limit from a state. -/
abbrev Draw (σ : Type) := (limit : Nat) → 0 < limit → σ → Fin limit × σ

/-- The state of the generator. -/
structure RandomSource where
  /-- The word that the next step starts from. -/
  state : UInt64
  deriving DecidableEq

namespace RandomSource

def ofSeed (seed : UInt64) : RandomSource := ⟨seed⟩

/-- The next word: the two halves of the product of the stepped state and its mask. -/
def next (source : RandomSource) : UInt64 × RandomSource :=
  let state := source.state + 0x2d358dccaa6c78a5
  let product := state.toNat * (state ^^^ 0x8bb84b93962eacc9).toNat
  (UInt64.ofNat (product % UInt64.size) ^^^ UInt64.ofNat (product / UInt64.size), ⟨state⟩)

/-- The high word of the product of a random word and a limit is below the limit. -/
theorem high_lt (word : UInt64) {limit : Nat} (positive : 0 < limit) :
    word.toNat * limit / UInt64.size < limit := by
  apply Nat.div_lt_of_lt_mul
  exact Nat.mul_lt_mul_of_pos_right word.toNat_lt_size positive

/-- Draws words until the low word of the product with the limit is not below the threshold,
    and gives the high word. -/
def redraw (limit threshold : Nat) (positive : 0 < limit) :
    Nat → UInt64 → RandomSource → Fin limit × RandomSource
  | 0, word, source => (⟨word.toNat * limit / UInt64.size, high_lt word positive⟩, source)
  | fuel + 1, word, source =>
      if word.toNat * limit % UInt64.size < threshold then
        let (word, source) := source.next
        redraw limit threshold positive fuel word source
      else (⟨word.toNat * limit / UInt64.size, high_lt word positive⟩, source)

/-- A number below the limit, all of them equally likely. A word is rejected when its low
    product falls into the remainder that would favour some numbers. The state takes every value
    within as many steps as there are words, so no more words need to be drawn. -/
def below : Draw RandomSource := fun limit positive source =>
  let (word, source) := source.next
  if word.toNat * limit % UInt64.size < limit then
    redraw limit ((UInt64.size - limit) % limit) positive (UInt64.size) word source
  else (⟨word.toNat * limit / UInt64.size, high_lt word positive⟩, source)

end RandomSource

/-- Shuffles by swapping each place, from the second on, with a drawn place up to it. -/
def shuffle {α σ : Type} {n : Nat} (draw : Draw σ) (items : Vector α n) (state : σ) :
    Vector α n × σ :=
  (List.range (n - 1)).foldl
    (fun (items, state) k =>
      let (pick, state) := draw (k + 2) (by omega) state
      (items.swapIfInBounds (k + 1) pick, state))
    (items, state)

end ExactCover
