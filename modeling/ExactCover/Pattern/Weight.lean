import ExactCover.Pattern

/-! # The weight of a pattern

A pattern is refused when the machine that would look for it is too large. The weight of a
pattern is an estimate of that machine's size in bytes: a state takes 32 bytes, and a transition
of a state that has several takes 8 more, or 4 more when it needs no character. Repetitions with
numbers are written out in full.
-/

namespace ExactCover.Pattern

/-- The most that a pattern may weigh. -/
def weightLimit : Nat := 10485760

/-- The number of runs of neighbouring code points below 128 that are in a set. -/
def asciiRuns (set : CharSet) : Nat :=
  let inside := (List.range 128).map fun code => set.contains (Char.ofNat code)
  ((false :: inside).zip inside).countP fun (before, now) => now && !before

/-- The code points where a run of characters of a set may start. -/
def runStarts : CharSet → List Nat
  | .none => []
  | .range first last => [first.toNat, last.toNat + 1]
  | .union a b | .intersection a b | .difference a b | .symmetricDifference a b =>
      runStarts a ++ runStarts b
  | .complement a => runStarts a
  | .bothCases a => runStarts a

/-- Whether a set has characters of more than one byte. -/
def isWide (set : CharSet) : Bool :=
  (0x80 :: runStarts set).any fun code => 0x80 ≤ code && set.contains (Char.ofNat code)

def charWeight (c : Char) : Nat := 32 * c.utf8Size

/-- The weight of a set, in the machine that reads forward or in the one that reads backward. -/
def setWeight (backward : Bool) : CharSet → Nat
  | .range first last =>
      if first = last then charWeight first else spread (.range first last)
  | set => spread set
where
  spread (set : CharSet) : Nat :=
    let runs := asciiRuns set
    if !isWide set then 64 + 8 * runs
    else if backward then 32 * (runs + 28) + 4 * (runs + 8)
    else 344 + 8 * (runs + 8)

/-- The weight of a pattern, in the machine that reads forward or in the one that reads backward,
    which takes no note of groups. -/
def weight (backward : Bool) : Pattern → Nat
  | empty | place _ => 32
  | one set => setWeight backward set
  | both first second => first.weight backward + second.weight backward
  | either first second => 72 + first.weight backward + second.weight backward
  | group body => (if backward then 0 else 64) + body.weight backward
  | repeated 0 none body =>
      if body.isNeverEmpty then 40 + body.weight backward else 112 + body.weight backward
  | repeated least none body => 40 + least * body.weight backward
  | repeated 0 (some most) body => 32 + most * (40 + body.weight backward)
  | repeated least (some most) body =>
      least * body.weight backward +
        (if most = least then 0 else 32 + (most - least) * (40 + body.weight backward))

/-- Whether a pattern is too large for one of the two machines. -/
def isTooHeavy (backward : Bool) (pattern : Pattern) : Bool :=
  weightLimit < 208 + pattern.weight backward

end ExactCover.Pattern
