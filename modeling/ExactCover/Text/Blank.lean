/-! # Blank characters

White space as the text forms of this library know it: which characters separate or
surround fields, how a line loses its surrounding white space, and where a text is cut
into lines.
-/

namespace ExactCover

/-- The code points with the White_Space property, as inclusive ranges in ascending order. -/
def blankRanges : List (Nat × Nat) :=
  [(0x9, 0xD), (0x20, 0x20), (0x85, 0x85), (0xA0, 0xA0), (0x1680, 0x1680), (0x2000, 0x200A),
    (0x2028, 0x2029), (0x202F, 0x202F), (0x205F, 0x205F), (0x3000, 0x3000)]

/-- Whether a code point lies in one of the ranges, both ends included. -/
def inRanges (ranges : List (Nat × Nat)) (code : Nat) : Bool :=
  ranges.any fun (first, last) => first ≤ code && code ≤ last

/-- White space in the sense of `blankRanges`; a zero width space or a byte order mark is not. -/
def isBlank (c : Char) : Bool :=
  inRanges blankRanges c.toNat

/-- The text without the white space at its two ends; white space inside it stays. -/
def trimBlank (text : List Char) : List Char :=
  ((text.dropWhile isBlank).reverse.dropWhile isBlank).reverse

/-- The lines of a text. A line ends at a line feed, which takes a carriage return directly
    before it along; an empty piece after the last line feed is no line. -/
def linesOf : List Char → List (List Char)
  | [] => []
  | '\n' :: rest => [] :: linesOf rest
  | '\r' :: '\n' :: rest => [] :: linesOf rest
  | c :: rest =>
      match linesOf rest with
      | [] => [[c]]
      | line :: more => (c :: line) :: more

/-- A text without white space is its own trimmed form. -/
theorem trimBlank_of_forall {text : List Char} (h : ∀ c ∈ text, isBlank c = false) :
    trimBlank text = text := by
  have keep : ∀ {chars : List Char}, (∀ c ∈ chars, isBlank c = false) →
      chars.dropWhile isBlank = chars := by
    intro chars hc
    cases chars with
    | nil => rfl
    | cons c rest => simp [hc c (by simp)]
  rw [trimBlank, keep h, keep (by simpa using h), List.reverse_reverse]

end ExactCover
