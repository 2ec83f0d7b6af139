import ExactCover.Pattern.Tree

/-! # Reading a pattern

A written pattern is read from left to right. What is read so far is known by the characters that
are left and the spot that they start at. In the verbose form blanks and comments are skipped
between the parts of a pattern.
-/

namespace ExactCover.Pattern

/-- How far a pattern has been read. -/
structure Reader where
  rest : List Char
  spot : Spot
  verbose : Bool
  /-- The names of groups so far, the newest first. -/
  names : List (List Char × Span)

/-- A part of the reading of a pattern. -/
abbrev Reading := StateT Reader (Except Problem)

/-- What follows the blanks and comments at the start of a text, and its spot. -/
def skipBlanksFrom : Bool → List Char → Spot → List Char × Spot
  | _, [], spot => ([], spot)
  | true, c :: rest, spot => skipBlanksFrom (c != '\n') rest (spot.after c)
  | false, c :: rest, spot =>
      if isBlank c then skipBlanksFrom false rest (spot.after c)
      else if c = '#' then skipBlanksFrom true rest (spot.after c)
      else (c :: rest, spot)

/-- The first character of a text that is no blank. The sign of a comment is passed over, but
    what the comment says is not. -/
def secondVisible : Bool → List Char → Option Char
  | _, [] => none
  | inComment, c :: rest =>
      if isBlank c then secondVisible inComment rest
      else if !inComment && c == '#' then secondVisible true rest
      else some c

namespace Reading

def fail {α : Type} (cause : Cause) (span : Span) : Reading α :=
  throw ⟨cause, span, none⟩

/-- Fails for a stretch that is at odds with an earlier one. -/
def failAgainst {α : Type} (cause : Cause) (span earlier : Span) : Reading α :=
  throw ⟨cause, span, some earlier⟩

def peek : Reading (Option Char) := do
  return (← get).rest.head?

def sees (c : Char) : Reading Bool := do
  return (← peek) == some c

/-- The character after the next one. -/
def peekSecond : Reading (Option Char) := do
  return (← get).rest[1]?

/-- The character after the next one, skipping what the verbose form skips. -/
def peekSecondVisible : Reading (Option Char) := do
  let reader ← get
  let following := reader.rest.tail
  return if reader.verbose then (secondVisible false following).or following.head?
    else following.head?

def spot : Reading Spot := do
  return (← get).spot

/-- The empty stretch before the next character. -/
def here : Reading Span := do
  return Span.at (← spot)

def nextSpan : Reading Span := do
  let reader ← get
  return match reader.rest with
    | [] => Span.at reader.spot
    | c :: _ => ⟨reader.spot, reader.spot.after c⟩

/-- The stretch from a spot to the next character. -/
def spanFrom (first : Spot) : Reading Span := do
  return ⟨first, ← spot⟩

def hasMore : Reading Bool := do
  return !(← get).rest.isEmpty

/-- More rounds than characters are left. -/
def rounds : Reading Nat := do
  return (← get).rest.length + 1

def bump : Reading Unit :=
  modify fun reader => match reader.rest with
    | [] => reader
    | c :: rest => { reader with rest := rest, spot := reader.spot.after c }

/-- Skips blanks and comments in the verbose form. -/
def skipBlanks : Reading Unit :=
  modify fun reader =>
    if reader.verbose then
      let (rest, spot) := skipBlanksFrom false reader.rest reader.spot
      { reader with rest := rest, spot := spot }
    else reader

/-- Passes the next character and what the verbose form skips, and tells whether a character is
    left. -/
def advance : Reading Bool := do
  bump
  skipBlanks
  hasMore

def accept (text : List Char) : Reading Bool := do
  if text.isPrefixOf (← get).rest then
    text.forM fun _ => bump
    return true
  else return false

/-- Passes the first of several texts that comes next. -/
def acceptAny : List (List Char) → Reading Bool
  | [] => return false
  | text :: others => do
      if ← accept text then return true
      acceptAny others

/-- Passes the characters that pass a test, and what is skipped between them. -/
def collect (test : Char → Bool) : Nat → Reading (List Char)
  | 0 => return []
  | round + 1 => do
      match ← peek with
      | some c =>
          if test c then
            let _ ← advance
            return c :: (← collect test round)
          else return []
      | none => return []

def passBlanks : Nat → Reading Unit
  | 0 => return
  | round + 1 => do
      if (← peek).any isBlank then
        bump
        passBlanks round

end Reading

/-- The value of digits in a base of at most sixteen. -/
def valueOfDigits (base : Nat) (digits : List Char) : Nat :=
  digits.foldl (fun value c => value * base + digitValue c) 0
where
  digitValue (c : Char) : Nat :=
    if c.isDigit then c.toNat - '0'.toNat else c.toLower.toNat - 'a'.toNat + 10

def isHexDigit (c : Char) : Bool :=
  c.isDigit || ('a' ≤ c && c ≤ 'f') || ('A' ≤ c && c ≤ 'F')

/-- The character of a code point. -/
def charOfCode? (code : Nat) : Option Char :=
  if code.isValidChar then some (Char.ofNat code) else none

end ExactCover.Pattern
