import ExactCover.Pattern.Reader
import ExactCover.Text.Letter

/-! # Escape sequences

What a backslash and the characters after it stand for.
-/

namespace ExactCover.Pattern

open Reading

/-- Whether a character has a meaning of its own in patterns. -/
def isMeta (c : Char) : Bool :=
  ['\\', '.', '+', '*', '?', '(', ')', '|', '[', ']', '\x7b', '\x7d', '^', '$', '#', '&', '-',
    '~'].contains c

/-- Whether a character after a backslash stands for itself. -/
def isEscapable (c : Char) : Bool :=
  isMeta c || (c.toNat < 128 && !c.isAlphanum && c != '<' && c != '>')

/-- The characters that have a name of one letter. -/
def namedChar? : Char → Option Char
  | 'a' => some '\x07'
  | 'f' => some '\x0c'
  | 't' => some '\t'
  | 'n' => some '\n'
  | 'r' => some '\r'
  | 'v' => some '\x0b'
  | _ => none

/-- Reads the digits of a character between braces, given where the sequence starts. -/
def readHexBrace (start : Spot) : Reading Tree := do
  let brace ← spot
  let inside := (← nextSpan).stop
  let _ ← advance
  let digits ← collect isHexDigit (← rounds)
  match ← peek with
  | none => fail .escapeUnfinished (← spanFrom brace)
  | some '\x7d' =>
      let stop ← spot
      let _ ← advance
      if digits.isEmpty then fail .hexEmpty (← spanFrom brace)
      else match charOfCode? (valueOfDigits 16 digits) with
        | none => fail .hexInvalid ⟨inside, stop⟩
        | some c => return .literal ⟨← spanFrom start, c, false⟩
  | some _ => fail .hexDigit (← nextSpan)

/-- Reads so many hexadecimal digits, the first of which comes next. -/
def readHexDigits : Nat → Reading (List Char)
  | 0 => return []
  | count + 1 => do
      match ← peek with
      | none => fail .escapeUnfinished (← here)
      | some c =>
          if isHexDigit c then
            let _ ← advance
            return c :: (← readHexDigits count)
          else fail .hexDigit (← nextSpan)

/-- Reads a character given by its number, after the letter that says how many digits it has. -/
def readHex (start : Spot) (letter : Char) : Reading Tree := do
  if !(← advance) then fail .escapeUnfinished (← here)
  else if ← sees '\x7b' then readHexBrace start
  else
    let first ← spot
    let digits ← readHexDigits (if letter = 'x' then 2 else if letter = 'u' then 4 else 8)
    match charOfCode? (valueOfDigits 16 digits) with
    | none => fail .hexInvalid (← spanFrom first)
    | some c => return .literal ⟨← spanFrom start, c, letter == 'x'⟩

/-- Reads the name of a property, after its letter. -/
def readProperty (start : Spot) : Reading Tree := do
  if !(← advance) then fail .escapeUnfinished (← here)
  else match ← peek with
    | some '\x7b' =>
        let _ ← advance
        let name ← collect (· != '\x7d') (← rounds)
        if !(← hasMore) then fail .escapeUnfinished (← here)
        else
          bump
          let valued := name.contains '=' || name.contains ':'
          return .property (← spanFrom start) (if valued then .valued else .named name)
    | some '\\' => fail .propertyInvalid (← nextSpan)
    | some c =>
        let _ ← advance
        return .property (← spanFrom start) (.letter c)
    | none => fail .escapeUnfinished (← here)

/-- The places that are asked for by a name between braces. -/
def wordPlace? : String → Option WordPlace
  | "start" => some .start
  | "end" => some .stop
  | "start-half" => some .startHalf
  | "end-half" => some .stopHalf
  | _ => none

/-- Reads the name between braces of a kind of place, if there is one. Braces that cannot hold a
    name are left for a repetition. -/
def readWordPlace (start : Spot) : Reading (Option WordPlace) := do
  let before ← get
  let brace ← spot
  let isNameChar (c : Char) : Bool := c.isAlpha || c == '-'
  if !(← advance) then fail .boundaryUnfinished (← spanFrom start)
  else if !(← peek).any isNameChar then
    set before
    return none
  else
    let inside ← spot
    let name ← collect isNameChar (← rounds)
    if ← sees '\x7d' then
      let stop ← spot
      bump
      match wordPlace? (String.ofList name) with
      | none => fail .boundaryUnknown ⟨inside, stop⟩
      | some found => return some found
    else fail .boundaryUnclosed (← spanFrom brace)

def readEscape : Reading Tree := do
  let start ← spot
  bump
  match ← peek with
  | none => fail .escapeUnfinished (← spanFrom start)
  | some c =>
      let one : Span := ⟨start, (← nextSpan).stop⟩
      if c.isDigit then fail .backreference one
      else if c = 'x' ∨ c = 'u' ∨ c = 'U' then readHex start c
      else if c = 'p' ∨ c = 'P' then readProperty start
      else
        bump
        if isEscapable c then return .literal ⟨one, c, false⟩
        else match namedChar? c with
          | some named => return .literal ⟨one, named, false⟩
          | none =>
              match c with
              | 'd' | 'D' => return .letterClass one (c == 'D') .digit
              | 's' | 'S' => return .letterClass one (c == 'S') .blank
              | 'w' | 'W' => return .letterClass one (c == 'W') .word
              | 'A' => return .textStart one
              | 'z' => return .textStop one
              | 'B' => return .word one .noBoundary
              | '<' => return .word one .start
              | '>' => return .word one .stop
              | 'b' =>
                  if ← sees '\x7b' then
                    match ← readWordPlace start with
                    | some found => return .word (← spanFrom start) found
                    | none => return .word one .boundary
                  else return .word one .boundary
              | _ => fail .escapeUnknown one

end ExactCover.Pattern
