import ExactCover.Pattern.Bracket

/-! # The grammar of patterns

How the parts of a written pattern are put together: sequences, alternatives, repetitions and
groups.
-/

namespace ExactCover.Pattern

open Reading

/-- A sequence that is being read: where it starts, and its parts so far, the newest first. -/
structure Branch where
  start : Spot
  parts : List Tree

/-- What an opening parenthesis starts. -/
structure Opening where
  span : Span
  /-- Whether the group has a number. -/
  numbered : Bool
  /-- The flags of the group. -/
  items : List FlagItem

/-- A group that has not been closed: the sequence around it, the alternatives around that, and
    whether blanks are skipped there. -/
structure OpenGroup where
  opening : Opening
  around : Branch
  alternatives : Option Branch
  verbose : Bool

namespace Branch

def begin : Reading Branch := do
  return ⟨← spot, []⟩

def push (branch : Branch) (part : Tree) : Branch :=
  { branch with parts := part :: branch.parts }

def toTree (branch : Branch) (stop : Spot) : Tree :=
  match branch.parts with
  | [] => .empty ⟨branch.start, stop⟩
  | [part] => part
  | many => .sequence ⟨branch.start, stop⟩ many.reverse

end Branch

/-- The alternatives so far together with the sequence that is being read. -/
def closeAlternatives (alternatives : Option Branch) (branch : Branch) (stop : Spot) : Tree :=
  match alternatives with
  | none => branch.toTree stop
  | some earlier =>
      .alternation ⟨earlier.start, stop⟩ (branch.toTree stop :: earlier.parts).reverse

def flag? : Char → Option Flag
  | 'i' => some .caseless
  | 'm' => some .multiLine
  | 's' => some .dotAll
  | 'U' => some .swapGreed
  | 'u' => some .unicode
  | 'R' => some .returns
  | 'x' => some .verbose
  | _ => none

/-- Reads flags up to a colon or a closing parenthesis. Those so far are given with their
    stretches, the newest first. -/
def readFlags : Nat → List (FlagItem × Span) → Reading (List FlagItem)
  | 0, _ => do fail .flagUnfinished (← here)
  | round + 1, items => do
      let span ← nextSpan
      match ← peek with
      | none => fail .flagUnfinished (← here)
      | some ':' | some ')' =>
          match items with
          | (.negation, sign) :: _ => fail .flagDangling sign
          | _ => return (items.map (·.1)).reverse
      | some c =>
          let item ← if c = '-' then pure FlagItem.negation else
            match flag? c with
            | some known => pure (.flag known)
            | none => fail .flagUnknown span
          match items.find? (·.1 == item) with
          | some (_, earlier) =>
              failAgainst (if c = '-' then .flagNegatedTwice else .flagDuplicate) span earlier
          | none =>
              bump
              readFlags round ((item, span) :: items)

/-- Whether a character may stand in the name of a group. -/
def isNameChar (first : Bool) (c : Char) : Bool :=
  c == '_' || isLetter c || (!first && (c == '.' || c == '[' || c == ']' || isNumber c))

/-- Reads the characters of a name up to a closing angle bracket. -/
def readNameChars : Nat → Bool → Reading (List Char)
  | 0, _ => return []
  | round + 1, first => do
      match ← peek with
      | none | some '>' => return []
      | some c =>
          if isNameChar first c then
            bump
            return c :: (← readNameChars round false)
          else fail .nameInvalid (← nextSpan)

def readName : Reading Unit := do
  let start ← spot
  let name ← readNameChars (← rounds) true
  let span ← spanFrom start
  if !(← sees '>') then fail .nameUnclosed (← here)
  else
    bump
    if name.isEmpty then fail .nameEmpty (Span.at start)
    else match (← get).names.lookup name with
      | some earlier => failAgainst .nameDuplicate span earlier
      | none => modify fun reader => { reader with names := (name, span) :: reader.names }

/-- Reads the start of a group, from its parenthesis on, or flags for what follows. -/
def readOpening : Reading (Tree ⊕ Opening) := do
  let start ← nextSpan
  bump
  skipBlanks
  if ← acceptAny [['?', '='], ['?', '!'], ['?', '<', '='], ['?', '<', '!']] then
    fail .lookAround (← spanFrom start.first)
  let question ← here
  if ← acceptAny [['?', 'P', '<'], ['?', '<']] then
    readName
    return .inr ⟨start, true, []⟩
  else if ← accept ['?'] then
    if !(← hasMore) then fail .groupUnclosed start
    let items ← readFlags (← rounds) []
    let closing ← sees ')'
    bump
    if !closing then return .inr ⟨start, false, items⟩
    else if items.isEmpty then fail .repetitionMissing question
    else return .inl (.flags (← spanFrom start.first) items)
  else return .inr ⟨start, true, []⟩

/-- The part that a repetition repeats, and the parts before it. -/
def repeatedPart (branch : Branch) : Reading (Tree × Branch) := do
  match branch.parts with
  | [] | .empty _ :: _ | .flags .. :: _ => fail .repetitionMissing (← here)
  | part :: before => return (part, { branch with parts := before })

/-- Reads a repetition by a single sign, from the sign on. -/
def readSignRepetition (branch : Branch) (least : Nat) (most : Option Nat) : Reading Branch := do
  let (part, branch) ← repeatedPart branch
  bump
  let _ ← accept ['?']
  return branch.push (.repetition ⟨part.span.first, ← spot⟩ least most part)

/-- Reads a number, with blanks around it, and gives it or what is wrong with it. -/
def readNumber : Reading (Except Problem Nat) := do
  passBlanks (← rounds)
  let start ← spot
  let digits ← collect Char.isDigit (← rounds)
  let span ← spanFrom start
  let _ ← collect isBlank (← rounds)
  if digits.isEmpty then return .error ⟨.countEmpty, span, none⟩
  else
    let value := valueOfDigits 10 digits
    if value < UInt32.size then return .ok value
    else return .error ⟨.countInvalid, span, none⟩

/-- Reads the numbers of a counted repetition, from its brace on. -/
def readCounts (start : Spot) : Reading (Nat × Option Nat) := do
  let first ← readNumber
  if !(← hasMore) then fail .countUnclosed (← spanFrom start)
  else if ← sees ',' then
    if !(← advance) then fail .countUnclosed (← spanFrom start)
    else if ← sees '\x7d' then return (← first, none)
    else
      let least ← first
      let most ← (← readNumber)
      return (least, some most)
  else
    let count ← first
    return (count, some count)

/-- Reads a counted repetition, from its brace on. -/
def readCountedRepetition (branch : Branch) : Reading Branch := do
  let start ← spot
  let (part, branch) ← repeatedPart branch
  if !(← advance) then fail .countUnclosed (← spanFrom start)
  let (least, most) ← readCounts start
  if !(← sees '\x7d') then fail .countUnclosed (← spanFrom start)
  let _ ← advance
  let _ ← accept ['?']
  if most.any (· < least) then fail .countOrder (← spanFrom start)
  return branch.push (.repetition ⟨part.span.first, ← spot⟩ least most part)

/-- Reads a single character or an escape sequence. -/
def readSimple (c : Char) : Reading Tree := do
  if c = '\\' then readEscape
  else
    let span ← nextSpan
    bump
    match c with
    | '.' => return .dot span
    | '^' => return .lineStart span
    | '$' => return .lineStop span
    | _ => return .literal ⟨span, c, false⟩

def setVerbose (verbose : Bool) : Reading Unit :=
  modify fun reader => { reader with verbose := verbose }

/-- Reads on in a sequence, given the alternatives before it and the groups around it. -/
def readFrom : Nat → List OpenGroup → Option Branch → Branch → Reading Tree
  | 0, _, alternatives, branch => return closeAlternatives alternatives branch (← spot)
  | round + 1, groups, alternatives, branch => do
      skipBlanks
      match ← peek with
      | none =>
          match groups with
          | [] => return closeAlternatives alternatives branch (← spot)
          | inner :: _ => fail .groupUnclosed inner.opening.span
      | some '(' =>
          match ← readOpening with
          | .inl flags =>
              match flags with
              | .flags _ items => (stateOf .verbose items).forM setVerbose
              | _ => pure ()
              readFrom round groups alternatives (branch.push flags)
          | .inr opening =>
              let verbose := (← get).verbose
              setVerbose ((stateOf .verbose opening.items).getD verbose)
              readFrom round (⟨opening, branch, alternatives, verbose⟩ :: groups) none
                (← Branch.begin)
      | some ')' =>
          match groups with
          | [] => fail .groupUnopened (← nextSpan)
          | inner :: outer =>
              setVerbose inner.verbose
              let body := closeAlternatives alternatives branch (← spot)
              bump
              let span ← spanFrom inner.opening.span.first
              readFrom round outer inner.alternatives
                (inner.around.push (.group span inner.opening.numbered inner.opening.items body))
      | some '|' =>
          let stop ← spot
          let earlier := (alternatives.getD ⟨branch.start, []⟩).push (branch.toTree stop)
          bump
          readFrom round groups (some earlier) (← Branch.begin)
      | some '[' => readFrom round groups alternatives (branch.push (← readClass))
      | some '?' => readFrom round groups alternatives (← readSignRepetition branch 0 (some 1))
      | some '*' => readFrom round groups alternatives (← readSignRepetition branch 0 none)
      | some '+' => readFrom round groups alternatives (← readSignRepetition branch 1 none)
      | some '\x7b' => readFrom round groups alternatives (← readCountedRepetition branch)
      | some c => readFrom round groups alternatives (branch.push (← readSimple c))

/-- Reads a pattern, or says what is wrong with it. -/
def Tree.parse (pattern : List Char) : Except Problem Tree := do
  let (tree, _) ← (readFrom (pattern.length + 1) [] none ⟨.start, []⟩).run
    ⟨pattern, .start, false, []⟩
  match tree.tooDeep 0 with
  | none => return tree
  | some span => throw ⟨.nestedTooDeeply, span, none⟩

end ExactCover.Pattern
