import ExactCover.Pattern.Escape

/-! # Bracketed classes

The classes of characters between square brackets: characters, ranges, named classes, classes
within classes, and the operators between them, which all bind alike and from the left.
-/

namespace ExactCover.Pattern

open Reading

/-- The classes that are known by a name. -/
def asciiClass? (name : List Char) : Option CharSet :=
  let digit := CharSet.range '0' '9'
  let lower := CharSet.range 'a' 'z'
  let upper := CharSet.range 'A' 'Z'
  match String.ofList name with
  | "alnum" => some (.unionAll [digit, upper, lower])
  | "alpha" => some (.unionAll [upper, lower])
  | "ascii" => some (.range '\x00' '\x7f')
  | "blank" => some (.unionAll [.single '\t', .single ' '])
  | "cntrl" => some (.unionAll [.range '\x00' '\x1f', .single '\x7f'])
  | "digit" => some digit
  | "graph" => some (.range '!' '~')
  | "lower" => some lower
  | "print" => some (.range ' ' '~')
  | "punct" =>
      some (.unionAll [.range '!' '/', .range ':' '@', .range '[' (Char.ofNat 96),
        .range '\x7b' '~'])
  | "space" => some (.unionAll [.range '\t' '\r', .single ' '])
  | "upper" => some upper
  | "word" => some (.unionAll [digit, upper, .single '_', lower])
  | "xdigit" => some (.unionAll [digit, .range 'A' 'F', .range 'a' 'f'])
  | _ => none

/-- The items of a class so far, the newest first, and where they start. -/
structure Items where
  span : Span
  items : List SetTree

namespace Items

def start : Reading Items := do
  return ⟨← here, []⟩

def push (items : Items) (item : SetTree) : Items :=
  let first := if items.items.isEmpty then item.span.first else items.span.first
  ⟨⟨first, item.span.stop⟩, item :: items.items⟩

def toTree (items : Items) : SetTree :=
  match items.items with
  | [] => .empty items.span
  | [item] => item
  | many => .union items.span many.reverse

end Items

/-- A class that has been opened: the items around it, its stretch so far, whether it is negated,
    and the operator with its left side that waits for a right side. -/
structure OpenClass where
  around : Items
  span : Span
  negated : Bool
  pending : Option (SetOperator × SetTree)

/-- What the items since the last operator make with the left side of that operator. -/
def OpenClass.combine (opened : OpenClass) (items : Items) : SetTree :=
  let right := items.toTree
  match opened.pending with
  | none => right
  | some (operator, left) => .binary ⟨left.span.first, right.span.stop⟩ operator left right

/-- Reads the signs at the start of a class that stand for themselves. -/
def readLeadingSigns (start : Spot) : Nat → Items → Reading Items
  | 0, items => return items
  | round + 1, items => do
      if ← sees '-' then
        let items := items.push (.literal ⟨← nextSpan, '-', false⟩)
        if !(← advance) then fail .classUnclosed (Span.at start)
        else readLeadingSigns start round items
      else return items

/-- Opens a class, from its bracket on. A closing bracket that comes first stands for itself. -/
def openClass (around : Items) : Reading (OpenClass × Items) := do
  let start ← spot
  if !(← advance) then fail .classUnclosed (← spanFrom start)
  let negated ← sees '^'
  if negated then
    if !(← advance) then fail .classUnclosed (← spanFrom start)
  let mut items ← readLeadingSigns start (← rounds) (← Items.start)
  if items.items.isEmpty then
    if ← sees ']' then
      items := items.push (.literal ⟨← nextSpan, ']', false⟩)
      if !(← advance) then fail .classUnclosed (← spanFrom start)
  return (⟨around, ← spanFrom start, negated, none⟩, items)

/-- Reads a class by its name between brackets and colons, if this is one. -/
def readNamedClass : Reading (Option SetTree) := do
  let before ← get
  let start ← spot
  let giveUp : Reading (Option SetTree) := do
    set before
    return none
  if !(← accept ['[', ':']) then giveUp
  else
    let negated ← accept ['^']
    let name := (← get).rest.takeWhile (· != ':')
    name.forM fun _ => bump
    if !(← accept [':', ']']) then giveUp
    else match asciiClass? name with
      | none => giveUp
      | some found => return some (.ascii (← spanFrom start) negated found)

/-- Reads a character or an escape sequence in a class. -/
def readItem : Reading Tree := do
  match ← peek with
  | some '\\' => readEscape
  | some c =>
      let span ← nextSpan
      bump
      return .literal ⟨span, c, false⟩
  | none => return .empty (← here)

/-- A part of a pattern as an item of a class. -/
def itemOf : Tree → Reading SetTree
  | .literal text => return .literal text
  | .letterClass span negated kind => return .letterClass span negated kind
  | .property span name => return .property span name
  | other => fail .classEscape other.span

/-- A part of a pattern as an end of a range. -/
def rangeEnd : Tree → Reading Literal
  | .literal text => return text
  | other => fail .classRangeEnd other.span

/-- Reads an item or a range in a class whose stretch so far is given. -/
def readRange (opened : Span) : Reading SetTree := do
  let first ← readItem
  skipBlanks
  if !(← hasMore) then fail .classUnclosed opened
  else
    let second ← peekSecondVisible
    if !(← sees '-') || second == some ']' || second == some '-' then itemOf first
    else if !(← advance) then fail .classUnclosed opened
    else
      let last ← readItem
      let low ← rangeEnd first
      let high ← rangeEnd last
      if low.char.toNat ≤ high.char.toNat then return .range low high
      else fail .classRange ⟨low.span.first, high.span.stop⟩

/-- The operator that comes next, if one does. -/
def readOperator : Reading (Option SetOperator) := do
  if ← accept ['&', '&'] then return some .intersection
  else if ← accept ['-', '-'] then return some .difference
  else if ← accept ['~', '~'] then return some .symmetricDifference
  else return none

/-- Reads on in a class, given the items since the last operator and the classes around it. -/
def readClassFrom : Nat → List OpenClass → OpenClass → Items → Reading Tree
  | 0, _, opened, _ => fail .classUnclosed opened.span
  | round + 1, outer, opened, items => do
      skipBlanks
      match ← peek with
      | none => fail .classUnclosed opened.span
      | some '[' =>
          match ← readNamedClass with
          | some found => readClassFrom round outer opened (items.push found)
          | none =>
              let (inner, started) ← openClass items
              readClassFrom round (opened :: outer) inner started
      | some ']' =>
          let content := opened.combine items
          bump
          let span ← spanFrom opened.span.first
          match outer with
          | [] => return .bracket span opened.negated content
          | next :: others =>
              readClassFrom round others next
                (opened.around.push (.bracket span opened.negated content))
      | some _ =>
          match ← readOperator with
          | some operator =>
              let left := opened.combine items
              readClassFrom round outer { opened with pending := some (operator, left) }
                (← Items.start)
          | none => readClassFrom round outer opened (items.push (← readRange opened.span))

def readClass : Reading Tree := do
  let rounds ← rounds
  let (opened, items) ← openClass (← Items.start)
  readClassFrom rounds [] opened items

end ExactCover.Pattern
