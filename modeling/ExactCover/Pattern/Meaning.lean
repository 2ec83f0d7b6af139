import ExactCover.Pattern.Grammar

/-! # The meaning of a written pattern

What the parts of a written pattern stand for, given the flags that hold where they stand. Flags
hold up to the end of the group that they stand in. Without the flag `unicode` a pattern is about
bytes, and as texts are in UTF-8 only its sets of ASCII characters have a meaning. With the flag
there are no tables to look up properties of characters or their other cases in.
-/

namespace ExactCover.Pattern

/-- The flags that matter for what a pattern stands for. -/
structure Flags where
  /-- Letters stand for both of their cases. -/
  caseless : Bool
  /-- Lines start and end inside a text as well. -/
  multiLine : Bool
  /-- The dot stands for the ends of lines too. -/
  dotAll : Bool
  /-- A carriage return ends a line too. -/
  returns : Bool
  /-- The pattern is about characters. -/
  unicode : Bool

namespace Flags

/-- The flags that hold at the start of a pattern. -/
def start : Flags where
  caseless := false
  multiLine := false
  dotAll := false
  returns := false
  unicode := true

/-- The flags after a list of flags. -/
def set (flags : Flags) (items : List FlagItem) : Flags where
  caseless := (stateOf .caseless items).getD flags.caseless
  multiLine := (stateOf .multiLine items).getD flags.multiLine
  dotAll := (stateOf .dotAll items).getD flags.dotAll
  returns := (stateOf .returns items).getD flags.returns
  unicode := (stateOf .unicode items).getD flags.unicode

end Flags

def refuse {α : Type} (cause : Cause) (span : Span) : Except Problem α :=
  .error ⟨cause, span, none⟩

/-- The character that a literal stands for. A byte that is no ASCII character has no meaning of
    its own. -/
def Literal.meaning (flags : Flags) (text : Literal) : Except Problem Char :=
  if !flags.unicode && text.isByte && 128 ≤ text.char.toNat then refuse .notUtf8 text.span
  else .ok text.char

/-- The character that a literal in a class stands for. -/
def Literal.meaningInClass (flags : Flags) (text : Literal) : Except Problem Char := do
  let c ← text.meaning flags
  if !flags.unicode && 128 ≤ c.toNat then refuse .unicodeNotAllowed text.span
  else return c

/-- The set that a class with a letter of its own stands for. -/
def LetterClass.meaning (flags : Flags) (span : Span) (negated : Bool) (kind : LetterClass) :
    Except Problem CharSet :=
  if flags.unicode then refuse .classUnavailable span
  else if negated then refuse .notUtf8 span
  else .ok (match kind with
    | .digit => .range '0' '9'
    | .blank => .unionAll [.range '\t' '\r', .single ' ']
    | .word => .unionAll [.range '0' '9', .range 'A' 'Z', .single '_', .range 'a' 'z'])

/-- A name without case, blanks, hyphens, underscores and an initial "is". -/
def plainName (name : List Char) : List Char :=
  let rest := match name with
    | first :: second :: rest =>
        if first.toLower = 'i' ∧ second.toLower = 's' then rest else name
    | _ => name
  (rest.filter fun c => !(c == ' ' || c == '_' || c == '-') && c.toNat < 128).map Char.toLower

/-- Why the characters with a property cannot be given. -/
def PropertyName.refusal (flags : Flags) : PropertyName → Cause
  | .named name =>
      if !flags.unicode then .unicodeNotAllowed
      else if [['c', 'f'], ['s', 'c'], ['l', 'c']].contains (plainName name) then
        .propertyValueUnknown
      else .propertyUnknown
  | .letter _ | .valued => if flags.unicode then .propertyUnknown else .unicodeNotAllowed

/-- A set of characters, and whether it is known to hold both cases of its letters. -/
structure CasedSet where
  set : CharSet
  folded : Bool

namespace CasedSet

def none : CasedSet := ⟨.none, true⟩

def union (a b : CasedSet) : CasedSet := ⟨.union a.set b.set, a.folded && b.folded⟩

/-- The set with both cases of its letters, where case does not matter. -/
def fold (flags : Flags) (span : Span) (a : CasedSet) : Except Problem CasedSet :=
  if !flags.caseless then .ok a
  else if !flags.unicode then .ok ⟨.bothCases a.set, true⟩
  else if a.folded then .ok a
  else refuse .caseUnavailable span

/-- The set of a class: with both cases where case does not matter, and then negated or not. -/
def close (flags : Flags) (span : Span) (negated : Bool) (a : CasedSet) :
    Except Problem CasedSet := do
  let folded ← a.fold flags span
  if !negated then return folded
  else if flags.unicode then return { folded with set := .complement folded.set }
  else refuse .notUtf8 span

end CasedSet

def SetOperator.apply : SetOperator → CharSet → CharSet → CharSet
  | .intersection => .intersection
  | .difference => .difference
  | .symmetricDifference => .symmetricDifference

namespace SetTree

mutual

/-- The set that an item of a class stands for. -/
def meaning (flags : Flags) : SetTree → Except Problem CasedSet
  | empty _ => .ok .none
  | .literal text => do
      let c ← text.meaningInClass flags
      return ⟨.single c, false⟩
  | range first last => do
      let low ← first.meaningInClass flags
      let high ← last.meaningInClass flags
      return ⟨.range low high, false⟩
  | ascii span negated set => CasedSet.close flags span negated ⟨set, false⟩
  | letterClass span negated kind => do
      let set ← kind.meaning flags span negated
      return ⟨set, true⟩
  | property span name => refuse (name.refusal flags) span
  | bracket span negated set => do (← set.meaning flags).close flags span negated
  | union _ items => meaningOf flags items
  | binary _ operator left right => do
      let first ← left.meaning flags
      let second ← right.meaning flags
      let second ← second.fold flags right.span
      let first ← first.fold flags left.span
      return ⟨operator.apply first.set second.set, first.folded && second.folded⟩

def meaningOf (flags : Flags) : List SetTree → Except Problem CasedSet
  | [] => .ok .none
  | item :: rest => do
      let first ← item.meaning flags
      return first.union (← meaningOf flags rest)

end

end SetTree

def charMeaning (flags : Flags) (text : Literal) : Except Problem Pattern := do
  let c ← text.meaning flags
  if !flags.caseless then return .one (.single c)
  else if flags.unicode then refuse .caseUnavailable text.span
  else if c.isAlpha then return .one (.bothCases (.single c))
  else return .one (.single c)

def dotMeaning (flags : Flags) (span : Span) : Except Problem Pattern :=
  if !flags.unicode then refuse .notUtf8 span
  else if flags.dotAll then .ok (.one .all)
  else if flags.returns then
    .ok (.one (.complement (.unionAll [.single '\n', .single '\r'])))
  else .ok (.one (.complement (.single '\n')))

/-- The pattern of several alternatives. Alternatives of one character each are a set. -/
def alternatives (patterns : List Pattern) : Pattern :=
  let sets := patterns.filterMap fun
    | one set => some set
    | _ => none
  if sets.length = patterns.length then one (.unionAll sets) else many patterns
where
  many : List Pattern → Pattern
    | [] => one .none
    | [pattern] => pattern
    | pattern :: rest => either pattern (many rest)

namespace Tree

mutual

/-- The pattern that a part of a written pattern stands for, and the flags after it. -/
def meaning (flags : Flags) : Tree → Except Problem (Pattern × Flags)
  | empty _ => .ok (.empty, flags)
  | .flags _ items => .ok (.empty, flags.set items)
  | .literal text => do return (← charMeaning flags text, flags)
  | dot span => do return (← dotMeaning flags span, flags)
  | lineStart _ =>
      .ok (.place (if flags.multiLine then .lineStart flags.returns else .textStart), flags)
  | lineStop _ =>
      .ok (.place (if flags.multiLine then .lineStop flags.returns else .textStop), flags)
  | textStart _ => .ok (.place .textStart, flags)
  | textStop _ => .ok (.place .textStop, flags)
  | word _ kind => .ok (.place (if flags.unicode then .anyWord kind else .word kind), flags)
  | letterClass span negated kind => do return (.one (← kind.meaning flags span negated), flags)
  | property span name => refuse (name.refusal flags) span
  | bracket span negated set => do
      let found ← (← set.meaning flags).close flags span negated
      return (.one found.set, flags)
  | repetition _ least most body => do
      let (pattern, flags) ← body.meaning flags
      return (pattern.times least most, flags)
  | group _ numbered items body => do
      let (pattern, _) ← body.meaning (flags.set items)
      return (if numbered then .group pattern else pattern, flags)
  | sequence _ parts => do
      let (patterns, flags) ← meaningOf flags parts
      return (Pattern.sequence (patterns.filter (· != .empty)), flags)
  | alternation _ branches => do
      let (patterns, flags) ← meaningOf flags branches
      return (alternatives patterns, flags)

def meaningOf (flags : Flags) : List Tree → Except Problem (List Pattern × Flags)
  | [] => .ok ([], flags)
  | part :: rest => do
      let (pattern, flags) ← part.meaning flags
      let (patterns, flags) ← meaningOf flags rest
      return (pattern :: patterns, flags)

end

end Tree

end ExactCover.Pattern
