import ExactCover.Pattern
import ExactCover.Pattern.Problem

/-! # Patterns as they are written

The parts of a written pattern, each with its stretch.
-/

namespace ExactCover.Pattern

/-- A switch of a pattern. -/
inductive Flag where
  | caseless
  | multiLine
  | dotAll
  | swapGreed
  | unicode
  | returns
  | verbose
  deriving DecidableEq

/-- What stands in a list of flags: a flag, or the sign that turns the following ones off. -/
inductive FlagItem where
  | negation
  | flag (flag : Flag)
  deriving DecidableEq

/-- The classes that have a letter of their own. -/
inductive LetterClass where
  | digit
  | blank
  | word

/-- The name of a property of characters. -/
inductive PropertyName where
  | letter (c : Char)
  | named (name : List Char)
  | valued

/-- A character that stands for itself. -/
structure Literal where
  span : Span
  char : Char
  /-- Whether it is given by two hexadecimal digits, and so may be meant as a byte. -/
  isByte : Bool

/-- How two classes are combined. -/
inductive SetOperator where
  | intersection
  | difference
  | symmetricDifference

/-- What stands between square brackets. -/
inductive SetTree where
  | empty (span : Span)
  | literal (text : Literal)
  | range (first last : Literal)
  | ascii (span : Span) (negated : Bool) (set : CharSet)
  | letterClass (span : Span) (negated : Bool) (kind : LetterClass)
  | property (span : Span) (name : PropertyName)
  | bracket (span : Span) (negated : Bool) (set : SetTree)
  | union (span : Span) (items : List SetTree)
  | binary (span : Span) (operator : SetOperator) (left right : SetTree)

/-- A written pattern. -/
inductive Tree where
  | empty (span : Span)
  | flags (span : Span) (items : List FlagItem)
  | literal (text : Literal)
  | dot (span : Span)
  | lineStart (span : Span)
  | lineStop (span : Span)
  | textStart (span : Span)
  | textStop (span : Span)
  | word (span : Span) (place : WordPlace)
  | letterClass (span : Span) (negated : Bool) (kind : LetterClass)
  | property (span : Span) (name : PropertyName)
  | bracket (span : Span) (negated : Bool) (set : SetTree)
  | repetition (span : Span) (least : Nat) (most : Option Nat) (body : Tree)
  | group (span : Span) (numbered : Bool) (items : List FlagItem) (body : Tree)
  | sequence (span : Span) (parts : List Tree)
  | alternation (span : Span) (branches : List Tree)

def SetTree.span : SetTree → Span
  | empty span | ascii span .. | letterClass span .. | property span .. | bracket span ..
  | union span _ | binary span .. => span
  | .literal text => text.span
  | range first last => ⟨first.span.first, last.span.stop⟩

def Tree.span : Tree → Span
  | empty span | flags span _ | dot span | lineStart span | lineStop span | textStart span
  | textStop span | word span _ | letterClass span .. | property span .. | bracket span ..
  | repetition span .. | group span .. | sequence span _ | alternation span _ => span
  | .literal text => text.span

/-- What a list of flags says about a flag, if anything, given what the flags before it say and
    whether they are turned on or off. -/
def stateFrom (flag : Flag) (on : Bool) (found : Option Bool) : List FlagItem → Option Bool
  | [] => found
  | .negation :: rest => stateFrom flag false found rest
  | .flag other :: rest => stateFrom flag on (if other = flag then some on else found) rest

def stateOf (flag : Flag) (items : List FlagItem) : Option Bool :=
  stateFrom flag true none items

namespace SetTree

mutual

/-- The first part that is nested too deeply, when so many parts are around this one. -/
def tooDeep (depth : Nat) : SetTree → Option Span
  | empty _ | .literal _ | range .. | ascii .. | letterClass .. | property .. => none
  | bracket span _ set =>
      if nestLimit ≤ depth then some span else set.tooDeep (depth + 1)
  | union span items =>
      if nestLimit ≤ depth then some span else tooDeepOf (depth + 1) items
  | binary span _ left right =>
      if nestLimit ≤ depth then some span
      else (left.tooDeep (depth + 1)).or (right.tooDeep (depth + 1))

def tooDeepOf (depth : Nat) : List SetTree → Option Span
  | [] => none
  | item :: rest => (item.tooDeep depth).or (tooDeepOf depth rest)

end

end SetTree

namespace Tree

mutual

/-- The first part that is nested too deeply, when so many parts are around this one. -/
def tooDeep (depth : Nat) : Tree → Option Span
  | empty _ | flags .. | .literal _ | dot _ | lineStart _ | lineStop _ | textStart _ | textStop _
  | word .. | letterClass .. | property .. => none
  | bracket span _ set =>
      if nestLimit ≤ depth then some span else set.tooDeep (depth + 1)
  | repetition span _ _ body | group span _ _ body =>
      if nestLimit ≤ depth then some span else body.tooDeep (depth + 1)
  | sequence span parts | alternation span parts =>
      if nestLimit ≤ depth then some span else tooDeepOf (depth + 1) parts

def tooDeepOf (depth : Nat) : List Tree → Option Span
  | [] => none
  | part :: rest => (part.tooDeep depth).or (tooDeepOf depth rest)

end

end Tree

end ExactCover.Pattern
