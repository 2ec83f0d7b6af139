import ExactCover.Pattern.Meaning
import ExactCover.Pattern.Weight

/-! # Patterns from text

A pattern as it is written stands for a pattern, unless there is something wrong with it, or it
asks for more than can be looked for.
-/

namespace ExactCover.Pattern

/-- Why a written pattern is refused. -/
inductive Refusal where
  | problem (found : Problem)
  | tooHeavy
  | wordsUnknown

def Refusal.message (pattern : List Char) : Refusal → String
  | .problem found => found.report pattern
  | .tooHeavy => "Compiled regex exceeds size limit of " ++ toString weightLimit ++ " bytes."
  | .wordsUnknown => "error building NFA"

/-- The pattern that a text stands for. -/
def ofChars (pattern : List Char) : Except Refusal Pattern := do
  let tree ← (Tree.parse pattern).mapError .problem
  let (found, _) ← (tree.meaning .start).mapError .problem
  if found.isTooHeavy false then throw .tooHeavy
  else if found.usesAnyWord then throw .wordsUnknown
  else if found.isTooHeavy true then throw .tooHeavy
  else return found

end ExactCover.Pattern
