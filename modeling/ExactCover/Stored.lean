import ExactCover.Error

/-! # Stored values

The shape in which boards, puzzles and cells are stored: numbers, texts, lists and records of
named fields. Reading a stored value can fail because its shape is wrong, or because the value
it describes is refused.
-/

namespace ExactCover

/-- A stored value. -/
inductive Stored where
  | null
  | flag (value : Bool)
  | natural (value : Nat)
  /-- Any other number. -/
  | otherNumber
  | text (value : String)
  | list (items : List Stored)
  /-- Values by the names of their fields. -/
  | record (fields : List (String × Stored))
  deriving Nonempty

/-- Why a stored value cannot be read. -/
inductive StoredError where
  /-- Its shape is not that of the expected value. -/
  | shape
  /-- It has the shape of a value that is refused. -/
  | refused (cause : Error)
  deriving DecidableEq

namespace Stored

/-- A text between double quotes. -/
def quoteText (text : String) : String :=
  let inner := text.toList.map fun c =>
    if c = '"' then "\\\"" else if c = '\\' then "\\\\" else String.singleton c
  "\"" ++ String.join inner ++ "\""

mutual

/-- A stored value in one line without blanks. -/
def render : Stored → String
  | .null => "null"
  | .flag value => if value then "true" else "false"
  | .natural value => toString value
  | .otherNumber => "0.0"
  | .text value => quoteText value
  | .list items => "[" ++ ",".intercalate (renderItems items) ++ "]"
  | .record fields => "\x7b" ++ ",".intercalate (renderFields fields) ++ "\x7d"

/-- The items of a list, each in one line. -/
def renderItems : List Stored → List String
  | [] => []
  | item :: rest => render item :: renderItems rest

/-- The fields of a record, each as its quoted name, a colon and its value. -/
def renderFields : List (String × Stored) → List String
  | [] => []
  | (name, value) :: rest => (quoteText name ++ ":" ++ render value) :: renderFields rest

end

/-- A computation that reads a stored value. -/
abbrev Reader (α : Type) := Stored → Except StoredError α

/-- A value that is refused for a cause of its own. -/
def checked {α : Type} (result : Except Error α) : Except StoredError α :=
  result.mapError .refused

/-- Reads a whole number from 0 to 255. -/
def byte : Reader Nat
  | .natural value => if value ≤ 255 then .ok value else .error .shape
  | _ => .error .shape

/-- Reads a list, item by item. -/
def listOf {α : Type} (item : Reader α) : Reader (List α)
  | .list items => items.mapM item
  | _ => .error .shape

/-- The value of a field. -/
def field? (fields : List (String × Stored)) (name : String) : Option Stored :=
  (fields.find? (·.1 == name)).map (·.2)

/-- Reads a field that may be absent. -/
def optionalField {α : Type} (fields : List (String × Stored)) (name : String)
    (read : Reader α) : Except StoredError (Option α) :=
  match field? fields name with
  | some value => (read value).map some
  | none => .ok none

/-- A field that has to be there. -/
def present {α : Type} : Option α → Except StoredError α
  | some value => .ok value
  | none => .error .shape

/-- Reads a record of two fields, given by name or as a list of just the two values. Of a
    record, fields of other names are ignored, and a field that is absent counts after one that
    cannot be read. -/
def pair {α β : Type} (first : String × Reader α) (second : String × Reader β) : Reader (α × β)
  | .record fields => do
      let a ← optionalField fields first.1 first.2
      let b ← optionalField fields second.1 second.2
      return (← present a, ← present b)
  | .list (a :: rest) => do
      let a ← first.2 a
      match rest with
      | [] => throw .shape
      | b :: rest =>
          let b ← second.2 b
          if rest.isEmpty then return (a, b) else throw .shape
  | _ => .error .shape

/-- Reads a record of three fields in the same way as one of two. -/
def triple {α β γ : Type} (first : String × Reader α) (second : String × Reader β)
    (third : String × Reader γ) : Reader (α × β × γ)
  | .record fields => do
      let a ← optionalField fields first.1 first.2
      let b ← optionalField fields second.1 second.2
      let c ← optionalField fields third.1 third.2
      return (← present a, ← present b, ← present c)
  | .list (a :: rest) => do
      let a ← first.2 a
      match rest with
      | [] => throw .shape
      | b :: rest =>
          let b ← second.2 b
          match rest with
          | [] => throw .shape
          | c :: rest =>
              let c ← third.2 c
              if rest.isEmpty then return (a, b, c) else throw .shape
  | _ => .error .shape

end Stored

end ExactCover
