import ExactCover.Text.Printable

/-! # Quoted characters

How a message names a single character: between single quotes, with a backslash before a
quote or a backslash, short names for the usual controls, and the hexadecimal number of any
character that is not visible on its own.
-/

namespace ExactCover

/-- The digits of a number in base sixteen, lower case and without leading zeros. -/
def hexDigits (n : Nat) : String :=
  String.ofList (Nat.toDigits 16 n)

/-- A character as it stands inside single quotes. -/
def escapeChar (c : Char) : String :=
  match c with
  | '\x00' => "\\0"
  | '\t' => "\\t"
  | '\r' => "\\r"
  | '\n' => "\\n"
  | '\'' => "\\'"
  | '\\' => "\\\\"
  | c => if isPrintable c then String.singleton c else "\\u\x7b" ++ hexDigits c.toNat ++ "\x7d"

/-- A character between single quotes. -/
def quoteChar (c : Char) : String :=
  "'" ++ escapeChar c ++ "'"

end ExactCover
