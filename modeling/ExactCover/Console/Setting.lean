import ExactCover.Sudoku.Difficulty

/-! # Settings of the command line

The options and operands that the command line knows, the values that they accept, and the
commands that they belong to.
-/

namespace ExactCover.Console

/-- A shell that completion scripts can be made for. -/
inductive Shell where
  | bash
  | elvish
  | fish
  | powershell
  | zsh
  deriving DecidableEq

namespace Shell

def all : List Shell := [.bash, .elvish, .fish, .powershell, .zsh]

def name : Shell → String
  | .bash => "bash"
  | .elvish => "elvish"
  | .fish => "fish"
  | .powershell => "powershell"
  | .zsh => "zsh"

def ofName? (name : String) : Option Shell := all.find? (·.name == name)

end Shell

/-- A number of at most 64 bits in decimal digits, with or without a plus sign before them. -/
def word64? (text : String) : Option Nat :=
  let digits := match text.toList with
    | '+' :: rest => rest
    | chars => chars
  if digits.isEmpty || digits.any (!·.isDigit) then none
  else
    let value := digits.foldl (fun value c => value * 10 + (c.toNat - '0'.toNat)) 0
    if value < UInt64.size then some value else none

/-- What can be given on the command line. -/
inductive Setting where
  | debug
  | verify
  | stats
  | maxSolutions
  | path
  | input
  | difficulty
  | seed
  | count
  | maxTries
  | help
  | version
  | boardFile
  | shell
  deriving DecidableEq

namespace Setting

/-- The name of an option after two dashes, and of an operand in messages. -/
def name : Setting → String
  | .debug => "debug"
  | .verify => "verify"
  | .stats => "stats"
  | .maxSolutions => "max-solutions"
  | .path => "path"
  | .input => "input"
  | .difficulty => "difficulty"
  | .seed => "seed"
  | .count => "count"
  | .maxTries => "max-tries"
  | .help => "help"
  | .version => "version"
  | .boardFile => "PATH"
  | .shell => "SHELL"

/-- The letter of an option after one dash. -/
def letter? : Setting → Option Char
  | .debug => some 'd'
  | .maxSolutions => some 'n'
  | .input => some 'i'
  | .help => some 'h'
  | .version => some 'V'
  | _ => none

/-- Whether a setting has a value, rather than being on when it is given. -/
def takesValue : Setting → Bool
  | .debug | .verify | .stats | .help | .version => false
  | _ => true

/-- Whether a text is a value of a setting. -/
def accepts (setting : Setting) (value : String) : Bool :=
  match setting with
  | .maxSolutions | .seed | .count | .maxTries => (word64? value).isSome
  | .difficulty => (Difficulty.ofName? value).isSome
  | .shell => (Shell.ofName? value).isSome
  | .path | .boardFile => value != ""
  | _ => true

end Setting

/-- The commands. -/
inductive CommandName where
  | solve
  | text
  | generate
  | dir
  | completions
  deriving DecidableEq

/-- The words that may be given at one level of the command line. -/
structure Grammar where
  options : List Setting
  /-- The operand, if there may be one. -/
  operand? : Option Setting
  /-- The settings that have to be given. -/
  required : List Setting
  /-- Whether a command may follow. -/
  hasCommands : Bool

namespace CommandName

def all : List CommandName := [.solve, .text, .generate, .dir, .completions]

def name : CommandName → String
  | .solve => "solve"
  | .text => "text"
  | .generate => "generate"
  | .dir => "dir"
  | .completions => "completions"

def ofName? (name : String) : Option CommandName := all.find? (·.name == name)

end CommandName

/-- The options that the program and each command that works on boards have in common. -/
def commonOptions : List Setting := [.debug, .verify, .stats, .maxSolutions, .help]

/-- The words before a command, or without one. -/
def rootGrammar : Grammar := ⟨commonOptions ++ [.version], some .boardFile, [], true⟩

/-- The words after a command. -/
def CommandName.grammar : CommandName → Grammar
  | .solve => ⟨.path :: commonOptions, none, [.path], false⟩
  | .text => ⟨.input :: commonOptions, none, [.input], false⟩
  | .generate => ⟨[.difficulty, .seed, .count, .maxTries] ++ commonOptions, none, [], false⟩
  | .dir => ⟨.path :: commonOptions, none, [.path], false⟩
  | .completions => ⟨[.help], some .shell, [.shell], false⟩

end ExactCover.Console
