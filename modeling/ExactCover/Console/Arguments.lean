import ExactCover.Console.Setting

/-! # Reading the command line

The words are read from left to right. An option takes the next word as its value when none is
attached to it, unless that word starts with a dash; a dash alone is an ordinary word. After two
dashes alone all words are operands. The value of a setting is looked at when the next option or
operand is read, or at the end, and a command's words are read before the last value given ahead
of the command is looked at.
-/

namespace ExactCover.Console

/-- Why the words cannot be understood. -/
inductive UsageError where
  | unknownOption (word : String)
  | extraWord (word : String)
  | unknownCommand (word : String)
  | repeated (setting : Setting)
  | missingValue (setting : Setting)
  | needlessValue (setting : Setting)
  | badValue (setting : Setting) (value : String)
  | missing (setting : Setting)
  deriving DecidableEq

def UsageError.message : UsageError → String
  | .unknownOption word => s!"error: unknown option '{word}'"
  | .extraWord word => s!"error: unexpected argument '{word}'"
  | .unknownCommand word => s!"error: unknown command '{word}'"
  | .repeated setting => s!"error: '{setting.name}' is given more than once"
  | .missingValue setting => s!"error: '{setting.name}' needs a value"
  | .needlessValue setting => s!"error: '{setting.name}' takes no value"
  | .badValue setting value => s!"error: '{value}' is no value for '{setting.name}'"
  | .missing setting => s!"error: '{setting.name}' is required"

/-- Why reading ends before the last word. -/
inductive Halt where
  | help
  | version
  | usage (error : UsageError)
  deriving DecidableEq

/-- What has been read at one level. -/
structure Reading where
  /-- The settings that have been looked at, with their values. -/
  given : List (Setting × String)
  /-- The setting that was read last and has not been looked at, with its value if it has been
      read. -/
  pending : Option (Setting × Option String)
  /-- Whether the operand has been read. -/
  operandRead : Bool
  /-- Whether all further words are operands. -/
  literal : Bool

namespace Reading

def start : Reading := ⟨[], none, false, false⟩

def has (reading : Reading) (setting : Setting) : Bool := reading.given.any (·.1 == setting)

def value? (reading : Reading) (setting : Setting) : Option String :=
  reading.given.lookup setting

/-- Whether the last option still waits for its value. -/
def isAwaiting (reading : Reading) : Bool :=
  match reading.pending with
  | some (_, none) => true
  | _ => false

def accept (reading : Reading) (setting : Setting) (value : String) : Except Halt Reading :=
  if reading.has setting then .error (.usage (.repeated setting))
  else if setting.accepts value then
    .ok { reading with given := reading.given ++ [(setting, value)] }
  else .error (.usage (.badValue setting value))

/-- Looks at the setting that was read last, if it has not been looked at. -/
def settle (reading : Reading) : Except Halt Reading :=
  match reading.pending with
  | none => .ok reading
  | some (setting, none) => .error (.usage (.missingValue setting))
  | some (setting, some value) => { reading with pending := none }.accept setting value

/-- Reads an option without a value. -/
def readFlag (reading : Reading) (setting : Setting) : Except Halt Reading := do
  let reading ← reading.settle
  match setting with
  | .help => throw .help
  | .version => throw .version
  | _ => reading.accept setting ""

/-- Reads an option with the value attached to it, or without one. -/
def readOption (reading : Reading) (setting : Setting) (attached : Option String) :
    Except Halt Reading := do
  if setting.takesValue then
    let reading ← reading.settle
    match attached with
    | some value => reading.accept setting value
    | none => return { reading with pending := some (setting, none) }
  else
    match attached with
    | some _ => throw (.usage (.needlessValue setting))
    | none => reading.readFlag setting

/-- Reads the letters after a single dash. The first that takes a value takes the rest of the
    word, without an equals sign at its start. -/
def readLetters (grammar : Grammar) : List Char → Reading → Except Halt Reading
  | [], reading => .ok reading
  | c :: rest, reading => do
      match grammar.options.find? (·.letter? == some c) with
      | none => throw (.usage (.unknownOption (String.ofList ['-', c])))
      | some setting =>
          if setting.takesValue then
            match rest with
            | [] => reading.readOption setting none
            | '=' :: value => reading.readOption setting (some (String.ofList value))
            | value => reading.readOption setting (some (String.ofList value))
          else readLetters grammar rest (← reading.readFlag setting)

/-- Reads the text after two dashes: a name, and after an equals sign a value. -/
def readLong (grammar : Grammar) (text : List Char) (reading : Reading) : Except Halt Reading :=
  let name := String.ofList (text.takeWhile (· != '='))
  let attached := match text.dropWhile (· != '=') with
    | [] => none
    | _ :: value => some (String.ofList value)
  match grammar.options.find? (·.name == name) with
  | none => .error (.usage (.unknownOption ("--" ++ name)))
  | some setting => reading.readOption setting attached

def readOperand (grammar : Grammar) (word : String) (reading : Reading) : Except Halt Reading := do
  let reading ← reading.settle
  match grammar.operand?, reading.operandRead with
  | some setting, false =>
      return { reading with pending := some (setting, some word), operandRead := true }
  | _, _ => throw (.usage (.extraWord word))

end Reading

/-- What the words after the word for help ask for: the help of the program, or of the one
    command that they name. -/
def readHelpWords : List String → Halt
  | [] => .help
  | [word] =>
      if word = "help" ∨ (CommandName.ofName? word).isSome then .help
      else .usage (.unknownCommand word)
  | word :: other :: _ =>
      if word = "help" ∨ (CommandName.ofName? word).isSome then .usage (.unknownCommand other)
      else .usage (.unknownCommand word)

/-- Reads the words of one level, up to a command if one may follow. -/
def readWords (grammar : Grammar) :
    List String → Reading → Except Halt (Reading × Option (CommandName × List String))
  | [], reading => .ok (reading, none)
  | word :: rest, reading => do
      if reading.literal then
        readWords grammar rest (← reading.readOperand grammar word)
      else
        let command := if grammar.hasCommands && !reading.isAwaiting then
          CommandName.ofName? word else none
        if let some command := command then
          return (reading, some (command, rest))
        else if grammar.hasCommands && !reading.isAwaiting && word == "help" then
          throw (readHelpWords rest)
        else
          match word.toList with
          | ['-', '-'] => readWords grammar rest { reading with literal := true }
          | '-' :: '-' :: text => readWords grammar rest (← reading.readLong grammar text)
          | '-' :: c :: letters =>
              readWords grammar rest (← reading.readLetters grammar (c :: letters))
          | _ =>
              match reading.pending with
              | some (setting, none) =>
                  readWords grammar rest { reading with pending := some (setting, some word) }
              | _ => readWords grammar rest (← reading.readOperand grammar word)

/-- Looks at the last setting of a level, and requires those that have to be given. -/
def finish (grammar : Grammar) (reading : Reading) : Except Halt Reading := do
  let reading ← reading.settle
  match grammar.required.find? (!reading.has ·) with
  | some setting => throw (.usage (.missing setting))
  | none => return reading

/-- The options that commands working on boards have in common. -/
structure Options where
  verify : Bool
  stats : Bool
  maxSolutions : Nat
  deriving DecidableEq

/-- How many solutions to stop after unless told otherwise: enough to tell whether there is one
    solution only. -/
def defaultMaxSolutions : Nat := 2

/-- The common options of a level. -/
def Reading.options (reading : Reading) : Options where
  verify := reading.has .verify
  stats := reading.has .stats
  maxSolutions := ((reading.value? .maxSolutions).bind word64?).getD defaultMaxSolutions

/-- What puzzles to make. -/
structure PuzzleOrder where
  difficulty : Difficulty
  seed : Option Nat
  count : Nat
  maxTries : Option Nat
  deriving DecidableEq

/-- The order that the words after the command for puzzles give. -/
def Reading.order (reading : Reading) : PuzzleOrder where
  difficulty := ((reading.value? .difficulty).bind Difficulty.ofName?).getD .medium
  seed := (reading.value? .seed).bind word64?
  count := ((reading.value? .count).bind word64?).getD 1
  maxTries := (reading.value? .maxTries).bind word64?

/-- What the program is asked to do. -/
inductive Request where
  | nothing
  | solveFile (path : String) (options : Options)
  | solveText (input : String) (options : Options)
  | generate (order : PuzzleOrder) (options : Options)
  | solveDirectory (path : String) (options : Options)
  | completions (shell : Shell)
  deriving DecidableEq

/-- A request, and whether details of the work are to be logged. -/
structure Invocation where
  request : Request
  debug : Bool
  deriving DecidableEq

/-- The request of a command, from the words after it. -/
def CommandName.request (command : CommandName) (reading : Reading) : Request :=
  let text (setting : Setting) := (reading.value? setting).getD ""
  match command with
  | .solve => .solveFile (text .path) reading.options
  | .text => .solveText (text .input) reading.options
  | .generate => .generate reading.order reading.options
  | .dir => .solveDirectory (text .path) reading.options
  | .completions => .completions ((Shell.ofName? (text .shell)).getD .bash)

/-- Reads all words. Of the options before a command only the one for logging reaches it. -/
def readArguments (words : List String) : Except Halt Invocation := do
  match ← readWords rootGrammar words .start with
  | (root, none) =>
      let root ← finish rootGrammar root
      let request := match root.value? .boardFile with
        | some path => Request.solveFile path root.options
        | none => .nothing
      return ⟨request, root.has .debug⟩
  | (root, some (command, rest)) =>
      let (reading, _) ← readWords command.grammar rest .start
      let reading ← finish command.grammar reading
      let root ← finish rootGrammar root
      return ⟨command.request reading, root.has .debug || reading.has .debug⟩

end ExactCover.Console
