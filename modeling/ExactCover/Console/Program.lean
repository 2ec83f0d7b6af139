import ExactCover.Console.Commands

/-! # The program

A run of the program from its words to its exit code: 0 when it did what was asked for, 1 when
that failed, and 2 when the words cannot be understood.
-/

namespace ExactCover.Console

/-- The name and the version of the program. -/
def versionText : String := "sudoku-dlx 0.1.0"

def usageText : String :=
  "Sudoku solver and generator built on Dancing Links\n\n" ++
  "Usage: sudoku-dlx [OPTIONS] [PATH] [COMMAND]\n\n" ++
  "Commands:\n" ++
  "  solve --path FILE        complete the board in a file\n" ++
  "  text --input BOARD       complete a board given as 81 digits\n" ++
  "  generate                 make puzzles with one solution\n" ++
  "  dir --path DIRECTORY     complete the board in every .sudoku file\n" ++
  "  completions SHELL        print a completion script\n" ++
  "  help                     print this text\n\n" ++
  "Options of generate:\n" ++
  "  --difficulty NAME        easy, medium, hard or very-hard\n" ++
  "  --seed NUMBER            make the same puzzles every time\n" ++
  "  --count NUMBER           how many puzzles to make\n" ++
  "  --max-tries NUMBER       how many removals in a row may fail\n\n" ++
  "Options:\n" ++
  "  -d, --debug              log details of the work\n" ++
  "      --verify             check every solution\n" ++
  "      --stats              print statistics\n" ++
  "  -n, --max-solutions N    stop after this many solutions\n" ++
  "  -h, --help               print this text\n" ++
  "  -V, --version            print the version"

/-- The words that may follow the program's name, as a completion script offers them. -/
def completionWords : String :=
  " ".intercalate (CommandName.all.map CommandName.name ++ ["help"])

/-- The completion script of a shell. -/
def Shell.script : Shell → String
  | .bash => "complete -W \"" ++ completionWords ++ "\" sudoku-dlx"
  | .elvish => "set edit:completion:arg-completer[sudoku-dlx] = \x7b|@words| put " ++
      completionWords ++ " \x7d"
  | .fish => "complete -c sudoku-dlx -f -a \"" ++ completionWords ++ "\""
  | .powershell =>
      "Register-ArgumentCompleter -Native -CommandName sudoku-dlx -ScriptBlock \x7b " ++
      "-split \"" ++ completionWords ++ "\" \x7d"
  | .zsh => "compdef '_arguments \"1:command:(" ++ completionWords ++ ")\"' sudoku-dlx"

namespace Host

variable {m : Type → Type} [Monad m]

/-- Does what is asked for, with the filter that the environment and the words give. What cannot
    be read of the filter is reported before any work on boards. -/
def perform (host : Host m) (logSpec : Option String) (invocation : Invocation) : Run m Unit :=
  let (filter, problems) := LogFilter.ofRun logSpec invocation.debug
  let report : Run m Unit := problems.forM fun problem =>
    (host.complain s!"warning: {problem}, ignoring it" : m Unit)
  match invocation.request with
  | .nothing => throw .nothingAsked
  | .completions shell => host.printAll [shell.script]
  | .solveFile path options => do
      report
      host.solveFile filter options (← host.buildTime) path
  | .solveText input options => do
      report
      host.solveText filter options input
  | .generate order options => do
      report
      host.generate filter options order
  | .solveDirectory path options => do
      report
      host.solveDirectory filter options path

/-- Runs the program on its words and gives the exit code. -/
def execute (host : Host m) (logSpec : Option String) (words : List String) : m UInt32 := do
  match readArguments words with
  | .error .help => do
      host.print usageText
      return 0
  | .error .version => do
      host.print versionText
      return 0
  | .error (.usage error) => do
      host.complain error.message
      return 2
  | .ok invocation => do
      match ← (host.perform logSpec invocation).run with
      | .ok () => return 0
      | .error failure => do
          host.complain failure.message
          return 1

end Host

end ExactCover.Console
