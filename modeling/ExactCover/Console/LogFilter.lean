import ExactCover.LogEvent
import ExactCover.Pattern.Written

/-! # Log filters

Which log events are shown. A filter is a list of directives, each a level for the targets that
start with a name, or for all targets; the directive with the longest name that fits decides. A
specification writes directives between commas as a level, a name, or a name, an equals sign and
a level, and may end in a slash and a pattern that shown events have to fit somewhere.
-/

namespace ExactCover.Console

/-- A level that events must reach; none shows nothing. -/
abbrev Threshold := Option LogLevel

def threshold? (name : String) : Option Threshold :=
  match name.toLower with
  | "off" => some none
  | "error" => some (some .error)
  | "warn" => some (some .warn)
  | "info" => some (some .info)
  | "debug" => some (some .debug)
  | "trace" => some (some .trace)
  | _ => none

/-- A level for the targets that start with a name, or for all. -/
structure Directive where
  name : Option String
  threshold : Threshold
  deriving DecidableEq

/-- The events to be shown. -/
structure LogFilter where
  /-- The directives, no name twice. -/
  directives : List Directive
  /-- A pattern that some piece of a shown event fits. -/
  pattern : Pattern
  deriving DecidableEq

/-- The pieces of a text between a separator. -/
def splitAtChar (separator : Char) : List Char → List (List Char)
  | [] => [[]]
  | c :: rest =>
      if c = separator then [] :: splitAtChar separator rest
      else match splitAtChar separator rest with
        | [] => [[c]]
        | piece :: more => (c :: piece) :: more

namespace LogFilter

def empty : LogFilter := ⟨[], .empty⟩

def insert (filter : LogFilter) (directive : Directive) : LogFilter :=
  if filter.directives.any (·.name == directive.name) then
    { filter with directives := filter.directives.map fun old =>
        if old.name = directive.name then directive else old }
  else { filter with directives := filter.directives ++ [directive] }

/-- Reads one directive, or says what is wrong with it. -/
def readDirective (piece : List Char) : Except String Directive :=
  match splitAtChar '=' piece with
  | [name] =>
      let name := String.ofList name
      match threshold? name with
      | some threshold => .ok ⟨none, threshold⟩
      | none => .ok ⟨some name, some .trace⟩
  | [name, level] =>
      let name := String.ofList name
      let level := String.ofList (trimBlank level)
      if level = "" then .ok ⟨some name, some .trace⟩
      else match threshold? level with
        | some threshold => .ok ⟨some name, threshold⟩
        | none => .error s!"invalid logging spec '{level}'"
  | _ => .error ("invalid logging spec '" ++ String.ofList piece ++ "'")

/-- Adds directives one after the other. Those that cannot be read are left out and reported. -/
def insertAll : List (List Char) → LogFilter → LogFilter × List String
  | [], filter => (filter, [])
  | piece :: rest, filter =>
      match readDirective piece with
      | .ok directive => insertAll rest (filter.insert directive)
      | .error problem =>
          let (filter, problems) := insertAll rest filter
          (filter, problem :: problems)

/-- The filter of a specification, and what is wrong with it. A pattern that is refused is left
    out. -/
def parse (spec : String) : LogFilter × List String :=
  let directives (text : List Char) : List (List Char) :=
    ((splitAtChar ',' text).map trimBlank).filter (!·.isEmpty)
  match splitAtChar '/' spec.toList with
  | [text] => insertAll (directives text) empty
  | [text, wanted] =>
      let (filter, problems) := insertAll (directives text) empty
      match Pattern.ofChars wanted with
      | .ok pattern => ({ filter with pattern := pattern }, problems)
      | .error refusal =>
          (filter, problems ++ ["invalid regex filter - " ++ refusal.message wanted])
  | _ => (empty, [s!"invalid logging spec '{spec}' (too many '/'s)"])

/-- The directive with the longest name that fits a target; the later one of the same length. -/
def directiveFor (filter : LogFilter) (target : String) : Option Directive :=
  let fitting := filter.directives.filter fun directive =>
    (directive.name.getD "").toList.isPrefixOf target.toList
  fitting.foldl (fun best directive =>
    match best with
    | none => some directive
    | some longest =>
        if (longest.name.getD "").utf8ByteSize ≤ (directive.name.getD "").utf8ByteSize then
          some directive else best) none

/-- The level for a target. Without any directive only errors are shown. -/
def thresholdFor (filter : LogFilter) (target : String) : Threshold :=
  if filter.directives.isEmpty then some .error
  else ((filter.directiveFor target).map (·.threshold)).getD none

def shows (filter : LogFilter) (event : LogEvent) : Bool :=
  (match filter.thresholdFor event.target with
    | none => false
    | some level => event.level.rank ≤ level.rank) &&
  filter.pattern.occursIn event.text

/-- The filter of a run, and what is wrong with its specification. Without one, warnings are
    shown; asking for details shows them for all targets without a directive of their own. -/
def ofRun (spec : Option String) (debug : Bool) : LogFilter × List String :=
  let (filter, problems) := parse (spec.getD "warn")
  (if debug then filter.insert ⟨none, some .debug⟩ else filter, problems)

end LogFilter

/-- A text whose lines after the first start four columns further to the right. -/
def indentRest (text : String) : String :=
  String.ofList (text.toList.flatMap fun c => if c = '\n' then "\n    ".toList else [c])

/-- A log event as it is printed: its level in five columns, its target and its text. -/
def logLine (event : LogEvent) : String :=
  let level := event.level.name
  "[" ++ level.pushn ' ' (5 - level.length) ++ " " ++ event.target ++ "] " ++
    indentRest event.text

end ExactCover.Console
