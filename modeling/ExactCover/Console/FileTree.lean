import ExactCover.Console.LogFilter

/-! # Files and directories

A directory as the tree of what it holds, the order in which its files are visited, and the
meaning of a path, which starts at the top of a tree or at a working directory in it.
-/

namespace ExactCover.Console

/-- What a path leads to. -/
inductive FileTree where
  | file (bytes : ByteArray)
  | directory (entries : List (String × FileTree))
  /-- Something else that has a name, such as a device. -/
  | other
  deriving Nonempty

/-- What stands at a path. -/
inductive PathKind where
  | missing
  | file
  | directory
  | other
  deriving DecidableEq

def joinPath (directory entry : String) : String :=
  if directory.toList.getLast? = some '/' then directory ++ entry else directory ++ "/" ++ entry

/-- The part of a file name after its last point, unless the name starts with that point. -/
def extension? (name : String) : Option String :=
  let reversed := name.toList.reverse
  match reversed.dropWhile (· != '.') with
  | [] | ['.'] => none
  | _ => some (String.ofList (reversed.takeWhile (· != '.')).reverse)

/-- Whether a file of this name holds a board. -/
def isBoardName (name : String) : Bool := extension? name == some "sudoku"

structure FileVisit where
  path : String
  name : String
  deriving DecidableEq

/-- Puts visits that belong to an entry before those of the entries with later names. -/
def insertVisits (name : String) (visits : List FileVisit) :
    List (String × List FileVisit) → List (String × List FileVisit)
  | [] => [(name, visits)]
  | (other, others) :: rest =>
      if name < other then (name, visits) :: (other, others) :: rest
      else (other, others) :: insertVisits name visits rest

namespace FileTree

mutual

/-- The files of a tree, those of a directory by the order of its entries' names. -/
def visits (path name : String) : FileTree → List FileVisit
  | .file _ => [⟨path, name⟩]
  | .other => []
  | .directory entries => (visitsOfEntries path entries).flatMap (·.2)

/-- The files under each entry of a directory, by the order of the entries' names. -/
def visitsOfEntries (path : String) : List (String × FileTree) → List (String × List FileVisit)
  | [] => []
  | (name, tree) :: rest =>
      insertVisits name (visits (joinPath path name) name tree) (visitsOfEntries path rest)

end

def entry? (name : String) : FileTree → Option FileTree
  | .file _ | .other => none
  | .directory entries => entries.lookup name

/-- Follows the steps of a path, given the directories above the place where it has come to. An
    empty step or a point stays, two points go up unless this is the top, and only a directory
    can be gone through. -/
def follow : List FileTree → FileTree → List String → Option FileTree
  | _, tree, [] => some tree
  | _, .file _, _ :: _ | _, .other, _ :: _ => none
  | above, .directory entries, step :: rest =>
      if step = "" ∨ step = "." then follow above (.directory entries) rest
      else if step = ".." then
        match above with
        | [] => follow [] (.directory entries) rest
        | parent :: others => follow others parent rest
      else match entries.lookup step with
        | none => none
        | some tree => follow (.directory entries :: above) tree rest

def stepsOf (path : List Char) : List String :=
  (splitAtChar '/' path).map String.ofList

/-- What a path leads to. A path that starts with a slash starts at the top of the tree, any
    other one at the working directory that the given names lead to; an empty one leads nowhere. -/
def at? (tree : FileTree) (workingDirectory : List String) (path : String) : Option FileTree :=
  match path.toList with
  | [] => none
  | '/' :: rest => follow [] tree (stepsOf rest)
  | chars => follow [] tree (workingDirectory ++ stepsOf chars)

def kindAt (tree : FileTree) (workingDirectory : List String) (path : String) : PathKind :=
  match tree.at? workingDirectory path with
  | none => .missing
  | some (.file _) => .file
  | some (.directory _) => .directory
  | some .other => .other

/-- What a directory at this place would hold. -/
def entries : FileTree → List (String × FileTree)
  | .file _ | .other => []
  | .directory entries => entries

/-- Changes what stands at the end of the steps, making the directories that lead to it. -/
def plant (change : FileTree → FileTree) : List String → FileTree → FileTree
  | [], tree => change tree
  | step :: rest, tree =>
      let below := (tree.entries.lookup step).getD (.directory [])
      .directory ((step, plant change rest below) :: tree.entries.filter (·.1 != step))

/-- The tree of files by their paths; a path that ends in a slash is that of a directory. -/
def ofFiles (files : List (String × ByteArray)) : FileTree :=
  files.foldl (fun tree (path, bytes) =>
    let steps := stepsOf path.toList
    match steps.getLast? with
    | some "" => tree.plant (fun old => .directory old.entries) steps.dropLast
    | _ => tree.plant (fun _ => .file bytes) steps) (.directory [])

end FileTree

end ExactCover.Console
