import ExactCover.Console.Program

/-! # Runs on a snapshot

A host that is a value: the files are those of a tree, every measured computation takes the same
time, and what is printed is kept. A run on it is a function from the files and the words to the
lines and the exit code.
-/

namespace ExactCover.Console

/-- What a run starts from. -/
structure Snapshot where
  tree : FileTree
  /-- The names that lead to the working directory. -/
  workingDirectory : List String
  /-- The nanoseconds that a measured computation takes. -/
  duration : Nat
  /-- What a source of random numbers is seeded with when no seed is asked for. -/
  seed : UInt64

/-- What a run has printed, the newest line first. -/
structure Transcript where
  output : List String
  diagnostics : List String
  deriving DecidableEq

def snapshotHost (start : Snapshot) : Host (StateM Transcript) where
  kindAt path := pure (start.tree.kindAt start.workingDirectory path)
  bytesAt path := pure (match start.tree.at? start.workingDirectory path with
    | some (.file bytes) => bytes
    | _ => .empty)
  treeAt path := pure ((start.tree.at? start.workingDirectory path).getD (.directory []))
  timed compute := pure (compute (), start.duration)
  memory := pure ⟨0, 0⟩
  freshSeed := pure start.seed
  print line := modify fun done => { done with output := line :: done.output }
  complain line := modify fun done => { done with diagnostics := line :: done.diagnostics }

structure Outcome where
  exitCode : UInt32
  output : List String
  diagnostics : List String
  deriving DecidableEq

/-- Runs the program on a snapshot. -/
def runOnSnapshot (start : Snapshot) (logSpec : Option String) (words : List String) :
    Outcome :=
  let (exitCode, done) := ((snapshotHost start).execute logSpec words).run ⟨[], []⟩
  ⟨exitCode, done.output.reverse, done.diagnostics.reverse⟩

end ExactCover.Console
