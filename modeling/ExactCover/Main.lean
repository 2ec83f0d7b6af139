import ExactCover.Console.Program

/-! # The program on a real machine

The host that reads files, clocks and memory figures, and prints.
-/

namespace ExactCover.Console

/-- The memory in use as the system counts it, in pages of 4096 bytes: the resident pages, and of
    these the ones that are not shared. -/
def memoryInUse : IO Memory := do
  let text ← try IO.FS.readFile "/proc/self/statm" catch _ => pure ""
  let pages := (splitAtChar ' ' text.toList).map fun chars => (String.ofList chars).toNat?.getD 0
  let resident := pages.getD 1 0
  return ⟨(resident - pages.getD 2 0) * 4096, resident * 4096⟩

/-- What the directory at a path holds, without the bytes of its files, down to a depth. -/
def readTree : Nat → String → IO FileTree
  | 0, _ => return .directory []
  | depth + 1, name => do
      let path ← IO.FS.realPath name
      let entries ← path.readDir
      let below ← entries.toList.filterMapM fun entry => do
        let kind ← try pure (some (← entry.path.symlinkMetadata).type) catch _ => pure none
        match kind with
        | some .dir =>
            let tree ← try readTree depth (joinPath name entry.fileName)
              catch _ => pure (.directory [])
            return some (entry.fileName, tree)
        | some _ =>
            let isFile ← try pure ((← entry.path.metadata).type == .file) catch _ => pure false
            return if isFile then some (entry.fileName, .file .empty) else none
        | none => return none
      return .directory below

/-- The most bytes of a path, and so more than the directories that can lie in one another. -/
def longestPath : Nat := 4096

/-- What stands at a path. -/
def readKind (name : String) : IO PathKind := do
  try
    let path ← IO.FS.realPath name
    match (← path.metadata).type with
    | .dir => return .directory
    | .file => return .file
    | _ => return .other
  catch _ => return .missing

/-- The machine that the program runs on. -/
def machine : Host IO where
  kindAt := readKind
  bytesAt name := IO.FS.readBinFile name
  treeAt name := try readTree longestPath name catch _ => pure (.directory [])
  timed compute := do
    let start ← IO.monoNanosNow
    let value ← IO.lazyPure compute
    let stop ← IO.monoNanosNow
    return (value, stop - start)
  memory := memoryInUse
  freshSeed := do
    let bytes ← IO.getRandomBytes 8
    return bytes.toList.foldl (fun seed byte => seed * 256 + byte.toUInt64) 0
  print line := do
    let out ← IO.getStdout
    out.putStrLn line
    out.flush
  complain line := do
    let err ← IO.getStderr
    err.putStrLn line
    err.flush

end ExactCover.Console

/-- Runs the program on its arguments. -/
def main (words : List String) : IO UInt32 := do
  ExactCover.Console.machine.execute (← IO.getEnv "RUST_LOG") words
