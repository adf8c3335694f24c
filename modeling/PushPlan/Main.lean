import PushPlan.Command.Line
import PushPlan.Command.Scope

/-!
# PushPlan.Main

The program: it looks at the places that its command may look at, runs the
command on them, prints, and writes.
-/

open PushPlan

/-- What stands at a place of the file system. -/
def probe (place : Place) : IO (Option FileEntry) := do
  try
    let bytes ← IO.FS.readBinFile (Place.path place)
    match String.fromUTF8? bytes with
    | some content => return some (.text content)
    | none => return some .binary
  catch e =>
    match e with
    | .noFileOrDirectory .. => return none
    | .inappropriateType _ code _ => return if code = 20 then none else some .folder
    | _ => return some .binary

/-- The part of the file system that an invocation may look at. -/
def snapshot (folder : Place) (i : Invocation) : IO FileTree := do
  let entries ← (Command.scope folder i).mapM fun place => do return (place, ← probe place)
  return ⟨fun place => (entries.lookup place).join⟩

/-- Runs the command of a command line. -/
def main (words : List String) : IO UInt32 := do
  match Command.readLine? (← IO.getEnv "TASKGRAPH_CONFIG") words with
  | none =>
    IO.eprintln "usage: init | select | try | strategies | validate, with their options"
    return 2
  | some i =>
    let folder := Place.follow [] (← IO.currentDir).toString
    let o := Command.run ⟨← snapshot folder i, folder⟩ i
    if let some (place, content) := o.written then
      IO.FS.writeFile (Place.path place) content
    IO.print o.output.results
    IO.eprint o.output.status
    match o.failure with
    | none => return 0
    | some e =>
      IO.eprintln ("Error: " ++ e.message)
      return 1
