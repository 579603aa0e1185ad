import MetricQuery.Catalog.Loading
import MetricQuery.Console
import Std.Time.DateTime.Timestamp

/-!
# The program

The program loads its catalog and then answers one line after the other at a
prompt, until it is told to quit or the input ends. White space around a line is
dropped, and an empty line is passed over. What is noticed while the catalog is
loaded goes to the standard error.

Everything that is decided is decided by the console. This module only reads
the file, the clock and the lines, and prints the answers.
-/

namespace MetricQuery.Program

/-- What stands at a path. -/
def fileState (path : String) : IO FileState := do
  try
    return .content (← IO.FS.readBinFile path)
  catch
    | .noFileOrDirectory .. => return .absent
    | fault => return .unreadable (toString fault)

/-- The present moment. -/
def present : IO Instant := do
  let now ← Std.Time.Timestamp.now
  return ⟨now.val.second.val, now.val.nano.val.toNat⟩

/-- An event as a line. -/
def eventLine (event : Event) : String :=
  String.intercalate " "
    (event.level.name :: event.message ::
      event.details.map fun detail => detail.1 ++ "=" ++ detail.2)

/-- Answer line by line. -/
partial def loop (input output : IO.FS.Stream) (console : Console) : IO Unit := do
  output.putStr "bi> "
  output.flush
  let line ← input.getLine
  if line.isEmpty then return
  let text := Text.trimmed line
  if text.isEmpty then loop input output console
  else
    let (next, reply) := console.handle (← present) text
    output.putStr reply.text
    output.flush
    if reply.quit then return
    loop input output next

end MetricQuery.Program

open MetricQuery in
/-- Load the catalog and answer at the prompt. -/
def main : IO Unit := do
  let input ← IO.getStdin
  let output ← IO.getStdout
  let (catalog, events) := Catalog.atStart (← Program.fileState Catalog.startPath)
  for event in events do
    IO.eprintln (Program.eventLine event)
  output.putStrLn "BI query builder. Type :help for commands."
  Program.loop input output { catalog := catalog }
