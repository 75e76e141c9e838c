/-
**The program.**

The names of the files that there are come on standard input, one on a line, as paths relative to
the current directory.  The arguments say which of them are to be checked.

Main definitions:

* `HintCheck.readDisk` — reads the files that are named;
* `main` — the program.
-/

import HintCheck.Run

set_option relaxedAutoImplicit false
set_option autoImplicit false

namespace HintCheck

/-- All lines of a stream. -/
partial def readLines (input : IO.FS.Stream) : IO (List String) := do
  let line ← input.getLine
  if line.isEmpty then return []
  return String.ofList ((line.toList.reverse.dropWhile (· == '\n')).reverse) :: (← readLines input)

/-- Reads a file, as far as its text can be read. -/
def readText? (name : String) : IO (Option Text) := do
  try
    return some (← IO.FS.readFile name).toList
  catch _ =>
    return none

/-- The place of a path that is relative to the current directory. -/
def placeOf (name : String) : Place :=
  (Text.splitOn '/' name.toList).filter fun piece => !piece.isEmpty && piece != ['.']

/-- Reads the files that are named. -/
def readDisk (names : List String) : IO Disk := do
  let files ← names.mapM fun name => do return (placeOf name, ← readText? name)
  return { files, folders := [], current := [] }

end HintCheck

open HintCheck in
/-- Checks what the arguments name and prints a report. -/
def main (args : List String) : IO UInt32 := do
  let start ← IO.monoNanosNow
  let disk ← readDisk (← readLines (← IO.getStdin))
  let run := Run.ofArguments disk (args.map String.toList)
  let code := run.exitCode
  IO.eprint (String.ofList run.complaint)
  IO.print (String.ofList (run.output ((← IO.monoNanosNow) - start)))
  return code.toUInt32
