import AnnotationCheck.CommandLine.Run

/-!
The program: it takes the names of files and directories from its standard input, one on each line,
reads the files, and answers its arguments.
-/

namespace AnnotationCheck.Program

/-- The lines of a stream without their ends. -/
partial def lines (input : IO.FS.Stream) : IO (List String) := do
  let line ← input.getLine
  if line.isEmpty then return []
  let rest ← lines input
  return String.ofList (Text.trimEnd (· == '\n') line.toList) :: rest

/-- The disk with what a name stands for; what cannot be read is taken for a directory. -/
def addEntry (disk : Disk) (name : String) : IO Disk := do
  let path : Path := ⟨name.toList⟩
  try
    let bytes ← IO.FS.readBinFile name
    return disk.write path (match String.fromUTF8? bytes with
      | some content => .text content.toList
      | none => .bytes)
  catch _ => return disk.makeDirectory path

/-- The disk with everything that a stream names. -/
def readDisk (input : IO.FS.Stream) : IO Disk := do
  (← lines input).foldlM addEntry {}

/-- Prints what a run leaves. -/
def print (outcome : CommandLine.Outcome) : IO UInt32 := do
  IO.print (String.ofList outcome.output)
  for line in outcome.warnings do
    IO.eprintln (String.ofList line)
  return outcome.code.toUInt32

end AnnotationCheck.Program

/-- Answers the arguments of the program. -/
def main (arguments : List String) : IO UInt32 := do
  let disk ← AnnotationCheck.Program.readDisk (← IO.getStdin)
  AnnotationCheck.Program.print (AnnotationCheck.CommandLine.run disk (arguments.map String.toList))
