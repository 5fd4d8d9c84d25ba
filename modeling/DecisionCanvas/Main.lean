import DecisionCanvas.CommandLine.Run

/-!
# The program

The command line on real files.  Failures go to standard error, one text a line.
-/

namespace DecisionCanvas

def readTextFile (path : String) : IO (Option String) := do
  try
    return some (← IO.FS.readFile path)
  catch _ => return none

def writeTextFile (path text : String) : IO Bool := do
  try
    IO.FS.writeFile path text
    return true
  catch _ => return false

def randomSource : IO IdSource := do
  let bytes ← IO.getRandomBytes 8
  return ⟨bytes.foldl (fun seed byte => 256 * seed + byte.toNat) 0, 0⟩

end DecisionCanvas

def main (arguments : List String) : IO UInt32 := do
  let host : DecisionCanvas.CommandLine.Host IO :=
    { textOf := DecisionCanvas.readTextFile
      put := DecisionCanvas.writeTextFile
      print := IO.println
      threshold := ← IO.getEnv DecisionCanvas.thresholdVariable }
  let ending ← DecisionCanvas.CommandLine.runLine host (← DecisionCanvas.randomSource) arguments
  for line in ending.errors do
    IO.eprintln line
  if ending.exitCode == 2 then IO.eprintln DecisionCanvas.CommandLine.usage
  return ending.exitCode.toUInt32
