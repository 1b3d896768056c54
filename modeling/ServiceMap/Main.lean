import ServiceMap.CommandLine.Run
import ServiceMap.Tree.Listing

/-!
# The program

Runs the program on a tree that is given on standard input, so that it needs no access to files. The
first line names the working directory and the time in seconds since 1970, with a tab between them;
the lines after it list the tree. The report goes to standard output, followed by a line for every
file that the run has written; notes and complaints go to standard error.
-/

open ServiceMap

/-- The lines of a stream up to its end. -/
partial def readLines (input : IO.FS.Stream) (done : Array String) : IO (Array String) := do
  let line ← input.getLine
  if line.isEmpty then return done
  readLines input (done.push (String.ofList (line.toList.filter (· != '\n'))))

/-- The surroundings that lines describe. -/
def surroundingsOf (lines : List String) : CommandLine.Surroundings :=
  let (header, listing) := (lines.headD "", lines.drop 1)
  let (directory, seconds) :=
    match Text.splitOn (· == '\t') header.toList with
    | [directory, seconds] => (String.ofList directory, String.ofList seconds)
    | _ => (header, "0")
  let now := (FileTime.ofSeconds? seconds).getD ⟨0⟩
  { tree := Listing.readTree listing
    workingDirectory := Path.ofString directory
    now
    stamp := now.stamp ++ " " }

/-- Runs the program. -/
def main (arguments : List String) : IO UInt32 := do
  let lines ← readLines (← IO.getStdin) #[]
  let surroundings := surroundingsOf lines.toList
  let finished := CommandLine.run surroundings arguments
  let outcome := match finished.outcome with
    | .ok outcome => outcome
    | .error breakdown => { status := 1, complaints := breakdown.message ++ "\n" }
  IO.eprint outcome.complaints
  IO.print outcome.printed
  for entry in Listing.changes surroundings.tree finished.tree do
    IO.println (Listing.changeLine entry)
  return outcome.status.toUInt32
