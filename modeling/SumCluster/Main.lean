import SumCluster.Service.Client
import SumCluster.Service.Leader
import SumCluster.Service.Worker

/-!
The command line: the first word says which of the three programs is wanted, and the others are its
arguments.
-/

namespace SumCluster

open Cli (Run)

/-- How the program is called. -/
def usage : String :=
  "Usage: " ++ Cli.Client.usage ++ "\n       " ++ Cli.Worker.usage ++ "\n       " ++
    Cli.Leader.usage ++ "\n"

/-- Runs one of the programs. -/
def runProgram : List String → IO Run
  | "client" :: words => (Service.Client.run words).block
  | "worker" :: words => (Service.Worker.run words).block
  | "leader" :: words => (Service.Leader.run words).block
  | _ => pure ⟨2, "", usage⟩

end SumCluster

/-- Runs the program, writes what it leaves behind, and ends with its exit code. -/
def main (words : List String) : IO UInt32 := do
  let run ← SumCluster.runProgram words
  IO.print run.stdout
  IO.eprint run.stderr
  return run.exit.toUInt32
