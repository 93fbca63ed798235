import SumCluster.Error
import SumCluster.Text.Split

/-!
How a program reports the error that ends it: the error, and under it what lies behind it. A single
cause is indented; several are numbered from zero. The further lines of a cause keep its indent.
-/

namespace SumCluster

open Text (natText splitOn)

/-- An error as a program ends with it: its text and the texts of what lies behind it. -/
structure Failure where
  message : String
  causes : List String
  deriving DecidableEq, Repr

namespace Failure

/-- A failure of the cluster on its own. -/
def ofError (e : ClusterError) : Failure := ⟨e.message, e.causes⟩

/-- A failure of the cluster while doing something that is worth naming. -/
def during (context : String) (e : ClusterError) : Failure := ⟨context, e.message :: e.causes⟩

/-- A text whose first line gets `lead` before it and whose other lines get `indent`. -/
def hang (lead indent : String) (text : String) : String :=
  match splitOn '\n' text.toList with
  | [] => lead
  | first :: rest =>
    rest.foldl (fun s l => s ++ "\n" ++ indent ++ String.ofList l) (lead ++ String.ofList first)

/-- A number at the right of five columns, a colon and a space. -/
def numbered (n : Nat) : String :=
  String.ofList (List.replicate (5 - (natText n).length) ' ') ++ natText n ++ ": "

/-- The lines of the causes. -/
def causeLines : List String → List String
  | [cause] => [hang "    " "    " cause]
  | causes => causes.zipIdx.map fun (cause, n) => hang (numbered n) "       " cause

/-- The whole report. -/
def report (f : Failure) : String :=
  match f.causes with
  | [] => "Error: " ++ f.message ++ "\n"
  | causes =>
    "Error: " ++ f.message ++ "\n\nCaused by:\n" ++ "\n".intercalate (causeLines causes) ++ "\n"

end Failure

end SumCluster
