import SumCluster.Text.Split

/-!
Command-line arguments. They are taken from left to right: a word that starts with two hyphens is an
option, with its value after an equals sign or in the next word; a word that starts with one hyphen
is a request for help or for the version; any other word, and every word after a bare `--`, is
positional. A value in a word of its own must not look like an option. Nothing may be given twice.
The first thing that is wrong ends the reading, and so does a request for help or for the version.
-/

namespace SumCluster.Cli

open Text (splitFirst)

/-- What a program takes on its command line, and what each argument adds to what was read before;
an argument that adds nothing has a bad value. -/
structure Grammar (α : Type) where
  /-- The positional argument at some place, if there is one. -/
  positional : Nat → Option (List Char → α → Option α)
  /-- The option of some name that has no value. -/
  flag : List Char → Option (α → α)
  /-- The option of some name that has a value. -/
  option : List Char → Option (List Char → α → Option α)

/-- What a command line comes to. -/
inductive Parsed (α : Type) where
  /-- All arguments were taken. -/
  | arguments (a : α)
  /-- The version is wanted. -/
  | version
  /-- Help is wanted. -/
  | help
  /-- Something is wrong. -/
  | refused

/-- What was read so far: the arguments, how many positional ones, and the options by name. -/
structure Progress (α : Type) where
  arguments : α
  count : Nat
  given : List (List Char)

namespace Grammar

variable {α : Type}

/-- Takes a positional argument. -/
def takePositional (g : Grammar α) (p : Progress α) (word : List Char) : Option (Progress α) := do
  let take ← g.positional p.count
  let a ← take word p.arguments
  some { p with arguments := a, count := p.count + 1 }

/-- Takes the value of an option. -/
def takeValue (take : List Char → α → Option α) (p : Progress α) (name word : List Char) :
    Option (Progress α) := do
  if p.given.contains name then none
  let a ← take word p.arguments
  some { p with arguments := a, given := name :: p.given }

/-- Takes words that are all positional. -/
def takeRest (g : Grammar α) (p : Progress α) : List (List Char) → Parsed α
  | [] => .arguments p.arguments
  | word :: rest => match g.takePositional p word with
    | some p => takeRest g p rest
    | none => .refused

/-- Whether a word looks like an option. -/
def looksLikeOption : List Char → Bool
  | '-' :: _ :: _ => true
  | _ => false

/-- Takes words from left to right. -/
def takeWords (g : Grammar α) (p : Progress α) : List (List Char) → Parsed α
  | [] => .arguments p.arguments
  | ['-', '-'] :: rest => g.takeRest p rest
  | ('-' :: '-' :: word) :: rest =>
    match splitFirst '=' word with
    | (name, value) =>
      if name = "version".toList then (if value = none then .version else .refused)
      else if name = "help".toList then (if value = none then .help else .refused)
      else match g.flag name, g.option name, value with
        | some set, _, none =>
          if p.given.contains name then .refused
          else takeWords g { p with arguments := set p.arguments, given := name :: p.given } rest
        | none, some take, some value => match takeValue take p name value with
          | some p => takeWords g p rest
          | none => .refused
        | none, some take, none => match rest with
          | value :: rest =>
            if looksLikeOption value then .refused
            else match takeValue take p name value with
              | some p => takeWords g p rest
              | none => .refused
          | [] => .refused
        | _, _, _ => .refused
  | ('-' :: 'V' :: _) :: _ => .version
  | ('-' :: 'h' :: _) :: _ => .help
  | ('-' :: _ :: _) :: _ => .refused
  | word :: rest => match g.takePositional p word with
    | some p => takeWords g p rest
    | none => .refused

/-- Reads a command line, starting from what holds when nothing is given. -/
def read (g : Grammar α) (start : α) (words : List String) : Parsed α :=
  g.takeWords ⟨start, 0, []⟩ (words.map String.toList)

end Grammar

/-- What a program leaves behind when it ends. -/
structure Run where
  exit : Nat
  stdout : String
  stderr : String
  deriving DecidableEq, Repr

namespace Run

/-- The program and its version. -/
def versionLine : String := "tally-core 0.1.0\n"

/-- A good end with some output. -/
def success (stdout : String) : Run := ⟨0, stdout, ""⟩

/-- A bad end after some output, with a report. -/
def failure (stdout report : String) : Run := ⟨1, stdout, report⟩

/-- The end of a program whose arguments are wrong. -/
def badArguments (usage : String) : Run := ⟨2, "", "Usage: " ++ usage ++ "\n"⟩

/-- The end of a program that only tells its version. -/
def version : Run := success versionLine

/-- The end of a program that only tells how to call it. -/
def help (usage : String) : Run := success ("Usage: " ++ usage ++ "\n")

end Run

/-- Goes on with the arguments of a program, or ends it when there is nothing to go on with. -/
def Parsed.proceed {α β : Type} (usage : String) (finish : α → Option β) :
    Parsed α → Except Run β
  | .arguments a => match finish a with
    | some b => .ok b
    | none => .error (.badArguments usage)
  | .version => .error .version
  | .help => .error (.help usage)
  | .refused => .error (.badArguments usage)

end SumCluster.Cli
