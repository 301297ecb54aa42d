import SceneScript.Command
import SceneScript.Failure
/-!
Programs: lists of commands with a table of labels. Labels are resolved once: every label command is
taken out and its name is mapped to the place that the next command has afterwards, which is the
length of the program for a label at the end. A name that repeats leaves the program as it was.
-/

namespace SceneScript

structure Program where
  commands : List Command
  labels : List (String × Nat)
  resolved : Bool
deriving Inhabited

namespace Program

def ofCommands (commands : List Command) : Program := ⟨commands, [], false⟩

def length (p : Program) : Nat := p.commands.length

def isEmpty (p : Program) : Bool := p.commands.isEmpty

/-- Splits commands into the ones that run and the labels between them. `next` is the place of the
next command that runs and `seen` holds the labels so far. -/
def index : List Command → (next : Nat) → (seen : List (String × Nat)) →
    Except Failure (List Command × List (String × Nat))
  | [], _, seen => .ok ([], seen)
  | c :: rest, next, seen =>
    match c.labelName? with
    | some name =>
      if seen.any (·.1 == name) then .error (.duplicateLabel name)
      else index rest next (seen ++ [(name, next)])
    | none => (index rest (next + 1) seen).map fun (run, labels) => (c :: run, labels)

/-- Resolves the labels; a second time changes nothing. -/
def preprocess (p : Program) : Except Failure Program :=
  if p.resolved then .ok p
  else (index p.commands 0 []).map fun (run, labels) => ⟨run, labels, true⟩

def resolve (p : Program) (label : String) : Except Failure Nat :=
  match p.labels.lookup label with
  | some place => .ok place
  | none => .error (.unknownLabel label)

end Program

end SceneScript
