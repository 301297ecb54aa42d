import SceneScript.Command
import SceneScript.Failure
/-!
Where the active program stands, as its host sees it.
-/

namespace SceneScript

structure Execution where
  run : Option Nat
  pointer : Nat
  command : Option Command
  executing : Bool
  /-- The option picked last; it outlives the run. -/
  chosen : Option Nat
deriving Inhabited

namespace Execution

def idle : Execution := ⟨none, 0, none, false, none⟩

def begin (s : Execution) (run : Nat) : Execution :=
  { s with run := some run, pointer := 0, command := none, executing := true }

def enter (s : Execution) (pointer : Nat) (command : Command) : Execution :=
  { s with pointer := pointer, command := some command }

def reset (s : Execution) : Execution :=
  { s with run := none, pointer := 0, command := none, executing := false }

structure View where
  run : Option Nat
  pointer : Option Nat
  opcode : Option Opcode
  executing : Bool
  chosen : Option Nat
deriving DecidableEq, Inhabited, Repr

def view (s : Execution) : View where
  run := s.run
  pointer := if s.executing then some s.pointer else none
  opcode := s.command.map (·.opcode)
  executing := s.executing
  chosen := s.chosen

end Execution

inductive Event where
  | started (run : Nat)
  | stepped (index : Nat) (opcode : Opcode)
  | choiceMade (index : Nat)
  | completed
  | aborted (error : Failure)
  | countdownTimedOut
deriving DecidableEq, Inhabited, Repr

def Event.name : Event → String
  | started _ => "interpreter.started"
  | stepped .. => "interpreter.stepped"
  | choiceMade _ => "interpreter.choice_made"
  | completed => "interpreter.completed"
  | aborted _ => "interpreter.aborted"
  | countdownTimedOut => "interpreter.countdown_timed_out"

end SceneScript
