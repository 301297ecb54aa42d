import SceneScript.Execution
/-!
Callbacks, written as small scripts over shared variables, and the registry that hands out handles to
them. A handle is the number of callbacks of its kind that were registered before; nothing is ever
taken out.
-/

namespace SceneScript

/-- Variables; one that was never set is zero. -/
structure Vars where
  entries : List (String × Int)
deriving DecidableEq, Inhabited, Repr

namespace Vars

def empty : Vars := ⟨[]⟩

def get (v : Vars) (name : String) : Int := (v.entries.lookup name).getD 0

def insert : List (String × Int) → String → Int → List (String × Int)
  | [], name, value => [(name, value)]
  | (n, old) :: rest, name, value =>
    if n == name then (n, value) :: rest else (n, old) :: insert rest name value

def set (v : Vars) (name : String) (value : Int) : Vars := ⟨insert v.entries name value⟩

end Vars

inductive Predicate where
  | constant (holds : Bool)
  | chosen (index : Option Nat)
  | equals (name : String) (value : Int)
  /-- The k-th call gives the k-th item; the last one repeats. -/
  | series (items : List Bool)
  | panic (text : String)
deriving Inhabited

inductive Selector where
  | constant (label : String)
  | chosen (head : String)
  | valueOf (head name : String)
  | series (items : List String)
  /-- The label beside the variable's value, or the last resort. -/
  | table (name : String) (rows : List (Int × String)) (otherwise : String)
  | panic (text : String)
deriving Inhabited

inductive Effect where
  | note (text : String)
  | set (name : String) (value : Int)
  | add (name : String) (value : Int)
  | execute (program : Nat)
  | select (index : Nat)
  | setChosen (index : Option Nat)
  | view
  | register (kind : CallbackKind)
  | panic (text : String)
deriving Inhabited

inductive Note where
  | text (text : String)
  | executed (error : Option Failure)
  | selected (error : Option Failure)
  | viewed (view : Execution.View) (command : Option Command)
  | registered (kind : CallbackKind) (index : Nat)
deriving Inhabited

structure Registered (α : Type) where
  body : α
  calls : Nat
deriving Inhabited

structure Registry where
  predicates : Array (Registered Predicate)
  selectors : Array (Registered Selector)
  actions : Array (List Effect)
deriving Inhabited

def seriesItem {α : Type} (items : List α) (calls : Nat) : Option α :=
  items[min calls (items.length - 1)]?

def Predicate.answer (p : Predicate) (calls : Nat) (chosen : Option Nat) (vars : Vars) :
    Except String Bool :=
  match p with
  | constant holds => .ok holds
  | .chosen index => .ok (chosen == index)
  | equals name value => .ok (vars.get name == value)
  | series items => .ok ((seriesItem items calls).getD false)
  | panic text => .error text

def Selector.answer (s : Selector) (calls : Nat) (chosen : Option Nat) (vars : Vars) :
    Except String String :=
  match s with
  | constant label => .ok label
  | .chosen head =>
    .ok (head ++ match chosen with
      | some index => toString index
      | none => "none")
  | valueOf head name => .ok (head ++ toString (vars.get name))
  | series items => .ok ((seriesItem items calls).getD "")
  | table name rows otherwise => .ok ((rows.lookup (vars.get name)).getD otherwise)
  | panic text => .error text

namespace Registry

def empty : Registry := ⟨#[], #[], #[]⟩

def addPredicate (r : Registry) (p : Predicate) : Registry × Nat :=
  ({ r with predicates := r.predicates.push ⟨p, 0⟩ }, r.predicates.size)

def addSelector (r : Registry) (s : Selector) : Registry × Nat :=
  ({ r with selectors := r.selectors.push ⟨s, 0⟩ }, r.selectors.size)

def addAction (r : Registry) (effects : List Effect) : Registry × Nat :=
  ({ r with actions := r.actions.push effects }, r.actions.size)

/-- Registers a callback that does nothing: a predicate that holds, a selector without a label, an
action without steps. -/
def addIdle (r : Registry) : CallbackKind → Registry × Nat
  | .predicate => r.addPredicate (.constant true)
  | .selector => r.addSelector (.constant "")
  | .action => r.addAction []

def callPredicate (r : Registry) (index : Nat) : Registry :=
  { r with predicates := r.predicates.modify index fun p => { p with calls := p.calls + 1 } }

def callSelector (r : Registry) (index : Nat) : Registry :=
  { r with selectors := r.selectors.modify index fun s => { s with calls := s.calls + 1 } }

def counts (r : Registry) : Nat × Nat × Nat :=
  (r.predicates.size, r.selectors.size, r.actions.size)

def isEmpty (r : Registry) : Bool := r.counts == (0, 0, 0)

end Registry

end SceneScript
