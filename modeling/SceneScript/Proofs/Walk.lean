import Mathlib.Logic.Function.Iterate
import SceneScript.Proofs.Labels
import SceneScript.Chronicle
/-!
The meaning of a script: a walk over its commands as they were written, labels included, that hears
what callbacks give back. Places in the script and places in the resolved program differ by the labels
before them (`rank`).
-/

namespace SceneScript

inductive Stop where
  | going
  /-- A callback has not come back. -/
  | waiting
  | completed
  | failed (error : Failure)

/-- Where a command leads, and what is left of the replies. -/
inductive Turnout where
  | next (replies : List Reply)
  | jump (label : String) (replies : List Reply)
  | stops (stop : Stop)

def Command.turnout : Command → List Reply → Turnout
  | goto name, replies => .jump name replies
  | branch _ _, .holds true :: replies => .next replies
  | branch _ otherwise, .holds false :: replies => .jump otherwise replies
  | branch predicate _, .unknown :: _ => .stops (.failed (.unknownCallback .predicate predicate))
  | switch _, .label name :: replies => .jump name replies
  | switch selector, .unknown :: _ => .stops (.failed (.unknownCallback .selector selector))
  | action _, .done :: replies => .next replies
  | action index, .unknown :: _ => .stops (.failed (.unknownCallback .action index))
  | branch .., _ | switch _, _ | action _, _ => .stops .waiting
  | _, replies => .next replies

def labelPlace? (commands : List Command) (name : String) : Option Nat :=
  commands.findIdx? fun c => c.labelName? == some name

structure Walker where
  place : Nat
  /-- What callbacks have yet to give back. -/
  replies : List Reply
  visited : List Command
  stop : Stop

namespace Walker

def follow (commands : List Command) (v : Walker) : Turnout → Walker
  | .next replies => { v with place := v.place + 1, replies }
  | .jump label replies =>
    match labelPlace? commands label with
    | some place => { v with place, replies }
    | none => { v with replies, stop := .failed (.unknownLabel label) }
  | .stops stop => { v with stop }

def step (commands : List Command) (v : Walker) : Walker :=
  match v.stop with
  | .going =>
    match commands[v.place]? with
    | none => { v with stop := .completed }
    | some c =>
      if c.isLabel then { v with place := v.place + 1 }
      else { v with visited := v.visited ++ [c] }.follow commands (c.turnout v.replies)
  | _ => v

end Walker

def walk (commands : List Command) (replies : List Reply) (n : Nat) : Walker :=
  (Walker.step commands)^[n] ⟨0, replies, [], .going⟩

/-! ### Places -/

/-- How many commands run before this place. -/
def rank (commands : List Command) (place : Nat) : Nat := (running (commands.take place)).length

variable {commands : List Command} {c : Command} {place : Nat}

@[simp] theorem running_cons (c : Command) (rest : List Command) :
    running (c :: rest) = if c.isLabel then running rest else c :: running rest := by
  rw [running, List.filter_cons]
  cases c.isLabel <;> rfl

@[simp] theorem rank_zero (commands : List Command) : rank commands 0 = 0 := by
  simp [rank, running]

theorem rank_cons (c : Command) (rest : List Command) (place : Nat) :
    rank (c :: rest) (place + 1) = rank rest place + if c.isLabel then 0 else 1 := by
  rw [rank, List.take_succ_cons, running_cons]
  cases c.isLabel <;> rfl

theorem rank_succ (found : commands[place]? = some c) :
    rank commands (place + 1) = rank commands place + if c.isLabel then 0 else 1 := by
  have last : commands.take (place + 1) = commands.take place ++ [c] := by
    rw [List.take_add_one, found]
    rfl
  rw [rank, last, running, List.filter_append, List.length_append]
  congr 1
  cases h : c.isLabel <;> simp [h]

def Runs (commands : List Command) (place : Nat) : Prop :=
  ∀ c, commands[place]? = some c → c.isLabel = false

theorem running_rank (runs : Runs commands place) :
    (running commands)[rank commands place]? = commands[place]? := by
  induction commands generalizing place with
  | nil => simp [running]
  | cons c rest ih =>
    cases place with
    | zero =>
      have label : c.isLabel = false := runs c rfl
      simp [label]
    | succ place =>
      have rest' : Runs rest place := fun c' found => runs c' found
      have here := ih rest'
      rw [rank_cons, running_cons]
      cases c.isLabel with
      | true => simpa using here
      | false => simpa using here

/-- The table of labels sends a name to the rank of its place. -/
theorem lookup_places (commands : List Command) (name : String) (next : Nat) :
    (places commands next).lookup name =
      (labelPlace? commands name).map fun place => next + rank commands place := by
  -- A label leaves `next` alone and takes no rank, a command takes one of each.
  induction commands generalizing next with
  | nil => rfl
  | cons c rest ih =>
    rw [labelPlace?, List.findIdx?_cons, places]
    cases hc : c.labelName? with
    | none =>
      have label : c.isLabel = false := labelName?_eq_none.mp hc
      have shift := ih (next + 1)
      rw [labelPlace?] at shift
      simp only [shift]
      simp only [beq_iff_eq, reduceCtorEq, if_false, Option.map_map]
      congr 1
      funext place
      simp only [Function.comp, rank_cons, label]
      simp only [Bool.false_eq_true, if_false]
      omega
    | some other =>
      have label : c.isLabel = true := by simp [Command.isLabel, hc]
      have shift := ih next
      rw [labelPlace?] at shift
      by_cases same : name = other
      · subst same
        simp
      · have other' : (some other == some name) = false := by
          simpa using fun h => same h.symm
        have miss : (name == other) = false := by simpa using same
        simp only [List.lookup_cons, miss, shift, other', Bool.false_eq_true, if_false,
          Option.map_map]
        congr 1
        funext place
        simp [Function.comp, rank_cons, label]

theorem Program.resolve_resolvedOf (commands : List Command) (label : String) :
    (resolvedOf commands).resolve label =
      match labelPlace? commands label with
      | some place => .ok (rank commands place)
      | none => .error (.unknownLabel label) := by
  have found := lookup_places commands label 0
  rw [resolve, show (resolvedOf commands).labels = places commands 0 from rfl, found]
  cases labelPlace? commands label with
  | none => rfl
  | some place => simp

/-! ### Steps -/

theorem walk_succ (commands : List Command) (replies : List Reply) (n : Nat) :
    walk commands replies (n + 1) = (walk commands replies n).step commands :=
  Function.iterate_succ_apply' ..

/-- Having heard these replies, whatever comes after them, the walk has visited these commands and
stands at this place. -/
def Reaches (commands : List Command) (replies : List Reply) (visited : List Command)
    (place : Nat) : Prop :=
  ∃ n, ∀ more, walk commands (replies ++ more) n = ⟨place, more, visited, .going⟩

def Visits (commands : List Command) (replies : List Reply) (visited : List Command) : Prop :=
  ∃ n, (walk commands replies n).visited = visited

def Ends (commands : List Command) (replies : List Reply) (visited : List Command) (stop : Stop) :
    Prop :=
  ∃ n, (walk commands replies n).visited = visited ∧ (walk commands replies n).stop = stop

theorem Ends.visits {replies : List Reply} {visited : List Command} {stop : Stop}
    (h : Ends commands replies visited stop) : Visits commands replies visited := by
  obtain ⟨n, visits, -⟩ := h
  exact ⟨n, visits⟩

theorem reaches_zero (commands : List Command) : Reaches commands [] [] 0 := ⟨0, fun _ => rfl⟩

namespace Reaches

variable {replies said : List Reply} {visited : List Command} {label : String}

theorem visits (h : Reaches commands replies visited place) : Visits commands replies visited := by
  obtain ⟨n, walked⟩ := h
  have walked := walked []
  rw [List.append_nil] at walked
  exact ⟨n, by rw [walked]⟩

theorem passes (h : Reaches commands replies visited place) :
    ∃ place', Reaches commands replies visited place' ∧
      rank commands place' = rank commands place ∧ Runs commands place' := by
  -- Every label passed leaves less of the script.
  induction left : commands.length - place generalizing place with
  | zero =>
    have past : commands[place]? = none := List.getElem?_eq_none (by omega)
    refine ⟨place, h, rfl, fun c found => ?_⟩
    rw [past] at found
    cases found
  | succ left ih =>
    have bound : place < commands.length := by omega
    have found : commands[place]? = some commands[place] := List.getElem?_eq_getElem bound
    by_cases label : commands[place].isLabel = true
    · have next : Reaches commands replies visited (place + 1) := by
        obtain ⟨n, walked⟩ := h
        refine ⟨n + 1, fun more => ?_⟩
        rw [walk_succ, walked, Walker.step]
        simp [found, label]
      obtain ⟨place', reached, same, runs⟩ := ih next (by omega)
      refine ⟨place', reached, ?_, runs⟩
      rw [same, rank_succ found, label]
      rfl
    · refine ⟨place, h, rfl, fun c found' => ?_⟩
      rw [found] at found'
      cases found'
      simpa using label

theorem follows (h : Reaches commands replies visited place) (found : commands[place]? = some c)
    (runs : c.isLabel = false) : ∃ n, ∀ more, walk commands (replies ++ more) n =
      Walker.follow commands ⟨place, more, visited ++ [c], .going⟩ (c.turnout more) := by
  obtain ⟨n, walked⟩ := h
  refine ⟨n + 1, fun more => ?_⟩
  rw [walk_succ, walked, Walker.step]
  simp [found, runs]

theorem next (h : Reaches commands replies visited place) (found : commands[place]? = some c)
    (runs : c.isLabel = false) (turns : ∀ more, c.turnout (said ++ more) = .next more) :
    Reaches commands (replies ++ said) (visited ++ [c]) (place + 1) := by
  obtain ⟨n, walked⟩ := h.follows found runs
  refine ⟨n, fun more => ?_⟩
  rw [List.append_assoc, walked, turns]
  rfl

theorem jumps {target : Nat} (h : Reaches commands replies visited place)
    (found : commands[place]? = some c) (runs : c.isLabel = false)
    (turns : ∀ more, c.turnout (said ++ more) = .jump label more)
    (there : labelPlace? commands label = some target) :
    Reaches commands (replies ++ said) (visited ++ [c]) target := by
  obtain ⟨n, walked⟩ := h.follows found runs
  refine ⟨n, fun more => ?_⟩
  rw [List.append_assoc, walked, turns, Walker.follow, there]

theorem strays (h : Reaches commands replies visited place) (found : commands[place]? = some c)
    (runs : c.isLabel = false) (turns : ∀ more, c.turnout (said ++ more) = .jump label more)
    (nowhere : labelPlace? commands label = none) :
    Ends commands (replies ++ said) (visited ++ [c]) (.failed (.unknownLabel label)) := by
  obtain ⟨n, walked⟩ := h.follows found runs
  have turned := turns []
  rw [List.append_nil] at turned
  refine ⟨n, ?_⟩
  rw [walked, turned, Walker.follow, nowhere]
  exact ⟨rfl, rfl⟩

theorem stops {stop : Stop} (h : Reaches commands replies visited place)
    (found : commands[place]? = some c) (runs : c.isLabel = false)
    (turns : c.turnout said = .stops stop) :
    Ends commands (replies ++ said) (visited ++ [c]) stop := by
  obtain ⟨n, walked⟩ := h.follows found runs
  refine ⟨n, ?_⟩
  rw [walked, turns]
  exact ⟨rfl, rfl⟩

theorem completes (h : Reaches commands replies visited place) (past : commands[place]? = none) :
    Ends commands replies visited .completed := by
  obtain ⟨n, walked⟩ := h
  have walked := walked []
  rw [List.append_nil] at walked
  refine ⟨n + 1, ?_⟩
  rw [walk_succ, walked, Walker.step]
  simp [past]

theorem visits_next (h : Reaches commands replies visited place)
    (found : commands[place]? = some c) (runs : c.isLabel = false) :
    Visits commands (replies ++ said) (visited ++ [c]) := by
  obtain ⟨n, walked⟩ := h.follows found runs
  refine ⟨n, ?_⟩
  rw [walked]
  cases c.turnout said with
  | next => rfl
  | stops => rfl
  | jump label => cases there : labelPlace? commands label <;> simp [Walker.follow, there]

end Reaches

end SceneScript
