/-!
Flags that are raised once and stay up, and tokens that share them. Tasks in the background watch a
flag to learn that they are cancelled.
-/

namespace SceneScript

/-- Every flag handed out so far, by number. -/
structure Flags where
  raised : Array Bool
deriving Inhabited

namespace Flags

def empty : Flags := ⟨#[]⟩

def fresh (f : Flags) : Flags × Nat := (⟨f.raised.push false⟩, f.raised.size)

def raise (f : Flags) (i : Nat) : Flags := ⟨f.raised.setIfInBounds i true⟩

def isRaised (f : Flags) (i : Nat) : Bool := f.raised.getD i false

theorem isRaised_raise (f : Flags) (i j : Nat) :
    (f.raise i).isRaised j = ((decide (i = j) && decide (i < f.raised.size)) || f.isRaised j) := by
  by_cases h : i < f.raised.size <;> by_cases e : i = j <;>
    simp_all [raise, isRaised, Array.getD]

theorem isRaised_fresh (f : Flags) (j : Nat) : f.fresh.1.isRaised j = f.isRaised j := by
  simp only [fresh, isRaised, Array.getD, Array.size_push]
  by_cases h : j < f.raised.size
  · simp [h, Nat.lt_succ_of_lt h, Array.getElem_push_lt h]
  · by_cases e : j = f.raised.size
    · subst e; simp
    · have : ¬ j < f.raised.size + 1 := by omega
      simp [h, this]

end Flags

structure Tokens where
  flags : Flags
  held : Array Nat
deriving Inhabited

namespace Tokens

inductive Step where
  | create
  | clone (token : Nat)
  | cancel (token : Nat)
  /-- Puts a fresh token in the place of an old one and appends the old one. -/
  | take (token : Nat)
  | wait (token : Nat)
deriving DecidableEq, Inhabited, Repr

inductive Reply where
  | token (number : Nat)
  | done
  | pending
deriving DecidableEq, Inhabited, Repr

def new : Tokens :=
  let (flags, i) := Flags.empty.fresh
  ⟨flags, #[i]⟩

def flagOf (t : Tokens) (token : Nat) : Nat := t.held.getD token 0

def isCancelled (t : Tokens) (token : Nat) : Bool := t.flags.isRaised (t.flagOf token)

def states (t : Tokens) : List Bool := t.held.toList.map t.flags.isRaised

def apply (t : Tokens) : Step → Tokens × Reply
  | .create =>
    let (flags, i) := t.flags.fresh
    (⟨flags, t.held.push i⟩, .token t.held.size)
  | .clone token => (⟨t.flags, t.held.push (t.flagOf token)⟩, .token t.held.size)
  | .cancel token => (⟨t.flags.raise (t.flagOf token), t.held⟩, .done)
  | .take token =>
    let (flags, i) := t.flags.fresh
    (⟨flags, (t.held.setIfInBounds token i).push (t.flagOf token)⟩, .token t.held.size)
  | .wait token => (t, if t.isCancelled token then .done else .pending)

end Tokens

end SceneScript
