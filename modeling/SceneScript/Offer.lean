import SceneScript.Failure
/-!
The hand-over of a selection from the host to a waiting choice. At most one offer is open at a time;
a selection empties the slot and reaches the receiver of that offer alone.
-/

namespace SceneScript

inductive Receipt where
  | waiting
  | answered (index : Nat)
  /-- A later offer or a closed slot overtook it. -/
  | abandoned
  /-- Its answer, or that there will be none, was read. -/
  | spent
  | dropped
deriving DecidableEq, Inhabited, Repr

structure Offer where
  receiver : Nat
  available : Nat
deriving DecidableEq, Inhabited, Repr

structure ChoiceSlot where
  pending : Option Offer
  /-- The state of every receiver ever handed out, by number. -/
  receipts : Array Receipt
deriving Inhabited

namespace ChoiceSlot

def empty : ChoiceSlot := ⟨none, #[]⟩

def isPending (s : ChoiceSlot) : Bool := s.pending.isSome

def receipt (s : ChoiceSlot) (receiver : Nat) : Receipt := s.receipts.getD receiver .dropped

def mark (s : ChoiceSlot) (receiver : Nat) (r : Receipt) : ChoiceSlot :=
  { s with receipts := s.receipts.setIfInBounds receiver r }

def close (s : ChoiceSlot) : ChoiceSlot :=
  match s.pending with
  | none => s
  | some offer =>
    let s := if s.receipt offer.receiver = .waiting then s.mark offer.receiver .abandoned else s
    { s with pending := none }

def offer (s : ChoiceSlot) (available : Nat) : ChoiceSlot × Nat :=
  let s := s.close
  let receiver := s.receipts.size
  (⟨some ⟨receiver, available⟩, s.receipts.push .waiting⟩, receiver)

/-- Answers the open offer. An index that was not offered leaves it open; if its receiver is gone,
the offer is withdrawn. -/
def select (s : ChoiceSlot) (index : Nat) : ChoiceSlot × Except Failure Unit :=
  match s.pending with
  | none => (s, .error .noPendingChoice)
  | some offer =>
    if offer.available ≤ index then (s, .error (.choiceOutOfRange index offer.available))
    else if s.receipt offer.receiver = .waiting then
      ({ s.mark offer.receiver (.answered index) with pending := none }, .ok ())
    else ({ s with pending := none }, .error .noPendingChoice)

def drop (s : ChoiceSlot) (receiver : Nat) : ChoiceSlot := s.mark receiver .dropped

inductive Step where
  | offer (available : Nat)
  | select (index : Nat)
  | close
  | drop (receiver : Nat)
  | receive (receiver : Nat)
deriving DecidableEq, Inhabited, Repr

inductive Reply where
  | done
  | number (n : Nat)
  | failed (e : Failure)
  | pending
  | abandoned
  | gone
deriving DecidableEq, Inhabited, Repr

def apply (s : ChoiceSlot) : Step → ChoiceSlot × Reply
  | .offer available =>
    let (s, receiver) := s.offer available
    (s, .number receiver)
  | .select index =>
    match s.select index with
    | (s, .ok _) => (s, .done)
    | (s, .error e) => (s, .failed e)
  | .close => (s.close, .done)
  | .drop receiver => (s.drop receiver, .done)
  | .receive receiver =>
    match s.receipt receiver with
    | .waiting => (s, .pending)
    | .answered index => (s.mark receiver .spent, .number index)
    | .abandoned => (s.mark receiver .spent, .abandoned)
    | .spent | .dropped => (s, .gone)

end ChoiceSlot

end SceneScript
