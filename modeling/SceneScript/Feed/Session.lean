import SceneScript.Failure
import SceneScript.Frame
/-!
A feed without a player: handles that publish, cursors that wait. A wait looks once at the frames that
are there; when they do not end it, they stay taken and the time they add up to is lost.
-/

namespace SceneScript

inductive Polled (α : Type) where
  | ready (a : α) (c : Cursor)
  | pending (c : Cursor)
  | closed (c : Cursor)
  /-- The deltas add up to more time than can be counted. -/
  | overflow (c : Cursor)
deriving Inhabited

namespace Feed

def ahead (feed : Feed) (c : Cursor) : Nat := feed.count - c.taken

def pollUntil (feed : Feed) (p : Frame → Bool) : Nat → Cursor → Polled Frame
  | 0, c => .pending c
  | n + 1, c =>
    match feed.pull c with
    | .frame f c _ => if p f then .ready f c else pollUntil feed p n c
    | .waiting => .pending c
    | .closed => .closed c

/-- Takes frames until their deltas add up to `span`; the result is everything pressed in them. -/
def pollFor (feed : Feed) (span : Span) : Nat → Span → Keys → Cursor → Polled Keys
  | n, elapsed, pressed, c =>
    if elapsed < span then
      match n with
      | 0 => .pending c
      | n + 1 =>
        match feed.pull c with
        | .frame f c _ =>
          match elapsed.add? f.delta with
          | some elapsed => pollFor feed span n elapsed (pressed.merge f.keys) c
          | none => .overflow c
        | .waiting => .pending c
        | .closed => .closed c
    else .ready pressed c

def next (feed : Feed) (c : Cursor) : Polled Frame :=
  feed.pollUntil (fun _ => true) (feed.ahead c + 1) c

def waitUntil (feed : Feed) (p : Frame → Bool) (c : Cursor) : Polled Frame :=
  feed.pollUntil p (feed.ahead c + 1) c

def waitFor (feed : Feed) (span : Span) (c : Cursor) : Polled Keys :=
  feed.pollFor span (feed.ahead c + 1) .zero .nothing c

structure Session where
  feed : Feed
  clocks : Array Bool
  cursors : Array (Option Cursor)
deriving Inhabited

namespace Session

inductive Step where
  | tick (times : Nat) (delta : Span) (keys : Keys)
  | subscribe
  | next (cursor : Nat)
  | waitFor (cursor : Nat) (span : Span)
  | waitConfirm (cursor : Nat)
  | waitMultiple (cursor divisor : Nat)
  | resync (cursor : Nat)
  | dropCursor (cursor : Nat)
  | cloneClock
  | dropClock (clock : Nat)
deriving DecidableEq, Inhabited, Repr

inductive Reply where
  | frame (f : Frame)
  | number (n : Nat)
  | keys (k : Keys)
  | done
  | pending
  | failed (e : Failure)
  | overflow
  | gone
deriving DecidableEq, Inhabited, Repr

def new (backlog : Nat) : Session := ⟨.new backlog, #[true], #[]⟩

def isOpen (s : Session) : Bool := 0 < s.feed.sources

def counts? (s : Session) : Option (Nat × Nat) :=
  if s.isOpen then some (s.feed.count, (s.cursors.toList.filterMap id).length) else none

def publish (feed : Feed) (delta : Span) (keys : Keys) : Nat → Feed
  | 0 => feed
  | n + 1 => publish (feed.publish delta keys) delta keys n

def setCursor (s : Session) (cursor : Nat) (c : Option Cursor) : Session :=
  { s with cursors := s.cursors.setIfInBounds cursor c }

def polled {α : Type} (s : Session) (cursor : Nat) (ok : α → Reply) : Polled α → Session × Reply
  | .ready a c => (s.setCursor cursor (some c), ok a)
  | .pending c => (s.setCursor cursor (some c), .pending)
  | .closed c => (s.setCursor cursor (some c), .failed .frameSourceClosed)
  | .overflow c => (s.setCursor cursor (some c), .overflow)

def withCursor (s : Session) (cursor : Nat) (f : Cursor → Session × Reply) : Session × Reply :=
  match s.cursors.getD cursor none with
  | some c => f c
  | none => (s, .gone)

def apply (s : Session) : Step → Session × Reply
  | .tick times delta keys =>
    if s.isOpen then
      let feed := publish s.feed delta keys times
      ({ s with feed }, match feed.frames.back? with
        | some f => .frame f
        | none => .done)
    else (s, .gone)
  | .subscribe =>
    if s.isOpen then
      ({ s with cursors := s.cursors.push (some s.feed.subscribe) }, .number s.cursors.size)
    else (s, .gone)
  | .next cursor => s.withCursor cursor fun c => s.polled cursor .frame (s.feed.next c)
  | .waitFor cursor span =>
    s.withCursor cursor fun c => s.polled cursor .keys (s.feed.waitFor span c)
  | .waitConfirm cursor =>
    s.withCursor cursor fun c => s.polled cursor .frame (s.feed.waitUntil (·.keys.confirm) c)
  | .waitMultiple cursor divisor =>
    s.withCursor cursor fun c =>
      s.polled cursor .frame (s.feed.waitUntil (fun f => f.index % divisor == 0) c)
  | .resync cursor =>
    s.withCursor cursor fun _ => (s.setCursor cursor (some s.feed.subscribe), .done)
  | .dropCursor cursor => (s.setCursor cursor none, .done)
  | .cloneClock =>
    if s.isOpen then
      ({ s with
        feed := { s.feed with sources := s.feed.sources + 1 },
        clocks := s.clocks.push true }, .number s.clocks.size)
    else (s, .gone)
  | .dropClock clock =>
    if s.clocks.getD clock false then
      ({ s with
        feed := { s.feed with sources := s.feed.sources - 1 },
        clocks := s.clocks.setIfInBounds clock false }, .done)
    else (s, .gone)

end Session

end Feed

end SceneScript
