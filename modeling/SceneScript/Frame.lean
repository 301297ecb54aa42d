import SceneScript.Span
/-!
Host frames and the feed that carries them. Every reader of the feed has a cursor of its own; a
cursor that falls more than `depth` frames behind goes on at the oldest of the last `depth` frames.
-/

namespace SceneScript

structure Keys where
  confirm : Bool
  skip : Bool
deriving DecidableEq, Inhabited, Repr

namespace Keys

def nothing : Keys := ⟨false, false⟩

def merge (a b : Keys) : Keys := ⟨a.confirm || b.confirm, a.skip || b.skip⟩

end Keys

structure Frame where
  index : Nat
  delta : Span
  keys : Keys
deriving DecidableEq, Inhabited, Repr

/-- A place in the feed: how many of its frames lie behind. -/
structure Cursor where
  taken : Nat
deriving DecidableEq, Inhabited, Repr

/-- Every frame published so far, and who can still publish. -/
structure Feed where
  frames : Array Frame
  depth : Nat
  sources : Nat
deriving Inhabited

inductive Pull where
  /-- The frame, the cursor after it, and how many frames were lost before it. -/
  | frame (f : Frame) (cursor : Cursor) (missed : Nat)
  | waiting
  | closed
deriving DecidableEq, Inhabited, Repr

namespace Feed

/-- The number of frames kept for a requested backlog: the least power of two that holds it. -/
def roundDepth (backlog : Nat) : Nat :=
  if backlog ≤ 1 then 1 else Nat.pow 2 ((backlog - 1).log2 + 1)

def defaultBacklog : Nat := 256

def new (backlog : Nat) : Feed := ⟨#[], roundDepth backlog, 1⟩

def count (feed : Feed) : Nat := feed.frames.size

def publish (feed : Feed) (delta : Span) (keys : Keys) : Feed :=
  { feed with frames := feed.frames.push ⟨feed.frames.size + 1, delta, keys⟩ }

def subscribe (feed : Feed) : Cursor := ⟨feed.frames.size⟩

def pull (feed : Feed) (c : Cursor) : Pull :=
  let place := max c.taken (feed.frames.size - feed.depth)
  match feed.frames[place]? with
  | some f => .frame f ⟨place + 1⟩ (place - c.taken)
  | none => if feed.sources = 0 then .closed else .waiting

theorem roundDepth_pos (backlog : Nat) : 0 < roundDepth backlog := by
  unfold roundDepth
  split
  · exact Nat.one_pos
  · exact Nat.two_pow_pos _

@[simp] theorem count_publish (feed : Feed) (delta : Span) (keys : Keys) :
    (feed.publish delta keys).count = feed.count + 1 := by
  simp [publish, count]

end Feed

end SceneScript
