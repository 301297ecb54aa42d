import Mathlib.Algebra.Order.Ring.Nat
import Mathlib.Data.List.Nodup
import Mathlib.Logic.Function.Basic
import Mathlib.Order.Bounds.Defs
import SceneScript.Feed.Session
/-!
The stream of frames, as readers tell of it. From the log of a session, which holds its steps and
what they came to, one reads off the frames that were published, the handles that can still publish,
and where every reader stands (`Stream.of`). What a reader gets next depends on these alone
(`readers_follow_stream`).
-/

namespace SceneScript

namespace Feed

/-- The depth of a feed is the least power of two that holds the backlog, and at least one. -/
theorem isLeast_roundDepth (backlog : Nat) :
    IsLeast {c | (∃ k, c = 2 ^ k) ∧ max backlog 1 ≤ c} (roundDepth backlog) := by
  unfold roundDepth
  split
  · rename_i small
    exact ⟨⟨⟨0, rfl⟩, by omega⟩, fun c holds => Nat.le_trans (Nat.le_max_right _ _) holds.2⟩
  · rename_i large
    have positive : backlog - 1 ≠ 0 := by omega
    refine ⟨⟨⟨_, rfl⟩, ?_⟩, ?_⟩
    · have fits : backlog - 1 < 2 ^ ((backlog - 1).log2 + 1) := Nat.lt_log2_self
      show max backlog 1 ≤ 2 ^ ((backlog - 1).log2 + 1)
      omega
    · rintro c ⟨⟨k, rfl⟩, holds⟩
      have below : backlog - 1 < 2 ^ k := by omega
      exact Nat.pow_le_pow_right Nat.two_pos ((Nat.log2_lt positive).mpr below)

/-- What a reader finds at its place. -/
theorem pull_cases (feed : Feed) (c : Cursor) (deep : 0 < feed.depth) :
    (c.taken < feed.count ∧ ∃ f, feed.frames[max c.taken (feed.count - feed.depth)]? = some f ∧
      feed.pull c = .frame f ⟨max c.taken (feed.count - feed.depth) + 1⟩
        (max c.taken (feed.count - feed.depth) - c.taken)) ∨
    (feed.count ≤ c.taken ∧ feed.pull c = if feed.sources = 0 then .closed else .waiting) := by
  unfold pull count
  dsimp only
  rcases Nat.lt_or_ge c.taken feed.frames.size with behind | here
  · have within : max c.taken (feed.frames.size - feed.depth) < feed.frames.size := by omega
    have found := Array.getElem?_eq_getElem within
    rw [found]
    exact .inl ⟨behind, _, rfl, rfl⟩
  · have past : feed.frames.size ≤ max c.taken (feed.frames.size - feed.depth) :=
      Nat.le_trans here (Nat.le_max_left _ _)
    rw [Array.getElem?_eq_none past]
    exact .inr ⟨here, rfl⟩

theorem next_eq (feed : Feed) (c : Cursor) : feed.next c = match feed.pull c with
    | .frame f c _ => .ready f c
    | .waiting => .pending c
    | .closed => .closed c := rfl

end Feed

/-! ### Logs -/

open Feed (Session)
open Feed.Session (Step Reply)

namespace Feed.Session

namespace Step

/-- Steps other than the waits that may take many frames. -/
def isPlain : Step → Bool
  | .waitFor .. | .waitConfirm _ | .waitMultiple .. => false
  | _ => true

/-- The reader that a step is about. -/
def reader? : Step → Option Nat
  | .next c | .waitFor c _ | .waitConfirm c | .waitMultiple c _ | .resync c | .dropCursor c => some c
  | _ => none

end Step

def after (s : Session) (steps : List Step) : Session := steps.foldl (fun s t => (s.apply t).1) s

/-- The steps, each with what it came to. -/
def log (s : Session) : List Step → List (Step × Reply)
  | [] => []
  | t :: steps => (t, (s.apply t).2) :: (s.apply t).1.log steps

end Feed.Session

/-! ### What a log tells -/

structure Stream where
  frames : List Frame
  /-- The handles that can still publish. -/
  clocks : List Nat
  /-- The number of the frame that a reader has come to. -/
  places : Nat → Option Nat

namespace Stream

def heed (s : Stream) : Step × Reply → Stream
  | (.tick _ _ _, .gone) => s
  | (.tick times delta keys, _) => { s with
      frames := s.frames ++ (List.range times).map fun k => ⟨s.frames.length + k + 1, delta, keys⟩ }
  | (.subscribe, .number c) => { s with places := Function.update s.places c s.frames.length }
  | (.next c, .frame f) => { s with places := Function.update s.places c f.index }
  | (.resync c, .done) => { s with places := Function.update s.places c s.frames.length }
  | (.dropCursor c, _) => { s with places := Function.update s.places c none }
  | (.cloneClock, .number n) => { s with clocks := s.clocks ++ [n] }
  | (.dropClock n, .done) => { s with clocks := s.clocks.erase n }
  | _ => s

def of (log : List (Step × Reply)) : Stream := log.foldl heed ⟨[], [0], fun _ => none⟩

/-- What a reader at place `i` gets that asks for the next of its frames, where a reader may be
`depth` frames behind. -/
structure Gives (s : Stream) (depth i : Nat) (r : Reply) : Prop where
  frame : i < s.frames.length → ∃ f, r = .frame f ∧ s.frames[f.index - 1]? = some f ∧
    f.index = max (i + 1) (s.frames.length - depth + 1)
  /-- Nothing is skipped unless the reader is too far behind. -/
  follows : i < s.frames.length → s.frames.length ≤ i + depth → ∃ f, r = .frame f ∧ f.index = i + 1
  waits : i = s.frames.length → s.clocks ≠ [] → r = .pending
  closed : i = s.frames.length → s.clocks = [] → r = .failed .frameSourceClosed

end Stream

/-- The numbers of the frames that a reader got. -/
def readBy (c : Nat) (log : List (Step × Reply)) : List Nat :=
  log.filterMap fun
    | (.next d, .frame f) => if d = c then some f.index else none
    | _ => none

theorem Stream.of_concat (log : List (Step × Reply)) (e : Step × Reply) :
    Stream.of (log ++ [e]) = (Stream.of log).heed e := List.foldl_concat ..

/-! ### A session keeps to its log -/

namespace Feed

theorem frames_publish (feed : Feed) (delta : Span) (keys : Keys) (times : Nat) :
    (Session.publish feed delta keys times).frames.toList = feed.frames.toList ++
      (List.range times).map fun k => ⟨feed.frames.size + k + 1, delta, keys⟩ := by
  induction times generalizing feed with
  | zero => simp [Session.publish]
  | succ n ih =>
    have grown : (feed.publish delta keys).frames = feed.frames.push ⟨feed.frames.size + 1, delta, keys⟩ :=
      rfl
    rw [Session.publish, ih, grown, Array.toList_push, Array.size_push, List.range_succ_eq_map,
      List.append_assoc, List.map_cons, List.map_map, List.singleton_append]
    congr 2
    refine List.map_congr_left fun k _ => ?_
    simp only [Function.comp, Nat.succ_eq_add_one]
    congr 1
    omega

theorem kept_publish (feed : Feed) (delta : Span) (keys : Keys) (times : Nat) :
    (Session.publish feed delta keys times).depth = feed.depth ∧
      (Session.publish feed delta keys times).sources = feed.sources := by
  induction times generalizing feed with
  | zero => exact ⟨rfl, rfl⟩
  | succ n ih => exact ih (feed.publish delta keys)

end Feed

/-- The session is where its log says. -/
structure Retold (depth : Nat) (s : Session) (log : List (Step × Reply)) : Prop where
  frames : s.feed.frames.toList = (Stream.of log).frames
  depth : s.feed.depth = depth
  numbered : ∀ (k : Nat) (f : Frame), (Stream.of log).frames[k]? = some f → f.index = k + 1
  sources : s.feed.sources = (Stream.of log).clocks.length
  clocks : (Stream.of log).clocks.Nodup ∧
    ∀ n, n ∈ (Stream.of log).clocks ↔ s.clocks.getD n false = true
  places : ∀ c, (Stream.of log).places c = (s.cursors.getD c none).map Cursor.taken
  within : ∀ c i, (Stream.of log).places c = some i → i ≤ (Stream.of log).frames.length
  told : ∀ t f, (t, Reply.frame f) ∈ log → (Stream.of log).frames[f.index - 1]? = some f
  rises : ∀ c, (readBy c log).Pairwise (· < ·)
  passed : ∀ c k, k ∈ readBy c log → c < s.cursors.size ∧
    ∀ i, (Stream.of log).places c = some i → k ≤ i

theorem readBy_concat (c : Nat) (log : List (Step × Reply)) (e : Step × Reply) :
    readBy c (log ++ [e]) = readBy c log ++ readBy c [e] := List.filterMap_append

namespace Retold

variable {depth c : Nat} {s s' : Session} {log : List (Step × Reply)} {t : Step} {r : Reply}

theorem count (h : Retold depth s log) : s.feed.count = (Stream.of log).frames.length := by
  rw [← h.frames, Array.length_toList]
  rfl

theorem isOpen_iff (h : Retold depth s log) : s.isOpen = true ↔ (Stream.of log).clocks ≠ [] := by
  rw [Session.isOpen, h.sources, decide_eq_true_iff, List.length_pos_iff]

theorem start (backlog : Nat) : Retold (Feed.roundDepth backlog) (.new backlog) [] where
  frames := rfl
  depth := rfl
  numbered _ _ found := nomatch found
  sources := rfl
  clocks := ⟨List.nodup_singleton 0, fun n => by cases n <;> simp [Session.new, Stream.of]⟩
  places _ := rfl
  within _ _ found := nomatch found
  told _ _ among := nomatch among
  rises _ := .nil
  passed _ _ among := nomatch among

/-- Nothing came of the step. -/
theorem same (h : Retold depth s log) (heed : (Stream.of log).heed (t, r) = Stream.of log)
    (silent : ∀ f, r ≠ .frame f) : Retold depth s (log ++ [(t, r)]) := by
  have unread (c : Nat) : readBy c (log ++ [(t, r)]) = readBy c log := by
    rw [readBy_concat]
    have none : readBy c [(t, r)] = [] := by
      cases t <;> cases r <;> first | rfl | exact absurd rfl (silent _)
    rw [none, List.append_nil]
  have stream : Stream.of (log ++ [(t, r)]) = Stream.of log := by rw [Stream.of_concat, heed]
  exact {
    frames := stream ▸ h.frames
    depth := h.depth
    numbered := stream ▸ h.numbered
    sources := stream ▸ h.sources
    clocks := stream ▸ h.clocks
    places := stream ▸ h.places
    within := stream ▸ h.within
    told := fun t' f among => by
      rw [stream]
      rcases List.mem_append.mp among with before | now
      · exact h.told t' f before
      · cases List.mem_singleton.mp now
        exact absurd rfl (silent f)
    rises := fun c => unread c ▸ h.rises c
    passed := fun c => by
      rw [unread, stream]
      exact h.passed c }

/-- One reader has another place, and it may have got the frame of that place. -/
theorem moves (h : Retold depth s log) {d : Nat} {v : Option Nat} {e : Step × Reply}
    (feed : s'.feed = s.feed) (clocks : s'.clocks = s.clocks)
    (stream : (Stream.of log).heed e =
      { Stream.of log with places := Function.update (Stream.of log).places d v })
    (places : ∀ c, Function.update (Stream.of log).places d v c =
      (s'.cursors.getD c none).map Cursor.taken)
    (size : s.cursors.size ≤ s'.cursors.size)
    (within : ∀ i, v = some i → i ≤ (Stream.of log).frames.length)
    (told : ∀ f, e.2 = .frame f → (Stream.of log).frames[f.index - 1]? = some f)
    (ahead : ∀ k ∈ readBy d log, ∀ i, v = some i → k ≤ i)
    (reads : ∀ c, readBy c [e] = [] ∨ c = d ∧ d < s.cursors.size ∧ ∃ k, readBy c [e] = [k] ∧
      v = some k ∧ ∀ k' ∈ readBy d log, k' < k) :
    Retold depth s' (log ++ [e]) := by
  have stream : Stream.of (log ++ [e]) =
      { Stream.of log with places := Function.update (Stream.of log).places d v } := by
    rw [Stream.of_concat, stream]
  have place (c i : Nat) (there : Function.update (Stream.of log).places d v c = some i) :
      c = d ∧ v = some i ∨ c ≠ d ∧ (Stream.of log).places c = some i := by
    by_cases own : c = d
    · rw [own, Function.update_self] at there
      exact .inl ⟨own, there⟩
    · rw [Function.update_of_ne own] at there
      exact .inr ⟨own, there⟩
  refine ⟨?_, ?_, ?_, ?_, ?_, ?_, ?_, ?_, fun c => ?_, fun c k among => ?_⟩
  · rw [stream, feed]
    exact h.frames
  · rw [feed]
    exact h.depth
  · rw [stream]
    exact h.numbered
  · rw [stream, feed]
    exact h.sources
  · rw [stream, clocks]
    exact h.clocks
  · rw [stream]
    exact places
  · rw [stream]
    intro c i there
    rcases place c i there with ⟨-, same⟩ | ⟨-, old⟩
    · exact within i same
    · exact h.within c i old
  · rw [stream]
    intro t f among
    rcases List.mem_append.mp among with before | now
    · exact h.told t f before
    · obtain rfl := List.mem_singleton.mp now
      exact told f rfl
  · rw [readBy_concat]
    rcases reads c with none | ⟨rfl, -, k, got, -, above⟩
    · rw [none, List.append_nil]
      exact h.rises c
    · rw [got]
      exact List.pairwise_append.mpr ⟨h.rises c, List.pairwise_singleton _ _, fun k' before k'' now =>
        List.mem_singleton.mp now ▸ above k' before⟩
  · rw [readBy_concat, List.mem_append] at among
    rw [stream]
    rcases among with before | now
    · obtain ⟨there, passed⟩ := h.passed c k before
      refine ⟨Nat.lt_of_lt_of_le there size, fun i at_i => ?_⟩
      rcases place c i at_i with ⟨rfl, same⟩ | ⟨-, old⟩
      · exact ahead k before i same
      · exact passed i old
    · rcases reads c with none | ⟨rfl, there, k', got, came, -⟩
      · rw [none] at now
        cases now
      · rw [got, List.mem_singleton] at now
        subst now
        refine ⟨Nat.lt_of_lt_of_le there size, fun i at_i => ?_⟩
        rcases place c i at_i with ⟨-, same⟩ | ⟨other, -⟩
        · exact Nat.le_of_eq (Option.some.inj (came.symm.trans same))
        · exact absurd rfl other

/-! #### Steps -/

theorem lt_of_getD {cur : Cursor} (found : s.cursors.getD c none = some cur) :
    c < s.cursors.size := by
  by_contra past
  rw [Array.getD_eq_getD_getElem?, Array.getElem?_eq_none (Nat.not_lt.mp past)] at found
  cases found

theorem places_setCursor (h : Retold depth s log) {d : Nat} {v : Option Cursor}
    (there : d < s.cursors.size ∨ v = none) (c : Nat) :
    Function.update (Stream.of log).places d (v.map Cursor.taken) c =
      ((s.setCursor d v).cursors.getD c none).map Cursor.taken := by
  have set : (s.setCursor d v).cursors.getD c none =
      if c = d then v else s.cursors.getD c none := by
    simp only [Session.setCursor, Array.getD_eq_getD_getElem?, Array.getElem?_setIfInBounds]
    rcases eq_or_ne c d with rfl | other
    · rcases there with there | rfl
      · simp [there]
      · by_cases there : c < s.cursors.size <;> simp [there]
    · simp [other, other.symm]
  rw [set]
  rcases eq_or_ne c d with rfl | other
  · rw [Function.update_self, if_pos rfl]
  · rw [Function.update_of_ne other, if_neg other]
    exact h.places c

theorem places_push (h : Retold depth s log) (cur : Cursor) (c : Nat) :
    Function.update (Stream.of log).places s.cursors.size (some cur.taken) c =
      ((s.cursors.push (some cur)).getD c none).map Cursor.taken := by
  rcases eq_or_ne c s.cursors.size with rfl | other
  · rw [Function.update_self]
    simp
  · rw [Function.update_of_ne other, h.places c]
    simp [Array.getD_eq_getD_getElem?, Array.getElem?_push, other]

/-- The stream grows. -/
theorem grows (h : Retold depth s log) {times : Nat} {delta : Span} {keys : Keys} {feed : Feed}
    (grown : feed.frames.toList = (Stream.of log).frames ++
      (List.range times).map fun k => ⟨(Stream.of log).frames.length + k + 1, delta, keys⟩)
    (depth' : feed.depth = depth) (sources : feed.sources = s.feed.sources) (spoken : r ≠ .gone)
    (last : ∀ f, r = .frame f → feed.frames.back? = some f) :
    Retold depth { s with feed } (log ++ [(.tick times delta keys, r)]) := by
  have stream : Stream.of (log ++ [(.tick times delta keys, r)]) =
      { Stream.of log with frames := feed.frames.toList } := by
    rw [Stream.of_concat, grown]
    cases r <;> first | rfl | exact absurd rfl spoken
  have older {k : Nat} {f : Frame} (found : (Stream.of log).frames[k]? = some f) :
      feed.frames.toList[k]? = some f := by
    obtain ⟨within, -⟩ := List.getElem?_eq_some_iff.mp found
    rw [grown, List.getElem?_append_left within, found]
  have numbered (k : Nat) (f : Frame) (found : feed.frames.toList[k]? = some f) :
      f.index = k + 1 := by
    rw [grown] at found
    rcases Nat.lt_or_ge k (Stream.of log).frames.length with old | young
    · rw [List.getElem?_append_left old] at found
      exact h.numbered k f found
    · rw [List.getElem?_append_right young, List.getElem?_map, Option.map_eq_some_iff] at found
      obtain ⟨i, place, rfl⟩ := found
      have same : k - (Stream.of log).frames.length = i := by
        obtain ⟨within, at_i⟩ := List.getElem?_eq_some_iff.mp place
        rwa [List.getElem_range] at at_i
      show (Stream.of log).frames.length + i + 1 = k + 1
      omega
  have unread (c : Nat) : readBy c (log ++ [(.tick times delta keys, r)]) = readBy c log := by
    rw [readBy_concat]
    exact List.append_nil _
  exact {
    frames := by rw [stream]
    depth := depth'
    numbered := by rw [stream]; exact numbered
    sources := by rw [stream]; exact sources.trans h.sources
    clocks := by rw [stream]; exact h.clocks
    places := by rw [stream]; exact h.places
    within := fun c i there => by
      rw [stream] at there ⊢
      rw [grown, List.length_append]
      exact Nat.le_add_right_of_le (h.within c i there)
    told := fun t f among => by
      rw [stream]
      rcases List.mem_append.mp among with before | now
      · exact older (h.told t f before)
      · have back := last f (Prod.mk.inj (List.mem_singleton.mp now)).2.symm
        rw [Array.back?_eq_getElem?, ← Array.getElem?_toList] at back
        rw [numbered _ _ back]
        exact back
    rises := fun c => unread c ▸ h.rises c
    passed := fun c => by
      rw [unread, stream]
      exact h.passed c }

theorem tick (h : Retold depth s log) (times : Nat) (delta : Span) (keys : Keys) :
    Retold depth (s.apply (.tick times delta keys)).1
      (log ++ [(.tick times delta keys, (s.apply (.tick times delta keys)).2)]) := by
  rw [Session.apply]
  split
  · obtain ⟨depth', sources⟩ := Feed.kept_publish s.feed delta keys times
    have grown := Feed.frames_publish s.feed delta keys times
    rw [show s.feed.frames.size = (Stream.of log).frames.length from h.count, h.frames] at grown
    refine h.grows grown (depth'.trans h.depth) sources ?_ fun f came => ?_
    · dsimp only
      split <;> nofun
    · dsimp only at came
      split at came
      · rename_i back
        cases came
        exact back
      · cases came
  · exact h.same rfl nofun

theorem subscribe (h : Retold depth s log) :
    Retold depth (s.apply .subscribe).1 (log ++ [(.subscribe, (s.apply .subscribe).2)]) := by
  rw [Session.apply]
  split
  · have fresh (c : Nat) (got : c ≥ s.cursors.size) : readBy c log = [] := by
      refine List.eq_nil_iff_forall_not_mem.mpr fun k among => ?_
      exact absurd (h.passed c k among).1 (Nat.not_lt.mpr got)
    refine h.moves (d := s.cursors.size) (v := some (Stream.of log).frames.length) rfl rfl rfl
      (fun c => ?_) ?_ ?_ nofun (fun k among => ?_) fun c => .inl rfl
    · rw [← h.count]
      exact h.places_push s.feed.subscribe c
    · exact Nat.le_of_lt (by simp)
    · rintro i ⟨⟩
      exact Nat.le_refl _
    · rw [fresh _ (Nat.le_refl _)] at among
      cases among
  · exact h.same rfl nofun

/-- A reader that is gone gets nothing, and nothing becomes of the others. -/
theorem withCursor (h : Retold depth s log) (c : Nat) {f : Cursor → Session × Reply}
    (gone : (Stream.of log).heed (t, .gone) = Stream.of log)
    (there : ∀ cur, s.cursors.getD c none = some cur →
      Retold depth (f cur).1 (log ++ [(t, (f cur).2)])) :
    Retold depth (s.withCursor c f).1 (log ++ [(t, (s.withCursor c f).2)]) := by
  unfold Session.withCursor
  split
  · rename_i cur found
    exact there cur found
  · exact h.same gone nofun

theorem resync (h : Retold depth s log) (d : Nat) :
    Retold depth (s.apply (.resync d)).1 (log ++ [(.resync d, (s.apply (.resync d)).2)]) := by
  rw [Session.apply]
  refine h.withCursor d rfl fun cur found => ?_
  refine h.moves (d := d) (v := some (Stream.of log).frames.length) rfl rfl rfl (fun c => ?_) ?_ ?_
    nofun ?_ fun c => .inl rfl
  · rw [← h.count]
    exact h.places_setCursor (v := some s.feed.subscribe) (.inl (lt_of_getD found)) c
  · exact Nat.le_of_eq (Array.size_setIfInBounds ..).symm
  · rintro i ⟨⟩
    exact Nat.le_refl _
  · rintro k among i ⟨⟩
    have at_c := h.places d
    rw [found] at at_c
    exact Nat.le_trans ((h.passed d k among).2 _ at_c) (h.within d _ at_c)

theorem dropCursor (h : Retold depth s log) (d : Nat) :
    Retold depth (s.apply (.dropCursor d)).1
      (log ++ [(.dropCursor d, (s.apply (.dropCursor d)).2)]) := by
  rw [Session.apply]
  refine h.moves (d := d) (v := none) rfl rfl rfl (fun c => ?_) ?_ nofun nofun nofun fun c => .inl rfl
  · exact h.places_setCursor (v := none) (.inr rfl) c
  · exact Nat.le_of_eq (Array.size_setIfInBounds ..).symm

/-- Handles come and go. -/
theorem clocking (h : Retold depth s log) {clocks : List Nat}
    (stream : (Stream.of log).heed (t, r) = { Stream.of log with clocks })
    (unread : ∀ c, readBy c [(t, r)] = []) (silent : ∀ f, r ≠ .frame f)
    (cursors : s'.cursors = s.cursors) (frames : s'.feed.frames = s.feed.frames)
    (depth' : s'.feed.depth = s.feed.depth) (sources : s'.feed.sources = clocks.length)
    (here : clocks.Nodup ∧ ∀ n, n ∈ clocks ↔ s'.clocks.getD n false = true) :
    Retold depth s' (log ++ [(t, r)]) := by
  have stream : Stream.of (log ++ [(t, r)]) = { Stream.of log with clocks } := by
    rw [Stream.of_concat, stream]
  have unread (c : Nat) : readBy c (log ++ [(t, r)]) = readBy c log := by
    rw [readBy_concat, unread, List.append_nil]
  exact {
    frames := by rw [stream, frames]; exact h.frames
    depth := depth'.trans h.depth
    numbered := by rw [stream]; exact h.numbered
    sources := by rw [stream]; exact sources
    clocks := by rw [stream]; exact here
    places := by rw [stream, cursors]; exact h.places
    within := by rw [stream]; exact h.within
    told := fun t' f among => by
      rw [stream]
      rcases List.mem_append.mp among with before | now
      · exact h.told t' f before
      · cases List.mem_singleton.mp now
        exact absurd rfl (silent f)
    rises := fun c => unread c ▸ h.rises c
    passed := fun c => by
      rw [unread, stream, cursors]
      exact h.passed c }

theorem cloneClock (h : Retold depth s log) :
    Retold depth (s.apply .cloneClock).1 (log ++ [(.cloneClock, (s.apply .cloneClock).2)]) := by
  rw [Session.apply]
  split
  · obtain ⟨nodup, mem⟩ := h.clocks
    have young : s.clocks.size ∉ (Stream.of log).clocks := by
      rw [mem]
      simp [Array.getD_eq_getD_getElem?]
    refine h.clocking rfl (fun _ => rfl) nofun rfl rfl rfl ?_ ⟨?_, fun n => ?_⟩
    · rw [List.length_append, ← h.sources]
      rfl
    · exact List.nodup_append.mpr ⟨nodup, List.nodup_singleton _, fun n among n' now =>
        List.mem_singleton.mp now ▸ fun same => young (same ▸ among)⟩
    · rw [List.mem_append, List.mem_singleton, mem]
      rcases eq_or_ne n s.clocks.size with rfl | other
      · simp
      · simp [Array.getD_eq_getD_getElem?, Array.getElem?_push, other]
  · exact h.same rfl nofun

theorem dropClock (h : Retold depth s log) (n : Nat) :
    Retold depth (s.apply (.dropClock n)).1
      (log ++ [(.dropClock n, (s.apply (.dropClock n)).2)]) := by
  rw [Session.apply]
  split
  · rename_i live
    obtain ⟨nodup, mem⟩ := h.clocks
    refine h.clocking rfl (fun _ => rfl) nofun rfl rfl rfl ?_ ⟨nodup.erase n, fun m => ?_⟩
    · rw [List.length_erase_of_mem ((mem n).mpr live), ← h.sources]
    · rw [nodup.mem_erase_iff, mem]
      simp only [Array.getD_eq_getD_getElem?, Array.getElem?_setIfInBounds]
      rcases eq_or_ne m n with rfl | other
      · by_cases there : m < s.clocks.size <;> simp [there]
      · simp [other, other.symm]
  · exact h.same rfl nofun

theorem next (h : Retold depth s log) (deep : 0 < depth) (d : Nat) :
    Retold depth (s.apply (.next d)).1 (log ++ [(.next d, (s.apply (.next d)).2)]) := by
  rw [Session.apply]
  refine h.withCursor d rfl fun cur found => ?_
  have there := lt_of_getD found
  have stays : s.setCursor d (some cur) = s := by
    have same : s.cursors.setIfInBounds d (some cur) = s.cursors := by
      refine Array.ext_getElem? fun c => ?_
      rw [Array.getElem?_setIfInBounds]
      split
      · rename_i own
        subst own
        rw [Array.getD_eq_getD_getElem?, Array.getElem?_eq_getElem there, Option.getD_some] at found
        rw [Array.getElem?_eq_getElem there, found]
      · rfl
    rw [Session.setCursor, same]
  rw [Feed.next_eq]
  rcases Feed.pull_cases s.feed cur (h.depth ▸ deep) with ⟨behind, f, at_f, pulled⟩ | ⟨here, pulled⟩
  · rw [pulled]
    dsimp only [Session.polled]
    have at_d : (Stream.of log).places d = some cur.taken := by rw [h.places, found]; rfl
    have listed : (Stream.of log).frames[max cur.taken (s.feed.count - s.feed.depth)]? = some f := by
      rw [← h.frames, Array.getElem?_toList]
      exact at_f
    have index := h.numbered _ _ listed
    have read : readBy d [(.next d, .frame f)] = [f.index] := by simp [readBy]
    refine h.moves (d := d) (v := some f.index) rfl rfl rfl (fun c => ?_) ?_ ?_ ?_ ?_ fun c => ?_
    · rw [index]
      exact h.places_setCursor (v := some ⟨_⟩) (.inl there) c
    · exact Nat.le_of_eq (Array.size_setIfInBounds ..).symm
    · rintro i ⟨⟩
      obtain ⟨within, -⟩ := List.getElem?_eq_some_iff.mp listed
      omega
    · rintro g ⟨⟩
      rw [index]
      exact listed
    · rintro k among i ⟨⟩
      have passed := (h.passed d k among).2 _ at_d
      omega
    · rcases eq_or_ne d c with rfl | other
      · refine .inr ⟨rfl, there, _, read, rfl, fun k among => ?_⟩
        have passed := (h.passed d k among).2 _ at_d
        omega
      · exact .inl (by simp [readBy, other])
  · rw [pulled]
    by_cases closed : s.feed.sources = 0
    · rw [if_pos closed]
      dsimp only [Session.polled]
      rw [stays]
      exact h.same rfl nofun
    · rw [if_neg closed]
      dsimp only [Session.polled]
      rw [stays]
      exact h.same rfl nofun

/-- What every step keeps. -/
theorem apply (h : Retold depth s log) (deep : 0 < depth) (plain : t.isPlain = true) :
    Retold depth (s.apply t).1 (log ++ [(t, (s.apply t).2)]) := by
  cases t with
  | tick times delta keys => exact h.tick times delta keys
  | subscribe => exact h.subscribe
  | next c => exact h.next deep c
  | resync c => exact h.resync c
  | dropCursor c => exact h.dropCursor c
  | cloneClock => exact h.cloneClock
  | dropClock n => exact h.dropClock n
  | _ => cases plain

theorem after (h : Retold depth s log) (deep : 0 < depth) {steps : List Step}
    (plain : steps.all Step.isPlain = true) :
    Retold depth (s.after steps) (log ++ s.log steps) := by
  induction steps generalizing s log with
  | nil => exact (List.append_nil log).symm ▸ h
  | cons t steps ih =>
    rw [List.all_cons, Bool.and_eq_true] at plain
    have further := ih (h.apply deep plain.1) plain.2
    rw [List.append_assoc] at further
    exact further

/-! #### What follows from the log -/

theorem gives (h : Retold depth s log) (deep : 0 < depth) {i : Nat}
    (stands : (Stream.of log).places c = some i) :
    (Stream.of log).Gives depth i (s.apply (.next c)).2 := by
  rw [h.places c, Option.map_eq_some_iff] at stands
  obtain ⟨cur, found, rfl⟩ := stands
  have asked : (s.apply (.next c)).2 = (s.polled c .frame (s.feed.next cur)).2 := by
    rw [Session.apply, Session.withCursor, found]
  rw [asked, Feed.next_eq]
  have count := h.count
  rcases Feed.pull_cases s.feed cur (h.depth ▸ deep) with ⟨behind, f, at_f, pulled⟩ | ⟨here, pulled⟩
  · rw [count, h.depth, ← Array.getElem?_toList, h.frames] at at_f
    rw [count] at behind
    have index := h.numbered _ _ at_f
    rw [pulled]
    refine ⟨fun _ => ⟨f, rfl, ?_, ?_⟩, fun _ near => ⟨f, rfl, ?_⟩, fun here => ?_, fun here => ?_⟩
    · rw [index]
      exact at_f
    all_goals omega
  · rw [count] at here
    rw [pulled, h.sources]
    refine ⟨fun behind => ?_, fun behind => ?_, fun _ alive => ?_, fun _ gone => ?_⟩
    · omega
    · omega
    · rw [if_neg (Nat.ne_of_gt (List.length_pos_iff.mpr alive))]
      rfl
    · rw [gone]
      rfl

theorem gone (h : Retold depth s log) (stands : (Stream.of log).places c = none) :
    (s.apply (.next c)).2 = .gone := by
  rw [h.places c, Option.map_eq_none_iff] at stands
  rw [Session.apply, Session.withCursor, stands]

theorem ticks (h : Retold depth s log) (alive : (Stream.of log).clocks ≠ []) (delta : Span)
    (keys : Keys) : (s.apply (.tick 1 delta keys)).2 =
      .frame ⟨(Stream.of log).frames.length + 1, delta, keys⟩ := by
  have last : (Session.publish s.feed delta keys 1).frames.back? =
      some ⟨s.feed.count + 1, delta, keys⟩ := Array.back?_push
  rw [Session.apply, if_pos (h.isOpen_iff.mpr alive)]
  dsimp only
  rw [last, h.count]

theorem closed_apply (h : Retold depth s log) (plain : t.isPlain = true)
    (closed : (Stream.of log).clocks = []) :
    (Stream.of (log ++ [(t, (s.apply t).2)])).frames = (Stream.of log).frames ∧
      (Stream.of (log ++ [(t, (s.apply t).2)])).clocks = [] := by
  have shut : ¬ s.isOpen = true := fun opened => h.isOpen_iff.mp opened closed
  rw [Stream.of_concat]
  cases t with
  | tick => rw [Session.apply, if_neg shut]; exact ⟨rfl, closed⟩
  | subscribe => rw [Session.apply, if_neg shut]; exact ⟨rfl, closed⟩
  | cloneClock => rw [Session.apply, if_neg shut]; exact ⟨rfl, closed⟩
  | dropClock n =>
    generalize (s.apply (.dropClock n)).2 = r
    cases r <;> exact ⟨rfl, by simp [Stream.heed, closed]⟩
  | next c | resync c =>
    generalize (s.apply _).2 = r
    cases r <;> exact ⟨rfl, closed⟩
  | dropCursor => exact ⟨rfl, closed⟩
  | _ => cases plain

theorem closed_after (h : Retold depth s log) (deep : 0 < depth) {more : List Step}
    (plain : more.all Step.isPlain = true) (closed : (Stream.of log).clocks = []) :
    (Stream.of (log ++ s.log more)).frames = (Stream.of log).frames ∧
      (Stream.of (log ++ s.log more)).clocks = [] := by
  induction more generalizing s log with
  | nil => exact (List.append_nil log).symm ▸ ⟨rfl, closed⟩
  | cons t more ih =>
    rw [List.all_cons, Bool.and_eq_true] at plain
    obtain ⟨frames, shut⟩ := h.closed_apply plain.1 closed
    obtain ⟨frames', shut'⟩ := ih (h.apply deep plain.1) plain.2 shut
    rw [List.append_assoc] at frames' shut'
    exact ⟨frames'.trans frames, shut'⟩

end Retold

/-! ### Readers keep out of each other's way -/

namespace Feed.Session

variable {s x : Session} {c d : Nat}

/-- The reader `c` finds in `x` what it finds in `s`. -/
def SameFor (c : Nat) (s x : Session) : Prop :=
  x.feed = s.feed ∧ x.cursors.getD c none = s.cursors.getD c none

theorem sameFor_setCursor (s : Session) (other : d ≠ c) (v : Option Cursor) :
    SameFor c s (s.setCursor d v) := by
  refine ⟨rfl, ?_⟩
  simp [setCursor, Array.getD_eq_getD_getElem?, other]

theorem sameFor_polled {α : Type} (s : Session) (other : d ≠ c) (ok : α → Reply) (p : Polled α) :
    SameFor c s (s.polled d ok p).1 := by
  cases p <;> exact sameFor_setCursor s other _

theorem sameFor_withCursor (s : Session) {f : Cursor → Session × Reply}
    (same : ∀ cur, SameFor c s (f cur).1) : SameFor c s (s.withCursor d f).1 := by
  unfold withCursor
  split
  · exact same _
  · exact ⟨rfl, rfl⟩

theorem sameFor_apply (s : Session) {t : Step} (about : t.reader? = some d) (other : d ≠ c) :
    SameFor c s (s.apply t).1 := by
  cases t with
  | next | waitFor | waitConfirm | waitMultiple =>
    cases about
    exact sameFor_withCursor s fun cur => sameFor_polled s other _ _
  | resync =>
    cases about
    exact sameFor_withCursor s fun cur => sameFor_setCursor s other _
  | dropCursor =>
    cases about
    exact sameFor_setCursor s other none
  | _ => cases about

theorem SameFor.next (same : SameFor c s x) : (x.apply (.next c)).2 = (s.apply (.next c)).2 := by
  obtain ⟨feed, cursor⟩ := same
  simp only [apply, withCursor, cursor, feed]
  split
  · cases s.feed.next _ <;> rfl
  · rfl

end Feed.Session

/-! ### The stream -/

/-- What a session and its log have to do with each other. -/
structure InStream (depth : Nat) (s : Session) (log : List (Step × Reply)) : Prop where
  gives : ∀ c i, (Stream.of log).places c = some i → i ≤ (Stream.of log).frames.length ∧
    (Stream.of log).Gives depth i (s.apply (.next c)).2
  gone : ∀ c, (Stream.of log).places c = none → (s.apply (.next c)).2 = .gone
  ticks : (Stream.of log).clocks ≠ [] → ∀ delta keys, (s.apply (.tick 1 delta keys)).2 =
    .frame ⟨(Stream.of log).frames.length + 1, delta, keys⟩
  /-- Whoever is told of a frame, by publishing or by reading it, is told of the same one. -/
  told : ∀ t f, (t, .frame f) ∈ log → (Stream.of log).frames[f.index - 1]? = some f
  rises : ∀ c, (readBy c log).Pairwise (· < ·)
  apart : ∀ (c d : Nat) (t : Step), t.reader? = some d → d ≠ c →
    ((s.apply t).1.apply (.next c)).2 = (s.apply (.next c)).2
  closed : (Stream.of log).clocks = [] → ∀ more : List Step, more.all Step.isPlain = true →
    (Stream.of (log ++ s.log more)).frames = (Stream.of log).frames ∧
      (Stream.of (log ++ s.log more)).clocks = []

/-- Every reader gets the frames of the stream in order from its place on, and loses only those that
are more than the depth of the feed behind. -/
theorem readers_follow_stream (backlog : Nat) (steps : List Step)
    (plain : steps.all Step.isPlain = true) :
    IsLeast {c | (∃ k, c = 2 ^ k) ∧ max backlog 1 ≤ c} (Feed.roundDepth backlog) ∧
      InStream (Feed.roundDepth backlog) ((Session.new backlog).after steps)
        ((Session.new backlog).log steps) := by
  have deep := Feed.roundDepth_pos backlog
  have follows := (Retold.start backlog).after deep plain
  rw [List.nil_append] at follows
  exact ⟨Feed.isLeast_roundDepth backlog, {
    gives := fun c i stands => ⟨follows.within c i stands, follows.gives deep stands⟩
    gone := fun c stands => follows.gone stands
    ticks := follows.ticks
    told := follows.told
    rises := follows.rises
    apart := fun c d t about other => (Session.sameFor_apply _ about other).next
    closed := fun shut more plain => follows.closed_after deep plain shut }⟩

/-- A reader that is three frames behind where two are kept, and then has nobody to wait for. -/
theorem readers_follow_stream_behind :
    let steps : List Step := [.subscribe, .tick 3 ⟨1⟩ .nothing, .next 0, .dropClock 0]
    steps.all Step.isPlain = true ∧ InStream (Feed.roundDepth 2) ((Session.new 2).after steps)
      ((Session.new 2).log steps) ∧
      ((Session.new 2).log steps).getLast? = some (.dropClock 0, .done) ∧
      (.next 0, .frame ⟨2, ⟨1⟩, .nothing⟩) ∈ (Session.new 2).log steps := by
  intro steps
  exact ⟨rfl, (readers_follow_stream 2 steps rfl).2, by decide, by decide⟩

end SceneScript
