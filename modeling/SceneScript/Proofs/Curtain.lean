import Mathlib.Data.Multiset.Filter
import SceneScript.Proofs.Chores
import SceneScript.Proofs.Staged
/-!
What changes of scene live by: the flag of the load under way, the fibers that are past it, the
masks over the host's input, and the feed. Only the fiber of a load touches any of them in its turn
(`curtain_turn`).
-/

namespace SceneScript

/-- Who masked the host's input behind the board, or lifted the mask. -/
def Entry.mask? (e : Entry) : Option (Option Nat × Bool) :=
  match e.deed with
  | .scene (.blocked blocked) => some (e.author, blocked)
  | _ => none

structure Curtain where
  loading : Bool
  masks : List (Option Nat × Bool)
  /-- The fibers whose load is under way. -/
  holders : Multiset Fiber
  feed : Feed

namespace World

def masks (w : World) : List (Option Nat × Bool) := w.entries.filterMap Entry.mask?

def holders (w : World) : Multiset Fiber := (w.crew.filter Fiber.holdsScene : List Fiber)

def curtain (w : World) : Curtain := ⟨w.loading, w.masks, w.holders, w.feed⟩

end World

def Part.isCurtained : Part → Bool
  | .masks | .loading | .holders => true
  | _ => false

namespace World

variable {w : World} {f : Fiber}

theorem mem_holders : f ∈ w.holders ↔ f ∈ w.crew ∧ f.holdsScene = true := by
  simp [holders, List.mem_filter]

/-! ### The chronicle -/

theorem masks_record (w : World) (d : Deed) :
    (w.record d).masks = w.masks ++ (Entry.mask? ⟨w.actor, d⟩).toList := by
  rw [masks, entries, record, Array.toList_push, List.filterMap_append]
  cases h : Entry.mask? ⟨w.actor, d⟩ <;> simp [masks, entries, h]

theorem curtain_record (w : World) {d : Deed} (silent : Entry.mask? ⟨w.actor, d⟩ = none) :
    (w.record d).curtain = w.curtain := by
  have masks : (w.record d).masks = w.masks := by rw [masks_record, silent, Option.toList_none,
    List.append_nil]
  rw [curtain, masks]
  rfl

theorem curtain_remark (w : World) (r : Remark) : (w.remark r).curtain = w.curtain :=
  curtain_record w rfl

/-! ### Fibers -/

theorem holders_cons {w' : World} (crew : w'.crew.Perm (f.calm :: w.crew))
    (idle : f.holdsScene = false) : w'.holders = w.holders :=
  Multiset.coe_eq_coe.mpr (filter_holdsScene_cons crew idle)

theorem holders_cons_self {w' : World} (crew : w'.crew.Perm (f.calm :: w.crew))
    (holds : f.holdsScene = true) : w'.holders = f.calm ::ₘ w.holders := by
  have perm := crew.filter Fiber.holdsScene
  rw [List.filter_cons_of_pos (by simp [holds])] at perm
  exact Multiset.coe_eq_coe.mpr perm

theorem curtain_resume (w : World) (idle : f.holdsScene = false) :
    (w.resume f).curtain = w.curtain := by
  rw [curtain, holders_cons (f := f) (.refl _) idle]
  rfl

/-! ### Turns of other fibers -/

theorem mask?_eq_none {d : Deed} (other : d.part? ≠ some .masks) (author : Option Nat) :
    Entry.mask? ⟨author, d⟩ = none := by
  unfold Entry.mask?
  split
  · rename_i blocked masked
    rw [show d = .scene (.blocked blocked) from masked] at other
    exact absurd rfl other
  · rfl

theorem curtain_chores {w' : World} (chores : Chores (·.isCurtained = false) w w') :
    w'.curtain = w.curtain := by
  refine chores.view World.curtain fun {w w'} chore => ?_
  cases chore with
  | tells d aside => exact curtain_record w (mask?_eq_none (by simp [aside]) _)
  | @shows d p part other =>
    refine curtain_record w (mask?_eq_none (fun masks => ?_) _)
    obtain rfl := Option.some.inj (part.symm.trans masks)
    cases other
  | holds loading same =>
    obtain rfl := same.resolve_right nofun
    rfl
  | moves ready blocked nextFiber crew =>
    have holders : holders { w with ready, blocked, nextFiber } = w.holders :=
      Multiset.coe_eq_coe.mpr (crew.resolve_left nofun)
    rw [curtain, holders]
    rfl
  | _ => rfl

theorem curtain_conclude (w : World) (f : Fiber) (o : Outcome) :
    (w.conclude f o).curtain = (w.yieldScene f).curtain :=
  curtain_chores (chores_conclude_yielded w f o rfl fun _ _ => rfl)

/-- It is the turn of `f`, which comes to the act `a`. -/
structure Comes (w : World) (f : Fiber) (a : Act) : Prop where
  ready : w.ready.head? = some f
  spared : f.doomed = false
  todo : f.todo.head? = some a

/-- In its turn the fiber's load is let past the check. -/
structure Admits (w : World) (f : Fiber) (job : SceneJob) : Prop extends Comes w f (.load job) where
  fault : f.fault = none
  board : ∃ gated, w.rig.scenes = .board gated
  free : w.loading = false

theorem curtain_taken {rest : List Fiber} (ready : w.ready = f :: rest)
    (idle : f.holdsScene = false) :
    (w.taken f rest).curtain = w.curtain := by
  have crew : w.crew = f.calm :: (w.taken f rest).crew := by
    simp [World.crew, fibers, taken, ready]
  have holders : w.holders = (w.taken f rest).holders := holders_cons (.of_eq crew) idle
  rw [curtain, curtain, holders]
  rfl

theorem Needs.isCurtained {a : Act} {p : Part} (needs : w.Needs f a p) (idle : f.holdsScene = false)
    (plain : Fiber.isRelease a = false)
    (shut : ∀ job gated, a = .load job → w.rig.scenes = .board gated → w.loading = true) :
    p.isCurtained = false := by
  cases needs with
  | stays _ holds | yields _ holds => simp [idle] at holds
  | loads job rig free => simp [shut job _ rfl rig] at free
  | lifts | releases => cases plain
  | _ => rfl

theorem curtain_turn {rest : List Fiber} (ready : w.ready = f :: rest) (idle : f.holdsScene = false)
    (shut : ∀ job, ¬ w.Admits f job) : w.turn.curtain = w.curtain := by
  refine curtain_chores (chores_turn ready fun p engages => ?_)
  cases engages with
  | shows | fades | silences => rfl
  | stays holds | yields holds => simp [idle] at holds
  | lifts todo | releases todo => simp [Fiber.holdsScene, todo, Fiber.isRelease] at idle
  | @performs a after _ spared _ fault todo needs =>
    have both : Fiber.isRelease a = false ∧ after.any Fiber.isRelease = false := by
      simpa [Fiber.holdsScene, todo] using idle
    refine needs.isCurtained both.2 both.1 fun job gated load rig => ?_
    by_contra free
    refine shut job ⟨⟨?_, spared, ?_⟩, fault, ⟨gated, rig⟩, Bool.eq_false_iff.mpr free⟩
    · rw [ready]
      rfl
    · rw [todo, load]
      rfl

end World

end SceneScript
