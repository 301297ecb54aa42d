import SceneScript.Proofs.Mishaps
/-!
What callbacks are made of, and what they share: their bodies and the variables. Only an action
changes any of it (`stock_turn`), and a callback panics only if its body says so
(`turnPanics_of_calm`).
-/

namespace SceneScript

structure Stock where
  predicates : Array Predicate
  selectors : Array Selector
  actions : Array (List Effect)
  vars : Vars

def World.stock (w : World) : Stock where
  predicates := w.registry.predicates.map (·.body)
  selectors := w.registry.selectors.map (·.body)
  actions := w.registry.actions
  vars := w.vars

namespace World

variable {w w' : World}

theorem stock_chores (chores : Chores (· ≠ .stock) w w') : w'.stock = w.stock := by
  refine chores.view World.stock fun {w w'} chore => ?_
  cases chore with
  | counts registry predicates selectors actions =>
    rw [stock, predicates, selectors, actions]
    rfl
  | stocks _ _ same => exact absurd rfl same
  | _ => rfl

/-- Only an action changes a variable or registers a callback. -/
theorem stock_turn (other : ∀ i, w.act? ≠ some (.action i)) : w.turn.stock = w.stock := by
  cases ready : w.ready with
  | nil => rw [turn, ready]
  | cons f rest =>
    rw [act?_cons ready, actOf?] at other
    refine stock_chores (chores_turn ready ?_)
    rintro p engages rfl
    cases engages with
    | performs spared going fault todo needs =>
      have going : w.isCancelled f = false := going
      cases needs with
      | acts i => exact other i (by simp [spared, going, fault, todo])
      | loads _ _ _ among => simp at among

theorem stock_turn_action {i : Nat} (act : w.act? = some (.action i)) : ∃ f rest,
    w.ready = f :: rest ∧ w.turn.stock = ((w.taken f rest).callAction i).1.stock := by
  obtain ⟨f, rest, after, ready, -, -, -, turn⟩ := turn_doing act
  refine ⟨f, rest, ready, ?_⟩
  rw [turn]
  have answered (v : World) (f : Fiber) (a : Answer Unit) :
      Chores (· ≠ .stock) v (v.afterCall f .action i a fun _ => f) :=
    chores_afterCall (fun _ => nofun) v _ i a (fun _ _ => nofun) fun o =>
      chores_conclude v f o nofun (fun _ _ => nofun) fun _ _ => nofun
  show (((w.taken f rest).callAction i).1.noteReply _ |>.afterCall ..).stock = _
  exact stock_chores ((chores_noteReply _ _).trans (answered _ _ _))

end World

/-! ### Callbacks that panic -/

/-- No body of a callback panics. -/
structure Stock.Calm (s : Stock) : Prop where
  predicates : ∀ p ∈ s.predicates, ∀ text, p ≠ .panic text
  selectors : ∀ c ∈ s.selectors, ∀ text, c ≠ .panic text
  actions : ∀ es ∈ s.actions, ∀ e ∈ es, ∀ text, e ≠ .panic text

namespace World

variable {w : World}

theorem isPanic_answer {α : Type} {a : Except String α} (fine : ∀ text, a ≠ .error text) :
    (answer a).isPanic = false := by
  cases a with
  | ok => rfl
  | error text => exact absurd rfl (fine text)

theorem isPanic_runEffects (w : World) {es : List Effect} (fine : ∀ e ∈ es, ∀ text, e ≠ .panic text) :
    (w.runEffects es).2.isPanic = false := by
  fun_induction runEffects w es with
  | case1 => rfl
  | case2 w text rest => exact absurd rfl (fine _ List.mem_cons_self text)
  | case3 w e rest _ ih => exact ih fun e among => fine e (List.mem_cons_of_mem _ among)

theorem callPanics_of_calm (calm : w.stock.Calm) (a : Act) : w.callPanics a = false := by
  cases a with
  | branch predicate otherwise =>
    show (w.callPredicate predicate).2.isPanic = false
    unfold callPredicate
    split
    · rfl
    · rename_i p found
      have among := calm.predicates p.body (Array.mem_map_of_mem (Array.mem_of_getElem? found))
      refine isPanic_answer fun text panics => ?_
      cases body : p.body <;> rw [body] at panics among <;> cases panics
      exact among _ rfl
  | switch selector =>
    show (w.callSelector selector).2.isPanic = false
    unfold callSelector
    split
    · rfl
    · rename_i s found
      have among := calm.selectors s.body (Array.mem_map_of_mem (Array.mem_of_getElem? found))
      refine isPanic_answer fun text panics => ?_
      cases body : s.body <;> rw [body] at panics among <;> cases panics
      exact among _ rfl
  | action i =>
    show (w.callAction i).2.isPanic = false
    unfold callAction
    split
    · rfl
    · rename_i es found
      exact isPanic_runEffects w (calm.actions es (Array.mem_of_getElem? found))
  | _ => rfl

theorem turnPanics_of_calm (calm : w.stock.Calm) : w.turnPanics = false := by
  unfold turnPanics
  cases w.act? with
  | none => rfl
  | some a => exact callPanics_of_calm calm a

end World

end SceneScript
