import SceneScript.Proofs.Stock
import SceneScript.World.Routine
/-!
Handles of callbacks, however registrations and calls nest (`handles_stay_put`). The marks of a session
tell which callback each handle was handed out for, and the registry resolves it to that one at every
moment, in the middle of a call as well.
-/

namespace SceneScript

/-! ### Scripts as routines -/

namespace World

theorem registry_renewScope (w : World) : w.renewScope.registry = w.registry := by
  have stopped (w : World) : w.stopCountdown.registry = w.registry := by
    unfold stopCountdown
    split <;> rfl
  unfold renewScope
  dsimp only
  split
  · exact stopped _
  · rfl

theorem registry_executeNumber (w : World) (n : Nat) : (w.executeNumber n).1.registry = w.registry := by
  rcases execute_cases w (w.programs.getD n (.ofCommands [])) with
    ⟨e, rm, q, refused, -⟩ | ⟨q, -, -, -, accepted⟩
  · rw [executeNumber, refused]
    rfl
  · rw [executeNumber, accepted]
    have renewed : w.begun.renewScope.registry = w.registry := registry_renewScope w.begun
    show (w.launch q).registry = w.registry
    unfold launch
    generalize w.begun.renewScope = v at renewed ⊢
    exact renewed

/-- An effect leaves the registry alone, unless it registers something. -/
theorem registry_runEffect (w : World) {e : Effect} (other : ∀ kind, e ≠ .register kind) :
    (w.runEffect e).registry = w.registry := by
  cases e with
  | register kind => exact absurd rfl (other kind)
  | execute program => exact registry_executeNumber w program
  | select index =>
    show (w.select index).1.registry = _
    unfold World.select
    split <;> rfl
  | _ => rfl

/-- Without a callback behind the handle, nothing is called. -/
theorem callBack_missing {w : World} {kind : CallbackKind} {index : Nat}
    (missing : w.registry.body? kind index = none) : w.callBack kind index = (w, .unknown) := by
  cases kind with
  | predicate =>
    have none : w.registry.predicates[index]? = none := by
      simpa [Registry.body?, Registry.bodies] using missing
    rw [callBack, callPredicate, none]
  | selector =>
    have none : w.registry.selectors[index]? = none := by
      simpa [Registry.body?, Registry.bodies] using missing
    rw [callBack, callSelector, none]
  | action =>
    have none : w.registry.actions[index]? = none := by
      simpa [Registry.body?, Registry.bodies] using missing
    rw [callBack, callAction, none]

end World

namespace Routine

open Registry

variable {call : Session → (kind : CallbackKind) → Nat → Session × Option (Returned kind.Result)}

theorem run_ofExcept {α : Type} (kind : CallbackKind) (index : Nat) (e : Except String α) (s : Session) :
    (ofExcept e).run call s = (s, some ((World.answer e).returned kind index)) := by
  cases e <;> rfl

/-- The effects of an action, run one by one. -/
theorem run_ofEffects (index : Nat) (es : List Effect) (s : Session) : ∃ marks,
    (ofEffects es).run call s = (⟨(s.world.runEffects es).1, marks⟩,
      some ((s.world.runEffects es).2.returned .action index)) := by
  fun_induction ofEffects es generalizing s with
  | case1 => exact ⟨s.marks, rfl⟩
  | case2 text rest => exact ⟨s.marks, rfl⟩
  | case3 kind rest ih =>
    obtain ⟨marks, ran⟩ := ih
      ⟨s.world.runEffect (.register kind), (s.register kind kind.idle).1.marks⟩
    refine ⟨marks, Eq.trans ?_ ran⟩
    cases kind <;> rfl
  | case4 e rest calm other ih =>
    have same : { s.world.runEffect e with registry := s.world.registry } = s.world.runEffect e := by
      rw [← World.registry_runEffect s.world other]
    rw [Routine.run, World.runEffects]
    · dsimp only
      rw [same]
      exact ih _
    · exact calm

end Routine

namespace Registry

variable {kind other : CallbackKind} {marks before : List Mark} {w : World} {s t : Session}
  {deal : Deal} {index : Nat}

/-! ### Bodies -/

theorem bodies_add (r : Registry) (kind : CallbackKind) (body : kind.Body) :
    (r.add kind body).1.bodies kind = r.bodies kind ++ [body] := by
  cases kind <;> simp [add, bodies, addPredicate, addSelector, addAction]

theorem bodies_add_other (r : Registry) (body : kind.Body) (distinct : other ≠ kind) :
    (r.add kind body).1.bodies other = r.bodies other := by
  cases kind <;> cases other <;> first | exact absurd rfl distinct | rfl

theorem add_snd (r : Registry) (kind : CallbackKind) (body : kind.Body) :
    (r.add kind body).2 = (r.bodies kind).length := by
  cases kind <;> simp [add, bodies, addPredicate, addSelector, addAction]

/-- That a callback was called once more does not change what a handle resolves to. -/
theorem bodies_countCall (r : Registry) (kind : CallbackKind) (index : Nat) (other : CallbackKind) :
    (r.countCall kind index).bodies other = r.bodies other := by
  have counted {α : Type} (cs : Array (Registered α)) :
      (cs.modify index fun c => { c with calls := c.calls + 1 }).toList.map (·.body) =
        cs.toList.map (·.body) := by
    rw [← Array.toList_map, World.map_body_modify, Array.toList_map]
  cases kind with
  | predicate =>
    cases other with
    | predicate => exact counted r.predicates
    | selector | action => rfl
  | selector =>
    cases other with
    | selector => exact counted r.selectors
    | predicate | action => rfl
  | action => rfl

/-! ### What the marks tell -/

namespace Deal

def registers (kind : CallbackKind) : Deal → Bool
  | .registered k .. => k = kind
  | _ => false

/-- The body, if one of this kind is registered. -/
def body? : (kind : CallbackKind) → Deal → Option kind.Body
  | .predicate, .registered .predicate body _ => some body
  | .selector, .registered .selector body _ => some body
  | .action, .registered .action body _ => some body
  | _, _ => none

theorem body?_registered (kind : CallbackKind) (body : kind.Body) (index : Nat) :
    (registered kind body index).body? kind = some body := by
  cases kind <;> rfl

theorem body?_eq_some_iff {body : kind.Body} :
    deal.body? kind = some body ↔ ∃ index, deal = .registered kind body index := by
  constructor
  · intro found
    cases deal with
    | registered k b index =>
      cases kind <;> cases k <;> cases found <;> exact ⟨index, rfl⟩
    | entered | missed => cases kind <;> cases found
  · rintro ⟨index, rfl⟩
    exact body?_registered kind body index

theorem body?_other (body : kind.Body) (index : Nat) (distinct : other ≠ kind) :
    (registered kind body index).body? other = none := by
  cases kind <;> cases other <;> first | exact absurd rfl distinct | rfl

theorem isSome_body? (kind : CallbackKind) (deal : Deal) :
    (deal.body? kind).isSome = deal.registers kind := by
  cases deal with
  | registered k => cases kind <;> cases k <;> rfl
  | entered | missed => cases kind <;> rfl

end Deal

/-- How many callbacks of this kind were registered. -/
def issued (kind : CallbackKind) (marks : List Mark) : Nat :=
  marks.countP fun m => m.deal.registers kind

/-- What was registered for this kind, in order. -/
def registered (kind : CallbackKind) (marks : List Mark) : List kind.Body :=
  marks.filterMap fun m => m.deal.body? kind

theorem length_registered (kind : CallbackKind) (marks : List Mark) :
    (registered kind marks).length = issued kind marks := by
  simp only [registered, issued, List.length_filterMap_eq_countP, Deal.isSome_body?]

theorem registered_append (kind : CallbackKind) (marks later : List Mark) :
    registered kind (marks ++ later) = registered kind marks ++ registered kind later :=
  List.filterMap_append

theorem registered_concat (kind : CallbackKind) (marks : List Mark) (last : Mark) :
    registered kind (marks ++ [last]) =
      registered kind marks ++ (last.deal.body? kind).toList := by
  rw [registered_append]
  cases made : last.deal.body? kind <;> simp [registered, made]

/-- Every registration was answered with the number of earlier ones of its kind. -/
def Numbered (marks : List Mark) : Prop :=
  ∀ before w kind (body : kind.Body) index,
    before ++ [⟨w, .registered kind body index⟩] <+: marks → index = issued kind before

theorem Numbered.of_prefix (numbered : Numbered marks) (inside : before <+: marks) :
    Numbered before :=
  fun _ _ _ _ _ made => numbered _ _ _ _ _ (made.trans inside)

namespace Session

/-- The session as it was before one of its deals, or as it is now. -/
def Moment (s t : Session) : Prop := t = s ∨ ∃ deal, t.marks ++ [⟨t.world, deal⟩] <+: s.marks

/-- A registration of this body was answered with this handle. -/
def Issued (t : Session) (kind : CallbackKind) (index : Nat) (body : kind.Body) : Prop :=
  ∃ before w, before ++ [⟨w, .registered kind body index⟩] <+: t.marks

theorem Moment.inside (moment : s.Moment t) : t.marks <+: s.marks := by
  rcases moment with rfl | ⟨deal, inside⟩
  · exact List.prefix_rfl
  · exact (List.prefix_append _ _).trans inside

section

variable {body : kind.Body} (numbered : Numbered t.marks)

include numbered

theorem Issued.registered (made : t.Issued kind index body) :
    (registered kind t.marks)[index]? = some body := by
  obtain ⟨before, w, later, made⟩ := made
  have number : index = (Registry.registered kind before).length := by
    rw [length_registered]
    exact numbered before w kind body index ⟨later, made⟩
  rw [← made, registered_append, registered_concat, Deal.body?_registered, number]
  simp

theorem issued_of_registered (found : (registered kind t.marks)[index]? = some body) :
    t.Issued kind index body := by
  obtain ⟨w, marks⟩ := t
  unfold Issued
  dsimp only at numbered found ⊢
  induction marks using List.reverseRecOn with
  | nil => cases found
  | append_singleton marks last ih =>
    have earlier (found : (Registry.registered kind marks)[index]? = some body) :
        ∃ before w, before ++ [⟨w, .registered kind body index⟩] <+: marks ++ [last] := by
      obtain ⟨before, w, inside⟩ := ih (numbered.of_prefix (List.prefix_append _ _)) found
      exact ⟨before, w, inside.trans (List.prefix_append _ _)⟩
    rw [registered_concat] at found
    cases made : last.deal.body? kind with
    | none =>
      rw [made, Option.toList_none, List.append_nil] at found
      exact earlier found
    | some b =>
      rw [made, Option.toList_some, List.getElem?_append, List.getElem?_singleton] at found
      split at found
      · exact earlier found
      · -- The handle is the one that the last registration was answered with.
        rename_i late
        split at found
        · rename_i first
          obtain rfl := Option.some.inj found
          obtain ⟨number, deal⟩ := Deal.body?_eq_some_iff.mp made
          have answered := numbered marks last.world kind b number (deal ▸ List.prefix_rfl)
          have same : number = index := by
            rw [answered, ← length_registered]
            omega
          exact ⟨marks, last.world, same ▸ deal ▸ List.prefix_rfl⟩
        · cases found

theorem issued_iff : t.Issued kind index body ↔ (registered kind t.marks)[index]? = some body :=
  ⟨Issued.registered numbered, issued_of_registered numbered⟩

end

/-! ### What every deal keeps -/

/-- The registry holds what was registered, kind by kind. -/
def Agrees (t : Session) : Prop :=
  ∀ kind, t.world.registry.bodies kind = registered kind t.marks

structure Kept (s : Session) : Prop where
  agrees : ∀ t, s.Moment t → t.Agrees
  numbered : Numbered s.marks

theorem Kept.now (kept : s.Kept) : s.Agrees := kept.agrees s (.inl rfl)

theorem kept_opening (w : World) : (opening w).Kept where
  agrees t moment := by
    rcases moment with rfl | ⟨deal, inside⟩
    · intro kind
      cases kind <;> simp [opening, bodies, Registry.empty, registered]
    · exact absurd (List.eq_nil_of_prefix_nil inside) (by simp)
  numbered before w kind body index made :=
    absurd (List.eq_nil_of_prefix_nil made) (by simp)

/-- One more deal is one more moment. -/
theorem Kept.note (kept : s.Kept) (agrees : (s.note deal w).Agrees)
    (answered : ∀ kind (body : kind.Body) index, deal = .registered kind body index →
      index = issued kind s.marks) : (s.note deal w).Kept where
  agrees t moment := by
    rcases moment with rfl | ⟨deal', inside⟩
    · exact agrees
    rcases List.prefix_concat_iff.mp inside with last | earlier
    · obtain ⟨marks, same⟩ := List.append_inj' last rfl
      obtain ⟨world, -⟩ := Mark.mk.inj (List.singleton_inj.mp same)
      have here : t = s := by
        cases t
        cases s
        cases marks
        cases world
        rfl
      exact here ▸ kept.now
    · exact kept.agrees t (.inr ⟨deal', earlier⟩)
  numbered before w' kind body index made := by
    rcases List.prefix_concat_iff.mp made with last | earlier
    · obtain ⟨rfl, same⟩ := List.append_inj' last rfl
      obtain ⟨-, deal⟩ := Mark.mk.inj (List.singleton_inj.mp same)
      exact answered kind body index deal.symm
    · exact kept.numbered before w' kind body index earlier

theorem Kept.register (kept : s.Kept) (kind : CallbackKind) (body : kind.Body) :
    (s.register kind body).1.Kept := by
  refine kept.note (fun other => ?_) fun kind' body' index deal => ?_
  · show (s.world.registry.add kind body).1.bodies other = registered other (s.marks ++ [_])
    rw [registered_concat]
    by_cases same : other = kind
    · subst same
      rw [bodies_add, kept.now, Deal.body?_registered, Option.toList_some]
    · rw [bodies_add_other _ body same, kept.now, Deal.body?_other body _ same, Option.toList_none,
        List.append_nil]
  · cases deal
    show (s.world.registry.add kind body).2 = _
    rw [add_snd, kept.now, length_registered]

theorem Kept.enter (kept : s.Kept) (kind : CallbackKind) (body : kind.Body) (index : Nat) :
    (s.enter kind body index).Kept := by
  refine kept.note (fun other => ?_) fun _ _ _ deal => by cases deal
  show (s.world.registry.countCall kind index).bodies other = registered other (s.marks ++ [_])
  rw [bodies_countCall, kept.now, registered_concat]
  cases other <;> simp [Deal.body?]

theorem Kept.miss (kept : s.Kept) (kind : CallbackKind) (index : Nat) : (s.miss kind index).Kept := by
  refine kept.note (fun other => ?_) fun _ _ _ deal => by cases deal
  show s.world.registry.bodies other = registered other (s.marks ++ [_])
  rw [kept.now, registered_concat]
  cases other <;> simp [Deal.body?]

/-- Work in between changes the present, not what was registered. -/
theorem Kept.work (kept : s.Kept) (same : w.registry = s.world.registry) :
    ({ s with world := w } : Session).Kept where
  agrees t moment := by
    rcases moment with rfl | earlier
    · intro kind
      show w.registry.bodies kind = _
      rw [same, kept.now]
    · exact kept.agrees t (.inr earlier)
  numbered := kept.numbered

/-! ### What every run keeps -/

theorem Kept.run {α : Type} {call : Session → (kind : CallbackKind) → Nat →
    Session × Option (Returned kind.Result)}
    (calls : ∀ s kind index, s.Kept → (call s kind index).1.Kept) (r : Routine α) (kept : s.Kept) :
    (r.run call s).1.Kept := by
  induction r generalizing s with
  | give | panic => exact kept
  | work job rest ih => exact ih _ (kept.work (job.aside s.world))
  | register kind body rest ih => exact ih _ (kept.register kind body)
  | call kind index rest ih =>
    have called := calls s kind index kept
    rw [Routine.run]
    split
    · rename_i same
      rw [same] at called
      exact ih _ called
    · rename_i same
      rw [same] at called
      exact called

section

variable {body : kind.Body}

theorem call_missing (conduct : Conduct) (depth : Nat)
    (missing : s.world.registry.body? kind index = none) : s.call conduct depth kind index =
      (s.miss kind index, some (.failed (.unknownCallback kind index))) := by
  cases depth <;> simp [Session.call, missing]

theorem call_too_deep (conduct : Conduct) (found : s.world.registry.body? kind index = some body) :
    s.call conduct 0 kind index = (s, none) := by
  simp [Session.call, found]

theorem call_found (conduct : Conduct) (depth : Nat)
    (found : s.world.registry.body? kind index = some body) : s.call conduct (depth + 1) kind index =
      (conduct kind body (s.world.registry.calls kind index) s.world).run (call conduct depth)
        (s.enter kind body index) := by
  simp [Session.call, found]

end

/-- By induction on how deep calls may nest, since those that a callback makes may nest less deep. -/
theorem Kept.call (conduct : Conduct) (depth : Nat) (kept : s.Kept) (kind : CallbackKind)
    (index : Nat) : (s.call conduct depth kind index).1.Kept := by
  induction depth generalizing s kind index with
  | zero =>
    cases found : s.world.registry.body? kind index with
    | none =>
      rw [call_missing conduct 0 found]
      exact kept.miss kind index
    | some body =>
      rw [call_too_deep conduct found]
      exact kept
  | succ depth ih =>
    cases found : s.world.registry.body? kind index with
    | none =>
      rw [call_missing conduct _ found]
      exact kept.miss kind index
    | some body =>
      rw [call_found conduct depth found]
      exact .run (fun s kind index kept => ih kept kind index) _ (kept.enter kind body index)

/-- Scripts are called in this way. -/
theorem call_scripted (s : Session) (depth : Nat) (kind : CallbackKind) (index : Nat) : ∃ marks,
    s.call scripted (depth + 1) kind index = (⟨(s.world.callBack kind index).1, marks⟩,
      some ((s.world.callBack kind index).2.returned kind index)) := by
  cases found : s.world.registry.body? kind index with
  | none =>
    rw [call_missing scripted _ found, World.callBack_missing found]
    exact ⟨(s.miss kind index).marks, rfl⟩
  | some body =>
    rw [call_found scripted depth found]
    cases kind with
    | predicate =>
      obtain ⟨p, here, rfl⟩ : ∃ p, s.world.registry.predicates[index]? = some p ∧ p.body = body := by
        simpa [body?, bodies] using found
      have calls : s.world.registry.calls .predicate index = p.calls := by simp [calls, here]
      rw [World.callBack, World.callPredicate, here, calls]
      exact ⟨_, Routine.run_ofExcept .predicate index _ _⟩
    | selector =>
      obtain ⟨c, here, rfl⟩ : ∃ c, s.world.registry.selectors[index]? = some c ∧ c.body = body := by
        simpa [body?, bodies] using found
      have calls : s.world.registry.calls .selector index = c.calls := by simp [calls, here]
      rw [World.callBack, World.callSelector, here, calls]
      exact ⟨_, Routine.run_ofExcept .selector index _ _⟩
    | action =>
      have here : s.world.registry.actions[index]? = some body := by
        simpa [body?, bodies] using found
      rw [World.callBack, World.callAction, here]
      exact Routine.run_ofEffects index body _

/-! ### At every moment -/

/-- What holds at a moment `t` of a session. -/
structure Steady (conduct : Conduct) (t : Session) : Prop where
  /-- A registration hands out the number of earlier ones of its kind. -/
  hands : ∀ kind (body : kind.Body), (t.register kind body).2 = issued kind t.marks ∧
    (t.register kind body).1.Issued kind (issued kind t.marks) body
  /-- Handles resolve to what they were handed out for, and nothing else resolves. -/
  resolves : ∀ kind index (body : kind.Body),
    t.world.registry.body? kind index = some body ↔ t.Issued kind index body
  /-- To call a handle is to let its callback run, once, and to take what that gives back. -/
  runs : ∀ kind index (body : kind.Body), t.Issued kind index body → ∀ depth,
    t.call conduct (depth + 1) kind index =
      (conduct kind body (t.world.registry.calls kind index) t.world).run (call conduct depth)
        (t.enter kind body index)
  /-- A handle from elsewhere is taken for the one of its number. -/
  lends : ∀ kind index, index < issued kind t.marks → ∃ body, t.Issued kind index body
  /-- Without one, nothing runs and nothing changes. -/
  misses : ∀ kind index, issued kind t.marks ≤ index → ∀ depth,
    t.call conduct depth kind index =
        (t.miss kind index, some (.failed (.unknownCallback kind index))) ∧
      (t.miss kind index).world = t.world
  /-- This is how the callbacks of scripts are called. -/
  scripts : ∀ depth kind index, ∃ marks, t.call scripted (depth + 1) kind index =
    (⟨(t.world.callBack kind index).1, marks⟩,
      some ((t.world.callBack kind index).2.returned kind index))

theorem Kept.steady (kept : s.Kept) (conduct : Conduct) (moment : s.Moment t) :
    Steady conduct t := by
  have numbered := kept.numbered.of_prefix moment.inside
  have agrees := kept.agrees t moment
  have resolves (kind : CallbackKind) (index : Nat) (body : kind.Body) :
      t.world.registry.body? kind index = some body ↔ t.Issued kind index body := by
    rw [issued_iff numbered, body?, agrees]
  refine ⟨fun kind body => ?_, resolves, ?_, ?_, ?_, call_scripted t⟩
  · have number : (t.register kind body).2 = issued kind t.marks := by
      show (t.world.registry.add kind body).2 = _
      rw [add_snd, agrees, length_registered]
    exact ⟨number, t.marks, t.world, number ▸ List.prefix_rfl⟩
  · intro kind index body made depth
    exact call_found conduct depth ((resolves kind index body).mpr made)
  · intro kind index within
    rw [← length_registered] at within
    exact ⟨_, (issued_iff numbered).mpr (List.getElem?_eq_getElem within)⟩
  · intro kind index beyond depth
    refine ⟨call_missing conduct depth ?_, rfl⟩
    rw [body?, agrees, List.getElem?_eq_none_iff, length_registered]
    exact beyond

/-- A session in which handles stay what they are. -/
structure KeepsHandles (conduct : Conduct) (s : Session) : Prop where
  steady : ∀ t, s.Moment t → Steady conduct t
  /-- Between two moments, nothing that happens changes what a handle resolves to. -/
  stays : ∀ t t', s.Moment t → s.Moment t' → t.marks <+: t'.marks →
    ∀ kind index (body : kind.Body), t.world.registry.body? kind index = some body →
      t'.world.registry.body? kind index = some body

theorem handles_stay_put (conduct : Conduct) (depth : Nat) (w : World) (host : Routine Unit) :
    KeepsHandles conduct (play conduct depth w host) := by
  have kept : (play conduct depth w host).Kept :=
    .run (fun _ kind index kept => kept.call conduct depth kind index) host (kept_opening w)
  refine ⟨fun t moment => kept.steady conduct moment, ?_⟩
  intro t t' moment moment' earlier kind index body found
  obtain ⟨before, w, inside⟩ := ((kept.steady conduct moment).resolves kind index body).mp found
  exact ((kept.steady conduct moment').resolves kind index body).mpr
    ⟨before, w, inside.trans earlier⟩

/-- An action that registers a predicate while it runs, and calls it. -/
example (w : World) :
    let conduct : Conduct
      | .action, _, _, _ => .register .predicate (.constant true) fun p =>
        .call .predicate p fun _ => .give ()
      | .predicate, _, _, _ => .give true
      | .selector, _, _, _ => .give ""
    let host : Routine Unit := .register .action [] fun a => .call .action a fun _ => .give ()
    (play conduct 2 w host).world.registry.counts = (1, 0, 1) := by
  intro conduct host
  rfl

end Session

end Registry

end SceneScript
