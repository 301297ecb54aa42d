import SceneScript.Proofs.Mishaps
/-!
The errors of a run. Which error comes up in a turn, if any, can be read off the act that the turn
does (`fault_turn`). The end of the feed is none of them: the player holds the feed open itself, so a
host that lets go of its own handles ends nothing (`feed_stays_open`).
-/

namespace SceneScript

/-- The error of a call that found no callback. -/
def Answer.error? {α : Type} (kind : CallbackKind) (index : Nat) : Answer α → Option Failure
  | .unknown => some (.unknownCallback kind index)
  | _ => none

/-- There is a callback under the handle. -/
def Registry.resolves (g : Registry) : CallbackKind → Nat → Bool
  | .predicate, index => index < g.predicates.size
  | .selector, index => index < g.selectors.size
  | .action, index => index < g.actions.size

namespace World

def missing? (w : World) (kind : CallbackKind) (index : Nat) : Option Failure :=
  if w.registry.resolves kind index then none else some (.unknownCallback kind index)

def overfull? (w : World) (options : List String) : Option Failure :=
  if w.settings.maxChoices < options.length then
    some (.tooManyChoices options.length w.settings.maxChoices)
  else none

def rejected? (w : World) (job : SceneJob) : Option Failure :=
  match w.rig.scenes with
  | .noted => none
  | .failing => some (.scene ("scene " ++ job.scene ++ " not found"))
  | .board _ => if w.loading then some .sceneLoadInProgress else none

def unentered? (w : World) (scene : String) : Option Failure :=
  if w.waitsForRelease then none
  else if w.sceneFails then some (.scene (scene ++ " missing"))
  else if scene.isEmpty then some (.scene "scene name is empty")
  else none

/-- The error that comes up when the fiber of run `r` does an act. -/
def raised? (w : World) (r : Run) : Act → Option Failure
  | .offer options => w.overfull? options
  | .branch predicate _ => w.missing? .predicate predicate
  | .switch selector => w.missing? .selector selector
  | .action action => w.missing? .action action
  | .goto label => failure? (r.program.resolve label)
  | .load job => w.rejected? job
  | .enterScene scene => w.unentered? scene
  | _ => none

/-- The error on its way after the turn of the fiber of run `r`. -/
def faultAfter (w : World) (f : Fiber) (r : Run) : Option Failure :=
  match f.todo, f.fault with
  | [], fault => fault
  | a :: _, none => w.raised? r a
  | a :: _, some e => if a.catches then none else some e

variable {w x : World} {f f' : Fiber} {r r' : Run} {a : Act} {rest : List Fiber}
  {after : List Act} {fault : Option Failure} {pick : Option Nat}

/-! ### What a turn leaves on its way -/

/-- Whatever run is under way in `w`, this is the error on its way. -/
def Carry (w : World) (fault : Option Failure) : Prop := ∀ l ∈ w.leads, l.fault = fault

theorem carry_nil (alone : x.leads = []) : Carry x fault := by
  intro l among
  rw [alone] at among
  cases among

theorem leads_resume (x : World) (f : Fiber) : (x.resume f).leads = f.lead?.toList ++ x.leads := by
  show (f :: x.fibers).filterMap Fiber.lead? = _
  cases lead : f.lead? <;> simp [leads, lead]

theorem fault_of_lead? {l : Lead} (lead : f.lead? = some l) : l.fault = f.fault := by
  rw [(lead?_eq_some lead).2]

theorem carry_resume (alone : x.leads = []) (same : f'.fault = fault) :
    Carry (x.resume f') fault := by
  intro l among
  rw [leads_resume, alone, List.append_nil, Option.mem_toList] at among
  rw [fault_of_lead? among, same]

theorem carry_park (wait : Wait) (alone : x.leads = []) (same : f'.fault = fault) :
    Carry (x.park wait f') fault := by
  intro l among
  rw [leads_park, alone, List.nil_append, Option.mem_toList] at among
  rw [fault_of_lead? among, same]

theorem carry_conclude (o : Outcome) (role : f'.role = .run r) (alone : x.leads = [])
    (actor : x.actor = some f'.id) : Carry (x.conclude f' o) fault := by
  refine carry_nil ?_
  show (x.conclude f' o).plot.leads = []
  rw [plot_conclude o role alone actor]
  rfl

section

variable (role : f.role = .run r) (alone : w.leads = []) (actor : w.actor = some f.id)
  (fine : f.fault = none)

include role alone actor fine

/-- Acts beside the script raise nothing but what `Act.raises` lists. -/
theorem carry_aside (aside : a.isAside = true) (quiet : ∀ e, a.raises e = false) :
    Carry (w.perform f a) none := by
  obtain ⟨w₁, kept, goesOn⟩ := perform_aside w f aside
  have alone₁ := leads_of_keeps kept alone
  generalize w.perform f a = y at goesOn ⊢
  cases goesOn with
  | goes goes =>
    refine carry_resume alone₁ ?_
    rcases goes.fault with same | ⟨e, -, raised⟩
    · exact same.trans fine
    · rw [quiet e] at raised
      cases raised
  | waits wait _ _ same => exact carry_park wait alone₁ (same.trans fine)
  | breaks text id role' =>
    exact carry_conclude _ (role'.trans role) alone₁ (kept.actor.trans (actor.trans (by rw [id])))

omit role in
theorem carry_takeFrame {lane : Lane} {next : World → Fiber → Frame → World}
    (sources : 0 < w.feed.sources)
    (goes : ∀ (w₁ : World) (c : Cursor) (fr : Frame), w₁.leads = [] → w₁.actor = some f.id →
      Carry (next w₁ (f.setCursor lane c) fr) none) :
    Carry (w.takeFrame f lane a next) none := by
  rcases takeFrame_eq w f lane a next sources with parks | ⟨fr, c, missed, -, takes⟩
  · rw [parks]
    exact carry_park _ alone fine
  · rw [takes]
    have leads : ((w.lagged missed).record (.took fr)).leads = w.leads := by
      unfold lagged
      split <;> rfl
    have same : ((w.lagged missed).record (.took fr)).actor = w.actor := by
      unfold lagged
      split <;> rfl
    exact goes _ c fr (leads.trans alone) (same.trans actor)

theorem carry_performStride (s : Sweep) (sources : 0 < w.feed.sources) :
    Carry (w.performStride f s) none := by
  refine carry_takeFrame alone actor fine sources fun w₁ c fr alone₁ actor₁ => ?_
  obtain ⟨id, role', -, fault⟩ := setCursor_fields f s.lane c
  split
  · exact carry_resume alone₁ (fault.trans fine)
  · exact carry_conclude _ (role'.trans role) alone₁ (actor₁.trans (by rw [id]))

omit role in
theorem carry_performConfirm (sources : 0 < w.feed.sources) : Carry (w.performConfirm f) none := by
  refine carry_takeFrame alone actor fine sources fun w₁ c fr alone₁ actor₁ => ?_
  refine carry_resume alone₁ ?_
  split <;> exact fine

omit fine in
theorem carry_afterCall {α : Type} {w₁ : World} {kind : CallbackKind} {index : Nat} {an : Answer α}
    {next : α → Fiber} (leads : w₁.leads = w.leads) (same : w₁.actor = w.actor)
    (goes : ∀ v, (next v).fault = none) :
    Carry (w₁.afterCall f kind index an next) (an.error? kind index) := by
  cases an with
  | value v => exact carry_resume (leads.trans alone) (goes v)
  | panicked text => exact carry_conclude _ role (leads.trans alone) (same.trans actor)
  | unknown => exact carry_resume (leads.trans alone) rfl

omit role alone actor fine in
theorem leads_noteReply (w : World) (reply : Option Reply) :
    (w.noteReply reply).leads = w.leads ∧ (w.noteReply reply).actor = w.actor := by
  cases reply <;> exact ⟨rfl, rfl⟩

end

theorem error?_callPredicate (w : World) (predicate : Nat) :
    (w.callPredicate predicate).2.error? .predicate predicate =
      w.missing? .predicate predicate := by
  unfold callPredicate missing? Registry.resolves
  cases found : w.registry.predicates[predicate]? with
  | none => simp [Array.getElem?_eq_none_iff.mp found, Answer.error?]
  | some p =>
    have within : predicate < w.registry.predicates.size := (Array.getElem?_eq_some_iff.mp found).1
    cases ran : p.body.answer p.calls w.state.chosen w.vars <;>
      simp [answer, ran, Answer.error?, within]

theorem error?_callSelector (w : World) (selector : Nat) :
    (w.callSelector selector).2.error? .selector selector = w.missing? .selector selector := by
  unfold callSelector missing? Registry.resolves
  cases found : w.registry.selectors[selector]? with
  | none => simp [Array.getElem?_eq_none_iff.mp found, Answer.error?]
  | some s =>
    have within : selector < w.registry.selectors.size := (Array.getElem?_eq_some_iff.mp found).1
    cases ran : s.body.answer s.calls w.state.chosen w.vars <;>
      simp [answer, ran, Answer.error?, within]

theorem error?_callAction (w : World) (action : Nat) :
    (w.callAction action).2.error? .action action = w.missing? .action action := by
  unfold callAction missing? Registry.resolves
  cases found : w.registry.actions[action]? with
  | none => simp [Array.getElem?_eq_none_iff.mp found, Answer.error?]
  | some effects =>
    have within : action < w.registry.actions.size := (Array.getElem?_eq_some_iff.mp found).1
    have known := runEffects_ne_unknown w effects
    dsimp only
    cases ran : (w.runEffects effects).2 <;> simp [ran, Answer.error?, within] at known ⊢

section

variable (role : f.role = .run r) (alone : w.leads = []) (actor : w.actor = some f.id)
  (fine : f.fault = none)

include role alone actor fine

theorem carry_performBranch (predicate : Nat) (otherwise : String) :
    Carry (w.performBranch f predicate otherwise) (w.missing? .predicate predicate) := by
  rw [← error?_callPredicate]
  obtain ⟨leads, same⟩ := leads_noteReply (w.callPredicate predicate).1
    ((w.callPredicate predicate).2.reply? .holds)
  have called : (w.callPredicate predicate).1.leads = w.leads ∧
      (w.callPredicate predicate).1.actor = w.actor := by
    unfold callPredicate
    split <;> exact ⟨rfl, rfl⟩
  refine carry_afterCall role alone actor (leads.trans called.1) (same.trans called.2) fun holds => ?_
  split <;> exact fine

theorem carry_performSwitch (selector : Nat) :
    Carry (w.performSwitch f selector) (w.missing? .selector selector) := by
  rw [← error?_callSelector]
  obtain ⟨leads, same⟩ := leads_noteReply (w.callSelector selector).1
    ((w.callSelector selector).2.reply? .label)
  have called : (w.callSelector selector).1.leads = w.leads ∧
      (w.callSelector selector).1.actor = w.actor := by
    unfold callSelector
    split <;> exact ⟨rfl, rfl⟩
  exact carry_afterCall role alone actor (leads.trans called.1) (same.trans called.2) fun _ => fine

theorem carry_performAction (action : Nat) (busy : w.state.executing = true) :
    Carry (w.performAction f action) (w.missing? .action action) := by
  rw [← error?_callAction]
  obtain ⟨leads, same⟩ := leads_noteReply (w.callAction action).1
    ((w.callAction action).2.reply? fun _ => .done)
  have called : (w.callAction action).1.leads = w.leads ∧
      (w.callAction action).1.actor = w.actor := by
    unfold callAction
    split
    · exact ⟨rfl, rfl⟩
    · exact ⟨(touches_runEffects w _ busy (by simp [alone])).leads, (keeps_runEffects w _).actor⟩
  exact carry_afterCall role alone actor (leads.trans called.1) (same.trans called.2) fun _ => fine

omit actor in
theorem carry_performGoto (label : String) :
    Carry (w.performGoto f label) (failure? (r.program.resolve label)) := by
  rw [performGoto, role]
  dsimp only
  cases resolved : r.program.resolve label with
  | ok place => exact carry_resume alone fine
  | error e => exact carry_resume alone rfl

omit role actor in
theorem carry_performOffer (options : List String) :
    Carry (w.performOffer f options) (w.overfull? options) := by
  unfold performOffer overfull?
  split
  · exact carry_resume alone rfl
  · exact carry_resume alone fine

omit role actor in
/-- The fiber that asked for an answer is never forgotten. -/
theorem carry_performAnswer {receiver : Nat} (options : List String)
    (kept : w.slot.receipt receiver = .waiting ∨ ∃ i, w.slot.receipt receiver = .answered i) :
    Carry (w.performAnswer f receiver options) none := by
  unfold performAnswer
  rcases kept with waiting | ⟨i, answered⟩
  · rw [waiting]
    exact carry_park _ alone fine
  · rw [answered]
    exact carry_resume alone fine

omit role actor in
theorem carry_performLoad (job : SceneJob) :
    Carry (w.performLoad f job) (w.rejected? job) := by
  unfold performLoad rejected?
  cases w.rig.scenes with
  | noted => exact carry_resume alone fine
  | failing => exact carry_resume alone rfl
  | board gated =>
    dsimp only
    split
    · exact carry_resume alone rfl
    · exact carry_resume alone fine

omit role actor in
theorem carry_performEnterScene (scene : String) :
    Carry (w.performEnterScene f scene) (w.unentered? scene) := by
  unfold performEnterScene unentered?
  split
  · exact carry_park _ alone fine
  have spent : w.spendRelease.leads = [] := by
    rw [← alone]
    unfold spendRelease
    split <;> rfl
  rw [enterScene, sceneFails_spendRelease]
  cases w.sceneFails with
  | true => exact carry_resume spent rfl
  | false =>
    cases scene.isEmpty with
    | true => exact carry_resume spent rfl
    | false => exact carry_resume spent fine

/-- Every act of the run's fiber leaves the error on its way that it raises. -/
theorem carry_perform (sources : 0 < w.feed.sources) (busy : w.state.executing = true)
    (kept : ∀ receiver options, a = .answer receiver options →
      w.slot.receipt receiver = .waiting ∨ ∃ i, w.slot.receipt receiver = .answered i) :
    Carry (w.perform f a) (w.raised? r a) := by
  cases a with
  | stride s => exact carry_performStride role alone actor fine s sources
  | confirm => exact carry_performConfirm alone actor fine sources
  | offer options => exact carry_performOffer alone fine options
  | answer receiver options => exact carry_performAnswer alone fine options (kept _ _ rfl)
  | chosen index options => exact carry_resume alone fine
  | branch predicate otherwise => exact carry_performBranch role alone actor fine predicate otherwise
  | switch selector => exact carry_performSwitch role alone actor fine selector
  | goto label => exact carry_performGoto role alone fine label
  | action action => exact carry_performAction role alone actor fine action busy
  | load job => exact carry_performLoad alone fine job
  | enterScene scene => exact carry_performEnterScene alone fine scene
  | stage call => exact carry_resume alone fine
  | _ => exact carry_aside role alone actor fine rfl fun _ => rfl

end

/-- An error on its way is handled by the acts that catch errors, and by no other. -/
theorem carry_unwind {e : Failure} (alone : w.leads = [])
    (faulty : f.fault = some e) :
    Carry (w.unwind f e a) (if a.catches then none else some e) := by
  cases a with
  | loaded scene => exact carry_resume alone rfl
  | silence channel =>
    refine carry_resume ?_ rfl
    exact leads_of_keeps ((keeps_remark w _).trans (keeps_silence _ channel)) alone
  | _ =>
    obtain ⟨w₁, f', kept, same, -, -, -, fault⟩ := unwind_resumes w f e _
    rw [same]
    refine carry_resume (leads_of_keeps kept alone) ?_
    rcases fault with stays | ⟨catches, -⟩
    · exact stays.trans faulty
    · cases catches

/-- Whoever is about to hear an answer has not been forgotten. -/
theorem Desk.keeps (desk : w.Desk pick) {l : Lead} {receiver : Nat} {options : List String}
    (leads : w.leads = [l]) (todo : l.todo = .answer receiver options :: after) :
    w.slot.receipt receiver = .waiting ∨ ∃ i, w.slot.receipt receiver = .answered i := by
  have among : l ∈ w.leads := by rw [leads]; exact List.mem_singleton.mpr rfl
  have own {acts : List Act} {waits : Wait → Prop} (doing : w.Doing acts waits) :
      .answer receiver options :: after <:+ acts := by
    obtain ⟨l', leads', -, -, suffix⟩ := doing.lead
    rw [leads] at leads'
    cases leads'
    exact todo ▸ suffix
  cases desk with
  | bare _ silent =>
    have replies : l.todo.any Act.isReply = true := by
      rw [todo]
      rfl
    rw [silent l among] at replies
    cases replies
  | offered receiver' options' doing _ waiting =>
    rcases Act.suffix_opening (own doing) with ⟨opens, -⟩ | ⟨same, -⟩
    · cases opens
    · cases same
      exact .inl waiting
  | given receiver' options' i doing _ answered =>
    rcases Act.suffix_opening (own doing) with ⟨opens, -⟩ | ⟨same, -⟩
    · cases opens
    · cases same
      exact .inr ⟨i, answered⟩
  | heard options' i doing =>
    have among : Act.answer receiver options ∈ [.resync, .chosen i options'] :=
      (own doing).subset List.mem_cons_self
    cases among with
    | tail _ among =>
      cases among with
      | tail _ among => cases among

theorem raised?_taken (w : World) (f : Fiber) (rest : List Fiber) (r : Run) (a : Act) :
    (w.taken f rest).raised? r a = w.raised? r a := by
  cases a <;> rfl

/-- In a turn of the run's fiber no error comes up but the one that its act raises, and one that was
on its way goes on until an act catches it. -/
theorem fault_turn (play : w.InPlay) (desk : w.Desk pick) (ready : w.ready = f :: rest)
    (role : f.role = .run r) : Carry w.turn (w.faultAfter f r) := by
  have attended := play.order.staged.attended
  obtain ⟨alone, -, busy⟩ := taken_run attended ready role
  have leads : w.leads = [f.leading r] := leads_taken attended ready role
  have going : (w.taken f rest).isCancelled f = false := by rw [isCancelled, role]
  rw [turn_cons ready]
  show Carry ((w.taken f rest).advance f) _
  cases doomed : f.doomed with
  | true =>
    rw [advance, if_pos doomed]
    exact carry_conclude _ role alone rfl
  | false =>
    unfold faultAfter
    cases todo : f.todo with
    | nil =>
      rw [advance, if_neg (by simp [doomed]), if_neg (by simp [going]), todo]
      cases fault : f.fault with
      | none =>
        dsimp only
        rw [fetch, role]
        dsimp only
        split
        · exact carry_conclude _ role alone rfl
        · exact carry_resume alone fault
      | some e => exact carry_conclude _ role alone rfl
    | cons a after =>
      cases fault : f.fault with
      | none =>
        rw [advance_perform doomed going todo fault]
        show Carry _ (w.raised? r a)
        rw [← raised?_taken]
        refine carry_perform (f := { f with todo := after }) role alone rfl fault ?_ busy ?_
        · exact play.screened.sources_pos
        · rintro receiver options rfl
          exact desk.keeps leads todo
      | some e =>
        rw [advance_unwind doomed going todo fault]
        exact carry_unwind (f := { f with todo := after }) alone fault

/-! ### What a pulse makes of the run -/

/-- A pulse leaves the run where it is, or starts it, or is a turn of its fiber. -/
inductive Acted (w : World) (p : Pulse) : Prop where
  | beside : Plot.Touches w.plot (w.pulse p).plot → Acted w p
  | starts {n : Nat} {brief : (HostStep.execute n).isBrief = true} {q q' : Program} :
      p = .host (.execute n) brief → w.state.executing = false → w.programs[n]? = some q →
      q.preprocess = .ok q' → (w.apply (.execute n)).2 = .number w.runs →
      (w.pulse p).plot = w.plot.starts n q' → Acted w p
  | plays {f : Fiber} {rest : List Fiber} {r : Run} : p = .turn → w.ready = f :: rest →
      f.role = .run r → Plot.Plays (f.leading r) w.plot (w.pulse p).plot →
      Carry (w.pulse p) (w.faultAfter f r) → Acted w p

theorem acted_turn (play : w.InPlay) (desk : w.Desk pick) : Acted w .turn := by
  have attended := play.order.staged.attended
  cases ready : w.ready with
  | nil =>
    have same : w.turn = w := by rw [World.turn, ready]
    exact .beside (by rw [show w.pulse .turn = w from same]; exact .refl _)
  | cons f rest =>
    cases run : f.run? with
    | none =>
      have background : f.isRun = false := by simp [Fiber.isRun, run]
      exact .beside (touches_turn play.order.crewed attended ready background).1
    | some r =>
      have role := role_of_run? run
      rcases (turned_turn attended ready role).1 with plays | ⟨same, -⟩
      · exact .plays rfl ready role plays (fault_turn play desk ready role)
      · exact .beside (by rw [show (w.pulse .turn).plot = w.plot from same]; exact .refl _)

theorem acted (o : Opening) (ps : List Pulse) (p : Pulse) : Acted (o.world.pulses ps) p := by
  have play := inPlay_pulses o ps
  obtain ⟨h, handing⟩ := handing_pulses o ps
  generalize o.world.pulses ps = w at play handing
  have attended := play.order.staged.attended
  cases p with
  | turn => exact acted_turn play handing.desk
  | publish delta keys => exact .beside ((keeps_publish w delta keys).touches attended.1)
  | pass span => exact .beside ((keeps_reach w _).touches attended.1)
  | host s brief =>
    by_cases execute : ∃ n, s = .execute n
    · obtain ⟨n, rfl⟩ := execute
      rcases execute_cases_plot w n play.order.actor attended with
        ⟨-, -, touched⟩ | ⟨q, q', idle, found, done, -, result, plot⟩
      · exact .beside touched
      · exact .starts rfl idle found done result plot
    · exact .beside (brief_turns w brief (fun n same => execute ⟨n, same⟩) play.order.crewed
        play.order.actor attended).1

end World

/-! ### The feed stays open -/

/-- Deeds that tell of the end of the feed. -/
def Deed.tellsOfClosing : Deed → Bool
  | .event (.aborted .frameSourceClosed) | .outcome _ (.failed .frameSourceClosed) => true
  | _ => false

theorem Deed.tellsOfClosing_of_isIdle {d : Deed} (idle : d.isIdle = true) :
    d.tellsOfClosing = false := by
  cases d with
  | event e =>
    obtain rfl : e = .countdownTimedOut := by simpa [isIdle] using idle
    rfl
  | outcome => cases idle
  | _ => rfl

namespace Plot

variable {p p' : Plot} {l : Lead}

/-- No run has come upon the end of the feed. -/
structure Fed (p : Plot) : Prop where
  leads : ∀ l ∈ p.leads, l.fault ≠ some .frameSourceClosed
  story : ∀ e ∈ p.story, e.deed.tellsOfClosing = false

theorem Fed.story_append (h : p.Fed) {es : List Entry}
    (told : ∀ e ∈ es, e.deed.tellsOfClosing = false) :
    ∀ e ∈ p.story ++ es, e.deed.tellsOfClosing = false := fun e member =>
  (List.mem_append.mp member).elim (h.story e) (told e)

theorem Fed.touches (h : p.Fed) (touched : Touches p p') : p'.Fed := by
  obtain ⟨notes, story, noted⟩ := touched.story
  refine ⟨touched.leads ▸ h.leads, story ▸ h.story_append fun e member => ?_⟩
  obtain ⟨n, note⟩ := noted e member
  rw [note]
  rfl

theorem Fed.ends (h : p.Fed) {o : Outcome} (other : o ≠ .failed .frameSourceClosed) :
    ∀ e ∈ (p.ends l o).story, e.deed.tellsOfClosing = false := by
  have event : (Deed.event o.event).tellsOfClosing = false ∧
      (Deed.outcome l.run.number o).tellsOfClosing = false := by
    cases o with
    | failed e =>
      cases e with
      | frameSourceClosed => exact absurd rfl other
      | _ => exact ⟨rfl, rfl⟩
    | _ => exact ⟨rfl, rfl⟩
  refine h.story_append fun e member => ?_
  simp only [List.mem_cons, List.not_mem_nil, or_false] at member
  rcases member with rfl | rfl | rfl | rfl
  · rfl
  · rfl
  · exact event.1
  · exact event.2

/-- A turn of the run tells of the end of the feed only if that is the error on its way. -/
theorem Fed.story_plays (h : p.Fed) (among : l ∈ p.leads) (plays : Plays l p p') :
    ∀ e ∈ p'.story, e.deed.tellsOfClosing = false := by
  have tells (p : Plot) (h : p.Fed) (l' : Lead) {d : Deed} (told : d.tellsOfClosing = false) :
      ∀ e ∈ ((p.tell l d).lead l').story, e.deed.tellsOfClosing = false :=
    h.story_append fun e member => by rw [List.mem_singleton.mp member]; exact told
  cases plays with
  | completes | stops => exact h.ends nofun
  | fails todo fault => exact h.ends fun same => h.leads l among (by cases same; exact fault)
  | breaks text touched => exact (h.touches touched).ends nofun
  | @fetches c settings page =>
    refine h.story_append fun e member => ?_
    rw [List.mem_singleton.mp member]
    rfl
  | shows | chooses | holds | turns | switches | unheard => exact tells p h _ rfl
  | calls _ _ touched => exact tells _ (h.touches touched) _ rfl
  | _ => exact h.story

end Plot

namespace World

variable {w : World} {f : Fiber} {r : Run}

theorem faultAfter_ne_closed (h : w.plot.Fed) (lead : f.leading r ∈ w.leads) :
    w.faultAfter f r ≠ some .frameSourceClosed := by
  have raised (a : Act) : w.raised? r a ≠ some .frameSourceClosed := by
    cases a with
    | offer | branch | switch | action =>
      simp only [raised?, overfull?, missing?]
      split <;> simp
    | load job =>
      simp only [raised?, rejected?]
      split
      · simp
      · simp
      · split <;> simp
    | enterScene scene =>
      simp only [raised?, unentered?]
      repeat' split
      all_goals simp
    | goto label =>
      simp only [raised?, Program.resolve]
      split <;> simp [failure?]
    | _ => simp [raised?]
  have calm : f.fault ≠ some .frameSourceClosed := h.leads _ lead
  unfold faultAfter
  split
  · exact calm
  · exact raised _
  · split
    · simp
    · rename_i e fault _
      exact fault ▸ calm

theorem fed_pulses (o : Opening) (ps : List Pulse) : (o.world.pulses ps).plot.Fed := by
  refine (inPlay_opening o).induction (P := fun _ w => w.plot.Fed) ?_
    (fun ps p play h => ?_) ps
  · constructor <;> simp [plot, leads, fibers, story, entries, Opening.world, new]
  cases acted o ps p with
  | beside touched => exact h.touches touched
  | starts _ _ _ _ _ plot =>
    rw [plot]
    refine ⟨?_, h.story_append fun e member => ?_⟩
    · intro l member
      obtain rfl := List.mem_singleton.mp member
      simp
    · simp only [List.mem_cons, List.not_mem_nil, or_false] at member
      rcases member with rfl | rfl | rfl <;> rfl
  | @plays f rest r turn ready role plays carry =>
    have lead : f.leading r ∈ (o.world.pulses ps).leads := by
      rw [show (o.world.pulses ps).leads = _ from
        leads_taken play.order.staged.attended ready role]
      exact List.mem_singleton.mpr rfl
    exact ⟨fun l among => carry l among ▸ faultAfter_ne_closed h lead, h.story_plays lead plays⟩

/-- The feed does not depend on the host. When the host lets go of it, whoever reads it still gets
its frames or waits, and fibers that all wait stay as they are. -/
structure HeldOpen (w : World) : Prop where
  reads : ∀ c, w.feed.pull c ≠ .closed
  /-- A world at rest stays so, and what is gone is a handle of the host, not the last one. -/
  waits : w.ready = [] → ∃ sources, 0 < sources ∧
    (w.apply .dropClock).1.settle = { w with feed := { w.feed with sources } }
  /-- The end of the feed is no event, and no run fails of it. -/
  silent : ∀ e ∈ w.entries, e.deed ≠ .event (.aborted .frameSourceClosed) ∧
    ∀ run, e.deed ≠ .outcome run (.failed .frameSourceClosed)

theorem dropClock_eq (screened : w.Screened) : ∃ sources, 0 < sources ∧
    w.dropClock = { w with feed := { w.feed with sources } } := by
  have kept := w.keptSources_pos
  unfold dropClock
  split
  · rename_i spare
    exact ⟨_, by omega, rfl⟩
  · exact ⟨w.feed.sources, screened.sources_pos, rfl⟩

/-- Whatever the host does, the player keeps its own handles on the feed: no run ever comes upon the
end of it, and one that waits for a frame waits on when the host has let go. -/
theorem feed_stays_open (o : Opening) (ps : List Pulse) : (o.world.pulses ps).HeldOpen := by
  have screened := (inPlay_pulses o ps).screened
  have fed := fed_pulses o ps
  generalize o.world.pulses ps = w at screened fed
  refine ⟨fun c => Feed.pull_ne_closed c screened.sources_pos, fun rest => ?_, fun e among => ?_⟩
  · obtain ⟨sources, some, dropped⟩ := dropClock_eq screened
    refine ⟨sources, some, ?_⟩
    rw [show (w.apply .dropClock).1 = w.dropClock from rfl, dropped]
    exact settle_of_rest rest
  · have silent : e.deed.tellsOfClosing = false := by
      cases idle : e.deed.isIdle with
      | true => exact e.deed.tellsOfClosing_of_isIdle idle
      | false => exact fed.story e (List.mem_filter.mpr ⟨among, by simp [idle]⟩)
    constructor
    · intro event
      rw [event] at silent
      cases silent
    · intro run outcome
      rw [outcome] at silent
      cases silent

/-- A run that waits for a frame is not ended by a host that lets go of the feed. -/
theorem letting_go_ends_nothing :
    let o : Opening := ⟨default, default, 8, default, .empty, [[.wait ⟨5⟩]]⟩
    let w := o.world.after (.host (.execute 0) :: List.replicate 3 .turn)
    (∃ b ∈ w.blocked, b.fiber.isRun = true ∧ b.wait = .frame) ∧ w.ready = [] ∧
      (w.apply .dropClock).1.settle.state.executing = true ∧
      ∀ e ∈ (w.apply .dropClock).1.settle.entries, ∀ run out, e.deed ≠ .outcome run out := by
  intro o w
  have here : (w.blocked.any fun b => b.fiber.isRun && b.wait == .frame) = true ∧
      w.ready.isEmpty = true ∧ (w.apply .dropClock).1.ready.isEmpty = true ∧
      (w.apply .dropClock).1.state.executing = true ∧
      ((w.apply .dropClock).1.entries.all fun e => e.deed.outcome?.isNone) = true := by
    decide +kernel
  generalize w.apply .dropClock = dropped at here ⊢
  obtain ⟨waits, rest, rest', running, silent⟩ := here
  have rest := List.isEmpty_iff.mp rest
  have still : dropped.1.settle = dropped.1 := settle_of_rest (List.isEmpty_iff.mp rest')
  obtain ⟨b, parked, waits⟩ := List.any_eq_true.mp waits
  obtain ⟨run, wait⟩ := Bool.and_eq_true_iff.mp waits
  rw [still]
  refine ⟨⟨b, parked, run, beq_iff_eq.mp wait⟩, rest, running, fun e among run out deed => ?_⟩
  have none := List.all_eq_true.mp silent e among
  rw [deed] at none
  cases none

end World

end SceneScript
