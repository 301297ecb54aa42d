import Mathlib.Data.List.Induction
import SceneScript.Offer
/-!
Every history of a slot, told by the steps that made it: a receiver gets the index of the one selection
that was accepted while it was the latest one, and nobody else gets anything
(`receivers_are_answered_once`).
-/

namespace SceneScript

namespace ChoiceSlot

variable {s : ChoiceSlot} {steps before later : List Step} {step last : Step} {k n m i j : Nat}

/-! ### Histories -/

namespace Step

def isOffer : Step → Bool
  | .offer _ => true
  | _ => false

/-- Whoever waits for an answer waits in vain from here on. -/
def overtakes : Step → Bool
  | .offer _ | .close => true
  | _ => false

end Step

/-- The slot these steps leave behind. -/
def after (steps : List Step) : ChoiceSlot := steps.foldl (fun s step => (s.apply step).1) empty

/-- The answer to a step made after these. -/
def replied (before : List Step) (step : Step) : Reply := ((after before).apply step).2

/-- In the history `steps`, the step came right after `before`. -/
def Made (steps before : List Step) (step : Step) : Prop := before ++ [step] <+: steps

/-- The number of receivers handed out, and the number of the next one. -/
def opened (steps : List Step) : Nat := steps.countP Step.isOffer

/-- Receiver `k`, with `n` options, is the latest one, and nothing was closed since it was opened. -/
def Current (steps : List Step) (k n : Nat) : Prop :=
  ∃ earlier later, steps = earlier ++ .offer n :: later ∧ opened earlier = k ∧
    ∀ step ∈ later, step.overtakes = false

/-- A selection was accepted, of one of the options of receiver `k`, the latest one. -/
structure Answers (steps before : List Step) (k i : Nat) : Prop where
  made : Made steps before (.select i)
  accepted : replied before (.select i) = .done
  current : ∃ n, Current before k n ∧ i < n

def Dropped (steps : List Step) (k : Nat) : Prop :=
  ∃ before, Made steps before (.drop k) ∧ k < opened before

/-- Receiver `k` was asked and gave this. -/
def Gives (steps : List Step) (k : Nat) (reply : Reply) : Prop :=
  ∃ before, Made steps before (.receive k) ∧ replied before (.receive k) = reply

/-- Whoever holds receiver `k` has been given this or is given it now. -/
def Resolves (steps : List Step) (k : Nat) (reply : Reply) : Prop :=
  Gives (steps ++ [.receive k]) k reply

@[simp] theorem after_concat (steps : List Step) (step : Step) :
    after (steps ++ [step]) = ((after steps).apply step).1 := by
  simp [after]

@[simp] theorem opened_concat (steps : List Step) (step : Step) :
    opened (steps ++ [step]) = opened steps + if step.isOffer then 1 else 0 := by
  simp [opened, List.countP_append, List.countP_singleton]

theorem opened_le_append (steps later : List Step) : opened steps ≤ opened (steps ++ later) := by
  simp [opened, List.countP_append]

theorem lt_opened_append (bound : k < opened steps) (later : List Step) :
    k < opened (steps ++ later) :=
  Nat.lt_of_lt_of_le bound (opened_le_append steps later)

theorem made_concat : Made (steps ++ [last]) before step ↔
    Made steps before step ∨ before = steps ∧ step = last := by
  unfold Made
  rw [List.prefix_concat_iff, or_comm]
  simp

theorem Made.mono (made : Made steps before step) (later : List Step) :
    Made (steps ++ later) before step :=
  made.trans (List.prefix_append _ _)

/-- Of two steps of one history, one came first, unless they are the same. -/
theorem Made.cases {before' : List Step} {step' : Step} (made : Made steps before step)
    (made' : Made steps before' step') :
    before = before' ∨ before ++ [step] <+: before' ∨ before' ++ [step'] <+: before := by
  have inside : before <+: steps := (List.prefix_append _ _).trans made
  have inside' : before' <+: steps := (List.prefix_append _ _).trans made'
  rcases Nat.lt_trichotomy before.length before'.length with shorter | same | longer
  · have le : (before ++ [step]).length ≤ before'.length := by
      rwa [List.length_append, List.length_singleton]
    exact .inr (.inl (List.prefix_of_prefix_length_le made inside' le))
  · have whole := List.prefix_of_prefix_length_le inside inside' (Nat.le_of_eq same)
    exact .inl (whole.eq_of_length same)
  · have le : (before' ++ [step']).length ≤ before.length := by
      rwa [List.length_append, List.length_singleton]
    exact .inr (.inr (List.prefix_of_prefix_length_le made' inside le))

theorem current_concat : Current (steps ++ [last]) k n ↔
    last = .offer n ∧ opened steps = k ∨ last.overtakes = false ∧ Current steps k n := by
  constructor
  · rintro ⟨earlier, later, made, number, calm⟩
    rcases List.eq_nil_or_concat later with rfl | ⟨later, step, rfl⟩
    · obtain ⟨rfl, same⟩ := List.append_inj' made rfl
      exact .inl ⟨List.singleton_inj.mp same, number⟩
    · rw [List.concat_eq_append, ← List.cons_append, ← List.append_assoc] at made
      obtain ⟨rfl, same⟩ := List.append_inj' made rfl
      obtain rfl := List.singleton_inj.mp same
      have before (x : Step) (member : x ∈ later) : x.overtakes = false := calm x (by simp [member])
      exact .inr ⟨calm _ (by simp), earlier, later, rfl, number, before⟩
  · rintro (⟨rfl, number⟩ | ⟨still, earlier, later, rfl, number, calm⟩)
    · exact ⟨steps, [], rfl, number, by simp⟩
    · refine ⟨earlier, later ++ [last], by simp, number, fun step member => ?_⟩
      rcases List.mem_append.mp member with member | member
      · exact calm step member
      · exact List.mem_singleton.mp member ▸ still

theorem Current.opened_eq (current : Current steps k n) : opened steps = k + 1 := by
  induction steps using List.reverseRecOn with
  | nil =>
    obtain ⟨earlier, later, made, -⟩ := current
    simp at made
  | append_singleton steps last ih =>
    rcases current_concat.mp current with ⟨rfl, rfl⟩ | ⟨still, current⟩
    · simp [Step.isOffer]
    · have other : last.isOffer = false := by
        cases last <;> first | rfl | cases still
      simp [other, ih current]

theorem Current.lt_opened (current : Current steps k n) : k < opened steps := by
  rw [current.opened_eq]
  exact Nat.lt_succ_self k

theorem Current.unique (first : Current steps k n) (second : Current steps j m) :
    k = j ∧ n = m := by
  have same : k = j := by have := first.opened_eq; have := second.opened_eq; omega
  refine ⟨same, ?_⟩
  induction steps using List.reverseRecOn with
  | nil =>
    obtain ⟨earlier, later, made, -⟩ := first
    simp at made
  | append_singleton steps last ih =>
    rcases current_concat.mp first with ⟨rfl, -⟩ | ⟨still, current⟩
    · rcases current_concat.mp second with ⟨same, -⟩ | ⟨still, -⟩
      · exact Step.offer.inj same
      · cases still
    · rcases current_concat.mp second with ⟨rfl, -⟩ | ⟨-, current'⟩
      · cases still
      · exact ih current current'

/-! ### What one step does -/

theorem receipt_of_mark (s : ChoiceSlot) (j k : Nat) (r : Receipt) :
    (s.mark j r).receipt k = if j = k ∧ k < s.receipts.size then r else s.receipt k := by
  simp only [receipt, mark, Array.getD_eq_getD_getElem?, Array.getElem?_setIfInBounds]
  by_cases same : j = k
  · subst same
    by_cases bound : j < s.receipts.size <;> simp [bound]
  · simp [same]

theorem lt_size_of_receipt (known : s.receipt k ≠ .dropped) : k < s.receipts.size := by
  by_contra outside
  refine known ?_
  rw [receipt, Array.getD_eq_getD_getElem?, Array.getElem?_eq_none (Nat.not_lt.mp outside)]
  rfl

theorem size_mark (s : ChoiceSlot) (j : Nat) (r : Receipt) :
    (s.mark j r).receipts.size = s.receipts.size := by
  simp [mark]

theorem size_close (s : ChoiceSlot) : s.close.receipts.size = s.receipts.size := by
  unfold close
  split
  · rfl
  · split <;> simp [size_mark]

theorem size_apply (s : ChoiceSlot) (step : Step) :
    (s.apply step).1.receipts.size = s.receipts.size + if step.isOffer then 1 else 0 := by
  cases step with
  | offer n => simp [apply, offer, Step.isOffer, size_close]
  | close => exact size_close s
  | select i =>
    unfold apply select
    split <;> grind [size_mark, Step.isOffer]
  | drop j => simp [apply, drop, size_mark, Step.isOffer]
  | receive j =>
    unfold apply
    split <;> grind [size_mark, Step.isOffer]

theorem pending_close (s : ChoiceSlot) : s.close.pending = none := by
  unfold close
  split
  · assumption
  · rfl

/-- Only the latest receiver can be waiting, and only for the offer that is open. -/
structure Kept (s : ChoiceSlot) (steps : List Step) : Prop where
  size : s.receipts.size = opened steps
  pending : ∀ offer, s.pending = some offer → Current steps offer.receiver offer.available
  waiting : ∀ k, s.receipt k = .waiting → ∃ n, s.pending = some ⟨k, n⟩

/-- What a step and its reply make of the receipt of receiver `k`. A selection that was accepted is
for whoever waits. -/
def nextReceipt (k : Nat) (step : Step) (reply : Reply) (r : Receipt) : Receipt :=
  if step = .drop k ∧ r ≠ .dropped then .dropped
  else match r, step with
    | .waiting, .offer _ | .waiting, .close => .abandoned
    | .waiting, .select i => if reply = .done then .answered i else .waiting
    | .answered i, .receive j => if j = k then .spent else .answered i
    | .abandoned, .receive j => if j = k then .spent else .abandoned
    | r, _ => r

theorem waiting_of_nextReceipt {reply : Reply} {r : Receipt}
    (waiting : nextReceipt k step reply r = .waiting) : r = .waiting ∧ step.overtakes = false := by
  unfold nextReceipt at waiting
  cases step <;> grind [Step.overtakes]

theorem Kept.receipt_close (kept : Kept s steps) (k : Nat) :
    s.close.receipt k = if s.receipt k = .waiting then .abandoned else s.receipt k := by
  unfold close
  cases pending : s.pending with
  | none =>
    have calm : s.receipt k ≠ .waiting := fun waiting => by
      obtain ⟨n, here⟩ := kept.waiting k waiting
      rw [pending] at here
      cases here
    rw [if_neg calm]
  | some offer =>
    dsimp only
    have alone : s.receipt k = .waiting → offer.receiver = k := fun waiting => by
      obtain ⟨n, here⟩ := kept.waiting k waiting
      rw [pending] at here
      cases here
      rfl
    by_cases waiting : s.receipt k = .waiting
    · obtain rfl := alone waiting
      have bound : offer.receiver < s.receipts.size :=
        lt_size_of_receipt (by rw [waiting]; exact Receipt.noConfusion)
      rw [if_pos waiting, if_pos waiting]
      exact (receipt_of_mark s _ _ _).trans (if_pos ⟨rfl, bound⟩)
    · rw [if_neg waiting]
      split
      · rename_i other
        refine (receipt_of_mark s _ _ _).trans (if_neg ?_)
        rintro ⟨rfl, -⟩
        exact waiting other
      · rfl

theorem select_nothing (nothing : s.pending = none) (i : Nat) :
    s.apply (.select i) = (s, .failed .noPendingChoice) := by
  simp only [apply, select, nothing]

theorem select_outside {offer : Offer} (pending : s.pending = some offer)
    (outside : offer.available ≤ i) :
    s.apply (.select i) = (s, .failed (.choiceOutOfRange i offer.available)) := by
  simp only [apply, select, pending, if_pos outside]

theorem select_heard {offer : Offer} (pending : s.pending = some offer) (within : i < offer.available)
    (waiting : s.receipt offer.receiver = .waiting) :
    s.apply (.select i) =
      ({ s.mark offer.receiver (.answered i) with pending := none }, .done) := by
  simp only [apply, select, pending, if_neg (Nat.not_le.mpr within), if_pos waiting]

theorem select_unheard {offer : Offer} (pending : s.pending = some offer)
    (within : i < offer.available) (gone : s.receipt offer.receiver ≠ .waiting) :
    s.apply (.select i) = ({ s with pending := none }, .failed .noPendingChoice) := by
  simp only [apply, select, pending, if_neg (Nat.not_le.mpr within), if_neg gone]

@[simp] theorem nextReceipt_select (k i : Nat) (reply : Reply) (r : Receipt) :
    nextReceipt k (.select i) reply r =
      if reply = .done ∧ r = .waiting then .answered i else r := by
  unfold nextReceipt
  grind

theorem Kept.receipt_select (kept : Kept s steps) (i k : Nat) :
    (s.apply (.select i)).1.receipt k =
      nextReceipt k (.select i) (s.apply (.select i)).2 (s.receipt k) := by
  rw [nextReceipt_select]
  cases pending : s.pending with
  | none => simp [select_nothing pending]
  | some offer =>
    by_cases within : i < offer.available
    · by_cases waiting : s.receipt offer.receiver = .waiting
      · rw [select_heard pending within waiting]
        have bound : offer.receiver < s.receipts.size :=
          lt_size_of_receipt (by rw [waiting]; exact Receipt.noConfusion)
        refine (receipt_of_mark s _ _ _).trans ?_
        by_cases here : offer.receiver = k
        · subst here
          simp [bound, waiting]
        · have other : s.receipt k ≠ .waiting := fun waiting => by
            obtain ⟨n, there⟩ := kept.waiting k waiting
            rw [pending] at there
            cases there
            exact here rfl
          simp [here, other]
      · simp [select_unheard pending within waiting, receipt]
    · simp [select_outside pending (Nat.not_lt.mp within)]

/-- What a step does to a receiver that was handed out before it. -/
theorem Kept.receipt_apply (kept : Kept s steps) (bound : k < s.receipts.size) (step : Step) :
    (s.apply step).1.receipt k = nextReceipt k step (s.apply step).2 (s.receipt k) := by
  have closed := kept.receipt_close k
  cases step with
  | offer n =>
    have size := size_close s
    have old : (s.apply (.offer n)).1.receipt k = s.close.receipt k := by
      simp only [apply, offer, receipt, Array.getD_eq_getD_getElem?]
      rw [Array.getElem?_push_lt (by omega), Array.getElem?_eq_getElem (by omega)]
    rw [old, closed]
    cases s.receipt k <;> simp [nextReceipt]
  | close =>
    refine closed.trans ?_
    cases s.receipt k <;> simp [nextReceipt]
  | select i => exact kept.receipt_select i k
  | drop j =>
    refine (receipt_of_mark s j k .dropped).trans ?_
    by_cases same : j = k
    · cases s.receipt k <;> simp [nextReceipt, same, bound]
    · cases s.receipt k <;> simp [nextReceipt, same]
  | receive j =>
    by_cases same : j = k
    · subst same
      cases r : s.receipt j <;> simp [nextReceipt, apply, r, receipt_of_mark, bound]
    · have other : (s.apply (.receive j)).1.receipt k = s.receipt k := by
        unfold apply
        dsimp only
        split <;> simp [receipt_of_mark, same]
      rw [other]
      cases s.receipt k <;> simp [nextReceipt, same]

/-- An offer stays open until something overtakes it or one of its options is selected. -/
theorem pending_apply (s : ChoiceSlot) (step : Step) :
    (s.apply step).1.pending = match step with
      | .offer n => some ⟨s.receipts.size, n⟩
      | .close => none
      | .select i => s.pending.filter fun offer => offer.available ≤ i
      | .drop _ | .receive _ => s.pending := by
  cases step with
  | offer n => simp [apply, offer, size_close]
  | close => exact pending_close s
  | select i =>
    unfold apply select
    cases pending : s.pending <;> grind
  | drop j => rfl
  | receive j =>
    unfold apply
    dsimp only
    split <;> rfl

theorem Kept.apply (kept : Kept s steps) (step : Step) :
    Kept (s.apply step).1 (steps ++ [step]) where
  size := by rw [size_apply, opened_concat, kept.size]
  pending offer open' := by
    rw [pending_apply] at open'
    rw [current_concat]
    cases step with
    | offer n =>
      cases open'
      exact .inl ⟨rfl, kept.size.symm⟩
    | close => cases open'
    | select i => exact .inr ⟨rfl, kept.pending offer (Option.eq_some_of_filter_eq_some open')⟩
    | drop j => exact .inr ⟨rfl, kept.pending offer open'⟩
    | receive j => exact .inr ⟨rfl, kept.pending offer open'⟩
  waiting k waiting := by
    have known : k < (s.apply step).1.receipts.size :=
      lt_size_of_receipt (by rw [waiting]; exact Receipt.noConfusion)
    rw [size_apply] at known
    rw [pending_apply]
    by_cases bound : k < s.receipts.size
    · rw [kept.receipt_apply bound] at waiting
      obtain ⟨before, calm⟩ := waiting_of_nextReceipt waiting
      obtain ⟨n, pending⟩ := kept.waiting k before
      cases step with
      | offer m => cases calm
      | close => cases calm
      | drop j => exact ⟨n, pending⟩
      | receive j => exact ⟨n, pending⟩
      | select i =>
        have outside : n ≤ i := by
          by_contra within
          rw [select_heard pending (Nat.not_le.mp within) before, before] at waiting
          simp at waiting
        exact ⟨n, by simp [pending, outside]⟩
    · cases step with
      | offer m =>
        simp only [Step.isOffer, if_true] at known
        exact ⟨m, by rw [show k = s.receipts.size by omega]⟩
      | _ =>
        simp only [Step.isOffer, Bool.false_eq_true, if_false] at known
        omega

theorem kept_after (steps : List Step) : Kept (after steps) steps := by
  induction steps using List.reverseRecOn with
  | nil => exact ⟨rfl, by simp [after, empty], by simp [after, empty, receipt]⟩
  | append_singleton steps step ih =>
    rw [after_concat]
    exact ih.apply step

/-! ### One receiver through a history -/

theorem receipt_concat (bound : k < opened steps) (step : Step) :
    (after (steps ++ [step])).receipt k =
      nextReceipt k step (replied steps step) ((after steps).receipt k) := by
  rw [after_concat]
  exact (kept_after steps).receipt_apply (by rwa [(kept_after steps).size]) step

theorem receipt_opened (steps : List Step) (n : Nat) :
    (after (steps ++ [.offer n])).receipt (opened steps) = .waiting := by
  have size := (kept_after steps).size
  rw [after_concat]
  simp only [apply, offer, receipt, Array.getD_eq_getD_getElem?]
  rw [← size, ← size_close, Array.getElem?_push_size]
  rfl

theorem lt_opened_of_waiting (waiting : (after steps).receipt k = .waiting) : k < opened steps := by
  rw [← (kept_after steps).size]
  exact lt_size_of_receipt (by rw [waiting]; exact Receipt.noConfusion)

theorem receipt_unopened (unopened : opened steps ≤ k) : (after steps).receipt k = .dropped := by
  by_contra known
  have := lt_size_of_receipt known
  have := (kept_after steps).size
  omega

/-- The life of a receiver: the time before it is handed out, its offer, and every step after that. -/
theorem receiver_induction {motive : List Step → Prop} (k : Nat)
    (unopened : ∀ steps, opened steps ≤ k → motive steps)
    (opens : ∀ steps n, opened steps = k → motive (steps ++ [.offer n]))
    (next : ∀ steps step, k < opened steps → motive steps → motive (steps ++ [step]))
    (steps : List Step) : motive steps := by
  induction steps using List.reverseRecOn with
  | nil => exact unopened [] (Nat.zero_le k)
  | append_singleton steps step ih =>
    rcases Nat.lt_trichotomy k (opened steps) with before | here | later
    · exact next steps step before ih
    · cases step with
      | offer n => exact opens steps n here.symm
      | _ => exact unopened _ (by rw [opened_concat]; simp [Step.isOffer, here])
    · exact unopened _ (by rw [opened_concat]; split <;> omega)

/-- A selection is accepted exactly if somebody waits for one of these indices. -/
theorem accepted_iff : replied before (.select i) = .done ↔
    ∃ k n, Current before k n ∧ i < n ∧ (after before).receipt k = .waiting := by
  have kept := kept_after before
  unfold replied
  constructor
  · intro accepted
    cases pending : (after before).pending with
    | none => rw [select_nothing pending] at accepted; cases accepted
    | some offer =>
      by_cases within : i < offer.available
      · by_cases waiting : (after before).receipt offer.receiver = .waiting
        · exact ⟨_, _, kept.pending offer pending, within, waiting⟩
        · rw [select_unheard pending within waiting] at accepted
          cases accepted
      · rw [select_outside pending (Nat.not_lt.mp within)] at accepted
        cases accepted
  · rintro ⟨k, n, current, within, waiting⟩
    obtain ⟨n', pending⟩ := kept.waiting k waiting
    obtain ⟨-, rfl⟩ := current.unique (kept.pending _ pending)
    rw [select_heard pending within waiting]

/-- The accepted selection was for whoever waited. -/
theorem answers_iff : Answers steps before k i ↔
    Made steps before (.select i) ∧ replied before (.select i) = .done ∧
      (after before).receipt k = .waiting := by
  constructor
  · rintro ⟨made, accepted, n, current, within⟩
    obtain ⟨k', n', current', -, waiting⟩ := accepted_iff.mp accepted
    obtain ⟨rfl, -⟩ := current.unique current'
    exact ⟨made, accepted, waiting⟩
  · rintro ⟨made, accepted, waiting⟩
    obtain ⟨k', n, current, within, waiting'⟩ := accepted_iff.mp accepted
    obtain ⟨m, pending⟩ := (kept_after before).waiting k waiting
    obtain ⟨m', pending'⟩ := (kept_after before).waiting k' waiting'
    rw [pending] at pending'
    cases pending'
    exact ⟨made, accepted, n, current, within⟩

theorem Answers.mono (answers : Answers steps before k i) (later : List Step) :
    Answers (steps ++ later) before k i :=
  ⟨answers.made.mono later, answers.accepted, answers.current⟩

theorem answered_of_nextReceipt {reply : Reply} {r : Receipt}
    (answered : nextReceipt k step reply r = .answered i) :
    r = .answered i ∨ r = .waiting ∧ step = .select i ∧ reply = .done := by
  unfold nextReceipt at answered
  cases step <;> grind

theorem answers_of_receipt (answered : (after steps).receipt k = .answered i) :
    ∃ before, Answers steps before k i := by
  induction steps using receiver_induction k with
  | unopened steps unopened =>
    rw [receipt_unopened unopened] at answered
    cases answered
  | opens steps n number =>
    rw [← number, receipt_opened] at answered
    cases answered
  | next steps step bound ih =>
    rw [receipt_concat bound] at answered
    rcases answered_of_nextReceipt answered with before | ⟨waiting, rfl, accepted⟩
    · obtain ⟨before, answers⟩ := ih before
      exact ⟨before, answers.mono _⟩
    · exact ⟨steps, answers_iff.mpr ⟨List.prefix_rfl, accepted, waiting⟩⟩

/-- A receiver that is no longer waiting does not wait again. -/
theorem settled_of_prefix (inside : before <+: steps) (bound : k < opened before)
    (settled : (after before).receipt k ≠ .waiting) : (after steps).receipt k ≠ .waiting := by
  obtain ⟨later, rfl⟩ := inside
  induction later using List.reverseRecOn with
  | nil => rwa [List.append_nil]
  | append_singleton later step ih =>
    rw [← List.append_assoc, receipt_concat (lt_opened_append bound _)]
    exact fun waiting => ih (waiting_of_nextReceipt waiting).1

theorem Answers.lt_opened (answers : Answers steps before k i) : k < opened before := by
  obtain ⟨-, -, waiting⟩ := answers_iff.mp answers
  exact lt_opened_of_waiting waiting

/-- What a selection that is accepted leaves in the hands of the one that waited. -/
theorem Answers.receipt_eq (answers : Answers steps before k i) :
    (after (before ++ [.select i])).receipt k = .answered i := by
  obtain ⟨-, accepted, waiting⟩ := answers_iff.mp answers
  rw [receipt_concat answers.lt_opened, nextReceipt_select, if_pos ⟨accepted, waiting⟩]

/-- Nobody is answered twice. -/
theorem Answers.unique {before' : List Step} (first : Answers steps before k i)
    (second : Answers steps before' k j) : before = before' := by
  -- A selection that comes after one that answered `k` finds it settled.
  have late {i j : Nat} {before before' : List Step} (first : Answers steps before k i)
      (second : Answers steps before' k j) : ¬ before ++ [.select i] <+: before' := by
    intro inside
    have settled : (after (before ++ [.select i])).receipt k ≠ .waiting := by
      rw [first.receipt_eq]
      exact Receipt.noConfusion
    have bound := lt_opened_append first.lt_opened [.select i]
    exact settled_of_prefix inside bound settled (answers_iff.mp second).2.2
  rcases first.made.cases second.made with same | earlier | later
  · exact same
  · exact absurd earlier (late first second)
  · exact absurd later (late second first)

/-! ### Receivers that are asked, and receivers that are gone -/

theorem Made.step_eq {step' : Step} (made : Made steps before step)
    (made' : Made steps before step') : step = step' := by
  have whole := List.prefix_of_prefix_length_le made made' (by simp)
  simpa using whole.eq_of_length (by simp)

theorem dropped_concat :
    Dropped (steps ++ [step]) k ↔ Dropped steps k ∨ step = .drop k ∧ k < opened steps := by
  simp only [Dropped, made_concat, or_and_right, exists_or]
  grind

theorem gives_concat {reply : Reply} : Gives (steps ++ [step]) k reply ↔
    Gives steps k reply ∨ step = .receive k ∧ replied steps step = reply := by
  simp only [Gives, made_concat, or_and_right, exists_or]
  grind

theorem Gives.mono {reply : Reply} (gives : Gives steps k reply) (later : List Step) :
    Gives (steps ++ later) k reply := by
  obtain ⟨before, made, told⟩ := gives
  exact ⟨before, made.mono later, told⟩

theorem Dropped.mono (dropped : Dropped steps k) (later : List Step) :
    Dropped (steps ++ later) k := by
  obtain ⟨before, made, bound⟩ := dropped
  exact ⟨before, made.mono later, bound⟩

/-- What a receiver says when it is asked. -/
def told : Receipt → Reply
  | .waiting => .pending
  | .answered i => .number i
  | .abandoned => .abandoned
  | .spent | .dropped => .gone

theorem replied_receive (steps : List Step) (k : Nat) :
    replied steps (.receive k) = told ((after steps).receipt k) := by
  simp only [replied, apply]
  split <;> simp only [told, *]

theorem resolves_iff {reply : Reply} : Resolves steps k reply ↔
    Gives steps k reply ∨ told ((after steps).receipt k) = reply := by
  rw [Resolves, gives_concat, replied_receive]
  simp

theorem answers_of_gives (gives : Gives steps k (.number i)) : ∃ before, Answers steps before k i := by
  obtain ⟨before, ⟨later, rfl⟩, reply⟩ := gives
  rw [replied_receive] at reply
  have answered : (after before).receipt k = .answered i := by
    cases r : (after before).receipt k with
    | answered j => rw [r] at reply; cases reply; rfl
    | _ => rw [r] at reply; cases reply
  obtain ⟨earlier, answers⟩ := answers_of_receipt answered
  exact ⟨earlier, List.append_assoc _ _ later ▸ answers.mono _⟩

theorem answers_of_resolves (resolves : Resolves steps k (.number i)) :
    ∃ before, Answers steps before k i := by
  rcases resolves_iff.mp resolves with gives | now
  · exact answers_of_gives gives
  · cases r : (after steps).receipt k with
    | answered j => rw [r] at now; cases now; exact answers_of_receipt r
    | _ => rw [r] at now; cases now

theorem Made.opened_le (made : Made steps before step) : opened before ≤ opened steps := by
  obtain ⟨later, rfl⟩ := made
  exact Nat.le_trans (opened_le_append _ _) (opened_le_append _ _)

theorem nextReceipt_eq_dropped {reply : Reply} {r : Receipt} :
    nextReceipt k step reply r = .dropped ↔ r = .dropped ∨ step = .drop k := by
  unfold nextReceipt
  cases r <;> cases step <;> grind

theorem dropped_iff (bound : k < opened steps) :
    (after steps).receipt k = .dropped ↔ Dropped steps k := by
  induction steps using receiver_induction k with
  | unopened steps unopened => exact absurd bound (Nat.not_lt.mpr unopened)
  | opens steps n number =>
    have fresh : ¬ Dropped steps k := fun ⟨_, made, early⟩ => by
      have := made.opened_le
      omega
    rw [dropped_concat, ← number, receipt_opened, number]
    simp [fresh]
  | next steps step before ih =>
    rw [dropped_concat, receipt_concat before, ← ih before, nextReceipt_eq_dropped]
    simp [before]

/-- An answer, or the news that there will be none, is there until it is read, unless the receiver is
dropped. -/
theorem kept_until_read {r : Receipt} (bound : k < opened steps) (held : (after steps).receipt k = r)
    (kind : r = .abandoned ∨ ∃ i, r = .answered i) (later : List Step) :
    (after (steps ++ later)).receipt k = r ∨ Gives (steps ++ later) k (told r) ∨
      Dropped (steps ++ later) k := by
  induction later using List.reverseRecOn with
  | nil => exact .inl (by rwa [List.append_nil])
  | append_singleton later step ih =>
    have known := lt_opened_append bound later
    rw [← List.append_assoc]
    rcases ih with same | gives | dropped
    · by_cases drops : step = .drop k
      · exact .inr (.inr (dropped_concat.mpr (.inr ⟨drops, known⟩)))
      · by_cases reads : step = .receive k
        · exact .inr (.inl (gives_concat.mpr (.inr ⟨reads, by rw [reads, replied_receive, same]⟩)))
        · refine .inl ?_
          rw [receipt_concat known, same]
          rcases kind with rfl | ⟨i, rfl⟩
          · unfold nextReceipt
            cases step <;> grind
          · unfold nextReceipt
            cases step <;> grind
    · exact .inr (.inl (gives.mono _))
    · exact .inr (.inr (dropped.mono _))

theorem resolves_of_answers (answers : Answers steps before k i) (kept : ¬ Dropped steps k) :
    Resolves steps k (.number i) := by
  obtain ⟨later, rfl⟩ := answers.made
  have bound := lt_opened_append answers.lt_opened [.select i]
  rw [resolves_iff]
  rcases kept_until_read bound answers.receipt_eq (.inr ⟨i, rfl⟩) later with same | gives | dropped
  · exact .inr (by rw [same]; rfl)
  · exact .inl gives
  · exact absurd dropped kept

theorem gives_of_spent (spent : (after steps).receipt k = .spent) :
    Gives steps k .abandoned ∨ ∃ i, Gives steps k (.number i) := by
  induction steps using receiver_induction k with
  | unopened steps unopened => rw [receipt_unopened unopened] at spent; cases spent
  | opens steps n number => rw [← number, receipt_opened] at spent; cases spent
  | next steps step bound ih =>
    by_cases before : (after steps).receipt k = .spent
    · exact (ih before).imp (·.mono _) fun ⟨i, gives⟩ => ⟨i, gives.mono _⟩
    · rw [receipt_concat bound] at spent
      have read : step = .receive k ∧ ((after steps).receipt k = .abandoned ∨
          ∃ i, (after steps).receipt k = .answered i) := by
        unfold nextReceipt at spent
        cases step <;> grind
      obtain ⟨rfl, abandoned | ⟨i, answered⟩⟩ := read
      · exact .inl (gives_concat.mpr (.inr ⟨rfl, by rw [replied_receive, abandoned]; rfl⟩))
      · exact .inr ⟨i, gives_concat.mpr (.inr ⟨rfl, by rw [replied_receive, answered]; rfl⟩)⟩

/-! ### Overtaken receivers -/

/-- What a step that overtakes everybody leaves of a receiver nothing was selected for. -/
theorem overtaken_concat (overtakes : step.overtakes = true) (bound : k < opened steps)
    (unanswered : ∀ before i, ¬ Answers steps before k i) :
    (after (steps ++ [step])).receipt k = .abandoned ∨ Gives steps k .abandoned ∨
      Dropped steps k := by
  rw [receipt_concat bound]
  cases r : (after steps).receipt k with
  | waiting => cases step <;> first | exact .inl rfl | cases overtakes
  | answered i =>
    obtain ⟨before, answers⟩ := answers_of_receipt r
    exact absurd answers (unanswered before i)
  | abandoned => cases step <;> first | exact .inl rfl | cases overtakes
  | spent =>
    rcases gives_of_spent r with gives | ⟨i, gives⟩
    · exact .inr (.inl gives)
    · obtain ⟨before, answers⟩ := answers_of_gives gives
      exact absurd answers (unanswered before i)
  | dropped => exact .inr (.inr ((dropped_iff bound).mp r))

theorem settled_of_overtakes (overtakes : step.overtakes = true) (bound : k < opened steps) :
    (after (steps ++ [step])).receipt k ≠ .waiting := by
  rw [receipt_concat bound]
  intro waiting
  rw [(waiting_of_nextReceipt waiting).2] at overtakes
  cases overtakes

theorem not_answers_of_overtaken (made : Made steps before step) (overtakes : step.overtakes = true)
    (bound : k < opened before) (unanswered : ∀ earlier i, ¬ Answers before earlier k i)
    {before' : List Step} : ¬ Answers steps before' k i := by
  intro answers
  rcases made.cases answers.made with rfl | earlier | later
  · rw [made.step_eq answers.made] at overtakes
    cases overtakes
  · have bound' := lt_opened_append bound [step]
    have settled := settled_of_overtakes overtakes bound
    exact settled_of_prefix earlier bound' settled (answers_iff.mp answers).2.2
  · exact unanswered before' i ⟨later, answers.accepted, answers.current⟩

theorem resolves_of_overtaken (made : Made steps before step) (overtakes : step.overtakes = true)
    (bound : k < opened before) (unanswered : ∀ earlier i, ¬ Answers before earlier k i)
    (kept : ¬ Dropped steps k) : Resolves steps k .abandoned := by
  obtain ⟨later, rfl⟩ := made
  rw [resolves_iff]
  rcases overtaken_concat overtakes bound unanswered with abandoned | gives | dropped
  · have known := lt_opened_append bound [step]
    rcases kept_until_read known abandoned (.inl rfl) later with same | gives | dropped
    · exact .inr (by rw [same]; rfl)
    · exact .inl gives
    · exact absurd dropped kept
  · exact .inl ((gives.mono _).mono _)
  · exact absurd ((dropped.mono _).mono _) kept

/-! ### The open offer -/

theorem not_current_nil : ¬ Current [] k n := by
  rintro ⟨earlier, later, made, -⟩
  simp at made

/-- An offer is open while it is the latest, nothing was closed, and none of its options was selected. -/
theorem pending_iff : (after steps).pending = some ⟨k, n⟩ ↔
    Current steps k n ∧ ∀ before i, Made steps before (.select i) → k < opened before → n ≤ i := by
  induction steps using List.reverseRecOn with
  | nil => simp [after, empty, not_current_nil]
  | append_singleton steps step ih =>
    rw [after_concat, pending_apply]
    cases step with
    | offer m =>
      simp only [(kept_after steps).size, current_concat, made_concat, Option.some.injEq,
        Offer.mk.injEq, Step.offer.injEq, Step.overtakes, reduceCtorEq, false_and, or_false,
        and_false, Bool.true_eq_false]
      constructor
      · rintro ⟨rfl, rfl⟩
        exact ⟨⟨rfl, rfl⟩, fun before i made bound => absurd made.opened_le (Nat.not_le.mpr bound)⟩
      · rintro ⟨⟨rfl, rfl⟩, -⟩
        exact ⟨rfl, rfl⟩
    | close => simp [current_concat, Step.overtakes]
    | select j =>
      simp only [Option.filter_eq_some_iff, ih, current_concat, made_concat, Step.overtakes,
        Step.select.injEq, reduceCtorEq, false_and, false_or, true_and, decide_eq_true_eq]
      constructor
      · rintro ⟨⟨current, outside⟩, beyond⟩
        refine ⟨current, fun before i made bound => ?_⟩
        rcases made with made | ⟨rfl, rfl⟩
        · exact outside before i made bound
        · exact beyond
      · rintro ⟨current, outside⟩
        exact ⟨⟨current, fun before i made => outside before i (.inl made)⟩,
          outside steps j (.inr ⟨rfl, rfl⟩) current.lt_opened⟩
    | drop j => simp [ih, current_concat, made_concat, Step.overtakes]
    | receive j => simp [ih, current_concat, made_concat, Step.overtakes]

/-- The receiver of the offer that is open waits for it, unless it was dropped. -/
theorem attended (pending : (after steps).pending = some ⟨k, n⟩) :
    (after steps).receipt k = .waiting ∨ Dropped steps k := by
  induction steps using receiver_induction k with
  | unopened steps unopened =>
    have := (pending_iff.mp pending).1.opened_eq
    omega
  | opens steps m number => exact .inl (number ▸ receipt_opened steps m)
  | next steps step bound ih =>
    obtain ⟨current, outside⟩ := pending_iff.mp pending
    rcases current_concat.mp current with ⟨-, number⟩ | ⟨calm, before⟩
    · omega
    have open' := pending_iff.mpr ⟨before, fun b i made => outside b i (made_concat.mpr (.inl made))⟩
    rcases ih open' with waiting | dropped
    · rw [receipt_concat bound, waiting]
      cases step with
      | offer m => cases calm
      | close => cases calm
      | select j =>
        have refused : replied steps (.select j) ≠ .done := fun accepted => by
          obtain ⟨k', n', current', within, -⟩ := accepted_iff.mp accepted
          obtain ⟨rfl, rfl⟩ := before.unique current'
          have := outside steps j (made_concat.mpr (.inr ⟨rfl, rfl⟩)) bound
          omega
        exact .inl (by simp [refused])
      | drop j =>
        by_cases same : j = k
        · exact .inr (dropped_concat.mpr (.inr ⟨by rw [same], bound⟩))
        · exact .inl (by simp [nextReceipt, same])
      | receive j => exact .inl (by simp [nextReceipt])
    · exact .inr (dropped.mono _)

/-! ### The whole history -/

/-- What the receivers and the selections of a history have to do with each other. -/
structure HandsOver (steps : List Step) : Prop where
  /-- A receiver gives the index of the one selection that answered it, unless it is dropped. -/
  resolves : ∀ k i, ¬ Dropped steps k →
    (Resolves steps k (.number i) ↔ ∃! before, Answers steps before k i)
  /-- An accepted selection reaches the latest receiver, and nobody else. -/
  reaches : ∀ before i, Made steps before (.select i) → replied before (.select i) = .done →
    ∃ k, Answers steps before k i ∧ (after (before ++ [.select i])).receipt k = .answered i ∧
      ∀ j, j ≠ k → (after (before ++ [.select i])).receipt j = (after before).receipt j
  /-- Nobody is answered twice. -/
  once : ∀ k before before' i j, Answers steps before k i → Answers steps before' k j →
    before = before' ∧ i = j
  /-- Nobody is given two indices, also not the same one twice. -/
  gives_once : ∀ k before before' i j,
    Made steps before (.receive k) → replied before (.receive k) = .number i →
    Made steps before' (.receive k) → replied before' (.receive k) = .number j →
      before = before' ∧ i = j
  /-- Whoever is overtaken without an answer is told so, and never gets an index. -/
  overtaken : ∀ k before step, Made steps before step → step.overtakes = true → k < opened before →
    (∀ earlier i, ¬ Answers before earlier k i) →
      (∀ i, ¬ Resolves steps k (.number i)) ∧ (¬ Dropped steps k → Resolves steps k .abandoned)
  /-- An index that was not offered is refused. The offer stays open for its receiver. -/
  outside : ∀ k n i, (after steps).pending = some ⟨k, n⟩ → n ≤ i →
    replied steps (.select i) = .failed (.choiceOutOfRange i n) ∧
      after (steps ++ [.select i]) = after steps ∧
      ∀ j < n, ¬ Dropped steps k →
        Answers (steps ++ [.select i] ++ [.select j]) (steps ++ [.select i]) k j
  /-- Without an open offer a selection fails and changes nothing. -/
  nothing : ∀ i, (after steps).pending = none →
    replied steps (.select i) = .failed .noPendingChoice ∧ after (steps ++ [.select i]) = after steps
  /-- An answer to a receiver that was dropped fails, and nobody hears of it. -/
  unheard : ∀ k n i, (after steps).pending = some ⟨k, n⟩ → i < n → Dropped steps k →
    replied steps (.select i) = .failed .noPendingChoice ∧
      (after (steps ++ [.select i])).pending = none ∧
      ∀ j, (after (steps ++ [.select i])).receipt j = (after steps).receipt j
  /-- Once a choice was answered, or overtaken, no selection reaches its receiver. -/
  settled : ∀ k before step, Made steps before step → k < opened before →
    (step.overtakes = true ∨ ∃ i, step = .select i ∧ Answers steps before k i) →
      ∀ j, ¬ Answers (steps ++ [.select j]) steps k j ∧
        (after (steps ++ [.select j])).receipt k = (after steps).receipt k

theorem receipt_select_of_settled (settled : (after steps).receipt k ≠ .waiting) (j : Nat) :
    (after (steps ++ [.select j])).receipt k = (after steps).receipt k := by
  rw [after_concat, (kept_after steps).receipt_select, nextReceipt_select, if_neg (settled ·.2)]

/-- A receiver that has been read has nothing more to say. -/
theorem gone_of_prefix (inside : before <+: steps) (bound : k < opened before)
    (gone : told ((after before).receipt k) = .gone) : told ((after steps).receipt k) = .gone := by
  obtain ⟨later, rfl⟩ := inside
  induction later using List.reverseRecOn with
  | nil => rwa [List.append_nil]
  | append_singleton later step ih =>
    rw [← List.append_assoc, receipt_concat (lt_opened_append bound _)]
    cases r : (after (before ++ later)).receipt k <;> rw [r] at ih
    case spent | dropped => unfold nextReceipt; split <;> rfl
    all_goals cases ih

theorem gives_once {before' : List Step} (made : Made steps before (.receive k))
    (number : replied before (.receive k) = .number i) (made' : Made steps before' (.receive k))
    (number' : replied before' (.receive k) = .number j) : before = before' := by
  -- Whoever asks after the index was given hears nothing.
  have late {before before' : List Step} {i j : Nat} (number : replied before (.receive k) = .number i)
      (number' : replied before' (.receive k) = .number j) :
      ¬ before ++ [.receive k] <+: before' := by
    intro inside
    rw [replied_receive] at number number'
    have bound : k < opened before := by
      by_contra unopened
      rw [receipt_unopened (Nat.not_lt.mp unopened)] at number
      cases number
    have gone : told ((after (before ++ [.receive k])).receipt k) = .gone := by
      rw [receipt_concat bound]
      cases r : (after before).receipt k <;> rw [r] at number <;> cases number
      simp [nextReceipt, told]
    have := gone_of_prefix inside (lt_opened_append bound _) gone
    rw [number'] at this
    cases this
  rcases made.cases made' with same | earlier | later
  · exact same
  · exact absurd earlier (late number number')
  · exact absurd later (late number' number)

theorem receivers_are_answered_once (steps : List Step) : HandsOver steps where
  resolves k i kept := by
    constructor
    · intro resolves
      obtain ⟨before, answers⟩ := answers_of_resolves resolves
      exact ⟨before, answers, fun _ other => other.unique answers⟩
    · rintro ⟨before, answers, -⟩
      exact resolves_of_answers answers kept
  reaches before i made accepted := by
    obtain ⟨k, n, current, within, waiting⟩ := accepted_iff.mp accepted
    have answers : Answers steps before k i := ⟨made, accepted, n, current, within⟩
    refine ⟨k, answers, answers.receipt_eq, fun j other => ?_⟩
    refine receipt_select_of_settled (fun waiting' => other ?_) i
    obtain ⟨m, pending⟩ := (kept_after before).waiting k waiting
    obtain ⟨m', pending'⟩ := (kept_after before).waiting j waiting'
    rw [pending] at pending'
    cases pending'
    rfl
  once k before before' i j first second := by
    obtain rfl := first.unique second
    exact ⟨rfl, Step.select.inj (first.made.step_eq second.made)⟩
  gives_once k before before' i j made told made' told' := by
    obtain rfl := gives_once made told made' told'
    rw [told] at told'
    exact ⟨rfl, Reply.number.inj told'⟩
  overtaken k before step made overtakes bound unanswered := by
    refine ⟨fun i resolves => ?_, resolves_of_overtaken made overtakes bound unanswered⟩
    obtain ⟨earlier, answers⟩ := answers_of_resolves resolves
    exact not_answers_of_overtaken made overtakes bound unanswered answers
  outside k n i pending outside := by
    have same := select_outside pending outside
    have unchanged : after (steps ++ [.select i]) = after steps := by rw [after_concat, same]
    refine ⟨congrArg Prod.snd same, unchanged, fun j within kept => ?_⟩
    have waiting := (attended pending).resolve_right kept
    have current := (pending_iff.mp pending).1
    refine answers_iff.mpr ⟨List.prefix_rfl, ?_, unchanged ▸ waiting⟩
    have accepted := accepted_iff.mpr ⟨k, n, current, within, waiting⟩
    rwa [replied, unchanged]
  nothing i pending := by
    have same := select_nothing pending i
    exact ⟨congrArg Prod.snd same, by rw [after_concat, same]⟩
  unheard k n i pending within dropped := by
    have bound := (pending_iff.mp pending).1.lt_opened
    have gone : (after steps).receipt k ≠ .waiting := by
      rw [(dropped_iff bound).mpr dropped]
      exact Receipt.noConfusion
    have same := select_unheard pending within gone
    refine ⟨congrArg Prod.snd same, by rw [after_concat, same], fun j => ?_⟩
    rw [after_concat, same]
    rfl
  settled k before step made bound overtakes j := by
    have settled : (after (before ++ [step])).receipt k ≠ .waiting := by
      rcases overtakes with overtakes | ⟨i, rfl, answers⟩
      · exact settled_of_overtakes overtakes bound
      · rw [answers.receipt_eq]
        exact Receipt.noConfusion
    have calm := settled_of_prefix made (lt_opened_append bound _) settled
    exact ⟨fun answers => calm (answers_iff.mp answers).2.2, receipt_select_of_settled calm j⟩

end ChoiceSlot

end SceneScript
