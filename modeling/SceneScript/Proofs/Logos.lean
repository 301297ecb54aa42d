import SceneScript.Splash
/-!
Splash screens under calls in any order: a signal brings on the next logo and never one past the last,
and playing shows every logo once and then is over (`logos_come_in_turn`).
-/

namespace SceneScript

namespace Splash

variable {logos : List Texture}

/-! ### Histories -/

/-- The sequence these orders leave behind. -/
def after (s : Splash) (orders : List Order) : Splash :=
  orders.foldl (fun s order => (s.apply order).1) s

/-- What is answered to these orders, one by one. -/
def replies (s : Splash) : List Order → List Reply
  | [] => []
  | order :: rest => (s.apply order).2 :: replies (s.apply order).1 rest

/-- A start, and `j` animations that finished. -/
def signals (j : Nat) : List Order := .start :: List.replicate j .next

@[simp] theorem after_append (s : Splash) (orders later : List Order) :
    s.after (orders ++ later) = (s.after orders).after later := List.foldl_append

@[simp] theorem replies_append (s : Splash) (orders later : List Order) :
    s.replies (orders ++ later) = s.replies orders ++ (s.after orders).replies later := by
  induction orders generalizing s with
  | nil => rfl
  | cons order rest ih => exact congrArg _ (ih (s.apply order).1)

theorem getLast?_replies_concat (s : Splash) (orders : List Order) (last : Order) :
    (s.replies (orders ++ [last])).getLast? = some ((s.after orders).apply last).2 := by
  rw [replies_append]
  exact List.getLast?_concat

/-! ### Places -/

/-- The step for logo number `n`. -/
def stepAt (logos : List Texture) (n : Nat) : Step :=
  if h : n < logos.length then .show logos[n] else .finished

/-- The sequence with `n` of the logos behind it, or all of them if there are fewer. -/
def past (logos : List Texture) (n : Nat) : Splash := ⟨logos, min n logos.length⟩

theorem current_past (logos : List Texture) (n : Nat) : (past logos n).current = stepAt logos n := by
  unfold current stepAt past
  by_cases h : n < logos.length
  · simp [h, Nat.min_eq_left (Nat.le_of_lt h)]
  · simp [h, Nat.min_eq_right (Nat.not_lt.mp h)]

theorem advance_past (logos : List Texture) (n : Nat) :
    (past logos n).advance = past logos (n + 1) := by
  unfold advance past
  dsimp only
  split <;> congr 1 <;> omega

theorem isFinished_past (logos : List Texture) (n : Nat) :
    (past logos n).isFinished = true ↔ logos.length ≤ n := by
  show decide (logos.length ≤ min n logos.length) = true ↔ _
  rw [decide_eq_true_iff]
  omega

theorem apply_start_past (logos : List Texture) (n : Nat) :
    (past logos n).apply .start = (past logos 0, .step (stepAt logos 0)) := by
  have first : (past logos n).start = past logos 0 := by simp [start, past]
  show ((past logos n).start, Reply.step (past logos n).start.current) = _
  rw [first, current_past]

theorem apply_next_past (logos : List Texture) (n : Nat) :
    (past logos n).apply .next = (past logos (n + 1), .step (stepAt logos (n + 1))) := by
  show ((past logos n).advance, Reply.step (past logos n).advance.current) = _
  rw [advance_past, current_past]

theorem after_nexts (logos : List Texture) (n k : Nat) :
    (past logos n).after (List.replicate k .next) = past logos (n + k) := by
  induction k generalizing n with
  | zero => rfl
  | succ k ih =>
    show ((past logos n).apply .next).1.after (List.replicate k .next) = _
    rw [apply_next_past, ih, Nat.add_right_comm, Nat.add_assoc]

/-! ### Playing -/

/-- What the host is asked to do for one logo. -/
def screening (logo : Texture) : List HostCall :=
  [.showLogo logo, .playAnimation, .animationFinished]

/-- A pass over the logos that are left goes through them in their order, and ends. -/
theorem playOn_eq (s : Splash) (shown : Nat) (calls : Array HostCall)
    (inside : s.index ≤ s.logos.length) :
    s.playOn shown calls = (past s.logos s.logos.length, shown + (s.logos.length - s.index),
      calls ++ (s.logos.drop s.index).flatMap screening) := by
  fun_induction playOn s shown calls with
  | case1 s shown calls more ih =>
    have next : s.logos.drop s.index = s.logos[s.index] :: s.logos.drop (s.index + 1) :=
      List.drop_eq_getElem_cons more
    rw [ih more]
    refine Prod.ext rfl (Prod.ext ?_ ?_)
    · show shown + 1 + (s.logos.length - (s.index + 1)) = shown + (s.logos.length - s.index)
      omega
    · show _ ++ (s.logos.drop (s.index + 1)).flatMap screening =
        calls ++ (s.logos.drop s.index).flatMap screening
      rw [next, List.flatMap_cons]
      simp [screening]
  | case2 s shown calls ended =>
    have all : s.index = s.logos.length := Nat.le_antisymm inside (Nat.not_lt.mp ended)
    have here : s = past s.logos s.logos.length := by
      obtain ⟨logos, index⟩ := s
      simp_all [past]
    simp [← here, all]

theorem apply_play (s : Splash) :
    s.apply .play = (past s.logos s.logos.length,
      .played s.logos.length (s.logos.flatMap screening)) := by
  have played : s.play = _ := playOn_eq s.start 0 #[] (Nat.zero_le _)
  show (s.play.1, Reply.played s.play.2.1 s.play.2.2.toList) = _
  rw [played]
  simp [start]

/-! ### Any history -/

/-- Whatever is asked of a sequence, it stands at a logo of its own or behind the last one. -/
theorem after_eq_past (logos : List Texture) (orders : List Order) :
    ∃ n, (ofLogos logos).after orders = past logos n := by
  have stands (n : Nat) : ∃ m, (past logos n).after orders = past logos m := by
    induction orders generalizing n with
    | nil => exact ⟨n, rfl⟩
    | cons order rest ih =>
      show ∃ m, ((past logos n).apply order).1.after rest = past logos m
      cases order with
      | start =>
        rw [apply_start_past]
        exact ih 0
      | next =>
        rw [apply_next_past]
        exact ih (n + 1)
      | play =>
        rw [apply_play]
        exact ih logos.length
  have fresh : ofLogos logos = past logos 0 := by simp [ofLogos, past]
  exact fresh ▸ stands 0

/-- What a sequence does after the orders `before`. -/
structure InTurn (logos : List Texture) (before : List Order) : Prop where
  inside : ((ofLogos logos).after before).index ≤ logos.length
  /-- The last answer to a start and `j` signals is logo `j`, as long as there is one. -/
  shows : ∀ j, ((ofLogos logos).replies (before ++ signals j)).getLast? =
    some (.step (stepAt logos j))
  finishes : ∀ j, ((ofLogos logos).after (before ++ signals j)).isFinished = true ↔ logos.length ≤ j
  /-- Playing asks for every logo once, in order, and for nothing else. -/
  plays : ((ofLogos logos).replies (before ++ [.play])).getLast? =
    some (.played logos.length (logos.flatMap screening))
  /-- After that it is over, and stays so whatever signals come. -/
  rests : ∀ k, ((ofLogos logos).after (before ++ .play :: List.replicate k .next)).isFinished = true ∧
    ((ofLogos logos).replies (before ++ .play :: List.replicate (k + 1) .next)).getLast? =
      some (.step .finished)

theorem logos_come_in_turn (logos : List Texture) (before : List Order) : InTurn logos before := by
  obtain ⟨n, here⟩ := after_eq_past logos before
  have signalled (j : Nat) : (ofLogos logos).after (before ++ signals j) = past logos j := by
    rw [after_append, here]
    show ((past logos n).apply .start).1.after (List.replicate j .next) = _
    rw [apply_start_past, after_nexts, Nat.zero_add]
  have played (k : Nat) : (ofLogos logos).after (before ++ .play :: List.replicate k .next) =
      past logos (logos.length + k) := by
    rw [after_append, here]
    show ((past logos n).apply .play).1.after (List.replicate k .next) = _
    rw [apply_play]
    exact after_nexts logos logos.length k
  constructor
  case inside =>
    rw [here]
    exact Nat.min_le_right _ _
  case shows =>
    intro j
    cases j with
    | zero =>
      rw [signals, List.replicate_zero, getLast?_replies_concat, here, apply_start_past]
    | succ j =>
      rw [signals, List.replicate_succ', ← List.cons_append, ← List.append_assoc,
        getLast?_replies_concat]
      show some (((ofLogos logos).after (before ++ signals j)).apply .next).2 = _
      rw [signalled, apply_next_past]
  case finishes =>
    intro j
    rw [signalled, isFinished_past]
  case plays =>
    rw [getLast?_replies_concat, here, apply_play]
    rfl
  case rests =>
    intro k
    have beyond : stepAt logos (logos.length + k + 1) = .finished := dif_neg (by omega)
    refine ⟨?_, ?_⟩
    · rw [played, isFinished_past]
      exact Nat.le_add_right _ _
    · rw [List.replicate_succ', ← List.cons_append, ← List.append_assoc, getLast?_replies_concat,
        played, apply_next_past, beyond]

example : (ofLogos [⟨"studio"⟩, ⟨"engine"⟩]).replies [.next, .start, .next, .next, .next] =
    [.step (.show ⟨"engine"⟩), .step (.show ⟨"studio"⟩), .step (.show ⟨"engine"⟩), .step .finished,
      .step .finished] := by decide

end Splash

end SceneScript
