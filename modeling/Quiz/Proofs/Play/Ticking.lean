/-
Quiz.Proofs.Play.Ticking — ticking along every course of a loop.

* `counted` — with one event a task counts from where it had counted to before;
  `accounts_history` — so along a course nothing is left out or counted twice.
* `ticker_discipline` — one task at most is alive, it is there when it has to be,
  it ends when there is nothing left to run, and it counts all the time between.
* `undisciplined_of_endless_interval` — an interval must not be too long to count.
-/
import Quiz.Proofs.Play.ExactTimeline
import Quiz.Proofs.Play.Loop
import Quiz.Proofs.Play.OrderedScale

namespace Quiz

variable {α : Type} [Timeline α]

namespace LoopStep

/-- The moment at which a task begins, or wakes up, with this event. -/
def moment? (k : Nat) (step : LoopStep α) : Option α :=
  match step.event with
  | .run j _ _ =>
    if j = k then
      match step.before.tasks[k]? with
      | some .made | some (.asleep _) => some step.before.now
      | _ => none
    else none
  | _ => none

/-- The time that a task counts with this event. -/
def elapsed? (k : Nat) (step : LoopStep α) : Option α :=
  match step.event with
  | .run j _ _ => if j = k then step.wakeUp.map (·.elapsed) else none
  | _ => none

/-- The moments at which a task begins and wakes up. -/
def moments (k : Nat) (steps : List (LoopStep α)) : List α :=
  steps.filterMap (moment? k)

/-- The times that a task counts. -/
def elapsed (k : Nat) (steps : List (LoopStep α)) : List α :=
  steps.filterMap (elapsed? k)

end LoopStep

namespace TickedPlayer

open Timeline LoopStep

variable {t : TickedPlayer α} {k : Nat} {onResponse onComplete : List (Request α)}

/-! ## The time that a task counts -/

/-- What a task counts with an event: nothing, or the time since it began or ticked
at last. -/
inductive Counted (k : Nat) (step : LoopStep α) : Prop
  | nothing (moment : step.moment? k = none) (elapsed : step.elapsed? k = none)
      (goes : countsFrom step.after.tasks[k]? = countsFrom step.before.tasks[k]? ∨
        countsFrom step.after.tasks[k]? = none)
  | since {past : List α} (begun : countsFrom step.before.tasks[k]? = some past)
      (moment : step.moment? k = some step.before.now)
      (elapsed : (step.elapsed? k).toList = spans (past ++ [step.before.now]))
      (goes : countsFrom step.after.tasks[k]? = some [step.before.now] ∨
        countsFrom step.after.tasks[k]? = none)

/-- The turn of a task leaves what any other counts from. -/
theorem countsFrom_run_other {j : Nat} (other : j ≠ k) :
    countsFrom (t.run j onResponse onComplete).1.tasks[k]? = countsFrom t.tasks[k]? ∨
      countsFrom (t.run j onResponse onComplete).1.tasks[k]? = none := by
  have hset (tasks : List (Task α)) (task : Task α) : (tasks.set j task)[k]? = tasks[k]? :=
    List.getElem?_set_ne other
  have hran := run_ran t j onResponse onComplete
  generalize t.run j onResponse onComplete = result at hran ⊢
  cases hran with
  | skipped => exact Or.inl rfl
  | began | ended | refused =>
    left
    exact congrArg countsFrom (hset _ _)
  | @ticked last =>
    have hasks := ask_tends (.command (.tick (between last t.now)) onResponse onComplete)
      (t.beginTick j)
    show countsFrom (List.set _ j _)[k]? = _ ∨ countsFrom (List.set _ j _)[k]? = none
    rw [hset]
    have hgoes := hasks.countsFrom k
    rwa [show countsFrom (t.beginTick j).tasks[k]? = countsFrom t.tasks[k]? from
      congrArg countsFrom (hset _ _)] at hgoes

omit [Timeline α] in
theorem countsFrom_goOn (within : k < t.tasks.length) :
    countsFrom (t.goOn k).tasks[k]? = some [t.now] ∨ countsFrom (t.goOn k).tasks[k]? = none := by
  show countsFrom (t.tasks.set k t.lookedAround)[k]? = _ ∨
    countsFrom (t.tasks.set k t.lookedAround)[k]? = none
  rw [List.getElem?_set_self within]
  unfold lookedAround
  split
  · exact Or.inl rfl
  · exact Or.inr rfl

theorem counted_run (t : TickedPlayer α) (k : Nat) (onResponse onComplete : List (Request α)) :
    Counted k (t.step (.run k onResponse onComplete)) := by
  have hmoment (result : TickedPlayer α × Option (WakeUp α)) :
      moment? k ⟨t, .run k onResponse onComplete, result.1, result.2⟩ =
        match t.tasks[k]? with
        | some .made | some (.asleep _) => some t.now
        | _ => none := if_pos rfl
  have helapsed (result : TickedPlayer α × Option (WakeUp α)) :
      elapsed? k ⟨t, .run k onResponse onComplete, result.1, result.2⟩ =
        result.2.map (·.elapsed) := if_pos rfl
  have hran := run_ran t k onResponse onComplete
  show Counted k ⟨t, .run k onResponse onComplete, (t.run k onResponse onComplete).1,
    (t.run k onResponse onComplete).2⟩
  generalize t.run k onResponse onComplete = result at hran ⊢
  have within {task : Task α} (htask : t.tasks[k]? = some task) : k < t.tasks.length :=
    (List.getElem?_eq_some_iff.mp htask).1
  have hended {task : Task α} (htask : t.tasks[k]? = some task) :
      countsFrom (t.tasks.set k .ended)[k]? = none := by
    rw [List.getElem?_set_self (within htask)]
    rfl
  cases hran with
  | skipped made asleep =>
    refine .nothing ((hmoment (t, none)).trans ?_) (helapsed (t, none)) (Or.inl rfl)
    split
    · exact absurd ‹_› made
    · exact absurd ‹_› (asleep _)
    · rfl
  | began made =>
    exact .since (congrArg countsFrom made) ((hmoment (t.goOn k, none)).trans (by rw [made]))
      (congrArg Option.toList (helapsed (t.goOn k, none))) (countsFrom_goOn (within made))
  | ended calledOff =>
    refine .nothing ((hmoment (_, none)).trans (by rw [calledOff])) (helapsed (_, none))
      (Or.inr (hended calledOff))
  | refused asleep =>
    exact .since (congrArg countsFrom asleep) ((hmoment (_, some _)).trans (by rw [asleep]))
      (congrArg Option.toList (helapsed (_, some _))) (Or.inr (hended asleep))
  | @ticked last _ asleep =>
    refine .since (congrArg countsFrom asleep) ((hmoment (_, some _)).trans (by rw [asleep]))
      (congrArg Option.toList (helapsed (_, some _))) ?_
    -- what is asked for during the tick keeps the clock and the tasks in place
    have hasks := ask_tends (.command (.tick (between last t.now)) onResponse onComplete)
      (t.beginTick k)
    have hwithin := Nat.lt_of_lt_of_le (within asleep)
      (Nat.le_trans (Nat.le_of_eq List.length_set.symm) hasks.length_le)
    have hnow : _ = t.now := hasks.now_eq
    have hgoes := countsFrom_goOn hwithin
    rwa [hnow] at hgoes

theorem counted (t : TickedPlayer α) (event : LoopEvent α) (k : Nat) :
    Counted k (t.step event) := by
  cases event with
  | act request => exact .nothing rfl rfl ((ask_tends request t).countsFrom k)
  | pass now => exact .nothing rfl rfl (Or.inl rfl)
  | run j onResponse onComplete =>
    by_cases other : j = k
    · subst other
      exact counted_run t j onResponse onComplete
    · exact .nothing (if_neg other) (if_neg other) (countsFrom_run_other other)

/-- The moments at which a task wakes up account for the times it counts, from what
it counts from on. -/
def Accounts : Option (List α) → (moments elapsed : List α) → Prop
  | none, moments, elapsed => moments = [] ∧ elapsed = []
  | some past, moments, elapsed => elapsed = spans (past ++ moments)

/-- A task that does not run any more counts nothing, whatever it counted from. -/
theorem accounts_nothing (task? : Option (Task α)) : Accounts (countsFrom task?) [] [] := by
  rcases task? with _ | _ | _ | _ | _ | _
  all_goals first | rfl | exact ⟨rfl, rfl⟩

theorem Accounts.mono {task? task?' : Option (Task α)} {moments elapsed : List α}
    (later : Accounts (countsFrom task?') moments elapsed)
    (goes : countsFrom task?' = countsFrom task? ∨ countsFrom task?' = none) :
    Accounts (countsFrom task?) moments elapsed := by
  rcases goes with hsame | hnone
  · rw [← hsame]
    exact later
  · rw [hnone] at later
    obtain ⟨rfl, rfl⟩ := later
    exact accounts_nothing task?

/-- Along every course, a task counts what lies between the moments at which it
begins and wakes up. -/
theorem accounts_history (t : TickedPlayer α) (events : List (LoopEvent α)) (k : Nat) :
    Accounts (countsFrom t.tasks[k]?) (moments k (t.history events))
      (elapsed k (t.history events)) := by
  induction events generalizing t with
  | nil => exact accounts_nothing _
  | cons event rest ih =>
    have hlater := ih (t.turn event).1
    have hmoments : moments k (t.history (event :: rest)) =
        ((t.step event).moment? k).toList ++ moments k ((t.turn event).1.history rest) := by
      show List.filterMap _ (_ :: _) = _
      rw [List.filterMap_cons]
      cases (t.step event).moment? k <;> rfl
    have helapsed : elapsed k (t.history (event :: rest)) =
        ((t.step event).elapsed? k).toList ++ elapsed k ((t.turn event).1.history rest) := by
      show List.filterMap _ (_ :: _) = _
      rw [List.filterMap_cons]
      cases (t.step event).elapsed? k <;> rfl
    rw [hmoments, helapsed]
    cases counted t event k with
    | nothing moment elapsed goes =>
      rw [moment, elapsed]
      exact hlater.mono goes
    | @since past begun moment elapsed goes =>
      have hnow : Accounts (countsFrom (some (.asleep t.now)))
          (moments k ((t.turn event).1.history rest))
          (LoopStep.elapsed k ((t.turn event).1.history rest)) := hlater.mono goes
      have hbegun : countsFrom t.tasks[k]? = some past := begun
      rw [hbegun, moment, elapsed]
      exact (congrArg (spans (past ++ [t.now]) ++ ·) hnow).trans (spans_append past t.now _).symm

/-! ## The discipline -/

/-- The discipline of ticking, along the course of a loop. -/
structure Disciplined (steps : List (LoopStep α)) : Prop where
  /-- One task at most is alive, whenever one looks. -/
  lone : ∀ step ∈ steps, ∀ u, step.Sees u → u.tasks.countP Task.alive ≤ 1
  /-- Ticking is wanted from the event on in which it was asked for, be it from outside, or
  while a command or a tick was carried out. -/
  wanted : ∀ early step late, steps = early ++ step :: late → step.AsksToStart →
    ∀ later ∈ step :: late, later.after.wanted = true
  /-- Where ticking is wanted and there is something to run, a task is alive when
  the loop gets control back, and has not been called off. -/
  there : ∀ step ∈ steps, step.after.wanted = true → step.after.active = true →
    ∃ task ∈ step.after.tasks, task.alive = true ∧ task ≠ .calledOff
  /-- Once the screen is completed or the player is closed, no tick is given, and
  nothing changes the state. -/
  quiet : ∀ step ∈ steps, step.before.player.Over →
    step.wakeUp = none ∧ step.after.player.state = step.before.player.state
  /-- A task ends with the first of its turns after which there is nothing to
  run. -/
  ends : ∀ step ∈ steps, ∀ k onResponse onComplete,
    step.event = .run k onResponse onComplete → k < step.before.tasks.length →
      step.after.active = false → step.after.tasks[k]? = some .ended
  /-- A task counts the times between the moments at which it begins and wakes up,
  each of them once. -/
  counts : ∀ k, elapsed k steps = spans (moments k steps)
  /-- Where time is counted exactly, they add up to the time between the beginning of
  the task and its last tick. -/
  sums : ∀ [ExactTimeline α] (k : Nat) (first last : α),
    (moments k steps).head? = some first → (moments k steps).getLast? = some last →
      sum (elapsed k steps) = between first last

/-- A player on a clock keeps the discipline of ticking, in whatever order it is asked
for something, time passes and its tasks are run. -/
theorem ticker_discipline (screen : Screen) (settings : Settings) (events : List (LoopEvent α))
    (durations : screen.FitsScale α settings.maxNestingDepth)
    (interval : countsInSeconds settings.tickInterval = true) :
    Disciplined ((new screen settings).history events) := by
  have hrest {step : LoopStep α} (h : step ∈ (new screen settings).history events) :
      ∃ (u : TickedPlayer α) (event : LoopEvent α), AtRest u ∧ step = u.step event :=
    exists_of_mem_history (fun event rest => rest.turn event) (.new durations interval) h
  have hcounts (k : Nat) : elapsed k ((new screen settings).history events) =
      spans (moments k ((new screen settings).history events)) :=
    accounts_history (new screen settings) events k
  refine ⟨fun step hstep u sees => ?_, fun early step late hsplit hasks later hlater => ?_,
    fun step hstep hwanted hactive => ?_, fun step hstep hover => ?_,
    fun step hstep k onResponse onComplete hrun within hidle => ?_, hcounts,
    fun k first last hfirst hlast => ?_⟩
  · obtain ⟨t, event, rest, rfl⟩ := hrest hstep
    exact rest.lone sees
  · obtain ⟨t, event, rest, rfl, rfl⟩ := history_after hsplit
    have hfirst : (t.turn event).1.wanted = true := wanted_of_asked hasks
    rcases List.mem_cons.mp hlater with rfl | hlater
    · exact hfirst
    · obtain ⟨u, event, hwanted, rfl⟩ :=
        exists_of_mem_history (P := fun u => u.wanted = true) wanted_turn hfirst hlater
      exact wanted_turn event hwanted
  · obtain ⟨t, event, rest, rfl⟩ := hrest hstep
    exact (rest.turn event).there hwanted hactive
  · obtain ⟨t, event, rest, rfl⟩ := hrest hstep
    exact rest.quiet hover event
  · obtain ⟨t, event, rest, rfl⟩ := hrest hstep
    obtain rfl : event = .run k onResponse onComplete := hrun
    exact rest.ends within hidle
  · rw [hcounts]
    exact sum_spans hfirst hlast

end TickedPlayer

/-! ## A loading item of a tenth of a second -/

open TickedPlayer

/-- A screen that shows its button once a tenth of a second has passed. -/
def gateScreen : Screen :=
  { id := "gate"
    content :=
      [.loading ⟨"Loading", 100, none, none, []⟩, .button ⟨"Continue", none, none, none, none, []⟩]
    gap := 0
    padding := 0
    category := none
    hideCategoryBar := false
    extra := [] }

theorem gateScreen_fits {α : Type} [Scale α] {maxDepth : Int}
    (h : Loading.FitsScale α ⟨"Loading", 100, none, none, []⟩) :
    gateScreen.FitsScale α maxDepth := by
  have hcontent (item : Item) (hitem : item ∈ gateScreen.content) :
      item = .loading ⟨"Loading", 100, none, none, []⟩ ∨ item.isButton = true := by
    rcases List.mem_cons.mp hitem with rfl | hbutton
    · exact Or.inl rfl
    · obtain rfl := List.mem_singleton.mp hbutton
      exact Or.inr rfl
  refine ⟨fun l hl => ?_, fun selection hselection => ?_⟩
  · rcases hcontent _ hl with heq | hbutton
    · obtain rfl := Item.loading.inj heq
      exact h
    · cases hbutton
  · rcases hcontent _ hselection with heq | hbutton
    · cases heq
    · cases hbutton

/-- Ticking is asked for, and the task gets its turns as time passes. -/
def gateEvents : List (LoopEvent ℚ) :=
  [.act .start, .run 0 [] [], .pass (1 / 20), .run 0 [] [], .pass (11 / 100), .run 0 [] []]

/-- The task of this screen ticks twice, and counts the time between. -/
theorem ticker_discipline_gate :
    gateScreen.FitsScale ℚ Settings.usual.maxNestingDepth ∧
      countsInSeconds Settings.usual.tickInterval = true ∧
      LoopStep.elapsed 0 ((new gateScreen .usual).history gateEvents) = [50, 60] ∧
      Disciplined ((new gateScreen .usual).history gateEvents) := by
  have hfits : gateScreen.FitsScale ℚ Settings.usual.maxNestingDepth :=
    gateScreen_fits fun _ => rfl
  have hcounts : countsInSeconds Settings.usual.tickInterval = true := by decide +kernel
  have helapsed : LoopStep.elapsed 0 ((new gateScreen .usual).history gateEvents) = [50, 60] := by
    decide +kernel
  exact ⟨hfits, hcounts, helapsed, ticker_discipline gateScreen .usual gateEvents hfits hcounts⟩

/-- An interval that cannot be counted in seconds ends the task before its first
tick, though the screen goes on playing. -/
theorem undisciplined_of_endless_interval :
    gateScreen.FitsScale Float Settings.usual.maxNestingDepth ∧
      ¬ Disciplined ((new gateScreen { Settings.usual with tickInterval := 10 ^ 400 }).history
        [.act .start, .run 0 [] []] : List (LoopStep Float)) := by
  refine ⟨gateScreen_fits (Loading.fitsScale_float (by decide +kernel)), fun disciplined => ?_⟩
  have hstep := disciplined.there _ (.tail _ (.head _)) (by decide +kernel) (by decide +kernel)
  obtain ⟨task, htask, halive, -⟩ := hstep
  have hnone : ((((new gateScreen { Settings.usual with tickInterval := 10 ^ 400 }).ask
      .start).run 0 [] []).1 : TickedPlayer Float).tasks.countP Task.alive = 0 := by
    decide +kernel
  exact List.countP_eq_zero.mp hnone task htask halive

end Quiz
