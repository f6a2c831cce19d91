/-
Quiz.Proofs.Play.Loop — the courses of an event loop.

Between the turns of its tasks a loop gives control to whoever asks something of
the player, and time passes. This happens in any order.

* `comes_of_operation` — what is done with a player on a clock that runs by itself is
  such a course.
* `Ran` — what a turn of a task does.
* `AtRest` — what holds whenever the loop has control, kept by every event
  (`AtRest.turn`); `lone`, `there`, `quiet` and `ends` are read off it.
* `wanted_of_asked` — wherever in an event ticking is asked for, it is wanted after it.
-/
import Quiz.Proofs.Play.Requests

namespace Quiz

variable {α : Type} [Timeline α]

/-! ## Courses of a loop -/

/-- What happens on a loop. -/
inductive LoopEvent (α : Type) where
  /-- Something is asked of the player, from outside of its tasks. -/
  | act (request : Request α)
  /-- Time passes; this is what the clock tells then. -/
  | pass (now : α)
  /-- It is the turn of a task. Those who are told of the response to its tick,
  and of the completion, may ask for more. -/
  | run (task : Nat) (onResponse onComplete : List (Request α))

/-- One event on a loop: the player and its tasks before and after it, and the
tick that was given. -/
structure LoopStep (α : Type) where
  before : TickedPlayer α
  event : LoopEvent α
  after : TickedPlayer α
  wakeUp : Option (WakeUp α)

namespace TickedPlayer

/-- What an event makes of a player on a clock. -/
def turn (t : TickedPlayer α) : LoopEvent α → TickedPlayer α × Option (WakeUp α)
  | .act request => (t.ask request, none)
  | .pass now => ({ t with now := now }, none)
  | .run k onResponse onComplete => t.run k onResponse onComplete

/-- The event, with what comes of it. -/
def step (t : TickedPlayer α) (event : LoopEvent α) : LoopStep α :=
  ⟨t, event, (t.turn event).1, (t.turn event).2⟩

/-- What events make of it, one after the other. -/
def history (t : TickedPlayer α) : List (LoopEvent α) → List (LoopStep α)
  | [] => []
  | event :: rest => t.step event :: history (t.turn event).1 rest

/-- A task begins a tick. -/
def beginTick (t : TickedPlayer α) (k : Nat) : TickedPlayer α :=
  { t with tasks := t.tasks.set k .ticking }

end TickedPlayer

namespace LoopStep

open TickedPlayer

/-- In the course of the event, the player stands so, and these requests are then to be
carried out, one after the other. -/
def Underway (step : LoopStep α) (u : TickedPlayer α) (pending : List (Request α)) : Prop :=
  match step.event with
  | .act request => Passes step.before [request] u pending
  | .pass _ => False
  | .run k onResponse onComplete =>
    ∃ last, step.before.tasks[k]? = some (.asleep last) ∧
      Passes (step.before.beginTick k)
        [.command (.tick (Timeline.between last step.before.now)) onResponse onComplete] u pending

/-- The states that are seen in the course of an event: those before and after it,
and those that are seen by whoever is told of a response or of the completion. -/
def Sees (step : LoopStep α) (u : TickedPlayer α) : Prop :=
  u = step.before ∨ u = step.after ∨ ∃ pending, step.Underway u pending

/-- Ticking is asked for: from outside of the tasks, or by whoever is told of a response
or of the completion. -/
def AsksToStart (step : LoopStep α) : Prop :=
  ∃ u rest, step.Underway u (.start :: rest)

end LoopStep

namespace TickedPlayer

open Timeline

variable {t : TickedPlayer α} {k : Nat} {onResponse onComplete : List (Request α)}

/-- What holds at first, and is kept by every event, holds before every step. -/
theorem exists_of_mem_history {P : TickedPlayer α → Prop}
    (keeps : ∀ {t : TickedPlayer α} (event : LoopEvent α), P t → P (t.turn event).1)
    {events : List (LoopEvent α)} (first : P t) {step : LoopStep α}
    (h : step ∈ t.history events) : ∃ u event, P u ∧ step = u.step event := by
  induction events generalizing t with
  | nil => cases h
  | cons event rest ih =>
    rcases List.mem_cons.mp h with rfl | hlater
    · exact ⟨t, event, first, rfl⟩
    · exact ih (keeps event first) hlater

/-- What follows a step is the course that begins after it. -/
theorem history_after {events : List (LoopEvent α)} {early late : List (LoopStep α)}
    {step : LoopStep α} (h : t.history events = early ++ step :: late) :
    ∃ (u : TickedPlayer α) (event : LoopEvent α) (rest : List (LoopEvent α)),
      step = u.step event ∧ late = (u.turn event).1.history rest := by
  induction early generalizing t events with
  | nil =>
    cases events with
    | nil => cases h
    | cons event rest =>
      obtain ⟨rfl, rfl⟩ := List.cons.inj h
      exact ⟨t, event, rest, rfl, rfl⟩
  | cons first early ih =>
    cases events with
    | nil => cases h
    | cons event rest => exact ih (List.cons.inj h).2

/-! ## The clock that runs by itself -/

/-- The player on a clock after events one after the other. -/
def after (t : TickedPlayer α) (events : List (LoopEvent α)) : TickedPlayer α :=
  events.foldl (fun t event => (t.turn event).1) t

/-- One player on a clock comes of another by a course of a loop, with these
wake-ups. -/
def Comes (t t' : TickedPlayer α) (wakeUps : List (WakeUp α)) : Prop :=
  ∃ events, t.after events = t' ∧ (t.history events).filterMap (·.wakeUp) = wakeUps

theorem Comes.refl (t : TickedPlayer α) : Comes t t [] :=
  ⟨[], rfl, rfl⟩

/-- An event, and then a course. -/
theorem Comes.head {t' : TickedPlayer α} {wakeUps : List (WakeUp α)} (event : LoopEvent α)
    (later : Comes (t.turn event).1 t' wakeUps) :
    Comes t t' ((t.turn event).2.toList ++ wakeUps) := by
  obtain ⟨events, rfl, rfl⟩ := later
  refine ⟨event :: events, rfl, ?_⟩
  show List.filterMap _ (t.step event :: _) = _
  rw [List.filterMap_cons]
  cases hwake : (t.turn event).2 with
  | none => simp [step, hwake]
  | some wakeUp => simp [step, hwake]

theorem comes_settle (t : TickedPlayer α) (request : Request α) :
    ∃ wakeUps, Comes t (t.ask request).settle wakeUps := by
  unfold settle
  split
  · exact ⟨_, .head (.act request) (.head (.run _ [] []) (.refl _))⟩
  · exact ⟨_, .head (.act request) (.head (.run _ [] []) (.refl _))⟩
  · exact ⟨_, .head (.act request) (.refl _)⟩

/-- As the clock runs, the wake-ups are those of a course. -/
theorem comes_runTo (stop : α) (fuel : Nat) (t : TickedPlayer α) :
    Comes t (t.runTo stop fuel).1 (t.runTo stop fuel).2 := by
  have hstop (t : TickedPlayer α) : Comes t { t with now := stop } [] :=
    .head (.pass stop) (.refl _)
  induction fuel generalizing t with
  | zero => exact hstop t
  | succ fuel ih =>
    unfold runTo
    split
    · dsimp only
      split
      · exact .head (.pass _) (.head (.run _ [] []) (ih _))
      · exact hstop t
    · exact hstop t

/-- Whatever is done with a player on a clock that runs by itself is a course of a
loop. -/
theorem comes_of_operation (t : TickedPlayer α) :
    (∃ wakeUps, Comes t t.start wakeUps) ∧ (∃ wakeUps, Comes t t.close wakeUps) ∧
      (∀ command t' response warnings, t.dispatch command = .ok (t', response, warnings) →
        ∃ wakeUps, Comes t t' wakeUps) ∧
      ∀ span, Comes t (t.wait span).1 (t.wait span).2 := by
  refine ⟨comes_settle t .start, comes_settle t .close, ?_, fun span => comes_runTo _ _ t⟩
  intro command t' response warnings h
  obtain ⟨d, -, hd⟩ := Except.map_eq_ok.mp h
  obtain ⟨rfl, -⟩ := Prod.mk.inj hd
  exact comes_settle t (.command command [] [])

/-! ## The turn of a task -/

/-- How a task goes on, or ends, after it has looked at the player. -/
def lookedAround (t : TickedPlayer α) : Task α :=
  if t.active && countsInSeconds t.player.settings.tickInterval then .asleep t.now else .ended

/-- What comes of the turn of a task. -/
inductive Ran (t : TickedPlayer α) (k : Nat) (onResponse onComplete : List (Request α)) :
    TickedPlayer α × Option (WakeUp α) → Prop
  /-- There is no such task, it has ended, or it is in the middle of a tick. -/
  | skipped (made : t.tasks[k]? ≠ some .made) (asleep : ∀ last, t.tasks[k]? ≠ some (.asleep last))
      (calledOff : t.tasks[k]? ≠ some .calledOff) :
      Ran t k onResponse onComplete (t, none)
  | began (made : t.tasks[k]? = some .made) : Ran t k onResponse onComplete (t.goOn k, none)
  | ended (calledOff : t.tasks[k]? = some .calledOff) :
      Ran t k onResponse onComplete ({ t with tasks := t.tasks.set k .ended }, none)
  | refused {last : α} {reason : Refused} (asleep : t.tasks[k]? = some (.asleep last))
      (refused : t.player.dispatch (.tick (between last t.now)) = .error reason) :
      Ran t k onResponse onComplete
        ({ t with tasks := t.tasks.set k .ended }, some ⟨between last t.now, none⟩)
  | ticked {last : α} {d : Dispatched α} (asleep : t.tasks[k]? = some (.asleep last))
      (taken : t.player.dispatch (.tick (between last t.now)) = .ok d) :
      Ran t k onResponse onComplete
        (((t.beginTick k).ask (.command (.tick (between last t.now)) onResponse onComplete)).goOn k,
          some ⟨between last t.now, d.response⟩)

theorem run_ran (t : TickedPlayer α) (k : Nat) (onResponse onComplete : List (Request α)) :
    Ran t k onResponse onComplete (t.run k onResponse onComplete) := by
  unfold run
  cases htask : t.tasks[k]? with
  | none => apply Ran.skipped <;> simp [htask]
  | some task =>
    cases task with
    | made => exact .began htask
    | calledOff => exact .ended htask
    | asleep last =>
      dsimp only
      split
      · rename_i htaken
        exact .refused htask htaken
      · rename_i htaken
        exact .ticked htask htaken
    | ticking | ended => apply Ran.skipped <;> simp [htask]

/-! ## What holds whenever the loop has control -/

/-- What holds of a player on a clock whenever the loop has control. -/
structure AtRest (t : TickedPlayer α) : Prop where
  measured : t.Measured
  tidy : t.Tidy
  still : t.tasks.getLast? ≠ some .ticking
  awake : ∀ last, t.tasks.getLast? = some (.asleep last) → t.player.state.completed = false
  going : t.wanted = true → t.active = true → t.running = true

/-- The latest task sleeps while there is something to run, and ends
otherwise. -/
theorem atRest_of_latest (measured : t.Measured)
    (earlier : ∀ task ∈ t.tasks.dropLast, task = .ended)
    (latest : k + 1 = t.tasks.length) {task : Task α}
    (rests : (task = .ended ∧ t.active = false) ∨ (task = .asleep t.now ∧ t.active = true)) :
    AtRest { t with tasks := t.tasks.set k task } := by
  rw [set_latest latest]
  have hmeasured : Measured { t with tasks := t.tasks.dropLast ++ [task] } :=
    ⟨measured.interval, measured.durations, measured.led⟩
  have hearlier : ∀ u ∈ (t.tasks.dropLast ++ [task]).dropLast, u = .ended := by
    rw [List.dropLast_concat]
    exact earlier
  have hlast : (t.tasks.dropLast ++ [task]).getLast? = some task := List.getLast?_concat
  rcases rests with ⟨rfl, hidle⟩ | ⟨rfl, hactive⟩
  · refine ⟨hmeasured, ⟨hearlier, fun h => ?_, fun last h => ?_⟩, fun h => ?_, fun last h => ?_,
      fun _ hactive => absurd (hidle.symm.trans hactive) (by decide)⟩
    all_goals cases hlast.symm.trans h
  · have hgoes : ¬ t.player.Over := not_over_of_active hactive
    refine ⟨hmeasured, ⟨hearlier, fun h => ?_, fun _ _ => ?_⟩, fun h => ?_, fun _ _ => ?_,
      fun _ _ => running_of_alive hlast rfl⟩
    · cases hlast.symm.trans h
    · exact Bool.of_not_eq_true fun hclosed => hgoes (Or.inl hclosed)
    · cases hlast.symm.trans h
    · exact Bool.of_not_eq_true fun hdone => hgoes (Or.inr hdone)

/-- A task is in the middle of a tick. -/
structure InTick (t : TickedPlayer α) : Prop where
  measured : t.Measured
  tidy : t.Tidy
  ticking : t.tasks.getLast? = some .ticking

namespace AtRest

theorem beginTick (rest : t.AtRest) (latest : k + 1 = t.tasks.length) : InTick (t.beginTick k) := by
  have htasks : (t.beginTick k).tasks = t.tasks.dropLast ++ [.ticking] := set_latest latest _
  have hlast : (t.beginTick k).tasks.getLast? = some .ticking := by
    rw [htasks, List.getLast?_concat]
  refine ⟨⟨rest.measured.interval, rest.measured.durations, rest.measured.led⟩,
    ⟨?_, fun h => ?_, fun last h => ?_⟩, hlast⟩
  · rw [htasks, List.dropLast_concat]
    exact rest.tidy.earlier
  · cases hlast.symm.trans h
  · cases hlast.symm.trans h

theorem goOn (measured : t.Measured) (earlier : ∀ task ∈ t.tasks.dropLast, task = .ended)
    (latest : k + 1 = t.tasks.length) : AtRest (t.goOn k) := by
  have hlooks : t.lookedAround = if t.active then .asleep t.now else .ended := by
    unfold lookedAround
    rw [measured.interval, Bool.and_true]
  show AtRest { t with tasks := t.tasks.set k t.lookedAround }
  refine atRest_of_latest measured earlier latest ?_
  rw [hlooks]
  cases t.active with
  | true => exact Or.inr ⟨rfl, rfl⟩
  | false => exact Or.inl ⟨rfl, rfl⟩

theorem new {screen : Screen} {settings : Settings}
    (durations : screen.FitsScale α settings.maxNestingDepth)
    (interval : countsInSeconds settings.tickInterval = true) :
    AtRest (.new screen settings : TickedPlayer α) :=
  ⟨⟨interval, durations, branchLed_new _ _⟩, ⟨nofun, nofun, nofun⟩, nofun, nofun, nofun⟩

theorem ask (rest : t.AtRest) (request : Request α) : AtRest (t.ask request) := by
  have hasks := ask_tends request t
  refine ⟨hasks.keeps Tended.measured rest.measured, hasks.tidy rest.tidy,
    hasks.not_latest rest.still nofun nofun, fun last hasleep => ?_, running_ask rest.going⟩
  refine Bool.of_not_eq_true fun hdone => ?_
  cases hbefore : t.player.state.completed with
  | false => exact not_asleep_of_ask hbefore hdone last hasleep
  | true =>
    have hawake : t.tasks.getLast? ≠ some (.asleep last) := fun hlast =>
      absurd (hbefore.symm.trans (rest.awake last hlast)) (by decide)
    exact hasks.not_latest hawake nofun nofun hasleep

/-- Every turn of a task keeps it. -/
theorem run (rest : t.AtRest) (k : Nat) (onResponse onComplete : List (Request α)) :
    AtRest (t.run k onResponse onComplete).1 := by
  have hran := run_ran t k onResponse onComplete
  generalize t.run k onResponse onComplete = result at hran ⊢
  cases hran with
  | skipped => exact rest
  | began made =>
    obtain ⟨-, latest⟩ := rest.tidy.latest made nofun
    exact goOn rest.measured rest.tidy.earlier latest
  | ended calledOff =>
    obtain ⟨hlast, latest⟩ := rest.tidy.latest calledOff nofun
    exact atRest_of_latest rest.measured rest.tidy.earlier latest
      (Or.inl ⟨rfl, not_active_of_over (rest.tidy.calledOff hlast)⟩)
  | refused asleep refused =>
    obtain ⟨d, htaken⟩ := Player.exists_tick rest.measured.durations rest.measured.led _
    cases refused.symm.trans htaken
  | @ticked last d asleep taken =>
    obtain ⟨-, latest⟩ := rest.tidy.latest asleep nofun
    -- while it ticks, the task stays the latest
    have hbegins := rest.beginTick latest
    have hasks := ask_tends (.command (.tick (between last t.now)) onResponse onComplete)
      (t.beginTick k)
    obtain ⟨-, hlength⟩ := hasks.ticking hbegins.ticking
    refine goOn (hasks.keeps Tended.measured hbegins.measured) (hasks.tidy hbegins.tidy).earlier ?_
    rw [hlength, latest]
    exact List.length_set.symm

theorem turn (rest : t.AtRest) (event : LoopEvent α) : AtRest (t.turn event).1 := by
  cases event with
  | act request => exact rest.ask request
  | pass now =>
    exact ⟨⟨rest.measured.interval, rest.measured.durations, rest.measured.led⟩,
      ⟨rest.tidy.earlier, rest.tidy.calledOff, rest.tidy.asleep⟩, rest.still, rest.awake,
      rest.going⟩
  | run k onResponse onComplete => exact rest.run k onResponse onComplete

/-- One task at most is alive, whatever state is looked at. -/
theorem lone (rest : t.AtRest) {event : LoopEvent α} {u : TickedPlayer α}
    (sees : (t.step event).Sees u) : u.tasks.countP Task.alive ≤ 1 := by
  rcases sees with rfl | rfl | sees
  · exact rest.tidy.countP_alive_le_one
  · exact (rest.turn event).tidy.countP_alive_le_one
  · obtain ⟨pending, underway⟩ := sees
    cases event with
    | act request => exact (Passes.tends underway).tidy rest.tidy |>.countP_alive_le_one
    | pass => exact underway.elim
    | run k onResponse onComplete =>
      obtain ⟨last, asleep, passes⟩ := underway
      obtain ⟨-, latest⟩ := rest.tidy.latest asleep nofun
      exact (passes.tends.tidy (rest.beginTick latest).tidy).countP_alive_le_one

/-- Where ticking is wanted and the screen plays, a task is there, and it is not
called off. -/
theorem there (rest : t.AtRest) (wanted : t.wanted = true) (active : t.active = true) :
    ∃ task ∈ t.tasks, task.alive = true ∧ task ≠ .calledOff := by
  obtain ⟨task, hlast, halive⟩ := exists_of_running (rest.going wanted active)
  refine ⟨task, mem_tasks.mpr (Or.inr hlast), halive, ?_⟩
  rintro rfl
  exact not_over_of_active active (rest.tidy.calledOff hlast)

/-- Where the player takes no more commands, no tick is given, and the state stays as
it is. -/
theorem quiet (rest : t.AtRest) (ended : t.player.Over) (event : LoopEvent α) :
    (t.turn event).2 = none ∧ (t.turn event).1.player.state = t.player.state := by
  cases event with
  | act request => exact ⟨rfl, ((ask_tends request t).stays ended).2⟩
  | pass => exact ⟨rfl, rfl⟩
  | run k onResponse onComplete =>
    have hran := run_ran t k onResponse onComplete
    have hasleep {last : α} (asleep : t.tasks[k]? = some (.asleep last)) : False := by
      obtain ⟨hlast, -⟩ := rest.tidy.latest asleep nofun
      rcases ended with hclosed | hdone
      · exact absurd ((rest.tidy.asleep last hlast).symm.trans hclosed) (by decide)
      · exact absurd ((rest.awake last hlast).symm.trans hdone) (by decide)
    show (t.run k onResponse onComplete).2 = none ∧
      (t.run k onResponse onComplete).1.player.state = t.player.state
    generalize t.run k onResponse onComplete = result at hran ⊢
    cases hran with
    | skipped | began | ended => exact ⟨rfl, rfl⟩
    | refused asleep | ticked asleep => exact (hasleep asleep).elim

/-- A task that leaves nothing to run has ended. -/
theorem ends (rest : t.AtRest) (within : k < t.tasks.length)
    (idle : (t.run k onResponse onComplete).1.active = false) :
    (t.run k onResponse onComplete).1.tasks[k]? = some .ended := by
  have hran := run_ran t k onResponse onComplete
  generalize t.run k onResponse onComplete = result at hran idle ⊢
  have hlooks {u : TickedPlayer α} (within : k < u.tasks.length) (idle : u.active = false) :
      (u.goOn k).tasks[k]? = some .ended := by
    show (u.tasks.set k u.lookedAround)[k]? = _
    rw [List.getElem?_set_self within, lookedAround, idle]
    rfl
  cases hran with
  | skipped made asleep calledOff =>
    have htask := List.getElem?_eq_getElem within
    generalize t.tasks[k] = task at htask
    cases task with
    | made => exact absurd htask made
    | asleep last => exact absurd htask (asleep last)
    | ticking => exact absurd (rest.tidy.latest htask nofun).1 rest.still
    | calledOff => exact absurd htask calledOff
    | ended => exact htask
  | began => exact hlooks within idle
  | ended | refused => exact List.getElem?_set_self within
  | @ticked last =>
    have hasks := ask_tends (.command (.tick (between last t.now)) onResponse onComplete)
      (t.beginTick k)
    refine hlooks (Nat.lt_of_lt_of_le within ?_) idle
    exact Nat.le_trans (Nat.le_of_eq List.length_set.symm) hasks.length_le

end AtRest

/-- Once ticking is wanted, it stays so. -/
theorem wanted_turn (event : LoopEvent α) (wanted : t.wanted = true) :
    (t.turn event).1.wanted = true := by
  cases event with
  | act request => exact (ask_tends request t).wanted wanted
  | pass => exact wanted
  | run k onResponse onComplete =>
    have hran := run_ran t k onResponse onComplete
    show (t.run k onResponse onComplete).1.wanted = true
    generalize t.run k onResponse onComplete = result at hran ⊢
    cases hran with
    | skipped | began | ended | refused => exact wanted
    | ticked => exact (ask_tends _ (t.beginTick k)).wanted wanted

/-- Where ticking was asked for in the course of an event, it is wanted after it. -/
theorem wanted_of_asked {event : LoopEvent α} (asked : (t.step event).AsksToStart) :
    (t.turn event).1.wanted = true := by
  obtain ⟨u, rest, underway⟩ := asked
  cases event with
  | act request =>
    have hwanted := Passes.wanted underway
    unfold askAll askAll at hwanted
    exact hwanted
  | pass => exact underway.elim
  | run k onResponse onComplete =>
    obtain ⟨last, asleep, passes⟩ := underway
    have hasked := ask_command (t.beginTick k) (.tick (between last t.now)) onResponse onComplete
    have hwanted : ((t.beginTick k).ask
        (.command (.tick (between last t.now)) onResponse onComplete)).wanted = true := by
      have hall := passes.wanted
      unfold askAll askAll at hall
      exact hall
    have hran := run_ran t k onResponse onComplete
    show (t.run k onResponse onComplete).1.wanted = true
    generalize t.run k onResponse onComplete = result at hran ⊢
    cases hran with
    | skipped _ awake => exact absurd asleep (awake last)
    | began made => cases asleep.symm.trans made
    | ended calledOff => cases asleep.symm.trans calledOff
    | refused asleep' refused =>
      cases asleep.symm.trans asleep'
      generalize (t.beginTick k).ask (.command (.tick (between last t.now)) onResponse onComplete) =
        t' at hasked hwanted
      cases hasked with
      | ignored => exact hwanted
      | completed _ taken | resumed _ taken => cases refused.symm.trans taken
    | ticked asleep' =>
      cases asleep.symm.trans asleep'
      exact hwanted

end TickedPlayer

end Quiz
