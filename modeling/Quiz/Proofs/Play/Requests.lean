/-
Quiz.Proofs.Play.Requests — what requests make of a player on a clock.

Whoever is told of a response may ask for more while the command is still
carried out, so requests nest. `Tended` lists what a single part of a request
does; `ask_tends` says that a request, with all that is asked for underway,
comes to such parts one after the other. What each of them keeps is then kept
by every request, and holds of every state that is seen underway (`Passes`).

* `Tidy` — only the latest task has not ended, and it is called off for a reason
  only.
* `not_asleep_of_ask` — no task sleeps on behind a screen that the request completed.
* `running_ask` — where ticking is wanted, a task is there as long as the screen
  plays.
* `Passes.wanted` — it is wanted once it was asked for, underway or not.
* `Tends.countsFrom` — a request leaves a task to count as it did, or ends that.
-/
import Quiz.Play.Ticker
import Quiz.Proofs.Play.Durations

namespace Quiz

variable {α : Type}

namespace Task

theorem alive_eq_false {task : Task α} : task.alive = false ↔ task = .ended := by
  cases task <;> simp [alive]

end Task

namespace TickedPlayer

/-! ## The tasks -/

section Tasks

variable {t : TickedPlayer α} {task : Task α}

theorem not_active_of_over {t : TickedPlayer α} (h : t.player.Over) : t.active = false := by
  unfold active
  rcases h with hclosed | hdone
  · rw [hclosed]
    rfl
  · rw [Player.status_eq_completed.mpr hdone]
    simp

theorem not_over_of_active (h : t.active = true) : ¬ t.player.Over := fun ended => by
  rw [not_active_of_over ended] at h
  cases h

theorem running_eq_false :
    t.running = false ↔ ∀ task, t.tasks.getLast? = some task → task = .ended := by
  unfold running
  cases t.tasks.getLast? with
  | none => simp
  | some latest =>
    rw [Option.any_some, Task.alive_eq_false]
    exact ⟨fun h task ht => Option.some.inj ht ▸ h, fun h => h latest rfl⟩

theorem running_of_alive (latest : t.tasks.getLast? = some task) (alive : task.alive = true) :
    t.running = true := by
  unfold running
  rw [latest]
  exact alive

theorem exists_of_running (h : t.running = true) :
    ∃ task, t.tasks.getLast? = some task ∧ task.alive = true := by
  unfold running at h
  cases hlast : t.tasks.getLast? with
  | none => simp [hlast] at h
  | some task => exact ⟨task, rfl, by simpa [hlast] using h⟩

theorem mem_tasks : task ∈ t.tasks ↔
    task ∈ t.tasks.dropLast ∨ t.tasks.getLast? = some task := by
  rcases t.tasks.eq_nil_or_concat' with hnone | ⟨front, latest, hfront⟩
  · simp [hnone]
  · rw [hfront, List.dropLast_concat, List.getLast?_concat, List.mem_append, List.mem_singleton,
      Option.some.injEq, eq_comm (a := task)]

theorem tasks_stop {front : List (Task α)} (h : t.tasks = front ++ [task]) :
    t.stop.tasks = front ++ [task.callOff] := by
  have hmodify (l : List (Task α)) :
      (l ++ [task]).modify l.length Task.callOff = l ++ [task.callOff] := by
    induction l with
    | nil => rfl
    | cons first rest ih => exact congrArg (first :: ·) ih
  show t.tasks.modify (t.tasks.length - 1) Task.callOff = front ++ [task.callOff]
  rw [h, List.length_append, List.length_singleton, Nat.add_sub_cancel, hmodify]

@[simp] theorem dropLast_stop (t : TickedPlayer α) :
    t.stop.tasks.dropLast = t.tasks.dropLast := by
  rcases t.tasks.eq_nil_or_concat' with hnone | ⟨front, task, hfront⟩
  · simp [stop, hnone]
  · rw [tasks_stop hfront, hfront, List.dropLast_concat, List.dropLast_concat]

@[simp] theorem getLast?_stop (t : TickedPlayer α) :
    t.stop.tasks.getLast? = t.tasks.getLast?.map Task.callOff := by
  rcases t.tasks.eq_nil_or_concat' with hnone | ⟨front, task, hfront⟩
  · simp [stop, hnone]
  · rw [tasks_stop hfront, hfront, List.getLast?_concat, List.getLast?_concat]
    rfl

@[simp] theorem length_stop (t : TickedPlayer α) : t.stop.tasks.length = t.tasks.length :=
  List.length_modify _ _ _

@[simp] theorem resume_player (t : TickedPlayer α) : t.resume.player = t.player := by
  unfold resume launch
  split
  · split <;> rfl
  · rfl

/-- Where ticking is wanted and the screen plays, a task is there. -/
theorem running_resume (wanted : t.resume.wanted = true) (active : t.resume.active = true) :
    t.resume.running = true := by
  have hplaying : t.resume.player.status = .playing :=
    of_decide_eq_true (Bool.and_eq_true_iff.mp active).2
  rw [resume_player] at hplaying
  unfold resume at wanted ⊢
  split at wanted
  · rename_i hplays
    rw [if_pos hplays]
    unfold launch
    split
    · assumption
    · exact running_of_alive List.getLast?_concat rfl
  · rename_i hidle
    simp [wanted, hplaying] at hidle

theorem set_latest {tasks : List (Task α)} {k : Nat} (latest : k + 1 = tasks.length)
    (task : Task α) : tasks.set k task = tasks.dropLast ++ [task] := by
  rcases tasks.eq_nil_or_concat' with rfl | ⟨front, last, rfl⟩
  · cases latest
  · rw [List.length_append, List.length_singleton] at latest
    obtain rfl := Nat.succ.inj latest
    rw [List.set_append_right _ _ (Nat.le_refl _), Nat.sub_self, List.dropLast_concat]
    rfl

/-- Only the latest task has not ended. It is called off only where the player
takes no more commands, and does not sleep on once the player is closed. -/
structure Tidy (t : TickedPlayer α) : Prop where
  earlier : ∀ task ∈ t.tasks.dropLast, task = .ended
  calledOff : t.tasks.getLast? = some .calledOff → t.player.Over
  asleep : ∀ last, t.tasks.getLast? = some (.asleep last) → t.player.closed = false

namespace Tidy

theorem eq_over_of_not_running (tidy : t.Tidy) (idle : t.running = false) (h : task ∈ t.tasks) :
    task = .ended :=
  (mem_tasks.mp h).elim (tidy.earlier task) (running_eq_false.mp idle task)

/-- At most one task has not ended. -/
theorem countP_alive_le_one (tidy : t.Tidy) : t.tasks.countP Task.alive ≤ 1 := by
  have hearlier : t.tasks.dropLast.countP Task.alive = 0 := by
    rw [List.countP_eq_zero]
    intro task htask
    rw [tidy.earlier task htask]
    exact Bool.false_ne_true
  rcases t.tasks.eq_nil_or_concat' with hnone | ⟨front, latest, hfront⟩
  · rw [hnone]
    exact Nat.zero_le 1
  · rw [hfront, List.dropLast_concat] at hearlier
    rw [hfront, List.countP_append, hearlier, Nat.zero_add]
    exact List.countP_le_length

/-- A task that has not ended is the latest. -/
theorem latest (tidy : t.Tidy) {k : Nat} (at_k : t.tasks[k]? = some task)
    (goes : task ≠ .ended) : t.tasks.getLast? = some task ∧ k + 1 = t.tasks.length := by
  rcases t.tasks.eq_nil_or_concat' with hnone | ⟨front, latest, hfront⟩
  · rw [hnone] at at_k
    cases at_k
  · have hended := tidy.earlier
    rw [hfront, List.dropLast_concat] at hended
    rw [hfront] at at_k
    obtain ⟨hk, hget⟩ := List.getElem?_eq_some_iff.mp at_k
    rcases Nat.lt_or_ge k front.length with hfirst | hlast
    · rw [List.getElem_append_left hfirst] at hget
      exact absurd (hended task (hget ▸ List.getElem_mem hfirst)) goes
    · rw [List.length_append, List.length_singleton] at hk
      obtain rfl : k = front.length := by omega
      rw [hfront, List.getLast?_concat, List.length_append, List.length_singleton]
      rw [List.getElem_concat_length rfl] at hget
      exact ⟨congrArg some hget, rfl⟩

end Tidy

end Tasks

variable [Scale α]

/-! ## The parts of a request -/

/-- A command was taken, and who waits for its response is told of it. -/
def told (t : TickedPlayer α) (d : Dispatched α) (onResponse : List (Request α)) :
    TickedPlayer α :=
  if d.response.isSome then askAll { t with player := d.player } onResponse
  else { t with player := d.player }

/-- What comes of a command. -/
inductive Commanded (t : TickedPlayer α) (c : Command α)
    (onResponse onComplete : List (Request α)) : TickedPlayer α → Prop
  /-- The player is closed, or refuses it. -/
  | ignored : Commanded t c onResponse onComplete t
  /-- The screen turns out to be completed. -/
  | completed {d : Dispatched α} (opened : t.player.closed = false)
      (taken : t.player.dispatch c = .ok d) (going : t.player.state.completed = false)
      (done : (t.told d onResponse).player.state.completed = true) :
      Commanded t c onResponse onComplete (((t.told d onResponse).conclude c).askAll onComplete)
  /-- The screen goes on, or was completed before. -/
  | resumed {d : Dispatched α} (opened : t.player.closed = false)
      (taken : t.player.dispatch c = .ok d)
      (same : (t.told d onResponse).player.state.completed = true →
        t.player.state.completed = true) :
      Commanded t c onResponse onComplete (t.told d onResponse).resume

theorem ask_of_taken {t : TickedPlayer α} {c : Command α} {d : Dispatched α}
    (opened : t.player.closed = false) (taken : t.player.dispatch c = .ok d)
    (onResponse onComplete : List (Request α)) :
    t.ask (.command c onResponse onComplete) =
      if (t.told d onResponse).player.state.completed && !t.player.state.completed then
        ((t.told d onResponse).conclude c).askAll onComplete
      else (t.told d onResponse).resume := by
  unfold ask
  rw [if_neg (by simp [opened]), taken]
  rfl

theorem ask_command (t : TickedPlayer α) (c : Command α)
    (onResponse onComplete : List (Request α)) :
    Commanded t c onResponse onComplete (t.ask (.command c onResponse onComplete)) := by
  cases hopened : t.player.closed with
  | true =>
    unfold ask
    rw [if_pos hopened]
    exact .ignored
  | false =>
    cases htaken : t.player.dispatch c with
    | error reason =>
      unfold ask
      rw [if_neg (by simp [hopened]), htaken]
      exact .ignored
    | ok d =>
      rw [ask_of_taken hopened htaken]
      split
      · rename_i hcompletes
        obtain ⟨hdone, hgoing⟩ := Bool.and_eq_true_iff.mp hcompletes
        exact .completed hopened htaken ((Bool.not_eq_true' _).mp hgoing) hdone
      · rename_i hsame
        refine .resumed hopened htaken fun hdone => ?_
        simpa [hdone] using hsame

/-- What one part of a request makes of a player on a clock. -/
inductive Tended (t : TickedPlayer α) : TickedPlayer α → Prop
  /-- Ticking is wanted. -/
  | wanting : Tended t { t with wanted := true }
  /-- A task is made. -/
  | launched (wanted : t.wanted = true) (playing : t.player.status = .playing)
      (idle : t.running = false) : Tended t { t with tasks := t.tasks ++ [.made] }
  /-- The player is closed. -/
  | closing : Tended t { t.stop with player := t.player.close }
  /-- A command is given to the player. -/
  | given {c : Command α} {d : Dispatched α} (opened : t.player.closed = false)
      (taken : t.player.dispatch c = .ok d) : Tended t { t with player := d.player }
  /-- The screen turns out to be completed. -/
  | concluded {c : Command α} (done : t.player.state.completed = true) : Tended t (t.conclude c)

/-- What several parts make of it. -/
abbrev Tends : TickedPlayer α → TickedPlayer α → Prop :=
  Relation.ReflTransGen Tended

theorem resume_tends (t : TickedPlayer α) : Tends t t.resume := by
  unfold resume launch
  split
  · rename_i hplays
    obtain ⟨hwanted, hplaying⟩ := Bool.and_eq_true_iff.mp hplays
    split
    · exact .refl
    · rename_i hidle
      exact .single (.launched hwanted (of_decide_eq_true hplaying) (Bool.of_not_eq_true hidle))
  · exact .refl

theorem told_tends {t : TickedPlayer α} {c : Command α} {d : Dispatched α}
    {onResponse : List (Request α)} (opened : t.player.closed = false)
    (taken : t.player.dispatch c = .ok d)
    (asked : ∀ t : TickedPlayer α, Tends t (t.askAll onResponse)) :
    Tends t (t.told d onResponse) := by
  have hgiven : Tends t { t with player := d.player } := .single (.given opened taken)
  unfold told
  split
  · exact hgiven.trans (asked _)
  · exact hgiven

mutual

/-- A request comes to parts one after the other. -/
theorem ask_tends : (request : Request α) → (t : TickedPlayer α) → Tends t (t.ask request)
  | .start, _ => by
    unfold ask
    exact .head .wanting (resume_tends _)
  | .close, _ => by
    unfold ask
    exact .single .closing
  | .command c onResponse onComplete, t => by
    have htold {d : Dispatched α} (opened : t.player.closed = false)
        (taken : t.player.dispatch c = .ok d) : Tends t (t.told d onResponse) :=
      told_tends opened taken (askAll_tends onResponse)
    have hasked := ask_command t c onResponse onComplete
    generalize t.ask (.command c onResponse onComplete) = t' at hasked ⊢
    cases hasked with
    | ignored => exact .refl
    | completed opened taken _ done =>
      exact ((htold opened taken).tail (.concluded done)).trans (askAll_tends onComplete _)
    | resumed opened taken => exact (htold opened taken).trans (resume_tends _)

theorem askAll_tends : (requests : List (Request α)) → (t : TickedPlayer α) →
    Tends t (t.askAll requests)
  | [], _ => by
    unfold askAll
    exact .refl
  | request :: rest, t => by
    unfold askAll
    exact (ask_tends request t).trans (askAll_tends rest _)

end

/-- The states that are seen while requests are carried out: before each of them,
and by those who are told of a response or of the completion. Last come the requests
that are then to be carried out, one after the other. -/
inductive Passes : TickedPlayer α → List (Request α) → TickedPlayer α → List (Request α) → Prop
  | here {t : TickedPlayer α} {requests : List (Request α)} : Passes t requests t requests
  | next {t u : TickedPlayer α} {request : Request α} {rest pending : List (Request α)}
      (passes : Passes (t.ask request) rest u pending) : Passes t (request :: rest) u pending
  | response {t u : TickedPlayer α} {c : Command α} {d : Dispatched α}
      {onResponse onComplete rest pending : List (Request α)} (opened : t.player.closed = false)
      (taken : t.player.dispatch c = .ok d) (responded : d.response.isSome = true)
      (passes : Passes { t with player := d.player } onResponse u pending) :
      Passes t (.command c onResponse onComplete :: rest) u pending
  | completion {t u : TickedPlayer α} {c : Command α} {d : Dispatched α}
      {onResponse onComplete rest pending : List (Request α)} (opened : t.player.closed = false)
      (taken : t.player.dispatch c = .ok d) (going : t.player.state.completed = false)
      (done : (t.told d onResponse).player.state.completed = true)
      (passes : Passes ((t.told d onResponse).conclude c) onComplete u pending) :
      Passes t (.command c onResponse onComplete :: rest) u pending

theorem Passes.tends {t u : TickedPlayer α} {requests pending : List (Request α)}
    (h : Passes t requests u pending) : Tends t u := by
  induction h with
  | here => exact .refl
  | next _ ih => exact (ask_tends _ _).trans ih
  | response opened taken _ _ ih => exact .head (.given opened taken) ih
  | completion opened taken _ done _ ih =>
    exact ((told_tends opened taken (askAll_tends _)).tail (.concluded done)).trans ih

/-! ## What every part keeps -/

/-- What every part keeps is kept by several of them. -/
theorem Tends.keeps {P : TickedPlayer α → Prop}
    (step : ∀ {t t' : TickedPlayer α}, Tended t t' → P t → P t') {t t' : TickedPlayer α}
    (h : Tends t t') (first : P t) : P t' := by
  induction h with
  | refl => exact first
  | tail _ part ih => exact step part ih

theorem Tended.now_eq {t t' : TickedPlayer α} (h : Tended t t') : t'.now = t.now := by
  cases h <;> rfl

theorem Tends.now_eq {t t' : TickedPlayer α} (h : Tends t t') : t'.now = t.now :=
  h.keeps (P := fun u => u.now = t.now) (fun part same => part.now_eq.trans same) rfl

theorem Tends.wanted {t t' : TickedPlayer α} (h : Tends t t') (first : t.wanted = true) :
    t'.wanted = true := by
  refine h.keeps (P := fun u => u.wanted = true) (fun part wanted => ?_) first
  cases part with
  | wanting => rfl
  | launched | closing | given | concluded => exact wanted

/-- Where the player takes no more commands, its state stays as it is. -/
theorem Tended.stays {t t' : TickedPlayer α} (h : Tended t t') (ended : t.player.Over) :
    t'.player.Over ∧ t'.player.state = t.player.state := by
  cases h with
  | wanting | launched | concluded => exact ⟨ended, rfl⟩
  | closing => exact ⟨Or.inl rfl, rfl⟩
  | given _ taken =>
    rw [Player.dispatch_of_over ended] at taken
    obtain rfl := Except.ok.inj taken
    exact ⟨ended, rfl⟩

theorem Tends.stays {t t' : TickedPlayer α} (h : Tends t t') (ended : t.player.Over) :
    t'.player.Over ∧ t'.player.state = t.player.state := by
  refine h.keeps (P := fun u => u.player.Over ∧ u.player.state = t.player.state)
    (fun part kept => ?_) ⟨ended, rfl⟩
  obtain ⟨hover, hstate⟩ := part.stays kept.1
  exact ⟨hover, hstate.trans kept.2⟩

/-- A player whose ticks are never refused, and whose interval can be counted. -/
structure Measured (t : TickedPlayer α) : Prop where
  interval : countsInSeconds t.player.settings.tickInterval = true
  durations : t.player.screen.FitsScale α t.player.settings.maxNestingDepth
  led : BranchLed t.player.screen t.player.settings.maxNestingDepth t.player.state

theorem Tended.measured {t t' : TickedPlayer α} (h : Tended t t') (m : t.Measured) :
    t'.Measured := by
  cases h with
  | wanting | launched | closing | concluded => exact ⟨m.interval, m.durations, m.led⟩
  | given _ taken =>
    obtain ⟨state, delay, hchange, hplayer⟩ := Player.change_of_dispatch taken
    rw [hplayer]
    exact ⟨m.interval, m.durations, hchange.led m.led⟩

/-! ## What happens to the tasks -/

section Tasks

variable {t t' : TickedPlayer α}

theorem Tended.tidy (h : Tended t t') (tidy : t.Tidy) : t'.Tidy := by
  have hstopped {player : Player α} (ended : player.Over) :
      Tidy { t.stop with player := player } := by
    refine ⟨fun task htask => tidy.earlier task ?_, fun _ => ended, fun last hlast => ?_⟩
    · rw [← dropLast_stop]
      exact htask
    · obtain ⟨task, -, hcallOff⟩ := Option.map_eq_some_iff.mp ((getLast?_stop t).symm.trans hlast)
      cases task <;> cases hcallOff
  cases h with
  | wanting => exact ⟨tidy.earlier, tidy.calledOff, tidy.asleep⟩
  | launched _ _ idle =>
    refine ⟨fun task htask => ?_, fun hlast => ?_, fun last hlast => ?_⟩
    · rw [List.dropLast_concat] at htask
      exact tidy.eq_over_of_not_running idle htask
    · rw [List.getLast?_concat] at hlast
      cases hlast
    · rw [List.getLast?_concat] at hlast
      cases hlast
  | closing => exact hstopped (Or.inl rfl)
  | concluded done => exact hstopped (Or.inr done)
  | given opened taken =>
    refine ⟨tidy.earlier, fun hlast => ?_, fun last hlast => ?_⟩
    · rcases tidy.calledOff hlast with hclosed | hdone
      · exact absurd (hclosed.symm.trans opened) (by decide)
      · exact ((Tended.given opened taken).stays (Or.inr hdone)).1
    · obtain ⟨state, delay, -, hplayer⟩ := Player.change_of_dispatch taken
      show _ = false
      rw [hplayer]
      exact opened

theorem Tends.tidy (h : Tends t t') (tidy : t.Tidy) : t'.Tidy :=
  h.keeps Tended.tidy tidy

/-- No request puts a task to sleep, or in the middle of a tick, or ends it. -/
theorem Tends.not_latest {task : Task α} (h : Tends t t') (first : t.tasks.getLast? ≠ some task)
    (asked : task ≠ .made) (called : task ≠ .calledOff) :
    t'.tasks.getLast? ≠ some task := by
  have hstopped {t : TickedPlayer α} (first : t.tasks.getLast? ≠ some task) :
      t.stop.tasks.getLast? ≠ some task := by
    intro hlast
    obtain ⟨latest, hlatest, hcallOff⟩ :=
      Option.map_eq_some_iff.mp ((getLast?_stop t).symm.trans hlast)
    cases latest with
    | made | asleep | calledOff => exact called hcallOff.symm
    | ticking | ended => exact first (hcallOff ▸ hlatest)
  refine h.keeps (P := fun u => u.tasks.getLast? ≠ some task) (fun part first => ?_) first
  cases part with
  | wanting | given => exact first
  | launched =>
    rw [List.getLast?_concat]
    exact fun hmade => asked (Option.some.inj hmade).symm
  | closing | concluded => exact hstopped first

/-- In the middle of a tick no task is made, and the one that runs is left to
itself. -/
theorem Tends.ticking (h : Tends t t') (ticking : t.tasks.getLast? = some .ticking) :
    t'.tasks.getLast? = some .ticking ∧ t'.tasks.length = t.tasks.length := by
  refine h.keeps (P := fun u => u.tasks.getLast? = some .ticking ∧
    u.tasks.length = t.tasks.length) (fun part first => ?_) ⟨ticking, rfl⟩
  cases part with
  | wanting | given => exact first
  | launched _ _ idle =>
    rw [running_of_alive first.1 rfl] at idle
    cases idle
  | closing | concluded =>
    exact ⟨(getLast?_stop _).trans (by rw [first.1]; rfl), (length_stop _).trans first.2⟩

/-- What a task that is still to run counts from: nothing if it has not begun, else
the moment it began or ticked at last. -/
def countsFrom : Option (Task α) → Option (List α)
  | none | some .made => some []
  | some (.asleep last) => some [last]
  | some .ticking | some .calledOff | some .ended => none

/-- A request leaves a task to count as it did, or lets it count no more. -/
theorem Tended.countsFrom (h : Tended t t') (k : Nat) :
    countsFrom t'.tasks[k]? = countsFrom t.tasks[k]? ∨ countsFrom t'.tasks[k]? = none := by
  have hstopped : TickedPlayer.countsFrom t.stop.tasks[k]? = TickedPlayer.countsFrom t.tasks[k]? ∨
      TickedPlayer.countsFrom t.stop.tasks[k]? = none := by
    show TickedPlayer.countsFrom (t.tasks.modify _ Task.callOff)[k]? = _ ∨
      TickedPlayer.countsFrom (t.tasks.modify _ Task.callOff)[k]? = none
    rw [List.getElem?_modify]
    cases t.tasks[k]? with
    | none => exact Or.inl rfl
    | some task =>
      simp only [Option.map_eq_map, Option.map_some]
      split
      · cases task with
        | made | asleep => exact Or.inr rfl
        | ticking | calledOff | ended => exact Or.inl rfl
      · exact Or.inl rfl
  cases h with
  | wanting | given => exact Or.inl rfl
  | closing | concluded => exact hstopped
  | launched =>
    left
    rcases Nat.lt_or_ge k t.tasks.length with hearlier | hlater
    · rw [List.getElem?_append_left hearlier]
    · -- the task that is made has not begun
      rw [List.getElem?_append_right hlater, List.getElem?_eq_none hlater]
      cases k - t.tasks.length <;> rfl

theorem Tends.countsFrom (h : Tends t t') (k : Nat) :
    countsFrom t'.tasks[k]? = countsFrom t.tasks[k]? ∨ countsFrom t'.tasks[k]? = none := by
  refine h.keeps (P := fun u => TickedPlayer.countsFrom u.tasks[k]? =
    TickedPlayer.countsFrom t.tasks[k]? ∨ TickedPlayer.countsFrom u.tasks[k]? = none)
    (fun part first => ?_) (Or.inl rfl)
  rcases part.countsFrom k with hsame | hnone
  · rw [hsame]
    exact first
  · exact Or.inr hnone

theorem Tends.length_le (h : Tends t t') : t.tasks.length ≤ t'.tasks.length := by
  refine h.keeps (P := fun u => t.tasks.length ≤ u.tasks.length) (fun part first => ?_)
    (Nat.le_refl _)
  cases part with
  | wanting | given => exact first
  | launched =>
    rw [List.length_append]
    exact Nat.le_add_right_of_le first
  | closing | concluded => exact Nat.le_trans first (Nat.le_of_eq (length_stop _).symm)

end Tasks

/-! ## Requests as a whole -/

section Requests

variable {t : TickedPlayer α} {request : Request α}

/-- Where a request completes the screen, no task sleeps on. -/
theorem not_asleep_of_ask (going : t.player.state.completed = false)
    (done : (t.ask request).player.state.completed = true) (last : α) :
    (t.ask request).tasks.getLast? ≠ some (.asleep last) := by
  have hgoing : ¬ t.player.state.completed = true := by simp [going]
  cases request with
  | start =>
    unfold ask at done
    rw [resume_player] at done
    exact absurd done hgoing
  | close =>
    unfold ask at done
    exact absurd done hgoing
  | command c onResponse onComplete =>
    have hasked := ask_command t c onResponse onComplete
    generalize t.ask (.command c onResponse onComplete) = t' at hasked done ⊢
    cases hasked with
    | ignored => exact absurd done hgoing
    | completed opened taken _ _ =>
      refine (askAll_tends onComplete _).not_latest (fun hlast => ?_) nofun nofun
      -- the latest task was called off
      obtain ⟨task, -, hcallOff⟩ := Option.map_eq_some_iff.mp ((getLast?_stop _).symm.trans hlast)
      cases task <;> cases hcallOff
    | resumed opened taken same =>
      rw [resume_player] at done
      exact absurd (same done) hgoing

/-- Where ticking is wanted, a task is there as long as the screen plays. -/
theorem running_ask (going : t.wanted = true → t.active = true → t.running = true)
    (wanted : (t.ask request).wanted = true) (active : (t.ask request).active = true) :
    (t.ask request).running = true := by
  cases request with
  | start =>
    unfold ask at wanted active ⊢
    exact running_resume wanted active
  | close =>
    unfold ask at active
    cases active
  | command c onResponse onComplete =>
    have hasked := ask_command t c onResponse onComplete
    generalize t.ask (.command c onResponse onComplete) = t' at hasked wanted active ⊢
    cases hasked with
    | ignored => exact going wanted active
    | @completed d opened taken _ done =>
      have hasks := askAll_tends onComplete ((t.told d onResponse).conclude c)
      rw [not_active_of_over (hasks.stays (Or.inr done)).1] at active
      cases active
    | resumed opened taken same => exact running_resume wanted active

theorem wanted_start (t : TickedPlayer α) : (t.ask .start).wanted = true := by
  unfold ask
  exact (resume_tends _).wanted rfl

/-- Where ticking is asked for underway, it is wanted when all is done. -/
theorem Passes.wanted {t u : TickedPlayer α} {requests rest : List (Request α)}
    (h : Passes t requests u (.start :: rest)) : (t.askAll requests).wanted = true := by
  generalize hpending : Request.start :: rest = pending at h
  induction h with
  | here =>
    subst hpending
    unfold askAll
    exact (askAll_tends rest _).wanted (wanted_start _)
  | next _ ih =>
    unfold askAll
    exact ih hpending
  | @response t _ c d onResponse onComplete later _ opened taken responded _ ih =>
    have htold : (t.told d onResponse).wanted = true := by
      unfold told
      rw [if_pos responded]
      exact ih hpending
    unfold askAll
    refine (askAll_tends later _).wanted ?_
    rw [ask_of_taken opened taken]
    split
    · exact (askAll_tends onComplete _).wanted htold
    · exact (resume_tends _).wanted htold
  | @completion t _ c d onResponse onComplete later _ opened taken going done _ ih =>
    unfold askAll
    refine (askAll_tends later _).wanted ?_
    rw [ask_of_taken opened taken, done, going]
    exact ih hpending

end Requests

end TickedPlayer

end Quiz
