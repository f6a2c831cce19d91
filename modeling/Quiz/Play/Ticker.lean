/-
Quiz.Play.Ticker — a player whose loading items run by the clock.

Once ticking is asked for, a task on an event loop wakes up at a fixed
interval and gives the player a tick of the time since it last did. The
task looks at the player after every tick and ends when there is nothing
left to run; a command that leaves the screen playing makes a new one where
the latest one has ended. When the screen is completed or the player is
closed, the latest task is called off and ends when the loop runs it next,
unless it is in the middle of a tick: then it will look at the player
itself.

Whoever plays the screen is told of a response and of the completion while
the command is carried out, and may ask for more right then.
-/
import Quiz.Play.Player

namespace Quiz

/-- How far a task has come. -/
inductive Task (α : Type) where
  /-- It has not begun. -/
  | made
  /-- It sleeps since its last tick, or since it began. -/
  | asleep (last : α)
  /-- It is in the middle of a tick. -/
  | ticking
  /-- It is to end, and has not ended yet. -/
  | calledOff
  | ended
  deriving Repr

namespace Task

variable {α : Type}

/-- The task has not ended. -/
def alive : Task α → Bool
  | .ended => false
  | _ => true

/-- Calls a task off. In the middle of a tick this does nothing. -/
def callOff : Task α → Task α
  | .made | .asleep _ => .calledOff
  | task => task

end Task

/-- What can be asked of a player on a clock. A command comes with what is
asked for by those who are told of its response, and of the completion. -/
inductive Request (α : Type) where
  /-- Ticking is wanted from now on. -/
  | start
  | close
  | command (c : Command α) (onResponse onComplete : List (Request α))

/-- A player on a clock, and the tasks that were made for it, the latest
one at the end. -/
structure TickedPlayer (α : Type) where
  player : Player α
  now : α
  wanted : Bool
  tasks : List (Task α)

/-- One wake-up of a task: the time it counted, and what the player
responded. -/
structure WakeUp (α : Type) where
  elapsed : α
  response : Option Response

namespace TickedPlayer

variable {α : Type}

/-- A player that is not ticking, when the clock stands at nothing. -/
def new [Scale α] (screen : Screen) (settings : Settings) : TickedPlayer α :=
  ⟨.new screen settings, Scale.zero, false, []⟩

/-- The latest task has not ended. -/
def running (t : TickedPlayer α) : Bool :=
  t.tasks.getLast?.any Task.alive

/-- There is something to run. -/
def active (t : TickedPlayer α) : Bool :=
  !t.player.closed && t.player.status = .playing

/-- Makes a task, unless the latest one has not ended. -/
def launch (t : TickedPlayer α) : TickedPlayer α :=
  if t.running then t else { t with tasks := t.tasks ++ [.made] }

/-- Makes a task where ticking is wanted and the screen plays. -/
def resume (t : TickedPlayer α) : TickedPlayer α :=
  if t.wanted && t.player.status = .playing then t.launch else t

/-- Calls the latest task off. -/
def stop (t : TickedPlayer α) : TickedPlayer α :=
  { t with tasks := t.tasks.modify (t.tasks.length - 1) Task.callOff }

/-- A command completed the screen. -/
def conclude (t : TickedPlayer α) (command : Command α) : TickedPlayer α :=
  { t.stop with player := { t.player with completionDelay := t.player.readingTime command } }

mutual

/-- Carries a request out. A closed player ignores commands, and a refused
one changes nothing. -/
def ask [Scale α] (t : TickedPlayer α) : Request α → TickedPlayer α
  | .start => resume { t with wanted := true }
  | .close => { t.stop with player := t.player.close }
  | .command c onResponse onComplete =>
    if t.player.closed then t
    else
      match t.player.dispatch c with
      | .error _ => t
      | .ok d =>
        let taken : TickedPlayer α := { t with player := d.player }
        let told := if d.response.isSome then askAll taken onResponse else taken
        if told.player.state.completed && !t.player.state.completed then
          askAll (told.conclude c) onComplete
        else told.resume

/-- Carries requests out, one after the other. -/
def askAll [Scale α] (t : TickedPlayer α) : List (Request α) → TickedPlayer α
  | [] => t
  | request :: rest => askAll (ask t request) rest

end

section Clock

variable [Timeline α]

/-- A task looks at the player: it sleeps until the next tick, or it ends. An
interval that cannot be counted ends it, too. -/
def goOn (t : TickedPlayer α) (k : Nat) : TickedPlayer α :=
  let next : Task α :=
    if t.active && countsInSeconds t.player.settings.tickInterval then .asleep t.now else .ended
  { t with tasks := t.tasks.set k next }

/-- The loop runs a task, until it waits again. A tick that is refused ends
the task. -/
def run (t : TickedPlayer α) (k : Nat) (onResponse onComplete : List (Request α)) :
    TickedPlayer α × Option (WakeUp α) :=
  match t.tasks[k]? with
  | some .made => (t.goOn k, none)
  | some .calledOff => ({ t with tasks := t.tasks.set k .ended }, none)
  | some (.asleep last) =>
    let elapsed := Timeline.between last t.now
    match t.player.dispatch (.tick elapsed) with
    | .error _ => ({ t with tasks := t.tasks.set k .ended }, some ⟨elapsed, none⟩)
    | .ok d =>
      let ticking : TickedPlayer α := { t with tasks := t.tasks.set k .ticking }
      let ticked := ticking.ask (.command (.tick elapsed) onResponse onComplete)
      (ticked.goOn k, some ⟨elapsed, d.response⟩)
  | _ => (t, none)

/-! ## As time goes by -/

/-- Runs the latest task, if it does not sleep. -/
def settle (t : TickedPlayer α) : TickedPlayer α :=
  match t.tasks.getLast? with
  | some .made | some .calledOff => (t.run (t.tasks.length - 1) [] []).1
  | _ => t

/-- Asks for ticking. -/
def start (t : TickedPlayer α) : TickedPlayer α :=
  (t.ask .start).settle

/-- Closes the player; a task ends with it. -/
def close (t : TickedPlayer α) : TickedPlayer α :=
  (t.ask .close).settle

/-- Gives a command to the player. -/
def dispatch (t : TickedPlayer α) (command : Command α) :
    Except Refused (TickedPlayer α × Option Response × List Warning) :=
  (t.player.dispatch command).map fun d =>
    ((t.ask (.command command [] [])).settle, d.response, d.warnings)

/-- Lets the clock run to `stop`, with at most `fuel` wake-ups. -/
def runTo (stop : α) : (fuel : Nat) → TickedPlayer α → TickedPlayer α × List (WakeUp α)
  | 0, t => ({ t with now := stop }, [])
  | fuel + 1, t =>
    match t.tasks.getLast? with
    | some (.asleep last) =>
      let due := Timeline.after last t.player.settings.tickInterval
      if Scale.le due stop then
        let (t, wakeUp) := run { t with now := due } (t.tasks.length - 1) [] []
        let (t, more) := runTo stop fuel t
        (t, wakeUp.toList ++ more)
      else ({ t with now := stop }, [])
    | _ => ({ t with now := stop }, [])

/-- Lets a span of milliseconds pass. -/
def wait (t : TickedPlayer α) (span : α) : TickedPlayer α × List (WakeUp α) :=
  t.runTo (Timeline.past t.now span) (Timeline.roomFor span t.player.settings.tickInterval)

end Clock

end TickedPlayer

end Quiz
