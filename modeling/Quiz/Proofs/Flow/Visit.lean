/-
Quiz.Proofs.Flow.Visit — one visit to a screen, from its beginning on.

`Flow.Begun` says that the player of a flow is new: so it is when a quiz
begins and whenever a screen is entered. `Flow.play` gives commands to the
player one after the other; a refused command leaves everything as it was.

* `enter_of_none`, `enter_of_some` — a screen is entered, or it cannot be.
* `went_go` — a move leads nowhere, to the end of the quiz, or to a screen.
* `play_state` — the state of the player is that of a run.
* `play_stored?` — what is stored under a key for the screen is what the
  latest response of the visit with that key says, else what was stored
  before the visit.
-/
import Quiz.Flow.Flow
import Quiz.Proofs.Play.Responses

namespace Quiz

variable {α : Type}

/-! ## Responses as documents -/

namespace Response

theorem keys_toFields_nodup (r : Response) : r.toFields.keys.Nodup := by
  obtain ⟨key, selected, branch, button, inputValues, isIntermediate⟩ := r
  cases selected <;> cases branch <;> cases button <;> cases inputValues <;>
    simp [toFields, Table.keys, Write.field, Write.field?]

theorem get?_toFields_branch (r : Response) :
    r.toFields.get? "branch" = r.branch.map OptionId.toJson := by
  obtain ⟨key, selected, branch, button, inputValues, isIntermediate⟩ := r
  cases selected <;> cases branch <;> cases button <;> cases inputValues <;>
    simp [toFields, Table.get?_cons, Write.field, Write.field?]

/-- The texts of inputs as a document. -/
def textsToJson (texts : Table String String) : Json :=
  .obj (texts.map fun (key, text) => (key, .str text))

theorem get?_toFields_inputValues (r : Response) :
    r.toFields.get? "inputValues" = r.inputValues.map textsToJson := by
  obtain ⟨key, selected, branch, button, inputValues, isIntermediate⟩ := r
  cases selected <;> cases branch <;> cases button <;> cases inputValues <;>
    simp [toFields, Table.get?_cons, Write.field, Write.field?, textsToJson]

theorem field?_textsToJson (texts : Table String String) (key : String) :
    (textsToJson texts).field? key = (texts.get? key).map .str := by
  unfold textsToJson Json.field?
  dsimp only
  induction texts with
  | nil => rfl
  | cons entry rest ih =>
    obtain ⟨k, text⟩ := entry
    rw [List.map_cons, Table.get?_cons, Table.get?_cons, ih]
    split <;> rfl

end Response

/-! ## Visits -/

namespace Flow

/-- The visit to the current screen begins: its player is new. -/
def Begun (f : Flow α) : Prop :=
  f.player = .new f.current f.settings

theorem begun_new (screens : List Screen) (settings : Settings) (start : Nat) (now : Instant) :
    (new screens settings start now : Flow α).Begun := rfl

section Entering

variable {f : Flow α} {index : Nat}

/-- A screen that can be entered is visited by a player of its own. -/
theorem enter_of_none (entered : (f.screenAt index).entryFault? = none) (now : Instant) :
    f.enter now index =
      { f with
        index := index
        player := .new (f.screenAt index) f.settings
        left := f.player :: f.left
        entered := now
        finished := false } := by
  unfold enter
  dsimp only
  split
  · rename_i hfault
    cases entered.symm.trans hfault
  · rfl

/-- At a screen that cannot be entered, the player stays as it is. -/
theorem enter_of_some {fault : GridFault} (refused : (f.screenAt index).entryFault? = some fault)
    (now : Instant) :
    f.enter now index = { f with index := index, entered := now, finished := false } := by
  unfold enter
  dsimp only
  split
  · rfl
  · rename_i hnone
    cases refused.symm.trans hnone

theorem begun_enter (entered : (f.screenAt index).entryFault? = none) (now : Instant) :
    (f.enter now index).Begun := by
  rw [enter_of_none entered]
  rfl

/-- Whether the screen can be entered or not, the flow comes to it, and it is not
finished any more. -/
theorem enter_keeps (f : Flow α) (now : Instant) (index : Nat) :
    (f.enter now index).index = index ∧ (f.enter now index).finished = false ∧
      (f.enter now index).screens = f.screens ∧ (f.enter now index).settings = f.settings ∧
      (f.enter now index).responses = f.responses ∧ (f.enter now index).records = f.records := by
  unfold enter
  dsimp only
  split <;> exact ⟨rfl, rfl, rfl, rfl, rfl, rfl⟩

theorem entryFault?_enter (f : Flow α) (now : Instant) (index : Nat) :
    (f.enter now index).entryFault? = (f.screenAt index).entryFault? := by
  unfold enter
  dsimp only
  split <;> rfl

/-- What is reported of a screen that a flow comes to. -/
theorem arrival_enter (f : Flow α) (now : Instant) (index : Nat) :
    (f.enter now index).arrival =
      match (f.screenAt index).entryFault? with
      | some _ => []
      | none => [.screen index (f.screenAt index).id] := by
  unfold enter
  dsimp only
  split <;> rfl

end Entering

end Flow

theorem beginFlow_ok {screens : List Screen} {settings : Settings} {startAt : Option String}
    {now : Instant} {f : Flow α} {ws : List Warning}
    (h : beginFlow screens settings startAt now = .ok (f, ws)) :
    screens ≠ [] ∧ f = .new screens settings (Flow.startPosition screens startAt).1 now := by
  unfold beginFlow at h
  split at h
  · cases h
  · rename_i hnonempty
    dsimp only at h
    split at h
    · cases h
    · exact ⟨by simpa using hnonempty, (Prod.mk.inj (Except.ok.inj h)).1.symm⟩

/-- A quiz begins with a screen that can be entered. -/
theorem beginFlow_entered {screens : List Screen} {settings : Settings} {startAt : Option String}
    {now : Instant} {f : Flow α} {ws : List Warning}
    (h : beginFlow screens settings startAt now = .ok (f, ws)) : f.entryFault? = none := by
  unfold beginFlow at h
  split at h
  · cases h
  · dsimp only at h
    split at h
    · cases h
    · rename_i hentered
      rw [← (Prod.mk.inj (Except.ok.inj h)).1]
      exact hentered

theorem beginFlow_begun {screens : List Screen} {settings : Settings} {startAt : Option String}
    {now : Instant} {f : Flow α} {ws : List Warning}
    (h : beginFlow screens settings startAt now = .ok (f, ws)) :
    f.Begun ∧ f.responses = [] := by
  obtain ⟨-, rfl⟩ := beginFlow_ok h
  exact ⟨Flow.begun_new screens settings _ now, rfl⟩

/-- A quiz that is opened begins with a visit, and nothing is stored. -/
theorem openFlow_begun {value : Json} {placeholders : Placeholders} {settings : Settings}
    {startAt : Option String} {now : Instant} {f : Flow α} {ws : List Warning}
    (h : openFlow value placeholders settings startAt now = .ok (f, ws)) :
    f.Begun ∧ f.responses = [] := by
  unfold openFlow at h
  split at h
  · cases h
  · split at h
    · cases h
    · rename_i hbegin
      obtain ⟨rfl, -⟩ := Prod.mk.inj (Except.ok.inj h)
      exact beginFlow_begun hbegin

namespace Flow

/-- What is stored under a key for the current screen. -/
def stored? (f : Flow α) (key : String) : Option Json :=
  (f.responses.get? f.index).bind fun answers => answers.get? key

theorem mergeResponse_stored? (f : Flow α) (r : Response) (key : String) :
    (f.mergeResponse r).stored? key = (r.toFields.get? key).or (f.stored? key) := by
  have hanswers : (f.mergeResponse r).responses.get? f.index =
      some (((f.responses.get? f.index).getD []).merge r.toFields) :=
    Table.get?_put_same _ _ _
  have hindex : (f.mergeResponse r).index = f.index := rfl
  unfold stored?
  rw [hindex, hanswers, Option.bind_some, Table.get?_merge _ r.keys_toFields_nodup]
  cases f.responses.get? f.index <;> rfl

/-- What can come of a move, by where it leads: nothing, the end of the quiz, or
another screen. -/
inductive Went (f : Flow α) (leaving entering : Instant) :
    Destination → Flow α × List FlowReport → Prop
  | nowhere : Went f leaving entering .nowhere (f, [])
  | unknown : Went f leaving entering .unknown (f, [])
  | finishes (going : f.finished = false) (last : f.isLast = true) :
      Went f leaving entering .ending
        ({ (f.exit leaving).1 with finished := true }, (f.exit leaving).2 ++ [.finished])
  | changes {index : Nat} (inRange : f.index < f.screens.length → index < f.screens.length) :
      Went f leaving entering (.screen index) (f.change leaving entering index)

/-- A quiz ends behind its last screen, unless it has ended already. -/
theorem destination_ending {f : Flow α} {move : FlowMove} (h : f.destination move = .ending) :
    f.finished = false ∧ f.isLast = true := by
  cases move with
  | next =>
    simp only [destination] at h
    split at h
    · cases h
    · rename_i hgoing
      split at h
      · rename_i hlast
        exact ⟨Bool.eq_false_iff.mpr hgoing, hlast⟩
      · cases h
  | previous | toId id =>
    simp only [destination] at h
    split at h <;> cases h
  | toIndex asked =>
    cases asked with
    | ofNat i =>
      simp only [destination] at h
      split at h <;> cases h
    | negSucc _ => cases h
  | restart => cases h

/-- No move leads out of the quiz. -/
theorem destination_screen {f : Flow α} {move : FlowMove} {index : Nat}
    (h : f.destination move = .screen index) (inRange : f.index < f.screens.length) :
    index < f.screens.length := by
  cases move with
  | next =>
    simp only [destination] at h
    split at h
    · cases h
    · split at h
      · cases h
      · rename_i hlast
        obtain rfl := Destination.screen.inj h
        simp only [isLast, decide_eq_true_eq] at hlast
        omega
  | previous =>
    simp only [destination] at h
    split at h
    · cases h
    · obtain rfl := Destination.screen.inj h
      omega
  | toIndex asked =>
    cases asked with
    | ofNat i =>
      simp only [destination] at h
      split at h
      · rename_i hi
        obtain rfl := Destination.screen.inj h
        exact hi
      · cases h
    | negSucc _ => cases h
  | toId id =>
    simp only [destination] at h
    split at h
    · rename_i i hi
      obtain rfl := Destination.screen.inj h
      exact (List.findIdx?_eq_some_iff_getElem.mp hi).1
    · cases h
  | restart =>
    obtain rfl := Destination.screen.inj h
    omega

theorem went_go (f : Flow α) (leaving entering : Instant) (move : FlowMove) :
    f.Went leaving entering (f.destination move) (f.go leaving entering move).2 := by
  unfold go
  cases hdestination : f.destination move with
  | nowhere => exact .nowhere
  | unknown => exact .unknown
  | ending =>
    obtain ⟨hgoing, hlast⟩ := destination_ending hdestination
    exact .finishes hgoing hlast
  | screen index => exact .changes (destination_screen hdestination)

/-- A change is a change from a flow whose visit is over. -/
theorem change_cases (f : Flow α) (leaving entering : Instant) (index : Nat) :
    (f.finished = true ∧ f.change leaving entering index =
        (f.enter entering index, (f.enter entering index).arrival)) ∨
      (f.finished = false ∧ f.change leaving entering index =
        ((f.exit leaving).1.enter entering index,
          .record (f.recordAt leaving) :: ((f.exit leaving).1.enter entering index).arrival)) := by
  unfold change
  cases f.finished with
  | true => exact Or.inl ⟨rfl, rfl⟩
  | false => exact Or.inr ⟨rfl, rfl⟩

/-- After a change the flow is at the screen, and not finished. -/
theorem change_index (f : Flow α) (leaving entering : Instant) (index : Nat) :
    (f.change leaving entering index).1.index = index := by
  rcases f.change_cases leaving entering index with ⟨-, hchange⟩ | ⟨-, hchange⟩
  all_goals
    rw [hchange]
    exact (enter_keeps _ entering index).1

theorem change_going (f : Flow α) (leaving entering : Instant) (index : Nat) :
    (f.change leaving entering index).1.finished = false := by
  rcases f.change_cases leaving entering index with ⟨-, hchange⟩ | ⟨-, hchange⟩
  all_goals
    rw [hchange]
    exact (enter_keeps _ entering index).2.1

/-- A move keeps the screens and what is stored for them. -/
theorem Went.keeps {f : Flow α} {leaving entering : Instant} {destination : Destination}
    {result : Flow α × List FlowReport} (h : f.Went leaving entering destination result) :
    result.1.screens = f.screens ∧ result.1.responses = f.responses := by
  cases h with
  | nowhere | unknown | finishes => exact ⟨rfl, rfl⟩
  | changes =>
    rcases f.change_cases leaving entering _ with ⟨-, hchange⟩ | ⟨-, hchange⟩
    all_goals
      rw [hchange]
      obtain ⟨-, -, hscreens, -, hresponses, -⟩ := enter_keeps _ entering _
      exact ⟨hscreens, hresponses⟩

/-- Going on does nothing, ends the quiz, or leads to the screen that follows. -/
theorem goNext_cases (f : Flow α) (now : Instant) :
    (f.finished = true ∧ (f.goNext now).1 = f) ∨
      (f.goNext now).1 = { (f.exit now).1 with finished := true } ∨
      (f.goNext now).1 = (f.change now now (f.index + 1)).1 := by
  have hwent := f.went_go now now .next
  have hdestination : f.destination .next =
      if f.finished then .nowhere else if f.isLast then .ending else .screen (f.index + 1) := rfl
  unfold goNext
  generalize (f.go now now .next).2 = result at hwent
  split at hdestination
  · rename_i hfinished
    rw [hdestination] at hwent
    cases hwent
    exact Or.inl ⟨hfinished, rfl⟩
  · split at hdestination
    all_goals
      rw [hdestination] at hwent
      cases hwent
    · exact Or.inr (Or.inl rfl)
    · exact Or.inr (Or.inr rfl)

/-- What is shown stays until another screen is. -/
theorem goNext_layout (f : Flow α) (now : Instant)
    (finished : (f.goNext now).1.finished = true) :
    (f.goNext now).1.player.layout = f.player.layout := by
  rcases f.goNext_cases now with ⟨-, hnext⟩ | hnext | hnext
  · rw [hnext]
  · rw [hnext]
    rfl
  · rw [hnext, change_going] at finished
    cases finished

theorem goNext_responses (f : Flow α) (now : Instant) :
    (f.goNext now).1.responses = f.responses :=
  (f.went_go now now .next).keeps.2

section Play

variable [Scale α]

/-- The flow after a command to its player. -/
def give (f : Flow α) (command : Command α) : Flow α :=
  match f.dispatch command with
  | .ok d => d.flow
  | .error _ => f

/-- The flow after commands to its player, one after the other. -/
def play (f : Flow α) (commands : List (Command α)) : Flow α :=
  commands.foldl give f

/-- What a command to an open player makes of a flow: the player moves on,
and its response is merged into what is stored. -/
theorem give_cases (f : Flow α) (opened : f.player.closed = false) (command : Command α) :
    ∃ player : Player α, player.screen = f.player.screen ∧ player.settings = f.player.settings ∧
      player.closed = false ∧
      player.state = f.player.state.next f.player.screen f.player.settings.maxNestingDepth command ∧
      f.give command =
        match f.player.state.response? f.player.screen f.player.settings.maxNestingDepth
            command with
        | some r => mergeResponse { f with player := player } r
        | none => { f with player := player } := by
  unfold give dispatch Player.dispatch ScreenState.next ScreenState.response?
  rw [if_neg (by simp [opened])]
  cases hstep : f.player.state.step f.player.screen f.player.settings.maxNestingDepth command with
  | error refused => exact ⟨f.player, rfl, rfl, opened, rfl, rfl⟩
  | ok outcome =>
    let completes := outcome.state.completed && !f.player.state.completed
    let delay := if completes then f.player.readingTime command else f.player.completionDelay
    refine ⟨{ f.player with state := outcome.state, completionDelay := delay }, rfl, rfl, opened,
      rfl, ?_⟩
    cases hr : outcome.response <;> simp only [receive, hr] <;> rfl

/-- The player of a visit moves as a run does, and what is stored for its
screen is what was responded last. -/
theorem play_cases (f : Flow α) (opened : f.player.closed = false) (commands : List (Command α)) :
    (f.play commands).player.state =
        f.player.state.run f.player.screen f.player.settings.maxNestingDepth commands ∧
      ∀ key, (f.play commands).stored? key =
        (latest? (fun r => r.toFields.get? key) (f.player.state.responses f.player.screen
          f.player.settings.maxNestingDepth commands)).or (f.stored? key) := by
  induction commands generalizing f with
  | nil => exact ⟨rfl, fun key => rfl⟩
  | cons command rest ih =>
    obtain ⟨player, hscreen, hsettings, hopened, hstate, hgive⟩ := f.give_cases opened command
    have hplayer : (f.give command).player = player := by
      rw [hgive]
      split <;> rfl
    have hstored (key : String) : (f.give command).stored? key =
        ((f.player.state.response? f.player.screen f.player.settings.maxNestingDepth command).bind
          fun r => r.toFields.get? key).or (f.stored? key) := by
      rw [hgive]
      split
      · rename_i r hr
        rw [hr]
        exact mergeResponse_stored? _ r key
      · rename_i hr
        rw [hr]
        rfl
    obtain ⟨ihstate, ihstored⟩ := ih (f.give command) (hplayer ▸ hopened)
    rw [hplayer, hscreen, hsettings, hstate] at ihstate ihstored
    refine ⟨ihstate, fun key => ?_⟩
    rw [ScreenState.responses, latest?_append, latest?_toList, Option.or_assoc, ← hstored key]
    exact ihstored key

variable {f : Flow α}

theorem play_state (begun : f.Begun) (commands : List (Command α)) :
    (f.play commands).player.state =
      (ScreenState.new f.current).run f.current f.settings.maxNestingDepth commands := by
  have h := (f.play_cases (by rw [begun]; rfl) commands).1
  rwa [begun] at h

theorem play_stored? (begun : f.Begun) (commands : List (Command α)) (key : String) :
    (f.play commands).stored? key =
      (latest? (fun r => r.toFields.get? key) ((ScreenState.new f.current).responses f.current
        f.settings.maxNestingDepth commands)).or (f.stored? key) := by
  have h := (f.play_cases (by rw [begun]; rfl) commands).2 key
  rwa [begun] at h

end Play

end Flow

end Quiz
