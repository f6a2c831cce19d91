/-
Quiz.Proofs.Host.Digits — the digit keys act on what they label.

The cells of the selection that has the focus are drawn with numbers, and so are
the answers of an open popup. A digit key finds the option or the answer anew, by
counting. That both count alike, and that the focus is on something that is
shown, holds in every state of the program.

* `Flow.Played` — the player of the shown screen is in the middle of a run.
* `picked_of_response?`, `answer_responds` — what the player makes of the command
  of a digit.
* `Labelled` — what a digit key does, for all that can have a digit.
* `digits_act_on_labels` — along a whole session.
* `labelled_option_refused` — one thing can go wrong: a conditional screen that
  cannot be entered.
-/
import Quiz.Proofs.Host.Leaving
import Quiz.Proofs.Play.OrderedScale
import Quiz.Proofs.Play.Shown
import Quiz.Proofs.View.Numbered

namespace Quiz

variable {α : Type}

open ScreenState

/-! ## The player of the shown screen -/

section Played

variable [Timeline α]

/-- The player of the screen that is shown is in the middle of a run. -/
structure Flow.Played (f : Flow α) : Prop where
  screens : ∀ s ∈ f.screens, s.Parsed
  inRange : f.index < f.screens.length
  screen : f.player.screen.Parsed
  run : ∃ commands : List (Command α), (∀ command ∈ commands, command.Timely) ∧
    f.player.state = (ScreenState.new f.player.screen).run f.player.screen
      f.player.settings.maxNestingDepth commands
  closed : f.player.closed = f.finished

namespace Flow

variable {f : Flow α}

omit [Timeline α] in
theorem parsed_at (screens : ∀ s ∈ f.screens, s.Parsed) {index : Nat}
    (inRange : index < f.screens.length) : (f.screenAt index).Parsed := by
  unfold screenAt
  rw [List.getElem?_eq_getElem inRange]
  exact screens _ (List.getElem_mem inRange)

theorem played_enter (screens : ∀ s ∈ f.screens, s.Parsed) (now : Instant) {index : Nat}
    (inRange : index < f.screens.length) (entered : (f.enter now index).entryFault? = none) :
    (f.enter now index).Played := by
  rw [entryFault?_enter] at entered
  rw [enter_of_none entered]
  exact ⟨screens, inRange, parsed_at screens inRange, ⟨[], nofun, rfl⟩, rfl⟩

theorem Played.give (played : f.Played) {command : Command α} (timely : command.Timely) :
    (f.give command).Played := by
  cases hclosed : f.player.closed with
  | true =>
    have hsame : f.give command = f := by
      unfold Flow.give dispatch
      rw [Player.dispatch_of_over (Or.inl hclosed)]
      rfl
    rw [hsame]
    exact played
  | false =>
    obtain ⟨player, hscreen, hsettings, hopen, hstate, hgive⟩ := f.give_cases hclosed command
    obtain ⟨commands, htimely, hrun⟩ := played.run
    have hplayed (responses : Table Nat Fields) :
        Played { f with player := player, responses := responses } := by
      refine ⟨played.screens, played.inRange, ?_, ⟨commands ++ [command], ?_, ?_⟩, ?_⟩
      · show player.screen.Parsed
        rw [hscreen]
        exact played.screen
      · intro c hc
        rcases List.mem_append.mp hc with hold | hnew
        · exact htimely c hold
        · rw [List.mem_singleton.mp hnew]
          exact timely
      · show player.state = (ScreenState.new player.screen).run player.screen
          player.settings.maxNestingDepth (commands ++ [command])
        rw [hscreen, hsettings, hstate, hrun, run_append]
        rfl
      · show player.closed = f.finished
        rw [hopen, ← hclosed, played.closed]
    rw [hgive]
    split
    · exact hplayed _
    · exact hplayed f.responses

theorem Played.change (played : f.Played) (leaving entering : Instant) {index : Nat}
    (inRange : index < f.screens.length)
    (entered : (f.change leaving entering index).1.entryFault? = none) :
    (f.change leaving entering index).1.Played := by
  rcases f.change_cases leaving entering index with ⟨-, hchange⟩ | ⟨-, hchange⟩
  all_goals rw [hchange] at entered ⊢
  · exact played_enter played.screens entering inRange entered
  · exact played_enter (f := (f.exit leaving).1) played.screens entering inRange entered

theorem Follows.played {f' : Flow α} (follows : f.Follows f') (played : f.Played) :
    f'.Played := by
  cases follows with
  | same => exact played
  | given timely taken =>
    have hgive := played.give timely
    unfold Flow.give at hgive
    rw [taken] at hgive
    exact hgive
  | went hwent hentered =>
    cases hwent with
    | nowhere | unknown => exact played
    | finishes => exact ⟨played.screens, played.inRange, played.screen, played.run, rfl⟩
    | changes inRange =>
      exact played.change _ _ (inRange played.inRange) (hentered (f.change_going _ _ _))

/-- The loading items that are shown are sound, and none but the frontier has its
popup open. -/
theorem Played.orderly [OrderedScale α] (played : f.Played) :
    Orderly (f.player.state.active f.player.screen).1
      (f.player.state.active f.player.screen).2 := by
  obtain ⟨commands, htimely, hrun⟩ := played.run
  rw [hrun]
  exact (forall_contentAt?_run (I := fun content c => content.Triggered ∧ Orderly content c)
    ⟨played.screen.popupsTriggered, .new _⟩
    (fun _ _ content _ hv => ⟨(Screen.parsed_of_validate hv).popupsTriggered, .new content⟩)
    (fun _ _ _ _ hcommand hin hmove => ⟨hin.1, (hmove.orderly hin.1 hcommand hin.2).1⟩)
    htimely (contentAt?_shownPlace _ _)).2

theorem beginFlow_played {screens : List Screen} {settings : Settings} {startAt : Option String}
    {now : Instant} {ws : List Warning}
    (begun : beginFlow screens settings startAt now = .ok (f, ws))
    (parsed : ∀ s ∈ screens, s.Parsed) : f.Played := by
  obtain ⟨hscreens, hsound⟩ := beginFlow_sound begun
  obtain ⟨-, rfl⟩ := beginFlow_ok begun
  have hin := hsound.inRange
  exact ⟨parsed, hin, parsed_at parsed hin, ⟨[], nofun, rfl⟩, rfl⟩

end Flow

/-! ## What the player responds -/

/-- What the player of the screen that is shown responds to a command. -/
def Flow.responds? (f : Flow α) (command : Command α) : Option Response :=
  match f.dispatch command with
  | .ok d => d.response
  | .error _ => none

theorem Flow.responds?_eq {f : Flow α} (opened : f.player.closed = false) (command : Command α) :
    f.responds? command =
      f.player.state.response? f.player.screen f.player.settings.maxNestingDepth command := by
  unfold Flow.responds? Flow.dispatch Player.dispatch response?
  rw [if_neg (by simp [opened])]
  cases f.player.state.step f.player.screen f.player.settings.maxNestingDepth command with
  | error refused => rfl
  | ok outcome => cases hr : outcome.response <;> simp [Flow.receive, hr]

/-- What a click on an option makes of the picks: in radio mode the option alone
is picked, in checkbox mode it is picked or taken back, and nothing else. -/
def Clicked (mode : Mode) (id : OptionId) (before after : List OptionId) : Prop :=
  match mode with
  | .radio => after = [id]
  | .checkbox => ∀ other, other ∈ after ↔ if other = id then id ∉ before else other ∈ before

omit [Timeline α] in
theorem clicked_pick (mode : Mode) (id : OptionId) (before : List OptionId) :
    Clicked mode id before (mode.pick id before) := by
  cases mode with
  | radio => rfl
  | checkbox =>
    intro other
    unfold Mode.pick
    dsimp only
    by_cases hpicked : before.contains id = true
    · have hmem := List.contains_iff_mem.mp hpicked
      rw [if_pos hpicked, List.mem_filter]
      by_cases hsame : other = id
      · simp [hsame, hmem]
      · simp [hsame]
    · have hmem : id ∉ before := fun h => hpicked (List.contains_iff_mem.mpr h)
      rw [if_neg hpicked, List.mem_append, List.mem_singleton]
      by_cases hsame : other = id
      · simp [hsame, hmem]
      · simp [hsame]

omit [Timeline α] in
theorem picks_picked (c : ContentState α) (index : Int) (s : Selection) (id : OptionId) :
    (c.picked index s id).picks index = s.mode.pick id (c.picks index) := by
  show ((c.selections.put index (s.mode.pick id (c.picks index))).get? index).getD [] = _
  rw [Table.get?_put_same]
  rfl

omit [Timeline α] in
/-- A pick is made in the content that is shown. -/
theorem Picked.shown {screen : Screen} {maxDepth : Int} {s : ScreenState α} {index : Int}
    {selection : Selection} {id : OptionId} {outcome : Outcome α}
    (h : Picked screen maxDepth s index selection id .active outcome) :
    (∃ c, outcome.state.contentAt? screen s.shownPlace = some ((s.active screen).1, c) ∧
        c.picks index = selection.mode.pick id ((s.active screen).2.picks index)) ∧
      ∀ r, outcome.response = some r →
        r.selected = some (selection.mode.pick id ((s.active screen).2.picks index)) := by
  have hauthored (addressed : PickTarget.active = .authored ∨ s.branch = none) :
      s.shownPlace = .authored ∧ s.active screen = (screen, s.authored) := by
    have hnone : s.branch = none := addressed.resolve_left nofun
    exact ⟨by rw [shownPlace, hnone], active_of_none hnone⟩
  cases h with
  | @inside b shown =>
    rw [active_of_some shown, shownPlace, shown]
    refine ⟨⟨_, contentAt?_branch.mpr ⟨_, rfl, rfl, rfl, rfl, rfl⟩, picks_picked _ _ _ _⟩, ?_⟩
    rintro r hr
    rw [← Option.some.inj hr]
    rfl
  | plain addressed =>
    obtain ⟨hplace, hactive⟩ := hauthored addressed
    rw [hplace, hactive]
    refine ⟨⟨_, rfl, picks_picked _ _ _ _⟩, ?_⟩
    rintro r hr
    rw [← Option.some.inj hr]
    rfl
  | followed addressed _ followed =>
    obtain ⟨hplace, hactive⟩ := hauthored addressed
    rw [hplace, hactive]
    refine ⟨⟨_, rfl, ?_⟩, ?_⟩
    · rw [followed.authored]
      exact picks_picked _ _ _ _
    · rintro r hr
      rw [← Option.some.inj hr]
      rfl

section Step

variable {screen : Screen} {maxDepth : Int} {s : ScreenState α} {index : Int}

/-- A pick that is responded to was made. -/
theorem picked_of_response? {selection : Selection} {id : OptionId} (going : s.completed = false)
    (visible : (s.active screen).1.visibleAt? (s.active screen).2.completedGates index
      = some (.selection selection))
    (displayed : id ∈ selection.identities) {r : Response}
    (responds : s.response? screen maxDepth (.select index id .active) = some r) :
    ∃ outcome, Picked screen maxDepth s index selection id .active outcome ∧
      outcome.response = some r ∧
      s.next screen maxDepth (.select index id .active) = outcome.state := by
  obtain ⟨outcome, hstep, hr, hnext⟩ := response?_eq_some responds
  have hselect : s.onSelect screen maxDepth index id .active = .ok outcome := by
    unfold step at hstep
    rwa [if_neg (by simp [going])] at hstep
  rcases onSelect_ok hselect with rfl | ⟨selection', id', hmeant, hpick⟩
  · cases hr
  rw [addressed_active] at hmeant
  obtain ⟨hvisible, -, hfound⟩ := Screen.meant?_eq_some.mp hmeant
  obtain rfl : selection' = selection :=
    Item.selection.inj (Option.some.inj (hvisible.symm.trans visible))
  have hself : selection'.find? id = some id := by
    unfold Selection.find?
    rw [if_pos (List.contains_iff_mem.mpr displayed)]
  obtain rfl : id' = id := Option.some.inj (hfound.symm.trans hself)
  exact ⟨outcome, pickOption_picked hpick, hr, hnext⟩

/-- The answer of an open popup is taken as it is listed, where no other one has
its text form. -/
theorem answer_responds {popup : Popup} (going : s.completed = false)
    (asks : Asks (s.active screen).1 (s.active screen).2 index popup)
    (distinct : (popup.options.map fun o => o.value.key).Nodup) {o : PopupOption}
    (listed : o ∈ popup.options) :
    ∃ r, s.response? screen maxDepth (.answer index o.value) = some r ∧
      r.selected = some [o.value] := by
  obtain ⟨l, p, hvisible, hpopup, hp, hopen⟩ := asks
  have hstored := Option.filter_eq_some_iff.mpr ⟨hp, hopen⟩
  have hfound : popup.options.find? (fun other => other.value.key = o.value.key) = some o := by
    obtain ⟨chosen, hchosen⟩ : ∃ chosen,
        popup.options.find? (fun other => other.value.key = o.value.key) = some chosen :=
      Option.isSome_iff_exists.mp (List.find?_isSome.mpr ⟨o, listed, by simp⟩)
    have hkey : chosen.value.key = o.value.key := by simpa using List.find?_some hchosen
    rw [hchosen, List.inj_on_of_nodup_map distinct (List.mem_of_find?_eq_some hchosen) listed hkey]
  let key := responseKey ((filled? popup.responseKey).or (filled? l.responseKey)) screen
  refine ⟨{ Response.plain key true with selected := some [o.value] }, ?_, rfl⟩
  simp [response?, step, going, onAnswer, hvisible, Item.loading?, hpopup, hstored, hfound, key]

end Step

/-! ## The focus -/

namespace Host

variable {h : Host α}

omit [Timeline α] in
theorem mem_focusable {i : Nat} :
    i ∈ h.focusable ↔ ∃ item, (i, item) ∈ h.layout.items ∧ takesFocus (i, item) = true := by
  simp [focusable, List.mem_mergeSort]

/-- The focus is on a selection or an input that is shown, and nothing has it only
where none is shown. -/
structure FocusShown (h : Host α) : Prop where
  shown : ∀ i, h.page.focus = some i →
    ∃ item, (i, item) ∈ h.layout.items ∧ takesFocus (i, item) = true
  none_iff : h.page.focus = none ↔ ∀ placed ∈ h.layout.items, takesFocus placed = false

omit [Timeline α] in
theorem FocusFits.shown (fits : h.FocusFits) : h.FocusShown := by
  refine ⟨fun i hi => mem_focusable.mp (fits.1 i hi), fun hnone => ?_, fun hnothing => ?_⟩
  · rintro ⟨i, item⟩ hplaced
    rw [← Bool.not_eq_true]
    intro htakes
    have hin := mem_focusable.mpr ⟨item, hplaced, htakes⟩
    rw [fits.2 hnone] at hin
    cases hin
  · cases hfocus : h.page.focus with
    | none => rfl
    | some i =>
      obtain ⟨item, hplaced, htakes⟩ := mem_focusable.mp (fits.1 i hfocus)
      rw [hnothing _ hplaced] at htakes
      cases htakes

omit [Timeline α] in
/-- The item that is shown at the index of the focus has it. -/
theorem focused?_of_mem {i : Nat} {item : Item} (focus : h.page.focus = some i)
    (shown : (i, item) ∈ h.layout.items) : h.focused? = some (i, item) := by
  unfold focused?
  rw [focus, Option.bind_some]
  obtain ⟨placed, hfound⟩ : ∃ placed, h.layout.items.find? (fun p => p.1 = i) = some placed :=
    Option.isSome_iff_exists.mp (List.find?_isSome.mpr ⟨_, shown, by simp⟩)
  obtain ⟨j, other⟩ := placed
  have hj : j = i := by simpa using List.find?_some hfound
  subst hj
  have hother := mem_layout.mp (List.mem_of_find?_eq_some hfound)
  rw [hfound, Option.some.inj ((mem_layout.mp shown).symm.trans hother)]

/-! ## What a digit key comes to -/

omit [Timeline α] in
theorem numbered?_succ {β : Type} (entries : List β) (k : Nat) :
    numbered? entries ((k + 1 : Nat) : Int) = entries[k]? := by
  unfold numbered?
  rw [if_pos (by omega)]
  congr 1
  omega

omit [Timeline α] in
theorem numberFault?_succ {β : Type} (entries : List β) (k : Nat) :
    numberFault? entries ((k + 1 : Nat) : Int) = none := by
  unfold numberFault?
  rw [if_neg]
  simp only [Bool.and_eq_true, decide_eq_true_eq]
  omega

theorem react_digit (shown : h.onSummary = false) (number : Int) :
    h.react (.digit number) = h.pressDigit number := by
  unfold react
  rw [if_neg (by simp [shown])]
  rfl

/-- A digit counts the answers of an open popup. -/
theorem digit_answer (shown : h.onSummary = false) {i : Nat} {popup : Popup}
    (asks : h.layout.popup = some (i, popup)) (k : Nat) :
    h.react (.digit ((k + 1 : Nat) : Int)) =
      match popup.options[k]? with
      | some o => h.dispatch (.answer i o.value)
      | none => .silent h := by
  rw [react_digit shown]
  unfold pressDigit digitFault? digitCommand?
  simp only [asks, numberFault?_succ, numbered?_succ]
  cases popup.options[k]? <;> rfl

/-- A digit counts the displayed options of the selection that has the focus. -/
theorem digit_option (shown : h.onSummary = false) (quiet : h.layout.popup = none) {i : Nat}
    {s : Selection} (focused : h.focused? = some (i, .selection s))
    (readable : s.gridFault? = none) (k : Nat) :
    h.react (.digit ((k + 1 : Nat) : Int)) =
      match s.displayed[k]? with
      | some (id, _) => h.dispatch (.select i id .active)
      | none => .silent h := by
  rw [react_digit shown]
  unfold pressDigit digitFault? digitCommand?
  simp only [quiet, focused, Option.bind_some, Item.selection?, readable, Option.map_none,
    Option.none_or, numberFault?_succ, numbered?_succ]
  cases s.displayed[k]? <;> rfl

/-- Where no selection has the focus, a digit does nothing. -/
theorem digit_nothing (shown : h.onSummary = false) (quiet : h.layout.popup = none)
    (other : (h.focused?.bind fun placed => placed.2.selection?) = none) (number : Int) :
    h.react (.digit number) = .silent h := by
  rw [react_digit shown]
  unfold pressDigit digitFault? digitCommand?
  simp only [quiet]
  cases hfocused : h.focused? with
  | none => rfl
  | some placed =>
    rw [hfocused, Option.bind_some] at other
    simp only [Option.bind_some, other]
    rfl

theorem dispatch_flow (h : Host α) (command : Command α) :
    (h.dispatch command).host.flow = h.flow.give command := by
  unfold dispatch Flow.give
  cases htaken : h.flow.dispatch command with
  | error reason => cases reason <;> rfl
  | ok d =>
    dsimp only
    rw [Reaction.andThen_host rfl, Reaction.andThen_host rfl]
    obtain ⟨-, calls, parting, -, hstands⟩ :=
      checkCompleted_stands (refresh { h with flow := d.flow }).host
    exact hstands.flow

/-! ## What is labelled -/

/-- The digit `n` clicks the option of a selection with an identity. -/
structure Clicks (h : Host α) (n i : Nat) (s : Selection) (id : OptionId) : Prop where
  key : h.react (.digit n) = h.dispatch (.select i id .active)
  /-- The click is accepted, unless a conditional screen behind it cannot be
  entered. -/
  accepted_iff : (h.flow.responds? (.select i id .active)).isSome = true ↔
    Enterable h.flow.player.settings.maxNestingDepth h.flow.player.state s
      (s.mode.pick id (h.content.picks i))
  /-- An accepted click is reported, and made in the content that is shown. -/
  clicked : ∀ r, h.flow.responds? (.select i id .active) = some r →
    ∃ picked, Clicked s.mode id (h.content.picks i) picked ∧ r.selected = some picked ∧
      ∃ c, (h.react (.digit n)).host.flow.player.state.contentAt? h.flow.player.screen
          h.flow.player.state.shownPlace =
            some ((h.flow.player.state.active h.flow.player.screen).1, c) ∧
        c.picks i = picked

/-- The digit `n` gives the open popup at an index an answer. -/
structure Answers (h : Host α) (n i : Nat) (o : PopupOption) : Prop where
  key : h.react (.digit n) = h.dispatch (.answer i o.value)
  accepted : ∃ r, h.flow.responds? (.answer i o.value) = some r ∧ r.selected = some [o.value]

/-- The digit keys act on what they label. -/
structure Labelled (h : Host α) : Prop where
  /-- A cell with a number is that of the one option which the digit clicks. -/
  option : h.layout.popup = none → Drawing.fault? h.layout = none →
    ∀ i s, (i, .selection s) ∈ h.layout.items → s.identities.Nodup →
      ∀ (position : Nat) cell n,
        (Drawing.optionCells s (h.content.picks i) (h.page.focus = some i))[position]? =
            some cell → cell.Numbered n →
          ∃ id choice, s.displayed[position]? = some (id, choice) ∧
            (∀ other : Nat, s.identities[other]? = some id → other = position) ∧
            h.Clicks n i s id
  /-- The answers of an open popup are counted from one. -/
  answer : ∀ i popup, h.layout.popup = some (i, popup) →
    (popup.options.map fun o => o.value.key).Nodup →
      ∀ (position : Nat) o, popup.options[position]? = some o → h.Answers (position + 1) i o
  /-- There is nothing behind the last answer. -/
  noAnswer : ∀ i popup, h.layout.popup = some (i, popup) →
    ∀ n : Nat, popup.options.length < n → h.react (.digit n) = .silent h
  /-- There is nothing behind the last option. -/
  noOption : h.layout.popup = none → Drawing.fault? h.layout = none →
    ∀ i s, h.page.focus = some i → (i, .selection s) ∈ h.layout.items →
      ∀ n : Nat, s.displayed.length < n → h.react (.digit n) = .silent h
  /-- Without a popup, and without the focus on a selection, there is nothing at
  all. -/
  nothing : h.layout.popup = none → (h.focused?.bind fun placed => placed.2.selection?) = none →
    ∀ n : Nat, h.react (.digit n) = .silent h

omit [Timeline α] in
/-- In a picture that could be drawn, the grids of all selections can be read. -/
theorem readable_of_drawn {l : Layout} (drawn : Drawing.fault? l = none) {i : Nat} {s : Selection}
    (shown : (i, .selection s) ∈ l.items) : s.gridFault? = none := by
  have hnone := List.findSome?_eq_none_iff.mp drawn _ shown
  simpa [Item.gridFault?] using hnone

omit [Timeline α] in
theorem content_eq (h : Host α) :
    (h.flow.player.state.active h.flow.player.screen).2 = h.content := by
  unfold content active activeContent
  cases h.flow.player.state.branch <;> rfl

theorem clicks (opened : h.flow.player.closed = false)
    (going : h.flow.player.state.completed = false) {n i : Nat} {s : Selection} {id : OptionId}
    (key : h.react (.digit n) = h.dispatch (.select i id .active))
    (shown : (i, .selection s) ∈ h.layout.items) (displayed : id ∈ s.identities)
    (readable : s.gridFault? = none) : h.Clicks n i s id := by
  have hvisible := mem_layout.mp shown
  have hresponds := Flow.responds?_eq opened (.select i id .active)
  refine ⟨key, ?_, ?_⟩
  · have haccepts : Accepts h.flow.player.screen h.flow.player.settings.maxNestingDepth
        h.flow.player.state (.select i id .active) ↔ _ :=
      accepts_select_iff going hvisible displayed
    unfold Accepts at haccepts
    rw [hresponds, haccepts, content_eq]
    exact and_iff_right readable
  · intro r hr
    rw [hresponds] at hr
    obtain ⟨outcome, hpicked, hresponse, hnext⟩ :=
      picked_of_response? going hvisible displayed hr
    obtain ⟨⟨c, hplace, hpicks⟩, hselected⟩ := hpicked.shown
    rw [content_eq] at hpicks hselected
    refine ⟨_, clicked_pick s.mode id _, hselected r hresponse, c, ?_, hpicks⟩
    obtain ⟨player, -, -, -, hstate, hgive⟩ := h.flow.give_cases opened (.select i id .active)
    rw [key, dispatch_flow, ← hplace, ← hnext, ← hstate, hgive]
    split <;> rfl

theorem labelled (played : h.flow.Played) (shown : h.onSummary = false)
    (opened : h.flow.player.closed = false) (going : h.flow.player.state.completed = false)
    [OrderedScale α] : h.Labelled where
  option quiet drawn i s hshown distinct position cell n hcell hnumbered := by
    obtain ⟨hfocus, rfl, -, ⟨id, choice⟩, hentry⟩ := Drawing.displayed_of_numbered hcell hnumbered
    have hreadable := readable_of_drawn drawn hshown
    have hid : s.identities[position]? = some id := by
      unfold Selection.identities
      rw [List.getElem?_map, hentry]
      rfl
    have hfocused := focused?_of_mem (of_decide_eq_true hfocus) hshown
    have hkey := digit_option shown quiet hfocused hreadable position
    rw [hentry] at hkey
    refine ⟨id, choice, hentry, fun other hother => ?_,
      clicks opened going hkey hshown (List.mem_of_getElem? hid) hreadable⟩
    obtain ⟨hlt, hat⟩ := List.getElem?_eq_some_iff.mp hother
    obtain ⟨hlt', hat'⟩ := List.getElem?_eq_some_iff.mp hid
    exact (List.Nodup.getElem_inj_iff distinct).mp (hat.trans hat'.symm)
  answer i popup asks distinct position o listed := by
    have hkey := digit_answer shown asks position
    rw [listed] at hkey
    have hasks : (h.flow.player.state.layout h.flow.player.screen).popup = some (i, popup) := asks
    rw [layout_eq, played.orderly.popup_eq_some] at hasks
    refine ⟨hkey, ?_⟩
    rw [Flow.responds?_eq opened]
    exact answer_responds going hasks distinct (List.mem_of_getElem? listed)
  noAnswer i popup asks n beyond := by
    obtain ⟨k, rfl⟩ := Nat.exists_eq_succ_of_ne_zero (Nat.ne_zero_of_lt beyond)
    rw [digit_answer shown asks k, List.getElem?_eq_none (by omega)]
  noOption quiet drawn i s focus hshown n beyond := by
    obtain ⟨k, rfl⟩ := Nat.exists_eq_succ_of_ne_zero (Nat.ne_zero_of_lt beyond)
    rw [digit_option shown quiet (focused?_of_mem focus hshown) (readable_of_drawn drawn hshown) k,
      List.getElem?_eq_none (by omega)]
  nothing quiet other n := digit_nothing shown quiet other n

/-! ## Sessions -/

/-- What holds in every state of a program. -/
structure Reached (h : Host α) : Prop where
  fits : h.FocusFits
  played : h.flow.Played
  going : h.onSummary = false → h.flow.finished = false

end Host

theorem Turn.reached {h h' : Host α} {event : HostEvent α} (turn : Turn h event h')
    (reached : h.Reached) : h'.Reached := by
  refine ⟨turn.fits reached.fits, turn.follows.played reached.played, fun hshown => ?_⟩
  cases turn with
  | idle _ stands | dropped _ _ stands =>
    rw [stands.onSummary] at hshown
    rw [stands.flow]
    exact reached.going hshown
  | given _ shown _ taken _ stands =>
    obtain ⟨player, responses, hkept, -, -⟩ := Flow.dispatch_keeps taken
    rw [stands.flow, hkept]
    exact reached.going shown
  | back _ notFirst _ stands =>
    rw [stands.flow, Flow.goPrevious_of_not_first notFirst]
    exact h.flow.change_going _ _ _
  | moved _ _ _ going _ stands =>
    rw [stands.flow]
    exact going
  | ended _ _ _ _ stands =>
    rw [stands.onSummary] at hshown
    cases hshown
  | restarted _ _ stands =>
    rw [stands.flow]
    exact h.flow.change_going _ _ _

namespace Host

theorem start_reached {screens : List Screen} {settings : Settings} {startAt : Option String}
    {now : Instant} {flow : Flow α} {ws : List Warning}
    (begun : beginFlow screens settings startAt now = .ok (flow, ws))
    (parsed : ∀ s ∈ screens, s.Parsed) (clock : Instant) :
    (start flow clock).host.Reached := by
  obtain ⟨hstands, hfits⟩ := mount_stands (new flow clock)
  have hflow : (start flow clock).host.flow = flow := hstands.flow
  refine ⟨hfits, hflow.symm ▸ Flow.beginFlow_played begun parsed, fun _ => ?_⟩
  rw [hflow]
  obtain ⟨-, rfl⟩ := beginFlow_ok begun
  rfl

/-- In every state of the program, whatever happened since its start, the focus is
on something that is shown, and the digit keys act on what they label, as long as
the screen is not completed. -/
theorem digits_act_on_labels [OrderedScale α] {screens : List Screen} {settings : Settings}
    {startAt : Option String} {now : Instant} {flow : Flow α} {ws : List Warning}
    (begun : beginFlow screens settings startAt now = .ok (flow, ws))
    (parsed : ∀ s ∈ screens, s.Parsed) (clock : Instant) (events : List (HostEvent α)) :
    ∀ step ∈ session flow clock events, step.before.FocusShown ∧
      (step.before.onSummary = false → step.before.flow.player.status ≠ .completed →
        step.before.Labelled) := by
  intro step hstep
  have hreached := (session_runs flow clock events).invariant Turn.reached
    (start_reached begun parsed clock) step hstep
  refine ⟨hreached.fits.shown, fun hshown hgoing => ?_⟩
  rw [ne_eq, Player.status_eq_completed, Bool.not_eq_true] at hgoing
  have hopened : step.before.flow.player.closed = false := by
    rw [hreached.played.closed, hreached.going hshown]
  exact labelled hreached.played hshown hopened hgoing

end Host

end Played

/-! ## A labelled option that cannot be picked -/

/-- The cell with a number of a selection with two options, of which one leads to
a conditional screen that cannot be entered: its digit fails. -/
theorem labelled_option_refused :
    ∃ flow ws, openFlow (.arr [kawiSource]) [] Settings.usual none 0 = .ok (flow, ws) ∧
      ∃ step ∈ (Host.session flow 0 [.digit 1] : List (HostStep Float)),
        step.before.onSummary = false ∧ step.before.flow.player.status ≠ .completed ∧
        step.before.layout.popup = none ∧ Drawing.fault? step.before.layout = none ∧
        ∃ s cell, step.before.focused? = some (0, .selection s) ∧ s.identities.Nodup ∧
          (Drawing.optionCells s (step.before.content.picks 0)
            (step.before.page.focus = some 0))[0]? = some cell ∧ cell.Numbered 1 ∧
          ∃ fault, step.reaction.fault = some (.command (.gridUnreadable fault)) := by
  have h : (openFlow (.arr [kawiSource]) [] Settings.usual none 0).toOption.any (fun found =>
      (Host.session found.1 0 [.digit 1] : List (HostStep Float)).any fun step =>
        decide (step.before.onSummary = false ∧ step.before.flow.player.status ≠ .completed ∧
          step.before.layout.popup = none ∧ Drawing.fault? step.before.layout = none) &&
        (step.before.focused?.any fun placed => placed.1 = 0 && placed.2.selection?.any fun s =>
          decide s.identities.Nodup &&
          (Drawing.optionCells s (step.before.content.picks 0)
            (step.before.page.focus = some 0))[0]?.any fun cell => cell.text = "1 ○ A") &&
        decide (step.reaction.fault = some (.command (.gridUnreadable
          (.unknownDigit (String.ofList [Char.ofNat 0x11f52])))))) = true := by
    decide +kernel
  obtain ⟨⟨flow, ws⟩, hopen, h⟩ := Except.any_toOption.mp h
  obtain ⟨step, hstep, h⟩ := List.any_eq_true.mp h
  simp only [Bool.and_eq_true, decide_eq_true_eq, Option.any_eq_true] at h
  obtain ⟨⟨⟨hshown, hgoing, hquiet, hdrawn⟩, ⟨i, item⟩, hfocused, hi, s, hs, hdistinct, cell,
    hcell, htext⟩, hfault⟩ := h
  obtain rfl : i = 0 := hi
  have hitem : item = .selection s := Item.selection?_eq_some.mp hs
  refine ⟨flow, ws, hopen, step, hstep, hshown, hgoing, hquiet, hdrawn, s, cell, ?_, hdistinct,
    hcell, ⟨"○ A", htext⟩, _, hfault⟩
  rw [hfocused, hitem]

/-- The digit of the other option clicks it. -/
theorem digits_act_on_labels_kawi :
    ∃ screen ws flow ws', Screen.validate "" defaultMaxDepth kawiSource = .ok (screen, ws) ∧
      beginFlow [screen] Settings.usual none 0 = .ok (flow, ws') ∧
      ∃ step ∈ (Host.session flow 0 [.digit 2] : List (HostStep Float)),
        step.before.FocusShown ∧
        ∃ s id choice, s.displayed[1]? = some (id, choice) ∧ step.before.Clicks 2 0 s id := by
  have h : (Screen.validate "" defaultMaxDepth kawiSource).toOption.any (fun found =>
      (beginFlow [found.1] Settings.usual none 0).toOption.any fun begun =>
        (Host.session begun.1 0 [.digit 2] : List (HostStep Float)).any fun step =>
          decide (step.before.onSummary = false ∧ step.before.flow.player.status ≠ .completed ∧
            step.before.layout.popup = none ∧ Drawing.fault? step.before.layout = none) &&
          step.before.layout.items.any fun placed =>
            placed.1 = 0 && placed.2.selection?.any fun s =>
            decide s.identities.Nodup &&
            (Drawing.optionCells s (step.before.content.picks 0)
              (step.before.page.focus = some 0))[1]?.any fun cell => cell.text = "2 ○ B") =
        true := by
    decide +kernel
  obtain ⟨⟨screen, ws⟩, hv, h⟩ := Except.any_toOption.mp h
  obtain ⟨⟨flow, ws'⟩, hbegun, h⟩ := Except.any_toOption.mp h
  obtain ⟨step, hstep, h⟩ := List.any_eq_true.mp h
  simp only [Bool.and_eq_true, decide_eq_true_eq, Option.any_eq_true, List.any_eq_true] at h
  obtain ⟨⟨hshown, hgoing, hquiet, hdrawn⟩, ⟨i, item⟩, hplaced, hi, s, hs, hdistinct, cell,
    hcell, htext⟩ := h
  obtain rfl : i = 0 := hi
  obtain rfl : item = .selection s := Item.selection?_eq_some.mp hs
  have hparsed : ∀ s ∈ [screen], s.Parsed := by
    intro s hs
    rw [List.mem_singleton.mp hs]
    exact Screen.parsed_of_validate hv
  obtain ⟨hfocus, hlabelled⟩ := Host.digits_act_on_labels hbegun hparsed 0 [.digit 2] step hstep
  obtain ⟨id, choice, hentry, -, hclicks⟩ := (hlabelled hshown hgoing).option hquiet hdrawn 0 s
    hplaced hdistinct 1 cell 2 hcell ⟨"○ B", htext⟩
  exact ⟨screen, ws, flow, ws', hv, hbegun, step, hstep, hfocus, s, id, choice, hentry, hclicks⟩

end Quiz
