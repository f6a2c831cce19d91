/-
Quiz.Proofs.Play.Finishing — a screen with a button can be finished from
everywhere, unless one of its popups has no answer to give.

The way out is the same from every state: leave the conditional screen, take
the loading items to their end one after the other, type something into every
input, and press the button. A loading item is passed in three stages, each of
which ends in the next: a long tick opens its popup, an answer closes it, and
what has no popup to wait for is finished at once.

* `Outlasts` — a tick that takes a loading item to its end or to its popup,
  whatever its progress; there is one among floats (`outlasts_longTick`).
* `exists_revealed`, `exists_settled` — the moves that take a content to where
  its button is there, and then to where no required input is blank.
* `Moves.exists_run` — moves that are no picks are made by commands.
* `Stuck` — a loading item waits for an answer, and no conditional screen is
  shown; it stays so where no answer can be given (`Change.stuck`).
* `completion_reachable` — the two directions together.
-/
import Quiz.Proofs.Play.Completion
import Quiz.Proofs.Play.GateOrder
import Quiz.Proofs.Play.PopupProtocol

namespace Quiz

open ScreenState ContentState OrderedScale GateProgress FloatOrder FloatRounding

variable {α : Type} [Scale α]

/-! ## A tick that is long enough -/

/-- Whatever progress the item has made, a tick of this length fills it up. -/
def Outlasts (elapsed : α) (l : Loading) : Prop :=
  ∃ stride, stride? l elapsed = some stride ∧
    ∀ a : α, Counts a → Scale.atMostHundred (Scale.add a stride) = Scale.hundred

/-- A popup that has not been opened is opened by a tick that is long enough. -/
theorem GateProgress.advance_opens [OrderedScale α] {l : Loading} {popup : Popup}
    {p : GateProgress α} {elapsed : α} (ht : l.Triggered) (hp : p.Fair l)
    (asks : l.popup = some popup) (closed : p.popupOpen = false)
    (unanswered : p.popupAnswered = false) (long : Outlasts elapsed l) :
    p.advance l elapsed =
      some
        { p with progress := Scale.ofFloat popup.trigger, paused := true, popupOpen := true } := by
  obtain ⟨stride, hstride, hfull⟩ := long
  obtain ⟨hlow, hhigh⟩ := ht popup asks
  have hruns : (p.paused || p.isComplete l) = false := by
    simp [hp.paused, closed, isComplete, asks, unanswered]
  have hahead := hp.ahead popup asks closed unanswered
  have hreaches : Scale.le (Scale.ofFloat popup.trigger : α) Scale.hundred = true :=
    ofFloat_le_hundred hlow hhigh
  have hopens : p.opensPopup popup Scale.hundred = true := by
    simp [opensPopup, unanswered, closed, hahead, hreaches]
  unfold advance
  rw [hruns, hstride]
  simp [hfull _ hp.counts, moveTo, asks, hopens]

/-! ## One loading item -/

/-- The command lets no time pass backwards and picks nothing. -/
def Command.Plain (command : Command α) : Prop :=
  command.Timely ∧ ∀ index option target, command ≠ .select index option target

section Gate

variable {content : Screen} {c : ContentState α} {gate : Nat} {l : Loading}

omit [Scale α] in
/-- The frontier is visible. -/
theorem visibleAt?_frontier (front : frontier? content.regular c.completedGates = some gate)
    (item : content.regular[gate]? = some (.loading l)) :
    content.visibleAt? c.completedGates gate = some (.loading l) := by
  refine Screen.visibleAt?_eq_some.mpr ⟨gate, rfl, ?_, item⟩
  rw [visibleCount, front]
  exact Nat.lt_succ_self gate

/-- The frontier is passed. -/
def Passed (content : Screen) (c : ContentState α) (gate : Nat) : Prop :=
  ∃ c', Moves Command.Plain content c c' ∧ c'.completedGates = c.completedGates ++ [(gate : Int)]

/-- Without a popup that waits, the frontier is passed at once. -/
theorem passed_of_free (front : frontier? content.regular c.completedGates = some gate)
    (item : content.regular[gate]? = some (.loading l))
    (free : l.popup = none ∨ (c.progressAt gate).popupAnswered = true) : Passed content c gate := by
  have hundone := (frontier?_spec front).2
  have hmove : Move content c (.finishLoading gate) (c.finished gate) :=
    .finish (visibleAt?_frontier front item) hundone free
  have hplain : (.finishLoading gate : Command α).Plain := ⟨trivial, nofun⟩
  refine ⟨c.finished gate, .single ⟨_, hplain, hmove⟩, ?_⟩
  unfold finished
  rw [completeGate_of_not_mem]
  exact hundone

/-- Where the progress is stored it is found. -/
theorem progressAt_put (c : ContentState α) (index : Int) (p : GateProgress α) :
    progressAt { c with loading := c.loading.put index p } index = p := by
  simp [progressAt]

/-- With its popup open, the frontier is passed by an answer. -/
theorem passed_of_open (front : frontier? content.regular c.completedGates = some gate)
    (item : content.regular[gate]? = some (.loading l)) {popup : Popup} {p : GateProgress α}
    (asks : l.popup = some popup) (answers : popup.options ≠ [])
    (stored : c.loading.get? gate = some p) (opened : p.popupOpen = true) :
    Passed content c gate := by
  obtain ⟨first, rest, hoptions⟩ := List.exists_cons_of_ne_nil answers
  have hfound : popup.options.find? (fun o => o.value.key = first.value.key) = some first := by
    rw [hoptions]
    exact List.find?_cons_of_pos (by simp)
  have hmove : Move content c (.answer gate first.value) (c.tracked gate l p.respond) :=
    .answer (visibleAt?_frontier front item) asks stored opened hfound
  have hplain : (.answer gate first.value : Command α).Plain := ⟨trivial, nofun⟩
  cases hcomplete : p.respond.isComplete l with
  | true =>
    refine ⟨_, .single ⟨_, hplain, hmove⟩, ?_⟩
    rw [tracked_of_complete c hcomplete, completeGate_of_not_mem]
    exact (frontier?_spec front).2
  | false =>
    -- the trigger lay below a hundred percent, and the rest of the way is free now
    rw [tracked_of_incomplete c hcomplete] at hmove
    have hfree : (progressAt { c with loading := c.loading.put gate p.respond }
        gate).popupAnswered = true := by
      rw [progressAt_put]
      rfl
    obtain ⟨c', hmoves, hgates⟩ := passed_of_free
      (c := { c with loading := c.loading.put gate p.respond }) front item (Or.inr hfree)
    exact ⟨c', .head ⟨_, hplain, hmove⟩ hmoves, hgates⟩

/-- A popup of the loading item has an answer to give, and its duration can be
counted. -/
def Loading.Passable (l : Loading) : Prop :=
  (l.popup.all fun popup => !popup.options.isEmpty) = true ∧
    (floatOfInt? l.duration).isSome = true

instance (l : Loading) : Decidable l.Passable :=
  inferInstanceAs (Decidable (_ ∧ _))

variable [OrderedScale α]

/-- The frontier can be passed. -/
theorem passed_of_frontier (front : frontier? content.regular c.completedGates = some gate)
    (item : content.regular[gate]? = some (.loading l)) (ht : l.Triggered)
    (orderly : Orderly content c) (passable : l.Passable) {elapsed : α} (counts : Counts elapsed)
    (long : Outlasts elapsed l) : Passed content c gate := by
  cases asks : l.popup with
  | none => exact passed_of_free front item (Or.inl asks)
  | some popup =>
    have hanswers : popup.options ≠ [] := by
      have hall := passable.1
      rw [asks] at hall
      simpa using hall
    have hfair : (c.progressAt gate).Fair l := by
      rcases orderly.progressAt (Screen.loadingAt?_eq_some.mpr item) with heq | hsound
      · rw [heq]
        exact fair_initial ht
      · exact hsound.toFair
    cases hanswered : (c.progressAt gate).popupAnswered with
    | true => exact passed_of_free front item (Or.inr hanswered)
    | false =>
      cases hopen : (c.progressAt gate).popupOpen with
      | true =>
        cases hstored : c.loading.get? (gate : Int) with
        | none => simp [progressAt, hstored, initial] at hopen
        | some p =>
          have hat : c.progressAt gate = p := by simp [progressAt, hstored]
          exact passed_of_open front item asks hanswers hstored (hat ▸ hopen)
      | false =>
        have hadvance := advance_opens ht hfair asks hopen hanswered long
        generalize hopened : ({ c.progressAt gate with
          progress := Scale.ofFloat popup.trigger, paused := true, popupOpen := true } :
            GateProgress α) = opened at hadvance
        have hincomplete : opened.isComplete l = false := by
          simp [← hopened, isComplete, asks, hanswered]
        have hmove := Move.tick front item hadvance
        rw [tracked_of_incomplete c hincomplete] at hmove
        obtain ⟨c', hmoves, hgates⟩ := passed_of_open
          (c := { c with loading := c.loading.put gate opened }) front item asks hanswers
          (Table.get?_put_same _ _ _) (by rw [← hopened])
        have hplain : (.tick elapsed : Command α).Plain := ⟨counts, by simp⟩
        exact ⟨c', .head ⟨_, hplain, hmove⟩ hmoves, hgates⟩

end Gate

/-! ## All that has to be done -/

section Content

variable [OrderedScale α] {content : Screen} {c : ContentState α}

omit [OrderedScale α] in
theorem Moves.mono {allowed allowed' : Command α → Prop} {c' : ContentState α}
    (h : Moves allowed content c c') (hsub : ∀ command, allowed command → allowed' command) :
    Moves allowed' content c c' :=
  Relation.ReflTransGen.mono (fun _ _ ⟨command, hcommand, hmove⟩ =>
    ⟨command, hsub command hcommand, hmove⟩) _ _ h

/-- All loading items can be done. The induction is on how many there are left
behind the first `k`. -/
theorem exists_revealed (ht : content.Triggered)
    (passable : ∀ l, .loading l ∈ content.regular → l.Passable) {elapsed : α}
    (counts : Counts elapsed) (long : ∀ l : Loading, l.Passable → Outlasts elapsed l)
    (orderly : Orderly content c) {k : Nat}
    (done : c.completedGates = ((gates content.regular).take k).map Int.ofNat) :
    ∃ c', Moves Command.Plain content c c' ∧
      allRevealed content.regular c'.completedGates = true := by
  induction hleft : (gates content.regular).length - k generalizing c k with
  | zero =>
    refine ⟨c, .refl, ?_⟩
    have hnone : (gates content.regular)[k]? = none := List.getElem?_eq_none (by omega)
    rw [allRevealed, done, frontier?_take, hnone]
    rfl
  | succ left ih =>
    have hk : k < (gates content.regular).length := by omega
    obtain ⟨gate, hgate⟩ : ∃ gate, (gates content.regular)[k]? = some gate :=
      ⟨_, List.getElem?_eq_getElem hk⟩
    have hfront : frontier? content.regular c.completedGates = some gate := by
      rw [done, frontier?_take, hgate]
    obtain ⟨⟨l, hl⟩, -⟩ := frontier?_spec hfront
    have hpassable := passable l (List.mem_of_getElem? hl)
    obtain ⟨c₁, hmoves₁, hgates₁⟩ :=
      passed_of_frontier hfront hl (ht gate l (Screen.loadingAt?_eq_some.mpr hl)) orderly hpassable
        counts (long l hpassable)
    have horderly₁ : Orderly content c₁ :=
      ((hmoves₁.mono fun _ h => h.1).orderly ht orderly).1
    have hdone₁ : c₁.completedGates = ((gates content.regular).take (k + 1)).map Int.ofNat := by
      rw [hgates₁, done, List.take_add_one, hgate, List.map_append]
      rfl
    obtain ⟨c₂, hmoves₂, hrevealed⟩ := ih horderly₁ hdone₁ (by omega)
    exact ⟨c₂, hmoves₁.trans hmoves₂, hrevealed⟩

omit [OrderedScale α] in
/-- Once everything is visible, something can be typed into every input. -/
theorem exists_typed (revealed : allRevealed content.regular c.completedGates = true)
    {inputs : List (Nat × TextInput)} (h : ∀ place ∈ inputs, place ∈ content.inputs) :
    ∃ c', Moves Command.Plain content c c' ∧ c'.completedGates = c.completedGates ∧
      (∀ place ∈ inputs, c'.textAt place.1 = "x") ∧
      ∀ index, c.textAt index = "x" → c'.textAt index = "x" := by
  induction inputs generalizing c with
  | nil => exact ⟨c, .refl, rfl, fun _ h => absurd h List.not_mem_nil, fun _ h => h⟩
  | cons place rest ih =>
    obtain ⟨i, input⟩ := place
    obtain ⟨hplace, hrest⟩ := List.forall_mem_cons.mp h
    have hitem := Screen.mem_inputs.mp hplace
    have hvisible : content.visibleAt? c.completedGates i = some (.input input) := by
      refine Screen.visibleAt?_eq_some.mpr ⟨i, rfl, ?_, hitem⟩
      rw [visibleCount, Option.isNone_iff_eq_none.mp revealed]
      exact (List.getElem?_eq_some_iff.mp hitem).1
    have hmove : Move content c (.edit i "x") { c with inputs := c.inputs.put i "x" } :=
      .edit hvisible
    have hplain : (.edit i "x" : Command α).Plain := ⟨trivial, by simp⟩
    obtain ⟨c', hmoves, hgates, htyped, hkept⟩ :=
      ih (c := { c with inputs := c.inputs.put i "x" }) revealed hrest
    refine ⟨c', .head ⟨_, hplain, hmove⟩ hmoves, hgates, ?_, ?_⟩
    · refine List.forall_mem_cons.mpr ⟨hkept i ?_, htyped⟩
      simp [textAt]
    · intro index hindex
      refine hkept index ?_
      by_cases hi : (i : Int) = index
      · simp [textAt, hi]
      · simpa [textAt, Table.get?_put_other c.inputs "x" hi] using hindex

/-- From every orderly state of a content moves lead to one in which
everything is visible and no required input is blank. -/
theorem exists_settled (ht : content.Triggered)
    (passable : ∀ l, .loading l ∈ content.regular → l.Passable) {elapsed : α}
    (counts : Counts elapsed) (long : ∀ l : Loading, l.Passable → Outlasts elapsed l)
    (orderly : Orderly content c) (inOrder : InOrder content c) :
    ∃ c', Moves Command.Plain content c c' ∧
      allRevealed content.regular c'.completedGates = true ∧ blankRequired content c' = [] := by
  obtain ⟨k, hk⟩ := inOrder.first
  obtain ⟨c₁, hmoves₁, hrevealed⟩ := exists_revealed ht passable counts long orderly hk
  obtain ⟨c₂, hmoves₂, hgates, htyped, -⟩ := exists_typed hrevealed fun place h => h
  refine ⟨c₂, hmoves₁.trans hmoves₂, by rw [hgates]; exact hrevealed, ?_⟩
  have hblank : Text.isAllBlank "x" = false := by decide
  unfold blankRequired
  rw [List.map_eq_nil_iff, List.filter_eq_nil_iff]
  intro place hplace
  simp [htyped place hplace, hblank]

end Content

/-! ## Commands that make the moves -/

/-- Moves that are no picks are made by commands, while no conditional screen
is shown. -/
theorem Moves.exists_run {screen : Screen} {c c' : ContentState α}
    (h : Moves Command.Plain screen c c') (maxDepth : Int) {s : ScreenState α}
    (alone : s.branch = none) (at_ : s.authored = c) (going : s.completed = false) :
    ∃ commands : List (Command α), (∀ command ∈ commands, command.Timely) ∧
      s.run screen maxDepth commands = { s with authored := c' } := by
  induction h with
  | refl => exact ⟨[], fun _ h => absurd h List.not_mem_nil, by rw [← at_]; rfl⟩
  | @tail c₁ c' _ hstep ih =>
    obtain ⟨commands, htimely, hrun⟩ := ih
    obtain ⟨command, ⟨hcommand, hnoPick⟩, hmove⟩ := hstep
    refine ⟨commands ++ [command], ?_, ?_⟩
    · intro k hk
      rcases List.mem_append.mp hk with hk | hk
      · exact htimely k hk
      · rw [List.mem_singleton.mp hk]
        exact hcommand
    · have hmove : Move (active screen { s with authored := c₁ }).1
          (active screen { s with authored := c₁ }).2 command c' := by
        rwa [active_of_none (s := { s with authored := c₁ }) alone]
      rw [run_append, hrun, ← withActive_of_none (s := { s with authored := c₁ }) c' alone]
      exact hmove.next_withActive going hnoPick

/-- An orderly screen with a button can be completed: by leaving the
conditional screen, making the moves and pressing the button. -/
theorem exists_completing [OrderedScale α] {screen : Screen} {maxDepth : Int} {s : ScreenState α}
    {button : Button} (shown : screen.button? = some button) (ht : screen.Triggered)
    (passable : ∀ l, .loading l ∈ screen.content → l.Passable) {elapsed : α}
    (counts : Counts elapsed) (long : ∀ l : Loading, l.Passable → Outlasts elapsed l)
    (orderly : Orderly screen s.authored) (inOrder : InOrder screen s.authored)
    (going : s.completed = false) :
    ∃ more : List (Command α), (∀ command ∈ more, command.Timely) ∧
      (s.run screen maxDepth more).completed = true := by
  have hregular : ∀ l, .loading l ∈ screen.regular → l.Passable :=
    fun l hl => passable l (List.mem_of_mem_filter hl)
  obtain ⟨c, hmoves, hrevealed, hfilled⟩ := exists_settled ht hregular counts long orderly inOrder
  -- underneath the conditional screen is the authored content
  let left : ScreenState α := { s with branch := none }
  have hleft : s.next screen maxDepth .clearBranch = left := by simp [next, step, going, left]
  obtain ⟨commands, htimely, hrun⟩ :=
    hmoves.exists_run maxDepth (s := left) rfl rfl going
  have hsettled : Settled screen { left with authored := c } := by
    refine (settled_iff (s := { left with authored := c }) going).mpr ?_
    rw [active_of_none rfl]
    exact ⟨hrevealed, hfilled⟩
  have hpress : Completes screen maxDepth { left with authored := c } .press := by
    have hshown : (active screen { left with authored := c }).1.button? = some button := by
      rw [active_of_none rfl]
      exact shown
    exact Concludes.completes (concludes_of_press going hshown hsettled) going
  refine ⟨.clearBranch :: commands ++ [.press], ?_, ?_⟩
  · intro command hcommand
    rcases List.mem_append.mp hcommand with hfirst | hlast
    · rcases List.mem_cons.mp hfirst with rfl | hcommand
      · trivial
      · exact htimely command hcommand
    · rw [List.mem_singleton.mp hlast]
      trivial
  · have hsplit : s.run screen maxDepth (.clearBranch :: commands ++ [.press]) =
        (left.run screen maxDepth commands).next screen maxDepth .press := by
      rw [run_append, ← hleft]
      rfl
    rw [hsplit, hrun]
    exact hpress.2

/-! ## A popup without answers -/

/-- The popup of the loading item at an index has had no answer. -/
def Unanswered (c : ContentState α) (index : Int) : Prop :=
  ∀ p, c.loading.get? index = some p → p.popupAnswered = false

omit [Scale α] in
theorem Unanswered.put {c : ContentState α} {index other : Int} (h : Unanswered c index)
    {p : GateProgress α} {marks : List Int} (hp : other = index → p.popupAnswered = false) :
    Unanswered { c with loading := c.loading.put other p, completedGates := marks } index := by
  intro q hq
  by_cases heq : other = index
  · subst heq
    obtain rfl := Option.some.inj ((Table.get?_put_same _ _ _).symm.trans hq)
    exact hp rfl
  · exact h q ((Table.get?_put_other _ _ heq).symm.trans hq)

theorem Unanswered.progressAt {c : ContentState α} {index : Int} (h : Unanswered c index) :
    (c.progressAt index).popupAnswered = false := by
  unfold ContentState.progressAt
  cases hp : c.loading.get? index with
  | none => rfl
  | some p => exact h p hp

/-- A tick answers no popup. -/
theorem GateProgress.advance_popupAnswered {l : Loading} {p p' : GateProgress α} {elapsed : α}
    (h : p.advance l elapsed = some p') : p'.popupAnswered = p.popupAnswered := by
  unfold advance at h
  split at h
  · rw [Option.some.inj h]
  · obtain ⟨stride, -, rfl⟩ := Option.map_eq_some_iff.mp h
    unfold moveTo
    split
    · split <;> rfl
    · rfl

/-- A popup without options gets no answer. -/
theorem Move.unanswered {content : Screen} {c c' : ContentState α} {command : Command α}
    (h : Move content c command c') {gate : Nat} {l : Loading} {popup : Popup}
    (item : content.regular[gate]? = some (.loading l)) (asks : l.popup = some popup)
    (silent : popup.options = []) (unanswered : Unanswered c gate) : Unanswered c' gate := by
  cases h with
  | pick meant => exact unanswered
  | edit visible => exact unanswered
  | @answer index value l' popup' p chosen visible asks' stored opened among =>
    obtain ⟨i, rfl, -, hitem⟩ := Screen.visibleAt?_eq_some.mp visible
    obtain ⟨marks, heq, -⟩ := tracked_eq c i l' p.respond
    rw [heq]
    refine unanswered.put fun hi => ?_
    obtain rfl := Int.ofNat.inj hi
    obtain rfl := Item.loading.inj (Option.some.inj (item.symm.trans hitem))
    obtain rfl := Option.some.inj (asks.symm.trans asks')
    rw [silent] at among
    cases among
  | @tick elapsed i l' p front hitem advanced =>
    obtain ⟨marks, heq, -⟩ := tracked_eq c i l' p
    rw [heq]
    refine unanswered.put fun hi => ?_
    obtain rfl := Int.ofNat.inj hi
    rw [GateProgress.advance_popupAnswered advanced]
    exact unanswered.progressAt
  | @finish index l' visible undone free =>
    obtain ⟨marks, heq⟩ := finished_eq c index
    rw [heq]
    refine unanswered.put fun hi => ?_
    subst hi
    exact unanswered.progressAt

/-- An item whose popup has had no answer is not marked, so not everything
is revealed. -/
theorem InOrder.withheld {content : Screen} {c : ContentState α} (h : InOrder content c)
    {gate : Nat} {l : Loading} (item : content.regular[gate]? = some (.loading l))
    (asks : l.popup.isSome = true) (unanswered : Unanswered c gate) :
    allRevealed content.regular c.completedGates = false := by
  have hundone : (gate : Int) ∉ c.completedGates := by
    intro hmem
    obtain ⟨l', p, hl', hp, hcomplete⟩ := (h.complete gate).mp hmem
    rw [Screen.loadingAt?_eq_some, item] at hl'
    obtain rfl := Item.loading.inj (Option.some.inj hl')
    simp [GateProgress.isComplete, unanswered p hp, Option.isNone_eq_false_iff.mpr asks]
      at hcomplete
  obtain ⟨front, hfront, -⟩ := frontier?_le (mem_gates.mpr ⟨l, item⟩) hundone
  rw [allRevealed, hfront]
  rfl

/-- What holds of a screen that cannot be completed: no conditional screen is
shown, and a loading item waits for an answer. -/
structure Stuck (screen : Screen) (gate : Nat) (s : ScreenState α) : Prop where
  alone : s.branch = none
  going : s.completed = false
  inOrder : InOrder screen s.authored
  unanswered : Unanswered s.authored gate

/-- A screen with a button, without conditional screens and with a popup that
has no options stays stuck. -/
theorem Change.stuck (hcap : Scale.Capped α) {screen : Screen} {maxDepth : Int}
    {s s' : ScreenState α} {command : Command α} (h : Change screen maxDepth s command s')
    (button : screen.button?.isSome = true)
    (plain : ∀ selection, .selection selection ∈ screen.content → selection.hasBranches = false)
    {gate : Nat} {l : Loading} {popup : Popup}
    (item : screen.regular[gate]? = some (.loading l)) (asks : l.popup = some popup)
    (silent : popup.options = []) (stuck : Stuck screen gate s) : Stuck screen gate s' := by
  have hmove {c : ContentState α} (hmove : Move screen s.authored command c) :
      Stuck screen gate { s with authored := c } :=
    ⟨stuck.alone, stuck.going, hmove.inOrder hcap stuck.inOrder,
      hmove.unanswered item asks silent stuck.unanswered⟩
  cases h with
  | ignored => exact stuck
  | moved noPick move =>
    rw [withActive_of_none _ stuck.alone]
    rw [active_of_none stuck.alone] at move
    exact hmove move
  | pickedInside shown meant =>
    rw [stuck.alone] at shown
    cases shown
  | picked addressed meant _ =>
    rename_i selection _
    -- a screen with a button waits for it
    have hwaits : (s.completed || selection.advancesAlone screen.button?.isSome) = s.completed := by
      simp [Selection.advancesAlone, button]
    rw [hwaits]
    exact hmove (.pick meant)
  | followed addressed meant branching followed =>
    obtain ⟨hv, -, -⟩ := Screen.meant?_eq_some.mp meant
    obtain ⟨i, -, -, hitem⟩ := Screen.visibleAt?_eq_some.mp hv
    rw [plain _ (List.mem_of_mem_filter (List.mem_of_getElem? hitem))] at branching
    cases branching
  | pressed shown revealed filled =>
    rw [active_of_none stuck.alone] at revealed
    have hwithheld := stuck.inOrder.withheld item (by rw [asks]; rfl) stuck.unanswered
    rw [revealed] at hwithheld
    cases hwithheld
  | left => exact ⟨rfl, stuck.going, stuck.inOrder, stuck.unanswered⟩

/-! ## Runs -/

/-- A tick this long takes every loading item whose duration can be counted to
its end: its hundredfold is infinite. -/
def longTick : Float := 1e308

theorem counts_longTick : Counts longTick := by
  unfold Counts
  decide +kernel

theorem outlasts_longTick {l : Loading} (h : l.Passable) : Outlasts longTick l := by
  have hfull {a stride : Float} (ha : Counts a) (hstride : Counting stride)
      (hlong : Scale.hundred ≤ stride) :
      Scale.atMostHundred (Scale.add a stride) = Scale.hundred := by
    have hsum : (Scale.hundred : Float) ≤ a + stride :=
      float_le_trans (counts_iff.mp hundred_counts) hlong
        (float_le_add_left (counts_iff.mp ha) hstride)
    exact atMostHundred_of_le (decide_eq_true hsum)
  by_cases hd : l.duration = 0
  · refine ⟨Scale.hundred, if_pos hd, fun a ha => hfull ha (counts_iff.mp hundred_counts) ?_⟩
    decide +kernel
  · obtain ⟨d, hcounted⟩ := Option.isSome_iff_exists.mp h.2
    have hshare : (floatOfInt? l.duration).map (100.0 * longTick / ·) =
        some (100.0 * longTick / d) := by rw [hcounted]; rfl
    have hpositive : 0 < l.duration := Nat.pos_of_ne_zero hd
    refine ⟨100.0 * longTick / d, (if_neg hd).trans hshare, fun a ha => hfull ha ?_ ?_⟩
    · exact share_counting (counts_iff.mp counts_longTick) hpositive hshare
    · refine le_of_infinite (counts_iff.mp hundred_counts) (infinite_share hpositive ?_ hshare)
      exact unpack_of_infinite_le (by decide +kernel)

/-- A screen with a button whose popups can all be answered can be completed
from every state of a run. With a popup that has no options, and without
conditional screens, no run completes it. -/
theorem completion_reachable (screen : Screen) (maxDepth : Int)
    (button : screen.button?.isSome = true) :
    (screen.Parsed → (∀ l, .loading l ∈ screen.content → l.Passable) →
      ∀ commands : List (Command Float), (∀ command ∈ commands, command.Timely) →
        ((new screen).run screen maxDepth commands).completed = false →
        ∃ more : List (Command Float), (∀ command ∈ more, command.Timely) ∧
          (((new screen).run screen maxDepth commands).run screen maxDepth more).completed
            = true) ∧
    ((∀ selection, .selection selection ∈ screen.content → selection.hasBranches = false) →
      (∃ l popup, .loading l ∈ screen.content ∧ l.popup = some popup ∧ popup.options = []) →
      ∀ commands : List (Command Float),
        ((new screen).run screen maxDepth commands).completed = false) := by
  have hany : ∀ commands : List (Command Float), ∀ command ∈ commands, True :=
    fun _ _ _ => trivial
  constructor
  · intro parsed hpassable commands htimely hgoing
    obtain ⟨found, hfound⟩ := Option.isSome_iff_exists.mp button
    have hplace := contentAt?_authored screen ((new screen).run screen maxDepth commands)
    have horderly := forall_contentAt?_run (I := fun content c => content.Triggered ∧
      Orderly content c) ⟨parsed.popupsTriggered, .new screen⟩
      (fun _ _ content _ hv => ⟨(Screen.parsed_of_validate hv).popupsTriggered, .new content⟩)
      (fun _ _ _ _ hcommand hin hmove => ⟨hin.1, (hmove.orderly hin.1 hcommand hin.2).1⟩)
      htimely hplace
    have hinOrder := forall_contentAt?_run (I := InOrder) (.new screen)
      (fun _ _ content _ _ => .new content)
      (fun _ _ _ _ _ hin hmove => hmove.inOrder Scale.capped_float hin) (hany commands) hplace
    exact exists_completing hfound horderly.1 hpassable counts_longTick
      (fun l hl => outlasts_longTick hl) horderly.2 hinOrder hgoing
  · rintro hplain ⟨l, popup, hl, hasks, hsilent⟩ commands
    obtain ⟨gate, hgate⟩ := List.getElem?_of_mem
      (List.mem_filter.mpr ⟨hl, rfl⟩ : .loading l ∈ screen.regular)
    have hfirst : Stuck screen gate (new screen : ScreenState Float) :=
      ⟨rfl, rfl, .new screen, fun p hp => by cases hp⟩
    exact (run_induction (fun s s' command _ hstuck hchange =>
      hchange.stuck Scale.capped_float button hplain hgate hasks hsilent hstuck) hfirst
      (hany commands)).going

/-- A document of a screen with a button and a loading item that asks half
way. -/
def questionSource (answers : List Json) : Json :=
  .obj
    [("id", .str "question"),
     ("content", .arr
      [.obj
        [("type", .str "loading"),
         ("duration", .int 1000),
         ("popup", .obj
          [("triggerAtPercent", .int 50), ("title", .str "Ready?"), ("options", .arr answers)])],
       .obj [("type", .str "button")]])]

/-- With an answer to give, the screen can be completed while its question is
open; without one, it never is. -/
theorem completion_reachable_question :
    ∃ answered ws silent ws',
      Screen.validate "" defaultMaxDepth
          (questionSource [.obj [("text", .str "Yes"), ("value", .str "yes")]]) =
        .ok (answered, ws) ∧
      Screen.validate "" defaultMaxDepth (questionSource []) = .ok (silent, ws') ∧
      (∃ more : List (Command Float), (∀ command ∈ more, command.Timely) ∧
        (((new answered).run answered defaultMaxDepth [.tick (500.0 : Float)]).run answered
          defaultMaxDepth more).completed = true) ∧
      ∀ commands : List (Command Float),
        ((new silent).run silent defaultMaxDepth commands).completed = false := by
  have hanswered : (Screen.validate "" defaultMaxDepth
      (questionSource [.obj [("text", .str "Yes"), ("value", .str "yes")]])).toOption.any
        (fun found => found.1.button?.isSome &&
          found.1.content.all (fun item => item.loading?.all fun l => decide l.Passable) &&
          !((new found.1).run found.1 defaultMaxDepth [.tick (500.0 : Float)]).completed)
        = true := by
    decide +kernel
  have hsilent : (Screen.validate "" defaultMaxDepth (questionSource [])).toOption.any
      (fun found => found.1.button?.isSome &&
        found.1.content.all (fun item => item.selection?.all fun s => !s.hasBranches) &&
        found.1.content.any (fun item => item.loading?.any fun l =>
          l.popup.any fun popup => popup.options.isEmpty)) = true := by
    decide +kernel
  obtain ⟨⟨answered, ws⟩, hv, hanswered⟩ := Except.any_toOption.mp hanswered
  obtain ⟨⟨silent, ws'⟩, hv', hsilent⟩ := Except.any_toOption.mp hsilent
  simp only [Bool.and_eq_true, Bool.not_eq_true', List.all_eq_true, List.any_eq_true]
    at hanswered hsilent
  obtain ⟨⟨hbutton, hpassable⟩, hgoing⟩ := hanswered
  obtain ⟨⟨hbutton', hplain⟩, item, hitem, hwaits⟩ := hsilent
  refine ⟨answered, ws, silent, ws', hv, hv', ?_, ?_⟩
  · refine (completion_reachable answered defaultMaxDepth hbutton).1
      (Screen.parsed_of_validate hv) ?_ _ ?_ hgoing
    · intro l hl
      simpa [Item.loading?] using hpassable _ hl
    · intro command hcommand
      rw [List.mem_singleton.mp hcommand]
      show decide ((0.0 : Float) ≤ 500.0) = true
      decide +kernel
  · refine (completion_reachable silent defaultMaxDepth hbutton').2 ?_ ?_
    · intro selection hselection
      simpa [Item.selection?] using hplain _ hselection
    · obtain ⟨l, hl, hpopup⟩ := (Option.any_eq_true _ _).mp hwaits
      obtain ⟨popup, hasks, hempty⟩ := (Option.any_eq_true _ _).mp hpopup
      rw [Item.loading?_eq_some.mp hl] at hitem
      exact ⟨l, popup, hitem, hasks, List.isEmpty_iff.mp hempty⟩

end Quiz
