/-
Quiz.Proofs.Play.GateReports — which ends of loading items are announced.

A tick and a forced end announce the loading item that they complete. An answer
can complete one as well, if its popup asks at a hundred percent; then the only
response is that to the answer. So the announcements of a run are those of the
loading items that were completed, without those whose popup asks last.

* `ScreenState.completions` — the loading items that commands complete, one
  after the other, read off the marks in all contents in play.
* `AnsweredEarly` — a popup that was answered before its item was done asks
  before the end; every move keeps it.
* `Handled.announces`, `step_reported` — what one command completes, and what it
  announces.
* `gates_announced` — the announcements along a run, for every run.
-/
import Quiz.Proofs.Play.Asking
import Quiz.Proofs.Play.GateOrder
import Quiz.Proofs.Play.Responses

namespace Quiz

variable {α : Type}

open ScreenState ContentState

/-- The response says that a loading item was completed: it says nothing but its
key, and is intermediate. -/
def Response.announces (r : Response) : Bool :=
  r = .plain r.key true

/-- A loading item that was completed: the place of its content, its index
there, and the item. -/
structure Completion where
  place : Place
  index : Int
  item : Loading

namespace ScreenState

/-- The places where a content is in play. -/
def places (s : ScreenState α) : List Place :=
  match s.branch with
  | none => [.authored]
  | some b => [.authored, .branch b.source b.value.key]

/-- The loading items that are marked as done at a place, and were not in an
earlier state. -/
def newlyDone (screen : Screen) (s earlier : ScreenState α) (place : Place) : List Completion :=
  match s.contentAt? screen place with
  | some (content, c) =>
    (c.completedGates.filter fun g => g ∉ earlier.gatesAt screen place).filterMap fun g =>
      (content.loadingAt? g).map fun l => ⟨place, g, l⟩
  | none => []

variable [Scale α]

/-- The loading items that a command completes, in all contents in play. -/
def completedBy (screen : Screen) (maxDepth : Int) (s : ScreenState α) (command : Command α) :
    List Completion :=
  let s' := s.next screen maxDepth command
  s'.places.flatMap (s'.newlyDone screen s)

/-- The loading items that commands complete, one after the other. -/
def completions (screen : Screen) (maxDepth : Int) (s : ScreenState α) :
    List (Command α) → List Completion
  | [] => []
  | command :: rest =>
    s.completedBy screen maxDepth command ++
      completions screen maxDepth (s.next screen maxDepth command) rest

/-- The responses to commands that say that a loading item was completed. -/
def announcements (screen : Screen) (maxDepth : Int) (s : ScreenState α)
    (commands : List (Command α)) : List Response :=
  (s.responses screen maxDepth commands).filter Response.announces

end ScreenState

/-! ## New marks -/

section Marks

variable {screen : Screen} {earlier s : ScreenState α} {place : Place}

theorem newlyDone_eq_nil (h : ∀ g ∈ s.gatesAt screen place, g ∈ earlier.gatesAt screen place) :
    s.newlyDone screen earlier place = [] := by
  unfold newlyDone
  cases hc : s.contentAt? screen place with
  | none => rfl
  | some found =>
    obtain ⟨content, c⟩ := found
    have hold : c.completedGates.filter (fun g => g ∉ earlier.gatesAt screen place) = [] := by
      refine List.filter_eq_nil_iff.mpr fun g hg => ?_
      simp [h g (mem_gatesAt.mpr ⟨content, c, hc, hg⟩)]
    dsimp only
    rw [hold]
    rfl

/-- A mark that is set behind those that were there is the only new one. -/
theorem newlyDone_eq_singleton {content : Screen} {c : ContentState α} {i : Nat} {l : Loading}
    (hc : s.contentAt? screen place = some (content, c))
    (item : content.regular[i]? = some (.loading l))
    (marks : c.completedGates = earlier.gatesAt screen place ++ [(i : Int)])
    (fresh : (i : Int) ∉ earlier.gatesAt screen place) :
    s.newlyDone screen earlier place = [⟨place, i, l⟩] := by
  have hl := Screen.loadingAt?_eq_some.mpr item
  have hold : (earlier.gatesAt screen place).filter
      (fun g => g ∉ earlier.gatesAt screen place) = [] :=
    List.filter_eq_nil_iff.mpr fun g hg => by simp [hg]
  simp only [newlyDone, hc]
  rw [marks, List.filter_append, hold]
  simp [fresh, hl, -Screen.loadingAt?_natCast]

theorem gatesAt_shownPlace (screen : Screen) (s : ScreenState α) :
    s.gatesAt screen s.shownPlace = (s.active screen).2.completedGates := by
  unfold gatesAt
  rw [contentAt?_shownPlace]

theorem gatesAt_withActive (screen : Screen) (s : ScreenState α) (c : ContentState α)
    (place : Place) :
    (s.withActive c).gatesAt screen place =
      if place = s.shownPlace then c.completedGates else s.gatesAt screen place := by
  unfold gatesAt
  rw [contentAt?_withActive]
  by_cases h : place = s.shownPlace
  · rw [if_pos h, if_pos h]
  · rw [if_neg h, if_neg h]

theorem places_withActive (s : ScreenState α) (c : ContentState α) :
    (s.withActive c).places = s.places := by
  cases hb : s.branch <;> simp [withActive, places, hb]

/-- The item that is marked in the content that is shown is the only one that is
newly done. -/
theorem newlyDone_withActive {c : ContentState α} {i : Nat} {l : Loading}
    (item : (s.active screen).1.regular[i]? = some (.loading l))
    (undone : (i : Int) ∉ (s.active screen).2.completedGates)
    (marks : c.completedGates = (s.active screen).2.completedGates ++ [(i : Int)]) :
    (s.withActive c).places.flatMap ((s.withActive c).newlyDone screen s) =
      [⟨s.shownPlace, i, l⟩] := by
  have hshown : (s.withActive c).newlyDone screen s s.shownPlace = [⟨s.shownPlace, i, l⟩] := by
    have hat := contentAt?_withActive screen s c s.shownPlace
    rw [if_pos rfl] at hat
    rw [← gatesAt_shownPlace] at marks undone
    exact newlyDone_eq_singleton hat item marks undone
  rw [places_withActive]
  cases hb : s.branch with
  | none =>
    have hplace : s.shownPlace = .authored := by simp [shownPlace, hb]
    rw [hplace] at hshown ⊢
    simp [places, hb, hshown]
  | some b =>
    have hplace : s.shownPlace = .branch b.source b.value.key := by simp [shownPlace, hb]
    have hbelow : (s.withActive c).newlyDone screen s .authored = [] := by
      refine newlyDone_eq_nil fun g hg => ?_
      rwa [gatesAt_withActive, if_neg (by simp [hplace])] at hg
    rw [hplace] at hshown ⊢
    simp [places, hb, hbelow, hshown]

end Marks

section Step

variable [Scale α]

/-! ## Popups that ask last -/

/-- The popup of the item asks at a hundred percent, where nothing is left to
come but the answer. -/
def Loading.asksLast (α : Type) [Scale α] (l : Loading) : Bool :=
  l.popup.any fun popup => !Scale.lt (Scale.ofFloat popup.trigger : α) Scale.hundred

/-- What is announced when a loading item is completed: nothing, if its popup
asks last. -/
def announcement? (α : Type) [Scale α] (screen : Screen) (l : Loading) : Option Response :=
  if l.asksLast α then none else some (gateCompleted screen l)

/-- A popup that was answered before its item was done does not ask last. -/
def AnsweredEarly (content : Screen) (c : ContentState α) : Prop :=
  ∀ (i : Nat) l p, content.regular[i]? = some (.loading l) → c.loading.get? i = some p →
    p.popupAnswered = true → (i : Int) ∉ c.completedGates → l.asksLast α = false

namespace GateProgress

variable {l : Loading} {p p' : GateProgress α} {popup : Popup}

theorem answered_of_moveTo (next : α) :
    (p.moveTo l next).popupAnswered = p.popupAnswered := by
  unfold moveTo
  split
  · split <;> rfl
  · rfl

/-- A tick answers no popup. -/
theorem answered_of_advance {elapsed : α} (advanced : p.advance l elapsed = some p') :
    p'.popupAnswered = p.popupAnswered := by
  unfold advance at advanced
  split at advanced
  · rw [Option.some.inj advanced]
  · obtain ⟨stride, -, rfl⟩ := Option.map_eq_some_iff.mp advanced
    exact answered_of_moveTo _

/-- An answer completes an item exactly if its popup asks last. -/
theorem Asks.isComplete_respond (h : p.Asks l popup) : p.respond.isComplete l = l.asksLast α := by
  simp [isComplete, respond, Loading.asksLast, h.asked, h.progress]

end GateProgress

namespace AnsweredEarly

variable {content : Screen} {c c' : ContentState α}

theorem new (content : Screen) :
    AnsweredEarly content (.new content.content : ContentState α) := by
  intro i l p _ hp
  cases hp

/-- An item whose popup need not be answered, or was, does not ask last unless
it is done. -/
theorem of_free (h : AnsweredEarly content c) {i : Nat} {l : Loading}
    (item : content.regular[i]? = some (.loading l)) (undone : (i : Int) ∉ c.completedGates)
    (free : l.popup = none ∨ (c.progressAt i).popupAnswered = true) : l.asksLast α = false := by
  rcases free with hnone | hanswered
  · simp [Loading.asksLast, hnone]
  · unfold ContentState.progressAt at hanswered
    cases hp : c.loading.get? (i : Int) with
    | none =>
      rw [hp] at hanswered
      cases hanswered
    | some p =>
      rw [hp] at hanswered
      exact h i l p item hp hanswered undone

/-- Storing the progress of one item says nothing about the others, and no mark
is taken back. -/
theorem store (h : AnsweredEarly content c) {i : Nat} {l : Loading}
    (item : content.regular[i]? = some (.loading l)) {p : GateProgress α}
    (loading : c'.loading = c.loading.put i p)
    (more : ∀ g ∈ c.completedGates, g ∈ c'.completedGates)
    (early : p.popupAnswered = true → (i : Int) ∉ c'.completedGates → l.asksLast α = false) :
    AnsweredEarly content c' := by
  intro j l' q item' hq hanswered undone
  rw [loading] at hq
  by_cases hij : i = j
  · subst hij
    rw [Table.get?_put_same] at hq
    obtain rfl := Option.some.inj hq
    obtain rfl := Item.loading.inj (Option.some.inj (item.symm.trans item'))
    exact early hanswered undone
  · rw [Table.get?_put_other _ _ (by omega)] at hq
    exact h j l' q item' hq hanswered fun hdone => undone (more j hdone)

/-- Every move keeps it. -/
theorem move (h : AnsweredEarly content c) (asks : AsksInFront content c) {command : Command α}
    (hm : Move content c command c') : AnsweredEarly content c' := by
  have more : ∀ g ∈ c.completedGates, g ∈ c'.completedGates := fun _ hg => hm.subset hg
  cases hm with
  | pick | edit => exact h
  | answer visible _ stored opened =>
    obtain ⟨i, rfl, -, item⟩ := Screen.visibleAt?_eq_some.mp visible
    obtain ⟨-, popup, hasks⟩ := asks.of_open item stored opened
    refine h.store item (tracked_loading ..) more fun _ undone => ?_
    rw [mem_tracked, hasks.isComplete_respond] at undone
    exact Bool.of_not_eq_true fun hlast => undone (Or.inl ⟨hlast, rfl⟩)
  | tick front item advanced =>
    refine h.store item (tracked_loading ..) more fun hanswered _ => ?_
    rw [GateProgress.answered_of_advance advanced] at hanswered
    exact h.of_free item (frontier?_spec front).2 (Or.inr hanswered)
  | finish visible =>
    obtain ⟨i, rfl, -, item⟩ := Screen.visibleAt?_eq_some.mp visible
    exact h.store item (finished_loading ..) more
      fun _ undone => absurd (mem_finished.mpr (Or.inl rfl)) undone

end AnsweredEarly

/-! ## One command -/

/-- A command that is carried out at an item and is no pick announces the item
if it completes it, unless its popup asks last; else it announces nothing. -/
theorem Handled.announces {screen content : Screen} {c c' : ContentState α} {command : Command α}
    {i : Nat} {r : Option Response} (h : Handled screen content c command i c' r)
    (hitem : command.OnItem) (asks : AsksInFront content c) (early : AnsweredEarly content c) :
    (c'.completedGates = c.completedGates ∧ r.filter Response.announces = none) ∨
      ∃ l, content.regular[i]? = some (.loading l) ∧ (i : Int) ∉ c.completedGates ∧
        c'.completedGates = c.completedGates ++ [(i : Int)] ∧
        r.filter Response.announces = announcement? α screen l := by
  have said (l : Loading) :
      (some (gateCompleted screen l)).filter Response.announces = some (gateCompleted screen l) :=
    Option.filter_some_pos (by simp [Response.announces, gateCompleted, Response.plain])
  cases h with
  | picked => cases hitem
  | edited visible =>
    exact Or.inl ⟨rfl, Option.filter_some_neg
      (by simp [Response.announces, editResponse, Response.plain])⟩
  | @answered _ value l popup p chosen visible _ stored opened =>
    obtain ⟨-, item⟩ := Screen.visibleAt?_natCast.mp visible
    obtain ⟨front, popup', hasks⟩ := asks.of_open item stored opened
    have undone := (frontier?_spec front).2
    have silent : (some (answerResponse screen l popup chosen)).filter Response.announces = none :=
      Option.filter_some_neg (by simp [Response.announces, answerResponse, Response.plain])
    cases hlast : l.asksLast α with
    | true =>
      refine Or.inr ⟨l, item, undone, gates_tracked c ?_ undone, ?_⟩
      · rw [hasks.isComplete_respond, hlast]
      · rw [silent, announcement?, hlast, if_pos rfl]
    | false =>
      refine Or.inl ⟨?_, silent⟩
      rw [tracked_of_incomplete c (hasks.isComplete_respond.trans hlast)]
  | @ticked elapsed _ l p front item advanced =>
    have undone := (frontier?_spec front).2
    cases hcomplete : p.isComplete l with
    | true =>
      have hfree : l.popup = none ∨ (c.progressAt i).popupAnswered = true := by
        rw [← GateProgress.answered_of_advance advanced]
        simp only [GateProgress.isComplete, Bool.and_eq_true, Bool.or_eq_true,
          Option.isNone_iff_eq_none] at hcomplete
        exact hcomplete.2
      refine Or.inr ⟨l, item, undone, gates_tracked c hcomplete undone, ?_⟩
      rw [if_pos rfl, said, announcement?, early.of_free item undone hfree]
      rfl
    | false =>
      refine Or.inl ⟨?_, rfl⟩
      rw [tracked_of_incomplete c hcomplete]
  | @ended _ l visible undone free =>
    obtain ⟨-, item⟩ := Screen.visibleAt?_natCast.mp visible
    refine Or.inr ⟨l, item, undone, gates_finished c undone, ?_⟩
    rw [said, announcement?, early.of_free item undone free]
    rfl

/-- A command that is about no item, or is a pick, marks nothing and announces
nothing. -/
theorem silent_of_not_onItem {screen : Screen} {maxDepth : Int} {s : ScreenState α}
    {command : Command α} (hitem : ¬ command.OnItem) :
    (s.response? screen maxDepth command).filter Response.announces = none ∧
      ∀ place, ∀ g ∈ (s.next screen maxDepth command).gatesAt screen place,
        g ∈ s.gatesAt screen place := by
  constructor
  · refine Option.filter_eq_none_iff.mpr fun r hr => ?_
    have hresponds := responds_of_response? hr
    generalize s.next screen maxDepth command = s' at hresponds
    cases hresponds with
    | picked | followed => simp [Response.announces, Response.plain]
    | pressedInside => simp [Response.announces, Response.plain, branchPressed]
    | pressed => simp [Response.announces, Response.plain, mainPressed]
    | edited | answered => exact absurd trivial hitem
    | gateDone timed =>
      rcases timed with ⟨elapsed, rfl⟩ | ⟨index, rfl⟩
      · exact absurd trivial hitem
      · exact absurd trivial hitem
  · intro place g hg
    obtain ⟨content, c', hc', hmem⟩ := mem_gatesAt.mp hg
    rcases (next_change screen maxDepth s command).contentAt?_cases hc' with
      hsame | ⟨-, c, hc, hmove⟩ | ⟨-, rfl, -⟩
    · exact mem_gatesAt.mpr ⟨content, c', hsame, hmem⟩
    · cases hmove with
      | pick => exact mem_gatesAt.mpr ⟨content, c, hc, hmem⟩
      | edit | answer | tick | finish => exact absurd trivial hitem
    · cases hmem

/-- What a command completes, and what it announces. -/
inductive Reported (screen : Screen) (maxDepth : Int) (s : ScreenState α) (command : Command α) :
    Prop
  /-- It completes nothing and announces nothing, and no mark is new. -/
  | quiet (completes : s.completedBy screen maxDepth command = [])
      (silent : (s.response? screen maxDepth command).filter Response.announces = none)
      (old : ∀ place, ∀ g ∈ (s.next screen maxDepth command).gatesAt screen place,
        g ∈ s.gatesAt screen place)
  /-- It completes one item, which gets its mark behind those that were there. -/
  | done (d : Completion) (completes : s.completedBy screen maxDepth command = [d])
      (announced : (s.response? screen maxDepth command).filter Response.announces =
        announcement? α screen d.item)
      (marks : ∀ place, (s.next screen maxDepth command).gatesAt screen place =
        s.gatesAt screen place ++ if place = d.place then [d.index] else [])

section Runs

variable {screen : Screen} {maxDepth : Int} {s : ScreenState α} {command : Command α}

theorem Reported.of_old
    (silent : (s.response? screen maxDepth command).filter Response.announces = none)
    (old : ∀ place, ∀ g ∈ (s.next screen maxDepth command).gatesAt screen place,
      g ∈ s.gatesAt screen place) : Reported screen maxDepth s command :=
  .quiet (List.flatMap_eq_nil_iff.mpr fun place _ => newlyDone_eq_nil (old place)) silent old

/-- A command is reported on in one of these ways, if what is open asks in front
and what was answered early is all that was answered. -/
theorem step_reported (maxDepth : Int) (command : Command α)
    (asks : AsksInFront (s.active screen).1 (s.active screen).2)
    (early : AnsweredEarly (s.active screen).1 (s.active screen).2) :
    Reported screen maxDepth s command := by
  by_cases hitem : command.OnItem
  · cases hstep : s.step screen maxDepth command with
    | error refused => exact .of_old (by simp [response?, hstep]) (by simp [next, hstep])
    | ok outcome =>
      cases step_onItem hitem hstep with
      | ignored =>
        exact .of_old (by simp [response?, hstep, ignored]) (by simp [next, hstep, ignored])
      | @handled i c r handled =>
        have hnext : s.next screen maxDepth command = s.withActive c := by simp [next, hstep]
        have hr : s.response? screen maxDepth command = r := by simp [response?, hstep]
        rcases handled.announces hitem asks early with
          ⟨hgates, hsilent⟩ | ⟨l, item, undone, hgates, hsaid⟩
        · refine .of_old (by rw [hr, hsilent]) fun place g hg => ?_
          rw [hnext, gatesAt_withActive] at hg
          split at hg
          · rename_i hplace
            rwa [hplace, gatesAt_shownPlace, ← hgates]
          · exact hg
        · refine .done ⟨s.shownPlace, i, l⟩ ?_ (by rw [hr, hsaid]) fun place => ?_
          · unfold completedBy
            rw [hnext]
            exact newlyDone_withActive item undone hgates
          · rw [hnext, gatesAt_withActive]
            split
            · rename_i hplace
              rw [hgates, hplace, gatesAt_shownPlace]
            · rw [List.append_nil]
  · obtain ⟨hsilent, hold⟩ := silent_of_not_onItem hitem
    exact .of_old hsilent hold

/-! ## Runs -/

theorem answered_early_of_run {commands : List (Command α)} {place : Place} {content : Screen}
    {c : ContentState α}
    (h : ((new screen).run screen maxDepth commands).contentAt? screen place = some (content, c)) :
    AnsweredEarly content c :=
  (forall_contentAt?_of_moves
    (I := fun content c => AsksInFront content c ∧ AnsweredEarly content c)
    (fun content => ⟨.new content, .new content⟩)
    (fun _ _ _ _ hin hmove => ⟨hin.1.move hmove, hin.2.move hin.1 hmove⟩) h).2

/-- So it is for every command in every state of a run. -/
theorem reported_of_run (screen : Screen) (maxDepth : Int) (before : List (Command α))
    (command : Command α) :
    Reported screen maxDepth ((new screen).run screen maxDepth before) command :=
  have hshown := contentAt?_shownPlace screen ((new screen).run screen maxDepth before)
  step_reported maxDepth command (asks_in_front_of_run hshown) (answered_early_of_run hshown)

/-- What is announced along commands is what they complete, without the items
whose popup asks last. -/
theorem announcements_of_run (screen : Screen) (maxDepth : Int)
    (before commands : List (Command α)) :
    ((new screen).run screen maxDepth before).announcements screen maxDepth commands =
      (((new screen).run screen maxDepth before).completions screen maxDepth commands).filterMap
        fun d => announcement? α screen d.item := by
  induction commands generalizing before with
  | nil => rfl
  | cons command rest ih =>
    have hrest := ih (before ++ [command])
    rw [run_append] at hrest
    have hfirst : (((new screen).run screen maxDepth before).response? screen maxDepth
          command).toList.filter Response.announces =
        (((new screen).run screen maxDepth before).completedBy screen maxDepth command).filterMap
          fun d => announcement? α screen d.item := by
      rw [← Option.toList_filter]
      cases reported_of_run screen maxDepth before command with
      | quiet completes silent => rw [completes, silent]; rfl
      | done d completes announced =>
        rw [completes, announced]
        cases hd : announcement? α screen d.item <;> simp [hd]
    unfold announcements at hrest ⊢
    rw [responses, List.filter_append, hfirst, completions, List.filterMap_append]
    exact congrArg _ hrest

/-- The marks of a content that stays in play are the same after a change that
sets no new one. -/
theorem Change.gatesAt_eq {s' : ScreenState α} (h : Change screen maxDepth s command s')
    {place : Place} (shown : (s.contentAt? screen place).isSome = true)
    (stays : (s'.contentAt? screen place).isSome = true)
    (old : ∀ g ∈ s'.gatesAt screen place, g ∈ s.gatesAt screen place) :
    s'.gatesAt screen place = s.gatesAt screen place := by
  obtain ⟨⟨content, c'⟩, hc'⟩ := Option.isSome_iff_exists.mp stays
  rcases h.contentAt?_cases hc' with hsame | ⟨-, c, hc, hmove⟩ | ⟨hnone, -⟩
  · simp only [gatesAt, hsame, hc']
  · simp only [gatesAt, hc, hc'] at old ⊢
    rcases hmove.completedGates with heq | ⟨g, hnew, heq⟩
    · exact heq
    · exact absurd (old g (by simp [heq])) hnew
  · rw [hnone] at shown
    cases shown

/-- All that is completed is announced exactly if no popup among it asks last. -/
theorem announced_all_iff (screen : Screen) (completions : List Completion) :
    (completions.filterMap fun d => announcement? α screen d.item) =
        completions.map (fun d => gateCompleted screen d.item) ↔
      ∀ d ∈ completions, d.item.asksLast α = false := by
  have hiff (l : Loading) : (announcement? α screen l).isSome = true ↔ l.asksLast α = false := by
    cases h : l.asksLast α <;> simp [announcement?, h]
  constructor
  · intro h d hd
    -- no item is left out, since as many are announced as are completed
    have hlength := congrArg List.length h
    rw [List.length_filterMap_eq_countP, List.length_map, List.countP_eq_length] at hlength
    exact (hiff d.item).mp (hlength d hd)
  · intro h
    rw [← List.filterMap_eq_map]
    refine List.filterMap_congr fun d hd => ?_
    simp [announcement?, h d hd]

/-- As long as a content stays in play, its marks grow by the items that are
completed there, in their order. -/
theorem gatesAt_run (screen : Screen) (maxDepth : Int) (before commands : List (Command α))
    {place : Place}
    (stays : ((new screen).run screen maxDepth before).InPlay screen maxDepth commands place) :
    (((new screen).run screen maxDepth before).run screen maxDepth commands).gatesAt screen place =
      ((new screen).run screen maxDepth before).gatesAt screen place ++
        ((((new screen).run screen maxDepth before).completions screen maxDepth commands).filter
          fun d => d.place = place).map (·.index) := by
  induction commands generalizing before with
  | nil => simp [completions, run]
  | cons command rest ih =>
    have hrest := ih (before ++ [command])
    rw [run_append] at hrest
    have hrest := hrest fun n => stays (n + 1)
    have hfirst : (((new screen).run screen maxDepth before).next screen maxDepth
          command).gatesAt screen place =
        ((new screen).run screen maxDepth before).gatesAt screen place ++
          ((((new screen).run screen maxDepth before).completedBy screen maxDepth command).filter
            fun d => d.place = place).map (·.index) := by
      cases reported_of_run screen maxDepth before command with
      | done d completes announced marks =>
        rw [marks, completes]
        by_cases hplace : place = d.place
        · simp [hplace]
        · simp [hplace, Ne.symm hplace]
      | quiet completes silent old =>
        have hsame := (next_change screen maxDepth ((new screen).run screen maxDepth before)
          command).gatesAt_eq (stays 0) (stays 1) (old place)
        rw [completes, hsame]
        simp
    rw [completions, List.filter_append, List.map_append, ← List.append_assoc, ← hfirst]
    exact hrest

/-- What commands complete and announce, from a state of a screen. -/
structure GatesAnnounced (screen : Screen) (maxDepth : Int) (s : ScreenState α)
    (commands : List (Command α)) : Prop where
  /-- What is completed is announced, without the items whose popup asks last;
  and nothing else is. -/
  announced : s.announcements screen maxDepth commands =
    (s.completions screen maxDepth commands).filterMap fun d => announcement? α screen d.item
  /-- All that is completed is announced exactly if no popup among it asks last. -/
  all_iff : s.announcements screen maxDepth commands =
      (s.completions screen maxDepth commands).map (fun d => gateCompleted screen d.item) ↔
    ∀ d ∈ s.completions screen maxDepth commands, d.item.asksLast α = false
  /-- The marks of a content that stays in play grow by what is completed there. -/
  marks : ∀ place, s.InPlay screen maxDepth commands place →
    (s.run screen maxDepth commands).gatesAt screen place =
      s.gatesAt screen place ++
        ((s.completions screen maxDepth commands).filter fun d => d.place = place).map (·.index)
  /-- No item is completed twice. -/
  once : ∀ place, ((s.run screen maxDepth commands).gatesAt screen place).Nodup

/-- In a run, every loading item that is completed is announced once, by the
command that completes it, unless its popup asks at a hundred percent. -/
theorem gates_announced (screen : Screen) (maxDepth : Int) (before commands : List (Command α)) :
    GatesAnnounced screen maxDepth ((new screen).run screen maxDepth before) commands := by
  have hannounced := announcements_of_run screen maxDepth before commands
  refine ⟨hannounced, ?_, fun place => gatesAt_run screen maxDepth before commands, fun place => ?_⟩
  · rw [hannounced]
    exact announced_all_iff screen _
  · rw [← run_append]
    unfold gatesAt
    split
    · rename_i content c hc
      refine forall_contentAt?_of_moves (I := fun _ c => c.completedGates.Nodup)
        (fun _ => .nil) ?_ hc
      intro content c c' command hnodup hmove
      rcases hmove.completedGates with heq | ⟨g, hnew, heq⟩
      · rwa [heq]
      · rw [heq]
        exact List.nodup_append.mpr ⟨hnodup, List.pairwise_singleton _ g, by
          rintro a ha b hb rfl
          exact hnew (List.mem_singleton.mp hb ▸ ha)⟩
    · exact .nil

end Runs

end Step

/-- A document of a screen with two loading items; the second one asks half way. -/
def twoGatesSource : Json :=
  .obj
    [("id", .str "gates"),
     ("content", .arr
      [.obj [("type", .str "loading"), ("duration", .int 100)],
       .obj
        [("type", .str "loading"), ("duration", .int 100), ("responseKey", .str "second"),
         ("popup", .obj
          [("trigger_at_percent", .int 50), ("title", .str "Ready?"),
           ("options", .arr [.obj [("text", .str "Yes"), ("value", .str "y")]])])]])]

/-- The ends of both are announced, and nothing else is. -/
theorem gates_announced_two :
    ∃ (screen : Screen) (ws : List Warning) (commands : List (Command Float)),
      Screen.validate "" defaultMaxDepth twoGatesSource = .ok (screen, ws) ∧
      commands = [.tick 100.0, .tick 100.0, .answer 1 (.text "y"), .tick 100.0] ∧
      ((new screen).completions screen defaultMaxDepth commands).map (fun d => (d.place, d.index)) =
        [(.authored, 0), (.authored, 1)] ∧
      (new screen).announcements screen defaultMaxDepth commands =
        [.plain "gates" true, .plain "second" true] ∧
      (new screen).announcements screen defaultMaxDepth commands =
        ((new screen).completions screen defaultMaxDepth commands).map
          fun d => gateCompleted screen d.item := by
  have h : (Screen.validate "" defaultMaxDepth twoGatesSource).toOption.any (fun found =>
      let commands : List (Command Float) :=
        [.tick 100.0, .tick 100.0, .answer 1 (.text "y"), .tick 100.0]
      let completions := (new found.1).completions found.1 defaultMaxDepth commands
      decide (completions.map (fun d => (d.place, d.index)) = [(.authored, 0), (.authored, 1)] ∧
        (new found.1).announcements found.1 defaultMaxDepth commands =
          [.plain "gates" true, .plain "second" true] ∧
        ∀ d ∈ completions, d.item.asksLast Float = false)) = true := by
    decide +kernel
  obtain ⟨⟨screen, ws⟩, hvalid, h⟩ := Except.any_toOption.mp h
  obtain ⟨hcompleted, hannounced, hearly⟩ := of_decide_eq_true h
  exact ⟨screen, ws, _, hvalid, rfl, hcompleted, hannounced,
    (gates_announced screen defaultMaxDepth [] _).all_iff.mpr hearly⟩

/-- A document of a screen with a loading item that asks at a hundred percent. -/
def lateSource : Json :=
  .obj
    [("id", .str "late"),
     ("content", .arr
      [.obj
        [("type", .str "loading"), ("duration", .int 100),
         ("popup", .obj
          [("trigger_at_percent", .int 100), ("title", .str "Ready?"),
           ("options", .arr [.obj [("text", .str "Yes"), ("value", .str "y")]])])]])]

/-- The answer to its popup completes it, and the end of the item is not
announced. -/
theorem silent_completion :
    ∃ (screen : Screen) (ws : List Warning) (s : ScreenState Float) (r : Response),
      Screen.validate "" defaultMaxDepth lateSource = .ok (screen, ws) ∧
      s = (new screen).run screen defaultMaxDepth [.tick 100.0] ∧
      s.authored.completedGates = [] ∧
      (s.next screen defaultMaxDepth (.answer 0 (.text "y"))).authored.completedGates = [0] ∧
      s.response? screen defaultMaxDepth (.answer 0 (.text "y")) = some r ∧
      r.selected = some [.text "y"] ∧ r.announces = false ∧
      (new screen : ScreenState Float).announcements screen defaultMaxDepth
        [.tick 100.0, .answer 0 (.text "y")] = [] := by
  have h : (Screen.validate "" defaultMaxDepth lateSource).toOption.any (fun found =>
      let s : ScreenState Float := (new found.1).run found.1 defaultMaxDepth [.tick 100.0]
      decide (s.authored.completedGates = [] ∧
        (s.next found.1 defaultMaxDepth (.answer 0 (.text "y"))).authored.completedGates = [0] ∧
        (new found.1 : ScreenState Float).announcements found.1 defaultMaxDepth
          [.tick 100.0, .answer 0 (.text "y")] = []) &&
      (s.response? found.1 defaultMaxDepth (.answer 0 (.text "y"))).any fun r =>
        decide (r.selected = some [.text "y"] ∧ r.announces = false)) = true := by
    decide +kernel
  obtain ⟨⟨screen, ws⟩, hvalid, h⟩ := Except.any_toOption.mp h
  obtain ⟨hstate, hresponse⟩ := Bool.and_eq_true_iff.mp h
  obtain ⟨hbefore, hafter, hnone⟩ := of_decide_eq_true hstate
  obtain ⟨r, hr, hsaid⟩ := (Option.any_eq_true _ _).mp hresponse
  obtain ⟨hselected, hsilent⟩ := of_decide_eq_true hsaid
  exact ⟨screen, ws, _, r, hvalid, rfl, hbefore, hafter, hr, hselected, hsilent, hnone⟩

end Quiz
