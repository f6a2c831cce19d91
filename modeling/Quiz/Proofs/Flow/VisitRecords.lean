/-
Quiz.Proofs.Flow.VisitRecords — the visits of a quiz and their records.

A flow stores a record of every screen it leaves. Whatever is done to it, the
records are the screens that it came to, in their order, without the last one as
long as the visit goes on. A screen may be one that cannot be entered: the flow has
come to it all the same, and it has a record once it is left, but it has no player of
its own. The player of the visit before it is still there, and it is closed.

* `Flow.goesTo` — the screen that something done to a flow leads to.
* `Flow.Recorded` — the screens so far are recorded, up to some moment.
* `Recorded.concluded`, `Recorded.enter` — a visit ends, the flow comes to another
  screen. Every move is made of these.
* `Flow.Sound.perform` — whatever is done to a flow, it stays recorded.
* `visits_recorded` — along everything that is done to a flow that has begun.
* `closed_unfinished` — a flow need not be finished for its player to be closed.
-/
import Quiz.Proofs.Flow.Visit
import Quiz.Proofs.Play.FinalResponse

namespace Quiz

variable {α : Type}

/-! ## Entries -/

/-- A screen that a flow comes to: its position and its id. -/
abbrev Entry := Nat × String

/-- The entry that a record speaks of. -/
def Record.entry (r : Record) : Entry :=
  (r.index, r.screenId)

def FlowReport.entry? : FlowReport → Option Entry
  | .screen index id => some (index, id)
  | .record _ => none
  | .finished => none

/-- The screens whose entry was reported. -/
def entriesIn (reports : List FlowReport) : List Entry :=
  reports.filterMap FlowReport.entry?

theorem entriesIn_append (earlier later : List FlowReport) :
    entriesIn (earlier ++ later) = entriesIn earlier ++ entriesIn later :=
  List.filterMap_append

namespace Flow

/-! ## What is done to a flow -/

section Acts

variable [Scale α]

/-- What can be done to a flow: a move, a command to the player of the current
visit, or one to the player of a visit that is over, `ago` visits before the
latest one of these. -/
inductive Act (α : Type) where
  | go (move : FlowMove)
  | command (c : Command α)
  | late (ago : Nat) (c : Command α)

/-- An act, with what the clock shows in case a screen is left, and in case one
is entered. -/
structure TimedAct (α : Type) where
  act : Act α
  leaving : Instant
  entering : Instant

/-- The clock does not go back while something is done. -/
def Forward (start : Instant) : List (TimedAct α) → Prop
  | [] => True
  | a :: rest => start ≤ a.leaving ∧ a.leaving ≤ a.entering ∧ Forward a.entering rest

/-- Something is done to a flow. A refused command leaves it as it was. -/
def perform (f : Flow α) (a : TimedAct α) : Flow α × List FlowReport :=
  match a.act with
  | .go move => (f.go a.leaving a.entering move).2
  | .command c => (f.give c, [])
  | .late ago c =>
    match f.dispatchLate ago c with
    | .ok d => (d.flow, [])
    | .error _ => (f, [])

/-- Several things are done to a flow, one after the other. -/
def performAll (f : Flow α) : List (TimedAct α) → Flow α × List FlowReport
  | [] => (f, [])
  | a :: rest =>
    let (last, reports) := performAll (f.perform a).1 rest
    (last, (f.perform a).2 ++ reports)

end Acts

/-! ## Where it leads -/

/-- The entry at a position. -/
def entryAt (f : Flow α) (index : Nat) : Entry :=
  (index, (f.screenAt index).id)

/-- The screen of an entry can be entered. -/
def enterable (f : Flow α) (e : Entry) : Bool :=
  (f.screenAt e.1).entryFault?.isNone

/-- The screen that is reached, if a move leads to one. -/
def arrivesAt (f : Flow α) : Destination → List Entry
  | .screen index => [f.entryAt index]
  | .nowhere | .unknown | .ending => []

/-- The screen that something done to a flow leads to, whether it can be entered or
not. -/
def goesTo (f : Flow α) (a : TimedAct α) : List Entry :=
  match a.act with
  | .go move => f.arrivesAt (f.destination move)
  | .command _ | .late _ _ => []

/-- The screens that several things lead to, one after the other. -/
def goesToAll [Scale α] (f : Flow α) : List (TimedAct α) → List Entry
  | [] => []
  | a :: rest => f.goesTo a ++ (f.perform a).1.goesToAll rest

theorem enterable_congr {f g : Flow α} (screens : g.screens = f.screens) :
    g.enterable = f.enterable := by
  funext e
  unfold enterable screenAt
  rw [screens]

/-- A screen that a flow comes to is reported, if it can be entered. -/
theorem entriesIn_enter (f : Flow α) (now : Instant) (index : Nat) :
    entriesIn (f.enter now index).arrival = [f.entryAt index].filter f.enterable := by
  have henterable : f.enterable (f.entryAt index) = (f.screenAt index).entryFault?.isNone := rfl
  rw [arrival_enter, List.filter_singleton, henterable]
  cases (f.screenAt index).entryFault? <;> rfl

/-! ## Records of visits -/

/-- The visit that goes on. -/
def ongoing (f : Flow α) : List Entry :=
  if f.finished then [] else [f.entryAt f.index]

/-- The screens that a flow has come to are recorded up to `now`, but for the
current one as long as the quiz is not finished; those that could be entered had a
player of their own. -/
structure Recorded (f : Flow α) (entries : List Entry) (now : Instant) : Prop where
  inRange : f.index < f.screens.length
  shown : entries.getLast? = some (f.entryAt f.index)
  records : f.records.map Record.entry ++ f.ongoing = entries
  entered_le_exited : ∀ r ∈ f.records, r.entered ≤ r.exited
  exited_le_entered : f.records.Pairwise fun earlier later => earlier.exited ≤ later.entered
  exited_le_now : ∀ r ∈ f.records, r.exited ≤ now
  exited_le_ongoing : f.finished = false → ∀ r ∈ f.records, r.exited ≤ f.entered
  entered_le_now : f.entered ≤ now
  players : (f.left.reverse ++ [f.player]).map Player.screen =
    (entries.filter f.enterable).map fun e => f.screenAt e.1
  closed : f.player.closed = (f.finished || f.entryFault?.isSome)
  left_closed : ∀ p ∈ f.left, p.closed = true

namespace Recorded

variable {f : Flow α} {entries : List Entry} {now : Instant}

theorem mono (h : f.Recorded entries now) {later : Instant} (order : now ≤ later) :
    f.Recorded entries later :=
  { h with
    exited_le_now := fun r hr => Int.le_trans (h.exited_le_now r hr) order
    entered_le_now := Int.le_trans h.entered_le_now order }

/-- The visit that goes on ends. -/
theorem concluded (h : f.Recorded entries now) (going : f.finished = false) {leaving : Instant}
    (order : now ≤ leaving) :
    Recorded { (f.exit leaving).1 with finished := true } entries leaving where
  inRange := h.inRange
  shown := h.shown
  records := by
    have hongoing : f.ongoing = [(f.recordAt leaving).entry] := by
      unfold ongoing
      rw [going]
      rfl
    rw [← h.records, hongoing]
    simp [exit, ongoing]
  entered_le_exited := by
    intro r hr
    rcases List.mem_append.mp hr with hold | hnew
    · exact h.entered_le_exited r hold
    · obtain rfl := List.mem_singleton.mp hnew
      exact Int.le_trans h.entered_le_now order
  exited_le_entered := by
    refine List.pairwise_append.mpr ⟨h.exited_le_entered, List.pairwise_singleton _ _, ?_⟩
    intro earlier hearlier later hlater
    obtain rfl := List.mem_singleton.mp hlater
    exact h.exited_le_ongoing going earlier hearlier
  exited_le_now := by
    intro r hr
    rcases List.mem_append.mp hr with hold | hnew
    · exact Int.le_trans (h.exited_le_now r hold) order
    · obtain rfl := List.mem_singleton.mp hnew
      exact Int.le_refl leaving
  exited_le_ongoing := nofun
  entered_le_now := Int.le_trans h.entered_le_now order
  players := by
    have hplayers := h.players
    rw [List.map_append] at hplayers ⊢
    exact hplayers
  closed := rfl
  left_closed := h.left_closed

/-- With every visit over, the flow comes to another screen. -/
theorem enter (h : f.Recorded entries now) (ended : f.finished = true) {entering : Instant}
    (order : now ≤ entering) {index : Nat} (inRange : index < f.screens.length) :
    (f.enter entering index).Recorded (entries ++ [f.entryAt index]) entering := by
  have hclosed : f.player.closed = true := by
    rw [h.closed, ended]
    rfl
  have hrecords : f.records.map Record.entry = entries := by
    have hrecords := h.records
    unfold ongoing at hrecords
    rwa [ended, if_pos rfl, List.append_nil] at hrecords
  have hplayers := h.players
  have hexited (r : Record) (hr : r ∈ f.records) : r.exited ≤ entering :=
    Int.le_trans (h.exited_le_now r hr) order
  cases hentry : (f.screenAt index).entryFault? with
  | none =>
    -- The visit that begins has a player of its own.
    have henterable : f.enterable (f.entryAt index) = true := congrArg Option.isNone hentry
    rw [enter_of_none hentry]
    exact
      { inRange := inRange
        shown := List.getLast?_concat
        records := congrArg (· ++ [f.entryAt index]) hrecords
        entered_le_exited := h.entered_le_exited
        exited_le_entered := h.exited_le_entered
        exited_le_now := hexited
        exited_le_ongoing := fun _ => hexited
        entered_le_now := Int.le_refl entering
        players := by
          show ((f.player :: f.left).reverse ++ [Player.new (f.screenAt index) f.settings]).map
            Player.screen = ((entries ++ [f.entryAt index]).filter f.enterable).map _
          rw [List.reverse_cons, List.map_append, hplayers, List.filter_append,
            List.filter_singleton, henterable, List.map_append]
          rfl
        closed := (congrArg Option.isSome hentry).symm
        left_closed := List.forall_mem_cons.mpr ⟨hclosed, h.left_closed⟩ }
  | some fault =>
    -- No visit begins, and the player that was closed stays.
    have hrefused : f.enterable (f.entryAt index) = false := congrArg Option.isNone hentry
    rw [enter_of_some hentry]
    exact
      { inRange := inRange
        shown := List.getLast?_concat
        records := congrArg (· ++ [f.entryAt index]) hrecords
        entered_le_exited := h.entered_le_exited
        exited_le_entered := h.exited_le_entered
        exited_le_now := hexited
        exited_le_ongoing := fun _ => hexited
        entered_le_now := Int.le_refl entering
        players := by
          show (f.left.reverse ++ [f.player]).map Player.screen =
            ((entries ++ [f.entryAt index]).filter f.enterable).map _
          rw [hplayers, List.filter_append, List.filter_singleton, hrefused]
          exact congrArg (List.map _) (List.append_nil _).symm
        closed := hclosed.trans (congrArg Option.isSome hentry).symm
        left_closed := h.left_closed }

/-- A command to the current player leaves the records alone. -/
theorem withPlayer (h : f.Recorded entries now) {player : Player α}
    (same : player.screen = f.player.screen) (asClosed : player.closed = f.player.closed)
    (responses : Table Nat Fields) :
    Recorded { f with player := player, responses := responses } entries now :=
  { h with
    records := h.records
    shown := h.shown
    players := by
      have hplayers := h.players
      rw [List.map_append, List.map_singleton] at hplayers ⊢
      rw [same]
      exact hplayers
    closed := asClosed.trans h.closed }

end Recorded

/-- The visits are recorded, and a quiz is finished only on its last screen. -/
structure Sound (f : Flow α) (entries : List Entry) (now : Instant) : Prop
    extends Recorded f entries now where
  finished_last : f.finished = true → f.isLast = true

/-! ## What an act leaves as it was -/

section Steps

variable [Scale α] {f : Flow α} {entries : List Entry} {now : Instant}

/-- A command reaches nothing but the current player and what is stored. -/
theorem give_keeps (f : Flow α) (c : Command α) :
    ∃ (player : Player α) (responses : Table Nat Fields),
      f.give c = { f with player := player, responses := responses } ∧
        player.screen = f.player.screen ∧ player.closed = f.player.closed := by
  cases hclosed : f.player.closed with
  | true =>
    refine ⟨f.player, f.responses, ?_, rfl, hclosed⟩
    simp only [give, dispatch, Player.dispatch_of_over (Or.inl hclosed)]
    rfl
  | false =>
    obtain ⟨player, hscreen, -, hopen, -, hgive⟩ := f.give_cases hclosed c
    rw [hgive]
    split
    · exact ⟨player, _, rfl, hscreen, hopen⟩
    · exact ⟨player, _, rfl, hscreen, hopen⟩

/-- A command to the closed player of a visit that is over does nothing. -/
theorem dispatchLate_of_closed (closed : ∀ p ∈ f.left, p.closed = true) (ago : Nat)
    (c : Command α) : f.dispatchLate ago c = .ok ⟨f, none, []⟩ := by
  unfold dispatchLate
  cases hplayer : f.left[ago]? with
  | none => rfl
  | some player =>
    have hclosed := closed player (List.mem_of_getElem? hplayer)
    have hsame : f.left.set ago player = f.left := by
      obtain ⟨hago, rfl⟩ := List.getElem?_eq_some_iff.mp hplayer
      exact List.set_getElem_self hago
    simp only [Player.dispatch_of_over (Or.inl hclosed), receive, hsame]

/-- Whatever is done to a flow comes to a move, or it reaches nothing but the
current player and what is stored. -/
theorem perform_cases (closed : ∀ p ∈ f.left, p.closed = true) (a : TimedAct α) :
    (∃ destination, f.Went a.leaving a.entering destination (f.perform a) ∧
        f.goesTo a = f.arrivesAt destination) ∨
      f.goesTo a = [] ∧ ∃ (player : Player α) (responses : Table Nat Fields),
        f.perform a = ({ f with player := player, responses := responses }, []) ∧
          player.screen = f.player.screen ∧ player.closed = f.player.closed := by
  obtain ⟨act, leaving, entering⟩ := a
  cases act with
  | go move => exact Or.inl ⟨_, f.went_go leaving entering move, rfl⟩
  | command c =>
    obtain ⟨player, responses, hgive, hsame⟩ := f.give_keeps c
    refine Or.inr ⟨rfl, player, responses, ?_, hsame⟩
    rw [← hgive]
    rfl
  | late ago c =>
    have hperform : f.perform ⟨.late ago c, leaving, entering⟩ = (f, []) := by
      simp only [perform, dispatchLate_of_closed closed]
    rw [hperform]
    exact Or.inl ⟨.nowhere, .nowhere, rfl⟩

/-- Whatever is done to a flow, its screens stay. -/
theorem screens_of_perform (closed : ∀ p ∈ f.left, p.closed = true) (a : TimedAct α) :
    (f.perform a).1.screens = f.screens := by
  rcases perform_cases closed a with ⟨_, hwent, -⟩ | ⟨-, player, responses, hperform, -⟩
  · exact hwent.keeps.1
  · rw [hperform]

/-- Whatever is done to a flow, it stores and reports one more record at most:
that of the screen that it leaves. -/
theorem records_of_perform (closed : ∀ p ∈ f.left, p.closed = true) (a : TimedAct α) :
    (f.perform a).1.records = f.records ∨
      f.finished = false ∧ FlowReport.record (f.recordAt a.leaving) ∈ (f.perform a).2 ∧
        (f.perform a).1.records = f.records ++ [f.recordAt a.leaving] := by
  rcases perform_cases closed a with ⟨_, hwent, -⟩ | ⟨-, player, responses, hperform, -⟩
  · generalize f.perform a = result at hwent ⊢
    cases hwent with
    | nowhere | unknown => exact Or.inl rfl
    | finishes going => exact Or.inr ⟨going, by simp [exit], rfl⟩
    | changes =>
      rcases f.change_cases a.leaving a.entering _ with ⟨-, hchange⟩ | ⟨hgoing, hchange⟩
      all_goals
        rw [hchange]
        obtain ⟨-, -, -, -, -, hrecords⟩ := enter_keeps _ a.entering _
      · exact Or.inl hrecords
      · exact Or.inr ⟨hgoing, List.mem_cons_self, hrecords⟩
  · rw [hperform]
    exact Or.inl rfl

omit [Scale α] in
/-- A move leads to one screen at most, which is reported if it can be entered. -/
theorem Went.entriesIn_eq {leaving entering : Instant} {destination : Destination}
    {result : Flow α × List FlowReport} (went : f.Went leaving entering destination result) :
    entriesIn result.2 = (f.arrivesAt destination).filter f.enterable := by
  cases went with
  | nowhere | unknown | finishes => rfl
  | @changes index =>
    rcases f.change_cases leaving entering index with ⟨-, hchange⟩ | ⟨-, hchange⟩
    all_goals rw [hchange]
    · exact f.entriesIn_enter entering index
    · exact (f.exit leaving).1.entriesIn_enter entering index

omit [Scale α] in
theorem Sound.went (h : f.Sound entries now) {leaving entering : Instant}
    (leaves : now ≤ leaving) (enters : leaving ≤ entering) {destination : Destination}
    {result : Flow α × List FlowReport} (went : f.Went leaving entering destination result) :
    result.1.Sound (entries ++ f.arrivesAt destination) entering := by
  have hstays : f.Sound (entries ++ []) entering := by
    rw [List.append_nil]
    exact ⟨h.mono (Int.le_trans leaves enters), h.finished_last⟩
  cases went with
  | nowhere | unknown => exact hstays
  | finishes going last =>
    rw [arrivesAt, List.append_nil]
    exact ⟨(h.concluded going leaves).mono enters, fun _ => last⟩
  | @changes index inRange =>
    have hgoes {g : Flow α} : (g.enter entering index).finished = true →
        (g.enter entering index).isLast = true := fun hfinished => by
      rw [(g.enter_keeps entering index).2.1] at hfinished
      cases hfinished
    rcases f.change_cases leaving entering index with ⟨hended, hchange⟩ | ⟨hgoing, hchange⟩
    all_goals rw [hchange]
    · exact ⟨h.enter hended (Int.le_trans leaves enters) (inRange h.inRange), hgoes⟩
    -- Entering asks only whether all visits are over, which they are after the exit.
    · exact ⟨(h.concluded hgoing leaves).enter rfl enters (inRange h.inRange), hgoes⟩

/-- Whatever is done to a flow, its visits stay recorded. -/
theorem Sound.perform (h : f.Sound entries now) (a : TimedAct α) (leaves : now ≤ a.leaving)
    (enters : a.leaving ≤ a.entering) :
    (f.perform a).1.Sound (entries ++ f.goesTo a) a.entering := by
  rcases perform_cases h.left_closed a with
    ⟨_, hwent, hgoes⟩ | ⟨hgoes, player, responses, hperform, hscreen, hclosed⟩
  · rw [hgoes]
    exact h.went leaves enters hwent
  · have hkept := (h.withPlayer hscreen hclosed responses).mono (Int.le_trans leaves enters)
    rw [hgoes, List.append_nil, hperform]
    exact ⟨hkept, h.finished_last⟩

/-- What is reported of something done to a flow: the screen that it leads to, if it
can be entered. -/
theorem Sound.entriesIn_perform (h : f.Sound entries now) (a : TimedAct α) :
    entriesIn (f.perform a).2 = (f.goesTo a).filter f.enterable := by
  rcases perform_cases h.left_closed a with
    ⟨_, hwent, hgoes⟩ | ⟨hgoes, player, responses, hperform, -⟩
  · rw [hgoes]
    exact hwent.entriesIn_eq
  · rw [hgoes, hperform]
    rfl

/-- All that is done to a flow keeps its visits recorded, and it is reported which of
the screens that it leads to could be entered. -/
theorem Sound.performAll (h : f.Sound entries now) {acts : List (TimedAct α)}
    (forward : Forward now acts) :
    (f.performAll acts).1.screens = f.screens ∧
      (∃ later, (f.performAll acts).1.Sound (entries ++ f.goesToAll acts) later) ∧
      entriesIn (f.performAll acts).2 = (f.goesToAll acts).filter f.enterable := by
  induction acts generalizing f entries now with
  | nil => exact ⟨rfl, ⟨now, (List.append_nil entries).symm ▸ h⟩, rfl⟩
  | cons a rest ih =>
    obtain ⟨hleaves, henters, hrest⟩ := forward
    have hscreens := screens_of_perform h.left_closed a
    obtain ⟨hlater, ⟨later, hlast⟩, hreported⟩ := ih (h.perform a hleaves henters) hrest
    rw [List.append_assoc] at hlast
    refine ⟨hlater.trans hscreens, ⟨later, hlast⟩, ?_⟩
    show entriesIn ((f.perform a).2 ++ ((f.perform a).1.performAll rest).2) = _
    rw [entriesIn_append, hreported, h.entriesIn_perform a, enterable_congr hscreens, goesToAll,
      List.filter_append]

end Steps

/-! ## Flows from their beginning -/

theorem startPosition_lt {screens : List Screen} (nonempty : screens ≠ [])
    (startAt : Option String) : (startPosition screens startAt).1 < screens.length := by
  have hfirst : 0 < screens.length := List.length_pos_of_ne_nil nonempty
  unfold startPosition
  split
  · exact hfirst
  · split
    · rename_i hfound
      exact (List.findIdx?_eq_some_iff_getElem.mp hfound).1
    · exact hfirst

theorem sound_new {screens : List Screen} {start : Nat} (inRange : start < screens.length)
    (settings : Settings) (now : Instant)
    (entered : (new screens settings start now : Flow α).entryFault? = none) :
    (new screens settings start now : Flow α).Sound
      [(new screens settings start now : Flow α).entryAt start] now where
  inRange := inRange
  shown := rfl
  records := rfl
  entered_le_exited := fun _ hr => absurd hr List.not_mem_nil
  exited_le_entered := .nil
  exited_le_now := fun _ hr => absurd hr List.not_mem_nil
  exited_le_ongoing := fun _ _ hr => absurd hr List.not_mem_nil
  entered_le_now := Int.le_refl now
  players := by
    have henterable : (new screens settings start now : Flow α).enterable
        ((new screens settings start now : Flow α).entryAt start) = true :=
      congrArg Option.isNone entered
    rw [List.filter_singleton, henterable]
    rfl
  closed := (congrArg Option.isSome entered).symm
  left_closed := fun _ hp => absurd hp List.not_mem_nil
  finished_last := nofun

/-- The flow that begins is recorded: it has come to its first screen, and to nothing
else. -/
theorem beginFlow_sound {screens : List Screen} {settings : Settings} {startAt : Option String}
    {start : Instant} {f : Flow α} {ws : List Warning}
    (h : beginFlow screens settings startAt start = .ok (f, ws)) :
    f.screens = screens ∧ f.Sound [f.entryAt f.index] start := by
  have hentered := beginFlow_entered h
  obtain ⟨hnonempty, rfl⟩ := beginFlow_ok h
  exact ⟨rfl, sound_new (startPosition_lt hnonempty startAt) settings start hentered⟩

/-- The records of a flow account for the screens that it has come to, of which
`entered` are those that could be entered. -/
structure Accounted (f : Flow α) (entries entered : List Entry) : Prop where
  inRange : f.index < f.screens.length
  shown : entries.getLast? = some (f.entryAt f.index)
  finished_last : f.finished = true → f.index + 1 = f.screens.length
  count_going : f.finished = false → f.records.length + 1 = entries.length
  count_finished : f.finished = true → f.records.length = entries.length
  recorded : ∀ (k : Nat) (r : Record), f.records[k]? = some r → entries[k]? = some r.entry
  entered_le_exited : ∀ r ∈ f.records, r.entered ≤ r.exited
  exited_le_entered : f.records.Pairwise fun earlier later => earlier.exited ≤ later.entered
  entered_eq : entered = entries.filter f.enterable
  /-- The current player is closed once the quiz is finished, and not before, unless
  the current screen could not be entered. -/
  closed_iff : f.player.closed = true ↔ f.finished = true ∨ f.entryFault?.isSome = true
  players : (f.left.reverse ++ [f.player]).map Player.screen = entered.map fun e => f.screenAt e.1
  left_closed : ∀ p ∈ f.left, p.closed = true

theorem Sound.accounted {f : Flow α} {entries : List Entry} {now : Instant}
    (h : f.Sound entries now) : f.Accounted entries (entries.filter f.enterable) where
  inRange := h.inRange
  shown := h.shown
  finished_last finished := by simpa [isLast] using h.finished_last finished
  count_going going := by
    rw [← h.records]
    simp [ongoing, going]
  count_finished finished := by
    rw [← h.records]
    simp [ongoing, finished]
  recorded k r hr := by
    have hk : (f.records.map Record.entry)[k]? = some r.entry := by
      rw [List.getElem?_map, hr]
      rfl
    rw [← h.records, List.getElem?_append_left (List.getElem?_eq_some_iff.mp hk).1]
    exact hk
  entered_le_exited := h.entered_le_exited
  exited_le_entered := h.exited_le_entered
  entered_eq := rfl
  closed_iff := by rw [h.closed, Bool.or_eq_true]
  players := h.players
  left_closed := h.left_closed

/-- Along everything that is done to a flow from its beginning, while the clock
does not go back, its records account for the screens that it comes to. Those that
could be entered are the first one and those that were reported. -/
theorem visits_recorded [Scale α] {screens : List Screen} {settings : Settings}
    {startAt : Option String} {start : Instant} {f : Flow α} {ws : List Warning}
    (begun : beginFlow screens settings startAt start = .ok (f, ws)) {acts : List (TimedAct α)}
    (forward : Forward start acts) :
    (f.performAll acts).1.Accounted (f.entryAt f.index :: f.goesToAll acts)
      (f.entryAt f.index :: entriesIn (f.performAll acts).2) := by
  have hfirst : f.enterable (f.entryAt f.index) = true :=
    congrArg Option.isNone (beginFlow_entered begun)
  obtain ⟨-, hsound⟩ := beginFlow_sound begun
  obtain ⟨hscreens, ⟨later, hlast⟩, hreported⟩ := hsound.performAll forward
  have haccounted := hlast.accounted
  rw [enterable_congr hscreens, List.singleton_append, List.filter_cons_of_pos hfirst,
    ← hreported] at haccounted
  exact haccounted

/-- Two screens without content. -/
def twoScreens : List Screen :=
  [{ noScreen with id := "first" }, { noScreen with id := "second" }]

/-- To the second screen and back, there again and to the end, and out of the
end to the start. -/
def thereAndBack : List (TimedAct Float) :=
  [⟨.go .next, 1000, 1001⟩, ⟨.command .press, 1500, 1500⟩, ⟨.go .previous, 2000, 2000⟩,
    ⟨.late 0 .press, 2200, 2200⟩, ⟨.go (.toId "second"), 2500, 2600⟩, ⟨.go .next, 3000, 3000⟩,
    ⟨.go (.toIndex 7), 3500, 3500⟩, ⟨.go .restart, 4000, 4001⟩]

theorem visits_recorded_there_and_back :
    ∃ (f : Flow Float) (ws : List Warning),
      beginFlow twoScreens Settings.usual none 0 = .ok (f, ws) ∧ Forward 0 thereAndBack ∧
      entriesIn (f.performAll thereAndBack).2 =
        [(1, "second"), (0, "first"), (1, "second"), (0, "first")] ∧
      (f.performAll thereAndBack).1.records.length = 4 ∧
      (f.performAll thereAndBack).1.Accounted (f.entryAt f.index :: f.goesToAll thereAndBack)
        (f.entryAt f.index :: entriesIn (f.performAll thereAndBack).2) := by
  have hbegun : beginFlow twoScreens Settings.usual none 0 =
      .ok ((new twoScreens Settings.usual 0 0 : Flow Float), []) := rfl
  have hforward : Forward 0 thereAndBack := by
    simp [Forward, thereAndBack]
  refine ⟨_, _, hbegun, hforward, ?_, ?_, visits_recorded hbegun hforward⟩
  · decide +kernel
  · decide +kernel

/-- A quiz of two screens. The second one picks a default, from a grid whose number is
written with a digit unknown to Unicode 14. -/
def closedOffQuiz : Json :=
  .arr
    [.obj [("id", .str "one"), ("content", .arr [.obj [("type", .str "button")]])],
     .obj
      [("id", .str "two"),
       ("content", .arr
        [.obj
          [("type", .str "selection"),
           ("layout", .str (String.ofList [Char.ofNat 0x11f52, 'x', '1'])),
           ("options", .arr
            [.obj [("variant", .str "flat"), ("text", .str "Q"), ("id", .str "q")]]),
           ("defaultSelected", .arr [.str "q"])]])]]

/-- Going on to the second screen, the quiz is not finished, and its player is closed. -/
theorem closed_unfinished :
    ∃ flow ws, openFlow closedOffQuiz [] Settings.usual none 0 = .ok (flow, ws) ∧
      let last := ((flow : Flow Float).performAll [⟨.go .next, 1000, 1000⟩]).1
      last.index = 1 ∧ last.finished = false ∧ last.player.closed = true := by
  have h : (openFlow closedOffQuiz [] Settings.usual none 0).toOption.any (fun found =>
      let last := ((found.1 : Flow Float).performAll [⟨.go .next, 1000, 1000⟩]).1
      decide (last.index = 1 ∧ last.finished = false ∧ last.player.closed = true)) = true := by
    decide +kernel
  obtain ⟨⟨flow, ws⟩, hopen, h⟩ := Except.any_toOption.mp h
  exact ⟨flow, ws, hopen, of_decide_eq_true h⟩

end Flow

end Quiz
