/-
Quiz.Proofs.Play.Interleaving — the clock may tick at any time among entries.

* `ScreenState.about?` — the item that a command is about; a tick is about the
  frontier of the content that is shown.
* `ScreenState.Commute` — two commands lead to the same state in either order,
  and each of them gets the same response.
* `Enters.tick` — a tick and an entry commute in every state.
* `run_interleaved` — entries among ticks lead where they lead without the ticks,
  followed by the ticks; `transcript` tells what was responded on the way.
* `edits_commute` — local commands about different items commute, and entries
  and ticks come to the same end however they are interleaved.
-/
import Quiz.Proofs.Play.Commuting

namespace Quiz

variable {α : Type} [Scale α]

open ScreenState ContentState

def Command.isTick : Command α → Bool
  | .tick _ => true
  | .select _ _ _ | .edit _ _ | .press | .answer _ _ | .finishLoading _ | .clearBranch
  | .unknown _ => false

omit [Scale α] in
theorem Command.isTick_eq_true {command : Command α} :
    command.isTick = true ↔ ∃ elapsed, command = .tick elapsed := by
  cases command <;> simp [isTick]

omit [Scale α] in
theorem Command.isTick_of_isEntry {command : Command α} (h : command.isEntry = true) :
    command.isTick = false := by
  refine Bool.of_not_eq_true fun htick => ?_
  obtain ⟨elapsed, rfl⟩ := isTick_eq_true.mp htick
  cases h

namespace ScreenState

/-- The item that a command is about, by the place of its content and its index.
A tick is about the frontier of the content that is shown. -/
def about? (screen : Screen) (s : ScreenState α) (command : Command α) : Option (Place × Int) :=
  match command with
  | .select index _ _ | .edit index _ | .answer index _ | .finishLoading index =>
    some (s.focus command, index)
  | .tick _ =>
    (frontier? (s.active screen).1.regular (s.active screen).2.completedGates).map fun gate =>
      (s.shownPlace, (gate : Int))
  | .press | .clearBranch | .unknown _ => none

/-- The command gets a response or changes the state. -/
def TakesEffect (screen : Screen) (maxDepth : Int) (s : ScreenState α) (command : Command α) :
    Prop :=
  s.response? screen maxDepth command ≠ none ∨ s.next screen maxDepth command ≠ s

/-- Two commands lead to the same state in either order, and each of them gets
the same response before the other as after it. -/
structure Commute (screen : Screen) (maxDepth : Int) (s : ScreenState α)
    (command other : Command α) : Prop where
  state : (s.next screen maxDepth command).next screen maxDepth other =
    (s.next screen maxDepth other).next screen maxDepth command
  first : (s.next screen maxDepth other).response? screen maxDepth command =
    s.response? screen maxDepth command
  second : (s.next screen maxDepth command).response? screen maxDepth other =
    s.response? screen maxDepth other

/-- Commands with what the screen responds to them, one after the other. -/
def transcript (screen : Screen) (maxDepth : Int) (s : ScreenState α) :
    List (Command α) → List (Command α × Option Response)
  | [] => []
  | command :: rest =>
    (command, s.response? screen maxDepth command) ::
      transcript screen maxDepth (s.next screen maxDepth command) rest

end ScreenState

variable {screen : Screen} {maxDepth : Int} {s : ScreenState α}

/-- Commands lead to the same state as others, and the entries and the ticks
among them get the same responses. -/
structure ScreenState.SameOutcome (screen : Screen) (maxDepth : Int) (s : ScreenState α)
    (commands others : List (Command α)) : Prop where
  state : s.run screen maxDepth commands = s.run screen maxDepth others
  entries : (s.transcript screen maxDepth commands).filter (fun said => said.1.isEntry) =
    (s.transcript screen maxDepth others).filter (fun said => said.1.isEntry)
  ticks : (s.transcript screen maxDepth commands).filter (fun said => said.1.isTick) =
    (s.transcript screen maxDepth others).filter (fun said => said.1.isTick)

/-! ## Two commands -/

namespace CarriedOut

variable {command command₁ command₂ : Command α} {place place₁ place₂ : Place} {i j : Nat}
  {s₁ s₂ : ScreenState α} {r r₁ r₂ : Option Response}

/-- What is carried out is carried out at the item it is about. -/
theorem about (h : CarriedOut screen s command place i s₁ r) :
    s.about? screen command = some (place, (i : Int)) := by
  obtain ⟨shown, handled⟩ := h
  cases handled with
  | picked | edited | answered | ended => rfl
  | ticked front =>
    rw [show s.focus (.tick _) = s.shownPlace from rfl, contentAt?_shownPlace] at shown
    simp only [about?, Option.some.inj shown, front]
    rfl

/-- Two commands commute if each can still be carried out after the other, to
the same end. -/
theorem commute (going : s.completed = false) (maxDepth : Int)
    (h₁ : CarriedOut screen s command₁ place₁ i s₁ r₁)
    (h₂ : CarriedOut screen s command₂ place₂ j s₂ r₂)
    (h : ∃ s', CarriedOut screen s₁ command₂ place₂ j s' r₂ ∧
      CarriedOut screen s₂ command₁ place₁ i s' r₁) :
    s.Commute screen maxDepth command₁ command₂ := by
  obtain ⟨s', h₂', h₁'⟩ := h
  have going₁ : s₁.completed = false := h₁.completed.trans going
  have going₂ : s₂.completed = false := h₂.completed.trans going
  refine ⟨?_, ?_, ?_⟩
  · rw [h₁.next going, h₂.next going, h₁'.next going₂, h₂'.next going₁]
  · rw [h₂.next going, h₁'.response? going₂, h₁.response? going]
  · rw [h₁.next going, h₂'.response? going₁, h₂.response? going]

/-- A tick that is carried out after an entry is carried out before it, too. -/
theorem tick_before (h₁ : CarriedOut screen s command place i s₁ r)
    (entry : command.isEntry = true) {elapsed : α}
    (h₂ : CarriedOut screen s₁ (.tick elapsed) place₂ j s₂ r₂) :
    ∃ s₂', CarriedOut screen s (.tick elapsed) (s.focus (.tick elapsed)) j s₂' r₂ := by
  obtain @⟨_, c, c₁, _, _, shown₁, handled₁⟩ := h₁
  obtain @⟨_, d, d₁, _, _, shown₂, handled₂⟩ := h₂
  rw [focus_withContent, contentAt?_withContent shown₁] at shown₂
  split at shown₂
  · rename_i hplace
    obtain ⟨rfl, rfl⟩ := Prod.mk.inj (Option.some.inj shown₂)
    rw [← hplace] at shown₁
    -- the progress is what it was before the entry
    have hbeside := handled₂.timed_beside rfl c
    rw [handled₁.eq_withEntries entry] at hbeside
    exact ⟨_, .intro shown₁ hbeside⟩
  · exact ⟨_, .intro shown₂ handled₂⟩

end CarriedOut

theorem ScreenState.TakesEffect.going {command : Command α}
    (h : s.TakesEffect screen maxDepth command) : s.completed = false := by
  refine Bool.of_not_eq_true fun hdone => ?_
  rcases h with hresponds | hchanges
  · exact hresponds (response?_of_completed hdone command)
  · exact hchanges (next_of_completed hdone command)

/-- A local command that takes effect is carried out. -/
theorem ScreenState.TakesEffect.carriedOut {command : Command α}
    (h : s.TakesEffect screen maxDepth command) (hlocal : s.Local screen command) :
    ∃ i s' r, CarriedOut screen s command (s.focus command) i s' r := by
  cases hlocal.result maxDepth with
  | carriedOut done => exact ⟨_, _, _, done⟩
  | still stays silent =>
    rcases h with hresponds | hchanges
    · exact absurd silent hresponds
    · exact absurd stays hchanges

/-! ## Entries and ticks -/

/-- The command is an entry that can be carried out. -/
structure Enters (screen : Screen) (s : ScreenState α) (command : Command α) : Prop where
  going : s.completed = false
  entry : command.isEntry = true
  done : ∃ place i s' r, CarriedOut screen s command place i s' r

namespace Enters

variable {command other : Command α}

/-- A tick and an entry commute. -/
theorem tick (h : Enters screen s command) (maxDepth : Int) (elapsed : α) :
    s.Commute screen maxDepth command (.tick elapsed) := by
  obtain ⟨going, entry, place, i, s₁, r, hdone⟩ := h
  by_cases hticks :
      ∃ j s₂ r₂, CarriedOut screen s (.tick elapsed) (s.focus (.tick elapsed)) j s₂ r₂
  · obtain ⟨j, s₂, r₂, hticks⟩ := hticks
    exact hdone.commute going maxDepth hticks (hdone.diamond hticks
      fun _ _ _ _ _ _ handled₁ handled₂ => handled₁.diamond_mixed handled₂ entry rfl)
  · -- a tick that does nothing does nothing after the entry, either
    have still {s' : ScreenState α} (result : LocalResult screen maxDepth s' (.tick elapsed))
        (nothing : ¬ ∃ j s₂ r₂, CarriedOut screen s' (.tick elapsed)
          (s'.focus (.tick elapsed)) j s₂ r₂) :
        s'.next screen maxDepth (.tick elapsed) = s' ∧
          s'.response? screen maxDepth (.tick elapsed) = none := by
      cases result with
      | carriedOut done => exact absurd ⟨_, _, _, done⟩ nothing
      | still stays silent => exact ⟨stays, silent⟩
    have hticks₁ : ¬ ∃ j s₂ r₂, CarriedOut screen s₁ (.tick elapsed)
        (s₁.focus (.tick elapsed)) j s₂ r₂ := by
      rintro ⟨j, s₂, r₂, hafter⟩
      obtain ⟨s₂', hbefore⟩ := hdone.tick_before entry hafter
      exact hticks ⟨j, s₂', r₂, hbefore⟩
    obtain ⟨hstays, hsilent⟩ := still ((local_tick screen s elapsed).result maxDepth) hticks
    obtain ⟨hstays₁, hsilent₁⟩ := still ((local_tick screen s₁ elapsed).result maxDepth) hticks₁
    have hnext := hdone.next going maxDepth
    refine ⟨?_, ?_, ?_⟩
    · rw [hnext, hstays, hstays₁, hnext]
    · rw [hstays]
    · rw [hnext, hsilent₁, hsilent]

/-- An entry can still be made after a tick. -/
theorem after_tick (h : Enters screen s command) (elapsed : α) :
    Enters screen (s.next screen maxDepth (.tick elapsed)) command := by
  obtain ⟨going, entry, place, i, s₁, r, hdone⟩ := h
  cases (local_tick screen s elapsed).result maxDepth with
  | still stays =>
    rw [stays]
    exact ⟨going, entry, place, i, s₁, r, hdone⟩
  | carriedOut hticks =>
    obtain ⟨s', -, hdone'⟩ := hdone.diamond hticks
      fun _ _ _ _ _ _ handled₁ handled₂ => handled₁.diamond_mixed handled₂ entry rfl
    rw [hticks.next going]
    exact ⟨hticks.completed.trans going, entry, place, i, s', r, hdone'⟩

/-- An entry can still be made after another one. -/
theorem after_entry (h : Enters screen s command) (h' : Enters screen s other) :
    Enters screen (s.next screen maxDepth other) command := by
  obtain ⟨going, entry, place, i, s₁, r, hdone⟩ := h
  obtain ⟨-, entry', place', j, s₂, r', hother⟩ := h'
  rw [hother.next going]
  refine ⟨hother.completed.trans going, entry, ?_⟩
  obtain @⟨_, c, c₁, _, _, shown₁, handled₁⟩ := hdone
  obtain @⟨_, d, c₂, _, _, shown₂, handled₂⟩ := hother
  have hat := contentAt?_withContent shown₂ c₂ (s.focus command)
  by_cases hplace : s.focus command = s.focus other
  · rw [if_pos hplace] at hat
    rw [hplace, shown₂] at shown₁
    obtain ⟨rfl, rfl⟩ := Prod.mk.inj (Option.some.inj shown₁)
    obtain ⟨c', r', hagain⟩ := handled₁.entry_again entry
      fun _ hg => handled₂.move.subset hg
    exact ⟨_, i, _, r', CarriedOut.of_focus (focus_withContent ..) hat hagain⟩
  · rw [if_neg hplace, shown₁] at hat
    exact ⟨_, i, _, r, CarriedOut.of_focus (focus_withContent ..) hat handled₁⟩

end Enters

/-! ## Runs -/

/-- A tick before entries can come after them. -/
theorem run_tick_first {entries : List (Command α)} (maxDepth : Int) (elapsed : α)
    (h : ∀ command ∈ entries, Enters screen s command) :
    (s.next screen maxDepth (.tick elapsed)).run screen maxDepth entries =
        (s.run screen maxDepth entries).next screen maxDepth (.tick elapsed) ∧
      (s.next screen maxDepth (.tick elapsed)).transcript screen maxDepth entries =
        s.transcript screen maxDepth entries := by
  induction entries generalizing s with
  | nil => exact ⟨rfl, rfl⟩
  | cons command rest ih =>
    obtain ⟨hfirst, hrest⟩ := List.forall_mem_cons.mp h
    have hswap := hfirst.tick maxDepth elapsed
    obtain ⟨hrun, htranscript⟩ := ih (s := s.next screen maxDepth command)
      fun other hother => (hrest other hother).after_entry hfirst
    constructor
    · show ((s.next screen maxDepth (.tick elapsed)).next screen maxDepth command).run screen
        maxDepth rest = _
      rw [← hswap.state]
      exact hrun
    · rw [transcript, transcript, hswap.first, ← hswap.state, htranscript]

/-- Ticks are answered after an entry as before it. -/
theorem transcript_after_entry {command : Command α} {ticks : List (Command α)} (maxDepth : Int)
    (hticks : ∀ tick ∈ ticks, tick.isTick = true) (h : Enters screen s command) :
    (s.next screen maxDepth command).transcript screen maxDepth ticks =
      s.transcript screen maxDepth ticks := by
  induction ticks generalizing s with
  | nil => rfl
  | cons tick rest ih =>
    obtain ⟨hfirst, hrest⟩ := List.forall_mem_cons.mp hticks
    obtain ⟨elapsed, rfl⟩ := Command.isTick_eq_true.mp hfirst
    have hswap := h.tick maxDepth elapsed
    rw [transcript, transcript, hswap.second, hswap.state, ih hrest (h.after_tick elapsed)]

/-- Entries among ticks lead where they lead without the ticks, followed by the
ticks, and both are answered as if there were no others. -/
theorem run_interleaved {commands : List (Command α)} (maxDepth : Int)
    (h : ∀ command ∈ commands, command.isTick = true ∨ Enters screen s command) :
    s.run screen maxDepth commands =
        (s.run screen maxDepth (commands.filter Command.isEntry)).run screen maxDepth
          (commands.filter Command.isTick) ∧
      (s.transcript screen maxDepth commands).filter (fun said => said.1.isEntry) =
        s.transcript screen maxDepth (commands.filter Command.isEntry) ∧
      (s.transcript screen maxDepth commands).filter (fun said => said.1.isTick) =
        s.transcript screen maxDepth (commands.filter Command.isTick) := by
  induction commands generalizing s with
  | nil => exact ⟨rfl, rfl, rfl⟩
  | cons command rest ih =>
    obtain ⟨hfirst, hrest⟩ := List.forall_mem_cons.mp h
    rcases hfirst with htick | henters
    · obtain ⟨elapsed, rfl⟩ := Command.isTick_eq_true.mp htick
      obtain ⟨hrun, hentries, hticks⟩ := ih (s := s.next screen maxDepth (.tick elapsed))
        fun other hother => (hrest other hother).imp_right fun henters => henters.after_tick elapsed
      have henter : ∀ other ∈ rest.filter Command.isEntry, Enters screen s other := by
        intro other hother
        obtain ⟨hmem, hentry⟩ := List.mem_filter.mp hother
        exact (hrest other hmem).resolve_left (by simp [Command.isTick_of_isEntry hentry])
      have hpassed := run_tick_first maxDepth elapsed henter
      refine ⟨?_, ?_, ?_⟩
      · refine hrun.trans ?_
        rw [hpassed.1]
        rfl
      · exact hentries.trans hpassed.2
      · exact congrArg (List.cons _) hticks
    · have hentry := henters.entry
      obtain ⟨hrun, hentries, hticks⟩ := ih (s := s.next screen maxDepth command)
        fun other hother => (hrest other hother).imp_right fun hother => hother.after_entry henters
      have htick : command.isTick = false := Command.isTick_of_isEntry hentry
      have honly : ∀ tick ∈ rest.filter Command.isTick, tick.isTick = true :=
        fun tick hmem => (List.mem_filter.mp hmem).2
      have hafter := transcript_after_entry maxDepth honly henters
      rw [List.filter_cons_of_pos hentry, List.filter_cons_of_neg (by simp [htick])]
      refine ⟨hrun, ?_, ?_⟩
      · simp only [transcript, List.filter_cons, hentry, if_true, hentries]
      · simp only [transcript, List.filter_cons, htick, Bool.false_eq_true, if_false, hticks,
          hafter]

/-- In every state of a run, local commands about different items commute if
each of them takes effect. So local entries that take effect, and ticks, come to
the same end however they are interleaved. -/
theorem edits_commute {commands : List (Command α)}
    (reached : s = (new screen).run screen maxDepth commands) :
    (∀ command other : Command α, s.Local screen command → s.Local screen other →
      s.TakesEffect screen maxDepth command → s.TakesEffect screen maxDepth other →
      s.about? screen command ≠ s.about? screen other →
        s.Commute screen maxDepth command other) ∧
    (∀ mixed mixed' : List (Command α),
      (∀ command ∈ mixed ++ mixed', command.isTick = true ∨
        command.isEntry = true ∧ s.Local screen command ∧
          s.TakesEffect screen maxDepth command) →
      mixed.filter Command.isEntry = mixed'.filter Command.isEntry →
      mixed.filter Command.isTick = mixed'.filter Command.isTick →
        s.SameOutcome screen maxDepth mixed mixed') := by
  constructor
  · intro command other hlocal hlocal' heffect heffect' apart
    obtain ⟨i, s₁, r₁, h₁⟩ := heffect.carriedOut hlocal
    obtain ⟨j, s₂, r₂, h₂⟩ := heffect'.carriedOut hlocal'
    refine h₁.commute heffect.going maxDepth h₂ (h₁.diamond h₂ ?_)
    intro hplace content c c₁ c₂ hc handled₁ handled₂
    rw [reached] at hc
    have hwell : WellFormed content c :=
      forall_contentAt?_of_moves .new (fun _ _ _ _ hin hmove => hin.move hmove) hc
    refine handled₁.diamond hwell (asks_in_front_of_run hc) handled₂ ?_
    rintro rfl
    exact apart (by rw [h₁.about, h₂.about, hplace])
  · intro mixed mixed' hsorts hentries hticks
    have henters (part : List (Command α)) (hpart : part ⊆ mixed ++ mixed') :
        ∀ command ∈ part, command.isTick = true ∨ Enters screen s command := by
      intro command hmem
      refine (hsorts command (hpart hmem)).imp_right ?_
      rintro ⟨hentry, hlocal, heffect⟩
      obtain ⟨i, s', r, hdone⟩ := heffect.carriedOut hlocal
      exact ⟨heffect.going, hentry, _, i, s', r, hdone⟩
    obtain ⟨hrun, hsaid, hticked⟩ := run_interleaved maxDepth
      (henters mixed (List.subset_append_left mixed mixed'))
    obtain ⟨hrun', hsaid', hticked'⟩ := run_interleaved maxDepth
      (henters mixed' (List.subset_append_right mixed mixed'))
    refine ⟨?_, ?_, ?_⟩
    · rw [hrun, hrun', hentries, hticks]
    · rw [hsaid, hsaid', hentries]
    · rw [hticked, hticked', hticks]

/-- A document of a form with a loading item before its last input. -/
def formSource : Json :=
  .obj
    [("id", .str "form"),
     ("content", .arr
      [.obj
        [("type", .str "selection"),
         ("options", .arr
          [.obj [("variant", .str "flat"), ("text", .str "A"), ("id", .str "a")]])],
       .obj [("type", .str "input")],
       .obj [("type", .str "loading"), ("duration", .int 100)],
       .obj [("type", .str "input")],
       .obj [("type", .str "button")]])]

/-- A text and the end of the loading item commute; a text and a pick can be
entered before two ticks, or between and after them. -/
theorem edits_commute_form :
    ∃ (screen : Screen) (ws : List Warning) (s : ScreenState Float),
      Screen.validate "" defaultMaxDepth formSource = .ok (screen, ws) ∧
      s = (new screen).run screen defaultMaxDepth [] ∧
      s.response? screen defaultMaxDepth (.tick 100.0) = some (Response.plain "form" true) ∧
      s.Commute screen defaultMaxDepth (.edit 1 "hi") (.tick 100.0) ∧
      (s.run screen defaultMaxDepth [.edit 1 "hi", .tick 100.0]).authored.completedGates = [2] ∧
      s.SameOutcome screen defaultMaxDepth
        [.tick 50.0, .edit 1 "hi", .tick 50.0, .select 0 (.text "a") .active]
        [.edit 1 "hi", .select 0 (.text "a") .active, .tick 50.0, .tick 50.0] := by
  have h : (Screen.validate "" defaultMaxDepth formSource).toOption.any (fun found =>
      let s : ScreenState Float := new found.1
      decide (s.response? found.1 defaultMaxDepth (.tick 100.0) =
          some (Response.plain "form" true) ∧
        (s.response? found.1 defaultMaxDepth (.edit 1 "hi")).isSome = true ∧
        s.Local found.1 (.select 0 (.text "a") .active) ∧
        (s.response? found.1 defaultMaxDepth (.select 0 (.text "a") .active)).isSome = true ∧
        s.about? found.1 (.edit 1 "hi") ≠ s.about? found.1 (.tick 100.0) ∧
        (s.run found.1 defaultMaxDepth [.edit 1 "hi", .tick 100.0]).authored.completedGates =
          [2])) = true := by
    decide +kernel
  obtain ⟨⟨screen, ws⟩, hvalid, h⟩ := Except.any_toOption.mp h
  obtain ⟨hdone, hedit, hlocal, hpick, habout, hgates⟩ := of_decide_eq_true h
  have takes {s : ScreenState Float} {command : Command Float}
      (h : (s.response? screen defaultMaxDepth command).isSome = true) :
      s.TakesEffect screen defaultMaxDepth command :=
    Or.inl (Option.isSome_iff_ne_none.mp h)
  have reached : (new screen : ScreenState Float) =
      (new screen).run screen defaultMaxDepth [] := rfl
  obtain ⟨hcommute, hsame⟩ := edits_commute reached
  refine ⟨screen, ws, new screen, hvalid, rfl, hdone, ?_, hgates, ?_⟩
  · exact hcommute _ _ trivial trivial (takes hedit) (takes (by rw [hdone]; rfl)) habout
  · refine hsame _ _ ?_ rfl rfl
    intro command hmem
    simp only [List.mem_append, List.mem_cons, List.not_mem_nil, or_false] at hmem
    rcases hmem with (rfl | rfl | rfl | rfl) | (rfl | rfl | rfl | rfl)
    · exact Or.inl rfl
    · exact Or.inr ⟨rfl, trivial, takes hedit⟩
    · exact Or.inl rfl
    · exact Or.inr ⟨rfl, hlocal, takes hpick⟩
    · exact Or.inr ⟨rfl, trivial, takes hedit⟩
    · exact Or.inr ⟨rfl, hlocal, takes hpick⟩
    · exact Or.inl rfl
    · exact Or.inl rfl

end Quiz
