/-
Quiz.Proofs.Play.GateOrder — loading items are done one after the other.

`InOrder` ties the marks on loading items, the order of the items and the
stored progress together: the marked items are the first ones, and they are
exactly those whose progress is complete.

* `InOrder.tracked` — storing the progress of a loading item keeps the order,
  if the item is done already or is the frontier. Answers, ticks and forced
  ends are all of that form (`Move.inOrder`).
* `Change.gatesAt_new` and `Change.gatesAt_subset` — a change marks at most
  one loading item in all contents together and takes no mark back.
* `Moves.visibleCount_le` — what is visible of a content never shrinks.
* `reveal_in_order` — all of this over whole runs.
-/
import Quiz.Proofs.Play.Place

namespace Quiz

open ScreenState ContentState

/-- A hundred is not less than a hundred, so what is taken to its end is at its
end. -/
def Scale.Capped (α : Type) [Scale α] : Prop :=
  Scale.lt (Scale.hundred : α) Scale.hundred = false

theorem Scale.capped_float : Scale.Capped Float := by
  unfold Scale.Capped
  decide +kernel

variable {α : Type} [Scale α]

/-! ## The order in one content -/

/-- The item at an index is a loading item, and its stored progress is
complete. -/
def CompleteAt (content : Screen) (c : ContentState α) (index : Int) : Prop :=
  ∃ l p, content.loadingAt? index = some l ∧ c.loading.get? index = some p ∧
    p.isComplete l = true

/-- The loading items that are marked are the first ones, and they are exactly
those that are complete. -/
structure InOrder (content : Screen) (c : ContentState α) : Prop where
  first : ∃ k, c.completedGates = ((gates content.regular).take k).map Int.ofNat
  complete : ∀ index, index ∈ c.completedGates ↔ CompleteAt content c index

theorem InOrder.new (content : Screen) :
    InOrder content (.new content.content : ContentState α) := by
  refine ⟨⟨0, by simp [ContentState.new]⟩, fun index => ?_⟩
  constructor
  · intro h
    cases h
  · rintro ⟨l, p, -, hp, -⟩
    cases hp

/-- Storing the progress of a loading item keeps the order, if the marks are
still the first ones and speak of this item as its new progress does. -/
theorem InOrder.store {content : Screen} {c : ContentState α} (h : InOrder content c) {i : Nat}
    {l : Loading} (hl : content.regular[i]? = some (.loading l)) {p : GateProgress α}
    {marks : List Int} (first : ∃ k, marks = ((gates content.regular).take k).map Int.ofNat)
    (this : (i : Int) ∈ marks ↔ p.isComplete l = true)
    (others : ∀ index, (i : Int) ≠ index → (index ∈ marks ↔ index ∈ c.completedGates)) :
    InOrder content { c with loading := c.loading.put i p, completedGates := marks } := by
  refine ⟨first, fun index => ?_⟩
  by_cases hi : (i : Int) = index
  · subst hi
    have hp : (c.loading.put (i : Int) p).get? i = some p := Table.get?_put_same _ _ _
    refine this.trans ⟨fun hcomplete => ?_, ?_⟩
    · exact ⟨l, p, Screen.loadingAt?_eq_some.mpr hl, hp, hcomplete⟩
    · rintro ⟨l', p', hl', hp', hcomplete⟩
      rw [Screen.loadingAt?_eq_some, hl] at hl'
      obtain rfl := Item.loading.inj (Option.some.inj hl')
      obtain rfl := Option.some.inj (hp.symm.trans hp')
      exact hcomplete
  · have hsame : (c.loading.put (i : Int) p).get? index = c.loading.get? index :=
      Table.get?_put_other _ _ hi
    rw [others index hi, h.complete index]
    simp only [CompleteAt, hsame]

/-- The mark of the frontier comes next. -/
theorem InOrder.mark_frontier {content : Screen} {c : ContentState α} (h : InOrder content c)
    {i : Nat} (hfront : frontier? content.regular c.completedGates = some i) :
    ∃ k, c.completedGates ++ [(i : Int)] = ((gates content.regular).take k).map Int.ofNat := by
  obtain ⟨k, hk⟩ := h.first
  rw [hk, frontier?_take] at hfront
  refine ⟨k + 1, ?_⟩
  rw [hk, List.take_add_one, hfront, List.map_append]
  rfl

/-- The order is kept when the item is done already and stays complete, and
when it is the frontier. -/
theorem InOrder.tracked {content : Screen} {c : ContentState α} (h : InOrder content c) {i : Nat}
    {l : Loading} (hl : content.regular[i]? = some (.loading l)) {p : GateProgress α}
    (stays : (i : Int) ∈ c.completedGates → p.isComplete l = true)
    (next : (i : Int) ∉ c.completedGates → frontier? content.regular c.completedGates = some i) :
    InOrder content (c.tracked i l p) := by
  by_cases hd : (i : Int) ∈ c.completedGates
  · rw [tracked_of_complete c (stays hd), completeGate_of_mem]
    · exact h.store hl h.first (iff_of_true hd (stays hd)) fun index _ => Iff.rfl
    · exact hd
  · cases hp : p.isComplete l with
    | false =>
      rw [tracked_of_incomplete c hp]
      exact h.store hl h.first (iff_of_false hd (by simp [hp])) fun index _ => Iff.rfl
    | true =>
      rw [tracked_of_complete c hp, completeGate_of_not_mem]
      · refine h.store hl (h.mark_frontier (next hd)) (iff_of_true (by simp) hp) fun index hi => ?_
        rw [List.mem_append, List.mem_singleton]
        exact or_iff_left (Ne.symm hi)
      · exact hd

/-- Every move keeps the order. -/
theorem Move.inOrder (hcap : Scale.Capped α) {content : Screen} {c c' : ContentState α}
    {command : Command α} (h : Move content c command c') (hc : InOrder content c) :
    InOrder content c' := by
  cases h with
  | pick meant => exact ⟨hc.first, hc.complete⟩
  | edit visible => exact ⟨hc.first, hc.complete⟩
  | answer visible asks stored opened among =>
    rename_i index value l popup p chosen
    obtain ⟨i, rfl, hv, hl⟩ := Screen.visibleAt?_eq_some.mp visible
    refine hc.tracked hl ?_ (frontier?_of_visible hv hl)
    -- an item that was complete before stays complete with the answer
    intro hd
    obtain ⟨l', p', hl', hp', hcomplete⟩ := (hc.complete i).mp hd
    rw [Screen.loadingAt?_eq_some, hl] at hl'
    obtain rfl := Item.loading.inj (Option.some.inj hl')
    obtain rfl := Option.some.inj (stored.symm.trans hp')
    simp only [GateProgress.isComplete, Bool.and_eq_true] at hcomplete
    simp [GateProgress.isComplete, GateProgress.respond, hcomplete.1]
  | tick front item advanced =>
    obtain ⟨-, hd⟩ := frontier?_spec front
    exact hc.tracked item (fun hmem => absurd hmem hd) (fun _ => front)
  | finish visible undone free =>
    rename_i index l
    obtain ⟨i, rfl, hv, hl⟩ := Screen.visibleAt?_eq_some.mp visible
    have hcomplete : (c.progressAt i).finish.isComplete l = true := by
      have hcap : Scale.lt (Scale.hundred : α) Scale.hundred = false := hcap
      rcases free with hnone | hanswered
      · simp [GateProgress.isComplete, GateProgress.finish, hcap, hnone]
      · simp [GateProgress.isComplete, GateProgress.finish, hcap, hanswered]
    have hfinished : c.finished i = c.tracked i l (c.progressAt i).finish :=
      (tracked_of_complete c hcomplete).symm
    rw [hfinished]
    exact hc.tracked hl (fun _ => hcomplete) (frontier?_of_visible hv hl)

/-- What is visible of a content never shrinks. -/
theorem Moves.visibleCount_le {allowed : Command α → Prop} {content : Screen}
    {c c' : ContentState α} (h : Moves allowed content c c') :
    visibleCount content.regular c.completedGates ≤
      visibleCount content.regular c'.completedGates := by
  refine visibleCount_mono content.regular fun index hindex => ?_
  induction h with
  | refl => exact hindex
  | tail _ hstep ih =>
    obtain ⟨command, -, hmove⟩ := hstep
    exact hmove.subset ih

/-! ## The marks in all contents -/

/-- The marks in the content at a place; none where nothing is in play. -/
def ScreenState.gatesAt (screen : Screen) (s : ScreenState α) (place : Place) : List Int :=
  match s.contentAt? screen place with
  | some (_, c) => c.completedGates
  | none => []

omit [Scale α] in
theorem mem_gatesAt {screen : Screen} {s : ScreenState α} {place : Place} {g : Int} :
    g ∈ s.gatesAt screen place ↔
      ∃ content c, s.contentAt? screen place = some (content, c) ∧ g ∈ c.completedGates := by
  unfold gatesAt
  cases h : s.contentAt? screen place with
  | none => simp
  | some found =>
    obtain ⟨content, c⟩ := found
    simp

/-- A mark that is new was set at the place the command is about, behind the
marks that were there. -/
theorem Change.new_gate {screen : Screen} {maxDepth : Int} {s s' : ScreenState α}
    {command : Command α} (h : Change screen maxDepth s command s') {place : Place} {g : Int}
    (hg : g ∈ s'.gatesAt screen place) (hnew : g ∉ s.gatesAt screen place) :
    place = s.focus command ∧
      s'.gatesAt screen place = s.gatesAt screen place ++ [g] := by
  obtain ⟨content, c', hc', hmem⟩ := mem_gatesAt.mp hg
  rcases h.contentAt?_cases hc' with hsame | ⟨hplace, c, hc, hmove⟩ | ⟨-, rfl, -⟩
  · exact absurd (mem_gatesAt.mpr ⟨content, c', hsame, hmem⟩) hnew
  · refine ⟨hplace, ?_⟩
    simp only [gatesAt, hc, hc'] at hnew ⊢
    rcases hmove.completedGates with heq | ⟨g', -, heq⟩
    · rw [heq] at hmem
      exact absurd hmem hnew
    · rw [heq] at hmem ⊢
      rcases List.mem_append.mp hmem with hold | hlast
      · exact absurd hold hnew
      · rw [List.mem_singleton.mp hlast]
  · cases hmem

/-- A change marks at most one loading item, in all contents together. -/
theorem Change.gatesAt_new {screen : Screen} {maxDepth : Int} {s s' : ScreenState α}
    {command : Command α} (h : Change screen maxDepth s command s') :
    ∃ place₀ g₀, ∀ place g, g ∈ s'.gatesAt screen place → g ∉ s.gatesAt screen place →
      place = place₀ ∧ g = g₀ := by
  by_cases hany : ∃ place g, g ∈ s'.gatesAt screen place ∧ g ∉ s.gatesAt screen place
  · obtain ⟨place₀, g₀, hg₀, hnew₀⟩ := hany
    obtain ⟨rfl, heq₀⟩ := h.new_gate hg₀ hnew₀
    refine ⟨s.focus command, g₀, fun place g hg hnew => ?_⟩
    obtain ⟨rfl, heq⟩ := h.new_gate hg hnew
    rw [heq₀] at heq
    exact ⟨rfl, (List.singleton_inj.mp (List.append_cancel_left heq)).symm⟩
  · exact ⟨.authored, 0, fun place g hg hnew => absurd ⟨place, g, hg, hnew⟩ hany⟩

/-- A change takes no mark back while the content stays in play. -/
theorem Change.gatesAt_subset {screen : Screen} {maxDepth : Int} {s s' : ScreenState α}
    {command : Command α} (h : Change screen maxDepth s command s') {place : Place}
    (stays : (s'.contentAt? screen place).isSome = true) :
    s.gatesAt screen place ⊆ s'.gatesAt screen place := by
  intro g hg
  obtain ⟨content, c, hc, hmem⟩ := mem_gatesAt.mp hg
  obtain ⟨⟨content', c'⟩, hc'⟩ := Option.isSome_iff_exists.mp stays
  rcases h.contentAt?_cases hc' with hsame | ⟨-, c₀, hc₀, hmove⟩ | ⟨hnone, -⟩
  · exact mem_gatesAt.mpr ⟨content', c', hc', by
      obtain ⟨rfl, rfl⟩ := Prod.mk.inj (Option.some.inj (hc.symm.trans hsame))
      exact hmem⟩
  · obtain ⟨rfl, rfl⟩ := Prod.mk.inj (Option.some.inj (hc.symm.trans hc₀))
    exact mem_gatesAt.mpr ⟨content, c', hc', hmove.subset hmem⟩
  · rw [hc] at hnone
    cases hnone

/-! ## Over whole runs -/

/-- In every state of a run the marked loading items of each content in play
are its first ones, and those that are complete; a command marks at most one
more and takes no mark back; and what is visible of a content does not shrink
in the rest of the run, while the content stays in play. -/
theorem reveal_in_order (screen : Screen) (maxDepth : Int) (commands : List (Command Float)) :
    let s := (new screen).run screen maxDepth commands
    (∀ place content c, s.contentAt? screen place = some (content, c) → InOrder content c) ∧
    (∀ command, ∃ place₀ g₀, ∀ place g,
      g ∈ (s.next screen maxDepth command).gatesAt screen place → g ∉ s.gatesAt screen place →
        place = place₀ ∧ g = g₀) ∧
    (∀ command place, ((s.next screen maxDepth command).contentAt? screen place).isSome = true →
      s.gatesAt screen place ⊆ (s.next screen maxDepth command).gatesAt screen place) ∧
    (∀ more place content c, s.contentAt? screen place = some (content, c) →
      s.InPlay screen maxDepth more place →
        ∃ c', (s.run screen maxDepth more).contentAt? screen place = some (content, c') ∧
          visibleCount content.regular c.completedGates ≤
            visibleCount content.regular c'.completedGates) := by
  intro s
  have hany : ∀ commands : List (Command Float), ∀ command ∈ commands, True :=
    fun _ _ _ => trivial
  refine ⟨?_, ?_, ?_, ?_⟩
  · intro place content c hc
    refine forall_contentAt?_run (.new screen) ?_ ?_ (hany commands) hc
    · intro key raw content ws _
      exact .new content
    · intro content c c' command _ hin hmove
      exact hmove.inOrder Scale.capped_float hin
  · intro command
    exact (next_change screen maxDepth s command).gatesAt_new
  · intro command place hstays
    exact (next_change screen maxDepth s command).gatesAt_subset hstays
  · intro more place content c hc hstays
    obtain ⟨c', hc', hmoves⟩ := contentAt?_run (hany more) hstays hc
    exact ⟨c', hc', hmoves.visibleCount_le⟩

end Quiz
