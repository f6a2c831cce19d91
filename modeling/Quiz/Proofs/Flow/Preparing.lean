/-
Quiz.Proofs.Flow.Preparing — what a raw quiz is prepared to, and what the
program makes of it.

Placeholders, buttons and the reading of screens follow one another. The last of
these says of every document what is wrong with it. Before it, adding buttons
can come across a selection whose conditional screens are no object, and that
is not said.

* `Prepare.withSourceButtons_walked` — when buttons can be added.
* `Prepare.Expected` — what should come of a document: distinct screens in its
  order, or what is wrong with it. `prepareScreens_cases` — when it does.
* `prepared_as_expected_iff` — for every document and all placeholders: when
  preparation ends in this way, and when the program does.
* `misplaced_unnamed` — a document for which they do not.
-/
import Quiz.CommandLine.Run
import Quiz.Proofs.Flow.Continue
import Quiz.Proofs.Screen.Placeholder

namespace Quiz

open BranchButton

/-! ## Buttons -/

namespace Prepare

/-- What comes of adding buttons to screens: it is done when none of them is
obstructed, and else the sort of something that is in the way. -/
inductive Walked {β : Type} (raws : List Json) : Except PrepareFault β → Prop
  | clear (h : ∀ raw ∈ raws, ¬ ObstructedIn raw) (ready : β) : Walked raws (.ok ready)
  | obstructed (h : ∃ raw ∈ raws, ObstructedIn raw) (sort : String) :
    Walked raws (.error (.branches sort))

theorem Walked.map {β γ : Type} {raws : List Json} {outcome : Except PrepareFault β}
    (h : Walked raws outcome) (f : β → γ) : Walked raws (outcome.map f) := by
  cases h with
  | clear h ready => exact .clear h (f ready)
  | obstructed h sort => exact .obstructed h sort

theorem withButtons_walked (settings : Settings) (last : Bool) (raw : Json) :
    Walked [raw] (withButtons settings last raw) := by
  cases raw with
  | obj fs =>
    rw [withButtons]
    generalize (if last then settings.finishLabel else settings.continueLabel) = label
    cases hadd : addBranchButtons label fs with
    | ok ready =>
      refine .clear (List.forall_mem_singleton.mpr ?_) _
      rw [obstructedIn_iff]
      rintro ⟨sort, hsort⟩
      rw [addBranchButtons_eq_error.mpr hsort] at hadd
      cases hadd
    | error sort =>
      have hobstructed := obstructedIn_iff.mpr ⟨sort, addBranchButtons_eq_error.mp hadd⟩
      exact .obstructed ⟨_, List.mem_singleton_self _, hobstructed⟩ sort
  | _ =>
    refine .clear (List.forall_mem_singleton.mpr ?_) _
    simp [obstructedIn_iff, behindBranch?]

theorem withAllButtons_walked (settings : Settings) (raws : List Json) :
    Walked raws (withAllButtons settings raws) := by
  induction raws with
  | nil => exact .clear (by simp) []
  | cons raw rest ih =>
    rw [withAllButtons]
    have hraw := withButtons_walked settings rest.isEmpty raw
    generalize withButtons settings rest.isEmpty raw = outcome at hraw ⊢
    cases hraw with
    | obstructed h sort =>
      obtain ⟨_, hmem, hobstructed⟩ := h
      obtain rfl := List.mem_singleton.mp hmem
      exact .obstructed ⟨_, List.mem_cons_self, hobstructed⟩ sort
    | clear hfirst first =>
      generalize withAllButtons settings rest = others at ih ⊢
      cases ih with
      | obstructed h sort =>
        obtain ⟨other, hmem, hobstructed⟩ := h
        exact .obstructed ⟨other, List.mem_cons_of_mem _ hmem, hobstructed⟩ sort
      | clear hrest others =>
        have hclear : ¬ ObstructedIn raw := hfirst raw (List.mem_singleton_self raw)
        exact .clear (List.forall_mem_cons.mpr ⟨hclear, hrest⟩) _

/-- Buttons can be added to a document exactly when no screen of it is
obstructed. -/
theorem withSourceButtons_walked (settings : Settings) (value : Json) :
    Walked (Source.screens value).2 (withSourceButtons settings value) := by
  cases value with
  | arr raws => exact (withAllButtons_walked settings raws).map Json.arr
  | obj fs =>
    cases hscreens : Table.get? fs "screens" with
    | none =>
      simp only [withSourceButtons, Source.screens, hscreens]
      exact withButtons_walked settings true (.obj fs)
    | some v =>
      simp only [withSourceButtons, Source.screens, hscreens]
      cases v with
      | arr raws => exact (withAllButtons_walked settings raws).map _
      | _ => exact withButtons_walked settings true (.obj fs)
  | _ => exact withButtons_walked settings true _

theorem id_withButtons {settings : Settings} {last : Bool} {raw ready : Json}
    (h : withButtons settings last raw = .ok ready) : ready.field? "id" = raw.field? "id" := by
  unfold withButtons at h
  split at h
  · split at h
    · rename_i hadd
      obtain rfl := Except.ok.inj h
      exact addBranchButtons_other hadd (by decide)
    · cases h
  · obtain rfl := Except.ok.inj h
    rfl

end Prepare

/-! ## Screens -/

theorem Screen.readAround_id {fs : Fields} {items : Checked (List Item)} {screen : Screen}
    (h : Screen.readAround fs items = .ok screen) :
    fs.required Name.id Read.text = .ok screen.id := by
  simp only [Screen.readAround, Checked.app_eq_ok, Checked.map_eq_ok] at h
  obtain ⟨_, _, ⟨_, _, ⟨_, _, ⟨_, _, ⟨_, _, ⟨_, _, ⟨_, hid, rfl⟩, -, rfl⟩, -, rfl⟩,
    -, rfl⟩, -, rfl⟩, -, rfl⟩, -, rfl⟩ := h
  exact hid

/-- A screen has the id that is written in its document. -/
theorem Screen.id_of_validate {context : String} {maxDepth : Int} {j : Json} {screen : Screen}
    {ws : List Warning} (h : Screen.validate context maxDepth j = .ok (screen, ws)) :
    j.field? "id" = some (.str screen.id) := by
  obtain ⟨_, _, _, -, -, hread⟩ := Screen.validate_eq_ok h
  obtain ⟨fs, rfl, haround⟩ := readModel_ok hread
  have hid := Screen.readAround_id haround
  unfold Fields.required at hid
  rw [Name.id, Fields.entry?_only] at hid
  show Table.get? fs "id" = _
  cases hfield : Table.get? fs "id" with
  | none =>
    rw [hfield] at hid
    cases hid
  | some v =>
    rw [hfield] at hid
    have hv : Read.text v = .ok screen.id := Checked.under_eq_ok.mp hid
    cases v with
    | str s => rw [Checked.ok.inj hv]
    | _ => cases hv

theorem Source.repeatedId?_eq_none {seen : List String} {screens : List Screen} :
    Source.repeatedId? seen screens = none ↔
      (screens.map Screen.id).Nodup ∧ ∀ s ∈ screens, s.id ∉ seen := by
  induction screens generalizing seen with
  | nil => simp [Source.repeatedId?]
  | cons s rest ih =>
    rw [Source.repeatedId?]
    by_cases hseen : s.id ∈ seen
    · rw [if_pos (by simpa using hseen)]
      simp [hseen]
    · rw [if_neg (by simpa using hseen), ih, List.map_cons, List.nodup_cons,
        List.forall_mem_cons]
      simp only [List.mem_cons, not_or, List.mem_map, not_exists, not_and]
      constructor
      · rintro ⟨hnodup, hrest⟩
        exact ⟨⟨fun t ht => (hrest t ht).1, hnodup⟩, hseen, fun t ht => (hrest t ht).2⟩
      · rintro ⟨⟨hfresh, hnodup⟩, -, hrest⟩
        exact ⟨hnodup, fun t ht => ⟨hfresh t ht, hrest t ht⟩⟩

theorem normalizeSource_distinct {maxDepth : Int} {value : Json} {form : SourceForm}
    {screens : List Screen} {ws : List Warning}
    (h : normalizeSource maxDepth value = (.ok (form, screens), ws)) :
    screens ≠ [] ∧ (screens.map Screen.id).Nodup := by
  have hscreens := normalizeSource_ok h
  unfold normalizeSource at h
  split at h
  · cases h
  · cases h
  · rename_i raws harray hconfig hsource
    split at h
    · cases h
    · split at h
      · cases h
      · rename_i hrepeated
        cases h
        refine ⟨?_, (Source.repeatedId?_eq_none.mp hrepeated).1⟩
        rintro rfl
        rw [hsource] at hscreens
        obtain rfl := List.forall₂_nil_right_iff.mp hscreens
        -- only a list of screens can be empty
        cases form with
        | array => exact harray rfl rfl
        | config => exact hconfig rfl rfl
        | single =>
          unfold Source.screens at hsource
          split at hsource
          · cases hsource
          · split at hsource <;> cases hsource
          · cases hsource

/-! ## What preparation comes to -/

theorem map_eq_map_of_forall₂ {β γ δ : Type} {R : β → γ → Prop} {f : β → δ} {g : γ → δ}
    {bs : List β} {cs : List γ} (h : List.Forall₂ R bs cs) (same : ∀ b c, R b c → f b = g c) :
    bs.map f = cs.map g := by
  rw [← List.forall₂_eq_eq_eq, List.forall₂_map_left_iff, List.forall₂_map_right_iff]
  exact h.imp same

/-- What is to come of a document: screens, one at least, which have distinct ids
and come in the order in which they are written; or what is wrong with the
document. -/
def Prepare.Expected (value : Json) : Except PrepareFault (List Screen) → Prop
  | .ok screens =>
    screens ≠ [] ∧ (screens.map Screen.id).Nodup ∧
      (Source.screens value).2.map (·.field? "id")
        = screens.map fun screen => some (.str screen.id)
  | .error (.source _) => True
  | .error (.branches _) => False

theorem map_id_applyPlaceholders {placeholders : Placeholders} {raws : List Json}
    {screens : List Screen}
    (h : (raws.map (applyPlaceholders placeholders)).map (·.field? "id")
      = screens.map fun screen => some (.str screen.id)) :
    raws.map (·.field? "id") = screens.map fun screen => some (.str screen.id) := by
  induction raws generalizing screens with
  | nil => exact h
  | cons raw rest ih =>
    cases screens with
    | nil => cases h
    | cons screen more =>
      obtain ⟨hid, hrest⟩ := List.cons.inj h
      rw [List.map_cons, List.map_cons, id_applyPlaceholders.mp hid, ih hrest]

/-- Screens that are prepared are the screens of the document. -/
theorem expected_of_normal {settings : Settings} {placeholders : Placeholders} {value ready : Json}
    (buttons : Prepare.withSourceButtons settings (applyPlaceholders placeholders value) = .ok ready)
    {maxDepth : Int} {form : SourceForm} {screens : List Screen} {ws : List Warning}
    (normal : normalizeSource maxDepth ready = (.ok (form, screens), ws)) :
    Prepare.Expected value (.ok screens) := by
  obtain ⟨hsome, hnodup⟩ := normalizeSource_distinct normal
  have hbuttons := Prepare.withSourceButtons_ok buttons
  rw [screens_applyPlaceholders] at hbuttons
  have hids : ((Source.screens value).2.map (applyPlaceholders placeholders)).map
      (·.field? "id") = screens.map fun screen => some (.str screen.id) := calc
    _ = (Source.screens ready).2.map (·.field? "id") :=
      map_eq_map_of_forall₂ hbuttons fun _ _ ⟨_, h⟩ => (Prepare.id_withButtons h).symm
    _ = screens.map fun screen => some (.str screen.id) :=
      map_eq_map_of_forall₂ (normalizeSource_ok normal) fun _ _ ⟨_, _, h⟩ =>
        Screen.id_of_validate h
  exact ⟨hsome, hnodup, map_id_applyPlaceholders hids⟩

/-- Preparation comes to what is expected where no screen of the document is
obstructed, and to nothing that names the document where one is. -/
theorem prepareScreens_cases (settings : Settings) (placeholders : Placeholders) (value : Json) :
    ((∀ raw ∈ (Source.screens value).2, ¬ ObstructedIn raw) ∧
        Prepare.Expected value (prepareScreens settings placeholders value).1) ∨
      ((∃ raw ∈ (Source.screens value).2, ObstructedIn raw) ∧
        ∃ sort, prepareScreens settings placeholders value = (.error (.branches sort), [])) := by
  have hwalked :=
    Prepare.withSourceButtons_walked settings (applyPlaceholders placeholders value)
  rw [screens_applyPlaceholders] at hwalked
  unfold prepareScreens
  cases hbuttons : Prepare.withSourceButtons settings (applyPlaceholders placeholders value) with
  | error fault =>
    rw [hbuttons] at hwalked
    cases hwalked with
    | obstructed h sort =>
      simp only [List.mem_map, exists_exists_and_eq_and, obstructed_applyPlaceholders] at h
      exact Or.inr ⟨h, sort, rfl⟩
  | ok ready =>
    rw [hbuttons] at hwalked
    cases hwalked with
    | clear h =>
      simp only [List.mem_map, forall_exists_index, and_imp, forall_apply_eq_imp_iff₂,
        obstructed_applyPlaceholders] at h
      refine Or.inl ⟨h, ?_⟩
      dsimp only
      split
      · exact trivial
      · rename_i hnormal
        exact expected_of_normal hbuttons hnormal

/-- Preparation comes to what is expected exactly when no screen of the document
is obstructed. -/
theorem expected_iff {settings : Settings} {placeholders : Placeholders} {value : Json} :
    Prepare.Expected value (prepareScreens settings placeholders value).1 ↔
      ∀ raw ∈ (Source.screens value).2, ¬ ObstructedIn raw := by
  rcases prepareScreens_cases settings placeholders value with
    ⟨hclear, hexpected⟩ | ⟨⟨raw, hraw, hobstructed⟩, sort, hsort⟩
  · exact iff_of_true hexpected hclear
  · rw [hsort]
    exact iff_of_false id fun hclear => hclear raw hraw hobstructed

/-! ## What the program comes to -/

namespace CommandLine

/-- The program ends with screens, or with a line about what is wrong with the
document. -/
def Ending.Answers : Ending → Prop
  | .checked _ => True
  | .play _ => True
  | .failed (.prepare (.source _)) => True
  | .failed _ => False

/-- Where screens are to be played, the first of them can be entered. -/
def Job.Enters (job : Job) (value : Json) (now : Instant) : Prop :=
  ∀ screens, (prepareScreens job.settings job.placeholders value).1 = .ok screens →
    (Flow.new screens job.settings (startPosition screens job.startAt).1 now : Flow Float).entryFault?
      = none

theorem finish_answers_iff {job : Job} {value : Json} {text : String} {now : Instant}
    (read : Json.read (String.ofList (plainLines text.toList)) = .ok value) :
    (finish job text now).1.Answers ↔
      (∀ raw ∈ (Source.screens value).2, ¬ ObstructedIn raw) ∧
        (job.check = false → job.Enters value now) := by
  rcases prepareScreens_cases job.settings job.placeholders value with
    ⟨hclear, hexpected⟩ | ⟨⟨raw, hraw, hobstructed⟩, sort, hsort⟩
  · rw [and_iff_right hclear]
    unfold finish Job.Enters
    rw [read]
    dsimp only
    rcases hprepared : prepareScreens job.settings job.placeholders value with
      ⟨fault | screens, ws⟩
    · cases fault with
      | branches sort =>
        rw [hprepared] at hexpected
        exact absurd hexpected id
      | source fault => exact iff_of_true trivial fun _ _ h => nomatch h
    · cases job.check with
      | true => exact iff_of_true trivial nofun
      | false =>
        dsimp only
        rw [if_neg Bool.false_ne_true]
        split
        · rename_i fault hfault
          refine iff_of_false id fun h => ?_
          rw [h rfl screens rfl] at hfault
          cases hfault
        · rename_i hnone
          refine iff_of_true trivial fun _ screens' hscreens => ?_
          obtain rfl := Except.ok.inj hscreens
          exact hnone
  · unfold finish
    rw [read]
    dsimp only
    rw [hsort]
    exact iff_of_false id fun h => h.1 raw hraw hobstructed

end CommandLine

/-- What becomes of a document, with all placeholders and in all settings. It is
prepared to distinct screens in its own order, or it is said what is wrong with
it, exactly when no selection that the walk through its screens comes to has
something else than an object in place of its conditional screens. When the
program reads the document from a text, it answers in one of these ways under
the same condition, and where the screens are to be played, if the first of them
can be entered. -/
theorem prepared_as_expected_iff (job : CommandLine.Job) (value : Json) :
    (Prepare.Expected value (prepareScreens job.settings job.placeholders value).1 ↔
        ∀ raw ∈ (Source.screens value).2, ¬ ObstructedIn raw) ∧
      ∀ text now, Json.read (String.ofList (CommandLine.plainLines text.toList)) = .ok value →
        ((CommandLine.finish job text now).1.Answers ↔
          (∀ raw ∈ (Source.screens value).2, ¬ ObstructedIn raw) ∧
            (job.check = false → job.Enters value now)) :=
  ⟨expected_iff, fun _ _ => CommandLine.finish_answers_iff⟩

/-- A check of the quiz in a file. -/
def checkJob : CommandLine.Job :=
  ⟨"quiz.json", true, none, [], .usual⟩

-- Kept folded, so that it is not read again wherever it is mentioned.
/-- The text of a screen without items. -/
@[irreducible]
def bareText : String :=
  "\x7b\"id\": \"bare\", \"content\": []\x7d"

/-- The program answers to it. -/
theorem prepared_as_expected_bare :
    ∃ value, Json.read (String.ofList (CommandLine.plainLines bareText.toList)) = .ok value ∧
      Prepare.Expected value (prepareScreens checkJob.settings checkJob.placeholders value).1 ∧
      (CommandLine.finish checkJob bareText 0).1.Answers := by
  have h : (Json.read (String.ofList (CommandLine.plainLines bareText.toList))).toOption.any
      (fun value => (Source.screens value).2.all fun raw =>
        ((raw.field? "content").bind Json.elements?).any List.isEmpty) = true := by
    decide +kernel
  obtain ⟨value, hread, hbare⟩ := Except.any_toOption.mp h
  have hclear : ∀ raw ∈ (Source.screens value).2, ¬ ObstructedIn raw := by
    rintro raw hraw ⟨content, hcontent, hobstructed⟩
    have hempty := List.all_eq_true.mp hbare raw hraw
    rw [hcontent, Option.bind_some, Json.elements?, Option.any_some, List.isEmpty_iff] at hempty
    subst hempty
    exact (listMisplaced?_eq_none_iff []).mp (by simp [listMisplaced?, behindItems?]) hobstructed
  have hchecks : checkJob.check ≠ false := by decide
  obtain ⟨hprepared, hanswers⟩ := prepared_as_expected_iff checkJob value
  refine ⟨value, hread, hprepared.mpr hclear, ?_⟩
  exact (hanswers bareText 0 hread).mpr ⟨hclear, fun h => absurd h hchecks⟩

/-- A document of a screen in which an array stands in place of conditional
screens. -/
def misplacedQuiz : Json :=
  .obj
    [("id", .str "s"),
     ("content", .arr
      [.obj [("type", .str "selection"), ("conditionalScreens", .arr [.int 1])]])]

/-- Nothing is said about what is wrong with it, although it cannot be
prepared. -/
theorem misplaced_unnamed :
    (∃ sort, (prepareScreens checkJob.settings checkJob.placeholders misplacedQuiz).1
        = .error (.branches sort)) ∧
      ¬ Prepare.Expected misplacedQuiz
        (prepareScreens checkJob.settings checkJob.placeholders misplacedQuiz).1 := by
  have h : (Source.screens misplacedQuiz).2.any
      (fun raw => (behindBranch? raw).isSome) = true := by
    decide +kernel
  obtain ⟨raw, hraw, hsome⟩ := List.any_eq_true.mp h
  have hobstructed : ObstructedIn raw :=
    obstructedIn_iff.mpr (Option.isSome_iff_exists.mp hsome)
  rcases prepareScreens_cases checkJob.settings checkJob.placeholders misplacedQuiz with
    ⟨hclear, -⟩ | ⟨-, sort, hsort⟩
  · exact absurd hobstructed (hclear raw hraw)
  · rw [hsort]
    exact ⟨⟨sort, rfl⟩, id⟩

end Quiz
