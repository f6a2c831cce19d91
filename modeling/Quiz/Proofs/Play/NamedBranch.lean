/-
Quiz.Proofs.Play.NamedBranch — which conditional screen the response to a pick
names.

A pick that is followed is reported with the pick that leads to what is shown
afterwards, whoever made that one. As a rule it is the pick that was just
followed. When the new pick leads nowhere, and another selection had led to the
conditional screen that is shown, that screen stays and its pick is named in a
response that speaks for a selection it has nothing to do with.

* `Followed.shows_own_iff` — after a pick was followed, what is shown is its own
  conditional screen unless a foreign one stays.
* `names_own_iff` — a response names the conditional screen of its own selection
  exactly when no foreign one stays.
* `foreign_branch_named` — a screen with two selections, in which one stays.
-/
import Quiz.Proofs.Play.Responses

namespace Quiz

variable {α : Type}

open ScreenState ContentState

/-- What the response to a pick at `index` names, if anything, is the
conditional screen that the selection there leads to, and by a pick that is
written as its latest one. -/
def NamesOwn (index : Int) (r : Response) (s' : ScreenState α) : Prop :=
  ∀ value, r.branch = some value →
    (∃ b, s'.branch = some b ∧ (b.source : Int) = index ∧ b.value = value) ∧
      ∃ last, r.selected.bind List.getLast? = some last ∧ value.key = last.key

/-- A pick at `index` of the authored content is followed and leads nowhere,
while a conditional screen is shown that another selection led to. -/
def ForeignStays (screen : Screen) (maxDepth : Int) (s : ScreenState α) (index : Int)
    (option : OptionId) (target : PickTarget) : Prop :=
  ∃ selection id b, target = .authored ∧
    screen.meant? s.authored.completedGates index option = some (selection, id) ∧
    selection.hasBranches = true ∧ s.branch = some b ∧ (b.source : Int) ≠ index ∧
    ∀ found ws, selection.branch? maxDepth (selection.mode.pick id (s.authored.picks index)) ≠
      .ok (some found, ws)

theorem ScreenState.activeBranch?_eq_some {s : ScreenState α} {value : OptionId} :
    s.activeBranch? = some value ↔ ∃ b, s.branch = some b ∧ b.value = value :=
  Option.map_eq_some_iff

/-- After a pick was followed, what is shown is what it leads to, unless it
leads nowhere and another selection had led to what is shown. -/
theorem Followed.shows_own_iff {maxDepth : Int} {selection : Selection} {index : Int}
    {picked : List OptionId} {s s' : ScreenState α}
    (h : Followed maxDepth selection index.toNat picked s s') (nonneg : 0 ≤ index) :
    (∀ value, s'.activeBranch? = some value →
      (∃ b, s'.branch = some b ∧ (b.source : Int) = index ∧ b.value = value) ∧
        ∃ last, picked.getLast? = some last ∧ value.key = last.key) ↔
      ¬ ∃ b, s.branch = some b ∧ (b.source : Int) ≠ index ∧
        ∀ found ws, selection.branch? maxDepth picked ≠ .ok (some found, ws) := by
  cases h with
  | left nowhere shown own =>
    refine iff_of_true nofun ?_
    rintro ⟨b', hb', hforeign, -⟩
    obtain rfl := Option.some.inj (shown.symm.trans hb')
    omega
  | passed nowhere foreign =>
    constructor
    · rintro hown ⟨b, hb, hforeign, -⟩
      obtain ⟨⟨b', hb', hindex, -⟩, -⟩ := hown b.value (activeBranch?_eq_some.mpr ⟨b, hb, rfl⟩)
      obtain rfl := Option.some.inj (hb.symm.trans hb')
      exact hforeign hindex
    · intro hforeign value hvalue
      obtain ⟨b, hb, -⟩ := activeBranch?_eq_some.mp hvalue
      have hsource := foreign b hb
      exact absurd ⟨b, hb, by omega, nowhere⟩ hforeign
  | @kept b value found ws leads shown own same =>
    refine iff_of_true ?_ fun ⟨_, _, _, nowhere⟩ => nowhere _ _ leads
    intro named hnamed
    obtain ⟨b', hb', rfl⟩ := activeBranch?_eq_some.mp hnamed
    obtain rfl := Option.some.inj (shown.symm.trans hb')
    exact ⟨⟨b, shown, by omega, rfl⟩, value, (Selection.branch?_eq_some.mp leads).1, same⟩
  | @entered value found ws leads enterable fresh =>
    refine iff_of_true ?_ fun ⟨_, _, _, nowhere⟩ => nowhere _ _ leads
    intro named hnamed
    obtain rfl : value = named := Option.some.inj hnamed
    exact ⟨⟨_, rfl, Int.toNat_of_nonneg nonneg, rfl⟩, value,
      (Selection.branch?_eq_some.mp leads).1, rfl⟩

section Step

variable [Scale α]

/-- The response to a pick names the conditional screen of its own selection, by
the latest pick there, exactly when no foreign one stays. -/
theorem names_own_iff {screen : Screen} {maxDepth : Int} {s : ScreenState α} {index : Int}
    {option : OptionId} {target : PickTarget} {r : Response}
    (h : s.response? screen maxDepth (.select index option target) = some r) :
    NamesOwn index r (s.next screen maxDepth (.select index option target)) ↔
      ¬ ForeignStays screen maxDepth s index option target := by
  obtain ⟨outcome, hstep, hr, hnext⟩ := response?_eq_some h
  rw [hnext]
  have hselect : s.onSelect screen maxDepth index option target = .ok outcome := by
    unfold step at hstep
    split at hstep
    · rw [← Except.ok.inj hstep] at hr
      cases hr
    · exact hstep
  rcases onSelect_ok hselect with rfl | ⟨selection, id, hmeant, hpick⟩
  · cases hr
  cases pickOption_picked hpick with
  | inside shown =>
    obtain rfl := Option.some.inj hr
    refine iff_of_true nofun ?_
    rintro ⟨_, _, _, htarget, -⟩
    cases htarget
  | plain addressed plain =>
    rw [addressed_authored addressed] at hmeant
    obtain rfl := Option.some.inj hr
    refine iff_of_true nofun ?_
    rintro ⟨other, _, _, -, hother, hbranching, -⟩
    obtain ⟨rfl, -⟩ := Prod.mk.inj (Option.some.inj (hmeant.symm.trans hother))
    rw [plain] at hbranching
    cases hbranching
  | followed addressed branching followed =>
    rw [addressed_authored addressed] at hmeant
    obtain rfl := Option.some.inj hr
    have hnonneg : 0 ≤ index := by
      obtain ⟨i, rfl, -⟩ := Screen.visibleAt?_eq_some.mp (Screen.meant?_eq_some.mp hmeant).1
      exact Int.natCast_nonneg i
    refine (followed.shows_own_iff hnonneg).trans (not_congr ?_)
    constructor
    · rintro ⟨b, hb, hforeign, nowhere⟩
      refine ⟨selection, id, b, addressed.resolve_right ?_, hmeant, branching, hb, hforeign,
        nowhere⟩
      intro hnone
      cases hnone.symm.trans hb
    · rintro ⟨other, id', b, -, hother, -, hb, hforeign, nowhere⟩
      obtain ⟨rfl, rfl⟩ := Prod.mk.inj (Option.some.inj (hmeant.symm.trans hother))
      exact ⟨b, hb, hforeign, nowhere⟩

end Step

/-- A document of a screen with two selections. The option of the first leads to
a conditional screen, that of the second leads nowhere. -/
def twoForksSource : Json :=
  .obj
    [("id", .str "forks"),
     ("content", .arr
      [.obj
        [("type", .str "selection"),
         ("options", .arr
          [.obj [("variant", .str "flat"), ("text", .str "A"), ("id", .str "a")]]),
         ("conditionalScreens", .obj [("a", .obj [("content", .arr [])])])],
       .obj
        [("type", .str "selection"),
         ("options", .arr
          [.obj [("variant", .str "flat"), ("text", .str "X"), ("id", .str "x")]]),
         ("conditionalScreens", .obj [("z", .obj [("content", .arr [])])])]])]

/-- The response to the pick of the first selection names the conditional screen
that it led to. -/
theorem names_own_forked :
    ∃ (screen : Screen) (ws : List Warning) (r : Response),
      Screen.validate "" defaultMaxDepth twoForksSource = .ok (screen, ws) ∧
      (new screen : ScreenState Float).response? screen defaultMaxDepth
        (.select 0 (.text "a") .active) = some r ∧
      r.branch = some (.text "a") ∧
      (NamesOwn 0 r ((new screen : ScreenState Float).next screen defaultMaxDepth
          (.select 0 (.text "a") .active)) ↔
        ¬ ForeignStays screen defaultMaxDepth (new screen : ScreenState Float) 0 (.text "a")
          .active) := by
  have h : (Screen.validate "" defaultMaxDepth twoForksSource).toOption.any (fun found =>
      ((new found.1 : ScreenState Float).response? found.1 defaultMaxDepth
        (.select 0 (.text "a") .active)).any fun r => decide (r.branch = some (.text "a"))) =
      true := by
    decide +kernel
  obtain ⟨⟨screen, ws⟩, hvalid, hr⟩ := Except.any_toOption.mp h
  obtain ⟨r, hr, hnamed⟩ := (Option.any_eq_true _ _).mp hr
  exact ⟨screen, ws, r, hvalid, hr, of_decide_eq_true hnamed, names_own_iff hr⟩

/-- Once the first selection has led to its conditional screen, the response to
the pick of the second one names that screen too. -/
theorem foreign_branch_named :
    ∃ (screen : Screen) (ws : List Warning) (s : ScreenState Float) (r : Response),
      Screen.validate "" defaultMaxDepth twoForksSource = .ok (screen, ws) ∧
      s = (new screen).run screen defaultMaxDepth [.select 0 (.text "a") .active] ∧
      s.response? screen defaultMaxDepth (.select 1 (.text "x") .authored) = some r ∧
      r.branch = some (.text "a") ∧ r.selected = some [.text "x"] ∧
      ¬ NamesOwn 1 r (s.next screen defaultMaxDepth (.select 1 (.text "x") .authored)) := by
  have h : (Screen.validate "" defaultMaxDepth twoForksSource).toOption.any (fun found =>
      let s : ScreenState Float :=
        (new found.1).run found.1 defaultMaxDepth [.select 0 (.text "a") .active]
      (s.response? found.1 defaultMaxDepth (.select 1 (.text "x") .authored)).any fun r =>
        decide (r.branch = some (.text "a") ∧ r.selected = some [.text "x"])) = true := by
    decide +kernel
  obtain ⟨⟨screen, ws⟩, hvalid, hr⟩ := Except.any_toOption.mp h
  obtain ⟨r, hr, hnamed⟩ := (Option.any_eq_true _ _).mp hr
  obtain ⟨hbranch, hselected⟩ := of_decide_eq_true hnamed
  refine ⟨screen, ws, _, r, hvalid, rfl, hr, hbranch, hselected, ?_⟩
  intro hown
  obtain ⟨-, last, hlast, hkey⟩ := hown _ hbranch
  -- What is named is not written as the pick that was made last.
  rw [hselected] at hlast
  obtain rfl := Option.some.inj hlast
  exact absurd hkey (by decide)

end Quiz
