/-
Quiz.Proofs.Screen.OptionIdentity — when two options of a selection are
refused as having one identity.

Options are compared as they are written, before anything is read. The
identity that counts in play is read afterwards: null is no identity, and a
boolean or a whole fraction stands for an integer. Where an option is
identified by a text or an integer, or by its position, both agree.

* `Choice.written_iff` — the way in which an option is written is the text
  form of its identity exactly when it is identified plainly.
* `duplicate_refused_iff` — what is refused for its options: screens with two
  options written alike; where options are identified plainly, those with two
  options of one identity.
* `identityKeys_nodup_of_validate` — where that is so, the identities in an
  accepted screen are told apart by their text forms.
* `identities_misjudged` — screens with a null or a boolean for an identity, of
  which this does not hold.
-/
import Quiz.Proofs.Content.Reading
import Quiz.Proofs.Number.NumberText
import Quiz.Proofs.Play.Change

namespace Quiz

/-! ## One option -/

/-- The value is a text or an integer, as an identity is. -/
def Json.isIdentity : Json → Bool
  | .str _ => true
  | .int _ => true
  | _ => false

theorem Read.textOrInteger_ok {j : Json} {id : OptionId} (h : Read.textOrInteger j = .ok id) :
    (∃ s, j = .str s ∧ id = .text s) ∨ ∃ n, Read.integer j = .ok n ∧ id = .number n := by
  unfold Read.textOrInteger at h
  split at h
  · exact Or.inl ⟨_, rfl, (Checked.ok.inj h).symm⟩
  · split at h
    · rename_i n hn
      exact Or.inr ⟨n, hn, (Checked.ok.inj h).symm⟩
    · cases h

theorem Read.integerOfFloat_ok {x : Float} {n : Int} (h : Read.integerOfFloat x = .ok n) :
    ∃ d, Dyadic.ofFloat? x = some d := by
  unfold Read.integerOfFloat at h
  split at h
  · cases h
  · rename_i d hd
    exact ⟨d, hd⟩

/-- A text or an integer is written as its text form is; what else reads as an
integer is not. -/
theorem Read.textOrInteger_shown {j : Json} {id : OptionId} (h : Read.textOrInteger j = .ok id) :
    j.shown = id.key ↔ j.isIdentity = true := by
  rcases Read.textOrInteger_ok h with ⟨s, rfl, rfl⟩ | ⟨n, hn, rfl⟩
  · exact iff_of_true rfl rfl
  · cases j with
    | int m =>
      obtain rfl := Checked.ok.inj hn
      exact iff_of_true rfl rfl
    | bool b =>
      obtain rfl := Checked.ok.inj hn
      refine iff_of_false ?_ Bool.false_ne_true
      cases b <;> decide
    | float x =>
      obtain ⟨d, hd⟩ := Read.integerOfFloat_ok hn
      exact iff_of_false (floatText_ne_toString hd n) Bool.false_ne_true
    | str s => cases h
    | null | arr | obj => cases hn

/-- A position is written as no null is. -/
theorem none_ne_toString (n : Int) : "None" ≠ toString n := by
  intro h
  have hletter : 'N' ∈ (toString n).toList := by
    rw [← h]
    decide
  exact absurd (mem_toString_int hletter) (by decide)

theorem rawIdentity_of_id {fs : Fields} {j : Json} (index : Nat) (h : fs.get? "id" = some j)
    (given : j ≠ .null) : rawIdentity index fs = j := by
  unfold rawIdentity
  rw [h]
  cases j <;> first | rfl | exact absurd rfl given

theorem rawIdentity_of_no_id {fs : Fields} (index : Nat)
    (h : fs.get? "id" = none ∨ fs.get? "id" = some .null) :
    rawIdentity index fs = (fs.get? "value").getD (.int index) := by
  unfold rawIdentity
  rcases h with h | h <;> rw [h]

theorem Choice.readAs_ok {variant : FaceVariant} {fs : Fields} {c : Choice}
    (h : Choice.readAs variant fs = .ok c) :
    fs.nullable Name.id Read.textOrInteger = .ok c.id ∧
      fs.nullable Name.value Read.textOrInteger = .ok c.value := by
  simp only [Choice.readAs, Checked.app_eq_ok, Checked.map_eq_ok] at h
  obtain ⟨_, _, ⟨_, _, ⟨_, _, ⟨_, hid, rfl⟩, hvalue, rfl⟩, -, rfl⟩, -, rfl⟩ := h
  exact ⟨hid, hvalue⟩

/-- The way in which an option is written is the text form of its identity
exactly when it is identified by a text or an integer, or by its position. -/
theorem Choice.written_iff {variant : FaceVariant} {fs : Fields} {c : Choice}
    (h : Choice.readAs variant fs = .ok c) (index : Nat) :
    (rawIdentity index fs).shown = (c.identity index).key ↔
      (rawIdentity index fs).isIdentity = true := by
  obtain ⟨hid, hvalue⟩ := Choice.readAs_ok h
  unfold Choice.identity Choice.ownIdentity?
  rcases Fields.nullable_cases hid with ⟨habsent, hnone⟩ | ⟨j, id, hj, hgiven, hread, hsome⟩
  · rw [rawIdentity_of_no_id index habsent, hnone, Option.none_or]
    rcases Fields.nullable_cases hvalue with
      ⟨hmissing | hnull, hnone⟩ | ⟨j, id, hj, -, hread, hsome⟩
    · rw [hmissing, hnone]
      exact iff_of_true rfl rfl
    · rw [hnull, hnone]
      exact iff_of_false (none_ne_toString index) Bool.false_ne_true
    · rw [hj, hsome]
      exact Read.textOrInteger_shown hread
  · rw [rawIdentity_of_id index hj hgiven, hsome]
    exact Read.textOrInteger_shown hread

/-! ## All options of a selection -/

/-- What raw options are compared by, the first of them at position `index`. -/
def writtenKeys (index : Nat) : List Json → List String
  | [] => []
  | .obj option :: rest => (rawIdentity index option).shown :: writtenKeys (index + 1) rest
  | _ :: rest => writtenKeys (index + 1) rest

/-- The text forms of the identities of all options, displayed or not. -/
def Selection.identityKeys (s : Selection) : List String :=
  s.options.mapIdx fun i c => (c.identity i).key

/-- A raw option is identified by a text or an integer, or by its position. -/
def IdentifiedPlainly (option : Json) : Prop :=
  ∀ fs, option = .obj fs → (rawIdentity 0 fs).isIdentity = true

theorem isIdentity_rawIdentity (index : Nat) (fs : Fields) :
    (rawIdentity index fs).isIdentity = (rawIdentity 0 fs).isIdentity := by
  unfold rawIdentity
  split
  · cases fs.get? "value" <;> rfl
  · cases fs.get? "value" <;> rfl
  · rfl

/-- The walk through raw options finds no identity twice when they are written
in different ways, none of them seen before. -/
theorem repeatedIdentity?_eq_none {seen : List String} {index : Nat} {options : List Json} :
    repeatedIdentity? seen index options = none ↔
      (writtenKeys index options).Nodup ∧ ∀ key ∈ writtenKeys index options, key ∉ seen := by
  induction options generalizing seen index with
  | nil => simp [repeatedIdentity?, writtenKeys]
  | cons option rest ih =>
    cases option with
    | obj fs =>
      rw [repeatedIdentity?, writtenKeys]
      by_cases hseen : (rawIdentity index fs).shown ∈ seen
      · rw [if_pos (List.contains_iff_mem.mpr hseen)]
        refine iff_of_false (Option.some_ne_none _) ?_
        rintro ⟨-, hfresh⟩
        exact hfresh _ List.mem_cons_self hseen
      · rw [if_neg (mt List.contains_iff_mem.mp hseen), ih, List.nodup_cons]
        constructor
        · rintro ⟨hnodup, hfresh⟩
          refine ⟨⟨fun hmem => hfresh _ hmem List.mem_cons_self, hnodup⟩, ?_⟩
          intro key hkey
          rcases List.mem_cons.mp hkey with rfl | hrest
          · exact hseen
          · exact fun hold => hfresh key hrest (List.mem_cons_of_mem _ hold)
        · rintro ⟨⟨hfirst, hnodup⟩, hfresh⟩
          refine ⟨hnodup, fun key hkey hmem => ?_⟩
          rcases List.mem_cons.mp hmem with rfl | hold
          · exact hfirst hkey
          · exact hfresh key (List.mem_cons_of_mem _ hkey) hold
    | _ => exact ih

/-- Options are compared by the text forms of their identities exactly when
all of them are identified plainly. -/
theorem writtenKeys_eq_iff {options : List Json} {choices : List Choice}
    (h : List.Forall₂ (fun option c => Choice.read option = .ok c) options choices) (index : Nat) :
    (writtenKeys index options = choices.mapIdx fun i c => (c.identity (index + i : Nat)).key) ↔
      ∀ option ∈ options, IdentifiedPlainly option := by
  induction h generalizing index with
  | nil => exact iff_of_true rfl fun _ hmem => nomatch hmem
  | @cons option c options choices first _ ih =>
    obtain ⟨variant, fs, rfl, hread⟩ := readTagged_ok first
    -- The positions of the rest count from the next one on.
    have hnext : (choices.mapIdx fun i c => (c.identity (index + (i + 1) : Nat)).key) =
        choices.mapIdx fun i c => (c.identity (index + 1 + i : Nat)).key := by
      simp only [Nat.add_right_comm, Nat.add_assoc]
    rw [writtenKeys, List.mapIdx_cons, hnext, List.cons.injEq, ih (index + 1), Nat.add_zero,
      Choice.written_iff hread index, isIdentity_rawIdentity, List.forall_mem_cons]
    refine and_congr_left fun _ => ⟨?_, ?_⟩
    · intro hplain fs' heq
      rwa [← Json.obj.inj heq]
    · intro hplain
      exact hplain fs rfl

/-! ## Screens -/

theorem rawOptions_selection {around : Surroundings} {room : Nat} {raw : Json} {s : Selection}
    (h : Item.readWithin around room raw = .ok (.selection s)) :
    List.Forall₂ (fun option c => Choice.read option = .ok c) (rawOptions raw) s.options := by
  have htype : raw.hasText "type" "selection" = true := (Item.hasText_type h .selection).mpr rfl
  obtain ⟨fs, rfl, hread⟩ := Item.readWithin_selection h
  rw [rawOptions, if_pos htype]
  exact Selection.options_read hread

theorem rawOptions_of_no_selection {around : Surroundings} {room : Nat} {raw : Json} {item : Item}
    (h : Item.readWithin around room raw = .ok item) (other : item.selection? = none) :
    rawOptions raw = [] := by
  have htype : ¬ raw.hasText "type" "selection" = true := by
    intro hselection
    have htype := (Item.hasText_type h .selection).mp hselection
    cases item with
    | selection s => cases other
    | _ => cases htype
  rw [rawOptions, if_neg htype]

theorem duplicateOption?_eq_none {raw : Json} :
    duplicateOption? raw = none ↔ (writtenKeys 0 (rawOptions raw)).Nodup := by
  rw [duplicateOption?, repeatedIdentity?_eq_none]
  exact and_iff_left fun _ _ => List.not_mem_nil

/-- Among items that read the only fault is that options of one are written
alike. -/
theorem firstItemFault?_cases (start : Nat) {content : List Json}
    (items : ∀ raw ∈ content, ∃ item, Item.validate raw = .ok item) :
    (firstItemFault? start content = none ∧
        ∀ raw ∈ content, (writtenKeys 0 (rawOptions raw)).Nodup) ∨
      ∃ n identity, firstItemFault? start content = some (.duplicateOption n identity) ∧
        ∃ raw ∈ content, ¬ (writtenKeys 0 (rawOptions raw)).Nodup := by
  induction content generalizing start with
  | nil => exact Or.inl ⟨rfl, fun _ hmem => nomatch hmem⟩
  | cons raw rest ih =>
    obtain ⟨item, hitem⟩ := items raw List.mem_cons_self
    have hfault : itemFault? start raw = (duplicateOption? raw).map (.duplicateOption start) := by
      rw [itemFault?, hitem]
    rw [firstItemFault?, hfault]
    cases hd : duplicateOption? raw with
    | some identity =>
      refine Or.inr ⟨start, identity, rfl, raw, List.mem_cons_self, fun hnodup => ?_⟩
      rw [duplicateOption?_eq_none.mpr hnodup] at hd
      cases hd
    | none =>
      rcases ih (start + 1) (fun raw hraw => items raw (List.mem_cons_of_mem _ hraw)) with
        ⟨hnone, hrest⟩ | ⟨n, identity, hsome, twice, htwice, hwritten⟩
      · exact Or.inl ⟨hnone, List.forall_mem_cons.mpr ⟨duplicateOption?_eq_none.mp hd, hrest⟩⟩
      · exact Or.inr ⟨n, identity, hsome, twice, List.mem_cons_of_mem _ htwice, hwritten⟩

/-- The document is that of a screen which nothing speaks against, apart from
its options perhaps: form, depth, items and fields are sound. -/
structure SoundOtherwise (maxDepth : Int) (value : Json) (content : List Json) (screen : Screen) :
    Prop where
  frame : ∃ fs id, screenFrame maxDepth value = .ok (fs, id, content)
  items : ∀ raw ∈ content, ∃ item, Item.validate raw = .ok item
  read : Screen.read value = .ok screen

/-- The screen is refused because two options have one identity. -/
def RefusedForOptions (context : String) (maxDepth : Int) (value : Json) : Prop :=
  ∃ n identity, Screen.validate context maxDepth value = .error (.duplicateOption n identity)

section Sound

variable {context : String} {maxDepth : Int} {value : Json} {content : List Json} {screen : Screen}

/-- A screen that is sound otherwise is refused for its options exactly when
two options of one selection are written alike. -/
theorem refusedForOptions_iff (sound : SoundOtherwise maxDepth value content screen) :
    RefusedForOptions context maxDepth value ↔
      ∃ raw ∈ content, ¬ (writtenKeys 0 (rawOptions raw)).Nodup := by
  obtain ⟨fs, id, hframe⟩ := sound.frame
  unfold RefusedForOptions Screen.validate
  rw [hframe]
  dsimp only
  rcases firstItemFault?_cases 0 sound.items with ⟨hnone, hall⟩ | ⟨n, identity, hsome, htwice⟩
  · rw [hnone, sound.read]
    refine iff_of_false ?_ ?_
    · rintro ⟨n, identity, h⟩
      cases h
    · rintro ⟨raw, hraw, htwice⟩
      exact htwice (hall raw hraw)
  · rw [hsome]
    exact iff_of_true ⟨n, identity, rfl⟩ htwice

/-- Where options are identified plainly, some are written alike exactly when
the identities of a selection have a text form twice. -/
theorem written_alike_iff
    (content_read : List.Forall₂
      (fun raw item => Item.readWithin .screen Screen.room raw = .ok item) content screen.content)
    (plain : ∀ raw ∈ content, ∀ option ∈ rawOptions raw, IdentifiedPlainly option) :
    (∃ raw ∈ content, ¬ (writtenKeys 0 (rawOptions raw)).Nodup) ↔
      ∃ selection, Item.selection selection ∈ screen.content ∧ ¬ selection.identityKeys.Nodup := by
  have hkeys {raw : Json} {selection : Selection} (hraw : raw ∈ content)
      (h : Item.readWithin .screen Screen.room raw = .ok (.selection selection)) :
      writtenKeys 0 (rawOptions raw) = selection.identityKeys := by
    have hwritten := (writtenKeys_eq_iff (rawOptions_selection h) 0).mpr (plain raw hraw)
    rw [hwritten, Selection.identityKeys]
    simp only [Nat.zero_add]
  constructor
  · rintro ⟨raw, hraw, htwice⟩
    obtain ⟨item, hitem, hread⟩ := exists_of_forall₂ content_read hraw
    cases hs : item.selection? with
    | none =>
      rw [rawOptions_of_no_selection hread hs] at htwice
      exact absurd List.nodup_nil htwice
    | some selection =>
      rw [Item.selection?_eq_some] at hs
      subst hs
      exact ⟨selection, hitem, hkeys hraw hread ▸ htwice⟩
  · rintro ⟨selection, hmem, htwice⟩
    obtain ⟨raw, hraw, hread⟩ := exists_of_forall₂ content_read.flip hmem
    exact ⟨raw, hraw, (hkeys hraw hread).symm ▸ htwice⟩

/-- What is refused for the options of a screen that is sound otherwise: two
options of one selection that are written alike. Where all options are
identified plainly, that is two options of one selection with one identity. -/
theorem duplicate_refused_iff (sound : SoundOtherwise maxDepth value content screen) :
    (RefusedForOptions context maxDepth value ↔
        ∃ raw ∈ content, ¬ (writtenKeys 0 (rawOptions raw)).Nodup) ∧
      ((∀ raw ∈ content, ∀ option ∈ rawOptions raw, IdentifiedPlainly option) →
        (RefusedForOptions context maxDepth value ↔
          ∃ selection, Item.selection selection ∈ screen.content ∧
            ¬ selection.identityKeys.Nodup)) := by
  have hrefused : RefusedForOptions context maxDepth value ↔ _ := refusedForOptions_iff sound
  refine ⟨hrefused, fun plain => hrefused.trans ?_⟩
  obtain ⟨fs, id, hframe⟩ := sound.frame
  exact written_alike_iff (Screen.content_read hframe sound.read) plain

theorem firstItemFault?_eq_none {start : Nat} (h : firstItemFault? start content = none) :
    ∀ raw ∈ content, (∃ item, Item.validate raw = .ok item) ∧ duplicateOption? raw = none := by
  induction content generalizing start with
  | nil => exact fun _ hmem => nomatch hmem
  | cons raw rest ih =>
    rw [firstItemFault?, Option.or_eq_none_iff] at h
    refine List.forall_mem_cons.mpr ⟨?_, ih h.2⟩
    have hfirst := h.1
    unfold itemFault? at hfirst
    split at hfirst
    · cases hfirst
    · rename_i item hitem
      exact ⟨⟨item, hitem⟩, Option.map_eq_none_iff.mp hfirst⟩

/-- In an accepted screen whose options are identified plainly, the text forms
of the identities in a selection are distinct. -/
theorem identityKeys_nodup_of_validate {ws : List Warning}
    (h : Screen.validate context maxDepth value = .ok (screen, ws))
    (plain : ∀ fs id content, screenFrame maxDepth value = .ok (fs, id, content) →
      ∀ raw ∈ content, ∀ option ∈ rawOptions raw, IdentifiedPlainly option)
    {selection : Selection} (hmem : Item.selection selection ∈ screen.content) :
    selection.identityKeys.Nodup := by
  obtain ⟨fs, id, content, hframe, hfaultless, hread⟩ := Screen.validate_eq_ok h
  have halike := written_alike_iff (Screen.content_read hframe hread) (plain fs id content hframe)
  by_contra htwice
  obtain ⟨raw, hraw, hwritten⟩ := halike.mpr ⟨selection, hmem, htwice⟩
  exact hwritten (duplicateOption?_eq_none.mp (firstItemFault?_eq_none hfaultless raw hraw).2)

/-- What can be computed of `SoundOtherwise`, with a test of what was found. -/
def soundOtherwise (maxDepth : Int) (value : Json) (test : List Json → Screen → Bool) : Bool :=
  match screenFrame maxDepth value, Screen.read value with
  | .ok (_, _, content), .ok screen =>
    content.all (fun raw => (Item.validate raw).toOption.isSome) && test content screen
  | _, _ => false

theorem exists_soundOtherwise {test : List Json → Screen → Bool}
    (h : soundOtherwise maxDepth value test = true) :
    ∃ content screen, SoundOtherwise maxDepth value content screen ∧
      test content screen = true := by
  unfold soundOtherwise at h
  split at h
  · rename_i fs id content screen hframe hread
    obtain ⟨hitems, htest⟩ := Bool.and_eq_true_iff.mp h
    refine ⟨content, screen, ⟨⟨fs, id, hframe⟩, fun raw hraw => ?_, hread⟩, htest⟩
    have hitem := List.all_eq_true.mp hitems raw hraw
    cases hv : Item.validate raw with
    | ok item => exact ⟨item, rfl⟩
    | error fault =>
      rw [hv] at hitem
      cases hitem
  · cases h

/-- The text forms of the identities in each selection of the screen are
distinct. -/
def Screen.tellsOptionsApart (screen : Screen) : Bool :=
  screen.content.all fun item => item.selection?.all fun s => decide s.identityKeys.Nodup

theorem Screen.tellsOptionsApart_iff :
    screen.tellsOptionsApart = true ↔
      ∀ selection, Item.selection selection ∈ screen.content → selection.identityKeys.Nodup := by
  unfold Screen.tellsOptionsApart
  rw [List.all_eq_true]
  constructor
  · intro h selection hmem
    simpa [Item.selection?] using h _ hmem
  · intro h item hmem
    cases item with
    | selection s => simpa [Item.selection?] using h s hmem
    | _ => rfl

end Sound

/-- A document of a screen with two options, identified by the given fields. -/
def twoOptions (first second : Fields) : Json :=
  .obj
    [("id", .str "pick"),
     ("content", .arr
      [.obj
        [("type", .str "selection"),
         ("options", .arr
          [.obj ([("variant", .str "flat"), ("text", .str "A")] ++ first),
           .obj ([("variant", .str "flat"), ("text", .str "B")] ++ second)])]])]

/-- Options with the id `1` and with the value `"1"`. -/
theorem duplicate_refused_text_integer :
    ∃ content screen,
      SoundOtherwise defaultMaxDepth (twoOptions [("id", .int 1)] [("value", .str "1")]) content
        screen ∧
      (RefusedForOptions "" defaultMaxDepth (twoOptions [("id", .int 1)] [("value", .str "1")]) ↔
        ∃ raw ∈ content, ¬ (writtenKeys 0 (rawOptions raw)).Nodup) ∧
      ((∀ raw ∈ content, ∀ option ∈ rawOptions raw, IdentifiedPlainly option) →
        (RefusedForOptions "" defaultMaxDepth (twoOptions [("id", .int 1)] [("value", .str "1")]) ↔
          ∃ selection, Item.selection selection ∈ screen.content ∧
            ¬ selection.identityKeys.Nodup)) := by
  have h : soundOtherwise defaultMaxDepth (twoOptions [("id", .int 1)] [("value", .str "1")])
      (fun _ _ => true) = true := by
    decide +kernel
  obtain ⟨content, screen, hsound, -⟩ := exists_soundOtherwise h
  exact ⟨content, screen, hsound, duplicate_refused_iff hsound⟩

/-- Two options with an explicit null are refused although their positions tell
them apart; two options whose ids `true` and `1` are read as one identity are
accepted. -/
theorem identities_misjudged :
    (∃ content screen,
      SoundOtherwise defaultMaxDepth (twoOptions [("value", .null)] [("value", .null)]) content
        screen ∧
      RefusedForOptions "" defaultMaxDepth (twoOptions [("value", .null)] [("value", .null)]) ∧
      ∀ selection, Item.selection selection ∈ screen.content → selection.identityKeys.Nodup) ∧
    ∃ screen ws,
      Screen.validate "" defaultMaxDepth (twoOptions [("id", .bool true)] [("id", .int 1)]) =
        .ok (screen, ws) ∧
      ¬ ∀ selection, Item.selection selection ∈ screen.content →
        selection.identityKeys.Nodup := by
  constructor
  · have h : soundOtherwise defaultMaxDepth (twoOptions [("value", .null)] [("value", .null)])
        (fun content screen =>
          content.any (fun raw => !decide (writtenKeys 0 (rawOptions raw)).Nodup) &&
            screen.tellsOptionsApart) = true := by
      decide +kernel
    obtain ⟨content, screen, hsound, htest⟩ := exists_soundOtherwise h
    obtain ⟨htwice, hdistinct⟩ := Bool.and_eq_true_iff.mp htest
    refine ⟨content, screen, hsound, (refusedForOptions_iff hsound).mpr ?_,
      Screen.tellsOptionsApart_iff.mp hdistinct⟩
    simpa using htwice
  · have h : (Screen.validate "" defaultMaxDepth
        (twoOptions [("id", .bool true)] [("id", .int 1)])).toOption.any
          (fun found => !found.1.tellsOptionsApart) = true := by
      decide +kernel
    obtain ⟨⟨screen, ws⟩, hvalid, htest⟩ := Except.any_toOption.mp h
    refine ⟨screen, ws, hvalid, fun hdistinct => ?_⟩
    rw [Screen.tellsOptionsApart_iff.mpr hdistinct] at htest
    cases htest

end Quiz
