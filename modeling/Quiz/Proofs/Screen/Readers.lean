/-
Quiz.Proofs.Screen.Readers — the strict and the lenient reader of screens
agree.

They take different ways. The strict reader tries each item by itself and then
reads the screen as a whole, items included; the lenient one puts the items
that it could read by themselves into a screen that it reads without them. An
item that is taken by itself counts as deeper than one in a screen does, so
what reads there reads in the screen as well, as the same item.

* `Item.readWithin_screen` — an item that reads in some surroundings reads in
  a screen with as much room.
* `readableItems_eq` — what the lenient reader keeps, and what it warns of.
* `firstItemFault?_of_first` — the strict reader complains about the first item
  that is not sound.
* `readers_agree` — where the two agree, and what sets them apart.
-/
import Quiz.Proofs.Content.RoundTrip
import Quiz.Proofs.Screen.OptionIdentity

namespace Quiz

/-! ## Items in a screen -/

theorem Item.readEach_of_forall₂ {around : Surroundings} {room : Nat} {js : List Json}
    {items : List Item}
    (h : List.Forall₂ (fun j item => Item.readWithin around room j = .ok item) js items)
    (start : Nat) : Item.readEach around room start js = .ok items := by
  induction h generalizing start with
  | nil => rw [Item.readEach]
  | cons first _ ih =>
    rw [Item.readEach, first, ih (start + 1)]
    rfl

theorem Item.readField_of_forall₂ {around : Surroundings} {room : Nat} {key : String} {fs : Fields}
    {js : List Json} {items : List Item} (hjs : fs.get? key = some (.arr js))
    (h : List.Forall₂ (fun j item => Item.readWithin around room j = .ok item) js items) :
    Item.readField around room key fs = .ok items := by
  rw [Item.readField_eq, hjs, Option.map_some, Option.getD_some, Item.readList,
    Item.readEach_of_forall₂ h 0]
  rfl

/-- The items of a field are the same elsewhere if each of them is. -/
theorem Item.readField_congr {around other : Surroundings} {room otherRoom : Nat} {key : String}
    {fs : Fields} {items : List Item} (h : Item.readField around room key fs = .ok items)
    (each : ∀ item ∈ items, ∀ j, Item.readWithin around room j = .ok item →
      Item.readWithin other otherRoom j = .ok item) :
    Item.readField other otherRoom key fs = .ok items := by
  cases hget : fs.get? key with
  | none =>
    rw [Item.readField_eq, hget] at h ⊢
    exact h
  | some j =>
    cases j with
    | arr js =>
      have hmem := (List.forall₂_and_left items js).mpr
        ⟨fun item hitem => hitem, (Item.readField_ok h hget).flip⟩
      exact Item.readField_of_forall₂ hget
        (hmem.flip.imp fun j item ⟨hitem, hread⟩ => each item hitem j hread)
    | _ =>
      rw [Item.readField_eq, hget] at h
      simp [Item.readList, Checked.fail, Checked.under] at h

/-- What reads in some surroundings reads in a screen with as much room, where
every item takes up the least. -/
theorem Item.readWithin_screen {around : Surroundings} {room screenRoom : Nat} {j : Json}
    {item : Item} (h : Item.readWithin around room j = .ok item) (hroom : room ≤ screenRoom) :
    Item.readWithin .screen screenRoom j = .ok item := by
  -- the items inside are read where they lie, so surroundings and room vary with them
  induction item using Item.child_induction generalizing around room screenRoom j with
  | step item ih =>
    obtain ⟨fs, rfl, -⟩ := Item.readWithin_type h
    refine Item.readWithin_eq_ok.mpr ?_
    cases Item.readWithin_eq_ok.mp h with
    | single fits named read => exact .single (Nat.le_trans fits hroom) named read
    | carousel type fits named read =>
      have hsteps : Surroundings.screen.carouselSteps ≤ around.carouselSteps := by
        cases around <;> decide
      obtain ⟨c, items, rfl, hitems, -⟩ := Carousel.readAround_ok read
      have hinside : Item.readField .screen (screenRoom - Surroundings.screen.carouselSteps)
          "items" fs = .ok items :=
        Item.readField_congr hitems fun inner hinner j hread => ih inner hinner hread (by omega)
      refine .carousel type (by omega) named ?_
      rw [hinside, ← hitems]
      exact read
    | @container content variant fits named read =>
      have hsteps : Surroundings.screen.containerSteps ≤ around.containerSteps := by
        cases around <;> decide
      exact .container variant (by omega) named
        (Item.readField_congr read fun inner hinner j hread => ih inner hinner hread (by omega))

/-- An item that reads by itself reads in a screen. -/
theorem Item.readWithin_of_validate {raw : Json} {item : Item} (h : Item.validate raw = .ok item) :
    Item.readWithin .screen Screen.room raw = .ok item :=
  Item.readWithin_screen (Item.validate_ok h) (Nat.le_refl _)

/-! ## What the lenient reader keeps -/

/-- The warning about a raw item at a position, if it does not read. -/
def skipped? (screen : String) (index : Nat) (raw : Json) : Option Warning :=
  match Item.validate raw with
  | .ok _ => none
  | .error fault => some (.skipped screen index fault)

theorem readableItems_eq (screen : String) (index : Nat) (content : List Json) :
    readableItems screen index content =
      (content.filterMap fun raw => (Item.validate raw).toOption,
        (content.zipIdx index).filterMap fun (raw, i) => skipped? screen i raw) := by
  induction content generalizing index with
  | nil => rfl
  | cons raw rest ih =>
    rw [readableItems, ih (index + 1), List.zipIdx_cons]
    cases hv : Item.validate raw <;> simp [skipped?, hv, Except.toOption]

/-- Where every item reads, all are kept and there is nothing to warn of. -/
theorem readableItems_of_readable (screen : String) (index : Nat) {content : List Json}
    (h : ∀ raw ∈ content, ∃ item, Item.validate raw = .ok item) :
    ∃ items, readableItems screen index content = (items, []) ∧
      List.Forall₂ (fun raw item => Item.validate raw = .ok item) content items := by
  induction content generalizing index with
  | nil => exact ⟨[], rfl, .nil⟩
  | cons raw rest ih =>
    obtain ⟨⟨item, hitem⟩, hrest⟩ := List.forall_mem_cons.mp h
    obtain ⟨items, heq, hitems⟩ := ih (index + 1) hrest
    exact ⟨item :: items, by simp [readableItems, heq, hitem], .cons hitem hitems⟩

/-- Where no warning is given, every item reads. -/
theorem readable_of_readableItems {screen : String} {index : Nat} {content : List Json}
    (h : (readableItems screen index content).2 = []) :
    ∀ raw ∈ content, ∃ item, Item.validate raw = .ok item := by
  induction content generalizing index with
  | nil => exact fun _ hmem => nomatch hmem
  | cons raw rest ih =>
    rw [readableItems] at h
    cases hv : Item.validate raw with
    | error fault => simp [hv] at h
    | ok item =>
      rw [hv] at h
      exact List.forall_mem_cons.mpr ⟨⟨item, hv⟩, ih h⟩

/-! ## What the strict reader complains about -/

/-- The raw item reads, and its options are told apart. -/
def SoundItem (raw : Json) : Prop :=
  (∃ item, Item.validate raw = .ok item) ∧ duplicateOption? raw = none

theorem itemFault?_eq_none (index : Nat) {raw : Json} :
    itemFault? index raw = none ↔ SoundItem raw := by
  unfold itemFault? SoundItem
  cases Item.validate raw <;> simp

theorem firstItemFault?_of_sound (start : Nat) {content : List Json}
    (h : ∀ raw ∈ content, SoundItem raw) : firstItemFault? start content = none := by
  induction content generalizing start with
  | nil => rfl
  | cons raw rest ih =>
    obtain ⟨hraw, hrest⟩ := List.forall_mem_cons.mp h
    rw [firstItemFault?, (itemFault?_eq_none start).mpr hraw, ih (start + 1) hrest]
    rfl

/-- Position `i` has the first item that is not sound. -/
structure FirstUnsound (content : List Json) (i : Nat) (raw : Json) : Prop where
  item : content[i]? = some raw
  unsound : ¬ SoundItem raw
  before : ∀ j < i, ∀ raw', content[j]? = some raw' → SoundItem raw'

theorem firstItemFault?_of_first {content : List Json} {i : Nat} {raw : Json}
    (h : FirstUnsound content i raw) (start : Nat) :
    firstItemFault? start content = itemFault? (start + i) raw := by
  induction content generalizing i start with
  | nil => cases h.item
  | cons first rest ih =>
    rw [firstItemFault?]
    cases i with
    | zero =>
      obtain rfl := Option.some.inj h.item
      obtain ⟨fault, hfault⟩ := Option.ne_none_iff_exists'.mp
        (mt (itemFault?_eq_none start).mp h.unsound)
      rw [hfault, Option.some_or, Nat.add_zero, hfault]
    | succ i =>
      have hfirst : SoundItem first := h.before 0 (Nat.zero_lt_succ i) first rfl
      have hrest : FirstUnsound rest i raw :=
        ⟨h.item, h.unsound, fun j hj raw' hraw' =>
          h.before (j + 1) (Nat.succ_lt_succ hj) raw' hraw'⟩
      rw [(itemFault?_eq_none start).mpr hfirst, Option.none_or, ih hrest (start + 1),
        Nat.add_right_comm, Nat.add_assoc]

/-- A fault of an item is worded with the position of the item in front. -/
theorem message_of_itemFault? {index : Nat} {raw : Json} {fault : ScreenFault}
    (h : itemFault? index raw = some fault) (context : String) :
    ∃ text, fault.message context = inContext context (contentPlace index ++ ": " ++ text) := by
  unfold itemFault? at h
  split at h
  · obtain rfl := Option.some.inj h
    exact ⟨_, rfl⟩
  · obtain ⟨identity, -, rfl⟩ := Option.map_eq_some_iff.mp h
    have hcut : ": duplicate option id " = ": " ++ "duplicate option id " := rfl
    refine ⟨"duplicate option id " ++ identity.quoted, ?_⟩
    rw [ScreenFault.message, hcut]
    simp only [String.append_assoc]

/-! ## Two readings of a screen -/

section Readers

variable {context : String} {maxDepth : Int} {value : Json} {fs : Fields} {id : String}
  {content : List Json}

/-- Items that read one by one are the items of the screen that is read as a
whole. -/
theorem Screen.read_of_items (frame : screenFrame maxDepth value = .ok (fs, id, content))
    {items : List Item}
    (h : List.Forall₂ (fun raw item => Item.validate raw = .ok item) content items) :
    Screen.read value = fs.ifNamed (Screen.readAround fs (.ok items)) := by
  obtain ⟨rfl, hcontent⟩ := screenFrame_ok frame
  have hitems : Item.readField .screen Screen.room "content" fs = .ok items :=
    Item.readField_of_forall₂ hcontent (h.imp fun _ _ => Item.readWithin_of_validate)
  rw [← hitems]
  rfl

/-- Where every item reads, the lenient reader reads the screen as a whole. -/
theorem Screen.readLenient_of_readable (frame : screenFrame maxDepth value = .ok (fs, id, content))
    (h : ∀ raw ∈ content, ∃ item, Item.validate raw = .ok item) :
    Screen.readLenient maxDepth value =
      match Screen.read value with
      | .ok screen => .ok (screen, [])
      | .bad issue _ => .error (.looseField issue.cause) := by
  obtain ⟨items, heq, hitems⟩ := readableItems_of_readable id 0 h
  rw [Screen.read_of_items frame hitems]
  cases hread : fs.ifNamed (Screen.readAround fs (.ok items)) with
  | ok screen => simp only [Screen.readLenient, frame, heq, hread]
  | bad issue more => simp only [Screen.readLenient, frame, heq, hread]

/-- What the lenient reader returns holds the items that read, and it warns of
each other one. -/
theorem Screen.readLenient_ok {screen : Screen} {ws : List Warning}
    (h : Screen.readLenient maxDepth value = .ok (screen, ws)) :
    ∃ fs id content, screenFrame maxDepth value = .ok (fs, id, content) ∧
      screen.content = content.filterMap (fun raw => (Item.validate raw).toOption) ∧
      ws = content.zipIdx.filterMap fun (raw, i) => skipped? id i raw := by
  unfold Screen.readLenient at h
  split at h
  · cases h
  · rename_i fs id content hframe
    rw [readableItems_eq] at h
    dsimp only at h
    split at h
    · rename_i found hfound
      obtain ⟨rfl, rfl⟩ := Prod.mk.inj (Except.ok.inj h)
      have hcontent := Screen.readAround_content (Fields.ifNamed_ok hfound)
      exact ⟨fs, id, content, hframe, (Checked.ok.inj hcontent).symm, rfl⟩
    · cases h

/-- What the strict reader accepts, the lenient one reads as it is, and warns of
nothing. -/
theorem Screen.readLenient_of_validate {screen : Screen} {ws : List Warning}
    (h : Screen.validate context maxDepth value = .ok (screen, ws)) :
    Screen.readLenient maxDepth value = .ok (screen, []) := by
  obtain ⟨fs, id, content, hframe, hfaultless, hread⟩ := Screen.validate_eq_ok h
  rw [Screen.readLenient_of_readable hframe
    fun raw hraw => (firstItemFault?_eq_none hfaultless raw hraw).1, hread]

/-- Where every item is sound, the strict reader accepts what the lenient one
reads. -/
theorem Screen.validate_of_sound (context : String)
    (frame : screenFrame maxDepth value = .ok (fs, id, content))
    (sound : ∀ raw ∈ content, SoundItem raw) {screen : Screen} {ws : List Warning}
    (h : Screen.readLenient maxDepth value = .ok (screen, ws)) :
    ∃ ws', Screen.validate context maxDepth value = .ok (screen, ws') := by
  rw [Screen.readLenient_of_readable frame fun raw hraw => (sound raw hraw).1] at h
  unfold Screen.validate
  rw [frame]
  dsimp only
  rw [firstItemFault?_of_sound 0 sound]
  cases hread : Screen.read value with
  | ok found =>
    rw [hread] at h
    obtain ⟨rfl, -⟩ := Prod.mk.inj (Except.ok.inj h)
    exact ⟨_, rfl⟩
  | bad issue more =>
    rw [hread] at h
    cases h

/-- The strict reader refuses a document for the first item that is not
sound. -/
theorem Screen.validate_of_first (context : String)
    (frame : screenFrame maxDepth value = .ok (fs, id, content))
    {i : Nat} {raw : Json} (first : FirstUnsound content i raw) :
    ∃ fault, itemFault? i raw = some fault ∧
      Screen.validate context maxDepth value = .error fault := by
  obtain ⟨fault, hfault⟩ := Option.ne_none_iff_exists'.mp
    (mt (itemFault?_eq_none i).mp first.unsound)
  refine ⟨fault, hfault, ?_⟩
  unfold Screen.validate
  rw [frame]
  dsimp only
  rw [firstItemFault?_of_first first 0, Nat.zero_add, hfault]

/-- The strict reader refuses a document when the lenient one does or skips
something in it, or when options of an item are not told apart. -/
theorem Screen.validate_fails_iff :
    (∃ fault, Screen.validate context maxDepth value = .error fault) ↔
      (∃ fault, Screen.readLenient maxDepth value = .error fault) ∨
      (∃ screen ws, Screen.readLenient maxDepth value = .ok (screen, ws) ∧ ws ≠ []) ∨
      ∃ fs id content, screenFrame maxDepth value = .ok (fs, id, content) ∧
        ∃ raw ∈ content, duplicateOption? raw ≠ none := by
  constructor
  · rintro ⟨fault, hrefused⟩
    cases hlenient : Screen.readLenient maxDepth value with
    | error other => exact Or.inl ⟨other, rfl⟩
    | ok found =>
      obtain ⟨screen, ws⟩ := found
      obtain ⟨fs, id, content, hframe, -, rfl⟩ := Screen.readLenient_ok hlenient
      refine Or.inr ?_
      by_contra hfaultless
      push Not at hfaultless
      obtain ⟨hquiet, hapart⟩ := hfaultless
      have hwarned := congrArg Prod.snd (readableItems_eq id 0 content)
      have hread := readable_of_readableItems (hwarned.trans (hquiet screen _ rfl))
      obtain ⟨ws', haccepted⟩ := Screen.validate_of_sound context hframe
        (fun raw hraw => ⟨hread raw hraw, hapart fs id content hframe raw hraw⟩) hlenient
      rw [haccepted] at hrefused
      cases hrefused
  · intro h
    cases hstrict : Screen.validate context maxDepth value with
    | error fault => exact ⟨fault, rfl⟩
    | ok found =>
      obtain ⟨screen, ws⟩ := found
      have hlenient := Screen.readLenient_of_validate hstrict
      obtain ⟨fs, id, content, hframe, hfaultless, -⟩ := Screen.validate_eq_ok hstrict
      rcases h with ⟨fault, hfails⟩ | ⟨screen', ws', hskips, hws⟩ |
        ⟨fs', id', content', hframe', raw, hraw, htwice⟩
      · rw [hlenient] at hfails
        cases hfails
      · rw [hlenient] at hskips
        exact absurd (Prod.mk.inj (Except.ok.inj hskips)).2.symm hws
      · rw [hframe] at hframe'
        obtain ⟨-, -, rfl⟩ := Except.ok.inj hframe'
        exact absurd (firstItemFault?_eq_none hfaultless raw hraw).2 htwice

end Readers

/-- What the strict reader accepts, the lenient one reads as the same screen,
without a warning. What the lenient one reads holds the items that read by
themselves, in order, and a warning is given for each other one. The strict one
refuses exactly what the lenient one refuses or skips something in, and what
has options that are not told apart. When it refuses a document because of its
items, the first one that is not sound is named. -/
theorem readers_agree (context : String) (maxDepth : Int) (value : Json) :
    (∀ screen ws, Screen.validate context maxDepth value = .ok (screen, ws) →
      Screen.readLenient maxDepth value = .ok (screen, [])) ∧
    (∀ screen ws, Screen.readLenient maxDepth value = .ok (screen, ws) →
      ∃ fs id content, screenFrame maxDepth value = .ok (fs, id, content) ∧
        screen.content = content.filterMap (fun raw => (Item.validate raw).toOption) ∧
        ws = content.zipIdx.filterMap fun (raw, i) => skipped? id i raw) ∧
    ((∃ fault, Screen.validate context maxDepth value = .error fault) ↔
      (∃ fault, Screen.readLenient maxDepth value = .error fault) ∨
      (∃ screen ws, Screen.readLenient maxDepth value = .ok (screen, ws) ∧ ws ≠ []) ∨
      ∃ fs id content, screenFrame maxDepth value = .ok (fs, id, content) ∧
        ∃ raw ∈ content, duplicateOption? raw ≠ none) ∧
    ∀ fs id content i raw, screenFrame maxDepth value = .ok (fs, id, content) →
      FirstUnsound content i raw →
      ∃ fault text, itemFault? i raw = some fault ∧
        Screen.validate context maxDepth value = .error fault ∧
        fault.message context = inContext context (contentPlace i ++ ": " ++ text) := by
  refine ⟨fun screen ws => Screen.readLenient_of_validate, fun screen ws => Screen.readLenient_ok,
    Screen.validate_fails_iff, ?_⟩
  intro fs id content i raw frame first
  obtain ⟨fault, hfault, hrefused⟩ := Screen.validate_of_first context frame first
  obtain ⟨text, htext⟩ := message_of_itemFault? hfault context
  exact ⟨fault, text, hfault, hrefused, htext⟩

/-- Raw items: a heading, one of no known type, and a selection with two options
of one id. -/
def mixedItems : List Json :=
  [.obj [("type", .str "heading"), ("content", .str "T")],
   .obj [("type", .str "video")],
   .obj
    [("type", .str "selection"),
     ("options", .arr
      [.obj [("variant", .str "flat"), ("text", .str "A"), ("id", .str "a")],
       .obj [("variant", .str "flat"), ("text", .str "B"), ("id", .str "a")]])]]

/-- A document of a screen with these items. -/
def mixedSource : Json :=
  .obj [("id", .str "mixed"), ("content", .arr mixedItems)]

/-- Both readers at a screen that is sound, and at the one with mixed items. -/
theorem readers_agree_mixed :
    (∃ screen ws,
      Screen.validate "" defaultMaxDepth (twoOptions [("id", .int 1)] [("id", .int 2)]) =
        .ok (screen, ws) ∧
      Screen.readLenient defaultMaxDepth (twoOptions [("id", .int 1)] [("id", .int 2)]) =
        .ok (screen, [])) ∧
    (∃ screen ws, Screen.readLenient defaultMaxDepth mixedSource = .ok (screen, ws) ∧
      screen.content = mixedItems.filterMap (fun raw => (Item.validate raw).toOption) ∧
      ws = mixedItems.zipIdx.filterMap fun (raw, i) => skipped? "mixed" i raw) ∧
    ∃ fault text, Screen.validate "quiz" defaultMaxDepth mixedSource = .error fault ∧
      fault.message "quiz" = inContext "quiz" (contentPlace 1 ++ ": " ++ text) := by
  have hframe : screenFrame defaultMaxDepth mixedSource =
      .ok ([("id", .str "mixed"), ("content", .arr mixedItems)], "mixed", mixedItems) := by
    have hflat : Nesting.tooDeep? defaultMaxDepth mixedItems = none := by decide +kernel
    unfold screenFrame
    rw [show screenShape? mixedSource = some (_, "mixed", mixedItems) from rfl]
    dsimp only
    rw [hflat]
  refine ⟨?_, ?_, ?_⟩
  · have h : (Screen.validate "" defaultMaxDepth
        (twoOptions [("id", .int 1)] [("id", .int 2)])).toOption.any (fun _ => true) = true := by
      decide +kernel
    obtain ⟨⟨screen, ws⟩, hvalid, -⟩ := Except.any_toOption.mp h
    exact ⟨screen, ws, hvalid, (readers_agree "" _ _).1 screen ws hvalid⟩
  · have h : (Screen.readLenient defaultMaxDepth mixedSource).toOption.any
        (fun _ => true) = true := by
      decide +kernel
    obtain ⟨⟨screen, ws⟩, hread, -⟩ := Except.any_toOption.mp h
    obtain ⟨fs, id, content, hframe', hcontent, hws⟩ :=
      (readers_agree "" _ _).2.1 screen ws hread
    rw [hframe] at hframe'
    obtain ⟨-, rfl, rfl⟩ := Except.ok.inj hframe'
    exact ⟨screen, ws, hread, hcontent, hws⟩
  · have first : FirstUnsound mixedItems 1 (.obj [("type", .str "video")]) := by
      refine ⟨rfl, ?_, ?_⟩
      · rintro ⟨⟨item, hitem⟩, -⟩
        cases hitem
      · intro j hj raw hraw
        obtain rfl : j = 0 := by omega
        obtain rfl := Option.some.inj hraw
        exact ⟨⟨_, rfl⟩, rfl⟩
    obtain ⟨fault, text, -, hrefused, htext⟩ :=
      (readers_agree "quiz" _ _).2.2.2 _ _ _ 1 _ hframe first
    exact ⟨fault, text, hrefused, htext⟩

end Quiz
