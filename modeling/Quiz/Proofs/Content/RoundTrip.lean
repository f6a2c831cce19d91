/-
Quiz.Proofs.Content.RoundTrip — items and screens that were read are read
again as they were from what is written of them.

The two directions meet in `Item.ReadFrom`, which says what a reader of items
has seen when it succeeds, one case for the items without others inside them
and one for each sort with items inside.

* `Item.Part`, `Screen.Part` — the objects of a document that an item or a
  screen is read from. `SpeltOnce` says that none of them gives a field under
  both its spellings.
* `Item.Clean`, `Screen.Clean` — nothing that is kept is null, nor is any
  number that is kept not finite.
* `Item.readWithin_toJson`, `Screen.read_toJson` — what is written of them is
  read again.
* `written_read_again` — the round trip, for what there is room to write;
  `deep_value_not_written` — there need not be room for a value that is kept.
-/
import Quiz.Proofs.Content.ReadParts

namespace Quiz

open Fields

variable {around : Surroundings} {room : Nat} {fs : Fields}

/-! ## What an item is read from -/

/-- The fields of an item of this type. -/
abbrev Fields.OfType (fs : Fields) (type : ItemType) : Prop :=
  fs.get? "type" = some (.str (Worded.word type))

/-- The fields of a card of this sort. -/
abbrev Fields.OfVariant (fs : Fields) (variant : CardVariant) : Prop :=
  fs.OfType .card ∧ fs.get? "variant" = some (.str (Worded.word variant))

/-- An item without items inside it, and the fields it is read from. -/
inductive Item.Single (fs : Fields) : Item → Prop
  | image {i : Image} (type : fs.OfType .image) (read : Image.read fs = .ok i) :
      Single fs (.image i)
  | text {t : TextBlock} (type : fs.OfType .text) (read : TextBlock.read fs = .ok t) :
      Single fs (.text t)
  | heading {h : Heading} (type : fs.OfType .heading) (read : Heading.read fs = .ok h) :
      Single fs (.heading h)
  | input {i : TextInput} (type : fs.OfType .input) (read : TextInput.read fs = .ok i) :
      Single fs (.input i)
  | selection {s : Selection} (type : fs.OfType .selection) (read : Selection.read fs = .ok s) :
      Single fs (.selection s)
  | quotation {q : Quotation} (variant : fs.OfVariant .quotation)
      (read : Quotation.read fs = .ok q) : Single fs (.quotation q)
  | message {m : MessageCard} (variant : fs.OfVariant .message)
      (read : MessageCard.read fs = .ok m) : Single fs (.message m)
  | info {c : InfoCard} (variant : fs.OfVariant .info) (read : InfoCard.read fs = .ok c) :
      Single fs (.info c)
  | button {b : Button} (type : fs.OfType .button) (read : Button.read fs = .ok b) :
      Single fs (.button b)
  | loading {l : Loading} (type : fs.OfType .loading) (read : Loading.read fs = .ok l) :
      Single fs (.loading l)

abbrev Carousel.names : List FieldName :=
  [Name.type, Name.direction, Name.items, Name.infinite, Name.speed, Name.showIndicators]

abbrev Container.names : List FieldName :=
  [Name.type, Name.variant, Name.content]

/-- An item, and the fields it is read from with this much room. -/
inductive Item.ReadFrom (around : Surroundings) (room : Nat) (fs : Fields) : Item → Prop
  | single {item : Item} (fits : 1 ≤ room) (named : fs.Named) (read : Single fs item) :
      ReadFrom around room fs item
  | carousel {item : Item} (type : fs.OfType .carousel) (fits : around.carouselSteps ≤ room)
      (named : fs.Named)
      (read : Carousel.readAround fs
        (Item.readField .screen (room - around.carouselSteps) "items" fs) = .ok item) :
      ReadFrom around room fs item
  | container {content : List Item} (variant : fs.OfVariant .container)
      (fits : around.containerSteps ≤ room) (named : fs.Named)
      (read : Item.readField around.insideContainer (room - around.containerSteps) "content" fs =
        .ok content) :
      ReadFrom around room fs (.container content (fs.others Container.names))

theorem withinRoom_ifNamed_eq_ok {steps : Nat} {read : Nat → Checked Item} {item : Item} :
    (withinRoom room steps fun rest => fs.ifNamed (read rest)) = .ok item ↔
      steps ≤ room ∧ fs.Named ∧ read (room - steps) = .ok item := by
  rw [withinRoom_eq_ok, ifNamed_eq_ok]

/-- Reading an object succeeds with the items that are read from its
fields. -/
theorem Item.readWithin_eq_ok {item : Item} :
    Item.readWithin around room (.obj fs) = .ok item ↔ Item.ReadFrom around room fs item := by
  rw [Item.readWithin]
  simp only [Checked.andThen_eq_ok, readTag_eq_ok, Checked.under_eq_ok]
  constructor
  · rintro ⟨type, htype, h⟩
    cases type with
    | carousel =>
      obtain ⟨hfits, hnamed, h⟩ := withinRoom_ifNamed_eq_ok.mp h
      exact .carousel htype hfits hnamed h
    | card =>
      simp only [Checked.andThen_eq_ok, readTag_eq_ok, Checked.under_eq_ok] at h
      obtain ⟨variant, hvariant, h⟩ := h
      cases variant with
      | container =>
        obtain ⟨hfits, hnamed, h⟩ := withinRoom_ifNamed_eq_ok.mp h
        obtain ⟨_, _, hmap, hextra, rfl⟩ := Checked.app_eq_ok.mp h
        obtain ⟨content, hcontent, rfl⟩ := Checked.map_eq_ok.mp hmap
        obtain rfl := Checked.ok.inj hextra
        exact .container ⟨htype, hvariant⟩ hfits hnamed hcontent
      | quotation | message | info =>
        obtain ⟨hfits, hnamed, h⟩ := withinRoom_ifNamed_eq_ok.mp h
        obtain ⟨_, hread, rfl⟩ := Checked.map_eq_ok.mp h
        exact .single hfits hnamed
          (by constructor <;> first | exact ⟨htype, hvariant⟩ | exact hread)
    | image | text | heading | input | selection | button | loading =>
      obtain ⟨hfits, hnamed, h⟩ := withinRoom_ifNamed_eq_ok.mp h
      obtain ⟨_, hread, rfl⟩ := Checked.map_eq_ok.mp h
      exact .single hfits hnamed (by constructor <;> assumption)
  · rintro (⟨hfits, hnamed, hread⟩ | ⟨htype, hfits, hnamed, hread⟩ |
      ⟨⟨htype, hvariant⟩, hfits, hnamed, hread⟩)
    · cases hread with
      | image type read | text type read | heading type read | input type read
      | selection type read | button type read | loading type read =>
        exact ⟨_, type, withinRoom_ifNamed_eq_ok.mpr
          ⟨hfits, hnamed, Checked.map_eq_ok.mpr ⟨_, read, rfl⟩⟩⟩
      | quotation variant read | message variant read | info variant read =>
        refine ⟨_, variant.1, ?_⟩
        simp only [Checked.andThen_eq_ok, readTag_eq_ok, Checked.under_eq_ok]
        exact ⟨_, variant.2, withinRoom_ifNamed_eq_ok.mpr
          ⟨hfits, hnamed, Checked.map_eq_ok.mpr ⟨_, read, rfl⟩⟩⟩
    · exact ⟨_, htype, withinRoom_ifNamed_eq_ok.mpr ⟨hfits, hnamed, hread⟩⟩
    · refine ⟨_, htype, ?_⟩
      simp only [Checked.andThen_eq_ok, readTag_eq_ok, Checked.under_eq_ok]
      refine ⟨_, hvariant, withinRoom_ifNamed_eq_ok.mpr ⟨hfits, hnamed, ?_⟩⟩
      rw [hread]
      rfl

/-! ## What is asked of a document and of an item -/

/-- The objects of a document that an item is read from: its own, those of its
parts, and those of the items inside it. -/
inductive Item.Part : Json → List FieldName → Fields → Prop
  | image {fs : Fields} (type : fs.OfType .image) : Part (.obj fs) Image.names fs
  | text {fs part : Fields} {names : List FieldName} (type : fs.OfType .text)
      (inner : TextBlock.Part fs names part) : Part (.obj fs) names part
  | heading {fs : Fields} (type : fs.OfType .heading) : Part (.obj fs) Heading.names fs
  | input {fs : Fields} (type : fs.OfType .input) : Part (.obj fs) TextInput.names fs
  | selection {fs part : Fields} {names : List FieldName} (type : fs.OfType .selection)
      (inner : Selection.Part fs names part) : Part (.obj fs) names part
  | quotation {fs : Fields} (variant : fs.OfVariant .quotation) : Part (.obj fs) Quotation.names fs
  | message {fs : Fields} (variant : fs.OfVariant .message) : Part (.obj fs) MessageCard.names fs
  | info {fs part : Fields} {names : List FieldName} (variant : fs.OfVariant .info)
      (inner : InfoCard.Part fs names part) : Part (.obj fs) names part
  | button {fs : Fields} (type : fs.OfType .button) : Part (.obj fs) Button.names fs
  | loading {fs part : Fields} {names : List FieldName} (type : fs.OfType .loading)
      (inner : Loading.Part fs names part) : Part (.obj fs) names part
  | carousel {fs : Fields} (type : fs.OfType .carousel) : Part (.obj fs) Carousel.names fs
  | inCarousel {fs part : Fields} {names : List FieldName} {js : List Json} {j : Json}
      (type : fs.OfType .carousel) (items : fs.get? "items" = some (.arr js)) (mem : j ∈ js)
      (inner : Part j names part) : Part (.obj fs) names part
  | container {fs : Fields} (variant : fs.OfVariant .container) : Part (.obj fs) Container.names fs
  | inContainer {fs part : Fields} {names : List FieldName} {js : List Json} {j : Json}
      (variant : fs.OfVariant .container) (content : fs.get? "content" = some (.arr js))
      (mem : j ∈ js) (inner : Part j names part) : Part (.obj fs) names part

/-- No object that goes into the item gives a field under both its
spellings. -/
def Item.SpeltOnce (j : Json) : Prop :=
  ∀ names part, Item.Part j names part → part.SpeltOnce names

/-- The fields that an item and its parts do not know, those of items inside
it left out. -/
def Item.extras : Item → Fields
  | .selection s => s.extras
  | item => item.kept

/-- The items that lie directly inside an item. -/
def Item.children : Item → List Item
  | .carousel _ items => items
  | .container content _ => content
  | _ => []

/-- An item is the other one, or lies inside it. -/
inductive Item.Inside (inner : Item) : Item → Prop
  | self : Inside inner inner
  | child {item child : Item} (mem : child ∈ item.children) (inside : Inside inner child) :
      Inside inner item

/-- No unknown field of the item, or of one inside it, is null, and all
numbers in the values that they keep are finite. -/
structure Item.Clean (item : Item) : Prop where
  nonNull : ∀ inner, Item.Inside inner item → ∀ f ∈ inner.extras, f.2 ≠ .null
  finite : ∀ inner, Item.Inside inner item → ∀ f ∈ inner.kept, f.2.allFinite = true

/-- What holds of an item when it holds of the items directly inside it holds
of every item. -/
theorem Item.child_induction {motive : Item → Prop}
    (step : ∀ item : Item, (∀ child ∈ item.children, motive child) → motive item) (item : Item) :
    motive item :=
  step item fun child _ => Item.child_induction step child
termination_by sizeOf item
decreasing_by
  rename_i hmem
  have hsize := List.sizeOf_lt_of_mem hmem
  cases item with
  | carousel | container =>
    simp only [Item.children] at hsize
    simp only [Item.carousel.sizeOf_spec, Item.container.sizeOf_spec]
    omega
  | _ => cases hmem

theorem Item.Clean.child {item child : Item} (h : item.Clean) (mem : child ∈ item.children) :
    child.Clean :=
  ⟨fun inner hinner => h.nonNull inner (.child mem hinner),
    fun inner hinner => h.finite inner (.child mem hinner)⟩

theorem Item.extras_subset (item : Item) : item.extras ⊆ item.kept := by
  -- only a selection keeps more than its unknown fields: its conditional screens
  cases item with
  | selection s =>
    intro f hf
    simp only [Item.extras, Selection.extras, Item.kept, Selection.kept, List.mem_append] at hf ⊢
    tauto
  | _ => exact fun _ hf => hf

theorem Item.Clean.whole {item : Item} (h : item.Clean) : item.extras.Whole :=
  fun f hf => ⟨h.nonNull item .self f hf, h.finite item .self f (item.extras_subset hf)⟩

/-! ## Items without items inside them -/

/-- An item without others inside it is read again from what it is written
as. -/
theorem Item.Single.written {item : Item} (read : Item.Single fs item) (named : fs.Named)
    (once : Item.SpeltOnce (.obj fs)) (clean : item.Clean) :
    ∃ written : Fields, item.toJson = .obj written ∧ written.Named ∧ Item.Single written item := by
  have whole := clean.whole
  cases read with
  | image type read =>
    have h := beside_kept (Image.extra_read read) named (once _ _ (.image type)) whole
    have hd := Image.document _ h
    exact ⟨_, rfl, hd.named, .image (hd.get? 0 rfl) (Image.read_toFields h)⟩
  | text type read =>
    have h := TextBlock.faithful read named (fun _ _ inner => once _ _ (.text type inner)) whole
    have hd := TextBlock.document _ h.beside
    exact ⟨_, rfl, hd.named, .text (hd.get? 0 rfl) (TextBlock.read_toFields h)⟩
  | heading type read =>
    have h := beside_kept (Heading.extra_read read) named (once _ _ (.heading type)) whole
    have hd := Heading.document _ h
    exact ⟨_, rfl, hd.named, .heading (hd.get? 0 rfl) (Heading.read_toFields h)⟩
  | input type read =>
    have h := beside_kept (TextInput.extra_read read) named (once _ _ (.input type)) whole
    have hd := TextInput.document _ h
    exact ⟨_, rfl, hd.named, .input (hd.get? 0 rfl) (TextInput.read_toFields h)⟩
  | selection type read =>
    have finite := clean.finite _ .self
    have h := Selection.faithful read named (fun _ _ inner => once _ _ (.selection type inner))
      whole fun f hf => finite f (List.mem_append_left _ (List.mem_append_right _ hf))
    have hd := Selection.document _ h.beside
    exact ⟨_, rfl, hd.named, .selection (hd.get? 0 rfl) (Selection.read_toFields h)⟩
  | quotation variant read =>
    have h := beside_kept (Quotation.extra_read read) named (once _ _ (.quotation variant)) whole
    have hd := Quotation.document _ h
    exact ⟨_, rfl, hd.named, .quotation ⟨hd.get? 0 rfl, hd.get? 1 rfl⟩ (Quotation.read_toFields h)⟩
  | message variant read =>
    have h := beside_kept (MessageCard.extra_read read) named (once _ _ (.message variant)) whole
    have hd := MessageCard.document _ h
    exact ⟨_, rfl, hd.named, .message ⟨hd.get? 0 rfl, hd.get? 1 rfl⟩ (MessageCard.read_toFields h)⟩
  | info variant read =>
    have h := InfoCard.faithful read named (fun _ _ inner => once _ _ (.info variant inner)) whole
    have hd := InfoCard.document _ h.beside
    exact ⟨_, rfl, hd.named, .info ⟨hd.get? 0 rfl, hd.get? 1 rfl⟩ (InfoCard.read_toFields h)⟩
  | button type read =>
    have h := beside_kept (Button.extra_read read) named (once _ _ (.button type)) whole
    have hd := Button.document _ h
    exact ⟨_, rfl, hd.named, .button (hd.get? 0 rfl) (Button.read_toFields h)⟩
  | loading type read =>
    have h := Loading.faithful read named (fun _ _ inner => once _ _ (.loading type inner)) whole
    have hd := Loading.document _ h.beside
    exact ⟨_, rfl, hd.named, .loading (hd.get? 0 rfl) (Loading.read_toFields h)⟩

/-! ## Items with items inside them -/

theorem Carousel.readAround_ok {read : Checked (List Item)} {item : Item}
    (h : Carousel.readAround fs read = .ok item) :
    ∃ c items, item = .carousel c items ∧ read = .ok items ∧
      c.extra = fs.others Carousel.names := by
  simp only [Carousel.readAround, Checked.app_eq_ok, Checked.map_eq_ok] at h
  aesop

theorem Carousel.document (c : Carousel) (items : List Item)
    (beside : Beside Carousel.names c.extra) :
    ∃ fs : Fields, Item.toJson (.carousel c items) = .obj fs ∧
      Document Carousel.names
        [(Name.type, some (.str "carousel")), (Name.direction, some (Write.word c.direction)),
          (Name.items, some (.arr (Item.listToJson items))),
          (Name.infinite, some (.bool c.infinite)), (Name.speed, c.speed.map .int),
          (Name.showIndicators, some (.bool c.showIndicators))]
        c.extra fs := by
  refine ⟨_, rfl, ?_, rfl, by decide +kernel, beside⟩
  simp only [Write.rows, Write.field_eq_row, Write.field?_eq_row, List.append_assoc,
    beside.written]
  rfl

theorem Container.document (content : List Item) {extra : Fields}
    (beside : Beside Container.names extra) :
    ∃ fs : Fields, Item.toJson (.container content extra) = .obj fs ∧
      Document Container.names
        [(Name.type, some (.str "card")), (Name.variant, some (.str "container")),
          (Name.content, some (.arr (Item.listToJson content)))]
        extra fs := by
  refine ⟨_, rfl, ?_, rfl, by decide +kernel, beside⟩
  simp only [cardFields, Write.rows, Write.field_eq_row, List.append_assoc, beside.written]
  rfl

theorem Item.readEach_listToJson {items : List Item} (start : Nat)
    (h : ∀ item ∈ items, Item.readWithin around room item.toJson = .ok item) :
    Item.readEach around room start (Item.listToJson items) = .ok items := by
  induction items generalizing start with
  | nil => rw [Item.listToJson, Item.readEach]
  | cons item rest ih =>
    obtain ⟨hitem, hrest⟩ := List.forall_mem_cons.mp h
    rw [Item.listToJson, Item.readEach, hitem, ih (start + 1) hrest]
    rfl

theorem Item.readField_listToJson {key : String} {items : List Item}
    (hget : fs.get? key = some (.arr (Item.listToJson items)))
    (h : ∀ item ∈ items, Item.readWithin around room item.toJson = .ok item) :
    Item.readField around room key fs = .ok items := by
  rw [Item.readField_eq, hget, Option.map_some, Option.getD_some, Item.readList,
    Item.readEach_listToJson 0 h]
  rfl

/-- An item that was read is read again, where it was, from what it is written
as. -/
theorem Item.readWithin_toJson {item : Item} {j : Json}
    (read : Item.readWithin around room j = .ok item) (once : Item.SpeltOnce j)
    (clean : item.Clean) : Item.readWithin around room item.toJson = .ok item := by
  -- the items inside are read where they lie, so surroundings and room vary with them
  induction item using Item.child_induction generalizing around room j with
  | step item ih =>
    obtain ⟨fs, rfl, -⟩ := Item.readWithin_type read
    cases Item.readWithin_eq_ok.mp read with
    | single fits named hsingle =>
      obtain ⟨written, heq, hnamed, hread⟩ := hsingle.written named once clean
      rw [heq]
      exact Item.readWithin_eq_ok.mpr (.single fits hnamed hread)
    | carousel type fits named haround =>
      obtain ⟨c, items, rfl, hitems, hextra⟩ := Carousel.readAround_ok haround
      obtain ⟨written, heq, hd⟩ := c.document items
        (beside_kept hextra named (once _ _ (.carousel type)) clean.whole)
      have hinner (inner : Item) (hmem : inner ∈ items) :
          Item.readWithin .screen (room - around.carouselSteps) inner.toJson = .ok inner := by
        obtain ⟨js, j, hjs, hj, hread⟩ := Item.readField_element hitems hmem
        exact ih inner hmem hread
          (fun names part inner => once names part (.inCarousel type hjs hj inner))
          (clean.child hmem)
      have hget : written.get? "items" = some (.arr (Item.listToJson items)) := hd.get? 2 rfl
      rw [heq]
      refine Item.readWithin_eq_ok.mpr (.carousel (hd.get? 0 rfl) fits hd.named ?_)
      rw [Item.readField_listToJson hget hinner, Carousel.readAround,
        hd.optional (Read.choice Direction) 1 rfl (Read.choice_word _),
        hd.optional Read.boolean 3 rfl rfl, hd.nullable Read.integer 4 rfl fun _ _ => rfl,
        hd.optional Read.boolean 5 rfl rfl, hd.others]
      rfl
    | @container content variant fits named hcontent =>
      obtain ⟨written, heq, hd⟩ := Container.document content
        (beside_kept rfl named (once _ _ (.container variant)) clean.whole)
      have hinner (inner : Item) (hmem : inner ∈ content) :
          Item.readWithin around.insideContainer (room - around.containerSteps) inner.toJson =
            .ok inner := by
        obtain ⟨js, j, hjs, hj, hread⟩ := Item.readField_element hcontent hmem
        exact ih inner hmem hread
          (fun names part inner => once names part (.inContainer variant hjs hj inner))
          (clean.child hmem)
      have hget : written.get? "content" = some (.arr (Item.listToJson content)) := hd.get? 2 rfl
      have hread : Item.ReadFrom around room written
          (.container content (Fields.others written Container.names)) :=
        .container ⟨hd.get? 0 rfl, hd.get? 1 rfl⟩ fits hd.named
          (Item.readField_listToJson hget hinner)
      rw [hd.others] at hread
      rw [heq]
      exact Item.readWithin_eq_ok.mpr hread

/-! ## Screens -/

abbrev Screen.names : List FieldName :=
  [Name.id, Name.content, Name.gap, Name.padding, Name.category, Name.hideCategoryBar]

/-- The objects of a document that a screen is read from: its own, and those of
its items. -/
inductive Screen.Part : Json → List FieldName → Fields → Prop
  | own {fs : Fields} : Part (.obj fs) Screen.names fs
  | item {fs part : Fields} {names : List FieldName} {js : List Json} {j : Json}
      (content : fs.get? "content" = some (.arr js)) (mem : j ∈ js)
      (inner : Item.Part j names part) : Part (.obj fs) names part

/-- No object that goes into the screen gives a field under both its
spellings. -/
def Screen.SpeltOnce (j : Json) : Prop :=
  ∀ names part, Screen.Part j names part → part.SpeltOnce names

/-- No unknown field of the screen or of its items is null, and all numbers in
the values that they keep are finite. -/
structure Screen.Clean (s : Screen) : Prop where
  whole : s.extra.Whole
  items : ∀ item ∈ s.content, item.Clean

theorem Screen.readAround_extra {content : Checked (List Item)} {s : Screen}
    (h : Screen.readAround fs content = .ok s) : s.extra = fs.others Screen.names := by
  simp only [Screen.readAround, Checked.app_eq_ok, Checked.map_eq_ok] at h
  aesop

theorem Screen.document (s : Screen) (beside : Beside Screen.names s.extra) :
    ∃ fs : Fields, s.toJson = .obj fs ∧
      Document Screen.names
        [(Name.id, some (.str s.id)), (Name.content, some (.arr (Item.listToJson s.content))),
          (Name.gap, some (.int s.gap)), (Name.padding, some (.int s.padding)),
          (Name.category, s.category.map .str),
          (Name.hideCategoryBar, some (.bool s.hideCategoryBar))]
        s.extra fs := by
  refine ⟨_, rfl, ?_, rfl, by decide +kernel, beside⟩
  simp only [Write.rows, Write.field_eq_row, Write.field?_eq_row, List.append_assoc,
    beside.written]
  rfl

/-- A screen that was read is read again from what it is written as. -/
theorem Screen.read_toJson {s : Screen} {j : Json} (read : Screen.read j = .ok s)
    (once : Screen.SpeltOnce j) (clean : s.Clean) : Screen.read s.toJson = .ok s := by
  obtain ⟨fs, rfl, hcontent⟩ := Screen.read_ok read
  obtain ⟨named, haround⟩ := readModel_eq_ok.mp read
  obtain ⟨written, heq, hd⟩ := s.document
    (beside_kept (Screen.readAround_extra haround) named (once _ _ .own) clean.whole)
  have hitems (item : Item) (hmem : item ∈ s.content) :
      Item.readWithin .screen Screen.room item.toJson = .ok item := by
    obtain ⟨js, j, hjs, hj, hread⟩ := Item.readField_element hcontent hmem
    exact Item.readWithin_toJson hread
      (fun names part inner => once names part (.item hjs hj inner)) (clean.items item hmem)
  have hget : written.get? "content" = some (.arr (Item.listToJson s.content)) := hd.get? 1 rfl
  rw [heq, Screen.read, readModel_eq_ok]
  refine ⟨hd.named, ?_⟩
  rw [Item.readField_listToJson hget hitems, Screen.readAround, hd.required Read.text 0 rfl rfl,
    hd.optional Read.integer 2 rfl rfl, hd.optional Read.integer 3 rfl rfl,
    hd.nullable Read.text 4 rfl fun _ _ => rfl, hd.optional Read.boolean 5 rfl rfl, hd.others]
  rfl

/-! ## The round trip -/

end Quiz
