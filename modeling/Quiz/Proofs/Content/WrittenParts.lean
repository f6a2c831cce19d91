/-
Quiz.Proofs.Content.WrittenParts — the parts of items, written and read again.

There are four facts about each part. `names` are the fields it is read from,
and by `extra_read` it keeps all others. `document` says which rows it is
written as, and `read_toFields` or `read_toJson` that it is read again from
them as it was. A part with parts of its own is `Faithful` when all of them can
be written beside what they keep.
-/
import Quiz.Content.ItemWriter
import Quiz.Proofs.Schema.Writing

namespace Quiz

open Fields

/-! ## Words and identities -/

instance : LawfulWorded Align := ⟨fun a => by cases a <;> rfl⟩
instance : LawfulWorded ImageShape := ⟨fun a => by cases a <;> rfl⟩
instance : LawfulWorded InputKind := ⟨fun a => by cases a <;> rfl⟩
instance : LawfulWorded Mode := ⟨fun a => by cases a <;> rfl⟩
instance : LawfulWorded Position := ⟨fun a => by cases a <;> rfl⟩
instance : LawfulWorded PictureShape := ⟨fun a => by cases a <;> rfl⟩
instance : LawfulWorded TileSize := ⟨fun a => by cases a <;> rfl⟩
instance : LawfulWorded Direction := ⟨fun a => by cases a <;> rfl⟩
instance : LawfulWorded PopupStyle := ⟨fun a => by cases a <;> rfl⟩
instance : LawfulWorded PopupLayout := ⟨fun a => by cases a <;> rfl⟩
instance : LawfulWorded ItemType := ⟨fun a => by cases a <;> rfl⟩
instance : LawfulWorded CardVariant := ⟨fun a => by cases a <;> rfl⟩
instance : LawfulWorded FaceVariant := ⟨fun a => by cases a <;> rfl⟩
instance : LawfulWorded EntryType := ⟨fun a => by cases a <;> rfl⟩

theorem OptionId.read_toJson (id : OptionId) : Read.textOrInteger id.toJson = .ok id := by
  cases id <;> rfl

theorem OptionId.orNull_toJson (id : OptionId) :
    Read.orNull Read.textOrInteger id.toJson = .ok (some id) := by
  cases id <;> rfl

/-! ## Images and texts -/

abbrev Image.names : List FieldName :=
  [Name.type, Name.src, Name.alt, Name.width, Name.shape, Name.border, Name.borderColor,
    Name.borderWidth, Name.align]

theorem Image.extra_read {fs : Fields} {i : Image} (h : Image.read fs = .ok i) :
    i.extra = fs.others Image.names := by
  simp only [Image.read, Checked.app_eq_ok, Checked.map_eq_ok] at h
  aesop

theorem Image.document (i : Image) (beside : Beside Image.names i.extra) :
    Document Image.names
      [(Name.type, some (.str "image")), (Name.src, some (.str i.src)), (Name.alt, i.alt.map .str),
        (Name.width, i.width.map OptionId.toJson), (Name.shape, some (Write.word i.shape)),
        (Name.border, some (.bool i.border)), (Name.borderColor, i.borderColor.map .str),
        (Name.borderWidth, i.borderWidth.map .int), (Name.align, i.align.map Write.word)]
      i.extra i.toFields := by
  refine ⟨?_, rfl, by decide +kernel, beside⟩
  simp only [Image.toFields, Write.rows, Write.field_eq_row, Write.field?_eq_row,
    List.append_assoc, beside.written]
  rfl

theorem Image.read_toFields {i : Image} (beside : Beside Image.names i.extra) :
    Image.read i.toFields = .ok i := by
  have h := i.document beside
  rw [Image.read, h.required Read.text 1 rfl rfl, h.nullable Read.text 2 rfl fun _ _ => rfl,
    h.nullable Read.textOrInteger 3 rfl fun id _ => id.orNull_toJson,
    h.optional (Read.choice ImageShape) 4 rfl (Read.choice_word _),
    h.optional Read.boolean 5 rfl rfl, h.nullable Read.text 6 rfl fun _ _ => rfl,
    h.nullable Read.integer 7 rfl fun _ _ => rfl,
    h.nullable (Read.choice Align) 8 rfl fun a _ => Read.orNull_word a, h.others]
  rfl

abbrev Segment.names : List FieldName :=
  [Name.content, Name.url]

theorem Segment.extra_read {fs : Fields} {s : Segment} (h : Segment.read fs = .ok s) :
    s.extra = fs.others Segment.names := by
  simp only [Segment.read, Checked.app_eq_ok, Checked.map_eq_ok] at h
  aesop

theorem Segment.document (s : Segment) (beside : Beside Segment.names s.extra) :
    ∃ fs, s.toJson = .obj fs ∧
      Document Segment.names
        [(Name.content, some (.str s.content)), (Name.url, s.url.map .str)] s.extra fs := by
  refine ⟨_, rfl, ?_, rfl, by decide +kernel, beside⟩
  simp only [Write.rows, Write.field_eq_row, Write.field?_eq_row, List.append_assoc,
    beside.written]
  rfl

theorem Segment.read_toJson {s : Segment} (beside : Beside Segment.names s.extra) :
    readModel "TextSegment" Segment.read s.toJson = .ok s := by
  obtain ⟨fs, heq, h⟩ := s.document beside
  rw [heq, readModel_eq_ok, Segment.read, h.required Read.text 0 rfl rfl,
    h.nullable Read.text 1 rfl fun _ _ => rfl, h.others]
  exact ⟨h.named, rfl⟩

/-- The segments of a content; a plain text has none. -/
def TextContent.parts : TextContent → List Segment
  | .plain _ => []
  | .segments parts => parts

theorem TextContent.read_toJson {c : TextContent}
    (beside : ∀ s ∈ c.parts, Beside Segment.names s.extra) :
    TextContent.read c.toJson = .ok c := by
  cases c with
  | plain s => rfl
  | segments parts =>
    have hparts : Read.listOf (readModel "TextSegment" Segment.read)
        (.arr (parts.map Segment.toJson)) = .ok parts :=
      Read.listOf_map fun s hs => Segment.read_toJson (beside s hs)
    rw [TextContent.toJson, TextContent.read, hparts]
    exact nofun

abbrev TextBlock.names : List FieldName :=
  [Name.type, Name.content, Name.align, Name.fontSize, Name.color, Name.fontWeight,
    Name.lineHeight]

theorem TextBlock.read_ok {fs : Fields} {t : TextBlock} (h : TextBlock.read fs = .ok t) :
    fs.required Name.content TextContent.read = .ok t.content ∧
      t.extra = fs.others TextBlock.names := by
  simp only [TextBlock.read, Checked.app_eq_ok, Checked.map_eq_ok] at h
  aesop

/-- A text can be written, and so can its segments. -/
structure TextBlock.Faithful (t : TextBlock) : Prop where
  beside : Beside TextBlock.names t.extra
  segments : ∀ s ∈ t.content.parts, Beside Segment.names s.extra

theorem TextBlock.document (t : TextBlock) (beside : Beside TextBlock.names t.extra) :
    Document TextBlock.names
      [(Name.type, some (.str "text")), (Name.content, some t.content.toJson),
        (Name.align, t.align.map Write.word), (Name.fontSize, t.fontSize.map .int),
        (Name.color, t.color.map .str), (Name.fontWeight, t.fontWeight.map .int),
        (Name.lineHeight, t.lineHeight.map .float)]
      t.extra t.toFields := by
  refine ⟨?_, rfl, by decide +kernel, beside⟩
  simp only [TextBlock.toFields, Write.rows, Write.field_eq_row, Write.field?_eq_row,
    List.append_assoc, beside.written]
  rfl

theorem TextBlock.read_toFields {t : TextBlock} (faithful : t.Faithful) :
    TextBlock.read t.toFields = .ok t := by
  have h := t.document faithful.beside
  rw [TextBlock.read,
    h.required TextContent.read 1 rfl (TextContent.read_toJson faithful.segments),
    h.nullable (Read.choice Align) 2 rfl fun a _ => Read.orNull_word a,
    h.nullable Read.integer 3 rfl fun _ _ => rfl, h.nullable Read.text 4 rfl fun _ _ => rfl,
    h.nullable Read.integer 5 rfl fun _ _ => rfl, h.nullable Read.number 6 rfl fun _ _ => rfl,
    h.others]
  rfl

abbrev Heading.names : List FieldName :=
  [Name.type, Name.content, Name.align, Name.fontSize, Name.color, Name.fontWeight]

theorem Heading.extra_read {fs : Fields} {h : Heading} (hread : Heading.read fs = .ok h) :
    h.extra = fs.others Heading.names := by
  simp only [Heading.read, Checked.app_eq_ok, Checked.map_eq_ok] at hread
  aesop

theorem Heading.document (h : Heading) (beside : Beside Heading.names h.extra) :
    Document Heading.names
      [(Name.type, some (.str "heading")), (Name.content, some (.str h.content)),
        (Name.align, h.align.map Write.word), (Name.fontSize, h.fontSize.map .int),
        (Name.color, h.color.map .str), (Name.fontWeight, h.fontWeight.map .int)]
      h.extra h.toFields := by
  refine ⟨?_, rfl, by decide +kernel, beside⟩
  simp only [Heading.toFields, Write.rows, Write.field_eq_row, Write.field?_eq_row,
    List.append_assoc, beside.written]
  rfl

theorem Heading.read_toFields {h : Heading} (beside : Beside Heading.names h.extra) :
    Heading.read h.toFields = .ok h := by
  have hd := h.document beside
  rw [Heading.read, hd.required Read.text 1 rfl rfl,
    hd.nullable (Read.choice Align) 2 rfl fun a _ => Read.orNull_word a,
    hd.nullable Read.integer 3 rfl fun _ _ => rfl, hd.nullable Read.text 4 rfl fun _ _ => rfl,
    hd.nullable Read.integer 5 rfl fun _ _ => rfl, hd.others]
  rfl

/-! ## Inputs and buttons -/

abbrev TextInput.names : List FieldName :=
  [Name.type, Name.responseKey, Name.isRequired, Name.inputType, Name.label, Name.placeholder,
    Name.value]

theorem TextInput.extra_read {fs : Fields} {i : TextInput} (h : TextInput.read fs = .ok i) :
    i.extra = fs.others TextInput.names := by
  simp only [TextInput.read, Checked.app_eq_ok, Checked.map_eq_ok] at h
  aesop

theorem TextInput.document (i : TextInput) (beside : Beside TextInput.names i.extra) :
    Document TextInput.names
      [(Name.type, some (.str "input")), (Name.responseKey, i.responseKey.map .str),
        (Name.isRequired, some (.bool i.required)), (Name.inputType, some (Write.word i.kind)),
        (Name.label, i.label.map .str), (Name.placeholder, i.placeholder.map .str),
        (Name.value, some (.str i.value))]
      i.extra i.toFields := by
  refine ⟨?_, rfl, by decide +kernel, beside⟩
  simp only [TextInput.toFields, Write.rows, Write.field_eq_row, Write.field?_eq_row,
    List.append_assoc, beside.written]
  rfl

theorem TextInput.read_toFields {i : TextInput} (beside : Beside TextInput.names i.extra) :
    TextInput.read i.toFields = .ok i := by
  have h := i.document beside
  rw [TextInput.read, h.nullable Read.text 1 rfl fun _ _ => rfl, h.optional Read.boolean 2 rfl rfl,
    h.optional (Read.choice InputKind) 3 rfl (Read.choice_word _),
    h.nullable Read.text 4 rfl fun _ _ => rfl, h.nullable Read.text 5 rfl fun _ _ => rfl,
    h.optional Read.text 6 rfl rfl, h.others]
  rfl

abbrev Button.names : List FieldName :=
  [Name.type, Name.text, Name.width, Name.bgColor, Name.textColor, Name.responseKey]

theorem Button.extra_read {fs : Fields} {b : Button} (h : Button.read fs = .ok b) :
    b.extra = fs.others Button.names := by
  simp only [Button.read, Checked.app_eq_ok, Checked.map_eq_ok] at h
  aesop

theorem Button.document (b : Button) (beside : Beside Button.names b.extra) :
    Document Button.names
      [(Name.type, some (.str "button")), (Name.text, some (.str b.text)),
        (Name.width, b.width.map .int), (Name.bgColor, b.bgColor.map .str),
        (Name.textColor, b.textColor.map .str), (Name.responseKey, b.responseKey.map .str)]
      b.extra b.toFields := by
  refine ⟨?_, rfl, by decide +kernel, beside⟩
  simp only [Button.toFields, Write.rows, Write.field_eq_row, Write.field?_eq_row,
    List.append_assoc, beside.written]
  rfl

theorem Button.read_toFields {b : Button} (beside : Beside Button.names b.extra) :
    Button.read b.toFields = .ok b := by
  have h := b.document beside
  rw [Button.read, h.optional Read.text 1 rfl rfl, h.nullable Read.integer 2 rfl fun _ _ => rfl,
    h.nullable Read.text 3 rfl fun _ _ => rfl, h.nullable Read.text 4 rfl fun _ _ => rfl,
    h.nullable Read.text 5 rfl fun _ _ => rfl, h.others]
  rfl

/-! ## Selections -/

/-- The sort that the look of an option is of. -/
def Face.variant : Face → FaceVariant
  | .square _ _ => .square
  | .imageCard _ _ _ _ => .imageCard
  | .flat _ _ _ _ => .flat

theorem Face.variant_read {fs : Fields} {variant : FaceVariant} {face : Face}
    (h : Face.read fs variant = .ok face) : face.variant = variant := by
  cases variant <;> simp only [Face.read, Checked.app_eq_ok, Checked.map_eq_ok] at h <;> aesop

abbrev Choice.names (variant : FaceVariant) : List FieldName :=
  [Name.id, Name.value, Name.variant] ++ variant.names

theorem Choice.extra_read {variant : FaceVariant} {fs : Fields} {c : Choice}
    (h : Choice.readAs variant fs = .ok c) :
    c.face.variant = variant ∧ c.extra = fs.others (Choice.names variant) := by
  simp only [Choice.readAs, Checked.app_eq_ok, Checked.map_eq_ok] at h
  obtain ⟨_, extra, ⟨_, face, hids, hface, rfl⟩, hextra, rfl⟩ := h
  obtain ⟨_, _, ⟨_, -, rfl⟩, -, rfl⟩ := hids
  exact ⟨Face.variant_read hface, (Checked.ok.inj hextra).symm⟩

/-- The rows that the look of an option is written as, behind its sort. -/
def Face.rows : Face → List Row
  | .square character size =>
    [(Name.character, some (.str character)), (Name.size, size.map .int)]
  | .imageCard imageSrc text width shape =>
    [(Name.imageSrc, some (.str imageSrc)), (Name.text, some (.str text)),
      (Name.width, width.map .int), (Name.imageShape, shape.map Write.word)]
  | .flat text size width height =>
    [(Name.text, some (.str text)), (Name.size, size.map Write.word), (Name.width, width.map .int),
      (Name.height, height.map .int)]

theorem Choice.document (c : Choice) (beside : Beside (Choice.names c.face.variant) c.extra) :
    ∃ fs, c.toJson = .obj fs ∧
      Document (Choice.names c.face.variant)
        ([(Name.id, c.id.map OptionId.toJson), (Name.value, c.value.map OptionId.toJson),
          (Name.variant, some (Write.word c.face.variant))] ++ c.face.rows)
        c.extra fs := by
  refine ⟨_, rfl, ?_, ?_, ?_, beside⟩
  · obtain ⟨id, value, face, extra⟩ := c
    cases face <;>
    · simp only [Face.toFields, Face.rows, Write.rows, Write.field_eq_row, Write.field?_eq_row,
        List.append_assoc, List.cons_append, List.nil_append, beside.written]
      rfl
  · cases c.face <;> rfl
  · generalize c.face.variant = variant
    cases variant <;> decide +kernel

theorem Choice.read_toJson {c : Choice} (beside : Beside (Choice.names c.face.variant) c.extra) :
    Choice.read c.toJson = .ok c := by
  obtain ⟨fs, heq, h⟩ := c.document beside
  rw [heq, Choice.read, readTagged_eq_ok]
  refine ⟨c.face.variant, h.get? 2 rfl, h.named, ?_⟩
  rw [Choice.readAs, h.nullable Read.textOrInteger 0 rfl fun id _ => id.orNull_toJson,
    h.nullable Read.textOrInteger 1 rfl fun id _ => id.orNull_toJson, h.others]
  obtain ⟨id, value, face, extra⟩ := c
  cases face with
  | square character size =>
    rw [Face.variant, Face.read, h.required Read.text 3 rfl rfl,
      h.nullable Read.integer 4 rfl fun _ _ => rfl]
    rfl
  | imageCard imageSrc text width shape =>
    rw [Face.variant, Face.read, h.required Read.text 3 rfl rfl, h.required Read.text 4 rfl rfl,
      h.nullable Read.integer 5 rfl fun _ _ => rfl,
      h.nullable (Read.choice PictureShape) 6 rfl fun a _ => Read.orNull_word a]
    rfl
  | flat text size width height =>
    rw [Face.variant, Face.read, h.required Read.text 3 rfl rfl,
      h.nullable (Read.choice TileSize) 4 rfl fun a _ => Read.orNull_word a,
      h.nullable Read.integer 5 rfl fun _ _ => rfl, h.nullable Read.integer 6 rfl fun _ _ => rfl]
    rfl

abbrev ResponseCard.names : List FieldName :=
  [Name.variant, Name.title, Name.message]

theorem ResponseCard.extra_read {fs : Fields} {c : ResponseCard}
    (h : ResponseCard.read fs = .ok c) : c.extra = fs.others ResponseCard.names := by
  simp only [ResponseCard.read, Checked.app_eq_ok, Checked.map_eq_ok] at h
  aesop

theorem ResponseCard.document (c : ResponseCard) (beside : Beside ResponseCard.names c.extra) :
    ∃ fs, c.toJson = .obj fs ∧
      Document ResponseCard.names
        [(Name.variant, some (.str c.variant)), (Name.title, c.title.map .str),
          (Name.message, some (.str c.message))]
        c.extra fs := by
  refine ⟨_, rfl, ?_, rfl, by decide +kernel, beside⟩
  simp only [Write.rows, Write.field_eq_row, Write.field?_eq_row, List.append_assoc,
    beside.written]
  rfl

theorem ResponseCard.read_toJson {c : ResponseCard} (beside : Beside ResponseCard.names c.extra) :
    readModel "ResponseCard" ResponseCard.read c.toJson = .ok c := by
  obtain ⟨fs, heq, h⟩ := c.document beside
  rw [heq, readModel_eq_ok, ResponseCard.read, h.optional Read.text 0 rfl rfl,
    h.nullable Read.text 1 rfl fun _ _ => rfl, h.optional Read.text 2 rfl rfl, h.others]
  exact ⟨h.named, rfl⟩

abbrev Selection.names : List FieldName :=
  [Name.type, Name.mode, Name.layout, Name.options, Name.responseCards, Name.conditionalScreens,
    Name.position, Name.responseKey, Name.defaultSelected]

/-- A selection can be written, and so can its options and its cards; its
layout can be read again. -/
structure Selection.Faithful (s : Selection) : Prop where
  beside : Beside Selection.names s.extra
  layout : ∀ layout, s.layout = some layout → readGrid (.str layout) = .ok layout
  options : ∀ c ∈ s.options, Beside (Choice.names c.face.variant) c.extra
  cards : ∀ card ∈ s.responseCards, Beside ResponseCard.names card.2.extra
  branches : ∀ f ∈ s.branches, f.2.allFinite = true

theorem Selection.document (s : Selection) (beside : Beside Selection.names s.extra) :
    Document Selection.names
      [(Name.type, some (.str "selection")), (Name.mode, some (Write.word s.mode)),
        (Name.layout, s.layout.map .str),
        (Name.options, some (.arr (s.options.map Choice.toJson))),
        (Name.responseCards, some (.obj (s.responseCards.map fun (k, c) => (k, c.toJson)))),
        (Name.conditionalScreens, some (.obj (Json.finiteFields s.branches))),
        (Name.position, s.position.map Write.word), (Name.responseKey, s.responseKey.map .str),
        (Name.defaultSelected, some (.arr (s.defaultSelected.map OptionId.toJson)))]
      s.extra s.toFields := by
  refine ⟨?_, rfl, by decide +kernel, beside⟩
  simp only [Selection.toFields, Write.rows, Write.field_eq_row, Write.field?_eq_row,
    List.append_assoc, beside.written]
  rfl

theorem Selection.read_toFields {s : Selection} (faithful : s.Faithful) :
    Selection.read s.toFields = .ok s := by
  have h := s.document faithful.beside
  have hlayout (layout : String) (hl : s.layout = some layout) :
      Read.orNull readGrid (.str layout) = .ok (some layout) := by
    rw [Read.orNull, faithful.layout layout hl]
    · rfl
    · exact nofun
  have hbranches : Json.finiteFields s.branches = s.branches :=
    Json.finiteFields_of_allFinite (Json.allFiniteFields_iff.mpr faithful.branches)
  rw [Selection.read, h.optional (Read.choice Mode) 1 rfl (Read.choice_word _),
    h.nullable readGrid 2 rfl hlayout,
    h.optional (Read.listOf Choice.read) 3 rfl
      (Read.listOf_map fun c hc => Choice.read_toJson (faithful.options c hc)),
    h.optional (Read.mapOf (readModel "ResponseCard" ResponseCard.read)) 4 rfl
      (Read.mapOf_map fun c hc => ResponseCard.read_toJson (faithful.cards c hc)),
    h.optional Read.object 5 rfl rfl,
    h.nullable (Read.choice Position) 6 rfl fun a _ => Read.orNull_word a,
    h.nullable Read.text 7 rfl fun _ _ => rfl,
    h.optional (Read.listOf Read.textOrInteger) 8 rfl
      (Read.listOf_map fun id _ => id.read_toJson), h.others, hbranches]
  rfl

/-! ## Loading items -/

abbrev PopupOption.names : List FieldName :=
  [Name.text, Name.value, Name.variant]

theorem PopupOption.extra_read {fs : Fields} {o : PopupOption} (h : PopupOption.read fs = .ok o) :
    o.extra = fs.others PopupOption.names := by
  simp only [PopupOption.read, Checked.app_eq_ok, Checked.map_eq_ok] at h
  aesop

theorem PopupOption.document (o : PopupOption) (beside : Beside PopupOption.names o.extra) :
    ∃ fs, o.toJson = .obj fs ∧
      Document PopupOption.names
        [(Name.text, some (.str o.text)), (Name.value, some o.value.toJson),
          (Name.variant, o.style.map Write.word)]
        o.extra fs := by
  refine ⟨_, rfl, ?_, rfl, by decide +kernel, beside⟩
  simp only [Write.rows, Write.field_eq_row, Write.field?_eq_row, List.append_assoc,
    beside.written]
  rfl

theorem PopupOption.read_toJson {o : PopupOption} (beside : Beside PopupOption.names o.extra) :
    readModel "PopupOption" PopupOption.read o.toJson = .ok o := by
  obtain ⟨fs, heq, h⟩ := o.document beside
  rw [heq, readModel_eq_ok, PopupOption.read, h.required Read.text 0 rfl rfl,
    h.required Read.textOrInteger 1 rfl o.value.read_toJson,
    h.nullable (Read.choice PopupStyle) 2 rfl fun a _ => Read.orNull_word a, h.others]
  exact ⟨h.named, rfl⟩

abbrev Popup.names : List FieldName :=
  [Name.triggerAtPercent, Name.title, Name.description, Name.responseKey, Name.layout,
    Name.options]

/-- A popup can be written, and so can its options; its trigger lies where
triggers may lie. -/
structure Popup.Faithful (p : Popup) : Prop where
  beside : Beside Popup.names p.extra
  trigger : 0.0 ≤ p.trigger ∧ p.trigger ≤ 100.0
  options : ∀ o ∈ p.options, Beside PopupOption.names o.extra

theorem Popup.document (p : Popup) (beside : Beside Popup.names p.extra) :
    ∃ fs, p.toJson = .obj fs ∧
      Document Popup.names
        [(Name.triggerAtPercent, some (.float p.trigger)), (Name.title, some (.str p.title)),
          (Name.description, p.description.map .str), (Name.responseKey, p.responseKey.map .str),
          (Name.layout, p.layout.map Write.word),
          (Name.options, some (.arr (p.options.map PopupOption.toJson)))]
        p.extra fs := by
  refine ⟨_, rfl, ?_, rfl, by decide +kernel, beside⟩
  simp only [Write.rows, Write.field_eq_row, Write.field?_eq_row, List.append_assoc,
    beside.written]
  rfl

theorem Popup.read_toJson {p : Popup} (faithful : p.Faithful) :
    readModel "LoadingPopup" Popup.read p.toJson = .ok p := by
  obtain ⟨fs, heq, h⟩ := p.document faithful.beside
  have htrigger : Read.percent (.float p.trigger) = .ok p.trigger := by
    simp [Read.percent, Read.number, faithful.trigger]
  rw [heq, readModel_eq_ok, Popup.read, h.required Read.percent 0 rfl htrigger,
    h.required Read.text 1 rfl rfl, h.nullable Read.text 2 rfl fun _ _ => rfl,
    h.nullable Read.text 3 rfl fun _ _ => rfl,
    h.nullable (Read.choice PopupLayout) 4 rfl fun a _ => Read.orNull_word a,
    h.optional (Read.listOf (readModel "PopupOption" PopupOption.read)) 5 rfl
      (Read.listOf_map fun o ho => PopupOption.read_toJson (faithful.options o ho)), h.others]
  exact ⟨h.named, rfl⟩

abbrev Loading.names : List FieldName :=
  [Name.type, Name.message, Name.duration, Name.popup, Name.responseKey]

/-- A loading item can be written, and so can its popup. -/
structure Loading.Faithful (l : Loading) : Prop where
  beside : Beside Loading.names l.extra
  popup : ∀ popup, l.popup = some popup → popup.Faithful

theorem Loading.document (l : Loading) (beside : Beside Loading.names l.extra) :
    Document Loading.names
      [(Name.type, some (.str "loading")), (Name.message, some (.str l.message)),
        (Name.duration, some (.int l.duration)), (Name.popup, l.popup.map Popup.toJson),
        (Name.responseKey, l.responseKey.map .str)]
      l.extra l.toFields := by
  refine ⟨?_, rfl, by decide +kernel, beside⟩
  simp only [Loading.toFields, Write.rows, Write.field_eq_row, Write.field?_eq_row,
    List.append_assoc, beside.written]
  rfl

theorem Loading.read_toFields {l : Loading} (faithful : l.Faithful) :
    Loading.read l.toFields = .ok l := by
  have h := l.document faithful.beside
  have hduration : Read.natural (.int l.duration) = .ok l.duration := by
    have hnot : ¬ (l.duration : Int) < 0 := Int.not_lt.mpr (Int.natCast_nonneg _)
    rw [Read.natural, Read.integer, Checked.andThen_ok, if_neg hnot]
    rfl
  have hpopup (popup : Popup) (hp : l.popup = some popup) :
      Read.orNull (readModel "LoadingPopup" Popup.read) popup.toJson = .ok (some popup) := by
    show some <$> readModel "LoadingPopup" Popup.read popup.toJson = .ok (some popup)
    rw [Popup.read_toJson (faithful.popup popup hp)]
    rfl
  rw [Loading.read, h.optional Read.text 1 rfl rfl, h.optional Read.natural 2 rfl hduration,
    h.nullable (readModel "LoadingPopup" Popup.read) 3 rfl hpopup,
    h.nullable Read.text 4 rfl fun _ _ => rfl, h.others]
  rfl

/-! ## Cards without items -/

abbrev Quotation.names : List FieldName :=
  [Name.type, Name.variant, Name.quote, Name.author]

theorem Quotation.extra_read {fs : Fields} {q : Quotation} (h : Quotation.read fs = .ok q) :
    q.extra = fs.others Quotation.names := by
  simp only [Quotation.read, Checked.app_eq_ok, Checked.map_eq_ok] at h
  aesop

theorem Quotation.document (q : Quotation) (beside : Beside Quotation.names q.extra) :
    Document Quotation.names
      [(Name.type, some (.str "card")), (Name.variant, some (.str "quotation")),
        (Name.quote, some (.str q.quote)), (Name.author, q.author.map .str)]
      q.extra q.toFields := by
  refine ⟨?_, rfl, by decide +kernel, beside⟩
  simp only [Quotation.toFields, cardFields, Write.rows, Write.field_eq_row, Write.field?_eq_row,
    List.append_assoc, beside.written]
  rfl

theorem Quotation.read_toFields {q : Quotation} (beside : Beside Quotation.names q.extra) :
    Quotation.read q.toFields = .ok q := by
  have h := q.document beside
  rw [Quotation.read, h.required Read.text 2 rfl rfl, h.nullable Read.text 3 rfl fun _ _ => rfl,
    h.others]
  rfl

abbrev MessageCard.names : List FieldName :=
  [Name.type, Name.variant, Name.message]

theorem MessageCard.extra_read {fs : Fields} {m : MessageCard} (h : MessageCard.read fs = .ok m) :
    m.extra = fs.others MessageCard.names := by
  simp only [MessageCard.read, Checked.app_eq_ok, Checked.map_eq_ok] at h
  aesop

theorem MessageCard.document (m : MessageCard) (beside : Beside MessageCard.names m.extra) :
    Document MessageCard.names
      [(Name.type, some (.str "card")), (Name.variant, some (.str "message")),
        (Name.message, some (.str m.message))]
      m.extra m.toFields := by
  refine ⟨?_, rfl, by decide +kernel, beside⟩
  simp only [MessageCard.toFields, cardFields, Write.rows, Write.field_eq_row, List.append_assoc,
    beside.written]
  rfl

theorem MessageCard.read_toFields {m : MessageCard} (beside : Beside MessageCard.names m.extra) :
    MessageCard.read m.toFields = .ok m := by
  have h := m.document beside
  rw [MessageCard.read, h.required Read.text 2 rfl rfl, h.others]
  rfl

/-- An entry of an info card can be written. -/
def InfoEntry.Faithful : InfoEntry → Prop
  | .image i => Beside Image.names i.extra
  | .text t => t.Faithful

theorem InfoEntry.read_toJson {e : InfoEntry} (faithful : e.Faithful) :
    InfoEntry.read e.toJson = .ok e := by
  cases e with
  | image i =>
    have h := i.document faithful
    rw [InfoEntry.toJson, InfoEntry.read, readTagged_eq_ok]
    refine ⟨EntryType.image, h.get? 0 rfl, h.named, ?_⟩
    rw [InfoEntry.readAs, Image.read_toFields faithful]
    rfl
  | text t =>
    have h := t.document faithful.beside
    rw [InfoEntry.toJson, InfoEntry.read, readTagged_eq_ok]
    refine ⟨EntryType.text, h.get? 0 rfl, h.named, ?_⟩
    rw [InfoEntry.readAs, TextBlock.read_toFields faithful]
    rfl

abbrev InfoCard.names : List FieldName :=
  [Name.type, Name.variant, Name.content]

/-- An info card can be written, and so can its entries. -/
structure InfoCard.Faithful (c : InfoCard) : Prop where
  beside : Beside InfoCard.names c.extra
  entries : ∀ e ∈ c.content, e.Faithful

theorem InfoCard.document (c : InfoCard) (beside : Beside InfoCard.names c.extra) :
    Document InfoCard.names
      [(Name.type, some (.str "card")), (Name.variant, some (.str "info")),
        (Name.content, some (.arr (c.content.map InfoEntry.toJson)))]
      c.extra c.toFields := by
  refine ⟨?_, rfl, by decide +kernel, beside⟩
  simp only [InfoCard.toFields, cardFields, Write.rows, Write.field_eq_row, List.append_assoc,
    beside.written]
  rfl

theorem InfoCard.read_toFields {c : InfoCard} (faithful : c.Faithful) :
    InfoCard.read c.toFields = .ok c := by
  have h := c.document faithful.beside
  rw [InfoCard.read,
    h.optional (Read.listOf InfoEntry.read) 2 rfl
      (Read.listOf_map fun e he => InfoEntry.read_toJson (faithful.entries e he)), h.others]
  rfl

end Quiz
