/-
Quiz.Proofs.Content.ReadParts — the objects of a document that parts of items
are read from, and what follows for the parts.

`TextBlock.Part`, `InfoCard.Part`, `Selection.Part` and `Loading.Part` list the
objects that go into one part, each with the names of its fields. Where none of
these objects gives a field under both its spellings, and what the part keeps
is whole, the part is faithful: it can be written and read again.

A list under a name was read element by element (`Fields.optional_list_mem`),
and so was a table (`Fields.optional_map_mem`).
-/
import Quiz.Proofs.Content.WrittenParts
import Quiz.Proofs.Screen.Parsed

namespace Quiz

open Fields

variable {fs : Fields}

/-- What is kept of the fields of an object can be kept beside the others. -/
theorem Fields.beside_kept {names : List FieldName} {extra : Fields}
    (kept : extra = fs.others names) (named : fs.Named) (once : fs.SpeltOnce names)
    (whole : extra.Whole) : Beside names extra := by
  subst kept
  exact beside_others named once whole

theorem Fields.Whole.append {first second : Fields} (h : Whole (first ++ second)) :
    first.Whole ∧ second.Whole :=
  ⟨fun f hf => h f (List.mem_append_left _ hf), fun f hf => h f (List.mem_append_right _ hf)⟩

theorem Fields.Whole.of_flatMap {α : Type} {kept : α → Fields} {as : List α}
    (h : Whole (as.flatMap kept)) {a : α} (ha : a ∈ as) : (kept a).Whole :=
  fun f hf => h f (List.mem_flatMap.mpr ⟨a, ha, hf⟩)

/-! ## Texts -/

/-- The objects that a text is read from: its own, and those of its
segments. -/
inductive TextBlock.Part (fs : Fields) : List FieldName → Fields → Prop
  | own : Part fs TextBlock.names fs
  | segment {js : List Json} {part : Fields} (content : fs.get? "content" = some (.arr js))
      (mem : .obj part ∈ js) : Part fs Segment.names part

theorem TextContent.parts_read {j : Json} {c : TextContent} (h : TextContent.read j = .ok c)
    {s : Segment} (hs : s ∈ c.parts) :
    ∃ js part, j = .arr js ∧ .obj part ∈ js ∧ part.Named ∧ Segment.read part = .ok s := by
  cases j with
  | str text =>
    obtain rfl := Checked.ok.inj h
    cases hs
  | arr js =>
    rw [TextContent.read] at h
    · split at h
      · rename_i parts hparts
        obtain rfl := Checked.ok.inj h
        obtain ⟨j, hj, hread⟩ := exists_of_forall₂ (Checked.list_ok hparts).flip hs
        obtain ⟨part, rfl, -⟩ := readModel_ok hread
        exact ⟨js, part, rfl, hj, readModel_eq_ok.mp hread⟩
      · cases h
    · exact fun _ => Json.noConfusion
  | _ => cases h

theorem TextBlock.faithful {t : TextBlock} (h : TextBlock.read fs = .ok t) (named : fs.Named)
    (once : ∀ names part, TextBlock.Part fs names part → part.SpeltOnce names)
    (whole : Whole t.kept) : t.Faithful := by
  obtain ⟨hcontent, hextra⟩ := TextBlock.read_ok h
  obtain ⟨hkept, hwhole⟩ := whole.append
  refine ⟨beside_kept hextra named (once _ _ .own) hwhole, fun s hs => ?_⟩
  obtain ⟨j, hj, hread⟩ := Fields.required_get? hcontent
  obtain ⟨js, part, rfl, hmem, hnamed, hsegment⟩ := TextContent.parts_read hread hs
  have hs' : Whole s.extra := by
    cases hc : t.content with
    | plain text =>
      rw [hc] at hs
      cases hs
    | segments parts =>
      rw [hc] at hs hkept
      exact hkept.of_flatMap hs
  exact beside_kept (Segment.extra_read hsegment) hnamed (once _ _ (.segment hj hmem)) hs'

/-! ## Parts in lists and under names -/

/-- What is in a list that may be absent was read from an element of it. -/
theorem Fields.optional_list_mem {α : Type} {key : String} {read : Json → Checked α} {as : List α}
    (h : fs.optional (.only key) [] (Read.listOf read) = .ok as) {a : α} (ha : a ∈ as) :
    ∃ js j, fs.get? key = some (.arr js) ∧ j ∈ js ∧ read j = .ok a := by
  rcases optional_ok h with ⟨k, j, hentry, hread⟩ | ⟨-, rfl⟩
  · rw [entry?_only] at hentry
    obtain ⟨j', hj, heq⟩ := Option.map_eq_some_iff.mp hentry
    obtain ⟨-, rfl⟩ := Prod.mk.inj heq
    cases j' with
    | arr js =>
      obtain ⟨i, hi, hread⟩ := exists_of_forall₂ (Checked.list_ok hread).flip ha
      exact ⟨js, i, hj, hi, hread⟩
    | _ => cases hread
  · cases ha

/-- What is in a table that may be absent was read from a field of it. -/
theorem Fields.optional_map_mem {α : Type} {name : FieldName} {read : Json → Checked α}
    {as : List (String × α)} (h : fs.optional name [] (Read.mapOf read) = .ok as)
    {a : String × α} (ha : a ∈ as) :
    ∃ k entries f, fs.entry? name = some (k, .obj entries) ∧ f ∈ entries ∧
      read f.2 = .ok a.2 := by
  rcases optional_ok h with ⟨k, j, hentry, hread⟩ | ⟨-, rfl⟩
  · cases j with
    | obj entries =>
      obtain ⟨f, hf, hread⟩ := exists_of_forall₂ (Read.fieldsOf_ok hread).flip ha
      exact ⟨k, entries, f, hentry, hf, hread⟩
    | _ => cases hread
  · cases ha

/-! ## Info cards -/

/-- The objects that an info card is read from: its own, and those of its
entries. -/
inductive InfoCard.Part (fs : Fields) : List FieldName → Fields → Prop
  | own : Part fs InfoCard.names fs
  | image {js : List Json} {entry : Fields} (content : fs.get? "content" = some (.arr js))
      (mem : .obj entry ∈ js) (type : entry.get? "type" = some (.str "image")) :
      Part fs Image.names entry
  | text {js : List Json} {entry : Fields} {names : List FieldName} {part : Fields}
      (content : fs.get? "content" = some (.arr js)) (mem : .obj entry ∈ js)
      (type : entry.get? "type" = some (.str "text")) (inner : TextBlock.Part entry names part) :
      Part fs names part

theorem InfoCard.read_ok {c : InfoCard} (h : InfoCard.read fs = .ok c) :
    fs.optional Name.content [] (Read.listOf InfoEntry.read) = .ok c.content ∧
      c.extra = fs.others InfoCard.names := by
  simp only [InfoCard.read, Checked.app_eq_ok, Checked.map_eq_ok] at h
  aesop

theorem InfoCard.faithful {c : InfoCard} (h : InfoCard.read fs = .ok c) (named : fs.Named)
    (once : ∀ names part, InfoCard.Part fs names part → part.SpeltOnce names)
    (whole : Whole c.kept) : c.Faithful := by
  obtain ⟨hcontent, hextra⟩ := InfoCard.read_ok h
  obtain ⟨hentries, hwhole⟩ := whole.append
  refine ⟨beside_kept hextra named (once _ _ .own) hwhole, fun e he => ?_⟩
  have hkept : Whole e.kept := hentries.of_flatMap he
  obtain ⟨js, j, hj, hmem, hread⟩ := optional_list_mem hcontent he
  obtain ⟨type, entry, rfl, -⟩ := readTagged_ok hread
  obtain ⟨type, htype, hnamed, hread⟩ := readTagged_eq_ok.mp hread
  cases type with
  | image =>
    obtain ⟨i, hi, rfl⟩ := Checked.map_eq_ok.mp hread
    exact beside_kept (Image.extra_read hi) hnamed (once _ _ (.image hj hmem htype)) hkept
  | text =>
    obtain ⟨t, ht, rfl⟩ := Checked.map_eq_ok.mp hread
    exact TextBlock.faithful ht hnamed
      (fun names part inner => once names part (.text hj hmem htype inner)) hkept

/-! ## Selections -/

/-- The objects that a selection is read from: its own, those of its options,
and those of its response cards. -/
inductive Selection.Part (fs : Fields) : List FieldName → Fields → Prop
  | own : Part fs Selection.names fs
  | option {js : List Json} {option : Fields} (variant : FaceVariant)
      (options : fs.get? "options" = some (.arr js)) (mem : .obj option ∈ js)
      (tag : option.get? "variant" = some (.str (Worded.word variant))) :
      Part fs (Choice.names variant) option
  | card {key : String} {cards : Fields} {k : String} {card : Fields}
      (entry : fs.entry? Name.responseCards = some (key, .obj cards))
      (mem : (k, .obj card) ∈ cards) : Part fs ResponseCard.names card

/-- The fields that a selection, its options and its response cards do not
know. The documents of conditional screens are no such fields. -/
def Selection.extras (s : Selection) : Fields :=
  s.options.flatMap (·.extra) ++ s.responseCards.flatMap (·.2.extra) ++ s.extra

theorem readGrid_str {j : Json} {s : String} (h : readGrid j = .ok s) :
    readGrid (.str s) = .ok s := by
  obtain ⟨t, -, h⟩ := Checked.andThen_eq_ok.mp h
  have hst : t = s := by
    unfold Read.spelled at h
    split at h
    · cases h
    · dsimp only at h
      split at h
      · exact Checked.ok.inj h
      · cases h
  subst hst
  exact h

theorem Selection.parts_read {s : Selection} (h : Selection.read fs = .ok s) :
    (∀ layout, s.layout = some layout → readGrid (.str layout) = .ok layout) ∧
      fs.optional Name.responseCards []
          (Read.mapOf (readModel "ResponseCard" ResponseCard.read)) = .ok s.responseCards ∧
      s.extra = fs.others Selection.names := by
  simp only [Selection.read, Checked.app_eq_ok, Checked.map_eq_ok] at h
  obtain ⟨_, extra, h, hextra, rfl⟩ := h
  obtain ⟨_, _, h, -, rfl⟩ := h
  obtain ⟨_, _, h, -, rfl⟩ := h
  obtain ⟨_, _, h, -, rfl⟩ := h
  obtain ⟨_, _, h, -, rfl⟩ := h
  obtain ⟨_, cards, h, hcards, rfl⟩ := h
  obtain ⟨_, _, h, -, rfl⟩ := h
  obtain ⟨_, layout?, ⟨_, -, rfl⟩, hlayout, rfl⟩ := h
  refine ⟨fun layout heq => ?_, hcards, (Checked.ok.inj hextra).symm⟩
  obtain rfl : layout? = some layout := heq
  obtain ⟨j, hj⟩ := Fields.nullable_ok hlayout
  exact readGrid_str hj

theorem Selection.faithful {s : Selection} (h : Selection.read fs = .ok s) (named : fs.Named)
    (once : ∀ names part, Selection.Part fs names part → part.SpeltOnce names)
    (whole : Whole s.extras) (finite : ∀ f ∈ s.branches, f.2.allFinite = true) : s.Faithful := by
  obtain ⟨hlayout, hcards, hextra⟩ := Selection.parts_read h
  obtain ⟨hparts, hwhole⟩ := whole.append
  obtain ⟨hoptions, hresponses⟩ := hparts.append
  refine ⟨beside_kept hextra named (once _ _ .own) hwhole, hlayout, fun c hc => ?_,
    fun card hcard => ?_, finite⟩
  · obtain ⟨js, j, hj, hmem, hread⟩ := optional_list_mem (Selection.read_ok h).1 hc
    obtain ⟨_, option, rfl, -⟩ := readTagged_ok hread
    obtain ⟨variant, htag, hnamed, hread⟩ := readTagged_eq_ok.mp hread
    obtain ⟨rfl, hkept⟩ := Choice.extra_read hread
    exact beside_kept hkept hnamed (once _ _ (.option _ hj hmem htag)) (hoptions.of_flatMap hc)
  · obtain ⟨key, cards, ⟨k, j⟩, hentry, hmem, hread⟩ := optional_map_mem hcards hcard
    obtain ⟨card', rfl, -⟩ := readModel_ok hread
    obtain ⟨hnamed, hread⟩ := readModel_eq_ok.mp hread
    exact beside_kept (ResponseCard.extra_read hread) hnamed (once _ _ (.card hentry hmem))
      (hresponses.of_flatMap hcard)

/-! ## Loading items -/

/-- The objects that a popup is read from: its own, and those of its
options. -/
inductive Popup.Part (fs : Fields) : List FieldName → Fields → Prop
  | own : Part fs Popup.names fs
  | option {js : List Json} {option : Fields} (options : fs.get? "options" = some (.arr js))
      (mem : .obj option ∈ js) : Part fs PopupOption.names option

theorem Popup.parts_read {p : Popup} (h : Popup.read fs = .ok p) :
    fs.optional Name.options [] (Read.listOf (readModel "PopupOption" PopupOption.read)) =
        .ok p.options ∧
      p.extra = fs.others Popup.names := by
  simp only [Popup.read, Checked.app_eq_ok, Checked.map_eq_ok] at h
  aesop

theorem Popup.faithful {p : Popup} (h : Popup.read fs = .ok p) (named : fs.Named)
    (once : ∀ names part, Popup.Part fs names part → part.SpeltOnce names)
    (whole : Whole p.kept) : p.Faithful := by
  obtain ⟨hoptions, hextra⟩ := Popup.parts_read h
  obtain ⟨hkept, hwhole⟩ := whole.append
  refine ⟨beside_kept hextra named (once _ _ .own) hwhole, Popup.read_ok h, fun o ho => ?_⟩
  obtain ⟨js, j, hj, hmem, hread⟩ := optional_list_mem hoptions ho
  obtain ⟨option, rfl, -⟩ := readModel_ok hread
  obtain ⟨hnamed, hread⟩ := readModel_eq_ok.mp hread
  exact beside_kept (PopupOption.extra_read hread) hnamed (once _ _ (.option hj hmem))
    (hkept.of_flatMap ho)

/-- The objects that a loading item is read from: its own, and those of its
popup. -/
inductive Loading.Part (fs : Fields) : List FieldName → Fields → Prop
  | own : Part fs Loading.names fs
  | popup {popup : Fields} {names : List FieldName} {part : Fields}
      (held : fs.get? "popup" = some (.obj popup)) (inner : Popup.Part popup names part) :
      Part fs names part

theorem Loading.parts_read {l : Loading} (h : Loading.read fs = .ok l) :
    fs.nullable Name.popup (readModel "LoadingPopup" Popup.read) = .ok l.popup ∧
      l.extra = fs.others Loading.names := by
  simp only [Loading.read, Checked.app_eq_ok, Checked.map_eq_ok] at h
  aesop

theorem Loading.faithful {l : Loading} (h : Loading.read fs = .ok l) (named : fs.Named)
    (once : ∀ names part, Loading.Part fs names part → part.SpeltOnce names)
    (whole : Whole l.kept) : l.Faithful := by
  obtain ⟨hpopup, hextra⟩ := Loading.parts_read h
  obtain ⟨hkept, hwhole⟩ := whole.append
  refine ⟨beside_kept hextra named (once _ _ .own) hwhole, fun popup heq => ?_⟩
  rw [heq] at hpopup hkept
  rcases nullable_cases hpopup with ⟨-, hnone⟩ | ⟨j, p, hj, -, hread, hp⟩
  · cases hnone
  · obtain rfl := Option.some.inj hp
    obtain ⟨part, rfl, -⟩ := readModel_ok hread
    obtain ⟨hnamed, hread⟩ := readModel_eq_ok.mp hread
    exact Popup.faithful hread hnamed (fun names part inner => once names part (.popup hj inner))
      hkept

end Quiz
