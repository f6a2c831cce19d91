/-
Quiz.Proofs.Screen.Substitution — what replacing placeholders changes in a
document, and what it leaves as it is.

* `Filled` — what may become of the value at a place. Only a text becomes another
  one: an image address that is a token, or the content of a text or of one of its
  segments.
* `matched_fillContent` — the content of a text keeps its shape when each of its
  segments has a content.
* `matched_field`, `matched_textContent` — what becomes of a field, and of the content
  of a text; `matched_fill` — so of a document, place by place.
* `fillText_eq_self` — a text in which no token occurs is not changed;
  `fill_eq_self` — nor is a document of such texts.
* `substituted` — both together, for the replacing of all placeholders.
-/
import Quiz.Proofs.Json.Place
import Quiz.Proofs.Screen.Placeholder

namespace Quiz

theorem Text.replaceFrom_of_not_infix {token cs : List Text.CodePoint}
    (replacement : List Text.CodePoint) (h : ¬ token <:+: cs) :
    Text.replaceFrom token replacement 0 cs = cs := by
  induction cs with
  | nil => rfl
  | cons c rest ih =>
    have hhere : ¬ token.isPrefixOf (c :: rest) = true :=
      fun hp => h (List.isPrefixOf_iff_prefix.mp hp).isInfix
    have hrest : ¬ token <:+: rest := fun hr => h (hr.trans (List.suffix_cons c rest).isInfix)
    rw [Text.replaceFrom, if_neg hhere, ih hrest]

/-- A text stays as it is if the token that is replaced does not occur in it. -/
theorem Text.replaceAll_of_not_infix {s token : String} (replacement : String)
    (h : ¬ Text.codePoints token <:+: Text.codePoints s) :
    Text.replaceAll s token replacement = s := by
  have htoken : ¬ token.isEmpty = true := by
    rw [String.isEmpty_iff]
    rintro rfl
    exact h List.nil_prefix.isInfix
  unfold Text.replaceAll
  dsimp only
  rw [if_neg htoken, Text.replaceFrom_of_not_infix _ h, if_pos rfl]

namespace Placeholder

variable {ps : Placeholders}

/-! ## Targets -/

/-- The place of an image address. -/
def Address (place : Json.Place) : Prop :=
  ∃ key ∈ imageKeys, place.getLast? = some (.field key)

/-- The way from the content of a text to a text in it: it ends there, or it goes
on with the content of a segment. -/
inductive InSegments : Json.Place → Prop
  | here : InSegments []
  | segment (i : Nat) {rest : Json.Place} (inner : InSegments rest) :
      InSegments (.element i :: .field "content" :: rest)

/-- The place is the content of a text or a heading, or of one of its segments. -/
def InText (raw : Json) (place : Json.Place) : Prop :=
  ∃ front fs inner, raw.at? front = some (.obj fs) ∧ holdsText fs = true ∧
    InSegments inner ∧ place = front ++ .field "content" :: inner

/-- Among segments, every object has a content, and so have the segments in this
content. -/
inductive Furnished : Json → Prop
  | intro {j : Json}
      (has : ∀ items fs, j = .arr items → .obj fs ∈ items →
        ∃ content, Table.get? fs "content" = some content)
      (inner : ∀ items fs content, j = .arr items → .obj fs ∈ items →
        Table.get? fs "content" = some content → Furnished content) : Furnished j

/-- What may become of the value at a place of a document. -/
structure Filled (ps : Placeholders) (raw : Json) (place : Json.Place) (v v' : Json) : Prop where
  /-- An image address that is a token becomes what the token stands for. -/
  address : ∀ token replacement, Address place → v = .str token →
    ps.lookup token = some replacement → v' = .str replacement
  /-- Nothing else is changed but the content of texts. -/
  others : Json.SameFrame v v' ∨ ∃ s t, v = .str s ∧ v' = .str t ∧
    (Address place ∧ ps.lookup s = some t ∨ InText raw place)

theorem address_field {key : String} : Address [.field key] ↔ key ∈ imageKeys := by
  simp [Address]

theorem address_cons {place : Json.Place} (step : Json.Step) (further : place ≠ []) :
    Address (step :: place) ↔ Address place := by
  obtain ⟨next, rest, rfl⟩ := List.exists_cons_of_ne_nil further
  rw [Address, Address, List.getLast?_cons_cons]

theorem Address.ne_nil {place : Json.Place} (h : Address place) : place ≠ [] := by
  rintro rfl
  obtain ⟨key, -, hlast⟩ := h
  cases hlast

/-- An element is no image address, whatever its array is. -/
theorem Address.of_element {i : Nat} {place : Json.Place} (h : Address (.element i :: place)) :
    Address place := by
  cases place with
  | nil => simp [Address] at h
  | cons next rest => exact (address_cons _ (List.cons_ne_nil next rest)).mp h

theorem Address.of_field {key : String} {place : Json.Place} (noImage : key ∉ imageKeys)
    (h : Address (.field key :: place)) : Address place := by
  cases place with
  | nil => exact absurd (address_field.mp h) noImage
  | cons next rest => exact (address_cons _ (List.cons_ne_nil next rest)).mp h

/-- The content of a text is no image address. -/
theorem InSegments.not_address {inner : Json.Place} (h : InSegments inner) :
    ¬ Address (.field "content" :: inner) := by
  induction h with
  | here => exact fun h => h.of_field (by decide) |>.ne_nil rfl
  | segment i _ ih => exact fun h => ih (h.of_field (by decide)).of_element

theorem InText.cons {raw inner : Json} {place : Json.Place} {step : Json.Step}
    (h : InText inner place) (found : raw.step? step = some inner) :
    InText raw (step :: place) := by
  obtain ⟨front, fs, rest, hfront, htext, hrest, rfl⟩ := h
  exact ⟨step :: front, fs, rest, Option.bind_eq_some_iff.mpr ⟨inner, found, hfront⟩, htext,
    hrest, rfl⟩

/-- What is filled inside a value is filled in the whole document. -/
theorem Filled.cons {raw inner v v' : Json} {place : Json.Place} {step : Json.Step}
    (h : Filled ps inner place v v') (found : raw.step? step = some inner)
    (address : ∀ s, v = .str s → Address (step :: place) → Address place) :
    Filled ps raw (step :: place) v v' where
  address token replacement hplace hv := h.address token replacement (address token hv hplace) hv
  others := h.others.imp_right fun ⟨s, t, hs, ht, hplace⟩ =>
    ⟨s, t, hs, ht, hplace.imp (And.imp_left fun ha => (address_cons step ha.ne_nil).mpr ha)
      fun hin => hin.cons found⟩

theorem Filled.top (ps : Placeholders) (raw v : Json) {v' : Json} (frame : Json.SameFrame v v') :
    Filled ps raw [] v v' where
  address _ _ hplace := absurd rfl hplace.ne_nil
  others := Or.inl frame

/-- The values agree on the outermost level, or both are texts. -/
def Alike (v v' : Json) : Prop :=
  Json.SameFrame v v' ∨ ∃ s t, v = .str s ∧ v' = .str t

theorem alike_arr {v : Json} {items' : List Json} (h : Alike v (.arr items')) :
    ∃ items, v = .arr items ∧ items.length = items'.length := by
  rcases h with h | ⟨_, _, _, h⟩
  · exact Json.sameFrame_arr.mp h.symm
  · cases h

theorem alike_obj {v : Json} {fs' : Fields} (h : Alike v (.obj fs')) : ∃ fs, v = .obj fs := by
  rcases h with h | ⟨_, _, _, h⟩
  · obtain ⟨fs, hfs, -⟩ := Json.sameFrame_obj.mp h.symm
    exact ⟨fs, hfs⟩
  · cases h

theorem Filled.alike {raw v v' : Json} {place : Json.Place} (h : Filled ps raw place v v') :
    Alike v v' :=
  h.others.imp_right fun ⟨s, t, hs, ht, _⟩ => ⟨s, t, hs, ht⟩

/-! ## The content of a text -/

/-- What may become of the value at a place of a content. -/
def Rewritten (place : Json.Place) (v v' : Json) : Prop :=
  Json.SameFrame v v' ∨ ∃ s t, v = .str s ∧ v' = .str t ∧ InSegments place

theorem fillSegments_eq_map (ps : Placeholders) (items : List Json) :
    fillSegments ps items = items.map fun
      | .obj fs => .obj (fillSegment ps fs)
      | j => j := by
  induction items with
  | nil => rw [fillSegments, List.map_nil]
  | cons j rest ih => cases j <;> simp [fillSegments, ih]

/-- In a segment with a content, the content is filled. -/
theorem fillSegment_eq_put {fs : Fields} {content : Json}
    (h : fs.get? "content" = some content) :
    fillSegment ps fs = fs.put "content" (fillContent ps content) := by
  induction fs with
  | nil => cases h
  | cons f rest ih =>
    obtain ⟨k, j⟩ := f
    rw [Table.get?_cons] at h
    rw [fillSegment, Table.put]
    by_cases hk : k = "content"
    · rw [if_pos hk] at h ⊢
      rw [if_pos hk, Option.some.inj h]
    · rw [if_neg hk] at h ⊢
      rw [if_neg hk, ih h]

theorem matched_fillContent {content : Json} (furnished : Furnished content) :
    Json.Matched Rewritten content (fillContent ps content) := by
  induction furnished with
  | @intro j has inner ih =>
    cases j with
    | str s =>
      rw [fillContent]
      exact .leaf (by rintro (_ | _) <;> rfl) (Or.inr ⟨_, _, rfl, rfl, .here⟩)
    | arr items =>
      rw [fillContent, fillSegments_eq_map]
      refine Json.Matched.arr (Or.inl (by simp [Json.SameFrame])) fun i v hv => ?_
      have hmem := List.mem_of_getElem? hv
      refine ⟨_, by rw [List.getElem?_map, hv, Option.map_some], ?_⟩
      cases v with
      | obj fs =>
        obtain ⟨content, hcontent⟩ := has items fs rfl hmem
        have hkey : "content" ∈ Table.keys fs := Table.isSome_get?_iff.mp (by rw [hcontent]; rfl)
        show Json.Matched _ (.obj fs) (.obj (fillSegment ps fs))
        rw [fillSegment_eq_put hcontent]
        refine .put hcontent (Or.inl (Table.keys_put_of_mem _ hkey)) ?_
          fun _ _ _ w => Or.inl (.refl w)
        refine (ih items fs content rfl hmem hcontent).mono fun place v v' _ h => ?_
        rcases h with hframe | ⟨s, t, hs, ht, hplace⟩
        · exact Or.inl hframe
        · exact Or.inr ⟨s, t, hs, ht, .segment i hplace⟩
      | _ => exact .refl fun place v => Or.inl (.refl v)
    | _ =>
      rw [fillContent] <;> first
        | exact .refl fun place v => Or.inl (.refl v)
        | simp

theorem Furnished.of_objects {j : Json}
    (h : ∀ items fs, j = .arr items → .obj fs ∈ items →
      ∃ content, Table.get? fs "content" = some content ∧ Furnished content) : Furnished j := by
  refine .intro (fun items fs heq hmem => ?_) fun items fs content heq hmem hget => ?_
  · obtain ⟨content, hcontent, -⟩ := h items fs heq hmem
    exact ⟨content, hcontent⟩
  · obtain ⟨found, hfound, hfurnished⟩ := h items fs heq hmem
    rwa [Option.some.inj (hget.symm.trans hfound)]

/-- Whether all segments have a content can be told by the shape. -/
theorem Furnished.of_matched {R : Json.Place → Json → Json → Prop} {j j' : Json}
    (furnished : Furnished j) (matched : Json.Matched R j j')
    (alike : ∀ place v v', R place v v' → Alike v v') : Furnished j' := by
  induction furnished generalizing R j' with
  | @intro j has inner ih =>
    refine .of_objects ?_
    rintro items' fs' rfl hmem'
    -- the object stands where a segment stood before, and has its names
    obtain ⟨i, hi⟩ := List.getElem?_of_mem hmem'
    obtain ⟨items, rfl, hlength⟩ := alike_arr (alike _ _ _ matched.top)
    obtain ⟨v, hv⟩ : ∃ v, items[i]? = some v := by
      have hlt := (List.getElem?_eq_some_iff.mp hi).1
      rw [← hlength] at hlt
      exact ⟨_, List.getElem?_eq_getElem hlt⟩
    obtain ⟨v', hv', helement⟩ := matched.elements hv
    obtain rfl := Option.some.inj (hi.symm.trans hv')
    obtain ⟨fs, rfl⟩ := alike_obj (alike _ _ _ helement.top)
    have hmem := List.mem_of_getElem? hv
    obtain ⟨content, hget⟩ := has items fs rfl hmem
    obtain ⟨content', hget', hmatched⟩ := helement.fields hget
    exact ⟨content', hget', ih items fs content rfl hmem hget hmatched fun _ => alike _⟩

/-! ## A document -/

/-- In every text of a document, the segments have their content. -/
def FurnishedTexts (raw : Json) : Prop :=
  ∀ fs content, Json.Within (.obj fs) raw → holdsText fs = true →
    Table.get? fs "content" = some content → Furnished content

theorem furnishedTexts_arr {items : List Json} :
    FurnishedTexts (.arr items) ↔ ∀ j ∈ items, FurnishedTexts j := by
  constructor
  · exact fun h j hj fs content hfs => h fs content (.element hj hfs)
  · rintro h fs content (_ | ⟨hj, hfs⟩)
    exact h _ hj fs content hfs

theorem furnishedTexts_obj {fs : Fields} :
    FurnishedTexts (.obj fs) ↔
      (∀ content, holdsText fs = true → Table.get? fs "content" = some content →
        Furnished content) ∧ ∀ f ∈ fs, FurnishedTexts f.2 := by
  constructor
  · exact fun h => ⟨fun content => h fs content .self,
      fun f hf fs' content hfs => h fs' content (.field hf hfs)⟩
  · rintro ⟨hself, hfields⟩ fs' content (_ | _ | ⟨hf, hfs⟩)
    · exact hself content
    · exact hfields _ hf fs' content hfs

theorem holdsText_fillFields (ps : Placeholders) (fs : Fields) :
    holdsText (fillFields ps fs) = holdsText fs := by
  unfold holdsText
  rw [get?_fillFields]
  cases fs.get? "type" with
  | none => rfl
  | some type => simp only [Option.map_some, isText_fill]

theorem keys_fillObject (ps : Placeholders) (fs : Fields) :
    Table.keys (fillObject ps fs) = Table.keys fs := by
  have himages := Table.keys_mapEntries fs (fillImage ps)
  rcases fillObject_cases ps fs with h | ⟨content, -, hcontent, h⟩
  · rw [h, himages]
  · have hkey : "content" ∈ Table.keys fs := Table.isSome_get?_iff.mp (by rw [hcontent]; rfl)
    rw [h, Table.keys_put_of_mem _ (himages ▸ hkey), himages]

theorem fillImage_of_not_str {key : String} {j : Json} (h : ∀ s, j ≠ .str s) :
    fillImage ps key j = j := by
  cases j with
  | str s => exact absurd rfl (h s)
  | _ => rfl

theorem filled_image (ps : Placeholders) (raw : Json) (key s : String) :
    Filled ps raw [.field key] (.str s) (fillImage ps key (.str s)) := by
  by_cases hkey : key ∈ imageKeys
  · have himage : fillImage ps key (.str s) = .str ((ps.lookup s).getD s) := by
      simp [fillImage, hkey]
    rw [himage]
    refine ⟨?_, ?_⟩
    · rintro token replacement - ⟨⟩ hlookup
      rw [hlookup, Option.getD_some]
    · cases hlookup : ps.lookup s with
      | none => exact Or.inl rfl
      | some t => exact Or.inr ⟨s, t, rfl, rfl, Or.inl ⟨address_field.mpr hkey, hlookup⟩⟩
  · rw [fillImage_of_not_mem hkey]
    exact ⟨fun _ _ haddress => absurd (address_field.mp haddress) hkey, Or.inl rfl⟩

/-- What was filled may be the content of a text, and be filled as such then. -/
theorem Filled.rewritten {fs : Fields} {content v v' v'' : Json} {place : Json.Place}
    (h : Filled ps content place v v') (rewritten : Rewritten place v' v'')
    (text : holdsText fs = true) (found : fs.get? "content" = some content) :
    Filled ps (.obj fs) (.field "content" :: place) v v'' := by
  have hfilled : Filled ps (.obj fs) (.field "content" :: place) v v' :=
    h.cons found fun _ _ => Address.of_field (by decide)
  rcases rewritten with hframe | ⟨s, t, rfl, rfl, hplace⟩
  · refine ⟨fun token replacement haddress hv hlookup => ?_, ?_⟩
    · rw [hfilled.address token replacement haddress hv hlookup] at hframe
      exact Json.sameFrame_str.mp hframe
    · rcases hfilled.others with hsame | ⟨s, t, hs, rfl, htarget⟩
      · exact Or.inl (hsame.trans hframe)
      · exact Or.inr ⟨s, t, hs, Json.sameFrame_str.mp hframe, htarget⟩
  · refine ⟨fun token replacement haddress => absurd haddress hplace.not_address, Or.inr ?_⟩
    have hin : InText (.obj fs) (.field "content" :: place) :=
      ⟨[], fs, place, rfl, text, hplace, rfl⟩
    rcases hfilled.alike with hsame | ⟨u, _, hu, -⟩
    · exact ⟨s, t, Json.sameFrame_str.mp hsame.symm, rfl, Or.inr hin⟩
    · exact ⟨u, t, hu, rfl, Or.inr hin⟩

/-- A field is filled inside, and then as an image address if it is one. -/
theorem matched_field {fs : Fields} {key : String} {v : Json} (found : fs.get? key = some v)
    (inner : Json.Matched (Filled ps v) v (fill ps v)) :
    Json.Matched (fun rest => Filled ps (.obj fs) (.field key :: rest)) v
      (fillImage ps key (fill ps v)) := by
  by_cases hstr : ∃ s, v = .str s
  · obtain ⟨s, rfl⟩ := hstr
    rw [fill_eq_str.mpr rfl]
    exact .leaf (by rintro (_ | _) <;> rfl) (filled_image ps _ key s)
  · rw [fillImage_of_not_str fun s hs => hstr ⟨s, fill_eq_str.mp hs⟩]
    refine inner.mono fun place w w' hw h => h.cons found fun s hs haddress => ?_
    refine (address_cons _ ?_).mp haddress
    rintro rfl
    exact hstr ⟨s, (Option.some.inj hw).trans hs⟩

/-- The content of a text is filled inside, and then as such: it still has the shape
of the content by which the segments have theirs. -/
theorem matched_textContent {fs : Fields} {content : Json} (text : holdsText fs = true)
    (found : fs.get? "content" = some content) (furnished : Furnished content)
    (inner : Json.Matched (Filled ps content) content (fill ps content)) :
    Json.Matched (fun rest => Filled ps (.obj fs) (.field "content" :: rest)) content
      (fillContent ps (fill ps content)) := by
  have hfurnished : Furnished (fill ps content) :=
    furnished.of_matched inner fun _ _ _ => Filled.alike
  exact inner.trans (matched_fillContent hfurnished)
    fun place w w' w'' h h' => h.rewritten h' text found

/-- A document keeps its shape, and each text in it that is not a target. -/
theorem matched_fill (ps : Placeholders) {raw : Json} (furnished : FurnishedTexts raw) :
    Json.Matched (Filled ps raw) raw (fill ps raw) := by
  induction raw using Json.value_induction with
  | arr items ih =>
    rw [fill, fillItems_eq_map]
    refine .arr (.top _ _ _ (by simp [Json.SameFrame])) fun i v hv => ?_
    have hmem := List.mem_of_getElem? hv
    have hmatched := ih v hmem (furnishedTexts_arr.mp furnished v hmem)
    refine ⟨fill ps v, by rw [List.getElem?_map, hv, Option.map_some], hmatched.mono ?_⟩
    exact fun place w w' _ h => h.cons hv fun _ _ => Address.of_element
  | obj fs ih =>
    obtain ⟨hself, hfields⟩ := furnishedTexts_obj.mp furnished
    have hkeys : Table.keys (fillObject ps (fillFields ps fs)) = Table.keys fs := by
      rw [keys_fillObject, fillFields_eq_map]
      exact Table.keys_mapEntries fs fun _ => fill ps
    rw [fill]
    refine .obj (.top _ _ _ hkeys) fun key v hv => ?_
    have hmem := Table.mem_of_get? hv
    have hmatched := ih (key, v) hmem (hfields (key, v) hmem)
    by_cases hkey : "content" = key
    · subst hkey
      rcases get?_fillObject_content ps (fillFields ps fs) with h | ⟨htext, h⟩
      · have hfield := matched_field hv hmatched
        rw [fillImage_of_not_mem (by decide)] at hfield
        rw [h, get?_fillFields, hv]
        exact ⟨_, rfl, hfield⟩
      · rw [holdsText_fillFields] at htext
        rw [h, get?_fillFields, hv]
        exact ⟨_, rfl, matched_textContent htext hv (hself v htext hv) hmatched⟩
    · rw [get?_fillObject hkey, get?_fillFields, hv]
      exact ⟨_, rfl, matched_field hv hmatched⟩
  | _ =>
    rw [fill] <;> first
      | exact .leaf (by rintro (_ | _) <;> rfl) (.top _ _ _ (.refl _))
      | simp

/-! ## Documents without tokens -/

/-- No token occurs in the text. -/
def TokenFree (ps : Placeholders) (s : String) : Prop :=
  ∀ p ∈ ps, ¬ Text.codePoints p.1 <:+: Text.codePoints s

instance (ps : Placeholders) (s : String) : Decidable (TokenFree ps s) :=
  inferInstanceAs (Decidable (∀ p ∈ ps, ¬ Text.codePoints p.1 <:+: Text.codePoints s))

theorem TokenFree.lookup_eq_none {s : String} (free : TokenFree ps s) : ps.lookup s = none := by
  rw [List.lookup_eq_none_iff]
  intro p hp
  rw [bne_iff_ne]
  rintro rfl
  exact free p hp (List.infix_refl _)

theorem fillText_eq_self {s : String} (free : TokenFree ps s) : fillText ps s = s := by
  unfold fillText
  induction ps with
  | nil => rfl
  | cons p rest ih =>
    obtain ⟨token, replacement⟩ := p
    rw [List.foldl_cons]
    dsimp only
    rw [Text.replaceAll_of_not_infix replacement (free _ List.mem_cons_self)]
    exact ih fun p hp => free p (List.mem_cons_of_mem _ hp)

theorem fillImage_eq_self {key : String} {j : Json} (free : j.AllTexts (TokenFree ps)) :
    fillImage ps key j = j := by
  cases j with
  | str s => simp [fillImage, (Json.allTexts_str.mp free).lookup_eq_none]
  | _ => rfl

theorem images_eq_self {fs : Fields} (free : ∀ f ∈ fs, f.2.AllTexts (TokenFree ps)) :
    (fs.map fun (k, j) => (k, fillImage ps k j)) = fs := by
  refine (List.map_congr_left fun f hf => ?_).trans (List.map_id fs)
  exact Prod.ext rfl (fillImage_eq_self (free f hf))

theorem fillContent_eq_self {content : Json} (furnished : Furnished content)
    (free : content.AllTexts (TokenFree ps)) : fillContent ps content = content := by
  induction furnished with
  | @intro j has inner ih =>
    cases j with
    | str s =>
      rw [fillContent, fillText_eq_self (Json.allTexts_str.mp free)]
    | arr items =>
      rw [Json.allTexts_arr] at free
      rw [fillContent, fillSegments_eq_map]
      congr 1
      refine (List.map_congr_left fun item hitem => ?_).trans (List.map_id items)
      cases item with
      | obj fs =>
        have hfree := Json.allTexts_obj.mp (free _ hitem)
        obtain ⟨content, hcontent⟩ := has items fs rfl hitem
        have hmem := Table.mem_of_get? hcontent
        have hself : fillContent ps content = content :=
          ih items fs content rfl hitem hcontent (hfree _ hmem)
        show Json.obj (fillSegment ps fs) = .obj fs
        rw [fillSegment_eq_put hcontent, hself, Table.put_of_get? hcontent]
      | _ => rfl
    | _ => rw [fillContent] <;> simp

/-- A document in which no token occurs is left as it is. -/
theorem fill_eq_self {raw : Json} (furnished : FurnishedTexts raw)
    (free : raw.AllTexts (TokenFree ps)) : fill ps raw = raw := by
  induction raw using Json.value_induction with
  | arr items ih =>
    rw [Json.allTexts_arr] at free
    rw [furnishedTexts_arr] at furnished
    rw [fill, fillItems_eq_map]
    congr 1
    refine (List.map_congr_left fun item hitem => ?_).trans (List.map_id items)
    exact ih item hitem (furnished item hitem) (free item hitem)
  | obj fs ih =>
    rw [Json.allTexts_obj] at free
    obtain ⟨hself, hfurnished⟩ := furnishedTexts_obj.mp furnished
    have hfields : fillFields ps fs = fs := by
      rw [fillFields_eq_map]
      refine (List.map_congr_left fun f hf => ?_).trans (List.map_id fs)
      exact Prod.ext rfl (ih f hf (hfurnished f hf) (free f hf))
    have himages := images_eq_self free
    rw [fill, hfields]
    rcases fillObject_cases ps fs with h | ⟨content, htext, hcontent, h⟩
    · rw [h, himages]
    · have hmem := Table.mem_of_get? hcontent
      rw [h, himages, fillContent_eq_self (hself content htext hcontent) (free _ hmem),
        Table.put_of_get? hcontent]
  | _ => rw [fill] <;> simp

end Placeholder

open Placeholder

/-- Replacing placeholders keeps the shape of a document, and changes no text in it
but image addresses that are tokens, which become what the tokens stand for, and
the contents of texts, headings and their segments. A document in which no token
occurs is not changed at all. -/
theorem substituted (ps : Placeholders) (raw : Json) (furnished : FurnishedTexts raw) :
    Json.Matched (Filled ps raw) raw (applyPlaceholders ps raw) ∧
      (raw.AllTexts (TokenFree ps) → applyPlaceholders ps raw = raw) := by
  cases hps : ps.isEmpty with
  | true =>
    have happly : applyPlaceholders ps raw = raw := by rw [applyPlaceholders, if_pos hps]
    obtain rfl := List.isEmpty_iff.mp hps
    rw [happly]
    exact ⟨.refl fun place v => ⟨fun _ _ _ _ => nofun, Or.inl (.refl v)⟩, fun _ => rfl⟩
  | false =>
    have happly : applyPlaceholders ps raw = fill ps raw := by
      rw [applyPlaceholders, if_neg (by simp [hps])]
    rw [happly]
    exact ⟨matched_fill ps furnished, fill_eq_self furnished⟩

/-- A text with a segment, and a picture whose id looks like its address. -/
def greeting : Json :=
  .arr [.obj [("type", .str "text"), ("content", .arr [.obj [("content", .str "Hi @name")]])],
    .obj [("type", .str "image"), ("id", .str "@logo"), ("src", .str "@logo")]]

/-- The address is replaced, and tokens that do not occur change nothing. -/
theorem substituted_greeting :
    (applyPlaceholders [("@name", "Sam"), ("@logo", "logo.png")] greeting).at?
        [.element 1, .field "src"] = some (.str "logo.png") ∧
      applyPlaceholders [("@title", "Quiz")] greeting = greeting := by
  have hsegments : Furnished (.arr [.obj [("content", .str "Hi @name")]]) := by
    refine .of_objects ?_
    rintro items fs ⟨⟩ hmem
    cases List.mem_singleton.mp hmem
    exact ⟨_, rfl, .of_objects nofun⟩
  have hstr : ∀ s, FurnishedTexts (.str s) := by
    rintro s fs content (_ | _)
  have hfurnished : FurnishedTexts greeting := by
    simp [greeting, furnishedTexts_arr, furnishedTexts_obj, hstr, Table.get?_cons, hsegments,
      holdsText]
  constructor
  · obtain ⟨v, hv, hfilled⟩ :=
      (substituted [("@name", "Sam"), ("@logo", "logo.png")] greeting hfurnished).1
        [.element 1, .field "src"] (.str "@logo") rfl
    rw [hv, hfilled.address "@logo" "logo.png" ⟨"src", by decide, rfl⟩ rfl rfl]
  · have htexts : ∀ s ∈ ["text", "Hi @name", "image", "@logo"],
        TokenFree [("@title", "Quiz")] s := by decide +kernel
    refine (substituted [("@title", "Quiz")] greeting hfurnished).2 ?_
    simpa [greeting, Json.allTexts_arr, Json.allTexts_obj, Json.allTexts_str, and_assoc] using
      htexts

end Quiz
