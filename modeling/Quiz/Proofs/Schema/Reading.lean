/-
Quiz.Proofs.Schema.Reading — what a reader saw when it succeeds.

For each way of putting readers together there is one lemma: a success of the
whole is a success of the part that the value comes from. A reader is opened
with these, and with `Checked.app_eq_ok` and `Checked.map_eq_ok` for its
fields. A list that was read goes with the elements it was read from, one by
one.
-/
import Mathlib.Data.List.Forall2
import Quiz.Content.ItemReader

namespace Quiz

variable {α β : Type}

/-! ## Lists that go with each other -/

theorem getElem?_of_forall₂ {R : α → β → Prop} {as : List α} {bs : List β}
    (h : List.Forall₂ R as bs) {i : Nat} {a : α} (ha : as[i]? = some a) :
    ∃ b, bs[i]? = some b ∧ R a b := by
  induction h generalizing i with
  | nil => cases ha
  | cons first _ ih =>
    cases i with
    | zero =>
      obtain rfl := Option.some.inj ha
      exact ⟨_, rfl, first⟩
    | succ i => exact ih ha

theorem exists_of_forall₂ {R : α → β → Prop} {as : List α} {bs : List β}
    (h : List.Forall₂ R as bs) {a : α} (ha : a ∈ as) : ∃ b ∈ bs, R a b := by
  obtain ⟨i, hi⟩ := List.mem_iff_getElem?.mp ha
  obtain ⟨b, hb, hab⟩ := getElem?_of_forall₂ h hi
  exact ⟨b, List.mem_of_getElem? hb, hab⟩

/-! ## Parts of readers -/

theorem Checked.list_ok {read : β → Checked α} {start : Nat} {bs : List β} {as : List α}
    (h : Checked.list read start bs = .ok as) :
    List.Forall₂ (fun b a => read b = .ok a) bs as := by
  induction bs generalizing start as with
  | nil =>
    cases h
    exact .nil
  | cons b rest ih =>
    simp only [Checked.list, Checked.app_eq_ok, Checked.map_eq_ok] at h
    obtain ⟨_, others, ⟨first, hfirst, rfl⟩, hothers, rfl⟩ := h
    exact .cons (Checked.under_eq_ok.mp hfirst) (ih hothers)

theorem Checked.andThen_eq_ok {c : Checked α} {test : α → Checked β} {b : β} :
    c.andThen test = .ok b ↔ ∃ a, c = .ok a ∧ test a = .ok b := by
  cases c <;> simp [Checked.andThen]

namespace Fields

theorem ifNamed_ok {fs : Fields} {read : Checked α} {a : α} (h : fs.ifNamed read = .ok a) :
    read = .ok a := by
  unfold ifNamed at h
  split at h
  · cases h
  · exact h

theorem required_ok {fs : Fields} {name : FieldName} {read : Json → Checked α} {a : α}
    (h : fs.required name read = .ok a) : ∃ j, read j = .ok a := by
  unfold required at h
  split at h
  · exact ⟨_, Checked.under_eq_ok.mp h⟩
  · cases h

theorem entry?_only (fs : Fields) (key : String) :
    fs.entry? (.only key) = (fs.get? key).map fun j => (key, j) := by
  unfold entry? FieldName.only
  dsimp only
  cases fs.get? key <;> rfl

theorem optional_ok {fs : Fields} {name : FieldName} {absent a : α} {read : Json → Checked α}
    (h : fs.optional name absent read = .ok a) :
    (∃ k j, fs.entry? name = some (k, j) ∧ read j = .ok a) ∨
      (fs.entry? name = none ∧ a = absent) := by
  unfold optional at h
  split at h
  · rename_i k j hentry
    exact Or.inl ⟨k, j, hentry, Checked.under_eq_ok.mp h⟩
  · rename_i hentry
    exact Or.inr ⟨hentry, (Checked.ok.inj h).symm⟩

/-- A field that may be absent or null holds nothing then, and else what was
read from it. -/
theorem nullable_cases {fs : Fields} {key : String} {read : Json → Checked α} {a? : Option α}
    (h : fs.nullable (.only key) read = .ok a?) :
    ((fs.get? key = none ∨ fs.get? key = some .null) ∧ a? = none) ∨
      ∃ j a, fs.get? key = some j ∧ j ≠ .null ∧ read j = .ok a ∧ a? = some a := by
  rcases optional_ok h with ⟨k, j, hentry, hread⟩ | ⟨hentry, hnone⟩
  · rw [entry?_only] at hentry
    obtain ⟨j', hj, heq⟩ := Option.map_eq_some_iff.mp hentry
    obtain ⟨rfl, rfl⟩ := Prod.mk.inj heq
    cases j' with
    | null => exact Or.inl ⟨Or.inr hj, (Checked.ok.inj hread).symm⟩
    | _ =>
      obtain ⟨a, ha, rfl⟩ := Checked.map_eq_ok.mp hread
      exact Or.inr ⟨_, a, hj, Json.noConfusion, ha, rfl⟩
  · rw [entry?_only, Option.map_eq_none_iff] at hentry
    exact Or.inl ⟨Or.inl hentry, hnone⟩

theorem nullable_ok {fs : Fields} {name : FieldName} {read : Json → Checked α} {a : α}
    (h : fs.nullable name read = .ok (some a)) : ∃ j, read j = .ok a := by
  unfold nullable optional at h
  split at h
  · rename_i k j _
    have h := Checked.under_eq_ok.mp h
    cases j with
    | null => cases h
    | _ =>
      obtain ⟨x, hx, heq⟩ := Checked.map_eq_ok.mp h
      obtain rfl := Option.some.inj heq
      exact ⟨_, hx⟩
  · cases h

end Fields

theorem readModel_ok {model : String} {read : Fields → Checked α} {j : Json} {a : α}
    (h : readModel model read j = .ok a) : ∃ fs, j = .obj fs ∧ read fs = .ok a := by
  cases j with
  | obj fs => exact ⟨fs, rfl, Fields.ifNamed_ok h⟩
  | _ => cases h

/-- The word of what a discriminator names is written in its field. -/
theorem readTag_ok [Worded α] {discriminator : String} {fs : Fields} {a : α}
    (h : readTag α discriminator fs = .ok a) :
    fs.get? discriminator = some (.str (Worded.word a)) := by
  unfold readTag at h
  split at h
  · cases h
  · rename_i tag htag
    split at h
    · rename_i found hfound
      obtain rfl := Checked.ok.inj h
      have htext := List.find?_some hfound
      rw [htag, Json.isText_eq_true.mp htext]
    · cases h

theorem readTagged_ok {discriminator : String} [Worded α] {read : α → Fields → Checked β} {j : Json}
    {b : β} (h : readTagged discriminator read j = .ok b) :
    ∃ a fs, j = .obj fs ∧ read a fs = .ok b := by
  cases j with
  | obj fs =>
    obtain ⟨a, -, h⟩ := Checked.andThen_eq_ok.mp h
    exact ⟨a, fs, rfl, Fields.ifNamed_ok (Checked.under_eq_ok.mp h)⟩
  | _ => cases h

theorem withinRoom_ok {room steps : Nat} {read : Nat → Checked α} {a : α}
    (h : withinRoom room steps read = .ok a) : read (room - steps) = .ok a := by
  unfold withinRoom at h
  split at h
  · cases h
  · exact h

end Quiz
