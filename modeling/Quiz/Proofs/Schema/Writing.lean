/-
Quiz.Proofs.Schema.Writing — what is written under its document name is what
is read there.

A part of a document is written as rows, one for each of its fields, with the
fields it keeps behind them. Reading finds every row again as long as the
spellings of the fields are told apart and none of them is among the fields
that are kept; and what nothing is read from is what was kept.

* `Write.rows` — rows, with the kept fields behind them.
* `Fields.Beside` — fields that can be kept beside fields of some names. What
  no field was read from can be, if no field was given under both its
  spellings (`Fields.beside_others`).
* `Document` — fields that were written as rows; `Document.required`,
  `Document.optional`, `Document.nullable` and `Document.others` read them.
* `LawfulWorded` — no two values of a type share a word.
-/
import Mathlib.Data.List.Pairwise
import Quiz.Proofs.Schema.Reading

namespace Quiz

variable {α β : Type}

/-! ## Values that can be written and read again -/

mutual

/-- Every fraction in a value is a finite number. -/
def Json.allFinite : Json → Bool
  | .float x => x.isFinite
  | .arr items => allFiniteItems items
  | .obj fs => allFiniteFields fs
  | _ => true

/-- `allFinite` of every element. -/
def Json.allFiniteItems : List Json → Bool
  | [] => true
  | j :: rest => j.allFinite && allFiniteItems rest

/-- `allFinite` of the value of every field. -/
def Json.allFiniteFields : List (String × Json) → Bool
  | [] => true
  | (_, v) :: rest => v.allFinite && allFiniteFields rest

end

mutual

theorem Json.finite_of_allFinite : ∀ {j : Json}, j.allFinite = true → j.finite = j
  | .null, _ | .bool _, _ | .int _, _ | .str _, _ => rfl
  | .float x, h => by
    rw [Json.finite, if_pos (by rwa [Json.allFinite] at h)]
  | .arr items, h => by
    rw [Json.finite, Json.finiteItems_of_allFinite (by rwa [Json.allFinite] at h)]
  | .obj fs, h => by
    rw [Json.finite, Json.finiteFields_of_allFinite (by rwa [Json.allFinite] at h)]

theorem Json.finiteItems_of_allFinite :
    ∀ {items : List Json}, Json.allFiniteItems items = true → Json.finiteItems items = items
  | [], _ => rfl
  | j :: rest, h => by
    rw [Json.allFiniteItems, Bool.and_eq_true] at h
    rw [Json.finiteItems, Json.finite_of_allFinite h.1, Json.finiteItems_of_allFinite h.2]

theorem Json.finiteFields_of_allFinite :
    ∀ {fs : List (String × Json)}, Json.allFiniteFields fs = true → Json.finiteFields fs = fs
  | [], _ => rfl
  | (k, v) :: rest, h => by
    rw [Json.allFiniteFields, Bool.and_eq_true] at h
    rw [Json.finiteFields, Json.finite_of_allFinite h.1, Json.finiteFields_of_allFinite h.2]

end

theorem Json.allFiniteFields_iff {fs : Fields} :
    Json.allFiniteFields fs = true ↔ ∀ f ∈ fs, f.2.allFinite = true := by
  induction fs with
  | nil => simp [Json.allFiniteFields]
  | cons f rest ih => simp [Json.allFiniteFields, ih]

namespace Fields

/-- All names consist of characters. -/
def Named (fs : Fields) : Prop :=
  ∀ f ∈ fs, Text.hasSurrogate f.1 = false

theorem ifNamed_eq_ok {fs : Fields} {read : Checked α} {a : α} :
    fs.ifNamed read = .ok a ↔ fs.Named ∧ read = .ok a := by
  unfold ifNamed
  split
  · rename_i h
    obtain ⟨⟨k, j⟩, hf, hsurrogate⟩ := List.any_eq_true.mp h
    refine ⟨nofun, fun ⟨hnamed, _⟩ => ?_⟩
    have hnone : Text.hasSurrogate k = false := hnamed _ hf
    rw [show Text.hasSurrogate k = true from hsurrogate] at hnone
    cases hnone
  · rename_i h
    have hnamed : fs.Named := by
      intro f hf
      exact Bool.of_not_eq_true fun hsurrogate => h (List.any_eq_true.mpr ⟨f, hf, hsurrogate⟩)
    exact ⟨fun hread => ⟨hnamed, hread⟩, And.right⟩

/-- No field is given under both its spellings. -/
def SpeltOnce (fs : Fields) (names : List FieldName) : Prop :=
  ∀ name ∈ names, name.document ≠ name.plain → fs.has name.document = true →
    fs.has name.plain = false

instance (fs : Fields) (names : List FieldName) : Decidable (fs.SpeltOnce names) :=
  inferInstanceAs (Decidable (∀ name ∈ names, _ → _ → _))

/-- The values of fields are neither null, nor is any number in them not
finite. -/
def Whole (fs : Fields) : Prop :=
  ∀ f ∈ fs, f.2 ≠ .null ∧ f.2.allFinite = true

/-- The fields can be kept beside fields of these names: nothing is read from
them, and they are written as they are. -/
structure Beside (names : List FieldName) (extra : Fields) : Prop where
  apart : ∀ f ∈ extra, ∀ name ∈ names, f.1 ≠ name.document ∧ f.1 ≠ name.plain
  named : Named extra
  whole : Whole extra

theorem Beside.written {names : List FieldName} {extra : Fields} (h : Beside names extra) :
    Write.others extra = extra := by
  have hnull : extra.filter (fun f => !f.2.isNull) = extra := by
    refine List.filter_eq_self.mpr fun f hf => ?_
    rw [Bool.not_eq_true', ← Bool.not_eq_true, Json.isNull_eq_true]
    exact (h.whole f hf).1
  rw [Write.others, hnull]
  exact Json.finiteFields_of_allFinite
    (Json.allFiniteFields_iff.mpr fun f hf => (h.whole f hf).2)

theorem has_of_mem {fs : Fields} {f : String × Json} (h : f ∈ fs) : fs.has f.1 = true := by
  induction fs with
  | nil => cases h
  | cons first rest ih =>
    obtain ⟨k, j⟩ := first
    rw [Table.has, Table.get?_cons]
    split
    · rfl
    · rename_i hne
      rcases List.mem_cons.mp h with rfl | hrest
      · exact absurd rfl hne
      · exact ih hrest

/-- Fields that nothing was read from can be kept beside the others. -/
theorem beside_others {fs : Fields} {names : List FieldName} (named : fs.Named)
    (once : fs.SpeltOnce names) (whole : (fs.others names).Whole) :
    Beside names (fs.others names) := by
  refine ⟨fun f hf name hname => ?_, fun f hf => named f (List.mem_of_mem_filter hf), whole⟩
  obtain ⟨k, j⟩ := f
  obtain ⟨hmem, hunread⟩ := List.mem_filter.mp hf
  have hunread : names.any (fs.isReadFrom k) = false := by simpa using hunread
  have hnone : fs.isReadFrom k name = false :=
    Bool.of_not_eq_true (List.any_eq_false.mp hunread name hname)
  simp only [isReadFrom, Bool.or_eq_false_iff, decide_eq_false_iff_not] at hnone
  refine ⟨hnone.1, fun hplain => ?_⟩
  -- the plain spelling is read from, unless the document name is there as well
  have hhas : fs.has name.document = true := by
    have hnot := hnone.2
    rwa [decide_eq_true hplain, Bool.true_and, Bool.not_eq_false'] at hnot
  have htwice := once name hname (fun heq => hnone.1 (hplain.trans heq.symm)) hhas
  rw [← hplain, has_of_mem hmem] at htwice
  cases htwice

theorem required_get? {fs : Fields} {key : String} {read : Json → Checked α} {a : α}
    (h : fs.required (.only key) read = .ok a) : ∃ j, fs.get? key = some j ∧ read j = .ok a := by
  unfold required at h
  rw [entry?_only] at h
  cases hj : fs.get? key with
  | none =>
    rw [hj] at h
    cases h
  | some j =>
    rw [hj] at h
    exact ⟨j, rfl, Checked.under_eq_ok.mp h⟩

end Fields

/-! ## Rows -/

/-- A field, with what is written under its name, if anything is. -/
abbrev Row := FieldName × Option Json

/-- A row as it is written. -/
def Write.row (key : String) (j? : Option Json) : Fields :=
  (j?.map fun j => (key, j)).toList

/-- Rows as they are written, with the fields that are kept behind them. -/
def Write.rows : List Row → Fields → Fields
  | [], extra => extra
  | (name, j?) :: rest, extra => Write.row name.document j? ++ Write.rows rest extra

theorem Write.field_eq_row (key : String) (j : Json) : Write.field key j = Write.row key (some j) :=
  rfl

theorem Write.field?_eq_row (key : String) (write : α → Json) (a? : Option α) :
    Write.field? key write a? = Write.row key (a?.map write) := by
  cases a? <;> rfl

theorem Write.get?_rows_cons (name : FieldName) (j? : Option Json) (rest : List Row)
    (extra : Fields) (key : String) :
    (Write.rows ((name, j?) :: rest) extra).get? key =
      (if name.document = key then j? else none).or ((Write.rows rest extra).get? key) := by
  rw [Write.rows, Table.get?_append]
  cases j? with
  | none => simp [Write.row]
  | some j => simp [Write.row, Table.get?_cons]

/-- A name of no row and of no field that is kept is not there. -/
theorem Write.get?_rows_eq_none {rows : List Row} {extra : Fields} {key : String}
    (hrows : ∀ row ∈ rows, row.1.document ≠ key) (hextra : ∀ f ∈ extra, f.1 ≠ key) :
    (Write.rows rows extra).get? key = none := by
  induction rows with
  | nil =>
    refine Table.get?_eq_none_of_not_mem fun hmem => ?_
    obtain ⟨f, hf, rfl⟩ := List.mem_map.mp hmem
    exact hextra f hf rfl
  | cons row rest ih =>
    obtain ⟨hrow, hrest⟩ := List.forall_mem_cons.mp hrows
    rw [Write.get?_rows_cons, if_neg hrow, ih hrest]
    rfl

/-- What holds of every row, and of every field that is kept, holds of all
that is written. -/
theorem Write.forall_mem_rows {P : String × Json → Prop} {rows : List Row} {extra : Fields}
    (hrows : ∀ row ∈ rows, ∀ j, P (row.1.document, j)) (hextra : ∀ f ∈ extra, P f) :
    ∀ f ∈ Write.rows rows extra, P f := by
  induction rows with
  | nil => exact hextra
  | cons row rest ih =>
    obtain ⟨name, j?⟩ := row
    obtain ⟨hrow, hrest⟩ := List.forall_mem_cons.mp hrows
    intro f hf
    rcases List.mem_append.mp hf with hfirst | hf
    · cases j? with
      | none => cases hfirst
      | some j =>
        rw [List.mem_singleton.mp hfirst]
        exact hrow j
    · exact ih hrest f hf

/-- A filter that takes out every row leaves what is kept. -/
theorem Write.filter_rows {p : String × Json → Bool} {rows : List Row} {extra : Fields}
    (hrows : ∀ row ∈ rows, ∀ j, p (row.1.document, j) = false)
    (hextra : ∀ f ∈ extra, p f = true) : (Write.rows rows extra).filter p = extra := by
  induction rows with
  | nil => exact List.filter_eq_self.mpr hextra
  | cons row rest ih =>
    obtain ⟨name, j?⟩ := row
    obtain ⟨hrow, hrest⟩ := List.forall_mem_cons.mp hrows
    rw [Write.rows, List.filter_append, ih hrest]
    cases j? with
    | none => rfl
    | some j => simp [Write.row, hrow j]

/-! ## Documents -/

/-- Two names have no spelling in common that is read from. -/
def FieldName.Apart (a b : FieldName) : Prop :=
  a.document ≠ b.document ∧ a.document ≠ b.plain ∧ a.plain ≠ b.document

instance (a b : FieldName) : Decidable (a.Apart b) :=
  inferInstanceAs (Decidable (_ ∧ _ ∧ _))

instance : Std.Symm FieldName.Apart :=
  ⟨fun _ _ h => ⟨h.1.symm, h.2.2.symm, h.2.1.symm⟩⟩

/-- The names are told apart, and consist of characters. -/
def Distinct (names : List FieldName) : Prop :=
  names.Pairwise FieldName.Apart ∧ ∀ name ∈ names, Text.hasSurrogate name.document = false

instance (names : List FieldName) : Decidable (Distinct names) :=
  inferInstanceAs (Decidable (_ ∧ _))

/-- The fields of an object were written as rows under these names. -/
structure Document (names : List FieldName) (rows : List Row) (extra fs : Fields) : Prop where
  written : fs = Write.rows rows extra
  names_eq : rows.map Prod.fst = names
  distinct : Distinct names
  beside : Fields.Beside names extra

namespace Document

variable {names : List FieldName} {rows : List Row} {extra fs : Fields}

theorem name_mem (h : Document names rows extra fs) {row : Row} (hrow : row ∈ rows) :
    row.1 ∈ names := by
  rw [← h.names_eq]
  exact List.mem_map_of_mem hrow

theorem named (h : Document names rows extra fs) : fs.Named := by
  rw [h.written]
  refine Write.forall_mem_rows (P := fun f => Text.hasSurrogate f.1 = false) ?_ h.beside.named
  intro row hrow j
  exact h.distinct.2 row.1 (h.name_mem hrow)

/-- The fields that nothing is read from are the ones that were kept. -/
theorem others (h : Document names rows extra fs) : fs.others names = extra := by
  rw [Fields.others, h.written]
  refine Write.filter_rows ?_ ?_
  · intro row hrow j
    have hread : Fields.isReadFrom (Write.rows rows extra) row.1.document row.1 = true := by
      simp [Fields.isReadFrom]
    have hany := List.any_eq_true.mpr ⟨row.1, h.name_mem hrow, hread⟩
    simp [hany]
  · intro f hf
    have hnone : names.any (Fields.isReadFrom (Write.rows rows extra) f.1) = false := by
      refine List.any_eq_false.mpr fun name hname => ?_
      obtain ⟨hdocument, hplain⟩ := h.beside.apart f hf name hname
      simp [Fields.isReadFrom, hdocument, hplain]
    simp [hnone]

/-- What a row holds is found under its name. -/
theorem get? (h : Document names rows extra fs) (k : Nat) {name : FieldName} {j? : Option Json}
    (hrow : rows[k]? = some (name, j?)) : fs.get? name.document = j? := by
  obtain ⟨rfl, rfl, ⟨hapart, -⟩, hbeside⟩ := h
  have hextra := hbeside.apart
  clear hbeside
  induction rows generalizing k with
  | nil => cases hrow
  | cons row rest ih =>
    obtain ⟨first, i?⟩ := row
    obtain ⟨hfirst, hrest⟩ := List.pairwise_cons.mp hapart
    have hextra' (f : String × Json) (hf : f ∈ extra) (m : FieldName)
        (hm : m ∈ rest.map Prod.fst) : f.1 ≠ m.document ∧ f.1 ≠ m.plain :=
      hextra f hf m (List.mem_cons_of_mem _ hm)
    rw [Write.get?_rows_cons]
    cases k with
    | zero =>
      obtain ⟨rfl, rfl⟩ := Prod.mk.inj (Option.some.inj hrow)
      rw [if_pos rfl, Write.get?_rows_eq_none, Option.or_none]
      · intro row hrow
        exact (hfirst row.1 (List.mem_map_of_mem hrow)).1.symm
      · intro f hf
        exact (hextra f hf first List.mem_cons_self).1
    | succ k =>
      have hmem : name ∈ rest.map Prod.fst := by
        have hrow : rest[k]? = some (name, j?) := hrow
        exact List.mem_map_of_mem (List.mem_of_getElem? hrow)
      rw [if_neg (hfirst name hmem).1, Option.none_or]
      exact ih k hrow hrest hextra'

/-- What a row holds is found there in whichever spelling is looked for. -/
theorem entry? (h : Document names rows extra fs) (k : Nat) {name : FieldName} {j? : Option Json}
    (hrow : rows[k]? = some (name, j?)) :
    fs.entry? name = j?.map fun j => (name.document, j) := by
  have hdocument := h.get? k hrow
  cases j? with
  | some j => simp [Fields.entry?, hdocument]
  | none =>
    have hplain : fs.get? name.plain = none := by
      by_cases hsame : name.document = name.plain
      · rw [← hsame]
        exact hdocument
      · have hname := h.name_mem (List.mem_of_getElem? hrow)
        rw [h.written]
        refine Write.get?_rows_eq_none ?_ ?_
        · intro row hrow
          by_cases heq : row.1 = name
          · rw [heq]
            exact hsame
          · exact (h.distinct.1.forall (h.name_mem hrow) hname heq).2.1
        · intro f hf
          exact (h.beside.apart f hf name hname).2
    simp [Fields.entry?, hdocument, hplain]

/-- A field that has to be there is read from its row. -/
theorem required (h : Document names rows extra fs) (read : Json → Checked α) (k : Nat)
    {name : FieldName} {j : Json} {a : α} (hrow : rows[k]? = some (name, some j))
    (hread : read j = .ok a) : fs.required name read = .ok a := by
  simp [Fields.required, h.entry? k hrow, hread]

/-- A field that is always written is read from its row. -/
theorem optional (h : Document names rows extra fs) (read : Json → Checked α) (k : Nat)
    {name : FieldName} {j : Json} {absent a : α} (hrow : rows[k]? = some (name, some j))
    (hread : read j = .ok a) : fs.optional name absent read = .ok a := by
  simp [Fields.optional, h.entry? k hrow, hread]

/-- A field that is written when there is a value is read from its row. -/
theorem nullable (h : Document names rows extra fs) (read : Json → Checked α) (k : Nat)
    {name : FieldName} {write : α → Json} {a? : Option α}
    (hrow : rows[k]? = some (name, a?.map write))
    (hread : ∀ a, a? = some a → Read.orNull read (write a) = .ok (some a)) :
    fs.nullable name read = .ok a? := by
  cases a? with
  | none => simp [Fields.nullable, Fields.optional, h.entry? k hrow]
  | some a => simp [Fields.nullable, Fields.optional, h.entry? k hrow, hread a rfl]

end Document

/-! ## Values and words -/

/-- No two values of a type share a word. -/
class LawfulWorded (α : Type) [Worded α] : Prop where
  find_word : ∀ a : α,
    (Worded.all : List α).find? (fun b => (Write.word a).isText (Worded.word b)) = some a

theorem Read.choice_word [Worded α] [LawfulWorded α] (a : α) :
    Read.choice α (Write.word a) = .ok a := by
  rw [Read.choice, LawfulWorded.find_word a]

theorem Read.orNull_word [Worded α] [LawfulWorded α] (a : α) :
    Read.orNull (Read.choice α) (Write.word a) = .ok (some a) := by
  show some <$> Read.choice α (Write.word a) = .ok (some a)
  rw [Read.choice_word]
  rfl

theorem readTag_eq_ok [Worded α] [LawfulWorded α] {discriminator : String} {fs : Fields} {a : α} :
    readTag α discriminator fs = .ok a ↔
      fs.get? discriminator = some (.str (Worded.word a)) := by
  refine ⟨readTag_ok, fun h => ?_⟩
  have hfind := LawfulWorded.find_word a
  rw [Write.word] at hfind
  simp only [readTag, h, hfind]

theorem readTagged_eq_ok [Worded α] [LawfulWorded α] {discriminator : String}
    {read : α → Fields → Checked β} {fs : Fields} {b : β} :
    readTagged discriminator read (.obj fs) = .ok b ↔
      ∃ a, fs.get? discriminator = some (.str (Worded.word a)) ∧ fs.Named ∧ read a fs = .ok b := by
  simp only [readTagged, Checked.andThen_eq_ok, readTag_eq_ok, Checked.under_eq_ok,
    Fields.ifNamed_eq_ok]

theorem readModel_eq_ok {model : String} {read : Fields → Checked α} {fs : Fields} {a : α} :
    readModel model read (.obj fs) = .ok a ↔ fs.Named ∧ read fs = .ok a :=
  Fields.ifNamed_eq_ok

theorem withinRoom_eq_ok {room steps : Nat} {read : Nat → Checked α} {a : α} :
    withinRoom room steps read = .ok a ↔ steps ≤ room ∧ read (room - steps) = .ok a := by
  unfold withinRoom
  split
  · rename_i h
    exact ⟨nofun, fun ⟨hle, _⟩ => absurd h (Nat.not_lt.mpr hle)⟩
  · rename_i h
    exact ⟨fun hread => ⟨Nat.not_lt.mp h, hread⟩, And.right⟩

theorem Checked.list_map {read : β → Checked α} {write : α → β} (start : Nat) {as : List α}
    (h : ∀ a ∈ as, read (write a) = .ok a) :
    Checked.list read start (as.map write) = .ok as := by
  induction as generalizing start with
  | nil => rfl
  | cons a rest ih =>
    obtain ⟨ha, hrest⟩ := List.forall_mem_cons.mp h
    rw [List.map_cons, Checked.list, ha, ih (start + 1) hrest]
    rfl

theorem Read.listOf_map {read : Json → Checked α} {write : α → Json} {as : List α}
    (h : ∀ a ∈ as, read (write a) = .ok a) : Read.listOf read (.arr (as.map write)) = .ok as :=
  Checked.list_map 0 h

theorem Read.mapOf_map {read : Json → Checked α} {write : α → Json} {fs : List (String × α)}
    (h : ∀ f ∈ fs, read (write f.2) = .ok f.2) :
    Read.mapOf read (.obj (fs.map fun (k, a) => (k, write a))) = .ok fs := by
  show Read.fieldsOf read (fs.map fun (k, a) => (k, write a)) = .ok fs
  induction fs with
  | nil => rfl
  | cons f rest ih =>
    obtain ⟨k, a⟩ := f
    obtain ⟨ha, hrest⟩ := List.forall_mem_cons.mp h
    have ha : read (write a) = .ok a := ha
    rw [List.map_cons, Read.fieldsOf, ha, ih hrest]
    rfl

/-- The objects that the values of an object were read from. -/
theorem Read.fieldsOf_ok {read : Json → Checked α} {fs : List (String × Json)}
    {as : List (String × α)} (h : Read.fieldsOf read fs = .ok as) :
    List.Forall₂ (fun f a => read f.2 = .ok a.2) fs as := by
  induction fs generalizing as with
  | nil =>
    cases h
    exact .nil
  | cons f rest ih =>
    simp only [Read.fieldsOf, Checked.app_eq_ok, Checked.map_eq_ok] at h
    obtain ⟨_, others, ⟨_, ⟨a, ha, rfl⟩, rfl⟩, hothers, rfl⟩ := h
    exact .cons (Checked.under_eq_ok.mp ha) (ih hothers)

end Quiz
