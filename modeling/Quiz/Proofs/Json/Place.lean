/-
Quiz.Proofs.Json.Place — places in a value, and how two values compare place by
place.

A place leads from the outside in, by names of fields and by positions. What
becomes of a document is said by what stands where.

* `Json.at?` — the value at a place; `Json.Within` — a value lies in another;
  `Json.AllTexts` — what holds of every text in a value.
* `Json.SameFrame` — two values agree on the outermost level.
* `Json.Matched` — at every place of the one value there is a value of the other
  one, and the two are related. It is shown level by level, with `Matched.obj`,
  `Matched.arr` and `Matched.put`, and put together with `Matched.trans`.
* `Json.value_induction` — the induction over all that lies in a value.
-/
import Quiz.Json.Value

namespace Quiz.Json

/-- A step into a value: to a field of an object, or to an element of an
array. -/
inductive Step where
  | field (key : String)
  | element (index : Nat)
  deriving DecidableEq, Repr

/-- The steps to a value, from the outside in. -/
abbrev Place := List Step

/-- The value one step further in. -/
def step? (j : Json) : Step → Option Json
  | .field key => j.field? key
  | .element i => j.elements?.bind (·[i]?)

/-- The value at a place. -/
def at? : Json → Place → Option Json
  | j, [] => some j
  | j, step :: rest => (j.step? step).bind fun inner => inner.at? rest

theorem at?_field (j : Json) (key : String) (rest : Place) :
    j.at? (.field key :: rest) = (j.field? key).bind fun inner => inner.at? rest := rfl

theorem at?_element (items : List Json) (i : Nat) (rest : Place) :
    (arr items).at? (.element i :: rest) = items[i]?.bind fun inner => inner.at? rest := rfl

theorem at?_append (j : Json) (front rest : Place) :
    j.at? (front ++ rest) = (j.at? front).bind fun inner => inner.at? rest := by
  induction front generalizing j with
  | nil => rfl
  | cons step front ih =>
    rw [List.cons_append, at?, at?, Option.bind_assoc]
    exact congrArg _ (funext fun inner => ih inner)

/-- The inner value is the other one, or lies in it. -/
inductive Within (inner : Json) : Json → Prop
  | self : Within inner inner
  | element {items : List Json} {j : Json} (mem : j ∈ items) (within : Within inner j) :
      Within inner (arr items)
  | field {fs : List (String × Json)} {f : String × Json} (mem : f ∈ fs)
      (within : Within inner f.2) : Within inner (obj fs)

/-- What holds of an array or an object when it holds of all that lies directly
in it holds of every value. -/
theorem value_induction {motive : Json → Prop} (null : motive .null)
    (bool : ∀ b, motive (.bool b)) (int : ∀ n, motive (.int n)) (float : ∀ x, motive (.float x))
    (str : ∀ s, motive (.str s)) (arr : ∀ items, (∀ j ∈ items, motive j) → motive (.arr items))
    (obj : ∀ fs : List (String × Json), (∀ f ∈ fs, motive f.2) → motive (.obj fs)) (j : Json) :
    motive j :=
  match j with
  | .null => null
  | .bool b => bool b
  | .int n => int n
  | .float x => float x
  | .str s => str s
  | .arr items => arr items fun j _ => value_induction null bool int float str arr obj j
  | .obj fs => obj fs fun f _ => value_induction null bool int float str arr obj f.2
termination_by sizeOf j
decreasing_by
  · have := List.sizeOf_lt_of_mem (by assumption : j ∈ items)
    simp only [Json.arr.sizeOf_spec]
    omega
  · obtain ⟨key, inner⟩ := f
    have := List.sizeOf_lt_of_mem (by assumption : (key, inner) ∈ fs)
    simp only [Json.obj.sizeOf_spec, Prod.mk.sizeOf_spec] at *
    omega

/-- Every text in the value is such. -/
def AllTexts (P : String → Prop) (j : Json) : Prop :=
  ∀ s, Within (.str s) j → P s

theorem allTexts_arr {P : String → Prop} {items : List Json} :
    (arr items).AllTexts P ↔ ∀ j ∈ items, j.AllTexts P := by
  constructor
  · exact fun h j hj s hs => h s (.element hj hs)
  · rintro h s (_ | ⟨hj, hs⟩)
    exact h _ hj s hs

theorem allTexts_obj {P : String → Prop} {fs : Fields} :
    (obj fs).AllTexts P ↔ ∀ f ∈ fs, f.2.AllTexts P := by
  constructor
  · exact fun h f hf s hs => h s (.field hf hs)
  · rintro h s (_ | _ | ⟨hf, hs⟩)
    exact h _ hf s hs

theorem allTexts_str {P : String → Prop} {s : String} : (str s).AllTexts P ↔ P s := by
  constructor
  · exact fun h => h s .self
  · rintro h t (_ | _)
    exact h

/-! ## Two values -/

/-- The values agree on the outermost level: arrays are as long as each other,
objects have the same names in the same order, and anything else is equal. -/
def SameFrame : Json → Json → Prop
  | .arr items, .arr items' => items'.length = items.length
  | .obj fs, .obj fs' => Table.keys fs' = Table.keys fs
  | j, j' => j' = j

theorem SameFrame.refl (j : Json) : SameFrame j j := by
  cases j <;> rfl

theorem SameFrame.symm {a b : Json} (h : SameFrame a b) : SameFrame b a := by
  cases a <;> cases b <;> simp_all [SameFrame]

theorem SameFrame.trans {a b c : Json} (h : SameFrame a b) (h' : SameFrame b c) :
    SameFrame a c := by
  cases a <;> cases b <;> cases c <;> simp_all [SameFrame]

theorem sameFrame_str {s : String} {j : Json} : SameFrame (.str s) j ↔ j = .str s := by
  cases j <;> simp [SameFrame]

theorem sameFrame_arr {items : List Json} {j : Json} :
    SameFrame (.arr items) j ↔ ∃ items', j = .arr items' ∧ items'.length = items.length := by
  cases j <;> simp [SameFrame]

theorem sameFrame_obj {fs : List (String × Json)} {j : Json} :
    SameFrame (.obj fs) j ↔ ∃ fs', j = .obj fs' ∧ Table.keys fs' = Table.keys fs := by
  cases j <;> simp [SameFrame]

/-- At every place of the one value there is a value of the other one, and the
two are so related. -/
def Matched (R : Place → Json → Json → Prop) (j j' : Json) : Prop :=
  ∀ place v, j.at? place = some v → ∃ v', j'.at? place = some v' ∧ R place v v'

namespace Matched

variable {R R' : Place → Json → Json → Prop} {j j' j'' : Json}

theorem refl (h : ∀ place v, R place v v) : Matched R j j :=
  fun place v hv => ⟨v, hv, h place v⟩

theorem mono (h : Matched R j j') (imp : ∀ place v v', j.at? place = some v → R place v v' →
    R' place v v') : Matched R' j j' := by
  intro place v hv
  obtain ⟨v', hv', hR⟩ := h place v hv
  exact ⟨v', hv', imp place v v' hv hR⟩

theorem trans {R'' : Place → Json → Json → Prop} (h : Matched R j j') (h' : Matched R' j' j'')
    (imp : ∀ place v v' v'', R place v v' → R' place v' v'' → R'' place v v'') :
    Matched R'' j j'' := by
  intro place v hv
  obtain ⟨v', hv', hR⟩ := h place v hv
  obtain ⟨v'', hv'', hR'⟩ := h' place v' hv'
  exact ⟨v'', hv'', imp place v v' v'' hR hR'⟩

theorem top (h : Matched R j j') : R [] j j' := by
  obtain ⟨v', hv', hR⟩ := h [] j rfl
  rw [Option.some.inj hv']
  exact hR

/-- Values are matched when they are matched on the outermost level and one step
further in. -/
theorem of_steps (top : R [] j j')
    (inner : ∀ step v, j.step? step = some v → ∃ v', j'.step? step = some v' ∧
      Matched (fun place => R (step :: place)) v v') : Matched R j j' := by
  rintro (_ | ⟨step, rest⟩) v hv
  · rw [← Option.some.inj hv]
    exact ⟨_, rfl, top⟩
  · obtain ⟨w, hw, hrest⟩ := Option.bind_eq_some_iff.mp hv
    obtain ⟨w', hw', hmatched⟩ := inner step w hw
    obtain ⟨v', hv', hR⟩ := hmatched rest v hrest
    exact ⟨v', Option.bind_eq_some_iff.mpr ⟨w', hw', hv'⟩, hR⟩

/-- Objects are matched when their fields are. -/
theorem obj {fs fs' : Fields} (top : R [] (.obj fs) (.obj fs'))
    (fields : ∀ key v, fs.get? key = some v → ∃ v', fs'.get? key = some v' ∧
      Matched (fun place => R (.field key :: place)) v v') : Matched R (.obj fs) (.obj fs') := by
  refine of_steps top ?_
  rintro (key | i) v hv
  · exact fields key v hv
  · cases hv

/-- Arrays are matched when their elements are; the other one may be longer. -/
theorem arr {items items' : List Json} (top : R [] (.arr items) (.arr items'))
    (elements : ∀ i v, items[i]? = some v → ∃ v', items'[i]? = some v' ∧
      Matched (fun place => R (.element i :: place)) v v') :
    Matched R (.arr items) (.arr items') := by
  refine of_steps top ?_
  rintro (key | i) v hv
  · cases hv
  · exact elements i v hv

/-- A value that nothing lies in has no places but its own. -/
theorem leaf (none : ∀ step, j.step? step = none) (top : R [] j j') : Matched R j j' := by
  refine of_steps top fun step v hv => ?_
  rw [none step] at hv
  cases hv

/-- Giving one field another value changes nothing in the other fields. -/
theorem put {fs : Fields} {key : String} {v v' : Json} (found : fs.get? key = some v)
    (top : R [] (.obj fs) (.obj (fs.put key v')))
    (inner : Matched (fun rest => R (.field key :: rest)) v v')
    (others : ∀ other, key ≠ other → ∀ rest w, R (.field other :: rest) w w) :
    Matched R (.obj fs) (.obj (fs.put key v')) := by
  refine obj top fun other w hw => ?_
  by_cases hother : key = other
  · subst hother
    obtain rfl := Option.some.inj (found.symm.trans hw)
    exact ⟨v', Table.get?_put_same _ _ _, inner⟩
  · rw [Table.get?_put_other _ _ hother]
    exact ⟨w, hw, .refl (others other hother)⟩

theorem step (h : Matched R j j') {step : Step} {v : Json} (hv : j.step? step = some v) :
    ∃ v', j'.step? step = some v' ∧ Matched (fun place => R (step :: place)) v v' := by
  obtain ⟨w', hw', -⟩ := h [step] v (Option.bind_eq_some_iff.mpr ⟨v, hv, rfl⟩)
  obtain ⟨v', hv', heq⟩ := Option.bind_eq_some_iff.mp hw'
  obtain rfl := Option.some.inj heq
  refine ⟨v', hv', fun rest w hw => ?_⟩
  obtain ⟨u, hu, hR⟩ := h (step :: rest) w (Option.bind_eq_some_iff.mpr ⟨v, hv, hw⟩)
  obtain ⟨_, hsame, hu⟩ := Option.bind_eq_some_iff.mp hu
  obtain rfl := Option.some.inj (hv'.symm.trans hsame)
  exact ⟨u, hu, hR⟩

theorem fields {fs fs' : Fields} (h : Matched R (.obj fs) (.obj fs')) {key : String} {v : Json}
    (hv : fs.get? key = some v) : ∃ v', fs'.get? key = some v' ∧
      Matched (fun place => R (.field key :: place)) v v' :=
  h.step (show (Json.obj fs).step? (.field key) = some v from hv)

theorem elements {items items' : List Json} (h : Matched R (.arr items) (.arr items')) {i : Nat}
    {v : Json} (hv : items[i]? = some v) : ∃ v', items'[i]? = some v' ∧
      Matched (fun place => R (.element i :: place)) v v' :=
  h.step (show (Json.arr items).step? (.element i) = some v from hv)

end Matched

end Quiz.Json
