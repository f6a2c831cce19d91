/-
Quiz.Table — values by key, in the order in which the keys came.

A table is a list of pairs in which no key occurs twice. The functions
here take the first pair of a key, and `put` never adds a second one.
-/

namespace Quiz

/-- Values by key, in order. -/
abbrev Table (κ β : Type) := List (κ × β)

namespace Table

variable {κ β : Type} [DecidableEq κ]

/-- The value of a key. -/
def get? : Table κ β → κ → Option β
  | [], _ => none
  | (k, b) :: rest, key => if k = key then some b else get? rest key

/-- The key has a value. -/
def has (t : Table κ β) (key : κ) : Bool :=
  (t.get? key).isSome

/-- Gives a key a value: in its place if it has one already, else at the
end. -/
def put : Table κ β → κ → β → Table κ β
  | [], key, b => [(key, b)]
  | (k, old) :: rest, key, b =>
    if k = key then (k, b) :: rest else (k, old) :: put rest key b

/-- All pairs of `newer` put into a table, in order: later values win, and
a key keeps the place where it came first. -/
def merge (t newer : Table κ β) : Table κ β :=
  newer.foldl (fun acc (k, b) => acc.put k b) t

/-- The pairs in order, a repeated key with its last value. -/
def ofPairs (pairs : List (κ × β)) : Table κ β :=
  merge [] pairs

/-- The keys in order. -/
def keys (t : Table κ β) : List κ :=
  t.map Prod.fst

@[simp] theorem get?_nil (key : κ) : get? ([] : Table κ β) key = none := rfl

theorem get?_cons (k : κ) (b : β) (rest : Table κ β) (key : κ) :
    get? ((k, b) :: rest) key = if k = key then some b else get? rest key := rfl

@[simp] theorem get?_put_same (t : Table κ β) (key : κ) (b : β) :
    (t.put key b).get? key = some b := by
  induction t with
  | nil => simp [put, get?]
  | cons f rest ih =>
    obtain ⟨k, old⟩ := f
    by_cases h : k = key
    · simp [put, get?, h]
    · simp [put, get?, h, ih]

theorem get?_put_other (t : Table κ β) {key other : κ} (b : β) (h : key ≠ other) :
    (t.put key b).get? other = t.get? other := by
  induction t with
  | nil => simp [put, get?, h]
  | cons f rest ih =>
    obtain ⟨k, old⟩ := f
    by_cases hk : k = key
    · subst hk; simp [put, get?, h]
    · by_cases ho : k = other
      · subst ho; simp [put, get?_cons, hk]
      · simp [put, get?_cons, hk, ho, ih]

omit [DecidableEq κ] in
@[simp] theorem keys_cons (k : κ) (b : β) (rest : Table κ β) :
    keys ((k, b) :: rest) = k :: keys rest := rfl

theorem isSome_get?_iff {t : Table κ β} {key : κ} :
    (t.get? key).isSome = true ↔ key ∈ t.keys := by
  induction t with
  | nil => simp [keys]
  | cons f rest ih =>
    obtain ⟨k, b⟩ := f
    rw [get?_cons, keys_cons, List.mem_cons]
    by_cases h : k = key
    · simp [h]
    · rw [if_neg h, ih]
      exact ⟨Or.inr, fun hmem => hmem.resolve_left (Ne.symm h)⟩

theorem get?_eq_none_of_not_mem {t : Table κ β} {key : κ} (h : key ∉ t.keys) :
    t.get? key = none := by
  rw [← Option.not_isSome_iff_eq_none, isSome_get?_iff]
  exact h

theorem mem_of_get? {t : Table κ β} {key : κ} {b : β} (h : t.get? key = some b) :
    (key, b) ∈ t := by
  induction t with
  | nil => cases h
  | cons f rest ih =>
    obtain ⟨k, c⟩ := f
    rw [get?_cons] at h
    split at h
    · rename_i hk
      rw [hk, Option.some.inj h]
      exact List.mem_cons_self
    · exact List.mem_cons_of_mem _ (ih h)

/-- A key with one value only has this value. -/
theorem get?_of_mem {t : Table κ β} {key : κ} {b : β} (h : (key, b) ∈ t)
    (only : ∀ c, (key, c) ∈ t → c = b) : t.get? key = some b := by
  have hkey : (t.get? key).isSome = true :=
    isSome_get?_iff.mpr (List.mem_map.mpr ⟨(key, b), h, rfl⟩)
  obtain ⟨c, hc⟩ := Option.isSome_iff_exists.mp hkey
  rw [hc, only c (mem_of_get? hc)]

/-- A key that is there already keeps its place. -/
theorem keys_put_of_mem {t : Table κ β} {key : κ} (b : β) (h : key ∈ t.keys) :
    (t.put key b).keys = t.keys := by
  induction t with
  | nil => cases h
  | cons f rest ih =>
    obtain ⟨k, old⟩ := f
    by_cases hk : k = key
    · simp [put, hk]
    · have hrest : key ∈ keys rest := (List.mem_cons.mp h).resolve_left (Ne.symm hk)
      simp [put, hk, ih hrest]

/-- A key that is given the value it has already changes nothing. -/
theorem put_of_get? {t : Table κ β} {key : κ} {b : β} (h : t.get? key = some b) :
    t.put key b = t := by
  induction t with
  | nil => cases h
  | cons f rest ih =>
    obtain ⟨k, old⟩ := f
    rw [get?_cons] at h
    rw [put]
    by_cases hk : k = key
    · rw [if_pos hk] at h ⊢
      rw [Option.some.inj h]
    · rw [if_neg hk] at h ⊢
      rw [ih h]

theorem mem_keys_put {t : Table κ β} {key other : κ} {b : β} :
    other ∈ (t.put key b).keys ↔ other = key ∨ other ∈ t.keys := by
  rw [← isSome_get?_iff, ← isSome_get?_iff]
  by_cases h : key = other
  · subst h
    simp
  · rw [get?_put_other t b h]
    exact ⟨Or.inr, fun hmem => hmem.resolve_left (Ne.symm h)⟩

/-- Two keys can be given their values in either order, if one of them has its
place already. -/
theorem put_comm {t : Table κ β} {key other : κ} (h : key ≠ other) (mem : key ∈ t.keys)
    (b b' : β) : (t.put key b).put other b' = (t.put other b').put key b := by
  induction t with
  | nil => cases mem
  | cons f rest ih =>
    obtain ⟨k, old⟩ := f
    by_cases hk : k = key
    · subst hk
      simp [put, h]
    · have hrest : key ∈ keys rest := (List.mem_cons.mp mem).resolve_left (Ne.symm hk)
      by_cases ho : k = other
      · subst ho
        simp [put, hk]
      · simp [put, hk, ho, ih hrest]

theorem get?_append (t more : Table κ β) (key : κ) :
    get? (t ++ more) key = (t.get? key).or (more.get? key) := by
  induction t with
  | nil => rfl
  | cons f rest ih =>
    obtain ⟨k, b⟩ := f
    rw [List.cons_append, get?_cons, get?_cons, ih]
    split <;> rfl

/-- What is merged in wins over what was there. -/
theorem get?_merge (t : Table κ β) {newer : Table κ β} (h : newer.keys.Nodup) (key : κ) :
    (t.merge newer).get? key = (newer.get? key).or (t.get? key) := by
  induction newer generalizing t with
  | nil => rfl
  | cons f rest ih =>
    obtain ⟨k, b⟩ := f
    obtain ⟨hk, hrest⟩ := List.nodup_cons.mp h
    have hmerge : t.merge ((k, b) :: rest) = (t.put k b).merge rest := rfl
    rw [hmerge, ih (t.put k b) hrest, get?_cons]
    by_cases hkey : k = key
    · subst hkey
      rw [get?_eq_none_of_not_mem hk, if_pos rfl, get?_put_same]
      rfl
    · rw [if_neg hkey, get?_put_other t b hkey]

/-- What is found was merged in, or was there before. -/
theorem mem_or_of_get?_merge {t newer : Table κ β} {key : κ} {b : β}
    (h : (t.merge newer).get? key = some b) : (key, b) ∈ newer ∨ t.get? key = some b := by
  induction newer generalizing t with
  | nil => exact Or.inr h
  | cons f rest ih =>
    obtain ⟨k, c⟩ := f
    rcases ih (t := t.put k c) h with hrest | hput
    · exact Or.inl (List.mem_cons_of_mem _ hrest)
    · by_cases hk : k = key
      · subst hk
        rw [get?_put_same] at hput
        rw [Option.some.inj hput]
        exact Or.inl List.mem_cons_self
      · rw [get?_put_other t c hk] at hput
        exact Or.inr hput

/-- A key that is merged in with one value only, or has this value already,
has it afterwards. -/
theorem get?_merge_of_forall {t newer : Table κ β} {key : κ} {b : β}
    (only : ∀ c, (key, c) ∈ newer → c = b) (h : (key, b) ∈ newer ∨ t.get? key = some b) :
    (t.merge newer).get? key = some b := by
  induction newer generalizing t with
  | nil => exact h.resolve_left List.not_mem_nil
  | cons f rest ih =>
    obtain ⟨k, c⟩ := f
    refine ih (fun c hc => only c (List.mem_cons_of_mem _ hc)) (t := t.put k c) ?_
    by_cases hk : k = key
    · subst hk
      rw [get?_put_same, only c List.mem_cons_self]
      exact Or.inr rfl
    · rw [get?_put_other t c hk]
      rcases h with hmem | hold
      · rcases List.mem_cons.mp hmem with heq | hrest
        · exact absurd (Prod.mk.inj heq).1.symm hk
        · exact Or.inl hrest
      · exact Or.inr hold

theorem get?_mapEntries {γ : Type} (t : Table κ β) (f : κ → β → γ) (key : κ) :
    get? (t.map fun (k, b) => (k, f k b)) key = (t.get? key).map (f key) := by
  induction t with
  | nil => rfl
  | cons entry rest ih =>
    obtain ⟨k, b⟩ := entry
    rw [List.map_cons, get?_cons, get?_cons, ih]
    split
    · rename_i hk
      rw [hk, Option.map_some]
    · rfl

omit [DecidableEq κ] in
theorem keys_mapEntries {γ : Type} (t : Table κ β) (f : κ → β → γ) :
    keys (t.map fun (k, b) => (k, f k b)) = t.keys := by
  simp [keys, Function.comp_def]

end Table

end Quiz
