/-
Quiz.Schema.Checked — a value that was checked: the value itself, or
everything that is wrong with it, in order.

Combining two checked values keeps the issues of both. That is what the
applicative operations below do; there is deliberately no monad, which
could look at the second value only when the first is sound.
-/
import Quiz.Schema.Issue

namespace Quiz

/-- A sound value, or the first issue and the ones behind it. -/
inductive Checked (α : Type) where
  | ok (value : α)
  | bad (first : Issue) (others : List Issue)
  deriving Repr

namespace Checked

variable {α β : Type}

/-- One issue about the value itself. -/
def fail (cause : Cause) : Checked α :=
  .bad ⟨[], cause⟩ []

/-- All issues, first to last. -/
def issues : Checked α → List Issue
  | .ok _ => []
  | .bad i more => i :: more

/-- The value, if it is sound. -/
def value? : Checked α → Option α
  | .ok a => some a
  | .bad _ _ => none

def map (f : α → β) : Checked α → Checked β
  | .ok a => .ok (f a)
  | .bad i more => .bad i more

/-- A checked function given a checked argument. -/
def app : Checked (α → β) → Checked α → Checked β
  | .ok f, .ok a => .ok (f a)
  | .ok _, .bad i more => .bad i more
  | .bad i more, .ok _ => .bad i more
  | .bad i more, .bad j others => .bad i (more ++ j :: others)

instance : Functor Checked where
  map := map

instance : Applicative Checked where
  pure := .ok
  seq f a := f.app (a ())

/-- A further test of a sound value. -/
def andThen (c : Checked α) (test : α → Checked β) : Checked β :=
  match c with
  | .ok a => test a
  | .bad i more => .bad i more

/-- The same value seen from one step further out. -/
def under (step : String) : Checked α → Checked α
  | .ok a => .ok a
  | .bad i more => .bad (i.under step) (more.map (Issue.under · step))

@[simp] theorem map_ok (f : α → β) (a : α) : f <$> (ok a : Checked α) = ok (f a) := rfl

@[simp] theorem seq_ok (f : α → β) (a : α) : (ok f : Checked (α → β)) <*> ok a = ok (f a) := rfl

@[simp] theorem pure_eq (a : α) : (pure a : Checked α) = ok a := rfl

@[simp] theorem under_ok (step : String) (a : α) : (ok a : Checked α).under step = ok a := rfl

@[simp] theorem andThen_ok (a : α) (test : α → Checked β) : (ok a).andThen test = test a := rfl

/-- A combination is sound exactly when both parts are. -/
theorem app_eq_ok {f : Checked (α → β)} {a : Checked α} {b : β} :
    f <*> a = ok b ↔ ∃ g x, f = ok g ∧ a = ok x ∧ g x = b := by
  cases f <;> cases a <;> simp [Seq.seq, app]

theorem map_eq_ok {f : α → β} {a : Checked α} {b : β} :
    f <$> a = ok b ↔ ∃ x, a = ok x ∧ f x = b := by
  cases a <;> simp [Functor.map, map]

theorem under_eq_ok {step : String} {a : Checked α} {x : α} :
    a.under step = ok x ↔ a = ok x := by
  cases a <;> simp [under]

/-- Checks the elements of a list, each under its position counted from
`start`. -/
def list (read : β → Checked α) (start : Nat) : List β → Checked (List α)
  | [] => .ok []
  | b :: rest => List.cons <$> (read b).under (toString start) <*> list read (start + 1) rest

end Checked

end Quiz
