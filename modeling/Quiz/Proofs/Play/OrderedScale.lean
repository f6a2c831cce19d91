/-
Quiz.Proofs.Play.OrderedScale — the laws of the numbers that progress is
measured in.

The laws speak of numbers that are at least zero only. Among floats that
leaves out what is not a number, and so they hold of floats too, although a
float that is added need not change a sum.

* `OrderedScale` — the laws; `Counts` — a number is at least zero.
* `atMostHundred_le` and `le_atMostHundred` — capped progress.
* `Command.Timely` — time does not pass backwards; no command that was read
  lets it (`Command.read_timely`).
* The floats that the program runs on keep the laws, by what is known of their
  order and their rounding.
-/
import Quiz.Play.Command
import Quiz.Play.Scale
import Quiz.Proofs.Number.FloatRounding
import Quiz.Proofs.Schema.Reading

namespace Quiz

/-- The number is at least zero. -/
def Counts {α : Type} [Scale α] (a : α) : Prop :=
  Scale.le Scale.zero a = true

/-- Numbers that are ordered one after the other, and that a step does not
take back. -/
class OrderedScale (α : Type) [Scale α] : Prop where
  le_trans : ∀ {a b c : α}, Counts a → Scale.le a b = true → Scale.le b c = true →
    Scale.le a c = true
  le_total : ∀ {a b : α}, Counts a → Counts b → Scale.le a b = true ∨ Scale.le b a = true
  lt_iff : ∀ {a b : α}, Counts a → Counts b → (Scale.lt a b = true ↔ Scale.le b a = false)
  zero_counts : Counts (Scale.zero : α)
  zero_lt_hundred : Scale.lt (Scale.zero : α) Scale.hundred = true
  hundred_counts : Counts (Scale.hundred : α)
  le_add : ∀ {a b : α}, Counts a → Counts b → Scale.le a (Scale.add a b) = true
  share_counts : ∀ {elapsed share : α} {duration : Nat}, Counts elapsed → 0 < duration →
    Scale.share? elapsed duration = some share → Counts share
  ofFloat_counts : ∀ {x : Float}, 0.0 ≤ x → x ≤ 100.0 → Counts (Scale.ofFloat x : α)
  ofFloat_le_hundred : ∀ {x : Float}, 0.0 ≤ x → x ≤ 100.0 →
    Scale.le (Scale.ofFloat x : α) Scale.hundred = true

namespace OrderedScale

variable {α : Type} [Scale α] [OrderedScale α] {a b : α}

theorem le_refl (ha : Counts a) : Scale.le a a = true :=
  (le_total ha ha).elim id id

theorem le_of_lt (ha : Counts a) (hb : Counts b) (h : Scale.lt a b = true) :
    Scale.le a b = true := by
  have hba := (lt_iff ha hb).mp h
  rcases le_total ha hb with hab | hle
  · exact hab
  · rw [hba] at hle
    cases hle

theorem lt_of_not_le (ha : Counts a) (hb : Counts b) (h : ¬ Scale.le b a = true) :
    Scale.lt a b = true :=
  (lt_iff ha hb).mpr (Bool.of_not_eq_true h)

theorem counts_of_le (ha : Counts a) (h : Scale.le a b = true) : Counts b :=
  le_trans zero_counts ha h

/-! ## A hundred at most -/

theorem atMostHundred_le (ha : Counts a) :
    Scale.le (Scale.atMostHundred a) Scale.hundred = true := by
  unfold Scale.atMostHundred
  split
  · exact le_of_lt ha hundred_counts ‹_›
  · exact le_refl hundred_counts

omit [OrderedScale α] in
/-- What does not lie above a number or above a hundred does not lie above the
capped number. -/
theorem le_atMostHundred (hab : Scale.le a b = true) (ha : Scale.le a Scale.hundred = true) :
    Scale.le a (Scale.atMostHundred b) = true := by
  unfold Scale.atMostHundred
  split
  · exact hab
  · exact ha

theorem atMostHundred_of_le (h : Scale.le Scale.hundred a = true) :
    Scale.atMostHundred a = Scale.hundred := by
  have hnot : Scale.lt a Scale.hundred = false :=
    Bool.of_not_eq_true fun hlt => by
      rw [(lt_iff (counts_of_le hundred_counts h) hundred_counts).mp hlt] at h
      cases h
  rw [Scale.atMostHundred, hnot]
  rfl

end OrderedScale

/-! ## Commands -/

/-- The command lets no time pass backwards. -/
def Command.Timely {α : Type} [Scale α] : Command α → Prop
  | .tick elapsed => Counts elapsed
  | _ => True

theorem Read.nonNegative_ok {j : Json} {x : Float} (h : Read.nonNegative j = .ok x) : Counts x := by
  obtain ⟨y, -, h⟩ := Checked.andThen_eq_ok.mp h
  split at h
  · rename_i hy
    cases h
    exact decide_eq_true hy
  · cases h

/-- A command that was read lets no time pass backwards. -/
theorem Command.read_timely {j : Json} {command : Command Float}
    (h : Command.read j = .ok command) : command.Timely := by
  obtain ⟨kind, fs, -, h⟩ := readTagged_ok h
  cases kind with
  | tick =>
    obtain ⟨elapsed, hread, rfl⟩ := Checked.map_eq_ok.mp h
    obtain ⟨j, hj⟩ := Fields.required_ok hread
    exact Read.nonNegative_ok hj
  | select =>
    simp only [Command.readAs, Checked.app_eq_ok, Checked.map_eq_ok] at h
    obtain ⟨_, _, ⟨_, _, ⟨_, -, rfl⟩, -, rfl⟩, -, rfl⟩ := h
    exact trivial
  | input | popup =>
    simp only [Command.readAs, Checked.app_eq_ok, Checked.map_eq_ok] at h
    obtain ⟨_, _, ⟨_, -, rfl⟩, -, rfl⟩ := h
    exact trivial
  | loadingComplete =>
    obtain ⟨_, -, rfl⟩ := Checked.map_eq_ok.mp h
    exact trivial
  | button | clearBranch =>
    cases h
    exact trivial

/-! ## Floats -/

section Floats

open FloatOrder FloatRounding

theorem counts_iff {x : Float} : Counts x ↔ Counting x :=
  decide_eq_true_iff.trans counting_iff.symm

instance : OrderedScale Float where
  le_trans ha hab hbc :=
    decide_eq_true (float_le_trans (counts_iff.mp ha) (of_decide_eq_true hab)
      (of_decide_eq_true hbc))
  le_total ha hb :=
    (float_le_total (counts_iff.mp ha) (counts_iff.mp hb)).imp decide_eq_true decide_eq_true
  lt_iff := by
    intro a b ha hb
    show decide (a < b) = true ↔ decide (b ≤ a) = false
    rw [decide_eq_true_iff, decide_eq_false_iff_not]
    exact float_lt_iff_not_le (counts_iff.mp ha) (counts_iff.mp hb)
  zero_counts := by
    show decide ((0.0 : Float) ≤ 0.0) = true
    decide +kernel
  zero_lt_hundred := by decide +kernel
  hundred_counts := by
    show decide ((0.0 : Float) ≤ 100.0) = true
    decide +kernel
  le_add ha hb := decide_eq_true (float_le_add (counts_iff.mp ha) (counts_iff.mp hb))
  share_counts he hd h := counts_iff.mpr (share_counting (counts_iff.mp he) hd h)
  ofFloat_counts hlow _ := decide_eq_true hlow
  ofFloat_le_hundred _ hhigh := decide_eq_true hhigh

end Floats

end Quiz
