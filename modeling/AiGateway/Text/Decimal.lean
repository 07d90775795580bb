import Mathlib.Algebra.Order.Group.Int
import Mathlib.Data.List.Basic

/-! Numbers written in decimal: reading a string of digits back, the canonical signed form, and
texts that are put together with a separator no number contains. -/
namespace Text
open List

/-- The value of a non-empty string of digits (`^[0-9]+$`). -/
def decimal (s : String) : Option ℕ :=
  if s.toList ≠ [] ∧ s.toList.all Char.isDigit then
    some (Nat.ofDigitChars 10 s.toList 0)
  else none

/-- The value of an integer in canonical form: no sign but `-`, no leading zero, no `-0`. -/
def integer (s : String) : Option ℤ :=
  match s.toList with
  | '-' :: digits => (decimal (String.ofList digits)).bind fun n =>
      if n ≠ 0 ∧ n.repr = String.ofList digits then some (-(n : ℤ)) else none
  | _ => (decimal s).bind fun n => if n.repr = s then some (n : ℤ) else none

theorem isDigit_of_mem_repr {n : ℕ} {c : Char} (h : c ∈ n.repr.toList) : c.isDigit := by
  rw [Nat.toList_repr] at h
  exact Nat.isDigit_of_mem_toDigits (by decide) (by decide) h

@[simp] theorem decimal_repr (n : ℕ) : decimal n.repr = some n := by
  have hne : n.repr.toList ≠ [] := by
    rw [Nat.toList_repr]
    exact Nat.toDigits_ne_nil
  have hall : n.repr.toList.all Char.isDigit :=
    all_eq_true.mpr fun c hc => isDigit_of_mem_repr hc
  rw [decimal,if_pos ⟨hne,hall⟩,Nat.toList_repr,Nat.ofDigitChars_ten_toDigits]

theorem repr_injective : Function.Injective Nat.repr := by
  intro m n h
  have hval : decimal m.repr = decimal n.repr := by rw [h]
  simpa using hval

@[simp] theorem repr_inj {m n : ℕ} : m.repr = n.repr ↔ m = n := repr_injective.eq_iff

@[simp] theorem integer_repr (n : ℕ) : integer n.repr = some (n : ℤ) := by
  unfold integer
  split
  · rename_i digits h
    have hdash : ('-' : Char) ∈ n.repr.toList := by simp [h]
    exact absurd (isDigit_of_mem_repr hdash) (by decide)
  · simp

theorem colon_notMem_repr (n : ℕ) : ':' ∉ n.repr.toList := by
  intro h
  exact absurd (isDigit_of_mem_repr h) (by decide)

theorem append_cons_inj {a a' : List Char} {c : Char} (b b' : List Char) (ha : c ∉ a)
    (ha' : c ∉ a') : a ++ c :: b = a' ++ c :: b' ↔ a = a' ∧ b = b' := by
  constructor
  · intro h
    rcases append_eq_append_iff.mp h with ⟨t,rfl,ht⟩ | ⟨t,rfl,ht⟩
    all_goals
      cases t with
      | nil => simp_all
      | cons d t => simp_all
  · rintro ⟨rfl,rfl⟩
    rfl

variable {a a' b b' : String}

theorem append_colon_inj (ha : ':' ∉ a.toList) (ha' : ':' ∉ a'.toList) :
    a ++ ":" ++ b = a' ++ ":" ++ b' ↔ a = a' ∧ b = b' := by
  have h := append_cons_inj b.toList b'.toList ha ha'
  rw [String.toList_inj,String.toList_inj] at h
  rw [← h,← String.toList_inj]
  simp

theorem append_colon_inj_last (hb : ':' ∉ b.toList) (hb' : ':' ∉ b'.toList) :
    a ++ ":" ++ b = a' ++ ":" ++ b' ↔ a = a' ∧ b = b' := by
  have h := append_cons_inj a.toList.reverse a'.toList.reverse
    (show ':' ∉ b.toList.reverse by simpa) (show ':' ∉ b'.toList.reverse by simpa)
  rw [reverse_inj,reverse_inj,String.toList_inj,String.toList_inj] at h
  rw [and_comm,← h,← String.toList_inj,← reverse_inj]
  simp

end Text
