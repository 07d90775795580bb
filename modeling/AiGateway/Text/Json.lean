import AiGateway.Text.Word
import Mathlib.Algebra.Order.BigOperators.Group.List
import Mathlib.Data.Nat.Digits.Defs

/-! JSON texts: quoted strings, integers and objects, and bounds on their length. -/
namespace Text
open List

def hexDigit (n : ℕ) : Char := Nat.digitChar (n % 16)

/-- How a character stands inside a quoted string; `<`, `>` and `&` are written by their code. -/
def escape (c : Char) : List Char :=
  if c = '"' ∨ c = '\\' then ['\\',c]
  else if c = '\x08' then ['\\','b']
  else if c = '\x0c' then ['\\','f']
  else if c = '\n' then ['\\','n']
  else if c = '\r' then ['\\','r']
  else if c = '\t' then ['\\','t']
  else if c.toNat < 0x20 ∨ c ∈ ['<','>','&','\u2028','\u2029'] then
    ['\\','u',hexDigit (c.toNat / 4096),hexDigit (c.toNat / 256),hexDigit (c.toNat / 16),
      hexDigit c.toNat]
  else [c]

def quote (s : String) : List Char := '"' :: s.toList.flatMap escape ++ ['"']

def integerText (n : ℤ) : List Char :=
  if n < 0 then '-' :: n.natAbs.repr.toList else n.natAbs.repr.toList

def members : List (String × List Char) → List Char
  | [] => []
  | [(key,value)] => quote key ++ ':' :: value
  | (key,value) :: fields => quote key ++ ':' :: value ++ ',' :: members fields

def object (fields : List (String × List Char)) : List Char :=
  '\x7b' :: members fields ++ ['\x7d']

theorem escape_length (c : Char) : (escape c).length ≤ 6 := by
  unfold escape
  split_ifs <;> simp

theorem quote_length (s : String) : (quote s).length ≤ 6 * s.toList.length + 2 := by
  have hescaped : ∀ cs : List Char, (cs.flatMap escape).length ≤ 6 * cs.length := by
    intro cs
    induction cs with
    | nil => simp
    | cons c cs ih =>
      have hc := escape_length c
      rw [flatMap_cons,length_append,length_cons]
      omega
  have hs := hescaped s.toList
  simp only [quote,length_append,length_cons,length_nil]
  omega

theorem quote_length_le {s : String} {n : ℕ} (h : s.toList.length ≤ n) :
    (quote s).length ≤ 6 * n + 2 :=
  (quote_length s).trans (by omega)

theorem integerText_length {n : ℤ} {e : ℕ} (he : 0 < e) (hleast : 0 ≤ n) (hmost : n < 10 ^ e) :
    (integerText n).length ≤ e := by
  rw [integerText,if_neg (not_lt.mpr hleast),String.length_toList]
  apply Nat.repr_length _ _ he
  have hn : (n.natAbs : ℤ) = n := Int.natAbs_of_nonneg hleast
  have hcast : (n.natAbs : ℤ) < ((10 ^ e : ℕ) : ℤ) := by
    rw [hn]
    simpa using hmost
  exact_mod_cast hcast

/-- The members take no more than their values and, for each, a quoted key, a colon and a comma. -/
theorem members_length (fields : List (String × List Char)) {k : ℕ}
    (hkeys : ∀ key ∈ fields.map Prod.fst, key.toList.length ≤ k) :
    (members fields).length ≤ fields.length * (6 * k + 4) + (fields.map (·.2.length)).sum := by
  induction fields with
  | nil => simp [members]
  | cons f fields ih =>
    obtain ⟨key,value⟩ := f
    rw [map_cons,forall_mem_cons] at hkeys
    have hkey : (quote key).length ≤ 6 * k + 2 := quote_length_le hkeys.1
    have hfields := ih hkeys.2
    cases fields with
    | nil =>
      simp only [members,length_append,length_cons,length_nil,map_cons,map_nil,sum_cons,sum_nil]
      omega
    | cons g fields =>
      simp only [members,length_append,length_cons,map_cons,sum_cons,Nat.add_mul] at hfields ⊢
      omega

theorem utf8ByteSize_le (s : String) : s.utf8ByteSize ≤ 4 * s.toList.length := by
  rw [← String.utf8Len_toList]
  generalize s.toList = cs
  induction cs with
  | nil => simp
  | cons c cs ih =>
    have hc := Char.utf8Size_le_four c
    rw [String.utf8Len_cons,length_cons]
    omega

theorem isWord_length_le {first rest : Char → Bool} {least most : ℕ} {s : String}
    (h : isWord first rest least most s) : s.toList.length ≤ most + 1 := by
  obtain ⟨c,cs,hs,-,-,-,hmost⟩ := isWord_iff.mp h
  rw [hs,length_cons]
  omega

end Text
