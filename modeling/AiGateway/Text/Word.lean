import AiGateway.Text.Pattern
import Mathlib.Data.String.Basic

/-! Anchored patterns of one leading class followed by a bounded run of another, and blanks. -/
namespace Text
open List

/-- `^[first][rest]{least,most}$` -/
def isWord (first rest : Char → Bool) (least most : ℕ) (s : String) : Bool :=
  match s.toList with
  | [] => false
  | c :: cs => first c && cs.all rest && least ≤ cs.length && cs.length ≤ most

variable {first rest : Char → Bool} {s : String} {least most : ℕ}

theorem isWord_iff : isWord first rest least most s ↔ ∃ c cs, s.toList = c :: cs ∧ first c ∧
      (∀ d ∈ cs, rest d) ∧ least ≤ cs.length ∧ cs.length ≤ most := by
  unfold isWord
  cases hs : s.toList with
  | nil => simp
  | cons c cs => simp [and_assoc]

theorem isWord_of_length {least' : ℕ} (h : isWord first rest least most s)
    (hlen : least' + 1 ≤ s.toList.length) : isWord first rest least' most s := by
  obtain ⟨c,cs,hs,hc,hcs,-,hmax⟩ := isWord_iff.mp h
  rw [hs,length_cons] at hlen
  exact isWord_iff.mpr ⟨c,cs,hs,hc,hcs,by omega,hmax⟩

def isUpper (c : Char) : Bool := 'A' ≤ c && c ≤ 'Z'

def isLower (c : Char) : Bool := 'a' ≤ c && c ≤ 'z'

def isDigit (c : Char) : Bool := '0' ≤ c && c ≤ '9'

/-- `unicode.IsSpace` -/
def isSpace (c : Char) : Bool :=
  [0x09,0x0a,0x0b,0x0c,0x0d,0x20,0x85,0xa0,0x1680,0x2028,0x2029,0x202f,0x205f,
    0x3000].contains c.toNat || (0x2000 ≤ c.toNat && c.toNat ≤ 0x200a)

/-- `unicode.IsControl` -/
def isControl (c : Char) : Bool := c.toNat < 0x20 || (0x7f ≤ c.toNat && c.toNat ≤ 0x9f)

def containsControl (s : String) : Bool := s.toList.any isControl

/-- `strings.TrimSpace` -/
def trimSpace (s : String) : String :=
  String.ofList ((s.toList.dropWhile isSpace).reverse.dropWhile isSpace).reverse

/-- `strings.TrimSpace` leaves the text as it is. -/
def isTrimmed (s : String) : Bool :=
  (s.toList.head?.map isSpace).getD false = false &&
    (s.toList.getLast?.map isSpace).getD false = false

theorem utf8ByteSize_of_ascii (h : ∀ c ∈ s.toList, c ≤ '\x7f') :
    s.utf8ByteSize = s.toList.length := by
  rw [← String.utf8Len_toList]
  generalize s.toList = cs at h
  induction cs with
  | nil => rfl
  | cons c cs ih =>
    have hc : c.utf8Size = 1 := by
      simp only [Char.utf8Size]
      rw [if_pos]
      exact h c mem_cons_self
    rw [String.utf8Len_cons,ih fun d hd => h d (mem_cons_of_mem c hd),hc,length_cons]

theorem isWord_ascii (h : isWord first rest least most s)
    (hfirst : ∀ c, first c → c ≤ '\x7f') (hrest : ∀ c, rest c → c ≤ '\x7f') :
    ∀ c ∈ s.toList, c ≤ '\x7f' := by
  obtain ⟨c,cs,hs,hc,hcs,-,-⟩ := isWord_iff.mp h
  rw [hs]
  intro d hd
  rcases mem_cons.mp hd with rfl | hd
  · exact hfirst d hc
  · exact hrest d (hcs d hd)

theorem ascii_of_isAlnum {c : Char} (h : isAlnum c) : c ≤ '\x7f' := by
  simp only [isAlnum,Bool.or_eq_true,Bool.and_eq_true,decide_eq_true_eq] at h
  rcases h with (h | h) | h
  all_goals exact h.2.trans (by decide)

end Text
