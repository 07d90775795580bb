import Mathlib.Data.List.Basic
import Mathlib.Tactic.IntervalCases

/-! Anchored text patterns made of ASCII character classes, and canonical lower-case UUIDs. -/
namespace Text
open List

/-- One class for each character, nothing left over on either side. -/
def matchesEach : List (Char → Bool) → List Char → Bool
  | [], [] => true
  | p :: ps, c :: cs => p c && matchesEach ps cs
  | _, _ => false

variable {ps : List (Char → Bool)} {p : Char → Bool} {cs : List Char} {s : String} {c : Char}

theorem matchesEach_length (h : matchesEach ps cs) : cs.length = ps.length := by
  induction ps generalizing cs with
  | nil =>
    cases cs with
    | nil => rfl
    | cons c cs => simp [matchesEach] at h
  | cons p ps ih =>
    cases cs with
    | nil => simp [matchesEach] at h
    | cons c cs =>
      simp only [matchesEach,Bool.and_eq_true] at h
      simp [ih h.2]

theorem matchesEach_forall {q : Char → Prop} (h : matchesEach ps cs)
    (hq : ∀ p ∈ ps, ∀ c, p c → q c) : ∀ c ∈ cs, q c := by
  induction ps generalizing cs with
  | nil =>
    cases cs with
    | nil => simp
    | cons c cs => simp [matchesEach] at h
  | cons p ps ih =>
    cases cs with
    | nil => simp
    | cons c cs =>
      simp only [matchesEach,Bool.and_eq_true] at h
      intro d hd
      rcases mem_cons.mp hd with rfl | hd
      · exact hq p mem_cons_self d h.1
      · exact ih h.2 (fun p' hp' => hq p' (mem_cons_of_mem p hp')) d hd

theorem length_le_utf8ByteSize (s : String) : s.length ≤ s.utf8ByteSize := by
  have hlist : ∀ cs : List Char, cs.length ≤ cs.utf8Encode.size := by
    intro cs
    induction cs with
    | nil => simp
    | cons c cs ih =>
      have hc : 0 < [c].utf8Encode.size := by
        simpa [utf8Encode_singleton,String.length_utf8EncodeChar] using c.utf8Size_pos
      rw [utf8Encode_cons,ByteArray.size_append,length_cons]
      omega
  have hs := hlist s.toList
  rwa [String.utf8Encode_toList,String.length_toList] at hs

def isHex (c : Char) : Bool := ('0' ≤ c && c ≤ '9') || ('a' ≤ c && c ≤ 'f')

def isAlnum (c : Char) : Bool :=
  ('A' ≤ c && c ≤ 'Z') || ('a' ≤ c && c ≤ 'z') || ('0' ≤ c && c ≤ '9')

def isDash (c : Char) : Bool := c == '-'

theorem isAlnum_of_isHex (h : isHex c) : isAlnum c := by
  simp only [isHex,Bool.or_eq_true,Bool.and_eq_true,decide_eq_true_eq] at h
  simp only [isAlnum,Bool.or_eq_true,Bool.and_eq_true,decide_eq_true_eq]
  rcases h with h | ⟨h₁,h₂⟩
  · exact .inr h
  · exact .inl (.inr ⟨h₁,Char.le_trans h₂ (by decide)⟩)

/-- A character of `[A-Za-z0-9]` followed by any number of alphanumeric characters or characters
of `extra`. -/
def isRef (extra : List Char) (s : String) : Bool :=
  match s.toList with
  | [] => false
  | c :: cs => isAlnum c && cs.all fun d => isAlnum d || extra.contains d

/-- Groups `8-4-4-4-12` of lower-case hexadecimal digits with a version digit `1`..`8` and a variant
digit `8`, `9`, `a` or `b`. -/
def uuidShape : List (Char → Bool) :=
  replicate 8 isHex ++ [isDash] ++ replicate 4 isHex ++ [isDash] ++
    [fun c => '1' ≤ c && c ≤ '8'] ++ replicate 3 isHex ++ [isDash] ++
    [fun c => c == '8' || c == '9' || c == 'a' || c == 'b'] ++ replicate 3 isHex ++
    [isDash] ++ replicate 12 isHex

def isUUID (s : String) : Bool := matchesEach uuidShape s.toList

theorem isUUID_length (h : isUUID s) : s.toList.length = 36 :=
  matchesEach_length h

theorem uuidShape_classes (hp : p ∈ uuidShape) (hc : p c) : isHex c ∨ c = '-' := by
  simp only [uuidShape,mem_append,mem_replicate,mem_singleton] at hp
  have hver (h : p = fun c => '1' ≤ c && c ≤ '8') : isHex c := by
    subst h
    simp only [Bool.and_eq_true,decide_eq_true_eq] at hc
    have h₁ : '0' ≤ c := Char.le_trans (by decide) hc.1
    have h₂ : c ≤ '9' := Char.le_trans hc.2 (by decide)
    simp [isHex,h₁,h₂]
  have hvar (h : p = fun c => c == '8' || c == '9' || c == 'a' || c == 'b') :
      isHex c := by
    subst h
    simp only [Bool.or_eq_true,beq_iff_eq] at hc
    rcases hc with ((rfl | rfl) | rfl) | rfl <;> decide
  have hdash (h : p = isDash) : c = '-' := by
    subst h
    simpa [isDash] using hc
  rcases hp with (((((((((⟨-,rfl⟩ | h) | ⟨-,rfl⟩) | h) | h) | ⟨-,rfl⟩) | h) | h) |
    ⟨-,rfl⟩) | h) | ⟨-,rfl⟩
  all_goals first
    | exact .inl hc
    | exact .inr (hdash h)
    | exact .inl (hver h)
    | exact .inl (hvar h)

theorem isUUID_chars (h : isUUID s) : ∀ c ∈ s.toList, isHex c ∨ c = '-' :=
  matchesEach_forall h fun _ hp _ hc => uuidShape_classes hp hc

/-- A word, a colon and a UUID form a reference as soon as `:` and `-` are allowed in one. -/
theorem isRef_tagged {extra : List Char} {tag id : String} (htag : isRef extra tag)
    (hid : isUUID id) (hcolon : ':' ∈ extra) (hdash : '-' ∈ extra) :
    isRef extra (tag ++ ":" ++ id) := by
  unfold isRef at htag ⊢
  simp only [String.toList_append]
  cases htl : tag.toList with
  | nil => simp [htl] at htag
  | cons c cs =>
    simp only [htl,Bool.and_eq_true,all_eq_true] at htag
    simp only [cons_append,Bool.and_eq_true,all_eq_true,mem_append]
    refine ⟨htag.1,?_⟩
    rintro d ((hd | hd) | hd)
    · exact htag.2 d hd
    · have : d = ':' := by simpa using hd
      subst this
      simp [hcolon]
    · rcases isUUID_chars hid d hd with hx | rfl
      · simp [isAlnum_of_isHex hx]
      · simp [hdash]

/-! Formatting of sixteen bytes as a UUID. -/

def hexByte (b : UInt8) : List Char :=
  [Nat.digitChar (b.toNat / 16),Nat.digitChar (b.toNat % 16)]

theorem isHex_digitChar {n : ℕ} (h : n < 16) : isHex (Nat.digitChar n) := by
  interval_cases n <;> decide

/-- A byte fits two places of a shape: the first is left open, the second is a digit. -/
theorem matchesEach_hexByte {b : UInt8} (h : p (Nat.digitChar (b.toNat / 16)))
    (ps : List (Char → Bool)) (cs : List Char) :
    matchesEach (p :: isHex :: ps) (hexByte b ++ cs) = matchesEach ps cs := by
  have hlow : isHex (Nat.digitChar (b.toNat % 16)) := isHex_digitChar (by omega)
  simp [matchesEach,hexByte,h,hlow]

/-- The version nibble of `(b & 0x0f) | 0x40` is `4`. -/
theorem digitChar_version (b : UInt8) :
    Nat.digitChar (((b &&& 0x0f) ||| 0x40).toNat / 16) = '4' := by
  have h : ∀ n : Fin 256, Nat.digitChar (((n.val &&& 15) ||| 64) / 16) = '4' := by
    decide +kernel
  simpa using h ⟨b.toNat,UInt8.toNat_lt b⟩

/-- The variant nibble of `(b & 0x3f) | 0x80` is one of `8`, `9`, `a`, `b`. -/
theorem digitChar_variant (b : UInt8) :
    Nat.digitChar (((b &&& 0x3f) ||| 0x80).toNat / 16) ∈ ['8','9','a','b'] := by
  have h : ∀ n : Fin 256, Nat.digitChar (((n.val &&& 63) ||| 128) / 16) ∈ ['8','9','a','b'] := by
    decide +kernel
  simpa using h ⟨b.toNat,UInt8.toNat_lt b⟩

/-- A version 4 UUID made of sixteen raw bytes. -/
def uuidOfBytes (raw : Fin 16 → UInt8) : String :=
  String.ofList (hexByte (raw 0) ++ hexByte (raw 1) ++ hexByte (raw 2) ++ hexByte (raw 3) ++
    ['-'] ++ hexByte (raw 4) ++ hexByte (raw 5) ++
    ['-'] ++ hexByte ((raw 6 &&& 0x0f) ||| 0x40) ++ hexByte (raw 7) ++
    ['-'] ++ hexByte ((raw 8 &&& 0x3f) ||| 0x80) ++ hexByte (raw 9) ++
    ['-'] ++ hexByte (raw 10) ++ hexByte (raw 11) ++ hexByte (raw 12) ++ hexByte (raw 13) ++
    hexByte (raw 14) ++ hexByte (raw 15))

theorem isUUID_uuidOfBytes (raw : Fin 16 → UInt8) : isUUID (uuidOfBytes raw) := by
  have hx (b : UInt8) : isHex (Nat.digitChar (b.toNat / 16)) :=
    isHex_digitChar (by have := UInt8.toNat_lt b; omega)
  have hdash (ps : List (Char → Bool)) (cs : List Char) :
      matchesEach (isDash :: ps) ('-' :: cs) = matchesEach ps cs := rfl
  have hversion := matchesEach_hexByte (p := fun c => '1' ≤ c && c ≤ '8')
    (b := (raw 6 &&& 0x0f) ||| 0x40) (by rw [digitChar_version]; decide)
  have hvariant := matchesEach_hexByte (p := fun c => c == '8' || c == '9' || c == 'a' || c == 'b')
    (b := (raw 8 &&& 0x3f) ||| 0x80)
    (by simpa [mem_cons,or_assoc] using digitChar_variant (raw 8))
  have hlast := matchesEach_hexByte (hx (raw 15)) [] []
  rw [append_nil] at hlast
  unfold isUUID uuidOfBytes uuidShape
  rw [String.toList_ofList]
  simp only [replicate,cons_append,nil_append,append_assoc]
  simp only [matchesEach_hexByte (hx (raw _)),hdash]
  rw [hversion]
  simp only [matchesEach_hexByte (hx (raw _)),hdash]
  rw [hvariant]
  simp only [matchesEach_hexByte (hx (raw _)),hdash]
  exact hlast

end Text
