import AiGateway.Relational.Table
import Mathlib.Data.Set.Card

/-! Sorted sets as Redis keeps them: each member occurs once and carries a score. The lemmas
describe every operation by what it does to the scores and to the number of members. -/
namespace Redis
open List

structure ZSet where
  members : List (String × ℕ)
  unique : (members.map Prod.fst).Nodup

namespace ZSet

def empty : ZSet := ⟨[],nodup_nil⟩

theorem eq_empty {z : ZSet} (h : z.members.length = 0) : z = empty := by
  obtain ⟨members,unique⟩ := z
  cases members with
  | nil => rfl
  | cons x members => simp at h

/-- `ZSCORE` -/
def score (z : ZSet) (m : String) : Option ℕ :=
  (z.members.find? fun x => x.1 = m).map Prod.snd

/-- `ZCARD` -/
def card (z : ZSet) : ℕ := z.members.length

/-- The members a predicate selects. -/
def filter (p : String × ℕ → Bool) (z : ZSet) : ZSet :=
  ⟨z.members.filter p,z.unique.sublist ((filter_sublist).map _)⟩

/-- `ZREM` -/
def remove (z : ZSet) (m : String) : ZSet := z.filter fun x => x.1 ≠ m

/-- `ZREMRANGEBYSCORE -inf max` -/
def removeUpTo (z : ZSet) (max : ℕ) : ZSet := z.filter fun x => max < x.2

theorem notMem_remove (z : ZSet) (m : String) : m ∉ (z.remove m).members.map Prod.fst := by
  simp [remove,filter]

/-- `ZADD`, which also moves a member to a new score. -/
def add (z : ZSet) (m : String) (e : ℕ) : ZSet :=
  ⟨(m,e) :: (z.remove m).members,nodup_cons.mpr ⟨z.notMem_remove m,(z.remove m).unique⟩⟩

/-- `ZADD XX`: only members that are there already are moved. -/
def addExisting (z : ZSet) (m : String) (e : ℕ) : ZSet :=
  if (z.score m).isSome then z.add m e else z

/-- `ZRANGE 0 0 WITHSCORES`: the least score, and the least name among those that have it. -/
def first (z : ZSet) : Option (String × ℕ) :=
  Relational.first (fun x y => x.2 < y.2 || (x.2 = y.2 && x.1 < y.1)) z.members

variable {z : ZSet} {m m' : String} {e : ℕ}

theorem score_eq_some : z.score m = some e ↔ (m,e) ∈ z.members := by
  rw [score,Option.map_eq_some_iff]
  constructor
  · rintro ⟨x,hx,rfl⟩
    obtain ⟨hmem,rfl⟩ := (Relational.find?_eq_some z.unique).mp hx
    exact hmem
  · intro h
    exact ⟨(m,e),(Relational.find?_eq_some z.unique).mpr ⟨h,rfl⟩,rfl⟩

@[simp] theorem score_empty : empty.score m = none := rfl

theorem score_filter (p : String × ℕ → Bool) :
    (z.filter p).score m = (z.score m).filter fun e => p (m,e) := by
  apply Option.ext
  intro e
  rw [score_eq_some,Option.filter_eq_some_iff,score_eq_some]
  exact mem_filter

@[simp] theorem score_remove : (z.remove m).score m' = if m' = m then none else z.score m' := by
  rw [remove,score_filter]
  by_cases h : m' = m
  · simp [h]
  · cases hz : z.score m' <;> simp [h]

@[simp] theorem score_removeUpTo (max : ℕ) :
    (z.removeUpTo max).score m = (z.score m).filter fun e => max < e := score_filter _

@[simp] theorem score_add : (z.add m e).score m' = if m' = m then some e else z.score m' := by
  by_cases h : m' = m
  · subst h
    simp [score,add]
  · have hrest : (z.remove m).score m' = z.score m' := by simp [h]
    rw [if_neg h,← hrest]
    simp [score,add,Ne.symm h]

theorem addExisting_eq (h : z.score m = some e) (e' : ℕ) :
    z.addExisting m e' = z.add m e' := if_pos (by simp [h])

theorem card_filter_le (p : String × ℕ → Bool) : (z.filter p).card ≤ z.card :=
  length_filter_le p z.members

theorem card_remove_le : (z.remove m).card ≤ z.card := card_filter_le _

theorem card_removeUpTo_le (max : ℕ) : (z.removeUpTo max).card ≤ z.card := card_filter_le _

theorem remove_eq_self (h : z.score m = none) : (z.remove m).members = z.members := by
  apply filter_eq_self.mpr
  rintro ⟨m',e⟩ hmem
  have hne : m' ≠ m := by
    rintro rfl
    rw [score_eq_some.mpr hmem] at h
    cases h
  simpa using hne

theorem card_add (h : z.score m = none) : (z.add m e).card = z.card + 1 := by
  simp [card,add,remove_eq_self h]

theorem card_eq_encard : (z.card : ℕ∞) = {m | ∃ e, z.score m = some e}.encard := by
  have hset : {m | ∃ e, z.score m = some e} = ↑(z.members.map Prod.fst).toFinset := by
    ext m
    simp [score_eq_some]
  rw [hset,Set.encard_coe_eq_coe_finsetCard,toFinset_card_of_nodup z.unique,
    length_map,card]

theorem card_removeUpTo (max : ℕ) :
    ((z.removeUpTo max).card : ℕ∞) = {m | ∃ e, z.score m = some e ∧ max < e}.encard := by
  rw [card_eq_encard]
  congr 1
  ext m
  simp

theorem card_add_of_some (h : z.score m = some e) (e' : ℕ) : (z.add m e').card = z.card := by
  have hcast : ((z.add m e').card : ℕ∞) = z.card := by
    rw [card_eq_encard,card_eq_encard]
    congr 1
    ext m'
    by_cases hm : m' = m
    · simp [hm,h]
    · simp [hm]
  exact_mod_cast hcast

theorem card_pos (h : z.score m = some e) : 0 < z.card :=
  length_pos_of_mem (score_eq_some.mp h)

theorem first_of_card_pos (h : 0 < z.card) : ∃ x, z.first = some x ∧ z.score x.1 = some x.2 := by
  cases hf : z.first with
  | none =>
    rw [first,Relational.first_eq_none] at hf
    simp [card,hf] at h
  | some x => exact ⟨x,rfl,score_eq_some.mpr (Relational.first_mem hf)⟩

end ZSet
end Redis
