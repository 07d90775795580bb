import Mathlib.Data.List.Basic

/-! `LEFT JOIN`: the rows with their matches, and a row without a match once. -/
namespace Relational

variable {ρ σ : Type}

def leftJoin (matched : ρ → σ → Bool) (rows : List ρ) (others : List σ) : List (ρ × Option σ) :=
  rows.flatMap fun r =>
    if (others.filter (matched r)).isEmpty then [(r,none)]
    else (others.filter (matched r)).map (r,some ·)

variable {matched : ρ → σ → Bool} {rows : List ρ} {others : List σ}

theorem mem_leftJoin_none {r : ρ} :
    (r,none) ∈ leftJoin matched rows others ↔ r ∈ rows ∧ ∀ s ∈ others, matched r s = false := by
  simp only [leftJoin,List.mem_flatMap]
  constructor
  · intro h
    obtain ⟨row,hrow,hmem⟩ := h
    split_ifs at hmem with hempty
    · rw [List.mem_singleton,Prod.mk.injEq] at hmem
      rw [hmem.1]
      refine ⟨hrow,?_⟩
      rw [List.isEmpty_iff,List.filter_eq_nil_iff] at hempty
      simpa using hempty
    · simp at hmem
  · intro h
    refine ⟨r,h.1,?_⟩
    have hempty : (others.filter (matched r)).isEmpty := by
      rw [List.isEmpty_iff,List.filter_eq_nil_iff]
      simpa using h.2
    rw [if_pos hempty]
    exact List.mem_singleton_self _

theorem countP_leftJoin : (leftJoin matched rows others).countP (·.2.isSome) =
    (leftJoin matched rows others).length ↔ ∀ r ∈ rows, ∃ s ∈ others, matched r s := by
  rw [List.countP_eq_length]
  constructor
  · intro h r hr
    by_contra hnone
    push Not at hnone
    have hmem : (r,none) ∈ leftJoin matched rows others :=
      mem_leftJoin_none.mpr ⟨hr,fun s hs => by simpa using hnone s hs⟩
    exact absurd (h _ hmem) (by simp)
  · intro h joined hjoined
    obtain ⟨r,s⟩ := joined
    cases s with
    | some s => rfl
    | none =>
      obtain ⟨hr,hnone⟩ := mem_leftJoin_none.mp hjoined
      obtain ⟨s,hs,hmatched⟩ := h r hr
      rw [hnone s hs] at hmatched
      cases hmatched

end Relational
