import Mathlib.Logic.Function.Basic
import Mathlib.Logic.Relation

/-! Threads over a shared state, each with a local state that says where it stands. A thread makes
one move at a time, and the moves of all threads are interleaved in every order. -/
namespace Interleaving

variable {ι μ σ α : Type}

structure Threads (ι σ α : Type) where
  shared : σ
  place : ι → α

/-- What a move of a thread does to the shared state and to its own local state. -/
abbrev Moves (ι μ σ α : Type) := ι → μ → σ → α → σ × α

namespace Threads

def start (shared : σ) (idle : α) : Threads ι σ α := ⟨shared,fun _ => idle⟩

variable [DecidableEq ι] (moves : Moves ι μ σ α)

def step (s : Threads ι σ α) (i : ι) (m : μ) : Threads ι σ α :=
  ⟨(moves i m s.shared (s.place i)).1,Function.update s.place i (moves i m s.shared (s.place i)).2⟩

def run (s : Threads ι σ α) (actions : List (ι × μ)) : Threads ι σ α :=
  actions.foldl (fun s action => s.step moves action.1 action.2) s

/-- Moves lead from the first state to the second. -/
def Leads : Threads ι σ α → Threads ι σ α → Prop :=
  Relation.ReflTransGen fun s s' => ∃ i m, s' = s.step moves i m

theorem leads_run (s : Threads ι σ α) (actions : List (ι × μ)) :
    s.Leads moves (s.run moves actions) := by
  induction actions generalizing s with
  | nil => exact .refl
  | cons action actions ih => exact .head ⟨action.1,action.2,rfl⟩ (ih _)

/-- `I` holds of the shared state, `K` says what each thread knows, and `D` excludes places at which
two threads cannot be together. -/
structure Holds (I : σ → Prop) (K : ι → σ → α → Prop) (D : α → α → Prop) (s : Threads ι σ α) :
    Prop where
  shared : I s.shared
  thread : ∀ i, K i s.shared (s.place i)
  apart : ∀ i j, i ≠ j → D (s.place i) (s.place j)

end Threads

variable (moves : Moves ι μ σ α) (I : σ → Prop) (K : ι → σ → α → Prop) (D : α → α → Prop)

/-- A move keeps the invariant and what the thread itself and every other thread knows. -/
structure Keeps : Prop where
  symm : ∀ a b, D a b → D b a
  own : ∀ i m s a, I s → K i s a → I (moves i m s a).1 ∧ K i (moves i m s a).1 (moves i m s a).2
  other : ∀ i m s a j b, j ≠ i → I s → K i s a → K j s b → D a b →
    K j (moves i m s a).1 b ∧ D (moves i m s a).2 b

variable {moves I K D} [DecidableEq ι]

theorem Keeps.step (hk : Keeps moves I K D) {s : Threads ι σ α} (hs : s.Holds I K D) (i : ι)
    (m : μ) : (s.step moves i m).Holds I K D := by
  obtain ⟨hshared,hown⟩ := hk.own i m _ _ hs.shared (hs.thread i)
  have hother : ∀ j, j ≠ i → K j (moves i m s.shared (s.place i)).1 (s.place j) ∧
      D (moves i m s.shared (s.place i)).2 (s.place j) := fun j hj =>
    hk.other i m _ _ j _ hj hs.shared (hs.thread i) (hs.thread j) (hs.apart i j (Ne.symm hj))
  refine ⟨hshared,?_,?_⟩
  · intro j
    by_cases hj : j = i
    · rw [hj]
      simpa [Threads.step] using hown
    · simpa [Threads.step,hj] using (hother j hj).1
  · intro j j' hne
    by_cases hj : j = i
    · have hj' : j' ≠ i := fun h => hne (hj.trans h.symm)
      simpa [Threads.step,hj,hj'] using (hother j' hj').2
    · by_cases hj' : j' = i
      · simpa [Threads.step,hj,hj'] using hk.symm _ _ (hother j hj).2
      · simpa [Threads.step,hj,hj'] using hs.apart j j' hne

variable {s s' : Threads ι σ α}

theorem Keeps.leads (hk : Keeps moves I K D) (hs : s.Holds I K D) (h : s.Leads moves s') :
    s'.Holds I K D := by
  induction h with
  | refl => exact hs
  | tail _ hstep ih =>
    obtain ⟨i,m,rfl⟩ := hstep
    exact hk.step ih i m

theorem Keeps.related (hk : Keeps moves I K D) {R : σ → σ → Prop} (hrefl : ∀ s, R s s)
    (htrans : ∀ s t u, R s t → R t u → R s u)
    (hmove : ∀ i m s a, I s → K i s a → R s (moves i m s a).1)
    (hs : s.Holds I K D) (h : s.Leads moves s') : R s.shared s'.shared := by
  induction h with
  | refl => exact hrefl _
  | tail hleads hstep ih =>
    obtain ⟨i,m,rfl⟩ := hstep
    have hbefore := hk.leads hs hleads
    exact htrans _ _ _ ih (hmove i m _ _ hbefore.shared (hbefore.thread i))

end Interleaving
