import AiGateway.Interleaving.Program
import Mathlib.Algebra.BigOperators.Group.List.Basic
import Mathlib.Algebra.Order.Group.Multiset

/-! Invariants that tie the shared state to the calls that have returned. `D` is the multiset of
finished calls with their values, and `T s t a` bounds a step from `s` to `t` that returns the
value in `a`, if it is the last one. -/
namespace Interleaving

variable {σ ε α β κ : Type}

/-- What the history gains from a step of call `c` that returns the value in `a`, if any. -/
def entry (c : κ) : Option α → Multiset (κ × α)
  | some a => {(c,a)}
  | none => 0

@[simp] theorem entry_none (c : κ) : entry c (none : Option α) = 0 := rfl

@[simp] theorem entry_some (c : κ) (a : α) : entry c (some a) = {(c,a)} := rfl

namespace Prog

/-- What the history has gained when call `c` has got as far as `p`. -/
def returned (c : κ) (p : Prog σ ε α) : Multiset (κ × α) := entry c p.result

/-- Every step of the program, from every state where the invariant holds, keeps the invariant of
state and history and stays within `T`. -/
def Keeps (I : σ → Multiset (κ × α) → Prop) (guard : ε → σ → Prop)
    (T : σ → σ → Option α → Prop) (c : κ) : Prog σ ε α → Prop
  | .ret _ => True
  | .step r u n => ∀ e s D, I s D → guard e s → r s →
      I (u e s) (D + (n e s).returned c) ∧ T s (u e s) (n e s).result ∧ (n e s).Keeps I guard T c

variable {I : σ → Multiset (κ × α) → Prop} {guard : ε → σ → Prop} {T : σ → σ → Option α → Prop}
  {c : κ}

@[simp] theorem returned_ret (a : α) : (ret a : Prog σ ε α).returned c = {(c,a)} := rfl

@[simp] theorem returned_step (r : σ → Bool) (u : ε → σ → σ) (n : ε → σ → Prog σ ε α) :
    (step r u n).returned c = 0 := rfl

@[simp] theorem result_ret (a : α) : (ret a : Prog σ ε α).result = some a := rfl

theorem result_eq_some {p : Prog σ ε α} {a : α} : p.result = some a ↔ p = .ret a := by
  cases p <;> simp [result]

@[simp] theorem keeps_ret (a : α) : (ret a : Prog σ ε α).Keeps I guard T c := trivial

variable {k : β → Prog σ ε α}

theorem keeps_read {f : ε → σ → β}
    (h : ∀ e s D, I s D → guard e s → I s (D + (k (f e s)).returned c) ∧
      T s s (k (f e s)).result ∧ (k (f e s)).Keeps I guard T c) :
    (read f k).Keeps I guard T c :=
  fun e s D hI hg _ => h e s D hI hg

theorem keeps_write {f : ε → σ → σ × β}
    (h : ∀ e s D, I s D → guard e s → I (f e s).1 (D + (k (f e s).2).returned c) ∧
      T s (f e s).1 (k (f e s).2).result ∧ (k (f e s).2).Keeps I guard T c) :
    (write f k).Keeps I guard T c :=
  fun e s D hI hg _ => h e s D hI hg

theorem Keeps.and {J : σ → Multiset (κ × α) → Prop} {p : Prog σ ε α} (h : p.Keeps I guard T c)
    (hJ : ∀ e s t D a, I s D → J s D → guard e s → T s t a → J t (D + entry c a)) :
    p.Keeps (fun s D => I s D ∧ J s D) guard T c := by
  induction p with
  | ret a => trivial
  | step r u n ih =>
    intro e s D hI hg hr
    obtain ⟨h₁,h₂,h₃⟩ := h e s D hI.1 hg hr
    exact ⟨⟨h₁,hJ e s _ D _ hI.1 hI.2 hg h₂⟩,h₂,ih e s h₃⟩

end Prog

/-- The calls that have returned, each with its value. -/
def Pool.finished (p : Pool σ ε κ α) : Multiset (κ × α) :=
  (p.threads.map fun t => t.2.returned t.1).sum

theorem Prog.mem_returned {p : Prog σ ε α} {c d : κ} {a : α} :
    (d,a) ∈ p.returned c ↔ d = c ∧ p = .ret a := by
  cases p with
  | ret b => simp [eq_comm]
  | step r u n => simp

theorem Pool.mem_finished {p : Pool σ ε κ α} {c : κ} {a : α} :
    (c,a) ∈ p.finished ↔ (c,.ret a) ∈ p.threads := by
  rw [finished]
  induction p.threads with
  | nil => simp
  | cons t threads ih =>
    rw [List.map_cons,List.sum_cons,Multiset.mem_add,ih,Prog.mem_returned,List.mem_cons,
      Prod.ext_iff,eq_comm (b := t.2)]

namespace System
open List
variable (S : System σ ε κ α)

/-- In `p`, call `c` can make a step to the shared state `t`, returning the value in `a` if that
step is its last. -/
def Acts (p : Pool σ ε κ α) (c : κ) (t : σ) (a : Option α) : Prop :=
  ∃ r u n e, (c,.step r u n) ∈ p.threads ∧ r p.shared ∧ S.guard c e p.shared ∧
    u e p.shared = t ∧ (n e p.shared).result = a

/-- The premises of the rule for invariants of state and history. -/
structure Recorded (I : σ → Multiset (κ × α) → Prop) (T : κ → σ → σ → Option α → Prop) : Prop where
  init : ∀ s, S.init s → I s 0
  env : ∀ s t D, I s D → S.env s t → I t D
  spawn : ∀ c s D, I s D → I s (D + (S.start c).returned c)
  start : ∀ c, (S.start c).Keeps I (S.guard c) (T c) c

variable {S}

theorem Step.finished {p q : Pool σ ε κ α} (h : S.Step p q) :
    (q.shared = p.shared ∧ ∃ c, q.finished = p.finished + (S.start c).returned c) ∨
      (S.env p.shared q.shared ∧ q.finished = p.finished) ∨
      ∃ c r u n e, (c,.step r u n) ∈ p.threads ∧ r p.shared ∧ S.guard c e p.shared ∧
        q.shared = u e p.shared ∧ q.finished = p.finished + (n e p.shared).returned c := by
  cases h with
  | spawn c => exact .inl ⟨rfl,c,by simp [Pool.finished]⟩
  | run i c r u n e hi hr hg =>
    refine .inr (.inr ⟨c,r,u,n,e,mem_of_getElem? hi,hr,hg,rfl,?_⟩)
    obtain ⟨hlt,hx⟩ := List.getElem?_eq_some_iff.mp hi
    have hp : p.threads = p.threads.take i ++ (c,.step r u n) :: p.threads.drop (i + 1) := by
      rw [← hx,getElem_cons_drop,take_append_drop]
    -- the thread had not returned, so its old entry contributes nothing
    have hold : p.finished = ((p.threads.take i).map fun t => t.2.returned t.1).sum +
        ((p.threads.drop (i + 1)).map fun t => t.2.returned t.1).sum := by
      rw [Pool.finished]
      conv_lhs => rw [hp]
      simp only [map_append,map_cons,sum_append,sum_cons,
        Prog.returned_step,zero_add]
    rw [hold,Pool.finished,set_eq_take_append_cons_drop,if_pos hlt]
    simp only [map_append,map_cons,sum_append,sum_cons]
    rw [add_assoc,add_right_inj,add_comm]
  | env s h => exact .inr (.inl ⟨h,rfl⟩)

variable {I : σ → Multiset (κ × α) → Prop} {T : κ → σ → σ → Option α → Prop}

section
variable (hS : S.Recorded I T)
include hS

theorem Recorded.step {p q : Pool σ ε κ α} (hI : I p.shared p.finished)
    (hthreads : ∀ t ∈ p.threads, t.2.Keeps I (S.guard t.1) (T t.1) t.1) (h : S.Step p q) :
    I q.shared q.finished ∧ ∀ t ∈ q.threads, t.2.Keeps I (S.guard t.1) (T t.1) t.1 := by
  constructor
  · rcases h.finished with ⟨hs,c,hf⟩ | ⟨henv,hf⟩ | ⟨c,r,u,n,e,hmem,hr,hg,hs,hf⟩
    · rw [hs,hf]
      exact hS.spawn c _ _ hI
    · rw [hf]
      exact hS.env _ _ _ hI henv
    · rw [hs,hf]
      exact (hthreads _ hmem e _ _ hI hg hr).1
  · rintro ⟨c,x⟩ hx
    obtain ⟨i,hi⟩ := mem_iff_getElem?.mp hx
    rcases h.thread hi with ⟨-,rfl,-⟩ | hold | ⟨r,u,n,e,hold,hr,hg,-,rfl⟩
    · exact hS.start c
    · exact hthreads _ (mem_of_getElem? hold)
    · exact (hthreads _ (mem_of_getElem? hold) e _ _ hI hg hr).2.2

variable {p : Pool σ ε κ α}

theorem Recorded.holds (hp : S.Reachable p) :
    I p.shared p.finished ∧ ∀ t ∈ p.threads, t.2.Keeps I (S.guard t.1) (T t.1) t.1 := by
  induction hp with
  | init s h => exact ⟨hS.init s h,by simp⟩
  | step _ h ih => exact hS.step ih.1 ih.2 h

theorem Recorded.inv (hp : S.Reachable p) : I p.shared p.finished := (hS.holds hp).1

/-- Every step of a call in a reachable pool stays within the call's bound. -/
theorem Recorded.acts (hp : S.Reachable p) {c : κ} {t : σ} {a : Option α} (h : S.Acts p c t a) :
    T c p.shared t a := by
  obtain ⟨r,u,n,e,hmem,hr,hg,rfl,rfl⟩ := h
  have hh := hS.holds hp
  exact (hh.2 _ hmem e _ _ hh.1 hg hr).2.1

theorem Recorded.and {J : σ → Multiset (κ × α) → Prop} (hinit : ∀ s, S.init s → J s 0)
    (henv : ∀ s t D, I s D → J s D → S.env s t → J t D)
    (hspawn : ∀ c s D, J s D → J s (D + (S.start c).returned c))
    (hT : ∀ c e s t D a, I s D → J s D → S.guard c e s → T c s t a → J t (D + entry c a)) :
    S.Recorded (fun s D => I s D ∧ J s D) T where
  init s h := ⟨hS.init s h,hinit s h⟩
  env s t D hI h := ⟨hS.env s t D hI.1 h,henv s t D hI.1 hI.2 h⟩
  spawn c s D hI := ⟨hS.spawn c s D hI.1,hspawn c s D hI.2⟩
  start c := (hS.start c).and (hT c)

theorem Recorded.outcomes (ok : κ → α → Prop) (hstart : ∀ c a, (S.start c).result = some a → ok c a)
    (hT : ∀ c e s t D a, I s D → S.guard c e s → T c s t (some a) → ok c a) (hp : S.Reachable p) :
    ∀ c a, (c,a) ∈ p.finished → ok c a := by
  have hadd (D : Multiset (κ × α)) (c : κ) (a : Option α) (hD : ∀ d b, (d,b) ∈ D → ok d b)
      (ha : ∀ b, a = some b → ok c b) : ∀ d b, (d,b) ∈ D + entry c a → ok d b := by
    intro d b hmem
    rcases Multiset.mem_add.mp hmem with hmem | hmem
    · exact hD d b hmem
    · cases a with
      | none => simp at hmem
      | some b' =>
        cases Multiset.mem_singleton.mp hmem
        exact ha b rfl
  refine ((hS.and (J := fun _ D => ∀ c a, (c,a) ∈ D → ok c a) ?_ ?_ ?_ ?_).inv hp).2
  · intro s _ c a hmem
    simp at hmem
  · exact fun _ _ _ _ h _ => h
  · exact fun c _ D h => hadd D c _ h (hstart c)
  · intro c e s t D a hI h hg hstep
    apply hadd D c a h
    rintro b rfl
    exact hT c e s t D b hI hg hstep

end
end System
end Interleaving
