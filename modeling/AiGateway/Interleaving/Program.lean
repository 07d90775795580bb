import Mathlib.Logic.Relation
import Mathlib.Data.List.Basic

/-! Programs that act on a shared state one atomic step at a time, pools of such programs
run in every order, and a rely-guarantee rule for them. A step reads one value `e : ε` chosen
by the environment (a clock reading, random bytes, an injected failure). -/
namespace Interleaving

/-- A step waits for `ready`, rewrites the shared state by `update`, and goes on as `next`;
both see the state as it was before the step. -/
inductive Prog (σ ε α : Type) where
  | ret (value : α)
  | step (ready : σ → Bool) (update : ε → σ → σ) (next : ε → σ → Prog σ ε α)

variable {σ ε α β κ : Type} {x : Prog σ ε α} {c : κ} {i : ℕ} {ready : σ → Bool} {a : α}
  {J : σ → Prop}

namespace Prog

def bind : Prog σ ε α → (α → Prog σ ε β) → Prog σ ε β
  | .ret a, k => k a
  | .step r u n, k => .step r u fun e s => (n e s).bind k

/-- Read the shared state without changing it. -/
def read (f : ε → σ → β) (k : β → Prog σ ε α) : Prog σ ε α :=
  .step (fun _ => true) (fun _ s => s) fun e s => k (f e s)

/-- Rewrite the shared state and keep a result. -/
def write (f : ε → σ → σ × β) (k : β → Prog σ ε α) : Prog σ ε α :=
  .step (fun _ => true) (fun e s => (f e s).1) fun e s => k (f e s).2

/-- As `write`, but blocked while `ready` fails. -/
def await (ready : σ → Bool) (f : ε → σ → σ × β) (k : β → Prog σ ε α) : Prog σ ε α :=
  .step ready (fun e s => (f e s).1) fun e s => k (f e s).2

/-- The run of one program with nobody else acting. The environment's choices come from
`oracle`, and the number of the next choice is returned with the result. -/
def alone (oracle : ℕ → ε) : Prog σ ε α → ℕ → σ → Option (α × ℕ × σ)
  | .ret a, i, s => some (a,i,s)
  | .step r u n, i, s =>
      if r s then (n (oracle i) s).alone oracle (i + 1) (u (oracle i) s) else none

section
variable (oracle : ℕ → ε)
include oracle

theorem alone_bind (p : Prog σ ε α) (k : α → Prog σ ε β) (i : ℕ) (s : σ) :
    (p.bind k).alone oracle i s =
      (p.alone oracle i s).bind fun r => (k r.1).alone oracle r.2.1 r.2.2 := by
  induction p generalizing i s with
  | ret a => rfl
  | step r u n ih =>
    simp only [bind,alone]
    split
    · exact ih (oracle i) s (i + 1) (u (oracle i) s)
    · rfl

@[simp] theorem alone_ret (a : α) (i : ℕ) (s : σ) :
    (ret a : Prog σ ε α).alone oracle i s = some (a,i,s) := rfl

@[simp] theorem alone_read (f : ε → σ → β) (k : β → Prog σ ε α) (i : ℕ) (s : σ) :
    (read f k).alone oracle i s = (k (f (oracle i) s)).alone oracle (i + 1) s := rfl

@[simp] theorem alone_write (f : ε → σ → σ × β) (k : β → Prog σ ε α) (i : ℕ) (s : σ) :
    (write f k).alone oracle i s =
      (k (f (oracle i) s).2).alone oracle (i + 1) (f (oracle i) s).1 := rfl

end

theorem alone_await {oracle : ℕ → ε} {f : ε → σ → σ × β} {k : β → Prog σ ε α} {s : σ}
    (h : ready s) : (await ready f k).alone oracle i s =
      (k (f (oracle i) s).2).alone oracle (i + 1) (f (oracle i) s).1 := by
  simp [await,alone,h]

/-- Up to `n` steps of one program; it stops where it returns or is blocked. -/
def advance (oracle : ℕ → ε) : ℕ → ℕ → Prog σ ε α → σ → Prog σ ε α × σ
  | 0, _, p, s => (p,s)
  | _ + 1, _, .ret a, s => (.ret a,s)
  | n + 1, i, .step r u k, s =>
      if r s then advance oracle n (i + 1) (k (oracle i) s) (u (oracle i) s)
      else (.step r u k,s)

/-- The value a finished program returned. -/
def result : Prog σ ε α → Option α
  | .ret a => some a
  | .step _ _ _ => none

end Prog

/-- What every thread may assume of the shared state and of the others' steps. -/
structure Contract (σ : Type) where
  inv : σ → Prop
  rely : σ → σ → Prop
  rely_refl : ∀ s, rely s s
  rely_trans : ∀ {s t u}, rely s t → rely t u → rely s u

/-- The contract with one more invariant. -/
def Contract.and (C : Contract σ) (J : σ → Prop) : Contract σ where
  inv s := C.inv s ∧ J s
  rely := C.rely
  rely_refl := C.rely_refl
  rely_trans := C.rely_trans

/-- In `p.Sat C guard guar post s` the program is started at `s`. Whatever `C.rely` steps others
take in between, each of its steps that `guard` allows keeps the invariant and stays within
`guar`, and a returned value satisfies `post` from then on. -/
def Prog.Sat (C : Contract σ) (guard : ε → σ → Prop) (guar : σ → σ → Prop) (post : α → σ → Prop) :
    Prog σ ε α → σ → Prop
  | .ret a, s => ∀ s', C.rely s s' → C.inv s' → post a s'
  | .step r u n, s => ∀ s' e, C.rely s s' → C.inv s' → guard e s' → r s' →
      C.inv (u e s') ∧ guar s' (u e s') ∧ (n e s').Sat C guard guar post (u e s')

namespace Prog
variable {C : Contract σ} {guard : ε → σ → Prop} {guar : σ → σ → Prop} {post : α → σ → Prop}
variable {p : Prog σ ε α}

theorem Sat.rely {s s' : σ} (h : p.Sat C guard guar post s) (hr : C.rely s s') :
    p.Sat C guard guar post s' := by
  cases p with
  | ret a => exact fun t ht hi => h t (C.rely_trans hr ht) hi
  | step r u n => exact fun t e ht hi hg hd => h t e (C.rely_trans hr ht) hi hg hd

variable {s : σ}

theorem Sat.mono {post' : α → σ → Prop} {guar' : σ → σ → Prop} (h : p.Sat C guard guar post s)
    (hg : ∀ s t, guar s t → guar' s t) (hp : ∀ a s, C.inv s → post a s → post' a s) :
    p.Sat C guard guar' post' s := by
  induction p generalizing s with
  | ret a => exact fun t ht hi => hp a t hi (h t ht hi)
  | step r u n ih =>
    intro t e ht hi hgd hd
    obtain ⟨h₁,h₂,h₃⟩ := h t e ht hi hgd hd
    exact ⟨h₁,hg _ _ h₂,ih e t h₃⟩

theorem sat_ret (h : ∀ t, C.rely s t → C.inv t → post a t) :
    (ret a : Prog σ ε α).Sat C guard guar post s := h

theorem sat_const (h : ∀ t, post a t) : (ret a : Prog σ ε α).Sat C guard guar post s :=
  fun t _ _ => h t

variable {k : β → Prog σ ε α}

/-- Sequencing: the continuation is run from wherever the first program returned. -/
theorem Sat.bind {p : Prog σ ε β}
    (h : p.Sat C guard guar (fun b t => (k b).Sat C guard guar post t) s) (hi : C.inv s) :
    (p.bind k).Sat C guard guar post s := by
  induction p generalizing s with
  | ret b => exact h s (C.rely_refl s) hi
  | step r u n ih =>
    intro t e ht hti hg hd
    obtain ⟨h₁,h₂,h₃⟩ := h t e ht hti hg hd
    exact ⟨h₁,h₂,ih e t h₃ h₁⟩

theorem Sat.frame {F : σ → Prop} (h : p.Sat C guard guar post s)
    (hF : ∀ s t, C.rely s t → F s → F t)
    (hG : ∀ s t, C.inv s → C.inv t → guar s t → C.rely s t) (hs : F s) :
    p.Sat C guard guar (fun a t => post a t ∧ F t) s := by
  induction p generalizing s with
  | ret a => exact fun t ht hi => ⟨h t ht hi,hF s t ht hs⟩
  | step r u n ih =>
    intro t e ht hi hg hd
    obtain ⟨h₁,h₂,h₃⟩ := h t e ht hi hg hd
    exact ⟨h₁,h₂,ih e t h₃ (hF _ _ (C.rely_trans ht (hG _ _ hi h₁ h₂)) hs)⟩

theorem Sat.and (h : p.Sat C guard guar post s)
    (hJ : ∀ e s t, C.inv s → J s → guard e s → guar s t → J t) :
    p.Sat (C.and J) guard guar post s := by
  induction p generalizing s with
  | ret a => exact fun t ht hi => h t ht hi.1
  | step r u n ih =>
    intro t e ht hi hg hd
    obtain ⟨h₁,h₂,h₃⟩ := h t e ht hi.1 hg hd
    exact ⟨⟨h₁,hJ e t _ hi.1 hi.2 hg h₂⟩,h₂,ih e t h₃⟩

theorem sat_read {f : ε → σ → β} (hrefl : ∀ t, guar t t)
    (h : ∀ t e, C.rely s t → C.inv t → guard e t → (k (f e t)).Sat C guard guar post t) :
    (read f k).Sat C guard guar post s :=
  fun t e ht hi hg _ => ⟨hi,hrefl t,h t e ht hi hg⟩

variable {f : ε → σ → σ × β}

theorem sat_write
    (h : ∀ t e, C.rely s t → C.inv t → guard e t → C.inv (f e t).1 ∧ guar t (f e t).1 ∧
      (k (f e t).2).Sat C guard guar post (f e t).1) :
    (write f k).Sat C guard guar post s :=
  fun t e ht hi hg _ => h t e ht hi hg

theorem sat_await (h : ∀ t e, C.rely s t → C.inv t → guard e t → ready t → C.inv (f e t).1 ∧
    guar t (f e t).1 ∧ (k (f e t).2).Sat C guard guar post (f e t).1) :
    (await ready f k).Sat C guard guar post s :=
  fun t e ht hi hg hd => h t e ht hi hg hd

end Prog

/-- Calls `c : κ` run `start c`; `env` is what happens outside every call, and a thread steps
only where `guard` allows the state and the environment's choice. -/
structure System (σ ε κ α : Type) where
  init : σ → Prop
  start : κ → Prog σ ε α
  env : σ → σ → Prop
  guard : κ → ε → σ → Prop

/-- The shared state and every call started so far, finished ones included. -/
structure Pool (σ ε κ α : Type) where
  shared : σ
  threads : List (κ × Prog σ ε α)

/-- The values returned so far, one place for each call. -/
def Pool.results (p : Pool σ ε κ α) : List (Option α) := p.threads.map fun t => t.2.result

namespace System
open List
variable (S : System σ ε κ α)

inductive Step : Pool σ ε κ α → Pool σ ε κ α → Prop
  | spawn (p : Pool σ ε κ α) (c : κ) : Step p ⟨p.shared,p.threads ++ [(c,S.start c)]⟩
  | run (p : Pool σ ε κ α) (i : ℕ) (c : κ) (r : σ → Bool) (u : ε → σ → σ)
      (n : ε → σ → Prog σ ε α) (e : ε) (hi : p.threads[i]? = some (c,.step r u n))
      (hr : r p.shared) (hg : S.guard c e p.shared) :
      Step p ⟨u e p.shared,p.threads.set i (c,n e p.shared)⟩
  | env (p : Pool σ ε κ α) (s : σ) (h : S.env p.shared s) : Step p ⟨s,p.threads⟩

abbrev Reaches : Pool σ ε κ α → Pool σ ε κ α → Prop := Relation.ReflTransGen S.Step

inductive Reachable : Pool σ ε κ α → Prop
  | init (s : σ) (h : S.init s) : Reachable ⟨s,[]⟩
  | step {p q : Pool σ ε κ α} (hp : Reachable p) (h : S.Step p q) : Reachable q

variable {S} {p q : Pool σ ε κ α}

theorem Reachable.reaches (hp : S.Reachable p) (h : S.Reaches p q) : S.Reachable q := by
  induction h with
  | refl => exact hp
  | tail _ hs ih => exact ih.step hs

theorem Step.shared (h : S.Step p q) : q.shared = p.shared ∨ S.env p.shared q.shared ∨
      ∃ (i : ℕ) (c : κ) (r : σ → Bool) (u : ε → σ → σ) (n : ε → σ → Prog σ ε α) (e : ε),
        p.threads[i]? = some (c,.step r u n) ∧ r p.shared ∧ S.guard c e p.shared ∧
          q.shared = u e p.shared := by
  cases h with
  | spawn c => exact .inl rfl
  | run i c r u n e hi hr hg => exact .inr (.inr ⟨i,c,r,u,n,e,hi,hr,hg,rfl⟩)
  | env s h => exact .inr (.inl h)

/-- Where thread `i` comes from: it was just started, it did not move, or it made the step. -/
theorem Step.thread (h : S.Step p q) (hi : q.threads[i]? = some (c,x)) :
    (i = p.threads.length ∧ x = S.start c ∧ q.shared = p.shared) ∨ p.threads[i]? = some (c,x) ∨
      ∃ r u n e, p.threads[i]? = some (c,.step r u n) ∧ r p.shared ∧
        S.guard c e p.shared ∧ q.shared = u e p.shared ∧ x = n e p.shared := by
  cases h with
  | spawn c' =>
    rcases Nat.lt_trichotomy i p.threads.length with hlt | heq | hgt
    · rw [getElem?_append_left hlt] at hi
      exact .inr (.inl hi)
    · subst heq
      simp only [getElem?_concat_length,Option.some.injEq,Prod.mk.injEq] at hi
      obtain ⟨rfl,rfl⟩ := hi
      exact .inl ⟨rfl,rfl,rfl⟩
    · rw [getElem?_eq_none (by simpa [Nat.succ_le_iff] using hgt)] at hi
      simp at hi
  | run j c' r u n e hj hr hg =>
    by_cases hij : j = i
    · subst hij
      have hlt : j < p.threads.length := (List.getElem?_eq_some_iff.mp hj).1
      simp only [getElem?_set,hlt,↓reduceIte,Option.some.injEq,Prod.mk.injEq] at hi
      obtain ⟨rfl,rfl⟩ := hi
      exact .inr (.inr ⟨r,u,n,e,hj,hr,hg,rfl,rfl⟩)
    · rw [getElem?_set_ne hij] at hi
      exact .inr (.inl hi)
  | env s h => exact .inr (.inl hi)

/-- A turn of a schedule: start a call, or let thread `i` make up to `n` steps. -/
inductive Turn (ε κ : Type) where
  | spawn (c : κ)
  | run (i n : ℕ) (oracle : ℕ → ε)

variable (S) in
def turn (p : Pool σ ε κ α) : Turn ε κ → Pool σ ε κ α
  | .spawn c => ⟨p.shared,p.threads ++ [(c,S.start c)]⟩
  | .run i n oracle => match p.threads[i]? with
      | some (c,x) =>
          let (y,s) := x.advance oracle n 0 p.shared
          ⟨s,p.threads.set i (c,y)⟩
      | none => p

variable (S) in
/-- The pool after the turns of a schedule. -/
def exec (turns : List (Turn ε κ)) (p : Pool σ ε κ α) : Pool σ ε κ α := turns.foldl S.turn p

theorem reaches_advance {p : Pool σ ε κ α} {oracle : ℕ → ε} (hg : ∀ e s, S.guard c e s)
    (hi : p.threads[i]? = some (c,x)) (n j : ℕ) : S.Reaches p ⟨(x.advance oracle n j p.shared).2,
      p.threads.set i (c,(x.advance oracle n j p.shared).1)⟩ := by
  induction n generalizing p x j with
  | zero =>
    obtain ⟨hlt,hx⟩ := List.getElem?_eq_some_iff.mp hi
    rw [Prog.advance,← hx,set_getElem_self hlt]
  | succ n ih =>
    obtain ⟨hlt,hx⟩ := List.getElem?_eq_some_iff.mp hi
    have hstay : S.Reaches p ⟨p.shared,p.threads.set i (c,x)⟩ := by
      rw [← hx,set_getElem_self hlt]
    cases x with
    | ret a => exact hstay
    | step r u k =>
      simp only [Prog.advance]
      split_ifs with hr
      · have hrest := ih (j := j + 1)
          (p := ⟨u (oracle j) p.shared,p.threads.set i (c,k (oracle j) p.shared)⟩)
          (x := k (oracle j) p.shared) (by simp [hlt])
        rw [set_set] at hrest
        exact .head (.run p i c r u k (oracle j) hi hr (hg _ _)) hrest
      · exact hstay

/-- A schedule of calls that nothing holds back is one of the interleavings. -/
theorem exec_reaches {turns : List (Turn ε κ)} {p : Pool σ ε κ α}
    (hp : ∀ t ∈ p.threads, ∀ e s, S.guard t.1 e s)
    (ht : ∀ c, .spawn c ∈ turns → ∀ e s, S.guard c e s) : S.Reaches p (S.exec turns p) := by
  induction turns generalizing p with
  | nil => exact .refl
  | cons turn turns ih =>
    have ht' : ∀ c, .spawn c ∈ turns → ∀ e s, S.guard c e s :=
      fun c hc => ht c (mem_cons_of_mem turn hc)
    cases turn with
    | spawn c =>
      have hc := ht c mem_cons_self
      refine .head (.spawn p c) (ih (p := S.turn p (.spawn c)) (fun t hmem => ?_) ht')
      rcases mem_append.mp hmem with hmem | hmem
      · exact hp t hmem
      · rw [mem_singleton.mp hmem]
        exact hc
    | run i n oracle =>
      cases hi : p.threads[i]? with
      | none =>
        have hturn : S.turn p (.run i n oracle) = p := by simp [turn,hi]
        rw [exec,foldl_cons,hturn]
        exact ih hp ht'
      | some thread =>
        obtain ⟨c,x⟩ := thread
        have hc := hp _ (mem_of_getElem? hi)
        have hturn : S.turn p (.run i n oracle) = ⟨(x.advance oracle n 0 p.shared).2,
            p.threads.set i (c,(x.advance oracle n 0 p.shared).1)⟩ := by simp [turn,hi]
        rw [exec,foldl_cons,hturn]
        refine (reaches_advance hc hi n 0).trans (ih (fun t hmem => ?_) ht')
        rcases mem_or_eq_of_mem_set hmem with hmem | rfl
        · exact hp t hmem
        · exact hc

/-- The premises of the rely-guarantee rule. -/
structure Sound (S : System σ ε κ α) (C : Contract σ) (guar : κ → σ → σ → Prop)
    (post : κ → α → σ → Prop) : Prop where
  init : ∀ s, S.init s → C.inv s
  env : ∀ s t, C.inv s → S.env s t → C.inv t ∧ C.rely s t
  guar_rely : ∀ c s t, C.inv s → C.inv t → guar c s t → C.rely s t
  start : ∀ c s, C.inv s → (S.start c).Sat C (S.guard c) (guar c) (post c) s

theorem Sound.and {S : System σ ε κ α} {C : Contract σ} {guar : κ → σ → σ → Prop}
    {post : κ → α → σ → Prop} (hS : S.Sound C guar post) (hinit : ∀ s, S.init s → J s)
    (henv : ∀ s t, C.inv s → J s → S.env s t → J t)
    (hguar : ∀ c e s t, C.inv s → J s → S.guard c e s → guar c s t → J t) :
    S.Sound (C.and J) guar post where
  init s h := ⟨hS.init s h,hinit s h⟩
  env s t hi h := ⟨⟨(hS.env s t hi.1 h).1,henv s t hi.1 hi.2 h⟩,(hS.env s t hi.1 h).2⟩
  guar_rely c s t hi ht h := hS.guar_rely c s t hi.1 ht.1 h
  start c s hi := (hS.start c s hi.1).and (hguar c)

/-- The invariant of a pool: the shared invariant, and every thread still meets its spec. -/
structure Holds (S : System σ ε κ α) (C : Contract σ) (guar : κ → σ → σ → Prop)
    (post : κ → α → σ → Prop) (p : Pool σ ε κ α) : Prop where
  inv : C.inv p.shared
  threads : ∀ (i : ℕ) (c : κ) (x : Prog σ ε α), p.threads[i]? = some (c,x) →
    x.Sat C (S.guard c) (guar c) (post c) p.shared

variable {C : Contract σ} {guar : κ → σ → σ → Prop} {post : κ → α → σ → Prop}

section
variable (hS : S.Sound C guar post)
include hS

variable {p q : Pool σ ε κ α}

theorem Sound.step_shared (hp : S.Holds C guar post p) (h : S.Step p q) :
    C.inv q.shared ∧ C.rely p.shared q.shared := by
  rcases h.shared with heq | henv | ⟨i,c,r,u,n,e,hi,hr,hg,heq⟩
  · rw [heq]
    exact ⟨hp.inv,C.rely_refl _⟩
  · exact hS.env _ _ hp.inv henv
  · obtain ⟨hinv,hguar,-⟩ := hp.threads i c _ hi p.shared e (C.rely_refl _) hp.inv hg hr
    rw [heq]
    exact ⟨hinv,hS.guar_rely c _ _ hp.inv hinv hguar⟩

theorem Sound.step (hp : S.Holds C guar post p) (h : S.Step p q) : S.Holds C guar post q := by
  obtain ⟨hinv,hrely⟩ := hS.step_shared hp h
  refine ⟨hinv,fun i c x hi => ?_⟩
  rcases h.thread hi with ⟨-,rfl,-⟩ | hx | ⟨r,u,n,e,hx,hr,hg,heq,rfl⟩
  · exact hS.start c _ hinv
  · exact (hp.threads i c x hx).rely hrely
  · rw [heq]
    exact (hp.threads i c _ hx p.shared e (C.rely_refl _) hp.inv hg hr).2.2

theorem Sound.holds {p : Pool σ ε κ α} (hp : S.Reachable p) : S.Holds C guar post p := by
  induction hp with
  | init s h => exact ⟨hS.init s h,by simp⟩
  | step _ h ih => exact hS.step ih h

theorem Sound.reaches (hp : S.Reachable p) (h : S.Reaches p q) : C.rely p.shared q.shared := by
  induction h with
  | refl => exact C.rely_refl _
  | tail h₁ h₂ ih => exact C.rely_trans ih (hS.step_shared (hS.holds (hp.reaches h₁)) h₂).2

/-- A finished call's value satisfies the call's postcondition in every later state. -/
theorem Sound.result {p : Pool σ ε κ α} (hp : S.Reachable p) (h : (c,.ret a) ∈ p.threads) :
    post c a p.shared := by
  obtain ⟨i,hi⟩ := mem_iff_getElem?.mp h
  have hh := hS.holds hp
  exact hh.threads i c _ hi p.shared (C.rely_refl _) hh.inv

theorem Sound.guarantee {p : Pool σ ε κ α} (hp : S.Reachable p) {r : σ → Bool} {u : ε → σ → σ}
    {n : ε → σ → Prog σ ε α} (e : ε) (h : (c,.step r u n) ∈ p.threads) (hr : r p.shared)
    (hg : S.guard c e p.shared) : guar c p.shared (u e p.shared) := by
  obtain ⟨i,hi⟩ := mem_iff_getElem?.mp h
  have hh := hS.holds hp
  exact (hh.threads i c _ hi p.shared e (C.rely_refl _) hh.inv hg hr).2.1

/-- Calls started once a stable fact `F` holds may be specified with `F` as precondition. -/
theorem Sound.later (F : σ → Prop) (post' : κ → α → σ → Prop) (hF : ∀ s t, C.rely s t → F s → F t)
    (hstart : ∀ c s, C.inv s → F s → (S.start c).Sat C (S.guard c) (guar c) (post' c) s)
    (hp : S.Reachable p) (hFp : F p.shared) (h : S.Reaches p q) (hi : p.threads.length ≤ i)
    (hx : q.threads[i]? = some (c,x)) : x.Sat C (S.guard c) (guar c) (post' c) q.shared := by
  induction h generalizing c x with
  | refl =>
    rw [getElem?_eq_none hi] at hx
    simp at hx
  | @tail q' q h₁ h₂ ih =>
    have hh := hS.holds (hp.reaches h₁)
    obtain ⟨hinv,hrely⟩ := hS.step_shared hh h₂
    have hFq := hF _ _ (C.rely_trans (hS.reaches hp h₁) hrely) hFp
    rcases h₂.thread hx with ⟨-,rfl,-⟩ | hx' | ⟨r,u,n,e,hx',hr,hg,heq,rfl⟩
    · exact hstart c _ hinv hFq
    · exact (ih hx').rely hrely
    · rw [heq]
      exact (ih hx' q'.shared e (C.rely_refl _) hh.inv hg hr).2.2

end
end System
end Interleaving
