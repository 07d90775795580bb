import Mathlib.Data.List.Forall2

/-! Fallible computations and loops. A sequence, a guard or a translated error is taken apart into
when it succeeds and with which error it fails; validation is a list of checks, each with the error
it reports, of which the first one that fails wins. A loop has a body that goes on or returns and a
bounded number of rounds: what every round keeps holds at its head and gives what is returned, and a
measure that falls bounds the rounds. -/
namespace Machine

section Fallible
variable {ε α β : Type} {x : Except ε α}

theorem bind_eq_ok {f : α → Except ε β} {b : β} :
    (x >>= f) = .ok b ↔ ∃ a, x = .ok a ∧ f a = .ok b := by
  cases x with
  | error e => simp [bind,Except.bind]
  | ok a => simp [bind,Except.bind]

theorem map_eq_ok {f : α → β} {b : β} : x.map f = .ok b ↔ ∃ a, x = .ok a ∧ f a = b := by
  cases x with
  | error e => simp [Except.map]
  | ok a => simp [Except.map]

theorem ite_eq_ok {p : Prop} [Decidable p] {e : ε} {a b : α} :
    (if p then Except.ok a else .error e) = .ok b ↔ p ∧ b = a := by
  split_ifs with h
  · rw [Except.ok.injEq,eq_comm,and_iff_right h]
  · simp [h]

theorem guard_eq_ok {p : Bool} {e : ε} {a : α} :
    (if !p then .error e else x) = .ok a ↔ p ∧ x = .ok a := by
  cases p <;> simp

/-- A check is whether it fails, and the error it then gives. -/
def firstFailure : List (Bool × ε) → Except ε Unit
  | [] => .ok ()
  | (failed,e) :: checks => if failed then .error e else firstFailure checks

@[simp] theorem firstFailure_eq_ok {checks : List (Bool × ε)} :
    firstFailure checks = .ok () ↔ ∀ check ∈ checks, check.1 = false := by
  induction checks with
  | nil => simp [firstFailure]
  | cons check checks ih =>
    obtain ⟨failed,e⟩ := check
    cases failed <;> simp [firstFailure,ih]

/-- Only the verdict counts where the caller compares with `nil`. -/
def passes (result : Except ε Unit) : Bool :=
  match result with
  | .ok () => true
  | .error _ => false

@[simp] theorem passes_iff {result : Except ε Unit} : passes result ↔ result = .ok () := by
  cases result with
  | ok u => simp [passes]
  | error e => simp [passes]

variable {ε' : Type} {f : α → Except ε β} {e : ε}

theorem bind_eq_error : (x >>= f) = .error e ↔ x = .error e ∨ ∃ a, x = .ok a ∧ f a = .error e := by
  cases x with
  | error e => simp [bind,Except.bind]
  | ok a => simp [bind,Except.bind]

variable {a : α}

theorem mapError_eq_ok {f : ε → ε'} : x.mapError f = .ok a ↔ x = .ok a := by
  cases x <;> simp [Except.mapError]

theorem mapError_eq_error {f : ε → ε'} {e : ε'} :
    x.mapError f = .error e ↔ ∃ a, x = .error a ∧ f a = e := by
  cases x <;> simp [Except.mapError]

theorem ok_bind : ((.ok a : Except ε α) >>= f) = f a := rfl

theorem error_bind : ((.error e : Except ε α) >>= f) = .error e := rfl

theorem throw_bind : (throw e >>= f) = throw e := rfl

theorem mapError_ok {f : ε → ε'} : (.ok a : Except ε α).mapError f = .ok a := rfl

theorem mapError_error {f : ε → ε'} : (.error e : Except ε α).mapError f = .error (f e) := rfl

variable {p : Prop}

theorem ite_throw_eq_ok [Decidable p] : (if p then throw e else x) = .ok a ↔ ¬p ∧ x = .ok a := by
  by_cases hp : p <;> simp [hp,throw,throwThe,MonadExceptOf.throw]

theorem ite_throw_eq_error [Decidable p] {e e' : ε} :
    (if p then throw e else x) = .error e' ↔ p ∧ e = e' ∨ ¬p ∧ x = .error e' := by
  by_cases hp : p <;> simp [hp,throw,throwThe,MonadExceptOf.throw]

theorem ite_pure_eq_ok [Decidable p] {a b : α} :
    (if p then pure a else throw e : Except ε α) = .ok b ↔ p ∧ a = b := by
  by_cases hp : p <;> simp [hp,pure,Except.pure,throw,throwThe,MonadExceptOf.throw]

theorem pure_eq_ok {a b : α} : (pure a : Except ε α) = .ok b ↔ a = b := by
  simp [pure,Except.pure]

theorem mapM_eq_ok {f : α → Except ε β} {xs : List α} {ys : List β} :
    xs.mapM f = .ok ys ↔ List.Forall₂ (fun x y => f x = .ok y) xs ys := by
  induction xs generalizing ys with
  | nil => simp [pure,Except.pure,eq_comm]
  | cons x xs ih =>
    simp only [List.mapM_cons,bind_eq_ok,pure_eq_ok,ih,List.forall₂_cons_left_iff]
    constructor
    · rintro ⟨y,hy,rest,hrest,rfl⟩
      exact ⟨y,rest,hy,hrest,rfl⟩
    · rintro ⟨y,rest,hy,hrest,rfl⟩
      exact ⟨y,hy,rest,hrest,rfl⟩

end Fallible

/-- How a statement of a transaction ends for the caller: it may take effect although no answer
arrives. -/
inductive Reply where
  | answered
  | unanswered
  | failed
  deriving DecidableEq

section Loop
variable {σ ρ : Type}

/-- At most `n` rounds: the state at the head of the loop, or what the loop has returned. -/
def loop (round : σ → σ ⊕ ρ) : ℕ → σ → σ ⊕ ρ
  | 0, s => .inl s
  | n + 1, s => match round s with
      | .inl s' => loop round n s'
      | .inr r => .inr r

variable {round : σ → σ ⊕ ρ} {inv : σ → Prop} {post : ρ → Prop}

theorem loop_invariant (hnext : ∀ s s', inv s → round s = .inl s' → inv s')
    (hlast : ∀ s r, inv s → round s = .inr r → post r) (n : ℕ) {s : σ} (h : inv s) :
    (∀ s', loop round n s = .inl s' → inv s') ∧ ∀ r, loop round n s = .inr r → post r := by
  induction n generalizing s with
  | zero =>
    refine ⟨fun s' heq => ?_,fun r heq => ?_⟩
    · cases heq
      exact h
    · cases heq
  | succ n ih =>
    simp only [loop]
    cases hround : round s with
    | inl s' => exact ih (hnext s s' h hround)
    | inr r =>
      refine ⟨fun s' heq => ?_,fun r' heq => ?_⟩
      · cases heq
      · cases heq
        exact hlast s r h hround

theorem loop_returns {measure : σ → ℕ}
    (hnext : ∀ s s', inv s → round s = .inl s' → inv s' ∧ measure s' < measure s)
    (hlast : ∀ s r, inv s → round s = .inr r → post r) {n : ℕ} {s : σ} (h : inv s)
    (hn : measure s < n) : ∃ r, loop round n s = .inr r ∧ post r := by
  induction n generalizing s with
  | zero => exact absurd hn (Nat.not_lt_zero _)
  | succ n ih =>
    simp only [loop]
    cases hround : round s with
    | inl s' =>
      obtain ⟨hs',hlt⟩ := hnext s s' h hround
      exact ih hs' (Nat.lt_of_lt_of_le hlt (Nat.le_of_lt_succ hn))
    | inr r => exact ⟨r,rfl,hlast s r h hround⟩

end Loop

end Machine
