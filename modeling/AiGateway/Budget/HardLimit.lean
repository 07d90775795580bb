import AiGateway.Budget.Conservation

/-! The hard limit, the validity of every stored row, and the absence of overflow, in every run of
Reserve, Settle and Reap calls. -/
namespace Budget
open Interleaving Relational

/-- The error a reply carries. -/
def Reply.failure : Reply → Option Failure
  | .reserve (.error f) => some f
  | .settle (.error f) => some f
  | .reap reply => reply.failure
  | _ => none

/-- Only settlements above their hold take the balance above the hard limit. -/
structure WithinLimit (s : Database) : Prop where
  hard : s.account.committedMicros + s.account.reservedMicros ≤ s.account.hardLimitMicros +
    total (fun r => r.overageMicros.getD 0) (s.reservations.filter fun r => r.status ≠ .pending)
  account : ∃ a, scanBudgetAccount s.account = .ok a
  reservations : ∀ r ∈ s.reservations, ∃ v, scanBudgetReservation r = .ok v
  ledger : ∀ e ∈ s.ledger, ∃ v, scanBudgetLedger e = .ok v

variable {s t : Database} {p q : Pool Database Oracle Call Reply}

theorem Inv.withinLimit (h : Inv s) : WithinLimit s := by
  refine ⟨?_,h.valid.account,h.valid.reservations,h.valid.ledger⟩
  have hsum : total overageAmount s.reservations = total (fun r => r.overageMicros.getD 0)
      (s.reservations.filter fun r => r.status ≠ .pending) := by
    rw [total_filter]
    exact total_congr fun r _ => by by_cases hp : r.status = .pending <;> simp [overageAmount,hp]
  rw [← hsum]
  exact h.balanced.hard

theorem Opens.within_hardLimit {input : ReserveInput} {c : Commit} (h : Opens input s c) :
    (s.afterOpen c).account.committedMicros + (s.afterOpen c).account.reservedMicros ≤
      (s.afterOpen c).account.hardLimitMicros := by
  have hfits := h.fits
  simp only [Database.afterOpen,h.account]
  omega

@[simp] theorem afterClose_length (c : Commit) (set : ReservationRow → ReservationRow) :
    (s.afterClose c set).reservations.length = s.reservations.length := by
  simp [Database.afterClose,update]

/-- A step of a call that stores one more hold leaves the balance within the hard limit. -/
theorem Acts.within_hardLimit {call : Call} (h : Acts call s t)
    (hlt : s.reservations.length < t.reservations.length) :
    t.account.committedMicros + t.account.reservedMicros ≤ t.account.hardLimitMicros := by
  cases h with
  | idle _ _ locks => exact absurd hlt (lt_irrefl _)
  | opens options input _ c h => exact h.within_hardLimit
  | settles options input _ old c actual ha hid h =>
    rw [afterClose_length] at hlt
    exact absurd hlt (lt_irrefl _)
  | expires options actor _ old c h =>
    rw [afterClose_length] at hlt
    exact absurd hlt (lt_irrefl _)

theorem Environment.length_eq (h : Environment s t) :
    t.reservations.length = s.reservations.length := by
  cases h <;> rfl

theorem step_within_hardLimit (hp : system.Reachable p) (hstep : system.Step p q)
    (hlt : p.shared.reservations.length < q.shared.reservations.length) :
    q.shared.account.committedMicros + q.shared.account.reservedMicros ≤
      q.shared.account.hardLimitMicros := by
  rcases hstep.shared with heq | henv | ⟨i,call,r,u,n,e,hi,hr,hg,heq⟩
  · rw [heq] at hlt
    exact absurd hlt (lt_irrefl _)
  · rw [Environment.length_eq henv] at hlt
    exact absurd hlt (lt_irrefl _)
  · have hacts := (systemOf_sound _).guarantee hp e (List.mem_of_getElem? hi) hr hg
    rw [heq] at hlt ⊢
    exact hacts.within_hardLimit hlt

theorem Post.failure_ne_overflow {call : Call} {reply : Reply} (h : Post call reply s) :
    reply.failure ≠ some .overflow := by
  cases call with
  | reserve options input =>
    cases reply with
    | reserve result =>
      cases result with
      | ok result => simp [Reply.failure]
      | error f => exact fun hf => h (Option.some.inj hf)
    | settle result => exact h.elim
    | reap reply => exact h.elim
  | settle options input =>
    cases reply with
    | reserve result => exact h.elim
    | settle result =>
      cases result with
      | ok result => simp [Reply.failure]
      | error f => exact fun hf => h (Option.some.inj hf)
    | reap reply => exact h.elim
  | reap options actor =>
    cases reply with
    | reserve result => exact h.elim
    | settle result => exact h.elim
    | reap reply => exact h.1

/-- In every reachable pool the rows are valid and within the limit up to the overages, a step
that admits a new hold ends within the hard limit itself, and no call has overflowed. -/
theorem reachable_withinLimit (hp : system.Reachable p) : WithinLimit p.shared ∧
      (∀ q, system.Step p q → p.shared.reservations.length < q.shared.reservations.length →
        q.shared.account.committedMicros + q.shared.account.reservedMicros ≤
          q.shared.account.hardLimitMicros) ∧
      ∀ call reply, (call,.ret reply) ∈ p.threads → reply.failure ≠ some .overflow :=
  ⟨(reachable_inv hp).withinLimit,fun _ hstep hlt => step_within_hardLimit hp hstep hlt,
    fun _ _ hmem => ((systemOf_sound _).result hp hmem).failure_ne_overflow⟩

def sampleReserved : Pool Database Oracle Call Reply :=
  sampleRun [(sampleReserve "a" 100,sampleOracle 2000 sampleClock_pos 0)]

/-- A hold of the whole limit is admitted. -/
theorem sampleReserved_withinLimit : (sampleReserved.shared.account.reservedMicros,
      sampleReserved.shared.account.hardLimitMicros) = (100,100) ∧
      WithinLimit sampleReserved.shared :=
  ⟨by decide +kernel,(reachable_withinLimit (sampleRun_reachable _)).1⟩

end Budget
