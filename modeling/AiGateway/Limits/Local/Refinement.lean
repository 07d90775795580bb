import AiGateway.Limits.Local.Outcomes

/-! The local limiter against a log of admissions: in every run the stored concurrency of a scope is
the number of leases held on it, and its rates are what the log says since its window last
advanced. -/
namespace Limits.Local
open Machine LocalState Option List LocalLimiter Admission

def concurrencyOf (states : States) (scope : Scope) : ℕ := (states scope).elim 0 concurrency

def rpmOf (states : States) (scope : Scope) : ℕ := (states scope).elim 0 rpm

def tpmOf (states : States) (scope : Scope) : ℕ := (states scope).elim 0 tpm

/-- The lease is held on the scope. -/
def Lease.holds (scope : Scope) (lease : Lease) : Bool :=
  !lease.released && lease.scopes.contains scope

def heldLeases (leases : List Lease) (scope : Scope) : ℕ := leases.countP (Lease.holds scope)

/-! The log. -/

/-- The window of a scope and the tokens of each admission since it last advanced. -/
structure Tally where
  start : Option Time
  tokens : List ℕ

namespace Tally

def empty : Tally := ⟨none,[]⟩

def advance (windowStart : Time) (t : Tally) : Tally :=
  match t.start with
  | none => t
  | some start => if windowStart > start then ⟨some windowStart,[]⟩ else t

def openWindow (windowStart : Time) (t : Tally) : Tally :=
  match t.start with
  | none => ⟨some windowStart,[]⟩
  | some _ => t.advance windowStart

def charge (n : ℕ) (t : Tally) : Tally := ⟨t.start,n :: t.tokens⟩

/-- What one call and its reply say about a scope. -/
def observe (scope : Scope) (t : Tally) : Op × Reply → Tally
  | (.acquire now request,.acquired (.ok a)) =>
      if (normalizeScopes request.scopes).any (fun scopes => scopes.contains scope) then
        let t := t.openWindow (truncate now)
        if a.allowed then t.charge request.estimatedTokens else t
      else t
  | (.snapshot now scope',.snapshot (.ok _)) =>
      if scope' = scope then t.advance (truncate now) else t
  | _ => t

end Tally

def tally (scope : Scope) (history : List (Op × Reply)) : Tally :=
  history.foldl (Tally.observe scope) .empty

/-- Every published configuration has the scope. -/
def Throughout (scope : Scope) (history : List (Op × Reply)) : Prop :=
  ∀ version bindings, (.replace version bindings,.replaced (.ok ())) ∈ history →
    scope ∈ bindings.map Binding.scope

/-- The stored state of a scope is what its tally says. -/
def Agrees (t : Tally) : Option LocalState → Prop
  | none => t = .empty
  | some state => t.start = some state.windowStart ∧ state.rpm = t.tokens.length ∧
      state.tpm = t.tokens.sum

/-! The invariant. -/

structure Invariant (w : World) : Prop where
  valid : ∀ scope policy, w.limiter.policies scope = some policy → policy.validate
  bounded : ∀ scope state, w.limiter.states scope = some state →
    state.rpm ≤ maximumValue ∧ state.tpm ≤ maximumValue ∧ state.concurrency ≤ maximumValue
  counted : ∀ scope, concurrencyOf w.limiter.states scope = heldLeases w.leases scope
  keys : ∀ scope state, w.limiter.states scope = some state →
    (w.limiter.policies scope).isSome ∨ 0 < state.concurrency
  leases : ∀ lease ∈ w.leases, ∃ hy : Hierarchy, lease.scopes = hy.scopes

/-- For a scope in every configuration the states follow the log. -/
structure Follows (w : World) (history : List (Op × Reply)) : Prop where
  configured : ∀ scope, Throughout scope history →
    (w.limiter.policies scope).isSome ∨ w.limiter.states scope = none
  agrees : ∀ scope, Throughout scope history → Agrees (tally scope history) (w.limiter.states scope)

open Follows

variable {w : World} {history : List (Op × Reply)} {limiter : LocalLimiter} {now : Time}
  {scope : Scope} {tokens : ℕ}

theorem LocalState.advance_concurrency (windowStart : Time) (state : LocalState) :
    (state.advance windowStart).concurrency = state.concurrency := by
  unfold advance
  split <;> rfl

theorem LocalState.advance_rates (windowStart : Time) (state : LocalState) :
    state.advance windowStart = state ∨
      state.windowStart < windowStart ∧ (state.advance windowStart).rpm = 0 ∧
        (state.advance windowStart).tpm = 0 := by
  unfold advance
  split
  · exact .inr ⟨‹_›,rfl,rfl⟩
  · exact .inl rfl

variable (limiter now scope) in
theorem opened_concurrency :
    (opened limiter now scope).concurrency = concurrencyOf limiter.states scope := by
  rw [opened,concurrencyOf]
  cases limiter.states scope with
  | none => rfl
  | some state => exact advance_concurrency _ state

theorem charge_eq (hb : ∀ scope policy, limiter.policies scope = some policy →
      policy.validate) (hfits : Fits limiter now tokens scope) :
    ((opened limiter now scope).charge tokens).rpm = (opened limiter now scope).rpm + 1 ∧
    ((opened limiter now scope).charge tokens).tpm = (opened limiter now scope).tpm + tokens ∧
    ((opened limiter now scope).charge tokens).concurrency =
      (opened limiter now scope).concurrency + 1 ∧
    (opened limiter now scope).rpm + 1 ≤ maximumValue ∧
    (opened limiter now scope).tpm + tokens ≤ maximumValue ∧
    (opened limiter now scope).concurrency + 1 ≤ maximumValue := by
  obtain ⟨policy,hpol,hrpm,htpm,hconc⟩ := hfits
  have hvalid := hb scope policy hpol
  have h₁ := threshold_bounds hvalid (show policy.rpm ∈ _ by simp)
  have h₂ := threshold_bounds hvalid (show policy.tpm ∈ _ by simp)
  have h₃ := threshold_bounds hvalid (show policy.concurrency ∈ _ by simp)
  have hmax : maximumValue < 2 ^ 64 := by decide
  simp only [charge]
  rw [wrapU64_eq (by omega),wrapU64_eq (by omega),wrapU64_eq (by omega)]
  omega

/-! The invariant is kept by each operation. -/

theorem opened_bounded (h : Invariant w) (now : Time) (scope : Scope) :
    (opened w.limiter now scope).rpm ≤ maximumValue ∧
      (opened w.limiter now scope).tpm ≤ maximumValue ∧
      (opened w.limiter now scope).concurrency ≤ maximumValue := by
  rw [opened]
  cases hstate : w.limiter.states scope with
  | none => simp [openWindow]
  | some state =>
    have hb := h.bounded scope state hstate
    show (state.advance _).rpm ≤ _ ∧ (state.advance _).tpm ≤ _ ∧ (state.advance _).concurrency ≤ _
    rw [advance_concurrency]
    rcases advance_rates (truncate now) state with heq | ⟨-,hrpm,htpm⟩
    · rwa [heq]
    · omega

variable {request : Request} {next : LocalLimiter} {result : Except Failure Admission}

theorem Invariant.acquire (h : Invariant w)
    (hout : AcquireOutcome w.limiter now request next result) :
    Invariant ⟨next,w.leases ++ granted result⟩ := by
  cases hout with
  | failed f => simpa [granted] using h
  | rejected hy next a hscopes hconf hlease hrej hnext =>
    simp only [granted,hlease,map_none,toList_none,append_nil]
    refine ⟨by rw [hnext.policies]; exact h.valid,?_,?_,?_,h.leases⟩
    · intro scope state hstate
      simp only [hnext.states] at hstate
      split_ifs at hstate
      · cases hstate
        exact opened_bounded h now scope
      · exact h.bounded scope state hstate
    · intro scope
      rw [← h.counted,concurrencyOf,hnext.states]
      simp only
      split_ifs
      · exact opened_concurrency w.limiter now scope
      · rfl
    · intro scope state hstate
      simp only [hnext.states,hnext.policies] at hstate ⊢
      split_ifs at hstate with hmem
      · exact .inl (hconf scope hmem)
      · exact h.keys scope state hstate
  | admitted hy next a hscopes hfits hlease hrej hnext =>
    simp only [granted,hlease,map_some,toList_some]
    refine ⟨by rw [hnext.policies]; exact h.valid,?_,?_,?_,?_⟩
    · intro scope state hstate
      simp only [hnext.states] at hstate
      split_ifs at hstate with hmem
      · cases hstate
        obtain ⟨h₁,h₂,h₃,hle⟩ := charge_eq h.valid (hfits scope hmem)
        rw [h₁,h₂,h₃]
        exact hle
      · exact h.bounded scope state hstate
    · intro scope
      rw [heldLeases,countP_append,← heldLeases,← h.counted,concurrencyOf,hnext.states]
      simp only [countP_singleton,Lease.holds,Bool.not_false,Bool.true_and,contains_iff_mem]
      split_ifs with hmem
      · rw [elim_some,(charge_eq h.valid (hfits scope hmem)).2.2.1,opened_concurrency]
      · rfl
    · intro scope state hstate
      simp only [hnext.states,hnext.policies] at hstate ⊢
      split_ifs at hstate with hmem
      · obtain ⟨policy,hpol,-⟩ := hfits scope hmem
        exact .inl (by simp [hpol])
      · exact h.keys scope state hstate
    · intro lease hlease
      rcases mem_append.mp hlease with hmem | hmem
      · exact h.leases lease hmem
      · rw [mem_singleton.mp hmem]
        exact ⟨hy,rfl⟩

theorem Invariant.snapshot (h : Invariant w)
    (hnext : Rewrites w.limiter next fun other =>
      if other = scope then (w.limiter.states scope).map (advance (truncate now))
      else w.limiter.states other) : Invariant { w with limiter := next } := by
  have hstates (other : Scope) (state : LocalState) (hstate : next.states other = some state) :
      ∃ old, w.limiter.states other = some old ∧
        (state = old ∨ state = old.advance (truncate now)) := by
    simp only [hnext.states] at hstate
    split_ifs at hstate with heq
    · obtain ⟨old,hold,rfl⟩ := map_eq_some_iff.mp hstate
      exact ⟨old,heq ▸ hold,.inr rfl⟩
    · exact ⟨state,hstate,.inl rfl⟩
  refine ⟨by rw [hnext.policies]; exact h.valid,?_,?_,?_,h.leases⟩
  · intro other state hstate
    obtain ⟨old,hold,rfl | rfl⟩ := hstates other state hstate
    · exact h.bounded other state hold
    · have hb := h.bounded other old hold
      rw [advance_concurrency]
      rcases advance_rates (truncate now) old with heq | ⟨-,hrpm,htpm⟩
      · rwa [heq]
      · omega
  · intro other
    rw [← h.counted,concurrencyOf,concurrencyOf,hnext.states]
    simp only
    split_ifs with heq
    · subst heq
      cases w.limiter.states other with
      | none => rfl
      | some state => exact advance_concurrency _ state
    · rfl
  · intro other state hstate
    obtain ⟨old,hold,hcases⟩ := hstates other state hstate
    have hconc : state.concurrency = old.concurrency := by
      rcases hcases with rfl | rfl
      · rfl
      · exact advance_concurrency _ old
    rw [hnext.policies,hconc]
    exact h.keys other old hold

variable {bindings : List Binding}

theorem lookup_valid {next : List (Scope × Effective)} {policy : Effective}
    (h : collectPolicies [] bindings = some next) (hlookup : next.lookup scope = some policy) :
    policy.validate := by
  obtain ⟨front,back,rfl,-⟩ := lookup_eq_some_iff.mp hlookup
  exact (collectPolicies_valid h (by simp)).1 (scope,policy) (by simp)

variable {policies : List (Scope × Effective)}

theorem Invariant.replace (h : Invariant w) (hpols : collectPolicies [] bindings = some policies)
    (hlookup : ∀ scope, next.policies scope = policies.lookup scope)
    (hstates : ∀ scope, next.states scope = (w.limiter.states scope).filter fun state =>
      (policies.lookup scope).isSome || state.concurrency ≠ 0) :
    Invariant { w with limiter := next } := by
  have hold (scope : Scope) (state : LocalState) (hstate : next.states scope = some state) :
      w.limiter.states scope = some state ∧
        ((policies.lookup scope).isSome ∨ 0 < state.concurrency) := by
    rw [hstates,filter_eq_some_iff] at hstate
    refine ⟨hstate.1,?_⟩
    simpa [Nat.pos_iff_ne_zero] using hstate.2
  refine ⟨?_,?_,?_,?_,h.leases⟩
  · intro scope policy hpol
    exact lookup_valid hpols ((hlookup scope).symm.trans hpol)
  · intro scope state hstate
    exact h.bounded scope state (hold scope state hstate).1
  · intro scope
    rw [← h.counted,concurrencyOf,concurrencyOf,hstates]
    cases w.limiter.states scope with
    | none => rfl
    | some state =>
      -- a state that goes has no lease
      by_cases hzero : state.concurrency = 0
      · rw [filter_some]
        split_ifs <;> simp [hzero]
      · simp [filter_some,hzero]
  · intro scope state hstate
    simp only [hlookup]
    exact (hold scope state hstate).2

theorem Invariant.slot (h : Invariant w) {lease : Lease} (hlease : lease ∈ w.leases)
    (hheld : lease.released = false) (hscope : scope ∈ lease.scopes) :
    ∃ state, w.limiter.states scope = some state ∧ 0 < state.concurrency := by
  have hpos : 0 < heldLeases w.leases scope :=
    countP_pos_iff.mpr ⟨lease,hlease,by simp [Lease.holds,hheld,hscope]⟩
  rw [← h.counted,concurrencyOf] at hpos
  cases hstate : w.limiter.states scope with
  | none => simp [hstate] at hpos
  | some state => exact ⟨state,rfl,by simpa [hstate] using hpos⟩

variable {leases : List Lease} {i : ℕ} {scopes : List Scope}

theorem heldLeases_set (hi : leases[i]? = some ⟨scopes,false⟩) (scope : Scope) :
    heldLeases (leases.set i ⟨scopes,true⟩) scope =
      heldLeases leases scope - if scope ∈ scopes then 1 else 0 := by
  obtain ⟨hlt,hget⟩ := List.getElem?_eq_some_iff.mp hi
  rw [heldLeases,List.countP_set hlt,hget]
  simp [Lease.holds,heldLeases]

theorem release_states (limiter : LocalLimiter) (hy : Hierarchy) (scope : Scope) :
    (limiter.release hy.scopes).states scope = if scope ∈ hy.scopes then
      releaseState (limiter.policies scope).isSome (limiter.states scope)
    else limiter.states scope :=
  updateEach_apply (fun scope => releaseState (limiter.policies scope).isSome)
    hy.scopes_nodup scope

/-- One slot less; the state goes with its last lease if its configuration is gone. -/
theorem releaseState_some {configured : Bool} {state : LocalState} (h : 0 < state.concurrency) :
    releaseState configured (some state) = if !configured && state.concurrency - 1 = 0 then none
      else some { state with concurrency := state.concurrency - 1 } := by
  rw [releaseState,if_neg (by omega)]

theorem Invariant.release (h : Invariant w) (hi : w.leases[i]? = some ⟨scopes,false⟩) :
    Invariant ⟨w.limiter.release scopes,w.leases.set i ⟨scopes,true⟩⟩ := by
  obtain ⟨hy,rfl⟩ := h.leases _ (mem_of_getElem? hi)
  -- what becomes of each state of the released scopes
  have hrel (scope : Scope) (hmem : scope ∈ hy.scopes) : ∃ state,
      w.limiter.states scope = some state ∧ 0 < state.concurrency ∧
      (w.limiter.release hy.scopes).states scope =
        if !(w.limiter.policies scope).isSome && state.concurrency - 1 = 0 then none
        else some { state with concurrency := state.concurrency - 1 } := by
    obtain ⟨state,hstate,hpos⟩ := h.slot (mem_of_getElem? hi) rfl hmem
    refine ⟨state,hstate,hpos,?_⟩
    rw [release_states,if_pos hmem,hstate,releaseState_some hpos]
  refine ⟨h.valid,?_,?_,?_,?_⟩
  · intro scope state' hstate'
    by_cases hmem : scope ∈ hy.scopes
    · obtain ⟨state,hstate,hpos,hnew⟩ := hrel scope hmem
      have hb := h.bounded scope state hstate
      simp only [hnew] at hstate'
      split_ifs at hstate'
      cases hstate'
      exact ⟨hb.1,hb.2.1,(Nat.sub_le _ _).trans hb.2.2⟩
    · simp only [release_states,if_neg hmem] at hstate'
      exact h.bounded scope state' hstate'
  · intro scope
    rw [heldLeases_set hi,← h.counted]
    by_cases hmem : scope ∈ hy.scopes
    · obtain ⟨state,hstate,hpos,hnew⟩ := hrel scope hmem
      simp only [concurrencyOf,hnew,hstate,if_pos hmem,elim_some]
      split_ifs with hlast
      · simp only [Bool.and_eq_true,decide_eq_true_eq] at hlast
        exact hlast.2.symm
      · rfl
    · simp [concurrencyOf,release_states,hmem]
  · intro scope state' hstate'
    by_cases hmem : scope ∈ hy.scopes
    · obtain ⟨state,hstate,hpos,hnew⟩ := hrel scope hmem
      simp only [hnew] at hstate'
      split_ifs at hstate' with hlast
      cases hstate'
      show (w.limiter.policies scope).isSome ∨ 0 < state.concurrency - 1
      simp only [Bool.and_eq_true,Bool.not_eq_true',decide_eq_true_eq,not_and] at hlast
      cases hconf : (w.limiter.policies scope).isSome with
      | true => exact .inl rfl
      | false => exact .inr (Nat.pos_of_ne_zero (hlast hconf))
    · simp only [release_states,if_neg hmem] at hstate'
      exact h.keys scope state' hstate'
  · intro lease hlease
    rcases mem_or_eq_of_mem_set hlease with hmem | rfl
    · exact h.leases lease hmem
    · exact ⟨hy,rfl⟩

theorem Invariant.step (h : Invariant w) (op : Op) : Invariant (w.step op).1 := by
  cases op with
  | replace version bindings =>
    simp only [World.step]
    rcases replace_outcome w.limiter version bindings with ⟨f,hf⟩ |
      ⟨policies,hpols,-,hlookup,hstates⟩
    · rw [hf]
      exact h
    · exact h.replace hpols hlookup hstates
  | acquire now request => exact h.acquire (acquire_outcome w.limiter now request)
  | snapshot now scope =>
    simp only [World.step]
    rcases snapshot_outcome w.limiter now scope with ⟨f,hf⟩ | ⟨usage,-,hnext⟩
    · rw [hf]
      exact h
    · exact h.snapshot hnext
  | release i =>
    simp only [World.step]
    split
    · rename_i scopes hi
      exact h.release hi
    · exact h

theorem reaches_invariant (h : Reaches w history) : Invariant w := by
  induction h with
  | start maximumBindings limiter hnew =>
    unfold newLocalLimiter at hnew
    split_ifs at hnew
    cases hnew
    exact ⟨by simp,by simp,by simp [concurrencyOf,heldLeases],by simp,by simp⟩
  | step _ op ih => exact ih.step op

/-! The log is followed by each operation. -/

theorem tally_append (scope : Scope) (history : List (Op × Reply)) (outcome : Op × Reply) :
    tally scope (history ++ [outcome]) = (tally scope history).observe scope outcome := by
  simp [tally]

variable {outcome : Op × Reply}

theorem Throughout.of_append (h : Throughout scope (history ++ [outcome])) :
    Throughout scope history :=
  fun version bindings hmem => h version bindings (mem_append_left _ hmem)

variable {state : Option LocalState}

theorem Agrees.advance {t : Tally} (h : Agrees t state) (windowStart : Time) :
    Agrees (t.advance windowStart) (state.map (advance windowStart)) := by
  cases state with
  | none =>
    simp only [Agrees] at h
    simp [h,Agrees,Tally.advance,Tally.empty]
  | some state =>
    obtain ⟨hstart,hrpm,htpm⟩ := h
    simp only [map_some,Tally.advance,hstart,advance]
    split_ifs
    · exact ⟨rfl,rfl,rfl⟩
    · exact ⟨hstart,hrpm,htpm⟩

theorem Agrees.openWindow {t : Tally} (h : Agrees t state) (windowStart : Time) :
    Agrees (t.openWindow windowStart) (some (Local.openWindow windowStart state)) := by
  cases state with
  | none =>
    simp only [Agrees] at h
    rw [h]
    exact ⟨rfl,rfl,rfl⟩
  | some state =>
    have hstart : (t.openWindow windowStart) = t.advance windowStart := by
      simp only [Tally.openWindow,h.1]
    rw [hstart]
    exact h.advance windowStart

/-- The states that `step` leaves agree with the log, given how the step counts for a scope. -/
theorem Follows.of_states {next : World}
    (hconf : ∀ scope, Throughout scope (history ++ [outcome]) →
      (next.limiter.policies scope).isSome ∨ next.limiter.states scope = none)
    (hagrees : ∀ scope, Throughout scope (history ++ [outcome]) →
      Agrees ((tally scope history).observe scope outcome) (next.limiter.states scope)) :
    Follows next (history ++ [outcome]) :=
  ⟨hconf,fun scope hall => by rw [tally_append]; exact hagrees scope hall⟩

theorem Follows.refl (h : Follows w history)
    (hobserve : ∀ scope t, Tally.observe scope t outcome = t) :
    Follows ⟨w.limiter,leases⟩ (history ++ [outcome]) := by
  apply of_states
  · exact fun scope hall => h.configured scope hall.of_append
  · intro scope hall
    rw [hobserve]
    exact h.agrees scope hall.of_append

theorem Follows.acquire (hw : Invariant w) (h : Follows w history)
    (hout : AcquireOutcome w.limiter now request next result) :
    Follows ⟨next,leases⟩ (history ++ [(.acquire now request,.acquired result)]) := by
  cases hout with
  | failed f => exact h.refl fun _ _ => rfl
  | rejected hy next a hscopes hconf hlease hrej hnext =>
    apply of_states
    · intro scope hall
      simp only [hnext.policies,hnext.states]
      split_ifs with hmem
      · exact .inl (hconf scope hmem)
      · exact h.configured scope hall.of_append
    · intro scope hall
      have hold := h.agrees scope hall.of_append
      simp only [Tally.observe,hscopes,any_some,contains_iff_mem,hnext.states,
        allowed,hlease,isSome_none,Bool.false_and,Bool.false_eq_true,if_false]
      split_ifs
      · exact hold.openWindow _
      · exact hold
  | admitted hy next a hscopes hfits hlease hrej hnext =>
    apply of_states
    · intro scope hall
      simp only [hnext.policies,hnext.states]
      split_ifs with hmem
      · obtain ⟨policy,hpol,-⟩ := hfits scope hmem
        exact .inl (by simp [hpol])
      · exact h.configured scope hall.of_append
    · intro scope hall
      have hold := h.agrees scope hall.of_append
      simp only [Tally.observe,hscopes,any_some,contains_iff_mem,hnext.states,allowed,hlease,
        hrej,isSome_some,isNone_none,Bool.and_self,if_true]
      split_ifs with hmem
      · obtain ⟨hstart,hrpm,htpm⟩ := hold.openWindow (truncate now)
        obtain ⟨hrpm',htpm',-⟩ := charge_eq hw.valid (hfits scope hmem)
        refine ⟨hstart,?_,?_⟩
        · rw [hrpm',opened,hrpm]
          rfl
        · rw [htpm',opened,htpm,Tally.charge,sum_cons,Nat.add_comm]
      · exact hold

theorem Follows.snapshot (h : Follows w history) {usage : UsageSnapshot}
    (hnext : Rewrites w.limiter next fun other =>
      if other = scope then (w.limiter.states scope).map (advance (truncate now))
      else w.limiter.states other) :
    Follows { w with limiter := next }
      (history ++ [(.snapshot now scope,.snapshot (.ok usage))]) := by
  apply of_states
  · intro other hall
    simp only [hnext.policies,hnext.states]
    rcases h.configured other hall.of_append with hsome | hnone
    · exact .inl hsome
    · split_ifs with heq
      · subst heq
        simp [hnone]
      · exact .inr hnone
  · intro other hall
    have hold := h.agrees other hall.of_append
    simp only [Tally.observe,hnext.states,eq_comm (a := scope)]
    split_ifs with heq
    · rw [← heq]
      exact hold.advance _
    · exact hold

theorem lookup_isSome (h : collectPolicies [] bindings = some policies)
    (hmem : scope ∈ bindings.map Binding.scope) : (policies.lookup scope).isSome := by
  obtain ⟨binding,hbind,rfl⟩ := mem_map.mp hmem
  obtain ⟨found,hfound,-⟩ :=
    lookup_of_mem ((collectPolicies_valid h (by simp)).2.2 binding hbind)
  simp [hfound]

theorem Follows.replace (h : Follows w history) {version : ℕ}
    (hpols : collectPolicies [] bindings = some policies)
    (hlookup : ∀ scope, next.policies scope = policies.lookup scope)
    (hstates : ∀ scope, next.states scope = (w.limiter.states scope).filter fun state =>
      (policies.lookup scope).isSome || state.concurrency ≠ 0) :
    Follows { w with limiter := next }
      (history ++ [(.replace version bindings,.replaced (.ok ()))]) := by
  have hsome (scope : Scope)
      (hall : Throughout scope (history ++ [(.replace version bindings,.replaced (.ok ()))])) :
      (policies.lookup scope).isSome :=
    lookup_isSome hpols (hall version bindings (by simp))
  apply of_states
  · intro scope hall
    simp only [hlookup]
    exact .inl (hsome scope hall)
  · intro scope hall
    have hkept : next.states scope = w.limiter.states scope := by
      rw [hstates,hsome scope hall]
      cases w.limiter.states scope <;> rfl
    simp only [Tally.observe,hkept]
    exact h.agrees scope hall.of_append

theorem Follows.release (hw : Invariant w) (h : Follows w history)
    (hi : w.leases[i]? = some ⟨scopes,false⟩) :
    Follows ⟨w.limiter.release scopes,leases⟩ (history ++ [(.release i,.released)]) := by
  obtain ⟨hy,rfl⟩ := hw.leases _ (mem_of_getElem? hi)
  -- a scope with a lease has a state, so it is still configured and its state stays
  have hkept (scope : Scope) (hall : Throughout scope history) (hmem : scope ∈ hy.scopes) :
      ∃ state, w.limiter.states scope = some state ∧ (w.limiter.policies scope).isSome ∧
        (w.limiter.release hy.scopes).states scope =
          some { state with concurrency := state.concurrency - 1 } := by
    obtain ⟨state,hstate,hpos⟩ := hw.slot (mem_of_getElem? hi) rfl hmem
    have hsome := (h.configured scope hall).resolve_right (by simp [hstate])
    refine ⟨state,hstate,hsome,?_⟩
    rw [release_states,if_pos hmem,hstate,releaseState_some hpos,hsome]
    simp
  apply of_states
  · intro scope hall
    by_cases hmem : scope ∈ hy.scopes
    · obtain ⟨state,-,hsome,-⟩ := hkept scope hall.of_append hmem
      exact .inl hsome
    · simp only [release_states,if_neg hmem]
      exact h.configured scope hall.of_append
  · intro scope hall
    have hold := h.agrees scope hall.of_append
    by_cases hmem : scope ∈ hy.scopes
    · obtain ⟨state,hstate,-,hnew⟩ := hkept scope hall.of_append hmem
      rw [hstate] at hold
      simp only [hnew]
      exact hold
    · simp only [release_states,if_neg hmem]
      exact hold

theorem Follows.step (hw : Invariant w) (h : Follows w history) (op : Op) :
    Follows (w.step op).1 (history ++ [(op,(w.step op).2)]) := by
  cases op with
  | replace version bindings =>
    simp only [World.step]
    rcases replace_outcome w.limiter version bindings with ⟨f,hf⟩ |
      ⟨policies,hpols,hok,hlookup,hstates⟩
    · rw [hf]
      exact h.refl fun _ _ => rfl
    · rw [hok]
      exact h.replace hpols hlookup hstates
  | acquire now request => exact h.acquire hw (acquire_outcome w.limiter now request)
  | snapshot now scope =>
    simp only [World.step]
    rcases snapshot_outcome w.limiter now scope with ⟨f,hf⟩ | ⟨usage,hok,hnext⟩
    · rw [hf]
      exact h.refl fun _ _ => rfl
    · rw [hok]
      exact h.snapshot hnext
  | release i =>
    simp only [World.step]
    split
    · rename_i scopes hi
      exact h.release hw hi
    · exact h.refl fun _ _ => rfl

theorem reaches_follows (h : Reaches w history) : Follows w history := by
  induction h with
  | start maximumBindings limiter hnew =>
    unfold newLocalLimiter at hnew
    split_ifs at hnew
    cases hnew
    exact ⟨fun _ _ => .inr rfl,fun _ _ => rfl⟩
  | step h op ih => exact ih.step (reaches_invariant h) op

/-! What one `Acquire` does. -/

/-- After an admission each of its scopes is within the published hard limits, and each counter has
grown by exactly what was admitted. -/
def WithinLimits (limiter next : LocalLimiter) (now : Time) (tokens : ℕ) (scope : Scope) : Prop :=
  ∃ policy state, limiter.policies scope = some policy ∧ next.states scope = some state ∧
    state.rpm = (opened limiter now scope).rpm + 1 ∧ state.rpm ≤ policy.rpm.hard ∧
    state.tpm = (opened limiter now scope).tpm + tokens ∧ state.tpm ≤ policy.tpm.hard ∧
    state.concurrency = concurrencyOf limiter.states scope + 1 ∧
    state.concurrency ≤ policy.concurrency.hard

/-- The rates of a scope are as before, or its window has advanced and they are zero. -/
def AtMostAdvances (states next : States) (now : Time) (scope : Scope) : Prop :=
  concurrencyOf next scope = concurrencyOf states scope ∧
    (rpmOf next scope = rpmOf states scope ∧ tpmOf next scope = tpmOf states scope ∨
      ∃ state, states scope = some state ∧ state.windowStart < truncate now ∧
        rpmOf next scope = 0 ∧ tpmOf next scope = 0)

theorem atMostAdvances_opened {next : States}
    (hnext : next scope = some (opened limiter now scope)) :
    AtMostAdvances limiter.states next now scope := by
  refine ⟨?_,?_⟩
  · rw [concurrencyOf,hnext]
    exact opened_concurrency limiter now scope
  · simp only [rpmOf,tpmOf,hnext,elim_some,opened]
    cases hstate : limiter.states scope with
    | none => exact .inl ⟨rfl,rfl⟩
    | some state =>
      rcases advance_rates (truncate now) state with heq | ⟨hlt,hrpm,htpm⟩
      · exact .inl (by simp [openWindow,heq])
      · exact .inr ⟨state,rfl,hlt,hrpm,htpm⟩

theorem AcquireOutcome.withinLimits {a : Admission} (hw : Invariant w)
    (h : AcquireOutcome w.limiter now request next (.ok a)) (ha : a.allowed) :
    ∃ scopes, normalizeScopes request.scopes = some scopes ∧ ∀ scope ∈ scopes,
      WithinLimits w.limiter next now request.estimatedTokens scope := by
  cases h with
  | rejected hy next a hscopes hconf hlease hrej hnext =>
    simp [allowed,hlease] at ha
  | admitted hy next a hscopes hfits hlease hrej hnext =>
    refine ⟨hy.scopes,hscopes,fun scope hmem => ?_⟩
    obtain ⟨hrpm,htpm,hconc,-⟩ := charge_eq hw.valid (hfits scope hmem)
    obtain ⟨policy,hpol,h₁,h₂,h₃⟩ := hfits scope hmem
    refine ⟨policy,_,hpol,by simp only [hnext.states]; exact if_pos hmem,hrpm,hrpm ▸ h₁,
      htpm,htpm ▸ h₂,?_,hconc ▸ h₃⟩
    rw [hconc,opened_concurrency]

theorem AcquireOutcome.atMostAdvances {a : Admission}
    (h : AcquireOutcome limiter now request next (.ok a)) (ha : a.allowed = false) :
    a.lease = none ∧ ∀ scope, AtMostAdvances limiter.states next.states now scope := by
  cases h with
  | rejected hy next a hscopes hconf hlease hrej hnext =>
    refine ⟨hlease,fun scope => ?_⟩
    rw [hnext.states]
    by_cases hmem : scope ∈ hy.scopes
    · exact atMostAdvances_opened (if_pos hmem)
    · simp [AtMostAdvances,concurrencyOf,rpmOf,tpmOf,hmem]
  | admitted hy next a hscopes hfits hlease hrej hnext =>
    simp [allowed,hlease,hrej] at ha

/-- In every run the limiter refines the log: concurrency is the number of leases held, whatever was
replaced in between, and the release of a held lease takes back exactly its own slots; the rates of
a scope in every configuration are what the log says since its window last advanced. States are
configured or in use. An admission keeps to the hard limits without wrapping; a failed call changes
nothing, and a rejected one advances windows at most. -/
theorem reaches_refinesLog (h : Reaches w history) :
    (∀ scope, concurrencyOf w.limiter.states scope = heldLeases w.leases scope) ∧
    (∀ i scopes, w.leases[i]? = some ⟨scopes,false⟩ → ∀ scope,
      concurrencyOf (w.step (.release i)).1.limiter.states scope +
          (if scope ∈ scopes then 1 else 0) =
        concurrencyOf w.limiter.states scope) ∧
    (∀ scope, Throughout scope history →
      rpmOf w.limiter.states scope = (tally scope history).tokens.length ∧
      tpmOf w.limiter.states scope = (tally scope history).tokens.sum) ∧
    (∀ scope state, w.limiter.states scope = some state →
      (w.limiter.policies scope).isSome ∨ 0 < state.concurrency) ∧
    ∀ now request, (∀ f, (w.step (.acquire now request)).2 = .acquired (.error f) →
        (w.step (.acquire now request)).1 = w) ∧
      ∀ a, (w.step (.acquire now request)).2 = .acquired (.ok a) →
        (a.allowed → ∃ scopes, normalizeScopes request.scopes = some scopes ∧
          ∀ scope ∈ scopes, WithinLimits w.limiter (w.step (.acquire now request)).1.limiter now
            request.estimatedTokens scope) ∧
        (a.allowed = false → (w.step (.acquire now request)).1.leases = w.leases ∧
          ∀ scope, AtMostAdvances w.limiter.states
            (w.step (.acquire now request)).1.limiter.states now scope) := by
  have hw := reaches_invariant h
  refine ⟨hw.counted,?_,?_,hw.keys,fun now request => ⟨?_,?_⟩⟩
  · intro i scopes hi scope
    have hnext := (hw.step (.release i)).counted scope
    have hpos : scope ∈ scopes → 0 < heldLeases w.leases scope := fun hmem =>
      countP_pos_iff.mpr ⟨_,mem_of_getElem? hi,by simp [Lease.holds,hmem]⟩
    rw [hnext,hw.counted]
    simp only [World.step,hi,heldLeases_set hi]
    split_ifs with hmem
    · have := hpos hmem
      omega
    · omega
  · intro scope hall
    have hagrees := (reaches_follows h).agrees scope hall
    simp only [rpmOf,tpmOf]
    cases hstate : w.limiter.states scope with
    | none =>
      rw [hstate] at hagrees
      rw [show tally scope history = .empty from hagrees]
      exact ⟨rfl,rfl⟩
    | some state =>
      rw [hstate] at hagrees
      exact hagrees.2
  · intro f hf
    have hout := acquire_outcome w.limiter now request
    simp only [World.step,Reply.acquired.injEq] at hf ⊢
    rw [hf] at hout ⊢
    generalize (w.limiter.acquire now request).1 = next at hout
    cases hout
    simp [granted]
  · intro a ha
    have hout := acquire_outcome w.limiter now request
    simp only [World.step,Reply.acquired.injEq] at ha ⊢
    rw [ha] at hout ⊢
    refine ⟨hout.withinLimits hw,fun hrejected => ?_⟩
    obtain ⟨hlease,hadvances⟩ := hout.atMostAdvances hrejected
    exact ⟨by simp [granted,hlease],hadvances⟩

def World.run (w : World) (ops : List Op) : World := ops.foldl (fun w op => (w.step op).1) w

theorem Reaches.run (h : Reaches w history) (ops : List Op) :
    ∃ history', Reaches (w.run ops) history' := by
  induction ops generalizing w history with
  | nil => exact ⟨history,h⟩
  | cons op ops ih => exact ih (h.step op)

def sampleStart : World := ⟨⟨100000,0,fun _ => none,fun _ => none⟩,[]⟩

def sampleRequest : Request := ⟨sampleHierarchy.scopes,1⟩

/-- Every scope allows one request at a time; one is admitted in the first minute. -/
def sampleHeld : World :=
  sampleStart.run [.replace 1 (sampleBindings 1 1),.acquire (unixMilli 60000) sampleRequest]

def sampleRejected : World × Reply := sampleHeld.step (.acquire (unixMilli 120000) sampleRequest)

theorem sampleHeld_reaches : ∃ history, Reaches sampleHeld history :=
  (Reaches.start 100000 _ rfl).run _

theorem sampleHeld_refinesLog : ∃ history, Reaches sampleHeld history ∧
    concurrencyOf sampleHeld.limiter.states platformScope = 1 ∧
    heldLeases sampleHeld.leases platformScope = 1 := by
  obtain ⟨history,h⟩ := sampleHeld_reaches
  have hone : heldLeases sampleHeld.leases platformScope = 1 := by decide +kernel
  exact ⟨history,h,((reaches_refinesLog h).1 platformScope).trans hone,hone⟩

/-- The rejected request has advanced the window, and the rates of the first minute are gone. -/
theorem sampleRejected_resets : (∃ history, Reaches sampleHeld history) ∧
    (∃ a, sampleRejected.2 = .acquired (.ok a) ∧ a.rejection.isSome) ∧
    rpmOf sampleHeld.limiter.states platformScope = 1 ∧
    tpmOf sampleHeld.limiter.states platformScope = 1 ∧
    rpmOf sampleRejected.1.limiter.states platformScope = 0 ∧
    tpmOf sampleRejected.1.limiter.states platformScope = 0 := by
  refine ⟨sampleHeld_reaches,⟨_,rfl,?_⟩,?_,?_,?_,?_⟩ <;> decide +kernel

end Limits.Local
