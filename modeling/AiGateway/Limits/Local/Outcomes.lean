import AiGateway.Limits.Local.Limiter

/-! What each operation of the local limiter can do to the state of every scope. -/
namespace Limits.Local
open Machine LocalLimiter

variable {limiter : LocalLimiter} {states : States} {now : Time} {tokens : ℕ} {scopes : List Scope}

theorem updateEach_apply (f : Scope → Option LocalState → Option LocalState)
    (hnodup : scopes.Nodup) (scope : Scope) : updateEach f scopes states scope =
      if scope ∈ scopes then f scope (states scope) else states scope := by
  induction scopes generalizing states with
  | nil => simp [updateEach]
  | cons head scopes ih =>
    obtain ⟨hhead,hnodup⟩ := List.nodup_cons.mp hnodup
    rw [updateEach,ih hnodup]
    by_cases heq : scope = head
    · subst heq
      simp [hhead]
    · simp [heq]

theorem checkHardLimits_eq_none {scope : Scope} {state : LocalState} {policy : Effective}
    (h : checkHardLimits now scope state policy tokens = none) :
    state.rpm + 1 ≤ policy.rpm.hard ∧ state.tpm + tokens ≤ policy.tpm.hard ∧
      state.concurrency + 1 ≤ policy.concurrency.hard := by
  unfold checkHardLimits at h
  split_ifs at h with hrpm htpm hconc
  rw [Bool.not_eq_true,exceeds_eq_false] at hrpm htpm hconc
  exact ⟨hrpm,htpm,hconc⟩

theorem firstRejection_eq_none {entries : List (Scope × LocalState × Effective)}
    (h : firstRejection now tokens entries = none) :
    ∀ entry ∈ entries, checkHardLimits now entry.1 entry.2.1 entry.2.2 tokens = none := by
  induction entries with
  | nil => simp
  | cons entry entries ih =>
    obtain ⟨scope,state,policy⟩ := entry
    rw [firstRejection] at h
    split at h
    · cases h
    · rename_i hnone
      intro other hother
      rcases List.mem_cons.mp hother with rfl | hmem
      · exact hnone
      · exact ih h other hmem

variable {policies : List Effective}

theorem findPolicies_ok (h : limiter.findPolicies scopes = .ok policies) :
    policies.length = scopes.length ∧
      ∀ pair ∈ scopes.zip policies, limiter.policies pair.1 = some pair.2 := by
  induction scopes generalizing policies with
  | nil =>
    cases h
    simp
  | cons scope scopes ih =>
    rw [findPolicies] at h
    split at h
    · cases h
    · rename_i policy hpol
      cases hrest : limiter.findPolicies scopes with
      | error kind =>
        rw [hrest] at h
        cases h
      | ok rest =>
        rw [hrest] at h
        cases h
        obtain ⟨hlen,hfound⟩ := ih hrest
        refine ⟨by simp [hlen],fun pair hpair => ?_⟩
        rcases List.mem_cons.mp (by simpa using hpair) with rfl | hmem
        · exact hpol
        · exact hfound pair hmem

/-- The state of a scope when its hard limits are checked. -/
def opened (limiter : LocalLimiter) (now : Time) (scope : Scope) : LocalState :=
  openWindow (truncate now) (limiter.states scope)

variable (limiter now tokens) in
/-- The three checks of one scope have passed. -/
def Fits (scope : Scope) : Prop :=
  ∃ policy, limiter.policies scope = some policy ∧
    (opened limiter now scope).rpm + 1 ≤ policy.rpm.hard ∧
    (opened limiter now scope).tpm + tokens ≤ policy.tpm.hard ∧
    (opened limiter now scope).concurrency + 1 ≤ policy.concurrency.hard

/-- Only the states differ, and they are as `f` says. -/
structure Rewrites (limiter next : LocalLimiter) (f : Scope → Option LocalState) : Prop where
  policies : next.policies = limiter.policies
  version : next.version = limiter.version
  states : next.states = f

variable (limiter now) (request : Request) in
/-- Everything `Acquire` can do. -/
inductive AcquireOutcome : LocalLimiter → Except Failure Admission → Prop
  | failed (f : Failure) : AcquireOutcome limiter (.error f)
  | rejected (hy : Hierarchy) (next : LocalLimiter) (a : Admission)
      (hscopes : normalizeScopes request.scopes = some hy.scopes)
      (hconf : ∀ scope ∈ hy.scopes, (limiter.policies scope).isSome)
      (hlease : a.lease = none) (hrej : a.rejection.isSome)
      (hnext : Rewrites limiter next fun scope =>
        if scope ∈ hy.scopes then some (opened limiter now scope) else limiter.states scope) :
      AcquireOutcome next (.ok a)
  | admitted (hy : Hierarchy) (next : LocalLimiter) (a : Admission)
      (hscopes : normalizeScopes request.scopes = some hy.scopes)
      (hfits : ∀ scope ∈ hy.scopes, Fits limiter now request.estimatedTokens scope)
      (hlease : a.lease = some hy.scopes) (hrej : a.rejection = none)
      (hnext : Rewrites limiter next fun scope =>
        if scope ∈ hy.scopes then some ((opened limiter now scope).charge request.estimatedTokens)
        else limiter.states scope) :
      AcquireOutcome next (.ok a)

theorem decideAdmission_outcome {request : Request} {hy : Hierarchy}
    (hscopes : normalizeScopes request.scopes = some hy.scopes)
    (hpols : limiter.findPolicies hy.scopes = .ok policies) : AcquireOutcome limiter now request
      (limiter.decideAdmission now hy.scopes policies request.estimatedTokens).1
      (.ok (limiter.decideAdmission now hy.scopes policies request.estimatedTokens).2) := by
  obtain ⟨hlen,hfound⟩ := findPolicies_ok hpols
  have hpol (scope : Scope) (hscope : scope ∈ hy.scopes) : ∃ policy,
      (scope,opened limiter now scope,policy) ∈ hy.scopes.zip ((hy.scopes.map
        fun scope => openWindow (truncate now) (limiter.states scope)).zip policies) ∧
      limiter.policies scope = some policy := by
    obtain ⟨i,hi,rfl⟩ := List.mem_iff_getElem.mp hscope
    have hi' : i < policies.length := by omega
    refine ⟨policies[i],?_,hfound (hy.scopes[i],policies[i]) ?_⟩
    · apply List.mem_iff_getElem.mpr
      exact ⟨i,by simp [hi,hi'],by simp [opened]⟩
    · apply List.mem_iff_getElem.mpr
      exact ⟨i,by simp [hi,hi'],by simp⟩
  have hopened (scope : Scope) : updateEach
      (fun _ state => some (openWindow (truncate now) state)) hy.scopes limiter.states scope =
        if scope ∈ hy.scopes then some (opened limiter now scope) else limiter.states scope :=
    updateEach_apply _ hy.scopes_nodup scope
  unfold decideAdmission
  simp only
  split
  · refine .rejected hy _ _ hscopes (fun scope hscope => ?_) rfl rfl ⟨rfl,rfl,funext hopened⟩
    obtain ⟨policy,-,hsome⟩ := hpol scope hscope
    simp [hsome]
  · rename_i hnone
    refine .admitted hy _ _ hscopes (fun scope hscope => ?_) rfl rfl ⟨rfl,rfl,
      funext fun scope => ?_⟩
    · obtain ⟨policy,hmem,hsome⟩ := hpol scope hscope
      exact ⟨policy,hsome,checkHardLimits_eq_none (firstRejection_eq_none hnone _ hmem)⟩
    · simp only
      rw [updateEach_apply _ hy.scopes_nodup,hopened]
      split_ifs <;> rfl

theorem acquire_outcome (limiter : LocalLimiter) (now : Time) (request : Request) :
    AcquireOutcome limiter now request (limiter.acquire now request).1
      (limiter.acquire now request).2 := by
  unfold acquire
  split
  · exact .failed _
  · split
    · exact .failed _
    · rename_i scopes hscopes
      obtain ⟨⟨hy,rfl⟩,-⟩ := normalizeScopes_eq_some hscopes
      split
      · exact .failed _
      · split
        · exact .failed _
        · rename_i policies hpols
          exact decideAdmission_outcome hscopes hpols

/-- Everything `Snapshot` can do. -/
theorem snapshot_outcome (limiter : LocalLimiter) (now : Time) (scope : Scope) :
    (∃ f, limiter.snapshot now scope = (limiter,.error f)) ∨
    ∃ usage, (limiter.snapshot now scope).2 = .ok usage ∧
      Rewrites limiter (limiter.snapshot now scope).1 fun other =>
        if other = scope then (limiter.states scope).map (LocalState.advance (truncate now))
        else limiter.states other := by
  unfold snapshot
  split
  · exact .inl ⟨_,rfl⟩
  · split
    · exact .inl ⟨_,rfl⟩
    · right
      split
      · rename_i hnone
        refine ⟨_,rfl,rfl,rfl,funext fun other => ?_⟩
        by_cases heq : other = scope <;> simp [heq,hnone]
      · rename_i state hsome
        refine ⟨_,rfl,rfl,rfl,funext fun other => ?_⟩
        by_cases heq : other = scope <;> simp [heq,hsome]

/-- Everything `Replace` can do. -/
theorem replace_outcome (limiter : LocalLimiter) (version : ℕ) (bindings : List Binding) :
    (∃ f, limiter.replace version bindings = (limiter,.error f)) ∨
    ∃ next, collectPolicies [] bindings = some next ∧
      (limiter.replace version bindings).2 = .ok () ∧
      (∀ scope, (limiter.replace version bindings).1.policies scope = next.lookup scope) ∧
      ∀ scope, (limiter.replace version bindings).1.states scope =
        (limiter.states scope).filter fun state =>
          (next.lookup scope).isSome || state.concurrency ≠ 0 := by
  unfold replace
  split
  · exact .inl ⟨_,rfl⟩
  · split
    · exact .inl ⟨_,rfl⟩
    · rename_i next hnext
      split
      · exact .inl ⟨_,rfl⟩
      · exact .inr ⟨next,hnext,rfl,fun _ => rfl,fun _ => rfl⟩

end Limits.Local
