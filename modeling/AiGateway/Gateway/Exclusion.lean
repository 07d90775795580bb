import AiGateway.Gateway.Register

/-! Deployments that must not be tried again: what a run of the loop keeps once an attempt was
classified `different_deployment_only`, and how dropping the exclusions loses it. -/
namespace Gateway
open Machine Execution List

variable {σ ρ : Type}

def Entry.deploymentID (e : Entry σ) : String := e.selection.deploymentID

/-- The attempt's failure allows only another deployment. -/
def Entry.barred (e : Entry σ) : Bool :=
  decide (e.decision.map (·.action) = some .differentDeploymentOnly)

/-- No attempt is on a deployment that an earlier attempt barred. -/
def Separated (trace : List (Entry σ)) : Prop :=
  trace.Pairwise fun e e' => e.barred = true → e'.deploymentID ≠ e.deploymentID

/-- Once an attempt barred its deployment, the exclusions are not dropped any more. -/
def Sheltered (trace : List (Entry σ)) : Prop :=
  trace.Pairwise fun e e' => e.barred = true → e'.widened = false

/-- The selector returns no deployment that it was asked to exclude. -/
def Honours (services : Services σ) : Prop :=
  ∀ world request world' selection, services.select world request = (world',.ok selection) →
    selection.deploymentID ∉ request.excludedDeploymentIDs

variable {l : Loop σ ρ}

theorem mem_nextAttempted {d : String} :
    d ∈ l.nextAttempted ↔ d ∈ l.attempted ∨ d = l.selection.deploymentID := by
  unfold Loop.nextAttempted containsDeployment
  split
  · rename_i hmem
    constructor
    · exact .inl
    · intro h
      rcases h with h | rfl
      · exact h
      · simpa using hmem
  · simp

/-- What holds at the head of the loop: every tried deployment is on the list of exclusions, and as
long as these were kept no barred one was tried again or is about to be. -/
structure Excluding (l : Loop σ ρ) : Prop where
  attempted : ∀ e ∈ l.trace, e.deploymentID ∈ l.attempted
  separated : Sheltered l.trace → Separated l.trace
  selection : Sheltered l.trace → ∀ e ∈ l.trace, e.barred →
    l.selection.deploymentID ≠ e.deploymentID

section Append
variable {trace : List (Entry σ)} {e : Entry σ}

theorem sheltered_append (h : Sheltered (trace ++ [e])) :
    Sheltered trace ∧ ∀ e' ∈ trace, e'.barred → e.widened = false := by
  obtain ⟨htrace,-,hlast⟩ := pairwise_append.mp h
  exact ⟨htrace,fun e' he' => hlast e' he' e mem_cons_self⟩

theorem separated_append (h : Separated trace)
    (hlast : ∀ e' ∈ trace, e'.barred → e.deploymentID ≠ e'.deploymentID) :
    Separated (trace ++ [e]) := by
  apply pairwise_append.mpr
  refine ⟨h,pairwise_singleton _ _,?_⟩
  intro e' he' e'' he'' hbarred
  rw [mem_singleton.mp he'']
  exact hlast e' he' hbarred

theorem Excluding.separated_round {l : Loop σ ρ} (h : Excluding l)
    (he : e.deploymentID = l.selection.deploymentID) (hshelt : Sheltered (l.trace ++ [e])) :
    Separated (l.trace ++ [e]) := by
  obtain ⟨htrace,-⟩ := sheltered_append hshelt
  apply separated_append (h.separated htrace)
  rw [he]
  exact h.selection htrace

end Append

variable {f : NonStreamFailover σ ρ} {call : Call}

theorem excluding_round (hselector : Honours f.services) {l l' : Loop σ ρ} (h : Excluding l)
    (hround : f.round call l = .inl l') : Excluding l' := by
  have hturn := turn_round f call l
  rw [hround] at hturn
  cases hturn with
  | next st htried hdec hretry hcompl hselect =>
    rename_i fault world world' now decision store attempt selection widened
    refine ⟨?_,h.separated_round rfl,?_⟩
    · intro e he
      apply mem_nextAttempted.mpr
      rcases mem_append.mp he with he | he
      · exact .inl (h.attempted e he)
      · rw [mem_singleton.mp he]
        exact .inr rfl
    · intro hshelt e he hbarred
      obtain ⟨-,hkept⟩ := sheltered_append hshelt
      cases widened with
      | false =>
        obtain ⟨world'',hsel⟩ := selectNext_kept hselect
        have hexcl := hselector _ _ _ _ hsel
        rintro heq
        apply hexcl
        apply mem_nextAttempted.mpr
        rcases mem_append.mp he with he | he
        · left
          rw [heq]
          exact h.attempted e he
        · right
          rw [heq,mem_singleton.mp he]
          rfl
      | true =>
        rcases mem_append.mp he with he | he
        · have := hkept e he hbarred
          cases this
        · obtain ⟨haction,-⟩ := selectNext_widened.mp (congrArg (·.2.2) hselect)
          rw [mem_singleton.mp he] at hbarred
          simp [Entry.barred,Started.retried,Started.entry,haction] at hbarred

theorem excluding_finish {finish : Finish σ ρ} (h : Excluding l)
    (hround : f.round call l = .inr finish) : Sheltered finish.trace → Separated finish.trace := by
  have hturn := turn_round f call l
  rw [hround] at hturn
  cases hturn with
  | unstarted => exact h.separated
  | succeeded => exact h.separated_round rfl
  | failed => exact h.separated_round rfl
  | unrecorded => exact h.separated_round rfl
  | ended => exact h.separated_round rfl

theorem excluding_enter {world : σ} {store : ρ} {recorded : GatewayRequest}
    (h : f.enter call world store recorded = .inl l) : Excluding l := by
  unfold NonStreamFailover.enter at h
  split at h
  · cases h
  · split at h
    · cases h
      exact ⟨by simp,fun _ => Pairwise.nil,by simp⟩
    · split at h <;> cases h

/-- Whatever the executor, the recorder, the waiter and the clock do: as long as the exclusions are
not dropped after an attempt that barred its deployment, no later attempt is on it. -/
theorem execute_separated (f : NonStreamFailover σ ρ) (call : Call) (hselector : Honours f.services)
    (world : σ) (store : ρ) (recorded : GatewayRequest) (n : ℕ)
    (hshelt : Sheltered (traceOf (f.execute call world store recorded n))) :
    Separated (traceOf (f.execute call world store recorded n)) := by
  unfold NonStreamFailover.execute at hshelt ⊢
  cases henter : f.enter call world store recorded with
  | inr finish =>
    simp only [traceOf]
    rw [trace_enter henter]
    exact Pairwise.nil
  | inl l =>
    obtain ⟨hhead,hret⟩ := loop_invariant
      (fun s s' (hs : Excluding s) => excluding_round hselector hs)
      (fun s finish hs => excluding_finish hs) n (excluding_enter henter)
    simp only [henter] at hshelt ⊢
    cases hloop : loop (f.round call) n l with
    | inl l' =>
      rw [hloop] at hshelt
      exact (hhead l' hloop).separated hshelt
    | inr finish =>
      rw [hloop] at hshelt
      exact hret finish hloop hshelt

/-! Two deployments that fail one after the other. -/

def sampleRun (maximumAttempts : ℤ) (n : ℕ) : List (Entry ℕ) :=
  traceOf ((sampleFailover maximumAttempts).execute sampleCall 0 ⟨sampleRecorded,[],[]⟩
    sampleRecorded n)

theorem sampleServices_honours : Honours sampleServices := by
  intro world request world' selection h
  simp only [sampleServices] at h
  split at h
  · rename_i hfirst
    cases h
    show sampleFirst ∉ request.excludedDeploymentIDs
    simpa using hfirst
  · split at h
    · rename_i hsecond
      cases h
      show sampleSecond ∉ request.excludedDeploymentIDs
      simpa using hsecond
    · cases h

/-- With two attempts the first deployment is left for good. -/
theorem sampleRun_separated : Sheltered (sampleRun 2 2) ∧ Separated (sampleRun 2 2) :=
  have hshelt : Sheltered (sampleRun 2 2) := by
    unfold Sheltered
    decide +kernel
  ⟨hshelt,execute_separated _ sampleCall sampleServices_honours 0 _ sampleRecorded 2
    hshelt⟩

/-- With three attempts the exclusions are dropped after the second one, and the deployment whose
failure allowed only another one is tried again. -/
theorem sampleRun_repeats : Honours sampleServices ∧
    (sampleRun 3 3).map (fun e => (e.deploymentID,e.barred,e.widened)) =
      [(sampleFirst,true,false),(sampleSecond,false,true),(sampleFirst,false,false)] ∧
    ¬ Separated (sampleRun 3 3) := by
  refine ⟨sampleServices_honours,?_⟩
  unfold Separated
  decide +kernel

end Gateway
