import AiGateway.Gateway.Failover

/-! What one round of the failover loop can do, and where its selections come from. -/
namespace Gateway
open Machine Proxy Execution Catalog Retry NonStreamFailover

variable {σ ρ : Type}

/-- An attempt that the recorder has started. -/
structure Started (f : NonStreamFailover σ ρ) (l : Loop σ ρ) where
  store : ρ
  request : GatewayRequest
  attempt : RouteAttempt
  hstart : f.recorder.startAttempt l.store l.request l.selection.deploymentID =
    (store,.ok (request,attempt))

variable {f : NonStreamFailover σ ρ} {call : Call} {l : Loop σ ρ}
variable (call) in
def Started.tried (st : Started f l) : Tried σ :=
  f.attempt call l.world l.selection st.request.attemptCount

variable (call) in
def Started.entry (st : Started f l) (failure : Option Fault) (decision : Option Decision)
    (outcome : AttemptOutcome) (widened : Bool) : Entry σ :=
  ⟨l.selection,st.attempt,l.world,(st.tried call).answered,failure,decision,outcome,widened⟩

variable (call) in
/-- The entry of a failed attempt that is followed by another one. -/
def Started.retried (st : Started f l) (fault : Fault) (decision : Decision)
    (widened : Bool) : Entry σ :=
  st.entry call (some fault) (some decision) (retryOutcome fault (st.tried call).result) widened

/-- The deployments to exclude after this attempt. -/
def Loop.nextAttempted (l : Loop σ ρ) : List String :=
  if containsDeployment l.attempted l.selection.deploymentID then l.attempted
  else l.attempted ++ [l.selection.deploymentID]

variable (f call l) in
/-- The ways a round can go. -/
inductive Turn : Loop σ ρ ⊕ Finish σ ρ → Prop
  | unstarted {store : ρ} {cause : Fault}
      (hstart : f.recorder.startAttempt l.store l.request l.selection.deploymentID =
        (store,.error cause)) :
      Turn (.inr ⟨l.world,
        (f.recorder.failRequest store l.request .failed "attempt_record_unavailable").1,l.trace,
        .error (executionRecordPublicError cause)⟩)
  | succeeded (st : Started f l) {projected : ChatCompletionResponse} {store : ρ}
      {answer : Except Fault ChatCompletionResponse}
      (htried : (st.tried call).answer = .ok projected)
      (hcompl : completeRecordedAttempt f.recorder st.store st.request st.attempt
        (completedOutcome (st.tried call).result) (.ok projected) = (store,answer)) :
      Turn (.inr ⟨(st.tried call).world,store,
        l.trace ++ [st.entry call none none (completedOutcome (st.tried call).result) false],
        answer⟩)
  | failed (st : Started f l) {fault reason : Fault} {world : σ}
      {decision : Option Decision} {store : ρ}
      {answer : Except Fault ChatCompletionResponse}
      (htried : (st.tried call).answer = .error fault)
      (hcompl : completeRecordedAttempt f.recorder st.store st.request st.attempt
        (failedOutcomeWithKnownUsage fault (st.tried call).result) (.error reason) =
          (store,answer)) :
      Turn (.inr ⟨world,store,l.trace ++ [st.entry call (some fault) decision
        (failedOutcomeWithKnownUsage fault (st.tried call).result) false],answer⟩)
  | unrecorded (st : Started f l) {fault cause : Fault} {world : σ} {now : Time}
      {decision : Decision} {store : ρ} (htried : (st.tried call).answer = .error fault)
      (hdec : classify (f.classifyInput call fault st.request.attemptCount now) =
        some decision)
      (hretry : decision.action ≠ .noRetry)
      (hcompl : f.recorder.completeAttemptForRetry st.store st.request st.attempt
        (retryOutcome fault (st.tried call).result) = (store,.error cause)) :
      Turn (.inr ⟨world,store,l.trace ++ [st.retried call fault decision false],
        .error (executionRecordPublicError cause)⟩)
  | ended (st : Started f l) {fault answer : Fault} {world : σ} {now : Time}
      {decision : Decision} {store : ρ} {attempt : RouteAttempt} {status : RequestStatus}
      {reason : String} {widened : Bool} (htried : (st.tried call).answer = .error fault)
      (hdec : classify (f.classifyInput call fault st.request.attemptCount now) =
        some decision)
      (hretry : decision.action ≠ .noRetry)
      (hcompl : f.recorder.completeAttemptForRetry st.store st.request st.attempt
        (retryOutcome fault (st.tried call).result) = (store,.ok attempt))
      (hstat : status = .failed ∨ status = .cancelled) (hreason : reasonPattern reason) :
      Turn (.inr ⟨world,(f.recorder.failRequest store st.request status reason).1,
        l.trace ++ [st.retried call fault decision widened],.error answer⟩)
  | next (st : Started f l) {fault : Fault} {world world' : σ} {now : Time}
      {decision : Decision} {store : ρ} {attempt : RouteAttempt} {selection : Selection}
      {widened : Bool} (htried : (st.tried call).answer = .error fault)
      (hdec : classify (f.classifyInput call fault st.request.attemptCount now) =
        some decision)
      (hretry : decision.action ≠ .noRetry)
      (hcompl : f.recorder.completeAttemptForRetry st.store st.request st.attempt
        (retryOutcome fault (st.tried call).result) = (store,.ok attempt))
      (hselect : selectNext f.services world call.selectionRequest st.request l.nextAttempted
        decision = (world',.ok selection,widened)) :
      Turn (.inl ⟨world',store,st.request,selection,l.nextAttempted,
        l.trace ++ [st.retried call fault decision widened]⟩)

section
variable (recorder : Recorder ρ)
include recorder

/-- A recorded failure leaves what `FailRequest` leaves. -/
theorem failRecordedRequest_store (store : ρ) (request : GatewayRequest)
    (status : RequestStatus) (reason : String) (fault : Fault) :
    (failRecordedRequest recorder store request status reason fault).1 =
      (recorder.failRequest store request status reason).1 := by
  unfold failRecordedRequest
  split <;> simp_all

theorem failRetryRequest_store (parentError : Option Fault) (store : ρ)
    (request : GatewayRequest) (failure : Fault) :
    ∃ status reason, (status = .failed ∨ status = .cancelled) ∧ reasonPattern reason ∧
      (failRetryRequest recorder parentError store request failure).1 =
        (recorder.failRequest store request status reason).1 := by
  unfold failRetryRequest
  split
  · exact ⟨.cancelled,_,.inr rfl,by decide,failRecordedRequest_store ..⟩
  · exact ⟨.failed,_,.inl rfl,by decide,failRecordedRequest_store ..⟩

theorem failSelection_store (store : ρ) (request : GatewayRequest) (attemptErr fault : Fault) :
    ∃ reason, reasonPattern reason ∧ (failSelection recorder store request attemptErr fault).1 =
        (recorder.failRequest store request .failed reason).1 := by
  unfold failSelection
  split
  · exact ⟨_,by decide,rfl⟩
  · split
    · exact ⟨_,by decide,failRecordedRequest_store ..⟩
    · exact ⟨_,by decide,failRecordedRequest_store ..⟩

theorem finalizeRequestFailure_store (contextError : Option Fault)
    (store : ρ) (request : GatewayRequest) (publicError : Fault) :
    ∃ status reason, (status = .failed ∨ status = .cancelled) ∧ reasonPattern reason ∧
      (finalizeRequestFailure recorder contextError store request publicError).1 =
        (recorder.failRequest store request status reason).1 := by
  unfold finalizeRequestFailure
  refine ⟨_,_,?_,?_,failRecordedRequest_store ..⟩
  · split
    · exact .inr rfl
    · exact .inl rfl
  · split
    · decide
    · split <;> decide

end

theorem turn_afterFailure (st : Started f l) {fault : Fault}
    (htried : (st.tried call).answer = .error fault) :
    Turn f call l (f.afterFailure call
      { l with world := (st.tried call).world, store := st.store, request := st.request }
      st.attempt l.world (st.tried call) fault) := by
  unfold afterFailure
  simp only
  split
  · exact .failed st htried rfl
  · rename_i decision hdec
    split
    · exact .failed st htried rfl
    · rename_i world _
      split
      · exact .failed st htried rfl
      · rename_i hretry
        split
        · rename_i store cause hcompl
          rw [hdec]
          exact .unrecorded st htried hdec hretry hcompl
        · rename_i store attempt hcompl
          unfold proceed
          simp only
          split
          · obtain ⟨status,reason,hstat,hreason,hstore⟩ := failRetryRequest_store f.recorder
              (f.services.parentError _) store st.request _
            rw [hstore,hdec]
            exact .ended st htried hdec hretry hcompl hstat hreason
          · split
            · rename_i hselect
              rw [hdec]
              exact .next st htried hdec hretry hcompl hselect
            · obtain ⟨reason,hreason,hstore⟩ :=
                failSelection_store f.recorder store st.request fault _
              rw [hstore,hdec]
              exact .ended st htried hdec hretry hcompl (.inl rfl) hreason

variable (f call l) in
theorem turn_round : Turn f call l (f.round call l) := by
  unfold NonStreamFailover.round
  split
  · rename_i store cause hstart
    exact .unstarted hstart
  · rename_i store request attempt hstart
    simp only
    split
    · rename_i projected htried
      exact .succeeded ⟨store,request,attempt,hstart⟩ htried rfl
    · rename_i fault htried
      exact turn_afterFailure ⟨store,request,attempt,hstart⟩ htried

/-! The entries of a run. -/

def traceOf : Loop σ ρ ⊕ Finish σ ρ → List (Entry σ)
  | .inl l => l.trace
  | .inr finish => finish.trace

variable (call) in
/-- How a started attempt can be judged: the error and the outcome. -/
inductive Judged (st : Started f l) : Option Fault → AttemptOutcome → Prop
  | succeeded {projected : ChatCompletionResponse} (h : (st.tried call).answer = .ok projected) :
      Judged st none (completedOutcome (st.tried call).result)
  | failed {fault : Fault} (h : (st.tried call).answer = .error fault) :
      Judged st (some fault) (failedOutcomeWithKnownUsage fault (st.tried call).result)
  | retried {fault : Fault} (h : (st.tried call).answer = .error fault) :
      Judged st (some fault) (retryOutcome fault (st.tried call).result)

variable (f call) in
/-- An entry of some round. -/
def IsEntry (e : Entry σ) : Prop :=
  ∃ (l : Loop σ ρ) (st : Started f l) (failure : Option Fault) (decision : Option Decision)
    (outcome : AttemptOutcome) (widened : Bool), Judged call st failure outcome ∧
      e = st.entry call failure decision outcome widened

theorem trace_turn {r : Loop σ ρ ⊕ Finish σ ρ} (h : Turn f call l r) :
    traceOf r = l.trace ∨ ∃ e, IsEntry f call e ∧ traceOf r = l.trace ++ [e] := by
  cases h with
  | unstarted => exact .inl rfl
  | succeeded st htried => exact .inr ⟨_,⟨l,st,_,_,_,_,.succeeded htried,rfl⟩,rfl⟩
  | failed st htried => exact .inr ⟨_,⟨l,st,_,_,_,_,.failed htried,rfl⟩,rfl⟩
  | unrecorded st htried => exact .inr ⟨_,⟨l,st,_,_,_,_,.retried htried,rfl⟩,rfl⟩
  | ended st htried => exact .inr ⟨_,⟨l,st,_,_,_,_,.retried htried,rfl⟩,rfl⟩
  | next st htried => exact .inr ⟨_,⟨l,st,_,_,_,_,.retried htried,rfl⟩,rfl⟩

theorem isEntry_round (h : ∀ e ∈ l.trace, IsEntry f call e) :
    ∀ e ∈ traceOf (f.round call l), IsEntry f call e := by
  intro e he
  rcases trace_turn (turn_round f call l) with hsame | ⟨e',hentry,hgrown⟩
  · exact h e (hsame ▸ he)
  · rw [hgrown] at he
    rcases List.mem_append.mp he with he | he
    · exact h e he
    · rw [List.mem_singleton.mp he]
      exact hentry

theorem trace_enter {world : σ} {store : ρ} {recorded : GatewayRequest} {finish : Finish σ ρ}
    (h : f.enter call world store recorded = .inr finish) : finish.trace = [] := by
  unfold enter at h
  split at h
  · cases h
    rfl
  · split at h
    · cases h
    · split at h
      · cases h
        rfl
      · cases h
        rfl

theorem trace_enter_head {world : σ} {store : ρ} {recorded : GatewayRequest}
    (h : f.enter call world store recorded = .inl l) : l.trace = [] := by
  unfold enter at h
  split at h
  · cases h
  · split at h
    · cases h
      rfl
    · split at h <;> cases h

variable (f call) in
theorem execute_isEntry (world : σ) (store : ρ) (recorded : GatewayRequest) (n : ℕ) :
    ∀ e ∈ traceOf (f.execute call world store recorded n), IsEntry f call e := by
  unfold execute
  cases henter : f.enter call world store recorded with
  | inr finish => simp [traceOf,trace_enter henter]
  | inl l =>
    have hround (s : Loop σ ρ) (r : Loop σ ρ ⊕ Finish σ ρ)
        (hs : ∀ e ∈ s.trace, IsEntry f call e) (hr : f.round call s = r) :
        ∀ e ∈ traceOf r, IsEntry f call e := hr ▸ isEntry_round hs
    obtain ⟨hhead,hret⟩ := loop_invariant
      (fun s s' (hs : ∀ e ∈ s.trace, IsEntry f call e) => hround s (.inl s') hs)
      (fun s finish hs => hround s (.inr finish) hs) n
      (show ∀ e ∈ l.trace, IsEntry f call e by simp [trace_enter_head henter])
    cases hloop : loop (f.round call) n l with
    | inl l' => simpa [hloop] using hhead l' hloop
    | inr finish => simpa [hloop] using hret finish hloop

/-! Selections. -/

section Selection
variable {services : Services σ} {world world' : σ} {selection : Selection}

theorem selectAndRecordRoute_ok {requestID : String} {nextAttemptNo : ℕ}
    {request : SelectionRequest} {retryDecision : Option Decision}
    (h : selectAndRecordRoute services world requestID nextAttemptNo request retryDecision =
      (world',.ok selection)) :
    ∃ world'', services.select world request = (world'',.ok selection) := by
  unfold selectAndRecordRoute at h
  split at h
  · cases h
  · simp only at h
    split at h
    · cases h
    · obtain ⟨-,hsel⟩ := Prod.mk.inj h
      exact ⟨(services.select world request).1,Prod.ext rfl hsel⟩

variable {request : SelectionRequest} {recorded : GatewayRequest} {attempted : List String}
  {decision : Decision}

theorem selectNext_kept (h : selectNext services world request recorded attempted decision =
      (world',.ok selection,false)) :
    ∃ world'', services.select world { request with excludedDeploymentIDs := attempted } =
      (world'',.ok selection) := by
  unfold selectNext at h
  split at h
  · rename_i hsel
    split at h
    · cases h
    · cases h
      exact selectAndRecordRoute_ok hsel
  · split at h
    · cases h
    · simp at h

/-- The exclusions are dropped exactly where the selector has no candidate under them and the
decision allows every deployment. -/
theorem selectNext_widened : (selectNext services world request recorded attempted decision).2.2 ↔
      decision.action = .retryAllowed ∧ ∃ world' fault,
        selectAndRecordRoute services world recorded.id (recorded.attemptCount + 1)
          { request with excludedDeploymentIDs := attempted } (some decision) =
            (world',.error fault) ∧ fault.is .noCandidate := by
  unfold selectNext
  split
  · rename_i hsel
    refine iff_of_false (by split <;> simp) ?_
    simp [hsel]
  · rename_i hsel
    split
    · rename_i hfinal
      refine iff_of_false (by simp) ?_
      rintro ⟨haction,_,_,hfault,hnone⟩
      cases hsel.symm.trans hfault
      simp [haction,hnone] at hfinal
    · rename_i hfallback
      simp only [Bool.or_eq_true,decide_eq_true_eq,not_or,not_not,Bool.not_eq_true',
        Bool.not_eq_false] at hfallback
      exact iff_of_true rfl ⟨hfallback.2,_,_,hsel,hfallback.1⟩

theorem selectNext_select {widened : Bool}
    (h : selectNext services world request recorded attempted decision =
      (world',.ok selection,widened)) :
    ∃ world request world', services.select world request = (world',.ok selection) := by
  cases widened with
  | false =>
    obtain ⟨world'',hsel⟩ := selectNext_kept h
    exact ⟨_,_,_,hsel⟩
  | true =>
    unfold selectNext at h
    split at h
    · split at h <;> cases h
    · split at h
      · cases h
      · simp only [Prod.mk.injEq,and_true] at h
        obtain ⟨world'',hsel⟩ := selectAndRecordRoute_ok (Prod.ext rfl h.2)
        exact ⟨_,_,_,hsel⟩

end Selection
end Gateway
