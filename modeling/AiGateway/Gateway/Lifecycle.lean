import AiGateway.Gateway.Register

/-! The life of one request under failover, over records whose calls fail for no reason of their
own: attempts follow each other, each is completed once, and the request ends with them. -/
namespace Gateway
open Text Adapter Machine Proxy Execution Catalog List Register

/-- Calls in order from attempt `n` on: each started attempt is completed before anything else, with
an outcome its state allows, and one call ends the request. -/
inductive Orderly : ℕ → List RecordEvent → Prop
  | failed {n : ℕ} {status : RequestStatus} {reason : String} : Orderly n [.failed status reason]
  | completed {n : ℕ} {attempt : RouteAttempt} {outcome : AttemptOutcome}
      (hno : attempt.attemptNo = n) (hvalid : validateAttemptCompletion attempt outcome) :
      Orderly n [.started attempt,.completed attempt outcome]
  | retried {n : ℕ} {attempt : RouteAttempt} {outcome : AttemptOutcome} {log : List RecordEvent}
      (hno : attempt.attemptNo = n)
      (hvalid : validateRetryAttemptCompletion attempt outcome)
      (hlog : Orderly (n + 1) log) :
      Orderly n (.started attempt :: .retried attempt outcome :: log)

variable {σ : Type} {selection : Selection} {l' : Loop σ Register} {reason : String}

/-- What a finished call leaves: at most `limit` calls of the executor, attempts numbered from one,
an orderly log, no record left open, and an answer exactly where the last attempt succeeded. -/
structure Lifecycle (limit : ℤ) (finish : Finish σ Register) : Prop where
  bounded : (finish.trace.length : ℤ) ≤ limit
  numbered : finish.store.attempts.map (·.attemptNo) = range' 1 finish.trace.length
  orderly : Orderly 1 finish.store.log
  requestClosed : finish.store.request.status.terminal
  attemptsClosed : ∀ attempt ∈ finish.store.attempts, attempt.status.terminal
  answered : (∃ response, finish.answer = .ok response) ↔
    finish.store.request.status = .succeeded ∧ ∃ attempt outcome,
      finish.store.log.getLast? = some (.completed attempt outcome) ∧
        outcome.attemptStatus = .succeeded

/-- What is assumed of the surroundings: the recorder keeps these records, the arguments pass the
guard, the handle is the row of a routed request without attempts, the selector returns deployments
of the catalog, and the attempt IDs are UUIDs that do not repeat within the limit. -/
structure Handover (f : NonStreamFailover σ Register) (clock : ℕ → Time) (newID : ℕ → String)
    (call : Call) (recorded : GatewayRequest) : Prop where
  recorder : f.recorder = recorder clock newID
  options : f.options.validate = .ok ()
  guard : NonStreamFailover.guard call recorded
  handle : validateRequestHandle recorded [.routing]
  fresh : recorded.attemptCount = 0
  deployments : ∀ world request world' selection,
    f.services.select world request = (world',.ok selection) → isUUID selection.deploymentID
  attemptIDs : ∀ n, isUUID (newID n)
  distinct : ∀ i j : ℕ, i < j → (j : ℤ) < f.options.maximumAttempts → newID i ≠ newID j

variable (newID : ℕ → String) (limit : ℤ)

/-- The head of the loop. -/
structure Ready (l : Loop σ Register) : Prop where
  current : l.store.request = l.request
  handle : validateRequestHandle l.request [.routing,.running]
  count : l.trace.length = l.request.attemptCount
  bound : (l.request.attemptCount : ℤ) < limit
  numbers : l.store.attempts.map (·.attemptNo) = range' 1 l.request.attemptCount
  ids : l.store.attempts.map (·.id) = (range l.request.attemptCount).map newID
  closed : ∀ attempt ∈ l.store.attempts, attempt.status.terminal
  orderly : ∀ rest, Orderly (l.request.attemptCount + 1) rest → Orderly 1 (l.store.log ++ rest)
  selected : isUUID l.selection.deploymentID

/-- The records while an attempt is under way. -/
structure Running (l : Loop σ Register) (store : Register) (request : GatewayRequest)
    (attempt : RouteAttempt) : Prop where
  current : store.request = request
  handle : validateRequestHandle request [.running]
  counted : request.attemptCount = l.request.attemptCount + 1
  attempts : store.attempts = l.store.attempts ++ [attempt]
  fresh : ∀ row ∈ l.store.attempts, row.id ≠ attempt.id
  log : store.log = l.store.log ++ [.started attempt]
  connecting : validateAttemptHandle attempt .connecting
  attemptNo : attempt.attemptNo = l.request.attemptCount + 1
  requestID : attempt.requestID = request.id

variable {newID limit} {clock : ℕ → Time} {l : Loop σ Register}

theorem length_attempts (h : Ready newID limit l) :
    l.store.attempts.length = l.request.attemptCount := by
  have := congrArg length h.numbers
  simpa using this

theorem running_start (h : Ready newID limit l) (hids : ∀ n, isUUID (newID n))
    (hdist : ∀ i j : ℕ, i < j → (j : ℤ) < limit → newID i ≠ newID j) {store : Register}
    {request : GatewayRequest} {attempt : RouteAttempt}
    (hstart : startAttempt clock newID l.store l.request l.selection.deploymentID =
      (store,.ok (request,attempt))) :
    Running l store request attempt ∧ attempt.id = newID l.request.attemptCount := by
  have hlen := length_attempts h
  have hhandle := h.handle
  rw [← h.current] at hstart hhandle
  rw [startAttempt_ok hhandle h.selected] at hstart
  cases hstart
  simp only [validateRequestHandle,Bool.and_eq_true,decide_eq_true_eq] at hhandle
  have hid : (l.store.begun clock newID l.store.request l.selection.deploymentID).id =
      newID l.request.attemptCount := by
    rw [← hlen]
    rfl
  refine ⟨⟨rfl,?_,by rw [h.current]; rfl,rfl,?_,rfl,?_,by rw [h.current]; rfl,rfl⟩,hid⟩
  · simp [validateRequestHandle,GatewayRequest.counted,hhandle]
  · intro row hrow heq
    have hmem := mem_map_of_mem (f := (·.id)) hrow
    rw [h.ids,heq] at hmem
    obtain ⟨i,hi,hsame⟩ := mem_map.mp hmem
    rw [mem_range] at hi
    exact hdist i l.request.attemptCount hi h.bound (hsame.trans hid)
  · simp [validateAttemptHandle,begun,RouteAttempt.connected,RouteAttempt.created,
      hids,hhandle,h.selected]

variable {store : Register} {request : GatewayRequest} {attempt : RouteAttempt}
  {outcome : AttemptOutcome}

section
variable (h : Running l store request attempt)
include h

theorem Running.status : attempt.status = .connecting := by
  have := h.connecting
  simp only [validateAttemptHandle,Bool.and_eq_true,decide_eq_true_eq] at this
  exact this.2

theorem Running.completion (hvalid : outcome.validate) (hreq : outcome.requestStatus ≠ .running)
    (hatt : outcome.attemptStatus ≠ .partialFailed) :
    validateAttemptCompletion attempt outcome := by
  simp [validateAttemptCompletion,validateAttemptStateCompletion,hvalid,hreq,hatt,
    h.status,h.connecting]

theorem Running.retryCompletion (hvalid : outcome.validate)
    (hreq : outcome.requestStatus = .running) (hatt : outcome.attemptStatus = .retryableFailed) :
    validateRetryAttemptCompletion attempt outcome := by
  simp [validateRetryAttemptCompletion,validateAttemptStateCompletion,hvalid,hreq,hatt,
    h.status,h.connecting]

end

theorem validate_of_completion (h : validateAttemptCompletion attempt outcome) :
    outcome.validate ∧ outcome.requestStatus ≠ .running := by
  simp only [validateAttemptCompletion,Bool.and_eq_true,decide_eq_true_eq] at h
  exact h.1

theorem validate_of_retryCompletion (h : validateRetryAttemptCompletion attempt outcome) :
    outcome.validate := by
  simp only [validateRetryAttemptCompletion,Bool.and_eq_true] at h
  exact h.1.1.1

section
variable (h : Ready newID limit l)
include h

theorem numbers_completed (hr : Running l store request attempt)
    (summary : Option UsageSummary) (now : Time) :
    (l.store.attempts ++ [attempt.completed outcome summary now]).map (·.attemptNo) =
      range' 1 request.attemptCount := by
  rw [hr.counted,range'_concat,map_append,h.numbers]
  simp [hr.attemptNo,Nat.add_comm]

theorem closed_completed (hvalid : outcome.validate) (summary : Option UsageSummary) (now : Time) :
    ∀ row ∈ l.store.attempts ++ [attempt.completed outcome summary now],
      row.status.terminal := by
  intro row hrow
  rcases mem_append.mp hrow with hrow | hrow
  · exact h.closed row hrow
  · rw [mem_singleton.mp hrow,RouteAttempt.completed_status]
    exact (terminal_of_validate hvalid).1

theorem Ready.count_le (hr : Running l store request attempt) (e : Entry σ) :
    ((l.trace ++ [e]).length : ℤ) ≤ limit ∧ (l.trace ++ [e]).length = request.attemptCount := by
  have hbound := h.bound
  rw [length_append,h.count,hr.counted,length_singleton]
  exact ⟨by omega,rfl⟩

end

variable {world : σ} {e : Entry σ} {store' : Register}

/-- A round that ends with `CompleteAttempt`. -/
theorem lifecycle_completed (h : Ready newID limit l) (hr : Running l store request attempt)
    (hvalid : validateAttemptCompletion attempt outcome)
    {answer answer' : Except Fault ChatCompletionResponse}
    (hanswer : (∃ response, answer = .ok response) ↔ outcome.attemptStatus = .succeeded)
    (hcompl : completeRecordedAttempt (recorder clock newID) store request attempt
      outcome answer = (store',answer')) :
    Lifecycle limit ⟨world,store',l.trace ++ [e],answer'⟩ := by
  obtain ⟨houtcome,hrun⟩ := validate_of_completion hvalid
  have hhandle := hr.handle
  have hid := hr.requestID
  rw [← hr.current] at hcompl hhandle hid
  simp only [completeRecordedAttempt,recorder,
    completeAttempt_ok hr.attempts hr.fresh hid hhandle hvalid] at hcompl
  cases hcompl
  obtain ⟨hle,hlen⟩ := h.count_le hr e
  refine ⟨hle,?_,?_,?_,closed_completed h houtcome _ _,?_⟩
  · simp only [hlen]
    exact numbers_completed h hr _ _
  · show Orderly 1 (store.log ++ [.completed attempt outcome])
    rw [hr.log,append_assoc]
    exact h.orderly _ (.completed hr.attemptNo hvalid)
  · exact (terminal_of_validate houtcome).2 hrun
  · show (∃ response, answer = .ok response) ↔ outcome.requestStatus = .succeeded ∧ _
    rw [hanswer,succeeded_iff_of_validate houtcome]
    simp

theorem retried_eq (hr : Running l store request attempt)
    (hvalid : validateRetryAttemptCompletion attempt outcome) {result : Except Fault RouteAttempt}
    (hcompl : completeAttemptForRetry clock store request attempt outcome = (store',result)) :
    store' = ⟨request,l.store.attempts ++
        [attempt.completed outcome (outcome.usage.map usageSummary) (store.now clock)],
      l.store.log ++ [.started attempt,.retried attempt outcome]⟩ ∧
      ∃ row, result = .ok row := by
  have hhandle := hr.handle
  have hid := hr.requestID
  rw [← hr.current] at hcompl hhandle hid
  rw [completeAttemptForRetry_ok hr.attempts hr.fresh hid hhandle hvalid] at hcompl
  cases hcompl
  rw [hr.current,hr.log,append_assoc]
  exact ⟨rfl,_,rfl⟩

theorem validateRequestHandle_mono {allowed allowed' : List RequestStatus}
    (h : validateRequestHandle request allowed) (hsub : allowed ⊆ allowed') :
    validateRequestHandle request allowed' := by
  simp only [validateRequestHandle,Bool.and_eq_true,contains_iff_mem] at h ⊢
  exact ⟨h.1,hsub h.2⟩

section
variable (h : Ready newID limit l) (hr : Running l store request attempt)
  (hvalid : validateRetryAttemptCompletion attempt outcome)
include h hr hvalid

variable {row : RouteAttempt}

/-- A round that ends with `FailRequest` once the attempt is completed for a retry. -/
theorem lifecycle_ended {answer : Fault} {status : RequestStatus}
    (hstat : status = .failed ∨ status = .cancelled) (hreason : reasonPattern reason)
    (hcompl : completeAttemptForRetry clock store request attempt outcome = (store',.ok row)) :
    Lifecycle limit ⟨world,(failRequest clock store' request status reason).1,
      l.trace ++ [e],.error answer⟩ := by
  obtain ⟨rfl,-⟩ := retried_eq hr hvalid hcompl
  have hhandle : validateRequestHandle request [.authorized,.routing,.running] :=
    validateRequestHandle_mono hr.handle (by simp)
  rw [failRequest_ok (r := ⟨request,_,_⟩) hhandle hstat hreason]
  obtain ⟨hle,hlen⟩ := h.count_le hr e
  refine ⟨hle,?_,?_,?_,closed_completed h (validate_of_retryCompletion hvalid) _ _,?_⟩
  · simp only [hlen]
    exact numbers_completed h hr _ _
  · show Orderly 1 (_ ++ [.failed status reason])
    rw [append_assoc]
    exact h.orderly _ (.retried hr.attemptNo hvalid .failed)
  · show status.terminal
    rcases hstat with rfl | rfl <;> rfl
  · show (∃ response, (.error answer : Except Fault ChatCompletionResponse) = .ok response) ↔
      status = .succeeded ∧ _
    rcases hstat with rfl | rfl <;> simp

theorem ready_next {attempted : List String} (hbound : (request.attemptCount : ℤ) < limit)
    (hid : attempt.id = newID l.request.attemptCount) (hsel : isUUID selection.deploymentID)
    (hcompl : completeAttemptForRetry clock store request attempt outcome = (store',.ok row)) :
    Ready newID limit ⟨world,store',request,selection,attempted,l.trace ++ [e]⟩ := by
  obtain ⟨rfl,-⟩ := retried_eq hr hvalid hcompl
  refine ⟨rfl,?_,(h.count_le hr e).2,hbound,numbers_completed h hr _ _,?_,
    closed_completed h (validate_of_retryCompletion hvalid) _ _,?_,hsel⟩
  · exact validateRequestHandle_mono hr.handle (by simp)
  · rw [hr.counted,range_succ,map_append,map_append,h.ids]
    simp [hid]
  · intro rest hrest
    show Orderly 1 ((l.store.log ++ [.started attempt,.retried attempt outcome]) ++ rest)
    rw [append_assoc]
    apply h.orderly
    exact .retried hr.attemptNo hvalid (by rwa [← hr.counted])

end

variable {f : NonStreamFailover σ Register} {call : Call} {recorded : GatewayRequest}

theorem running_started (hand : Handover f clock newID call recorded)
    (h : Ready newID f.options.maximumAttempts l) (st : Started f l) :
    Running l st.store st.request st.attempt ∧ st.attempt.id = newID l.request.attemptCount := by
  have hstart := st.hstart
  rw [hand.recorder] at hstart
  exact running_start h hand.attemptIDs hand.distinct hstart

theorem validate_of_tried {attemptCount : ℕ} {projected : ChatCompletionResponse}
    (h : (f.attempt call world selection attemptCount).answer = .ok projected) :
    (f.attempt call world selection attemptCount).result.validate = .ok () := by
  unfold NonStreamFailover.attempt at h ⊢
  simp only at h ⊢
  split at h
  · cases h
  · exact validate_of_projectChatCompletion h

section
variable (hr : Running l store request attempt) (fault : Fault) (result : NormalizedResponse)
include hr fault result

theorem retry_outcome : validateRetryAttemptCompletion attempt (retryOutcome fault result) :=
  hr.retryCompletion (retryOutcome_validate fault result) rfl rfl

theorem failed_outcome :
    validateAttemptCompletion attempt (failedOutcomeWithKnownUsage fault result) ∧
      (failedOutcomeWithKnownUsage fault result).attemptStatus ≠ .succeeded := by
  have hfailing := failing_knownUsage fault result
  rcases hfailing.status with ⟨hatt,hreq,-⟩ | ⟨hatt | hatt,hreq⟩
  all_goals
    refine ⟨hr.completion hfailing.validate ?_ ?_,?_⟩
    · simp [hreq]
    · simp [hatt]
    · simp [hatt]

end

section
variable (hand : Handover f clock newID call recorded)
include hand

theorem ready_round (h : Ready newID f.options.maximumAttempts l)
    (hround : f.round call l = .inl l') : Ready newID f.options.maximumAttempts l' ∧
      l'.request.attemptCount = l.request.attemptCount + 1 := by
  have hturn := turn_round f call l
  rw [hround] at hturn
  cases hturn with
  | next st htried hdec hretry hcompl hselect =>
    obtain ⟨hr,hid⟩ := running_started hand h st
    rw [hand.recorder] at hcompl
    obtain ⟨_,_,_,hsel⟩ := selectNext_select hselect
    exact ⟨ready_next h hr (retry_outcome hr _ _)
      (Retry.classify_attemptNumber hdec hretry) hid (hand.deployments _ _ _ _ hsel)
      hcompl,hr.counted⟩

variable {finish : Finish σ Register}

theorem lifecycle_round
    (h : Ready newID f.options.maximumAttempts l) (hround : f.round call l = .inr finish) :
    Lifecycle f.options.maximumAttempts finish := by
  have hturn := turn_round f call l
  rw [hround] at hturn
  cases hturn with
  | unstarted hstart =>
    have hhandle := h.handle
    rw [← h.current] at hstart hhandle
    rw [hand.recorder] at hstart
    rw [show (recorder clock newID).startAttempt = startAttempt clock newID
      from rfl,startAttempt_ok hhandle h.selected] at hstart
    cases hstart
  | succeeded st htried hcompl =>
    obtain ⟨hr,-⟩ := running_started hand h st
    rw [hand.recorder] at hcompl
    have hvalid := completedOutcome_validate (validate_of_tried htried)
    exact lifecycle_completed h hr
      (hr.completion hvalid (by simp [completedOutcome]) (by simp [completedOutcome]))
      (by simp [completedOutcome]) hcompl
  | failed st htried hcompl =>
    obtain ⟨hr,-⟩ := running_started hand h st
    rw [hand.recorder] at hcompl
    obtain ⟨hvalid,hstat⟩ := failed_outcome hr _ _
    exact lifecycle_completed h hr hvalid (by simp [hstat]) hcompl
  | unrecorded st htried hdec hretry hcompl =>
    obtain ⟨hr,-⟩ := running_started hand h st
    rw [hand.recorder] at hcompl
    obtain ⟨-,row,hrow⟩ := retried_eq hr (retry_outcome hr _ _) hcompl
    cases hrow
  | ended st htried hdec hretry hcompl hstat hreason =>
    obtain ⟨hr,-⟩ := running_started hand h st
    rw [hand.recorder] at hcompl ⊢
    exact lifecycle_ended h hr (retry_outcome hr _ _) hstat hreason hcompl

theorem Handover.limit_pos : 1 ≤ f.options.maximumAttempts := by
  have hall := firstFailure_eq_ok.mp hand.options
  simp only [FailoverOptions.checks,forall_mem_cons,Bool.or_eq_false_iff,
    decide_eq_false_iff_not,not_lt] at hall
  exact hall.1.1

theorem ready_enter (h : f.enter call world ⟨recorded,[],[]⟩ recorded = .inl l) :
    Ready newID f.options.maximumAttempts l ∧ l.request.attemptCount = 0 := by
  unfold NonStreamFailover.enter at h
  simp only [hand.guard,Bool.not_true,Bool.false_eq_true,if_false] at h
  split at h
  · rename_i selection hsel
    cases h
    obtain ⟨world',hselect⟩ := selectAndRecordRoute_ok hsel
    have hpos := hand.limit_pos
    refine ⟨⟨rfl,?_,hand.fresh.symm,?_,?_,?_,by simp,?_,
      hand.deployments _ _ _ _ hselect⟩,hand.fresh⟩
    · exact validateRequestHandle_mono hand.handle (by simp)
    · rw [hand.fresh]
      omega
    · simp [hand.fresh]
    · simp [hand.fresh]
    · intro rest hrest
      rwa [hand.fresh] at hrest
  · split at h <;> cases h

theorem lifecycle_unselected {status : RequestStatus} {answer : Fault}
    (hstat : status = .failed ∨ status = .cancelled) (hreason : reasonPattern reason) :
    Lifecycle f.options.maximumAttempts ⟨world,
      (f.recorder.failRequest ⟨recorded,[],[]⟩ recorded status reason).1,[],.error answer⟩ := by
  have hhandle : validateRequestHandle recorded [.authorized,.routing,.running] :=
    validateRequestHandle_mono hand.handle (by simp)
  have hpos := hand.limit_pos
  rw [hand.recorder,show (recorder clock newID).failRequest = failRequest clock
    from rfl,failRequest_ok (r := ⟨recorded,[],[]⟩) hhandle hstat hreason]
  refine ⟨by simp; omega,rfl,.failed,?_,by simp,?_⟩
  · show status.terminal
    rcases hstat with rfl | rfl <;> rfl
  · show (∃ response, (.error answer : Except Fault ChatCompletionResponse) = .ok response) ↔
      status = .succeeded ∧ _
    rcases hstat with rfl | rfl <;> simp

theorem lifecycle_enter (h : f.enter call world ⟨recorded,[],[]⟩ recorded = .inr finish) :
    Lifecycle f.options.maximumAttempts finish := by
  unfold NonStreamFailover.enter at h
  simp only [hand.guard,Bool.not_true,Bool.false_eq_true,if_false] at h
  split at h
  · cases h
  · split at h
    · cases h
      exact lifecycle_unselected hand (.inl rfl) (by decide)
    · cases h
      obtain ⟨status,reason,hstat,hreason,hstore⟩ := finalizeRequestFailure_store f.recorder
        (f.services.contextError _) ⟨recorded,[],[]⟩ recorded (routeSelectionPublicError _)
      rw [hstore]
      exact lifecycle_unselected hand hstat hreason

end

/-- The attempts still allowed after the one that this round starts. -/
def remaining (limit : ℤ) (l : Loop σ Register) : ℕ := limit.toNat - 1 - l.request.attemptCount

theorem remaining_round (hand : Handover f clock newID call recorded)
    (h : Ready newID f.options.maximumAttempts l) (hround : f.round call l = .inl l') :
    Ready newID f.options.maximumAttempts l' ∧
      remaining f.options.maximumAttempts l' < remaining f.options.maximumAttempts l := by
  obtain ⟨hready,hcount⟩ := ready_round hand h hround
  have hbound := hready.bound
  refine ⟨hready,?_⟩
  unfold remaining
  omega

/-- Whatever the selector, the executor, the estimator, the waiter, the clock and the decision
recorder do, `Execute` returns within the limit and leaves closed records. -/
theorem execute_lifecycle (hand : Handover f clock newID call recorded) (world : σ) :
    ∃ finish, f.execute call world ⟨recorded,[],[]⟩ recorded f.options.maximumAttempts.toNat =
      .inr finish ∧ Lifecycle f.options.maximumAttempts finish := by
  unfold NonStreamFailover.execute
  cases henter : f.enter call world ⟨recorded,[],[]⟩ recorded with
  | inr finish => exact ⟨finish,rfl,lifecycle_enter hand henter⟩
  | inl l =>
    obtain ⟨hready,hcount⟩ := ready_enter hand henter
    have hpos := hand.limit_pos
    apply loop_returns (fun s s' hs => remaining_round hand hs)
      (fun s finish hs => lifecycle_round hand hs) hready
    unfold remaining
    omega

theorem sampleHandover : Handover (sampleFailover 3) (fun _ => 1000) sampleAttemptID sampleCall
    sampleRecorded where
  recorder := rfl
  options := by decide
  guard := by decide
  handle := by decide
  fresh := rfl
  deployments world request world' selection h := by
    simp only [sampleFailover,sampleServices] at h
    split at h
    · cases h
      decide
    · split at h
      · cases h
        decide
      · cases h
  attemptIDs n := by
    have hdigit : ∀ d < 10, isUUID ("70000000-0000-4000-8000-00000000000" ++
      toString d) := by
      decide
    exact hdigit (n % 10) (Nat.mod_lt n (by decide))
  distinct i j hij hj := by
    have hall : ∀ j < 3, ∀ i < j, sampleAttemptID i ≠ sampleAttemptID j := by decide
    exact hall j (by simpa [sampleFailover] using hj) i hij

theorem sampleFailover_lifecycle :
    ∃ finish, (sampleFailover 3).execute sampleCall 0 ⟨sampleRecorded,[],[]⟩ sampleRecorded 3 =
      .inr finish ∧ Lifecycle 3 finish := execute_lifecycle sampleHandover 0

end Gateway
