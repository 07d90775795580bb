import AiGateway.Execution.Statements

/-! The usage side of a completion: the events of an outcome, their rows in the outbox, and the
attempt's own update. -/
namespace Execution
open Machine Adapter Metering Relational AttemptStatus List

/-- The positive counts of a stored summary. -/
def UsageSummary.positives (summary : UsageSummary) : List (TokenType × ℤ) :=
  [(TokenType.input,summary.inputTokens),(.output,summary.outputTokens),
    (.cacheRead,summary.cacheReadTokens),(.cacheWrite,summary.cacheWriteTokens),
    (.reasoning,summary.reasoningTokens),(.audioInput,summary.audioInputTokens),
    (.audioOutput,summary.audioOutputTokens)].filterMap fun d =>
      (d.2.filter fun n => 0 < n).map fun n => (d.1,n)

theorem positives_usageSummary (usage : NormalizedUsage) :
    (usageSummary usage).positives = positives (dimensions usage) := by
  show ((dimensions usage).map fun d => (d.1,tokenValue d.2)).filterMap _ = _
  rw [filterMap_map]
  apply filterMap_congr
  intro d _
  cases hpresent : d.2.present with
  | false => simp [tokenValue,hpresent]
  | true =>
    by_cases hpos : 0 < d.2.value
    · simp [tokenValue,hpresent,hpos]
    · simp [tokenValue,hpresent,hpos,not_lt.mp hpos]

/-- The columns of an attempt that only its beginning and its end write. -/
structure AttemptFacts where
  (id requestID : String)
  attemptNo : ℕ
  deploymentID : String
  usageSummary : Option UsageSummary

def RouteAttempt.facts (a : RouteAttempt) : AttemptFacts :=
  ⟨a.id,a.requestID,a.attemptNo,a.deploymentID,a.usageSummary⟩

def AttemptFacts.charged (summary : Option UsageSummary) (f : AttemptFacts) : AttemptFacts :=
  { f with usageSummary := summary }

/-- What the events of one completion share. -/
def eventIdentity (request : GatewayRequest) (attempt : RouteAttempt) (observedAt : Time) :
    UsageIdentity :=
  ⟨request.tenantID,request.id,attempt.id,attempt.deploymentID,request.traceID,request.spanID,
    observedAt⟩

/-- Events of one usage: they differ in the ID, the dimension and the quantity. -/
def Uniform (identity : UsageIdentity) (usage : NormalizedUsage) (kind : UsageEventKind)
    (events : List UsageEvent) : Prop :=
  ∀ e ∈ events, e = usageEvent identity usage kind e.eventID e.tokenType e.quantity

namespace Database

/-- The requests with their counts. -/
def counts (db : Database) : List (String × ℕ) := db.requests.map fun r => (r.id,r.attemptCount)

def facts (db : Database) : List AttemptFacts := db.attempts.map RouteAttempt.facts

variable {stamp : Time → Time} {db db' : Database} {request : GatewayRequest}
  {attempt : RouteAttempt} {outcome : AttemptOutcome} {now : Time} {random : Random}
  {events : List UsageEvent}

theorem usageEvents_none :
    usageEvents request attempt none now random = .ok events ↔ events = [] := by
  show Except.ok [] = .ok events ↔ events = []
  rw [Except.ok.injEq,eq_comm]

variable {usage : NormalizedUsage}

theorem usageEvents_some : usageEvents request attempt (some usage) now random = .ok events ↔
      (eventIdentity request attempt now).validate ∧ usage.validate = .ok () ∧
        ∃ kind, gatewayUsageKind usage.source = some kind ∧
          collectEvents (eventIdentity request attempt now) usage kind (newUUID random) 0
            (dimensions usage) = .ok events := by
  have hnew : usageEvents request attempt (some usage) now random = .ok events ↔
      newUsageEvents (eventIdentity request attempt now) (newUUID random) (some usage) =
        .ok events := by
    unfold usageEvents eventIdentity
    split
    · rename_i heq
      simp [heq]
    · rename_i heq
      simp [heq]
    · rename_i heq
      simp [heq]
  rw [hnew]
  simp only [newUsageEvents]
  by_cases hrefused :
      (!(eventIdentity request attempt now).validate || !passes usage.validate)
  · rw [if_pos hrefused]
    simp only [reduceCtorEq,false_iff]
    intro h
    simp [h.1,h.2.1,passes] at hrefused
  · rw [if_neg hrefused]
    simp only [Bool.or_eq_true,Bool.not_eq_true',not_or,Bool.not_eq_false,passes_iff] at hrefused
    cases gatewayUsageKind usage.source with
    | none => simp
    | some kind => simp [hrefused]

/-- The rows of events that one usage gave. -/
def storedRows (events : List UsageEvent) (storedAt : Time) : List OutboxRow :=
  events.map fun e => OutboxRow.inserted e storedAt

variable {identity : UsageIdentity} {kind : UsageEventKind}

section
variable (huniform : Uniform identity usage kind events)
include huniform

/-- The facts that the insert takes from the first event are those of every event. -/
theorem insertUsageEvents_eq_ok (hne : events ≠ []) :
    db.insertUsageEvents stamp events = .ok db' ↔ (∀ e ∈ events, e.validate) ∧
        (∃ deployment, db.deployments.find? (fun d => d.id = identity.deploymentID) =
            some deployment ∧ (usage.source = .estimated →
              ∃ metadata, usage.estimate = some metadata ∧
                estimateMatches deployment metadata)) ∧
        db.insertOutbox (storedRows events (stamp identity.observedAt)) = .ok db' := by
  cases events with
  | nil => exact absurd rfl hne
  | cons first rest =>
    have hfirst := huniform first mem_cons_self
    have hrows : ((first :: rest).map fun e => OutboxRow.inserted
        { first with
          eventID := e.eventID, tokenType := e.tokenType, billingUnit := e.billingUnit
          quantity := e.quantity } (stamp first.observedAt)) =
        storedRows (first :: rest) (stamp identity.observedAt) := by
      apply map_congr_left
      intro e he
      rw [huniform e he,hfirst]
      rfl
    have hallow : ∀ deployment, insertAllowed first deployment ↔
        (usage.source = .estimated → ∃ metadata, usage.estimate = some metadata ∧
          estimateMatches deployment metadata) := by
      intro deployment
      rw [hfirst]
      by_cases hsrc : usage.source = .estimated
      · cases hest : usage.estimate <;> simp [insertAllowed,usageEvent,hsrc,hest]
      · simp [insertAllowed,usageEvent,hsrc]
    have hdep : first.deploymentID = identity.deploymentID := by rw [hfirst]; rfl
    simp only [insertUsageEvents]
    rw [hrows,hdep]
    simp only [← hallow,← all_eq_true]
    cases (first :: rest).all (·.validate) with
    | false => simp
    | true =>
      cases db.deployments.find? fun d => d.id = identity.deploymentID with
      | none => simp
      | some deployment => cases hins : insertAllowed first deployment <;> simp [hins]

theorem insertUsageEvents_ok (h : db.insertUsageEvents stamp events = .ok db') :
    db' = { db with outbox := db.outbox ++ storedRows events (stamp identity.observedAt) } ∧
      (events = [] ∨ db.outboxKeys (storedRows events (stamp identity.observedAt))) := by
  cases events with
  | nil =>
    cases h
    simp [storedRows]
  | cons first rest =>
    have hins := ((insertUsageEvents_eq_ok huniform (cons_ne_nil first rest)).mp h).2.2
    obtain ⟨⟨hkeys,-⟩,hres⟩ := insertOutbox_eq_ok.mp hins
    exact ⟨hres,.inr hkeys⟩

end

/-- One event for each positive count of the summary that the attempt keeps. -/
theorem usageEvents_spec {usage : Option NormalizedUsage}
    (h : usageEvents request attempt usage now random = .ok events) : events = [] ∧ usage = none ∨
      ∃ u kind, usage = some u ∧ u.validate = .ok () ∧ gatewayUsageKind u.source = some kind ∧
        Uniform (eventIdentity request attempt now) u kind events ∧
        events.map (fun e => (e.tokenType,e.quantity)) = (usageSummary u).positives := by
  cases usage with
  | none => exact .inl ⟨usageEvents_none.mp h,rfl⟩
  | some u =>
    obtain ⟨-,husage,kind,hkind,hcollect⟩ := usageEvents_some.mp h
    obtain ⟨hfacts,-,hall⟩ := collectEvents_spec hcollect
    refine .inr ⟨u,kind,rfl,husage,hkind,fun e he => (hall e he).2,?_⟩
    rw [hfacts,positives_usageSummary]

/-! The attempt's update. -/

theorem headed_documented (h : attempt.headersFirst outcome) :
    attempt.status.documented .headersReceived := by
  simp only [RouteAttempt.headersFirst,Bool.and_eq_true,decide_eq_true_eq] at h
  rw [h.1]
  decide

theorem ended_documented (hvalid : outcome.validate)
    (hstate : validateAttemptStateCompletion attempt outcome) :
    (if attempt.headersFirst outcome then headersReceived
      else attempt.status).documented outcome.attemptStatus := by
  simp only [AttemptOutcome.validate,Bool.and_eq_true] at hvalid
  have hstat := hvalid.1.2
  unfold validateAttemptStateCompletion at hstate
  unfold RouteAttempt.headersFirst
  split at hstate
  · rename_i hconn
    simp only [Bool.and_eq_true,decide_eq_true_eq] at hstate
    cases houtcome : outcome.attemptStatus <;> cases hhdrs : outcome.headersReceived <;>
      simp_all [AttemptOutcome.statusValid,documented]
  · rename_i hstreaming
    simp only [Bool.and_eq_true] at hstate
    simp only [hstreaming,reduceCtorEq,decide_false,Bool.false_and,Bool.false_eq_true,if_false]
    exact hstate.1.2
  · cases hstate

theorem usageSummary_none {a : RouteAttempt} (h : a.Check) (hstat : a.status.terminal = false) :
    a.usageSummary = none := by
  have hlife := h.lifecycle
  unfold RouteAttempt.lifecycleValid at hlife
  cases ha : a.status <;> simp_all [terminal]

variable {summary : Option UsageSummary}

/-- The statement that ends an attempt: a running attempt gets its summary. -/
theorem endAttempt_ok (hdb : db.Tables stamp) {current ended : RouteAttempt}
    (hmove : current.status.documented outcome.attemptStatus)
    (h : db.updateAttempt current.id (attemptCurrent request current)
      (·.ended outcome summary (stamp now)) = .ok (db',ended)) :
    db'.Tables stamp ∧ db'.requests = db.requests ∧ db'.outbox = db.outbox ∧
      db'.deployments = db.deployments ∧
      db'.facts = update (·.id) current.id (AttemptFacts.charged summary) db.facts ∧
      ∃ f ∈ db.facts, f.id = current.id ∧ f.usageSummary = none := by
  have htables : db'.Tables stamp := by
    apply hdb.updateAttempt h
    · intro row hrow
      simp only [attemptCurrent,Bool.and_eq_true,decide_eq_true_eq] at hrow
      rw [hrow.1.2]
      exact hmove
    · exact fun _ => ⟨now,rfl⟩
  obtain ⟨row,hfind,⟨hcond,-,-⟩,hres⟩ := updateAttempt_eq_ok.mp h
  cases hres
  obtain ⟨hrow,hid⟩ := (find?_eq_some hdb.attempts.keys).mp hfind
  simp only [attemptCurrent,Bool.and_eq_true,decide_eq_true_eq] at hcond
  have hopen : row.usageSummary = none := by
    apply usageSummary_none (hdb.attemptChecks row hrow).1
    rw [hcond.1.2]
    exact terminal_of_documented hmove
  refine ⟨htables,rfl,rfl,rfl,?_,row.facts,mem_map_of_mem hrow,hid,hopen⟩
  exact map_update_comm (fun _ => rfl) fun _ => rfl

/-- What completing an attempt does to its table, with or without `headers_received` on the way. -/
theorem completeAttemptInTransaction_ok (hdb : db.Tables stamp)
    {completed : RouteAttempt} (hvalid : outcome.validate)
    (hstate : validateAttemptStateCompletion attempt outcome)
    (h : db.completeAttemptInTransaction stamp request attempt outcome summary now =
      .ok (db',completed)) :
    db'.Tables stamp ∧ db'.requests = db.requests ∧ db'.outbox = db.outbox ∧
      db'.deployments = db.deployments ∧
      db'.facts = update (·.id) attempt.id (AttemptFacts.charged summary) db.facts ∧
      ∃ f ∈ db.facts, f.id = attempt.id ∧ f.usageSummary = none := by
  have hmove := ended_documented hvalid hstate
  unfold completeAttemptInTransaction at h
  split_ifs at h hmove with hhdrs
  · obtain ⟨⟨middle,current⟩,hfirst,hlast⟩ := bind_eq_ok.mp h
    have hmiddle : middle.Tables stamp := by
      apply hdb.updateAttempt hfirst
      · intro row hrow
        simp only [attemptCurrent,Bool.and_eq_true,decide_eq_true_eq] at hrow
        rw [hrow.1.2]
        exact headed_documented hhdrs
      · exact fun _ => ⟨now,rfl⟩
    obtain ⟨row,hfind,-,hres⟩ := updateAttempt_eq_ok.mp hfirst
    cases hres
    have hid : row.id = attempt.id := by simpa using find?_some hfind
    obtain ⟨htables,hreqs,houtbox,hdeps,hfacts,f,hf,hfid,hopen⟩ :=
      endAttempt_ok hmiddle hmove hlast
    have hkept : (update (·.id) attempt.id
        (·.headed outcome.providerRequestID (stamp now)) db.attempts).map RouteAttempt.facts =
        db.facts := map_update fun _ => rfl
    refine ⟨htables,hreqs,houtbox,hdeps,?_,?_⟩
    · rw [hfacts,← hkept,← hid]
      rfl
    · rw [← hkept]
      exact ⟨f,hf,hfid.trans hid,hopen⟩
  · exact endAttempt_ok hdb hmove h

variable (stamp db request attempt outcome now random events) in
/-- The part that the two completions share: the attempt ends and its usage goes to the outbox. -/
structure Charged (middle : Database) (completed : RouteAttempt) (db' : Database) : Prop where
  valid : outcome.validate
  state : validateAttemptStateCompletion attempt outcome
  observed : usageEvents request attempt outcome.usage now random = .ok events
  ended : db.completeAttemptInTransaction stamp request attempt outcome
    (outcome.usage.map usageSummary) now = .ok (middle,completed)
  inserted : middle.insertUsageEvents stamp events = .ok db'

variable {middle : Database} {row : GatewayRequest} {completed : RouteAttempt}

theorem completeAttemptForRetry_eq_ok :
    db.completeAttemptForRetry stamp request attempt outcome now random = .ok (db',completed) ↔
      (validateRequestHandle request [.running] && validateRetryAttemptCompletion attempt outcome &&
        attempt.requestID = request.id) ∧
      ∃ events middle,
        Charged stamp db request attempt outcome now random events middle completed db' := by
  refine guard_eq_ok.trans (and_congr_right fun hguard => ?_)
  simp only [validateRetryAttemptCompletion,Bool.and_eq_true] at hguard
  obtain ⟨⟨-,⟨⟨hvalid,-⟩,-⟩,hstate⟩,-⟩ := hguard
  rw [marshalUsageSummary_ok hvalid]
  constructor
  · intro h
    obtain ⟨_,⟨⟩,h⟩ := bind_eq_ok.mp h
    obtain ⟨events,hevents,h⟩ := bind_eq_ok.mp h
    obtain ⟨⟨middle,_⟩,hended,h⟩ := bind_eq_ok.mp h
    obtain ⟨charged,hchg,h⟩ := bind_eq_ok.mp h
    cases h
    exact ⟨events,middle,hvalid,hstate,hevents,hended,hchg⟩
  · rintro ⟨events,middle,h⟩
    exact bind_eq_ok.mpr ⟨_,rfl,bind_eq_ok.mpr ⟨_,h.observed,bind_eq_ok.mpr ⟨_,h.ended,
      bind_eq_ok.mpr ⟨_,h.inserted,rfl⟩⟩⟩⟩

theorem completeAttempt_eq_ok :
    db.completeAttempt stamp request attempt outcome now random = .ok (db',row,completed) ↔
      (validateRequestHandle request [.running] && validateAttemptCompletion attempt outcome &&
        attempt.requestID = request.id) ∧
      ∃ events middle charged,
        Charged stamp db request attempt outcome now random events middle completed charged ∧
        charged.updateRequest request.id
          (fun row => row.status = .running && row.version = request.version)
          (·.ended outcome.requestStatus outcome.endReason (stamp now)) = .ok (db',row) := by
  refine guard_eq_ok.trans (and_congr_right fun hguard => ?_)
  simp only [validateAttemptCompletion,Bool.and_eq_true] at hguard
  obtain ⟨⟨-,⟨hvalid,-⟩,hstate⟩,-⟩ := hguard
  rw [marshalUsageSummary_ok hvalid]
  constructor
  · intro h
    obtain ⟨_,⟨⟩,h⟩ := bind_eq_ok.mp h
    obtain ⟨events,hevents,h⟩ := bind_eq_ok.mp h
    obtain ⟨⟨middle,_⟩,hended,h⟩ := bind_eq_ok.mp h
    obtain ⟨charged,hchg,h⟩ := bind_eq_ok.mp h
    obtain ⟨_,hfinal,h⟩ := bind_eq_ok.mp h
    cases h
    exact ⟨events,middle,charged,⟨hvalid,hstate,hevents,hended,hchg⟩,hfinal⟩
  · rintro ⟨events,middle,charged,h,hfinal⟩
    exact bind_eq_ok.mpr ⟨_,rfl,bind_eq_ok.mpr ⟨_,h.observed,bind_eq_ok.mpr ⟨_,h.ended,
      bind_eq_ok.mpr ⟨_,h.inserted,bind_eq_ok.mpr ⟨_,hfinal,rfl⟩⟩⟩⟩⟩

end Database
end Execution
