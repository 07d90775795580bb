import AiGateway.Execution.Records
import Mathlib.Data.Int.ConditionallyCompleteOrder

/-! Which completions of a current attempt commit. -/
namespace Execution
open Text Machine Adapter Metering Relational List AttemptOutcome RouteAttempt Bool

theorem reason_ne {s : String} (h : reasonPattern s) : s ≠ "" := by
  rintro rfl
  revert h
  decide

theorem errorCode_ne {s : String} (h : errorCodePattern s) : s ≠ "" := by
  rintro rfl
  revert h
  decide

theorem errors_of_validate {outcome : AttemptOutcome} (h : outcome.validate) :
    if outcome.attemptStatus = .succeeded then
      outcome.errorCategory = "" ∧ outcome.errorCode = ""
    else
      reasonPattern outcome.errorCategory ∧ errorCodePattern outcome.errorCode := by
  simp only [validate,and_eq_true] at h
  have hstat := h.1.2
  have hcancelled : reasonPattern "cancelled" := by decide
  cases houtcome : outcome.attemptStatus <;> simp_all [statusValid,classified]

section Rows
variable {attempt row : RouteAttempt} {request : GatewayRequest} {outcome : AttemptOutcome}
  {t : Time}

theorem headed_check {providerRequestID : String} (hcheck : attempt.Check)
    (hconn : attempt.status = .connecting) (htime : attempt.updatedAt ≤ t)
    (hprovider : providerRequestID = "" ∨ identifierPattern providerRequestID) :
    AttemptTransition attempt (attempt.headed providerRequestID t) ∧
      (attempt.headed providerRequestID t).Check := by
  have hlife := hcheck.lifecycle
  simp only [lifecycleValid,hconn] at hlife
  obtain ⟨-,hbyte,hend,hreason,-,hcat,hcode,hsummary⟩ := hlife
  have hstart : attempt.startedAt ≤ t := le_trans hcheck.timestamps.updatedAt htime
  refine ⟨⟨rfl,rfl,rfl,rfl,rfl,rfl,htime,?_⟩,?_⟩
  · rw [hconn]
    rfl
  · refine ⟨hcheck.attemptNo,hcheck.endReason,hprovider,hcheck.errorCategory,hcheck.errorCode,
      ?_,?_,Nat.succ_pos _⟩
    · constructor <;> simp [headed,notBefore,hbyte,hend,hstart]
    · simp [lifecycleValid,headed,hend,hreason,hcat,hcode,hsummary]

theorem ended_check (summary : Option UsageSummary) (hcheck : row.Check)
    (hopen : row.endedAt = none ∧ row.firstByteAt = none) (htime : row.updatedAt ≤ t)
    (hhdrs : ∀ h, row.headersReceivedAt = some h → h ≤ t)
    (hsucc : outcome.attemptStatus = .succeeded → row.headersReceivedAt.isSome)
    (hvalid : outcome.validate) (hmove : row.status.documented outcome.attemptStatus) :
    AttemptTransition row (row.ended outcome summary t) ∧ (row.ended outcome summary t).Check := by
  have hterm := (terminal_of_validate hvalid).1
  have herrors := errors_of_validate hvalid
  simp only [validate,and_eq_true,or_eq_true,decide_eq_true_eq] at hvalid
  obtain ⟨⟨⟨hreason,hprovider⟩,-⟩,-⟩ := hvalid
  have hstart : row.startedAt ≤ t := le_trans hcheck.timestamps.updatedAt htime
  have hends : ∀ s, s ≤ t → notBefore s (some t) := by
    intro s hs
    simpa [notBefore] using hs
  refine ⟨⟨rfl,rfl,rfl,rfl,rfl,rfl,htime,AttemptStatus.leadsTo_of_documented hmove⟩,
    hcheck.attemptNo,.inr hreason,?_,?_,?_,?_,?_,Nat.succ_pos _⟩
  · show (if row.providerRequestID = "" then outcome.providerRequestID
      else row.providerRequestID) = "" ∨ identifierPattern (if row.providerRequestID = "" then
        outcome.providerRequestID else row.providerRequestID)
    split_ifs
    · exact hprovider.imp_right And.right
    · exact hcheck.providerRequestID
  · split_ifs at herrors
    · exact .inl herrors.1
    · exact .inr herrors.1
  · split_ifs at herrors
    · exact .inl herrors.2
    · exact .inr herrors.2
  · refine ⟨hstart,hcheck.timestamps.headersReceivedAt,hcheck.timestamps.firstByteAt,
      hends _ hstart,hcheck.timestamps.headersFirst,hends _ ?_,hends _ ?_⟩
    · show row.headersReceivedAt.getD row.startedAt ≤ t
      cases hreceived : row.headersReceivedAt with
      | none => exact hstart
      | some h => exact hhdrs h hreceived
    · show row.firstByteAt.getD row.startedAt ≤ t
      rw [hopen.2]
      exact hstart
  · have hne := reason_ne hreason
    show lifecycleValid _
    unfold lifecycleValid
    cases houtcome : outcome.attemptStatus <;>
      simp_all [ended,AttemptStatus.terminal,reason_ne,errorCode_ne]

theorem request_ended_check {status : RequestStatus} {reason : String} (hcheck : request.Check)
    (hrun : request.status = .running) (htime : request.updatedAt ≤ t)
    (hstat : status.terminal) (hreason : reasonPattern reason) :
    RequestTransition request (request.ended status reason t) ∧
      (request.ended status reason t).Check := by
  have hleads : RequestStatus.running.leadsTo status := by
    revert hstat
    cases status <;> decide
  have hstart : request.startedAt ≤ t := le_trans hcheck.updateTime htime
  refine ⟨⟨rfl,rfl,rfl,rfl,rfl,rfl,rfl,rfl,rfl,htime,⟨le_rfl,Nat.le_succ _⟩,?_,?_⟩,
    hcheck.id,hcheck.traceID,hcheck.spanID,.inr hreason,?_,Nat.succ_pos _,hstart⟩
  · exact fun h => absurd h (lt_irrefl _)
  · rw [hrun]
    exact hleads
  · simp [GatewayRequest.lifecycleValid,GatewayRequest.ended,hstat,hstart,reason_ne hreason]

end Rows
namespace Database
variable {stamp : Time → Time} {db db' : Database} {request : GatewayRequest}
  {attempt : RouteAttempt} {outcome : AttemptOutcome} {now : Time} {random : Random}
  {events : List UsageEvent}
variable (db request attempt now) in
/-- The handles are the stored rows of an attempt under way, and the clock is not behind them. -/
structure Current : Prop where
  stored : request ∈ db.requests
  running : request.status = .running
  underWay : attempt ∈ db.attempts
  connecting : attempt.status = .connecting
  owner : attempt.requestID = request.id
  requestTime : request.updatedAt ≤ now
  attemptTime : attempt.updatedAt ≤ now

/-- A stored time that the clock has reached is reached at stored precision. -/
theorem le_stamp (hstamp : Monotone stamp) (hidem : ∀ t, stamp (stamp t) = stamp t) {s : Time}
    (hs : ∃ t, s = stamp t) (hnow : s ≤ now) : s ≤ stamp now := by
  obtain ⟨t,rfl⟩ := hs
  rw [← hidem t]
  exact hstamp hnow

theorem updateAttempt_commits (hdb : db.Tables stamp) {row : RouteAttempt}
    (hrow : row ∈ db.attempts)
    (cond : RouteAttempt → Bool) (set : RouteAttempt → RouteAttempt) (hcond : cond row)
    (hset : AttemptTransition row (set row) ∧ (set row).Check) :
    ∃ db', db.updateAttempt row.id cond set = .ok (db',set row) ∧ set row ∈ db'.attempts := by
  have hfind : db.attempts.find? (fun a => a.id = row.id) = some row :=
    (find?_eq_some hdb.attempts.keys).mpr ⟨hrow,rfl⟩
  exact ⟨_,updateAttempt_eq_ok.mpr ⟨row,hfind,⟨hcond,hset⟩,rfl⟩,
    mem_update.mpr (.inr ⟨row,hrow,rfl,rfl⟩)⟩

theorem attemptCurrent_self (howner : attempt.requestID = request.id) :
    attemptCurrent request attempt attempt := by
  simp [attemptCurrent,howner]

theorem completeAttemptInTransaction_commits (hdb : db.Tables stamp) (summary : Option UsageSummary)
    (hatt : attempt ∈ db.attempts) (hconn : attempt.status = .connecting)
    (howner : attempt.requestID = request.id) (htime : attempt.updatedAt ≤ stamp now)
    (hvalid : outcome.validate) (hstate : validateAttemptStateCompletion attempt outcome) :
    ∃ middle completed, db.completeAttemptInTransaction stamp request attempt outcome summary now =
        .ok (middle,completed) ∧
      ∃ a ∈ middle.attempts, a.requestID = request.id ∧ a.id = attempt.id ∧
        a.deploymentID = attempt.deploymentID := by
  have hcheck := (hdb.attemptChecks attempt hatt).1
  have hlife := hcheck.lifecycle
  simp only [lifecycleValid,hconn] at hlife
  have hmove := ended_documented hvalid hstate
  have hprovider : outcome.providerRequestID = "" ∨
      identifierPattern outcome.providerRequestID := by
    simp only [validate,and_eq_true,or_eq_true,decide_eq_true_eq] at hvalid
    exact hvalid.1.1.2.imp_right And.right
  unfold completeAttemptInTransaction
  split_ifs at hmove ⊢ with hhdrs
  · have hset := headed_check hcheck hconn htime hprovider
    obtain ⟨middle,hfirst,hmem⟩ := updateAttempt_commits hdb hatt
      (attemptCurrent request attempt) (·.headed outcome.providerRequestID (stamp now))
      (attemptCurrent_self howner) hset
    have hmiddle : middle.Tables stamp := by
      apply hdb.updateAttempt hfirst
      · intro row hrow
        simp only [attemptCurrent,and_eq_true,decide_eq_true_eq] at hrow
        rw [hrow.1.2]
        exact headed_documented hhdrs
      · exact fun _ => ⟨now,rfl⟩
    obtain ⟨final,hlast,hfinal⟩ := updateAttempt_commits hmiddle hmem
      (attemptCurrent request (attempt.headed outcome.providerRequestID (stamp now)))
      (·.ended outcome summary (stamp now)) (attemptCurrent_self howner)
      (ended_check summary hset.2 ⟨hlife.2.2.1,hlife.2.1⟩ le_rfl
        (fun h hh => (Option.some.inj hh).ge) (fun _ => rfl) hvalid hmove)
    exact ⟨final,_,bind_eq_ok.mpr ⟨_,hfirst,hlast⟩,_,hfinal,howner,rfl,rfl⟩
  · have hsucc : outcome.attemptStatus = .succeeded → attempt.headersReceivedAt.isSome := by
      intro hsucc
      rw [hsucc,hconn] at hmove
      cases hmove
    obtain ⟨final,hlast,hfinal⟩ := updateAttempt_commits hdb hatt
      (attemptCurrent request attempt) (·.ended outcome summary (stamp now))
      (attemptCurrent_self howner)
      (ended_check summary hcheck ⟨hlife.2.2.1,hlife.2.1⟩ htime
        (fun h hh => by rw [hlife.1] at hh; cases hh) hsucc hvalid hmove)
    exact ⟨final,_,hlast,_,hfinal,howner,rfl,rfl⟩

/-- The random source gives the event IDs, and they are new. -/
structure FreshIDs (db : Database) (random : Random) : Prop where
  given : ∀ i < 7, ∃ id, newUUID random i = some id ∧ ∀ row ∈ db.outbox, row.event.eventID ≠ id
  distinct : ∀ i < 7, ∀ j < 7, newUUID random i = newUUID random j → i = j

theorem isUUID_newUUID {n : ℕ} {id : String} (h : newUUID random n = some id) : isUUID id := by
  obtain ⟨raw,-,rfl⟩ := Option.map_eq_some_iff.mp h
  exact isUUID_uuidOfBytes raw

theorem eventIdentity_validate (hdb : db.Tables stamp) (hreq : request ∈ db.requests)
    (hstate : validateAttemptStateCompletion attempt outcome) (hclock : now ≠ zeroTime) :
    (eventIdentity request attempt now).validate := by
  obtain ⟨hcheck,htenant,-⟩ := hdb.requestChecks request hreq
  have hhandle : isUUID attempt.id ∧ isUUID attempt.deploymentID := by
    unfold validateAttemptStateCompletion at hstate
    split at hstate
    · simp only [validateAttemptHandle,and_eq_true] at hstate
      exact ⟨hstate.1.1.1.1.1.1,hstate.1.1.1.1.2⟩
    · simp only [validateAttemptHandle,and_eq_true] at hstate
      exact ⟨hstate.1.1.1.1.1.1.1.1.1.1,hstate.1.1.1.1.1.1.1.1.2⟩
    · cases hstate
  simp only [eventIdentity,UsageIdentity.validate,htenant,hhandle,Bool.and_eq_true,Bool.true_and]
  exact ⟨⟨⟨⟨⟨hcheck.id,trivial⟩,trivial⟩,hcheck.traceID⟩,hcheck.spanID⟩,decide_eq_true hclock⟩

variable {usage : NormalizedUsage}

theorem usageEvents_commits (hident : (eventIdentity request attempt now).validate)
    (husage : usage.validate = .ok ()) (hsrc : usage.source = .provider ∨ usage.source = .estimated)
    (hcounts : ∀ d ∈ dimensions usage, d.2.present → d.2.value ≤ maximumExactInteger)
    (hids : db.FreshIDs random) :
    ∃ events, usageEvents request attempt (some usage) now random = .ok events := by
  obtain ⟨kind,hkind⟩ : ∃ kind, gatewayUsageKind usage.source = some kind := by
    rcases hsrc with hsrc | hsrc <;> simp [hsrc,gatewayUsageKind]
  have hnn : ∀ d ∈ dimensions usage, 0 ≤ d.2.value := by
    have hall := (NormalizedUsage.valid_of_validate husage).nonneg
      (by rcases hsrc with hsrc | hsrc <;> simp [hsrc])
    simpa [dimensions,NormalizedUsage.counts] using hall
  obtain ⟨events,hevents⟩ := collectEvents_ok (i := 0)
    (fun d hd hpresent => ⟨hnn d hd,hcounts d hd hpresent⟩) fun j hj => by
      obtain ⟨id,hid,-⟩ := hids.given j (by simpa [dimensions] using hj)
      exact ⟨id,hid,fun d hd hleast hmost => usageEvent_validate hident husage hkind
        (isUUID_newUUID hid) ((dimensions_types usage).2 d hd) hleast hmost⟩
  exact ⟨events,usageEvents_some.mpr ⟨hident,husage,kind,hkind,hevents⟩⟩

/-- The new rows repeat no key: their IDs are new, and their attempt has no rows yet. -/
theorem storedRows_keys (hdb : db.Consistent stamp) {kind : UsageEventKind}
    (storedAt : Time) (hatt : attempt ∈ db.attempts) (hopen : attempt.usageSummary = none)
    (hids : db.FreshIDs random)
    (hevents : collectEvents (eventIdentity request attempt now) usage kind (newUUID random) 0
      (dimensions usage) = .ok events) :
    ((db.outbox ++ storedRows events storedAt).map (·.event.eventID)).Nodup ∧
      ((db.outbox ++ storedRows events storedAt).map outboxKey).Nodup := by
  obtain ⟨hfacts,hordered,hall⟩ := collectEvents_spec hevents
  have hlen : events.length ≤ 7 := by
    rw [← length_map (f := fun e : UsageEvent => (e.tokenType,e.quantity)),hfacts]
    exact length_filterMap_le _ _
  have hread : ∀ e ∈ events, ∃ i < 7, newUUID random i = some e.eventID := by
    intro e he
    have hmem : some e.eventID ∈ (range' 0 events.length).map (newUUID random) :=
      hordered ▸ mem_map_of_mem (f := fun e : UsageEvent => some e.eventID) he
    obtain ⟨i,hi,hid⟩ := mem_map.mp hmem
    rw [mem_range'_1] at hi
    exact ⟨i,by omega,hid⟩
  have hnone : db.outbox.filter (fun row => row.event.attemptID = attempt.id) = [] := by
    have hchg := hdb.books.charged attempt.facts (mem_map_of_mem hatt)
    rw [show attempt.facts.usageSummary = none from hopen] at hchg
    exact map_eq_nil_iff.mp hchg
  constructor
  · have hrows : (storedRows events storedAt).map (·.event.eventID) = events.map (·.eventID) :=
      map_map
    rw [map_append,hrows,nodup_append]
    refine ⟨hdb.books.keys.1,?_,?_⟩
    · have hsome : ((events.map (·.eventID)).map some).Nodup := by
        rw [map_map]
        show (events.map fun e => some e.eventID).Nodup
        rw [hordered]
        apply Nodup.map_on _ (nodup_range' ..)
        intro i hi j hj hij
        rw [mem_range'_1] at hi hj
        exact hids.distinct i (by omega) j (by omega) hij
      exact hsome.of_map
    · intro id hid id' hid'
      obtain ⟨row,hrow,rfl⟩ := mem_map.mp hid
      obtain ⟨e,he,rfl⟩ := mem_map.mp hid'
      obtain ⟨i,hi,hsome⟩ := hread e he
      obtain ⟨fresh,hfresh,hnew⟩ := hids.given i hi
      rw [hsome] at hfresh
      cases hfresh
      exact hnew row hrow
  · rw [map_append,nodup_append]
    refine ⟨hdb.books.keys.2,?_,?_⟩
    · have htypes : ((storedRows events storedAt).map outboxKey).map (fun k => k.2.2.1) =
          (positives (dimensions usage)).map (·.1) := by
        rw [← hfacts,storedRows,map_map,map_map,map_map]
        rfl
      exact Nodup.of_map _ (htypes ▸ positives_types usage)
    · intro key hkey key' hkey' heq
      obtain ⟨row,hrow,rfl⟩ := mem_map.mp hkey
      obtain ⟨row',hrow',rfl⟩ := mem_map.mp hkey'
      obtain ⟨e,he,rfl⟩ := mem_map.mp hrow'
      have hid : row.event.attemptID = e.attemptID := congrArg (fun k => k.2.1) heq
      rw [(hall e he).2] at hid
      have hmem : row ∈ db.outbox.filter fun row => row.event.attemptID = attempt.id :=
        mem_filter.mpr ⟨hrow,decide_eq_true hid⟩
      rw [hnone] at hmem
      cases hmem

variable (db attempt outcome) in
/-- The usage can be recorded: every count is an exact integer, and the live row of the deployment
is still the one that an estimate was made for. -/
def Recordable : Prop :=
  ∀ usage, outcome.usage = some usage →
    (∀ d ∈ dimensions usage, d.2.present → d.2.value ≤ maximumExactInteger) ∧
      (usage.source = .estimated → positives (dimensions usage) ≠ [] →
        ∃ d ∈ db.deployments, d.id = attempt.deploymentID ∧
          ∃ metadata, usage.estimate = some metadata ∧ estimateMatches d metadata)

theorem insertUsageEvents_commits (hdb : db.Consistent stamp) {middle : Database}
    (hreq : request ∈ db.requests) (hatt : attempt ∈ db.attempts)
    (hopen : attempt.usageSummary = none) (hids : db.FreshIDs random)
    (hreqs : middle.requests = db.requests) (houtbox : middle.outbox = db.outbox)
    (hdeps : middle.deployments = db.deployments)
    (hcompleted : ∃ a ∈ middle.attempts, a.requestID = request.id ∧ a.id = attempt.id ∧
      a.deploymentID = attempt.deploymentID)
    (hevents : usageEvents request attempt (some usage) now random = .ok events)
    (hdep : usage.source = .estimated → positives (dimensions usage) ≠ [] →
      ∃ d ∈ db.deployments, d.id = attempt.deploymentID ∧
        ∃ metadata, usage.estimate = some metadata ∧ estimateMatches d metadata) :
    ∃ charged, middle.insertUsageEvents stamp events = .ok charged := by
  obtain ⟨-,-,kind,-,hcollect⟩ := usageEvents_some.mp hevents
  obtain ⟨hfacts,-,hall⟩ := collectEvents_spec hcollect
  have huniform : Uniform (eventIdentity request attempt now) usage kind events :=
    fun e he => (hall e he).2
  by_cases hne : events = []
  · rw [hne]
    exact ⟨middle,rfl⟩
  · have hpos : positives (dimensions usage) ≠ [] := by
      rw [← hfacts]
      simpa using hne
    obtain ⟨d,hd,hid⟩ := (hdb.tables.attemptChecks attempt hatt).2.1
    have hlive : ∃ deployment, middle.deployments.find? (fun d => d.id = attempt.deploymentID) =
        some deployment ∧ (usage.source = .estimated → ∃ metadata, usage.estimate = some metadata ∧
          estimateMatches deployment metadata) := by
      rw [hdeps]
      refine ⟨d,(find?_eq_some hdb.tables.deployments).mpr ⟨hd,hid⟩,?_⟩
      intro hsrc
      obtain ⟨d',hd',hid',hmatches⟩ := hdep hsrc hpos
      rw [inj_on_of_nodup_map hdb.tables.deployments hd hd' (hid.trans hid'.symm)]
      exact hmatches
    have hkeys := storedRows_keys hdb (stamp now) hatt hopen hids hcollect
    have hrefs : ∀ row ∈ storedRows events (stamp now),
        (∃ r ∈ middle.requests, r.tenantID = row.event.tenantID ∧ r.id = row.event.requestID) ∧
          ∃ a ∈ middle.attempts, a.requestID = row.event.requestID ∧ a.id = row.event.attemptID ∧
            a.deploymentID = row.event.deploymentID := by
      intro row hrow
      obtain ⟨e,he,rfl⟩ := mem_map.mp hrow
      rw [(hall e he).2]
      exact ⟨⟨request,hreqs ▸ hreq,rfl,rfl⟩,hcompleted⟩
    have hchecks : ∀ row ∈ storedRows events (stamp now), row.checks := by
      intro row hrow
      obtain ⟨e,he,rfl⟩ := mem_map.mp hrow
      rw [OutboxRow.checks,factsValid_of_validate (hall e he).1,relayValid_inserted]
      rfl
    refine ⟨_,(insertUsageEvents_eq_ok huniform hne).mpr
      ⟨fun e he => (hall e he).1,hlive,insertOutbox_eq_ok.mpr ⟨⟨?_,hchecks⟩,rfl⟩⟩⟩
    exact ⟨houtbox ▸ hkeys.1,houtbox ▸ hkeys.2,hrefs⟩

/-- The part that the two completions share commits where the usage can be recorded. -/
theorem charge_commits (hdb : db.Consistent stamp) (hcur : db.Current request attempt now)
    (htime : attempt.updatedAt ≤ stamp now) (hclock : now ≠ zeroTime) (hids : db.FreshIDs random)
    (hsrc : ∀ usage, outcome.usage = some usage →
      usage.source = .provider ∨ usage.source = .estimated)
    (hvalid : outcome.validate) (hstate : validateAttemptStateCompletion attempt outcome)
    (hrecordable : db.Recordable attempt outcome) : ∃ events middle completed charged,
      Charged stamp db request attempt outcome now random events middle completed charged := by
  obtain ⟨middle,completed,hcomplete,hcompleted⟩ := completeAttemptInTransaction_commits
    hdb.tables (outcome.usage.map usageSummary) hcur.underWay hcur.connecting
    hcur.owner htime hvalid hstate
  obtain ⟨-,hreqs,houtbox,hdeps,-⟩ :=
    completeAttemptInTransaction_ok hdb.tables hvalid hstate hcomplete
  have hopen : attempt.usageSummary = none := by
    apply usageSummary_none (hdb.tables.attemptChecks attempt hcur.underWay).1
    rw [hcur.connecting]
    rfl
  have hchg : ∃ events, usageEvents request attempt outcome.usage now random = .ok events ∧
      ∃ charged, middle.insertUsageEvents stamp events = .ok charged := by
    cases husage : outcome.usage with
    | none => exact ⟨[],usageEvents_none.mpr rfl,middle,rfl⟩
    | some usage =>
      obtain ⟨hcounts,hdep⟩ := hrecordable usage husage
      have hok : usage.validate = .ok () := by
        simp only [validate,husage,Option.map_some,Option.getD_some,
          and_eq_true,passes_iff] at hvalid
        exact hvalid.2
      obtain ⟨events,hevents⟩ := usageEvents_commits
        (eventIdentity_validate hdb.tables hcur.stored hstate hclock) hok
        (hsrc usage husage) hcounts hids
      exact ⟨events,hevents,insertUsageEvents_commits hdb hcur.stored hcur.underWay hopen
        hids hreqs houtbox hdeps hcompleted hevents hdep⟩
  obtain ⟨events,hevents,charged,hins⟩ := hchg
  exact ⟨events,middle,completed,charged,hvalid,hstate,hevents,hcomplete,hins⟩

theorem updateRequest_commits (hdb : db.Tables stamp) (hreq : request ∈ db.requests)
    (cond : GatewayRequest → Bool) (set : GatewayRequest → GatewayRequest) (hcond : cond request)
    (hset : RequestTransition request (set request) ∧ (set request).Check) :
    ∃ db', db.updateRequest request.id cond set = .ok (db',set request) := by
  have hfind : db.requests.find? (fun r => r.id = request.id) = some request :=
    (find?_eq_some hdb.requests.keys).mpr ⟨hreq,rfl⟩
  exact ⟨_,updateRequest_eq_ok.mpr ⟨request,hfind,⟨hcond,hset⟩,rfl⟩⟩

section Charged
variable {middle charged : Database} {completed : RouteAttempt} (hdb : db.Consistent stamp)
  (hchg : Charged stamp db request attempt outcome now random events middle completed charged)
include hdb hchg

theorem recordable_of_charge : db.Recordable attempt outcome := by
  obtain ⟨hvalid,hstate,hevents,hcomplete,hins⟩ := hchg
  intro usage husage
  rw [husage] at hevents
  obtain ⟨-,-,kind,-,hcollect⟩ := usageEvents_some.mp hevents
  obtain ⟨hfacts,-,hall⟩ := collectEvents_spec hcollect
  refine ⟨collectEvents_le hcollect,?_⟩
  intro hsrc hpos
  have hne : events ≠ [] := by
    rintro rfl
    exact hpos hfacts.symm
  obtain ⟨-,⟨d,hfind,hmatches⟩,-⟩ :=
    (insertUsageEvents_eq_ok (fun e he => (hall e he).2) hne).mp hins
  rw [(completeAttemptInTransaction_ok hdb.tables hvalid hstate hcomplete).2.2.2.1] at hfind
  obtain ⟨hd,hid⟩ := (find?_eq_some hdb.tables.deployments).mp hfind
  exact ⟨d,hd,hid,hmatches hsrc⟩

theorem charge_requests : charged.requests = db.requests := by
  obtain ⟨hvalid,hstate,hevents,hcomplete,hins⟩ := hchg
  rw [← (completeAttemptInTransaction_ok hdb.tables hvalid hstate hcomplete).2.1]
  rcases usageEvents_spec hevents with ⟨rfl,-⟩ | ⟨usage,kind,-,-,-,huniform,-⟩
  · cases hins
    rfl
  · obtain ⟨rfl,-⟩ := insertUsageEvents_ok huniform hins
    rfl

end Charged

theorem validateRequestHandle_of_check (hcheck : request.Check) (hrun : request.status = .running) :
    validateRequestHandle request [.running] := by
  simp [validateRequestHandle,hcheck.id,hrun,Nat.one_le_iff_ne_zero,hcheck.version.ne']

section Current
variable (hdb : db.Consistent stamp) (hcur : db.Current request attempt now)
  (hrequestTime : request.updatedAt ≤ stamp now) (htime : attempt.updatedAt ≤ stamp now)
  (hclock : now ≠ zeroTime) (hids : db.FreshIDs random)
  (hsrc : ∀ usage, outcome.usage = some usage →
    usage.source = .provider ∨ usage.source = .estimated)
include hdb hcur hrequestTime htime hclock hids hsrc

theorem completeAttempt_iff (hcompl : validateAttemptCompletion attempt outcome) :
    (∃ result, db.completeAttempt stamp request attempt outcome now random = .ok result) ↔
      db.Recordable attempt outcome := by
  have hcheck := (hdb.tables.requestChecks request hcur.stored).1
  constructor
  · rintro ⟨⟨_,_,_⟩,h⟩
    obtain ⟨-,_,_,_,hchg,-⟩ := completeAttempt_eq_ok.mp h
    exact recordable_of_charge hdb hchg
  · intro hrecordable
    have hguard := hcompl
    simp only [validateAttemptCompletion,and_eq_true,decide_eq_true_eq] at hcompl
    obtain ⟨⟨hvalid,hrun⟩,hstate⟩ := hcompl
    obtain ⟨events,middle,completed,charged,hchg⟩ :=
      charge_commits hdb hcur htime hclock hids hsrc hvalid hstate hrecordable
    have hstored : request ∈ charged.requests := charge_requests hdb hchg ▸ hcur.stored
    have hreason : reasonPattern outcome.endReason := by
      simp only [validate,and_eq_true] at hvalid
      exact hvalid.1.1.1
    obtain ⟨final,hfinal⟩ := updateRequest_commits (hdb.charge hchg).tables hstored
      (fun row => row.status = .running && row.version = request.version)
      (·.ended outcome.requestStatus outcome.endReason (stamp now)) (by simp [hcur.running])
      (request_ended_check hcheck hcur.running hrequestTime
        ((terminal_of_validate hvalid).2 hrun) hreason)
    refine ⟨_,completeAttempt_eq_ok.mpr ⟨?_,events,middle,charged,hchg,hfinal⟩⟩
    simp [validateRequestHandle_of_check hcheck hcur.running,hguard,hcur.owner]

omit hrequestTime in
theorem completeAttemptForRetry_iff (hcompl : validateRetryAttemptCompletion attempt outcome) :
    (∃ result, db.completeAttemptForRetry stamp request attempt outcome now random = .ok result) ↔
      db.Recordable attempt outcome := by
  have hcheck := (hdb.tables.requestChecks request hcur.stored).1
  constructor
  · rintro ⟨⟨_,_⟩,h⟩
    obtain ⟨-,_,_,hchg⟩ := completeAttemptForRetry_eq_ok.mp h
    exact recordable_of_charge hdb hchg
  · intro hrecordable
    have hguard := hcompl
    simp only [validateRetryAttemptCompletion,and_eq_true] at hcompl
    obtain ⟨⟨⟨hvalid,-⟩,-⟩,hstate⟩ := hcompl
    obtain ⟨events,middle,completed,charged,hchg⟩ :=
      charge_commits hdb hcur htime hclock hids hsrc hvalid hstate hrecordable
    refine ⟨_,completeAttemptForRetry_eq_ok.mpr ⟨?_,events,middle,hchg⟩⟩
    simp [validateRequestHandle_of_check hcheck hcur.running,hguard,hcur.owner]

end Current

/-- A current attempt is completed, for good or for a retry, exactly where its usage can be
recorded. -/
theorem complete_iff_recordable (hstamp : Monotone stamp) (hidem : ∀ t, stamp (stamp t) = stamp t)
    (hdb : Reaches stamp db) (hcur : db.Current request attempt now) (hclock : now ≠ zeroTime)
    (hids : db.FreshIDs random)
    (hsrc : ∀ usage, outcome.usage = some usage →
      usage.source = .provider ∨ usage.source = .estimated) :
    (validateAttemptCompletion attempt outcome →
      ((∃ result, db.completeAttempt stamp request attempt outcome now random = .ok result) ↔
        db.Recordable attempt outcome)) ∧
    (validateRetryAttemptCompletion attempt outcome →
      ((∃ result, db.completeAttemptForRetry stamp request attempt outcome now random =
          .ok result) ↔ db.Recordable attempt outcome)) := by
  have hcons := reaches_consistent hdb
  have hrequestTime := le_stamp hstamp hidem
    (hcons.tables.requestChecks request hcur.stored).2.2 hcur.requestTime
  have htime := le_stamp hstamp hidem
    (hcons.tables.attemptChecks attempt hcur.underWay).2.2 hcur.attemptTime
  constructor
  · exact completeAttempt_iff hcons hcur hrequestTime htime hclock hids hsrc
  · exact completeAttemptForRetry_iff hcons hcur htime hclock hids hsrc

end Database

def sampleRunning : Database := replay id sampleCalls

theorem sampleRunning_current : sampleRunning.Current sampleRequest sampleAttempt 2000 := by
  constructor <;> decide +kernel

theorem sampleRunning_freshIDs : sampleRunning.FreshIDs (sampleRandom 9) := by
  have hempty : sampleRunning.outbox = [] := by decide +kernel
  refine ⟨fun i _ => ⟨_,rfl,?_⟩,by decide +kernel⟩
  simp [hempty]

theorem sampleRunning_completes :
    (∃ result, sampleRunning.completeAttempt id sampleRequest sampleAttempt
      (sampleOutcome (sampleUsage 12)) 2000 (sampleRandom 9) = .ok result) := by
  refine ((Database.complete_iff_recordable monotone_id (fun _ => rfl) (reaches_replay id _)
    sampleRunning_current (by decide) sampleRunning_freshIDs ?_).1 (by decide +kernel)).mpr ?_
  · intro usage husage
    cases husage
    exact .inl rfl
  · intro usage husage
    cases husage
    exact ⟨by decide,fun h => by cases h⟩

/-- An estimate for the deployment as it was when it was selected. -/
def sampleEstimated : NormalizedUsage :=
  { sampleUsage 12 with
    source := .estimated, complete := false, rawEvidence := ⟨[]⟩
    estimate := some ⟨true,"utf8-byte-bound","v1","model-a",1,"v1"⟩ }

def sampleUpdated : Database :=
  replay id (sampleCalls ++ [.changeDeployment sampleDeployment.id "model-a" 2 "v1"])

/-- Two completions of a current attempt that are refused: one count is beyond the exact integers,
and the deployment has a new version. -/
theorem sampleRunning_refused :
    (Reaches id sampleRunning ∧ sampleRunning.Current sampleRequest sampleAttempt 2000 ∧
      validateAttemptCompletion sampleAttempt (sampleOutcome (sampleUsage 9007199254740992)) ∧
      sampleRunning.completeAttempt id sampleRequest sampleAttempt
        (sampleOutcome (sampleUsage 9007199254740992)) 2000 (sampleRandom 9) = .error .invalid) ∧
    (Reaches id sampleUpdated ∧ sampleUpdated.Current sampleRequest sampleAttempt 2000 ∧
      validateAttemptCompletion sampleAttempt (sampleOutcome sampleEstimated) ∧
      sampleUpdated.completeAttempt id sampleRequest sampleAttempt (sampleOutcome sampleEstimated)
        2000 (sampleRandom 9) = .error .unavailable) := by
  have hupd : sampleUpdated.Current sampleRequest sampleAttempt 2000 := by
    constructor <;> decide +kernel
  exact ⟨⟨reaches_replay id _,sampleRunning_current,by decide +kernel⟩,
    ⟨reaches_replay id _,hupd,by decide +kernel⟩⟩

end Execution
