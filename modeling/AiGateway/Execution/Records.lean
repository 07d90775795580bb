import AiGateway.Execution.Charges

/-! The execution records over all runs of the recorder, whatever handles its calls carry: attempts
are numbered without gaps, statuses keep to their journals, and the outbox holds exactly the usage
of the attempts that ended. -/
namespace Execution
open Machine Adapter Metering Relational List AttemptStatus

/-- The row is one of the attempt's usage. -/
structure Charges (row : OutboxRow) (f : AttemptFacts) : Prop where
  requestID : row.event.requestID = f.requestID
  attemptID : row.event.attemptID = f.id
  deploymentID : row.event.deploymentID = f.deploymentID
  summary : ∃ summary, f.usageSummary = some summary ∧ row.event.source = summary.source ∧
    row.event.usageComplete = summary.complete

def outboxKey (row : OutboxRow) : String × String × TokenType × UsageSource :=
  (row.event.requestID,row.event.attemptID,row.event.tokenType,row.event.source)

/-- How the three tables fit together. -/
structure Books (counts : List (String × ℕ)) (facts : List AttemptFacts)
    (outbox : List OutboxRow) : Prop where
  numbered : ∀ c ∈ counts, (facts.filter fun f => f.requestID = c.1).map (·.attemptNo) =
    range' 1 c.2
  owned : ∀ f ∈ facts, f.requestID ∈ counts.map (·.1)
  charged : ∀ f ∈ facts, (outbox.filter fun row => row.event.attemptID = f.id).map
    (fun row => (row.event.tokenType,row.event.quantity)) =
      (f.usageSummary.map UsageSummary.positives).getD []
  attributed : ∀ row ∈ outbox, ∃ f ∈ facts, Charges row f
  keys : (outbox.map (·.event.eventID)).Nodup ∧ (outbox.map outboxKey).Nodup

section Books
variable {counts : List (String × ℕ)} {facts : List AttemptFacts} {outbox : List OutboxRow}

section
variable (h : Books counts facts outbox)
include h

theorem Books.insertRequest {id : String} (hfresh : id ∉ counts.map (·.1)) :
    Books (counts ++ [(id,0)]) facts outbox := by
  refine ⟨?_,?_,h.charged,h.attributed,h.keys⟩
  · rw [forall_mem_append]
    refine ⟨h.numbered,forall_mem_singleton.mpr ?_⟩
    have hnone : facts.filter (fun f => f.requestID = id) = [] := by
      rw [filter_eq_nil_iff]
      intro f hf hid
      exact hfresh (of_decide_eq_true hid ▸ h.owned f hf)
    rw [hnone]
    rfl
  · intro f hf
    rw [map_append]
    exact mem_append_left _ (h.owned f hf)

theorem Books.insertAttempt {f : AttemptFacts} {n : ℕ} (howned : f.requestID ∈ counts.map (·.1))
    (hcount : ∀ c ∈ counts, c.1 = f.requestID → c.2 = n) (hno : f.attemptNo = n + 1)
    (hsummary : f.usageSummary = none) (hfresh : ∀ g ∈ facts, g.id ≠ f.id) :
    Books (update (·.1) f.requestID (fun c => (c.1,c.2 + 1)) counts) (facts ++ [f]) outbox := by
  have hcolumn : (update (·.1) f.requestID (fun c => (c.1,c.2 + 1)) counts).map (·.1) =
      counts.map (·.1) := map_update fun _ => rfl
  refine ⟨?_,?_,?_,?_,h.keys⟩
  · intro c hc
    rw [filter_append,map_append]
    rcases mem_update.mp hc with ⟨hc,hother⟩ | ⟨x,hx,hid,rfl⟩
    · rw [h.numbered c hc]
      simp [Ne.symm hother]
    · rw [h.numbered x hx,hcount x hx hid,range'_concat]
      simp [hid,hno,Nat.add_comm]
  · rw [hcolumn]
    exact forall_mem_append.mpr ⟨h.owned,forall_mem_singleton.mpr howned⟩
  · rw [forall_mem_append]
    refine ⟨h.charged,forall_mem_singleton.mpr ?_⟩
    -- no row names an attempt that did not exist
    have hnone : outbox.filter (fun row => row.event.attemptID = f.id) = [] := by
      rw [filter_eq_nil_iff]
      intro row hrow hid
      obtain ⟨g,hg,hchg⟩ := h.attributed row hrow
      exact hfresh g hg (hchg.attemptID.symm.trans (of_decide_eq_true hid))
    rw [hnone,hsummary]
    rfl
  · intro row hrow
    obtain ⟨g,hg,hchg⟩ := h.attributed row hrow
    exact ⟨g,mem_append_left _ hg,hchg⟩

theorem Books.complete {k : String} {summary : Option UsageSummary}
    {rows : List OutboxRow} (hopen : ∃ f ∈ facts, f.id = k ∧ f.usageSummary = none)
    (hatt : ∀ row ∈ rows, row.event.attemptID = k)
    (hrows : rows.map (fun row => (row.event.tokenType,row.event.quantity)) =
      (summary.map UsageSummary.positives).getD [])
    (hchg : ∀ row ∈ rows,
      ∃ f ∈ update (·.id) k (AttemptFacts.charged summary) facts, Charges row f)
    (hkeys : ((outbox ++ rows).map (·.event.eventID)).Nodup ∧
      ((outbox ++ rows).map outboxKey).Nodup) :
    Books counts (update (·.id) k (AttemptFacts.charged summary) facts) (outbox ++ rows) := by
  -- the attempt had no rows before it ended
  have hnone : outbox.filter (fun row => row.event.attemptID = k) = [] := by
    obtain ⟨f,hf,hid,hsummary⟩ := hopen
    have hcharged := h.charged f hf
    rw [hid,hsummary] at hcharged
    exact map_eq_nil_iff.mp hcharged
  refine ⟨?_,?_,?_,?_,hkeys⟩
  · intro c hc
    rw [← h.numbered c hc]
    exact map_filter_update (fun _ => rfl) fun _ => rfl
  · intro f hf
    rcases mem_update.mp hf with ⟨hf,-⟩ | ⟨x,hx,-,rfl⟩
    · exact h.owned f hf
    · exact h.owned x hx
  · intro f hf
    rw [filter_append,map_append]
    rcases mem_update.mp hf with ⟨hf,hother⟩ | ⟨x,-,hid,rfl⟩
    · have hrest : rows.filter (fun row => row.event.attemptID = f.id) = [] := by
        rw [filter_eq_nil_iff]
        intro row hrow hk
        exact hother ((of_decide_eq_true hk).symm.trans (hatt row hrow))
      rw [hrest,h.charged f hf,map_nil,append_nil]
    · have hall : rows.filter (fun row => row.event.attemptID = x.id) = rows := by
        rw [filter_eq_self]
        intro row hrow
        exact decide_eq_true ((hatt row hrow).trans hid.symm)
      show map _ (outbox.filter fun row => row.event.attemptID = x.id) ++
        map _ (rows.filter fun row => row.event.attemptID = x.id) = _
      rw [hall,hid,hnone,hrows]
      rfl
  · rw [forall_mem_append]
    refine ⟨?_,hchg⟩
    intro row hrow
    obtain ⟨f,hf,hcharge⟩ := h.attributed row hrow
    refine ⟨f,mem_update.mpr (.inl ⟨hf,?_⟩),hcharge⟩
    intro hid
    have hmem : row ∈ outbox.filter fun row => row.event.attemptID = k :=
      mem_filter.mpr ⟨hrow,decide_eq_true (hcharge.attemptID.trans hid)⟩
    rw [hnone] at hmem
    cases hmem

end
end Books

namespace Database
variable {stamp : Time → Time} {db db' : Database} {request : GatewayRequest}
  {attempt : RouteAttempt} {outcome : AttemptOutcome} {now : Time} {random : Random}
  {events : List UsageEvent}
variable (stamp db) in
structure Consistent : Prop where
  tables : db.Tables stamp
  books : Books db.counts db.facts db.outbox

section
variable (h : db.Consistent stamp)
include h

theorem Consistent.startRequest {start : StartRequest} {references : Bool}
    {row : GatewayRequest} (hstart : db.startRequest stamp start now references = .ok (db',row)) :
    db'.Consistent stamp := by
  obtain ⟨hvalid,hstart⟩ := guard_eq_ok.mp hstart
  simp only [StartRequest.validate,Bool.and_eq_true] at hvalid
  refine ⟨h.tables.insertRequest hstart rfl rfl hvalid.1.1.1.1.1.2 ⟨now,rfl⟩,?_⟩
  obtain ⟨⟨-,hfresh,-⟩,hres⟩ := insertRequest_eq_ok.mp hstart
  cases hres
  have hid : start.id ∉ db.counts.map (·.1) := by
    intro hmem
    simp only [counts,map_map,mem_map,Function.comp_apply] at hmem
    obtain ⟨r,hr,hid⟩ := hmem
    exact hfresh r hr hid
  have hcounts : (db.requests ++ [GatewayRequest.authorized start (stamp now)]).map
      (fun r => (r.id,r.attemptCount)) = db.counts ++ [(start.id,0)] := map_append
  show Books ((db.requests ++ [GatewayRequest.authorized start (stamp now)]).map
    fun r => (r.id,r.attemptCount)) db.facts db.outbox
  rw [hcounts]
  exact h.books.insertRequest hid

theorem Consistent.updateRequest {id : String} {cond : GatewayRequest → Bool}
    {set : GatewayRequest → GatewayRequest} {new : GatewayRequest}
    (hupd : db.updateRequest id cond set = .ok (db',new))
    (htime : ∀ r, ∃ t, (set r).updatedAt = stamp t)
    (hset : ∀ r, ((set r).id,(set r).attemptCount) = (r.id,r.attemptCount)) :
    db'.Consistent stamp := by
  refine ⟨h.tables.updateRequest hupd htime,?_⟩
  obtain ⟨row,-,-,hres⟩ := updateRequest_eq_ok.mp hupd
  cases hres
  have hcounts : (update (·.id) id set db.requests).map
      (fun r => (r.id,r.attemptCount)) = db.counts := map_update hset
  show Books ((update (·.id) id set db.requests).map
    fun r => (r.id,r.attemptCount)) db.facts db.outbox
  rw [hcounts]
  exact h.books

theorem Consistent.updateAttempt {id : String} {cond : RouteAttempt → Bool}
    {set : RouteAttempt → RouteAttempt} {new : RouteAttempt}
    (hupd : db.updateAttempt id cond set = .ok (db',new))
    (hmove : ∀ row, cond row → row.status.documented (set row).status)
    (htime : ∀ a, ∃ t, (set a).updatedAt = stamp t) (hset : ∀ a, (set a).facts = a.facts) :
    db'.Consistent stamp := by
  refine ⟨h.tables.updateAttempt hupd hmove htime,?_⟩
  obtain ⟨row,-,-,hres⟩ := updateAttempt_eq_ok.mp hupd
  cases hres
  have hfacts : (update (·.id) id set db.attempts).map RouteAttempt.facts = db.facts :=
    map_update hset
  show Books db.counts ((update (·.id) id set db.attempts).map RouteAttempt.facts) db.outbox
  rw [hfacts]
  exact h.books

theorem Consistent.books_startAttempt {attemptID deploymentID : String} {current : GatewayRequest}
    (hfind : db.requests.find? (fun r => r.id = request.id) = some current)
    (hcount : current.attemptCount = request.attemptCount)
    (hfresh : ∀ a ∈ db.attempts, a.id ≠ attemptID) :
    Books ((update (·.id) request.id (·.counted now) db.requests).map
        fun r => (r.id,r.attemptCount))
      ((db.attempts ++ [RouteAttempt.created attemptID request.id (request.attemptCount + 1)
        deploymentID now]).map RouteAttempt.facts) db.outbox := by
  obtain ⟨hcur,hid⟩ := (find?_eq_some h.tables.requests.keys).mp hfind
  have hcounts : (update (·.id) request.id (·.counted now) db.requests).map
      (fun r => (r.id,r.attemptCount)) =
      update (·.1) request.id (fun c => (c.1,c.2 + 1)) db.counts :=
    map_update_comm (fun _ => rfl) fun _ => rfl
  rw [hcounts,map_append]
  apply h.books.insertAttempt (n := request.attemptCount) (f := (RouteAttempt.created attemptID
    request.id (request.attemptCount + 1) deploymentID now).facts)
  · exact mem_map.mpr ⟨_,mem_map_of_mem hcur,hid⟩
  · intro c hc hcid
    obtain ⟨r,hr,rfl⟩ := mem_map.mp hc
    rw [← hcount,inj_on_of_nodup_map h.tables.requests.keys hr hcur (hcid.trans hid.symm)]
  · rfl
  · rfl
  · intro g hg
    obtain ⟨a,ha,rfl⟩ := mem_map.mp hg
    exact hfresh a ha

theorem Consistent.startAttempt {deploymentID : String}
    {updated : GatewayRequest} {started : RouteAttempt}
    (hstart : db.startAttempt stamp request deploymentID now random = .ok (db',updated,started)) :
    db'.Consistent stamp := by
  obtain ⟨-,hstart⟩ := guard_eq_ok.mp hstart
  split at hstart
  · cases hstart
  · rename_i attemptID hid
    obtain ⟨⟨counted,row⟩,hcount,hstart⟩ := bind_eq_ok.mp hstart
    obtain ⟨created,hcreate,hstart⟩ := bind_eq_ok.mp hstart
    obtain ⟨⟨connected,started'⟩,hconnect,hres⟩ := bind_eq_ok.mp hstart
    cases hres
    have hcreated : created.Consistent stamp := by
      have htables := h.tables.updateRequest hcount fun _ => ⟨now,rfl⟩
      refine ⟨htables.insertAttempt hcreate rfl rfl ⟨now,rfl⟩,?_⟩
      obtain ⟨⟨hfresh,-⟩,rfl⟩ := insertAttempt_eq_ok.mp hcreate
      obtain ⟨current,hfind,⟨hcond,-,-⟩,hres⟩ := updateRequest_eq_ok.mp hcount
      cases hres
      exact h.books_startAttempt hfind (by simp_all) fun a ha => hfresh a ha
    apply hcreated.updateAttempt hconnect
    · intro row hrow
      simp only [Bool.and_eq_true,decide_eq_true_eq] at hrow
      rw [hrow.1]
      rfl
    · exact fun _ => ⟨_,rfl⟩
    · exact fun _ => rfl

theorem Consistent.markAttemptStreaming {providerRequestID : String}
    {headerObservedAt firstByteAt : Time} {streaming : RouteAttempt}
    (hmark : db.markAttemptStreaming stamp request attempt providerRequestID headerObservedAt
      firstByteAt = .ok (db',streaming)) : db'.Consistent stamp := by
  obtain ⟨hvalid,hmark⟩ := guard_eq_ok.mp hmark
  have hconn : attempt.status = .connecting := by
    simp only [Bool.and_eq_true,validateAttemptHandle,decide_eq_true_eq] at hvalid
    exact hvalid.1.1.2.2
  obtain ⟨⟨middle,headers⟩,hhdrs,hstream⟩ := bind_eq_ok.mp hmark
  have hmiddle : middle.Consistent stamp := by
    apply h.updateAttempt hhdrs
    · intro row hrow
      simp only [attemptCurrent,Bool.and_eq_true,decide_eq_true_eq] at hrow
      rw [hrow.1.2,hconn]
      rfl
    · exact fun _ => ⟨_,rfl⟩
    · exact fun _ => rfl
  have hstat : headers.status = .headersReceived := by
    obtain ⟨row,-,-,hres⟩ := updateAttempt_eq_ok.mp hhdrs
    cases hres
    rfl
  apply hmiddle.updateAttempt hstream
  · intro row hrow
    simp only [attemptCurrent,Bool.and_eq_true,decide_eq_true_eq] at hrow
    rw [hrow.1.2,hstat]
    rfl
  · exact fun _ => ⟨_,rfl⟩
  · exact fun _ => rfl

theorem Consistent.charge {middle : Database} {completed : RouteAttempt}
    (hcharged : Charged stamp db request attempt outcome now random events middle completed db') :
    db'.Consistent stamp := by
  obtain ⟨hvalid,hstate,hevents,hcompl,hins⟩ := hcharged
  obtain ⟨htables,hreqs,houtbox,-,hfacts,hopen⟩ :=
    completeAttemptInTransaction_ok h.tables hvalid hstate hcompl
  have hcounts : middle.counts = db.counts := by rw [counts,hreqs]; rfl
  rcases usageEvents_spec hevents with ⟨rfl,hnone⟩ | ⟨usage,kind,husage,-,-,huniform,hsum⟩
  · cases hins
    refine ⟨htables,?_⟩
    have hbooks : Books db.counts (update (·.id) attempt.id
        (AttemptFacts.charged (outcome.usage.map usageSummary)) db.facts) (db.outbox ++ []) := by
      apply h.books.complete hopen
      · simp
      · simp [hnone]
      · simp
      · simpa using h.books.keys
    rwa [append_nil,← hcounts,← hfacts,← houtbox] at hbooks
  · obtain ⟨rfl,hkeys⟩ := insertUsageEvents_ok huniform hins
    refine ⟨htables.outbox _,?_⟩
    show Books middle.counts middle.facts (middle.outbox ++ _)
    have hkept : ((middle.outbox ++ storedRows events (stamp now)).map (·.event.eventID)).Nodup ∧
        ((middle.outbox ++ storedRows events (stamp now)).map outboxKey).Nodup := by
      rcases hkeys with rfl | hkeys
      · simpa [storedRows,houtbox] using h.books.keys
      · exact ⟨hkeys.1,hkeys.2.1⟩
    have hrow : ∀ row ∈ storedRows events (stamp now), row.event.attemptID = attempt.id ∧
        row.event.source = usage.source ∧ row.event.usageComplete = usage.complete := by
      intro row hrow
      obtain ⟨e,he,rfl⟩ := mem_map.mp hrow
      rw [huniform e he]
      exact ⟨rfl,rfl,rfl⟩
    have hchg : ∀ row ∈ storedRows events (stamp now), ∃ f ∈ middle.facts, Charges row f := by
      intro row hmem
      rcases hkeys with rfl | hkeys
      · cases hmem
      · obtain ⟨-,a,ha,hreq,hid,hdep⟩ := hkeys.2.2 row hmem
        have hf : a.facts ∈ middle.facts := mem_map_of_mem ha
        refine ⟨a.facts,hf,hreq.symm,hid.symm,hdep.symm,usageSummary usage,?_,(hrow row hmem).2⟩
        -- an attempt with this ID is the one that ended
        rw [hfacts] at hf
        rcases mem_update.mp hf with ⟨-,hother⟩ | ⟨x,-,-,hx⟩
        · exact absurd (hid.trans (hrow row hmem).1) hother
        · rw [← hx,husage]
          rfl
    rw [hcounts,hfacts,houtbox]
    apply h.books.complete hopen
    · exact fun row hmem => (hrow row hmem).1
    · rw [husage,storedRows,map_map]
      exact hsum
    · rw [← hfacts]
      exact hchg
    · rw [← houtbox]
      exact hkept

variable {completedAttempt : RouteAttempt}

theorem Consistent.completeAttempt {completedRequest : GatewayRequest}
    (hcompl : db.completeAttempt stamp request attempt outcome now random =
      .ok (db',completedRequest,completedAttempt)) : db'.Consistent stamp := by
  obtain ⟨-,events,middle,charged,hcharged,hfinal⟩ := completeAttempt_eq_ok.mp hcompl
  exact (h.charge hcharged).updateRequest hfinal (fun _ => ⟨now,rfl⟩) fun _ => rfl

theorem Consistent.completeAttemptForRetry
    (hcompl : db.completeAttemptForRetry stamp request attempt outcome now random =
      .ok (db',completedAttempt)) : db'.Consistent stamp := by
  obtain ⟨-,events,middle,hcharged⟩ := completeAttemptForRetry_eq_ok.mp hcompl
  exact h.charge hcharged

theorem Consistent.commit {call : Call} (hcommit : db.commit stamp call = .ok db') :
    db'.Consistent stamp := by
  cases call with
  | startRequest start now references =>
    obtain ⟨⟨_,row⟩,hstart,rfl⟩ := map_eq_ok.mp hcommit
    exact h.startRequest hstart
  | markRouting request now =>
    obtain ⟨⟨_,row⟩,hmark,rfl⟩ := map_eq_ok.mp hcommit
    exact h.updateRequest (guard_eq_ok.mp hmark).2 (fun _ => ⟨now,rfl⟩) fun _ => rfl
  | failRequest request status reason now =>
    obtain ⟨⟨_,row⟩,hfail,rfl⟩ := map_eq_ok.mp hcommit
    exact h.updateRequest (guard_eq_ok.mp hfail).2 (fun _ => ⟨now,rfl⟩) fun _ => rfl
  | startAttempt request deploymentID now random =>
    obtain ⟨⟨_,row,started⟩,hstart,rfl⟩ := map_eq_ok.mp hcommit
    exact h.startAttempt hstart
  | markAttemptStreaming request attempt providerRequestID headerObservedAt firstByteAt =>
    obtain ⟨⟨_,streaming⟩,hmark,rfl⟩ := map_eq_ok.mp hcommit
    exact h.markAttemptStreaming hmark
  | completeAttempt request attempt outcome now random =>
    obtain ⟨⟨_,row,completed⟩,hcompl,rfl⟩ := map_eq_ok.mp hcommit
    exact h.completeAttempt hcompl
  | completeAttemptForRetry request attempt outcome now random =>
    obtain ⟨⟨_,completed⟩,hcompl,rfl⟩ := map_eq_ok.mp hcommit
    exact h.completeAttemptForRetry hcompl
  | addDeployment deployment =>
    obtain ⟨hfresh,rfl⟩ := ite_eq_ok.mp hcommit
    refine ⟨h.tables.catalog ?_ ?_,h.books⟩
    · rw [map_append,nodup_append]
      refine ⟨h.tables.deployments,nodup_singleton _,?_⟩
      intro id hid id' hid'
      obtain ⟨d,hd,rfl⟩ := mem_map.mp hid
      rw [map_singleton,mem_singleton] at hid'
      rw [hid']
      exact hfresh d hd
    · intro id hid
      rw [map_append]
      exact mem_append_left _ hid
  | changeDeployment id physicalModel version providerProtocolVersion =>
    cases hcommit
    have hids : (update (·.id) id (fun d => ⟨d.id,physicalModel,version,
        providerProtocolVersion⟩) db.deployments).map (·.id) = db.deployments.map (·.id) :=
      map_update fun _ => rfl
    exact ⟨h.tables.catalog (hids ▸ h.tables.deployments) fun id hid => hids ▸ hid,h.books⟩

theorem Consistent.step (call : Call) (broken : Bool) :
    (db.step stamp call broken).Consistent stamp := by
  unfold Database.step
  split
  · exact h
  · split
    · rename_i hcommit
      exact h.commit hcommit
    · exact h

end

theorem consistent_empty : Consistent stamp ⟨[],[],[],[],[],[]⟩ := by
  refine ⟨⟨⟨?_,?_,?_⟩,⟨?_,?_,?_⟩,?_,?_,?_⟩,⟨?_,?_,?_,?_,?_⟩⟩ <;> simp [counts,facts]

end Database

theorem reaches_consistent {stamp : Time → Time} {db : Database} (h : Reaches stamp db) :
    db.Consistent stamp := by
  induction h with
  | start => exact Database.consistent_empty
  | step h call broken ih => exact ih.step call broken

/-- The journal of one row: a path of allowed moves, one version each, which enters a final status
at most once. -/
structure Traced {α : Type} (initial : α) (leads : α → α → Bool) (final : α → Bool)
    (moves : List (Move String α)) (status : α) (version : ℕ) : Prop where
  path : Path initial leads moves status version
  allowed : ∀ e ∈ moves, ∀ s, e.source = some s → leads s e.target
  versions : moves.map (·.version) = range' 1 version
  ends : moves.countP (fun e => final e.target) = if final status then 1 else 0

theorem traced_of_path {α : Type} {initial : α} {leads : α → α → Bool} {final : α → Bool}
    {moves : List (Move String α)} {status : α} {version : ℕ}
    (hinitial : final initial = false) (hfinal : ∀ s t, leads s t → final s = false)
    (h : Path initial leads moves status version) :
    Traced initial leads final moves status version :=
  ⟨h,h.allowed,h.versions,h.countP_final hinitial hfinal⟩

/-- What the records of a run say of the requests, their attempts and their usage. -/
structure Database.Recorded (db : Database) : Prop where
  numbered : ∀ r ∈ db.requests,
    (db.attempts.filter fun a => a.requestID = r.id).length = r.attemptCount ∧
      (db.attempts.filter fun a => a.requestID = r.id).map (·.attemptNo) = range' 1 r.attemptCount
  requests : ∀ r ∈ db.requests, Traced .authorized RequestStatus.leadsTo RequestStatus.terminal
    (movesOf (db.requestEvents.map StatusEvent.move) r.id) r.status r.version
  attempts : ∀ a ∈ db.attempts, Traced .created documented terminal
    (movesOf (db.attemptEvents.map StatusEvent.move) a.id) a.status a.version
  usage : ∀ a ∈ db.attempts, a.usageSummary.isSome → a.status.terminal
  charged : ∀ a ∈ db.attempts, (db.outbox.filter fun row => row.event.attemptID = a.id).map
    (fun row => (row.event.tokenType,row.event.quantity)) =
      (a.usageSummary.map UsageSummary.positives).getD []
  attributed : ∀ row ∈ db.outbox, ∃ a ∈ db.attempts, Charges row a.facts
  unique : (db.outbox.map (·.event.eventID)).Nodup ∧ (db.outbox.map outboxKey).Nodup

theorem Database.Consistent.numbers {stamp : Time → Time} {db : Database}
    (h : db.Consistent stamp) {r : GatewayRequest} (hr : r ∈ db.requests) :
    (db.attempts.filter fun a => a.requestID = r.id).map (·.attemptNo) =
      range' 1 r.attemptCount := by
  rw [← h.books.numbered (r.id,r.attemptCount) (mem_map_of_mem hr),Database.facts,
    filter_map,map_map]
  rfl

/-- Over every run, with current or stale handles and with transactions that fail half-way. -/
theorem reaches_recorded {stamp : Time → Time} {db : Database} (h : Reaches stamp db) :
    db.Recorded := by
  have hdb := reaches_consistent h
  refine ⟨?_,?_,?_,?_,?_,?_,hdb.books.keys⟩
  · intro r hr
    have hnums := hdb.numbers hr
    refine ⟨?_,hnums⟩
    rw [← length_map (f := (·.attemptNo)),hnums,length_range']
  · intro r hr
    apply traced_of_path rfl _ (hdb.tables.requests.paths r hr)
    intro s t
    cases s <;> cases t <;> decide
  · intro a ha
    apply traced_of_path rfl _ (hdb.tables.attempts.paths a ha)
    exact fun s t => terminal_of_documented
  · intro a ha hsummary
    by_contra hopen
    rw [Database.usageSummary_none (hdb.tables.attemptChecks a ha).1 (by simpa using hopen)]
      at hsummary
    cases hsummary
  · intro a ha
    exact hdb.books.charged a.facts (mem_map_of_mem ha)
  · intro row hrow
    obtain ⟨f,hf,hchg⟩ := hdb.books.attributed row hrow
    obtain ⟨a,ha,rfl⟩ := mem_map.mp hf
    exact ⟨a,ha,hchg⟩

/-- A completion that commits, the same one again with the old handles, and an end for the request
that comes too late. -/
def sampleCompleted : Database :=
  replay id (sampleCalls ++
    [.completeAttempt sampleRequest sampleAttempt (sampleOutcome (sampleUsage 12)) 2000
        (sampleRandom 9),
      .completeAttempt sampleRequest sampleAttempt (sampleOutcome (sampleUsage 12)) 3000
        (sampleRandom 11),
      .failRequest sampleRequest .failed "failed" 3000])

theorem sampleCompleted_recorded : (sampleCompleted.attempts.map (·.status) = [.succeeded] ∧
      sampleCompleted.requests.map (fun r => (r.status,r.version)) = [(.succeeded,4)] ∧
      sampleCompleted.outbox.map (fun row => (row.event.tokenType,row.event.quantity)) =
        [(.input,12),(.output,5)]) ∧ sampleCompleted.Recorded :=
  ⟨by decide +kernel,reaches_recorded (reaches_replay id _)⟩

end Execution
