import AiGateway.Execution.Records

/-! What a committed call leaves as it was: no request or attempt is lost, one that has ended does
not change any more, and a request that has ended with all its attempts gets no further one. -/
namespace Execution
open Machine Metering Relational List AttemptStatus OutboxRow

abbrev GatewayRequest.Kept (r r' : GatewayRequest) : Prop :=
  Relational.Kept (fun r => (r.id,r.tenantID,r.projectID)) (fun r => r.status.terminal) r r'

abbrev RouteAttempt.Kept (a a' : RouteAttempt) : Prop :=
  Relational.Kept (fun a => (a.id,a.requestID,a.deploymentID)) (fun a => a.status.terminal) a a'

theorem GatewayRequest.Kept.columns {r r' : GatewayRequest} (h : r.Kept r') :
    r'.id = r.id ∧ r'.tenantID = r.tenantID ∧ r'.projectID = r.projectID := by
  simpa using h.key

theorem RouteAttempt.Kept.columns {a a' : RouteAttempt} (h : a.Kept a') :
    a'.id = a.id ∧ a'.requestID = a.requestID ∧ a'.deploymentID = a.deploymentID := by
  simpa using h.key

theorem RequestStatus.open_of_leadsTo {s t : RequestStatus} (h : s.leadsTo t) :
    s.terminal = false := by
  cases s <;> first | rfl | cases h

theorem AttemptStatus.open_of_leadsTo {s t : AttemptStatus} (h : s.leadsTo t) :
    s.terminal = false := by
  cases s <;> first | rfl | cases h

namespace Database
variable {stamp : Time → Time} {db db' : Database} {request : GatewayRequest}
  {attempt : RouteAttempt} {outcome : AttemptOutcome} {now : Time} {random : Random}
  {events : List UsageEvent}

structure Keyed (db : Database) : Prop where
  requests : (db.requests.map (·.id)).Nodup
  attempts : (db.attempts.map (·.id)).Nodup

/-- The request and all its attempts have ended. -/
structure Closed (db : Database) (id : String) : Prop where
  request : ∃ r ∈ db.requests, r.id = id ∧ r.status.terminal
  attempts : ∀ a ∈ db.attempts, a.requestID = id → a.status.terminal

def attemptsOf (db : Database) (id : String) : List RouteAttempt :=
  db.attempts.filter fun a => a.requestID = id

structure Extends (db db' : Database) : Prop where
  keyed : db'.Keyed
  requests : ∀ r ∈ db.requests, ∃ r' ∈ db'.requests, r.Kept r'
  attempts : ∀ a ∈ db.attempts, ∃ a' ∈ db'.attempts, a.Kept a'
  closed : ∀ id, db.Closed id → db'.attemptsOf id = db.attemptsOf id

variable {id : String}

theorem Extends.stays (h : db.Extends db') (hclosed : db.Closed id) : db'.Closed id := by
  constructor
  · obtain ⟨r,hr,hid,hfinal⟩ := hclosed.request
    obtain ⟨r',hr',hkept⟩ := h.requests r hr
    rw [hkept.final hfinal] at hr'
    exact ⟨r,hr',hid,hfinal⟩
  · intro a ha hreq
    have hmem : a ∈ db'.attemptsOf id := mem_filter.mpr ⟨ha,by simpa using hreq⟩
    rw [h.closed id hclosed] at hmem
    exact hclosed.attempts a (mem_filter.mp hmem).1 hreq

theorem extends_of_eq (hkey : db.Keyed) (hreqs : db'.requests = db.requests)
    (hatts : db'.attempts = db.attempts) : db.Extends db' := by
  refine ⟨⟨hreqs ▸ hkey.requests,hatts ▸ hkey.attempts⟩,?_,?_,?_⟩
  · exact fun r hr => ⟨r,hreqs ▸ hr,.refl r⟩
  · exact fun a ha => ⟨a,hatts ▸ ha,.refl a⟩
  · intro id hclosed
    rw [attemptsOf,attemptsOf,hatts]

theorem Extends.trans {mid : Database} (h : db.Extends mid) (h' : mid.Extends db') :
    db.Extends db' := by
  refine ⟨h'.keyed,?_,?_,?_⟩
  · intro r hr
    obtain ⟨m,hm,hkept⟩ := h.requests r hr
    obtain ⟨r',hr',hkept'⟩ := h'.requests m hm
    exact ⟨r',hr',hkept.trans hkept'⟩
  · intro a ha
    obtain ⟨m,hm,hkept⟩ := h.attempts a ha
    obtain ⟨a',ha',hkept'⟩ := h'.attempts m hm
    exact ⟨a',ha',hkept.trans hkept'⟩
  · intro id hclosed
    rw [h'.closed id (h.stays hclosed),h.closed id hclosed]

/-! Statements. -/

theorem extends_insertRequest (hkey : db.Keyed) {row row' : GatewayRequest} {references : Bool}
    (h : db.insertRequest row references = .ok (db',row')) : db.Extends db' := by
  obtain ⟨⟨-,hfresh,-⟩,hres⟩ := insertRequest_eq_ok.mp h
  cases hres
  refine ⟨⟨?_,hkey.attempts⟩,fun r hr => ⟨r,mem_append_left _ hr,.refl r⟩,
    fun a ha => ⟨a,ha,.refl a⟩,fun _ _ => rfl⟩
  rw [map_append,nodup_append]
  refine ⟨hkey.requests,nodup_singleton _,?_⟩
  intro id hid id' hid'
  obtain ⟨r,hr,rfl⟩ := mem_map.mp hid
  rw [map_singleton,mem_singleton] at hid'
  rw [hid']
  exact hfresh r hr

variable {cond : GatewayRequest → Bool} {set : GatewayRequest → GatewayRequest}
  {new : GatewayRequest}

theorem updateRequest_row (hkey : db.Keyed) (h : db.updateRequest id cond set = .ok (db',new)) :
    ∃ row ∈ db.requests, row.id = id ∧ cond row ∧ RequestTransition row (set row) ∧
      (∀ r ∈ db.requests, r.id = id → r = row) ∧ new = set row ∧
      db' = { db with
        requests := update (·.id) id set db.requests
        requestEvents := db.requestEvents ++ [(set row).event (some row.status)] } := by
  obtain ⟨row,hfind,⟨hcond,htrans,-⟩,hres⟩ := updateRequest_eq_ok.mp h
  cases hres
  obtain ⟨hrow,hid⟩ := (find?_eq_some hkey.requests).mp hfind
  exact ⟨row,hrow,hid,hcond,htrans,
    fun r hr hrid => inj_on_of_nodup_map hkey.requests hr hrow (hrid.trans hid.symm),rfl,rfl⟩

theorem updateAttempt_row (hkey : db.Keyed) {cond : RouteAttempt → Bool}
    {set : RouteAttempt → RouteAttempt} {new : RouteAttempt}
    (h : db.updateAttempt id cond set = .ok (db',new)) :
    ∃ row ∈ db.attempts, row.id = id ∧ cond row ∧ AttemptTransition row (set row) ∧
      (∀ a ∈ db.attempts, a.id = id → a = row) ∧ new = set row ∧
      db' = { db with
        attempts := update (·.id) id set db.attempts
        attemptEvents := db.attemptEvents ++ [(set row).event (some row.status)] } := by
  obtain ⟨row,hfind,⟨hcond,htrans,-⟩,hres⟩ := updateAttempt_eq_ok.mp h
  cases hres
  obtain ⟨hrow,hid⟩ := (find?_eq_some hkey.attempts).mp hfind
  exact ⟨row,hrow,hid,hcond,htrans,
    fun a ha haid => inj_on_of_nodup_map hkey.attempts ha hrow (haid.trans hid.symm),rfl,rfl⟩

theorem map_id_update {ρ : Type} {key : ρ → String} {set : ρ → ρ} {rows : List ρ}
    (hset : ∀ r ∈ rows, key r = id → key (set r) = key r) :
    (update key id set rows).map key = rows.map key := by
  rw [update,map_map]
  apply map_congr_left
  intro r hr
  simp only [Function.comp_apply]
  split_ifs with hid
  · exact hset r hr hid
  · rfl

theorem extends_updateRequest (hkey : db.Keyed)
    (h : db.updateRequest id cond set = .ok (db',new)) : db.Extends db' := by
  obtain ⟨row,hrow,hid,-,htrans,hone,-,rfl⟩ := updateRequest_row hkey h
  refine ⟨⟨?_,hkey.attempts⟩,?_,fun a ha => ⟨a,ha,.refl a⟩,fun _ _ => rfl⟩
  · show ((update (·.id) id set db.requests).map (·.id)).Nodup
    rw [map_id_update]
    · exact hkey.requests
    · intro r hr hrid
      rw [hone r hr hrid]
      exact htrans.id
  · intro r hr
    by_cases hrid : r.id = id
    · refine ⟨set r,mem_update.mpr (.inr ⟨r,hr,hrid,rfl⟩),?_⟩
      rw [hone r hr hrid]
      refine ⟨by rw [htrans.id,htrans.tenantID,htrans.projectID],?_⟩
      intro hfinal
      rw [RequestStatus.open_of_leadsTo htrans.status] at hfinal
      cases hfinal
    · exact ⟨r,mem_update.mpr (.inl ⟨hr,hrid⟩),.refl r⟩

theorem filter_update {ρ : Type} {key : ρ → String} {set : ρ → ρ} {rows : List ρ}
    {p : ρ → Bool} (h : ∀ r ∈ rows, key r = id → p r = false ∧ p (set r) = false) :
    (update key id set rows).filter p = rows.filter p := by
  induction rows with
  | nil => rfl
  | cons r rows ih =>
    have htail := ih fun x hx => h x (mem_cons_of_mem _ hx)
    unfold update at htail ⊢
    rw [map_cons,filter_cons,filter_cons,htail]
    split_ifs with hid
    all_goals first
      | rfl
      | (obtain ⟨hold,hnew⟩ := h r mem_cons_self hid; simp_all)

section
variable (hkey : db.Keyed)
include hkey

theorem extends_updateAttempt {cond : RouteAttempt → Bool} {set : RouteAttempt → RouteAttempt}
    {new : RouteAttempt} (h : db.updateAttempt id cond set = .ok (db',new)) : db.Extends db' := by
  obtain ⟨row,hrow,hid,-,htrans,hone,-,rfl⟩ := updateAttempt_row hkey h
  have hopen : row.status.terminal = false := open_of_leadsTo htrans.status
  refine ⟨⟨hkey.requests,?_⟩,fun r hr => ⟨r,hr,.refl r⟩,?_,?_⟩
  · show ((update (·.id) id set db.attempts).map (·.id)).Nodup
    rw [map_id_update]
    · exact hkey.attempts
    · intro a ha haid
      rw [hone a ha haid]
      exact htrans.id
  · intro a ha
    by_cases haid : a.id = id
    · refine ⟨set a,mem_update.mpr (.inr ⟨a,ha,haid,rfl⟩),?_⟩
      rw [hone a ha haid]
      refine ⟨by rw [htrans.id,htrans.requestID,htrans.deploymentID],?_⟩
      intro hfinal
      rw [hopen] at hfinal
      cases hfinal
    · exact ⟨a,mem_update.mpr (.inl ⟨ha,haid⟩),.refl a⟩
  · intro requestID hclosed
    apply filter_update
    intro a ha haid
    -- the attempt is open, so it is not one of the closed request
    have hother : row.requestID ≠ requestID := by
      intro hsame
      rw [hclosed.attempts row hrow hsame] at hopen
      cases hopen
    rw [hone a ha haid,htrans.requestID]
    simp [hother]

theorem extends_insertAttempt {row : RouteAttempt} (h : db.insertAttempt row = .ok db')
    (hrun : ∃ r ∈ db.requests, r.id = row.requestID ∧ r.status.terminal = false) :
    db.Extends db' := by
  obtain ⟨⟨hfresh,-⟩,rfl⟩ := insertAttempt_eq_ok.mp h
  refine ⟨⟨hkey.requests,?_⟩,fun r hr => ⟨r,hr,.refl r⟩,
    fun a ha => ⟨a,mem_append_left _ ha,.refl a⟩,?_⟩
  · rw [map_append,nodup_append]
    refine ⟨hkey.attempts,nodup_singleton _,?_⟩
    intro id hid id' hid'
    obtain ⟨a,ha,rfl⟩ := mem_map.mp hid
    rw [map_singleton,mem_singleton] at hid'
    rw [hid']
    exact hfresh a ha
  · intro id hclosed
    obtain ⟨r,hr,hrid,hopen⟩ := hrun
    obtain ⟨r',hr',hid',hfinal⟩ := hclosed.request
    have hother : row.requestID ≠ id := by
      intro hsame
      have hone := inj_on_of_nodup_map hkey.requests hr hr' (hrid.trans (hsame.trans hid'.symm))
      rw [hone,hfinal] at hopen
      cases hopen
    show (db.attempts ++ [row]).filter _ = db.attempts.filter _
    rw [filter_append,filter_singleton,decide_eq_false hother]
    exact append_nil _

/-! Calls. -/

theorem extends_startAttempt {deploymentID : String} {updated : GatewayRequest}
    {started : RouteAttempt}
    (h : db.startAttempt stamp request deploymentID now random = .ok (db',updated,started)) :
    db.Extends db' ∧ db'.outbox = db.outbox := by
  obtain ⟨-,h⟩ := guard_eq_ok.mp h
  split at h
  · cases h
  · rename_i attemptID hid
    obtain ⟨⟨counted,row⟩,hcount,h⟩ := bind_eq_ok.mp h
    obtain ⟨created,hcreate,h⟩ := bind_eq_ok.mp h
    obtain ⟨⟨connected,started'⟩,hconnect,hres⟩ := bind_eq_ok.mp h
    cases hres
    have hcounted := extends_updateRequest hkey hcount
    obtain ⟨old,hold,holdID,-,htrans,-,-,hcountedEq⟩ := updateRequest_row hkey hcount
    -- the request is running now, so it has not ended
    have hcreated : counted.Extends created := by
      apply extends_insertAttempt hcounted.keyed hcreate
      refine ⟨old.counted (stamp now),?_,?_,rfl⟩
      · rw [hcountedEq]
        exact mem_update.mpr (.inr ⟨old,hold,holdID,rfl⟩)
      · exact holdID
    have hconnected := extends_updateAttempt hcreated.keyed hconnect
    refine ⟨(hcounted.trans hcreated).trans hconnected,?_⟩
    obtain ⟨_,_,_,_,_,_,_,hconnectedEq⟩ := updateAttempt_row hcreated.keyed hconnect
    obtain ⟨-,hcreatedEq⟩ := insertAttempt_eq_ok.mp hcreate
    rw [hconnectedEq,hcreatedEq,hcountedEq]

theorem extends_markAttemptStreaming {providerRequestID : String}
    {headerObservedAt firstByteAt : Time} {streaming : RouteAttempt}
    (h : db.markAttemptStreaming stamp request attempt providerRequestID headerObservedAt
      firstByteAt = .ok (db',streaming)) : db.Extends db' ∧ db'.outbox = db.outbox := by
  obtain ⟨-,h⟩ := guard_eq_ok.mp h
  obtain ⟨⟨middle,headers⟩,hhdrs,hstream⟩ := bind_eq_ok.mp h
  have hmiddle := extends_updateAttempt hkey hhdrs
  refine ⟨hmiddle.trans (extends_updateAttempt hmiddle.keyed hstream),?_⟩
  obtain ⟨_,_,_,_,_,_,_,hmiddleEq⟩ := updateAttempt_row hkey hhdrs
  obtain ⟨_,_,_,_,_,_,_,hstreamEq⟩ := updateAttempt_row hmiddle.keyed hstream
  rw [hstreamEq,hmiddleEq]

/-- The attempt of a completion was open and has the status of the outcome now. -/
theorem extends_completeAttemptInTransaction {summary : Option UsageSummary}
    {completed : RouteAttempt}
    (h : db.completeAttemptInTransaction stamp request attempt outcome summary now =
      .ok (db',completed)) :
    db.Extends db' ∧ db'.outbox = db.outbox ∧ db'.requests = db.requests ∧
      (∃ a ∈ db.attempts, a.id = attempt.id ∧ a.status.terminal = false) ∧
      ∃ a ∈ db'.attempts, a.id = attempt.id ∧ a.status = outcome.attemptStatus := by
  unfold completeAttemptInTransaction at h
  split_ifs at h with hhdrs
  · obtain ⟨⟨middle,current⟩,hfirst,hlast⟩ := bind_eq_ok.mp h
    have hmiddle := extends_updateAttempt hkey hfirst
    obtain ⟨row,hrow,hid,-,htrans,-,hcur,hmiddleEq⟩ := updateAttempt_row hkey hfirst
    obtain ⟨row',hrow',hid',-,-,-,-,hlastEq⟩ := updateAttempt_row hmiddle.keyed hlast
    have hcurrentID : current.id = attempt.id := by rw [hcur]; exact hid
    refine ⟨hmiddle.trans (extends_updateAttempt hmiddle.keyed hlast),?_,?_,
      ⟨row,hrow,hid,open_of_leadsTo htrans.status⟩,
      row'.ended outcome summary (stamp now),?_,hid'.trans hcurrentID,rfl⟩
    · rw [hlastEq,hmiddleEq]
    · rw [hlastEq,hmiddleEq]
    · rw [hlastEq]
      exact mem_update.mpr (.inr ⟨row',hrow',hid',rfl⟩)
  · obtain ⟨row,hrow,hid,-,htrans,-,-,hlastEq⟩ := updateAttempt_row hkey h
    refine ⟨extends_updateAttempt hkey h,?_,?_,⟨row,hrow,hid,open_of_leadsTo htrans.status⟩,
      row.ended outcome summary (stamp now),?_,hid,rfl⟩
    · rw [hlastEq]
    · rw [hlastEq]
    · rw [hlastEq]
      exact mem_update.mpr (.inr ⟨row,hrow,hid,rfl⟩)

end
end Database

/-- The usage events of a completion. -/
def Call.events : Call → List UsageEvent
  | .completeAttempt request attempt outcome now random
  | .completeAttemptForRetry request attempt outcome now random =>
      (Database.usageEvents request attempt outcome.usage now random).toOption.getD []
  | _ => []

namespace Database

/-- What a committed call does with its usage events: they are new rows of an attempt that has just
ended. -/
structure Records (stamp : Time → Time) (db db' : Database) (events : List UsageEvent) : Prop where
  outbox : db'.outbox = db.outbox ++ events.map fun e => inserted e (stamp e.observedAt)
  valid : ∀ e ∈ events, e.validate
  checks : ∀ e ∈ events, (inserted e (stamp e.observedAt)).checks
  keys : (db.outbox.map (·.event.eventID)).Nodup → (db'.outbox.map (·.event.eventID)).Nodup
  attributed : ∀ e ∈ events, (∃ r ∈ db'.requests, r.tenantID = e.tenantID ∧ r.id = e.requestID) ∧
    ∃ a ∈ db'.attempts, a.requestID = e.requestID ∧ a.id = e.attemptID ∧
      a.deploymentID = e.deploymentID ∧ a.status.terminal
  opened : ∀ e ∈ events, ∃ a ∈ db.attempts, a.id = e.attemptID ∧ a.status.terminal = false
  together : ∀ e ∈ events, ∀ e' ∈ events, e.attemptID = e'.attemptID

theorem records_nil (houtbox : db'.outbox = db.outbox) : Records stamp db db' [] := by
  refine ⟨by simpa using houtbox,?_,?_,fun h => houtbox ▸ h,?_,?_,?_⟩ <;>
    exact fun e he => nomatch he

theorem records_charge (hkey : db.Keyed) {middle : Database} {completed : RouteAttempt}
    (hchg : Charged stamp db request attempt outcome now random events middle completed db') :
    db.Extends db' ∧ Records stamp db db' events := by
  obtain ⟨hvalid,-,hevents,hcompl,hins⟩ := hchg
  obtain ⟨hext,houtbox,hreqs,hopen,a,ha,haid,hstat⟩ :=
    extends_completeAttemptInTransaction hkey hcompl
  rcases usageEvents_spec hevents with ⟨rfl,hnone⟩ | ⟨usage,kind,husage,-,-,huniform,-⟩
  · cases hins
    exact ⟨hext,records_nil houtbox⟩
  · by_cases hne : events = []
    · rw [hne] at hins ⊢
      cases hins
      exact ⟨hext,records_nil houtbox⟩
    · obtain ⟨hall,-,hins⟩ := (insertUsageEvents_eq_ok huniform hne).mp hins
      obtain ⟨⟨⟨hids,-,hplaced⟩,hchecks⟩,rfl⟩ := insertOutbox_eq_ok.mp hins
      have hfacts : ∀ e ∈ events, e.attemptID = attempt.id ∧ e.observedAt = now := by
        intro e he
        rw [huniform e he]
        exact ⟨rfl,rfl⟩
      have hrows : storedRows events (stamp now) =
          events.map fun e => inserted e (stamp e.observedAt) := by
        apply map_congr_left
        intro e he
        rw [(hfacts e he).2]
      have hmem : ∀ e ∈ events, inserted e (stamp e.observedAt) ∈
          storedRows events (stamp now) := fun e he => hrows ▸ mem_map_of_mem he
      refine ⟨hext.trans (extends_of_eq hext.keyed rfl rfl),?_,hall,
        fun e he => hchecks _ (hmem e he),fun _ => hids,?_,?_,?_⟩
      · rw [← houtbox,← hrows]
        rfl
      · intro e he
        obtain ⟨hreq,a',ha',hrequestID,hid,hdep⟩ := hplaced _ (hmem e he)
        refine ⟨hreq,a',ha',hrequestID,hid,hdep,?_⟩
        have hone : a' = a := inj_on_of_nodup_map hext.keyed.attempts ha' ha
          (hid.trans ((hfacts e he).1.trans haid.symm))
        rw [hone,hstat]
        exact (terminal_of_validate hvalid).1
      · intro e he
        obtain ⟨old,hold,holdID,hstat'⟩ := hopen
        exact ⟨old,hold,holdID.trans (hfacts e he).1.symm,hstat'⟩
      · exact fun e he e' he' => (hfacts e he).1.trans (hfacts e' he').1.symm

theorem Records.later {mid : Database} (h : Records stamp db mid events)
    (hext : mid.Extends db') (houtbox : db'.outbox = mid.outbox) : Records stamp db db' events := by
  refine { h with outbox := houtbox.trans h.outbox, keys := ?_, attributed := ?_ }
  · rw [houtbox]
    exact h.keys
  · intro e he
    obtain ⟨⟨r,hr,htenant,hid⟩,a,ha,hreq,haid,hdep,hfinal⟩ := h.attributed e he
    obtain ⟨r',hr',hkept⟩ := hext.requests r hr
    obtain ⟨a',ha',hkept'⟩ := hext.attempts a ha
    obtain ⟨hid',htenant',-⟩ := hkept.columns
    obtain ⟨haid',hreq',hdep'⟩ := hkept'.columns
    exact ⟨⟨r',hr',htenant'.trans htenant,hid'.trans hid⟩,a',ha',hreq'.trans hreq,
      haid'.trans haid,hdep'.trans hdep,hkept'.final hfinal ▸ hfinal⟩

theorem commit_effect (hkey : db.Keyed) {call : Call} (h : db.commit stamp call = .ok db') :
    db.Extends db' ∧ Records stamp db db' call.events := by
  cases call with
  | startRequest start now references =>
    obtain ⟨⟨_,row⟩,hstart,rfl⟩ := map_eq_ok.mp h
    obtain ⟨-,hstart⟩ := guard_eq_ok.mp hstart
    refine ⟨extends_insertRequest hkey hstart,records_nil ?_⟩
    obtain ⟨-,hres⟩ := insertRequest_eq_ok.mp hstart
    cases hres
    rfl
  | markRouting request now =>
    obtain ⟨⟨_,row⟩,hmark,rfl⟩ := map_eq_ok.mp h
    obtain ⟨-,hmark⟩ := guard_eq_ok.mp hmark
    refine ⟨extends_updateRequest hkey hmark,records_nil ?_⟩
    obtain ⟨_,_,_,_,_,_,_,heq⟩ := updateRequest_row hkey hmark
    rw [heq]
  | failRequest request status reason now =>
    obtain ⟨⟨_,row⟩,hfail,rfl⟩ := map_eq_ok.mp h
    obtain ⟨-,hfail⟩ := guard_eq_ok.mp hfail
    refine ⟨extends_updateRequest hkey hfail,records_nil ?_⟩
    obtain ⟨_,_,_,_,_,_,_,heq⟩ := updateRequest_row hkey hfail
    rw [heq]
  | startAttempt request deploymentID now random =>
    obtain ⟨⟨_,row,started⟩,hstart,rfl⟩ := map_eq_ok.mp h
    obtain ⟨hext,houtbox⟩ := extends_startAttempt hkey hstart
    exact ⟨hext,records_nil houtbox⟩
  | markAttemptStreaming request attempt providerRequestID headerObservedAt firstByteAt =>
    obtain ⟨⟨_,streaming⟩,hmark,rfl⟩ := map_eq_ok.mp h
    obtain ⟨hext,houtbox⟩ := extends_markAttemptStreaming hkey hmark
    exact ⟨hext,records_nil houtbox⟩
  | completeAttempt request attempt outcome now random =>
    obtain ⟨⟨_,row,completed⟩,hcompl,rfl⟩ := map_eq_ok.mp h
    obtain ⟨-,events,middle,charged,hchg,hfinal⟩ := completeAttempt_eq_ok.mp hcompl
    obtain ⟨hext,hrecs⟩ := records_charge hkey hchg
    have hlast := extends_updateRequest hext.keyed hfinal
    obtain ⟨_,_,_,_,_,_,_,heq⟩ := updateRequest_row hext.keyed hfinal
    have hcall : (Call.completeAttempt request attempt outcome now random).events = events := by
      rw [Call.events,hchg.observed]
      rfl
    rw [hcall]
    exact ⟨hext.trans hlast,hrecs.later hlast (by rw [heq])⟩
  | completeAttemptForRetry request attempt outcome now random =>
    obtain ⟨⟨_,completed⟩,hcompl,rfl⟩ := map_eq_ok.mp h
    obtain ⟨-,events,middle,hchg⟩ := completeAttemptForRetry_eq_ok.mp hcompl
    have hcall : (Call.completeAttemptForRetry request attempt outcome now random).events =
        events := by
      rw [Call.events,hchg.observed]
      rfl
    rw [hcall]
    exact records_charge hkey hchg
  | addDeployment deployment =>
    obtain ⟨-,rfl⟩ := ite_eq_ok.mp h
    exact ⟨extends_of_eq hkey rfl rfl,records_nil rfl⟩
  | changeDeployment id physicalModel version providerProtocolVersion =>
    cases h
    exact ⟨extends_of_eq hkey rfl rfl,records_nil rfl⟩

end Database
end Execution
