import AiGateway.MeteringAdjustment.Exact
import AiGateway.MeteringConsumer.Rows
import AiGateway.Pipeline.System

/-! What holds of the whole way of an event between any two steps. -/
namespace Pipeline
open Text Machine Adapter Metering Execution Ledger MeteringOutbox MeteringConsumer

variable {ι κ ω P H : Type}

/-- The facts of the row that the recorder writes. -/
def facts (stamp : Time → Time) (event : UsageEvent) : UsageEvent :=
  (OutboxRow.inserted event (stamp event.observedAt)).event

/-- The committed events, as the table gives them back. -/
def State.known (stamp : Time → Time) (s : State ι κ ω P H) : Set UsageEvent :=
  { event | ∃ e ∈ s.originals, event = stored stamp e }

/-- A committed event and the records that it refers to. -/
structure Recorded (stamp : Time → Time) (w : Wire ι H) (db : Database)
    (e : UsageEvent) : Prop where
  valid : e.validate
  years : w.InYears (stamp e.observedAt)
  version : ∀ metadata ∈ e.estimate, metadata.deploymentVersion < 2 ^ 63
  decodes : w.Decodes (stored stamp e)
  request : ∃ r ∈ db.requests, r.tenantID = e.tenantID ∧ r.id = e.requestID
  attempt : ∃ a ∈ db.attempts, a.requestID = e.requestID ∧ a.id = e.attemptID ∧
    a.deploymentID = e.deploymentID ∧ a.status.terminal

/-- The consumer has priced the event. -/
def Settled (db : Tables H) (e : UsageEvent) : Prop :=
  ∃ entry ∈ db.entries, entry.original ∧ entry.eventID = e.eventID ∧
    entry.tenantID = e.tenantID ∧ entry.requestID = e.requestID ∧
    entry.attemptID = some e.attemptID

structure Sound (stamp : Time → Time) (w : Wire ι H) (s : State ι κ ω P H) : Prop where
  requests : s.records.requests = s.tables.requests
  attempts : s.records.attempts = s.tables.attempts
  keyed : s.records.Keyed
  originals : ∀ e ∈ s.originals, Recorded stamp w s.records e
  unique : (s.originals.map fun e => (e.eventID,e.attemptID)).Nodup
  rows : ∀ row ∈ s.relays.rows, ∃ e ∈ s.originals, row.event = facts stamp e
  rowIDs : (s.relays.rows.map (·.event.eventID)).Nodup
  kept : ∀ e ∈ s.originals, (∃ row ∈ s.relays.rows, row.event = facts stamp e) ∨ Settled s.tables e
  relays : s.relays.Scanned w.encode (s.known stamp)
  consumers : MeteringConsumer.Sound stamp w.codec { t | t.Later s.tables } (s.known stamp)
    s.consumers
  ledger : MeteringAdjustment.Sound stamp s.ledger

section Events
variable {stamp : Time → Time} {w : Wire ι H} {db db' : Database} {e : UsageEvent}

theorem Recorded.extends (h : Recorded stamp w db e) (hext : db.Extends db') :
    Recorded stamp w db' e := by
  obtain ⟨r,hr,htenant,hid⟩ := h.request
  obtain ⟨r',hr',hkept⟩ := hext.requests r hr
  obtain ⟨a,ha,hreq,haid,hdep,hfinal⟩ := h.attempt
  obtain ⟨a',ha',hkept'⟩ := hext.attempts a ha
  obtain ⟨hid',htenant',-⟩ := hkept.columns
  obtain ⟨haid',hreq',hdep'⟩ := hkept'.columns
  exact { h with
    request := ⟨r',hr',htenant'.trans htenant,hid'.trans hid⟩
    attempt := ⟨a',ha',hreq'.trans hreq,haid'.trans haid,
      hdep'.trans hdep,hkept'.final hfinal ▸ hfinal⟩ }

theorem Recorded.stored_valid (h : Recorded stamp w db e) : (stored stamp e).validate :=
  validate_stored h.valid (ne_of_gt h.years.1)

theorem scan_facts {row : OutboxRow} (hvalid : e.validate) (h : row.event = facts stamp e) :
    (scan row).event = stored stamp e := by
  rw [stored,← scan_inserted hvalid,scan,scan,h]
  rfl

theorem Recorded.encodes (h : Recorded stamp w db e) (hw : w.Shows) (i : ι) :
    ∃ payload, w.encode i (stored stamp e) = some payload := by
  obtain ⟨text,htext,-⟩ := hw.shown i _ h.years
  refine ⟨marshal (stored stamp e) text,?_⟩
  show (w.shown i (stamp e.observedAt)).map _ = _
  rw [htext]
  rfl

theorem withUnit_of_validate {event : UsageEvent} (h : event.validate) :
    withUnit event = event := by
  simp only [UsageEvent.validate,Bool.and_eq_true,decide_eq_true_eq] at h
  have hunit : event.billingUnit = .token := h.1.1.1.1.2
  rw [withUnit,if_neg (by rw [hunit]; decide)]

/-- Whatever relay has encoded the event, a consumer finds the event in it, with one fingerprint. -/
theorem Recorded.canonical (h : Recorded stamp w db e) (hw : w.Shows) :
    ∃ fingerprint, ∀ i payload, w.encode i (stored stamp e) = some payload →
      canonicalUsageEvent w.codec e.eventID payload = .ok (stored stamp e,fingerprint) := by
  obtain ⟨text,htext⟩ := hw.utc _ h.years
  refine ⟨w.sha256 (marshal (stored stamp e) text),?_⟩
  intro i payload hpayload
  obtain ⟨shown,hshown,hlen⟩ := hw.shown i _ h.years
  have hmarshal : payload = marshal (stored stamp e) shown := by
    have hencode : w.encode i (stored stamp e) = some (marshal (stored stamp e) shown) := by
      show (w.shown i (stamp e.observedAt)).map _ = _
      rw [hshown]
      rfl
    rw [hencode,Option.some.injEq] at hpayload
    exact hpayload.symm
  have hvalid := h.stored_valid
  have hsize := marshal_size hvalid h.version hlen
  have hkey : e.eventID ≠ "" := by
    intro hempty
    have hid := h.valid
    simp only [UsageEvent.validate,Bool.and_eq_true,decide_eq_true_eq] at hid
    have hlen := isUUID_length hid.1.1.1.1.1.1.1.2
    rw [hempty] at hlen
    cases hlen
  have hbytes : w.codec.size payload = payload.utf8ByteSize := rfl
  have hmost : maximumUsageEventBytes = 65536 := rfl
  rw [canonicalUsageEvent_eq_ok,hbytes,hmost,hmarshal]
  refine ⟨⟨hkey,hsize.1.ne',hsize.2⟩,⟨stored stamp e,?_,?_⟩,rfl,hvalid,?_⟩
  · exact h.decodes i shown hshown
  · exact (withUnit_of_validate hvalid).symm
  · show (w.utc (stamp e.observedAt)).map _ = _
    rw [htext]
    rfl

theorem Settled.later {tables tables' : Tables H} (h : Settled tables e)
    (hentries : tables.entries <+: tables'.entries) : Settled tables' e := by
  obtain ⟨entry,hentry,hfacts⟩ := h
  exact ⟨entry,hentries.subset hentry,hfacts⟩

end Events
end Pipeline
