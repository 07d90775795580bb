import AiGateway.Pipeline.Runs

/-! Events come unchanged from the recorder to the ledger, where no row of the outbox is deleted. -/
namespace Pipeline
open Machine Adapter Metering Execution Ledger MeteringOutbox MeteringConsumer List State

variable {ι κ ω P H : Type} {stamp : Time → Time} {w : Wire ι H} {s : State ι κ ω P H}
  {fingerprint : H} {group : String} {e : UsageEvent}

/-- The stored event, as any relay encodes it, is valid for the relay and for the consumer, and the
consumer finds in it that event with this fingerprint. -/
structure Wire.Survives (w : Wire ι H) (event : UsageEvent) (fingerprint : H) : Prop where
  valid : event.validate
  encodes : ∀ i, ∃ payload, w.encode i event = some payload
  accepted : ∀ i payload, w.encode i event = some payload →
    canonicalUsageEvent w.codec event.eventID payload = .ok (event,fingerprint)

theorem Recorded.survives {db : Database} (h : Recorded stamp w db e) (hw : w.Shows) :
    ∃ fingerprint, w.Survives (stored stamp e) fingerprint := by
  obtain ⟨fingerprint,hacc⟩ := h.canonical hw
  exact ⟨fingerprint,h.stored_valid,h.encodes hw,hacc⟩

theorem Sound.original_unique (hs : Sound stamp w s)
    (hrows : s.relays.rows.map (·.event) = s.originals.map (facts stamp)) {e' : UsageEvent}
    (he : e ∈ s.originals) (he' : e' ∈ s.originals) (hid : e.eventID = e'.eventID) : e = e' := by
  have hids : (s.originals.map (·.eventID)).Nodup := by
    have hsame : s.originals.map (·.eventID) = s.relays.rows.map (·.event.eventID) := by
      have hmap := congrArg (map (·.eventID)) hrows
      rw [map_map,map_map] at hmap
      exact hmap.symm
    rw [hsame]
    exact hs.rowIDs
  exact inj_on_of_nodup_map hids he he' hid

variable {delivery : Delivery P} {event : UsageEvent}

theorem Sound.replayed [DecidableEq H] (hs : Sound stamp w s)
    (hrows : s.relays.rows.map (·.event) = s.originals.map (facts stamp)) {i : κ}
    (hphase : (s.consumers.sessions i).phase = .replaying delivery event fingerprint) :
    ∃ result, loadReplay s.tables event.eventID fingerprint = .ok result := by
  have hsess := (hs.consumers.sessions i).phase
  rw [hphase] at hsess
  obtain ⟨hcont,hrcpt⟩ := hsess
  obtain ⟨entry,hentry,horig,hid⟩ := hs.consumers.mem_receipts.mp hrcpt
  obtain ⟨event',hsound⟩ := hs.consumers.entries entry hentry horig
  obtain ⟨consumedAt,hfacts⟩ := hsound.facts
  have hid' : event'.eventID = event.eventID := by
    rw [← hid,hfacts]
    rfl
  have hsame : event' = event := by
    obtain ⟨e,he,rfl⟩ := hcont.known
    obtain ⟨e',he',rfl⟩ := hsound.known
    rw [hs.original_unique hrows he' he hid']
  obtain ⟨receipt,hmem,hreceiptID,hsha⟩ := hsound.recorded.receipt
  obtain ⟨found,-,-,hload⟩ := hs.consumers.loadReplay_eq hmem fingerprint
  rw [hsame,hcont.encoded,Option.some.injEq] at hsha
  rw [hreceiptID,hid',if_neg (not_not.mpr hsha.symm)] at hload
  exact ⟨_,hload⟩

/-- The row of a priced event meets the constraints and passes the triggers of the ledger. -/
theorem Sound.charged (hs : Sound stamp w s) {i : κ} {consumedAt : Time} {priceVersionID : String}
    {amountMicros : ℤ}
    (hphase : (s.consumers.sessions i).phase =
      .priced delivery event fingerprint consumedAt priceVersionID amountMicros) :
    (entryOf stamp event consumedAt priceVersionID amountMicros).Check ∧ s.tables.priceLock
        (entryOf stamp event consumedAt priceVersionID amountMicros) ∧ s.tables.adjustmentIntegrity
        (entryOf stamp event consumedAt priceVersionID amountMicros) := by
  have hsess := (hs.consumers.sessions i).phase
  rw [hphase] at hsess
  obtain ⟨hcont,hsel⟩ := hsess
  refine ⟨entryOf_check hcont.valid hsel.amount_range,?_,?_⟩
  · exact (hsel.priced fun t ht => ht).priceLock hs.ledger.ledger.keyed
  · rw [Tables.adjustmentIntegrity,if_pos (of_decide_eq_true (original_of_validate hcont.valid))]

variable [DecidableEq ι] [DecidableEq κ] [DecidableEq ω] [DecidableEq P] [DecidableEq H]
variable {options : ι → Options}

theorem reaches_rows (hw : w.Shows) (hstamp : ∀ t, stamp (stamp t) = stamp t)
    (h : Reaches stamp w options group False s) :
    s.relays.rows.map (·.event) = s.originals.map (facts stamp) := by
  induction h with
  | start clock deployments hprices => rfl
  | step h action htimely ih =>
    rename_i s
    have hs := reaches_sound hw hstamp h
    cases action with
    | call c broken =>
      simp only [step,call]
      split_ifs
      · exact ih
      · split
        · exact ih
        · rename_i db hcommit
          obtain ⟨-,hrecs⟩ := Database.commit_effect (database_keyed hs) hcommit
          show db.outbox.map (·.event) = (s.originals ++ c.events).map (facts stamp)
          rw [hrecs.outbox,map_append,map_append,map_map]
          exact congrArg (· ++ _) ih
    | relay action =>
      simp only [step,relay]
      split_ifs with hsome
      · obtain ⟨i,hrelay⟩ := Option.isSome_iff_exists.mp hsome
        obtain ⟨g,hrows,hkept⟩ := s.relays.step_rows stamp w.encode options hrelay
        show (s.relays.step stamp w.encode options action).rows.map (·.event) = _
        rw [hrows,map_map,← ih]
        apply map_congr_left
        intro row hrow
        exact (hkept row hrow).event
      · exact ih
    | consume action =>
      simp only [step,consume]
      split_ifs <;> exact ih
    | adjust action =>
      simp only [step,adjust]
      split_ifs <;> exact ih
    | price deployments prices =>
      simp only [step,price]
      split_ifs <;> exact ih
  | purge h hdeletes eventID ih => exact hdeletes.elim

variable (stamp w) in
/-- What becomes of the events of committed completions. -/
structure State.Delivers (s : State ι κ ω P H) : Prop where
  recorded : s.relays.rows.map (·.event) = s.originals.map (facts stamp)
  -- every row, whoever claims it and whenever, is read back as its event and gets through
  scanned : ∀ row ∈ s.relays.rows, ∃ e ∈ s.originals, (scan row).event = stored stamp e ∧
    ∃ fingerprint, w.Survives (scan row).event fingerprint
  -- the loop of a relay does not stop before it has published
  continued : ∀ i leaseID event todo, (s.relays.sessions i).phase =
    .working leaseID (event :: todo) →
    event.event.validate ∧ ∃ payload, w.encode i event.event = some payload
  -- the publications of one event have one content and one fingerprint
  published : ∀ p ∈ s.relays.log, ∃ e ∈ s.originals, p.eventID = e.eventID
  agreed : ∀ e ∈ s.originals, ∃ fingerprint, ∀ p ∈ s.relays.log, p.eventID = e.eventID →
    canonicalUsageEvent w.codec p.eventID p.payload = .ok (stored stamp e,fingerprint)
  -- a replay finds the receipt of the same content
  replayed : ∀ i delivery event fingerprint,
    (s.consumers.sessions i).phase = .replaying delivery event fingerprint →
    ∃ result, loadReplay s.tables event.eventID fingerprint = .ok result
  -- the row of a priced event is one that the ledger accepts
  charged : ∀ i delivery event fingerprint consumedAt priceVersionID amountMicros,
    (s.consumers.sessions i).phase =
      .priced delivery event fingerprint consumedAt priceVersionID amountMicros →
    let entry := entryOf stamp event consumedAt priceVersionID amountMicros
    entry.Check ∧ s.tables.priceLock entry ∧ s.tables.adjustmentIntegrity entry

/-- In every state that actions lead to, the committed events are delivered unchanged. -/
theorem reaches_delivers {options : ι → Options} {group : String} (hw : w.Shows)
    (hstamp : ∀ t, stamp (stamp t) = stamp t) (h : Reaches stamp w options group False s) :
    s.Delivers stamp w := by
  have hs := reaches_sound hw hstamp h
  have hrows := reaches_rows hw hstamp h
  refine ⟨hrows,?_,?_,?_,?_,?_,?_⟩
  · intro row hrow
    obtain ⟨e,he,hfacts⟩ := hs.rows row hrow
    have hscan := scan_facts (hs.originals e he).valid hfacts
    rw [hscan]
    exact ⟨e,he,rfl,(hs.originals e he).survives hw⟩
  · intro i leaseID event todo hphase
    have hevents := hs.relays.sessions i
    rw [hphase] at hevents
    obtain ⟨e,he,hevent⟩ := hevents event mem_cons_self
    rw [hevent]
    exact ⟨(hs.originals e he).stored_valid,(hs.originals e he).encodes hw i⟩
  · intro p hp
    obtain ⟨i,_,⟨e,he,rfl⟩,hid,-⟩ := hs.relays.log p hp
    exact ⟨e,he,hid⟩
  · intro e he
    obtain ⟨fingerprint,hacc⟩ := (hs.originals e he).canonical hw
    refine ⟨fingerprint,?_⟩
    intro p hp hid
    obtain ⟨i,_,⟨e',he',rfl⟩,hid',hencode⟩ := hs.relays.log p hp
    have hsame : e' = e := hs.original_unique hrows he' he (hid'.symm.trans hid)
    rw [hsame] at hencode
    rw [hid]
    exact hacc i p.payload hencode
  · intro i delivery event fingerprint hphase
    exact hs.replayed hrows hphase
  · intro i delivery event fingerprint consumedAt priceVersionID amountMicros hphase
    exact hs.charged hphase

theorem reaches_foldl {deletes : Prop} (actions : List (Pipeline.Action ι κ ω P H))
    (htimely : ∀ action ∈ actions, action.Timely stamp w)
    (h : Reaches stamp w options group deletes s) : Reaches stamp w options group deletes
      (actions.foldl (fun s action => s.step stamp w options group action) s) := by
  exact foldlRecOn _ _ h fun s hs action haction => hs.step action (htimely action haction)

/-! A sample: a completion with one usage event, which two relays in different zones publish. -/

def sampleCompletion : Call :=
  .completeAttempt sampleRequest sampleAttempt
    (sampleOutcome { sampleUsage 12 with outputTokens := ⟨0,true⟩ }) 2000 (sampleRandom 9)

omit [DecidableEq ι] [DecidableEq κ] [DecidableEq ω] [DecidableEq P] [DecidableEq H] in
theorem sampleCalls_timely (w : Wire ι H) :
    ∀ c ∈ sampleCalls, (Action.call c false : Pipeline.Action ι κ ω P H).Timely stamp w := by
  have hnone : ∀ c ∈ sampleCalls, c.events = [] := by
    simp [sampleCalls,Call.events]
  intro c hc
  show ∀ e ∈ c.events, _
  rw [hnone c hc]
  exact forall_mem_nil _

def sampleWire : Wire Bool Unit where
  shown i _ :=
    some (if i then "1970-01-01T00:00:00.000002Z" else "1970-01-01T01:00:00.000002+01:00")
  utc _ := some "1970-01-01T00:00:00.000002Z"
  zone i _ := if i then 0 else 3600000000000
  decode _ := sampleCompletion.events.head?
  sha256 _ := ()

theorem sampleWire_shows : sampleWire.Shows := by
  refine ⟨?_,fun t _ => ⟨_,rfl⟩⟩
  intro i t _
  refine ⟨_,rfl,?_⟩
  cases i <;> decide

def sampleActions : List (Pipeline.Action Bool Unit Unit Unit Unit) :=
  (sampleCalls ++ [sampleCompletion]).map (.call · false) ++
    [.relay (.wake false 3000 "lease-a"),.relay (.claim false [] [] .answered),
      .relay (.publish false true false 4000),.relay (.crash false),
      .relay (.wake true 20000000000 "lease-b"),.relay (.claim true [] [] .answered),
      .relay (.publish true true false 20000001000),.relay (.mark true .answered)]

theorem sampleCompletion_timely : ∀ e ∈ sampleCompletion.events,
    sampleWire.InYears (toMicrosecond e.observedAt) ∧
      (∀ metadata ∈ e.estimate, metadata.deploymentVersion < 2 ^ 63) ∧
      sampleWire.Decodes (stored toMicrosecond e) := by
  have hfacts : sampleCompletion.events.map (fun e => (e.observedAt,e.estimate)) =
      [(2000,none)] := by decide +kernel
  obtain ⟨e,hevents,hfact⟩ := map_eq_singleton_iff.mp hfacts
  rw [Prod.mk.injEq] at hfact
  obtain ⟨htime,hest⟩ := hfact
  rw [hevents,forall_mem_singleton,htime,hest]
  refine ⟨⟨by decide,by decide,by decide⟩,(fun _ h => nomatch h),?_⟩
  intro i text _
  have hstored : stored toMicrosecond e = e := by
    have hsame : toMicrosecond e.observedAt = e.observedAt := by rw [htime]; rfl
    rw [stored,hsame]
  dsimp only [sampleWire]
  rw [hevents,hstored]
  rfl

theorem sampleActions_timely :
    ∀ action ∈ sampleActions, action.Timely toMicrosecond sampleWire := by
  rw [sampleActions,forall_mem_append,forall_mem_map,forall_mem_append,forall_mem_singleton]
  exact ⟨⟨sampleCalls_timely _,sampleCompletion_timely⟩,by simp [Action.Timely]⟩

def sampleState : State Bool Unit Unit Unit Unit :=
  sampleActions.foldl (fun s action => s.step toMicrosecond sampleWire (fun _ => defaultOptions)
    "group" action) (.start (fun _ => 0) [] ⟨[],[]⟩)

theorem sampleState_delivers :
    (sampleState.relays.rows.map (·.status),sampleState.relays.log.map (·.eventID)) =
        ([.published],
          ["09090909-0909-4909-8909-090909090900","09090909-0909-4909-8909-090909090900"]) ∧
      sampleState.Delivers toMicrosecond sampleWire := by
  refine ⟨by decide +kernel,?_⟩
  apply reaches_delivers sampleWire_shows
  · exact toMicrosecond_toMicrosecond
  · exact reaches_foldl sampleActions sampleActions_timely (.start _ _ (by decide))

end Pipeline
