import AiGateway.MeteringConsumer.Steps

/-! Consumption is exactly once in effect, over every interleaving of deliveries, failures and
commits. -/
namespace MeteringConsumer
open Machine Adapter Metering Execution Ledger MeteringConsumer.System List

variable {ι P π H : Type} {stamp : Time → Time} {codec : Codec π H} {group : String}
  {seen : Set (Tables H)} {known : Set UsageEvent} {s : System ι P π H}

theorem RecordedAs.unique {receipts : List (Receipt H)} (hnodup : (receipts.map (·.eventID)).Nodup)
    (hinj : ∀ e e' h, e.validate → e'.validate →
      codec.fingerprint e = some h → codec.fingerprint e' = some h → e = e')
    {event event' : UsageEvent} (h : RecordedAs codec receipts event)
    (h' : RecordedAs codec receipts event') (hid : event.eventID = event'.eventID) :
    event = event' := by
  obtain ⟨hvalid,receipt,hrcpt,hevent,hsha⟩ := h
  obtain ⟨hvalid',receipt',hrcpt',hevent',hsha'⟩ := h'
  have hsame : receipt = receipt' := inj_on_of_nodup_map hnodup hrcpt hrcpt'
    (hevent.trans (hid.trans hevent'.symm))
  exact hinj event event' _ hvalid hvalid' hsha (hsame ▸ hsha')

section
variable (hs : Sound stamp codec seen known s)
include hs

theorem Sound.receipts_nodup : (s.tables.receipts.map (·.eventID)).Nodup := by
  rw [hs.both]
  exact hs.nodup.sublist (filter_sublist.map _)

theorem Sound.mem_receipts {eventID : String} : eventID ∈ s.tables.receipts.map (·.eventID) ↔
      ∃ entry ∈ s.tables.entries, entry.original ∧ entry.eventID = eventID := by
  rw [hs.both,mem_map]
  simp only [mem_filter,and_assoc]

theorem Sound.loadReplay_eq [DecidableEq H] {receipt : Receipt H}
    (hrcpt : receipt ∈ s.tables.receipts) (fingerprint : H) :
    ∃ entry ∈ s.tables.entries, entry.eventID = receipt.eventID ∧
      loadReplay s.tables receipt.eventID fingerprint =
        if receipt.payloadSHA256 ≠ fingerprint then .error .eventConflict
        else .ok ⟨receipt.eventID,entry.priceVersionID,entry.amountMicros,false,true⟩ := by
  obtain ⟨entry,hentry,-,hid⟩ := hs.mem_receipts.mp (mem_map_of_mem hrcpt)
  have hfound : s.tables.receipts.find? (fun r => r.eventID = receipt.eventID) = some receipt :=
    (Relational.find?_eq_some hs.receipts_nodup).mpr ⟨hrcpt,rfl⟩
  have hfound' : s.tables.entry? receipt.eventID = some entry :=
    (Relational.find?_eq_some hs.nodup).mpr ⟨hentry,hid⟩
  refine ⟨entry,hentry,hid,?_⟩
  rw [loadReplay,hfound,hfound']

end

theorem receiptOf_checks {event : UsageEvent} (hgroup : consumerGroupPattern group)
    (hvalid : event.validate) (fingerprint : H) (consumedAt : Time) :
    (receiptOf stamp group event fingerprint consumedAt).checks := by
  simp only [UsageEvent.validate,Bool.and_eq_true,usageEventSchemaVersionV1,
    usageEventSchemaVersion] at hvalid
  have hver := hvalid.1.1.1.1.1.1.1.1
  simp only [Receipt.checks,receiptOf,hgroup,Bool.and_eq_true]
  exact ⟨⟨hver,trivial⟩,by decide⟩

variable [DecidableEq ι] [DecidableEq P] [DecidableEq H]
variable (stamp codec group) in
structure System.ExactlyOnce (start s : System ι P π H) : Prop where
  receipts : (s.tables.receipts.map (·.eventID)).Nodup
  entries : (s.tables.entries.map (·.eventID)).Nodup
  both : ∀ eventID, eventID ∈ s.tables.receipts.map (·.eventID) ↔
    ∃ entry ∈ s.tables.entries, entry.original ∧ entry.eventID = eventID
  /-- The amount of an entry is that of a rate that was selected on the way here. -/
  priced : ∀ entry ∈ s.tables.entries, entry.original → ∃ event,
    RecordedAs codec s.tables.receipts event ∧
    (∃ consumedAt, entry = entryOf stamp event consumedAt entry.priceVersionID entry.amountMicros) ∧
    ∃ past : System ι P π H, start.Leads stamp codec group past ∧
      past.Leads stamp codec group s ∧ ∃ rate,
        selectEffectiveRate stamp past.tables event = .ok (entry.priceVersionID,rate) ∧
        calculateAmountMicros entry.quantity rate = .ok entry.amountMicros
  /-- Successful calls for one event ID were about one content and returned one price. -/
  agree : ∀ event result event' result', (event,.ok result) ∈ s.log →
    (event',.ok result') ∈ s.log → event.eventID = event'.eventID →
    event = event' ∧ result.priceVersionID = result'.priceVersionID ∧
      result.amountMicros = result'.amountMicros
  /-- A call for a recorded event ID comes to the replay, -/
  meets : ∀ i delivery event fingerprint consumedAt,
    (s.sessions i).phase = .received delivery event fingerprint consumedAt →
    event.eventID ∈ s.tables.receipts.map (·.eventID) →
    s.step stamp codec group (.receipt i) = s.phase i (.replaying delivery event fingerprint)
  /-- which refuses another content and writes nothing, -/
  conflict : ∀ i delivery event fingerprint,
    (s.sessions i).phase = .replaying delivery event fingerprint →
    ∀ recorded, RecordedAs codec s.tables.receipts recorded → recorded.eventID = event.eventID →
    recorded ≠ event → ∀ reply, s.step stamp codec group (.replay i reply) =
      s.finish i delivery event (.error .eventConflict)
  /-- and returns what is stored for the same content. -/
  replay : ∀ i delivery event fingerprint,
    (s.sessions i).phase = .replaying delivery event fingerprint →
    RecordedAs codec s.tables.receipts event → ∃ entry ∈ s.tables.entries,
      entry.eventID = event.eventID ∧ s.step stamp codec group (.replay i .answered) =
        s.finish i delivery event
          (.ok ⟨event.eventID,entry.priceVersionID,entry.amountMicros,false,true⟩)
  offsets : ∀ p o, o < s.committed p → Processed codec s.topic s.tables.receipts p o

theorem leads_exactlyOnce (hgroup : consumerGroupPattern group)
    (hinj : ∀ e e' h, e.validate → e'.validate →
      codec.fingerprint e = some h → codec.fingerprint e' = some h → e = e')
    {tables : Tables H} (h : (start tables).Leads stamp codec group s) :
    ExactlyOnce stamp codec group (start tables) s := by
  have hs := leads_sound h
  refine ⟨hs.receipts_nodup,hs.nodup,fun eventID => hs.mem_receipts,?_,?_,?_,?_,?_,hs.committed⟩
  · intro entry hentry horig
    obtain ⟨event,hsound⟩ := hs.entries entry hentry horig
    obtain ⟨past,⟨system,hstart,hleads,rfl⟩,rate,hselect,hamt⟩ := hsound.selected
    obtain ⟨consumedAt,hfacts⟩ := hsound.facts
    have hqty : entry.quantity = event.quantity := by
      rw [hfacts]
      rfl
    exact ⟨event,hsound.recorded,⟨consumedAt,hfacts⟩,system,hstart,hleads,rate,hselect,hqty ▸ hamt⟩
  · intro event result event' result' hcall hcall' hid
    obtain ⟨hrec,entry,hentry,hentryID,hprice,hamt⟩ := hs.log _ hcall result rfl
    obtain ⟨hrec',entry',hentry',hentryID',hprice',hamt'⟩ := hs.log _ hcall' result' rfl
    have hsame : entry = entry' := inj_on_of_nodup_map hs.nodup hentry hentry'
      (hentryID.trans (hid.trans hentryID'.symm))
    rw [hprice,hamt,hprice',hamt',hsame]
    exact ⟨RecordedAs.unique hs.receipts_nodup hinj hrec hrec' hid,rfl,rfl⟩
  · intro i delivery event fingerprint consumedAt hphase hrec
    have hcont := (hs.sessions i).phase
    rw [hphase] at hcont
    have hlock : event.eventID ∉ s.locks.map Prod.fst := fun hlock => hs.free _ hlock hrec
    show s.receipt stamp group i = _
    rw [receipt,hphase]
    simp [receiptOf_checks hgroup hcont.valid,hlock,hrec]
  · intro i delivery event fingerprint hphase recorded hrec hid hdifferent reply
    have hcont := (hs.sessions i).phase
    rw [hphase] at hcont
    obtain ⟨hvalid,receipt,hrcpt,hreceiptID,hsha⟩ := hrec
    obtain ⟨entry,-,-,hreplay⟩ := hs.loadReplay_eq hrcpt fingerprint
    have hother : receipt.payloadSHA256 ≠ fingerprint := by
      intro hsame
      exact hdifferent (hinj _ _ _ hvalid hcont.1.valid hsha (hsame ▸ hcont.1.encoded))
    rw [if_pos hother,hreceiptID,hid] at hreplay
    show s.replay i reply = _
    rw [System.replay,hphase]
    simp only [hreplay]
  · intro i delivery event fingerprint hphase hrec
    have hcont := (hs.sessions i).phase
    rw [hphase] at hcont
    obtain ⟨receipt,hrcpt,hreceiptID,hsha⟩ := hrec.receipt
    obtain ⟨entry,hentry,hentryID,hreplay⟩ := hs.loadReplay_eq hrcpt fingerprint
    rw [hcont.1.encoded,Option.some.injEq] at hsha
    rw [if_neg (not_not.mpr hsha.symm),hreceiptID] at hreplay
    refine ⟨entry,hentry,hentryID.trans hreceiptID,?_⟩
    show s.replay i .answered = _
    rw [System.replay,hphase]
    simp only [hreplay,if_true]

/-! A sample: one consumer fetches a record and loses the answer to its commit while another waits
for the receipt; then the record is delivered again, and a changed event is refused. -/

def sampleCodec : Codec (UsageEvent × ℕ) UsageEvent :=
  ⟨fun _ => 1,fun payload => some payload.1,some⟩

def sampleActions : List (Action Bool Unit (UsageEvent × ℕ) UsageEvent) :=
  [.produce () ⟨usageEventTopic,sampleEvent.eventID,(sampleEvent,0)⟩,.connect true,
    .poll true [(),()],.next true 9000,.receipt true,
    .deliver false sampleEvent.eventID (sampleEvent,1) 9500,.receipt false,.select true,
    .charge true .unanswered,.receipt false,.replay false .answered,.connect true,
    .poll true [()],.next true 9900,.receipt true,.replay true .answered,.commit true .answered,
    .deliver false sampleEvent.eventID ({ sampleEvent with quantity := 13 },0) 9950,
    .receipt false,.replay false .answered]

def sampleSystem : System Bool Unit (UsageEvent × ℕ) UsageEvent :=
  sampleActions.foldl (fun s action => s.step id sampleCodec "metering" action)
    (start (sampleTables _))

theorem sampleSystem_exactlyOnce :
    sampleSystem.log.map (fun call => call.2.toOption.map fun r => (r.amountMicros,r.replayed)) =
      [none,some (3,true),some (3,true),none] ∧
    sampleSystem.tables.entries.map (fun entry => (entry.eventID,entry.amountMicros)) =
      [(sampleEvent.eventID,3)] ∧ sampleSystem.committed () = 1 ∧
    ExactlyOnce id sampleCodec "metering" (start (sampleTables _)) sampleSystem := by
  refine ⟨by decide +kernel,by decide +kernel,by decide +kernel,?_⟩
  apply leads_exactlyOnce (by decide)
  · intro e e' h _ _ he he'
    simp only [sampleCodec,Option.some.injEq] at he he'
    exact he.trans he'.symm
  · exact foldlRecOn _ _ .refl fun s hs action _ => hs.tail ⟨action,rfl⟩

end MeteringConsumer
