import AiGateway.Pipeline.Invariant

/-! Every step keeps what holds of the whole way. -/
namespace Pipeline
open Text Machine Adapter Metering Execution Ledger MeteringOutbox List MeteringAdjustment State
  Tables Later
open MeteringConsumer (entryOf)

variable {ι κ ω P H : Type} {stamp : Time → Time} {w : Wire ι H} {s : State ι κ ω P H}

/-! Other tables than the ledger change. -/

section Retable
variable {tables : Tables H} (hlater : s.tables.Later tables)
  (hrcpts : tables.receipts = s.tables.receipts) (hentries : tables.entries = s.tables.entries)
include hlater hentries

include hrcpts in
theorem Sound.consumers_change (hs : Sound stamp w s) :
    MeteringConsumer.Sound stamp w.codec { t | t.Later tables } (s.known stamp)
      { s.consumers with tables := tables } := by
  have hmono : MeteringConsumer.Sound stamp w.codec { t | t.Later tables } (s.known stamp)
      s.consumers :=
    hs.consumers.mono (fun t ht => trans ht hlater) subset_rfl
  have hchange := hmono.change tables []
  have hsame : s.consumers.change tables [] = { s.consumers with tables := tables } := by
    unfold MeteringConsumer.System.change
    rw [if_pos ⟨(fun entry h => nomatch h),by simpa using hs.consumers.nodup⟩,append_nil]
    show { s.consumers with tables := { tables with
      receipts := s.tables.receipts, entries := s.tables.entries } } = _
    rw [← hrcpts,← hentries]
  rwa [hsame] at hchange

theorem Sound.ledger_change (hs : Sound stamp w s) (hkeyed : tables.Keyed) :
    MeteringAdjustment.Sound stamp ({ s.writers with tables := tables } :
      MeteringAdjustment.System ω H) := by
  have hchange := hs.ledger.change tables
  have hsame : s.ledger.change tables = { s.writers with tables := tables } := by
    unfold MeteringAdjustment.System.change
    show (if s.tables.Later { tables with entries := s.tables.entries } ∧ tables.Keyed then
      ({ s.writers with tables := { tables with entries := s.tables.entries } } :
        MeteringAdjustment.System ω H) else s.ledger) = _
    rw [← hentries,if_pos ⟨hlater,hkeyed⟩]
  rwa [hsame] at hchange

end Retable

/-! The recorder. -/

theorem State.database_keyed (hs : Sound stamp w s) : s.database.Keyed :=
  ⟨hs.keyed.requests,hs.keyed.attempts⟩

theorem Sound.later_of_extends (hs : Sound stamp w s) {db : Database}
    (hext : s.database.Extends db) :
    s.tables.Later { s.tables with requests := db.requests, attempts := db.attempts } := by
  refine { refl s.tables with requests := ?_, attempts := ?_ }
  · intro r hr
    rw [← hs.requests] at hr
    obtain ⟨r',hr',hkept⟩ := hext.requests r hr
    exact ⟨r',hr',hkept.columns⟩
  · intro a ha
    rw [← hs.attempts] at ha
    obtain ⟨a',ha',hkept⟩ := hext.attempts a ha
    exact ⟨a',ha',hkept.columns⟩

variable {events : List UsageEvent}

theorem Sound.unique_append (hs : Sound stamp w s) {db : Database}
    (hrecs : s.database.Records stamp db events) :
    ((s.originals ++ events).map fun e => (e.eventID,e.attemptID)).Nodup := by
  rw [map_append,nodup_append]
  refine ⟨hs.unique,?_,?_⟩
  · have hids : ((events.map fun e => OutboxRow.inserted e (stamp e.observedAt)).map
        (·.event.eventID)).Nodup := by
      have hall := hrecs.keys hs.rowIDs
      rw [hrecs.outbox,map_append] at hall
      exact (nodup_append.mp hall).2.1
    rw [map_map] at hids
    apply Nodup.of_map Prod.fst
    rwa [map_map]
  · intro key hkey key' hkey' hsame
    obtain ⟨e,he,rfl⟩ := mem_map.mp hkey
    obtain ⟨e',he',rfl⟩ := mem_map.mp hkey'
    rw [Prod.mk.injEq] at hsame
    obtain ⟨a,ha,-,haid,-,hfinal⟩ := (hs.originals e he).attempt
    obtain ⟨a',ha',haid',hopen⟩ := hrecs.opened e' he'
    have hone : a = a' := inj_on_of_nodup_map hs.keyed.attempts ha ha'
      (haid.trans (hsame.2.trans haid'.symm))
    rw [hone,hopen] at hfinal
    cases hfinal

theorem State.known_append {s' : State ι κ ω P H} (h : s'.originals = s.originals ++ events) :
    s.known stamp ⊆ s'.known stamp := by
  intro event hevent
  obtain ⟨e,he,hsame⟩ := hevent
  exact ⟨e,h ▸ mem_append_left _ he,hsame⟩

theorem Sound.call (hs : Sound stamp w s) {c : Call} (broken : Bool)
    (htimely : (Action.call c broken : Action ι κ ω P H).Timely stamp w) :
    Sound stamp w (s.call stamp c broken) := by
  unfold State.call
  split_ifs
  · exact hs
  · split
    · exact hs
    · rename_i db hcommit
      obtain ⟨hext,hrecs⟩ := Database.commit_effect (database_keyed hs) hcommit
      have hlater := hs.later_of_extends hext
      have hkeyed : Keyed { s.tables with requests := db.requests, attempts := db.attempts } :=
        ⟨hext.keyed.attempts,hs.ledger.ledger.keyed.prices⟩
      have houtbox : db.outbox = s.relays.rows ++
          c.events.map fun e => OutboxRow.inserted e (stamp e.observedAt) := hrecs.outbox
      have hold : ∀ e ∈ s.originals, Recorded stamp w db e := by
        intro e he
        have hrec := hs.originals e he
        have hbefore : Recorded stamp w s.database e :=
          ⟨hrec.valid,hrec.years,hrec.version,hrec.decodes,hrec.request,hrec.attempt⟩
        exact hbefore.extends hext
      have hnew : ∀ e ∈ c.events, Recorded stamp w db e := by
        intro e he
        obtain ⟨hyears,hver,hdec⟩ := htimely e he
        obtain ⟨hreq,hatt⟩ := hrecs.attributed e he
        exact ⟨hrecs.valid e he,hyears,hver,hdec,hreq,hatt⟩
      refine ⟨rfl,rfl,hext.keyed,forall_mem_append.mpr ⟨hold,hnew⟩,
        hs.unique_append hrecs,?_,hrecs.keys hs.rowIDs,?_,?_,?_,?_⟩
      · show ∀ row ∈ db.outbox, ∃ e ∈ s.originals ++ c.events, _
        rw [houtbox,forall_mem_append]
        constructor
        · intro row hrow
          obtain ⟨e,he,hfacts⟩ := hs.rows row hrow
          exact ⟨e,mem_append_left _ he,hfacts⟩
        · intro row hrow
          obtain ⟨e,he,rfl⟩ := mem_map.mp hrow
          exact ⟨e,mem_append_right _ he,rfl⟩
      · show ∀ e ∈ s.originals ++ c.events, (∃ row ∈ db.outbox, _) ∨ Settled _ e
        rw [houtbox,forall_mem_append]
        constructor
        · intro e he
          rcases hs.kept e he with ⟨row,hrow,hfacts⟩ | hsettled
          · exact .inl ⟨row,mem_append_left _ hrow,hfacts⟩
          · exact .inr (hsettled.later (prefix_refl _))
        · intro e he
          exact .inl ⟨_,mem_append_right _ (mem_map_of_mem he),rfl⟩
      · have hmore : s.known stamp ⊆ known stamp { s with originals := s.originals ++ c.events } :=
          known_append rfl
        have hknown := hs.relays.mono hmore
        refine ⟨?_,hknown.sessions,hknown.log⟩
        show ∀ row ∈ db.outbox, _
        rw [houtbox,forall_mem_append]
        refine ⟨hknown.rows,?_⟩
        intro row hrow
        obtain ⟨e,he,rfl⟩ := mem_map.mp hrow
        exact ⟨e,mem_append_right _ he,scan_facts (hrecs.valid e he) rfl⟩
      · exact (hs.consumers_change hlater rfl rfl).mono subset_rfl (known_append rfl)
      · have hledger := hs.ledger_change hlater rfl hkeyed
        exact hledger

/-! The relays. -/

theorem Sound.relay [DecidableEq ι] (hs : Sound stamp w s) (options : ι → Options)
    (action : MeteringOutbox.Action ι) : Sound stamp w (s.relay stamp w options action) := by
  unfold State.relay
  split_ifs with hsome
  · obtain ⟨i,hrelay⟩ := Option.isSome_iff_exists.mp hsome
    obtain ⟨g,hrows,hkept⟩ := s.relays.step_rows stamp w.encode options hrelay
    refine { hs with rows := ?_, rowIDs := ?_, kept := ?_, relays := hs.relays.step hrelay }
    · show ∀ row ∈ (s.relays.step stamp w.encode options action).rows, _
      rw [hrows,forall_mem_map]
      intro row hrow
      obtain ⟨e,he,hfacts⟩ := hs.rows row hrow
      exact ⟨e,he,(hkept row hrow).event.trans hfacts⟩
    · show ((s.relays.step stamp w.encode options action).rows.map _).Nodup
      rw [hrows,map_map]
      have hids : s.relays.rows.map ((·.event.eventID) ∘ g) =
          s.relays.rows.map (·.event.eventID) := by
        apply map_congr_left
        intro row hrow
        rw [Function.comp_apply,(hkept row hrow).event]
      exact hids ▸ hs.rowIDs
    · show ∀ e ∈ s.originals, (∃ row ∈ (s.relays.step stamp w.encode options action).rows, _) ∨ _
      rw [hrows]
      intro e he
      rcases hs.kept e he with ⟨row,hrow,hfacts⟩ | hsettled
      · exact .inl ⟨g row,mem_map_of_mem hrow,(hkept row hrow).event.trans hfacts⟩
      · exact .inr hsettled
  · exact hs

/-! The consumers. -/

section
variable (hs : Sound stamp w s)
include hs

theorem Sound.carries (hw : w.Shows) {key payload : String} (h : s.published key payload) :
    MeteringConsumer.Carries w.codec (s.known stamp) key payload := by
  intro event fingerprint hcanon
  obtain ⟨p,hp,hsame⟩ := any_eq_true.mp h
  simp only [Bool.and_eq_true,decide_eq_true_eq] at hsame
  obtain ⟨rfl,rfl⟩ := hsame
  obtain ⟨i,_,⟨e,he,rfl⟩,hid,hencode⟩ := hs.relays.log p hp
  obtain ⟨found,hfound⟩ := (hs.originals e he).canonical hw
  have hsame := hfound i p.payload hencode
  rw [hid] at hcanon
  rw [show (stored stamp e).eventID = e.eventID from rfl,hsame] at hcanon
  cases hcanon
  exact ⟨e,he,rfl⟩

theorem Sound.brings (hw : w.Shows) {action : MeteringConsumer.Action κ P String H}
    (h : s.allows action) : action.Brings w.codec (s.known stamp) := by
  cases action with
  | produce p record => exact hs.carries hw h
  | deliver i key payload now => exact hs.carries hw h
  | _ => trivial

theorem Sound.ledger_charge (hstamp : ∀ t, stamp (stamp t) = stamp t) {group : String}
    {consumers : MeteringConsumer.System κ P String H} {i : κ} {reply : Reply}
    {delivery : MeteringConsumer.Delivery P} {event : UsageEvent} {fingerprint : H}
    {consumedAt : Time} {priceVersionID : String} {amountMicros : ℤ}
    (hallow : s.allows (.charge i reply))
    (h : s.consumers.Charged stamp group consumers i delivery event fingerprint consumedAt
      priceVersionID amountMicros) :
    MeteringAdjustment.Sound stamp ({ s.writers with tables := consumers.tables } :
      MeteringAdjustment.System ω H) := by
  have hphase := (hs.consumers.sessions i).phase
  rw [h.phase] at hphase
  obtain ⟨hcont,-⟩ := hphase
  have hvalid := hcont.valid
  have hatt : some event.attemptID ≠ some "" := by
    intro hempty
    rw [Option.some.injEq] at hempty
    simp only [UsageEvent.validate,UsageIdentity.validate,UsageEvent.identity,
      Bool.and_eq_true,decide_eq_true_eq] at hvalid
    have hlen := isUUID_length hvalid.1.1.1.1.1.1.2.1.1.1.1.2
    rw [hempty] at hlen
    cases hlen
  have hfree : s.writers.pending.all (fun row => !clashes
      (entryOf stamp event consumedAt priceVersionID amountMicros) row.1) := by
    rw [all_eq_true]
    intro row hrow
    have hnone : s.writers.pending.any (fun row => decide (s.charging i = some row.1.eventID)) =
        false := by simpa [allows] using hallow
    have hother := any_eq_false.mp hnone row hrow
    simp only [charging,h.phase,Option.some.injEq,decide_eq_true_eq] at hother
    simp [clashes,correctionKey,entryOf,Ne.symm hother]
  -- the writers see a new row of the ledger, and then a change of the receipts
  have hrecord := hs.ledger.record (entryOf stamp event consumedAt priceVersionID amountMicros)
  have hrec : s.ledger.record stamp
      (entryOf stamp event consumedAt priceVersionID amountMicros) =
      s.ledger.append (entryOf stamp event consumedAt priceVersionID amountMicros) := by
    have hins : s.ledger.tables.insertEntry _ = _ := h.insert
    unfold System.record
    rw [if_pos ⟨MeteringConsumer.original_of_validate hcont.valid,hatt,hstamp _,hfree⟩,hins]
  rw [hrec] at hrecord
  have hchange := hrecord.change consumers.tables
  have hentries : consumers.tables.entries = (s.ledger.append (entryOf stamp event
      consumedAt priceVersionID amountMicros)).tables.entries := by
    rw [h.tables]
    rfl
  have hguard : (s.ledger.append (entryOf stamp event consumedAt priceVersionID
      amountMicros)).tables.Later consumers.tables ∧ consumers.tables.Keyed := by
    rw [h.tables]
    constructor
    · exact ⟨fun r hr => ⟨r,hr,rfl,rfl,rfl⟩,fun a ha => ⟨a,ha,rfl,rfl,rfl⟩,.refl _,prefix_refl _⟩
    · exact ⟨hs.ledger.ledger.keyed.attempts,hs.ledger.ledger.keyed.prices⟩
  unfold System.change at hchange
  rw [← hentries,if_pos hguard] at hchange
  exact hchange

theorem Sound.consume [DecidableEq κ] [DecidableEq P] [DecidableEq H] (hw : w.Shows)
    (hstamp : ∀ t, stamp (stamp t) = stamp t) (group : String)
    (action : MeteringConsumer.Action κ P String H) :
    Sound stamp w (s.consume stamp w group action) := by
  unfold State.consume
  split_ifs with hallow
  · have hchange : ∀ tables adjustments, action ≠ .change tables adjustments := by
      intro tables adjustments haction
      rw [haction] at hallow
      cases hallow
    have hstep : MeteringConsumer.Sound stamp w.codec { t | t.Later s.tables } (s.known stamp)
        (s.consumers.step stamp w.codec group action) :=
      hs.consumers.step (refl s.tables) (hs.brings hw hallow)
    rcases s.consumers.step_tables stamp w.codec group hchange with hsame | hchg
    · have htables : (s.consumers.step stamp w.codec group action).tables = s.tables := hsame
      refine ⟨?_,?_,hs.keyed,hs.originals,hs.unique,hs.rows,hs.rowIDs,?_,hs.relays,?_,?_⟩
      · exact hs.requests.trans (by rw [← htables]; rfl)
      · exact hs.attempts.trans (by rw [← htables]; rfl)
      · show ∀ e ∈ s.originals, _ ∨ Settled (s.consumers.step stamp w.codec group action).tables e
        rw [htables]
        exact hs.kept
      · show MeteringConsumer.Sound stamp w.codec
          { t | t.Later (s.consumers.step stamp w.codec group action).tables } (s.known stamp) _
        rw [htables]
        exact hstep
      · show MeteringAdjustment.Sound stamp ({ s.writers with
          tables := (s.consumers.step stamp w.codec group action).tables } :
            MeteringAdjustment.System ω H)
        rw [htables]
        exact hs.ledger
    · obtain ⟨i,reply,delivery,event,fingerprint,consumedAt,priceVersionID,amountMicros,rfl,
        hchg⟩ := hchg
      have hledger := hs.ledger_charge hstamp hallow hchg
      have htables := hchg.tables
      have hlater : s.tables.Later
          (s.consumers.step stamp w.codec group (.charge i reply)).tables := by
        rw [htables]
        exact { refl s.tables with entries := prefix_append _ _ }
      refine ⟨?_,?_,hs.keyed,hs.originals,hs.unique,hs.rows,hs.rowIDs,?_,hs.relays,?_,hledger⟩
      · show s.records.requests =
          (s.consumers.step stamp w.codec group (.charge i reply)).tables.requests
        rw [htables]
        exact hs.requests
      · show s.records.attempts =
          (s.consumers.step stamp w.codec group (.charge i reply)).tables.attempts
        rw [htables]
        exact hs.attempts
      · intro e he
        exact (hs.kept e he).imp_right fun hsettled => hsettled.later hlater.entries
      · exact hstep.mono (fun t ht => trans ht hlater) subset_rfl
  · exact hs

end

/-! The writers. -/

theorem Sound.consumers_append (hs : Sound stamp w s) {entry : LedgerEntry}
    (hsrc : entry.source = .adjustment)
    (hids : ((s.tables.entries ++ [entry]).map (·.eventID)).Nodup) :
    MeteringConsumer.Sound stamp w.codec
      { t | t.Later { s.tables with entries := s.tables.entries ++ [entry] } } (s.known stamp)
      { s.consumers with
        tables := { s.tables with entries := s.tables.entries ++ [entry] } } := by
  have hlater : s.tables.Later { s.tables with entries := s.tables.entries ++ [entry] } :=
    { refl s.tables with entries := prefix_append _ _ }
  have hmono : MeteringConsumer.Sound stamp w.codec
      { t | t.Later { s.tables with entries := s.tables.entries ++ [entry] } } (s.known stamp)
      s.consumers :=
    hs.consumers.mono (fun t ht => trans ht hlater) subset_rfl
  have hchange := hmono.change s.tables [entry]
  unfold MeteringConsumer.System.change at hchange
  rw [if_pos ⟨forall_mem_singleton.mpr hsrc,hids⟩] at hchange
  exact hchange

variable (stamp) in
theorem State.ledger_tables [DecidableEq ω] (s : State ι κ ω P H)
    {action : MeteringAdjustment.Action ω H} {i : ω}
    (hwriter : action.writer = some i) : (s.ledger.step stamp action).tables = s.tables ∨
      ∃ entry, (s.ledger.sessions i).pending stamp = some entry ∧
        (s.ledger.step stamp action).tables =
          { s.tables with entries := s.tables.entries ++ [entry] } :=
  MeteringAdjustment.System.step_tables hwriter

theorem Sound.adjust [DecidableEq ω] (hs : Sound stamp w s)
    (action : MeteringAdjustment.Action ω H) : Sound stamp w (s.adjust stamp action) := by
  unfold State.adjust
  split_ifs with hsome
  · obtain ⟨i,hwriter⟩ := Option.isSome_iff_exists.mp hsome
    have hledger := hs.ledger.step action
    rcases s.ledger_tables stamp hwriter with htables | ⟨entry,hpend,htables⟩
    · refine ⟨?_,?_,hs.keyed,hs.originals,hs.unique,hs.rows,hs.rowIDs,?_,hs.relays,?_,hledger⟩
      all_goals simp only [withTables,tables,htables]
      · exact hs.requests
      · exact hs.attempts
      · exact hs.kept
      · exact hs.consumers
    · have hsrc : entry.source = .adjustment := by
        cases hphase : s.ledger.sessions i <;> rw [hphase] at hpend <;> cases hpend
        rfl
      have hids := hledger.ledger.ids
      rw [htables] at hids
      refine ⟨?_,?_,hs.keyed,hs.originals,hs.unique,hs.rows,hs.rowIDs,?_,hs.relays,?_,hledger⟩
      all_goals simp only [withTables,tables,htables]
      · exact hs.requests
      · exact hs.attempts
      · intro e he
        exact (hs.kept e he).imp_right fun hsettled => hsettled.later (prefix_append _ _)
      · exact hs.consumers_append hsrc hids
  · exact hs

/-! Prices, deletions, and whole runs. -/

theorem Sound.price (hs : Sound stamp w s) (deployments : List PricedDeployment) (prices : Prices) :
    Sound stamp w (s.price deployments prices) := by
  unfold State.price
  split_ifs with hguard
  · have hlater : s.tables.Later { s.tables with deployments := deployments, prices := prices } :=
      { refl s.tables with prices := hguard.1 }
    have hkeyed : Keyed { s.tables with deployments := deployments, prices := prices } :=
      ⟨hs.ledger.ledger.keyed.attempts,hguard.2⟩
    have hconsumers := hs.consumers_change hlater rfl rfl
    have hledger := hs.ledger_change hlater rfl hkeyed
    exact { hs with consumers := hconsumers, ledger := hledger }
  · exact hs

theorem Sound.purge (hs : Sound stamp w s) (eventID : String) :
    Sound stamp w (s.purge eventID) := by
  have hfewer : ∀ row ∈ (s.purge eventID).relays.rows, row ∈ s.relays.rows :=
    fun row hrow => (mem_filter.mp hrow).1
  refine { hs with rows := ?_, rowIDs := ?_, kept := ?_, relays := ?_ }
  · exact fun row hrow => hs.rows row (hfewer row hrow)
  · exact hs.rowIDs.sublist (filter_sublist.map _)
  · intro e he
    rcases hs.kept e he with ⟨row,hrow,hfacts⟩ | hsettled
    · by_cases hdeleted : s.settled row
      · right
        obtain ⟨entry,hentry,hsame⟩ := any_eq_true.mp hdeleted
        simp only [hfacts,Bool.and_eq_true,decide_eq_true_eq] at hsame
        obtain ⟨⟨⟨⟨horig,hid⟩,htenant⟩,hreq⟩,hatt⟩ := hsame
        exact ⟨entry,hentry,horig,hid,htenant,hreq,hatt⟩
      · left
        refine ⟨row,mem_filter.mpr ⟨hrow,?_⟩,hfacts⟩
        simp [Bool.not_eq_true _ ▸ hdeleted]
    · exact .inr hsettled
  · exact ⟨fun row hrow => hs.relays.rows row (hfewer row hrow),hs.relays.sessions,hs.relays.log⟩

theorem sound_start (clock : ι → Time) (deployments : List PricedDeployment) {prices : Prices}
    (hprices : prices.Keyed) :
    Sound stamp w (start clock deployments prices : State ι κ ω P H) := by
  refine ⟨rfl,rfl,⟨nodup_nil,nodup_nil⟩,?_,nodup_nil,?_,nodup_nil,?_,?_,
    MeteringConsumer.sound_start _,MeteringAdjustment.sound_start ⟨nodup_nil,hprices⟩⟩
  · exact fun e he => nomatch he
  · exact fun row hrow => nomatch hrow
  · exact fun e he => nomatch he
  · refine ⟨?_,?_,?_⟩
    · exact fun row hrow => nomatch hrow
    · exact fun i e he => nomatch he
    · exact fun p hp => nomatch hp

variable [DecidableEq ι] [DecidableEq κ] [DecidableEq P] [DecidableEq ω] [DecidableEq H]

theorem Sound.step (hs : Sound stamp w s) (hw : w.Shows)
    (hstamp : ∀ t, stamp (stamp t) = stamp t) (options : ι → Options) (group : String)
    {action : Action ι κ ω P H} (htimely : action.Timely stamp w) :
    Sound stamp w (s.step stamp w options group action) := by
  cases action with
  | call c broken => exact hs.call broken htimely
  | relay action => exact hs.relay options action
  | consume action => exact hs.consume hw hstamp group action
  | adjust action => exact hs.adjust action
  | price deployments prices => exact hs.price deployments prices

theorem reaches_sound {options : ι → Options} {group : String} {deletes : Prop} (hw : w.Shows)
    (hstamp : ∀ t, stamp (stamp t) = stamp t) (h : Reaches stamp w options group deletes s) :
    Sound stamp w s := by
  induction h with
  | start clock deployments hprices => exact sound_start clock deployments hprices
  | step h action htimely ih => exact ih.step hw hstamp options group htimely
  | purge h hdeletes eventID ih => exact ih.purge eventID

end Pipeline
