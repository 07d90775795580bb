import AiGateway.MeteringCost.Aggregate
import AiGateway.Pipeline.Delivery

/-! A returned cost is complete and final, but for corrections that carry the ID of a
usage event. -/
namespace Pipeline
open Machine Adapter Metering Execution Ledger MeteringOutbox List MeteringConsumer
open MeteringCost (RequestCost ledgerFact_eq_some ledgerFact aggregate_spec factOf mem_loadLedger
  loadAttempts)

variable {ι κ ω P H : Type} {stamp : Time → Time} {w : Wire ι H} {s s' : State ι κ ω P H}

def State.aggregate (s : State ι κ ω P H) (scope : MeteringCost.Scope) (requestID : String) :
    Except MeteringCost.CostError RequestCost :=
  MeteringCost.aggregate s.tables s.relays.rows scope requestID

/-! What every later state keeps. -/

structure State.Continues (s s' : State ι κ ω P H) : Prop where
  records : s.records.Extends s'.records
  tables : s.tables.Later s'.tables
  -- a request that has ended gets no further events
  originals : ∀ e ∈ s'.originals, e ∈ s.originals ∨ ¬s.records.Closed e.requestID

theorem State.Continues.refl (hs : Sound stamp w s) : s.Continues s :=
  ⟨Database.extends_of_eq hs.keyed rfl rfl,.refl _,fun _ he => .inl he⟩

theorem State.Continues.trans {mid : State ι κ ω P H}
    (h : s.Continues mid) (h' : mid.Continues s') : s.Continues s' := by
  refine ⟨h.records.trans h'.records,h.tables.trans h'.tables,?_⟩
  intro e he
  rcases h'.originals e he with hmid | hopen
  · exact h.originals e hmid
  · exact .inr fun hclosed => hopen (h.records.stays hclosed)

theorem Sound.continues_call (hs : Sound stamp w s) (c : Call) (broken : Bool) :
    s.Continues (s.call stamp c broken) := by
  unfold State.call
  split_ifs
  · exact .refl hs
  · split
    · exact .refl hs
    · rename_i db hcommit
      obtain ⟨hext,hrecs⟩ := Database.commit_effect (State.database_keyed hs) hcommit
      have hbefore : s.records.Extends s.database := Database.extends_of_eq hs.keyed rfl rfl
      refine ⟨hbefore.trans hext,hs.later_of_extends hext,?_⟩
      intro e he
      rcases mem_append.mp he with he | he
      · exact .inl he
      · right
        intro hclosed
        obtain ⟨a,ha,haid,hopen⟩ := hrecs.opened e he
        obtain ⟨-,a',ha',hreq,haid',-⟩ := hrecs.attributed e he
        obtain ⟨later,hlater,hkept⟩ := hext.attempts a ha
        obtain ⟨hsame,hreq',-⟩ := hkept.columns
        have hone : later = a' := inj_on_of_nodup_map hext.keyed.attempts hlater ha'
          (hsame.trans (haid.trans haid'.symm))
        have hfinal := hclosed.attempts a ha (hreq'.symm.trans (hone ▸ hreq))
        rw [hopen] at hfinal
        cases hfinal

theorem Sound.continues_tables (hs : Sound stamp w s) (hrecs : s'.records = s.records)
    (htables : s.tables.Later s'.tables) (horigs : s'.originals = s.originals) :
    s.Continues s' := by
  have hext : s.records.Extends s.records := Database.extends_of_eq hs.keyed rfl rfl
  refine ⟨hrecs.symm ▸ hext,htables,?_⟩
  rw [horigs]
  exact fun e he => .inl he

/-! Complete. -/

/-- The entry is the price of the event. -/
structure PricedAs (stamp : Time → Time) (e : UsageEvent)
    (entry : MeteringCost.LedgerEntry) : Prop where
  eventID : entry.eventID = e.eventID
  attemptID : entry.attemptID = e.attemptID
  tokenType : entry.tokenType = e.tokenType
  quantity : entry.quantity = e.quantity
  source : entry.source = e.source
  observedAt : entry.observedAt = stamp e.observedAt
  amount : calculateAmountMicros entry.quantity entry.rate = .ok entry.amountMicros

variable (stamp s) in
/-- Every usage event of the request has one entry, and that is its price. -/
def State.Complete (requestID : String) (cost : RequestCost) : Prop :=
  ∀ e ∈ s.originals, e.requestID = requestID → ∃ entry ∈ cost.entries, PricedAs stamp e entry ∧
    ∀ other ∈ cost.entries, other.eventID = e.eventID → other = entry

/-- No correction carries the ID of a usage event of the request. -/
def State.Apart (s : State ι κ ω P H) (requestID : String) : Prop :=
  ∀ e ∈ s.originals, e.requestID = requestID → ∀ row ∈ s.tables.entries, row.eventID = e.eventID →
    row.original

variable {e : UsageEvent}

theorem source_of_validate (h : e.validate) : e.source ≠ .adjustment := by
  have horig : (entryOf id e 0 "" 0).original :=
    original_of_validate h
  exact of_decide_eq_true horig

theorem Sound.tables_keyed (hs : Sound stamp w s) : s.tables.Keyed := hs.ledger.ledger.keyed

variable {row : LedgerEntry}

/-- A row of the consumer with the ID and the attempt of the event is that of the event. -/
theorem Sound.row_event (hs : Sound stamp w s) (he : e ∈ s.originals)
    (hrow : row ∈ s.tables.entries) (horig : row.original)
    (hid : row.eventID = e.eventID) (hatt : row.attemptID = some e.attemptID) :
    Selected stamp { t | t.Later s.tables } (stored stamp e) row.priceVersionID row.amountMicros ∧
      ∃ consumedAt, row = entryOf stamp (stored stamp e) consumedAt
        row.priceVersionID row.amountMicros := by
  obtain ⟨event,hsound⟩ := hs.consumers.entries row hrow horig
  obtain ⟨e',he',rfl⟩ := hsound.known
  obtain ⟨consumedAt,hfacts⟩ := hsound.facts
  have hsame : e' = e := by
    apply inj_on_of_nodup_map hs.unique he' he
    rw [hfacts] at hid hatt
    rw [Prod.mk.injEq]
    exact ⟨hid,Option.some.inj hatt⟩
  rw [hsame] at hsound hfacts
  exact ⟨hsound.selected,consumedAt,hfacts⟩

theorem Sound.row_priced (hs : Sound stamp w s) (hstamp : ∀ t, stamp (stamp t) = stamp t)
    (he : e ∈ s.originals) (hrow : row ∈ s.tables.entries) (horig : row.original)
    (hid : row.eventID = e.eventID) (hatt : row.attemptID = some e.attemptID) :
    ∃ fact, ledgerFact s.tables row = some fact ∧ PricedAs stamp e fact := by
  obtain ⟨⟨tables,hlater,rate,hrate,hamt⟩,consumedAt,hfacts⟩ :=
    hs.row_event he hrow horig hid hatt
  obtain ⟨-,-,price,hprice,⟨-,-,hstat,-⟩,hver,found,hfound,hfoundID,hfoundRate,
    htype,-⟩ := selectEffectiveRate_spec stamp tables hrate
  have hpub : found ∈ s.tables.prices.rates :=
    hlater.prices.rates found hfound ⟨price,hprice,hfoundID.symm,hstat⟩
  have htokenType : row.tokenType = e.tokenType := by
    rw [hfacts]
    rfl
  have hqty : row.quantity = e.quantity := by
    rw [hfacts]
    rfl
  refine ⟨factOf row price found.rate,?_,hid,?_,htokenType,hqty,?_,?_,?_⟩
  · rw [ledgerFact_eq_some hs.tables_keyed.prices]
    refine ⟨price,hlater.prices.versions price hprice hstat,hver,found,hpub,
      ⟨hfoundID.trans hver,?_⟩,rfl⟩
    rw [hfoundRate,htype,htokenType]
    rfl
  · show row.attemptID.getD "" = e.attemptID
    rw [hatt]
    rfl
  · show row.source = e.source
    rw [hfacts]
    rfl
  · show row.observedAt = stamp e.observedAt
    rw [hfacts]
    exact hstamp _
  · have hsame : (factOf row price found.rate).rate = rate := by
      show (⟨row.tokenType,found.rate.billingUnit,found.rate.unitQuantity,
        found.rate.unitPriceMicros⟩ : PriceRate) = rate
      rw [htokenType,hfoundRate,show e.tokenType = rate.tokenType from htype.symm]
    rw [hsame]
    show calculateAmountMicros row.quantity rate = .ok row.amountMicros
    rw [hqty]
    exact hamt

section Returned
variable {scope : MeteringCost.Scope} {requestID : String} {cost : RequestCost}
  (hs : Sound stamp w s) (hcost : s.aggregate scope requestID = .ok cost)
include hs hcost

/-- Every usage event of the request has a row in the ledger with its ID and attribution. -/
theorem Sound.counted (he : e ∈ s.originals) (hreq : e.requestID = requestID) :
    ∃ row ∈ s.tables.entries, row.eventID = e.eventID ∧ row.tenantID = scope.tenantID ∧
      row.requestID = requestID ∧ row.attemptID = some e.attemptID := by
  obtain ⟨r,hr,⟨hid,htenant,-⟩,hcounted,-⟩ := aggregate_spec hcost
  have hscope : e.tenantID = scope.tenantID := by
    obtain ⟨r',hr',htenant',hid'⟩ := (hs.originals e he).request
    rw [hs.requests] at hr'
    have hone : r' = r := inj_on_of_nodup_map (hs.requests ▸ hs.keyed.requests) hr' hr
      (hid'.trans (hreq.trans hid.symm))
    rw [← htenant',hone,htenant]
  rcases hs.kept e he with ⟨row,hrow,hfacts⟩ | ⟨entry,hentry,-,hid',htenant',hreq',hatt⟩
  · obtain ⟨entry,hentry,hmatch⟩ := hcounted row hrow (by rw [hfacts]; exact hscope)
      (by rw [hfacts]; exact hreq)
    simp only [MeteringCost.countedAs,hfacts,Bool.and_eq_true,decide_eq_true_eq] at hmatch
    obtain ⟨⟨⟨hid',htenant'⟩,hreq'⟩,hatt⟩ := hmatch
    exact ⟨entry,hentry,hid',htenant'.trans hscope,hreq'.trans hreq,hatt⟩
  · exact ⟨entry,hentry,hid',htenant'.trans hscope,hreq'.trans hreq,hatt⟩

/-- Where corrections have IDs of their own the cost is complete, and only there. -/
theorem Sound.complete_iff (hstamp : ∀ t, stamp (stamp t) = stamp t) :
    s.Complete stamp requestID cost ↔ s.Apart requestID := by
  obtain ⟨r,hr,-,-,hproj⟩ := aggregate_spec hcost
  constructor
  · intro hcompl e he hreq row hrow hid
    obtain ⟨entry,hentry,hpriced,-⟩ := hcompl e he hreq
    obtain ⟨own,hown,-,-,hfact⟩ :=
      mem_loadLedger.mp (hproj.entries.mem_iff.mp hentry)
    obtain ⟨price,-,-,found,-,-,rfl⟩ :=
      (ledgerFact_eq_some hs.tables_keyed.prices).mp hfact
    have hsame : row = own := inj_on_of_nodup_map hs.consumers.nodup hrow hown
      (hid.trans hpriced.eventID.symm)
    have hsrc : own.source = e.source := hpriced.source
    rw [hsame,LedgerEntry.original,hsrc]
    exact decide_eq_true (source_of_validate (hs.originals e he).valid)
  · intro hapart e he hreq
    obtain ⟨row,hrow,hid,htenant,hreq',hatt⟩ := hs.counted hcost he hreq
    obtain ⟨fact,hfact,hpriced⟩ := hs.row_priced hstamp he hrow (hapart e he hreq row hrow hid)
      hid hatt
    have hmem : fact ∈ MeteringCost.loadLedger s.tables scope.tenantID requestID :=
      mem_loadLedger.mpr ⟨row,hrow,htenant,hreq',hfact⟩
    refine ⟨fact,hproj.entries.mem_iff.mpr hmem,hpriced,?_⟩
    intro other hother hother'
    exact inj_on_of_nodup_map hproj.events (hproj.entries.mem_iff.mp hother) hmem
      (hother'.trans hpriced.eventID.symm)

theorem Sound.closed : s.records.Closed requestID := by
  obtain ⟨r,hr,⟨hid,-⟩,-,hproj⟩ := aggregate_spec hcost
  constructor
  · exact ⟨r,hs.requests.symm ▸ hr,hid,hproj.terminal⟩
  · intro a ha hreq
    rw [hs.attempts] at ha
    exact hproj.finished _ (MeteringCost.mem_loadAttempts.mpr ⟨a,ha,hreq,rfl⟩)

end Returned

theorem State.consume_later [DecidableEq κ] [DecidableEq P] [DecidableEq H] (s : State ι κ ω P H)
    (group : String) (action : MeteringConsumer.Action κ P String H) :
    s.tables.Later (s.consume stamp w group action).tables := by
  unfold State.consume
  split_ifs with hallow
  · have hchange : ∀ tables adjustments, action ≠ .change tables adjustments := by
      intro tables adjustments haction
      rw [haction] at hallow
      cases hallow
    show s.tables.Later (s.consumers.step stamp w.codec group action).tables
    rcases s.consumers.step_tables stamp w.codec group hchange with hsame | hchg
    · rw [hsame]
      exact .refl _
    · obtain ⟨i,reply,delivery,event,fingerprint,consumedAt,priceVersionID,amountMicros,-,
        hchg⟩ := hchg
      rw [hchg.tables]
      exact { Tables.Later.refl s.tables with entries := prefix_append _ _ }
  · exact .refl _

theorem State.adjust_later [DecidableEq ω] (s : State ι κ ω P H)
    (action : MeteringAdjustment.Action ω H) : s.tables.Later (s.adjust stamp action).tables := by
  unfold State.adjust
  split_ifs with hsome
  · obtain ⟨i,hwriter⟩ := Option.isSome_iff_exists.mp hsome
    show s.tables.Later (s.ledger.step stamp action).tables
    rcases s.ledger_tables stamp hwriter with hsame | ⟨entry,-,happended⟩
    · rw [hsame]
      exact .refl _
    · rw [happended]
      exact { Tables.Later.refl s.tables with entries := prefix_append _ _ }
  · exact .refl _

/-! Final. -/

section Final
variable {scope : MeteringCost.Scope} {requestID : String} {cost cost' : RequestCost}

theorem Sound.ledgerFact_later (hs : Sound stamp w s) (hs' : Sound stamp w s')
    (hlater : s.tables.Later s'.tables) (hrow : row ∈ s.tables.entries) (horig : row.original) :
    ∃ fact, ledgerFact s.tables row = some fact ∧ ledgerFact s'.tables row = some fact := by
  have hsound := hs.ledger.ledger.originals row hrow horig
  obtain ⟨v,hv,hvid,hstat,-⟩ := hsound.priced
  obtain ⟨found,hfound,hver,htype⟩ := hsound.referenced.rate
  refine ⟨factOf row v found.rate,?_,?_⟩
  · rw [ledgerFact_eq_some hs.tables_keyed.prices]
    exact ⟨v,hv,hvid,found,hfound,⟨hver,htype⟩,rfl⟩
  · rw [ledgerFact_eq_some hs'.tables_keyed.prices]
    exact ⟨v,hlater.prices.versions v hv hstat,hvid,found,
      hlater.prices.rates found hfound ⟨v,hv,hvid.trans hver.symm,hstat⟩,
      ⟨hver,htype⟩,rfl⟩

/-- The later cost has the same attempts and the same entries but for corrections. -/
structure SameBut (cost cost' : RequestCost) : Prop where
  attempts : cost'.attempts.map (·.toAttemptFact) = cost.attempts.map (·.toAttemptFact)
  entries : ∀ entry, entry.source ≠ .adjustment → (entry ∈ cost'.entries ↔ entry ∈ cost.entries)

theorem Sound.sameBut (hs : Sound stamp w s) (hs' : Sound stamp w s') (h : s.Continues s')
    (hcost : s.aggregate scope requestID = .ok cost)
    (hcost' : s'.aggregate scope requestID = .ok cost') : SameBut cost cost' := by
  have hclosed := hs.closed hcost
  obtain ⟨_,-,-,-,hproj⟩ := aggregate_spec hcost
  obtain ⟨_,-,-,-,hproj'⟩ := aggregate_spec hcost'
  constructor
  · have hatts : s'.tables.attempts.filter (fun a => a.requestID = requestID) =
        s.tables.attempts.filter fun a => a.requestID = requestID := by
      rw [← hs.attempts,← hs'.attempts]
      exact h.records.closed requestID hclosed
    rw [hproj.attempts,hproj'.attempts,loadAttempts,loadAttempts,hatts]
  · intro entry hsrc
    rw [hproj.entries.mem_iff,hproj'.entries.mem_iff,mem_loadLedger,mem_loadLedger]
    constructor
    · intro hentry
      obtain ⟨row,hrow,htenant,hreq,hfact⟩ := hentry
      obtain ⟨price,-,-,found,-,-,rfl⟩ :=
        (ledgerFact_eq_some hs'.tables_keyed.prices).mp hfact
      have horig : row.original := decide_eq_true hsrc
      -- the row is that of an event that the first cost has counted
      obtain ⟨event,hsound⟩ := hs'.consumers.entries row hrow horig
      obtain ⟨e,he,rfl⟩ := hsound.known
      obtain ⟨consumedAt,hfacts⟩ := hsound.facts
      have hreq' : e.requestID = requestID := by
        rw [← hreq,hfacts]
        rfl
      have hbefore : e ∈ s.originals :=
        (h.originals e he).resolve_right fun hopen => hopen (hreq' ▸ hclosed)
      obtain ⟨own,hown,hid,-⟩ := hs.counted hcost hbefore hreq'
      have hrowID : row.eventID = e.eventID := by
        rw [hfacts]
        rfl
      have hsame : own = row := inj_on_of_nodup_map hs'.consumers.nodup
        (h.tables.entries.subset hown) hrow (hid.trans hrowID.symm)
      rw [hsame] at hown
      obtain ⟨fact,hjoined,hjoined'⟩ := hs.ledgerFact_later hs' h.tables hown horig
      rw [hfact,Option.some.injEq] at hjoined'
      exact ⟨row,hown,htenant,hreq,hjoined' ▸ hjoined⟩
    · intro hentry
      obtain ⟨row,hrow,htenant,hreq,hfact⟩ := hentry
      obtain ⟨price,-,-,found,-,-,rfl⟩ :=
        (ledgerFact_eq_some hs.tables_keyed.prices).mp hfact
      obtain ⟨fact,hjoined,hjoined'⟩ := hs.ledgerFact_later hs' h.tables hrow
        (decide_eq_true hsrc)
      rw [hfact,Option.some.injEq] at hjoined
      exact ⟨row,h.tables.entries.subset hrow,htenant,hreq,hjoined ▸ hjoined'⟩

end Final

/-- Every row of the ledger has a price and a rate to join: a correction has those of its target. -/
theorem Sound.joins (hs : Sound stamp w s) (hrow : row ∈ s.tables.entries) :
    ∃ fact, ledgerFact s.tables row = some fact := by
  have hpriced : ∃ target ∈ s.tables.entries, target.original ∧
      row.priceVersionID = target.priceVersionID ∧ row.tokenType = target.tokenType := by
    by_cases horig : row.original
    · exact ⟨row,hrow,horig,rfl,rfl⟩
    · have hcheck := (hs.ledger.ledger.checks row hrow).adjustment
      rw [LedgerEntry.adjustmentMetadataValid] at hcheck
      cases hadj : row.adjustment with
      | none =>
        rw [hadj] at hcheck
        exact absurd hcheck horig
      | some a =>
        obtain ⟨target,htgt,hcorr⟩ := hs.ledger.ledger.targets row hrow a hadj
        exact ⟨target,htgt,hcorr.original,hcorr.priceVersionID,hcorr.tokenType⟩
  obtain ⟨target,htgt,horig,hver,htype⟩ := hpriced
  have hsound := hs.ledger.ledger.originals target htgt horig
  obtain ⟨v,hv,hvid,-⟩ := hsound.priced
  obtain ⟨found,hfound,hfoundID,hfoundType⟩ := hsound.referenced.rate
  refine ⟨factOf row v found.rate,?_⟩
  rw [ledgerFact_eq_some hs.tables_keyed.prices]
  exact ⟨v,hv,hvid.trans hver.symm,found,hfound,⟨hfoundID.trans hver.symm,
    hfoundType.trans htype.symm⟩,rfl⟩

variable [DecidableEq ι] [DecidableEq κ] [DecidableEq ω] [DecidableEq P] [DecidableEq H]

theorem Sound.continues_step (hs : Sound stamp w s) (options : ι → Options) (group : String)
    (action : Pipeline.Action ι κ ω P H) : s.Continues (s.step stamp w options group action) := by
  cases action with
  | call c broken => exact hs.continues_call c broken
  | relay action =>
    simp only [State.step,State.relay]
    split_ifs
    · exact hs.continues_tables rfl (.refl _) rfl
    · exact .refl hs
  | consume action =>
    apply hs.continues_tables _ (s.consume_later group action)
    · unfold State.consume
      split_ifs <;> rfl
    · unfold State.consume
      split_ifs <;> rfl
  | adjust action =>
    apply hs.continues_tables _ (s.adjust_later action)
    · unfold State.adjust
      split_ifs <;> rfl
    · unfold State.adjust
      split_ifs <;> rfl
  | price deployments prices =>
    simp only [State.step,State.price]
    split_ifs with hguard
    · have hlater : s.tables.Later { s.tables with deployments := deployments, prices := prices } :=
        { Tables.Later.refl s.tables with prices := hguard.1 }
      exact hs.continues_tables rfl hlater rfl
    · exact .refl hs

variable (stamp w) in
/-- Actions and deletions of priced rows lead from the first state to the second. -/
def State.Leads (options : ι → Options) (group : String) :
    State ι κ ω P H → State ι κ ω P H → Prop :=
  Relation.ReflTransGen fun s s' =>
    (∃ action, Action.Timely stamp w action ∧ s' = s.step stamp w options group action) ∨
      ∃ eventID, s' = s.purge eventID

theorem Sound.leads {options : ι → Options} {group : String} (hs : Sound stamp w s) (hw : w.Shows)
    (hstamp : ∀ t, stamp (stamp t) = stamp t) (h : s.Leads stamp w options group s') :
    Sound stamp w s' ∧ s.Continues s' := by
  induction h with
  | refl => exact ⟨hs,.refl hs⟩
  | tail _ hstep ih =>
    obtain ⟨hmid,hcontinues⟩ := ih
    rcases hstep with ⟨action,htimely,rfl⟩ | ⟨eventID,rfl⟩
    · exact ⟨hmid.step hw hstamp options group htimely,
        hcontinues.trans (hmid.continues_step options group action)⟩
    · exact ⟨hmid.purge eventID,hcontinues.trans (hmid.continues_tables rfl (.refl _) rfl)⟩

/-- What a returned cost says, now and later. -/
structure State.CostFacts (stamp : Time → Time) (w : Wire ι H) (options : ι → Options)
    (group : String) (s : State ι κ ω P H) (scope : MeteringCost.Scope) (requestID : String)
    (cost : RequestCost) : Prop where
  complete : s.Complete stamp requestID cost ↔ s.Apart requestID
  -- the entries are the rows of the request, with all corrections that were committed so far
  rows : ∀ row ∈ s.tables.entries, row.tenantID = scope.tenantID → row.requestID = requestID →
    ∃ entry ∈ cost.entries, ledgerFact s.tables row = some entry
  entries : ∀ entry ∈ cost.entries, ∃ row ∈ s.tables.entries, row.tenantID = scope.tenantID ∧
    row.requestID = requestID ∧ ledgerFact s.tables row = some entry
  totals : MeteringCost.TotalsOf cost.totals cost.entries
  final : ∀ s' cost', s.Leads stamp w options group s' →
    s'.aggregate scope requestID = .ok cost' → SameBut cost cost'

/-- In every state that actions and deletions of priced rows lead to, a returned cost has the
price of every usage event of the request just where no correction carries the ID of one, and
it is final. -/
theorem reaches_cost {options : ι → Options} {group : String} (hw : w.Shows)
    (hstamp : ∀ t, stamp (stamp t) = stamp t) (h : Reaches stamp w options group True s)
    {scope : MeteringCost.Scope} {requestID : String} {cost : RequestCost}
    (hcost : s.aggregate scope requestID = .ok cost) :
    s.CostFacts stamp w options group scope requestID cost := by
  have hs := reaches_sound hw hstamp h
  obtain ⟨_,-,-,-,hproj⟩ := aggregate_spec hcost
  refine ⟨hs.complete_iff hcost hstamp,?_,?_,hproj.totals.2.perm hproj.entries.symm,?_⟩
  · intro row hrow htenant hreq
    obtain ⟨fact,hfact⟩ := hs.joins hrow
    refine ⟨fact,hproj.entries.mem_iff.mpr ?_,hfact⟩
    exact mem_loadLedger.mpr ⟨row,hrow,htenant,hreq,hfact⟩
  · intro entry hentry
    exact mem_loadLedger.mp (hproj.entries.mem_iff.mp hentry)
  · intro s' cost' hleads hcost'
    obtain ⟨hs',hcontinues⟩ := hs.leads hw hstamp hleads
    exact hs.sameBut hs' hcontinues hcost hcost'

/-- The consumer is in no call and in no loop. -/
def free (session : Session P H) : Bool :=
  match session with
  | ⟨.idle,none⟩ => true
  | _ => false

omit [DecidableEq ι] [DecidableEq ω] in
theorem Sound.deliver_eq (hs : Sound stamp w s) (hw : w.Shows) {p : Publication String}
    (hp : p ∈ s.relays.log) {i : κ} (hfree : free (s.consumers.sessions i)) {now : Time}
    (hnow : now ≠ zeroTime) (group : String) :
    ∃ e ∈ s.originals, e.eventID = p.eventID ∧ ∃ fingerprint,
      s.consume stamp w group (.deliver i p.eventID p.payload now) =
        { s with
          consumers := s.consumers.enter i
            ⟨.received .direct (stored stamp e) fingerprint now,none⟩ } := by
  obtain ⟨j,_,⟨e,he,rfl⟩,hid,hencode⟩ := hs.relays.log p hp
  obtain ⟨fingerprint,hcanon⟩ := (hs.originals e he).canonical hw
  have hacc := hcanon j p.payload hencode
  have hpub : s.published p.eventID p.payload :=
    any_eq_true.mpr ⟨p,hp,by simp⟩
  refine ⟨e,he,hid.symm,fingerprint,?_⟩
  unfold State.consume
  rw [if_pos (show s.allows (.deliver i p.eventID p.payload now) from hpub)]
  have hdeliver : s.consumers.step stamp w.codec group (.deliver i p.eventID p.payload now) =
      s.consumers.enter i ⟨.received .direct (stored stamp e) fingerprint now,none⟩ := by
    have hidle : s.consumers.sessions i = ⟨.idle,none⟩ := by
      unfold free at hfree
      split at hfree
      · assumption
      · cases hfree
    show s.consumers.deliver w.codec i p.eventID p.payload now = _
    rw [System.deliver,hidle]
    dsimp only
    unfold System.receive
    rw [hid,show (stored stamp e).eventID = e.eventID from rfl,hacc]
    dsimp only
    rw [if_neg hnow]
  rw [hdeliver]

/-! A sample: a completion with two usage events. The first one is priced, and then corrected by a
command that carries the ID of the second one. -/

def pairCompletion : Call :=
  .completeAttempt sampleRequest sampleAttempt (sampleOutcome (sampleUsage 12)) 2000
    (sampleRandom 9)

def firstEvent : UsageEvent where
  eventID := "09090909-0909-4909-8909-090909090900"
  schemaVersion := 2
  kind := .observed
  tenantID := sampleStart.tenantID
  requestID := sampleStart.id
  attemptID := "07070707-0707-4707-8707-070707070700"
  deploymentID := sampleDeployment.id
  tokenType := .input
  billingUnit := .token
  quantity := 12
  source := .provider
  usageComplete := true
  estimate := none
  observedAt := 2000
  traceID := sampleStart.traceID
  spanID := sampleStart.spanID

def secondEvent : UsageEvent :=
  { firstEvent with
    eventID := "09090909-0909-4909-8909-090909090901", tokenType := .output, quantity := 5 }

/-- A codec of these events: the last character of the ID says which one it is. -/
def pairWire : Wire Unit Unit where
  shown _ _ := some "1970-01-01T00:00:00.000002Z"
  utc _ := some "1970-01-01T00:00:00.000002Z"
  zone _ _ := 0
  decode payload := if payload.toList[48]? = some '0' then some firstEvent else some secondEvent
  sha256 _ := ()

theorem pairWire_shows : pairWire.Shows :=
  ⟨fun i t _ => ⟨_,rfl,by decide⟩,fun t _ => ⟨_,rfl⟩⟩

theorem pairCompletion_events : pairCompletion.events = [firstEvent,secondEvent] := by
  decide +kernel

theorem pairWire_decodes : pairWire.Decodes firstEvent ∧ pairWire.Decodes secondEvent := by
  constructor
  · intro i text htext
    cases htext
    dsimp only [pairWire]
    rw [marshal,String.toList_ofList,if_pos (by decide +kernel)]
  · intro i text htext
    cases htext
    dsimp only [pairWire]
    rw [marshal,String.toList_ofList,if_neg (by decide +kernel)]

theorem pairCompletion_timely : ∀ e ∈ pairCompletion.events,
    pairWire.InYears (toMicrosecond e.observedAt) ∧
      (∀ metadata ∈ e.estimate, metadata.deploymentVersion < 2 ^ 63) ∧
      pairWire.Decodes (stored toMicrosecond e) := by
  have hyears : pairWire.InYears 2000 :=
    ⟨by decide,by decide,fun _ => show (2000 + 0 : ℤ) < yearsEnd by decide⟩
  rw [pairCompletion_events,forall_mem_cons,forall_mem_singleton]
  exact ⟨⟨hyears,(fun _ h => nomatch h),pairWire_decodes.1⟩,hyears,(fun _ h => nomatch h),
    pairWire_decodes.2⟩

def publishActions : List (Pipeline.Action Unit Unit Unit Unit Unit) :=
  (sampleCalls ++ [pairCompletion]).map (.call · false) ++
    [.relay (.wake () 3000 "lease-a"),.relay (.claim () [] [] .answered),
      .relay (.publish () true false 4000)]

def pairStart : State Unit Unit Unit Unit Unit :=
  .start (fun _ => 0) [⟨sampleDeployment.id,"eu"⟩]
    ⟨[{ sampleVersion with deploymentID := sampleDeployment.id }],[sampleRate]⟩

/-- The first event is published. -/
def publishedState : State Unit Unit Unit Unit Unit :=
  publishActions.foldl (fun s action => s.step toMicrosecond pairWire (fun _ => defaultOptions)
    "metering" action) pairStart

theorem publishedState_reaches : Reaches toMicrosecond pairWire (fun _ => defaultOptions) "metering"
    True publishedState := by
  apply reaches_foldl publishActions
  · rw [publishActions,forall_mem_append,forall_mem_map,forall_mem_append,forall_mem_singleton]
    exact ⟨⟨sampleCalls_timely _,pairCompletion_timely⟩,by simp [Action.Timely]⟩
  · exact .start _ _ (by decide)

/-- A consumer has received it. -/
def receivedState : State Unit Unit Unit Unit Unit :=
  { publishedState with
    consumers := publishedState.consumers.enter ()
      ⟨.received .direct (stored toMicrosecond firstEvent) () 5000,none⟩ }

theorem receivedState_reaches : Reaches toMicrosecond pairWire (fun _ => defaultOptions) "metering"
    True receivedState := by
  have hs := reaches_sound pairWire_shows toMicrosecond_toMicrosecond publishedState_reaches
  have hfacts : (publishedState.originals,publishedState.relays.log.map (·.eventID),
      free (publishedState.consumers.sessions ())) =
      ([firstEvent,secondEvent],[firstEvent.eventID],true) := by decide +kernel
  rw [Prod.mk.injEq,Prod.mk.injEq] at hfacts
  obtain ⟨horigs,hlog,hfree⟩ := hfacts
  obtain ⟨p,hp,hid⟩ := map_eq_singleton_iff.mp hlog
  obtain ⟨e,he,heid,fingerprint,hdeliver⟩ := hs.deliver_eq pairWire_shows
    (hp ▸ mem_singleton_self p) hfree (show (5000 : Time) ≠ zeroTime by decide) "metering"
  have hfirst : e = firstEvent := by
    rw [horigs,mem_pair] at he
    rcases he with he | he
    · exact he
    · rw [hid,he] at heid
      exact absurd heid (by decide)
  have hstep :=
    publishedState_reaches.step (.consume (.deliver () p.eventID p.payload 5000)) trivial
  rw [State.step,hdeliver,hfirst] at hstep
  exact hstep

def correctActions : List (Pipeline.Action Unit Unit Unit Unit Unit) :=
  [.consume (.receipt ()),.consume (.select ()),.consume (.charge () .answered),
    .adjust (.apply () { MeteringAdjustment.sampleCommand with
      scope := ⟨sampleStart.tenantID,sampleStart.projectID⟩
      eventID := secondEvent.eventID
      targetEventID := firstEvent.eventID } 7000),
    .adjust (.find ()),.adjust (.lock ()),.adjust (.recheck ()),.adjust (.derive ()),
    .adjust (.insert ()),.adjust (.commit () .answered)]

/-- The first event is priced and corrected under the ID of the second one. -/
def shadowedState : State Unit Unit Unit Unit Unit :=
  correctActions.foldl (fun s action => s.step toMicrosecond pairWire (fun _ => defaultOptions)
    "metering" action) receivedState

def pairScope : MeteringCost.Scope := ⟨sampleStart.tenantID,sampleStart.projectID⟩

theorem shadowedState_reaches : Reaches toMicrosecond pairWire (fun _ => defaultOptions) "metering"
    True shadowedState :=
  reaches_foldl correctActions (by simp [correctActions,Action.Timely]) receivedState_reaches

theorem shadowedState_cost : ∃ cost, shadowedState.aggregate pairScope sampleStart.id = .ok cost ∧
    shadowedState.originals = [firstEvent,secondEvent] ∧
    cost.entries.map (fun e => (e.eventID,e.source)) =
      [(firstEvent.eventID,.provider),(secondEvent.eventID,.adjustment)] ∧
    cost.totals = [⟨"EUR",2⟩] := by
  have hfacts : ((shadowedState.aggregate pairScope sampleStart.id).toOption.map fun cost =>
      (shadowedState.originals,cost.entries.map (fun e => (e.eventID,e.source)),cost.totals)) =
      some ([firstEvent,secondEvent],
        [(firstEvent.eventID,.provider),(secondEvent.eventID,.adjustment)],[⟨"EUR",2⟩]) := by
    decide +kernel
  obtain ⟨cost,hcost,hsame⟩ := Option.map_eq_some_iff.mp hfacts
  cases haggregate : shadowedState.aggregate pairScope sampleStart.id with
  | error e =>
    rw [haggregate] at hcost
    cases hcost
  | ok found =>
    rw [haggregate] at hcost
    cases hcost
    simp only [Prod.mk.injEq] at hsame
    exact ⟨cost,rfl,hsame⟩

/-- The cost is returned although the second event has no price. -/
theorem shadowedState_partial :
    Reaches toMicrosecond pairWire (fun _ => defaultOptions) "metering" True shadowedState ∧
      ∃ cost, shadowedState.aggregate pairScope sampleStart.id = .ok cost ∧
        cost.totals = [⟨"EUR",2⟩] ∧ ¬shadowedState.Complete toMicrosecond sampleStart.id cost := by
  obtain ⟨cost,hcost,horigs,hentries,htotals⟩ := shadowedState_cost
  refine ⟨shadowedState_reaches,cost,hcost,htotals,?_⟩
  intro hcompl
  have hsecond : secondEvent ∈ shadowedState.originals := by simp [horigs]
  obtain ⟨entry,hentry,hpriced,-⟩ := hcompl secondEvent hsecond rfl
  have hmem : (entry.eventID,entry.source) ∈
      [(firstEvent.eventID,UsageSource.provider),(secondEvent.eventID,.adjustment)] :=
    hentries ▸ mem_map_of_mem hentry
  rw [hpriced.eventID,hpriced.source,mem_pair] at hmem
  exact absurd hmem (by decide)

theorem shadowedState_facts : ∃ cost, shadowedState.aggregate pairScope sampleStart.id = .ok cost ∧
    shadowedState.CostFacts toMicrosecond pairWire (fun _ => defaultOptions) "metering" pairScope
      sampleStart.id cost := by
  obtain ⟨cost,hcost,-⟩ := shadowedState_cost
  exact ⟨cost,hcost,reaches_cost pairWire_shows toMicrosecond_toMicrosecond shadowedState_reaches
    hcost⟩

end Pipeline
