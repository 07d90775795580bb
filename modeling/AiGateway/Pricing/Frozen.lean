import AiGateway.MeteringConsumer.Rows
import AiGateway.Pricing.Steps

/-! Transactions on prices beside the consumers that price events: what is published is frozen, and
every charge stays the amount at its rate. -/
namespace Pricing
open Machine Adapter Metering Ledger Pricing.System List MeteringConsumer
open MeteringConsumer (Codec)

variable {τ ι P π H : Type}

/-! What a statement does to the committed prices. -/

section Statements
variable [DecidableEq τ] {finds : Prop} {s : System τ} {t : τ}

theorem System.step_prices (references : PriceVersion → Bool) (s : System τ)
    (statement : Statement τ) : (s.step references statement).prices = s.prices ∨
      ∃ t, (s.step references statement).prices = s.written t := by
  cases statement with
  | commit t =>
    show (s.commit t).prices = _ ∨ _
    unfold commit
    split
    · exact .inl rfl
    · exact .inr ⟨t,by rw [step,commit,if_neg ‹_›]⟩
  | insertVersion t row =>
    left
    show (s.insertVersion t (references row) row).prices = s.prices
    unfold insertVersion
    split_ifs <;> rfl
  | updateVersion t id set =>
    left
    show (s.updateVersion t id set).prices = s.prices
    unfold updateVersion
    split
    · rfl
    · split
      · rfl
      · split_ifs <;> rfl
  | deleteVersion t id =>
    left
    show (s.deleteVersion t id).prices = s.prices
    unfold deleteVersion
    split
    · rfl
    · split
      · rfl
      · split_ifs <;> rfl
  | beginRate t rate =>
    left
    show (s.beginRate t rate).prices = s.prices
    unfold beginRate
    split
    · rfl
    · split
      · rfl
      · split_ifs <;> rfl
  | finishRate t =>
    left
    show (s.finishRate t).prices = s.prices
    unfold finishRate
    split
    · rfl
    · split_ifs
      · rfl
      · rfl
      · rfl
      · split <;> rfl
  | mutateRate t id tokenType =>
    left
    show (s.mutateRate t id tokenType).prices = s.prices
    unfold mutateRate
    split_ifs <;> rfl
  | rollback t => exact .inl rfl

theorem Sound.written_later (hs : Sound finds s) : s.prices.Later (s.written t) := by
  constructor
  · intro v hv hstat
    rw [hs.mem_written,seen_eq_some hs.keyed hs.imageIDs]
    refine ⟨rfl,.inr ⟨hv,?_⟩⟩
    intro image himage hid _
    have hdraft := hs.imageOpen image himage v hv hid.symm
    rw [hstat] at hdraft
    cases hdraft
  · exact fun r hr _ => mem_append_left _ hr

theorem Sound.written_rates (hs : Sound finds s) (hfinds : finds) {v : PriceVersion}
    (hv : v ∈ s.prices.versions) (hstat : v.status = .published) :
    (s.written t).ratesOf v.id = s.prices.ratesOf v.id := by
  have hnone : (s.ownRates t).filter (fun r => r.priceVersionID = v.id) = [] := by
    rw [filter_eq_nil_iff]
    intro r hr hid
    have hdraft := (hs.held hfinds _ (mem_ownRates.mp hr)).2 v hv (of_decide_eq_true hid).symm
    rw [hstat] at hdraft
    cases hdraft
  rw [Prices.ratesOf,written,filter_append,hnone,append_nil,Prices.ratesOf]

end Statements

/-! The whole database. -/

structure State (τ ι P π H : Type) where
  consumers : MeteringConsumer.System ι P π H
  writers : Writers τ

inductive Action (τ ι P π H : Type) where
  | price (statement : Statement τ)
  | consume (action : MeteringConsumer.Action ι P π H)

namespace State

def prices (s : State τ ι P π H) : Prices := s.consumers.tables.prices

def system (s : State τ ι P π H) : System τ := ⟨s.writers,s.prices⟩

def put (s : State τ ι P π H) (system : System τ) : State τ ι P π H where
  consumers := { s.consumers with tables := { s.consumers.tables with prices := system.prices } }
  writers := system.toWriters

/-- `price_versions_deployment_region_fkey` -/
def references (s : State τ ι P π H) (v : PriceVersion) : Bool :=
  s.consumers.tables.deployments.contains ⟨v.deploymentID,v.region⟩

/-- Other programs write no prices. -/
def keeping (s : State τ ι P π H) :
    MeteringConsumer.Action ι P π H → MeteringConsumer.Action ι P π H
  | .change tables adjustments => .change { tables with prices := s.prices } adjustments
  | action => action

/-- Empty tables of prices, receipts and the ledger. -/
def start (tables : Tables H) : State τ ι P π H where
  consumers := System.start { tables with prices := ⟨[],[]⟩ }
  writers := ⟨[],[],[],fun _ => none⟩

variable [DecidableEq τ] [DecidableEq ι] [DecidableEq P] [DecidableEq H] (stamp : Time → Time)
  (codec : Codec π H) (group : String)

def step (s : State τ ι P π H) : Action τ ι P π H → State τ ι P π H
  | .price statement => s.put (s.system.step s.references statement)
  | .consume action => { s with consumers := s.consumers.step stamp codec group (s.keeping action) }

end State

open State

/-- The trigger of a rate finds the version of the rate. -/
def Action.Finds [DecidableEq τ] (s : State τ ι P π H) : Action τ ι P π H → Prop
  | .price statement => statement.Finds s.system
  | .consume _ => True

variable [DecidableEq τ] [DecidableEq ι] [DecidableEq P] [DecidableEq H]

/-- Steps lead from the first state to the second; `finds` says whether the trigger of every rate
has to find the version. -/
def State.Leads (stamp : Time → Time) (codec : Codec π H) (group : String)
    (finds : Prop) : State τ ι P π H → State τ ι P π H → Prop :=
  Relation.ReflTransGen fun s s' => ∃ action : Action τ ι P π H, (finds → action.Finds s) ∧
    s' = s.step stamp codec group action

variable {stamp : Time → Time} {codec : Codec π H} {group : String} {finds : Prop}
  {s later : State τ ι P π H}

/-! One step. -/

omit [DecidableEq τ] in
theorem State.consume_prices (s : State τ ι P π H) (action : MeteringConsumer.Action ι P π H) :
    (s.consumers.step stamp codec group (s.keeping action)).tables.prices = s.prices := by
  by_cases hchange : ∃ tables adjustments, action = .change tables adjustments
  · obtain ⟨tables,adjustments,rfl⟩ := hchange
    show (s.consumers.change { tables with prices := s.prices } adjustments).tables.prices =
      s.prices
    unfold System.change
    split_ifs <;> rfl
  · have hsame : s.keeping action = action := by
      cases action with
      | change tables adjustments => exact absurd ⟨tables,adjustments,rfl⟩ hchange
      | _ => rfl
    rw [hsame]
    rcases s.consumers.step_tables stamp codec group fun tables adjustments h =>
        hchange ⟨tables,adjustments,h⟩ with hkept | hchg
    · rw [hkept]
      rfl
    · obtain ⟨i,reply,delivery,event,fingerprint,consumedAt,priceVersionID,amountMicros,-,
        hchg⟩ := hchg
      rw [hchg.tables]
      rfl

variable (stamp codec finds s) in
/-- The consumers have selected rates from earlier prices. -/
structure State.Sound : Prop where
  prices : Pricing.Sound finds s.system
  consumers : MeteringConsumer.Sound stamp codec { tables | tables.prices.Later s.prices } Set.univ
    s.consumers

/-- The published prices of one state in another one. -/
structure Kept (finds : Prop) (prices later : Prices) : Prop where
  published : prices.Later later
  rates : finds → ∀ v ∈ prices.versions, v.status = .published →
    later.ratesOf v.id = prices.ratesOf v.id

theorem Kept.refl (prices : Prices) : Kept finds prices prices :=
  ⟨.refl _,fun _ _ _ _ => rfl⟩

theorem Kept.trans {prices mid later : Prices} (h : Kept finds prices mid)
    (h' : Kept finds mid later) : Kept finds prices later := by
  refine ⟨h.published.trans h'.published,?_⟩
  intro hfinds v hv hstat
  rw [h'.rates hfinds v (h.published.versions v hv hstat) hstat,h.rates hfinds v hv hstat]

theorem Sound.kept {s : System τ} (hs : Sound finds s) (references : PriceVersion → Bool)
    (statement : Statement τ) : Kept finds s.prices (s.step references statement).prices := by
  rcases s.step_prices references statement with hsame | ⟨t,hwritten⟩
  · rw [hsame]
    exact .refl _
  · rw [hwritten]
    exact ⟨hs.written_later,fun hfinds v hv hstat => hs.written_rates hfinds hv hstat⟩

theorem State.Sound.step (hs : s.Sound stamp codec finds) {action : Action τ ι P π H}
    (h : finds → action.Finds s) : (s.step stamp codec group action).Sound stamp codec finds ∧
      Kept finds s.prices (s.step stamp codec group action).prices := by
  cases action with
  | price statement =>
    have hkept := hs.prices.kept s.references statement
    refine ⟨⟨hs.prices.step s.references h,?_⟩,hkept⟩
    have hmono :=
      hs.consumers.mono (fun tables htables => Prices.Later.trans htables hkept.published)
      subset_rfl
    exact { hmono with }
  | consume action =>
    have hprices : (s.step stamp codec group (.consume action)).prices = s.prices :=
      s.consume_prices action
    rw [hprices]
    refine ⟨⟨?_,?_⟩,.refl _⟩
    · rw [system,hprices]
      exact hs.prices
    · rw [hprices]
      apply hs.consumers.step
      · exact Prices.Later.refl _
      · cases s.keeping action <;> simp [Action.Brings,Carries]

/-! Whole runs. -/

omit [DecidableEq ι] [DecidableEq P] [DecidableEq H] in
theorem State.sound_start (tables : Tables H) :
    (start tables : State τ ι P π H).Sound stamp codec finds := by
  refine ⟨?_,MeteringConsumer.sound_start _⟩
  constructor <;> simp [start,system,prices,MeteringConsumer.System.start,Prices.keyed_iff]

theorem State.Sound.leads (hs : s.Sound stamp codec finds)
    (h : s.Leads stamp codec group finds later) :
    later.Sound stamp codec finds ∧ Kept finds s.prices later.prices := by
  induction h with
  | refl => exact ⟨hs,.refl _⟩
  | tail hleads hstep ih =>
    obtain ⟨action,hfinds,rfl⟩ := hstep
    obtain ⟨hsound,hkept⟩ := ih.1.step hfinds
    exact ⟨hsound,ih.2.trans hkept⟩

/-- The entry has the amount of its quantity at the stored rate of a published price in effect. -/
structure ChargedAt (prices : Prices) (entry : LedgerEntry) : Prop where
  version : ∃ v ∈ prices.versions, v.id = entry.priceVersionID ∧ v.status = .published ∧
    v.effectiveAt ≤ entry.observedAt
  amount : ∃ r, prices.rate? entry.priceVersionID entry.tokenType = some r ∧
    calculateAmountMicros entry.quantity r.rate = .ok entry.amountMicros

omit [DecidableEq ι] [DecidableEq P] [DecidableEq H] in
theorem State.Sound.charged (hs : s.Sound stamp codec finds) {entry : LedgerEntry}
    (hentry : entry ∈ s.consumers.tables.entries) (horig : entry.original) :
    ChargedAt s.prices entry := by
  obtain ⟨event,hsound⟩ := hs.consumers.entries entry hentry horig
  obtain ⟨consumedAt,hfacts⟩ := hsound.facts
  obtain ⟨tables,hlater,rate,hselect,hamt⟩ := hsound.selected
  obtain ⟨-,-,price,hprice,⟨-,-,hstat,htime⟩,hid,found,hfound,hver,hrate,htype,-⟩ :=
    selectEffectiveRate_spec stamp tables hselect
  have hobs : entry.observedAt = stamp event.observedAt := by rw [hfacts]; rfl
  have htokenType : entry.tokenType = event.tokenType := by rw [hfacts]; rfl
  have hqty : entry.quantity = event.quantity := by rw [hfacts]; rfl
  refine ⟨⟨price,hlater.versions price hprice hstat,hid,hstat,hobs ▸ htime⟩,found,?_,?_⟩
  · have hkey : s.prices.Keyed := hs.prices.keyed
    rw [hkey.rate?_eq_some]
    refine ⟨hlater.rates found hfound ⟨price,hprice,hver.symm,hstat⟩,hver.trans hid,?_⟩
    rw [hrate,htype,htokenType]
  · rw [hqty,hrate]
    exact hamt

variable (finds s later) in
/-- What a state says about a later one, for a version that is published. -/
structure Freezes (v : PriceVersion) : Prop where
  row : v ∈ later.prices.versions ∧ ∀ w ∈ later.prices.versions, w.id = v.id → w = v
  nonempty : later.prices.ratesOf v.id ≠ []
  kept : ∀ r ∈ s.prices.ratesOf v.id, r ∈ later.prices.ratesOf v.id
  rates : finds → later.prices.ratesOf v.id = s.prices.ratesOf v.id
  /-- No rate of the version is still to be committed. -/
  written : finds → ∀ r ∈ later.writers.rates, r.1.priceVersionID ≠ v.id
  begun : finds → ∀ t rate, later.writers.inserting t = some rate → rate.priceVersionID ≠ v.id

omit [DecidableEq ι] [DecidableEq P] [DecidableEq H] in
theorem State.Sound.freezes (hs : later.Sound stamp codec finds)
    (hkept : Kept finds s.prices later.prices) {v : PriceVersion} (hv : v ∈ s.prices.versions)
    (hstat : v.status = .published) : Freezes finds s later v := by
  have hrow := hkept.published.versions v hv hstat
  have hopen : ∀ id, later.system.Open id → id ≠ v.id := by
    intro id hopen hid
    have hdraft := hopen v hrow hid.symm
    rw [hstat] at hdraft
    cases hdraft
  refine ⟨⟨hrow,?_⟩,?_,?_,fun hfinds => hkept.rates hfinds v hv hstat,?_,?_⟩
  · exact fun w hw hid => inj_on_of_nodup_map hs.prices.keyed.versions hw hrow hid
  · obtain ⟨r,hr,hid⟩ := hs.prices.published v hrow hstat
    exact ne_nil_of_mem (mem_filter.mpr ⟨hr,decide_eq_true hid⟩)
  · intro r hr
    obtain ⟨hr,hid⟩ := mem_filter.mp hr
    have hsame : v.id = r.priceVersionID := (of_decide_eq_true hid).symm
    exact mem_filter.mpr ⟨hkept.published.rates r hr ⟨v,hv,hsame,hstat⟩,hid⟩
  · exact fun hfinds r hr => hopen _ (hs.prices.held hfinds r hr).2
  · exact fun hfinds t rate hrate => hopen _ (hs.prices.inserting hfinds t rate hrate).2

/-- Published prices are frozen, and so are the charges at them. The set of rates is frozen where
the trigger of every rate finds the version of the rate. -/
theorem leads_frozen {tables : Tables H} (hstart : (start tables).Leads stamp codec group finds s)
    (h : s.Leads stamp codec group finds later) :
    (∀ v ∈ s.prices.versions, v.status = .published → Freezes finds s later v) ∧
      ∀ entry ∈ later.consumers.tables.entries, entry.original → ChargedAt later.prices entry := by
  obtain ⟨hsound,-⟩ := (State.sound_start tables).leads hstart
  obtain ⟨hlater,hkept⟩ := hsound.leads h
  exact ⟨fun v hv hstat => hlater.freezes hkept hv hstat,
    fun entry hentry horig => hlater.charged hentry horig⟩

/-! A sample: while one transaction inserts the rate of a draft, another one waits to publish it;
then an event is charged, and a further rate is refused. -/

variable (stamp codec group) in
def State.run (s : State τ ι P π H) (actions : List (Action τ ι P π H)) : State τ ι P π H :=
  actions.foldl (fun s action => s.step stamp codec group action) s

/-- Every action of the run finds what it needs. -/
def State.Finds (stamp : Time → Time) (codec : Codec π H) (group : String) :
    State τ ι P π H → List (Action τ ι P π H) → Prop
  | _, [] => True
  | s, action :: actions => action.Finds s ∧
      Finds stamp codec group (s.step stamp codec group action) actions

omit [DecidableEq ι] [DecidableEq P] [DecidableEq H] in
instance (s : State τ ι P π H) : (action : Action τ ι P π H) → Decidable (action.Finds s)
  | .price (.beginRate t rate) => inferInstanceAs
      (Decidable ((s.system.seen t rate.priceVersionID).isSome))
  | .price (.insertVersion _ _) | .price (.updateVersion _ _ _) | .price (.deleteVersion _ _)
  | .price (.finishRate _) | .price (.mutateRate _ _ _) | .price (.commit _)
  | .price (.rollback _) | .consume _ => isTrue trivial

instance State.decidableFinds : (s : State τ ι P π H) → (actions : List (Action τ ι P π H)) →
    Decidable (s.Finds stamp codec group actions)
  | _, [] => isTrue trivial
  | s, action :: actions =>
      have := decidableFinds (s.step stamp codec group action) actions
      inferInstanceAs (Decidable (_ ∧ _))

theorem leads_run {actions : List (Action τ ι P π H)}
    (h : finds → s.Finds stamp codec group actions) :
    s.Leads stamp codec group finds (s.run stamp codec group actions) := by
  induction actions generalizing s with
  | nil => exact .refl
  | cons action actions ih =>
    exact .head ⟨action,fun hfinds => (h hfinds).1,rfl⟩ (ih fun hfinds => (h hfinds).2)

def draftVersion : PriceVersion :=
  { sampleVersion with status := .draft, version := 1, updatedAt := 500, publishedAt := none }

def publish (v : PriceVersion) : PriceVersion :=
  { v with status := .published, version := 2, updatedAt := 600, publishedAt := some 600 }

def outputRate : VersionRate := ⟨sampleVersion.id,⟨.output,.token,1000,900⟩,560,"pricing"⟩

def sampleCodec : Codec UsageEvent UsageEvent := ⟨fun _ => 1,some,some⟩

def publishing : List (Action Bool Unit Unit UsageEvent UsageEvent) :=
  [.price (.insertVersion true draftVersion),.price (.commit true),
    .price (.beginRate false sampleRate),.price (.updateVersion true sampleVersion.id publish),
    .price (.finishRate false),.price (.commit false),
    .price (.updateVersion true sampleVersion.id publish),.price (.commit true)]

def charging : List (Action Bool Unit Unit UsageEvent UsageEvent) :=
  [.consume (.deliver () sampleEvent.eventID sampleEvent 9000),.consume (.receipt ()),
    .consume (.select ()),.price (.beginRate false outputRate),
    .consume (.charge () .answered),.price (.deleteVersion true sampleVersion.id)]

def emptyState : State Bool Unit Unit UsageEvent UsageEvent := start (sampleTables _)

def publishedState : State Bool Unit Unit UsageEvent UsageEvent :=
  emptyState.run id sampleCodec "metering" publishing

def chargedState : State Bool Unit Unit UsageEvent UsageEvent :=
  publishedState.run id sampleCodec "metering" charging

theorem chargedState_frozen : (publishedState.prices = ⟨[sampleVersion],[sampleRate]⟩ ∧
    chargedState.consumers.tables.entries.map (·.amountMicros) = [3]) ∧
      Freezes True publishedState chargedState sampleVersion ∧
      ∀ entry ∈ chargedState.consumers.tables.entries, entry.original →
        ChargedAt chargedState.prices entry := by
  have hfacts : (publishedState.prices = ⟨[sampleVersion],[sampleRate]⟩ ∧
      chargedState.consumers.tables.entries.map (·.amountMicros) = [3]) ∧
      emptyState.Finds id sampleCodec "metering" publishing ∧
      publishedState.Finds id sampleCodec "metering" charging := by
    decide +kernel
  obtain ⟨hvalues,hpublishing,hcharging⟩ := hfacts
  have hfrozen := leads_frozen (leads_run fun _ : True => hpublishing)
    (leads_run fun _ : True => hcharging)
  refine ⟨hvalues,hfrozen.1 sampleVersion ?_ rfl,hfrozen.2⟩
  show sampleVersion ∈ publishedState.prices.versions
  rw [hvalues.1]
  exact mem_cons_self

/-- A rate whose trigger runs before the version is there: by the time of the check of its foreign
key the version is created, rated and published. -/
def racing : List (Action Bool Unit Unit UsageEvent UsageEvent) :=
  [.price (.beginRate false outputRate),.price (.insertVersion true draftVersion),
    .price (.beginRate true sampleRate),.price (.finishRate true),
    .price (.updateVersion true sampleVersion.id publish),.price (.commit true)]

def racedState : State Bool Unit Unit UsageEvent UsageEvent :=
  emptyState.run id sampleCodec "metering" racing

def lateState : State Bool Unit Unit UsageEvent UsageEvent :=
  racedState.run id sampleCodec "metering" [.price (.finishRate false),.price (.commit false)]

theorem lateState_rates : emptyState.Leads id sampleCodec "metering" False racedState ∧
    racedState.Leads id sampleCodec "metering" False lateState ∧
    sampleVersion ∈ racedState.prices.versions ∧ sampleVersion.status = .published ∧
    racedState.writers.inserting false = some outputRate ∧
    racedState.prices.ratesOf sampleVersion.id = [sampleRate] ∧
    lateState.prices.ratesOf sampleVersion.id = [sampleRate,outputRate] := by
  refine ⟨leads_run False.elim,leads_run False.elim,?_⟩
  decide +kernel

end Pricing
