import AiGateway.Ledger.Later
import AiGateway.MeteringConsumer.Processor
import Mathlib.Data.Prod.Lex

/-! Which price version an event is priced from: the query of the consumer, beside the version in
force and its own `RateAt` (`internal/metering/price.go`). -/
namespace MeteringConsumer
open Text Machine Metering Ledger Relational List

variable {H : Type}

/-- `^[a-z0-9][a-z0-9-]{0,62}$` -/
def priceRegionPattern (s : String) : Bool :=
  isWord (fun c => isLower c || isDigit c) (fun c => isLower c || isDigit c || isDash c) 0 62 s

/-- `^[A-Z]{3}$` -/
def priceCurrencyPattern (s : String) : Bool := isWord isUpper isUpper 2 2 s

def validPriceActor (actor : String) : Bool :=
  1 ≤ actor.utf8ByteSize && actor.utf8ByteSize ≤ 200 && isTrimmed actor

def supportedTokenTypes : ℕ := 9

/-- `Validate` of a version with its rates; every refusal is `ErrInvalidPriceVersion`. -/
def validatePriceVersion (price : PriceVersion) (rates : List PriceRate) : Bool :=
  isUUID price.id && isUUID price.deploymentID && priceRegionPattern price.region &&
    priceCurrencyPattern price.currency && price.effectiveAt ≠ zeroTime &&
    price.createdAt ≠ zeroTime && price.createdAt ≤ price.updatedAt &&
    validPriceActor price.createdBy && validPriceActor price.updatedBy &&
    1 ≤ rates.length && rates.length ≤ supportedTokenTypes &&
    (match price.status with
      | .draft => price.version = 1 && price.publishedAt.isNone
      | .published => price.version = 2 && price.publishedAt.any fun published =>
          price.createdAt ≤ published && published ≤ price.updatedAt) &&
    rates.all PriceRate.validate && decide (rates.map PriceRate.tokenType).Nodup

inductive RateError where
  | invalidPriceVersion
  | priceNotEffective
  | priceRateNotFound

def rateAt (price : PriceVersion) (rates : List PriceRate) (tokenType : TokenType)
    (observedAt : Time) : Except RateError PriceRate :=
  if validatePriceVersion price rates = false then .error .invalidPriceVersion
  else if price.status ≠ .published ∨ observedAt = zeroTime ∨ observedAt < price.effectiveAt then
    .error .priceNotEffective
  else match rates.find? fun rate => rate.tokenType = tokenType with
    | some rate => .ok rate
    | none => .error .priceRateNotFound

section Selection
variable (stamp : Time → Time) (db : Tables H) (event : UsageEvent)

def priceRates (price : PriceVersion) : List PriceRate :=
  (db.prices.ratesOf price.id).map VersionRate.rate

/-- The newest of the versions that are in effect at the time of the event itself. -/
def versionInForce : Option PriceVersion :=
  first newestFirst (db.prices.versions.filter fun price => effective id db event price)

/-- The price the event is to have: that of the version in force, by its `RateAt`, in the unit
of the event. -/
def rateInForce : Except ConsumerError (String × PriceRate) :=
  if attributed db event then
    match versionInForce db event with
    | none => .error .priceUnavailable
    | some price =>
        match rateAt price (priceRates db price) event.tokenType event.observedAt with
        | .error _ => .error .priceUnavailable
        | .ok rate => if rate.billingUnit = event.billingUnit then .ok (price.id,rate)
            else .error .priceUnavailable
  else .error .priceUnavailable

/-- The version in force has no rate for the event, but one that it has superseded has. -/
def Fallback : Prop :=
  attributed db event ∧ ∃ newest, versionInForce db event = some newest ∧
    rateFor db event newest = none ∧
    ∃ older ∈ db.prices.versions, effective id db event older ∧ (rateFor db event older).isSome

/-- No version comes into effect between the time of the event and that time as the database
rounds it. -/
def Precise : Prop :=
  ∀ price ∈ db.prices.versions,
    price.effectiveAt ≤ stamp event.observedAt ↔ price.effectiveAt ≤ event.observedAt

variable {stamp db event}

theorem Precise.selectEffectiveRate_eq (h : Precise stamp db event) :
    selectEffectiveRate stamp db event = selectEffectiveRate id db event := by
  have hsame : db.prices.versions.filter (fun price => effective stamp db event price) =
      db.prices.versions.filter fun price => effective id db event price := by
    apply filter_congr
    intro price hprice
    simp only [effective,h price hprice,id_eq]
  rw [selectEffectiveRate,effectivePrices,hsame,selectEffectiveRate,effectivePrices]

/-- The order of the query, turned around. -/
def recency (price : PriceVersion) : Lex (Time × String) := toLex (price.effectiveAt,price.id)

theorem newestFirst_iff {a b : PriceVersion} : newestFirst a b ↔ recency b < recency a := by
  simp [newestFirst,recency,Prod.Lex.toLex_lt_toLex]

variable {newest : PriceVersion}

theorem versionInForce_spec (h : versionInForce db event = some newest) :
    newest ∈ db.prices.versions ∧ effective id db event newest ∧
      ∀ price ∈ db.prices.versions, effective id db event price →
        recency price ≤ recency newest := by
  have hmem := first_mem h
  rw [mem_filter,decide_eq_true_eq] at hmem
  refine ⟨hmem.1,hmem.2,?_⟩
  intro price hprice heff
  refine first_least (OrderDual.toDual ∘ recency) (fun _ _ => newestFirst_iff) h price ?_
  rw [mem_filter,decide_eq_true_eq]
  exact ⟨hprice,heff⟩

theorem versionInForce_eq_none (h : versionInForce db event = none) :
    ∀ price ∈ db.prices.versions, ¬effective id db event price := by
  have hempty := first_eq_none.mp h
  intro price hprice heff
  exact filter_eq_nil_iff.mp hempty price hprice (decide_eq_true heff)

variable {price : PriceVersion} {found : VersionRate}

theorem mem_effectivePrices (hattr : attributed db event) :
    (price,found) ∈ effectivePrices id db event ↔
      price ∈ db.prices.versions ∧ effective id db event price ∧
        rateFor db event price = some found := by
  simp only [effectivePrices,if_pos hattr,mem_filterMap,mem_filter,
    decide_eq_true_eq,Option.map_eq_some_iff,Prod.mk.injEq]
  constructor
  · rintro ⟨_,⟨hprice,heff⟩,_,hrate,rfl,rfl⟩
    exact ⟨hprice,heff,hrate⟩
  · rintro ⟨hprice,heff,hrate⟩
    exact ⟨price,⟨hprice,heff⟩,found,hrate,rfl,rfl⟩

theorem mem_priceRates {rate : PriceRate} : rate ∈ priceRates db price ↔
    ∃ r ∈ db.prices.rates, r.priceVersionID = price.id ∧ r.rate = rate := by
  simp [priceRates,Prices.ratesOf,and_assoc]

theorem rateFor_eq_some (h : rateFor db event price = some found) : found ∈ db.prices.rates ∧
      found.priceVersionID = price.id ∧ found.rate.tokenType = event.tokenType ∧
      found.rate.billingUnit = event.billingUnit := by
  have hfound := find?_some h
  rw [decide_eq_true_eq] at hfound
  exact ⟨mem_of_find?_eq_some h,hfound⟩

/-- Every version with its rates passes its own check. -/
def PricesValid (db : Tables H) : Prop :=
  ∀ price ∈ db.prices.versions, price.status = .published →
    validatePriceVersion price (priceRates db price)

section
variable (hvalid : PricesValid db)
include hvalid

theorem rate_valid (hprice : price ∈ db.prices.versions)
    (heff : effective id db event price) (h : rateFor db event price = some found) :
    found.rate.validate := by
  have hver := hvalid price hprice heff.2.2.1
  simp only [validatePriceVersion,Bool.and_eq_true,all_eq_true] at hver
  obtain ⟨hmem,hid,-⟩ := rateFor_eq_some h
  exact hver.1.2 _ (mem_priceRates.mpr ⟨found,hmem,hid,rfl⟩)

theorem selectEffectiveRate_of_first (hattr : attributed db event)
    (h : first (fun a b => newestFirst a.1 b.1) (effectivePrices id db event) =
    some (price,found)) :
    selectEffectiveRate id db event = .ok (price.id,found.rate) := by
  obtain ⟨hprice,heff,hrate⟩ := (mem_effectivePrices hattr).mp (first_mem h)
  have htype := (rateFor_eq_some hrate).2.2.1
  simp [selectEffectiveRate,h,← htype,rate_valid hvalid hprice heff hrate]

theorem rateAt_effective (hevent : event.observedAt ≠ zeroTime)
    (hprice : price ∈ db.prices.versions) (heff : effective id db event price) :
    rateAt price (priceRates db price) event.tokenType event.observedAt =
      match (priceRates db price).find? fun rate => rate.tokenType = event.tokenType with
      | some rate => .ok rate
      | none => .error .priceRateNotFound := by
  obtain ⟨-,-,hpub,htime⟩ := heff
  rw [rateAt,if_neg (by simp [hvalid price hprice hpub]),if_neg]
  rintro (h | h | h)
  · exact h hpub
  · exact hevent h
  · exact absurd h (not_lt.mpr htime)

end

/-- The rate that the version has for the type of the event, if it has the unit of the event too. -/
theorem rateInForce_eq (hkey : db.prices.Keyed) (hvalid : PricesValid db)
    (hevent : event.observedAt ≠ zeroTime) (hattr : attributed db event)
    (h : versionInForce db event = some newest) :
    rateInForce db event = match rateFor db event newest with
      | some found => .ok (newest.id,found.rate)
      | none => .error .priceUnavailable := by
  obtain ⟨hmem,heff,-⟩ := versionInForce_spec h
  simp only [rateInForce,if_pos hattr,h,rateAt_effective hvalid hevent hmem heff]
  -- A version has at most one rate for a type, so the two searches meet the same rate.
  have hunique : ∀ r ∈ db.prices.rates, ∀ r' ∈ db.prices.rates, r.priceVersionID = newest.id →
      r'.priceVersionID = newest.id → r.rate.tokenType = r'.rate.tokenType → r = r' := by
    intro r hr r' hr' hid hid' htype
    exact inj_on_of_nodup_map hkey.rates hr hr' (by simp [rateKey,hid,hid',htype])
  cases hfind : (priceRates db newest).find? fun rate => rate.tokenType = event.tokenType with
  | none =>
    cases hrate : rateFor db event newest with
    | none => rfl
    | some found =>
      obtain ⟨hfound,hid,htype,-⟩ := rateFor_eq_some hrate
      have hnone := find?_eq_none.mp hfind _ (mem_priceRates.mpr ⟨found,hfound,hid,rfl⟩)
      simp [htype] at hnone
  | some rate =>
    obtain ⟨r,hr,hid,rfl⟩ := mem_priceRates.mp (mem_of_find?_eq_some hfind)
    have htype : r.rate.tokenType = event.tokenType := by simpa using find?_some hfind
    cases hrate : rateFor db event newest with
    | none =>
      have hnone := find?_eq_none.mp hrate r hr
      have hunit : r.rate.billingUnit ≠ event.billingUnit := by
        intro hunit
        simp [hid,htype,hunit] at hnone
      simp [hunit]
    | some found =>
      obtain ⟨hfound,hid',htype',hunit⟩ := rateFor_eq_some hrate
      rw [hunique r hr found hfound hid hid' (htype.trans htype'.symm)]
      simp [hunit]

theorem effectivePrices_empty (h : ∀ price ∈ db.prices.versions, effective id db event price →
    rateFor db event price = none) :
    selectEffectiveRate id db event = .error .priceUnavailable := by
  have hempty : effectivePrices id db event = [] := by
    unfold effectivePrices
    split_ifs
    · rw [filterMap_eq_nil_iff]
      intro price hprice
      rw [mem_filter,decide_eq_true_eq] at hprice
      rw [h price hprice.1 hprice.2,Option.map_none]
    · rfl
  simp [selectEffectiveRate,hempty,first]

/-- The pair of the version in force comes first where it has a rate for the event. -/
theorem first_effectivePrices (hkey : db.prices.Keyed) (hattr : attributed db event)
    (h : versionInForce db event = some newest) (hrate : rateFor db event newest = some found) :
    first (fun a b => newestFirst a.1 b.1) (effectivePrices id db event) = some (newest,found) := by
  obtain ⟨hmem,heff,hnewest⟩ := versionInForce_spec h
  apply first_eq_some ((mem_effectivePrices hattr).mpr ⟨hmem,heff,hrate⟩)
  rintro ⟨price,found'⟩ hpair hne
  obtain ⟨hprice,heff',hrate'⟩ := (mem_effectivePrices hattr).mp hpair
  have hid : newest.id ≠ price.id := by
    intro hid
    obtain rfl := inj_on_of_nodup_map hkey.versions hmem hprice hid
    rw [hrate,Option.some.injEq] at hrate'
    exact hne (by rw [hrate'])
  have hle := hnewest price hprice heff'
  have hlt : recency price < recency newest :=
    lt_of_le_of_ne hle fun heq => hid (congrArg (fun key => (ofLex key).2) heq).symm
  exact ⟨newestFirst_iff.mpr hlt,Bool.eq_false_iff.mpr fun h => (newestFirst_iff.mp h).not_ge hle⟩

theorem observed_of_validate (h : event.validate) : event.observedAt ≠ zeroTime := by
  simp only [UsageEvent.validate,UsageIdentity.validate,UsageEvent.identity,Bool.and_eq_true,
    decide_eq_true_eq] at h
  exact of_decide_eq_true h.1.1.1.1.1.1.2.2

end Selection

/-! A sample: a second version, in effect when the event is observed, prices output tokens only or
input tokens too. -/

def sampleNewer : PriceVersion :=
  { sampleVersion with id := "50000000-0000-4000-8000-000000000002", effectiveAt := 3000 }

def sampleNewerRate (tokenType : TokenType) : VersionRate :=
  ⟨sampleNewer.id,⟨tokenType,.token,1000,300⟩,550,"pricing"⟩

def sampleRepriced (tokenType : TokenType) : Tables ℕ :=
  { sampleTables ℕ with
    prices := ⟨[sampleVersion,sampleNewer],[sampleRate,sampleNewerRate tokenType]⟩ }

end MeteringConsumer
