import AiGateway.MeteringCost.Projection

/-! The cost of a request is a partition of its ledger, in whatever order the facts are read. -/
namespace MeteringCost
open Machine Execution List CurrencyAccumulator Relational

variable {facts facts' : List LedgerFact} {totals : List CurrencyTotal}

/-- The sum of these facts in a currency. -/
abbrev sumIn (facts : List LedgerFact) (currency : String) : ℤ :=
  total (·.amountMicros) (facts.filter fun fact => fact.currency = currency)

theorem sumIn_append (currency : String) :
    sumIn (facts ++ facts') currency = sumIn facts currency + sumIn facts' currency := by
  rw [sumIn,filter_append,total_append]

/-! The order of the facts. -/

theorem accumulate_perm (h : facts.Perm facts') : (accumulate facts).Perm (accumulate facts') := by
  -- both are their currencies, each with the sum of its facts
  have hpairs (l : List LedgerFact) : accumulate l =
      ((accumulate l).map Prod.fst).map fun currency => (currency,sumIn l currency) := by
    rw [map_map]
    exact (map_id _).symm.trans
      (map_congr_left fun total htotal => Prod.ext rfl (accumulate_total l total htotal))
  have htotal (currency : String) : sumIn facts currency = sumIn facts' currency :=
    ((h.filter _).map _).sum_eq
  have hkeys : ((accumulate facts).map Prod.fst).Perm ((accumulate facts').map Prod.fst) := by
    rw [perm_ext_iff_of_nodup (accumulate_keys facts).1 (accumulate_keys facts').1]
    intro currency
    rw [(accumulate_keys facts).2,(accumulate_keys facts').2]
    simp only [h.mem_iff]
  rw [hpairs facts,hpairs facts']
  simp only [htotal]
  exact hkeys.map _

theorem ordered_perm (h : facts.Perm facts') :
    (accumulate facts).ordered = (accumulate facts').ordered := by
  have hperm := accumulate_perm h
  unfold ordered
  rw [hperm.all_eq,insertionSort_perm Prod.fst hperm (accumulate_keys facts).1]

/-- The same cost with the entries in the order of these facts. -/
def RequestCost.rearranged (cost : RequestCost) (facts : List LedgerFact) : RequestCost :=
  { cost with
    attempts := cost.attempts.map fun a =>
      { a with entries := facts.filter fun fact => fact.attemptID = a.id }
    requestLevel :=
      { cost.requestLevel with entries := facts.filter fun fact => fact.attemptID = "" } }

variable {scope : Scope} {requestID : String} {status : RequestStatus}
variable {n : ℕ} {attemptFacts attemptFacts' : List AttemptFact}
variable {cost : RequestCost} {base : List AttemptCost}

theorem Builds.perm (h : Builds scope requestID status n attemptFacts facts base cost)
    (hatts : attemptFacts.Perm attemptFacts') (hfacts : facts.Perm facts') :
    Builds scope requestID status n attemptFacts' facts' base (cost.rearranged facts') := by
  obtain ⟨-,-,-,hnums⟩ := attemptCosts_spec h.start
  have hsort := perm_insertionSort (fun a b : AttemptFact => a.number ≤ b.number) attemptFacts
  have hnodup : (attemptFacts.map (·.number)).Nodup := by
    rw [← (hsort.map _).nodup_iff,hnums]
    exact nodup_range'
  refine ⟨?_,?_,?_,?_,?_,?_,?_,?_⟩
  · rw [← hatts.length_eq]
    exact h.guard
  · rw [← insertionSort_perm AttemptFact.number hatts hnodup]
    exact h.start
  · exact fun fact hfact => h.accepted fact (hfacts.mem_iff.mpr hfact)
  · exact (hfacts.map _).nodup_iff.mp h.events
  · have hclosed := mapM_eq_ok.mp h.attempts
    rw [progressOf,forall₂_map_left_iff] at hclosed
    rw [mapM_eq_ok,progressOf,forall₂_map_left_iff]
    refine forall₂_map_right_iff.mpr (hclosed.imp ?_)
    intro a y hy
    obtain ⟨found,hfound,rfl⟩ := map_eq_ok.mp hy
    refine map_eq_ok.mpr ⟨found,(ordered_perm (hfacts.filter _)).symm.trans hfound,?_⟩
    simp only [(hfacts.filter _).length_eq]
  · exact (ordered_perm (hfacts.filter _)).symm.trans h.level
  · exact (ordered_perm hfacts).symm.trans h.totals
  · obtain ⟨tenantID,projectID,requestID,status,count,entryCount,attempts,⟨_,_,_⟩,totals⟩ := cost
    cases h.result
    simp only [RequestCost.rearranged,hfacts.length_eq,(hfacts.filter _).length_eq]

/-! The sums. -/

/-- The amount of a currency, 0 if it has no entry. -/
def amountIn (totals : List CurrencyTotal) (currency : String) : ℤ :=
  ((totals.find? fun total => total.currency = currency).map (·.amountMicros)).getD 0

theorem TotalsOf.amountIn_eq (h : TotalsOf totals facts) (currency : String) :
    amountIn totals currency = sumIn facts currency := by
  unfold amountIn sumIn
  cases hfound : totals.find? fun total => total.currency = currency with
  | some total =>
    have hcurr : total.currency = currency := by simpa using find?_some hfound
    exact hcurr ▸ h.sums total (mem_of_find?_eq_some hfound)
  | none =>
    rw [filter_eq_nil_iff.mpr]
    · rfl
    · intro fact hfact hsame
      obtain ⟨total,htotal,hcurr⟩ := mem_map.mp ((h.covers _).mpr ⟨fact,hfact,rfl⟩)
      exact find?_eq_none.mp hfound total htotal (hcurr ▸ hsame)

theorem TotalsOf.ascending (h : TotalsOf totals facts) :
    totals.Pairwise fun a b => a.currency < b.currency :=
  (h.sorted.and (pairwise_map.mp h.currencies)).imp fun h => lt_of_le_of_ne h.1 h.2

/-- Each fact is in one bucket, and the totals of the buckets add up. -/
structure Partitions (facts : List LedgerFact) (cost : RequestCost) : Prop where
  entries : cost.entries.Perm facts
  distinct : facts.Nodup
  buckets : ∀ a ∈ cost.attempts, a.entries = facts.filter fun fact => fact.attemptID = a.id
  level : cost.requestLevel.entries = facts.filter fun fact => fact.attemptID = ""
  counts : cost.requestLevel.ledgerEntryCount + (cost.attempts.map (·.ledgerEntryCount)).sum =
    facts.length
  sums : ∀ currency, amountIn cost.totals currency = sumIn facts currency
  parts : ∀ currency, amountIn cost.totals currency = amountIn cost.requestLevel.totals currency +
    (cost.attempts.map fun a => amountIn a.totals currency).sum
  currencies : ∀ currency, currency ∈ cost.totals.map (·.currency) ↔
    ∃ fact ∈ facts, fact.currency = currency
  sorted : ∀ totals ∈ cost.totals :: cost.requestLevel.totals :: cost.attempts.map (·.totals),
    totals.Pairwise fun a b => a.currency < b.currency

theorem Projects.partitions (h : Projects scope requestID status attemptFacts facts cost) :
    Partitions facts cost := by
  obtain ⟨hlevel,hcount,hsums⟩ := h.level
  refine ⟨h.entries,h.events.of_map,fun a ha => (h.buckets a ha).1,hlevel,?_,h.totals.2.amountIn_eq,
    fun currency => ?_,h.totals.2.covers,?_⟩
  · rw [← h.entries.length_eq,RequestCost.entries,length_append,length_flatMap,hcount,
      map_congr_left fun a ha => (h.buckets a ha).2.1]
  · have hparts : cost.attempts.map (fun a => amountIn a.totals currency) =
        cost.attempts.map fun a => sumIn a.entries currency :=
      map_congr_left fun a ha => (h.buckets a ha).2.2.amountIn_eq currency
    rw [(h.totals.2.perm h.entries.symm).amountIn_eq,hsums.amountIn_eq,hparts,
      RequestCost.entries,sumIn_append]
    congr 1
    induction cost.attempts with
    | nil => rfl
    | cons a attempts ih =>
      rw [flatMap_cons,sumIn_append,ih,map_cons,sum_cons]
  · rw [forall_mem_cons,forall_mem_cons,forall_mem_map]
    exact ⟨h.totals.2.ascending,hsums.ascending,fun a ha => (h.buckets a ha).2.2.ascending⟩

theorem buildRequestCost_partition
    (h : buildRequestCost scope requestID status n attemptFacts facts =
      .ok cost) :
    Partitions facts cost ∧ ∀ attemptFacts' facts', attemptFacts.Perm attemptFacts' →
      facts.Perm facts' → buildRequestCost scope requestID status n attemptFacts' facts' =
        .ok (cost.rearranged facts') := by
  refine ⟨(buildRequestCost_spec h).partitions,fun attemptFacts' facts' hatts hfacts => ?_⟩
  obtain ⟨base,h⟩ := buildRequestCost_eq_ok.mp h
  exact buildRequestCost_eq_ok.mpr ⟨base,h.perm hatts hfacts⟩

/-- A fact of one token. -/
def sampleFact (eventID attemptID : String) : LedgerFact :=
  ⟨eventID,attemptID,.input,1,.provider,1,1,eventID,"USD",.token,1000,5,5,none⟩

def sampleID : String := "00000000-0000-4000-8000-000000000000"

/-- The facts of an attempt and of the request itself. -/
def sampleFacts : List LedgerFact :=
  [sampleFact sampleID sampleID,sampleFact "00000000-0000-4000-8000-000000000001" ""]

def sampleAttempt : AttemptFact := ⟨sampleID,1,sampleID,.succeeded⟩

def sampleCost : RequestCost :=
  ⟨sampleID,sampleID,"request1",.succeeded,1,2,[{ sampleAttempt with
      ledgerEntryCount := 1, entries := sampleFacts.take 1, totals := [⟨"USD",5⟩] }],
    ⟨1,sampleFacts.drop 1,[⟨"USD",5⟩]⟩,[⟨"USD",10⟩]⟩

theorem sampleCost_partition : Partitions sampleFacts sampleCost ∧
    buildRequestCost ⟨sampleID,sampleID⟩ "request1" .succeeded 1 [sampleAttempt]
      sampleFacts.reverse = .ok (sampleCost.rearranged sampleFacts.reverse) := by
  have h : buildRequestCost ⟨sampleID,sampleID⟩ "request1" .succeeded 1 [sampleAttempt]
      sampleFacts = .ok sampleCost := by rfl
  obtain ⟨hparts,hperm⟩ := buildRequestCost_partition h
  exact ⟨hparts,hperm _ _ (.refl _) (reverse_perm _).symm⟩

end MeteringCost
