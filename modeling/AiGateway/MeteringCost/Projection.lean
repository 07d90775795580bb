import AiGateway.MeteringCost.Model
import Mathlib.Data.List.Induction

/-! What `buildRequestCost` returns: the facts by attempts, each once, with the totals of
all of them. -/
namespace MeteringCost
open Text Machine Adapter Metering Execution List CurrencyAccumulator

/-! Totals by currency. -/

section Totals
open CurrencyAccumulator

theorem accumulate_snoc (facts : List LedgerFact) (fact : LedgerFact) :
    accumulate (facts ++ [fact]) = (accumulate facts).add fact.currency fact.amountMicros := by
  rw [accumulate,foldl_append]
  rfl

theorem add_keys (totals : CurrencyAccumulator) (currency : String) (amount : ℤ) :
    (totals.add currency amount).map Prod.fst =
      if currency ∈ totals.map Prod.fst then totals.map Prod.fst
      else totals.map Prod.fst ++ [currency] := by
  unfold add
  split_ifs
  · exact Relational.map_update fun _ => rfl
  · rw [map_append]
    rfl

theorem accumulate_keys (facts : List LedgerFact) : ((accumulate facts).map Prod.fst).Nodup ∧
      ∀ currency, currency ∈ (accumulate facts).map Prod.fst ↔
        ∃ fact ∈ facts, fact.currency = currency := by
  induction facts using reverseRecOn with
  | nil => exact ⟨nodup_nil,fun _ => by simp [accumulate]⟩
  | append_singleton facts fact ih =>
    obtain ⟨hnodup,hmem⟩ := ih
    rw [accumulate_snoc,add_keys]
    split_ifs with hold
    · refine ⟨hnodup,fun currency => ?_⟩
      rw [hmem]
      constructor
      · intro h
        obtain ⟨other,hother,hcurr⟩ := h
        exact ⟨other,mem_append_left _ hother,hcurr⟩
      · intro h
        obtain ⟨other,hother,hcurr⟩ := h
        rcases mem_append.mp hother with hother | hother
        · exact ⟨other,hother,hcurr⟩
        · rw [mem_singleton.mp hother] at hcurr
          exact (hmem currency).mp (hcurr ▸ hold)
    · refine ⟨?_,fun currency => ?_⟩
      · rw [nodup_append]
        refine ⟨hnodup,nodup_singleton _,?_⟩
        intro currency hcurr new hnew hsame
        rw [mem_singleton.mp hnew] at hsame
        exact hold (hsame ▸ hcurr)
      · rw [mem_append,hmem,mem_singleton]
        simp only [mem_append,mem_singleton,or_and_right,exists_or,exists_eq_left]
        rw [@eq_comm _ currency]

theorem accumulate_total (facts : List LedgerFact) : ∀ total ∈ accumulate facts, total.2 =
      Relational.total (·.amountMicros) (facts.filter fun fact => fact.currency = total.1) := by
  induction facts using reverseRecOn with
  | nil => exact nofun
  | append_singleton facts fact ih =>
    rw [accumulate_snoc]
    intro total htotal
    rw [filter_append,Relational.total_append]
    unfold add at htotal
    split_ifs at htotal with hold
    · rcases Relational.mem_update.mp htotal with ⟨hmem,hother⟩ | ⟨before,hbefore,hkey,rfl⟩
      · rw [ih total hmem]
        simp [Ne.symm hother]
      · dsimp only
        rw [ih before hbefore]
        simp [hkey]
    · rcases mem_append.mp htotal with hmem | hnew
      · have hother : fact.currency ≠ total.1 := by
          intro hsame
          exact hold (hsame ▸ mem_map_of_mem hmem)
        rw [ih total hmem]
        simp [hother]
      · rw [mem_singleton.mp hnew]
        have hnone : facts.filter (fun other => other.currency = fact.currency) = [] := by
          rw [filter_eq_nil_iff]
          intro other hother hsame
          exact hold (((accumulate_keys facts).2 _).mpr ⟨other,hother,of_decide_eq_true hsame⟩)
        dsimp only
        rw [hnone]
        simp

end Totals

/-- The totals are the sums of these facts by currency, each of them in range. -/
structure TotalsOf (totals : List CurrencyTotal) (facts : List LedgerFact) : Prop where
  currencies : (totals.map (·.currency)).Nodup
  sorted : totals.Pairwise fun a b => a.currency ≤ b.currency
  covers : ∀ currency, currency ∈ totals.map (·.currency) ↔ ∃ fact ∈ facts, fact.currency = currency
  sums : ∀ total ∈ totals, total.amountMicros =
    Relational.total (·.amountMicros) (facts.filter fun fact => fact.currency = total.currency)
  range : ∀ total ∈ totals, 0 ≤ total.amountMicros ∧ total.amountMicros ≤ maximumExactInteger

variable {facts : List LedgerFact} {p : Progress} {totals : List CurrencyTotal}

theorem TotalsOf.perm {facts' : List LedgerFact}
    (h : TotalsOf totals facts) (hperm : facts.Perm facts') : TotalsOf totals facts' := by
  refine ⟨h.currencies,h.sorted,?_,?_,h.range⟩
  · simp only [← hperm.mem_iff]
    exact h.covers
  · intro total htotal
    rw [h.sums total htotal]
    exact ((hperm.filter _).map _).sum_eq

theorem ordered_totals (h : (accumulate facts).ordered = .ok totals) : TotalsOf totals facts := by
  obtain ⟨hrange,rfl⟩ := ite_eq_ok.mp h
  rw [all_eq_true] at hrange
  have hperm := perm_insertionSort (fun a b : String × ℤ => a.1 ≤ b.1)
    (accumulate facts)
  have hkeys : (((accumulate facts).insertionSort fun a b => a.1 ≤ b.1).map
      fun total => (⟨total.1,total.2⟩ : CurrencyTotal)).map (·.currency) =
      ((accumulate facts).insertionSort fun a b => a.1 ≤ b.1).map Prod.fst := by
    rw [map_map]
    rfl
  have hmem : ∀ total ∈ ((accumulate facts).insertionSort
      fun a b => a.1 ≤ b.1).map fun total => (⟨total.1,total.2⟩ : CurrencyTotal),
      (total.currency,total.amountMicros) ∈ accumulate facts := by
    intro total htotal
    obtain ⟨pair,hpair,rfl⟩ := mem_map.mp htotal
    exact hperm.mem_iff.mp hpair
  refine ⟨?_,?_,?_,?_,?_⟩
  · rw [hkeys,(hperm.map Prod.fst).nodup_iff]
    exact (accumulate_keys facts).1
  · exact pairwise_map.mpr (Relational.pairwise_insertionSort_key Prod.fst _)
  · intro currency
    rw [hkeys,(hperm.map Prod.fst).mem_iff,(accumulate_keys facts).2]
  · exact fun total htotal => accumulate_total facts _ (hmem total htotal)
  · intro total htotal
    simpa using hrange _ (hmem total htotal)

/-! The first loop. -/

theorem attemptCosts_spec {facts : List AttemptFact} {index : ℕ} {seen : List String}
    {attempts : List AttemptCost} (h : attemptCosts index seen facts = .ok attempts) :
    attempts = facts.map (·.unused) ∧
      (∀ fact ∈ facts, isUUID fact.id ∧ fact.status.terminal ∧ fact.id ∉ seen) ∧
      (facts.map (·.id)).Nodup ∧ facts.map (·.number) = range' (index + 1) facts.length := by
  induction facts generalizing index seen attempts with
  | nil =>
    cases h
    exact ⟨rfl,nofun,nodup_nil,rfl⟩
  | cons fact facts ih =>
    unfold attemptCosts at h
    split_ifs at h with hfact
    simp only [Bool.and_eq_true,Bool.not_eq_true',decide_eq_true_eq] at hfact
    obtain ⟨⟨⟨⟨hid,hnum⟩,-⟩,hterm⟩,hseen⟩ := hfact
    have hfresh : fact.id ∉ seen := by simpa using hseen
    obtain ⟨rest,hrest,rfl⟩ := map_eq_ok.mp h
    obtain ⟨rfl,hfacts,hnodup,hnums⟩ := ih hrest
    refine ⟨rfl,?_,?_,?_⟩
    · rw [forall_mem_cons]
      refine ⟨⟨hid,hterm,hfresh⟩,fun other hother => ?_⟩
      obtain ⟨hid',hterm',hseen'⟩ := hfacts other hother
      exact ⟨hid',hterm',fun hmem => hseen' (mem_cons_of_mem _ hmem)⟩
    · rw [map_cons,nodup_cons]
      refine ⟨?_,hnodup⟩
      intro hmem
      obtain ⟨other,hother,hsame⟩ := mem_map.mp hmem
      exact (hfacts other hother).2.2 (hsame ▸ mem_cons_self)
    · rw [map_cons,hnum,hnums]
      rfl

/-! The second loop. -/

/-- The state after these facts. -/
def progressOf (base : List AttemptCost) (facts : List LedgerFact) : Progress where
  attempts := base.map fun a =>
    ({ a with
        ledgerEntryCount := (facts.filter fun fact => fact.attemptID = a.id).length
        entries := facts.filter fun fact => fact.attemptID = a.id },
      .accumulate (facts.filter fun fact => fact.attemptID = a.id))
  requestLevelEntryCount := (facts.filter fun fact => fact.attemptID = "").length
  requestLevelEntries := facts.filter fun fact => fact.attemptID = ""
  requestLevelTotals := .accumulate (facts.filter fun fact => fact.attemptID = "")
  requestTotals := .accumulate facts
  seenEvents := facts.map (·.eventID)

/-- What the loop asks of a fact. -/
structure Accepted (base : List AttemptCost) (before : List LedgerFact)
    (fact : LedgerFact) : Prop where
  valid : (fact.identified && fact.inRange)
  fresh : fact.eventID ∉ before.map (·.eventID)
  placed : fact.attemptID = "" ∨ fact.attemptID ∈ base.map (·.id)

theorem progressOf_ids (base : List AttemptCost) (facts : List LedgerFact) :
    (progressOf base facts).attempts.map (·.1.id) = base.map (·.id) := by
  simp [progressOf]

variable {base : List AttemptCost} {before : List LedgerFact}

theorem add_spec (hbase : ∀ a ∈ base, a.id ≠ "") {fact : LedgerFact}
    (h : (progressOf base before).add fact = .ok p) :
    Accepted base before fact ∧ p = progressOf base (before ++ [fact]) := by
  unfold Progress.add at h
  split at h
  · cases h
  · rename_i entry hentry
    obtain ⟨hvalid,rfl⟩ := ite_eq_ok.mp hentry
    split_ifs at h with hseen hlevel hplaced
    · cases h
      refine ⟨⟨hvalid,hseen,.inl hlevel⟩,?_⟩
      have hothers : ∀ a ∈ base, (before ++ [entry]).filter (fun fact => fact.attemptID = a.id) =
          before.filter fun fact => fact.attemptID = a.id := by
        intro a ha
        simp [filter_append,hlevel,Ne.symm (hbase a ha)]
      simp only [progressOf,Progress.mk.injEq]
      refine ⟨?_,?_,?_,?_,(accumulate_snoc _ _).symm,?_⟩
      · apply map_congr_left
        intro a ha
        rw [hothers a ha]
      · simp [filter_append,hlevel]
      · simp [filter_append,hlevel]
      · simp [filter_append,hlevel,accumulate_snoc]
      · simp
    · cases h
      rw [progressOf_ids] at hplaced
      refine ⟨⟨hvalid,hseen,.inr hplaced⟩,?_⟩
      simp only [progressOf,Progress.mk.injEq]
      refine ⟨?_,?_,?_,?_,(accumulate_snoc _ _).symm,?_⟩
      · rw [Relational.update,map_map]
        apply map_congr_left
        intro a ha
        simp only [Function.comp_apply]
        split_ifs with hown
        · simp [charge,filter_append,hown,accumulate_snoc]
        · simp [filter_append,Ne.symm hown]
      · simp [filter_append,hlevel]
      · simp [filter_append,hlevel]
      · simp [filter_append,hlevel]
      · simp

theorem add_eq_ok (hbase : ∀ a ∈ base, a.id ≠ "") {fact : LedgerFact} :
    (progressOf base before).add fact = .ok p ↔
      Accepted base before fact ∧ p = progressOf base (before ++ [fact]) := by
  refine ⟨add_spec hbase,?_⟩
  rintro ⟨h,rfl⟩
  have hentry : fact.entry = .ok fact := if_pos h.valid
  have hfresh : fact.eventID ∉ (progressOf base before).seenEvents := h.fresh
  obtain ⟨p,hp⟩ : ∃ p, (progressOf base before).add fact = .ok p := by
    unfold Progress.add
    rw [hentry]
    dsimp only
    rw [if_neg hfresh]
    split_ifs with hlevel hplaced
    · exact ⟨_,rfl⟩
    · exact ⟨_,rfl⟩
    · rw [progressOf_ids] at hplaced
      exact absurd (h.placed.resolve_left hlevel) hplaced
  rw [hp,(add_spec hbase hp).2]

theorem accepted_snoc {fact other : LedgerFact} : Accepted base (before ++ [fact]) other ↔
    Accepted base before other ∧ other.eventID ≠ fact.eventID := by
  constructor
  · intro h
    have hfresh := h.fresh
    simp only [map_append,map_singleton,mem_append,mem_singleton,not_or] at hfresh
    exact ⟨⟨h.valid,hfresh.1,h.placed⟩,hfresh.2⟩
  · rintro ⟨h,hne⟩
    refine ⟨h.valid,?_,h.placed⟩
    simp only [map_append,map_singleton,mem_append,mem_singleton,not_or]
    exact ⟨h.fresh,hne⟩

/-- The loop accepts the facts exactly if each is acceptable and no event is there twice. -/
theorem addAll_eq_ok (hbase : ∀ a ∈ base, a.id ≠ "") :
    (progressOf base before).addAll facts = .ok p ↔ (∀ fact ∈ facts, Accepted base before fact) ∧
      (facts.map (·.eventID)).Nodup ∧ p = progressOf base (before ++ facts) := by
  induction facts generalizing before with
  | nil => simp [Progress.addAll,eq_comm]
  | cons fact facts ih =>
    have hmem : fact.eventID ∉ facts.map (·.eventID) ↔
        ∀ other ∈ facts, other.eventID ≠ fact.eventID := by simp
    simp only [Progress.addAll,bind_eq_ok,add_eq_ok hbase,and_assoc,exists_and_left,exists_eq_left,
      ih,accepted_snoc,forall_mem_cons,map_cons,nodup_cons,hmem,append_assoc,singleton_append,
      imp_and,forall_and]

/-! The result. -/

/-- The result holds every fact once, with its attempt, and sums all of them up. -/
structure Projects (scope : Scope) (requestID : String) (status : RequestStatus)
    (attemptFacts : List AttemptFact) (facts : List LedgerFact) (cost : RequestCost) : Prop where
  header : cost.tenantID = scope.tenantID ∧ cost.projectID = scope.projectID ∧
    cost.requestID = requestID ∧ cost.status = status
  terminal : status.terminal
  attempts : cost.attempts.map (·.toAttemptFact) =
    attemptFacts.insertionSort fun a b => a.number ≤ b.number
  count : cost.attemptCount = attemptFacts.length
  finished : ∀ fact ∈ attemptFacts, fact.status.terminal
  entries : cost.entries.Perm facts
  valid : ∀ fact ∈ facts, (fact.identified && fact.inRange)
  events : (facts.map (·.eventID)).Nodup
  buckets : ∀ a ∈ cost.attempts, a.entries = facts.filter (fun fact => fact.attemptID = a.id) ∧
    a.ledgerEntryCount = a.entries.length ∧ TotalsOf a.totals a.entries
  level : cost.requestLevel.entries = facts.filter (fun fact => fact.attemptID = "") ∧
    cost.requestLevel.ledgerEntryCount = cost.requestLevel.entries.length ∧
    TotalsOf cost.requestLevel.totals cost.requestLevel.entries
  totals : cost.ledgerEntryCount = facts.length ∧ TotalsOf cost.totals facts

theorem perm_grouped (hfacts : facts.Nodup) {ids : List String} (hids : ids.Nodup)
    (hempty : "" ∉ ids) (hplaced : ∀ fact ∈ facts, fact.attemptID = "" ∨ fact.attemptID ∈ ids) :
    (facts.filter (fun fact => fact.attemptID = "") ++
      ids.flatMap fun id => facts.filter fun fact => fact.attemptID = id).Perm facts := by
  have hgroups : (ids.flatMap fun id => facts.filter fun fact => fact.attemptID = id).Nodup := by
    rw [nodup_flatMap]
    refine ⟨fun id _ => hfacts.filter _,?_⟩
    apply hids.imp
    intro id id' hne
    show Disjoint _ _
    rw [disjoint_left]
    intro fact hfact hfact'
    simp only [mem_filter,decide_eq_true_eq] at hfact hfact'
    exact hne (hfact.2.symm.trans hfact'.2)
  rw [perm_ext_iff_of_nodup _ hfacts]
  · intro fact
    simp only [mem_append,mem_flatMap,mem_filter,decide_eq_true_eq]
    constructor
    · intro h
      rcases h with h | ⟨id,-,h⟩
      · exact h.1
      · exact h.1
    · intro h
      rcases hplaced fact h with hlevel | hid
      · exact .inl ⟨h,hlevel⟩
      · exact .inr ⟨_,hid,h,rfl⟩
  · rw [nodup_append]
    refine ⟨hfacts.filter _,hgroups,?_⟩
    intro fact hfact fact' hfact' hsame
    simp only [mem_flatMap,mem_filter,decide_eq_true_eq] at hfact hfact'
    obtain ⟨id,hid,-,hfact'⟩ := hfact'
    rw [← hsame,hfact.2] at hfact'
    exact hempty (hfact' ▸ hid)

/-- What `buildRequestCost` asks of its input, and what it returns then. -/
structure Builds (scope : Scope) (requestID : String) (status : RequestStatus)
    (n : ℕ) (attemptFacts : List AttemptFact) (facts : List LedgerFact) (base : List AttemptCost)
    (cost : RequestCost) : Prop where
  guard : (scope.validate && requestIDPattern requestID && status.terminal &&
    n = attemptFacts.length)
  start : attemptCosts 0 [] (attemptFacts.insertionSort fun a b => a.number ≤ b.number) = .ok base
  accepted : ∀ fact ∈ facts, Accepted base [] fact
  events : (facts.map (·.eventID)).Nodup
  attempts : (progressOf base facts).attempts.mapM closeAttempt = .ok cost.attempts
  level : (accumulate (facts.filter fun fact => fact.attemptID = "")).ordered =
    .ok cost.requestLevel.totals
  totals : (accumulate facts).ordered = .ok cost.totals
  result : cost = ⟨scope.tenantID,scope.projectID,requestID,status,n,
    facts.length,cost.attempts,⟨(facts.filter fun fact => fact.attemptID = "").length,
      facts.filter fun fact => fact.attemptID = "",cost.requestLevel.totals⟩,cost.totals⟩

variable {scope : Scope} {requestID : String} {status : RequestStatus}
variable {n : ℕ} {attemptFacts : List AttemptFact} {cost : RequestCost}

theorem attemptCosts_ids {facts : List AttemptFact} {index : ℕ} {seen : List String}
    (h : attemptCosts index seen facts = .ok base) : ∀ a ∈ base, a.id ≠ "" := by
  obtain ⟨rfl,hfacts,-⟩ := attemptCosts_spec h
  rw [forall_mem_map]
  intro fact hfact hid
  have hlen := isUUID_length (hfacts fact hfact).1
  rw [show fact.id = "" from hid] at hlen
  cases hlen

theorem start_eq {facts : List AttemptFact} {index : ℕ} {seen : List String}
    (h : attemptCosts index seen facts = .ok base) : Progress.start base = progressOf base [] := by
  obtain ⟨rfl,-⟩ := attemptCosts_spec h
  simp [Progress.start,progressOf,AttemptFact.unused,accumulate]

theorem buildRequestCost_eq_ok :
    buildRequestCost scope requestID status n attemptFacts facts = .ok cost ↔
      ∃ base, Builds scope requestID status n attemptFacts facts base cost := by
  constructor
  · intro h
    unfold buildRequestCost at h
    split_ifs at h with hguard
    obtain ⟨base,hbase,h⟩ := bind_eq_ok.mp h
    obtain ⟨p,hp,h⟩ := bind_eq_ok.mp h
    obtain ⟨attempts,hatts,h⟩ := bind_eq_ok.mp h
    obtain ⟨levelTotals,hlevel,h⟩ := bind_eq_ok.mp h
    obtain ⟨totals,htotals,h⟩ := bind_eq_ok.mp h
    cases h
    rw [start_eq hbase,addAll_eq_ok (attemptCosts_ids hbase),nil_append] at hp
    obtain ⟨hacc,hevents,rfl⟩ := hp
    exact ⟨base,hguard,hbase,hacc,hevents,hatts,hlevel,htotals,rfl⟩
  · rintro ⟨base,h⟩
    have hp := (addAll_eq_ok (attemptCosts_ids h.start)).mpr ⟨h.accepted,h.events,rfl⟩
    rw [← start_eq h.start,nil_append] at hp
    rw [buildRequestCost,if_pos h.guard,h.start,ok_bind,hp,ok_bind,h.attempts,ok_bind]
    have hlevel : (progressOf base facts).requestLevelTotals.ordered = _ := h.level
    have htotals : (progressOf base facts).requestTotals.ordered = _ := h.totals
    rw [hlevel,ok_bind,htotals,ok_bind]
    exact congrArg Except.ok h.result.symm

theorem buildRequestCost_spec
    (h : buildRequestCost scope requestID status n attemptFacts facts =
      .ok cost) :
    Projects scope requestID status attemptFacts facts cost := by
  obtain ⟨base,h⟩ := buildRequestCost_eq_ok.mp h
  have hguard := h.guard
  simp only [Bool.and_eq_true,decide_eq_true_eq] at hguard
  obtain ⟨⟨-,hterm⟩,hcount⟩ := hguard
  have hne := attemptCosts_ids h.start
  obtain ⟨rfl,hsorted,hids,-⟩ := attemptCosts_spec h.start
  have hperm := perm_insertionSort (fun a b : AttemptFact => a.number ≤ b.number) attemptFacts
  have hclosed := mapM_eq_ok.mp h.attempts
  rw [progressOf,map_map,forall₂_map_left_iff] at hclosed
  have hbuckets : Forall₂ (fun (fact : AttemptFact) (a : AttemptCost) =>
      a.toAttemptFact = fact ∧ a.entries = facts.filter (fun other => other.attemptID = fact.id) ∧
        a.ledgerEntryCount = a.entries.length ∧ TotalsOf a.totals a.entries)
      (attemptFacts.insertionSort fun a b => a.number ≤ b.number) cost.attempts := by
    apply hclosed.imp
    intro fact a ha
    obtain ⟨found,hfound,rfl⟩ := map_eq_ok.mp ha
    exact ⟨rfl,rfl,rfl,ordered_totals hfound⟩
  have hfacts : cost.attempts.map (·.toAttemptFact) =
      attemptFacts.insertionSort fun a b => a.number ≤ b.number := by
    have hsame := forall₂_map_right_iff.mpr (hbuckets.imp fun _ _ h => h.1.symm)
    rw [forall₂_eq_eq_eq] at hsame
    exact hsame.symm
  have hown : ∀ a ∈ cost.attempts, a.entries = facts.filter (fun fact => fact.attemptID = a.id) ∧
      a.ledgerEntryCount = a.entries.length ∧ TotalsOf a.totals a.entries := by
    refine ((forall₂_and_left (R := fun _ _ => True) cost.attempts _).mp
      (Forall₂.flip (hbuckets.imp ?_))).1
    rintro fact a ⟨rfl,hrest⟩
    exact ⟨hrest,trivial⟩
  have hgroups : cost.attempts.flatMap (·.entries) =
      ((attemptFacts.insertionSort fun a b => a.number ≤ b.number).map (·.id)).flatMap
        fun id => facts.filter fun fact => fact.attemptID = id := by
    rw [← hfacts,map_map,flatMap_map]
    exact flatMap_congr fun a ha => (hown a ha).1
  obtain ⟨tenantID,projectID,requestID,status,count,entryCount,attempts,⟨_,_,_⟩,totals⟩ := cost
  cases h.result
  refine ⟨⟨rfl,rfl,rfl,rfl⟩,hterm,hfacts,hcount,?_,?_,
    fun fact hfact => (h.accepted fact hfact).valid,h.events,hown,
    ⟨rfl,rfl,ordered_totals h.level⟩,rfl,ordered_totals h.totals⟩
  · intro fact hfact
    exact (hsorted fact (hperm.mem_iff.mpr hfact)).2.1
  · show (facts.filter (fun fact => fact.attemptID = "") ++ attempts.flatMap (·.entries)).Perm facts
    rw [hgroups]
    apply perm_grouped h.events.of_map hids
    · intro hempty
      obtain ⟨fact,hfact,hid⟩ := mem_map.mp hempty
      exact hne _ (mem_map_of_mem hfact) hid
    · intro fact hfact
      have hplaced := (h.accepted fact hfact).placed
      rwa [map_map] at hplaced

end MeteringCost
