import AiGateway.Routing.CircuitBreaker

/-! What one call can do to the record and the permits of one deployment. -/
namespace Routing
open Text Machine CircuitRecord List AList Option

/-! Records. -/

/-- The fields that later decisions read. -/
structure SameDecisions (r r' : CircuitRecord) : Prop where
  state : r'.state = r.state
  generation : r'.generation = r.generation
  inFlight : r'.inFlight = r.inFlight
  consecutiveFailures : r'.consecutiveFailures = r.consecutiveFailures
  halfOpenSuccesses : r'.halfOpenSuccesses = r.halfOpenSuccesses
  openedAt : r'.openedAt = r.openedAt
  retryAt : r'.retryAt = r.retryAt

theorem sameDecisions_refl (r : CircuitRecord) : SameDecisions r r :=
  ⟨rfl,rfl,rfl,rfl,rfl,rfl,rfl⟩

/-- The record's cooldown is over at `now`. -/
def CircuitRecord.Due (r : CircuitRecord) (now : Time) : Prop := r.state = .open ∧ r.retryAt ≤ now

variable {r : CircuitRecord} {p : Permit} {e : String} {i : ℕ}

theorem advanceOpen_of_due {now : Time} (h : r.Due now) :
    r.advanceOpen now = { r with
      state := .halfOpen, generation := saturatingIncrement r.generation
      halfOpenSuccesses := 0, inFlight := 0, lastTransitionAt := now, lastTouchedAt := now } :=
  if_pos ⟨h.1,not_lt.mpr h.2⟩

theorem advanceOpen_of_not_due {now : Time} (h : ¬r.Due now) : r.advanceOpen now = r :=
  if_neg fun hdue => h ⟨hdue.1,not_lt.mp hdue.2⟩

/-! The map. -/

variable {breaker : CircuitBreaker} {now : Time} {d : String}

/-- The record of a deployment. -/
def CircuitBreaker.find (breaker : CircuitBreaker) (d : String) : Option CircuitRecord :=
  breaker.deployments.lookup d

open CircuitBreaker

theorem find_store (breaker : CircuitBreaker) (d e : String) (r : CircuitRecord) :
    (breaker.store d r).find e = if e = d then some r else breaker.find e := by
  unfold find store
  split_ifs with h
  · subst h
    exact lookup_insert _
  · exact lookup_insert_ne h

theorem evictionCandidate_eq_some {deployments : Deployments} {id : String}
    (h : evictionCandidate deployments = some id) :
    ∃ r, deployments.lookup id = some r ∧ r.state = .closed ∧ r.inFlight = 0 := by
  have hfold (entries : List (Sigma fun _ : String => CircuitRecord))
      (oldest : Option (String × Time))
      (hsub : ∀ entry ∈ entries, entry ∈ deployments.entries)
      (holdest : ∀ id t, oldest = some (id,t) →
        ∃ r, deployments.lookup id = some r ∧ r.state = .closed ∧ r.inFlight = 0) :
      ∀ id t, entries.foldl (fun oldest entry => oldestIdle oldest entry.1 entry.2) oldest =
        some (id,t) → ∃ r, deployments.lookup id = some r ∧ r.state = .closed ∧ r.inFlight = 0 := by
    induction entries generalizing oldest with
    | nil => exact holdest
    | cons entry entries ih =>
      rw [foldl_cons]
      apply ih _ fun other hother => hsub other (mem_cons_of_mem _ hother)
      intro id t hnext
      -- the new candidate is the old one or this entry, which is idle
      have hentry : deployments.lookup entry.1 = some entry.2 :=
        mem_lookup_iff.mpr (hsub entry mem_cons_self)
      unfold oldestIdle at hnext
      split at hnext
      · exact holdest id t hnext
      · rename_i hidle
        simp only [not_or,not_not,ne_eq] at hidle
        split at hnext
        · cases hnext
          exact ⟨_,hentry,hidle⟩
        · split at hnext
          · cases hnext
            exact ⟨_,hentry,hidle⟩
          · exact holdest id t hnext
  obtain ⟨⟨id',t⟩,hfound,rfl⟩ := map_eq_some_iff.mp h
  exact hfold deployments.entries none (fun _ h => h) (by simp) id' t hfound

/-- A new record, as `allocate` makes it. -/
def newRecord (now : Time) : CircuitRecord :=
  { state := .closed, generation := 1, lastTransitionAt := now, lastTouchedAt := now }

theorem allocate_eq_some {next : CircuitBreaker}
    (hnone : breaker.find d = none) (h : breaker.allocate d now = some (next,r)) :
    r = newRecord now ∧ next.options = breaker.options ∧ ∃ victim : Option String,
      (∀ e, victim = some e → e ≠ d ∧
        ∃ old, breaker.find e = some old ∧ old.state = .closed ∧ old.inFlight = 0) ∧
      ∀ e, next.find e = if e = d then some r else if victim = some e then none
        else breaker.find e := by
  unfold allocate at h
  simp only at h
  split at h
  · split at h
    · cases h
    · rename_i oldest holdest
      cases h
      obtain ⟨old,hold,hidle⟩ := evictionCandidate_eq_some holdest
      have hne : oldest ≠ d := by
        rintro rfl
        rw [find,hold] at hnone
        cases hnone
      refine ⟨rfl,rfl,some oldest,?_,fun e => ?_⟩
      · rintro e ⟨⟩
        exact ⟨hne,old,hold,hidle⟩
      · simp only [find,some.injEq]
        split_ifs with hed hvictim
        · subst hed
          exact lookup_insert _
        · subst hvictim
          rw [lookup_insert_ne hed]
          exact lookup_erase _ _
        · rw [lookup_insert_ne hed]
          exact lookup_erase_ne (Ne.symm hvictim)
  · cases h
    refine ⟨rfl,rfl,none,by simp,fun e => ?_⟩
    simp only [find,reduceCtorEq,if_false]
    split_ifs with hed
    · subst hed
      exact lookup_insert _
    · exact lookup_insert_ne hed

/-- `next` has the record `r` for `d`, and all else as in `breaker`. -/
structure Stores (breaker next : CircuitBreaker) (d : String) (r : CircuitRecord) : Prop where
  options : next.options = breaker.options
  find : ∀ e, next.find e = if e = d then some r else breaker.find e

theorem stores_store (breaker : CircuitBreaker) (d : String) (r : CircuitRecord) :
    Stores breaker (breaker.store d r) d r := ⟨rfl,fun e => find_store breaker d e r⟩

/-- The two breakers have the same records. -/
structure SameRecords (breaker next : CircuitBreaker) : Prop where
  options : next.options = breaker.options
  find : ∀ e, next.find e = breaker.find e

/-! Calls. -/

/-- Everything `Healthy` and `Snapshot` can do. -/
inductive ReadOutcome (breaker : CircuitBreaker) (now : Time) (d : String) (next : CircuitBreaker) :
    Prop
  | same (h : SameRecords breaker next)
  | advanced (r : CircuitRecord) (hr : breaker.find d = some r)
      (h : Stores breaker next d (r.advanceOpen now))

variable (breaker now d) in
theorem healthy_outcome : ReadOutcome breaker now d (breaker.healthy now d).1 := by
  unfold healthy
  split
  · exact .same ⟨rfl,fun _ => rfl⟩
  · split
    · exact .same ⟨rfl,fun _ => rfl⟩
    · rename_i r hr
      exact .advanced r hr (stores_store _ _ _)

variable (breaker now d) in
theorem snapshot_outcome : ReadOutcome breaker now d (breaker.snapshot now d).1 := by
  unfold snapshot
  split
  · exact .same ⟨rfl,fun _ => rfl⟩
  · split
    · exact .same ⟨rfl,fun _ => rfl⟩
    · rename_i r hr
      exact .advanced r hr (stores_store _ _ _)

/-- A record may give out a permit. -/
structure Grants (options : CircuitOptions) (r : CircuitRecord) : Prop where
  notOpen : r.state ≠ .open
  probes : r.state = .halfOpen → r.inFlight < options.halfOpenMaximumProbes

variable (breaker now d) in
/-- Everything `Acquire` can do. -/
inductive AcquireOutcome : CircuitBreaker → Except Failure ℕ → Prop
  | refused (next : CircuitBreaker) (f : Failure) (h : SameRecords breaker next) :
      AcquireOutcome next (.error f)
  | rejected (next : CircuitBreaker) (f : Failure) (r r' : CircuitRecord)
      (hr : breaker.find d = some r) (hsame : SameDecisions (r.advanceOpen now) r')
      (h : Stores breaker next d r') : AcquireOutcome next (.error f)
  | granted (next : CircuitBreaker) (r r' : CircuitRecord) (hr : breaker.find d = some r)
      (hgrants : Grants breaker.options (r.advanceOpen now))
      (hsame : SameDecisions { r.advanceOpen now with inFlight := (r.advanceOpen now).inFlight + 1 }
        r')
      (h : Stores breaker next d r') :
      AcquireOutcome next (.ok (r.advanceOpen now).generation)
  | created (next : CircuitBreaker) (r' : CircuitRecord) (victim : Option String)
      (hid : isUUID d) (hr : breaker.find d = none)
      (hopts : next.options = breaker.options)
      (hvictim : ∀ e, victim = some e → e ≠ d ∧
        ∃ old, breaker.find e = some old ∧ old.state = .closed ∧ old.inFlight = 0)
      (hsame : SameDecisions { newRecord now with inFlight := 1 } r')
      (hfind : ∀ e, next.find e = if e = d then some r' else if victim = some e then none
        else breaker.find e) : AcquireOutcome next (.ok 1)

theorem acquireRecord_outcome (hr : breaker.find d = some r) :
    AcquireOutcome breaker now d (breaker.acquireRecord now d r).1
      (breaker.acquireRecord now d r).2 := by
  unfold acquireRecord
  simp only
  split
  · refine .rejected _ _ r _ hr ?_ (stores_store _ _ _)
    exact ⟨rfl,rfl,rfl,rfl,rfl,rfl,rfl⟩
  · rename_i hopen
    split_ifs with hsaturated hmax
    · refine .rejected _ _ r _ hr ?_ (stores_store _ _ _)
      exact ⟨rfl,rfl,rfl,rfl,rfl,rfl,rfl⟩
    · exact .rejected _ _ r _ hr (sameDecisions_refl _) (stores_store _ _ _)
    · refine .granted _ r _ hr ⟨hopen,fun hhalf => ?_⟩ ?_ (stores_store _ _ _)
      · by_contra hfull
        exact hsaturated ⟨hhalf,not_lt.mp hfull⟩
      · exact ⟨rfl,rfl,rfl,rfl,rfl,rfl,rfl⟩

theorem isUUID_of_validateRead (h : validateRead now d = .ok ()) : isUUID d := by
  unfold validateRead at h
  by_contra hid
  rw [if_pos (by simpa using hid)] at h
  cases h

variable (breaker now d) in
theorem acquire_outcome :
    AcquireOutcome breaker now d (breaker.acquire now d).1 (breaker.acquire now d).2 := by
  unfold acquire
  split
  · exact .refused _ _ ⟨rfl,fun _ => rfl⟩
  · rename_i hvalid
    split
    · rename_i r hr
      exact acquireRecord_outcome hr
    · rename_i hnone
      split
      · exact .refused _ _ ⟨rfl,fun _ => rfl⟩
      · rename_i next r hallocate
        obtain ⟨rfl,hopts,victim,hvictim,hfind⟩ := allocate_eq_some hnone hallocate
        have hadvance : (newRecord now).advanceOpen now = newRecord now :=
          advanceOpen_of_not_due fun h => by cases h.1
        have hgrant : next.acquireRecord now d (newRecord now) =
            (next.store d { newRecord now with inFlight := 1, lastTouchedAt := now },.ok 1) := by
          unfold acquireRecord
          rw [hadvance]
          rfl
        rw [hgrant]
        refine .created _ { newRecord now with inFlight := 1, lastTouchedAt := now } victim
          (isUUID_of_validateRead hvalid) hnone hopts hvictim ⟨rfl,rfl,rfl,rfl,rfl,rfl,rfl⟩
            fun e => ?_
        rw [find_store,hfind]
        split_ifs <;> rfl

variable (breaker now d) (generation : ℕ) (outcome : CircuitOutcome) in
/-- Everything the locked part of `Complete` can do. -/
inductive CompleteOutcome : CircuitBreaker → Except Failure Unit → Prop
  | stale (h : ∀ r, breaker.find d = some r → r.generation ≠ generation) :
      CompleteOutcome breaker (.ok ())
  | underflow (r : CircuitRecord) (hr : breaker.find d = some r)
      (hgen : r.generation = generation) (hzero : r.inFlight = 0) :
      CompleteOutcome breaker (.error (.invalid ""))
  | applied (r : CircuitRecord) (hr : breaker.find d = some r)
      (hgen : r.generation = generation) (hpos : 0 < r.inFlight) (next : CircuitBreaker)
      (h : Stores breaker next d (r.complete breaker.options now outcome)) :
      CompleteOutcome next (.ok ())

variable (breaker now d) in
theorem complete_outcome (generation : ℕ) (outcome : CircuitOutcome) :
    CompleteOutcome breaker now d generation outcome (breaker.complete now d generation outcome).1
      (breaker.complete now d generation outcome).2 := by
  unfold CircuitBreaker.complete
  split
  · rename_i hnone
    apply CompleteOutcome.stale
    intro r hr
    rw [find,hnone] at hr
    cases hr
  · rename_i r hr
    split_ifs with hgen hzero
    · apply CompleteOutcome.stale
      intro r' hr'
      rw [find,hr] at hr'
      cases hr'
      exact hgen
    · exact .underflow r hr (not_not.mp hgen) hzero
    · exact .applied r hr (not_not.mp hgen) (Nat.pos_of_ne_zero hzero) _ (stores_store _ _ _)

/-! Worlds. -/

/-- The permits of a deployment are the same in both lists. -/
structure PermitsAgree (d : String) (permits permits' : List Permit) : Prop where
  mem : ∀ p ∈ permits', p.deploymentID = d → p ∈ permits
  count : ∀ f : Permit → Bool, (∀ p, f p → p.deploymentID = d) →
    permits'.countP f = permits.countP f

theorem permitsAgree_refl (d : String) (permits : List Permit) : PermitsAgree d permits permits :=
  ⟨fun _ hp _ => hp,fun _ _ => rfl⟩

theorem permitsAgree_append {permits issued : List Permit} (h : ∀ p ∈ issued, p.deploymentID ≠ d) :
    PermitsAgree d permits (permits ++ issued) := by
  refine ⟨fun p hp hd => ?_,fun f hf => ?_⟩
  · rcases mem_append.mp hp with hmem | hmem
    · exact hmem
    · exact absurd hd (h p hmem)
  · rw [countP_append,Nat.add_eq_left,countP_eq_zero]
    exact fun p hp htrue => h p hp (hf p htrue)

theorem permitsAgree_set {permits : List Permit} {q : Permit} (hi : permits[i]? = some p)
    (hp : p.deploymentID ≠ d) (hq : q.deploymentID = p.deploymentID) :
    PermitsAgree d permits (permits.set i q) := by
  refine ⟨fun p' hp' hd => ?_,fun f hf => ?_⟩
  · rcases mem_or_eq_of_mem_set hp' with hmem | rfl
    · exact hmem
    · exact absurd (hq.symm.trans hd) hp
  · obtain ⟨hlt,hget⟩ := List.getElem?_eq_some_iff.mp hi
    have hfp : ¬f p := fun htrue => hp (hf p htrue)
    have hfq : ¬f q := fun htrue => hp (hq ▸ hf q htrue)
    rw [List.countP_set hlt,hget,if_neg hfp,if_neg hfq]
    rfl

/-- What is kept of the record, the period and the evidence of a deployment. -/
structure View where
  record : Option CircuitRecord
  period : ℕ
  evidence : List CircuitOutcome

def World.view (w : World) (d : String) : View := ⟨w.record d,w.period d,w.evidence d⟩

/-- The permit with its completion accepted. -/
def Permit.finish (p : Permit) : Permit := { p with completed := true, released := true }

/-- A call completes the permit. -/
structure Completes (w : World) (d : String) (op : Op) (now : Time) (i : ℕ) (p : Permit)
    (outcome : CircuitOutcome) : Prop where
  op : op = .complete now i outcome
  permit : w.permits[i]? = some p
  deployment : p.deploymentID = d
  fresh : p.completed = false
  valid : World.isValid outcome

/-- Everything one call can do to one deployment. -/
inductive Effect (w : World) (d : String) (op : Op) (w' : World) : Prop
  | idle (hview : w'.view d = w.view d) (hperms : PermitsAgree d w.permits w'.permits)
  | touched (r r' : CircuitRecord) (hr : w.record d = some r) (hsame : SameDecisions r r')
      (hview : w'.view d = ⟨some r',w.period d,w.evidence d⟩) (hperms : w'.permits = w.permits)
  | advanced (r r' : CircuitRecord) (hr : w.record d = some r) (hdue : r.Due op.now)
      (hsame : SameDecisions (r.advanceOpen op.now) r')
      (hview : w'.view d = ⟨some r',w.period d + 1,[]⟩) (hperms : w'.permits = w.permits)
  | granted (r r' : CircuitRecord) (hr : w.record d = some r)
      (hgrants : Grants w.breaker.options r)
      (hsame : SameDecisions { r with inFlight := r.inFlight + 1 } r')
      (hview : w'.view d = ⟨some r',w.period d,w.evidence d⟩)
      (hperms : w'.permits = w.permits ++ [⟨d,r.generation,false,w.period d,false⟩])
  | probed (r r' : CircuitRecord) (hr : w.record d = some r) (hdue : r.Due op.now)
      (hgrants : Grants w.breaker.options (r.advanceOpen op.now))
      (hsame : SameDecisions { r.advanceOpen op.now with inFlight := 1 } r')
      (hview : w'.view d = ⟨some r',w.period d + 1,[]⟩)
      (hperms : w'.permits =
        w.permits ++ [⟨d,(r.advanceOpen op.now).generation,false,w.period d + 1,false⟩])
  | created (r' : CircuitRecord) (hid : isUUID d) (hr : w.record d = none)
      (hsame : SameDecisions { newRecord op.now with inFlight := 1 } r')
      (hview : w'.view d = ⟨some r',w.period d + 1,[]⟩)
      (hperms : w'.permits = w.permits ++ [⟨d,1,false,w.period d + 1,false⟩])
  | evicted (r : CircuitRecord) (hr : w.record d = some r) (hclosed : r.state = .closed)
      (hidle : r.inFlight = 0) (hview : w'.view d = ⟨none,w.period d + 1,[]⟩)
      (hperms : PermitsAgree d w.permits w'.permits)
  | lost (now : Time) (i : ℕ) (p : Permit) (outcome : CircuitOutcome)
      (hop : Completes w d op now i p outcome) (hzero : now = zeroTime)
      (hview : w'.view d = w.view d)
      (hperms : w'.permits = w.permits.set i { p with completed := true })
  | stale (now : Time) (i : ℕ) (p : Permit) (outcome : CircuitOutcome)
      (hop : Completes w d op now i p outcome)
      (hr : ∀ r, w.record d = some r → r.generation ≠ p.generation ∨ r.inFlight = 0)
      (hview : w'.view d = ⟨w.record d,w.period d,w.noted p outcome d ++ w.evidence d⟩)
      (hperms : w'.permits = w.permits.set i p.finish)
  | completed (now : Time) (i : ℕ) (p : Permit) (outcome : CircuitOutcome) (r : CircuitRecord)
      (hop : Completes w d op now i p outcome) (hclock : now ≠ zeroTime)
      (hr : w.record d = some r) (hgen : r.generation = p.generation) (hpos : 0 < r.inFlight)
      (hview : w'.view d =
        if (r.complete w.breaker.options now outcome).state = r.state then
          ⟨some (r.complete w.breaker.options now outcome),w.period d,
            w.noted p outcome d ++ w.evidence d⟩
        else ⟨some (r.complete w.breaker.options now outcome),w.period d + 1,[]⟩)
      (hperms : w'.permits = w.permits.set i p.finish)

section
variable {w : World} {op : Op} {next : CircuitBreaker} {permits : List Permit}
  {noted : String → List CircuitOutcome} {record : Option CircuitRecord}

/-- The view of an updated world where the state of the record is the same. -/
theorem view_update (permits : List Permit) (hfind : next.find d = record)
    (h : record.map state = (w.record d).map state) :
    (w.update next permits noted).view d = ⟨record,w.period d,noted d ++ w.evidence d⟩ := by
  have hturns : w.turns next d = false := by
    rw [← hfind] at h
    simpa [World.turns,find] using h
  show View.mk (next.find d) (if w.turns next d then w.period d + 1 else w.period d)
    (if w.turns next d then [] else noted d ++ w.evidence d) = _
  rw [hturns,hfind]
  rfl

theorem view_update_turns (permits : List Permit) (hfind : next.find d = record)
    (h : record.map state ≠ (w.record d).map state) :
    (w.update next permits noted).view d = ⟨record,w.period d + 1,[]⟩ := by
  have hturns : w.turns next d := by
    rw [← hfind] at h
    simpa [World.turns,find] using h
  show View.mk (next.find d) (if w.turns next d then w.period d + 1 else w.period d)
    (if w.turns next d then [] else noted d ++ w.evidence d) = _
  rw [hturns,hfind]
  rfl

theorem effect_idle (hfind : next.find d = w.record d) (hnoted : noted d = [])
    (hperms : PermitsAgree d w.permits permits) : Effect w d op (w.update next permits noted) := by
  apply Effect.idle _ hperms
  rw [view_update permits hfind rfl,hnoted]
  rfl

theorem advanceOpen_state : (r.advanceOpen now).state = r.state ↔ ¬r.Due now := by
  by_cases h : r.Due now
  · rw [advanceOpen_of_due h]
    simp [h,h.1]
  · rw [advanceOpen_of_not_due h]
    simp [h]

theorem effect_read {r' : CircuitRecord} (hr : w.record d = some r)
    (hsame : SameDecisions (r.advanceOpen op.now) r') (hstores : Stores w.breaker next d r') :
    Effect w d op (w.update next w.permits fun _ => []) := by
  have hfind : next.find d = some r' := by rw [hstores.find,if_pos rfl]
  have hstate : (some r').map state = (w.record d).map state ↔ ¬r.Due op.now := by
    rw [hr,map_some,map_some,some.injEq,hsame.state,advanceOpen_state]
  by_cases hdue : r.Due op.now
  · exact .advanced r r' hr hdue hsame (view_update_turns _ hfind fun heq => hstate.mp heq hdue) rfl
  · rw [advanceOpen_of_not_due hdue] at hsame
    exact .touched r r' hr hsame (view_update _ hfind (hstate.mpr hdue)) rfl

theorem ReadOutcome.effect (h : ReadOutcome w.breaker op.now e next) (d : String) :
    Effect w d op (w.update next w.permits fun _ => []) := by
  cases h with
  | same h => exact effect_idle (h.find d) rfl (permitsAgree_refl d _)
  | advanced r hr h =>
    by_cases hd : d = e
    · subst hd
      exact effect_read hr (sameDecisions_refl _) h
    · exact effect_idle (by rw [h.find,if_neg hd]; rfl) rfl (permitsAgree_refl d _)

/-- The permits after `Acquire`. -/
def issued (w : World) (next : CircuitBreaker) (d : String) : Except Failure ℕ → List Permit
  | .ok generation => [⟨d,generation,false,w.nextPeriod next d,false⟩]
  | .error _ => []

theorem AcquireOutcome.effect {result : Except Failure ℕ}
    (h : AcquireOutcome w.breaker op.now e next result) (d : String) :
    Effect w d op (w.update next (w.permits ++ issued w next e result) fun _ => []) := by
  have hother (hd : d ≠ e) : ∀ p ∈ issued w next e result, p.deploymentID ≠ d := by
    intro p hp
    cases result with
    | error f => simp [issued] at hp
    | ok generation =>
      rw [mem_singleton.mp hp]
      exact Ne.symm hd
  cases h with
  | refused f h =>
    rw [issued,append_nil]
    exact effect_idle (h.find d) rfl (permitsAgree_refl d _)
  | rejected f r r' hr hsame h =>
    rw [issued,append_nil]
    by_cases hd : d = e
    · subst hd
      exact effect_read hr hsame h
    · exact effect_idle (by rw [h.find,if_neg hd]; rfl) rfl (permitsAgree_refl d _)
  | granted r r' hr hgrants hsame h =>
    by_cases hd : d = e
    · subst hd
      have hfind : next.find d = some r' := by rw [h.find,if_pos rfl]
      have hstate : (some r').map state = (w.record d).map state ↔ ¬r.Due op.now := by
        rw [show w.record d = some r from hr,map_some,map_some,some.injEq,hsame.state]
        exact advanceOpen_state
      by_cases hdue : r.Due op.now
      · have hview : (w.update next (w.permits ++ issued w next d
            (.ok (r.advanceOpen op.now).generation)) fun _ => []).view d = _ :=
          view_update_turns _ hfind fun heq => hstate.mp heq hdue
        have hper : w.nextPeriod next d = w.period d + 1 := congrArg View.period hview
        refine .probed r r' hr hdue hgrants ?_ hview ?_
        · rw [advanceOpen_of_due hdue] at hsame ⊢
          exact hsame
        · rw [← hper]
          rfl
      · have hview : (w.update next (w.permits ++ issued w next d
            (.ok (r.advanceOpen op.now).generation)) fun _ => []).view d = _ :=
          view_update _ hfind (hstate.mpr hdue)
        have hper : w.nextPeriod next d = w.period d := congrArg View.period hview
        rw [advanceOpen_of_not_due hdue] at hgrants hsame hview ⊢
        refine .granted r r' hr hgrants hsame hview ?_
        rw [← hper]
        rfl
    · exact effect_idle (by rw [h.find,if_neg hd]; rfl) rfl (permitsAgree_append (hother hd))
  | created r' victim hid hr hopts hvictim hsame hfind =>
    by_cases hd : d = e
    · subst hd
      have hview : (w.update next (w.permits ++ issued w next d (.ok 1)) fun _ => []).view d = _ :=
        view_update_turns _ (show next.find d = some r' by rw [hfind,if_pos rfl])
          (by rw [show w.record d = none from hr]; simp)
      have hper : w.nextPeriod next d = w.period d + 1 := congrArg View.period hview
      refine .created r' hid hr hsame hview ?_
      rw [← hper]
      rfl
    · by_cases hgone : victim = some d
      · obtain ⟨-,old,hold,hclosed,hidle⟩ := hvictim d hgone
        refine .evicted old hold hclosed hidle ?_ (permitsAgree_append (hother hd))
        apply view_update_turns _ (by rw [hfind,if_neg hd,if_pos hgone])
        rw [show w.record d = some old from hold]
        simp
      · exact effect_idle (by rw [hfind,if_neg hd,if_neg hgone]; rfl) rfl
          (permitsAgree_append (hother hd))

theorem CompleteOutcome.effect {outcome : CircuitOutcome} {result : Except Failure Unit}
    (h : CompleteOutcome w.breaker now p.deploymentID p.generation outcome next result)
    (hop : Completes w p.deploymentID op now i p outcome) (hclock : now ≠ zeroTime) (d : String) :
    Effect w d op (w.update next (w.permits.set i p.finish) (w.noted p outcome)) := by
  by_cases hd : d = p.deploymentID
  · subst hd
    cases h with
    | stale h =>
      exact .stale now i p outcome hop (fun r hr => .inl (h r hr)) (view_update _ rfl rfl) rfl
    | underflow r hr hgen hzero =>
      refine .stale now i p outcome hop (fun r' hr' => .inr ?_) (view_update _ rfl rfl) rfl
      cases hr'.symm.trans (show w.record p.deploymentID = some r from hr)
      exact hzero
    | applied r hr hgen hpos _ h =>
      have hfind : next.find p.deploymentID = some (r.complete w.breaker.options now outcome) := by
        rw [h.find,if_pos rfl]
      refine .completed now i p outcome r hop hclock hr hgen hpos ?_ rfl
      have hr : w.record p.deploymentID = some r := hr
      split_ifs with hstate
      · exact view_update _ hfind (by rw [hr]; simpa using hstate)
      · exact view_update_turns _ hfind (by rw [hr]; simpa using hstate)
  · have hperms : PermitsAgree d w.permits (w.permits.set i p.finish) :=
      permitsAgree_set hop.permit (Ne.symm hd) rfl
    have hnoted : w.noted p outcome d = [] := if_neg fun h => hd h.1
    cases h with
    | stale h => exact effect_idle rfl hnoted hperms
    | underflow r hr hgen hzero => exact effect_idle rfl hnoted hperms
    | applied r hr hgen hpos _ h =>
      exact effect_idle (by rw [h.find,if_neg hd]; rfl) hnoted hperms

end

theorem step_effect (w : World) (op : Op) (d : String) : Effect w d op (w.step op).1 := by
  cases op with
  | healthy now e => exact (healthy_outcome w.breaker now e).effect d
  | snapshot now e => exact (snapshot_outcome w.breaker now e).effect d
  | acquire now e => exact (acquire_outcome w.breaker now e).effect d
  | complete now i outcome =>
    have hsame : Effect w d (.complete now i outcome) w := .idle rfl (permitsAgree_refl d _)
    simp only [World.step,World.complete]
    split
    · exact hsame
    · rename_i p hp
      split_ifs with hid hvalid hcompl hzero
      · exact hsame
      · exact hsame
      · exact hsame
      · have hupd : Effect w d (.complete now i outcome)
            (w.update w.breaker (w.permits.set i { p with completed := true }) fun _ => []) := by
          by_cases hd : d = p.deploymentID
          · refine .lost now i p outcome ⟨rfl,hp,hd.symm,by simpa using hcompl,?_⟩ hzero
              (view_update _ rfl rfl) rfl
            simpa using hvalid
          · exact effect_idle rfl rfl (permitsAgree_set hp (Ne.symm hd) rfl)
        exact hupd
      · exact (complete_outcome w.breaker now p.deploymentID p.generation outcome).effect
          ⟨rfl,hp,rfl,by simpa using hcompl,by simpa using hvalid⟩ hzero d

theorem ReadOutcome.options {next : CircuitBreaker} (h : ReadOutcome breaker now d next) :
    next.options = breaker.options := by
  cases h with
  | same h => exact h.options
  | advanced r hr h => exact h.options

theorem AcquireOutcome.options {next : CircuitBreaker} {result : Except Failure ℕ}
    (h : AcquireOutcome breaker now d next result) : next.options = breaker.options := by
  cases h with
  | refused f h => exact h.options
  | rejected f r r' hr hsame h => exact h.options
  | granted r r' hr hgrants hsame h => exact h.options
  | created r' victim hid hr hopts => exact hopts

theorem CompleteOutcome.options {next : CircuitBreaker} {generation : ℕ} {outcome : CircuitOutcome}
    {result : Except Failure Unit}
    (h : CompleteOutcome breaker now d generation outcome next result) :
    next.options = breaker.options := by
  cases h with
  | stale => rfl
  | underflow => rfl
  | applied r hr hgen hpos _ h => exact h.options

theorem step_options (w : World) (op : Op) : (w.step op).1.breaker.options = w.breaker.options := by
  cases op with
  | healthy now e => exact (healthy_outcome w.breaker now e).options
  | snapshot now e => exact (snapshot_outcome w.breaker now e).options
  | acquire now e => exact (acquire_outcome w.breaker now e).options
  | complete now i outcome =>
    simp only [World.step,World.complete]
    split
    · rfl
    · split_ifs
      · rfl
      · rfl
      · rfl
      · rfl
      · exact (complete_outcome _ _ _ _ _).options

end Routing
