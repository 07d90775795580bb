import AiGateway.Routing.Permits

/-! Permits and generations over whole runs, evictions included. -/
namespace Routing
open Machine List

/-- The permit is outstanding on the deployment, issued in this period. -/
def Permit.heldIn (d : String) (period : ℕ) (p : Permit) : Bool :=
  p.deploymentID = d && p.period = period && !p.completed

/-- Permits act on the record that issued them, in the generation that issued them. -/
structure Generational (w : World) : Prop where
  inFlight : ∀ d r, w.record d = some r →
    r.inFlight = w.permits.countP (Permit.heldIn d (w.period d))
  stale : ∀ now i outcome p, w.permits[i]? = some p → p.period < w.period p.deploymentID →
    ∀ d, (w.step (.complete now i outcome)).1.record d = w.record d
  underflow : ∀ now outcome, ∀ p ∈ w.permits, p.completed = false →
    (w.breaker.complete now p.deploymentID p.generation outcome).2 = .ok ()

/-- A clock reading that is not zero, and a careful call for every deployment. -/
structure Guarded (w : World) (op : Op) : Prop where
  clock : op.now ≠ zeroTime
  careful : ∀ d, Careful d w op

variable {w : World}

theorem Reaches.mono {allowed allowed' : World → Op → Prop}
    (himp : ∀ w op, allowed w op → allowed' w op) (h : Reaches allowed w) : Reaches allowed' w := by
  induction h with
  | start options breaker h => exact .start options breaker h
  | step h op hop ih => exact .step ih op (himp _ op hop)

theorem Guarded.reaches_careful (h : Reaches Guarded w) (d : String) :
    Reaches (Careful d) w := h.mono fun _ _ hop => hop.careful d

/-- A permit that is spent has also been taken out of its record. -/
def Settled (w : World) : Prop := ∀ p ∈ w.permits, p.completed = p.released

variable {p : Permit}

theorem issued_settled {next : CircuitBreaker} {d : String}
    {result : Except Failure ℕ} (hp : p ∈ issued w next d result) : p.completed = p.released := by
  cases result with
  | error f => simp [issued] at hp
  | ok generation => rw [mem_singleton.mp hp]

variable {op : Op}

theorem step_settled (h : Settled w) (hclock : op.now ≠ zeroTime) : Settled (w.step op).1 := by
  cases op with
  | healthy now d => exact h
  | snapshot now d => exact h
  | acquire now d =>
    intro p hp
    rcases mem_append.mp hp with hp | hp
    · exact h p hp
    · exact issued_settled hp
  | complete now i outcome =>
    simp only [World.step,World.complete]
    split
    · exact h
    · split_ifs with hid hvalid hcompl hzero
      · exact h
      · exact h
      · exact h
      · exact absurd hzero hclock
      · intro p hp
        rcases mem_or_eq_of_mem_set hp with hp | rfl
        · exact h p hp
        · rfl

theorem reaches_settled (h : Reaches Guarded w) : Settled w := by
  induction h with
  | start options breaker h => simp [Settled]
  | step h op hop ih => exact step_settled ih hop.clock

variable {outcome : CircuitOutcome}

section
variable (hbound : Bound p.deploymentID (w.view p.deploymentID) w.permits)
include hbound

theorem step_complete_earlier {now : Time} {i : ℕ} (hi : w.permits[i]? = some p)
    (hearlier : p.period < w.period p.deploymentID) (d : String) :
    (w.step (.complete now i outcome)).1.record d = w.record d := by
  simp only [World.step,World.complete,hi]
  split_ifs with hid hvalid hcompl hzero
  · rfl
  · rfl
  · rfl
  · rfl
  · have houtcome := complete_outcome w.breaker now p.deploymentID p.generation outcome
    generalize w.breaker.complete now p.deploymentID p.generation outcome = result at houtcome
    obtain ⟨next,result⟩ := result
    cases houtcome with
    | stale h => rfl
    | underflow r hr hgen hinFlight => rfl
    | applied r hr hgen hpos _ h =>
      have hper := hbound.present hr (mem_of_getElem? hi) rfl (by simpa using hcompl)
        hgen
      exact absurd hper hearlier.ne

theorem complete_ok {now : Time} (hp : p ∈ w.permits) (hfresh : p.completed = false) :
    (w.breaker.complete now p.deploymentID p.generation outcome).2 = .ok () := by
  have houtcome := complete_outcome w.breaker now p.deploymentID p.generation outcome
  generalize w.breaker.complete now p.deploymentID p.generation outcome = result at houtcome
  obtain ⟨next,result⟩ := result
  cases houtcome with
  | stale h => rfl
  | underflow r hr hgen hinFlight =>
    have hper := hbound.present hr hp rfl hfresh hgen
    have hpos := hbound.inFlight_pos hr hp rfl hfresh hper
    exact absurd hinFlight hpos.ne'
  | applied r hr hgen hpos _ h => rfl

end

/-- Along a guarded run permits act only on the record and the generation that issued them, and no
record goes while a permit of it is outstanding. -/
theorem reaches_generational (w : World) (h : Reaches Guarded w) :
    Generational w ∧ ∀ op d, Guarded w op → Evicts w op d →
      ∀ p ∈ w.permits, p.deploymentID = d → p.completed := by
  have hbound (d : String) : Bound d (w.view d) w.permits :=
    reaches_bound (Guarded.reaches_careful h d)
  refine ⟨⟨fun d r hr => ?_,fun now i outcome p hi hearlier d => ?_,
    fun now outcome p hp hfresh => ?_⟩,
    fun op d hop hevicts => ?_⟩
  · rw [(hbound d).counted r hr]
    apply countP_congr
    intro p hp
    simp only [Permit.countedIn,Permit.heldIn,reaches_settled h p hp]
    rfl
  · exact step_complete_earlier (hbound _) hi hearlier d
  · exact complete_ok (hbound _) hp hfresh
  · exact (hbound d).completed_of_evicts (hop.careful d) hevicts

/-! Runs that can be evaluated. -/

def World.run (w : World) (ops : List Op) : World := ops.foldl (fun w op => (w.step op).1) w

/-- Every call of the run passes the check in the world it is made in. -/
def World.checked (check : World → Op → Bool) (w : World) : List Op → Bool
  | [] => true
  | op :: ops => check w op && World.checked check (w.step op).1 ops

theorem Reaches.run {allowed : World → Op → Prop} {check : World → Op → Bool}
    (hcheck : ∀ w op, check w op → allowed w op) (h : Reaches allowed w)
    {ops : List Op} (hops : w.checked check ops) : Reaches allowed (w.run ops) := by
  induction ops generalizing w with
  | nil => exact h
  | cons op ops ih =>
    simp only [World.checked,Bool.and_eq_true] at hops
    exact ih (.step h op (hcheck w op hops.1)) hops.2

def carefulCheck (w : World) (op : Op) (d : String) : Bool :=
  match w.record d, (w.step op).1.record d with
  | some _, none => w.permits.all fun p => p.deploymentID ≠ d || p.completed
  | some r, some r' => r'.state = r.state || r.generation < maxU64
  | none, _ => true

theorem careful_of_check {d : String} (h : carefulCheck w op d) : Careful d w op := by
  unfold carefulCheck at h
  split at h
  · rename_i r hr hr'
    refine ⟨fun _ p hp hd _ => ?_,?_⟩
    · have hcompl := all_eq_true.mp h p hp
      simpa [hd] using hcompl
    · rintro ⟨_,r',_,hsome,-⟩
      cases hr'.symm.trans hsome
  · rename_i r r' hr hr'
    refine ⟨fun hevicts => ?_,?_⟩
    · cases hr'.symm.trans hevicts.2
    · rintro ⟨r₀,r₁,hr₀,hr₁,hstate,hmax⟩
      cases hr.symm.trans hr₀
      cases hr'.symm.trans hr₁
      simp only [Bool.or_eq_true,decide_eq_true_eq] at h
      rcases h with h | h
      · exact hstate h
      · omega
  · rename_i hr
    refine ⟨fun hevicts => ?_,?_⟩
    · simp [Evicts,hr] at hevicts
    · rintro ⟨r₀,r₁,hr₀,-⟩
      cases hr.symm.trans hr₀

/-- Only deployments with a record need a look. -/
def guardedCheck (w : World) (op : Op) : Bool :=
  op.now ≠ zeroTime && w.breaker.deployments.keys.all (carefulCheck w op)

theorem guarded_of_check (h : guardedCheck w op) : Guarded w op := by
  simp only [guardedCheck,Bool.and_eq_true,decide_eq_true_eq,all_eq_true] at h
  refine ⟨h.1,fun d => careful_of_check ?_⟩
  by_cases hd : d ∈ w.breaker.deployments.keys
  · exact h.2 d hd
  · have hnone : w.record d = none := AList.lookup_eq_none.mpr hd
    simp [carefulCheck,hnone]

def sampleOptions : CircuitOptions := ⟨2,second,1,1,1⟩

def sampleStart : World := ⟨⟨sampleOptions,∅,0,0⟩,[],fun _ => 0,fun _ => []⟩

theorem sampleStart_reaches (allowed : World → Op → Prop) : Reaches allowed sampleStart :=
  .start sampleOptions _ rfl

def sampleFirst : String := "00000000-0000-4000-8000-00000000000a"

def sampleSecond : String := "00000000-0000-4000-8000-00000000000b"

/-- The record of the first deployment goes to make room for the second. -/
def sampleEvicted : World :=
  sampleStart.run [.acquire (1 * second) sampleFirst,.complete (1 * second) 0 .failed,
    .acquire (2 * second) sampleSecond]

theorem sampleEvicted_generational : sampleEvicted.record sampleFirst = none ∧
    ∃ r, sampleEvicted.record sampleSecond = some r ∧ r.inFlight = 1 ∧
      r.inFlight = sampleEvicted.permits.countP
        (Permit.heldIn sampleSecond (sampleEvicted.period sampleSecond)) := by
  have hreaches : Reaches Guarded sampleEvicted :=
    (sampleStart_reaches Guarded).run (fun _ _ => guarded_of_check) (by decide +kernel)
  obtain ⟨r,hr⟩ : ∃ r, sampleEvicted.record sampleSecond = some r :=
    Option.isSome_iff_exists.mp (by decide +kernel)
  have hinFlight : (sampleEvicted.record sampleSecond).map CircuitRecord.inFlight = some 1 := by
    decide +kernel
  refine ⟨by decide +kernel,r,hr,by simpa [hr] using hinFlight,?_⟩
  exact (reaches_generational sampleEvicted hreaches).1.inFlight sampleSecond r hr

/-- The first permit stays out while its record opens and closes again. -/
def sampleClosed : World :=
  sampleStart.run [.acquire (1 * second) sampleFirst,.acquire (1 * second) sampleFirst,
    .acquire (1 * second) sampleFirst,.complete (2 * second) 1 .failed,
    .complete (2 * second) 2 .failed,.acquire (3 * second) sampleFirst,
    .complete (3 * second) 3 .succeeded]

def sampleReused : World :=
  sampleClosed.run [.acquire (4 * second) sampleSecond,.complete (4 * second) 4 .succeeded,
    .acquire (5 * second) sampleFirst]

def sampleLate : World := (sampleReused.step (.complete (6 * second) 0 .failed)).1

def timedCheck (_ : World) (op : Op) : Bool := op.now ≠ zeroTime

theorem sampleReused_reaches : Reaches (fun _ op => op.now ≠ zeroTime) sampleReused := by
  have hcheck (w : World) (op : Op) (h : timedCheck w op) : op.now ≠ zeroTime := by
    simpa [timedCheck] using h
  have hclosed : Reaches (fun _ op => op.now ≠ zeroTime) sampleClosed :=
    (sampleStart_reaches _).run hcheck (by decide +kernel)
  exact hclosed.run hcheck (by decide +kernel)

/-- The record goes with the first permit outstanding. The late completion takes the slot of
the new permit and counts as a failure of the new record, and the completion of the new permit
is an error. -/
theorem sampleReused_underflows : Reaches (fun _ op => op.now ≠ zeroTime) sampleReused ∧
    Evicts sampleClosed (.acquire (4 * second) sampleSecond) sampleFirst ∧
    (sampleLate.step (.complete (6 * second) 5 .succeeded)).2 = .completed (.error (.invalid "")) ∧
    (∃ p ∈ sampleClosed.permits, p.deploymentID = sampleFirst ∧ p.completed = false) ∧
    (∃ p ∈ sampleReused.permits[0]?, p.period < sampleReused.period p.deploymentID) ∧
    ((sampleReused.record sampleFirst).map fun r => (r.inFlight,r.consecutiveFailures)) =
      some (1,0) ∧
    ((sampleLate.record sampleFirst).map fun r => (r.inFlight,r.consecutiveFailures)) = some (0,1) ∧
    sampleLate.permits.countP (Permit.heldIn sampleFirst (sampleLate.period sampleFirst)) = 1 := by
  refine ⟨sampleReused_reaches,?_,?_,?_⟩
  · show _ ∧ _
    decide +kernel
  · rfl
  · decide +kernel

end Routing
