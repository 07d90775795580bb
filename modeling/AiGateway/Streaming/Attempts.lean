import AiGateway.Streaming.Failover
import Mathlib.Data.List.Range

/-! The invariant of the gate: attempts replace each other one at a time, and model
output ends that. -/
namespace Streaming.Failover
open Adapter Interleaving List

variable {ι : Type}

/-! What a move can do. -/

/-- The gates differ in the counters and in `closed` only. -/
structure Alike (gate gate' : FailoverGate) : Prop where
  maxAttempts : gate'.maxAttempts = gate.maxAttempts
  gateID : gate'.gateID = gate.gateID
  generation : gate'.generation = gate.generation
  attemptsStarted : gate'.attemptsStarted = gate.attemptsStarted
  currentAttempt : gate'.currentAttempt = gate.currentAttempt
  modelOutputStarted : gate'.modelOutputStarted = gate.modelOutputStarted
  firstModelOutputAttempt : gate'.firstModelOutputAttempt = gate.firstModelOutputAttempt

section
variable (gate : FailoverGate)
include gate

theorem Alike.refl : Alike gate gate := ⟨rfl,rfl,rfl,rfl,rfl,rfl,rfl⟩

theorem alike_closed : Alike gate { gate with closed := true } :=
  ⟨rfl,rfl,rfl,rfl,rfl,rfl,rfl⟩

theorem alike_denied :
    Alike gate { gate with postOutputFailoverDenials := gate.postOutputFailoverDenials + 1 } :=
  ⟨rfl,rfl,rfl,rfl,rfl,rfl,rfl⟩

theorem alike_count (chunk : NormalizedChunk) : Alike gate (gate.count chunk) := by
  unfold FailoverGate.count
  split <;> exact ⟨rfl,rfl,rfl,rfl,rfl,rfl,rfl⟩

end

/-- Why an attempt may be reserved. -/
inductive Reservable (s : Shared ι) : Bool → Prop
  | initial (h : s.gate.attemptsStarted = 0) : Reservable s false
  | failover (previous : AttemptToken) (havail : s.available previous)
      (hcur : s.gate.currentTokenLocked previous)
      (hout : s.gate.modelOutputStarted = false)
      (hlimit : s.gate.attemptsStarted < s.gate.maxAttempts) : Reservable s true

variable (i : ι) (s : Shared ι) in
inductive Moved : Phase → Shared ι → Phase → Prop
  | stays (phase : Phase) : Moved phase s phase
  | replies {reply : Reply} {gate : FailoverGate} (h : Alike s.gate gate) (reply' : Reply) :
      Moved (.idle reply) { s with gate := gate } (.idle reply')
  | begins {reply : Reply} {token : AttemptToken} (h : s.available token)
      (chunk : NormalizedChunk) : Moved (.idle reply) s (.waiting token chunk)
  | reserves {reply : Reply} {failover : Bool} (h : Reservable s failover) (deploymentID : String) :
      Moved (.idle reply) { s with gate := s.gate.reserveAttemptLocked.1 }
        (.reserved s.gate.reserveAttemptLocked.2
          ⟨s.gate.reserveAttemptLocked.2.number,deploymentID,failover⟩)
  | starts {token : AttemptToken} {start : AttemptStart} :
      Moved (.reserved token start) { s with starts := s.starts ++ [start] } (.starting token)
  | returns {token : AttemptToken} (ok : Bool) :
      Moved (.starting token) { s with returned := token :: s.returned }
        (.idle (.started token ok))
  | locks {token : AttemptToken} {chunk : NormalizedChunk} (h : s.forwardMu = none) :
      Moved (.waiting token chunk) { s with forwardMu := some i } (.locked token chunk)
  | refuses {token : AttemptToken} {chunk : NormalizedChunk} (e : FailoverError) :
      Moved (.locked token chunk) { s with forwardMu := none } (.idle (.refused e))
  | admits {token : AttemptToken} {chunk : NormalizedChunk} {gate : FailoverGate}
      (hcur : s.gate.currentTokenLocked token)
      (h : s.gate.admits token chunk = .ok gate) :
      Moved (.locked token chunk) { s with gate := gate } (.admitted token chunk)
  | sinks {token : AttemptToken} {chunk : NormalizedChunk} :
      Moved (.admitted token chunk) { s with sinks := s.sinks ++ [(token,chunk)] }
        (.sinking token chunk)
  | succeeds {token : AttemptToken} {chunk : NormalizedChunk} :
      Moved (.sinking token chunk) s (.forwarded chunk)
  | fails {token : AttemptToken} {chunk : NormalizedChunk} :
      Moved (.sinking token chunk) { s with forwardMu := none } (.idle .sinkFailed)
  | counts {chunk : NormalizedChunk} : Moved (.forwarded chunk)
      { s with gate := s.gate.count chunk, forwardMu := none } (.idle .forwarded)

theorem moved_startInitial (i : ι) (s : Shared ι) (reply : Reply) (cancelled : Bool)
    (deploymentID : String) : Moved i s (.idle reply) (s.startInitial cancelled deploymentID).1
      (s.startInitial cancelled deploymentID).2 := by
  unfold Shared.startInitial
  split
  · exact .replies (.refl _) _
  · unfold FailoverGate.startInitial
    by_cases hclosed : s.gate.closed
    · rw [if_pos hclosed]
      exact .replies (.refl _) _
    · rw [if_neg hclosed]
      by_cases hfirst : s.gate.attemptsStarted = 0
      · rw [if_neg (not_not.mpr hfirst)]
        exact .reserves (.initial hfirst) deploymentID
      · rw [if_pos hfirst]
        exact .replies (.refl _) _

theorem moved_startFailover (i : ι) (s : Shared ι) (reply : Reply) (cancelled : Bool)
    {previous : AttemptToken} (havail : s.available previous)
    (failure : Option TimeoutFailure) (deploymentID : String) :
    Moved i s (.idle reply) (s.startFailover cancelled previous failure deploymentID).1
      (s.startFailover cancelled previous failure deploymentID).2 := by
  unfold Shared.startFailover
  split
  · exact .replies (.refl _) _
  · unfold FailoverGate.startFailover
    by_cases hclosed : s.gate.closed
    · rw [if_pos hclosed]
      exact .replies (.refl _) _
    rw [if_neg hclosed]
    by_cases hcur : s.gate.currentTokenLocked previous
    · rw [if_neg (by simp [hcur])]
      by_cases hout : s.gate.modelOutputStarted
      · rw [if_pos hout]
        exact .replies (alike_denied _) _
      rw [if_neg hout]
      split_ifs with hfail hlimit
      · exact .replies (.refl _) _
      · exact .replies (.refl _) _
      · exact .reserves (.failover previous havail hcur (by simpa using hout)
          (not_le.mp hlimit)) deploymentID
    · rw [if_pos (by simpa using hcur)]
      exact .replies (.refl _) _

theorem moved_proceed (i : ι) (ok : Bool) (s : Shared ι) (phase : Phase) :
    Moved i s phase (s.proceed i ok phase).1 (s.proceed i ok phase).2 := by
  cases phase with
  | idle reply => exact .stays _
  | reserved token start => exact .starts
  | starting token => exact .returns ok
  | waiting token chunk =>
    unfold Shared.proceed
    dsimp only
    split_ifs with hheld
    · exact .stays _
    · exact .locks (by simpa using hheld)
  | locked token chunk =>
    unfold Shared.proceed
    dsimp only
    split
    · exact .refuses _
    · rename_i gate hadm
      refine .admits ?_ hadm
      unfold FailoverGate.admits at hadm
      split_ifs at hadm with hclosed hcur
      all_goals simpa using hcur
  | admitted token chunk => exact .sinks
  | sinking token chunk =>
    unfold Shared.proceed
    dsimp only
    split_ifs
    · exact .succeeds
    · exact .fails
  | forwarded chunk => exact .counts

theorem moved (i : ι) (m : Move) (s : Shared ι) (phase : Phase) :
    Moved i s phase (failoverMoves i m s phase).1 (failoverMoves i m s phase).2 := by
  cases m with
  | go ok => exact moved_proceed i ok s phase
  | startInitial cancelled deploymentID =>
    cases phase with
    | idle reply => exact moved_startInitial i s reply cancelled deploymentID
    | _ => exact .stays _
  | startFailover cancelled previous failure deploymentID =>
    cases phase with
    | idle reply =>
      unfold failoverMoves
      dsimp only
      split_ifs with havail
      · exact moved_startFailover i s reply cancelled havail failure deploymentID
      · exact .stays _
    | _ => exact .stays _
  | forward cancelled token chunk =>
    cases phase with
    | idle reply =>
      unfold failoverMoves Shared.forward
      dsimp only
      split_ifs with havail
      · exact .replies (.refl _) _
      · exact .replies (.refl _) _
      · exact .begins havail chunk
      · exact .stays _
    | _ => exact .stays _
  | close token =>
    cases phase with
    | idle reply =>
      unfold failoverMoves Shared.close FailoverGate.close
      dsimp only
      split_ifs with havail hcur
      · exact .replies (.refl _) _
      · exact .replies (alike_closed _) _
      · exact .stays _
    | _ => exact .stays _

/-! The invariant. -/

/-- The token of the latest attempt. -/
def FailoverGate.newest (gate : FailoverGate) : AttemptToken :=
  ⟨gate.gateID,gate.attemptsStarted,gate.attemptsStarted⟩

open FailoverGate

/-- A token of the gate, of one of the first attempts. -/
structure AttemptToken.Among (gateID attempts : ℕ) (token : AttemptToken) : Prop where
  gateID : token.gateID = gateID
  generation : token.generation = token.number
  number : 1 ≤ token.number ∧ token.number ≤ attempts

variable {token : AttemptToken}

theorem AttemptToken.Among.mono {gateID attempts attempts' : ℕ}
    (h : token.Among gateID attempts) (hle : attempts ≤ attempts') : token.Among gateID attempts' :=
  ⟨h.gateID,h.generation,h.number.1,h.number.2.trans hle⟩

structure Shared.Sound (s : Shared ι) : Prop where
  gateID : s.gate.gateID ≠ 0
  allowance : 1 ≤ s.gate.maxAttempts
  current : s.gate.currentAttempt = s.gate.attemptsStarted
  generation : s.gate.generation = s.gate.attemptsStarted
  limit : s.gate.attemptsStarted ≤ s.gate.maxAttempts
  numbered : s.starts.map (fun start => (start.number,start.failover)) =
    (range s.starts.length).map fun k => (k + 1,decide (k ≠ 0))
  started : s.starts.length ≤ s.gate.attemptsStarted
  returned : ∀ token ∈ s.returned, token.Among s.gate.gateID s.starts.length
  output : s.gate.modelOutputStarted →
    s.gate.firstModelOutputAttempt = s.gate.attemptsStarted ∧
      s.gate.attemptsStarted = s.starts.length ∧ 1 ≤ s.starts.length
  ordered : s.sinks.Pairwise fun a b => a.1.number ≤ b.1.number
  single : ∀ call ∈ s.sinks, call.1 ∈ s.returned ∧ (isModelOutput call.2.kind →
    s.gate.modelOutputStarted ∧ call.1.number = s.gate.firstModelOutputAttempt)

open Shared

/-- What a caller knows. -/
def Shared.Knows (i : ι) (s : Shared ι) : Phase → Prop
  | .idle _ => True
  | .reserved token start => token = s.gate.newest ∧ start.number = s.gate.attemptsStarted ∧
      start.failover = decide (s.gate.attemptsStarted ≠ 1) ∧
      s.gate.attemptsStarted = s.starts.length + 1
  | .starting token => token.Among s.gate.gateID s.starts.length
  | .waiting token _ => s.available token
  | .locked token _ => s.available token ∧ s.forwardMu = some i
  | .admitted token chunk => s.forwardMu = some i ∧ token ∈ s.returned ∧
      (∀ call ∈ s.sinks, call.1.number ≤ token.number) ∧ (isModelOutput chunk.kind →
        s.gate.modelOutputStarted ∧ token.number = s.gate.firstModelOutputAttempt)
  | .sinking _ _ | .forwarded _ => s.forwardMu = some i

/-- One attempt is reserved at a time. -/
def Phase.Apart : Phase → Phase → Prop
  | .reserved _ _, .reserved _ _ => False
  | _, _ => True

variable {s : Shared ι}

theorem Shared.Sound.currentToken_iff (hs : s.Sound) :
    s.gate.currentTokenLocked token ↔ token = s.gate.newest := by
  unfold currentTokenLocked newest
  rw [hs.current,hs.generation]
  constructor
  · intro h
    simp only [Bool.and_eq_true,decide_eq_true_eq] at h
    obtain ⟨⟨⟨-,hgate⟩,hgen⟩,hnum⟩ := h
    cases token
    simp_all
  · intro h
    simp [h,hs.gateID]

theorem Shared.Sound.started_of_newest (hs : s.Sound) (h : s.available s.gate.newest) :
    s.gate.newest ∈ s.returned ∧
      s.gate.attemptsStarted = s.starts.length ∧ 1 ≤ s.starts.length := by
  have hmem : s.gate.newest ∈ s.returned := by
    simpa [available,newest] using h
  obtain ⟨-,-,hleast,hmost⟩ := hs.returned _ hmem
  have hstarted := hs.started
  simp only [newest] at hleast hmost
  exact ⟨hmem,by omega,by omega⟩

/-! Every move keeps it. -/

variable {gate : FailoverGate}

theorem Shared.Sound.alike (hs : s.Sound) (h : Alike s.gate gate) :
    Sound { s with gate := gate } := by
  refine ⟨?_,?_,?_,?_,?_,hs.numbered,?_,?_,?_,hs.ordered,?_⟩
  · exact h.gateID ▸ hs.gateID
  · exact h.maxAttempts ▸ hs.allowance
  · exact h.currentAttempt.trans (hs.current.trans h.attemptsStarted.symm)
  · exact h.generation.trans (hs.generation.trans h.attemptsStarted.symm)
  · show gate.attemptsStarted ≤ gate.maxAttempts
    rw [h.attemptsStarted,h.maxAttempts]
    exact hs.limit
  · show s.starts.length ≤ gate.attemptsStarted
    rw [h.attemptsStarted]
    exact hs.started
  · show ∀ token ∈ s.returned, token.Among gate.gateID s.starts.length
    rw [h.gateID]
    exact hs.returned
  · show gate.modelOutputStarted → gate.firstModelOutputAttempt = gate.attemptsStarted ∧
      gate.attemptsStarted = s.starts.length ∧ 1 ≤ s.starts.length
    rw [h.modelOutputStarted,h.firstModelOutputAttempt,h.attemptsStarted]
    exact hs.output
  · show ∀ call ∈ s.sinks, call.1 ∈ s.returned ∧ (isModelOutput call.2.kind →
      gate.modelOutputStarted ∧ call.1.number = gate.firstModelOutputAttempt)
    rw [h.modelOutputStarted,h.firstModelOutputAttempt]
    exact hs.single

/-- An attempt is reserved where all earlier ones were started and there is no output. -/
theorem Shared.Sound.reservable (hs : s.Sound) {failover : Bool} (h : Reservable s failover) :
    s.gate.attemptsStarted = s.starts.length ∧
      s.gate.attemptsStarted < s.gate.maxAttempts ∧ s.gate.modelOutputStarted = false ∧
      failover = decide (s.gate.attemptsStarted ≠ 0) := by
  have hstarted := hs.started
  have hallowance := hs.allowance
  cases h with
  | initial hfirst =>
    refine ⟨by omega,by omega,?_,by simp [hfirst]⟩
    rw [← Bool.not_eq_true]
    intro hout
    obtain ⟨-,hall,hone⟩ := hs.output hout
    omega
  | failover previous havail hcur hout hlimit =>
    rw [hs.currentToken_iff] at hcur
    obtain ⟨-,hall,hone⟩ := hs.started_of_newest (hcur ▸ havail)
    refine ⟨hall,hlimit,hout,?_⟩
    have hsome : s.gate.attemptsStarted ≠ 0 := by omega
    simp [hsome]

theorem Shared.Sound.reserves (hs : s.Sound) {failover : Bool} (h : Reservable s failover) :
    Sound { s with gate := s.gate.reserveAttemptLocked.1 } := by
  obtain ⟨hall,hlimit,hout,-⟩ := hs.reservable h
  refine ⟨hs.gateID,hs.allowance,rfl,congrArg (· + 1) hs.generation,hlimit,hs.numbered,
    hs.started.trans (Nat.le_succ _),hs.returned,?_,hs.ordered,hs.single⟩
  intro hmarked
  have hmarked : s.gate.modelOutputStarted := hmarked
  rw [hout] at hmarked
  cases hmarked

theorem Shared.Sound.starts (hs : s.Sound) {start : AttemptStart}
    (hnum : start.number = s.gate.attemptsStarted)
    (hfailover : start.failover = decide (s.gate.attemptsStarted ≠ 1))
    (hnext : s.gate.attemptsStarted = s.starts.length + 1) :
    Sound { s with starts := s.starts ++ [start] } := by
  refine { hs with numbered := ?_, started := ?_, returned := ?_, output := ?_ }
  · rw [map_append,hs.numbered,length_append,length_singleton,range_succ,map_append]
    simp [hnum,hfailover,hnext]
  · rw [length_append,length_singleton]
    exact hnext.ge
  · intro token htoken
    apply (hs.returned token htoken).mono
    rw [length_append]
    exact Nat.le_add_right _ _
  · intro hout
    obtain ⟨-,hall,-⟩ := hs.output hout
    omega

variable {chunk : NormalizedChunk}

/-- The section of `Forward` that admits a chunk. -/
theorem admits_eq_ok {gate' : FailoverGate} (h : gate.admits token chunk = .ok gate') :
    gate' = gate ∧ (isModelOutput chunk.kind → gate.modelOutputStarted) ∨
      gate' = { gate with modelOutputStarted := true, firstModelOutputAttempt := token.number } ∧
        gate.modelOutputStarted = false := by
  unfold admits at h
  split_ifs at h with hclosed hcur hmarks
  · cases h
    simp only [Bool.and_eq_true,Bool.not_eq_true'] at hmarks
    exact .inr ⟨rfl,hmarks.2⟩
  · cases h
    simp only [Bool.and_eq_true,Bool.not_eq_true',not_and,Bool.not_eq_false] at hmarks
    exact .inl ⟨rfl,hmarks⟩

theorem Shared.Sound.admits (hs : s.Sound) (havail : s.available token)
    (hcur : s.gate.currentTokenLocked token) (h : s.gate.admits token chunk = .ok gate) :
    Sound { s with gate := gate } ∧ token ∈ s.returned ∧
      (∀ call ∈ s.sinks, call.1.number ≤ token.number) ∧ (isModelOutput chunk.kind →
        gate.modelOutputStarted ∧ token.number = gate.firstModelOutputAttempt) := by
  rw [hs.currentToken_iff] at hcur
  obtain ⟨hmem,hall,hone⟩ := hs.started_of_newest (hcur ▸ havail)
  have hnum : token.number = s.gate.attemptsStarted := by rw [hcur]; rfl
  have hsinks : ∀ call ∈ s.sinks, call.1.number ≤ token.number := by
    intro call hcall
    obtain ⟨-,-,-,hmost⟩ := hs.returned _ (hs.single call hcall).1
    omega
  rcases admits_eq_ok h with ⟨rfl,hmarked⟩ | ⟨rfl,hunmarked⟩
  · refine ⟨hs,hcur ▸ hmem,hsinks,?_⟩
    intro hkind
    have hout := hmarked hkind
    exact ⟨hout,hnum.trans (hs.output hout).1.symm⟩
  · refine ⟨{ hs with output := ?_, single := ?_ },hcur ▸ hmem,hsinks,fun _ => ⟨rfl,rfl⟩⟩
    · exact fun _ => ⟨hnum,hall,hone⟩
    · -- no model output was handed over before
      intro call hcall
      refine ⟨(hs.single call hcall).1,fun hkind => ?_⟩
      have hmarked := ((hs.single call hcall).2 hkind).1
      rw [hunmarked] at hmarked
      cases hmarked

variable {i : ι}

theorem Shared.Sound.sinks (hs : s.Sound) (hk : s.Knows i (.admitted token chunk)) :
    Sound { s with sinks := s.sinks ++ [(token,chunk)] } := by
  obtain ⟨-,hmem,hlatest,hkind⟩ := hk
  refine { hs with ordered := ?_, single := ?_ }
  · rw [pairwise_append]
    refine ⟨hs.ordered,pairwise_singleton _ _,?_⟩
    intro call hcall last hlast
    rw [mem_singleton.mp hlast]
    exact hlatest call hcall
  · intro call hcall
    rcases mem_append.mp hcall with hcall | hcall
    · exact hs.single call hcall
    · rw [mem_singleton.mp hcall]
      exact ⟨hmem,hkind⟩

theorem Shared.Sound.returns (hs : s.Sound) (h : token.Among s.gate.gateID s.starts.length) :
    Sound { s with returned := token :: s.returned } := by
  refine { hs with returned := ?_, single := ?_ }
  · intro other hother
    rcases mem_cons.mp hother with rfl | hother
    · exact h
    · exact hs.returned other hother
  · exact fun call hcall =>
      ⟨mem_cons_of_mem _ (hs.single call hcall).1,(hs.single call hcall).2⟩

theorem Shared.Sound.unlocks (hs : s.Sound) (holder : Option ι) :
    Sound { s with forwardMu := holder } := { hs with }

variable {s' : Shared ι} {phase phase' : Phase}

theorem Moved.own (h : Moved i s phase s' phase') (hs : s.Sound) (hk : s.Knows i phase) :
    s'.Sound ∧ s'.Knows i phase' := by
  cases h with
  | stays => exact ⟨hs,hk⟩
  | replies halike reply => exact ⟨hs.alike halike,trivial⟩
  | begins havail chunk => exact ⟨hs,havail⟩
  | reserves hreservable deploymentID =>
    obtain ⟨hall,-,-,hfailover⟩ := hs.reservable hreservable
    refine ⟨hs.reserves hreservable,?_,rfl,?_,congrArg (· + 1) hall⟩
    · simp [reserveAttemptLocked,newest,hs.generation]
    · simpa [reserveAttemptLocked] using hfailover
  | starts =>
    obtain ⟨rfl,hnum,hfailover,hnext⟩ := hk
    refine ⟨hs.starts hnum hfailover hnext,rfl,rfl,?_⟩
    simp [newest,hnext]
  | returns ok => exact ⟨hs.returns hk,trivial⟩
  | locks hfree => exact ⟨hs.unlocks _,hk,rfl⟩
  | refuses e => exact ⟨hs.unlocks _,trivial⟩
  | admits hcur hadm =>
    obtain ⟨hsound,hfacts⟩ := hs.admits hk.1 hcur hadm
    exact ⟨hsound,hk.2,hfacts⟩
  | sinks => exact ⟨hs.sinks hk,hk.1⟩
  | succeeds => exact ⟨hs,hk⟩
  | fails => exact ⟨hs.unlocks _,trivial⟩
  | counts => exact ⟨(hs.alike (alike_count _ _)).unlocks _,trivial⟩

/-! What the other callers rely on. -/

structure Frame (j : ι) (s s' : Shared ι) : Prop where
  gateID : s'.gate.gateID = s.gate.gateID
  returned : s.returned ⊆ s'.returned
  starts : s.starts.length ≤ s'.starts.length
  held : s.forwardMu = some j → s'.forwardMu = some j ∧ s'.sinks = s.sinks
  output : s.gate.modelOutputStarted → s'.gate.modelOutputStarted ∧
    s'.gate.firstModelOutputAttempt = s.gate.firstModelOutputAttempt

variable {j : ι}

theorem Frame.available (h : Frame j s s') (havail : s.available token) : s'.available token := by
  simp only [Shared.available,Bool.or_eq_true,decide_eq_true_eq,contains_iff_mem] at *
  rw [h.gateID]
  exact havail.imp_right fun hmem => h.returned hmem

theorem Frame.knows (h : Frame j s s')
    (hresv : (∃ token start, phase = .reserved token start) →
      s'.gate.attemptsStarted = s.gate.attemptsStarted ∧ s'.starts = s.starts)
    (hk : s.Knows j phase) : s'.Knows j phase := by
  cases phase with
  | idle reply => trivial
  | reserved token start =>
    obtain ⟨hatts,hstarts⟩ := hresv ⟨token,start,rfl⟩
    simp only [Knows,newest] at hk ⊢
    rw [h.gateID,hatts,hstarts]
    exact hk
  | starting token =>
    show token.Among s'.gate.gateID s'.starts.length
    rw [h.gateID]
    exact hk.mono h.starts
  | waiting token chunk => exact h.available hk
  | locked token chunk => exact ⟨h.available hk.1,(h.held hk.2).1⟩
  | admitted token chunk =>
    obtain ⟨hheld,hmem,hlatest,hkind⟩ := hk
    obtain ⟨hheld',hsinks⟩ := h.held hheld
    refine ⟨hheld',h.returned hmem,hsinks ▸ hlatest,fun hmodel => ?_⟩
    obtain ⟨hout,hnum⟩ := hkind hmodel
    obtain ⟨hout',hfirst⟩ := h.output hout
    exact ⟨hout',hnum.trans hfirst.symm⟩
  | sinking token chunk => exact (h.held hk).1
  | forwarded chunk => exact (h.held hk).1

theorem Frame.refl (j : ι) (s : Shared ι) : Frame j s s :=
  ⟨rfl,Subset.refl _,le_rfl,fun h => ⟨h,rfl⟩,fun h => ⟨h,rfl⟩⟩

theorem Frame.alike (h : Alike s.gate gate) : Frame j s { s with gate := gate } :=
  ⟨h.gateID,Subset.refl _,le_rfl,fun hheld => ⟨hheld,rfl⟩,
    fun hout => ⟨h.modelOutputStarted.trans hout,h.firstModelOutputAttempt⟩⟩

/-- The caller that holds `forwardMu` may write to the sink and give it back. -/
theorem Frame.holder (hne : j ≠ i) (hheld : s.forwardMu = some i)
    (hgate : s'.gate.gateID = s.gate.gateID) (hret : s'.returned = s.returned)
    (hstarts : s'.starts = s.starts)
    (hout : s.gate.modelOutputStarted → s'.gate.modelOutputStarted ∧
      s'.gate.firstModelOutputAttempt = s.gate.firstModelOutputAttempt) : Frame j s s' := by
  refine ⟨hgate,hret ▸ Subset.refl _,hstarts ▸ le_rfl,?_,hout⟩
  intro hother
  rw [hheld,Option.some.injEq] at hother
  exact absurd hother.symm hne

theorem Moved.frame (h : Moved i s phase s' phase') (hk : s.Knows i phase) (hne : j ≠ i) :
    Frame j s s' := by
  cases h with
  | stays => exact .refl j s
  | replies halike reply => exact .alike halike
  | begins havail chunk => exact .refl j s
  | reserves hreservable deploymentID =>
    exact ⟨rfl,Subset.refl _,le_rfl,fun hheld => ⟨hheld,rfl⟩,fun hout => ⟨hout,rfl⟩⟩
  | starts =>
    refine ⟨rfl,Subset.refl _,?_,fun hheld => ⟨hheld,rfl⟩,fun hout => ⟨hout,rfl⟩⟩
    rw [length_append]
    exact Nat.le_add_right _ _
  | returns ok =>
    exact ⟨rfl,subset_cons_self _ _,le_rfl,fun hheld => ⟨hheld,rfl⟩,fun hout => ⟨hout,rfl⟩⟩
  | locks hfree =>
    refine ⟨rfl,Subset.refl _,le_rfl,?_,fun hout => ⟨hout,rfl⟩⟩
    intro hheld
    rw [hfree] at hheld
    cases hheld
  | refuses e => exact .holder hne hk.2 rfl rfl rfl fun hout => ⟨hout,rfl⟩
  | admits hcur hadm =>
    rcases admits_eq_ok hadm with ⟨rfl,-⟩ | ⟨rfl,hunmarked⟩
    · exact .refl j s
    · refine .holder hne hk.2 rfl rfl rfl fun hout => ?_
      rw [hunmarked] at hout
      cases hout
  | sinks => exact .holder hne hk.1 rfl rfl rfl fun hout => ⟨hout,rfl⟩
  | succeeds => exact .refl j s
  | fails => exact .holder hne hk rfl rfl rfl fun hout => ⟨hout,rfl⟩
  | @counts chunk =>
    have halike := alike_count s.gate chunk
    exact .holder hne hk halike.gateID rfl rfl fun hout =>
      ⟨halike.modelOutputStarted.trans hout,halike.firstModelOutputAttempt⟩

/-- While an attempt is reserved by another caller no attempt is reserved or started. -/
theorem Moved.attempts (h : Moved i s phase s' phase') (hs : s.Sound)
    (hnext : s.gate.attemptsStarted = s.starts.length + 1)
    (hphase : ∀ token start, phase ≠ .reserved token start) :
    s'.gate.attemptsStarted = s.gate.attemptsStarted ∧ s'.starts = s.starts ∧
      ∀ token start, phase' ≠ .reserved token start := by
  cases h with
  | stays => exact ⟨rfl,rfl,hphase⟩
  | replies halike reply => exact ⟨halike.attemptsStarted,rfl,nofun⟩
  | reserves hreservable deploymentID =>
    obtain ⟨hall,-⟩ := hs.reservable hreservable
    omega
  | starts => exact absurd rfl (hphase _ _)
  | admits hcur hadm =>
    refine ⟨?_,rfl,nofun⟩
    rcases admits_eq_ok hadm with ⟨rfl,-⟩ | ⟨rfl,-⟩ <;> rfl
  | @counts chunk => exact ⟨(alike_count s.gate chunk).attemptsStarted,rfl,nofun⟩
  | _ => exact ⟨rfl,rfl,nofun⟩

theorem Phase.apart_iff {other : Phase} : phase.Apart other ↔
    (∃ token start, other = .reserved token start) →
      ∀ token start, phase ≠ .reserved token start := by
  cases phase <;> cases other <;> simp [Phase.Apart]

theorem failoverMoves_keeps : Keeps (failoverMoves : Moves ι Move (Shared ι) Phase) Sound
      (fun i s phase => s.Knows i phase) Phase.Apart := by
  refine ⟨?_,fun i m s phase hs hk => (moved i m s phase).own hs hk,?_⟩
  · intro a b hab
    rw [Phase.apart_iff] at hab ⊢
    rintro ⟨token,start,rfl⟩ token' start' rfl
    exact hab ⟨token',start',rfl⟩ token start rfl
  · intro i m s phase j other hne hs hk hother hapart
    have hmoved := moved i m s phase
    rw [Phase.apart_iff] at hapart
    have hatts : (∃ token start, other = .reserved token start) →
        (failoverMoves i m s phase).1.gate.attemptsStarted = s.gate.attemptsStarted ∧
        (failoverMoves i m s phase).1.starts = s.starts ∧
        ∀ token start, (failoverMoves i m s phase).2 ≠ .reserved token start := by
      intro hresv
      apply hmoved.attempts hs _ (hapart hresv)
      obtain ⟨token,start,rfl⟩ := hresv
      exact hother.2.2.2
    refine ⟨(hmoved.frame hk hne).knows (fun h => ?_) hother,?_⟩
    · exact ⟨(hatts h).1,(hatts h).2.1⟩
    · rw [Phase.apart_iff]
      exact fun h => (hatts h).2.2

end Streaming.Failover
