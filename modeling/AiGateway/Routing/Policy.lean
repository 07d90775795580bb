import AiGateway.Machine.Control
import AiGateway.Text.Pattern
import AiGateway.Text.Word
import Mathlib.Order.Interval.Finset.Nat

/-! The choice of a candidate by the policy of a route (`internal/routing/policy.go`). -/
namespace Routing
open Text Machine

structure RouteCandidate where
  deploymentID : String
  (priority weight : ℤ)

/-- One of `[A-Za-z0-9]`, then at most 127 of these or of `.`, `_`, `:`, `/` and `-`. -/
def routePolicyVersionPattern (s : String) : Bool :=
  isWord isAlnum (fun c => isAlnum c || ['.','_',':','/','-'].contains c) 0 127 s

def maximumCandidates : ℕ := 256

inductive RouteMode where
  | fixed
  | priority
  | weighted
  | other (mode : String)

structure RoutePolicy where
  version : String
  mode : RouteMode
  fixedDeploymentID : String

def RoutePolicy.validate (policy : RoutePolicy) : Except String Unit :=
  if routePolicyVersionPattern policy.version then
    match policy.mode with
    | .fixed =>
        if isUUID policy.fixedDeploymentID then .ok ()
        else .error "fixed route policy requires a canonical deployment UUID"
    | .priority | .weighted =>
        if policy.fixedDeploymentID = "" then .ok ()
        else .error "non-fixed route policy must not contain a fixed deployment"
    | .other _ => .error "route policy mode is unsupported"
  else .error "route policy version must be a canonical 1-128 character identifier"

structure PolicyDecision where
  policyVersion : String
  mode : RouteMode
  selectedDeploymentID : String
  (priority weight : ℤ)
  (eligibleCount totalWeight : ℕ)
  randomDraw : Option ℕ

def PolicyDecision.validate (decision : PolicyDecision) : Except String Unit :=
  if routePolicyVersionPattern decision.policyVersion && isUUID decision.selectedDeploymentID &&
      0 ≤ decision.priority && 0 ≤ decision.weight &&
      1 ≤ decision.eligibleCount &&
      decision.eligibleCount ≤ maximumCandidates then
    match decision.mode with
    | .fixed | .priority =>
        if decision.totalWeight = 0 ∧ decision.randomDraw = none then .ok ()
        else .error "non-weighted route decision contains weighted score facts"
    | .weighted =>
        if decision.weight < 1 ∨ decision.totalWeight = 0 then
          .error "weighted route decision is invalid"
        else match decision.randomDraw with
          | none =>
              if decision.eligibleCount = 1 ∧ decision.totalWeight = decision.weight.toNat then
                .ok ()
              else .error "weighted route decision without a draw is invalid"
          | some draw =>
              if draw < decision.totalWeight then .ok ()
              else .error "weighted route decision draw is invalid"
    | .other _ => .error "route policy decision mode is unsupported"
  else .error "route policy decision is invalid"

inductive PolicyError where
  | noCandidate
  | randomMissing
  | policyUnavailable (reason : String)
  | randomUnavailable (reason : String)

def selectedCandidate (candidate : RouteCandidate) (policy : RoutePolicy)
    (eligibleCount totalWeight : ℕ) (randomDraw : Option ℕ) : RouteCandidate × PolicyDecision :=
  (candidate,{
    policyVersion := policy.version, mode := policy.mode
    selectedDeploymentID := candidate.deploymentID
    priority := candidate.priority, weight := candidate.weight
    eligibleCount := eligibleCount, totalWeight := totalWeight, randomDraw := randomDraw })

/-- The loop over the weights, with its check of a sum of 64 bits. -/
def weightSum (totalWeight : ℕ) : List RouteCandidate → Except PolicyError ℕ
  | [] => .ok totalWeight
  | candidate :: candidates =>
      if candidate.weight ≤ 0 then .error (.policyUnavailable "binding weight must be positive")
      else if 2 ^ 64 - 1 - totalWeight < candidate.weight.toNat then
        .error (.policyUnavailable "weight sum overflow")
      else weightSum (totalWeight + candidate.weight.toNat) candidates

/-- The index at which the loop over the intervals returns. -/
def weightedInterval (draw cumulative : ℕ) : List RouteCandidate → Option ℕ
  | [] => none
  | candidate :: candidates =>
      if draw < cumulative + candidate.weight.toNat then some 0
      else (weightedInterval draw (cumulative + candidate.weight.toNat) candidates).map (· + 1)

variable (candidates : List RouteCandidate) (policy : RoutePolicy)
variable (random : Option (ℕ → Except String ℕ))

def selectFixed : Except PolicyError (RouteCandidate × PolicyDecision) :=
  match candidates.find? fun candidate => candidate.deploymentID = policy.fixedDeploymentID with
  | some candidate => .ok (selectedCandidate candidate policy candidates.length 0 none)
  | none => .error .noCandidate

/-- `random` is the next answer of the source, if there is one. -/
def selectWeighted : Except PolicyError (RouteCandidate × PolicyDecision) :=
  match random with
  | none => .error .randomMissing
  | some random => weightSum 0 candidates >>= fun totalWeight =>
      if totalWeight = 0 then .error (.policyUnavailable "weight sum is zero")
      else match candidates with
        | [candidate] => .ok (selectedCandidate candidate policy 1 totalWeight none)
        | candidates => match random totalWeight with
          | .error reason => .error (.randomUnavailable reason)
          | .ok draw =>
              if totalWeight ≤ draw then
                .error (.randomUnavailable "draw outside requested bound")
              else match (weightedInterval draw 0 candidates).bind (candidates[·]?) with
                | some candidate =>
                    .ok (selectedCandidate candidate policy candidates.length totalWeight draw)
                | none => .error (.policyUnavailable "no weighted interval matched")

def selectByPolicy : Except PolicyError (RouteCandidate × PolicyDecision) :=
  match candidates with
  | [] => .error .noCandidate
  | first :: _ => match policy.mode with
    | .fixed => selectFixed candidates policy
    | .priority => .ok (selectedCandidate first policy candidates.length 0 none)
    | .weighted => selectWeighted candidates policy random
    | .other _ => .error (.policyUnavailable "unsupported mode")

/-! The intervals. -/

open List
variable {policy random} {cs : List RouteCandidate}

def weightOf (cs : List RouteCandidate) : ℕ := (cs.map (·.weight.toNat)).sum

@[simp] theorem weightOf_cons (c : RouteCandidate) :
    weightOf (c :: cs) = c.weight.toNat + weightOf cs := rfl

theorem weightSum_eq_ok {k sum : ℕ} (h : k < 2 ^ 64) :
    weightSum k cs = .ok sum ↔ (∀ c ∈ cs, 0 < c.weight) ∧
      k + weightOf cs < 2 ^ 64 ∧ sum = k + weightOf cs := by
  induction cs generalizing k with
  | nil => simpa [weightSum,weightOf,eq_comm] using fun _ => h
  | cons c cs ih =>
    rw [weightSum,forall_mem_cons,weightOf_cons,← add_assoc]
    split_ifs with hweight hover
    · refine iff_of_false nofun ?_
      rintro ⟨⟨hpos,-⟩,-⟩
      omega
    · refine iff_of_false nofun ?_
      rintro ⟨-,hsum,-⟩
      omega
    · rw [ih (by omega)]
      simp only [Int.not_le.mp hweight,true_and]

theorem weightOf_le (hw : ∀ c ∈ cs, c.weight < 2 ^ 15) : weightOf cs ≤ cs.length * 2 ^ 15 := by
  induction cs with
  | nil => exact Nat.zero_le _
  | cons c cs ih =>
    rw [forall_mem_cons] at hw
    have hrest := ih hw.2
    rw [weightOf_cons,length_cons]
    omega

/-- The draws of a candidate are those from the sum of the weights before it. -/
theorem weightedInterval_eq_some {draw k i : ℕ} (h : k ≤ draw) :
    weightedInterval draw k cs = some i ↔ i < cs.length ∧ k + weightOf (cs.take i) ≤ draw ∧
      draw < k + weightOf (cs.take (i + 1)) := by
  induction cs generalizing k i with
  | nil => simp [weightedInterval]
  | cons c cs ih =>
    rw [weightedInterval,take_succ_cons,weightOf_cons,length_cons]
    split_ifs with hdraw
    · cases i with
      | zero => simpa [weightOf] using ⟨h,hdraw⟩
      | succ i =>
        rw [take_succ_cons,weightOf_cons]
        refine iff_of_false nofun ?_
        omega
    · cases i with
      | zero =>
        refine iff_of_false (by simp) ?_
        simp only [take_zero,weightOf,map_nil,sum_nil]
        omega
      | succ i =>
        simp only [Option.map_eq_some_iff,Nat.add_right_cancel_iff,exists_eq_right,
          ih (Nat.le_of_not_lt hdraw),Nat.add_lt_add_iff_right,take_succ_cons,
          weightOf_cons,add_assoc]

theorem exists_interval {draw k : ℕ} (hlow : k ≤ draw)
    (h : draw < k + weightOf cs) : ∃ i, weightedInterval draw k cs = some i := by
  induction cs generalizing k with
  | nil => exact absurd hlow (Nat.not_le.mpr h)
  | cons c cs ih =>
    rw [weightedInterval]
    split_ifs with hdraw
    · exact ⟨0,rfl⟩
    · rw [weightOf_cons,← add_assoc] at h
      obtain ⟨i,hi⟩ := ih (Nat.le_of_not_lt hdraw) h
      exact ⟨i + 1,by rw [hi]; rfl⟩

/-- The draws that select a candidate. -/
def drawsOf (cs : List RouteCandidate) (i : ℕ) : Finset ℕ :=
  (Finset.range (weightOf cs)).filter fun draw => weightedInterval draw 0 cs = some i

theorem card_drawsOf {i : ℕ} (hi : i < cs.length) : (drawsOf cs i).card = cs[i].weight.toNat := by
  have hnext : weightOf (cs.take (i + 1)) = weightOf (cs.take i) + cs[i].weight.toNat := by
    simp only [weightOf,map_take]
    rw [sum_take_succ _ i (by rwa [length_map]),getElem_map]
  have hall : weightOf (cs.take (i + 1)) ≤ weightOf cs := by
    have hsum := sum_take_add_sum_drop (cs.map (·.weight.toNat)) (i + 1)
    simp only [weightOf,map_take]
    omega
  have hdraws : drawsOf cs i =
      Finset.Ico (weightOf (cs.take i)) (weightOf (cs.take (i + 1))) := by
    ext draw
    simp only [drawsOf,Finset.mem_filter,Finset.mem_range,hi,true_and,zero_add,Finset.mem_Ico,
      weightedInterval_eq_some (Nat.zero_le draw)]
    omega
  rw [hdraws,Nat.card_Ico,hnext]
  omega

theorem selectWeighted_draw (hlen : 2 ≤ cs.length) (hsum : weightSum 0 cs = .ok (weightOf cs))
    {draw : ℕ} (hdraw : draw < weightOf cs) : ∃ i c, draw ∈ drawsOf cs i ∧ cs[i]? = some c ∧
      selectWeighted cs policy (some fun _ => .ok draw) =
        .ok (selectedCandidate c policy cs.length (weightOf cs) draw) := by
  obtain ⟨i,hi⟩ := exists_interval (Nat.zero_le draw) (by rwa [zero_add])
  have hlt := ((weightedInterval_eq_some (Nat.zero_le draw)).mp hi).1
  refine ⟨i,cs[i],?_,getElem?_eq_getElem hlt,?_⟩
  · exact Finset.mem_filter.mpr ⟨Finset.mem_range.mpr hdraw,hi⟩
  rw [selectWeighted]
  dsimp only
  rw [hsum,ok_bind,if_neg (by omega)]
  split
  · simp at hlen
  · rw [if_neg (by omega),hi,Option.bind_some,getElem?_eq_getElem hlt]

/-! The decision. -/

/-- The check of an identifier in the catalog. -/
def validateUUID (value : String) : Bool := isUUID value.toLower

/-- What the filter asks of its candidates, with the identifiers in lower case. -/
structure Eligible (cs : List RouteCandidate) : Prop where
  length : cs.length ≤ maximumCandidates
  ids : ∀ c ∈ cs, isUUID c.deploymentID
  priorities : ∀ c ∈ cs, 0 ≤ c.priority
  weights : ∀ c ∈ cs, 0 < c.weight

theorem RoutePolicy.version_of_validate (h : policy.validate = .ok ()) :
    routePolicyVersionPattern policy.version := by
  by_contra hver
  rw [validate,if_neg hver] at h
  cases h

variable {c : RouteCandidate} {decision : PolicyDecision}

theorem selectWeighted_spec (h : selectWeighted cs policy random = .ok (c,decision)) :
    c ∈ cs ∧ ∃ total draw, total ≠ 0 ∧
      decision = (selectedCandidate c policy cs.length total draw).2 ∧
      match draw with
      | none => cs.length = 1 ∧ total = c.weight.toNat
      | some draw => draw < total := by
  unfold selectWeighted at h
  split at h
  · cases h
  · obtain ⟨total,hsum,h⟩ := bind_eq_ok.mp h
    split_ifs at h with hzero
    split at h
    · cases h
      have htotal := ((weightSum_eq_ok (by decide)).mp hsum).2.2
      rw [zero_add,weightOf_cons] at htotal
      exact ⟨mem_singleton_self _,total,none,hzero,rfl,rfl,htotal⟩
    · split at h
      · cases h
      · rename_i draw _
        split_ifs at h with hdraw
        split at h
        · rename_i hfound
          cases h
          obtain ⟨i,-,hi⟩ := Option.bind_eq_some_iff.mp hfound
          exact ⟨mem_of_getElem? hi,total,some draw,hzero,rfl,Nat.lt_of_not_le hdraw⟩
        · cases h

theorem selectByPolicy_valid (he : Eligible cs) (hpol : policy.validate = .ok ())
    (h : selectByPolicy cs policy random = .ok (c,decision)) :
    decision.validate = .ok () ∧ c ∈ cs ∧ decision.selectedDeploymentID = c.deploymentID := by
  have hhead {c : RouteCandidate} (hmem : c ∈ cs) :
      (routePolicyVersionPattern policy.version && isUUID c.deploymentID && 0 ≤ c.priority &&
        0 ≤ c.weight && 1 ≤ cs.length && cs.length ≤ maximumCandidates) := by
    have hpos : 1 ≤ cs.length := length_pos_of_mem hmem
    simp [RoutePolicy.version_of_validate hpol,he.ids _ hmem,he.priorities _ hmem,
      (he.weights _ hmem).le,hpos,he.length]
  unfold selectByPolicy at h
  split at h
  · cases h
  · split at h
    · rename_i hmode
      unfold selectFixed at h
      split at h
      · rename_i hfound
        cases h
        have hmem := mem_of_find?_eq_some hfound
        refine ⟨(if_pos (hhead hmem)).trans ?_,hmem,rfl⟩
        simp [hmode]
      · cases h
    · rename_i hmode
      cases h
      refine ⟨(if_pos (hhead mem_cons_self)).trans ?_,mem_cons_self,rfl⟩
      simp [hmode]
    · rename_i hmode
      obtain ⟨hmem,total,draw,hzero,rfl,hdraw⟩ := selectWeighted_spec h
      refine ⟨(if_pos (hhead hmem)).trans ?_,hmem,rfl⟩
      have hweight := he.weights _ hmem
      have hscore : ¬(c.weight < 1 ∨ total = 0) := by omega
      simp only [selectedCandidate,hmode]
      rw [if_neg hscore]
      cases draw with
      | none => exact if_pos hdraw
      | some draw => exact if_pos hdraw
    · cases h

/-- A slice has at most `2 ^ 48` elements. -/
theorem selectByPolicy_weights (hw : ∀ c ∈ cs, 0 < c.weight ∧ c.weight < 2 ^ 15)
    (hlen : cs.length ≤ 2 ^ 48) : (weightSum 0 cs = .ok (weightOf cs) ∧ weightOf cs < 2 ^ 64) ∧
      (2 ≤ cs.length → (∀ i (hi : i < cs.length), (drawsOf cs i).card = cs[i].weight.toNat) ∧
        ∀ policy, ∀ draw < weightOf cs, ∃ i c, draw ∈ drawsOf cs i ∧ cs[i]? = some c ∧
          selectWeighted cs policy (some fun _ => .ok draw) =
            .ok (selectedCandidate c policy cs.length (weightOf cs) draw)) ∧
      (Eligible cs → ∀ policy random c decision, policy.validate = .ok () →
        selectByPolicy cs policy random = .ok (c,decision) → decision.validate = .ok () ∧
          c ∈ cs ∧ decision.selectedDeploymentID = c.deploymentID) := by
  have hbound := weightOf_le fun c hmem => (hw c hmem).2
  have hlt : weightOf cs < 2 ^ 64 := by omega
  have hsum : weightSum 0 cs = .ok (weightOf cs) := by
    rw [weightSum_eq_ok (by decide),zero_add]
    exact ⟨fun c hmem => (hw c hmem).1,hlt,rfl⟩
  exact ⟨⟨hsum,hlt⟩,fun htwo => ⟨fun _ hi => card_drawsOf hi,
      fun _ _ hdraw => selectWeighted_draw htwo hsum hdraw⟩,
    fun he _ _ _ _ hpol h => selectByPolicy_valid he hpol h⟩

def samplePair : List RouteCandidate :=
  [⟨"00000000-0000-4000-8000-00000000000a",1,1⟩,⟨"00000000-0000-4000-8000-00000000000b",1,3⟩]

theorem samplePair_weights : (drawsOf samplePair 1).card = 3 :=
  ((selectByPolicy_weights (by simp [samplePair]) (by decide)).2.1 (by decide)).1 1
    (by decide)

/-- The filter lets this candidate pass, but its decision is not valid. -/
def upperCandidate : RouteCandidate := ⟨"A0000000-0000-4000-8000-00000000000a",1,1⟩

theorem upperCandidate_refused : validateUUID upperCandidate.deploymentID ∧
    (⟨"v1",.weighted,""⟩ : RoutePolicy).validate = .ok () ∧
    ∃ decision, selectByPolicy [upperCandidate] ⟨"v1",.weighted,""⟩ (some .ok) =
      .ok (upperCandidate,decision) ∧
      decision.validate = .error "route policy decision is invalid" :=
  ⟨by decide +kernel,by rfl,_,by rfl,by rfl⟩

end Routing
