import AiGateway.Limits.Evaluator

/-! The keys of the concurrency limiter and its three Lua scripts (`redis_concurrency.go`). A lease
is a member of four sorted sets, scored with its expiry time, and has a hash of its own. A script's
numeric arguments are integers, so the checks that they are numbers at all are left out. -/
namespace Limits.Concurrency
open Redis

def scopeKey (keyPrefix : String) (scope : Scope) : String :=
  keyPrefix ++ ":" ++ redisRPMField scope

def leaseKey (keyPrefix leaseID : String) : String := keyPrefix ++ ":lease:" ++ leaseID

variable {keyPrefix : String}

theorem scopeKey_inj {a b : Scope} (ha : a.validate) (hb : b.validate) :
    scopeKey keyPrefix a = scopeKey keyPrefix b ↔ a = b := by
  constructor
  · intro h
    have htext : redisRPMField a = redisRPMField b := by
      have hlist := congrArg String.toList h
      simpa [scopeKey,String.toList_inj] using hlist
    exact redisRPMField_inj ha hb htext
  · rintro rfl
    rfl

theorem leaseKey_inj {keyPrefix id id' : String} :
    leaseKey keyPrefix id = leaseKey keyPrefix id' ↔ id = id' := by
  rw [← String.toList_inj,← String.toList_inj]
  simp [leaseKey]

/-- The fingerprint and the expiry time of a lease's hash, unless they are missing or corrupt. -/
def readLease (hash : Hash) : Option (String × ℕ) :=
  match hash "fingerprint", hash "expiry_ms" with
  | some fingerprint, some raw => (readCount (some raw)).map (fingerprint,·)
  | _, _ => none

/-- Drop what has expired from each set. -/
def purge (nowMS : ℕ) (keys : List String) (s : Server) : Server :=
  keys.foldl (fun s key => s.zremrangebyscore key nowMS) s

def removeMember (member : String) (keys : List String) (s : Server) : Server :=
  keys.foldl (fun s key => s.zrem key member) s

/-- Purge each set and count it; the member has to be there with its expiry time, else the pass
stops at the set's index. -/
def checkMembers (member : String) (expiry nowMS : ℕ) :
    ℕ → List String → Server → Server × Except ℕ (List ℕ)
  | _, [], s => (s,.ok [])
  | index, key :: keys, s =>
      let s := s.zremrangebyscore key nowMS
      if (s.zset key).score member ≠ some expiry then (s,.error index)
      else
        let (s',counts) := checkMembers member expiry nowMS (index + 1) keys s
        (s',counts.map ((s.zset key).card :: ·))

/-- What the acquire script notes about one scope. -/
structure Occupancy where
  (count hard : ℕ)
  earliest : Option ℕ

/-- The expiry time of the first lease of a full set; no answer at all means a corrupt set. -/
def fullUntil (z : ZSet) (hard nowMS : ℕ) : Option (Option ℕ) :=
  if z.card ≥ hard then
    match z.first with
    | none => none
    | some (_,earliest) => if earliest ≤ nowMS then none else some (some earliest)
  else some none

/-- Purge and examine each set for a member that must not be there yet. -/
def examine (member : String) (nowMS : ℕ) :
    ℕ → List (String × ℕ) → Server → Server × Except ℕ (List Occupancy)
  | _, [], s => (s,.ok [])
  | index, (key,hard) :: rest, s =>
      if hard < 1 ∨ hard > maximumValue then (s,.error index)
      else
        let s := s.zremrangebyscore key nowMS
        if ((s.zset key).score member).isSome then (s,.error index)
        else match fullUntil (s.zset key) hard nowMS with
          | none => (s,.error index)
          | some earliest =>
              let (s',occupancies) := examine member nowMS (index + 1) rest s
              (s',occupancies.map (⟨(s.zset key).card,hard,earliest⟩ :: ·))

def firstFull : ℕ → List Occupancy → Option (ℕ × Occupancy)
  | _, [] => none
  | index, occupancy :: rest =>
      if occupancy.count ≥ occupancy.hard then some (index,occupancy)
      else firstFull (index + 1) rest

def addMember (member : String) (expiry limit : ℕ) (keys : List String) (s : Server) : Server :=
  keys.foldl (fun s key => (s.zadd key expiry member).pexpireatZset key limit) s

def moveMember (member : String) (expiry limit : ℕ) (keys : List String) (s : Server) : Server :=
  keys.foldl (fun s key => (s.zaddExisting key expiry member).pexpireatZset key limit) s

/-- `HSET` with several fields. -/
def hsetAll (key : String) (fields : List (String × String)) (s : Server) : Server :=
  fields.foldl (fun s field => s.hset key field.1 field.2) s

def redisConcurrencyAcquireScript (keys : List String) (lease : String) (leaseMS retentionMS : ℕ)
    (member fingerprint : String) (hards : List ℕ) : Script := fun s =>
  let nowMS := s.time.1 * 1000 + s.time.2 / 1000
  match s.hash lease "state" with
  | some state => match readLease (s.hash lease) with
    | none => (s,some (.ints [3,0]))
    | some (storedFingerprint,expiry) =>
      if storedFingerprint ≠ fingerprint then (s,some (.ints [2]))
      else if state ≠ "active" then
        if state = "released" ∨ state = "expired" then (s,some (.ints [2]))
        else (s,some (.ints [3,0]))
      else if expiry ≤ nowMS then
        ((removeMember member keys s).hset lease "state" "expired",some (.ints [4]))
      else match checkMembers member expiry nowMS 1 keys s with
        | (s',.error index) => (s',some (.ints [3,index]))
        | (s',.ok counts) =>
            (s',some (.ints ([1,(nowMS : ℤ),expiry,1] ++ counts.map fun count : ℕ => (count : ℤ))))
  | none => match examine member nowMS 1 (keys.zip hards) s with
    | (s',.error index) => (s',some (.ints [3,index]))
    | (s',.ok occupancies) => match firstFull 1 occupancies with
      -- a full set always has an earliest expiry
      | some (index,full) => (s',some (.ints [0,index,full.count,full.hard,
          (full.earliest.getD 0 : ℕ),nowMS]))
      | none =>
          let expiry := nowMS + leaseMS
          let absoluteTTL := expiry + retentionMS
          let s' := addMember member expiry absoluteTTL keys s'
          let s' := hsetAll lease [("state","active"),("fingerprint",fingerprint),
            ("expiry_ms",expiry.repr)] s'
          (s'.pexpireatHash lease absoluteTTL,some (.ints ([1,(nowMS : ℤ),expiry,0] ++
            occupancies.map fun occupancy => (occupancy.count + 1 : ℤ))))

def redisConcurrencyRenewScript (keys : List String) (lease : String) (leaseMS retentionMS : ℕ)
    (member fingerprint : String) : Script := fun s =>
  let nowMS := s.time.1 * 1000 + s.time.2 / 1000
  match s.hash lease "state" with
  | none => (s,some (.ints [1]))
  | some state => match readLease (s.hash lease) with
    | none => (s,some (.ints [3,0]))
    | some (storedFingerprint,expiry) =>
      if storedFingerprint ≠ fingerprint then (s,some (.ints [2]))
      else if state ≠ "active" then
        if state = "released" then (s,some (.ints [2]))
        else if state = "expired" then (s,some (.ints [1]))
        else (s,some (.ints [3,0]))
      else if expiry ≤ nowMS then
        ((removeMember member keys s).hset lease "state" "expired",some (.ints [1]))
      else match checkMembers member expiry nowMS 1 keys s with
        | (s',.error index) => (s',some (.ints [3,index]))
        | (s',.ok counts) =>
            let nextExpiry := nowMS + leaseMS
            let absoluteTTL := nextExpiry + retentionMS
            let s' := moveMember member nextExpiry absoluteTTL keys s'
            let s' := s'.hset lease "expiry_ms" nextExpiry.repr
            (s'.pexpireatHash lease absoluteTTL,some (.ints ([0,(nowMS : ℤ),nextExpiry] ++
              counts.map fun count : ℕ => (count : ℤ))))

/-- Count each set; the member must not be there. -/
def countWithout (member : String) : ℕ → List String → Server → Except ℕ (List ℕ)
  | _, [], _ => .ok []
  | index, key :: keys, s =>
      if ((s.zset key).score member).isSome then .error index
      else (countWithout member (index + 1) keys s).map ((s.zset key).card :: ·)

/-- The first set in which the member does not have its expiry time. -/
def firstMismatch (member : String) (expiry : ℕ) : ℕ → List String → Server → Option ℕ
  | _, [], _ => none
  | index, key :: keys, s =>
      if (s.zset key).score member ≠ some expiry then some index
      else firstMismatch member expiry (index + 1) keys s

/-- Remove the member from each set and count what is left. -/
def removeCounting (member : String) : List String → Server → Server × List ℕ
  | [], s => (s,[])
  | key :: keys, s =>
      let s := s.zrem key member
      let (s',counts) := removeCounting member keys s
      (s',(s.zset key).card :: counts)

def redisConcurrencyReleaseScript (keys : List String) (lease member fingerprint : String) :
    Script := fun s =>
  let nowMS := s.time.1 * 1000 + s.time.2 / 1000
  match s.hash lease "state" with
  | none => (s,some (.ints [1]))
  | some state => match readLease (s.hash lease) with
    | none => (s,some (.ints [3,0]))
    | some (storedFingerprint,expiry) =>
      if storedFingerprint ≠ fingerprint then (s,some (.ints [2]))
      else
        let s := purge nowMS keys s
        if state = "released" ∨ state = "expired" then
          match countWithout member 1 keys s with
          | .error index => (s,some (.ints [3,index]))
          | .ok counts => (s,some (.ints ([0,(nowMS : ℤ),expiry,1,
              if state = "expired" then 1 else 0] ++ counts.map fun count : ℕ => (count : ℤ))))
        else if state ≠ "active" then (s,some (.ints [3,0]))
        else if expiry ≤ nowMS then
          let (s',counts) := removeCounting member keys s
          (s'.hset lease "state" "expired",some (.ints ([0,(nowMS : ℤ),expiry,0,1] ++
            counts.map fun count : ℕ => (count : ℤ))))
        else match firstMismatch member expiry 1 keys s with
          | some index => (s,some (.ints [3,index]))
          | none =>
              let (s',counts) := removeCounting member keys s
              (s'.hset lease "state" "released",some (.ints ([0,(nowMS : ℤ),expiry,0,0] ++
                counts.map fun count : ℕ => (count : ℤ))))

end Limits.Concurrency
