import AiGateway.Interleaving.History
import AiGateway.Limits.Scope
import AiGateway.Redis.Server

/-! The evaluator port of the Redis limiters, the server's clock, minute windows, and the
configuration and counters of the two window limiters (`redis_rpm.go`, `redis_tpm.go`). -/
namespace Limits
open Text Redis Server

/-- Nanoseconds since the epoch. -/
abbrev Time := ℤ

def unixMilli (milliseconds : ℤ) : Time := milliseconds * 1000000

/-- The difference of two times as a 64-bit duration, which saturates. -/
def timeSub (a b : Time) : ℤ := max (-2 ^ 63) (min (2 ^ 63 - 1) (a - b))

/-- How one `Eval` call can fail: before the script has run, or after it with the reply lost. -/
inductive Fault where
  | unsent
  | lost

/-- What the outside contributes to one step of a call: the process's own clock, and a fault. -/
structure Oracle where
  localSeconds : ℤ
  fault : Option Fault

/-- A script with its keys and arguments; no reply means that a command in it failed. -/
abbrev Script := Server → Server × Option Value

/-- `Eval`: the script runs as one atomic step. -/
def evaluate (script : Script) (e : Oracle) (s : Server) : Server × Option Value :=
  match e.fault with
  | none => script s
  | some .unsent => (s,none)
  | some .lost => ((script s).1,none)

theorem evaluate_of_none {e : Oracle} (h : e.fault = none) (script : Script) (s : Server) :
    evaluate script e s = script s := by
  simp [evaluate,h]

/-- `Eval` runs the script and delivers its reply, runs it without a reply, or does nothing. -/
theorem evaluate_cases (script : Script) (e : Oracle) (s : Server) :
    evaluate script e s = (s,none) ∨ evaluate script e s = ((script s).1,none) ∨
      evaluate script e s = script s := by
  unfold evaluate
  split
  · exact .inr (.inr rfl)
  · exact .inl rfl
  · exact .inr (.inl rfl)

/-- Up to this millisecond every time a script computes is an exact Lua number. -/
def lastClock : ℕ := 9007199000000000

/-- Redis time never goes back, and keys go when they expire. -/
def passes (s t : Server) : Prop :=
  ∃ now, s.now ≤ now ∧ now / 1000 ≤ lastClock ∧ t = s.tick now

/-- A server without keys. -/
def fresh (s : Server) : Prop := ∃ now, now / 1000 ≤ lastClock ∧ s = .start now

/-! Minute windows. -/

def windowSeconds : ℕ := 60

/-- The minute of a process's clock; Go division rounds towards zero. -/
def localWindow (e : Oracle) : ℤ := e.localSeconds.tdiv windowSeconds

/-- The minute of the server's clock. -/
def serverWindow (s : Server) : ℕ := s.time.1 / 60

/-- The millisecond at which the server's minute ends. -/
def resetMS (s : Server) : ℕ := (serverWindow s + 1) * 60 * 1000

theorem clock_lt_resetMS (s : Server) : s.clock < resetMS s := by
  simp only [resetMS,serverWindow,time,clock]
  omega

theorem resetMS_le (s : Server) : resetMS s ≤ s.clock + 60000 := by
  simp only [resetMS,serverWindow,time,clock]
  omega

def windowKey (keyPrefix : String) (window : ℤ) : String := keyPrefix ++ ":" ++ window.repr

theorem colon_notMem_int_repr (z : ℤ) : ':' ∉ z.repr.toList := by
  cases z with
  | ofNat n => exact colon_notMem_repr n
  | negSucc n =>
    simp only [Int.repr,String.toList_append,List.mem_append,not_or]
    exact ⟨by decide,colon_notMem_repr _⟩

theorem int_repr_injective : Function.Injective Int.repr := by
  intro y z h
  cases y with
  | ofNat m =>
    cases z with
    | ofNat n => rw [repr_injective h]
    | negSucc n =>
      have hdash : '-' ∈ m.repr.toList := by
        rw [show m.repr = (Int.negSucc n).repr from h]
        simp [Int.repr]
      exact absurd (isDigit_of_mem_repr hdash) (by decide)
  | negSucc m =>
    cases z with
    | ofNat n =>
      have hdash : '-' ∈ n.repr.toList := by
        rw [← show (Int.negSucc m).repr = n.repr from h]
        simp [Int.repr]
      exact absurd (isDigit_of_mem_repr hdash) (by decide)
    | negSucc n =>
      have htail : (m + 1).repr = (n + 1).repr := by
        have hl := congrArg String.toList h
        simp only [Int.repr,String.toList_append,List.append_cancel_left_eq] at hl
        exact String.toList_inj.mp hl
      have hmn := repr_injective htail
      simp only [Nat.add_right_cancel_iff] at hmn
      rw [hmn]

theorem windowKey_inj {p p' : String} {w w' : ℤ} :
    windowKey p w = windowKey p' w' ↔ p = p' ∧ w = w' := by
  rw [windowKey,windowKey,
    append_colon_inj_last (colon_notMem_int_repr w) (colon_notMem_int_repr w'),
    int_repr_injective.eq_iff]

/-! Configuration of the window limiters. -/

/-- `strings.Count` for a pattern that does not overlap itself. -/
def occurrences (pattern : List Char) : List Char → ℕ
  | [] => 0
  | c :: cs => (if pattern.isPrefixOf (c :: cs) then 1 else 0) + occurrences pattern cs

def maximumKeyPrefixLength : ℕ := 128

def validRedisKeyPrefix (tag keyPrefix : String) : Bool :=
  1 ≤ keyPrefix.utf8ByteSize && keyPrefix.utf8ByteSize ≤ maximumKeyPrefixLength &&
    isRef [':','.','_','\x7b','\x7d','-'] keyPrefix &&
    occurrences tag.toList keyPrefix.toList == 1

def maximumClockRetries : ℕ := 5

/-- An RPM or TPM limiter: its namespace, how long a window's hash outlives the window, and how
often a call may ask again for the server's minute. -/
@[ext]
structure WindowLimiter (tag : String) (maximumRetentionMS : ℕ) where
  keyPrefix : String
  (retentionMS clockRetries : ℕ)
  namespaced : validRedisKeyPrefix tag keyPrefix
  retention_pos : 1 ≤ retentionMS
  retention_le : retentionMS ≤ maximumRetentionMS
  retries_pos : 1 ≤ clockRetries
  retries_le : clockRetries ≤ maximumClockRetries

instance (tag : String) (maximumRetentionMS : ℕ) :
    DecidableEq (WindowLimiter tag maximumRetentionMS) :=
  fun _ _ => decidable_of_iff _ WindowLimiter.ext_iff.symm

/-- The constructors of both limiters, which differ in the tag and in the longest retention. A
duration is given in nanoseconds. -/
def newWindowLimiter (tag : String) (maximumRetentionMS : ℕ) (keyPrefix : String) (retention : ℤ)
    (clockRetries : ℤ) : Option (WindowLimiter tag maximumRetentionMS) :=
  let retentionMilliseconds := retention.tdiv 1000000
  if h : validRedisKeyPrefix tag keyPrefix ∧ 1 ≤ retentionMilliseconds ∧
      retention ≤ maximumRetentionMS * 1000000 ∧ 1 ≤ clockRetries ∧
      clockRetries ≤ maximumClockRetries then
    some {
      keyPrefix := keyPrefix
      retentionMS := retentionMilliseconds.toNat
      clockRetries := clockRetries.toNat
      namespaced := h.1
      retention_pos := by omega
      retention_le := by
        obtain ⟨-,h₁,h₂,-⟩ := h
        have hle := Int.tdiv_le_tdiv (by decide : (0 : ℤ) < 1000000) h₂
        rw [Int.mul_tdiv_cancel _ (by decide)] at hle
        omega
      retries_pos := by omega
      retries_le := by omega }
  else none

/-! Counters in a window's hash. -/

/-- A counter as the scripts read it: missing means zero, and anything but a decimal number within
`maximum` is corrupt. -/
def readCount : Option String → Option ℕ
  | none => some 0
  | some raw => (decimal raw).bind fun count => if count > maximumValue then none else some count

theorem readCount_of_counts {h : Hash} {field : String} {n : ℕ} (hc : Counts h field n)
    (hle : n ≤ maximumValue) : readCount (h field) = some n := by
  rcases hc with hc | ⟨hc,rfl⟩
  · rw [hc,readCount,decimal_repr,Option.bind_some,if_neg (by omega)]
  · rw [hc]
    rfl

/-- The number a counter field stands for. -/
def fieldValue (hash : Hash) (field : String) : ℕ := (readCount (hash field)).getD 0

theorem fieldValue_of_counts {h : Hash} {field : String} {n : ℕ} (hc : Counts h field n)
    (hle : n ≤ maximumValue) : fieldValue h field = n := by
  rw [fieldValue,readCount_of_counts hc hle,Option.getD_some]

end Limits
