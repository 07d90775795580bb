import AiGateway.Gateway.PublicError

/-! The redacting log handler (`internal/observability/logging.go`). -/
namespace Observability

inductive Scalar where
  | bool (value : Bool)
  | duration (value : ℤ)
  | float64 (bits : ℕ)
  | int64 (value : ℤ)
  | string (value : String)
  | time (value : ℤ)
  | uint64 (value : ℕ)

mutual

/-- `slog.Value`. A log valuer is the name of its type and what `LogValue` returns (if that panics,
the error that `Resolve` makes of it); `any` is a value of another type that is no error. -/
inductive Value (α : Type) where
  | scalar (value : Scalar)
  | group (attributes : Attributes α)
  | error (text : String)
  | any (value : α)
  | valuer (type : String) (value : Value α)

/-- `[]slog.Attr` -/
inductive Attributes (α : Type) where
  | nil
  | cons (key : String) (value : Value α) (rest : Attributes α)

end

variable {α : Type}

def Value.isEmptyGroup : Value α → Bool
  | .group .nil => true
  | _ => false

/-- What `slog.GroupValue` and `Record.AddAttrs` keep. -/
def Attributes.dropEmpty : Attributes α → Attributes α
  | .nil => .nil
  | .cons key value rest =>
    if value.isEmptyGroup then rest.dropEmpty else .cons key value rest.dropEmpty

def RedactedValue : String := "[REDACTED]"

def redactedAny : String := "[REDACTED_COMPLEX_VALUE]"

def maxLogValues : ℕ := 100

section

variable (toLower : Char → Char) (tooMany : String → String)

def isSensitiveLogKey (key : String) : Bool :=
  let normalized := ((Text.trimSpace key).toList.map toLower).filter
    fun c => !(['_','-','.'].contains c)
  (["accesstoken","apikey","authorization","authheader","authtoken","bearertoken","cookie",
    "cookieheader","idtoken","password","prompt","providerkey","refreshtoken","response",
    "secret","sessiontoken","setcookie"].any fun suffix => suffix.toList.isSuffixOf normalized) ||
    normalized = "token".toList

mutual

/-- `redactAttribute` under a key that is not sensitive: `first` is the type of the valuer that
`Resolve` began with, `left` the turns of its loop, after which it gives the error `tooMany`. -/
def Value.redact (first : Option String) (left : ℕ) : Value α → Value α
  | .scalar value => .scalar value
  | .group attributes => .group attributes.redact.dropEmpty
  | .error text => .scalar (.string text)
  | .any _ => .scalar (.string redactedAny)
  | .valuer type value =>
    let first := first.getD type
    if left ≤ 1 then .scalar (.string (tooMany first))
    else value.redact first (left - 1)

/-- `redactAttribute` of each attribute -/
def Attributes.redact : Attributes α → Attributes α
  | .nil => .nil
  | .cons key value rest =>
    .cons key (if isSensitiveLogKey toLower key then .scalar (.string RedactedValue)
      else value.redact none maxLogValues) rest.redact

end

structure Record (α : Type) where
  (time level pc : ℤ)
  message : String
  attributes : Attributes α

def Handle (record : Record α) : Record α :=
  { record with attributes := (record.attributes.redact toLower tooMany).dropEmpty }

def WithAttrs (attributes : Attributes α) : Attributes α := attributes.redact toLower tooMany

structure Fields where
  (requestID traceID tenantID projectID : String)

/-- The record that `Logger.log` hands to the handler at `time`, called from `pc`. -/
def log (service version : String) (time level pc : ℤ) (message : String) (fields : Fields)
    (attributes : Attributes α) : Record α :=
  let base := [("service",service),("version",version),("requestId",fields.requestID),
    ("traceId",fields.traceID),("tenantId",fields.tenantID),("projectId",fields.projectID)]
  { time, level, pc, message
    attributes := (base.foldr (fun a => .cons a.1 (.scalar (.string a.2))) attributes).dropEmpty }

mutual

/-- The same shape, keys, scalars and errors, outside sensitive keys. -/
def Value.Alike : Value α → Value α → Prop
  | .scalar a, .scalar b => a = b
  | .group as, .group bs => as.Alike bs
  | .error a, .error b => a = b
  | .any _, .any _ => True
  | .valuer type a, .valuer type' b => type = type' ∧ a.Alike b
  | _, _ => False

/-- Under a sensitive key only the empty group is told apart, which a record drops. -/
def Attributes.Alike : Attributes α → Attributes α → Prop
  | .nil, .nil => True
  | .cons key a as, .cons key' b bs =>
    key = key' ∧ a.isEmptyGroup = b.isEmptyGroup ∧
      (isSensitiveLogKey toLower key = false → a.Alike b) ∧ as.Alike bs
  | _, _ => False

end

mutual

inductive Value.Clean : Value α → Prop
  | scalar (value : Scalar) : Value.Clean (.scalar value)
  | group {attributes} (h : Attributes.Clean attributes) : Value.Clean (.group attributes)

/-- Only scalars, in groups that are not empty, and under a sensitive key only `RedactedValue`. -/
inductive Attributes.Clean : Attributes α → Prop
  | nil : Attributes.Clean .nil
  | cons {key value rest} (hvalue : Value.Clean value) (hempty : value.isEmptyGroup = false)
      (hrest : Attributes.Clean rest)
      (hsecret : isSensitiveLogKey toLower key → value = .scalar (.string RedactedValue)) :
      Attributes.Clean (.cons key value rest)

end

variable {toLower tooMany}

theorem Attributes.Alike.dropEmpty : ∀ {as bs : Attributes α},
    as.Alike toLower bs → as.dropEmpty.Alike toLower bs.dropEmpty
  | .nil, .nil, h => h
  | .cons _ _ _, .cons _ _ _, ⟨hkey,hempty,hvalue,hrest⟩ => by
    have ih := hrest.dropEmpty
    unfold Attributes.dropEmpty
    rw [hempty]
    split
    · exact ih
    · exact ⟨hkey,hempty,hvalue,ih⟩

mutual

theorem Value.Alike.redact : ∀ {a b : Value α}, a.Alike toLower b → ∀ first left,
    a.redact toLower tooMany first left = b.redact toLower tooMany first left
  | .scalar _, .scalar _, h, _, _ => by rw [h]
  | .group _, .group _, h, _, _ => by
    simp only [Value.redact]
    rw [Attributes.Alike.redact h]
  | .error _, .error _, h, _, _ => by rw [h]
  | .any _, .any _, _, _, _ => rfl
  | .valuer _ _, .valuer _ _, ⟨htype,h⟩, _, _ => by
    subst htype
    simp only [Value.redact]
    rw [h.redact]

theorem Attributes.Alike.redact : ∀ {as bs : Attributes α}, as.Alike toLower bs →
    as.redact toLower tooMany = bs.redact toLower tooMany
  | .nil, .nil, _ => rfl
  | .cons key _ _, .cons _ _ _, ⟨hkey,_,hvalue,hrest⟩ => by
    subst hkey
    simp only [Attributes.redact]
    rw [hrest.redact]
    -- The value of a sensitive key is never looked at.
    by_cases hs : isSensitiveLogKey toLower key
    · rw [if_pos hs,if_pos hs]
    · rw [Bool.not_eq_true] at hs
      rw [(hvalue hs).redact]

end

/-- Neither a record nor the attributes of a derived handler depend on what is redacted. -/
theorem redacted_alike {as bs : Attributes α} (h : as.Alike toLower bs)
    (service version : String) (time level pc : ℤ) (message : String) (fields : Fields) :
    Handle toLower tooMany (log service version time level pc message fields as) =
      Handle toLower tooMany (log service version time level pc message fields bs) ∧
    WithAttrs toLower tooMany as = WithAttrs toLower tooMany bs := by
  have hlog : (log service version time level pc message fields as).attributes.Alike toLower
      (log service version time level pc message fields bs).attributes :=
    Attributes.Alike.dropEmpty (by simp [Attributes.Alike,Value.Alike,Value.isEmptyGroup,h])
  refine ⟨?_,h.redact⟩
  unfold Handle
  rw [hlog.redact]
  rfl

def sampleLogin (secret : String) : Attributes Unit :=
  .cons "login" (.group (.cons "X-Api_Key" (.scalar (.string secret)) .nil)) .nil

theorem sampleLogin_redacted :
    WithAttrs Char.toLower id (sampleLogin "a") = WithAttrs Char.toLower id (sampleLogin "b") := by
  have h : (sampleLogin "a").Alike Char.toLower (sampleLogin "b") := by
    have hkey : isSensitiveLogKey Char.toLower "X-Api_Key" := by decide +kernel
    simp [sampleLogin,Attributes.Alike,Value.Alike,Value.isEmptyGroup,hkey]
  exact (redacted_alike h "" "" 0 0 0 "" ⟨"","","",""⟩).2

mutual

theorem Value.redact_clean : ∀ (value : Value α) first left,
    (value.redact toLower tooMany first left).Clean toLower
  | .scalar _, _, _ | .error _, _, _ | .any _, _, _ => .scalar _
  | .group attributes, _, _ => .group attributes.redact_clean
  | .valuer _ value, first, left => by
    simp only [Value.redact]
    split
    · exact .scalar _
    · exact value.redact_clean _ _

theorem Attributes.redact_clean : ∀ attributes : Attributes α,
    (attributes.redact toLower tooMany).dropEmpty.Clean toLower
  | .nil => .nil
  | .cons key value rest => by
    simp only [Attributes.redact,Attributes.dropEmpty]
    by_cases hs : isSensitiveLogKey toLower key
    · rw [if_pos hs]
      exact .cons (.scalar _) rfl rest.redact_clean fun _ => rfl
    · rw [if_neg hs]
      split
      · exact rest.redact_clean
      · exact .cons (value.redact_clean _ _) (Bool.eq_false_iff.mpr ‹_›) rest.redact_clean
          fun h => absurd h hs

end

theorem Attributes.Clean.dropEmpty : ∀ {attributes : Attributes α}, attributes.Clean toLower →
    attributes.dropEmpty = attributes
  | .nil, _ => rfl
  | .cons _ _ _, .cons _ hempty hrest _ => by
    rw [Attributes.dropEmpty,hempty,hrest.dropEmpty]
    rfl

mutual

theorem Value.Clean.redact : ∀ {value : Value α}, value.Clean toLower → ∀ first left,
    value.redact toLower tooMany first left = value
  | .scalar _, _, _, _ => rfl
  | .group _, .group h, _, _ => by rw [Value.redact,h.redact,h.dropEmpty]

theorem Attributes.Clean.redact : ∀ {attributes : Attributes α}, attributes.Clean toLower →
    attributes.redact toLower tooMany = attributes
  | .nil, _ => rfl
  | .cons _ _ _, .cons hvalue _ hrest hsecret => by
    rw [Attributes.redact,hrest.redact,hvalue.redact]
    split
    · rw [hsecret ‹_›]
    · rfl

end

/-- `Handle` hands on clean records only, and changes no record that is clean. -/
theorem handle_clean (record : Record α) :
    (Handle toLower tooMany record).attributes.Clean toLower ∧
      (Handle toLower tooMany record = record ↔ record.attributes.Clean toLower) := by
  have hclean : (Handle toLower tooMany record).attributes.Clean toLower :=
    record.attributes.redact_clean
  refine ⟨hclean,fun h => h ▸ hclean,fun h => ?_⟩
  rw [Handle,h.redact,h.dropEmpty]

end
end Observability
