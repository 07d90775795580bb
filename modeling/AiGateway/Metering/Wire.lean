import AiGateway.Metering.Outbox
import AiGateway.Text.Json

/-! The wire form of a usage event: what `encoding/json` makes of it. -/
namespace Metering
open Text Machine Adapter List UsageEvent

def UsageEventKind.text : UsageEventKind → String
  | .observed => "usage.observed"
  | .estimated => "usage.estimated"
  | .other text => text

def TokenType.text : TokenType → String
  | .input => "input"
  | .output => "output"
  | .cacheRead => "cache_read"
  | .cacheWrite => "cache_write"
  | .reasoning => "reasoning"
  | .audioInput => "audio_input"
  | .audioOutput => "audio_output"
  | .imageInput => "image_input"
  | .imageOutput => "image_output"
  | .other text => text

def BillingUnit.text : BillingUnit → String
  | .token => "token"
  | .image => "image"
  | .second => "second"
  | .other text => text

def sourceText : UsageSource → String
  | .provider => "provider"
  | .estimated => "estimated"
  | .reconciled => "reconciled"
  | .adjustment => "adjustment"
  | .other text => text

def booleanText (b : Bool) : List Char := if b then "true".toList else "false".toList

def estimateText (metadata : UsageEstimateMetadata) : List Char :=
  object [("estimated",booleanText metadata.estimated),("tokenizer",quote metadata.tokenizer),
    ("tokenizer_version",quote metadata.tokenizerVersion),
    ("physical_model",quote metadata.physicalModel),
    ("deployment_version",integerText metadata.deploymentVersion),
    ("provider_protocol_version",quote metadata.providerProtocolVersion)]

/-- The members of an event, with the text of its time. -/
def eventMembers (event : UsageEvent) (observedAt : String) : List (String × List Char) :=
  [("event_id",quote event.eventID),("schema_version",integerText event.schemaVersion),
    ("kind",quote event.kind.text),("tenant_id",quote event.tenantID),
    ("request_id",quote event.requestID),("attempt_id",quote event.attemptID),
    ("deployment_id",quote event.deploymentID),("token_type",quote event.tokenType.text),
    ("billing_unit",quote event.billingUnit.text),("quantity",integerText event.quantity),
    ("source",quote (sourceText event.source)),
    ("usage_complete",booleanText event.usageComplete)] ++
  (event.estimate.map fun metadata => ("estimate",estimateText metadata)).toList ++
  [("observed_at",quote observedAt),("trace_id",quote event.traceID),("span_id",quote event.spanID)]

/-- `json.Marshal` -/
def marshal (event : UsageEvent) (observedAt : String) : String :=
  String.ofList (object (eventMembers event observedAt))

/-! A valid event is short. -/

theorem booleanText_length (b : Bool) : (booleanText b).length ≤ 5 := by
  cases b <;> decide

variable {metadata : UsageEstimateMetadata}

theorem estimateText_length (h : metadata.validate = .ok ())
    (hver : metadata.deploymentVersion < 2 ^ 63) : (estimateText metadata).length ≤ 5000 := by
  obtain ⟨htokenizer,htokenizerVersion,hmodel,hpos,hproto⟩ :=
    estimateMetadataValid_of_validate h
  have hmembers := members_length (k := 25) [("estimated",booleanText metadata.estimated),
    ("tokenizer",quote metadata.tokenizer),("tokenizer_version",quote metadata.tokenizerVersion),
    ("physical_model",quote metadata.physicalModel),
    ("deployment_version",integerText metadata.deploymentVersion),
    ("provider_protocol_version",quote metadata.providerProtocolVersion)] (by
      show ∀ key ∈ ["estimated","tokenizer","tokenizer_version","physical_model",
        "deployment_version","provider_protocol_version"], key.toList.length ≤ 25
      decide)
  have h1 := booleanText_length metadata.estimated
  have h2 := quote_length_le (isWord_length_le htokenizer)
  have h3 := quote_length_le (isWord_length_le htokenizerVersion)
  have h4 := quote_length_le (isWord_length_le hmodel)
  have h5 := integerText_length (by decide) hpos.le
    (hver.trans (by norm_num : (2 : ℤ) ^ 63 < 10 ^ 19))
  have h6 := quote_length_le (isWord_length_le hproto)
  simp only [map_cons,map_nil,sum_cons,sum_nil,length_cons,length_nil] at hmembers
  simp only [estimateText,object,length_append,length_cons,length_nil]
  omega

variable {event : UsageEvent}

theorem enumerations_length (h : event.validate) :
    (quote event.kind.text).length ≤ 20 ∧ (quote event.tokenType.text).length ≤ 20 ∧
      (quote event.billingUnit.text).length ≤ 20 ∧
      (quote (sourceText event.source)).length ≤ 20 := by
  simp only [validate,Bool.and_eq_true,decide_eq_true_eq] at h
  obtain ⟨⟨⟨⟨⟨⟨-,htype⟩,hunit⟩,-⟩,-⟩,hkind⟩,-⟩ := h
  refine ⟨?_,?_,?_,?_⟩
  · cases hevent : event.kind with
    | observed => decide
    | estimated => decide
    | other text => cases hsrc : event.source <;> simp_all [gatewayUsageKind]
  · cases hevent : event.tokenType <;> simp_all [TokenType.valid] <;> decide
  · rw [hunit]
    decide
  · cases hevent : event.source with
    | other text => simp [hevent,gatewayUsageKind] at hkind
    | _ => decide

theorem estimate_of_validate (h : event.validate) (hest : event.estimate = some metadata) :
    metadata.validate = .ok () := by
  simp only [validate,Bool.and_eq_true] at h
  have hvalid := h.2
  rw [estimateValid,hest] at hvalid
  split_ifs at hvalid
  · cases hvalid
  · exact passes_iff.mp hvalid
  · cases hvalid

variable {observedAt : String}

section
variable (h : event.validate)
  (hver : ∀ metadata ∈ event.estimate, metadata.deploymentVersion < 2 ^ 63)
  (htime : observedAt.toList.length ≤ 64)
include h hver htime

theorem marshal_length : (marshal event observedAt).toList.length ≤ 12000 := by
  obtain ⟨hkind,htype,hunit,hsrc⟩ := enumerations_length h
  have hest : ∀ metadata ∈ event.estimate, (estimateText metadata).length ≤ 5000 :=
    fun metadata hmem => estimateText_length (estimate_of_validate h hmem) (hver metadata hmem)
  simp only [validate,UsageIdentity.validate,identity,Bool.and_eq_true,Bool.or_eq_true] at h
  obtain ⟨⟨⟨⟨⟨⟨⟨⟨hschema,heventID⟩,hident⟩,-⟩,-⟩,hleast⟩,hmost⟩,-⟩,-⟩ := h
  obtain ⟨⟨⟨⟨⟨⟨htenant,hreq⟩,hatt⟩,hdep⟩,htrace⟩,hspan⟩,-⟩ := hident
  have h1 := quote_length_le (isUUID_length heventID).le
  have h2 : (integerText event.schemaVersion).length ≤ 1 := by
    rcases hschema with hschema | hschema <;> rw [of_decide_eq_true hschema] <;> decide
  have h3 := quote_length_le (isUUID_length htenant).le
  have h4 := quote_length_le (isWord_length_le hreq)
  have h5 := quote_length_le (isUUID_length hatt).le
  have h6 := quote_length_le (isUUID_length hdep).le
  have h7 : (integerText event.quantity).length ≤ 16 := by
    have hleast := of_decide_eq_true hleast
    have hmost := of_decide_eq_true hmost
    unfold maximumExactInteger at hmost
    exact integerText_length (by decide) (by omega) (by omega)
  have h8 := booleanText_length event.usageComplete
  have h9 := quote_length_le htime
  have h10 := quote_length_le (isWord_length_le htrace)
  have h11 := quote_length_le (isWord_length_le hspan)
  have hkeys : ∀ key ∈ (eventMembers event observedAt).map Prod.fst, key.toList.length ≤ 16 := by
    rw [eventMembers,map_append,map_append,forall_mem_append,forall_mem_append]
    refine ⟨⟨?_,?_⟩,?_⟩
    · show ∀ key ∈ ["event_id","schema_version","kind","tenant_id","request_id","attempt_id",
        "deployment_id","token_type","billing_unit","quantity","source","usage_complete"],
        key.toList.length ≤ 16
      decide
    · cases event.estimate with
      | none => exact forall_mem_nil _
      | some metadata =>
        show ∀ key ∈ ["estimate"], key.toList.length ≤ 16
        decide
    · show ∀ key ∈ ["observed_at","trace_id","span_id"], key.toList.length ≤ 16
      decide
  have hmembers := members_length _ hkeys
  rw [marshal,String.toList_ofList,object,length_append,length_cons,length_singleton]
  cases hevent : event.estimate with
  | none =>
    simp only [eventMembers,hevent,Option.map_none,Option.toList_none,append_nil,cons_append,
      nil_append,map_cons,map_nil,sum_cons,sum_nil,length_cons,length_nil] at hmembers ⊢
    omega
  | some metadata =>
    have hlen := hest metadata hevent
    simp only [eventMembers,hevent,Option.map_some,Option.toList_some,cons_append,nil_append,
      map_cons,map_nil,sum_cons,sum_nil,length_cons,length_nil] at hmembers ⊢
    omega

theorem marshal_size : 0 < (marshal event observedAt).utf8ByteSize ∧
    (marshal event observedAt).utf8ByteSize ≤ 65536 := by
  constructor
  · rw [← String.utf8Len_toList,marshal,String.toList_ofList,object,cons_append,String.utf8Len_cons]
    have hbrace := Char.utf8Size_pos '\x7b'
    omega
  · have hbytes := utf8ByteSize_le (marshal event observedAt)
    have hlen := marshal_length h hver htime
    omega

end
end Metering
