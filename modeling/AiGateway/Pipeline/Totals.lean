import AiGateway.Pipeline.Cost

/-! However events are redelivered, replayed and corrected, no usage is charged twice. -/
namespace Pipeline
open Machine Metering Ledger MeteringOutbox List Relational

variable {ι κ ω P H : Type} {stamp : Time → Time} {w : Wire ι H} {s : State ι κ ω P H}

/-- The tokens of one event. -/
structure Usage where
  (eventID tenantID requestID : String)
  attemptID : Option String
  tokenType : TokenType
  quantity : ℤ

def usageOf (e : UsageEvent) : Usage :=
  ⟨e.eventID,e.tenantID,e.requestID,some e.attemptID,e.tokenType,e.quantity⟩

/-- What was recorded with completions. -/
def State.used (s : State ι κ ω P H) : List Usage := s.originals.map usageOf

/-- What the consumers have charged. -/
def State.charged (s : State ι κ ω P H) : List Usage :=
  (s.tables.entries.filter LedgerEntry.original).map fun row =>
    ⟨row.eventID,row.tenantID,row.requestID,row.attemptID,row.tokenType,row.quantity⟩

theorem Sound.used_nodup (hs : Sound stamp w s) : s.used.Nodup := by
  apply Nodup.of_map fun u => (u.eventID,u.attemptID.getD "")
  rw [State.used,map_map]
  exact hs.unique

theorem Sound.charged_nodup (hs : Sound stamp w s) : s.charged.Nodup := by
  apply Nodup.of_map (·.eventID)
  rw [State.charged,map_map]
  exact hs.consumers.nodup.sublist (filter_sublist.map _)

theorem Sound.charged_subset (hs : Sound stamp w s) : s.charged ⊆ s.used := by
  intro u hu
  obtain ⟨row,hrow,rfl⟩ := mem_map.mp hu
  obtain ⟨hrow,horig⟩ := mem_filter.mp hrow
  obtain ⟨event,hsound⟩ := hs.consumers.entries row hrow horig
  obtain ⟨e,he,rfl⟩ := hsound.known
  obtain ⟨consumedAt,hfacts⟩ := hsound.facts
  rw [hfacts]
  exact mem_map.mpr ⟨e,he,rfl⟩

variable [DecidableEq ι] [DecidableEq κ] [DecidableEq ω] [DecidableEq P] [DecidableEq H]
  {options : ι → Options} {group : String} {deletes : Prop}

/-- Of any selection of usage no more is charged than was recorded, and as much only when all of it
is charged. -/
theorem reaches_totals (hw : w.Shows) (hstamp : ∀ t, stamp (stamp t) = stamp t)
    (h : Reaches stamp w options group deletes s) (p : Usage → Bool) :
    total (·.quantity) (s.charged.filter p) ≤ total (·.quantity) (s.used.filter p) ∧
    (total (·.quantity) (s.charged.filter p) = total (·.quantity) (s.used.filter p) ↔
      ∀ u ∈ s.used, p u → u ∈ s.charged) := by
  have hs := reaches_sound hw hstamp h
  have hpos : ∀ u ∈ s.used.filter p, 0 < u.quantity := by
    intro u hu
    obtain ⟨e,he,rfl⟩ := mem_map.mp (mem_filter.mp hu).1
    have hvalid := (hs.originals e he).valid
    simp only [UsageEvent.validate,Bool.and_eq_true,decide_eq_true_eq] at hvalid
    show 0 < e.quantity
    omega
  have hsubset : s.charged.filter p ⊆ s.used.filter p := filter_subset p hs.charged_subset
  obtain ⟨hle,heq⟩ := total_subset (hs.charged_nodup.filter p) hsubset hpos
  refine ⟨hle,fun htotal u hu hp => ?_,fun hall => hle.antisymm ?_⟩
  · exact (mem_filter.mp (heq htotal (mem_filter.mpr ⟨hu,hp⟩))).1
  · apply (total_subset (hs.used_nodup.filter p) ?_ fun u hu => hpos u (hsubset hu)).1
    intro u hu
    obtain ⟨hu,hp⟩ := mem_filter.mp hu
    exact mem_filter.mpr ⟨hall u hu hp,hp⟩

theorem shadowedState_totals : total (·.quantity) shadowedState.used = 17 ∧
    total (·.quantity) shadowedState.charged = 12 ∧ usageOf firstEvent ∈ shadowedState.charged :=
  ⟨by decide +kernel,by decide +kernel,
    (reaches_totals pairWire_shows toMicrosecond_toMicrosecond shadowedState_reaches
      fun u => u.tokenType = .input).2.mp (by decide +kernel) _ (mem_map_of_mem (by decide +kernel))
      rfl⟩

end Pipeline
