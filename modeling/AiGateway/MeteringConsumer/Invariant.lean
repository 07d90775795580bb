import AiGateway.MeteringConsumer.Sessions

/-! What holds of the consumers between any two steps. -/
namespace MeteringConsumer
open Machine Adapter Metering Ledger Function List

variable {ι P π H : Type}

/-- The record was processed: its content is recorded. -/
def Processed (codec : Codec π H) (topic : P → List (Record π))
    (receipts : List (Receipt H)) (p : P) (offset : ℕ) : Prop :=
  ∃ record, (topic p)[offset]? = some record ∧ ∃ event fingerprint,
    canonicalUsageEvent codec record.key record.value = .ok (event,fingerprint) ∧
    ∃ receipt ∈ receipts, receipt.eventID = event.eventID ∧ receipt.payloadSHA256 = fingerprint

/-- A receipt holds the content of the event. -/
structure RecordedAs (codec : Codec π H) (receipts : List (Receipt H)) (event : UsageEvent) :
    Prop where
  valid : event.validate
  receipt : ∃ receipt ∈ receipts, receipt.eventID = event.eventID ∧
    codec.fingerprint event = some receipt.payloadSHA256

/-- Whatever lies before the position or before a fetched record is done or fetched, and each
partition is fetched in its order. -/
structure Covered (done : P → ℕ → Prop) (position : P → ℕ) (items : List (P × ℕ)) : Prop where
  reached : ∀ p o, o < position p → done p o ∨ (p,o) ∈ items
  fetched : ∀ item ∈ items, ∀ o < item.2, done item.1 o ∨ (item.1,o) ∈ items
  ordered : items.Pairwise fun a b => a.1 = b.1 → a.2 < b.2

/-- The price was selected from tables of the past. -/
def Selected (stamp : Time → Time) (seen : Set (Tables H)) (event : UsageEvent)
    (priceVersionID : String) (amountMicros : ℤ) : Prop :=
  ∃ tables ∈ seen, ∃ rate, selectEffectiveRate stamp tables event = .ok (priceVersionID,rate) ∧
    calculateAmountMicros event.quantity rate = .ok amountMicros

/-- The content of a delivery. -/
structure Content (codec : Codec π H) (known : Set UsageEvent) (topic : P → List (Record π))
    (delivery : Delivery P) (event : UsageEvent) (fingerprint : H) : Prop where
  known : event ∈ known
  encoded : codec.fingerprint event = some fingerprint
  valid : event.validate
  carried : ∀ p offset, delivery = .record p offset → ∃ record, (topic p)[offset]? = some record ∧
    canonicalUsageEvent codec record.key record.value = .ok (event,fingerprint)

def Delivery.items : Delivery P → List (P × ℕ)
  | .direct => []
  | .record p offset => [(p,offset)]

/-- The record that a call of `Process` is about. -/
def Phase.items : Phase P H → List (P × ℕ)
  | .idle | .acknowledging _ _ => []
  | .received delivery _ _ _ | .replaying delivery _ _ | .holding delivery _ _ _
  | .priced delivery _ _ _ _ _ => delivery.items

section Sound
variable (stamp : Time → Time) (codec : Codec π H) (seen : Set (Tables H)) (known : Set UsageEvent)

def PhaseSound (topic : P → List (Record π)) (receipts : List (Receipt H)) : Phase P H → Prop
  | .idle => True
  | .received delivery event fingerprint _ => Content codec known topic delivery event fingerprint
  | .replaying delivery event fingerprint => Content codec known topic delivery event fingerprint ∧
      event.eventID ∈ receipts.map (·.eventID)
  | .holding delivery event fingerprint _ => Content codec known topic delivery event fingerprint
  | .priced delivery event fingerprint _ priceVersionID amountMicros =>
      Content codec known topic delivery event fingerprint ∧
        Selected stamp seen event priceVersionID amountMicros
  | .acknowledging p offset => ∀ o ≤ offset, Processed codec topic receipts p o

structure SessionSound (topic : P → List (Record π)) (receipts : List (Receipt H))
    (session : Session P H) : Prop where
  phase : PhaseSound stamp codec seen known topic receipts session.phase
  loop : ∀ loop, session.loop = some loop →
    Covered (Processed codec topic receipts) loop.position (session.phase.items ++ loop.batch)
  running : session.loop = none → session.phase.items = []

/-- A payload with this key carries a known event, if any. -/
def Carries (key : String) (payload : π) : Prop :=
  ∀ event fingerprint, canonicalUsageEvent codec key payload = .ok (event,fingerprint) →
    event ∈ known

/-- An entry of the ledger belongs to a recorded event and has the amount of a selected rate. -/
structure EntrySound (receipts : List (Receipt H)) (entry : LedgerEntry) (event : UsageEvent) :
    Prop where
  known : event ∈ known
  recorded : RecordedAs codec receipts event
  selected : Selected stamp seen event entry.priceVersionID entry.amountMicros
  facts : ∃ consumedAt,
    entry = entryOf stamp event consumedAt entry.priceVersionID entry.amountMicros

/-- A successful call returned what the ledger holds. -/
def CallSound (tables : Tables H) (call : UsageEvent × Except ConsumerError Result) : Prop :=
  ∀ result, call.2 = .ok result → RecordedAs codec tables.receipts call.1 ∧
    ∃ entry ∈ tables.entries, entry.eventID = call.1.eventID ∧
      result.priceVersionID = entry.priceVersionID ∧ result.amountMicros = entry.amountMicros

structure Sound (s : System ι P π H) : Prop where
  both : s.tables.receipts.map (·.eventID) =
    (s.tables.entries.filter LedgerEntry.original).map (·.eventID)
  nodup : (s.tables.entries.map (·.eventID)).Nodup
  locked : ∀ i eventID, (s.sessions i).phase.lock = some eventID → (eventID,i) ∈ s.locks
  lockIDs : (s.locks.map Prod.fst).Nodup
  free : ∀ eventID ∈ s.locks.map Prod.fst, eventID ∉ s.tables.receipts.map (·.eventID)
  entries : ∀ entry ∈ s.tables.entries, entry.original → ∃ event,
    EntrySound stamp codec seen known s.tables.receipts entry event
  sessions : ∀ i, SessionSound stamp codec seen known s.topic s.tables.receipts (s.sessions i)
  committed : ∀ p o, o < s.committed p → Processed codec s.topic s.tables.receipts p o
  log : ∀ call ∈ s.log, CallSound codec s.tables call
  topic : ∀ p, ∀ record ∈ s.topic p, Carries codec known record.key record.value

end Sound

/-! What is known stays known. -/

variable {p : P} {offset : ℕ}

section Monotone
variable {stamp : Time → Time} {codec : Codec π H} {seen seen' : Set (Tables H)}
  {known known' : Set UsageEvent} {topic topic' : P → List (Record π)}
  {receipts receipts' : List (Receipt H)}

theorem Processed.mono (htopic : ∀ p, topic p <+: topic' p) (hrcpts : receipts <+: receipts')
    (h : Processed codec topic receipts p offset) : Processed codec topic' receipts' p offset := by
  obtain ⟨record,hrecord,event,fingerprint,hcanon,receipt,hrcpt,hfacts⟩ := h
  obtain ⟨more,hmore⟩ := htopic p
  refine ⟨record,?_,event,fingerprint,hcanon,receipt,hrcpts.subset hrcpt,hfacts⟩
  rw [← hmore,List.getElem?_append_left (List.getElem?_eq_some_iff.mp hrecord).1]
  exact hrecord

theorem Covered.mono {done done' : P → ℕ → Prop} {position : P → ℕ} {items : List (P × ℕ)}
    (h : Covered done position items) (hdone : ∀ p o, done p o → done' p o) :
    Covered done' position items :=
  ⟨fun p o ho => (h.reached p o ho).imp_left (hdone p o),
    fun item hitem o ho => (h.fetched item hitem o ho).imp_left (hdone _ o),h.ordered⟩

variable {event : UsageEvent}

theorem Selected.mono (hseen : seen ⊆ seen') {priceVersionID : String}
    {amountMicros : ℤ} (h : Selected stamp seen event priceVersionID amountMicros) :
    Selected stamp seen' event priceVersionID amountMicros := by
  obtain ⟨tables,htables,hrate⟩ := h
  exact ⟨tables,hseen htables,hrate⟩

theorem Content.mono (hknown : known ⊆ known') (htopic : ∀ p, topic p <+: topic' p)
    {delivery : Delivery P} {fingerprint : H}
    (h : Content codec known topic delivery event fingerprint) :
    Content codec known' topic' delivery event fingerprint := by
  refine ⟨hknown h.known,h.encoded,h.valid,?_⟩
  intro p offset hdeliv
  obtain ⟨record,hrecord,hcanon⟩ := h.carried p offset hdeliv
  obtain ⟨more,hmore⟩ := htopic p
  refine ⟨record,?_,hcanon⟩
  rw [← hmore,List.getElem?_append_left (List.getElem?_eq_some_iff.mp hrecord).1]
  exact hrecord

section
variable (hseen : seen ⊆ seen') (hknown : known ⊆ known') (htopic : ∀ p, topic p <+: topic' p)
  (hrcpts : receipts <+: receipts')
include hseen hknown htopic hrcpts

theorem PhaseSound.mono {phase : Phase P H}
    (h : PhaseSound stamp codec seen known topic receipts phase) :
    PhaseSound stamp codec seen' known' topic' receipts' phase := by
  cases phase with
  | idle => trivial
  | received delivery event fingerprint consumedAt => exact Content.mono hknown htopic h
  | replaying delivery event fingerprint =>
    exact ⟨h.1.mono hknown htopic,(hrcpts.map _).subset h.2⟩
  | holding delivery event fingerprint consumedAt => exact Content.mono hknown htopic h
  | priced delivery event fingerprint consumedAt priceVersionID amountMicros =>
    exact ⟨h.1.mono hknown htopic,h.2.mono hseen⟩
  | acknowledging p offset => exact fun o ho => (h o ho).mono htopic hrcpts

theorem SessionSound.mono {session : Session P H}
    (h : SessionSound stamp codec seen known topic receipts session) :
    SessionSound stamp codec seen' known' topic' receipts' session :=
  ⟨h.phase.mono hseen hknown htopic hrcpts,
    fun loop hloop => (h.loop loop hloop).mono fun _ _ => Processed.mono htopic hrcpts,
    h.running⟩

end

theorem RecordedAs.mono (hrcpts : receipts <+: receipts') (h : RecordedAs codec receipts event) :
    RecordedAs codec receipts' event := by
  obtain ⟨receipt,hrcpt,hfacts⟩ := h.receipt
  exact ⟨h.valid,receipt,hrcpts.subset hrcpt,hfacts⟩

theorem EntrySound.mono (hseen : seen ⊆ seen') (hknown : known ⊆ known')
    (hrcpts : receipts <+: receipts') {entry : LedgerEntry}
    (h : EntrySound stamp codec seen known receipts entry event) :
    EntrySound stamp codec seen' known' receipts' entry event :=
  ⟨hknown h.known,h.recorded.mono hrcpts,h.selected.mono hseen,h.facts⟩

theorem CallSound.mono {tables tables' : Tables H} (hrcpts : tables.receipts <+: tables'.receipts)
    (hentries : tables.entries <+: tables'.entries)
    {call : UsageEvent × Except ConsumerError Result}
    (h : CallSound codec tables call) : CallSound codec tables' call := by
  intro result hres
  obtain ⟨hrec,entry,hentry,hfacts⟩ := h result hres
  exact ⟨hrec.mono hrcpts,entry,hentries.subset hentry,hfacts⟩

theorem Sound.mono {s : System ι P π H} (hseen : seen ⊆ seen') (hknown : known ⊆ known')
    (hs : Sound stamp codec seen known s) : Sound stamp codec seen' known' s := by
  refine { hs with entries := ?_, sessions := ?_, topic := ?_ }
  · intro entry hentry horig
    obtain ⟨event,hsound⟩ := hs.entries entry hentry horig
    exact ⟨event,hsound.mono hseen hknown (prefix_refl _)⟩
  · exact fun i =>
      (hs.sessions i).mono hseen hknown (fun p => prefix_refl _) (prefix_refl _)
  · exact fun p record hrecord event fingerprint h =>
      hknown (hs.topic p record hrecord event fingerprint h)

end Monotone

/-! The loop. -/

section Loop
variable {done : P → ℕ → Prop} {position : P → ℕ} {items : List (P × ℕ)}

section
variable (h : Covered done position ((p,offset) :: items)) (hdone : done p offset)
include h hdone

theorem Covered.head : ∀ o ≤ offset, done p o := by
  intro o ho
  rcases Nat.lt_or_ge o offset with hlt | hge
  · rcases h.fetched _ mem_cons_self o hlt with hbefore | hitem
    · exact hbefore
    · rcases mem_cons.mp hitem with heq | hlater
      · cases heq
        exact hdone
      · have hafter := (pairwise_cons.mp h.ordered).1 _ hlater rfl
        exact absurd hafter (by omega)
  · rw [Nat.le_antisymm ho hge]
    exact hdone

theorem Covered.tail : Covered done position items := by
  have hdrop : ∀ {q : P} {o : ℕ}, done q o ∨ (q,o) ∈ (p,offset) :: items →
      done q o ∨ (q,o) ∈ items := by
    intro q o hcase
    rcases hcase with hcase | hcase
    · exact .inl hcase
    · rcases mem_cons.mp hcase with heq | hlater
      · cases heq
        exact .inl hdone
      · exact .inr hlater
  exact ⟨fun q o ho => hdrop (h.reached q o ho),
    fun item hitem o ho => hdrop (h.fetched item (mem_cons_of_mem _ hitem) o ho),
    (pairwise_cons.mp h.ordered).2⟩

end

variable [DecidableEq P]

theorem Covered.assign (h : Covered done position items) (hdone : ∀ o < offset, done p o) :
    Covered done (update position p offset) items := by
  refine ⟨?_,h.fetched,h.ordered⟩
  intro q o ho
  by_cases hq : q = p
  · rw [hq,update_self] at ho
    exact .inl (hq ▸ hdone o ho)
  · rw [update_of_ne hq] at ho
    exact h.reached q o ho

theorem Covered.fetch (topic : P → List (Record π)) (partitions : List P) {loop : Loop P}
    (h : Covered done loop.position loop.batch)
    (hbefore : ∀ item ∈ loop.batch, item.2 < loop.position item.1) :
    Covered done (Loop.fetch topic partitions loop).position
      (Loop.fetch topic partitions loop).batch := by
  induction partitions generalizing loop with
  | nil => exact h
  | cons p partitions ih =>
    unfold Loop.fetch
    split
    · apply ih
      · refine ⟨?_,?_,?_⟩
        · intro q o ho
          by_cases hq : q = p
          · rw [hq] at ho ⊢
            simp only [update_self] at ho
            rcases Nat.lt_succ_iff_lt_or_eq.mp ho with hlt | heq
            · exact (h.reached p o hlt).imp_right (mem_append_left _)
            · rw [heq]
              exact .inr (mem_append_right _ mem_cons_self)
          · simp only [update_of_ne hq] at ho
            exact (h.reached q o ho).imp_right (mem_append_left _)
        · intro item hitem o ho
          rcases mem_append.mp hitem with hitem | hitem
          · exact (h.fetched item hitem o ho).imp_right (mem_append_left _)
          · rw [mem_singleton.mp hitem] at ho ⊢
            exact (h.reached p o ho).imp_right (mem_append_left _)
        · rw [pairwise_append]
          refine ⟨h.ordered,pairwise_singleton _ _,?_⟩
          intro item hitem new hnew heq
          rw [mem_singleton.mp hnew] at heq ⊢
          have hlt := hbefore item hitem
          rwa [heq] at hlt
      · intro item hitem
        rcases mem_append.mp hitem with hitem | hitem
        · have hlt := hbefore item hitem
          by_cases hp : item.1 = p
          · rw [hp] at hlt ⊢
            simp only [update_self]
            omega
          · simp only [update_of_ne hp]
            exact hlt
        · rw [mem_singleton.mp hitem]
          simp
    · exact ih h hbefore

end Loop
end MeteringConsumer
