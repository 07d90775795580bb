import AiGateway.MeteringConsumer.Invariant

/-! Every step of the consumers keeps the invariant. -/
namespace MeteringConsumer
open Machine Adapter Metering Execution Ledger Function List LedgerEntry

variable {ι P π H : Type} [DecidableEq ι] {stamp : Time → Time} {codec : Codec π H}
  {group : String} {seen : Set (Tables H)} {known : Set UsageEvent} {s : System ι P π H} {i : ι}

/-! What the steps are made of. -/

variable {session : Session P H}

theorem Sound.enter (hs : Sound stamp codec seen known s)
    (hlock : session.phase.lock = (s.sessions i).phase.lock)
    (hsess : SessionSound stamp codec seen known s.topic s.tables.receipts session) :
    Sound stamp codec seen known (s.enter i session) := by
  refine { hs with locked := ?_, sessions := ?_ }
  · intro j eventID hj
    by_cases hji : j = i
    · rw [hji] at hj ⊢
      simp only [System.enter,update_self,hlock] at hj
      exact hs.locked i eventID hj
    · simp only [System.enter,update_of_ne hji] at hj
      exact hs.locked j eventID hj
  · intro j
    by_cases hji : j = i
    · rw [hji]
      simpa only [System.enter,update_self] using hsess
    · simpa only [System.enter,update_of_ne hji] using hs.sessions j

variable (s i session) in
/-- The transaction ends, and calls return. -/
def System.settle (calls : List (UsageEvent × Except ConsumerError Result)) : System ι P π H :=
  { s.enter i session with
    locks := s.locks.filter fun lock => lock.2 ≠ i
    log := s.log ++ calls }

open MeteringConsumer.System

theorem Sound.settle (hs : Sound stamp codec seen known s)
    {calls : List (UsageEvent × Except ConsumerError Result)} (hlock : session.phase.lock = none)
    (hsess : SessionSound stamp codec seen known s.topic s.tables.receipts session)
    (hcalls : ∀ call ∈ calls, CallSound codec s.tables call) :
    Sound stamp codec seen known (s.settle i session calls) := by
  have hsub : (s.settle i session calls).locks.Sublist s.locks := filter_sublist
  refine ⟨hs.both,hs.nodup,?_,?_,?_,hs.entries,?_,hs.committed,?_,hs.topic⟩
  · intro j eventID hj
    by_cases hji : j = i
    · rw [hji] at hj
      simp only [System.settle,System.enter,update_self,hlock] at hj
      cases hj
    · simp only [System.settle,System.enter,update_of_ne hji] at hj
      exact mem_filter.mpr ⟨hs.locked j eventID hj,by simpa using hji⟩
  · exact (hsub.map _).nodup hs.lockIDs
  · exact fun eventID heventID => hs.free eventID ((hsub.map _).subset heventID)
  · intro j
    by_cases hji : j = i
    · rw [hji]
      simpa only [System.settle,System.enter,update_self] using hsess
    · simpa only [System.settle,System.enter,update_of_ne hji] using hs.sessions j
  · show ∀ call ∈ s.log ++ calls, CallSound codec s.tables call
    rw [forall_mem_append]
    exact ⟨hs.log,hcalls⟩

theorem sessionSound_stopped (topic : P → List (Record π)) (receipts : List (Receipt H)) :
    SessionSound stamp codec seen known topic receipts ⟨.idle,none⟩ :=
  ⟨trivial,(fun _ hloop => nomatch hloop),fun _ => rfl⟩

theorem System.stop_eq (s : System ι P π H) (i : ι) : s.stop i = s.settle i ⟨.idle,none⟩ [] := by
  simp [stop,settle,enter]

theorem Sound.stop (hs : Sound stamp codec seen known s) :
    Sound stamp codec seen known (s.stop i) := by
  rw [stop_eq]
  exact hs.settle rfl (sessionSound_stopped _ _) (by simp)

/-- Where a call ends. -/
def ended (delivery : Delivery P) (loop : Option (Loop P)) : Except ConsumerError Result →
    Session P H
  | .error _ => ⟨.idle,none⟩
  | .ok _ => match delivery with
    | .direct => ⟨.idle,loop⟩
    | .record p offset => ⟨.acknowledging p offset,loop⟩

theorem System.finish_eq (s : System ι P π H) (i : ι) (delivery : Delivery P) (event : UsageEvent)
    (outcome : Except ConsumerError Result) : s.finish i delivery event outcome =
      s.settle i (ended delivery (s.sessions i).loop outcome) [(event,outcome)] := by
  cases outcome with
  | error e => rfl
  | ok result => cases delivery <;> rfl

theorem Sound.finish_error (hs : Sound stamp codec seen known s) (delivery : Delivery P)
    (event : UsageEvent) (e : ConsumerError) :
    Sound stamp codec seen known (s.finish i delivery event (.error e)) := by
  rw [finish_eq]
  apply hs.settle rfl (sessionSound_stopped _ _)
  simp [CallSound]

variable {topic : P → List (Record π)} {receipts : List (Receipt H)}

theorem sessionSound_ended
    {delivery : Delivery P} {event : UsageEvent} {fingerprint : H} {loop : Option (Loop P)}
    (hcont : Content codec known topic delivery event fingerprint)
    (hloop : ∀ l, loop = some l →
      Covered (Processed codec topic receipts) l.position (delivery.items ++ l.batch))
    (hrun : loop = none → delivery.items = [])
    (hrec : RecordedAs codec receipts event) (result : Result) :
    SessionSound stamp codec seen known topic receipts (ended delivery loop (.ok result)) := by
  cases delivery with
  | direct => exact ⟨trivial,hloop,fun _ => rfl⟩
  | record p offset =>
    have hdone : Processed codec topic receipts p offset := by
      obtain ⟨record,hrecord,hcanon⟩ := hcont.carried p offset rfl
      obtain ⟨receipt,hrcpt,hid,hsha⟩ := hrec.receipt
      rw [hcont.encoded,Option.some.injEq] at hsha
      exact ⟨record,hrecord,event,fingerprint,hcanon,receipt,hrcpt,hid,hsha.symm⟩
    cases loop with
    | none => cases hrun rfl
    | some l =>
      have hcovered := hloop l rfl
      refine ⟨hcovered.head hdone,?_,fun h => by cases h⟩
      intro l' hl'
      cases hl'
      exact hcovered.tail hdone

theorem Sound.finish_ok (hs : Sound stamp codec seen known s) {delivery : Delivery P}
    {event : UsageEvent} {fingerprint : H} {result : Result}
    (hcont : Content codec known s.topic delivery event fingerprint)
    (hitems : (s.sessions i).phase.items = delivery.items)
    (hcall : CallSound codec s.tables (event,.ok result)) :
    Sound stamp codec seen known (s.finish i delivery event (.ok result)) := by
  have hsess := hs.sessions i
  rw [finish_eq]
  apply hs.settle
  · cases delivery <;> rfl
  · apply sessionSound_ended hcont
    · exact fun l hl => hitems ▸ hsess.loop l hl
    · exact fun hloop => hitems ▸ hsess.running hloop
    · exact (hcall result rfl).1
  · simpa using hcall

/-! The steps. -/

theorem loadReplay_eq_ok [DecidableEq H] {db : Tables H} {eventID : String} {fingerprint : H}
    {result : Result} (h : loadReplay db eventID fingerprint = .ok result) :
    (∃ receipt ∈ db.receipts, receipt.eventID = eventID ∧ receipt.payloadSHA256 = fingerprint) ∧
      ∃ entry ∈ db.entries, entry.eventID = eventID ∧
        result = ⟨eventID,entry.priceVersionID,entry.amountMicros,false,true⟩ := by
  unfold loadReplay at h
  split at h
  · rename_i receipt entry hrcpt hentry
    split at h
    · cases h
    · rename_i hsame
      cases h
      have hid := find?_some hrcpt
      have hid' := find?_some hentry
      simp only [decide_eq_true_eq] at hid hid'
      exact ⟨⟨receipt,mem_of_find?_eq_some hrcpt,hid,not_not.mp hsame⟩,entry,
        mem_of_find?_eq_some hentry,hid',rfl⟩
  · cases h

theorem Sound.replay [DecidableEq H] (hs : Sound stamp codec seen known s) (reply : Reply) :
    Sound stamp codec seen known (s.replay i reply) := by
  unfold System.replay
  split
  · rename_i delivery event fingerprint hphase
    have hsess := (hs.sessions i).phase
    rw [hphase] at hsess
    split
    · exact hs.finish_error delivery event _
    · rename_i result hreplay
      split
      · apply hs.finish_ok hsess.1
        · rw [hphase]
          rfl
        · intro r hr
          cases hr
          obtain ⟨⟨receipt,hrcpt,hid,hsha⟩,entry,hentry,hentryID,rfl⟩ :=
            loadReplay_eq_ok hreplay
          exact ⟨⟨hsess.1.valid,receipt,hrcpt,hid,hsha ▸ hsess.1.encoded⟩,entry,
            hentry,hentryID,rfl,rfl⟩
      · exact hs.finish_error delivery event _
  · exact hs

theorem SessionSound.phase_change (h : SessionSound stamp codec seen known topic receipts session)
    {phase : Phase P H} (hitems : phase.items = session.phase.items)
    (hphase : PhaseSound stamp codec seen known topic receipts phase) :
    SessionSound stamp codec seen known topic receipts ⟨phase,session.loop⟩ :=
  ⟨hphase,fun loop hloop => hitems ▸ h.loop loop hloop,fun hloop => hitems ▸ h.running hloop⟩

section
variable (hs : Sound stamp codec seen known s)
include hs

theorem Sound.select (hseen : s.tables ∈ seen) :
    Sound stamp codec seen known (s.select stamp i) := by
  unfold System.select
  split
  · rename_i delivery event fingerprint consumedAt hphase
    have hsess := hs.sessions i
    have hcont := hsess.phase
    rw [hphase] at hcont
    split
    · exact hs.finish_error delivery event _
    · rename_i priceVersionID rate hselect
      split
      · exact hs.finish_error delivery event _
      · rename_i amountMicros hamt
        apply hs.enter
        · rw [hphase]
          rfl
        · apply hsess.phase_change
          · rw [hphase]
            rfl
          · exact ⟨hcont,s.tables,hseen,rate,hselect,hamt⟩
  · exact hs

theorem Sound.receipt : Sound stamp codec seen known (s.receipt stamp group i) := by
  unfold System.receipt
  split
  · rename_i delivery event fingerprint consumedAt hphase
    have hsess := hs.sessions i
    have hcont := hsess.phase
    rw [hphase] at hcont
    split_ifs with hchecks hwaits hrec
    · exact hs.finish_error delivery event _
    · exact hs
    · apply hs.enter
      · rw [hphase]
        rfl
      · apply hsess.phase_change
        · rw [hphase]
          rfl
        · exact ⟨hcont,hrec⟩
    · -- the transaction now has the receipt, so others wait for it
      have hsess' : SessionSound stamp codec seen known s.topic s.tables.receipts
          ⟨.holding delivery event fingerprint consumedAt,(s.sessions i).loop⟩ := by
        apply hsess.phase_change
        · rw [hphase]
          rfl
        · exact hcont
      refine { hs with locked := ?_, lockIDs := ?_, free := ?_, sessions := ?_ }
      · intro j eventID hj
        by_cases hji : j = i
        · rw [hji] at hj ⊢
          simp only [System.phase,System.enter,update_self,Phase.lock,Option.some.injEq] at hj
          rw [hj]
          exact mem_cons_self
        · simp only [System.phase,System.enter,update_of_ne hji] at hj
          exact mem_cons_of_mem _ (hs.locked j eventID hj)
      · exact nodup_cons.mpr ⟨hwaits,hs.lockIDs⟩
      · intro eventID heventID
        rcases mem_cons.mp heventID with rfl | hother
        · exact hrec
        · exact hs.free eventID hother
      · intro j
        by_cases hji : j = i
        · rw [hji]
          simpa only [System.phase,System.enter,update_self] using hsess'
        · simpa only [System.phase,System.enter,update_of_ne hji] using hs.sessions j
  · exact hs

/-- `Process` begins: of the record that was fetched first, if a loop calls it. -/
theorem Sound.receive (hphase : (s.sessions i).phase.lock = none)
    {loop : Option (Loop P)} {delivery : Delivery P} {key : String} {payload : π} (now : Time)
    (hloop : ∀ l, loop = some l → Covered (Processed codec s.topic s.tables.receipts) l.position
      (delivery.items ++ l.batch))
    (hrun : loop = none → delivery.items = []) (hcarries : Carries codec known key payload)
    (hrecord : ∀ p offset, delivery = .record p offset →
      ∃ record, (s.topic p)[offset]? = some record ∧ record.key = key ∧ record.value = payload) :
    Sound stamp codec seen known (s.receive codec i loop delivery key payload now) := by
  unfold System.receive
  split
  · exact hs.stop
  · rename_i event fingerprint hcanon
    split_ifs with hzero
    · exact hs.stop
    · apply hs.enter
      · rw [hphase]
        rfl
      · have hacc := (canonicalUsageEvent_eq_ok.mp hcanon).2.2
        refine ⟨⟨hcarries event fingerprint hcanon,hacc.2.2,hacc.2.1,?_⟩,hloop,hrun⟩
        intro p offset hdeliv
        obtain ⟨record,hat,rfl,rfl⟩ := hrecord p offset hdeliv
        exact ⟨record,hat,hcanon⟩

theorem Sound.deliver {key : String} {payload : π}
    (hcarries : Carries codec known key payload) (now : Time) :
    Sound stamp codec seen known (s.deliver codec i key payload now) := by
  unfold System.deliver
  split
  · rename_i hsess
    apply hs.receive
    · rw [hsess]
      rfl
    · exact fun l hl => nomatch hl
    · exact fun _ => rfl
    · exact hcarries
    · exact fun p offset hdeliv => nomatch hdeliv
  · exact hs

theorem Sound.connect : Sound stamp codec seen known (s.connect i) := by
  unfold System.connect
  split
  · rename_i hsess
    apply hs.enter
    · rw [hsess]
    · refine ⟨trivial,?_,fun _ => rfl⟩
      intro l hl
      cases hl
      refine ⟨fun p o ho => .inl (hs.committed p o ho),?_,Pairwise.nil⟩
      exact fun item hitem => nomatch hitem
  · exact hs

theorem Sound.next (now : Time) : Sound stamp codec seen known (s.next codec i now) := by
  unfold System.next
  split
  · rename_i position p offset batch hsess
    have hsound := hs.sessions i
    rw [hsess] at hsound
    split
    · exact hs
    · rename_i record hrecord
      split_ifs with htopic
      · exact hs.stop
      · apply hs.receive
        · rw [hsess]
          rfl
        · intro l hl
          cases hl
          exact hsound.loop _ rfl
        · exact fun h => nomatch h
        · exact hs.topic p record (mem_of_getElem? hrecord)
        · intro p' offset' hdeliv
          cases hdeliv
          exact ⟨record,hrecord,rfl,rfl⟩
  · exact hs

omit [DecidableEq ι] in
theorem Sound.change (tables : Tables H) (adjustments : List LedgerEntry) :
    Sound stamp codec seen known (s.change tables adjustments) := by
  unfold System.change
  split_ifs with hguard
  · have hnone : adjustments.filter original = [] := by
      rw [filter_eq_nil_iff]
      intro entry hentry
      simp [original,hguard.1 entry hentry]
    refine { hs with both := ?_, nodup := hguard.2, entries := ?_, log := ?_ }
    · show _ = ((s.tables.entries ++ adjustments).filter original).map (·.eventID)
      rw [filter_append,hnone,append_nil]
      exact hs.both
    · show ∀ entry ∈ s.tables.entries ++ adjustments, _
      rw [forall_mem_append]
      refine ⟨hs.entries,?_⟩
      intro entry hentry horig
      simp [original,hguard.1 entry hentry] at horig
    · intro call hcall
      apply (hs.log call hcall).mono
      · exact prefix_refl _
      · exact prefix_append _ _
  · exact hs

variable [DecidableEq P]

theorem Sound.assign (p : P) : Sound stamp codec seen known (s.assign i p) := by
  unfold System.assign
  split
  · rename_i phase loop hsess
    have hsound := hs.sessions i
    rw [hsess] at hsound
    apply hs.enter
    · rw [hsess]
    · refine ⟨hsound.phase,?_,fun h => nomatch h⟩
      intro l hl
      cases hl
      exact (hsound.loop loop rfl).assign (hs.committed p)
  · exact hs

theorem Sound.poll (partitions : List P) : Sound stamp codec seen known (s.poll i partitions) := by
  unfold System.poll
  split
  · rename_i position hsess
    have hsound := hs.sessions i
    rw [hsess] at hsound
    apply hs.enter
    · rw [hsess]
    · refine ⟨trivial,?_,fun h => nomatch h⟩
      intro l hl
      cases hl
      apply Covered.fetch
      · exact hsound.loop _ rfl
      · exact fun item hitem => nomatch hitem
  · exact hs

theorem Sound.commit (reply : Reply) : Sound stamp codec seen known (s.commit i reply) := by
  unfold System.commit
  split
  · rename_i p offset hphase
    have hsess := hs.sessions i
    have hdone := hsess.phase
    rw [hphase] at hdone
    -- the new offset lies right after records that are all done
    have hcommit : ∀ q o, o < update s.committed p (offset + 1) q →
        Processed codec s.topic s.tables.receipts q o := by
      intro q o ho
      by_cases hq : q = p
      · rw [hq,update_self] at ho
        exact hq ▸ hdone o (Nat.lt_succ_iff.mp ho)
      · rw [update_of_ne hq] at ho
        exact hs.committed q o ho
    cases reply with
    | failed => exact hs.stop
    | unanswered => exact { hs.stop (i := i) with committed := hcommit }
    | answered =>
      have hidle : Sound stamp codec seen known (s.phase i .idle) := by
        apply hs.enter
        · rw [hphase]
          rfl
        · apply hsess.phase_change
          · rw [hphase]
            rfl
          · trivial
      exact { hidle with committed := hcommit }
  · exact hs

omit [DecidableEq ι] in
theorem Sound.produce (p : P) {record : Record π}
    (hcarries : Carries codec known record.key record.value) :
    Sound stamp codec seen known { s with topic := update s.topic p (s.topic p ++ [record]) } := by
  have htopic : ∀ q, s.topic q <+: update s.topic p (s.topic p ++ [record]) q := by
    intro q
    by_cases hq : q = p
    · rw [hq,update_self]
      exact prefix_append _ _
    · simp [update_of_ne hq]
  refine { hs with sessions := ?_, committed := ?_, topic := ?_ }
  · exact fun j => (hs.sessions j).mono subset_rfl subset_rfl htopic (prefix_refl _)
  · exact fun q o ho => (hs.committed q o ho).mono htopic (prefix_refl _)
  · intro q
    by_cases hq : q = p
    · rw [hq]
      simp only [update_self]
      exact forall_mem_append.mpr ⟨hs.topic p,forall_mem_singleton.mpr hcarries⟩
    · simp only [update_of_ne hq]
      exact hs.topic q

end

/-! The commit of a receipt with its entry. -/

/-- The tables after the commit. -/
def recorded (db : Tables H) (receipt : Receipt H) (entry : LedgerEntry) : Tables H :=
  { db with receipts := db.receipts ++ [receipt], entries := db.entries ++ [entry] }

theorem receipts_recorded (db : Tables H) (receipt : Receipt H) (entry : LedgerEntry) :
    db.receipts <+: (recorded db receipt entry).receipts :=
  prefix_append _ _

omit [DecidableEq ι] in
theorem Sound.record (hs : Sound stamp codec seen known s) {receipt : Receipt H}
    {entry : LedgerEntry} {event : UsageEvent} (hsame : receipt.eventID = entry.eventID)
    (horig : entry.original) (hfree : receipt.eventID ∉ s.locks.map Prod.fst)
    (hfresh : ∀ e ∈ s.tables.entries, e.eventID ≠ entry.eventID)
    (hentry : EntrySound stamp codec seen known (recorded s.tables receipt entry).receipts entry
      event) :
    Sound stamp codec seen known { s with tables := recorded s.tables receipt entry } := by
  have hrcpts := receipts_recorded s.tables receipt entry
  have hentries : s.tables.entries <+: (recorded s.tables receipt entry).entries :=
    prefix_append _ _
  have htopic : ∀ p, s.topic p <+: s.topic p := fun p => prefix_refl _
  refine ⟨?_,?_,hs.locked,hs.lockIDs,?_,?_,?_,?_,?_,hs.topic⟩
  · simp only [recorded,filter_append,map_append,map_cons,map_nil,hs.both,
      filter_cons,filter_nil,horig,if_true,hsame]
  · simp only [recorded,map_append,map_cons,map_nil]
    rw [← concat_eq_append]
    refine hs.nodup.concat ?_
    simpa using hfresh
  · intro eventID hlock
    simp only [recorded,map_append,map_cons,map_nil,mem_append,mem_singleton,not_or]
    refine ⟨hs.free eventID hlock,?_⟩
    intro heq
    exact hfree (heq ▸ hlock)
  · show ∀ e ∈ s.tables.entries ++ [entry], _
    rw [forall_mem_append]
    constructor
    · intro e he hfact
      obtain ⟨content,hsound⟩ := hs.entries e he hfact
      exact ⟨content,hsound.mono subset_rfl subset_rfl hrcpts⟩
    · exact forall_mem_singleton.mpr fun _ => ⟨event,hentry⟩
  · exact fun j => (hs.sessions j).mono subset_rfl subset_rfl htopic hrcpts
  · exact fun p o ho => (hs.committed p o ho).mono htopic hrcpts
  · exact fun call hcall => (hs.log call hcall).mono hrcpts hentries

/-- A transaction that ends with other tables: it ends, the tables change, and the call returns. -/
theorem System.settle_write (s : System ι P π H) (i : ι) (tables : Tables H)
    (session : Session P H) (calls : List (UsageEvent × Except ConsumerError Result)) :
    ({ s with tables := tables } : System ι P π H).settle i session calls =
      ({ s.settle i ⟨.idle,none⟩ [] with tables := tables } : System ι P π H).settle i session
        calls := by
  simp [settle,enter,update_idem,filter_filter]

theorem original_of_validate {event : UsageEvent} (h : event.validate) {consumedAt : Time}
    {priceVersionID : String} {amountMicros : ℤ} :
    (entryOf stamp event consumedAt priceVersionID amountMicros).original := by
  simp only [UsageEvent.validate,Bool.and_eq_true,decide_eq_true_eq] at h
  have hkind := h.1.2
  show decide (event.source ≠ .adjustment)
  cases hsrc : event.source <;> simp_all [gatewayUsageKind]

section Charge
variable {delivery : Delivery P} {event : UsageEvent} {fingerprint : H} {consumedAt : Time}
  {priceVersionID : String} {amountMicros : ℤ}

/-- The transaction of a priced event commits, and its session goes on in any sound way. -/
theorem Sound.recorded (hs : Sound stamp codec seen known s) (group : String)
    (hphase : (s.sessions i).phase =
      .priced delivery event fingerprint consumedAt priceVersionID amountMicros)
    (hfresh : ∀ e ∈ s.tables.entries, e.eventID ≠ event.eventID) {tables : Tables H}
    (htables : tables = recorded s.tables (receiptOf stamp group event fingerprint consumedAt)
      (entryOf stamp event consumedAt priceVersionID amountMicros))
    {calls : List (UsageEvent × Except ConsumerError Result)} (hlock : session.phase.lock = none)
    (hsess : SessionSound stamp codec seen known s.topic tables.receipts session)
    (hcalls : ∀ call ∈ calls, CallSound codec tables call) :
    Sound stamp codec seen known (({ s with tables := tables } : System ι P π H).settle i session
      calls) := by
  have hpriced := (hs.sessions i).phase
  rw [hphase] at hpriced
  obtain ⟨hcont,hsel⟩ := hpriced
  have hown : (event.eventID,i) ∈ s.locks := hs.locked i _ (by rw [hphase]; rfl)
  have hended : Sound stamp codec seen known (s.settle i ⟨.idle,none⟩ []) :=
    hs.settle rfl (sessionSound_stopped _ _) (by simp)
  -- nobody else holds the receipt
  have hfree : event.eventID ∉ (s.settle i ⟨.idle,none⟩ []).locks.map Prod.fst := by
    intro hother
    obtain ⟨⟨_,j⟩,hmem,rfl⟩ := mem_map.mp hother
    obtain ⟨hmem,hj⟩ := mem_filter.mp hmem
    have hsame := inj_on_of_nodup_map hs.lockIDs hmem hown rfl
    rw [Prod.mk.injEq] at hsame
    simp [hsame.2] at hj
  have hentry : EntrySound stamp codec seen known tables.receipts
      (entryOf stamp event consumedAt priceVersionID amountMicros) event := by
    rw [htables]
    exact ⟨hcont.known,⟨hcont.valid,_,mem_append_right _ mem_cons_self,rfl,hcont.encoded⟩,
      hsel,consumedAt,rfl⟩
  have hwritten : Sound stamp codec seen known
      ({ s.settle i ⟨.idle,none⟩ [] with tables := tables } : System ι P π H) := by
    rw [htables] at hentry ⊢
    exact hended.record rfl (original_of_validate hcont.valid) hfree hfresh hentry
  rw [settle_write]
  exact hwritten.settle hlock hsess hcalls

theorem Sound.charge (hs : Sound stamp codec seen known s) (reply : Reply) :
    Sound stamp codec seen known (s.charge stamp group i reply) := by
  unfold System.charge
  split
  · rename_i delivery event fingerprint consumedAt priceVersionID amountMicros hphase
    split
    · exact hs.finish_error delivery event _
    · exact hs.finish_error delivery event _
    · rename_i tables hins
      obtain ⟨-,hunique,-,rfl⟩ := s.tables.insertEntry_eq_ok.mp hins
      have hsess := hs.sessions i
      have hcont := hsess.phase
      rw [hphase] at hcont
      cases reply with
      | failed => exact hs.finish_error delivery event _
      | unanswered =>
        dsimp only
        rw [finish_eq]
        apply hs.recorded group hphase hunique.1 rfl rfl (sessionSound_stopped _ _)
        simp [CallSound]
      | answered =>
        have hrcpts := receipts_recorded s.tables
          (receiptOf stamp group event fingerprint consumedAt)
          (entryOf stamp event consumedAt priceVersionID amountMicros)
        have hsame := hsess.mono subset_rfl subset_rfl (fun p => prefix_refl _) hrcpts
        have hrec : RecordedAs codec (s.tables.receipts ++
            [receiptOf stamp group event fingerprint consumedAt]) event :=
          ⟨hcont.1.valid,_,mem_append_right _ mem_cons_self,rfl,hcont.1.encoded⟩
        dsimp only
        rw [finish_eq]
        apply hs.recorded group hphase hunique.1 rfl
        · cases delivery <;> rfl
        · apply sessionSound_ended hcont.1
          · intro l hl
            have hcovered := hsame.loop l hl
            rwa [hphase] at hcovered
          · intro hloop
            have hitems := hsame.running hloop
            rwa [hphase] at hitems
          · exact hrec
        · refine forall_mem_singleton.mpr ?_
          intro result hres
          cases hres
          exact ⟨hrec,_,mem_append_right _ mem_cons_self,rfl,rfl,rfl⟩
  · exact hs

end Charge

/-! Every run. -/

variable (codec known) in
/-- The action delivers known events only. -/
def Action.Brings : Action ι P π H → Prop
  | .produce _ record => Carries codec known record.key record.value
  | .deliver _ key payload _ => Carries codec known key payload
  | _ => True

variable [DecidableEq P] [DecidableEq H]

theorem Sound.step (hs : Sound stamp codec seen known s) (hseen : s.tables ∈ seen)
    {action : Action ι P π H} (hbrings : action.Brings codec known) :
    Sound stamp codec seen known (s.step stamp codec group action) := by
  cases action with
  | change tables adjustments => exact hs.change tables adjustments
  | produce p record => exact hs.produce p hbrings
  | deliver i key payload now => exact hs.deliver hbrings now
  | connect i => exact hs.connect
  | assign i p => exact hs.assign p
  | poll i partitions => exact hs.poll partitions
  | next i now => exact hs.next now
  | receipt i => exact hs.receipt
  | replay i reply => exact hs.replay reply
  | select i => exact hs.select hseen
  | charge i reply => exact hs.charge reply
  | commit i reply => exact hs.commit reply
  | fail i => exact hs.stop

omit [DecidableEq ι] [DecidableEq P] [DecidableEq H] in
theorem sound_start (tables : Tables H) :
    Sound stamp codec seen known (start tables : System ι P π H) := by
  refine ⟨rfl,nodup_nil,?_,nodup_nil,?_,?_,fun i => sessionSound_stopped _ _,?_,?_,?_⟩
  · exact fun i eventID hlock => nomatch hlock
  · exact fun eventID hlock => nomatch hlock
  · exact fun entry hentry => nomatch hentry
  · exact fun p o ho => nomatch ho
  · exact fun call hcall => nomatch hcall
  · exact fun p record hrecord => nomatch hrecord

/-- The tables that a run has passed through. -/
def System.past (stamp : Time → Time) (codec : Codec π H) (group : String)
    (start s : System ι P π H) : Set (Tables H) :=
  { tables | ∃ t : System ι P π H, start.Leads stamp codec group t ∧ t.Leads stamp codec group s ∧
    t.tables = tables }

theorem leads_sound {tables : Tables H} (h : (start tables).Leads stamp codec group s) :
    Sound stamp codec ((start tables).past stamp codec group s) Set.univ s := by
  induction h with
  | refl => exact sound_start tables
  | tail hleads hstep ih =>
    rename_i s s'
    obtain ⟨action,rfl⟩ := hstep
    have hnext : s.Leads stamp codec group (s.step stamp codec group action) :=
      .single ⟨action,rfl⟩
    apply Sound.step
    · apply ih.mono _ subset_rfl
      rintro _ ⟨t,hstart,hs,rfl⟩
      exact ⟨t,hstart,hs.trans hnext,rfl⟩
    · exact ⟨s,hleads,hnext,rfl⟩
    · cases action <;> simp [Action.Brings,Carries]

end MeteringConsumer
