import AiGateway.Pricing.Invariant

/-! Every statement keeps the invariant of prices. -/
namespace Pricing
open Metering Ledger Function List

variable {τ : Type} [DecidableEq τ] {finds : Prop} {s : System τ} {t : τ}

/-! Locks and written rows. -/

variable {id : String}

theorem mem_lock {lock : String × τ} :
    lock ∈ (s.lock t id).locks ↔ lock = (id,t) ∨ lock ∈ s.locks := by
  simp only [System.lock,mem_cons,mem_filter,decide_eq_true_eq]
  constructor
  · intro h
    exact h.imp_right And.left
  · intro h
    by_cases hsame : lock = (id,t)
    · exact .inl hsame
    · exact .inr ⟨h.resolve_left hsame,hsame⟩

theorem lockIDs_lock (h : (s.locks.map Prod.fst).Nodup) (hfree : s.lockedByOther t id = false) :
    ((s.lock t id).locks.map Prod.fst).Nodup := by
  rw [System.lock,map_cons,nodup_cons]
  refine ⟨?_,h.sublist (filter_sublist.map _)⟩
  intro hmem
  obtain ⟨lock,hlock,hid⟩ := mem_map.mp hmem
  obtain ⟨hlock,hother⟩ := mem_filter.mp hlock
  have hown := lockedByOther_eq_false.mp hfree lock hlock hid
  exact of_decide_eq_true hother (Prod.ext hid hown)

theorem Sound.lock (hs : Sound finds s) (hseen : (s.seen t id).isSome)
    (hfree : s.lockedByOther t id = false) : Sound finds (s.lock t id) := by
  refine { hs with
    lockIDs := lockIDs_lock hs.lockIDs hfree, lockSeen := ?_, imageLocks := ?_, held := ?_
    inserting := ?_ }
  · intro lock hlock
    rcases mem_lock.mp hlock with rfl | hlock
    · exact hseen
    · exact hs.lockSeen lock hlock
  · exact fun image himage => mem_lock.mpr (.inr (hs.imageLocks image himage))
  · intro hfinds r hr
    obtain ⟨hlock,hopen⟩ := hs.held hfinds r hr
    exact ⟨mem_lock.mpr (.inr hlock),hopen⟩
  · intro hfinds t' rate hins
    obtain ⟨hlock,hopen⟩ := hs.inserting hfinds t' rate hins
    exact ⟨mem_lock.mpr (.inr hlock),hopen⟩

/-- The transaction writes a row of a version that nobody else has locked. -/
def System.write (s : System τ) (t : τ) (row : PriceVersion) : System τ :=
  { s.lock t row.id with
    images := s.images.filter (fun image => ¬(image.1.id = row.id ∧ image.2 = t)) ++ [(row,t)] }

variable {row : PriceVersion}

theorem seen_write {t' : τ} (h : (s.seen t' id).isSome) : ((s.write t row).seen t' id).isSome := by
  rw [seen_isSome] at h ⊢
  apply h.imp_right
  intro hown
  obtain ⟨image,himage,hid,howner⟩ := hown
  by_cases hsame : image.1.id = row.id ∧ image.2 = t
  · exact ⟨(row,t),mem_append_right _ mem_cons_self,hsame.1.symm.trans hid,
      hsame.2.symm.trans howner⟩
  · exact ⟨image,mem_append_left _ (mem_filter.mpr ⟨himage,decide_eq_true hsame⟩),hid,howner⟩

theorem Sound.write (hs : Sound finds s) (hfree : s.lockedByOther t row.id = false)
    (hopen : s.Open row.id) (hrated : row.status = .published → s.rated t row.id) :
    Sound finds (s.write t row) := by
  have himage : ∀ image ∈ (s.write t row).images, image = (row,t) ∨ image ∈ s.images := by
    intro image himage
    rcases mem_append.mp himage with himage | himage
    · exact .inr (mem_filter.mp himage).1
    · exact .inl (mem_singleton.mp himage)
  refine { hs with
    lockIDs := lockIDs_lock hs.lockIDs hfree, lockSeen := ?_, imageIDs := ?_, imageLocks := ?_
    imageRated := ?_, imageOpen := ?_, rateSeen := ?_, held := ?_, inserting := ?_ }
  · intro lock hlock
    rcases mem_lock.mp hlock with rfl | hlock
    · exact seen_isSome.mpr (.inr ⟨(row,t),mem_append_right _ mem_cons_self,rfl,rfl⟩)
    · exact seen_write (hs.lockSeen lock hlock)
  · rw [System.write,map_append,nodup_append]
    refine ⟨hs.imageIDs.sublist (filter_sublist.map _),nodup_singleton _,?_⟩
    intro id hid new hnew hsame
    obtain ⟨image,himage,rfl⟩ := mem_map.mp hid
    obtain ⟨himage,hkept⟩ := mem_filter.mp himage
    rw [map_singleton,mem_singleton] at hnew
    have hown := lockedByOther_eq_false.mp hfree _ (hs.imageLocks image himage) (hsame.trans hnew)
    exact of_decide_eq_true hkept ⟨hsame.trans hnew,hown⟩
  · intro image hmem
    rcases himage image hmem with rfl | hmem
    · exact mem_lock.mpr (.inl rfl)
    · exact mem_lock.mpr (.inr (hs.imageLocks image hmem))
  · intro image hmem hstat
    rcases himage image hmem with rfl | hmem
    · exact hrated hstat
    · exact hs.imageRated image hmem hstat
  · intro image hmem
    rcases himage image hmem with rfl | hmem
    · exact hopen
    · exact hs.imageOpen image hmem
  · exact fun r hr => seen_write (hs.rateSeen r hr)
  · intro hfinds r hr
    obtain ⟨hlock,hopen⟩ := hs.held hfinds r hr
    exact ⟨mem_lock.mpr (.inr hlock),hopen⟩
  · intro hfinds t' rate hins
    obtain ⟨hlock,hopen⟩ := hs.inserting hfinds t' rate hins
    exact ⟨mem_lock.mpr (.inr hlock),hopen⟩

variable {v : PriceVersion}

section
variable (hs : Sound finds s)
include hs

theorem Sound.open_of_seen (hseen : s.seen t id = some v) (hdraft : v.status = .draft) :
    s.Open id := by
  obtain ⟨hid,hown | ⟨hmem,-⟩⟩ := (seen_eq_some hs.keyed hs.imageIDs).mp hseen
  · exact hid ▸ hs.imageOpen _ hown
  · intro other hother hsame
    have hone : other = v := inj_on_of_nodup_map hs.keyed.versions hother hmem
      (hsame.trans hid.symm)
    rw [hone]
    exact hdraft

/-! Statements. -/

theorem Sound.insertVersion (references : Bool) (row : PriceVersion) :
    Sound finds (s.insertVersion t references row) := by
  unfold System.insertVersion
  split_ifs with hbusy hvalid hclash hwait
  · exact hs
  · exact hs.rollback t
  · exact hs.rollback t
  · exact hs
  · simp only [Bool.or_eq_true,not_or,Bool.not_eq_true,any_eq_false] at hclash hwait
    rw [Bool.not_eq_true',Bool.not_eq_false] at hvalid
    have hnew : ∀ v ∈ s.prices.versions, v.id ≠ row.id := by
      intro v hv hid
      simpa [clashes,hid] using hclash.1 v hv
    have hfresh : ∀ image ∈ s.images, image.1.id ≠ row.id := by
      intro image himage hid
      simpa [clashes,hid] using hwait image himage
    have hfree : s.lockedByOther t row.id = false := by
      rw [lockedByOther_eq_false]
      intro lock hlock hid
      rcases seen_isSome.mp (hs.lockSeen lock hlock) with hmem | ⟨image,himage,hsame,-⟩
      · obtain ⟨v,hv,hvid⟩ := mem_map.mp hmem
        exact absurd (hvid.trans hid) (hnew v hv)
      · exact absurd (hsame.trans hid) (hfresh image himage)
    have hdraft : row.status = .draft := by
      simp only [enforcePriceVersionInsert,Bool.and_eq_true,decide_eq_true_eq] at hvalid
      exact hvalid.1.1.1.1
    have hwrite : Sound finds (s.write t row) := by
      apply hs.write hfree
      · exact fun v hv hid => absurd hid (hnew v hv)
      · intro hpub
        rw [hdraft] at hpub
        cases hpub
    have hsame : s.images.filter (fun image => ¬(image.1.id = row.id ∧ image.2 = t)) =
      s.images := by
      rw [filter_eq_self]
      intro image himage
      simp [hfresh image himage]
    rwa [System.write,hsame] at hwrite

theorem Sound.updateVersion (id : String) (set : PriceVersion → PriceVersion) :
    Sound finds (s.updateVersion t id set) := by
  unfold System.updateVersion
  split
  · exact hs
  · split
    · exact hs
    · rename_i old hseen
      split_ifs with hlocked hvalid
      · exact hs
      · simp only [enforcePriceVersionPublish,Bool.and_eq_true,decide_eq_true_eq] at hvalid
        obtain ⟨⟨⟨⟨⟨⟨⟨⟨⟨⟨⟨⟨hid,-⟩,-⟩,-⟩,-⟩,-⟩,-⟩,hdraft⟩,-⟩,-⟩,-⟩,hrated⟩,-⟩ := hvalid
        have hold : old.id = id := ((seen_eq_some hs.keyed hs.imageIDs).mp hseen).1
        have hrow : (set old).id = id := hid.trans hold
        have hwrite : Sound finds (s.write t (set old)) := by
          apply hs.write
          · rw [hrow]
            simpa using hlocked
          · rw [hrow]
            exact hs.open_of_seen hseen hdraft
          · intro _
            rw [hrow]
            exact hrated
        rwa [System.write,hrow] at hwrite
      · exact hs.rollback t

theorem Sound.deleteVersion (id : String) : Sound finds (s.deleteVersion t id) := by
  unfold System.deleteVersion
  split
  · exact hs
  · split
    · exact hs
    · split_ifs
      · exact hs
      · exact hs.rollback t

theorem Sound.mutateRate (id : String) (tokenType : TokenType) :
    Sound finds (s.mutateRate t id tokenType) := by
  unfold System.mutateRate
  split_ifs
  · exact hs
  · exact hs.rollback t
  · exact hs

variable {rate : VersionRate}

theorem Sound.insert
    (hheld : finds → (rate.priceVersionID,t) ∈ s.locks ∧ s.Open rate.priceVersionID) :
    Sound finds { s with inserting := update s.inserting t (some rate) } := by
  refine { hs with inserting := ?_ }
  intro hfinds t' other hins
  by_cases hown : t' = t
  · simp only [hown,update_self,Option.some.injEq] at hins
    rw [hown,← hins]
    exact hheld hfinds
  · simp only [update_of_ne hown] at hins
    exact hs.inserting hfinds t' other hins

theorem Sound.beginRate (hfinds : finds → (s.seen t rate.priceVersionID).isSome) :
    Sound finds (s.beginRate t rate) := by
  unfold System.beginRate
  split
  · exact hs
  · split
    · rename_i hnone
      apply hs.insert
      intro h
      have hseen := hfinds h
      rw [hnone] at hseen
      cases hseen
    · rename_i version hseen
      split_ifs with hlocked hstat
      · exact hs
      · exact hs.rollback t
      · have hdraft : version.status = .draft := by simpa using hstat
        have hlock : Sound finds (s.lock t rate.priceVersionID) :=
          hs.lock (hseen ▸ rfl) (by simpa using hlocked)
        apply hlock.insert
        exact fun _ => ⟨mem_lock.mpr (.inl rfl),hs.open_of_seen hseen hdraft⟩

theorem Sound.finishRate : Sound finds (s.finishRate t) := by
  unfold System.finishRate
  split
  · exact hs
  · rename_i rate hins
    split_ifs with hchecks hexists hwait
    · exact hs.rollback t
    · exact hs.rollback t
    · exact hs
    · split
      · exact hs.rollback t
      · rename_i version hseen
        have hmem : ∀ r ∈ s.rates ++ [(rate,t)], r ∈ s.rates ∨ r = (rate,t) := by
          intro r hr
          simpa using hr
        refine { hs with
          imageRated := ?_, rateKeys := ?_, rateSeen := ?_, held := ?_, inserting := ?_ }
        · intro image himage hstat
          obtain ⟨r,hr,hid⟩ := rated_eq_true.mp (hs.imageRated image himage hstat)
          exact rated_eq_true.mpr ⟨r,hr.imp_right (mem_append_left _),hid⟩
        · have hsplit : s.prices.rates ++ (s.rates ++ [(rate,t)]).map Prod.fst =
              (s.prices.rates ++ s.rates.map Prod.fst) ++ [rate] := by
            simp
          rw [hsplit,map_append,nodup_append]
          refine ⟨hs.rateKeys,nodup_singleton _,?_⟩
          intro key hkey new hnew hsame
          rw [map_singleton,mem_singleton] at hnew
          rw [map_append,map_map] at hkey
          rcases mem_append.mp hkey with hkey | hkey
          · apply hexists
            rw [map_append]
            exact mem_append_left _ (hnew ▸ hsame ▸ hkey)
          · exact hwait (hnew ▸ hsame ▸ hkey)
        · intro r hr
          rcases hmem r hr with hr | rfl
          · exact hs.rateSeen r hr
          · exact hseen ▸ rfl
        · intro hfinds r hr
          rcases hmem r hr with hr | rfl
          · exact hs.held hfinds r hr
          · exact hs.inserting hfinds t rate hins
        · intro hfinds t' other hother
          by_cases hown : t' = t
          · simp [hown] at hother
          · simp only [update_of_ne hown] at hother
            exact hs.inserting hfinds t' other hother

/-! Commits. -/

theorem Sound.mem_written : v ∈ (s.written t).versions ↔ s.seen t v.id = some v := by
  have hseen : ∀ w ∈ s.prices.versions, ∃ v, s.seen t w.id = some v :=
    fun w hw => Option.isSome_iff_exists.mp (seen_isSome.mpr (.inl (mem_map_of_mem hw)))
  rw [System.written,mem_append]
  constructor
  · intro h
    rcases h with h | h
    · obtain ⟨w,hw,rfl⟩ := mem_map.mp h
      obtain ⟨v,hv⟩ := hseen w hw
      rw [hv,Option.getD_some,((seen_eq_some hs.keyed hs.imageIDs).mp hv).1]
      exact hv
    · obtain ⟨⟨row,owner⟩,himage,rfl⟩ := mem_map.mp h
      obtain ⟨himage,hfacts⟩ := mem_filter.mp himage
      have howner : owner = t := (of_decide_eq_true hfacts).1
      exact (seen_eq_some hs.keyed hs.imageIDs).mpr ⟨rfl,.inl (howner ▸ himage)⟩
  · intro h
    by_cases hnew : v.id ∈ s.prices.versions.map (·.id)
    · obtain ⟨w,hw,hid⟩ := mem_map.mp hnew
      refine .inl (mem_map.mpr ⟨w,hw,?_⟩)
      rw [hid,h,Option.getD_some]
    · obtain ⟨-,hown | ⟨hmem,-⟩⟩ := (seen_eq_some hs.keyed hs.imageIDs).mp h
      · refine .inr (mem_map.mpr ⟨(v,t),mem_filter.mpr ⟨hown,?_⟩,rfl⟩)
        exact decide_eq_true ⟨rfl,hnew⟩
      · exact absurd (mem_map_of_mem hmem) hnew

theorem Sound.written_ids : ((s.written t).versions.map (·.id)).Nodup := by
  have hkept : (s.prices.versions.map fun v => (s.seen t v.id).getD v).map (·.id) =
      s.prices.versions.map (·.id) := by
    rw [map_map]
    apply map_congr_left
    intro v hv
    obtain ⟨w,hw⟩ := Option.isSome_iff_exists.mp
      ((seen_isSome (s := s) (t := t)).mpr (.inl (mem_map_of_mem hv)))
    rw [comp_apply,hw]
    exact ((seen_eq_some hs.keyed hs.imageIDs).mp hw).1
  rw [System.written,map_append,hkept,nodup_append]
  refine ⟨hs.keyed.versions,?_,?_⟩
  · rw [map_map]
    exact hs.imageIDs.sublist (filter_sublist.map _)
  · intro id hid new hnew hsame
    obtain ⟨row,hrow,rfl⟩ := mem_map.mp hnew
    obtain ⟨image,himage,rfl⟩ := mem_map.mp hrow
    have hfacts := of_decide_eq_true (mem_filter.mp himage).2
    exact hfacts.2 (hsame ▸ hid)

theorem Sound.written_seen (h : (s.seen t id).isSome) :
    ∃ v ∈ (s.written t).versions, v.id = id := by
  obtain ⟨v,hv⟩ := Option.isSome_iff_exists.mp h
  have hid := ((seen_eq_some hs.keyed hs.imageIDs).mp hv).1
  exact ⟨v,hs.mem_written.mpr (hid ▸ hv),hid⟩

theorem Sound.written_keyed : (s.written t).Keyed := by
  refine ⟨hs.written_ids,?_,?_⟩
  · refine hs.rateKeys.sublist (((Sublist.refl _).append ?_).map _)
    exact filter_sublist.map _
  · intro r hr
    apply hs.written_seen
    rcases mem_append.mp hr with hr | hr
    · obtain ⟨v,hv,hid⟩ := hs.keyed.references r hr
      exact seen_isSome.mpr (.inl (hid ▸ mem_map_of_mem hv))
    · exact hs.rateSeen _ (mem_ownRates.mp hr)

/-- A version that another transaction has locked is not published by this one. -/
theorem Sound.written_open {t' : τ} (hlock : (id,t') ∈ s.locks)
    (hother : t' ≠ t) (hopen : s.Open id) : ∀ v ∈ (s.written t).versions, v.id = id →
      v.status = .draft := by
  intro v hv hid
  obtain ⟨-,hown | ⟨hmem,-⟩⟩ := (seen_eq_some hs.keyed hs.imageIDs).mp (hs.mem_written.mp hv)
  · have hsame := inj_on_of_nodup_map hs.lockIDs (hs.imageLocks _ hown) hlock hid
    exact absurd (congrArg Prod.snd hsame).symm hother
  · exact hopen v hmem hid

theorem Sound.written_published (hv : v ∈ (s.written t).versions) (hstat : v.status = .published) :
    ∃ r ∈ (s.written t).rates, r.priceVersionID = v.id := by
  obtain ⟨-,hown | ⟨hmem,-⟩⟩ := (seen_eq_some hs.keyed hs.imageIDs).mp (hs.mem_written.mp hv)
  · obtain ⟨r,hr,hid⟩ := rated_eq_true.mp (hs.imageRated _ hown hstat)
    exact ⟨r,mem_append.mpr (hr.imp_right mem_ownRates.mpr),hid⟩
  · obtain ⟨r,hr,hid⟩ := hs.published v hmem hstat
    exact ⟨r,mem_append_left _ hr,hid⟩

theorem Sound.commit (t : τ) : Sound finds (s.commit t) := by
  unfold System.commit
  split_ifs with hbusy
  · exact hs
  have hback := hs.rollback t
  have hseen : ∀ {t' : τ} {id : String}, ((s.rollback t).seen t' id).isSome →
      ((⟨(s.rollback t).toWriters,s.written t⟩ : System τ).seen t' id).isSome := by
    intro t' id h
    rw [seen_isSome] at h ⊢
    refine h.imp_left fun hid => ?_
    obtain ⟨v,hv,hvid⟩ := hs.written_seen ((seen_isSome (t := t)).mpr (.inl hid))
    exact hvid ▸ mem_map_of_mem hv
  have hlocked : ∀ {id : String} {t' : τ}, (id,t') ∈ (s.rollback t).locks → s.Open id →
      ∀ v ∈ (s.written t).versions, v.id = id → v.status = .draft := by
    intro id t' hlock hopen
    obtain ⟨hlock,hother⟩ := mem_filter.mp hlock
    exact hs.written_open hlock (of_decide_eq_true hother) hopen
  refine { hback with
    keyed := hs.written_keyed, published := fun v hv => hs.written_published hv
    lockSeen := fun lock hlock => hseen (hback.lockSeen lock hlock), imageRated := ?_
    imageOpen := ?_, rateKeys := ?_
    rateSeen := fun r hr => hseen (hback.rateSeen r hr), held := ?_, inserting := ?_ }
  · intro image himage hstat
    obtain ⟨r,hr,hid⟩ := rated_eq_true.mp (hback.imageRated image himage hstat)
    exact rated_eq_true.mpr ⟨r,hr.imp_left (mem_append_left _),hid⟩
  · intro image himage
    exact hlocked (hback.imageLocks image himage) (hback.imageOpen image himage)
  · have hperm : ((s.prices.rates ++ s.ownRates t) ++ (s.rollback t).rates.map Prod.fst).Perm
        (s.prices.rates ++ s.rates.map Prod.fst) := by
      rw [append_assoc,System.ownRates,System.rollback,← map_append]
      apply Perm.append_left
      apply Perm.map
      have hboth := filter_append_perm (fun r : VersionRate × τ => decide (r.2 = t)) s.rates
      simpa only [decide_not] using hboth
    exact (hperm.map rateKey).nodup_iff.mpr hs.rateKeys
  · intro hfinds r hr
    obtain ⟨hlock,hopen⟩ := hback.held hfinds r hr
    exact ⟨hlock,hlocked hlock hopen⟩
  · intro hfinds t' rate hins
    obtain ⟨hlock,hopen⟩ := hback.inserting hfinds t' rate hins
    exact ⟨hlock,hlocked hlock hopen⟩

theorem Sound.step (references : PriceVersion → Bool) {statement : Statement τ}
    (h : finds → statement.Finds s) : Sound finds (s.step references statement) := by
  cases statement with
  | insertVersion t row => exact hs.insertVersion _ row
  | updateVersion t id set => exact hs.updateVersion id set
  | deleteVersion t id => exact hs.deleteVersion id
  | beginRate t rate => exact hs.beginRate h
  | finishRate t => exact hs.finishRate
  | mutateRate t id tokenType => exact hs.mutateRate id tokenType
  | commit t => exact hs.commit t
  | rollback t => exact hs.rollback t

end
end Pricing
