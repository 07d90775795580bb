import AiGateway.Pricing.Transactions

/-! What holds of prices between any two statements. -/
namespace Pricing
open Ledger List

variable {τ : Type} [DecidableEq τ]

/-- The committed version, if there is one, is a draft. -/
def System.Open (s : System τ) (id : String) : Prop :=
  ∀ v ∈ s.prices.versions, v.id = id → v.status = .draft

/-- `finds` says whether the trigger of every rate has found the version. -/
structure Sound (finds : Prop) (s : System τ) : Prop where
  keyed : s.prices.Keyed
  published : ∀ v ∈ s.prices.versions, v.status = .published →
    ∃ r ∈ s.prices.rates, r.priceVersionID = v.id
  lockIDs : (s.locks.map Prod.fst).Nodup
  lockSeen : ∀ lock ∈ s.locks, (s.seen lock.2 lock.1).isSome
  imageIDs : (s.images.map (·.1.id)).Nodup
  imageLocks : ∀ image ∈ s.images, (image.1.id,image.2) ∈ s.locks
  imageRated : ∀ image ∈ s.images, image.1.status = .published → s.rated image.2 image.1.id
  imageOpen : ∀ image ∈ s.images, s.Open image.1.id
  rateKeys : ((s.prices.rates ++ s.rates.map Prod.fst).map rateKey).Nodup
  rateSeen : ∀ r ∈ s.rates, (s.seen r.2 r.1.priceVersionID).isSome
  held : finds → ∀ r ∈ s.rates, (r.1.priceVersionID,r.2) ∈ s.locks ∧ s.Open r.1.priceVersionID
  inserting : finds → ∀ t rate, s.inserting t = some rate →
    (rate.priceVersionID,t) ∈ s.locks ∧ s.Open rate.priceVersionID

variable {finds : Prop} {s : System τ} {t : τ}

/-! What a transaction sees. -/

variable {id : String}

theorem seen_eq_some (hkey : s.prices.Keyed) (himages : (s.images.map (·.1.id)).Nodup)
    {v : PriceVersion} : s.seen t id = some v ↔ v.id = id ∧ ((v,t) ∈ s.images ∨
      v ∈ s.prices.versions ∧ ∀ image ∈ s.images, image.1.id = id → image.2 ≠ t) := by
  unfold System.seen
  split
  · rename_i image hfound
    have hmem := mem_of_find?_eq_some hfound
    have hfacts := find?_some hfound
    simp only [decide_eq_true_eq] at hfacts
    constructor
    · intro h
      cases h
      exact ⟨hfacts.1,.inl (hfacts.2 ▸ hmem)⟩
    · intro h
      obtain ⟨hid,hown | ⟨-,hnone⟩⟩ := h
      · have hsame := inj_on_of_nodup_map himages hown hmem (hid.trans hfacts.1.symm)
        rw [← hsame]
      · exact absurd hfacts.2 (hnone image hmem hfacts.1)
  · rename_i hnone
    rw [find?_eq_none] at hnone
    rw [hkey.version?_eq_some]
    constructor
    · intro h
      refine ⟨h.2,.inr ⟨h.1,?_⟩⟩
      intro image himage hid hown
      exact hnone image himage (by simp [hid,hown])
    · intro h
      obtain ⟨hid,hown | ⟨hmem,-⟩⟩ := h
      · exact absurd (decide_eq_true ⟨hid,rfl⟩) (hnone _ hown)
      · exact ⟨hmem,hid⟩

/-- A version is seen where it is committed, or written by the transaction itself. -/
theorem seen_isSome : (s.seen t id).isSome ↔
    id ∈ s.prices.versions.map (·.id) ∨ ∃ image ∈ s.images, image.1.id = id ∧ image.2 = t := by
  unfold System.seen
  split
  · rename_i image hfound
    have hfacts := find?_some hfound
    simp only [decide_eq_true_eq] at hfacts
    exact iff_of_true rfl (.inr ⟨image,mem_of_find?_eq_some hfound,hfacts⟩)
  · rename_i hnone
    rw [find?_eq_none] at hnone
    have hown : ¬∃ image ∈ s.images, image.1.id = id ∧ image.2 = t := by
      intro h
      obtain ⟨image,himage,hfacts⟩ := h
      exact hnone image himage (decide_eq_true hfacts)
    rw [or_iff_left hown,Prices.version?,find?_isSome,mem_map]
    simp only [decide_eq_true_eq]

theorem lockedByOther_eq_false :
    s.lockedByOther t id = false ↔ ∀ lock ∈ s.locks, lock.1 = id → lock.2 = t := by
  simp [System.lockedByOther,any_eq_false]

theorem mem_ownRates {r : VersionRate} : r ∈ s.ownRates t ↔ (r,t) ∈ s.rates := by
  simp [System.ownRates]

theorem rated_eq_true : s.rated t id ↔
    ∃ r, (r ∈ s.prices.rates ∨ (r,t) ∈ s.rates) ∧ r.priceVersionID = id := by
  simp [System.rated,mem_ownRates,or_and_right,exists_or]

/-! A transaction ends without a trace. -/

theorem seen_rollback {t' : τ} (hother : t' ≠ t) (id : String) :
    ((s.rollback t).seen t' id).isSome = (s.seen t' id).isSome := by
  rw [Bool.eq_iff_iff,seen_isSome,seen_isSome]
  have himages : (∃ image ∈ (s.rollback t).images, image.1.id = id ∧ image.2 = t') ↔
      ∃ image ∈ s.images, image.1.id = id ∧ image.2 = t' := by
    constructor
    · intro h
      obtain ⟨image,himage,hfacts⟩ := h
      exact ⟨image,(mem_filter.mp himage).1,hfacts⟩
    · intro h
      obtain ⟨image,himage,hfacts⟩ := h
      refine ⟨image,mem_filter.mpr ⟨himage,?_⟩,hfacts⟩
      simpa [hfacts.2] using hother
  rw [himages]
  rfl

theorem Sound.rollback (hs : Sound finds s) (t : τ) : Sound finds (s.rollback t) := by
  have hlock : ∀ lock ∈ (s.rollback t).locks, lock ∈ s.locks ∧ lock.2 ≠ t := by
    intro lock hlock
    simpa [System.rollback] using hlock
  have himage : ∀ image ∈ (s.rollback t).images, image ∈ s.images ∧ image.2 ≠ t := by
    intro image himage
    simpa [System.rollback] using himage
  have hrate : ∀ r ∈ (s.rollback t).rates, r ∈ s.rates ∧ r.2 ≠ t := by
    intro r hr
    simpa [System.rollback] using hr
  have hkept : ∀ {id : String} {t' : τ}, t' ≠ t → (id,t') ∈ s.locks →
      (id,t') ∈ (s.rollback t).locks := by
    intro id t' hother hmem
    exact mem_filter.mpr ⟨hmem,by simpa using hother⟩
  refine ⟨hs.keyed,hs.published,hs.lockIDs.sublist (filter_sublist.map _),?_,
    hs.imageIDs.sublist (filter_sublist.map _),?_,?_,?_,?_,?_,?_,?_⟩
  · intro lock hmem
    obtain ⟨hmem,hother⟩ := hlock lock hmem
    rw [seen_rollback hother]
    exact hs.lockSeen lock hmem
  · intro image hmem
    obtain ⟨hmem,hother⟩ := himage image hmem
    exact hkept hother (hs.imageLocks image hmem)
  · intro image hmem hstat
    obtain ⟨hmem,hother⟩ := himage image hmem
    obtain ⟨r,hr,hid⟩ := rated_eq_true.mp (hs.imageRated image hmem hstat)
    refine rated_eq_true.mpr ⟨r,hr.imp_right fun hr => ?_,hid⟩
    exact mem_filter.mpr ⟨hr,by simpa using hother⟩
  · exact fun image hmem => hs.imageOpen image (himage image hmem).1
  · exact hs.rateKeys.sublist (((Sublist.refl _).append (filter_sublist.map _)).map _)
  · intro r hr
    obtain ⟨hr,hother⟩ := hrate r hr
    rw [seen_rollback hother]
    exact hs.rateSeen r hr
  · intro hfinds r hr
    obtain ⟨hr,hother⟩ := hrate r hr
    obtain ⟨hlock,hopen⟩ := hs.held hfinds r hr
    exact ⟨hkept hother hlock,hopen⟩
  · intro hfinds t' rate hins
    by_cases hown : t' = t
    · rw [hown] at hins
      simp [System.rollback] at hins
    · have hbefore : s.inserting t' = some rate := by
        simpa [System.rollback,hown] using hins
      obtain ⟨hlock,hopen⟩ := hs.inserting hfinds t' rate hbefore
      exact ⟨hkept hown hlock,hopen⟩

end Pricing
