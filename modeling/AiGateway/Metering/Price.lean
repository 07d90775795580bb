import AiGateway.Metering.Event
import Mathlib.Tactic.Linarith

/-! Prices of usage facts in exact integer micros (`internal/metering/price.go`). -/
namespace Metering

inductive PriceError where
  | invalidPriceVersion
  | amountOverflow

structure PriceRate where
  tokenType : TokenType
  billingUnit : BillingUnit
  (unitQuantity unitPriceMicros : ℤ)
  deriving DecidableEq

def validBillingUnit : TokenType → BillingUnit → Bool
  | .input, unit | .output, unit | .cacheRead, unit | .cacheWrite, unit | .reasoning, unit =>
      decide (unit = .token)
  | .audioInput, unit | .audioOutput, unit => unit = .token || unit = .second
  | .imageInput, unit | .imageOutput, unit => unit = .token || unit = .image
  | .other _, _ => false

/-- `Validate`; every refusal is `ErrInvalidPriceVersion`. -/
def PriceRate.validate (rate : PriceRate) : Bool :=
  rate.tokenType.valid && 1 ≤ rate.unitQuantity &&
    rate.unitQuantity ≤ maximumExactInteger && 0 ≤ rate.unitPriceMicros &&
    rate.unitPriceMicros ≤ maximumExactInteger &&
    validBillingUnit rate.tokenType rate.billingUnit

/-- The quotient of two natural numbers as integers, rounded up. -/
def roundedUp (numerator denominator : ℤ) : ℤ :=
  if numerator.tmod denominator ≠ 0 then numerator.tdiv denominator + 1
  else numerator.tdiv denominator

def calculateAmountMicros (quantity : ℤ) (rate : PriceRate) : Except PriceError ℤ :=
  if quantity < 1 ∨ quantity > maximumExactInteger ∨ rate.validate = false then
    .error .invalidPriceVersion
  else if rate.unitPriceMicros = 0 then .ok 0
  else
    let amount := roundedUp (quantity * rate.unitPriceMicros) rate.unitQuantity
    if amount > maximumExactInteger then .error .amountOverflow else .ok amount

theorem roundedUp_spec {numerator denominator : ℤ} (hn : 0 ≤ numerator) (hd : 0 < denominator) :
    0 ≤ roundedUp numerator denominator ∧
      numerator ≤ roundedUp numerator denominator * denominator ∧
      roundedUp numerator denominator * denominator < numerator + denominator := by
  have hdivision := Int.tmod_add_tdiv_mul numerator denominator
  have hleast := Int.tmod_nonneg denominator hn
  have hmost := Int.tmod_lt_of_pos numerator hd
  have hquotient := Int.tdiv_nonneg hn hd.le
  unfold roundedUp
  split_ifs with hrest
  · rw [Int.add_mul,Int.one_mul]
    omega
  · omega

/-- The exact price of a quantity is the least amount that covers it. -/
def IsAmount (quantity : ℤ) (rate : PriceRate) (amount : ℤ) : Prop :=
  IsLeast {a : ℤ | quantity * rate.unitPriceMicros ≤ a * rate.unitQuantity} amount

variable {quantity amount : ℤ} {rate : PriceRate}

theorem PriceRate.bounds_of_validate (h : rate.validate) :
    0 < rate.unitQuantity ∧ 0 ≤ rate.unitPriceMicros := by
  simp only [PriceRate.validate,Bool.and_eq_true,decide_eq_true_eq] at h
  obtain ⟨⟨⟨⟨⟨-,hunit⟩,-⟩,hprice⟩,-⟩,-⟩ := h
  exact ⟨by omega,hprice⟩

theorem isAmount_iff (hunit : 0 < rate.unitQuantity) : IsAmount quantity rate amount ↔
    quantity * rate.unitPriceMicros ≤ amount * rate.unitQuantity ∧
      amount * rate.unitQuantity < quantity * rate.unitPriceMicros + rate.unitQuantity := by
  constructor
  · rintro ⟨hcovers,hleast⟩
    refine ⟨hcovers,?_⟩
    by_contra hover
    have hless : amount ≤ amount - 1 :=
      hleast (show _ ≤ (amount - 1) * rate.unitQuantity by rw [sub_mul]; omega)
    omega
  · rintro ⟨hcovers,hclose⟩
    refine ⟨hcovers,fun other hother => ?_⟩
    have hover : amount * rate.unitQuantity < (other + 1) * rate.unitQuantity := by
      rw [add_mul,one_mul]
      exact hclose.trans_le (add_le_add_left hother _)
    have hbelow := lt_of_mul_lt_mul_right hover hunit.le
    omega

/-- A fact is priced at the least amount that covers it, unless that amount is too large. -/
theorem calculateAmountMicros_eq (hrate : rate.validate) (hpos : 1 ≤ quantity)
    (hexact : quantity ≤ maximumExactInteger) : ∃ amount, 0 ≤ amount ∧
      IsAmount quantity rate amount ∧ calculateAmountMicros quantity rate =
        if maximumExactInteger < amount then .error .amountOverflow else .ok amount := by
  obtain ⟨hunit,hprice⟩ := PriceRate.bounds_of_validate hrate
  have hproduct : 0 ≤ quantity * rate.unitPriceMicros := Int.mul_nonneg (by omega) hprice
  obtain ⟨hnn,hspec⟩ := roundedUp_spec hproduct hunit
  refine ⟨_,hnn,(isAmount_iff hunit).mpr hspec,?_⟩
  rw [calculateAmountMicros,if_neg (by simp [hrate,hpos,hexact])]
  by_cases hfree : rate.unitPriceMicros = 0
  · simp [hfree,roundedUp,maximumExactInteger]
  · rw [if_neg hfree]

section
variable (h : calculateAmountMicros quantity rate = .ok amount)
include h

theorem calculateAmountMicros_guard :
    1 ≤ quantity ∧ quantity ≤ maximumExactInteger ∧ rate.validate := by
  unfold calculateAmountMicros at h
  split_ifs at h with hrefused
  all_goals simpa only [not_or,not_lt,Bool.not_eq_false] using hrefused

theorem calculateAmountMicros_eq_ok :
    IsAmount quantity rate amount ∧ 0 ≤ amount ∧ amount ≤ maximumExactInteger := by
  obtain ⟨hpos,hexact,hrate⟩ := calculateAmountMicros_guard h
  obtain ⟨exact,hnn,hleast,heq⟩ := calculateAmountMicros_eq hrate hpos hexact
  rw [heq] at h
  split_ifs at h with hover
  cases h
  exact ⟨hleast,hnn,not_lt.mp hover⟩

end

/-- The parts of a quantity, priced one by one: each is rounded up by less than one unit. -/
theorem split_amounts (hunit : 0 < rate.unitQuantity) {parts amounts : List ℤ}
    (h : List.Forall₂ (fun q a => calculateAmountMicros q rate = .ok a) parts amounts) :
    parts.sum * rate.unitPriceMicros ≤ amounts.sum * rate.unitQuantity ∧
      amounts.sum * rate.unitQuantity ≤
        parts.sum * rate.unitPriceMicros + parts.length * (rate.unitQuantity - 1) := by
  induction h with
  | nil => simp
  | cons hpart _ ih =>
    obtain ⟨hcovers,hclose⟩ := (isAmount_iff hunit).mp (calculateAmountMicros_eq_ok hpart).1
    simp only [List.sum_cons,List.length_cons,add_mul,Nat.cast_add,Nat.cast_one,one_mul]
    omega

/-- Pricing is exact and monotone, free for a zero price only, and splitting a quantity into parts
never costs less, and at most one micro more for each further part. -/
theorem calculateAmountMicros_exact (hrate : rate.validate) :
    (∀ q, 1 ≤ q → q ≤ maximumExactInteger → ∃ a, IsAmount q rate a ∧ calculateAmountMicros q rate =
        if maximumExactInteger < a then .error .amountOverflow else .ok a) ∧
    (∀ q q' rate', 1 ≤ q → q ≤ q' → q' ≤ maximumExactInteger → rate'.validate →
      rate'.unitQuantity = rate.unitQuantity → rate.unitPriceMicros ≤ rate'.unitPriceMicros →
      ∀ a', calculateAmountMicros q' rate' = .ok a' →
        ∃ a ≤ a', calculateAmountMicros q rate = .ok a) ∧
    (∀ q, 1 ≤ q → q ≤ maximumExactInteger →
      (calculateAmountMicros q rate = .ok 0 ↔ rate.unitPriceMicros = 0)) ∧
    ∀ parts amounts : List ℤ, parts ≠ [] → parts.sum ≤ maximumExactInteger →
      List.Forall₂ (fun q a => calculateAmountMicros q rate = .ok a) parts amounts →
      ∀ a, IsAmount parts.sum rate a → a ≤ amounts.sum ∧ amounts.sum ≤ a + (parts.length - 1) := by
  obtain ⟨hunit,hprice⟩ := PriceRate.bounds_of_validate hrate
  refine ⟨?exact,?monotone,?free,?split⟩
  case exact =>
    intro q hpos hexact
    obtain ⟨a,-,h⟩ := calculateAmountMicros_eq hrate hpos hexact
    exact ⟨a,h⟩
  case monotone =>
    intro q q' rate' hpos hq hexact hrate' hsame hcheaper a' ha'
    obtain ⟨a,-,hleast,heq⟩ := calculateAmountMicros_eq hrate hpos (hq.trans hexact)
    obtain ⟨hleast',-,hmost'⟩ := calculateAmountMicros_eq_ok ha'
    have hle : a ≤ a' := by
      refine hleast.2 ((mul_le_mul hq hcheaper hprice (by omega)).trans ?_)
      rw [← hsame]
      exact hleast'.1
    exact ⟨a,hle,heq.trans (if_neg (not_lt.mpr (hle.trans hmost')))⟩
  case free =>
    intro q hpos hexact
    constructor
    · intro h
      have hcovers := (calculateAmountMicros_eq_ok h).1.1
      rw [Set.mem_ofPred_eq,zero_mul] at hcovers
      by_contra hpaid
      exact absurd hcovers (not_le.mpr (Int.mul_pos (by omega) (by omega)))
    · intro hfree
      rw [calculateAmountMicros,if_neg (by simp [hrate,hpos,hexact]),if_pos hfree]
  case split =>
    intro parts amounts hparts hexact hpriced a ha
    obtain ⟨hcovers,hclose⟩ := split_amounts hunit hpriced
    refine ⟨ha.2 hcovers,?_⟩
    have hlen := List.length_pos_of_ne_nil hparts
    have hcovered := ha.1
    rw [Set.mem_ofPred_eq] at hcovered
    nlinarith

/-- Four tokens twice, at one micro for three, cost one micro more than eight. -/
theorem thirdMicro_split : ∃ a, IsAmount 8 ⟨.input,.token,3,1⟩ a ∧ a ≤ 4 ∧ 4 ≤ a + 1 := by
  have h := @calculateAmountMicros_exact ⟨.input,.token,3,1⟩ (by decide)
  obtain ⟨a,ha,-⟩ := h.1 8 (by decide) (by decide)
  exact ⟨a,ha,h.2.2.2 [4,4] [2,2] (by decide) (by decide) (.cons rfl (.cons rfl .nil)) a ha⟩

end Metering
