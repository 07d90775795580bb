import AiGateway.Relational.Table
import Mathlib.Data.List.Pairwise

/-! Chains of corrections: each row takes the value before it to a result, by their difference. Only
some rows of a table are corrections, and only these have a key. -/
namespace Relational
open List

variable {ρ α : Type}

/-- The value after the rows: the result of the last one. -/
def final (result : ρ → α) (value : α) (rows : List ρ) : α :=
  (rows.getLast?.map result).getD value

section Final
variable (result : ρ → α) (value : α)

@[simp] theorem final_nil : final result value [] = value := rfl

theorem final_cons (r : ρ) (rows : List ρ) :
    final result value (r :: rows) = final result (result r) rows := by
  cases rows with
  | nil => rfl
  | cons s rows =>
    unfold final
    rw [getLast?_cons_cons,getLast?_eq_some_getLast (cons_ne_nil s rows)]
    rfl

theorem final_induction {p : α → Prop} {rows : List ρ} (hvalue : p value)
    (hres : ∀ r ∈ rows, p (result r)) : p (final result value rows) := by
  induction rows generalizing value with
  | nil => exact hvalue
  | cons r rows ih =>
    rw [final_cons]
    exact ih _ (hres r mem_cons_self) fun s hs => hres s (mem_cons_of_mem _ hs)

end Final

variable [AddCommGroup α] (delta result : ρ → α)

def Telescopes : α → List ρ → Prop
  | _, [] => True
  | value, r :: rows => delta r = result r - value ∧ Telescopes (result r) rows

variable {delta result} {value : α}

theorem telescopes_append {rows rows' : List ρ} : Telescopes delta result value (rows ++ rows') ↔
      Telescopes delta result value rows ∧
        Telescopes delta result (final result value rows) rows' := by
  induction rows generalizing value with
  | nil => simp [Telescopes]
  | cons r rows ih => rw [cons_append,Telescopes,Telescopes,final_cons,ih,and_assoc]

variable {rows : List ρ}

theorem Telescopes.sum (h : Telescopes delta result value rows) :
    value + (rows.map delta).sum = final result value rows := by
  induction rows generalizing value with
  | nil => simp
  | cons r rows ih =>
    obtain ⟨hdelta,hrows⟩ := h
    rw [map_cons,sum_cons,final_cons,← ih hrows,hdelta,← add_assoc,add_sub_cancel]

theorem inj_on_of_nodup_filterMap {κ : Type} {key : ρ → Option κ}
    (hn : (rows.filterMap key).Nodup) {r r' : ρ} (hr : r ∈ rows) (hr' : r' ∈ rows) {k : κ}
    (hk : key r = some k) (hk' : key r' = some k) : r = r' := by
  by_contra hne
  rw [Nodup,pairwise_filterMap] at hn
  have hsymm : Std.Symm fun a b : ρ => ∀ x, key a = some x → ∀ y, key b = some y → x ≠ y :=
    ⟨fun a b h x hx y hy => (h y hy x hx).symm⟩
  exact hn.forall hr hr' hne k hk k hk' rfl

/-! Totals over the rows that belong to a parent each. -/

theorem total_add (w v : ρ → ℤ) (rows : List ρ) :
    total (fun r => w r + v r) rows = total w rows + total v rows := by
  induction rows with
  | nil => rfl
  | cons r rows ih =>
    rw [total_cons,total_cons,total_cons,ih]
    omega

theorem total_split (w : ρ → ℤ) (p : ρ → Bool) (rows : List ρ) :
    total w rows = total w (rows.filter p) + total w (rows.filter fun r => !p r) := by
  rw [total_filter,total_filter,← total_add]
  apply total_congr
  intro r hr
  cases p r <;> simp

theorem filter_eq_singleton {p : ρ → Bool} (hn : rows.Nodup) {r : ρ} (hr : r ∈ rows)
    (hp : p r) (hunique : ∀ x ∈ rows, p x → x = r) : rows.filter p = [r] := by
  have hall : ∀ x ∈ rows.filter p, x = r := fun x hx =>
    hunique x (mem_filter.mp hx).1 (mem_filter.mp hx).2
  have hmem : r ∈ rows.filter p := mem_filter.mpr ⟨hr,hp⟩
  cases hfilter : rows.filter p with
  | nil => simp [hfilter] at hmem
  | cons x rest =>
    rw [hfilter] at hall
    have hnodup := hn.filter p
    rw [hfilter,nodup_cons] at hnodup
    have hx := hall x mem_cons_self
    cases rest with
    | nil => rw [hx]
    | cons y rest =>
      have hy := hall y (mem_cons_of_mem _ mem_cons_self)
      exact absurd (hx.trans hy.symm ▸ mem_cons_self) hnodup.1

/-- Where every row has one parent, the total is that of the parents' totals. -/
theorem total_grouped {σ : Type} (w : ρ → ℤ) (link : ρ → σ → Bool) {parents : List σ}
    (hn : parents.Nodup)
    (hrows : ∀ r ∈ rows, ∃ p ∈ parents, link r p ∧ ∀ q ∈ parents, link r q → q = p) :
    total w rows = total (fun p => total w (rows.filter (link · p))) parents := by
  induction rows with
  | nil => simp [total]
  | cons r rows ih =>
    obtain ⟨⟨p,hp,hlink,hunique⟩,hrest⟩ := forall_mem_cons.mp hrows
    have hone : total (fun q => if link r q then w r else 0) parents = w r := by
      rw [← total_filter (fun _ => w r) (link r ·),filter_eq_singleton hn hp hlink hunique]
      simp
    have hcons : ∀ q ∈ parents, total w ((r :: rows).filter (link · q)) =
        (if link r q then w r else 0) + total w (rows.filter (link · q)) := by
      intro q hq
      rw [filter_cons]
      split_ifs <;> simp
    rw [total_cons,total_congr hcons,total_add,hone,ih hrest]

end Relational
