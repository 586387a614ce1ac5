import Mathlib.Dynamics.PeriodicPts.Defs
import Mathlib.Order.Interval.Finset.Nat

/-!
# Copying in place until nothing changes

Each of finitely many nodes has a source. A sweep visits the nodes in order and gives each the value
that its source has at that moment, and sweeps are repeated until every node has the value of its
source. Within a sweep a source that comes earlier has been overwritten already, so that a sweep
reads every value at the end of a descending path of sources (`origin`), and repeated sweeps compose
with the iterates of that map.

Off the cycles of the source map the values settle. On a cycle, the values of the nodes that are the
source of a node not after them rotate for ever, so that sweeping ends exactly if these values agree
(`settles_iff`).
-/

namespace EdgePacer.Lib

open Function Finset

universe u

variable {α : Type u}

/-- Where each of `size` nodes copies from; a node that is its own source is left alone. -/
structure Sources where
  size : Nat
  source : Nat → Nat
  inside : ∀ i, i < size → source i < size
  outside : ∀ i, size ≤ i → source i = i

namespace Sources

variable (S : Sources) (x : Nat → α)

/-- Node `i` takes the value of its source. -/
def copy (i : Nat) : Nat → α := update x i (x (S.source i))

/-- One sweep over the nodes. -/
def sweep : Nat → α := (List.range S.size).foldl S.copy x

/-- Every node has the value of its source. -/
def Settled : Prop := ∀ i, x (S.source i) = x i

/-- Where the value that a sweep gives to a node was before the sweep. -/
def origin (i : Nat) : Nat :=
  if S.source i < i then origin (S.source i) else S.source i

/-- On every cycle, the nodes that are the source of a node not after them have one value. -/
def Agree : Prop :=
  ∀ i ∈ periodicPts S.source, ∀ k, i ≤ S.source i →
    S.source^[k] i ≤ S.source (S.source^[k] i) → x (S.source i) = x (S.source (S.source^[k] i))

variable {S}

/-! ## Sweeps as compositions -/

variable {i : Nat} (x : Nat → α) (n k : Nat)

theorem origin_of_le (h : i ≤ S.source i) : S.origin i = S.source i := by
  rw [origin, if_neg (not_lt.2 h)]

theorem origin_of_lt (h : S.source i < i) : S.origin i = S.origin (S.source i) := by
  rw [origin, if_pos h]

/-- The values when the nodes before `n` have been visited. -/
theorem foldl_copy_range :
    (List.range n).foldl S.copy x = fun i => if i < n then x (S.origin i) else x i := by
  induction n with
  | zero => rfl
  | succ n ih =>
    rw [List.range_succ, List.foldl_append, ih]
    funext i
    rw [List.foldl_cons, List.foldl_nil, copy, update_apply]
    by_cases hi : i = n
    · subst hi
      rw [if_pos rfl, if_pos (Nat.lt_succ_self i)]
      by_cases hsource : S.source i < i
      · rw [if_pos hsource, origin_of_lt hsource]
      · rw [if_neg hsource, origin_of_le (not_lt.1 hsource)]
    · have hlt : i < n + 1 ↔ i < n := by omega
      rw [if_neg hi]
      simp only [hlt]

theorem origin_outside (h : S.size ≤ i) : S.origin i = i := by
  have hsource : S.source i = i := S.outside i h
  rw [origin_of_le (le_of_eq hsource.symm), hsource]

theorem sweep_eq : S.sweep x = x ∘ S.origin := by
  rw [sweep, foldl_copy_range]
  funext i
  rw [comp_apply]
  by_cases hi : i < S.size
  · rw [if_pos hi]
  · rw [if_neg hi, origin_outside (not_lt.1 hi)]

theorem sweep_iterate : S.sweep^[k] x = x ∘ S.origin^[k] := by
  induction k with
  | zero => rfl
  | succ k ih =>
    rw [iterate_succ_apply', ih, sweep_eq, comp_assoc, ← iterate_succ]

/-! ## Cycles -/

theorem Settled.iterate {x : Nat → α} (h : S.Settled x) (k i : Nat) : x (S.source^[k] i) = x i := by
  induction k with
  | zero => rfl
  | succ k ih => rw [iterate_succ_apply', h, ih]

theorem iterate_source_lt (h : i < S.size) (k : Nat) : S.source^[k] i < S.size := by
  induction k with
  | zero => exact h
  | succ k ih =>
    rw [iterate_succ_apply']
    exact S.inside _ ih

theorem periodic_iterate (h : i ∈ periodicPts S.source) (k : Nat) :
    S.source^[k] i ∈ periodicPts S.source := by
  obtain ⟨m, hm, hperiodic⟩ := h
  exact ⟨m, hm, hperiodic.apply_iterate k⟩

theorem periodic_of_size_le {k : Nat} (hk : S.size ≤ k) :
    S.source^[k] i ∈ periodicPts S.source := by
  by_cases hi : i < S.size
  · -- two of the first `size + 1` nodes of the path are the same
    have hcard : (range S.size).card < (range (S.size + 1)).card := by
      rw [card_range, card_range]
      exact Nat.lt_succ_self _
    obtain ⟨a, ha, b, hb, hne, hab⟩ := exists_ne_map_eq_of_card_lt_of_maps_to hcard
      (fun k _ => mem_coe.2 (mem_range.2 (iterate_source_lt hi k)))
    have hloop : ∀ a b, a < b → b ≤ S.size → S.source^[a] i = S.source^[b] i →
        S.source^[k] i ∈ periodicPts S.source := by
      intro a b hab hb heq
      have hperiodic : S.source^[a] i ∈ periodicPts S.source := by
        refine ⟨b - a, Nat.sub_pos_of_lt hab, ?_⟩
        rw [Function.IsPeriodicPt, Function.IsFixedPt, ← iterate_add_apply,
          Nat.sub_add_cancel (le_of_lt hab)]
        exact heq.symm
      have hsplit : k = (k - a) + a := by omega
      rw [hsplit, iterate_add_apply]
      exact periodic_iterate hperiodic _
    have ha' : a ≤ S.size := Nat.lt_succ_iff.1 (mem_range.1 ha)
    have hb' : b ≤ S.size := Nat.lt_succ_iff.1 (mem_range.1 hb)
    rcases Nat.lt_or_gt_of_ne hne with hlt | hlt
    · exact hloop a b hlt hb' hab
    · exact hloop b a hlt ha' hab.symm
  · have hfixed : S.source i = i := S.outside i (not_lt.1 hi)
    refine ⟨1, Nat.one_pos, ?_⟩
    rw [iterate_fixed hfixed]
    exact hfixed

theorem exists_source_eq (h : i ∈ periodicPts S.source) : ∃ k, S.source (S.source^[k] i) = i := by
  obtain ⟨m, hm, hperiodic⟩ := h
  refine ⟨m - 1, ?_⟩
  rw [← iterate_succ_apply' S.source, Nat.succ_eq_add_one, Nat.sub_add_cancel hm]
  exact hperiodic

/-! ## What a sweep reads -/

theorem exists_origin_eq (i : Nat) :
    ∃ k, S.source^[k] i ≤ S.source (S.source^[k] i) ∧ S.origin i = S.source (S.source^[k] i) := by
  induction i using Nat.strongRecOn with
  | _ i ih =>
    by_cases h : S.source i < i
    · obtain ⟨k, hle, heq⟩ := ih (S.source i) h
      exact ⟨k + 1, hle, (origin_of_lt h).trans heq⟩
    · exact ⟨0, not_lt.1 h, origin_of_le (not_lt.1 h)⟩

/-- So do many sweeps, at least as far down the path. -/
theorem exists_origin_iterate_eq (i n : Nat) :
    ∃ k, n ≤ k ∧ S.source^[k] i ≤ S.source (S.source^[k] i) ∧
      S.origin^[n + 1] i = S.source (S.source^[k] i) := by
  induction n with
  | zero =>
    obtain ⟨k, hle, heq⟩ := S.exists_origin_eq i
    exact ⟨k, Nat.zero_le k, hle, heq⟩
  | succ n ih =>
    obtain ⟨k, hk, _, heq⟩ := ih
    obtain ⟨l, hle, hl⟩ := S.exists_origin_eq (S.source (S.source^[k] i))
    have hpath : S.source^[l] (S.source (S.source^[k] i)) = S.source^[l + (k + 1)] i := by
      rw [iterate_add_apply, iterate_succ_apply']
    refine ⟨l + (k + 1), by omega, ?_, ?_⟩
    · rw [← hpath]
      exact hle
    · rw [iterate_succ_apply', heq, hl, hpath]

/-- Going back along a cycle from a node, some node not after its source leads to the same origin:
the way back ascends otherwise. -/
theorem exists_origin_source_eq (d : Nat) : ∀ {i : Nat}, S.size - i ≤ d →
    i ∈ periodicPts S.source →
    ∃ k, S.source^[k] i ≤ S.source (S.source^[k] i) ∧
      S.origin (S.source (S.source^[k] i)) = S.origin i := by
  induction d with
  | zero =>
    intro i hd _
    -- outside, a node is its own source
    have hfixed : S.source i = i := S.outside i (by omega)
    exact ⟨0, le_of_eq hfixed.symm, congrArg S.origin hfixed⟩
  | succ d ih =>
    intro i hd hi
    obtain ⟨k, hk⟩ := exists_source_eq hi
    by_cases hle : S.source^[k] i ≤ i
    · refine ⟨k, ?_, congrArg S.origin hk⟩
      rw [hk]
      exact hle
    · have hlt : i < S.source^[k] i := not_le.1 hle
      obtain ⟨l, hl, heq⟩ := ih (by omega) (periodic_iterate hi k)
      rw [← iterate_add_apply] at hl heq
      refine ⟨l + k, hl, heq.trans ?_⟩
      rw [origin_of_lt (by rw [hk]; exact hlt), hk]

/-- The values that rotate on a cycle come back after any number of sweeps. -/
theorem exists_origin_iterate_source_eq (hi : i ∈ periodicPts S.source)
    (hle : i ≤ S.source i) :
    ∃ k, S.source^[k] i ≤ S.source (S.source^[k] i) ∧
      S.origin^[n] (S.source (S.source^[k] i)) = S.source i := by
  induction n with
  | zero => exact ⟨0, hle, rfl⟩
  | succ n ih =>
    obtain ⟨k, hk, heq⟩ := ih
    obtain ⟨l, hl, heq'⟩ := exists_origin_source_eq _ (Nat.le_refl (S.size - S.source^[k] i))
      (periodic_iterate hi k)
    rw [← iterate_add_apply] at hl heq'
    refine ⟨l + k, hl, ?_⟩
    rw [iterate_succ_apply, heq', origin_of_le hk, heq]

/-! ## When sweeping ends -/

/-- If the cycles agree, `size + 1` sweeps settle the values. -/
theorem Agree.settled {x : Nat → α} (h : S.Agree x) : S.Settled (S.sweep^[S.size + 1] x) := by
  rw [sweep_iterate]
  intro i
  obtain ⟨a, ha, hle, heq⟩ := exists_origin_iterate_eq i S.size
  obtain ⟨b, hb, hle', heq'⟩ := exists_origin_iterate_eq (S.source i) S.size
  rw [comp_apply, comp_apply, heq, heq']
  -- both are read on the same cycle; the one further down is compared with the other
  have hagree : ∀ {a b : Nat}, S.size ≤ a → a ≤ b →
      S.source^[a] i ≤ S.source (S.source^[a] i) →
      S.source^[b] i ≤ S.source (S.source^[b] i) →
      x (S.source (S.source^[a] i)) = x (S.source (S.source^[b] i)) := by
    intro a b ha hab hle hle'
    have hsplit : S.source^[b] i = S.source^[b - a] (S.source^[a] i) := by
      rw [← iterate_add_apply, Nat.sub_add_cancel hab]
    rw [hsplit] at hle' ⊢
    exact h _ (periodic_of_size_le ha) (b - a) hle hle'
  rcases le_total a (b + 1) with hab | hab
  · exact (hagree ha hab hle hle').symm
  · exact hagree (Nat.le_succ_of_le hb) hab hle' hle

theorem Agree.of_settled {x : Nat → α} {n : Nat} (h : S.Settled (S.sweep^[n] x)) : S.Agree x := by
  rw [sweep_iterate] at h
  -- the value read at a node of the cycle is the settled value of the cycle
  have hvalue : ∀ i ∈ periodicPts S.source, i ≤ S.source i →
      x (S.source i) = (x ∘ S.origin^[n]) i := by
    intro i hi hle
    obtain ⟨k, _, heq⟩ := exists_origin_iterate_source_eq n hi hle
    rw [← heq, ← h.iterate (k + 1) i, iterate_succ_apply']
    rfl
  intro i hi k hle hle'
  rw [hvalue i hi hle, hvalue _ (periodic_iterate hi k) hle', h.iterate]

/-- **Sweeping ends** exactly if, on every cycle, the values that rotate agree. -/
theorem settles_iff : (∃ n, S.Settled (S.sweep^[n] x)) ↔ S.Agree x :=
  ⟨fun ⟨_, h⟩ => Agree.of_settled h, fun h => ⟨S.size + 1, h.settled⟩⟩

end Sources

end EdgePacer.Lib
