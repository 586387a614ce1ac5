import Mathlib.Data.List.Nodup
import Mathlib.Algebra.BigOperators.Group.List.Basic
import Mathlib.Algebra.GroupWithZero.Nat

/-!
# Tallies

`tally p g l` adds up `g` over the elements of `l` that meet `p`. In a list without two elements of
one key, bringing one element in adds its weight (`tally_flip`) and taking it out of the list
subtracts it (`tally_filter_key`).
-/

namespace EdgePacer.Lib

open List

universe u v

variable {α : Type u} {κ : Type v}

def tally (p : α → Bool) (g : α → Nat) (l : List α) : Nat := ((l.filter p).map g).sum

theorem tally_cons (p : α → Bool) (g : α → Nat) (a : α) (l : List α) :
    tally p g (a :: l) = (if p a then g a else 0) + tally p g l := by
  unfold tally
  rw [filter_cons]
  split
  · rw [map_cons, sum_cons]
  · rw [Nat.zero_add]

theorem tally_append (p : α → Bool) (g : α → Nat) (l l' : List α) :
    tally p g (l ++ l') = tally p g l + tally p g l' := by
  unfold tally
  rw [filter_append, map_append, sum_append]

variable {p p' : α → Bool}

theorem tally_congr {g : α → Nat} {l : List α} (h : ∀ a ∈ l, p a = p' a) :
    tally p g l = tally p' g l := by
  unfold tally
  rw [filter_congr h]

/-- Elements that do not count can be changed. -/
theorem tally_map {g : α → Nat} {f : α → α} {l : List α}
    (hp : ∀ a ∈ l, p' (f a) = p a) (hg : ∀ a ∈ l, p a = true → g (f a) = g a) :
    tally p' g (l.map f) = tally p g l := by
  induction l with
  | nil => rfl
  | cons a l ih =>
    rw [map_cons, tally_cons, tally_cons, hp a mem_cons_self,
      ih ((forall_mem_cons.1 hp).2) ((forall_mem_cons.1 hg).2)]
    split
    · next h => rw [hg a mem_cons_self h]
    · rfl

variable {key : α → κ} {l : List α} {a : α}

/-- Around one element of a list without two of a key, all keys are other ones. -/
theorem exists_split_of_nodup (hnd : (l.map key).Nodup) (ha : a ∈ l) :
    ∃ before after, l = before ++ a :: after ∧ ∀ b ∈ before ++ after, key b ≠ key a := by
  obtain ⟨before, after, rfl⟩ := append_of_mem ha
  refine ⟨before, after, rfl, ?_⟩
  rw [map_append, map_cons, nodup_middle, nodup_cons] at hnd
  intro b hb heq
  refine hnd.1 ?_
  rw [← heq, ← map_append]
  exact mem_map_of_mem hb

theorem tally_flip (hnd : (l.map key).Nodup) (ha : a ∈ l) (g : α → Nat)
    (hp : p a = false) (hp' : p' a = true) (hrest : ∀ b ∈ l, key b ≠ key a → p' b = p b) :
    tally p' g l = tally p g l + g a := by
  obtain ⟨before, after, rfl, hother⟩ := exists_split_of_nodup hnd ha
  have hbefore : tally p' g before = tally p g before := tally_congr fun b hb =>
    hrest b (mem_append_left _ hb) (hother b (mem_append_left _ hb))
  have hafter : tally p' g after = tally p g after := tally_congr fun b hb =>
    hrest b (mem_append_right _ (mem_cons_of_mem _ hb)) (hother b (mem_append_right _ hb))
  rw [tally_append, tally_append, tally_cons, tally_cons, hp, hp', if_pos rfl,
    if_neg Bool.false_ne_true]
  omega

theorem tally_filter_key [DecidableEq κ] (hnd : (l.map key).Nodup) (ha : a ∈ l) {p : α → Bool}
    (g : α → Nat) (hp : p a = true) :
    tally p g (l.filter fun b => decide (key b ≠ key a)) + g a = tally p g l := by
  obtain ⟨before, after, rfl, hother⟩ := exists_split_of_nodup hnd ha
  have hkeep : ∀ bs : List α, (∀ b ∈ bs, key b ≠ key a) →
      bs.filter (fun b => decide (key b ≠ key a)) = bs := fun bs hbs =>
    filter_eq_self.2 fun b hb => decide_eq_true (hbs b hb)
  rw [filter_append, filter_cons, if_neg (by simp),
    hkeep before (forall_mem_append.1 hother).1,
    hkeep after (forall_mem_append.1 hother).2, tally_append, tally_append,
    tally_cons, hp, if_pos rfl]
  omega

end EdgePacer.Lib
