import Mathlib.Data.List.Basic

/-!
# Lists of events

What the development says about lists that stand for a history: lists cut into pieces, two logs
interleaved in one, entries under numbers from a counter, and entries tagged with a party.
-/

namespace EdgePacer.Lib

universe u

variable {ι α : Type u}

/-! ## Pieces -/

/-- Cut off pieces of `k` elements, at most `fuel` of them. -/
def chunksFuel (k : Nat) : Nat → List α → List (List α)
  | 0, _ => []
  | _ + 1, [] => []
  | fuel + 1, x :: xs => (x :: xs).take k :: chunksFuel k fuel ((x :: xs).drop k)

/-- The pieces of `xs`, each of at most `k` elements. A list never has more pieces than elements. -/
def chunks (k : Nat) (xs : List α) : List (List α) := chunksFuel k xs.length xs

theorem chunksFuel_flatten {k : Nat} (hk : 0 < k) :
    ∀ (fuel : Nat) (xs : List α), xs.length ≤ fuel → (chunksFuel k fuel xs).flatten = xs
  | 0, xs, h => by
      have : xs = [] := List.length_eq_zero_iff.1 (Nat.le_zero.1 h)
      simp [chunksFuel, this]
  | _ + 1, [], _ => rfl
  | fuel + 1, x :: xs, h => by
      have hlen : ((x :: xs).drop k).length ≤ fuel := by
        rw [List.length_drop]
        omega
      rw [chunksFuel, List.flatten_cons, chunksFuel_flatten hk fuel _ hlen, List.take_append_drop]

theorem chunks_flatten {k : Nat} (hk : 0 < k) (xs : List α) : (chunks k xs).flatten = xs :=
  chunksFuel_flatten hk xs.length xs (Nat.le_refl _)

/-! ## Interleavings

Two logs filled by one sequence of operations, each in its own order. -/

/-- A merge of two lists. -/
inductive Interleave : List α → List α → List α → Prop
  | nil : Interleave [] [] []
  | left {x : α} {xs ys zs : List α} : Interleave xs ys zs → Interleave (x :: xs) ys (x :: zs)
  | right {y : α} {xs ys zs : List α} : Interleave xs ys zs → Interleave xs (y :: ys) (y :: zs)

namespace Interleave

theorem append_left (xs : List α) {ys zs ws : List α} (h : Interleave ys zs ws) :
    Interleave (xs ++ ys) zs (xs ++ ws) := by
  induction xs with
  | nil => exact h
  | cons x xs ih => exact .left ih

theorem append_right (ys : List α) {xs zs ws : List α} (h : Interleave xs zs ws) :
    Interleave xs (ys ++ zs) (ys ++ ws) := by
  induction ys with
  | nil => exact h
  | cons y ys ih => exact .right ih

theorem append {xs ys zs xs' ys' zs' : List α} (h : Interleave xs ys zs)
    (h' : Interleave xs' ys' zs') : Interleave (xs ++ xs') (ys ++ ys') (zs ++ zs') := by
  induction h with
  | nil => exact h'
  | left _ ih => exact .left ih
  | right _ ih => exact .right ih

variable {xs ys zs : List α}

theorem snoc_left (h : Interleave xs ys zs) (ws : List α) :
    Interleave (xs ++ ws) ys (zs ++ ws) := by
  simpa using h.append (append_left ws Interleave.nil)

theorem snoc_right (h : Interleave xs ys zs) (ws : List α) :
    Interleave xs (ys ++ ws) (zs ++ ws) := by
  simpa using h.append (append_right ws Interleave.nil)

theorem length_eq (h : Interleave xs ys zs) : zs.length = xs.length + ys.length := by
  induction h with
  | nil => rfl
  | left _ ih | right _ ih => simp only [List.length_cons]; omega

end Interleave

/-! ## Numbered entries

As long as the counter only goes up, no number stands for two values, also when an entry that is
already there is logged again. -/

section

open List

variable {ν : Type u} {counter : Nat} {log : List (Nat × ν)}

/-- No number is above the counter, and none stands for two values. -/
structure Numbered (counter : Nat) (log : List (Nat × ν)) : Prop where
  le : ∀ p ∈ log, p.1 ≤ counter
  unique : ∀ p ∈ log, ∀ q ∈ log, p.1 = q.1 → p.2 = q.2

namespace Numbered

theorem nil (counter : Nat) : Numbered counter ([] : List (Nat × ν)) where
  le := forall_mem_nil _
  unique := forall_mem_nil _

theorem of_subset (h : Numbered counter log) {log' : List (Nat × ν)} (hsub : log' ⊆ log) :
    Numbered counter log' where
  le := fun p hp => h.le p (hsub hp)
  unique := fun p hp q hq => h.unique p (hsub hp) q (hsub hq)

theorem again (h : Numbered counter log) {p : Nat × ν} (hp : p ∈ log) :
    Numbered counter (log ++ [p]) :=
  h.of_subset (append_subset.2 ⟨List.Subset.refl log, cons_subset.2 ⟨hp, nil_subset log⟩⟩)

/-- A number above the counter may get any value. -/
theorem next (h : Numbered counter log) {number : Nat} (hnew : counter < number) (value : ν) :
    Numbered number (log ++ [(number, value)]) where
  le := by
    intro p hp
    rcases mem_append.1 hp with hold | hlast
    · exact Nat.le_trans (h.le p hold) (Nat.le_of_lt hnew)
    · exact Nat.le_of_eq (congrArg Prod.fst (mem_singleton.1 hlast))
  unique := by
    have hfresh : ∀ p ∈ log, p.1 ≠ number := fun p hp =>
      Nat.ne_of_lt (Nat.lt_of_le_of_lt (h.le p hp) hnew)
    intro p hp q hq hpq
    rcases mem_append.1 hp with hp | hp
    · rcases mem_append.1 hq with hq | hq
      · exact h.unique p hp q hq hpq
      · rw [mem_singleton.1 hq] at hpq
        exact absurd hpq (hfresh p hp)
    · rcases mem_append.1 hq with hq | hq
      · rw [mem_singleton.1 hp] at hpq
        exact absurd hpq.symm (hfresh q hq)
      · rw [mem_singleton.1 hp, mem_singleton.1 hq]

end Numbered

end

/-! ## Tagged entries -/

variable [DecidableEq ι]

/-- What is tagged with `i`, in order. -/
def lane (i : ι) (l : List (ι × α)) : List α := (l.filter fun p => p.1 = i).map Prod.snd

variable (i : ι)

theorem lane_cons (a : ι × α) (l : List (ι × α)) :
    lane i (a :: l) = if a.1 = i then a.2 :: lane i l else lane i l := by
  by_cases h : a.1 = i <;> simp [lane, h]

theorem lane_cons_self (a : α) (l : List (ι × α)) : lane i ((i, a) :: l) = a :: lane i l := by
  rw [lane_cons, if_pos rfl]

theorem lane_cons_of_ne {i j : ι} (h : j ≠ i) (a : α) (l : List (ι × α)) :
    lane i ((j, a) :: l) = lane i l := by
  rw [lane_cons, if_neg h]

theorem lane_append (l l' : List (ι × α)) : lane i (l ++ l') = lane i l ++ lane i l' := by
  rw [lane, List.filter_append, List.map_append]
  rfl

theorem lane_mono {l l' : List (ι × α)} (h : l <+: l') : lane i l <+: lane i l' := by
  obtain ⟨rest, rfl⟩ := h
  exact ⟨lane i rest, (lane_append i l rest).symm⟩

theorem lane_map_mk {γ : Type u} (i j : ι) (f : γ → α) (l : List γ) :
    lane i (l.map fun a => (j, f a)) = if j = i then l.map f else [] := by
  by_cases h : j = i <;> simp [lane, h, List.filter_map, Function.comp_def]

theorem lane_map {γ : Type u} (f : α → γ) (l : List (ι × α)) :
    lane i (l.map fun a => (a.1, f a.2)) = (lane i l).map f := by
  induction l with
  | nil => rfl
  | cons a l ih =>
    rw [List.map_cons, lane_cons, lane_cons, ih]
    split <;> rfl

theorem lane_filter (q : α → Bool) (l : List (ι × α)) :
    lane i (l.filter fun a => q a.2) = (lane i l).filter q := by
  induction l with
  | nil => rfl
  | cons a l ih =>
    by_cases hi : a.1 = i <;> by_cases hq : q a.2 <;>
      simp only [lane_cons, List.filter_cons, hi, hq, ih, if_true, if_false, Bool.false_eq_true]

theorem eq_of_lanes {l l' : List (ι × α)} (horder : l.map Prod.fst = l'.map Prod.fst)
    (hlane : ∀ i, lane i l = lane i l') : l = l' := by
  induction l generalizing l' with
  | nil => exact (List.map_eq_nil_iff.1 horder.symm).symm
  | cons a l ih =>
    cases l' with
    | nil => cases horder
    | cons a' l' =>
      obtain ⟨hfst, hrest⟩ := List.cons.inj horder
      have hhead := hlane a.1
      rw [lane_cons, lane_cons, if_pos rfl, if_pos hfst.symm] at hhead
      have hsnd := (List.cons.inj hhead).1
      rw [Prod.ext hfst hsnd, ih hrest]
      intro i
      have hi := hlane i
      rw [lane_cons, lane_cons, ← hfst] at hi
      split at hi
      · exact (List.cons.inj hi).2
      · exact hi

end EdgePacer.Lib
