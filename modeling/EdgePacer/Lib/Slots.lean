import Mathlib.Data.List.Basic
import Mathlib.Algebra.GroupWithZero.Nat

/-!
# Keyed slots

A short list of `(key, value)` pairs searched from the front, where the first use of a key adds a
slot for it at the back. `updateSlot` runs a function on the slot of a key and returns what the
function returns beside the new value. Its effect is stated through `slot`, the value the function
is given: the new value is stored, the result comes from it, and every other slot is unchanged.
-/

namespace EdgePacer.Lib

open List

universe u v w

variable {κ : Type u} {ν : Type v} {β : Type w} [DecidableEq κ]

/-- The value in the first slot of `k`, or `new` when there is none. -/
def slot (k : κ) (new : ν) : List (κ × ν) → ν
  | [] => new
  | (k', v) :: rest => if k' = k then v else slot k new rest

/-- Run `f` on the slot of `k`, adding a slot with `new` at the back when there is none. -/
def updateSlot (k : κ) (new : ν) (f : ν → ν × β) : List (κ × ν) → List (κ × ν) × β
  | [] => ([(k, (f new).1)], (f new).2)
  | (k', v) :: rest =>
      if k' = k then ((k', (f v).1) :: rest, (f v).2)
      else ((k', v) :: (updateSlot k new f rest).1, (updateSlot k new f rest).2)

variable (k : κ) (new : ν) (f : ν → ν × β) (l : List (κ × ν)) (g : ν → Nat)

theorem updateSlot_snd : (updateSlot k new f l).2 = (f (slot k new l)).2 := by
  induction l with
  | nil => rfl
  | cons p rest ih =>
    obtain ⟨k', v⟩ := p
    by_cases hk : k' = k
    · simp [updateSlot, slot, hk]
    · simp [updateSlot, slot, hk, ih]

theorem slot_updateSlot_self : slot k new (updateSlot k new f l).1 = (f (slot k new l)).1 := by
  induction l with
  | nil => simp [updateSlot, slot]
  | cons p rest ih =>
    obtain ⟨k', v⟩ := p
    by_cases hk : k' = k
    · simp [updateSlot, slot, hk]
    · simp [updateSlot, slot, hk, ih]

theorem slot_updateSlot_ne {k j : κ} (hj : j ≠ k) (new : ν) (f : ν → ν × β) (l : List (κ × ν)) :
    slot j new (updateSlot k new f l).1 = slot j new l := by
  induction l with
  | nil => simp [updateSlot, slot, Ne.symm hj]
  | cons p rest ih =>
    obtain ⟨k', v⟩ := p
    by_cases hk : k' = k
    · subst hk
      simp [updateSlot, slot, Ne.symm hj]
    · by_cases hk2 : k' = j
      · subst hk2
        simp [updateSlot, slot, hk]
      · simp [updateSlot, slot, hk, ih]

/-- Every slot after an update is an old one or the updated one. -/
theorem mem_updateSlot {k : κ} {new : ν} {f : ν → ν × β} {l : List (κ × ν)} {p : κ × ν}
    (h : p ∈ (updateSlot k new f l).1) : p ∈ l ∨ p = (k, (f (slot k new l)).1) := by
  induction l with
  | nil =>
    simp only [updateSlot, mem_singleton] at h
    exact .inr h
  | cons q rest ih =>
    obtain ⟨k', v⟩ := q
    by_cases hk : k' = k
    · simp only [updateSlot, if_pos hk, mem_cons] at h
      rcases h with rfl | h
      · exact .inr (by simp [slot, hk])
      · exact .inl (mem_cons_of_mem _ h)
    · simp only [updateSlot, if_neg hk, mem_cons] at h
      rcases h with rfl | h
      · exact .inl mem_cons_self
      · rcases ih h with h' | h'
        · exact .inl (mem_cons_of_mem _ h')
        · exact .inr (by simpa [slot, hk] using h')

theorem slot_mem_or_new : (k, slot k new l) ∈ l ∨ slot k new l = new := by
  induction l with
  | nil => exact .inr rfl
  | cons p rest ih =>
    obtain ⟨k', v⟩ := p
    by_cases hk : k' = k
    · exact .inl (by simp [slot, hk])
    · rcases ih with h | h
      · exact .inl (by simpa [slot, hk] using .inr h)
      · exact .inr (by simpa [slot, hk] using h)

/-- A total over the slots changes by what the function changes. A fresh slot counts nothing. -/
theorem sum_updateSlot (new : ν) (hnew : g new = 0) (k : κ) (f : ν → ν × β) (l : List (κ × ν)) :
    (((updateSlot k new f l).1).map fun p => g p.2).sum + g (slot k new l) =
      (l.map fun p => g p.2).sum + g (f (slot k new l)).1 := by
  induction l with
  | nil => simp [updateSlot, slot, hnew]
  | cons p rest ih =>
    obtain ⟨k', v⟩ := p
    by_cases hk : k' = k
    · simp only [updateSlot, slot, if_pos hk, map_cons, sum_cons]
      omega
    · simp only [updateSlot, slot, if_neg hk, map_cons, sum_cons]
      omega

theorem slot_le_sum (new : ν) (hnew : g new = 0) (k : κ) (l : List (κ × ν)) :
    g (slot k new l) ≤ (l.map fun p => g p.2).sum := by
  induction l with
  | nil => simp [slot, hnew]
  | cons p rest ih =>
    obtain ⟨k', v⟩ := p
    by_cases hk : k' = k
    · simp only [slot, if_pos hk, map_cons, sum_cons]
      omega
    · simp only [slot, if_neg hk, map_cons, sum_cons]
      omega

end EdgePacer.Lib
