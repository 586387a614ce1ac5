import Mathlib.Data.List.Range
import Mathlib.Data.List.Sublists

/-!
# Autoincrement tables

A `SeqTable` is a table of rows keyed by an ever-growing sequence number, listed in key order, with
the high-water mark of the numbers handed out. The mark survives deletion, so a number is never
used twice. The two facts every user needs are that inserted rows go to the back with consecutive
fresh numbers (`seqs_insertAll`) and that deleting the numbers of the leading rows leaves exactly
the other rows (`rows_deleteIn_take`).

`overtakes_iff` compares such a queue with a second one that names only some of its rows: taking
`n` from the front of both leaves the second one naming rows that are still there exactly when the
`n` leading rows are all named, or no row behind them is.
-/

namespace EdgePacer.Lib

open List Prod

universe u

variable {α : Type u}

/-! ## Numbered rows -/

/-- Pair the elements of a list with consecutive numbers from `n` on. -/
def numberFrom (n : Nat) : List α → List (Nat × α)
  | [] => []
  | x :: xs => (n, x) :: numberFrom (n + 1) xs

variable (n : Nat) {xs : List α} {p : Nat × α}

@[simp] theorem numberFrom_map_fst (xs : List α) :
    (numberFrom n xs).map fst = List.range' n xs.length := by
  induction xs generalizing n with
  | nil => rfl
  | cons x xs ih => simp [numberFrom, ih, List.range'_succ]

@[simp] theorem numberFrom_map_snd (xs : List α) : (numberFrom n xs).map snd = xs := by
  induction xs generalizing n with
  | nil => rfl
  | cons x xs ih => simp [numberFrom, ih]

@[simp] theorem numberFrom_length (xs : List α) : (numberFrom n xs).length = xs.length := by
  induction xs generalizing n with
  | nil => rfl
  | cons x xs ih => simp [numberFrom, ih]

theorem numberFrom_append (xs ys : List α) :
    numberFrom n (xs ++ ys) = numberFrom n xs ++ numberFrom (n + xs.length) ys := by
  induction xs generalizing n with
  | nil => rfl
  | cons x xs ih =>
    rw [cons_append, numberFrom, ih, numberFrom, cons_append, length_cons,
      Nat.add_right_comm, Nat.add_assoc]

theorem fst_of_mem_numberFrom {n : Nat} (h : p ∈ numberFrom n xs) :
    n ≤ p.1 ∧ p.1 < n + xs.length := by
  have hmem : p.1 ∈ (numberFrom n xs).map fst := mem_map_of_mem h
  rw [numberFrom_map_fst, mem_range'_1] at hmem
  exact hmem

theorem snd_of_mem_numberFrom {n : Nat} (h : p ∈ numberFrom n xs) : p.2 ∈ xs := by
  have hmem : p.2 ∈ (numberFrom n xs).map snd := mem_map_of_mem h
  rwa [numberFrom_map_snd] at hmem

theorem eq_of_mem_numberFrom {n : Nat} {q : Nat × α} (hp : p ∈ numberFrom n xs)
    (hq : q ∈ numberFrom n xs) (h : p.1 = q.1) : p = q := by
  have hnd : ((numberFrom n xs).map fst).Nodup := by
    rw [numberFrom_map_fst]
    exact nodup_range'
  exact inj_on_of_nodup_map hnd hp hq h

/-- A table keyed by an autoincremented sequence number. -/
structure SeqTable (α : Type u) where
  /-- The rows in key order. -/
  rows : List (Nat × α)
  /-- The largest number ever handed out. -/
  lastSeq : Nat
  sorted : (rows.map fst).Pairwise (· < ·)
  bounded : ∀ n ∈ rows.map fst, n ≤ lastSeq

namespace SeqTable

/-- The keys, in order. -/
def seqs (t : SeqTable α) : List Nat := t.rows.map fst

/-- The table without rows, with `n` numbers already used up. -/
def empty (n : Nat) : SeqTable α := ⟨[], n, List.Pairwise.nil, by simp⟩

variable (t : SeqTable α) (xs : List α) (ks : List Nat)

theorem seqs_nodup : t.seqs.Nodup := t.sorted.imp fun h => ne_of_lt h

theorem seqs_le {n : Nat} (h : n ∈ t.seqs) : n ≤ t.lastSeq := t.bounded n h

/-- Insert rows at the back, numbered from the high-water mark on. -/
def insertAll (t : SeqTable α) (xs : List α) : SeqTable α where
  rows := t.rows ++ numberFrom (t.lastSeq + 1) xs
  lastSeq := t.lastSeq + xs.length
  sorted := by
    rw [map_append, numberFrom_map_fst, pairwise_append]
    refine ⟨t.sorted, pairwise_lt_range', ?_⟩
    intro a ha b hb
    have h1 : a ≤ t.lastSeq := t.bounded a ha
    have h2 : t.lastSeq + 1 ≤ b := (mem_range'_1.1 hb).1
    omega
  bounded := by
    intro n hn
    rw [map_append, numberFrom_map_fst, mem_append] at hn
    rcases hn with hn | hn
    · have h1 : n ≤ t.lastSeq := t.bounded n hn
      omega
    · have h2 := (mem_range'_1.1 hn).2
      omega

/-- Delete the rows whose number is listed. -/
def deleteIn (t : SeqTable α) (ks : List Nat) : SeqTable α where
  rows := t.rows.filter fun r => decide (r.1 ∉ ks)
  lastSeq := t.lastSeq
  sorted := t.sorted.sublist (filter_sublist.map fst)
  bounded := fun n hn => t.bounded n ((filter_sublist.map fst).subset hn)

@[simp] theorem rows_insertAll :
    (t.insertAll xs).rows = t.rows ++ numberFrom (t.lastSeq + 1) xs := rfl

@[simp] theorem lastSeq_insertAll : (t.insertAll xs).lastSeq = t.lastSeq + xs.length := rfl

@[simp] theorem lastSeq_deleteIn : (t.deleteIn ks).lastSeq = t.lastSeq := rfl

@[simp] theorem insertAll_nil : t.insertAll [] = t := by
  cases t with
  | mk rows last hs hb => simp [insertAll, numberFrom]

theorem insertAll_insertAll (ys : List α) :
    (t.insertAll xs).insertAll ys = t.insertAll (xs ++ ys) := by
  simp only [insertAll, numberFrom_append, append_assoc, length_append,
    Nat.add_right_comm, Nat.add_assoc]

@[simp] theorem seqs_insertAll :
    (t.insertAll xs).seqs = t.seqs ++ List.range' (t.lastSeq + 1) xs.length := by
  simp [seqs]

theorem mem_seqs_deleteIn {n : Nat} : n ∈ (t.deleteIn ks).seqs ↔ n ∈ t.seqs ∧ n ∉ ks := by
  simp only [seqs, deleteIn, mem_map, mem_filter, decide_eq_true_eq]
  constructor
  · rintro ⟨r, ⟨hr, hk⟩, rfl⟩
    exact ⟨⟨r, hr, rfl⟩, hk⟩
  · rintro ⟨⟨r, hr, rfl⟩, hk⟩
    exact ⟨r, ⟨hr, hk⟩, rfl⟩

/-- Filtering out the keys of a leading part of the rows leaves the rest. -/
theorem filter_keys_of_append {l rest : List (Nat × α)}
    (hs : ((l ++ rest).map fst).Nodup) :
    (l ++ rest).filter (fun r => decide (r.1 ∉ l.map fst)) = rest := by
  rw [filter_append]
  have h1 : l.filter (fun r => decide (r.1 ∉ l.map fst)) = [] := by
    rw [filter_eq_nil_iff]
    intro r hr
    simpa using ⟨r.2, hr⟩
  have h2 : rest.filter (fun r => decide (r.1 ∉ l.map fst)) = rest := by
    rw [filter_eq_self]
    intro r hr
    rw [map_append, nodup_append] at hs
    simp only [decide_eq_true_eq]
    intro hl
    exact hs.2.2 r.1 hl r.1 (mem_map_of_mem hr) rfl
  rw [h1, h2, nil_append]

/-- **Deleting the leading numbers.** The numbers of the first `n` rows are deleted with exactly
these rows. -/
theorem rows_deleteIn_take (n : Nat) : (t.deleteIn (t.seqs.take n)).rows = t.rows.drop n := by
  have hsplit : t.rows = t.rows.take n ++ t.rows.drop n := (take_append_drop n t.rows).symm
  have hk : t.seqs.take n = (t.rows.take n).map fst := by simp [seqs]
  have hnd : ((t.rows.take n ++ t.rows.drop n).map fst).Nodup := by
    rw [← hsplit]
    exact t.seqs_nodup
  have h := filter_keys_of_append hnd
  rw [← hsplit] at h
  rw [hk]
  exact h

theorem seqs_deleteIn_take (n : Nat) : (t.deleteIn (t.seqs.take n)).seqs = t.seqs.drop n := by
  rw [seqs, rows_deleteIn_take, seqs, map_drop]

theorem deleteIn_nil : t.deleteIn [] = t := by
  cases t with
  | mk rows last hs hb => simp [deleteIn]

end SeqTable

/-! ## Two queues in step -/

theorem sublist_split {ys : List α} (h : xs.Sublist ys) (n : Nat) :
    ∃ a b, xs = a ++ b ∧ a.Sublist (ys.take n) ∧ b.Sublist (ys.drop n) := by
  rw [← take_append_drop n ys, sublist_append_iff] at h
  exact h

/-- The elements that a queue `xs` naming some elements of `ys` loses with its first `n` are gone
from `ys` too exactly when `ys` loses only named elements, or keeps none. -/
theorem overtakes_iff {ys : List α} (h : xs.Sublist ys) (hnd : ys.Nodup) (n : Nat) :
    (∀ x ∈ xs.take n, x ∉ ys.drop n) ↔ (∀ y ∈ ys.take n, y ∈ xs) ∨ (∀ y ∈ ys.drop n, y ∉ xs) := by
  obtain ⟨a, b, rfl, ha, hb⟩ := sublist_split h n
  have hdisj : ∀ y, y ∈ ys.take n → y ∈ ys.drop n → False := by
    intro y h1 h2
    rw [← take_append_drop n ys] at hnd
    exact (nodup_append.1 hnd).2.2 y h1 y h2 rfl
  constructor
  · intro hover
    by_cases hlen : a.length < n
    · -- A named element left behind would have been taken with the first `n`.
      right
      intro y hy hmem
      rcases mem_append.1 hmem with hya | hyb
      · exact hdisj y (ha.subset hya) hy
      · cases b with
        | nil => cases hyb
        | cons z b' =>
          have hz : z ∈ (a ++ z :: b').take n := by
            rw [take_append]
            obtain ⟨m, hm⟩ : ∃ m, n - a.length = m + 1 := ⟨n - a.length - 1, by omega⟩
            rw [hm]
            simp
          exact hover z hz (hb.subset mem_cons_self)
    · left
      have hle : (ys.take n).length ≤ a.length := by
        have := length_take_le n ys
        omega
      have heq : a = ys.take n := ha.eq_of_length_le hle
      intro y hy
      rw [heq]
      exact mem_append_left _ hy
  · rintro (hall | hnone) x hx hxd
    · have hsub : ys.take n ⊆ a := by
        intro y hy
        rcases mem_append.1 (hall y hy) with h1 | h1
        · exact h1
        · exact absurd (hb.subset h1) (fun h2 => hdisj y hy h2)
      have hnd' : (ys.take n).Nodup := hnd.sublist (take_sublist n ys)
      have hle : (ys.take n).length ≤ a.length := (hnd'.subperm hsub).length_le
      have heq : a = ys.take n := ha.eq_of_length_le hle
      have hxa : x ∈ a := by
        by_cases hlen : ys.length ≤ n
        · rw [drop_eq_nil_of_le hlen] at hxd
          cases hxd
        · have hal : a.length = n := by rw [heq, length_take]; omega
          rw [take_append, hal, Nat.sub_self, take_zero, append_nil] at hx
          exact (take_sublist n a).subset hx
      exact hdisj x (ha.subset hxa) hxd
    · exact hnone x hxd ((take_sublist n (a ++ b)).subset hx)

end EdgePacer.Lib
