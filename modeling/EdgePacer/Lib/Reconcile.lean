import Mathlib.Data.List.Nodup

/-!
# Bringing what runs in line with what is desired

Instances run under keys. Each carries the tag it was started with. A reconcile stops the instances
whose key is no longer desired or desired under another tag (`stale`) and then starts, in order,
what is desired and not running (`startMissing`); a start may fail.

If no key is desired twice, what runs afterwards is what was kept and what was started
(`startMissing_eq`): every instance has the tag of the desired entry with its key, and the keys are
those desired, less the starts that failed (`mem_keys_reconciled`).
-/

namespace EdgePacer.Lib

open List

universe u v w

variable {α : Type u} {κ : Type v} {τ : Type w} [DecidableEq κ] [DecidableEq τ]
  (key : α → κ) (tag : α → τ)

/-- The tag a key is desired under; of several entries with the key the last one counts. -/
def desiredTag (desired : List α) (k : κ) : Option τ :=
  (desired.reverse.find? fun d => key d == k).map tag

/-- The instances that are kept. -/
def kept (running desired : List α) : List α :=
  running.filter fun a => desiredTag key tag desired (key a) == some (tag a)

/-- The instances that are stopped: first those removed, then those to restart. -/
def stale (running desired : List α) : List α :=
  running.filter (fun a => desiredTag key tag desired (key a) == none) ++
    running.filter fun a =>
      !(desiredTag key tag desired (key a) == none) &&
        !(desiredTag key tag desired (key a) == some (tag a))

/-- Start one desired entry unless its key is taken. The log has the attempts and their outcome. -/
def startOne (fails : α → Bool) (s : List α × List (α × Bool)) (d : α) : List α × List (α × Bool) :=
  if key d ∈ s.1.map key then s
  else if fails d then (s.1, s.2 ++ [(d, false)])
  else (s.1 ++ [d], s.2 ++ [(d, true)])

def startMissing (fails : α → Bool) (running desired : List α) : List α × List (α × Bool) :=
  desired.foldl (startOne key fails) (running, [])

variable {key tag}

variable {running desired : List α} {a : α} (fails : α → Bool)

theorem mem_stale_of_not_mem_kept (ha : a ∈ running) (hkept : a ∉ kept key tag running desired) :
    a ∈ stale key tag running desired := by
  have htag : ¬ (desiredTag key tag desired (key a) == some (tag a)) = true :=
    fun h => hkept (mem_filter.2 ⟨ha, h⟩)
  refine mem_append.2 ?_
  by_cases hnone : (desiredTag key tag desired (key a) == none) = true
  · exact .inl (mem_filter.2 ⟨ha, hnone⟩)
  · exact .inr (mem_filter.2 ⟨ha, by simp [hnone, htag]⟩)

theorem mem_of_mem_stale (ha : a ∈ stale key tag running desired) : a ∈ running := by
  rcases mem_append.1 ha with ha | ha
  · exact (mem_filter.1 ha).1
  · exact (mem_filter.1 ha).1

theorem exists_desired_of_mem_kept (ha : a ∈ kept key tag running desired) :
    ∃ d ∈ desired, key d = key a ∧ tag d = tag a := by
  have htag := beq_iff_eq.1 (mem_filter.1 ha).2
  obtain ⟨d, hfind, hd⟩ := Option.map_eq_some_iff.1 htag
  have hkey : (key d == key a) = true := List.find?_some (p := fun d => key d == key a) hfind
  exact ⟨d, mem_reverse.1 (List.mem_of_find?_eq_some hfind), beq_iff_eq.1 hkey, hd⟩

variable (hnodup : (desired.map key).Nodup)

include hnodup

/-- If no key is desired twice, exactly the entries with a new key are attempted. -/
theorem foldl_startOne_eq (running : List α) (log : List (α × Bool)) :
    desired.foldl (startOne key fails) (running, log) =
      (running ++ desired.filter (fun d => !(decide (key d ∈ running.map key)) && !fails d),
        log ++ (desired.filter fun d => !decide (key d ∈ running.map key)).map
          fun d => (d, !fails d)) := by
  induction desired generalizing running log with
  | nil => simp
  | cons d desired ih =>
    rw [map_cons, nodup_cons] at hnodup
    obtain ⟨hd, hnodup⟩ := hnodup
    rw [foldl_cons, startOne]
    by_cases hmem : key d ∈ running.map key
    · rw [if_pos hmem, ih hnodup]
      simp only [filter_cons, hmem, decide_true, Bool.not_true, Bool.false_and,
        Bool.false_eq_true, if_false]
    · rw [if_neg hmem]
      cases hfails : fails d with
      | true =>
        rw [ih hnodup]
        simp only [filter_cons, hmem, decide_false, Bool.not_false, Bool.true_and, hfails,
          Bool.not_true, Bool.false_eq_true, if_false, if_true, map_cons, append_assoc,
          singleton_append]
      | false =>
        -- the new instance takes no key that is still to come
        have hkeys : ∀ d' ∈ desired, decide (key d' ∈ (running ++ [d]).map key) =
            decide (key d' ∈ running.map key) := by
          intro d' hd'
          have hne : key d' ≠ key d := fun h => hd (h ▸ mem_map_of_mem hd')
          rw [map_append, map_singleton]
          simp only [mem_append, mem_singleton, hne, or_false]
        have hstarted : desired.filter
              (fun d' => !(decide (key d' ∈ (running ++ [d]).map key)) && !fails d') =
            desired.filter fun d' => !(decide (key d' ∈ running.map key)) && !fails d' :=
          filter_congr fun d' hd' => by rw [hkeys d' hd']
        have hattempted : desired.filter (fun d' => !decide (key d' ∈ (running ++ [d]).map key)) =
            desired.filter fun d' => !decide (key d' ∈ running.map key) :=
          filter_congr fun d' hd' => by rw [hkeys d' hd']
        rw [if_neg Bool.false_ne_true, ih hnodup, hstarted, hattempted]
        simp only [filter_cons, hmem, decide_false, Bool.not_false, Bool.true_and, hfails,
          if_true, map_cons, append_assoc, singleton_append]

theorem startMissing_eq (running : List α) :
    startMissing key fails running desired =
      (running ++ desired.filter (fun d => !(decide (key d ∈ running.map key)) && !fails d),
        (desired.filter fun d => !decide (key d ∈ running.map key)).map
          fun d => (d, !fails d)) := by
  rw [startMissing, foldl_startOne_eq fails hnodup]
  rfl

/-- What runs after a reconcile has an entry with its key: it was started from this entry, or kept
under the entry's tag. -/
theorem exists_desired_of_mem_reconciled
    (ha : a ∈ (startMissing key fails (kept key tag running desired) desired).1) :
    ∃ d ∈ desired, key d = key a ∧ (d = a ∨ a ∈ running ∧ tag d = tag a) := by
  rw [startMissing_eq fails hnodup] at ha
  rcases mem_append.1 ha with ha | ha
  · obtain ⟨d, hd, hkey, htag⟩ := exists_desired_of_mem_kept ha
    exact ⟨d, hd, hkey, .inr ⟨(mem_filter.1 ha).1, htag⟩⟩
  · exact ⟨a, (mem_filter.1 ha).1, rfl, .inl rfl⟩

/-- The keys that run after a reconcile are those desired, less the failed starts. -/
theorem mem_keys_reconciled {k : κ} :
    k ∈ (startMissing key fails (kept key tag running desired) desired).1.map key ↔
      k ∈ desired.map key ∧
        ∀ d, key d = k →
          (d, false) ∉ (startMissing key fails (kept key tag running desired) desired).2 := by
  rw [startMissing_eq fails hnodup]
  constructor
  · intro h
    obtain ⟨a, ha, rfl⟩ := mem_map.1 h
    rcases mem_append.1 ha with ha | ha
    · obtain ⟨d, hd, hkey, -⟩ := exists_desired_of_mem_kept ha
      refine ⟨hkey ▸ mem_map_of_mem hd, ?_⟩
      intro d' hd' hlog
      -- only keys that were not kept are attempted
      obtain ⟨d'', hd'', heq⟩ := mem_map.1 hlog
      obtain ⟨rfl, -⟩ := Prod.mk.inj heq
      have hfree := (mem_filter.1 hd'').2
      rw [hd'] at hfree
      exact absurd (mem_map_of_mem ha) (by simpa using hfree)
    · obtain ⟨hmem, hstart⟩ := mem_filter.1 ha
      refine ⟨mem_map_of_mem hmem, ?_⟩
      intro d' hd' hlog
      obtain ⟨d'', hd'', heq⟩ := mem_map.1 hlog
      obtain ⟨rfl, hfails⟩ := Prod.mk.inj heq
      obtain rfl : d'' = a := inj_on_of_nodup_map hnodup (mem_filter.1 hd'').1 hmem hd'
      rw [hfails, Bool.and_false] at hstart
      exact Bool.false_ne_true hstart
  · rintro ⟨hk, hlog⟩
    obtain ⟨d, hd, rfl⟩ := mem_map.1 hk
    rw [map_append, mem_append]
    by_cases hkept : key d ∈ (kept key tag running desired).map key
    · exact .inl hkept
    · refine .inr (mem_map_of_mem (mem_filter.2 ⟨hd, ?_⟩))
      cases hfails : fails d with
      | false => simpa using hkept
      | true =>
        refine absurd (mem_map.2 ⟨d, mem_filter.2 ⟨hd, ?_⟩, ?_⟩) (hlog d rfl)
        · simpa using hkept
        · rw [hfails]
          rfl

omit [DecidableEq τ] in
theorem desiredTag_of_mem (ha : a ∈ desired) :
    desiredTag key tag desired (key a) = some (tag a) := by
  have hfound : (desired.reverse.find? fun d => key d == key a).isSome :=
    find?_isSome.2 ⟨a, mem_reverse.2 ha, beq_self_eq_true (key a)⟩
  obtain ⟨d, hfind⟩ := Option.isSome_iff_exists.1 hfound
  have hkey : (key d == key a) = true := List.find?_some (p := fun d => key d == key a) hfind
  obtain rfl : d = a := inj_on_of_nodup_map hnodup (mem_reverse.1 (List.mem_of_find?_eq_some hfind))
    ha (beq_iff_eq.1 hkey)
  rw [desiredTag, hfind]
  rfl

variable (tag) in
/-- **A reconcile is final.** If its starts succeed, another one stops and starts nothing. -/
theorem reconciled_again (fails' : α → Bool) (hstart : ∀ d ∈ desired, fails d = false)
    {after : List α}
    (h : (startMissing key fails (kept key tag running desired) desired).1 = after) :
    stale key tag after desired = [] ∧
      startMissing key fails' (kept key tag after desired) desired = (after, []) := by
  rw [startMissing_eq fails hnodup] at h
  have htag : ∀ a ∈ after, desiredTag key tag desired (key a) = some (tag a) := by
    intro a ha
    rcases mem_append.1 (h ▸ ha) with ha | ha
    · exact beq_iff_eq.1 (mem_filter.1 ha).2
    · exact desiredTag_of_mem hnodup (mem_filter.1 ha).1
  have hkeys : ∀ d ∈ desired, key d ∈ after.map key := by
    intro d hd
    rw [← h, map_append, mem_append, or_iff_not_imp_left]
    exact fun hkept => mem_map_of_mem (mem_filter.2 ⟨hd, by simpa [hstart d hd] using hkept⟩)
  have hkept : kept key tag after desired = after :=
    filter_eq_self.2 fun a ha => beq_iff_eq.2 (htag a ha)
  constructor
  · rw [stale, append_eq_nil_iff, filter_eq_nil_iff, filter_eq_nil_iff]
    constructor <;> intro a ha <;> simp [htag a ha]
  · rw [hkept, startMissing_eq fails' hnodup, filter_eq_nil_iff.2, filter_eq_nil_iff.2, append_nil,
      map_nil]
    all_goals
      intro d hd
      simp only [hkeys d hd, decide_true, Bool.not_true, Bool.false_and, Bool.false_eq_true,
        not_false_eq_true]

omit hnodup

/-- Keys stay distinct. -/
theorem nodup_keys_reconciled (hrunning : (running.map key).Nodup)
    (hnodup : (desired.map key).Nodup) :
    ((startMissing key fails (kept key tag running desired) desired).1.map key).Nodup := by
  rw [startMissing_eq fails hnodup, map_append]
  refine List.Nodup.append ?_ ?_ ?_
  · exact hrunning.sublist (filter_sublist.map key)
  · exact hnodup.sublist (filter_sublist.map key)
  · intro k hk hk'
    obtain ⟨d, hd, rfl⟩ := mem_map.1 hk'
    have hfree := (mem_filter.1 hd).2
    rw [Bool.and_eq_true] at hfree
    exact absurd hk (by simpa using hfree.1)

end EdgePacer.Lib
