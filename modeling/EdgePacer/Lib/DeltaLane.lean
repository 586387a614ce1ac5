import Mathlib.Data.List.Nodup
import Mathlib.Data.List.Induction

/-!
# Replicating a table by deltas

A sender holds a table it has committed and scans the next one; a receiver is told, key by key,
what is new, what is gone and what changed in a part of the item that the sender watches (`tell`).
A receiver that applies such a delta holds for every key of the scan the item it was last told
about (`settle`), shown in the form in which the sender reports items: `getElem?_applyOps_of_tells`
is the one step, and `settle_isSome`, `map_settle` say that the keys are exactly those of the scan
and that the watched part is up to date. Watching the whole item makes the receiver's table equal
to the scan (`settle_id`).
-/

namespace EdgePacer.Lib

open List Option

open Std (ExtTreeMap TransOrd LawfulEqOrd)

universe u v w

variable {κ : Type u} {α : Type v} {β : Type w}

/-! ## The last word about a key -/

section

variable [DecidableEq κ]

/-- The value of the last pair with the given key. -/
def lastFor (k : κ) : List (κ × α) → Option α
  | [] => none
  | p :: ps => (lastFor k ps).or (if p.1 = k then some p.2 else none)

variable (k : κ) (ps : List (κ × α)) (keys : List κ)

@[simp] theorem lastFor_nil : lastFor k ([] : List (κ × α)) = none := rfl

theorem lastFor_append (qs : List (κ × α)) :
    lastFor k (ps ++ qs) = (lastFor k qs).or (lastFor k ps) := by
  induction ps with
  | nil => simp
  | cons p ps ih => rw [cons_append, lastFor, ih, lastFor, Option.or_assoc]

theorem lastFor_eq_none_iff {k : κ} {ps : List (κ × α)} :
    lastFor k ps = none ↔ k ∉ ps.map Prod.fst := by
  induction ps with
  | nil => simp
  | cons p ps ih =>
    rw [lastFor, or_eq_none_iff, ih, map_cons, and_comm]
    simp [eq_comm]

theorem lastFor_of_mem {k : κ} {a : α} {ps : List (κ × α)} (hnd : (ps.map Prod.fst).Nodup)
    (h : (k, a) ∈ ps) : lastFor k ps = some a := by
  induction ps with
  | nil => cases h
  | cons p ps ih =>
    rw [map_cons, nodup_cons] at hnd
    rcases mem_cons.1 h with rfl | hmem
    · rw [lastFor, lastFor_eq_none_iff.2 hnd.1, none_or, if_pos rfl]
    · rw [lastFor, ih hnd.2 hmem, some_or]

theorem lastFor_perm {ps qs : List (κ × α)} (h : ps.Perm qs) (hnd : (ps.map Prod.fst).Nodup)
    (k : κ) : lastFor k ps = lastFor k qs := by
  by_cases hk : k ∈ ps.map Prod.fst
  · obtain ⟨⟨k', a⟩, hp, rfl⟩ := mem_map.1 hk
    rw [lastFor_of_mem hnd hp, lastFor_of_mem ((h.map _).nodup hnd) (h.subset hp)]
  · rw [lastFor_eq_none_iff.2 hk, lastFor_eq_none_iff.2 fun hq => hk ((h.map _).symm.subset hq)]

theorem lastFor_filter (keep : κ → Bool) (ps : List (κ × α)) :
    lastFor k (ps.filter fun p => keep p.1) = if keep k then lastFor k ps else none := by
  induction ps with
  | nil => simp
  | cons p ps ih =>
    by_cases hk : p.1 = k
    · cases hkeep : keep k <;> simp [lastFor, ih, hk, hkeep]
    · cases hp : keep p.1 <;> simp [lastFor, ih, hk, hp]

theorem lastFor_map_snd (f : α → β) (ps : List (κ × α)) :
    lastFor k (ps.map fun p => (p.1, f p.2)) = (lastFor k ps).map f := by
  induction ps with
  | nil => rfl
  | cons p ps ih =>
    rw [map_cons, lastFor, lastFor, ih, map_or]
    split <;> rfl

/-! ## Keys in the order of their first sighting -/

/-- The keys of a list, each once, in the order in which they first occur. -/
def firstSightings (keys : List κ) : List κ :=
  keys.foldl (fun order k => if k ∈ order then order else order ++ [k]) []

theorem firstSightings_spec :
    (firstSightings keys).Nodup ∧ ∀ k, k ∈ firstSightings keys ↔ k ∈ keys := by
  rw [firstSightings]
  induction keys using reverseRecOn with
  | nil => exact ⟨nodup_nil, fun k => .rfl⟩
  | append_singleton keys key ih =>
    obtain ⟨hnd, hmem⟩ := ih
    rw [foldl_append, foldl_cons, foldl_nil]
    generalize keys.foldl _ [] = seen at hnd hmem
    by_cases hkey : key ∈ seen
    · rw [if_pos hkey]
      refine ⟨hnd, fun k => ?_⟩
      rw [mem_append, ← hmem, mem_singleton]
      exact (or_iff_left_of_imp fun hk => hk ▸ hkey).symm
    · rw [if_neg hkey]
      refine ⟨?_, fun k => ?_⟩
      · rw [nodup_append_comm]
        exact nodup_cons.2 ⟨hkey, hnd⟩
      · rw [mem_append, mem_append, hmem]

theorem nodup_firstSightings : (firstSightings keys).Nodup := (firstSightings_spec keys).1

theorem mem_firstSightings {keys : List κ} {k : κ} : k ∈ firstSightings keys ↔ k ∈ keys :=
  (firstSightings_spec keys).2 k

/-- Of the lists that distinct keys contribute, only the key's own survives a filter by key. -/
theorem filter_flatMap_key (key : α → κ) (f : κ → List α) (keys : List κ) (hnd : keys.Nodup)
    (hkey : ∀ k ∈ keys, ∀ a ∈ f k, key a = k) (k : κ) :
    (keys.flatMap f).filter (fun a => key a = k) = if k ∈ keys then f k else [] := by
  induction keys with
  | nil => rfl
  | cons k' keys ih =>
    rw [nodup_cons] at hnd
    have hrest := ih hnd.2 (forall_mem_cons.1 hkey).2
    rw [flatMap_cons, filter_append, hrest]
    have hown := hkey k' mem_cons_self
    by_cases hk : k' = k
    · subst hk
      rw [if_neg hnd.1, append_nil, if_pos mem_cons_self, filter_eq_self]
      exact fun a ha => decide_eq_true (hown a ha)
    · have hnone : (f k').filter (fun a => key a = k) = [] :=
        filter_eq_nil_iff.2 fun a ha => by simp [hown a ha, hk]
      rw [hnone]
      simp [Ne.symm hk]

end

/-! ## Tables -/

section

variable [Ord κ] [TransOrd κ]

/-- Put or remove entries in order: `some` puts, `none` removes. -/
def applyOps (m : ExtTreeMap κ α) (ops : List (κ × Option α)) : ExtTreeMap κ α :=
  ops.foldl (fun m op =>
    match op.2 with
    | some a => m.insert op.1 a
    | none => m.erase op.1) m

/-- Collect items under their keys, each group in the order of the items. -/
def groupByKey (key : α → κ) (items : List α) : ExtTreeMap κ (List α) :=
  items.foldl (fun m a => m.insert (key a) (m.getD (key a) [] ++ [a])) ∅

variable [LawfulEqOrd κ]

variable (t : ExtTreeMap κ α) (k : κ) (key : α → κ) (items : List α)

theorem nodup_fst_toList : (t.toList.map Prod.fst).Nodup := by
  refine List.Pairwise.map _ ?_ ExtTreeMap.ordered_keys_toList
  intro a b hlt heq
  rw [heq] at hlt
  simp at hlt

variable [DecidableEq κ]

theorem getElem?_applyOps (ops : List (κ × Option α)) (m : ExtTreeMap κ α) (k : κ) :
    (applyOps m ops)[k]? = (lastFor k ops).getD m[k]? := by
  induction ops generalizing m with
  | nil => rfl
  | cons op ops ih =>
    rw [applyOps, foldl_cons, ← applyOps, ih, lastFor]
    -- a later operation on the same key hides this one
    cases lastFor k ops with
    | some o => rfl
    | none =>
      obtain ⟨k', o⟩ := op
      by_cases hk : k' = k
      · subst hk
        cases o <;> simp
      · cases o with
        | none => simp [hk, ExtTreeMap.getElem?_erase]
        | some a => simp [hk, ExtTreeMap.getElem?_insert]

/-- Inserting items one by one leaves the last one of each key. -/
theorem getElem?_foldl_insert (m : ExtTreeMap κ α) (k : κ) :
    (items.foldl (fun m a => m.insert (key a) a) m)[k]? =
      (lastFor k (items.map fun a => (key a, a))).or m[k]? := by
  induction items generalizing m with
  | nil => rfl
  | cons a items ih =>
    rw [foldl_cons, ih, map_cons, lastFor]
    by_cases hk : key a = k
    · simp [hk]
    · simp [hk, ExtTreeMap.getElem?_insert]

theorem getD_foldl_group (m : ExtTreeMap κ (List α)) (k : κ) :
    (items.foldl (fun m a => m.insert (key a) (m.getD (key a) [] ++ [a])) m)[k]? =
      if items.filter (fun a => key a = k) = [] then m[k]?
      else some (m.getD k [] ++ items.filter fun a => key a = k) := by
  induction items generalizing m with
  | nil => rfl
  | cons a items ih =>
    rw [foldl_cons, ih]
    by_cases hk : key a = k
    · subst hk
      split
      · rename_i hnone
        simp [hnone]
      · simp
    · simp [hk, ExtTreeMap.getElem?_insert, ExtTreeMap.getD_insert]

theorem getElem?_groupByKey (k : κ) :
    (groupByKey key items)[k]? =
      if items.filter (fun a => key a = k) = [] then none
      else some (items.filter fun a => key a = k) := by
  rw [groupByKey, getD_foldl_group]
  simp

theorem lastFor_toList : lastFor k t.toList = t[k]? := by
  cases h : t[k]? with
  | some a =>
    exact lastFor_of_mem (nodup_fst_toList t) (ExtTreeMap.mem_toList_iff_getElem?_eq_some.2 h)
  | none =>
    rw [lastFor_eq_none_iff]
    intro hmem
    obtain ⟨⟨k', a⟩, hp, rfl⟩ := mem_map.1 hmem
    rw [ExtTreeMap.mem_toList_iff_getElem?_eq_some.1 hp] at h
    cases h

end

/-! ## Telling a receiver -/

section

variable [DecidableEq β] {γ : Type*} (view : α → β) (shown : α → γ)

/-- What a sender with `committed` and `scanned` for a key tells: nothing, that the key is gone, or
the scanned item in its reported form. -/
def tell (committed scanned : Option α) : Option (Option γ) :=
  match committed, scanned with
  | none, none => none
  | some _, none => some none
  | none, some new => some (some (shown new))
  | some old, some new => if view old = view new then none else some (some (shown new))

/-- The item a receiver is left with: the one it was last told about. -/
def settle (held scanned : Option α) : Option α :=
  match held, scanned with
  | _, none => none
  | none, some new => some new
  | some old, some new => if view old = view new then some old else some new

@[simp] theorem settle_isSome (held scanned : Option α) :
    (settle view held scanned).isSome = scanned.isSome := by
  cases held <;> cases scanned <;> simp only [settle]
  split <;> rfl

@[simp] theorem map_settle (held scanned : Option α) :
    (settle view held scanned).map view = scanned.map view := by
  cases held <;> cases scanned <;> simp only [settle]
  split
  · rename_i hview
    rw [map_some, map_some, hview]
  · rfl

theorem settle_id [DecidableEq α] (held scanned : Option α) : settle id held scanned = scanned := by
  cases held <;> cases scanned <;> simp only [settle, id]
  split
  · rename_i h
    rw [h]
  · rfl

variable (scanned : Option α)

/-- A receiver that holds what it was told, and of the same view as what is committed, is left with
the settled item when it is told the difference. -/
theorem tell_getD {held committed : Option α} (h : held.map view = committed.map view) :
    (tell view shown committed scanned).getD (held.map shown) =
      (settle view held scanned).map shown := by
  cases held with
  | none =>
    cases committed with
    | some _ => cases h
    | none => cases scanned <;> rfl
  | some old =>
    cases committed with
    | none => cases h
    | some prev =>
      have hview : view old = view prev := by simpa using h
      cases scanned with
      | none => rfl
      | some new =>
        simp only [tell, settle, hview]
        split <;> rfl

variable [DecidableEq κ] [Ord κ] [TransOrd κ] [LawfulEqOrd κ]

/-- One delta, applied by a receiver that is in step. -/
theorem getElem?_applyOps_of_tells {m : ExtTreeMap κ γ} {ops : List (κ × Option γ)}
    {held committed scanned : κ → Option α}
    (hops : ∀ k, lastFor k ops = tell view shown (committed k) (scanned k))
    (hm : ∀ k : κ, m[k]? = (held k).map shown)
    (hview : ∀ k, (held k).map view = (committed k).map view) (k : κ) :
    (applyOps m ops)[k]? = (settle view (held k) (scanned k)).map shown := by
  rw [getElem?_applyOps, hops, hm, tell_getD view shown _ (hview k)]

end

end EdgePacer.Lib
