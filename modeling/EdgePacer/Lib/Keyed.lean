import EdgePacer.Lib.Lists
import EdgePacer.Lib.Trace
import Mathlib.Data.List.AList
import Mathlib.Data.List.Dedup

/-!
# Machines by key

A table keeps one machine for each key it has seen, up to a bound on their number; an input goes
to the machine of its key. A machine's step may not return, and then nothing after it is seen
(`Machine.feed`). As long as the bound is not reached and every step returns, what is put out for a
key is what that key's machine puts out for its own inputs (`Machine.lane_feed`): the inputs for
other keys make no difference.
-/

namespace EdgePacer.Lib

open List

universe u

variable {κ ε σ ρ : Type u}

/-- A machine for each key. -/
structure Machine (κ ε σ ρ : Type u) where
  key : ε → κ
  init : σ
  /-- The next state and the output; `none` when the step does not return. -/
  step : σ → ε → Option (σ × List ρ)

/-- The machines by key, and how many inputs were refused. -/
structure Keyed (κ σ : Type u) where
  entries : AList fun _ : κ => σ
  dropped : Nat

namespace Machine

variable [DecidableEq κ] (M : Machine κ ε σ ρ) (cap : Nat)

def fresh : Keyed κ σ := ⟨∅, 0⟩

variable (t : Keyed κ σ)

/-- The state of a key's machine; a new one starts at `init`. -/
def get (k : κ) : σ := (t.entries.lookup k).getD M.init

/-- An input for a key that is new when the table is full is refused. -/
def feedOne (e : ε) : Option (Keyed κ σ × List ρ) :=
  if (t.entries.lookup (M.key e)).isNone && cap ≤ t.entries.keys.length then
    some ({ t with dropped := t.dropped + 1 }, [])
  else
    (M.step (M.get t (M.key e)) e).map fun r =>
      ({ t with entries := t.entries.insert (M.key e) r.1 }, r.2)

/-- The table after an input; as it was if the step does not return. -/
def after (e : ε) : Keyed κ σ := ((M.feedOne cap t e).map Prod.fst).getD t

/-- All output with its keys, up to the first step that does not return. -/
def feed : Keyed κ σ → List ε → List (κ × ρ)
  | _, [] => []
  | t, e :: es =>
      match M.feedOne cap t e with
      | none => []
      | some (t', out) => out.map (fun r => (M.key e, r)) ++ feed t' es

/-- The output of one machine on its own. -/
def solo : σ → List ε → List ρ
  | _, [] => []
  | s, e :: es =>
      match M.step s e with
      | none => []
      | some (s', out) => out ++ solo s' es

/-- The inputs, one after the other, take a machine from one state to the other. -/
def Reached : σ → List ε → σ → Prop
  | s, [], s' => s = s'
  | s, e :: es, s' => ∃ s₁ out, M.step s e = some (s₁, out) ∧ Reached s₁ es s'

/-- There is room for the keys in the table and those of the inputs. -/
def Fits (es : List ε) : Prop :=
  ∃ ks : List κ, ks.length ≤ cap ∧ ∀ k ∈ t.entries.keys ++ es.map M.key, k ∈ ks

variable {M} {cap}

variable {es : List ε} {t : Keyed κ σ} {e : ε}

theorem fits_fresh (h : (es.map M.key).dedup.length ≤ cap) : M.Fits cap fresh es :=
  ⟨(es.map M.key).dedup, h, fun _ hk => mem_dedup.2 hk⟩

omit [DecidableEq κ] in
theorem Fits.filter (h : M.Fits cap t es) (q : ε → Bool) : M.Fits cap t (es.filter q) := by
  obtain ⟨ks, hlen, hks⟩ := h
  refine ⟨ks, hlen, fun k hk => hks k ?_⟩
  rcases mem_append.1 hk with hold | hnew
  · exact mem_append_left _ hold
  · obtain ⟨e, he, rfl⟩ := mem_map.1 hnew
    exact mem_append_right _ (mem_map_of_mem (mem_filter.1 he).1)

/-- Where there is room, an input reaches the machine of its key. -/
theorem Fits.feedOne_eq (h : M.Fits cap t (e :: es)) :
    M.feedOne cap t e = (M.step (M.get t (M.key e)) e).map fun r =>
      ({ t with entries := t.entries.insert (M.key e) r.1 }, r.2) := by
  rw [feedOne, if_neg]
  rw [Bool.and_eq_true, not_and, Option.isNone_iff_eq_none, decide_eq_true_iff]
  intro hnew
  obtain ⟨ks, hlen, hks⟩ := h
  have hnodup : (M.key e :: t.entries.keys).Nodup :=
    nodup_cons.2 ⟨AList.lookup_eq_none.1 hnew, t.entries.keys_nodup⟩
  have hsub : M.key e :: t.entries.keys ⊆ ks := by
    intro k hk
    rcases mem_cons.1 hk with rfl | hold
    · exact hks _ (mem_append_right _ mem_cons_self)
    · exact hks _ (mem_append_left _ hold)
  have hle := (subperm_of_subset hnodup hsub).length_le
  rw [length_cons] at hle
  omega

theorem Fits.tail (h : M.Fits cap t (e :: es)) (s : σ) :
    M.Fits cap { t with entries := t.entries.insert (M.key e) s } es := by
  obtain ⟨ks, hlen, hks⟩ := h
  refine ⟨ks, hlen, fun k hk => ?_⟩
  rcases mem_append.1 hk with hold | hnew
  · rcases AList.mem_insert _ |>.1 hold with rfl | hmem
    · exact hks _ (mem_append_right _ mem_cons_self)
    · exact hks _ (mem_append_left _ hmem)
  · exact hks _ (mem_append_right _ (mem_cons_of_mem _ hnew))

theorem feedOne_cases {t' : Keyed κ σ} {out : List ρ} (h : M.feedOne cap t e = some (t', out)) :
    (t' = { t with dropped := t.dropped + 1 } ∧ out = [] ∧ cap ≤ t.entries.keys.length) ∨
      ∃ s, M.step (M.get t (M.key e)) e = some (s, out) ∧
        t' = { t with entries := t.entries.insert (M.key e) s } := by
  unfold feedOne at h
  split at h
  · next hfull =>
    cases h
    rw [Bool.and_eq_true, decide_eq_true_iff] at hfull
    exact .inl ⟨rfl, rfl, hfull.2⟩
  · obtain ⟨⟨s, out'⟩, hstep, heq⟩ := Option.map_eq_some_iff.1 h
    cases heq
    exact .inr ⟨s, hstep, rfl⟩

section

omit [DecidableEq κ]

variable {s s' s'' : σ} {e : ε} {es : List ε} {out : List ρ}

theorem Reached.snoc (h : M.Reached s es s') (hstep : M.step s' e = some (s'', out)) :
    M.Reached s (es ++ [e]) s'' := by
  induction es generalizing s with
  | nil =>
    cases h
    exact ⟨s'', out, hstep, rfl⟩
  | cons e' es ih =>
    obtain ⟨s₁, out₁, hfirst, hrest⟩ := h
    exact ⟨s₁, out₁, hfirst, ih hrest⟩

theorem Reached.mem_solo (h : M.Reached s es s') (hstep : M.step s' e = some (s'', out)) {r : ρ}
    (hr : r ∈ out) : r ∈ M.solo s (es ++ [e]) := by
  induction es generalizing s with
  | nil =>
    cases h
    rw [nil_append, solo, hstep]
    exact mem_append_left _ hr
  | cons e' es ih =>
    obtain ⟨s₁, out₁, hfirst, hrest⟩ := h
    rw [cons_append, solo, hfirst]
    exact mem_append_right _ (ih hrest)

end

theorem get_insert (k k' : κ) (s : σ) :
    M.get { t with entries := t.entries.insert k s } k' = if k' = k then s else M.get t k' := by
  rw [get, get]
  split
  · rename_i h
    rw [h, AList.lookup_insert]
    rfl
  · rename_i h
    rw [AList.lookup_insert_ne h]

/-- Inputs for one key only: the table puts out what the machine does. -/
theorem lane_feed_of_key {k : κ} (es : List ε) (t : Keyed κ σ) (hkey : ∀ e ∈ es, M.key e = k)
    (hfits : M.Fits cap t es) : lane k (M.feed cap t es) = M.solo (M.get t k) es := by
  induction es generalizing t with
  | nil => rfl
  | cons e es ih =>
    have he := hkey e mem_cons_self
    rw [feed, solo, hfits.feedOne_eq, he]
    cases M.step (M.get t k) e with
    | none => rfl
    | some r =>
      have htail := hfits.tail r.1
      rw [he] at htail
      dsimp only [Option.map_some]
      rw [lane_append, lane_map_mk, if_pos rfl, map_id',
        ih _ ((forall_mem_cons.1 hkey).2) htail, get_insert, if_pos rfl]

section

variable {C : σ → ε → Prop} (hC : ∀ s e, C s e → (M.step s e).isSome)
include hC

/-- Where there is room, an input whose step returns changes the machine of its key only. -/
theorem Fits.returns {t : Keyed κ σ} {e : ε} {es : List ε} (h : M.Fits cap t (e :: es))
    (he : C (M.get t (M.key e)) e) :
    ∃ s out, M.step (M.get t (M.key e)) e = some (s, out) ∧
      M.feedOne cap t e = some ({ t with entries := t.entries.insert (M.key e) s }, out) ∧
      M.after cap t e = { t with entries := t.entries.insert (M.key e) s } := by
  obtain ⟨⟨s, out⟩, hr⟩ := Option.isSome_iff_exists.1 (hC _ _ he)
  have hone := h.feedOne_eq
  rw [hr] at hone
  refine ⟨s, out, hr, hone, ?_⟩
  rw [after, hone]
  rfl

variable (es : List ε) (t : Keyed κ σ)
  (hes : Each (M.after cap) (fun t e => C (M.get t (M.key e)) e) t es)
include hes

/-- **Isolation.** While there is room and every step returns, what is put out for a key is what its
machine puts out for its own inputs. -/
theorem lane_feed (k : κ) (hfits : M.Fits cap t es) :
    lane k (M.feed cap t es) = M.solo (M.get t k) (es.filter fun e => M.key e = k) := by
  induction es generalizing t with
  | nil => rfl
  | cons e es ih =>
    obtain ⟨s, out, hstep, hone, hafter⟩ := hfits.returns hC hes.1
    have hrest := ih _ (hafter ▸ hes.2) (hfits.tail s)
    rw [feed, hone, filter_cons]
    rw [lane_append, lane_map_mk, hrest, get_insert]
    by_cases hk : M.key e = k
    · rw [if_pos hk, if_pos hk.symm, if_pos (decide_eq_true hk), solo, ← hk, hstep, map_id']
    · rw [if_neg hk, if_neg (Ne.symm hk), if_neg (by simpa using hk), nil_append]

theorem Fits.foldl_after {es' : List ε} (hfits : M.Fits cap t (es ++ es')) :
    M.Fits cap (es.foldl (M.after cap) t) es' := by
  induction es generalizing t with
  | nil => exact hfits
  | cons e es ih =>
    obtain ⟨s, out, _, _, hafter⟩ := hfits.returns hC hes.1
    rw [foldl_cons, hafter]
    exact ih _ (hafter ▸ hes.2) (hfits.tail s)

/-- What a run puts out is what its parts put out, one after the other. -/
theorem feed_append (es' : List ε) (hfits : M.Fits cap t (es ++ es')) :
    M.feed cap t (es ++ es') = M.feed cap t es ++ M.feed cap (es.foldl (M.after cap) t) es' := by
  induction es generalizing t with
  | nil => rfl
  | cons e es ih =>
    obtain ⟨s, out, _, hone, hafter⟩ := hfits.returns hC hes.1
    rw [cons_append, feed, feed, hone, foldl_cons, hafter]
    dsimp only
    rw [ih _ (hafter ▸ hes.2) (hfits.tail s), append_assoc]

end

end Machine

end EdgePacer.Lib
