import EdgePacer.Lib.CopySweep

/-!
# Loops that rewrite an array in place

A pass visits the entries of an array in order and rewrites some of them, each from the array as it
is at that moment (`pass`). If no turn reads what earlier turns have written, the pass rewrites all
entries from the array it started with (`pass_getElem?`). Passes may be repeated until one rewrites
nothing (`passes`). If every turn copies a value from a fixed source and keeps the rest of the entry
(`Copies`), this is sweeping in place, and ends exactly if the values on the cycles of the sources
agree (`Copies.exists_passes_isSome`).
-/

namespace EdgePacer.Lib

open List Option Function

universe u v w

variable {α : Type u} {β : Type v} {γ : Type w}

/-- One turn: entry `i` is rewritten, or left alone (`none`). -/
def turn (f : List α → Nat → α → Option α) (state : List α × Bool) (i : Nat) : List α × Bool :=
  match state.1[i]?.bind (f state.1 i) with
  | none => state
  | some e => (state.1.set i e, true)

/-- One turn for each entry, and whether any was rewritten. -/
def pass (f : List α → Nat → α → Option α) (es : List α) : List α × Bool :=
  (List.range es.length).foldl (turn f) (es, false)

/-- Passes until one rewrites nothing; `none` when the fuel runs out before. -/
def passes (f : List α → Nat → α → Option α) : Nat → List α → Option (List α)
  | 0, _ => none
  | fuel + 1, es =>
      match pass f es with
      | (es', true) => passes f fuel es'
      | (es', false) => some es'

section

variable {f : List α → Nat → α → Option α}

variable {state : List α × Bool} {i : Nat}

theorem turn_of_none (h : ∀ e, state.1[i]? = some e → f state.1 i e = none) :
    turn f state i = state := by
  have hnone : state.1[i]?.bind (f state.1 i) = none := by
    cases hi : state.1[i]? with
    | none => rfl
    | some e => exact h e hi
  rw [turn, hnone]

theorem turn_of_some {e e' : α} (he : state.1[i]? = some e) (h : f state.1 i e = some e') :
    turn f state i = (state.1.set i e', true) := by
  have hsome : state.1[i]?.bind (f state.1 i) = some e' := by
    rw [he]
    exact h
  rw [turn, hsome]

theorem length_turn (state : List α × Bool) (i : Nat) :
    (turn f state i).1.length = state.1.length := by
  rw [turn]
  split
  · rfl
  · exact length_set

theorem length_foldl_turn (is : List Nat) (state : List α × Bool) :
    (is.foldl (turn f) state).1.length = state.1.length := by
  induction is generalizing state with
  | nil => rfl
  | cons i is ih => rw [foldl_cons, ih, length_turn]

theorem length_pass (es : List α) : (pass f es).1.length = es.length := length_foldl_turn _ _

theorem turn_changed (h : state.2 = true) (i : Nat) : (turn f state i).2 = true := by
  rw [turn]
  split
  · exact h
  · rfl

theorem turn_getElem?_of_ne (state : List α × Bool) {j : Nat} (h : i ≠ j) :
    (turn f state i).1[j]? = state.1[j]? := by
  rw [turn]
  split
  · rfl
  · exact List.getElem?_set_ne h

theorem pass_getElem?_of_none (h : ∀ es e, f es i e = none) (es : List α) :
    (pass f es).1[i]? = es[i]? := by
  have hturns : ∀ (is : List Nat) (state : List α × Bool),
      (is.foldl (turn f) state).1[i]? = state.1[i]? := by
    intro is
    induction is with
    | nil => exact fun _ => rfl
    | cons j is ih =>
      intro state
      rw [foldl_cons, ih]
      by_cases hj : j = i
      · rw [hj, turn_of_none fun e _ => h _ e]
      · exact turn_getElem?_of_ne state hj
  exact hturns _ _

theorem passes_getElem?_of_none (h : ∀ es e, f es i e = none) {fuel : Nat} {es result : List α}
    (hes : passes f fuel es = some result) : result[i]? = es[i]? := by
  induction fuel generalizing es with
  | zero => cases hes
  | succ fuel ih =>
    rw [passes] at hes
    have hpass := pass_getElem?_of_none h es
    split at hes
    · rename_i es' heq
      rw [heq] at hpass
      rw [ih hes, hpass]
    · rename_i es' heq
      rw [heq] at hpass
      cases hes
      exact hpass

/-- Passes that come back to an array they have been at do not end. -/
theorem passes_eq_none_of_period {es : List α} {n : Nat} (hn : 0 < n)
    (hchanged : ∀ k < n, (pass f ((fun es => (pass f es).1)^[k] es)).2 = true)
    (hperiod : (fun es => (pass f es).1)^[n] es = es) (fuel : Nat) : passes f fuel es = none := by
  have hpasses : ∀ fuel, ∀ k < n, passes f fuel ((fun es => (pass f es).1)^[k] es) = none := by
    intro fuel
    induction fuel with
    | zero => exact fun _ _ => rfl
    | succ fuel ih =>
      intro k hk
      have hnext : passes f fuel ((fun es => (pass f es).1)^[k + 1] es) = none := by
        by_cases hlast : k + 1 = n
        · rw [hlast, hperiod]
          exact ih 0 hn
        · exact ih (k + 1) (by omega)
      rw [iterate_succ_apply'] at hnext
      rw [passes]
      split
      · rename_i heq
        rw [heq] at hnext
        exact hnext
      · rename_i heq
        have hflag := hchanged k hk
        rw [heq] at hflag
        cases hflag
  exact hpasses fuel 0 hn

end

/-! ## Passes that do not read what they write -/

section

variable {f : List α → Nat → α → Option α} {R : α → α → Prop} {es : List α} (hrefl : ∀ e, R e e)
  (hkeep : ∀ i e e', es[i]? = some e → f es i e = some e' → R e e')
  (hread : ∀ es', List.Forall₂ R es es' → ∀ i e, es[i]? = some e → f es' i e = f es i e)

include hrefl hkeep hread

/-- The entries when the turns before `n` are over. -/
theorem foldl_turn_getElem? (n : Nat) (changed : Bool) (i : Nat) :
    ((List.range n).foldl (turn f) (es, changed)).1[i]? =
      es[i]?.map fun e => if i < n then (f es i e).getD e else e := by
  induction n generalizing i with
  | zero =>
    rw [range_zero, foldl_nil]
    simp only [Nat.not_lt_zero, if_false, Option.map_id_fun', id]
  | succ n ih =>
    rw [range_succ, foldl_append, foldl_cons, foldl_nil]
    generalize hstate : (List.range n).foldl (turn f) (es, changed) = state at ih
    have hlength : state.1.length = es.length := by rw [← hstate, length_foldl_turn]
    -- what has been written so far is not read
    have hnear : List.Forall₂ R es state.1 := by
      refine List.forall₂_iff_get.2 ⟨hlength.symm, fun j hj hj' => ?_⟩
      have hstart : es[j]? = some es[j] := List.getElem?_eq_getElem hj
      have hnow := ih j
      rw [List.getElem?_eq_getElem hj', hstart, map_some, some.injEq] at hnow
      rw [get_eq_getElem, get_eq_getElem, hnow]
      split
      · cases hf : f es j es[j] with
        | none => exact hrefl _
        | some e' => exact hkeep j _ e' hstart hf
      · exact hrefl _
    by_cases hi : n = i
    · subst hi
      have hnow := ih n
      cases hstart : es[n]? with
      | none =>
        rw [hstart, map_none] at hnow
        rw [turn_of_none fun e he => absurd (hnow.symm.trans he) (by simp), hnow, map_none]
      | some e =>
        rw [hstart, map_some, if_neg (lt_irrefl n)] at hnow
        rw [map_some, if_pos (Nat.lt_succ_self n)]
        have hf : f state.1 n e = f es n e := hread _ hnear n e hstart
        cases hfe : f es n e with
        | none =>
          rw [turn_of_none, hnow, getD_none]
          intro e₁ he₁
          cases hnow.symm.trans he₁
          exact hf.trans hfe
        | some e' =>
          rw [turn_of_some hnow (hf.trans hfe)]
          exact List.getElem?_set_self (List.getElem?_eq_some_iff.1 hnow).1
    · have hlt : i < n + 1 ↔ i < n := by omega
      rw [turn_getElem?_of_ne state hi, ih i]
      simp only [hlt]

/-- **Parallel passes.** If turns depend on the array only up to a relation that the rewritten
entries keep, every entry is rewritten from the array at the start. -/
theorem pass_getElem? (i : Nat) : (pass f es).1[i]? = es[i]?.map fun e => (f es i e).getD e := by
  rw [pass, foldl_turn_getElem? hrefl hkeep hread]
  cases hi : es[i]? with
  | none => rfl
  | some e => rw [map_some, map_some, if_pos (List.getElem?_eq_some_iff.1 hi).1]

end

/-! ## Passes that copy -/

/-- The values of the entries. -/
def values (value : α → β) (es : List α) (i : Nat) : Option β := es[i]?.map value

/-- On arrays of one shape, a turn copies the value of the entry's source: it leaves the entry alone
if it has that value, and rewrites the value alone if not. -/
structure Copies (S : Sources) (shape : α → γ) (value : α → β)
    (f : List α → Nat → α → Option α) (start : List α) : Prop where
  size : start.length = S.size
  left : ∀ {es : List α} {i : Nat} {e s : α}, es.map shape = start.map shape →
    es[i]? = some e → es[S.source i]? = some s → f es i e = none → value s = value e
  rewritten : ∀ {es : List α} {i : Nat} {e s e' : α}, es.map shape = start.map shape →
    es[i]? = some e → es[S.source i]? = some s → f es i e = some e' →
    shape e' = shape e ∧ value e' = value s ∧ value s ≠ value e

namespace Copies

variable {S : Sources} {shape : α → γ} {value : α → β} {f : List α → Nat → α → Option α}
  {start : List α}

variable {i : Nat}

variable {es : List α}

theorem values_set (e : α) (h : i < es.length) :
    values value (es.set i e) = update (values value es) i (some (value e)) := by
  funext j
  rw [values, List.getElem?_set, update_apply]
  by_cases hj : j = i
  · rw [if_pos hj, if_pos hj.symm, if_pos h, map_some]
  · rw [if_neg hj, if_neg (Ne.symm hj), values]

theorem map_set_of_shape {e e' : α} (he : es[i]? = some e) (h : shape e' = shape e) :
    (es.set i e').map shape = es.map shape := by
  obtain ⟨hi, rfl⟩ := List.getElem?_eq_some_iff.1 he
  rw [map_set, h, ← getElem_map shape (h := by rw [length_map]; exact hi), set_getElem_self]

variable (h : Copies S shape value f start)

include h

/-- A turn, as copying. -/
theorem turn_spec {state : List α × Bool} (hstate : state.1.map shape = start.map shape)
    (hi : i < S.size) :
    (turn f state i).1.map shape = start.map shape ∧
      values value (turn f state i).1 = S.copy (values value state.1) i ∧
      (values value state.1 (S.source i) = values value state.1 i → turn f state i = state) ∧
      (values value state.1 (S.source i) ≠ values value state.1 i → (turn f state i).2 = true) := by
  have hlength : state.1.length = S.size := by
    rw [← h.size, ← length_map shape, hstate, length_map]
  obtain ⟨e, he⟩ : ∃ e, state.1[i]? = some e := ⟨_, List.getElem?_eq_getElem (hlength.symm ▸ hi)⟩
  obtain ⟨s, hs⟩ : ∃ s, state.1[S.source i]? = some s :=
    ⟨_, List.getElem?_eq_getElem (hlength.symm ▸ S.inside i hi)⟩
  have hvalue : values value state.1 i = some (value e) := by rw [values, he, map_some]
  have hsource : values value state.1 (S.source i) = some (value s) := by
    rw [values, hs, map_some]
  rw [Sources.copy, hsource, hvalue]
  cases hf : f state.1 i e with
  | none =>
    have hsame : value s = value e := h.left hstate he hs hf
    have hturn : turn f state i = state := by
      refine turn_of_none fun e₁ he₁ => ?_
      cases he.symm.trans he₁
      exact hf
    rw [hturn]
    refine ⟨hstate, ?_, fun _ => rfl, fun hne => absurd (congrArg some hsame) hne⟩
    rw [hsame, ← hvalue, update_eq_self]
  | some e' =>
    obtain ⟨hshape, hcopied, hne⟩ := h.rewritten hstate he hs hf
    rw [turn_of_some he hf]
    refine ⟨(map_set_of_shape he hshape).trans hstate, ?_,
      fun hsame => absurd (some.inj hsame) hne, fun _ => rfl⟩
    rw [values_set e' (List.getElem?_eq_some_iff.1 he).1, hcopied]

theorem foldl_turn_spec (hes : es.map shape = start.map shape) {n : Nat} (hn : n ≤ S.size) :
    ((List.range n).foldl (turn f) (es, false)).1.map shape = start.map shape ∧
      values value ((List.range n).foldl (turn f) (es, false)).1 =
        (List.range n).foldl S.copy (values value es) ∧
      ((∀ i < n, values value es (S.source i) = values value es i) →
        (List.range n).foldl (turn f) (es, false) = (es, false)) ∧
      ((∃ i < n, values value es (S.source i) ≠ values value es i) →
        ((List.range n).foldl (turn f) (es, false)).2 = true) := by
  induction n with
  | zero => exact ⟨hes, rfl, fun _ => rfl, fun ⟨_, hi, _⟩ => absurd hi (Nat.not_lt_zero _)⟩
  | succ n ih =>
    obtain ⟨hshape, hvalues, hsame, hchanged⟩ := ih (Nat.le_of_succ_le hn)
    rw [range_succ, foldl_append, foldl_append, foldl_cons, foldl_nil, foldl_cons, foldl_nil]
    obtain ⟨hshape', hvalues', hsame', hchanged'⟩ := h.turn_spec hshape hn
    refine ⟨hshape', by rw [hvalues', hvalues], fun hall => ?_, fun hsome => ?_⟩
    · have hbefore := hsame fun i hi => hall i (Nat.lt_succ_of_lt hi)
      rw [hbefore] at hsame' ⊢
      exact hsame' (hall n (Nat.lt_succ_self n))
    · by_cases hbefore : ∃ i < n, values value es (S.source i) ≠ values value es i
      · exact turn_changed (hchanged hbefore) n
      · -- nothing has been rewritten before the last turn
        have hall : ∀ i < n, values value es (S.source i) = values value es i := by
          intro i hi
          by_contra hne
          exact hbefore ⟨i, hi, hne⟩
        rw [hsame hall] at hchanged' ⊢
        obtain ⟨i, hi, hne⟩ := hsome
        have hlast : i = n := by
          by_contra hin
          exact hne (hall i (by omega))
        exact hchanged' (hlast ▸ hne)

/-- A pass, as a sweep. -/
theorem pass_spec (hes : es.map shape = start.map shape) :
    (pass f es).1.map shape = start.map shape ∧
      values value (pass f es).1 = S.sweep (values value es) ∧
      (S.Settled (values value es) → pass f es = (es, false)) ∧
      (¬S.Settled (values value es) → (pass f es).2 = true) := by
  have hlength : es.length = S.size := by
    rw [← h.size, ← length_map shape, hes, length_map]
  obtain ⟨hshape, hvalues, hsame, hchanged⟩ := h.foldl_turn_spec hes (Nat.le_refl S.size)
  rw [pass, hlength]
  refine ⟨hshape, hvalues, fun hsettled => hsame fun i _ => hsettled i, fun hnot => hchanged ?_⟩
  obtain ⟨i, hne⟩ := not_forall.1 hnot
  refine ⟨i, ?_, hne⟩
  -- outside, nodes are their own sources
  by_contra hi
  exact hne (congrArg _ (S.outside i (not_lt.1 hi)))

/-- What passes that end leave behind. -/
theorem passes_spec {fuel : Nat} {es result : List α} (hes : es.map shape = start.map shape)
    (hresult : passes f fuel es = some result) :
    result.map shape = start.map shape ∧ S.Settled (values value result) := by
  induction fuel generalizing es with
  | zero => cases hresult
  | succ fuel ih =>
    obtain ⟨hshape, _, hsame, hchanged⟩ := h.pass_spec hes
    rw [passes] at hresult
    by_cases hsettled : S.Settled (values value es)
    · rw [hsame hsettled] at hresult
      cases hresult
      exact ⟨hes, hsettled⟩
    · split at hresult
      · rename_i es' heq
        rw [heq] at hshape
        exact ih hshape hresult
      · rename_i es' heq
        have hflag := hchanged hsettled
        rw [heq] at hflag
        cases hflag

theorem passes_isSome_iff (fuel : Nat) (hes : es.map shape = start.map shape) :
    (passes f fuel es).isSome ↔ ∃ n < fuel, S.Settled (S.sweep^[n] (values value es)) := by
  induction fuel generalizing es with
  | zero =>
    constructor
    · intro hsome
      cases hsome
    · rintro ⟨n, hn, _⟩
      exact absurd hn (Nat.not_lt_zero n)
  | succ fuel ih =>
    obtain ⟨hshape, hvalues, hsame, hchanged⟩ := h.pass_spec hes
    rw [passes]
    by_cases hsettled : S.Settled (values value es)
    · rw [hsame hsettled]
      exact ⟨fun _ => ⟨0, Nat.succ_pos fuel, hsettled⟩, fun _ => rfl⟩
    · have hflag := hchanged hsettled
      split
      · rename_i es' heq
        rw [heq] at hshape hvalues
        rw [ih hshape, hvalues]
        constructor
        · rintro ⟨n, hn, hn'⟩
          exact ⟨n + 1, Nat.succ_lt_succ hn, hn'⟩
        · rintro ⟨n, hn, hn'⟩
          cases n with
          | zero => exact absurd hn' hsettled
          | succ n => exact ⟨n, Nat.lt_of_succ_lt_succ hn, hn'⟩
      · rename_i es' heq
        rw [heq] at hflag
        cases hflag

/-- **Passes that copy end** exactly if the values on the cycles of the sources agree. -/
theorem exists_passes_isSome :
    (∃ fuel, (passes f fuel start).isSome) ↔ S.Agree (values value start) := by
  rw [← S.settles_iff]
  constructor
  · rintro ⟨fuel, hfuel⟩
    obtain ⟨n, _, hn⟩ := (h.passes_isSome_iff fuel rfl).1 hfuel
    exact ⟨n, hn⟩
  · rintro ⟨n, hn⟩
    exact ⟨n + 1, (h.passes_isSome_iff (n + 1) rfl).2 ⟨n, Nat.lt_succ_self n, hn⟩⟩

end Copies

end EdgePacer.Lib
