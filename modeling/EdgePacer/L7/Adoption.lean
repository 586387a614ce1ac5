import EdgePacer.L7.Causality

/-!
# Who adopts whom

The two adoption passes work in place, but neither reads what it writes: a pass rewrites spans of
one kind and looks for parents among those of another. The parents are therefore functions of the
batch (`localParent`, `linkParent`), and so are the trace ids and the contexts that the two passes
leave behind (`traceAt_linked`, `inheritedAt_linked`).
-/

namespace EdgePacer.L7

open Lib LocalSpan Option

/-! ## What the search for a parent looks at -/

/-- A span without what adoption rewrites. -/
def LocalSpan.shape (span : LocalSpan) : LocalSpan :=
  { span with
    ctx := { span.ctx with traceId := [] }
    record := { span.record with propagated := none } }

variable {a b : LocalSpan} {j : Nat} {w : Int64} {parent : LocalSpan}

section

variable (h : a.shape = b.shape)

include h

theorem LocalSpan.kind_eq : a.kind = b.kind := (congrArg kind h :)

theorem LocalSpan.spanId_eq : a.ctx.spanId = b.ctx.spanId :=
  (congrArg (fun span : LocalSpan => span.ctx.spanId) h :)

theorem LocalSpan.window_eq : window a.record = window b.record :=
  (congrArg (fun span : LocalSpan => window span.record) h :)

end

variable {fits : Nat → LocalSpan → Bool} {es : List LocalSpan}

theorem tighter_congr (hfits : fits j a = fits j b) (h : a.shape = b.shape)
    (best : Option (Nat × Int64)) : tighter fits j a best = tighter fits j b best := by
  have hwidth : width a.record = width b.record := by
    rw [width, width, window_eq h]
  rw [tighter.eq_def, tighter.eq_def, hfits, hwidth]

section

variable (hfits : ∀ (j : Nat) (a b : LocalSpan), a.shape = b.shape → fits j a = fits j b)
  {es' : List LocalSpan} (h : es.map shape = es'.map shape)

include hfits h

theorem tightestFrom_congr (j : Nat)
    (best : Option (Nat × Int64)) : tightestFrom fits es j best = tightestFrom fits es' j best := by
  induction es generalizing j best es' with
  | nil =>
    rw [List.map_nil, eq_comm, List.map_eq_nil_iff] at h
    rw [h]
  | cons e es ih =>
    obtain ⟨e', es'', rfl, he, hes⟩ := List.map_eq_cons_iff.1 h.symm
    rw [tightestFrom, tighter_congr (hfits j e e' he.symm) he.symm]
    exact ih hes.symm _ _

theorem tightest_congr : tightest fits es = tightest fits es' := by
  rw [tightest, tightest, tightestFrom_congr hfits h]

end

/-- What a scan has found: nothing that fits, or the tightest of the entries that fit with its
width, the first of several. -/
def Best (fits : Nat → LocalSpan → Bool) (es : List LocalSpan) : Option (Nat × Int64) → Prop
  | none => ∀ k e, es[k]? = some e → fits k e = false
  | some (j, w) => (∃ e, es[j]? = some e ∧ fits j e = true ∧ width e.record = w) ∧
      ∀ k e, es[k]? = some e → fits k e = true → w < width e.record ∨ w = width e.record ∧ j ≤ k

theorem Best.tighter {best : Option (Nat × Int64)} (h : Best fits es best) (e : LocalSpan) :
    Best fits (es ++ [e]) (tighter fits es.length e best) := by
  have hsplit : ∀ {k e'}, (es ++ [e])[k]? = some e' →
      es[k]? = some e' ∨ k = es.length ∧ e' = e := by
    intro k e' hk
    rcases Nat.lt_trichotomy k es.length with hlt | rfl | hgt
    · rw [List.getElem?_append_left hlt] at hk
      exact .inl hk
    · rw [List.getElem?_concat_length] at hk
      exact .inr ⟨rfl, (Option.some.inj hk).symm⟩
    · rw [List.getElem?_eq_none (by simp; omega)] at hk
      cases hk
  have hlast : (es ++ [e])[es.length]? = some e := List.getElem?_concat_length
  rw [tighter.eq_def]
  split
  · next hfits =>
    rcases best with _ | ⟨j, w⟩
    · refine ⟨⟨e, hlast, hfits, rfl⟩, fun k e' hk hfits' => ?_⟩
      rcases hsplit hk with hk | ⟨rfl, rfl⟩
      · rw [h k e' hk] at hfits'
        cases hfits'
      · exact .inr ⟨rfl, le_rfl⟩
    · obtain ⟨⟨b, hb, hbfits, hbw⟩, hleast⟩ := h
      dsimp only
      split
      · next hlt =>
        refine ⟨⟨e, hlast, hfits, rfl⟩, fun k e' hk hfits' => ?_⟩
        rcases hsplit hk with hk | ⟨rfl, rfl⟩
        · rcases hleast k e' hk hfits' with hw | ⟨rfl, -⟩
          · exact .inl (Int64.lt_trans hlt hw)
          · exact .inl hlt
        · exact .inr ⟨rfl, le_rfl⟩
      · next hge =>
        have hj : j < es.length := (List.getElem?_eq_some_iff.1 hb).1
        refine ⟨⟨b, by rw [List.getElem?_append_left hj, hb], hbfits, hbw⟩,
          fun k e' hk hfits' => ?_⟩
        rcases hsplit hk with hk | ⟨rfl, rfl⟩
        · exact hleast k e' hk hfits'
        · rw [Int64.not_lt] at hge
          rcases Int64.lt_or_eq_of_le hge with hlt | heq
          · exact .inl hlt
          · exact .inr ⟨heq, hj.le⟩
  · next hfits =>
    rcases best with _ | ⟨j, w⟩
    · intro k e' hk
      rcases hsplit hk with hk | ⟨rfl, rfl⟩
      · exact h k e' hk
      · exact Bool.eq_false_iff.2 hfits
    · obtain ⟨⟨b, hb, hbfits, hbw⟩, hleast⟩ := h
      have hj : j < es.length := (List.getElem?_eq_some_iff.1 hb).1
      refine ⟨⟨b, by rw [List.getElem?_append_left hj, hb], hbfits, hbw⟩, fun k e' hk hfits' => ?_⟩
      rcases hsplit hk with hk | ⟨rfl, rfl⟩
      · exact hleast k e' hk hfits'
      · exact absurd hfits' hfits

theorem tightestFrom_concat (e : LocalSpan) (j : Nat) (best : Option (Nat × Int64)) :
    tightestFrom fits (es ++ [e]) j best =
      tighter fits (j + es.length) e (tightestFrom fits es j best) := by
  induction es generalizing j best with
  | nil => rfl
  | cons a es ih =>
    rw [List.cons_append, tightestFrom, ih, tightestFrom, List.length_cons]
    congr 1
    omega

theorem best_tightestFrom (es : List LocalSpan) : Best fits es (tightestFrom fits es 0 none) := by
  induction es using List.reverseRecOn with
  | nil =>
    intro k e h
    cases h
  | append_singleton es e ih =>
    rw [tightestFrom_concat, Nat.zero_add]
    exact ih.tighter e

/-- The first of the tightest entries that fit. -/
def Tightest (fits : Nat → LocalSpan → Bool) (es : List LocalSpan) (j : Nat) : Prop :=
  ∃ e, es[j]? = some e ∧ fits j e = true ∧ ∀ k e', es[k]? = some e' → fits k e' = true →
    width e.record < width e'.record ∨ width e.record = width e'.record ∧ j ≤ k

theorem tightest_eq_some : tightest fits es = some j ↔ Tightest fits es j := by
  have hbest : Best fits es (tightestFrom fits es 0 none) := best_tightestFrom es
  rw [tightest, Option.map_eq_some_iff]
  constructor
  · rintro ⟨⟨j, w⟩, hj, rfl⟩
    rw [hj] at hbest
    obtain ⟨⟨e, he, hfits, rfl⟩, hleast⟩ := hbest
    exact ⟨e, he, hfits, hleast⟩
  · rintro ⟨e, he, hfits, hleast⟩
    cases hscan : tightestFrom fits es 0 none with
    | none =>
      rw [hscan] at hbest
      rw [hbest j e he] at hfits
      cases hfits
    | some found =>
      obtain ⟨j', w⟩ := found
      rw [hscan] at hbest
      obtain ⟨⟨e', he', hfits', rfl⟩, hleast'⟩ := hbest
      refine ⟨_, rfl, ?_⟩
      -- two tightest entries have one width and are before each other
      rcases hleast j' e' he' hfits' with hlt | ⟨heq, hle⟩
      · rcases hleast' j e he hfits with hlt' | ⟨heq', -⟩
        · exact (Int64.lt_irrefl (Int64.lt_trans hlt hlt')).elim
        · exact (Int64.lt_irrefl (heq' ▸ hlt)).elim
      · rcases hleast' j e he hfits with hlt' | ⟨-, hle'⟩
        · exact (Int64.lt_irrefl (heq ▸ hlt')).elim
        · exact le_antisymm hle' hle

theorem tightest_some (h : tightest fits es = some j) : ∃ e, es[j]? = some e ∧ fits j e = true := by
  obtain ⟨e, he, hfits, -⟩ := tightest_eq_some.1 h
  exact ⟨e, he, hfits⟩

/-! ## Adopting -/

/-- What adoption makes of a child. -/
structure Adopted (child parent child' : LocalSpan) : Prop where
  shape : child'.shape = child.shape
  traceId : child'.ctx.traceId = parent.ctx.traceId
  inherited : child'.inherited = parent.inherited
  parentSpanId : ∃ context, child'.record.propagated = some context ∧
    context.parentSpanId.1 = parent.ctx.spanId

/-- Ids of the lengths that a parent must have. -/
def wellFormedIds (traceId spanId : Bytes) : Bool := traceId.length = 16 && spanId.length = 8

theorem tryFrom_isSome {n : Nat} {bytes : Bytes} :
    (tryFrom n bytes).isSome = decide (bytes.length = n) := by
  rw [tryFrom]
  split
  · rename_i h
    exact (decide_eq_true h).symm
  · rename_i h
    exact (decide_eq_false h).symm

theorem adopt_of_wellFormed (child : LocalSpan)
    (h : wellFormedIds parent.ctx.traceId parent.ctx.spanId = true) :
    ∃ child', adopt child parent = some child' ∧ Adopted child parent child' := by
  rw [wellFormedIds, Bool.and_eq_true, ← tryFrom_isSome, ← tryFrom_isSome] at h
  obtain ⟨traceId, htrace⟩ := Option.isSome_iff_exists.1 h.1
  obtain ⟨spanId, hspan⟩ := Option.isSome_iff_exists.1 h.2
  rw [adopt, htrace, hspan]
  exact ⟨_, rfl, rfl, tryFrom_eq_some htrace, rfl, _, rfl, tryFrom_eq_some hspan⟩

theorem adopt_of_not_wellFormed {child : LocalSpan}
    (h : wellFormedIds parent.ctx.traceId parent.ctx.spanId = false) :
    adopt child parent = none := by
  rw [wellFormedIds, ← tryFrom_isSome, ← tryFrom_isSome] at h
  rw [adopt]
  cases htrace : tryFrom 16 parent.ctx.traceId with
  | none => rfl
  | some traceId =>
    rw [htrace] at h
    cases hspan : tryFrom 8 parent.ctx.spanId with
    | none => rfl
    | some spanId =>
      rw [hspan] at h
      cases h

/-! ## An adoption pass -/

def traceAt (entries : List LocalSpan) (i : Nat) : Option Bytes :=
  entries[i]?.map fun span => span.ctx.traceId

def spanIdAt (entries : List LocalSpan) (i : Nat) : Option Bytes :=
  entries[i]?.map fun span => span.ctx.spanId

/-- The trace flags and state of a span. -/
def inheritedAt (entries : List LocalSpan) (i : Nat) : Option (UInt8 × String) :=
  entries[i]?.map inherited

/-- The span that a bare span of a kind would adopt. -/
def candidate (kind : SpanKind) (fits : LocalSpan → LocalSpan → Bool) (entries : List LocalSpan)
    (i : Nat) : Option Nat := do
  let span ← entries[i]?
  if span.kind ≠ some kind || span.record.propagated.isSome then none
  else tightest (fun j other => j != i && fits span other) entries

/-- The span that it adopts, when the spans have the given trace ids. -/
def parentFor (kind : SpanKind) (fits : LocalSpan → LocalSpan → Bool)
    (traces : Nat → Option Bytes) (entries : List LocalSpan) (i : Nat) : Option Nat := do
  let j ← candidate kind fits entries i
  let traceId ← traces j
  let spanId ← spanIdAt entries j
  if wellFormedIds traceId spanId then some j else none

/-- Take a value from the parent, if there is one. -/
def handDown {β : Type} (parent : Nat → Option Nat) (value : Nat → β) (i : Nat) : β :=
  match parent i with
  | some j => value j
  | none => value i

/-- A pass over one kind whose parents are of another kind and are chosen by their shape. -/
structure Selects (kind : SpanKind) (fits : LocalSpan → LocalSpan → Bool) : Prop where
  other : ∀ {span other}, fits span other = true → other.kind ≠ some kind
  shape : ∀ {span a b}, a.shape = b.shape → fits span a = fits span b

theorem selects_local : Selects .client servesClient where
  other := by
    intro span other h hkind
    rw [servesClient, hkind] at h
    cases h
  shape := by
    intro span a b h
    have hshape := congrArg (servesClient span) h
    exact hshape

theorem selects_link : Selects .server callsServer where
  other := by
    intro span other h hkind
    rw [callsServer, hkind] at h
    cases h
  shape := by
    intro span a b h
    have hshape := congrArg (callsServer span) h
    exact hshape

section

variable {kind : SpanKind} {fits : LocalSpan → LocalSpan → Bool} {es : List LocalSpan}

variable {i : Nat} {e : LocalSpan} {es' : List LocalSpan}

/-- What a turn does, by the parent it finds. -/
theorem adopted_cases (kind : SpanKind) (fits : LocalSpan → LocalSpan → Bool)
    (he : es[i]? = some e) :
    (parentFor kind fits (traceAt es) es i = none ∧ adopted kind fits es i e = none) ∨
      ∃ j parent e', parentFor kind fits (traceAt es) es i = some j ∧ es[j]? = some parent ∧
        e.kind = some kind ∧ e.record.propagated = none ∧ fits e parent = true ∧
        adopted kind fits es i e = some e' ∧ Adopted e parent e' := by
  rw [parentFor, candidate, he, adopted]
  dsimp only [bind_eq_bind, bind_some]
  by_cases hskip : (decide (e.kind ≠ some kind) || e.record.propagated.isSome) = true
  · rw [if_pos hskip, if_pos hskip]
    exact .inl ⟨rfl, rfl⟩
  · rw [if_neg hskip, if_neg hskip]
    rw [Bool.or_eq_true, not_or, decide_eq_true_iff, not_not, Bool.not_eq_true,
      isSome_eq_false_iff, isNone_iff_eq_none] at hskip
    cases htight : tightest (fun j other => j != i && fits e other) es with
    | none => exact .inl ⟨rfl, rfl⟩
    | some j =>
      obtain ⟨parent, hparent, hfits⟩ := tightest_some htight
      rw [Bool.and_eq_true] at hfits
      dsimp only [bind_some]
      rw [traceAt, spanIdAt, hparent]
      dsimp only [map_some, bind_some]
      by_cases hids : wellFormedIds parent.ctx.traceId parent.ctx.spanId = true
      · obtain ⟨e', he', hadopted⟩ := adopt_of_wellFormed e hids
        rw [if_pos hids]
        exact .inr ⟨j, parent, e', rfl, hparent, hskip.1, hskip.2, hfits.2, he', hadopted⟩
      · rw [if_neg hids]
        exact .inl ⟨rfl, adopt_of_not_wellFormed (Bool.not_eq_true _ ▸ hids)⟩

/-- Spans are rewritten in shape, and spans of other kinds not at all. -/
def Untouched (kind : SpanKind) (e e' : LocalSpan) : Prop :=
  e'.shape = e.shape ∧ (e.kind ≠ some kind → e' = e)

theorem map_shape_of_untouched (h : List.Forall₂ (Untouched kind) es es') :
    es'.map shape = es.map shape := by
  induction h with
  | nil => rfl
  | cons he _ ih => rw [List.map_cons, List.map_cons, he.1, ih]

theorem getElem?_of_untouched (h : List.Forall₂ (Untouched kind) es es') {j : Nat}
    (he : es[j]? = some e) (hkind : e.kind ≠ some kind) : es'[j]? = some e := by
  induction h generalizing j with
  | nil => cases he
  | cons hhead _ ih =>
    cases j with
    | zero =>
      cases he
      rw [List.getElem?_cons_zero, hhead.2 hkind]
    | succ j => exact ih he

/-- The pass does not read what it writes. -/
theorem adopted_of_untouched (hsel : Selects kind fits) (h : List.Forall₂ (Untouched kind) es es')
    (i : Nat) (e : LocalSpan) : adopted kind fits es' i e = adopted kind fits es i e := by
  have htight : tightest (fun j other => j != i && fits e other) es' =
      tightest (fun j other => j != i && fits e other) es :=
    tightest_congr (fun j a b hab => by rw [hsel.shape hab]) (map_shape_of_untouched h)
  rw [adopted, adopted, htight]
  cases hj : tightest (fun j other => j != i && fits e other) es with
  | none => rfl
  | some j =>
    obtain ⟨parent, hparent, hfits⟩ := tightest_some hj
    rw [Bool.and_eq_true] at hfits
    dsimp only [bind_eq_bind, bind_some]
    rw [hparent, getElem?_of_untouched h hparent (hsel.other hfits.2)]

/-- What a pass makes of an entry. -/
theorem pass_adopted_cases (hsel : Selects kind fits) (he : es[i]? = some e) :
    (parentFor kind fits (traceAt es) es i = none ∧
        (pass (adopted kind fits) es).1[i]? = some e) ∨
      ∃ j parent e', parentFor kind fits (traceAt es) es i = some j ∧ es[j]? = some parent ∧
        e.kind = some kind ∧ e.record.propagated = none ∧ fits e parent = true ∧
        (pass (adopted kind fits) es).1[i]? = some e' ∧ Adopted e parent e' := by
  have hpass : (pass (adopted kind fits) es).1[i]? =
      es[i]?.map fun e => (adopted kind fits es i e).getD e := by
    refine pass_getElem? (fun e => ⟨rfl, fun _ => rfl⟩) ?_
      (fun es' hes' i e _ => adopted_of_untouched hsel hes' i e) i
    intro i e e' he he'
    rcases adopted_cases kind fits he with ⟨_, hnone⟩ | hsome
    · cases hnone.symm.trans he'
    · obtain ⟨_, _, e₁, _, _, hkind, _, _, he₁, hadopted⟩ := hsome
      cases he₁.symm.trans he'
      exact ⟨hadopted.shape, fun hne => absurd hkind hne⟩
  rw [he, map_some] at hpass
  rcases adopted_cases kind fits he with ⟨hparent, hnone⟩ | hsome
  · rw [hnone] at hpass
    exact .inl ⟨hparent, hpass⟩
  · obtain ⟨j, parent, e', hj, hparent, hkind, hbare, hfits, he', hadopted⟩ := hsome
    rw [he'] at hpass
    exact .inr ⟨j, parent, e', hj, hparent, hkind, hbare, hfits, hpass, hadopted⟩

theorem parentFor_of_none {traces : Nat → Option Bytes} (h : es[i]? = none) :
    parentFor kind fits traces es i = none := by
  rw [parentFor, candidate, h]
  rfl

theorem pass_getElem?_of_length_le (h : es[i]? = none) :
    (pass (adopted kind fits) es).1[i]? = none := by
  rw [List.getElem?_eq_none_iff, length_pass]
  exact List.getElem?_eq_none_iff.1 h

/-- A pass hands down what adoption copies. -/
theorem map_pass_eq_handDown (hsel : Selects kind fits) (es : List LocalSpan) {β : Type}
    (value : LocalSpan → β)
    (hvalue : ∀ {child parent child'}, Adopted child parent child' → value child' = value parent) :
    (fun i => (pass (adopted kind fits) es).1[i]?.map value) =
      handDown (parentFor kind fits (traceAt es) es) fun i => es[i]?.map value := by
  funext i
  rw [handDown]
  cases he : es[i]? with
  | none =>
    rw [pass_getElem?_of_length_le he, parentFor_of_none he]
  | some e =>
    rcases pass_adopted_cases hsel he with ⟨hnone, hi⟩ | hsome
    · rw [hnone, hi]
    · obtain ⟨j, parent, e', hj, hparent, _, _, _, hi, hadopted⟩ := hsome
      rw [hj, hi]
      dsimp only
      rw [hparent, map_some, map_some, hvalue hadopted]

theorem map_shape_pass (hsel : Selects kind fits) :
    (pass (adopted kind fits) es).1.map shape = es.map shape := by
  refine List.ext_getElem? fun i => ?_
  rw [List.getElem?_map, List.getElem?_map]
  cases he : es[i]? with
  | none => rw [pass_getElem?_of_length_le he]
  | some e =>
    rcases pass_adopted_cases hsel he with ⟨_, hi⟩ | hsome
    · rw [hi]
    · obtain ⟨_, _, e', _, _, _, _, _, hi, hadopted⟩ := hsome
      rw [hi, map_some, map_some, hadopted.shape]

end

/-! ## The parents in a batch -/

section

variable (batch : List LocalSpan)

/-- The server span that a bare client span adopts. -/
def localParent : Nat → Option Nat := parentFor .client servesClient (traceAt batch) batch

/-- The trace ids once clients have adopted. -/
def localTrace : Nat → Option Bytes := handDown (localParent batch) (traceAt batch)

/-- The client span that a bare server span adopts. -/
def linkParent : Nat → Option Nat := parentFor .server callsServer (localTrace batch) batch

/-- The trace ids before the refresh. -/
def startTrace : Nat → Option Bytes := handDown (linkParent batch) (localTrace batch)

/-- The trace flags and states once clients have adopted. -/
def localContext : Nat → Option (UInt8 × String) := handDown (localParent batch) (inheritedAt batch)

/-- The trace flags and states before the refresh, which does not touch them. -/
def finalContext : Nat → Option (UInt8 × String) := handDown (linkParent batch) (localContext batch)

/-- The span that a bare span adopts. -/
def parentOf (i : Nat) : Option Nat := (localParent batch i).or (linkParent batch i)

/-- The batch when both adoption passes are over. -/
def linked : List LocalSpan := linkCrossProcess (assignLocalParents batch)

variable {batch}

theorem map_shape_assignLocalParents : (assignLocalParents batch).map shape = batch.map shape :=
  map_shape_pass selects_local

theorem map_shape_linked : (linked batch).map shape = batch.map shape :=
  (map_shape_pass selects_link).trans map_shape_assignLocalParents

theorem traceAt_assignLocalParents : traceAt (assignLocalParents batch) = localTrace batch :=
  map_pass_eq_handDown selects_local batch (fun span => span.ctx.traceId) Adopted.traceId

theorem inheritedAt_assignLocalParents :
    inheritedAt (assignLocalParents batch) = localContext batch :=
  map_pass_eq_handDown selects_local batch inherited Adopted.inherited

theorem spanIdAt_eq_of_shape {es es' : List LocalSpan}
    (h : es.map shape = es'.map shape) : spanIdAt es = spanIdAt es' := by
  funext i
  have hi := congrArg (fun l => (l[i]?).map fun span : LocalSpan => span.ctx.spanId) h
  simp only [List.getElem?_map, map_map] at hi
  exact hi

/-- Servers are as they were when the clients have adopted, so that the parents they find are those
of the batch. -/
theorem parentFor_assignLocalParents :
    parentFor .server callsServer (traceAt (assignLocalParents batch))
      (assignLocalParents batch) = linkParent batch := by
  funext i
  have htight : ∀ e : LocalSpan,
      tightest (fun j other => j != i && callsServer e other) (assignLocalParents batch) =
        tightest (fun j other => j != i && callsServer e other) batch := fun e =>
    tightest_congr (fun j a b hab => by rw [selects_link.shape hab]) map_shape_assignLocalParents
  have hcandidate : candidate .server callsServer (assignLocalParents batch) i =
      candidate .server callsServer batch i := by
    rw [candidate, candidate]
    cases he : batch[i]? with
    | none =>
      have hi : (assignLocalParents batch)[i]? = none := pass_getElem?_of_length_le he
      rw [hi]
      rfl
    | some e =>
      rcases pass_adopted_cases selects_local he with ⟨_, hi⟩ | hsome
      · have hi' : (assignLocalParents batch)[i]? = some e := hi
        rw [hi']
        dsimp only [bind_eq_bind, bind_some]
        rw [htight]
      · -- a client, before and after
        obtain ⟨_, _, e', _, _, hkind, _, _, hi, hadopted⟩ := hsome
        have hi' : (assignLocalParents batch)[i]? = some e' := hi
        have hkind' : e'.kind = some .client := (kind_eq hadopted.shape).trans hkind
        have hskip : ∀ bare : Bool,
            (decide (some SpanKind.client ≠ some .server) || bare) = true := by
          decide
        rw [hi']
        dsimp only [bind_eq_bind, bind_some]
        rw [hkind', hkind, if_pos (hskip _), if_pos (hskip _)]
  rw [linkParent, parentFor, parentFor, hcandidate, traceAt_assignLocalParents,
    spanIdAt_eq_of_shape map_shape_assignLocalParents]

theorem traceAt_linked : traceAt (linked batch) = startTrace batch := by
  have h := map_pass_eq_handDown selects_link (assignLocalParents batch)
    (fun span => span.ctx.traceId) Adopted.traceId
  rw [parentFor_assignLocalParents] at h
  exact h.trans (congrArg _ traceAt_assignLocalParents)

theorem inheritedAt_linked : inheritedAt (linked batch) = finalContext batch := by
  have h := map_pass_eq_handDown selects_link (assignLocalParents batch) inherited Adopted.inherited
  rw [parentFor_assignLocalParents] at h
  exact h.trans (congrArg _ inheritedAt_assignLocalParents)

variable {e : LocalSpan}

theorem getElem?_of_shape {es es' : List LocalSpan}
    (h : es.map shape = es'.map shape) {i : Nat} (he : es[i]? = some e) :
    ∃ e', es'[i]? = some e' ∧ e'.shape = e.shape := by
  have hi := congrArg (fun l => l[i]?) h
  simp only [List.getElem?_map] at hi
  rw [he, map_some, eq_comm, map_eq_some_iff] at hi
  exact hi

theorem nested_of_servesClient {client server : LocalSpan}
    (h : servesClient client server = true) : nested client.record server.record = true := by
  rw [servesClient, Bool.and_eq_true] at h
  exact h.2

theorem nested_of_callsServer {server client : LocalSpan}
    (h : callsServer server client = true) : nested server.record client.record = true := by
  rw [callsServer, Bool.and_eq_true] at h
  exact h.2

theorem nested_congr {a b c : LocalSpan} (h : b.shape = c.shape) :
    nested a.record b.record = nested a.record c.record := by
  rw [nested, nested, window_eq h]

/-- What adoption makes of a span: a bare span names the span it adopts, any other span is as it
was. -/
theorem linked_cases {i : Nat} (he : batch[i]? = some e) :
    (parentOf batch i = none ∧ (linked batch)[i]? = some e) ∨
      ∃ j parent e' context, parentOf batch i = some j ∧ batch[j]? = some parent ∧
        e.record.propagated = none ∧ nested e.record parent.record = true ∧
        (linked batch)[i]? = some e' ∧ e'.record.propagated = some context ∧
        context.parentSpanId.1 = parent.ctx.spanId := by
  rcases pass_adopted_cases selects_local he with ⟨hnone, hi⟩ | hsome
  · have hlocal : localParent batch i = none := hnone
    have hi' : (assignLocalParents batch)[i]? = some e := hi
    rw [parentOf, hlocal]
    rcases pass_adopted_cases selects_link hi' with ⟨hnone', hi''⟩ | hsome
    · rw [parentFor_assignLocalParents] at hnone'
      exact .inl ⟨hnone', hi''⟩
    · obtain ⟨j, parent, e', hj, hparent, _, hbare, hfits, hi'', hadopted⟩ := hsome
      rw [parentFor_assignLocalParents] at hj
      obtain ⟨context, hcontext, hid⟩ := hadopted.parentSpanId
      obtain ⟨parent₀, hparent₀, hshape⟩ := getElem?_of_shape map_shape_assignLocalParents hparent
      refine .inr ⟨j, parent₀, e', context, hj, hparent₀, hbare, ?_, hi'', hcontext, ?_⟩
      · rw [nested_congr hshape]
        exact nested_of_callsServer hfits
      · rw [hid, spanId_eq hshape]
  · -- a client is not rewritten again
    obtain ⟨j, parent, e', hj, hparent, hkind, hbare, hfits, hi, hadopted⟩ := hsome
    have hlocal : localParent batch i = some j := hj
    have hi' : (assignLocalParents batch)[i]? = some e' := hi
    obtain ⟨context, hcontext, hid⟩ := hadopted.parentSpanId
    have hlinked : (linked batch)[i]? = some e' := by
      rcases pass_adopted_cases selects_link hi' with ⟨_, hi''⟩ | hsome
      · exact hi''
      · obtain ⟨_, _, _, _, _, hkind', _⟩ := hsome
        rw [kind_eq hadopted.shape, hkind] at hkind'
        cases hkind'
    refine .inr ⟨j, parent, e', context, ?_, hparent, hbare, nested_of_servesClient hfits,
      hlinked, hcontext, hid⟩
    rw [parentOf, hlocal, some_or]

end

end EdgePacer.L7
