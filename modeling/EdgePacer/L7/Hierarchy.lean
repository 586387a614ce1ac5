import EdgePacer.L7.Adoption

/-!
# The hierarchy that comes out

Refreshing trace ids is copying in place: a span copies from the first span that has the id of its
parent. It ends exactly if the trace ids that rotate on the cycles of this relation agree
(`returns_iff_cyclesAgree`); two processes that call each other in the same instant make a cycle on
which they do not (`mutual_calls_never_return`).

When the refresh ends, every span has the trace id of its parent, spans with a context from the wire
are as they were, and span ids have not changed. Trace flags and states are not refreshed. Of a
batch with distinct ids, `Adopts` says which span is the parent of which by the batch alone. Then
flags and states agree along the hierarchy exactly if a server that hands down its context has not
got another one from its caller (`consistent_iff_relaysDefaults`), and the hierarchy is a forest of
nested windows exactly if no spans of one window adopt each other in a ring (`sound_iff_noTies`).
-/

namespace EdgePacer.L7

open Lib LocalSpan List

/-! ## The refresh as copying -/

/-- The first span of an id. -/
def named (entries : List LocalSpan) (id : Bytes) : Nat :=
  entries.findIdx fun e => e.ctx.spanId = id

/-- The span whose trace id a span takes over: the first of its parent's id, or itself. -/
def source (batch : List LocalSpan) (i : Nat) : Nat :=
  match (parentOf batch i).bind (spanIdAt batch) with
  | some id => named batch id
  | none => i

theorem named_eq_of_shape {es es' : List LocalSpan}
    (h : es.map shape = es'.map shape) (id : Bytes) : named es id = named es' id := by
  have hmap := congrArg (findIdx fun e : LocalSpan => decide (e.ctx.spanId = id)) h
  rw [findIdx_map, findIdx_map] at hmap
  exact hmap

theorem find?_eq_getElem?_named (entries : List LocalSpan) (id : Bytes) :
    (entries.find? fun e => e.ctx.spanId = id) = entries[named entries id]? :=
  find?_eq_getElem?_findIdx

theorem getElem?_named {entries : List LocalSpan} {j : Nat} {e : LocalSpan}
    (h : entries[j]? = some e) :
    ∃ e', entries[named entries e.ctx.spanId]? = some e' ∧ e'.ctx.spanId = e.ctx.spanId := by
  obtain ⟨e', he'⟩ : ∃ e', (entries.find? fun e' => e'.ctx.spanId = e.ctx.spanId) = some e' := by
    rw [← Option.isSome_iff_exists, find?_isSome]
    exact ⟨e, mem_of_getElem? h, decide_eq_true rfl⟩
  rw [← find?_eq_getElem?_named]
  have hid := find?_some he'
  exact ⟨e', he', of_decide_eq_true hid⟩

variable {batch : List LocalSpan}

/-- The source of a span by the parent it adopts. -/
theorem source_of_parentOf {i j : Nat} {parent : LocalSpan}
    (hj : parentOf batch i = some j) (hparent : batch[j]? = some parent) :
    source batch i = named batch parent.ctx.spanId := by
  rw [source, hj, Option.bind_some, spanIdAt, hparent]
  rfl

variable {i : Nat}

theorem source_of_none (h : parentOf batch i = none) : source batch i = i := by
  rw [source, h]
  rfl

theorem parentOf_outside (h : batch[i]? = none) : parentOf batch i = none := by
  rw [parentOf, localParent, linkParent, parentFor_of_none h, parentFor_of_none h]
  rfl

/-- The sources of a batch. -/
def sources (batch : List LocalSpan) : Sources where
  size := batch.length
  source := source batch
  inside := by
    intro i hi
    have he : batch[i]? = some batch[i] := getElem?_eq_getElem hi
    rcases linked_cases he with ⟨hnone, _⟩ | ⟨j, parent, _, _, hj, hparent, _⟩
    · rw [source_of_none hnone]
      exact hi
    · obtain ⟨first, hfirst, _⟩ := getElem?_named hparent
      rw [source_of_parentOf hj hparent]
      exact (List.getElem?_eq_some_iff.1 hfirst).1
  outside := by
    intro i hi
    exact source_of_none (parentOf_outside (getElem?_eq_none_iff.2 hi))

/-- What the refresh leaves alone. -/
def LocalSpan.refreshShape (e : LocalSpan) : LocalSpan × Option (ByteArr 8 × UInt8 × String) :=
  (e.shape, e.record.propagated.map fun c => (c.parentSpanId, c.traceFlags, c.traceState))

/-- Which spans of a batch came with a context. -/
def wireDerived (batch : List LocalSpan) : List Bool :=
  batch.map fun e => e.record.propagated.isSome

theorem assignBatchHierarchy_eq (fuel : Nat) (batch : List LocalSpan) :
    assignBatchHierarchy fuel batch =
      passes (refreshed (wireDerived batch)) fuel (linked batch) := rfl

theorem wireDerived_getD {e : LocalSpan}
    (h : batch[i]? = some e) : (wireDerived batch).getD i false = e.record.propagated.isSome := by
  rw [wireDerived, getD_eq_getElem?_getD, getElem?_map, h]
  rfl

theorem refreshed_of_wire {wire : List Bool} (h : wire.getD i false = true)
    (es : List LocalSpan) (e : LocalSpan) : refreshed wire es i e = none := by
  rw [refreshed, if_pos h]

theorem refreshed_of_bare {e : LocalSpan} (h : e.record.propagated = none) (wire : List Bool)
    (es : List LocalSpan) (i : Nat) : refreshed wire es i e = none := by
  rw [refreshed, h]
  split
  · rfl
  · rfl

/-- A span takes over the trace id that it does not have. -/
theorem refreshed_of_context {wire : List Bool} {es : List LocalSpan} {e s : LocalSpan}
    {context : PropagatedContext} (hwire : wire.getD i false = false)
    (hcontext : e.record.propagated = some context)
    (hs : es[named es context.parentSpanId.1]? = some s) :
    (e.ctx.traceId = s.ctx.traceId ∧ refreshed wire es i e = none) ∨
      ∃ e', s.ctx.traceId ≠ e.ctx.traceId ∧ refreshed wire es i e = some e' ∧
        e'.ctx.traceId = s.ctx.traceId ∧ e'.refreshShape = e.refreshShape := by
  rw [← find?_eq_getElem?_named] at hs
  rw [refreshed, hwire, hcontext]
  dsimp only [Option.bind_eq_bind, Option.bind_some]
  rw [hs]
  dsimp only [Option.bind_some]
  by_cases htrace : e.ctx.traceId = s.ctx.traceId
  · rw [if_pos htrace]
    exact .inl ⟨htrace, rfl⟩
  · rw [if_neg htrace]
    refine .inr ⟨_, Ne.symm htrace, rfl, rfl, ?_⟩
    rw [refreshShape, refreshShape, hcontext]
    cases tryFrom 16 s.ctx.traceId with
    | none | some traceId => rfl

theorem shape_of_refreshShape {es es' : List LocalSpan}
    (h : es.map refreshShape = es'.map refreshShape) : es.map shape = es'.map shape := by
  have hmap := congrArg (map Prod.fst) h
  rw [map_map, map_map] at hmap
  exact hmap

/-- The refresh copies trace ids from the sources of the batch. -/
theorem refreshed_copies (batch : List LocalSpan) :
    Copies (sources batch) refreshShape (fun e => e.ctx.traceId)
      (refreshed (wireDerived batch)) (linked batch) := by
  have hlength : (linked batch).length = batch.length := by
    rw [← length_map shape, map_shape_linked, length_map]
  -- a turn, on an array that differs from the linked batch in trace ids only
  have hturn : ∀ {es : List LocalSpan} {i : Nat} {e s : LocalSpan},
      es.map refreshShape = (linked batch).map refreshShape →
      es[i]? = some e → es[source batch i]? = some s →
      (e.ctx.traceId = s.ctx.traceId ∧ refreshed (wireDerived batch) es i e = none) ∨
        ∃ e', s.ctx.traceId ≠ e.ctx.traceId ∧
          refreshed (wireDerived batch) es i e = some e' ∧
          e'.ctx.traceId = s.ctx.traceId ∧ e'.refreshShape = e.refreshShape := by
    intro es i e s hes he hs
    have hshape : es.map shape = batch.map shape :=
      (shape_of_refreshShape hes).trans map_shape_linked
    obtain ⟨e₀, he₀, _⟩ := getElem?_of_shape hshape he
    have hi : ∀ e₁, (linked batch)[i]? = some e₁ → e₁.refreshShape = e.refreshShape := by
      intro e₁ he₁
      have hi := congrArg (fun l => l[i]?) hes
      simp only [getElem?_map, he, he₁, Option.map_some, Option.some.injEq] at hi
      exact hi.symm
    rcases linked_cases he₀ with ⟨hnone, hlinked⟩ | hsome
    · -- its own source: either from the wire, or without a parent
      rw [source_of_none hnone, he] at hs
      cases hs
      refine .inl ⟨rfl, ?_⟩
      cases hwire : e₀.record.propagated with
      | some context =>
        refine refreshed_of_wire ?_ es e
        rw [wireDerived_getD he₀, hwire]
        rfl
      | none =>
        refine refreshed_of_bare ?_ _ es i
        have hcontext := congrArg Prod.snd (hi e₀ hlinked)
        rw [refreshShape, hwire] at hcontext
        exact Option.map_eq_none_iff.1 hcontext.symm
    · obtain ⟨j, parent, e₁, context₁, hj, hparent, hbare, _, hlinked, hcontext₁, hid⟩ := hsome
      have hcontext := congrArg Prod.snd (hi e₁ hlinked)
      rw [refreshShape, hcontext₁] at hcontext
      obtain ⟨context, hcontext, hsame⟩ := Option.map_eq_some_iff.1 hcontext.symm
      have hid' : context.parentSpanId.1 = parent.ctx.spanId := by
        have hparentId : context.parentSpanId = context₁.parentSpanId := congrArg Prod.fst hsame
        rw [hparentId, hid]
      refine refreshed_of_context ?_ hcontext ?_
      · rw [wireDerived_getD he₀, hbare]
        rfl
      · rw [hid', named_eq_of_shape hshape, ← source_of_parentOf hj hparent]
        exact hs
  refine ⟨hlength, ?_, ?_⟩
  · intro es i e s hes he hs hnone
    rcases hturn hes he hs with ⟨htrace, _⟩ | ⟨e', _, hsome, _⟩
    · exact htrace.symm
    · cases hnone.symm.trans hsome
  · intro es i e s e' hes he hs he'
    rcases hturn hes he hs with ⟨_, hnone⟩ | ⟨e₁, hne, hsome, htrace, hshape⟩
    · cases hnone.symm.trans he'
    · cases hsome.symm.trans he'
      exact ⟨hshape, htrace, hne⟩

/-! ## When it ends -/

/-- The function returns the given batch. -/
def Returns (batch result : List LocalSpan) : Prop :=
  ∃ fuel, assignBatchHierarchy fuel batch = some result

/-- On every cycle of sources, the spans that are the source of a span not after them start with one
trace id. -/
def CyclesAgree (batch : List LocalSpan) : Prop := (sources batch).Agree (startTrace batch)

/-- **The hierarchy pass returns** exactly if the trace ids on its cycles agree. -/
theorem returns_iff_cyclesAgree (batch : List LocalSpan) :
    (∃ result, Returns batch result) ↔ CyclesAgree batch := by
  have hpasses := (refreshed_copies batch).exists_passes_isSome
  have hvalues : values (fun e : LocalSpan => e.ctx.traceId) (linked batch) = startTrace batch :=
    traceAt_linked
  rw [hvalues] at hpasses
  rw [CyclesAgree, ← hpasses]
  constructor
  · rintro ⟨result, fuel, h⟩
    exact ⟨fuel, Option.isSome_iff_exists.2 ⟨result, h⟩⟩
  · rintro ⟨fuel, h⟩
    obtain ⟨result, h⟩ := Option.isSome_iff_exists.1 h
    exact ⟨result, fuel, h⟩

/-! ### Two processes that call each other -/

/-- A span without a context; process and thread are told by one number, its ids by one byte. -/
def bareSpan (kind : SpanKind) (process id : Nat) (start duration : Int64)
    (localEnd remoteEnd : String) : LocalSpan :=
  { record :=
      { protocol := .http1, operation := "GET /", statusCode := 200, error := false,
        startUnixNano := start, durationNano := duration, attributes := [], propagated := none }
    ctx :=
      { serviceName := "svc", pid := .ofNat process, cgroupId := 1,
        traceId := replicate 16 (.ofNat id), spanId := replicate 8 (.ofNat id), peer := none }
    kind := some kind
    tid := .ofNat process
    conn := some ⟨localEnd, remoteEnd⟩ }

/-- Process 1 calls process 2 and is called by it, all in the same window. -/
def mutualCalls : List LocalSpan :=
  [bareSpan .client 1 1 100 100 "a:1" "b:80", bareSpan .server 1 2 100 100 "a:80" "b:1",
    bareSpan .client 2 3 100 100 "b:1" "a:80", bareSpan .server 2 4 100 100 "b:80" "a:1"]

/-- The trace ids rotate: after three sweeps they are as before. -/
theorem mutual_calls_never_return : ¬ ∃ result, Returns mutualCalls result := by
  rintro ⟨result, fuel, hreturns⟩
  rw [assignBatchHierarchy_eq, passes_eq_none_of_period (n := 3) (by decide) ?_ ?_ fuel] at hreturns
  · cases hreturns
  · decide +kernel
  · decide +kernel

/-! ## What comes out -/

section

variable {batch result : List LocalSpan}

/-- A bare span has got the first span of an id as its parent. -/
def InBatchParent (batch result : List LocalSpan) (i m : Nat) : Prop :=
  ∃ e e' context, batch[i]? = some e ∧ e.record.propagated = none ∧ result[i]? = some e' ∧
    e'.record.propagated = some context ∧ m < result.length ∧
    named result context.parentSpanId.1 = m

variable (h : Returns batch result)

include h

theorem Returns.spec :
    result.map refreshShape = (linked batch).map refreshShape ∧
      (sources batch).Settled (traceAt result) := by
  obtain ⟨fuel, h⟩ := h
  exact (refreshed_copies batch).passes_spec rfl h

theorem Returns.shape : result.map shape = batch.map shape :=
  (shape_of_refreshShape h.spec.1).trans map_shape_linked

omit h in
theorem inherited_of_refreshShape {a b : LocalSpan} (h : a.refreshShape = b.refreshShape) :
    a.inherited = b.inherited := by
  have hcontext := congrArg Prod.snd h
  rw [refreshShape, refreshShape] at hcontext
  rw [inherited, inherited]
  cases ha : a.record.propagated with
  | none =>
    rw [ha] at hcontext
    rw [Option.map_eq_none_iff.1 hcontext.symm]
  | some c =>
    rw [ha] at hcontext
    obtain ⟨c', hc', hsame⟩ := Option.map_eq_some_iff.1 hcontext.symm
    rw [hc']
    exact congrArg Prod.snd hsame.symm

theorem Returns.inheritedAt : inheritedAt result = finalContext batch := by
  rw [← inheritedAt_linked]
  funext i
  have hi := congrArg (fun l => l[i]?) h.spec.1
  simp only [getElem?_map] at hi
  rw [L7.inheritedAt, L7.inheritedAt]
  cases he : result[i]? with
  | none =>
    rw [he] at hi
    rw [Option.map_eq_none_iff.1 hi.symm]
  | some e =>
    rw [he] at hi
    obtain ⟨e', he', hshape⟩ := Option.map_eq_some_iff.1 hi.symm
    rw [he', Option.map_some, Option.map_some, inherited_of_refreshShape hshape]

theorem Returns.wire {i : Nat} {e : LocalSpan} (he : batch[i]? = some e)
    (hwire : e.record.propagated.isSome = true) : result[i]? = some e := by
  obtain ⟨fuel, h⟩ := h
  have hrefresh := refreshed_of_wire ((wireDerived_getD he).trans hwire)
  rw [passes_getElem?_of_none hrefresh h]
  rcases linked_cases he with ⟨_, hlinked⟩ | ⟨_, _, _, _, _, _, hbare, _⟩
  · exact hlinked
  · rw [hbare] at hwire
    cases hwire

theorem Returns.inBatchParent_iff {i m : Nat} :
    InBatchParent batch result i m ↔ (parentOf batch i).isSome ∧ source batch i = m := by
  have hshape := h.shape
  have hlength : result.length = batch.length := by
    rw [← length_map LocalSpan.shape, hshape, length_map]
  have hcontext : ∀ {e' e₁ : LocalSpan}, result[i]? = some e' → (linked batch)[i]? = some e₁ →
      e'.record.propagated.map (fun c => (c.parentSpanId, c.traceFlags, c.traceState)) =
        e₁.record.propagated.map fun c => (c.parentSpanId, c.traceFlags, c.traceState) := by
    intro e' e₁ he' he₁
    have hi := congrArg (fun l => l[i]?) h.spec.1
    simp only [getElem?_map, he', he₁, Option.map_some, Option.some.injEq] at hi
    exact congrArg Prod.snd hi
  constructor
  · rintro ⟨e, e', context, he, hbare, he', hcontext', _, hm⟩
    rcases linked_cases he with ⟨_, hlinked⟩ | hsome
    · -- without a parent it has stayed bare
      have hnone := hcontext he' hlinked
      rw [hbare, hcontext'] at hnone
      cases hnone
    · obtain ⟨j, parent, e₁, context₁, hj, hparent, _, _, hlinked, hcontext₁, hid⟩ := hsome
      have hsame := hcontext he' hlinked
      rw [hcontext', hcontext₁, Option.map_some, Option.map_some, Option.some.injEq] at hsame
      have hparentId : context.parentSpanId = context₁.parentSpanId := congrArg Prod.fst hsame
      rw [hj, source_of_parentOf hj hparent, ← hm, hparentId, hid, named_eq_of_shape hshape]
      exact ⟨rfl, rfl⟩
  · rintro ⟨hsome, hm⟩
    obtain ⟨j, hj⟩ := Option.isSome_iff_exists.1 hsome
    cases he : batch[i]? with
    | none =>
      rw [parentOf_outside he] at hj
      cases hj
    | some e =>
      rcases linked_cases he with ⟨hnone, _⟩ | hadopted
      · cases hnone.symm.trans hj
      · obtain ⟨j', parent, e₁, context₁, hj', hparent, hbare, _, hlinked, hcontext₁, hid⟩ :=
          hadopted
        obtain ⟨e', he', _⟩ := getElem?_of_shape hshape.symm he
        have hsame := hcontext he' hlinked
        rw [hcontext₁, Option.map_some, Option.map_eq_some_iff] at hsame
        obtain ⟨context, hcontext', hsame⟩ := hsame
        have hparentId : context.parentSpanId = context₁.parentSpanId := congrArg Prod.fst hsame
        obtain ⟨first, hfirst, _⟩ := getElem?_named hparent
        rw [source_of_parentOf hj' hparent] at hm
        refine ⟨e, e', context, he, hbare, he', hcontext', ?_, ?_⟩
        · rw [hlength, ← hm]
          exact (List.getElem?_eq_some_iff.1 hfirst).1
        · rw [hparentId, hid, named_eq_of_shape hshape, hm]

omit h

/-! ## One trace from the root down -/

/-- Spans have the trace id, flags and state of all their ancestors in the batch; spans with a
context from the wire are as they were; span ids have not changed. -/
structure Consistent (batch result : List LocalSpan) : Prop where
  chains : ∀ i m, Relation.TransGen (InBatchParent batch result) i m →
    traceAt result i = traceAt result m ∧ inheritedAt result i = inheritedAt result m
  wire : ∀ (i : Nat) (e : LocalSpan), batch[i]? = some e → e.record.propagated.isSome = true →
    result[i]? = some e
  spanIds : spanIdAt result = spanIdAt batch

theorem parentFor_some {kind : SpanKind} {fits : LocalSpan → LocalSpan → Bool}
    {traces : Nat → Option Bytes} {i j : Nat} (h : parentFor kind fits traces batch i = some j) :
    ∃ e parent, batch[i]? = some e ∧ e.kind = some kind ∧ e.record.propagated = none ∧
      batch[j]? = some parent ∧ fits e parent = true := by
  obtain ⟨j', hj', h⟩ := Option.bind_eq_some_iff.1 h
  obtain ⟨traceId, _, h⟩ := Option.bind_eq_some_iff.1 h
  obtain ⟨spanId, _, h⟩ := Option.bind_eq_some_iff.1 h
  split at h
  · cases h
    obtain ⟨e, he, htight⟩ := Option.bind_eq_some_iff.1 hj'
    split at htight
    · cases htight
    · rename_i hskip
      rw [Bool.or_eq_true, not_or, decide_eq_true_iff, not_not, Bool.not_eq_true,
        Option.isSome_eq_false_iff, Option.isNone_iff_eq_none] at hskip
      obtain ⟨parent, hparent, hfits⟩ := tightest_some htight
      rw [Bool.and_eq_true] at hfits
      exact ⟨e, parent, he, hskip.1, hskip.2, hparent, hfits.2⟩
  · cases h

theorem linkParent_of_localParent {i j : Nat} (h : localParent batch i = some j) :
    linkParent batch i = none ∧ localParent batch j = none := by
  obtain ⟨e, parent, he, hkind, _, hparent, hfits⟩ := parentFor_some h
  have hserver : parent.kind = some .server := by
    rw [servesClient, Bool.and_eq_true, Bool.and_eq_true, Bool.and_eq_true,
      decide_eq_true_iff] at hfits
    exact hfits.1.1.1
  constructor
  · cases hlink : linkParent batch i with
    | none => rfl
    | some k =>
      obtain ⟨e', _, he', hkind', _⟩ := parentFor_some hlink
      cases he.symm.trans he'
      cases hkind.symm.trans hkind'
  · cases hlocal : localParent batch j with
    | none => rfl
    | some k =>
      obtain ⟨e', _, he', hkind', _⟩ := parentFor_some hlocal
      cases hparent.symm.trans he'
      cases hserver.symm.trans hkind'

theorem finalContext_of_parentOf {i j : Nat} (h : parentOf batch i = some j) :
    finalContext batch i = localContext batch j := by
  rw [finalContext, handDown]
  cases hlocal : localParent batch i with
  | some k =>
    rw [parentOf, hlocal, Option.some_or, Option.some.injEq] at h
    subst h
    obtain ⟨hlink, hserver⟩ := linkParent_of_localParent hlocal
    rw [hlink]
    rw [localContext, handDown, handDown, hlocal, hserver]
  | none =>
    rw [parentOf, hlocal, Option.none_or] at h
    rw [h]

/-! ### Parents by the batch alone -/

variable {i j : Nat}

/-- A bare span may be put under the other one: a client under a server around it on its thread, a
server under a client around it on the other end of its connection. -/
def mayAdopt (e other : LocalSpan) : Bool :=
  e.record.propagated.isNone &&
    (e.kind = some .client && servesClient e other || e.kind = some .server && callsServer e other)

/-- The parent of a span: of the spans that it may be put under the tightest, and of several the
first. -/
def Adopts (batch : List LocalSpan) (i j : Nat) : Prop :=
  ∃ e, batch[i]? = some e ∧ Tightest (fun k other => k != i && mayAdopt e other) batch j

/-- Span ids are distinct, and ids have their lengths. -/
structure DistinctIds (batch : List LocalSpan) : Prop where
  distinct : (batch.map fun e => e.ctx.spanId).Nodup
  formed : ∀ e ∈ batch, wellFormedIds e.ctx.traceId e.ctx.spanId = true

def kindAt (batch : List LocalSpan) (i : Nat) : Option SpanKind := batch[i]?.bind LocalSpan.kind

theorem bare_of_adopts (h : Adopts batch i j) :
    ∃ e p, batch[i]? = some e ∧ batch[j]? = some p ∧ mayAdopt e p = true ∧
      e.record.propagated = none := by
  obtain ⟨e, he, p, hp, hfits, -⟩ := h
  rw [Bool.and_eq_true] at hfits
  have hbare := hfits.2
  rw [mayAdopt, Bool.and_eq_true, Option.isNone_iff_eq_none] at hbare
  exact ⟨e, p, he, hp, hfits.2, hbare.1⟩

/-- Every span of the batch has a trace id of sixteen bytes. -/
def TracesFormed (batch : List LocalSpan) (traces : Nat → Option Bytes) : Prop :=
  ∀ (j : Nat) e, batch[j]? = some e → ∃ t, traces j = some t ∧ t.length = 16

section

variable (hids : DistinctIds batch)

include hids

/-- With well-formed ids a pass gives a span of its kind the parent it adopts. -/
theorem parentFor_eq_some {kind : SpanKind} {fits : LocalSpan → LocalSpan → Bool}
    {traces : Nat → Option Bytes} (htraces : TracesFormed batch traces)
    (hfits : ∀ {e other : LocalSpan}, e.kind = some kind → e.record.propagated = none →
      mayAdopt e other = fits e other) :
    parentFor kind fits traces batch i = some j ↔
      kindAt batch i = some kind ∧ Adopts batch i j := by
  constructor
  · intro h
    obtain ⟨j', hj', h⟩ := Option.bind_eq_some_iff.1 h
    obtain ⟨traceId, -, h⟩ := Option.bind_eq_some_iff.1 h
    obtain ⟨spanId, -, h⟩ := Option.bind_eq_some_iff.1 h
    split at h
    · cases h
      obtain ⟨e, he, htight⟩ := Option.bind_eq_some_iff.1 hj'
      split at htight
      · cases htight
      · rename_i hskip
        rw [Bool.or_eq_true, not_or, decide_eq_true_iff, not_not, Bool.not_eq_true,
          Option.isSome_eq_false_iff, Option.isNone_iff_eq_none] at hskip
        refine ⟨by rw [kindAt, he]; exact hskip.1, e, he, ?_⟩
        simp only [hfits hskip.1 hskip.2]
        exact tightest_eq_some.1 htight
    · cases h
  · rintro ⟨hkind, hadopts⟩
    obtain ⟨e, parent, he, hparent, -, hbare⟩ := bare_of_adopts hadopts
    obtain ⟨e', he', htight⟩ := hadopts
    cases he.symm.trans he'
    rw [kindAt, he, Option.bind_some] at hkind
    simp only [hfits hkind hbare] at htight
    have hcandidate : candidate kind fits batch i = some j := by
      simp [candidate, he, hkind, hbare, tightest_eq_some.2 htight]
    obtain ⟨t, ht, hlen⟩ := htraces j parent hparent
    have hformed := hids.formed parent (mem_of_getElem? hparent)
    simp_all [parentFor, spanIdAt, wellFormedIds]

theorem tracesFormed_traceAt : TracesFormed batch (traceAt batch) := by
  intro j e he
  have hformed := hids.formed e (mem_of_getElem? he)
  rw [wellFormedIds, Bool.and_eq_true, decide_eq_true_iff] at hformed
  exact ⟨_, by rw [traceAt, he]; rfl, hformed.1⟩

theorem localParent_eq_some :
    localParent batch i = some j ↔ kindAt batch i = some .client ∧ Adopts batch i j :=
  parentFor_eq_some hids (tracesFormed_traceAt hids) fun hkind hbare => by
    simp [mayAdopt, hkind, hbare]

theorem linkParent_eq_some :
    linkParent batch i = some j ↔ kindAt batch i = some .server ∧ Adopts batch i j := by
  refine parentFor_eq_some hids (fun j e he => ?_) fun hkind hbare => by
    simp [mayAdopt, hkind, hbare]
  rw [localTrace, handDown]
  split
  · next s hs =>
    obtain ⟨-, p, -, hp, -⟩ := bare_of_adopts ((localParent_eq_some hids).1 hs).2
    exact tracesFormed_traceAt hids s p hp
  · exact tracesFormed_traceAt hids j e he

theorem parentOf_eq_some : parentOf batch i = some j ↔ Adopts batch i j := by
  rw [parentOf, Option.or_eq_some_iff, localParent_eq_some hids, linkParent_eq_some hids]
  constructor
  · rintro (⟨-, h⟩ | ⟨-, -, h⟩) <;> exact h
  · intro h
    obtain ⟨e, p, he, -, hmay, -⟩ := bare_of_adopts h
    have hkind : kindAt batch i = e.kind := by rw [kindAt, he, Option.bind_some]
    rw [mayAdopt, Bool.and_eq_true, Bool.or_eq_true, Bool.and_eq_true, Bool.and_eq_true,
      decide_eq_true_iff, decide_eq_true_iff, ← hkind] at hmay
    rcases hmay.2 with ⟨hclient, -⟩ | ⟨hserver, -⟩
    · exact .inl ⟨hclient, h⟩
    · refine .inr ⟨?_, hserver, h⟩
      cases hlocal : localParent batch i with
      | none => rfl
      | some k => cases hserver.symm.trans ((localParent_eq_some hids).1 hlocal).1

theorem source_of_adopts (h : Adopts batch i j) : source batch i = j := by
  obtain ⟨-, p, -, hp, -⟩ := bare_of_adopts h
  rw [source_of_parentOf ((parentOf_eq_some hids).2 h) hp]
  -- the first span of the parent's id is the parent
  obtain ⟨first, hfirst, hid⟩ := getElem?_named hp
  obtain ⟨hlt, -⟩ := List.getElem?_eq_some_iff.1 hfirst
  refine (List.getElem?_inj (by simpa using hlt) hids.distinct).1 ?_
  rw [getElem?_map, getElem?_map, hfirst, hp]
  exact congrArg some hid

theorem Returns.inBatchParent_iff_adopts {result : List LocalSpan} (h : Returns batch result) :
    InBatchParent batch result i j ↔ Adopts batch i j := by
  rw [h.inBatchParent_iff]
  constructor
  · rintro ⟨hsome, rfl⟩
    obtain ⟨k, hk⟩ := Option.isSome_iff_exists.1 hsome
    have hadopts := (parentOf_eq_some hids).1 hk
    rwa [source_of_adopts hids hadopts]
  · intro hadopts
    exact ⟨by rw [(parentOf_eq_some hids).2 hadopts]; rfl, source_of_adopts hids hadopts⟩

end

/-- The span that the flags and the state of `k` are those of before the cross-process pass: its
parent, or itself. -/
def ContextFrom (batch : List LocalSpan) (k s : Nat) : Prop :=
  Adopts batch k s ∨ s = k ∧ ∀ s', ¬ Adopts batch k s'

/-- Where a server has both a client under it and a caller in the batch, the caller has the default
flags and state. -/
def RelaysDefaults (batch : List LocalSpan) : Prop :=
  ∀ i j k, kindAt batch j = some .server → Adopts batch i j → Adopts batch j k →
    ∀ s, ContextFrom batch k s → inheritedAt batch s = some (0x01, "")

theorem localContext_of_contextFrom (hids : DistinctIds batch) {k s : Nat}
    (hclient : kindAt batch k = some .client) (h : ContextFrom batch k s) :
    localContext batch k = inheritedAt batch s := by
  rw [localContext, handDown]
  rcases h with hadopts | ⟨rfl, hnone⟩
  · rw [(localParent_eq_some hids).2 ⟨hclient, hadopts⟩]
  · cases hlocal : localParent batch s with
    | none => rfl
    | some s' => exact absurd ((localParent_eq_some hids).1 hlocal).2 (hnone s')

/-- A bare server that adopts its caller: what it has at first, and what it gets. -/
theorem context_of_server (hids : DistinctIds batch) {j k : Nat}
    (hserver : kindAt batch j = some .server) (h : Adopts batch j k) :
    localContext batch j = some (0x01, "") ∧ finalContext batch j = localContext batch k ∧
      kindAt batch k = some .client := by
  obtain ⟨e, p, he, hp, hmay, hbare⟩ := bare_of_adopts h
  have hkind : e.kind = some .server := by rwa [kindAt, he, Option.bind_some] at hserver
  refine ⟨?_, ?_, ?_⟩
  · rw [localContext, handDown]
    cases hlocal : localParent batch j with
    | none => simp [inheritedAt, he, LocalSpan.inherited, hbare]
    | some s => cases hserver.symm.trans ((localParent_eq_some hids).1 hlocal).1
  · rw [finalContext, handDown, (linkParent_eq_some hids).2 ⟨hserver, h⟩]
  · simp only [mayAdopt, hkind, hbare, callsServer] at hmay
    simp_all [kindAt]

/-- **Flags and states agree** along the hierarchy, as trace ids always do, exactly if a server that
hands down its context has not got another one from its caller. -/
theorem consistent_iff_relaysDefaults (batch result : List LocalSpan) (h : Returns batch result)
    (hids : DistinctIds batch) : Consistent batch result ↔ RelaysDefaults batch := by
  constructor
  · intro hconsistent i j k hserver hij hjk s hs
    have hsame := (hconsistent.chains i j (.single ((h.inBatchParent_iff_adopts hids).2 hij))).2
    obtain ⟨hdefault, hfinal, hclient⟩ := context_of_server hids hserver hjk
    rw [h.inheritedAt, finalContext_of_parentOf ((parentOf_eq_some hids).2 hij), hdefault, hfinal,
      localContext_of_contextFrom hids hclient hs] at hsame
    exact hsame.symm
  · intro hrelays
    refine ⟨?_, fun i e he hwire => h.wire he hwire, spanIdAt_eq_of_shape h.shape⟩
    -- one step up, and then by induction on the chain
    have hstep : ∀ {i m}, InBatchParent batch result i m →
        traceAt result i = traceAt result m ∧ inheritedAt result i = inheritedAt result m := by
      intro i m hparent
      have hadopts := (h.inBatchParent_iff_adopts hids).1 hparent
      have htrace := h.spec.2 i
      rw [show (sources batch).source i = m from source_of_adopts hids hadopts] at htrace
      refine ⟨htrace.symm, ?_⟩
      rw [h.inheritedAt, finalContext_of_parentOf ((parentOf_eq_some hids).2 hadopts), finalContext,
        handDown]
      cases hlink : linkParent batch m with
      | none => rfl
      | some k =>
        obtain ⟨hserver, hmk⟩ := (linkParent_eq_some hids).1 hlink
        obtain ⟨hdefault, -, hclient⟩ := context_of_server hids hserver hmk
        obtain ⟨s, hs⟩ : ∃ s, ContextFrom batch k s := by
          by_cases hk : ∃ s, Adopts batch k s
          · exact ⟨hk.choose, .inl hk.choose_spec⟩
          · exact ⟨k, .inr ⟨rfl, not_exists.1 hk⟩⟩
        dsimp only
        rw [hdefault, localContext_of_contextFrom hids hclient hs,
          hrelays i m k hserver hadopts hmk s hs]
    intro i m hchain
    induction hchain with
    | single hparent => exact hstep hparent
    | tail _ hparent ih =>
      obtain ⟨htrace, hcontext⟩ := hstep hparent
      exact ⟨ih.1.trans htrace, ih.2.trans hcontext⟩

end

/-! ### A context that does not get through -/

/-- A server span with an unsampled context of a vendor, and the client span inside it. -/
def relayStart : List LocalSpan :=
  let server := bareSpan .server 1 1 0 1000 "a:80" "x:1"
  [{ server with record := { server.record with
      propagated := some ⟨⟨replicate 16 9, rfl⟩, ⟨replicate 8 9, rfl⟩, 0x00, "vendor"⟩ } },
    bareSpan .client 1 2 100 800 "a:1" "b:80"]

/-- The server that the client calls has a client of its own. -/
def relay : List LocalSpan :=
  relayStart ++
    [bareSpan .server 2 3 200 600 "b:80" "a:1", bareSpan .client 2 4 300 400 "b:2" "c:80"]

/-- The client of the last server has the default flags and state, its parent those of the wire. -/
theorem relay_loses_context :
    ∃ result, Returns relay result ∧ InBatchParent relay result 3 2 ∧
      inheritedAt result 3 = some (0x01, "") ∧ inheritedAt result 2 = some (0x00, "vendor") ∧
      ¬ Consistent relay result := by
  obtain ⟨result, hresult⟩ : ∃ result, assignBatchHierarchy 3 relay = some result :=
    Option.isSome_iff_exists.1 (by decide +kernel)
  have hreturns : Returns relay result := ⟨3, hresult⟩
  have hparent : InBatchParent relay result 3 2 := hreturns.inBatchParent_iff.2 (by decide +kernel)
  have hchild : inheritedAt result 3 = some (0x01, "") := by
    rw [hreturns.inheritedAt]
    decide +kernel
  have hserver : inheritedAt result 2 = some (0x00, "vendor") := by
    rw [hreturns.inheritedAt]
    decide +kernel
  refine ⟨result, hreturns, hparent, hchild, hserver, fun hconsistent => ?_⟩
  have hsame := (hconsistent.chains 3 2 (.single hparent)).2
  rw [hchild, hserver] at hsame
  exact absurd hsame (by decide)

theorem relayStart_consistent :
    DistinctIds relayStart ∧ ∃ result, Returns relayStart result ∧
      (Consistent relayStart result ↔ RelaysDefaults relayStart) := by
  obtain ⟨result, hresult⟩ : ∃ result, assignBatchHierarchy 3 relayStart = some result :=
    Option.isSome_iff_exists.1 (by decide +kernel)
  have hids : DistinctIds relayStart := ⟨by decide +kernel, by decide +kernel⟩
  exact ⟨hids, result, ⟨3, hresult⟩,
    consistent_iff_relaysDefaults relayStart result ⟨3, hresult⟩ hids⟩

/-! ## A forest of nested windows -/

/-- No span is its own ancestor, and the window of a parent contains that of its child. -/
structure SoundHierarchy (batch result : List LocalSpan) : Prop where
  acyclic : ∀ i, ¬ Relation.TransGen (InBatchParent batch result) i i
  nested : ∀ i m, InBatchParent batch result i m → ∀ (e parent : LocalSpan),
    result[i]? = some e → result[m]? = some parent → nested e.record parent.record = true

def windowAt (batch : List LocalSpan) (i : Nat) : Option (Int64 × Int64) :=
  batch[i]?.map fun e => window e.record

/-- A span and its parent, of one window. -/
def Tied (batch : List LocalSpan) (i j : Nat) : Prop :=
  Adopts batch i j ∧ windowAt batch i = windowAt batch j

theorem nested_iff {a b : L7Record} :
    nested a b = true ↔ (window b).1 ≤ (window a).1 ∧ (window a).2 ≤ (window b).2 := by
  rw [nested, Bool.not_eq_true', Bool.or_eq_false_iff, decide_eq_false_iff_not,
    decide_eq_false_iff_not, Int64.not_lt, Int64.not_lt]

/-- The window at one index is inside that at another. -/
def WindowsNested (batch : List LocalSpan) (i j : Nat) : Prop :=
  ∃ e e', batch[i]? = some e ∧ batch[j]? = some e' ∧ nested e.record e'.record = true

theorem WindowsNested.trans {i j k : Nat} (h : WindowsNested batch i j)
    (h' : WindowsNested batch j k) : WindowsNested batch i k := by
  obtain ⟨a, b, ha, hb, hab⟩ := h
  obtain ⟨b', c, hb', hc, hbc⟩ := h'
  cases hb.symm.trans hb'
  rw [nested_iff] at hab hbc
  exact ⟨a, c, ha, hc, nested_iff.2 ⟨Int64.le_trans hbc.1 hab.1, Int64.le_trans hab.2 hbc.2⟩⟩

theorem WindowsNested.antisymm {i j : Nat} (h : WindowsNested batch i j)
    (h' : WindowsNested batch j i) : windowAt batch i = windowAt batch j := by
  obtain ⟨a, b, ha, hb, hab⟩ := h
  obtain ⟨b', a', hb', ha', hba⟩ := h'
  rw [hb] at hb'
  rw [ha] at ha'
  cases hb'
  cases ha'
  rw [nested_iff] at hab hba
  rw [windowAt, windowAt, ha, hb]
  exact congrArg some (Prod.ext (Int64.le_antisymm hba.1 hab.1) (Int64.le_antisymm hab.2 hba.2))

theorem windowsNested_of_adopts {i j : Nat} (h : Adopts batch i j) : WindowsNested batch i j := by
  obtain ⟨e, p, he, hp, hmay, -⟩ := bare_of_adopts h
  refine ⟨e, p, he, hp, ?_⟩
  rw [mayAdopt, Bool.and_eq_true, Bool.or_eq_true, Bool.and_eq_true, Bool.and_eq_true] at hmay
  rcases hmay.2 with ⟨-, hserves⟩ | ⟨-, hcalls⟩
  · exact nested_of_servesClient hserves
  · exact nested_of_callsServer hcalls

/-- Windows grow towards the root, so round a cycle they stay the same. -/
theorem tied_of_cycle {i m : Nat} (h : Relation.TransGen (Adopts batch) i m)
    (hback : Relation.ReflTransGen (Adopts batch) m i) : Relation.TransGen (Tied batch) i m := by
  have hnested : ∀ {a b : Nat}, Relation.TransGen (Adopts batch) a b → WindowsNested batch a b := by
    intro a b hab
    induction hab with
    | single h => exact windowsNested_of_adopts h
    | tail _ h ih => exact ih.trans (windowsNested_of_adopts h)
  have htied : ∀ {a b : Nat}, Adopts batch a b → Relation.ReflTransGen (Adopts batch) b a →
      Tied batch a b := by
    intro a b hab hba
    refine ⟨hab, ?_⟩
    rcases Relation.reflTransGen_iff_eq_or_transGen.1 hba with rfl | hba
    · rfl
    · exact (windowsNested_of_adopts hab).antisymm (hnested hba)
  induction h with
  | single hab => exact .single (htied hab hback)
  | tail hchain hbc ih =>
    exact (ih (.head hbc hback)).tail (htied hbc (hback.trans hchain.to_reflTransGen))

/-- **The hierarchy is a forest of nested windows** exactly if no spans of one window have each
other as parents in a ring. -/
theorem sound_iff_noTies (batch result : List LocalSpan) (h : Returns batch result)
    (hids : DistinctIds batch) :
    SoundHierarchy batch result ↔ ∀ i, ¬ Relation.TransGen (Tied batch) i i := by
  have hparent : InBatchParent batch result = Adopts batch := by
    funext i j
    exact propext (h.inBatchParent_iff_adopts hids)
  constructor
  · intro hsound i hring
    refine hsound.acyclic i ?_
    rw [hparent]
    exact Relation.TransGen.mono (fun _ _ (htied : Tied batch _ _) => htied.1) _ _ hring
  · intro hring
    refine ⟨fun i hcycle => ?_, fun i m him e' p' he' hp' => ?_⟩
    · rw [hparent] at hcycle
      exact hring i (tied_of_cycle hcycle .refl)
    · rw [hparent] at him
      obtain ⟨e, p, he, hp, hnested⟩ := windowsNested_of_adopts him
      obtain ⟨e₁, he₁, hshape⟩ := getElem?_of_shape h.shape.symm he
      obtain ⟨p₁, hp₁, hshape'⟩ := getElem?_of_shape h.shape.symm hp
      cases he'.symm.trans he₁
      cases hp'.symm.trans hp₁
      rwa [nested, window_eq hshape, window_eq hshape', ← nested]

theorem relayStart_sound :
    DistinctIds relayStart ∧ ∃ result, Returns relayStart result ∧
      (SoundHierarchy relayStart result ↔ ∀ i, ¬ Relation.TransGen (Tied relayStart) i i) := by
  obtain ⟨result, hresult⟩ : ∃ result, assignBatchHierarchy 3 relayStart = some result :=
    Option.isSome_iff_exists.1 (by decide +kernel)
  have hids : DistinctIds relayStart := ⟨by decide +kernel, by decide +kernel⟩
  exact ⟨hids, result, ⟨3, hresult⟩, sound_iff_noTies relayStart result ⟨3, hresult⟩ hids⟩

/-! ### A process that calls itself -/

/-- A request of a process to itself, seen from both ends in the same window. -/
def selfCall : List LocalSpan :=
  [bareSpan .client 1 1 100 100 "a:1" "a:80", bareSpan .server 1 2 100 100 "a:80" "a:1"]

/-- Both ends of the request have each other as parents. -/
theorem self_call_adopts_itself :
    ∃ result, Returns selfCall result ∧ InBatchParent selfCall result 0 1 ∧
      InBatchParent selfCall result 1 0 ∧ ¬ SoundHierarchy selfCall result := by
  obtain ⟨result, hresult⟩ : ∃ result, assignBatchHierarchy 3 selfCall = some result :=
    Option.isSome_iff_exists.1 (by decide +kernel)
  have hreturns : Returns selfCall result := ⟨3, hresult⟩
  have hclient : InBatchParent selfCall result 0 1 :=
    hreturns.inBatchParent_iff.2 (by decide +kernel)
  have hserver : InBatchParent selfCall result 1 0 :=
    hreturns.inBatchParent_iff.2 (by decide +kernel)
  exact ⟨result, hreturns, hclient, hserver, fun hsound =>
    hsound.acyclic 0 (.tail (.single hclient) hserver)⟩

end EdgePacer.L7
