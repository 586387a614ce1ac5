import EdgePacer.Ebpf.CgroupPolicy
import EdgePacer.Lib.Trace

/-!
# Lookups against a policy that is being replaced

Any number of kernel lookups read the maps while user space publishes one policy after the other.
Each event of a run is one map access of one party: a map write with the outcome the kernel chose
for it, a map read with the ancestor the kernel helper reports, or the start of a publication or of
a lookup. A run is a list of events, so the runs are the interleavings.

The maps are accompanied by two logs that no program reads: the policies whose publication was
started, and those whose selector took effect. A lookup that answers with a scope answers with an
anchor of the policy that was active when it re-read the selector (`lookup_sound`).
-/

namespace EdgePacer.Ebpf

open List Option Function List.Subset Publishing CgroupMaps

open Lib (Prog Always Each)

/-- A routing table that user space accepted for publication, with the policy made from it. -/
structure Publication where
  routing : CgroupRouting
  policy : CgroupPolicy
  accepted : cgroupPolicyFromRouting routing = .ok policy

/-- The scope is the id of an anchor of the policy. -/
def Publication.Anchors (p : Publication) (scope : Nat) : Prop :=
  ∃ a ∈ p.routing.allowedCgroups, a.id = scope

/-- The maps, and the logs of the publications started and of those that became active, newest
first. -/
structure SharedPolicy where
  maps : CgroupMaps := {}
  started : List Publication := []
  active : List Publication := []

/-- The shared state after a map write that the kernel carried out. -/
def SharedPolicy.carryOut (s : SharedPolicy) (publication : Publication) (op : MapWrite) :
    SharedPolicy :=
  { s with
    maps := s.maps.write op
    active := match op with
      | .setSelector _ => publication :: s.active
      | _ => s.active }

/-- A publication in progress. -/
structure WriterCall where
  publication : Publication
  prog : Publishing

/-- A lookup in progress, with the state in which it last read a map. -/
structure Lookup where
  cgroupId : Nat
  prog : Looking (Option (Nat × Nat))
  seen : SharedPolicy

/-- A lookup that has answered, with the state in which it last read a map. -/
structure Answer where
  cgroupId : Nat
  result : Option (Nat × Nat)
  seen : SharedPolicy

/-- One publisher and any number of lookups. -/
structure PolicyWorld where
  shared : SharedPolicy := {}
  loaded : LoadedCgroups := {}
  writer : Option WriterCall := none
  lookups : Nat → Option Lookup := fun _ => none
  answers : List Answer := []

inductive PolicyEvent where
  /-- User space calls `set_allowed_cgroups`. -/
  | publish (hash : HashOrder) (routing : CgroupRouting)
  /-- The publication makes its next map write. -/
  | write (fault : Option WriteFault)
  /-- A probe on this CPU starts a lookup. -/
  | lookup (cpu cgroupId : Nat)
  /-- The lookup on this CPU makes its next read. -/
  | read (cpu ancestor : Nat)

namespace PolicyWorld

variable (w : PolicyWorld)

/-- Go on with a publication: it has a next write, or it has returned its bookkeeping. -/
def continueWriter (publication : Publication) : Publishing → PolicyWorld
  | .ret (loaded, _) => { w with loaded, writer := none }
  | .call op next => { w with writer := some { publication, prog := .call op next } }

/-- Go on with a lookup: it has a next read, or it has answered. -/
def continueLookup (cpu cgroupId : Nat) : Looking (Option (Nat × Nat)) → PolicyWorld
  | .ret result =>
    { w with
      lookups := update w.lookups cpu none
      answers := { cgroupId, result, seen := w.shared } :: w.answers }
  | .call op next =>
    { w with
      lookups := update w.lookups cpu (some { cgroupId, prog := .call op next, seen := w.shared }) }

/-- The world in which a publication has been started. -/
def start (publication : Publication) : PolicyWorld :=
  { w with shared := { w.shared with started := publication :: w.shared.started } }

/-- The world after a map write; a failed write may or may not have been carried out. -/
def carryOut (w : PolicyWorld) (publication : Publication) (op : MapWrite)
    (fault : Option WriteFault) : PolicyWorld :=
  if fault.all (·.applied) then { w with shared := w.shared.carryOut publication op } else w

def step : PolicyEvent → PolicyWorld
  | .publish hash routing =>
    match w.writer with
    | some _ => w
    | none =>
      match h : cgroupPolicyFromRouting routing with
      | .error _ => w
      | .ok policy =>
        (w.start ⟨routing, policy, h⟩).continueWriter ⟨routing, policy, h⟩
          (setAllowedCgroups hash policy w.loaded)
  | .write fault =>
    match w.writer with
    | some ⟨publication, .call op next⟩ =>
      (w.carryOut publication op fault).continueWriter publication
        (next (w.shared.maps.writeResult op fault))
    | _ => w
  | .lookup cpu cgroupId =>
    if (w.lookups cpu).isSome then w
    else w.continueLookup cpu cgroupId (matchedCgroupScope cgroupId)
  | .read cpu ancestor =>
    match w.lookups cpu with
    | some ⟨cgroupId, .call op next, _⟩ =>
      w.continueLookup cpu cgroupId (next (w.shared.maps.read ancestor op))
    | _ => w

/-- The accepted policy has a generation of its own, or is one published before. -/
def NewGeneration (started : List Publication) : Except String CgroupPolicy → Prop
  | .error _ => True
  | .ok policy => policy.generation ≠ 0 → ∀ q ∈ started,
      q.policy.generation = policy.generation → q.policy.ids = policy.ids

/-- No generation is used for two policies. -/
def NotReused : PolicyEvent → Prop
  | .publish _ routing =>
    w.writer = none → NewGeneration w.shared.started (cgroupPolicyFromRouting routing)
  | _ => True

instance (started : List Publication) (r : Except String CgroupPolicy) :
    Decidable (NewGeneration started r) :=
  match r with
  | .error _ => inferInstanceAs (Decidable True)
  | .ok _ => inferInstanceAs (Decidable (_ → ∀ _ ∈ started, _ → _))

instance (w : PolicyWorld) (e : PolicyEvent) : Decidable (w.NotReused e) :=
  match e with
  | .publish _ _ => inferInstanceAs (Decidable (_ → _))
  | .write _ | .lookup _ _ | .read _ _ => inferInstanceAs (Decidable True)

end PolicyWorld

open PolicyWorld

/-- A returned scope is an anchor of the policy that was active when the selector was re-read, and
the returned generation is the one under which that policy was published. -/
def Answer.Sound (a : Answer) : Prop :=
  ∀ scope generation, a.result = some (scope, generation) →
    ∃ p, a.seen.active.head? = some p ∧ p.routing.policyGeneration = some generation ∧
      p.Anchors scope

/-! ## What the shared state tells a reader -/

/-- The pair comes from a publication that was started under this generation. -/
def SharedPolicy.Comes (s : SharedPolicy) (id generation : Nat) : Prop :=
  ∃ p ∈ s.started, p.policy.generation = generation ∧ id ∈ p.policy.ids

/-- Stored anchors and the selector come from publications. -/
structure SharedPolicy.Inv (s : SharedPolicy) : Prop where
  stored : ∀ slot id generation, s.maps.allowed slot id = some generation → s.Comes id generation
  selector : (unpackCgroupSelector s.maps.selector).2 ≠ 0 → ∃ p, s.active.head? = some p ∧
    p.policy.generation = (unpackCgroupSelector s.maps.selector).2
  active_started : s.active ⊆ s.started
  unique : ∀ p ∈ s.started, ∀ q ∈ s.started, p.policy.generation ≠ 0 →
    p.policy.generation = q.policy.generation → p.policy.ids = q.policy.ids

/-- What user space may do between two reads of a lookup. -/
def SharedPolicy.Rely (s s' : SharedPolicy) : Prop := s'.Inv ∧ s.started ⊆ s'.started

/-- The answers a read can get. -/
def SharedPolicy.Answers (s : SharedPolicy) (op : MapRead) (r : Option Nat) : Prop :=
  ∃ ancestor, r = s.maps.read ancestor op

/-- What the result of a lookup is worth in the state of its last read. -/
def SharedPolicy.Backs (s : SharedPolicy) (result : Option (Nat × Nat)) : Prop :=
  ∀ scope generation, result = some (scope, generation) →
    s.Comes scope generation ∧ generation ≠ 0 ∧
      (unpackCgroupSelector s.maps.selector).2 = generation

theorem SharedPolicy.Comes.mono {s s' : SharedPolicy} {id generation : Nat}
    (hsub : s.started ⊆ s'.started) (h : s.Comes id generation) : s'.Comes id generation := by
  obtain ⟨p, hp, hrest⟩ := h
  exact ⟨p, hsub hp, hrest⟩

/-! ## The lookup -/

section

open SharedPolicy (Rely Answers)

variable {s : SharedPolicy} {selector id : Nat}

theorem cgroupAllowed_ensures (slot id generation : Nat) (s : SharedPolicy) :
    (cgroupAllowed slot id generation).Ensures Rely Answers
      (fun b s' => b = true → s'.Comes id generation) s := by
  unfold cgroupAllowed
  split
  · rintro s' r ⟨hinv, -⟩ ⟨ancestor, rfl⟩ hstored
    exact hinv.stored _ _ _ (of_decide_eq_true hstored)
  · exact nofun

/-- A successful re-read of the selector confirms what the lookup has found so far. -/
theorem cgroupPolicyIsCurrent_ensures (h : s.Comes id (unpackCgroupSelector selector).2) :
    (cgroupPolicyIsCurrent selector).Ensures Rely Answers
      (fun b s' => b = true → s'.Comes id (unpackCgroupSelector selector).2 ∧
        s'.maps.selector = selector) s := by
  rintro s' r ⟨-, hsub⟩ ⟨ancestor, rfl⟩ hcurrent
  exact ⟨h.mono hsub, some.inj (of_decide_eq_true hcurrent)⟩

theorem anchorMatches_ensures (selector id : Nat) (s : SharedPolicy) :
    (anchorMatches selector id).Ensures Rely Answers
      (fun b s' => b = true → s'.Comes id (unpackCgroupSelector selector).2 ∧
        s'.maps.selector = selector) s :=
  (cgroupAllowed_ensures _ id _ s).andAlso fun _ h => cgroupPolicyIsCurrent_ensures h

variable (hsel : (unpackCgroupSelector selector).2 ≠ 0)

include hsel

/-- A confirmed candidate is worth returning. -/
theorem backs_some (h : s.Comes id (unpackCgroupSelector selector).2 ∧ s.maps.selector = selector) :
    s.Backs (some (id, (unpackCgroupSelector selector).2)) := by
  rintro scope generation heq
  obtain ⟨rfl, rfl⟩ := Prod.ext_iff.1 (some.inj heq)
  exact ⟨h.1, hsel, by rw [h.2]⟩

omit hsel in
theorem backs_none : s.Backs none := nofun

theorem inspectAncestors_ensures (root : Nat) (levels : CgroupLevelPolicy) (remaining level : Nat)
    (s : SharedPolicy) :
    (inspectAncestors selector root levels remaining level).Ensures Rely Answers
      (fun r s' => s'.Backs r) s := by
  -- induction on the verifier-visible bound of the loop
  induction remaining generalizing level s with
  | zero => exact backs_none
  | succ remaining ih =>
    unfold inspectAncestors
    split
    · exact backs_none
    split
    · exact ih _ s
    refine (Prog.Ensures.of_stable (F := fun _ => True) (fun _ _ _ h => h) trivial _).bind
      fun ancestor s' _ => ?_
    split
    · exact ih _ s'
    refine (anchorMatches_ensures selector ancestor s').bind fun found s'' hfound => ?_
    split
    · next hmatch => exact backs_some hsel (hfound hmatch)
    · exact ih _ s''

theorem matchScopes_ensures (root : Nat) (levels : CgroupLevelPolicy) {exactMatch : Bool}
    (hexact : exactMatch = true → s.Comes id (unpackCgroupSelector selector).2) :
    (matchScopes selector id root levels exactMatch).Ensures Rely Answers
      (fun r s' => s'.Backs r) s := by
  unfold matchScopes
  split
  · next hmatch =>
    have hcomes := hexact (Bool.and_eq_true_iff.1 hmatch).1
    refine (cgroupPolicyIsCurrent_ensures hcomes).bind fun current s' hcurrent => ?_
    split
    · next htrue => exact backs_some hsel (hcurrent htrue)
    · exact inspectAncestors_ensures hsel root levels _ _ s'
  · exact inspectAncestors_ensures hsel root levels _ _ s

theorem lookupScope_ensures (id : Nat) (s : SharedPolicy) :
    (lookupScope selector id).Ensures Rely Answers (fun r s' => s'.Backs r) s := by
  refine (Prog.Ensures.of_stable (F := fun _ => True) (fun _ _ _ h => h) trivial _).bind
    fun levels s' _ => ?_
  cases levels with
  | none => exact backs_none
  | some levels =>
    refine (cgroupAllowed_ensures _ id _ s').bind fun exactMatch s'' hexact => ?_
    -- what the first read of the allow set found outlives the read of the root
    refine (Prog.Ensures.of_stable
      (F := fun t => exactMatch = true → t.Comes id (unpackCgroupSelector selector).2)
      (fun _ _ hrely h hm => (h hm).mono hrely.2) hexact _).bind fun root t hexact => ?_
    split
    · exact backs_none
    · exact matchScopes_ensures hsel root levels hexact

omit hsel

/-- **One lookup.** Whatever user space does between its reads, a scope it returns comes from a
publication under the returned generation, which the selector names at the last read. -/
theorem matchedCgroupScope_ensures (id : Nat) (s : SharedPolicy) :
    (matchedCgroupScope id).Ensures Rely Answers (fun r s' => s'.Backs r) s := by
  unfold matchedCgroupScope
  split
  · exact backs_none
  · refine (Prog.Ensures.of_stable (F := fun _ => True) (fun _ _ _ h => h) trivial _).bind
      fun selector s' _ => ?_
    cases selector with
    | none => exact backs_none
    | some selector =>
      dsimp only
      split
      · exact backs_none
      · next hsel => exact lookupScope_ensures hsel id s'

end

/-! ## The publication -/

/-- The map writes a publication may make: it stores its own ids under its own generation, and the
selector it writes names its own generation. -/
def Publication.Writes (p : Publication) : MapWrite → Prop
  | .insert _ id generation => generation = p.policy.generation ∧ id ∈ p.policy.ids
  | .setSelector selector => (unpackCgroupSelector selector).2 = p.policy.generation
  | .remove _ _ => True
  | .setLevels _ _ => True

section

variable {P : MapWrite → Prop}

theorem Publishing.calls_andThen {p : Publishing} {next : LoadedCgroups → Publishing}
    (hp : p.Calls P) (hnext : ∀ loaded, (next loaded).Calls P) : (p.andThen next).Calls P := by
  refine hp.bind fun (loaded, result) => ?_
  cases result with
  | error e => trivial
  | ok u => exact hnext loaded

theorem clearStale_calls {slot : Nat} (hP : ∀ id, P (.remove slot id)) (ids : List Nat)
    (loaded : LoadedCgroups) : (clearStale slot ids loaded).Calls P := by
  induction ids generalizing loaded with
  | nil => trivial
  | cons id ids ih =>
    refine ⟨hP id, fun r => ?_⟩
    cases r with
    | ok | keyNotFound => exact ih _
    | error e => trivial

theorem seedAllowed_calls {slot generation : Nat} {ids : List Nat}
    (hP : ∀ id ∈ ids, P (.insert slot id generation)) (loaded : LoadedCgroups) :
    (seedAllowed slot generation ids loaded).Calls P := by
  induction ids generalizing loaded with
  | nil => trivial
  | cons id ids ih =>
    refine ⟨hP id mem_cons_self, fun r => ?_⟩
    dsimp only
    split
    · exact ih ((forall_mem_cons.1 hP).2) _
    · trivial

/-- Every write of a publication is one of its own. -/
theorem setAllowedCgroups_calls (p : Publication) (hash : HashOrder) (loaded : LoadedCgroups) :
    (setAllowedCgroups hash p.policy loaded).Calls p.Writes := by
  unfold setAllowedCgroups
  split
  · trivial
  refine calls_andThen (clearStale_calls (fun _ => trivial) _ _) fun loaded => ?_
  refine calls_andThen (seedAllowed_calls
    (fun id hid => ⟨rfl, hash.mem_order.1 hid⟩) _) fun loaded => ?_
  refine calls_andThen ⟨trivial, fun r => ?_⟩ fun loaded => ?_
  · dsimp only
    split <;> trivial
  unfold publishSelector
  split
  · trivial
  · next selector hpack =>
    refine ⟨congrArg Prod.snd (unpackCgroupSelector_pack hpack), fun r => ?_⟩
    dsimp only
    split <;> trivial

end

/-- A stored pair after a write was stored before or is the one the write inserted. -/
theorem CgroupMaps.allowed_write {m : CgroupMaps} {op : MapWrite} {slot id generation : Nat}
    (h : (m.write op).allowed slot id = some generation) :
    m.allowed slot id = some generation ∨ ∃ slot', op = .insert slot' id generation := by
  cases op with
  | remove slot' id' =>
    simp only [write, update_apply] at h
    split at h
    · next hslot =>
      subst hslot
      simp only [update_apply] at h
      split at h
      · cases h
      · exact .inl h
    · exact .inl h
  | insert slot' id' generation' =>
    simp only [write, update_apply] at h
    split at h
    · next hslot =>
      subst hslot
      simp only [update_apply] at h
      split at h
      · next hid =>
        subst hid
        cases h
        exact .inr ⟨slot, rfl⟩
      · exact .inl h
    · exact .inl h
  | setLevels slot' packed | setSelector selector => exact .inl h

theorem SharedPolicy.Inv.carryOut {s : SharedPolicy} {p : Publication} {op : MapWrite}
    (hi : s.Inv) (hp : p ∈ s.started) (hop : p.Writes op) : (s.carryOut p op).Inv where
  stored := by
    intro slot id generation h
    rcases allowed_write h with hold | ⟨slot', rfl⟩
    · exact hi.stored slot id generation hold
    · exact ⟨p, hp, hop.1.symm, hop.2⟩
  selector := by
    cases op with
    | setSelector selector => exact fun _ => ⟨p, rfl, hop.symm⟩
    | remove slot id | insert slot id generation | setLevels slot packed => exact hi.selector
  active_started := by
    cases op with
    | setSelector selector => exact cons_subset.2 ⟨hp, hi.active_started⟩
    | remove slot id | insert slot id generation | setLevels slot packed => exact hi.active_started
  unique := hi.unique

/-! ## Whole runs -/

namespace PolicyWorld

/-- Every party may rely on what the others leave. -/
structure Inv (w : PolicyWorld) : Prop where
  shared : w.shared.Inv
  writer : ∀ c, w.writer = some c →
    c.publication ∈ w.shared.started ∧ c.prog.Calls c.publication.Writes
  lookups : ∀ cpu l, w.lookups cpu = some l → l.seen.started ⊆ w.shared.started ∧
    l.prog.Ensures SharedPolicy.Rely SharedPolicy.Answers (fun r s => s.Backs r) l.seen
  answers : ∀ a ∈ w.answers, a.Sound

/-- What a lookup has found in a state that meets the invariant is sound. -/
theorem sound_of_backs {s : SharedPolicy} {cgroupId : Nat} {result : Option (Nat × Nat)}
    (hi : s.Inv) (hb : s.Backs result) : Answer.Sound ⟨cgroupId, result, s⟩ := by
  intro scope generation hres
  obtain ⟨⟨q, hq, hqgen, hscope⟩, hne, hsel⟩ := hb scope generation hres
  obtain ⟨p, hhead, hpgen⟩ := hi.selector (hsel ▸ hne)
  rw [hsel] at hpgen
  have hids : p.policy.ids = q.policy.ids :=
    hi.unique p (hi.active_started (mem_of_head? hhead)) q hq (hpgen ▸ hne) (hpgen.trans hqgen.symm)
  have haccepted := p.accepted
  unfold cgroupPolicyFromRouting at haccepted
  -- the policy has an anchor and a nonzero generation, so its routing is not empty
  split at haccepted
  · exact absurd ((fromAnchors_spec haccepted).1.symm.trans hpgen).symm hne
  · split at haccepted
    · cases haccepted
    · next g hg =>
      have hgen : g = generation := (fromAnchors_spec haccepted).1.symm.trans hpgen
      refine ⟨p, hhead, ?_, ((fromAnchors_spec haccepted).2 _).1 (hids ▸ hscope)⟩
      rw [← hgen]
      exact (filter_eq_some_iff.1 hg).1

variable {w : PolicyWorld}

theorem Inv.share (hi : w.Inv) {s : SharedPolicy} (hs : s.Inv)
    (hsub : w.shared.started ⊆ s.started) : Inv { w with shared := s } where
  shared := hs
  writer := fun c hc => ⟨hsub (hi.writer c hc).1, (hi.writer c hc).2⟩
  lookups := fun cpu l hl =>
    ⟨List.Subset.trans (hi.lookups cpu l hl).1 hsub, (hi.lookups cpu l hl).2⟩
  answers := hi.answers

theorem Inv.continueWriter (hi : w.Inv) {p : Publication} {prog : Publishing}
    (hp : p ∈ w.shared.started) (hprog : prog.Calls p.Writes) : (w.continueWriter p prog).Inv := by
  cases prog with
  | ret result => exact ⟨hi.shared, nofun, hi.lookups, hi.answers⟩
  | call op next =>
    refine ⟨hi.shared, fun c hc => ?_, hi.lookups, hi.answers⟩
    cases hc
    exact ⟨hp, hprog⟩

theorem Inv.continueLookup (hi : w.Inv) {cpu cgroupId : Nat}
    {prog : Looking (Option (Nat × Nat))}
    (hprog : prog.Ensures SharedPolicy.Rely SharedPolicy.Answers (fun r s => s.Backs r) w.shared) :
    (w.continueLookup cpu cgroupId prog).Inv := by
  cases prog with
  | ret result =>
    refine ⟨hi.shared, hi.writer, fun cpu' l hl => ?_, ?_⟩
    · simp only [PolicyWorld.continueLookup, update_apply] at hl
      split at hl
      · cases hl
      · exact hi.lookups cpu' l hl
    · exact forall_mem_cons.2 ⟨sound_of_backs hi.shared hprog, hi.answers⟩
  | call op next =>
    refine ⟨hi.shared, hi.writer, fun cpu' l hl => ?_, hi.answers⟩
    simp only [PolicyWorld.continueLookup, update_apply] at hl
    split at hl
    · cases hl
      exact ⟨refl _, hprog⟩
    · exact hi.lookups cpu' l hl

theorem Inv.start (hi : w.Inv) {p : Publication}
    (hfresh : p.policy.generation ≠ 0 → ∀ q ∈ w.shared.started,
      q.policy.generation = p.policy.generation → q.policy.ids = p.policy.ids) :
    (w.start p).Inv := by
  refine hi.share ⟨fun slot id g h => ?_, hi.shared.selector, ?_, ?_⟩ (subset_cons_self _ _)
  · exact (hi.shared.stored slot id g h).mono (subset_cons_self _ _)
  · exact List.Subset.trans hi.shared.active_started (subset_cons_self _ _)
  · -- two publications started: both old, or one of them the new one
    intro q hq r hr hne heq
    rcases mem_cons.1 hq with hqp | hqold
    · rcases mem_cons.1 hr with hrp | hrold
      · rw [hqp, hrp]
      · rw [hqp] at hne heq ⊢
        exact (hfresh hne r hrold heq.symm).symm
    · rcases mem_cons.1 hr with hrp | hrold
      · rw [hrp] at heq ⊢
        exact hfresh (heq ▸ hne) q hqold heq
      · exact hi.shared.unique q hqold r hrold hne heq

theorem Inv.step (hi : w.Inv) (e : PolicyEvent) (hfresh : w.NotReused e) : (w.step e).Inv := by
  cases e with
  | publish hash routing =>
    rw [step.eq_def]
    dsimp only
    split
    · exact hi
    · next hidle =>
      split
      · exact hi
      · next policy hpolicy =>
        have hnew := hfresh hidle
        rw [hpolicy] at hnew
        exact (hi.start (p := ⟨routing, policy, hpolicy⟩) hnew).continueWriter
          mem_cons_self (setAllowedCgroups_calls ⟨routing, policy, hpolicy⟩ hash w.loaded)
  | write fault =>
    rw [step.eq_def]
    dsimp only
    split
    · next p op next hw =>
      obtain ⟨hp, hop, hnext⟩ := hi.writer _ hw
      unfold carryOut
      split
      · exact (hi.share (hi.shared.carryOut hp hop) (refl _)).continueWriter hp (hnext _)
      · exact hi.continueWriter hp (hnext _)
    · exact hi
  | lookup cpu cgroupId =>
    rw [step.eq_def]
    dsimp only
    split
    · exact hi
    · exact hi.continueLookup (matchedCgroupScope_ensures cgroupId w.shared)
  | read cpu ancestor =>
    rw [step.eq_def]
    dsimp only
    split
    · next cgroupId op next seen hl =>
      obtain ⟨hsub, hprog⟩ := hi.lookups cpu _ hl
      exact hi.continueLookup (hprog w.shared _ ⟨hi.shared, hsub⟩ ⟨ancestor, rfl⟩)
    · exact hi

theorem inv_initial : Inv {} where
  shared := {
    stored := nofun
    selector := fun h => absurd rfl h
    active_started := refl _
    unique := nofun }
  writer := nofun
  lookups := nofun
  answers := nofun

end PolicyWorld

/-- **Soundness of the lookup.** In every interleaving of publications, whose map writes may fail,
with kernel lookups, and as long as no generation is used for two policies: a scope that a lookup
returns is an anchor of the policy published under the returned generation, and that policy was the
active one when the lookup re-read the selector. -/
theorem lookup_sound (events : List PolicyEvent)
    (hfresh : Each step NotReused {} events) :
    Always step (fun w => ∀ a ∈ w.answers, a.Sound) {} events :=
  (Lib.always_of_each (fun _ e hi hf => hi.step e hf) inv_initial hfresh).mono
    fun _ hi => hi.answers

/-- The routing of one anchor at level two. -/
def oneAnchor (id generation : Nat) : CgroupRouting where
  byId := [⟨⟨id, 2⟩, "web"⟩]
  policyGeneration := some generation

/-- A policy is published and the next one is on its way when a lookup starts; the second policy
becomes active between the lookup's reads, its levels having failed to be written once. -/
def overtaken : List PolicyEvent :=
  [.publish .increasing (oneAnchor 7 1), .write none, .write none, .write none,
    .publish .increasing (oneAnchor 9 2), .write none, .lookup 0 30,
    .read 0 0, .read 0 0, .read 0 0, .read 0 5, .read 0 7, .read 0 0,
    .write (some ⟨"EBUSY", false⟩), .read 0 0,
    .publish .increasing (oneAnchor 9 3), .write none, .write none, .write none, .write none]

/-- In this run the lookup answers with the anchor of the first policy, which is still the active
one when it re-reads the selector. -/
theorem overtaken_sound :
    Each step NotReused {} overtaken ∧
      (overtaken.foldl step {}).answers.map (·.result) = [some (7, 1)] ∧
      Always step (fun w => ∀ a ∈ w.answers, a.Sound) {} overtaken :=
  ⟨by decide +kernel, by decide +kernel, lookup_sound overtaken (by decide +kernel)⟩

end EdgePacer.Ebpf
