import EdgePacer.Ebpf.Runner
import EdgePacer.L7.Isolation

/-!
# The allow set fails closed

A cgroup allow set may stand only while capture runs and the listener evidence it was computed from
is in force. Every branch of the runner that loses the evidence clears the allow set and the routing
before it ends, and unloads capture when the clearing fails (`allow_set_fails_closed`).

A replacement snapshot with the same evidence is applied under a new generation and keeps the allow
set, so the generation of the resolution is not the generation in force
(`identical_snapshot_renumbers`); the evidence is.
-/

namespace EdgePacer.Ebpf

open Lib L7 Option EbpfManager CgroupRouting

/-! ## The evidence -/

/-- The material evidence, without the number and the time of the snapshot that supplied it. -/
structure Evidence where
  ready : Bool
  rootCgroupId : Option Nat
  owners : Finset ((Nat × Nat) × Nat)
  foreignCandidates : Finset (Nat × ForeignRuntimeIdentity)
  dropCounts : Option (List Nat)
  revision : Nat
  deriving DecidableEq

namespace ListenerState

def evidence (s : ListenerState) : Evidence where
  ready := s.ready
  rootCgroupId := s.rootCgroupId
  owners := s.owners
  foreignCandidates := s.foreignCandidates
  dropCounts := s.appliedDropCounts
  revision := s.authorizationRevisionCounter

/-- Nothing but the marks on a running snapshot differs. -/
structure Keeps (s s' : ListenerState) : Prop where
  evidence : s'.evidence = s.evidence
  appliedGeneration : s'.appliedGeneration = s.appliedGeneration
  inFlight : s'.inFlight.map (·.generation) = s.inFlight.map (·.generation)

namespace Keeps

variable {s s' s'' : ListenerState}

theorem refl (s : ListenerState) : s.Keeps s := ⟨rfl, rfl, rfl⟩

theorem trans (h : s.Keeps s') (h' : s'.Keeps s'') : s.Keeps s'' :=
  ⟨h'.evidence.trans h.evidence, h'.appliedGeneration.trans h.appliedGeneration,
    h'.inFlight.trans h.inFlight⟩

theorem ready (h : s.Keeps s') : s'.ready = s.ready := congrArg Evidence.ready h.evidence

theorem authorizationGeneration (h : s.Keeps s') :
    s'.authorizationGeneration = s.authorizationGeneration := by
  unfold ListenerState.authorizationGeneration
  rw [h.ready, h.appliedGeneration]

theorem isSome_inFlight (h : s.Keeps s') : s'.inFlight.isSome = s.inFlight.isSome := by
  have := congrArg isSome h.inFlight
  rwa [isSome_map, isSome_map] at this

theorem snapshotIsCurrent (h : s.Keeps s') (generation : Nat) :
    s'.snapshotIsCurrent generation = s.snapshotIsCurrent generation := by
  have := congrArg (Option.any fun g => decide (g = generation)) h.inFlight
  rwa [Option.any_map, Option.any_map] at this

end Keeps

variable (s : ListenerState)

@[simp] theorem authorizationGeneration_of_unready (h : s.ready = false) :
    s.authorizationGeneration = none := by
  unfold authorizationGeneration
  rw [h]
  rfl

/-- A snapshot that fails is gone, and the evidence with it. -/
theorem failSnapshot_of_current {generation : Nat} (h : s.snapshotIsCurrent generation = true) :
    (s.failSnapshot generation).1.ready = false ∧
      (s.failSnapshot generation).1.inFlight = none := by
  unfold failSnapshot
  rw [if_pos h]
  exact ⟨rfl, rfl⟩

/-- The running snapshot is marked, if there is one. -/
def observed (observedAtNs : Nat) : ListenerState :=
  { s with inFlight := s.inFlight.map fun f => f.observe observedAtNs }

/-- An event is ignored, or marks the running snapshot, and then the evidence goes if there is
any. -/
theorem recordDelta_cases (association : ListenerAssociation) (observedAtNs : Nat) :
    (s.recordDelta association observedAtNs).1 = s ∨
      s.ready = true ∧
        (s.recordDelta association observedAtNs).1 = (s.observed observedAtNs).clearOwnership ∨
      s.ready = false ∧ (s.recordDelta association observedAtNs).1 = s.observed observedAtNs := by
  fun_cases recordDelta s association observedAtNs
  · exact .inl rfl
  · exact .inl rfl
  · next hready => exact .inr (.inl ⟨hready, rfl⟩)
  · next hready => exact .inr (.inr ⟨Bool.eq_false_iff.2 hready, rfl⟩)

theorem map_observe_generation (inFlight : Option InFlightSnapshot) (observedAtNs : Nat) :
    (inFlight.map (·.observe observedAtNs)).map (·.generation) = inFlight.map (·.generation) := by
  rw [map_map]
  congr 1
  funext f
  simp only [Function.comp_apply, InFlightSnapshot.observe]
  split
  · rfl
  · rfl

variable {listener : CapturedListener} (generation : Nat)

theorem recordListenerDelta_keeps (h : (recordListenerDelta s listener).2 = false) :
    s.Keeps (recordListenerDelta s listener).1 := by
  unfold recordListenerDelta at h ⊢
  rcases s.recordDelta_cases listener.association listener.observedAtNs with
    heq | ⟨hready, heq⟩ | ⟨_, heq⟩
  · rw [heq]
    exact .refl s
  · rw [heq, hready] at h
    cases h
  · rw [heq]
    exact ⟨rfl, rfl, map_observe_generation s.inFlight _⟩

/-- One that does leaves no evidence, and the running snapshot. -/
theorem recordListenerDelta_lost (h : (recordListenerDelta s listener).2 = true) :
    (recordListenerDelta s listener).1.ready = false ∧
      (recordListenerDelta s listener).1.inFlight.isSome = s.inFlight.isSome := by
  unfold recordListenerDelta at h ⊢
  rcases s.recordDelta_cases listener.association listener.observedAtNs with
    heq | ⟨_, heq⟩ | ⟨hready, heq⟩
  · rw [heq] at h
    cases hready : s.ready <;> simp [hready] at h
  · rw [heq]
    exact ⟨rfl, isSome_map⟩
  · rw [hready] at h
    cases h

variable {s' : ListenerState}

theorem recordListenerDeltas_keeps {listeners : List CapturedListener}
    (h : recordListenerDeltas s listeners = (s', false)) : s.Keeps s' := by
  induction listeners generalizing s with
  | nil =>
    obtain ⟨rfl, _⟩ := Prod.mk.inj h
    exact .refl s
  | cons listener rest ih =>
    rw [recordListenerDeltas] at h
    generalize hd : recordListenerDelta s listener = d at h
    obtain ⟨s₁, lost⟩ := d
    cases lost with
    | true => cases h
    | false =>
      have hkeeps := s.recordListenerDelta_keeps (by rw [hd])
      rw [hd] at hkeeps
      exact hkeeps.trans (ih s₁ h)

theorem drainUntilFence_keeps {pass : FencePass}
    (h : drainListenerUntilFence pass s = (s', .ok ())) : s.Keeps s' := by
  rw [drainListenerUntilFence] at h
  split at h
  · cases h
  · next s₂ hdeltas =>
    obtain ⟨rfl, _⟩ := Prod.mk.inj h
    exact s.recordListenerDeltas_keeps hdeltas

/-- A drain that does not fail for good keeps the evidence: one event that invalidates it is
fatal. -/
theorem drain_keeps {m : EbpfManager} {captureGeneration fuel : Nat} {passes : List FencePass}
    {observation : ListenerObservation}
    {result : Except StableListenerFenceError ListenerObservation}
    (h : drainListenerUntilPublicationStable m captureGeneration fuel passes observation s = (s',
      result)) (hfatal : ∀ e, result ≠ .error (.fatal e)) : s.Keeps s' := by
  fun_induction drainListenerUntilPublicationStable m captureGeneration fuel passes observation s
  case case6 s _ _ hfence _ _ _ | case8 s _ _ hfence _ _ _ _ =>
    cases h
    exact s.drainUntilFence_keeps hfence
  case case9 s _ _ hfence _ _ _ _ ih => exact (s.drainUntilFence_keeps hfence).trans (ih h)
  all_goals
    cases h
    exact absurd rfl (hfatal _)

theorem nextGeneration_ne : nextGeneration generation ≠ generation := by
  unfold nextGeneration
  omega

/-- A snapshot is applied, or ignored because it is stale, or fails and takes the evidence along. -/
theorem applySnapshotWithLoss_cases (snapshot : ListenerSnapshot) (counts : List Nat)
    (limit : Nat) :
    (∃ f, s.inFlight = some f ∧
        s.applySnapshotWithLoss generation snapshot counts limit =
          (s.install f snapshot counts, .ok true)) ∨
      s.applySnapshotWithLoss generation snapshot counts limit = (s, .ok false) ∨
      ∃ s' e, s.applySnapshotWithLoss generation snapshot counts limit = (s', .error e) ∧
        s'.ready = false ∧ s'.inFlight = none := by
  fun_cases applySnapshotWithLoss s generation snapshot counts limit
  case case6 f hf _ _ _ _ => exact .inl ⟨f, hf, rfl⟩
  case case1 | case2 => exact .inr (.inl rfl)
  all_goals exact .inr (.inr ⟨_, _, rfl, rfl, rfl⟩)

/-- The revision tells whether a snapshot brought other evidence. -/
theorem install_evidence {f : InFlightSnapshot} {snapshot : ListenerSnapshot} {counts : List Nat}
    (h : s.authorizationRevision = (s.install f snapshot counts).authorizationRevision) :
    (s.install f snapshot counts).evidence = s.evidence := by
  cases hunchanged : s.authorizationIsUnchanged snapshot counts with
  | true =>
    have hsame := hunchanged
    simp only [authorizationIsUnchanged, Bool.and_eq_true, decide_eq_true_eq] at hsame
    obtain ⟨⟨⟨⟨hready, hroot⟩, howners⟩, hforeign⟩, hcounts⟩ := hsame
    simp only [evidence, install, hunchanged, if_true, hready, hroot, howners, hforeign, hcounts]
  | false =>
    exfalso
    simp only [authorizationRevision, install, hunchanged] at h
    cases hready : s.ready with
    | false => simp [hready] at h
    | true =>
      simp only [hready, if_true, some.injEq] at h
      exact nextGeneration_ne _ h.symm

/-- A snapshot that begins keeps the evidence or drops it. -/
theorem beginSnapshotWithLoss_cases (cutNs : Nat) (counts : List Nat) :
    (s.beginSnapshotWithLoss cutNs counts) = (s, none) ∨
      (∃ generation, (s.beginSnapshotWithLoss cutNs counts).2 = some generation) ∧
      ((s.beginSnapshotWithLoss cutNs counts).1.ready = false ∨
        (s.beginSnapshotWithLoss cutNs counts).1.evidence = s.evidence ∧
        (s.beginSnapshotWithLoss cutNs counts).1.appliedGeneration = s.appliedGeneration) := by
  unfold beginSnapshotWithLoss
  split
  · exact .inl rfl
  · refine .inr ⟨⟨_, rfl⟩, ?_⟩
    rcases s.dropOnLoss_cases counts with hkeep | hdrop
    · rw [hkeep]
      exact .inr ⟨rfl, rfl⟩
    · rw [hdrop]
      exact .inl rfl

end ListenerState

/-! ## The invariant -/

namespace Runner

variable {ext : Externals}

/-- The listener state and the configuration it was collected under: there is evidence, or a
snapshot that will bring it, only under the configuration that capture runs with. -/
structure Linked (s : ListenerState) (hash : Option String) (state : ManagerState) : Prop where
  configured : s.ready = true ∨ s.inFlight.isSome = true → hash.isSome = true
  sameConfig : ∀ h h', hash = some h → state = .running h' → h = h'

/-- Capture runs, and the evidence in force is what the routing was published from, by a resolution
of the snapshot in force then. -/
structure Backed (r : Runner ext) : Prop where
  running : r.manager.state.isRunning = true
  published : ∃ p, r.published = some p ∧
    p.state.authorizationGeneration = some p.key.listenerGeneration ∧
    r.listenerState.evidence = p.state.evidence

/-- What holds within an iteration, before an allow set without evidence is cleared. -/
structure Sound (r : Runner ext) : Prop where
  allowed : r.manager.program.allowedCgroups = r.cgroupRouting.allowedCgroups
  linked : Linked r.listenerState r.listenerConfigHash r.manager.state
  backed : listenerAuthorizationIsAvailable r.listenerState = true →
    r.cgroupRouting.isEmpty = false → Backed r

/-- What holds after every iteration. -/
structure Closed (r : Runner ext) : Prop extends Sound r where
  available : r.cgroupRouting.isEmpty = false →
    listenerAuthorizationIsAvailable r.listenerState = true

variable {s : ListenerState}

theorem ready_of_available (h : listenerAuthorizationIsAvailable s = true) : s.ready = true := by
  by_contra hready
  rw [listenerAuthorizationIsAvailable, s.authorizationGeneration_of_unready
    (Bool.eq_false_iff.2 hready)] at h
  cases h

theorem unavailable_of_unready (h : s.ready = false) :
    listenerAuthorizationIsAvailable s = false := by
  rw [listenerAuthorizationIsAvailable, s.authorizationGeneration_of_unready h]
  rfl

namespace Linked

variable {s s' : ListenerState} {hash : Option String} {state : ManagerState}

/-- With nothing collected and nothing under way, no configuration is needed. -/
theorem blank (hready : s.ready = false) (hflight : s.inFlight = none)
    (hsame : ∀ h h', hash = some h → state = .running h' → h = h') : Linked s hash state where
  configured := by
    rintro (h | h)
    · rw [hready] at h
      cases h
    · rw [hflight] at h
      cases h
  sameConfig := hsame

theorem unset (hready : s.ready = false) (hflight : s.inFlight = none) : Linked s none state :=
  .blank hready hflight nofun

variable (h : Linked s hash state)

include h

theorem reset : Linked s.reset hash state := .blank rfl rfl h.sameConfig

/-- Less evidence needs no more. -/
theorem less (hready : s'.ready = true → s.ready = true)
    (hflight : s'.inFlight.isSome = true → s.inFlight.isSome = true) : Linked s' hash state where
  configured := fun h' => h.configured (h'.imp hready hflight)
  sameConfig := h.sameConfig

theorem unready (hready : s'.ready = false)
    (hflight : s'.inFlight.isSome = true → s.inFlight.isSome = true) : Linked s' hash state :=
  h.less (fun hr => nomatch hready.symm.trans hr) hflight

theorem stopped {state' : ManagerState} (hstopped : state'.isRunning = false) :
    Linked s hash state' where
  configured := h.configured
  sameConfig := by
    rintro _ _ _ rfl
    cases hstopped

end Linked

variable {routing : CgroupRouting} {r r' : Runner ext} {result : Except String Unit}
  {generation : Nat} {desired : CgroupRouting} {config : EbpfSectionConfig}

theorem isEmpty_iff_allowedCgroups : routing.isEmpty = true ↔ routing.allowedCgroups = [] := by
  rw [isEmpty, allowedCgroups, List.isEmpty_iff, List.map_eq_nil_iff]

/-- Without routing and allow set, the rest is about the listener state only. -/
theorem closed_of_empty (hrouting : r.cgroupRouting.isEmpty = true)
    (hallowed : r.manager.program.allowedCgroups = [])
    (hlinked : Linked r.listenerState r.listenerConfigHash r.manager.state) : Closed r where
  allowed := hallowed.trans (isEmpty_iff_allowedCgroups.1 hrouting).symm
  linked := hlinked
  backed := fun _ h => nomatch hrouting.symm.trans h
  available := fun h => nomatch hrouting.symm.trans h

theorem Backed.of_evidence (h : Backed r) (hs : s.evidence = r.listenerState.evidence) :
    Backed { r with listenerState := s } where
  running := h.running
  published := by
    obtain ⟨p, hp, hgeneration, hevidence⟩ := h.published
    exact ⟨p, hp, hgeneration, hs.trans hevidence⟩

/-- Of the runner's fields, the invariant reads these five. -/
theorem Closed.congr (h : Closed r) (hmanager : r'.manager = r.manager)
    (hrouting : r'.cgroupRouting = r.cgroupRouting) (hs : r'.listenerState = r.listenerState)
    (hhash : r'.listenerConfigHash = r.listenerConfigHash)
    (hpublished : r'.published = r.published) : Closed r' where
  allowed := by rw [hmanager, hrouting, h.allowed]
  linked := by rw [hs, hhash, hmanager]; exact h.linked
  backed := by
    rw [hs, hrouting]
    intro havailable hne
    have hbacked := h.backed havailable hne
    exact ⟨by rw [hmanager, hbacked.running], by rw [hpublished, hs]; exact hbacked.published⟩
  available := by rw [hs, hrouting]; exact h.available

/-! ## Failing closed -/

theorem failListenerCapture_closed (r : Runner ext) : Closed r.failListenerCapture :=
  closed_of_empty rfl r.manager.shutdown_allowedCgroups (.unset rfl rfl)

section

variable {answer : Except String Unit} (h : r.clearCgroupAuthorizationAndL7 answer = (r', result))
  (hallowed : r.manager.program.allowedCgroups = r.cgroupRouting.allowedCgroups)
  (hlinked : Linked r.listenerState r.listenerConfigHash r.manager.state)

include hallowed hlinked in
theorem sound_of_unready (hready : r.listenerState.ready = false) : Sound r where
  allowed := hallowed
  linked := hlinked
  backed := fun h => nomatch (unavailable_of_unready hready).symm.trans h

include hallowed h

/-- Clearing leaves neither routing nor allow set, whether it fails or not. -/
theorem clear_spec :
    r'.cgroupRouting.isEmpty = true ∧ r'.manager.program.allowedCgroups = [] ∧
      r'.listenerState = r.listenerState ∧ r'.listenerConfigHash = r.listenerConfigHash ∧
      (r'.manager.state = r.manager.state ∨ r'.manager.state.isRunning = false) := by
  have hr' : { (r.clearCgroupAuthorization answer).1 with l7 := {} } = r' := congrArg Prod.fst h
  subst hr'
  unfold clearCgroupAuthorization
  split
  · next hempty =>
    exact ⟨hempty, hallowed.trans (isEmpty_iff_allowedCgroups.1 hempty), rfl, rfl, .inl rfl⟩
  · rcases r.manager.setAllowedCgroups_cases {} answer with ⟨_, hstate, hset⟩ | ⟨_, hstopped⟩
    · exact ⟨rfl, hset, rfl, rfl, .inl hstate⟩
    · exact ⟨rfl, unloaded _ hstopped, rfl, rfl, .inr hstopped⟩

include hlinked in
theorem clear_closed : Closed r' := by
  obtain ⟨hrouting, hallowed, hs, hhash, hstate⟩ := clear_spec h hallowed
  refine closed_of_empty hrouting hallowed ?_
  rw [hs, hhash]
  rcases hstate with hsame | hstopped
  · rw [hsame]
    exact hlinked
  · exact hlinked.stopped hstopped

end

theorem clearOrFail_closed (h : Sound r) (answer : Except String Unit) :
    Closed (r.clearOrFail answer) := by
  unfold clearOrFail
  split
  · exact failListenerCapture_closed _
  · next hclear => exact clear_closed hclear h.allowed h.linked

theorem clearUnready_closed (h : Sound r) (answer : Except String Unit) :
    Closed (r.clearUnreadyCgroupAuthorization answer) := by
  unfold clearUnreadyCgroupAuthorization
  split
  · next hskip =>
    rcases Bool.or_eq_true _ _ ▸ hskip with havailable | hempty
    · exact { h with available := fun _ => havailable }
    · exact { h with available := fun hne => nomatch hempty.symm.trans hne }
  · exact clearOrFail_closed h answer

/-! ## Listener events and snapshots -/

variable (h : Closed r)

include h

theorem Closed.of_keeps (hs : r.listenerState.Keeps s) : Closed { r with listenerState := s } := by
  have hsame : listenerAuthorizationIsAvailable s =
      listenerAuthorizationIsAvailable r.listenerState := by
    rw [listenerAuthorizationIsAvailable, listenerAuthorizationIsAvailable,
      hs.authorizationGeneration]
  refine
    { allowed := h.allowed
      linked := h.linked.less (fun hr => hs.ready ▸ hr) (fun hf => hs.isSome_inFlight ▸ hf)
      backed := fun havailable hrouting => ?_
      available := fun hrouting => hsame.trans (h.available hrouting) }
  exact (h.backed (hsame.symm.trans havailable) hrouting).of_evidence hs.evidence

theorem onListener_closed (listener : CapturedListener) (answer : Except String Unit) :
    Closed (r.onListener listener answer) := by
  apply clearUnready_closed
  cases hlost : (recordListenerDelta r.listenerState listener).2 with
  | false => exact (h.of_keeps (r.listenerState.recordListenerDelta_keeps hlost)).toSound
  | true =>
    obtain ⟨hready, hflight⟩ := r.listenerState.recordListenerDelta_lost hlost
    exact sound_of_unready h.allowed (h.linked.unready hready fun hf => hflight ▸ hf) hready

theorem abandonSnapshot_closed (hcurrent : r.listenerState.snapshotIsCurrent generation = true)
    (answer : Except String Unit) : Closed (r.abandonSnapshot generation answer) := by
  obtain ⟨hready, hflight⟩ := r.listenerState.failSnapshot_of_current hcurrent
  apply clearUnready_closed
  exact sound_of_unready h.allowed (.blank hready hflight h.linked.sameConfig) hready

theorem abandonRestarted_closed (hcurrent : r.listenerState.snapshotIsCurrent generation = true)
    (answer : Except String Unit) : Closed (r.abandonRestarted generation answer) := by
  obtain ⟨hready, hflight⟩ := r.listenerState.failSnapshot_of_current hcurrent
  apply clearUnready_closed
  exact sound_of_unready h.allowed (.unset hready hflight) hready

theorem startCgroupResolution_closed (key : CgroupResolutionKey) (reserved : Except String Unit) :
    Closed (r.startCgroupResolution key reserved) := by
  unfold startCgroupResolution
  split
  · exact failListenerCapture_closed r
  · exact h.congr rfl rfl rfl rfl rfl

theorem applySnapshot_closed (res : ListenerSnapshotResult) (snapshot : ListenerSnapshot)
    (dropCounts : List Nat) (a : SnapshotAnswers) :
    Closed (r.applySnapshot res snapshot dropCounts a) := by
  unfold applySnapshot
  rcases r.listenerState.applySnapshotWithLoss_cases res.stateGeneration snapshot dropCounts
    maxPortCgroupAssociations with ⟨f, hf, happly⟩ | hstale | ⟨s, e, hfailed, hready, hflight⟩
  · rw [happly]
    dsimp only
    have hlinked : Linked (r.listenerState.install f snapshot dropCounts) r.listenerConfigHash
        r.manager.state :=
      ⟨fun _ => h.linked.configured (.inr (by rw [hf]; rfl)), h.linked.sameConfig⟩
    split
    · -- other evidence: the old allow set goes first
      split
      · exact failListenerCapture_closed _
      · next hclear =>
        exact startCgroupResolution_closed (clear_closed hclear h.allowed hlinked) _ _
    · -- the same evidence under a new generation
      next hsame =>
      have hevidence := r.listenerState.install_evidence (not_not.1 hsame)
      apply startCgroupResolution_closed
      refine
        { allowed := h.allowed
          linked := hlinked
          backed := fun _ hrouting => ?_
          available := fun _ => rfl }
      exact (h.backed (h.available hrouting) hrouting).of_evidence hevidence
  · rw [hstale]
    exact h
  · rw [hfailed]
    apply clearUnready_closed
    exact sound_of_unready h.allowed (.blank hready hflight h.linked.sameConfig) hready

theorem onSnapshot_closed (res : ListenerSnapshotResult) (a : SnapshotAnswers) :
    Closed (r.onSnapshot res a) := by
  have hcurrent (hnot : ¬ (!r.listenerState.snapshotIsCurrent res.stateGeneration) = true) :
      r.listenerState.snapshotIsCurrent res.stateGeneration = true := by
    simpa using hnot
  fun_cases onSnapshot r res a
  · exact h
  · next hnot _ _ => exact abandonSnapshot_closed h (hcurrent hnot) _
  · next hnot _ _ _ _ => exact abandonSnapshot_closed h (hcurrent hnot) _
  · exact failListenerCapture_closed r
  · next hnot _ _ _ _ _ _ => exact abandonRestarted_closed h (hcurrent hnot) _
  · exact failListenerCapture_closed _
  · next hnot _ _ _ _ _ _ _ _ _ hdrain =>
    have hkeeps := r.listenerState.drain_keeps hdrain (by simp)
    exact abandonRestarted_closed (h.of_keeps hkeeps)
      ((hkeeps.snapshotIsCurrent _).trans (hcurrent hnot)) _
  · next hnot _ _ _ _ _ _ _ _ hdrain =>
    have hkeeps := r.listenerState.drain_keeps hdrain (by simp)
    unfold commitSnapshot
    split
    · exact abandonSnapshot_closed (h.of_keeps hkeeps)
        ((hkeeps.snapshotIsCurrent _).trans (hcurrent hnot)) _
    · exact applySnapshot_closed (h.of_keeps hkeeps) res _ _ a

/-! ## Resolutions -/

theorem restartListeners_closed (answer : Except String Unit) :
    Closed (r.restartListeners answer) := by
  apply clearUnready_closed
  exact sound_of_unready h.allowed h.linked.reset rfl

omit h in
theorem assignCgroupGeneration_spec {resolved : CgroupRouting}
    (h : r.assignCgroupGeneration resolved = (r', .ok desired)) :
    (∃ n, r' = { r with nextCgroupPolicyGeneration := n }) ∧ desired.byId = resolved.byId := by
  unfold assignCgroupGeneration at h
  split at h
  · cases h
    exact ⟨⟨r.nextCgroupPolicyGeneration, rfl⟩, rfl⟩
  · next hne =>
    have hfields := r.cgroupGenerationFor_fields resolved
    generalize r.cgroupGenerationFor resolved = numbered at h hfields
    obtain ⟨hr, hdesired⟩ := Prod.mk.inj h
    refine ⟨hr ▸ hfields, ?_⟩
    rw [assignPolicyGeneration, if_neg hne] at hdesired
    split at hdesired
    · cases hdesired
    · cases hdesired
      rfl

omit h in
/-- A table becomes the routing in force when the kernel has its anchors and the evidence is that of
its resolution. -/
theorem adoptRouting_closed {key : CgroupResolutionKey}
    (hlinked : Linked r.listenerState r.listenerConfigHash r.manager.state)
    (hrunning : r.manager.state.isRunning = true)
    (hallowed : r.manager.program.allowedCgroups = desired.allowedCgroups)
    (hgeneration : r.listenerState.authorizationGeneration = some key.listenerGeneration) :
    Closed (r.adoptRouting key desired) where
  allowed := hallowed
  linked := hlinked
  backed := fun _ _ => ⟨hrunning, _, rfl, hgeneration, rfl⟩
  available := fun _ => by
    rw [listenerAuthorizationIsAvailable]
    exact hgeneration ▸ rfl

omit h in
/-- A publication that succeeds is in force; one that is called off before the maps are touched
changes nothing. -/
theorem publishRevalidatedCgroups_spec {m m' : EbpfManager} {a : ResolutionAnswers}
    {result : Except CgroupPublicationRecovery Unit}
    (h : publishRevalidatedCgroups m routing a = (m', result)) :
    (result = .ok () → m'.state = m.state ∧
        m'.program.allowedCgroups = routing.allowedCgroups) ∧
      ∀ e, result = .error (.clearCgroupsKeepPid e) → m' = m := by
  unfold publishRevalidatedCgroups at h
  split at h
  · cases h
    exact ⟨nofun, fun _ _ => rfl⟩
  · split at h
    · cases h
      exact ⟨nofun, nofun⟩
    · next hset =>
      split at h
      · cases h
        exact ⟨nofun, nofun⟩
      · cases h
        refine ⟨fun _ => ?_, nofun⟩
        rcases m.setAllowedCgroups_cases routing a.setAllowedCgroups with
          ⟨_, hstate, hallowed⟩ | ⟨⟨e, herror⟩, _⟩
        · rw [hset] at hstate hallowed
          exact ⟨hstate, hallowed⟩
        · rw [hset] at herror
          cases herror

theorem publishCgroups_closed {key : CgroupResolutionKey} (resolved : CgroupRouting)
    (a : ResolutionAnswers) (hrunning : r.manager.state.isRunning = true)
    (hgeneration : r.listenerState.authorizationGeneration = some key.listenerGeneration) :
    Closed (r.publishCgroups key resolved a) := by
  unfold publishCgroups
  split
  · exact failListenerCapture_closed _
  · next r' desired hassign =>
    obtain ⟨⟨n, rfl⟩, hdesired⟩ := assignCgroupGeneration_spec hassign
    split
    · split
      · next manager hpublish =>
        obtain ⟨hstate, hallowed⟩ := (publishRevalidatedCgroups_spec hpublish).1 rfl
        exact adoptRouting_closed (hstate ▸ h.linked) (hstate ▸ hrunning) hallowed hgeneration
      · next manager e hpublish =>
        obtain rfl := (publishRevalidatedCgroups_spec hpublish).2 e rfl
        apply clearOrFail_closed
        exact sound_of_unready h.allowed h.linked.reset rfl
      · exact failListenerCapture_closed _
    · -- the kernel has this allow set already
      next hunchanged =>
      refine adoptRouting_closed h.linked hrunning ?_ hgeneration
      rw [allowedCgroups, hdesired, byId_of_not_required (Bool.eq_false_iff.2 hunchanged)]
      exact h.allowed

theorem commitResolution_closed (key : CgroupResolutionKey) (resolved : CgroupRouting)
    (dropCounts : List Nat) (a : ResolutionAnswers) (hrunning : r.manager.state.isRunning = true) :
    Closed (r.commitResolution key resolved dropCounts a) := by
  unfold commitResolution
  split
  · next s e hinvalid =>
    apply clearUnready_closed
    -- the evidence is as it was, or it is gone
    unfold ListenerState.validateAuthorization at hinvalid
    split at hinvalid
    · cases hinvalid
      exact h.toSound
    · split at hinvalid
      · cases hinvalid
        exact sound_of_unready h.allowed (h.linked.unready rfl id) rfl
      · cases hinvalid
  · next s hvalid =>
    obtain ⟨hs, _, hgeneration, _⟩ := r.listenerState.validateAuthorization_ok (by rw [hvalid])
    rw [hvalid] at hs
    subst hs
    split
    · exact restartListeners_closed h _
    · exact publishCgroups_closed h resolved a hrunning hgeneration

theorem takeResolution_closed (key : CgroupResolutionKey) (resolved : CgroupRouting)
    (a : ResolutionAnswers) : Closed (r.takeResolution key resolved a) := by
  unfold takeResolution
  split
  · exact failListenerCapture_closed r
  · next observation hobserved =>
    have hrunning := r.manager.isRunning_of_listenerObservation hobserved
    split
    · exact restartListeners_closed h _
    · split
      · exact failListenerCapture_closed _
      · next hdrain =>
        exact restartListeners_closed (h.of_keeps (r.listenerState.drain_keeps hdrain (by simp))) _
      · next hdrain =>
        exact commitResolution_closed (h.of_keeps (r.listenerState.drain_keeps hdrain (by simp)))
          key resolved _ a hrunning

theorem onResolution_closed (res : CgroupResolutionResult) (a : ResolutionAnswers) :
    Closed (r.onResolution res a) := by
  have hpending : Closed (if r.pendingCgroupResolution = some res.key then
      { r with pendingCgroupResolution := none } else r) := by
    split
    · exact h.congr rfl rfl rfl rfl rfl
    · exact h
  unfold onResolution
  generalize (if r.pendingCgroupResolution = some res.key then
      { r with pendingCgroupResolution := none } else r) = r' at hpending
  dsimp only
  split
  · exact restartListeners_closed hpending _
  · split
    · exact hpending
    · split
      · apply clearOrFail_closed
        exact sound_of_unready hpending.allowed hpending.linked.reset rfl
      · exact takeResolution_closed hpending _ _ a

/-! ## Ticks -/

theorem dropStaleAuthorization_closed {t : Tick} {continues : Bool}
    (hdrop : r.dropStaleAuthorization config t = (r', continues)) :
    Closed r' ∧
      (continues = true →
        ∀ hash, r'.listenerConfigHash = some hash → hash = config.configHash) := by
  unfold dropStaleAuthorization at hdrop
  split at hdrop
  · split at hdrop
    · next hclear =>
      obtain ⟨hrouting, hallowed, _⟩ := clear_spec hclear h.allowed
      cases hdrop
      exact ⟨closed_of_empty hrouting (shutdown_allowedCgroups _) (.unset rfl rfl), by simp⟩
    · next hclear =>
      obtain ⟨hrouting, hallowed, _⟩ := clear_spec hclear h.allowed
      cases hdrop
      exact ⟨closed_of_empty hrouting hallowed (.unset rfl rfl), by simp⟩
  · next hfresh =>
    cases hdrop
    refine ⟨h, fun _ hash hhash => ?_⟩
    simp only [hhash, any_some, Bool.or_eq_true, decide_eq_true_eq, not_or, not_not] at hfresh
    exact hfresh.2

/-- If capture runs after the reconcile, it runs under the section; if not, nothing is left. -/
theorem reconcileCapture_spec {t : Tick} {running : Bool}
    (hconfig : ∀ hash, r.listenerConfigHash = some hash → hash = config.configHash)
    (hreconcile : r.reconcileCapture config t = (r', running)) :
    Closed r' ∧ r'.listenerConfigHash = r.listenerConfigHash ∧
      (running = true → r'.manager.state = .running config.configHash ∧ config.enabled = true) ∧
      (running = false → r'.cgroupRouting.isEmpty = true ∧
        r'.manager.program.allowedCgroups = []) := by
  have hcases := r.manager.reconcile_cases config t.resolved t.answers
  unfold reconcileCapture at hreconcile
  generalize r.manager.reconcile config t.resolved t.answers = reconciled at hcases hreconcile
  obtain ⟨m, outcome⟩ := reconciled
  dsimp only at hcases hreconcile
  rcases hcases with ⟨hrunning, hstopped⟩ | ⟨hrunning, hstate, henabled, hallowed⟩
  · -- capture does not run
    rw [hrunning] at hreconcile
    cases hreconcile
    exact ⟨closed_of_empty rfl (m.unloaded hstopped) (h.linked.stopped hstopped), rfl,
      nofun, fun _ => ⟨rfl, m.unloaded hstopped⟩⟩
  · rw [hrunning, if_pos rfl] at hreconcile
    split at hreconcile
    · -- capture runs; it is the same program if there is an allow set
      cases hreconcile
      have hlinked : Linked r.listenerState r.listenerConfigHash m.state := by
        refine ⟨h.linked.configured, ?_⟩
        rintro hash _ hhash hm
        cases hstate.symm.trans hm
        exact hconfig hash hhash
      have hsame : r.cgroupRouting.isEmpty = false →
          r.manager.state = .running config.configHash := by
        intro hrouting
        have havailable := h.available hrouting
        have hsome := h.linked.configured (.inl (ready_of_available havailable))
        obtain ⟨hash, hhash⟩ := isSome_iff_exists.1 hsome
        have hrun := (h.backed havailable hrouting).running
        cases hold : r.manager.state with
        | stopped =>
          rw [hold] at hrun
          cases hrun
        | running hash' => rw [← h.linked.sameConfig hash hash' hhash hold, hconfig hash hhash]
      refine ⟨⟨⟨?_, hlinked, fun ha hrouting => ?_⟩, h.available⟩, rfl, fun _ => ⟨hstate, henabled⟩,
        nofun⟩
      · cases hrouting : r.cgroupRouting.isEmpty with
        | true =>
          have hempty := isEmpty_iff_allowedCgroups.1 hrouting
          rcases hallowed with ⟨_, hkept⟩ | ⟨_, hnone⟩
          · exact hkept.trans h.allowed
          · exact hnone.trans hempty.symm
        | false =>
          rcases hallowed with ⟨_, hkept⟩ | ⟨hother, _⟩
          · exact hkept.trans h.allowed
          · exact absurd (hsame hrouting) hother
      · refine ⟨?_, (h.backed ha hrouting).published⟩
        rw [hstate]
        rfl
    · -- the running program cannot be observed
      cases hreconcile
      refine ⟨closed_of_empty rfl m.shutdown_allowedCgroups
        (h.linked.stopped m.shutdown_isRunning), rfl, nofun, fun _ => ?_⟩
      exact ⟨rfl, m.shutdown_allowedCgroups⟩

theorem dropL7OnChange_closed {previous : Runner ext} : Closed (dropL7OnChange previous r) := by
  unfold dropL7OnChange
  split
  · exact h.congr rfl rfl rfl rfl rfl
  · exact h

/-- Under a new configuration the listener state starts afresh; there is no allow set then. -/
theorem adoptConfig_closed
    (hconfig : ∀ hash, r.listenerConfigHash = some hash → hash = config.configHash)
    (hstate : r.manager.state = .running config.configHash) :
    Closed (r.adoptConfig config) ∧
      (r.adoptConfig config).listenerConfigHash = some config.configHash := by
  unfold adoptConfig
  split
  · next hother =>
    have hnone : r.listenerConfigHash = none := by
      cases hhash : r.listenerConfigHash with
      | none => rfl
      | some hash =>
        rw [hconfig hash hhash] at hhash
        exact absurd hhash hother
    have hempty : r.cgroupRouting.isEmpty = true := by
      by_contra hne
      have hready := ready_of_available (h.available (Bool.eq_false_iff.2 hne))
      have hsome := h.linked.configured (.inl hready)
      rw [hnone] at hsome
      cases hsome
    refine ⟨closed_of_empty hempty (h.allowed.trans (isEmpty_iff_allowedCgroups.1 hempty)) ?_, rfl⟩
    refine ⟨fun _ => rfl, ?_⟩
    rintro _ _ ⟨⟩ hrunning
    rw [hstate] at hrunning
    exact ManagerState.running.inj hrunning
  · next hsame => exact ⟨h, not_not.1 hsame⟩

omit h in
/-- A snapshot starts, or the listener state is as it was. -/
theorem startListenerSnapshot_cases {m : EbpfManager} {s' : ListenerState} {start : SnapshotStart}
    (h : startListenerSnapshot m s start = (s', result)) :
    (result = .ok () → s'.ready = false ∨
        s'.evidence = s.evidence ∧ s'.appliedGeneration = s.appliedGeneration) ∧
      (∀ e, result = .error e → s' = s) := by
  unfold startListenerSnapshot at h
  dsimp only at h
  split at h
  · cases h
    exact ⟨nofun, fun _ _ => rfl⟩
  · next cutNs dropCounts _ =>
    rcases s.beginSnapshotWithLoss_cases cutNs dropCounts with hnone | ⟨⟨generation, hsome⟩, hcases⟩
    · rw [hnone] at h
      cases h
      exact ⟨nofun, fun _ _ => rfl⟩
    · generalize s.beginSnapshotWithLoss cutNs dropCounts = begun at h hsome hcases
      obtain ⟨s₁, started⟩ := begun
      dsimp only at hsome hcases
      subst hsome
      cases h
      exact ⟨fun _ => hcases, nofun⟩

theorem refreshListeners_closed (hsome : r.listenerConfigHash.isSome = true) (t : Tick) :
    Closed (r.refreshListeners t) := by
  unfold refreshListeners
  split
  · split
    · next s e hstart =>
      obtain rfl := (startListenerSnapshot_cases hstart).2 e rfl
      split
      · next hclear =>
        obtain ⟨hrouting, _, hs, hhash, _⟩ := clear_spec hclear h.allowed
        refine closed_of_empty hrouting (shutdown_allowedCgroups _) ?_
        rw [hs, hhash]
        exact h.linked.reset.stopped (shutdown_isRunning _)
      · next hclear => exact clear_closed hclear h.allowed h.linked.reset
    · next s hstart =>
      have hlinked : Linked s r.listenerConfigHash r.manager.state :=
        ⟨fun _ => hsome, h.linked.sameConfig⟩
      dsimp only
      split
      · -- the evidence stands while the next snapshot is collected
        next havailable =>
        rcases (startListenerSnapshot_cases hstart).1 rfl with hready | ⟨hevidence, happlied⟩
        · cases (unavailable_of_unready hready).symm.trans havailable
        · refine ⟨⟨h.allowed, hlinked, fun _ hrouting => ?_⟩, fun _ => havailable⟩
          exact (h.backed (h.available hrouting) hrouting).of_evidence hevidence
      · split
        · next hclear =>
          obtain ⟨hrouting, _⟩ := clear_spec hclear h.allowed
          exact closed_of_empty hrouting (shutdown_allowedCgroups _) (.unset rfl rfl)
        · next hclear => exact clear_closed hclear h.allowed hlinked
  · exact h

theorem onTick_closed (t : Tick) : Closed (r.onTick t) := by
  unfold onTick
  split
  · exact failListenerCapture_closed r
  · next config _ =>
    split
    · next hdrop => exact (dropStaleAuthorization_closed h hdrop).1
    · next r₁ hdrop =>
      obtain ⟨hclosed, hconfig⟩ := dropStaleAuthorization_closed h hdrop
      generalize hreconcile : r₁.reconcileCapture config t = reconciled
      obtain ⟨r₂, running⟩ := reconciled
      obtain ⟨hclosed₂, hhash, hruns, hstops⟩ :=
        reconcileCapture_spec hclosed (hconfig rfl) hreconcile
      dsimp only
      have hkept : (dropL7OnChange r₁ r₂).manager = r₂.manager ∧
          (dropL7OnChange r₁ r₂).cgroupRouting = r₂.cgroupRouting ∧
          (dropL7OnChange r₁ r₂).listenerConfigHash = r₂.listenerConfigHash := by
        unfold dropL7OnChange
        split
        · exact ⟨rfl, rfl, rfl⟩
        · exact ⟨rfl, rfl, rfl⟩
      split
      · next hrunning =>
        have hconfig₂ : ∀ hash, (dropL7OnChange r₁ r₂).listenerConfigHash = some hash →
            hash = config.configHash := by
          rw [hkept.2.2, hhash]
          exact hconfig rfl
        have hadopted := adoptConfig_closed (dropL7OnChange_closed hclosed₂) hconfig₂
          (hkept.1 ▸ (hruns (Bool.and_eq_true _ _ ▸ hrunning).1).1)
        refine refreshListeners_closed hadopted.1 ?_ t
        rw [hadopted.2]
        rfl
      · next hidle =>
        -- a program that runs is enabled, so here it does not run
        have hstopped : running = false := by
          cases hrunning : running with
          | false => rfl
          | true => exact absurd (by rw [hrunning, (hruns hrunning).2]; rfl) hidle
        obtain ⟨hrouting, hallowed⟩ := hstops hstopped
        refine closed_of_empty ?_ ?_ (.unset rfl rfl)
        · rw [forgetListeners, hkept.2.1]
          exact hrouting
        · rw [forgetListeners, hkept.1]
          exact hallowed

/-! ## The loop -/

theorem onSegment_closed (seg : CapturedSegment) (resolved : Option ResolvedConn) :
    Closed (r.onSegment seg resolved) := by
  unfold onSegment
  split
  · exact h
  · dsimp only
    split
    · exact h.congr rfl rfl rfl rfl rfl
    · exact h.congr rfl rfl rfl rfl rfl

theorem onLine_closed (event : CapturedEvent) (taken : Bool) : Closed (r.onLine event taken) := by
  unfold onLine
  split
  · split
    · exact h.congr rfl rfl rfl rfl rfl
    · exact h
  · exact h

theorem onFlow_closed (event : CapturedEvent) : Closed (r.onFlow event) := by
  unfold onFlow
  split
  · exact h.congr rfl rfl rfl rfl rfl
  · exact h

theorem onHealth_closed (health : ListenerDrainHealth) : Closed (r.onHealth health) := by
  unfold onHealth
  split
  · exact failListenerCapture_closed r
  · exact h

omit h

/-- The invariant of the loop: when it has returned, capture is unloaded. -/
def LoopClosed (r : Runner ext) : Prop :=
  Closed r ∨ r.halted = true ∧ r.manager.program.allowedCgroups = []

theorem step_closed (r : Runner ext) (e : Event) (h : LoopClosed r) : LoopClosed (r.step e) := by
  unfold step
  split
  · exact h
  · next hlive =>
    have h : Closed r := h.resolve_right fun hhalted => hlive hhalted.1
    cases e with
    | tick t => exact .inl (onTick_closed h t)
    | line event taken => exact .inl (onLine_closed h event taken)
    | flow event => exact .inl (onFlow_closed h event)
    | listener listener answer => exact .inl (onListener_closed h listener answer)
    | snapshot result answers => exact .inl (onSnapshot_closed h result answers)
    | resolution result answers => exact .inl (onResolution_closed h result answers)
    | health health => exact .inl (onHealth_closed h health)
    | segment seg resolved => exact .inl (onSegment_closed h seg resolved)
    | shutdown => exact .inr ⟨rfl, r.manager.shutdown_allowedCgroups⟩

/-- An allow set that is not empty, or routing in a loop that has not returned, is backed by the
evidence it was published from, and that evidence is in force. -/
def FailsClosed (r : Runner ext) : Prop :=
  (r.manager.program.allowedCgroups ≠ [] ∨ r.halted = false ∧ r.cgroupRouting.isEmpty = false) →
    Backed r ∧ listenerAuthorizationIsAvailable r.listenerState = true

theorem failsClosed_of_loopClosed (r : Runner ext) (h : LoopClosed r) : FailsClosed r := by
  intro hopen
  rcases h with h | ⟨hhalted, hnone⟩
  · have hrouting : r.cgroupRouting.isEmpty = false := by
      rcases hopen with hallowed | ⟨_, hrouting⟩
      · rw [h.allowed] at hallowed
        exact Bool.eq_false_iff.2 fun hempty => hallowed (isEmpty_iff_allowedCgroups.1 hempty)
      · exact hrouting
    have havailable := h.available hrouting
    exact ⟨h.backed havailable hrouting, havailable⟩
  · rcases hopen with hallowed | ⟨hlive, _⟩
    · exact absurd hnone hallowed
    · cases hhalted.symm.trans hlive

/-- **Failing closed.** In every run of the loop, after every iteration: while there is an allow set
or routing by cgroups, capture runs, the listener evidence is ready, and it is the evidence of the
snapshot that the allow set was computed from. So when this is lost, both are gone at the end of the
same iteration. -/
theorem allow_set_fails_closed (ext : Externals) (events : List Event) :
    Always step FailsClosed ({} : Runner ext) events := by
  have hstart : LoopClosed ({} : Runner ext) :=
    .inl (closed_of_empty rfl rfl (.unset rfl rfl))
  exact (always_of_step step_closed hstart events).mono failsClosed_of_loopClosed

/-! ### A snapshot with the same evidence -/

/-- The reading by generations: the evidence in force has the number that the allow set was computed
under. -/
def BackedByGeneration (r : Runner ext) : Prop :=
  r.manager.program.allowedCgroups ≠ [] →
    r.manager.state.isRunning = true ∧
      ∃ p, r.published = some p ∧
        r.listenerState.authorizationGeneration = some p.key.listenerGeneration

def quietObservation : ListenerObservation := ⟨1, [0], [0]⟩

theorem no_foreign_candidates (c : Nat × ForeignRuntimeIdentity)
    (hc : c ∈ (∅ : Finset (Nat × ForeignRuntimeIdentity))) :
    validateForeign ⟨c.1, c.2.cgroupId, c.2.networkNamespace⟩ 1 = .ok () :=
  absurd hc (Finset.notMem_empty c)

/-- One listener on port 80, in cgroup 5. -/
def webListener : ListenerSnapshot where
  rootCgroupId := 1
  associations := {⟨2, 80, 5⟩}
  foreignCandidates := ∅
  root_ne_zero := Nat.one_ne_zero
  associations_valid := by
    intro a ha
    rw [Finset.mem_singleton.1 ha]
    rfl
  candidates_valid := no_foreign_candidates

def webCgroups : ResolvedCgroups where
  routing :=
    { byId := [⟨⟨5, 2⟩, "web"⟩], authorizationRevision := some 1, policyGeneration := some 1 }

def quietTick (monotonicNs : Nat) : Event :=
  .tick
    { config := some ⟨true, "v1"⟩
      containerRevision := 1
      observation := .ok quietObservation
      workersIdle := true
      start := { observation := .ok quietObservation, monotonicNs := .ok monotonicNs } }

def webSnapshot (stateGeneration : Nat) : Event :=
  .snapshot ⟨stateGeneration, 1, 1, .ok webListener⟩
    { observation := .ok quietObservation, passes := [{ next := .ok quietObservation }] }

def webResolution (listenerGeneration : Nat) : Event :=
  .resolution ⟨⟨listenerGeneration, 1, 1⟩, .ok webCgroups⟩
    { containerRevision := 1
      observation := .ok quietObservation
      passes := [{ next := .ok quietObservation }] }

/-- The listeners are collected, the allow set is published, and the same listeners are collected
again. -/
def quietRun : List Event :=
  [quietTick 10, webSnapshot 2, webResolution 2, quietTick 20, webSnapshot 3]

theorem identical_snapshot_renumbers :
    ¬ Always step BackedByGeneration ({} : Runner httpOnly) quietRun := by
  intro h
  have hlast := h.last
  generalize hr : quietRun.foldl step ({} : Runner httpOnly) = r at hlast
  have hallowed : r.manager.program.allowedCgroups = [⟨5, 2⟩] := by
    rw [← hr]
    decide +kernel
  have hpublished : r.published.map (fun p => p.key.listenerGeneration) = some 2 := by
    rw [← hr]
    decide +kernel
  have hgeneration : r.listenerState.authorizationGeneration = some 3 := by
    rw [← hr]
    decide +kernel
  obtain ⟨_, p, hp, hsame⟩ := hlast (by rw [hallowed]; exact List.cons_ne_nil _ _)
  rw [hp, map_some] at hpublished
  rw [hgeneration, hpublished] at hsame
  cases hsame

end Runner

end EdgePacer.Ebpf
