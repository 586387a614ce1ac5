import Mathlib.Algebra.GroupWithZero.Nat
import Mathlib.Data.Finset.Card

/-!
# Listener ownership state

The evidence behind cgroup capture is a snapshot of the host's TCP listeners. Live listener events
are deltas without network-namespace provenance: they never enter the evidence, they only invalidate
it. A snapshot is begun at a cut time, runs in the background, and replaces the evidence when it is
applied, unless a listener changed or an event was lost in between.

Hash sets are finite sets. The two hash maps of sets never hold an empty set, so each of them is the
finite set of its (key, member) pairs, and the sum of its sets' sizes is its cardinality.
-/

namespace EdgePacer.Ebpf

/-- `wrapping_add(1).max(1)` on `u64`: the next number of a sequence in which zero is invalid. -/
def nextGeneration (generation : Nat) : Nat := max ((generation + 1) % 2 ^ 64) 1

theorem nextGeneration_of_lt {generation : Nat} (h : generation + 1 < 2 ^ 64) :
    nextGeneration generation = generation + 1 := by
  unfold nextGeneration
  omega

/-! ## Snapshots -/

structure ListenerAssociation where
  (family port cgroupId : Nat)
  deriving DecidableEq, Repr

structure NetworkNamespaceToken where
  (device inode : Nat)
  deriving DecidableEq, Repr

def NetworkNamespaceToken.new (device inode : Nat) : Except String NetworkNamespaceToken :=
  if device = 0 ∨ inode = 0 then .error "network namespace token contains zero"
  else .ok ⟨device, inode⟩

structure ForeignListenerCandidate where
  (port cgroupId : Nat)
  networkNamespace : NetworkNamespaceToken
  deriving DecidableEq, Repr

structure ForeignRuntimeIdentity where
  cgroupId : Nat
  networkNamespace : NetworkNamespaceToken
  deriving DecidableEq, Repr

def validateCandidate (port cgroupId rootCgroupId : Nat) : Except String Unit :=
  if cgroupId = 0 then .error "listener cgroup id is zero"
  else if cgroupId = rootCgroupId then .error "listener belongs to the root cgroup"
  else if port = 0 then .error "listener port is zero"
  else .ok ()

/-- The address families the probe reports: `AF_INET` and `AF_INET6`. -/
def supportedFamily (family : Nat) : Bool := family = 2 || family = 10

def validatePort (family port : Nat) : Except String Unit :=
  if port = 0 then .error "listener port is zero"
  else if !supportedFamily family then .error s!"unsupported listener address family {family}"
  else .ok ()

def validateAssociation (association : ListenerAssociation) (rootCgroupId : Nat) :
    Except String Unit := do
  validateCandidate association.port association.cgroupId rootCgroupId
  validatePort association.family association.port

/-- The checks `ListenerSnapshot::new` makes on a foreign candidate. -/
def validateForeign (candidate : ForeignListenerCandidate) (rootCgroupId : Nat) :
    Except String Unit := do
  validateCandidate candidate.port candidate.cgroupId rootCgroupId
  let _ ← NetworkNamespaceToken.new candidate.networkNamespace.device
    candidate.networkNamespace.inode
  return ()

/-- An authoritative inventory of listeners. Its fields are private in the source and only
`ListenerSnapshot::new` builds one, so every value has passed the checks made there. -/
structure ListenerSnapshot where
  rootCgroupId : Nat
  associations : Finset ListenerAssociation
  foreignCandidates : Finset (Nat × ForeignRuntimeIdentity)
  root_ne_zero : rootCgroupId ≠ 0
  associations_valid : ∀ a ∈ associations, validateAssociation a rootCgroupId = .ok ()
  candidates_valid : ∀ c ∈ foreignCandidates,
    validateForeign ⟨c.1, c.2.cgroupId, c.2.networkNamespace⟩ rootCgroupId = .ok ()

/-- The `(family, port) → cgroups` map that `apply_snapshot_with_loss` builds. -/
def ListenerSnapshot.owners (snapshot : ListenerSnapshot) : Finset ((Nat × Nat) × Nat) :=
  snapshot.associations.image fun a => ((a.family, a.port), a.cgroupId)

/-! ## The state and its operations -/

inductive DeltaOutcome where
  | invalidated
  | quarantined
  | ignoredBeforeCut
  | ignoredInvalid
  deriving DecidableEq, Repr

inductive PortEvidence where
  | notReady
  | absent
  | present (socketCgroups : Finset Nat) (foreignRuntimeCandidates : Finset ForeignRuntimeIdentity)
  deriving DecidableEq

/-- A snapshot that runs in the background. -/
structure InFlightSnapshot where
  (generation cutNs : Nat)
  listenerDropCounts : List Nat
  unclassifiedDeltaObserved : Bool
  deriving DecidableEq, Repr

/-- The mark a delta leaves on a running snapshot. -/
def InFlightSnapshot.observe (f : InFlightSnapshot) (observedAtNs : Nat) : InFlightSnapshot :=
  if f.cutNs ≤ observedAtNs then { f with unclassifiedDeltaObserved := true } else f

/-- The evidence and the snapshot in flight. -/
structure ListenerState where
  owners : Finset ((Nat × Nat) × Nat) := ∅
  foreignCandidates : Finset (Nat × ForeignRuntimeIdentity) := ∅
  associationCount : Nat := 0
  rootCgroupId : Option Nat := none
  appliedCutNs : Nat := 0
  appliedGeneration : Option Nat := none
  appliedDropCounts : Option (List Nat) := none
  authorizationRevisionCounter : Nat := 0
  ready : Bool := false
  generation : Nat := 0
  inFlight : Option InFlightSnapshot := none
  deriving DecidableEq

namespace ListenerState

variable (s : ListenerState)

def snapshotInFlight : Bool := s.inFlight.isSome

variable (generation : Nat)

def snapshotIsCurrent : Bool := s.inFlight.any fun f => f.generation = generation

/-- Generation of the last applied snapshot that remains valid authorization evidence. -/
def authorizationGeneration : Option Nat :=
  if !s.ready then none else s.appliedGeneration

/-- Revision of the material evidence. An identical replacement snapshot keeps it. -/
def authorizationRevision : Option Nat :=
  if s.ready then some s.authorizationRevisionCounter else none

/-- Generation a background resolution result may publish for. -/
def publishableAuthorizationGeneration : Option Nat :=
  if s.inFlight.isSome then none else s.authorizationGeneration

def clearOwnership : ListenerState :=
  { s with
    owners := ∅, foreignCandidates := ∅, associationCount := 0, appliedGeneration := none,
    ready := false }

def validateAuthorization (listenerDropCounts : List Nat) : ListenerState × Except String Unit :=
  if s.publishableAuthorizationGeneration ≠ some generation then
    (s, .error "listener authorization changed while resolving cgroups")
  else if s.appliedDropCounts ≠ some listenerDropCounts then
    (s.clearOwnership, .error "listener discovery lost events while resolving cgroups")
  else (s, .ok ())

/-- The first half of `begin_snapshot_with_loss`: evidence whose loss counters have moved is
dropped before the new snapshot starts. -/
def dropOnLoss (listenerDropCounts : List Nat) : ListenerState :=
  if s.ready && s.appliedDropCounts.any (· != listenerDropCounts) then s.clearOwnership else s

/-- Start a snapshot at `cutNs`; `none` when another one is running. -/
def beginSnapshotWithLoss (cutNs : Nat) (listenerDropCounts : List Nat) :
    ListenerState × Option Nat :=
  if s.inFlight.isSome || cutNs = 0 then (s, none)
  else
    let generation := nextGeneration s.generation
    ({ s.dropOnLoss listenerDropCounts with
        generation,
        inFlight := some
          { generation, cutNs, listenerDropCounts, unclassifiedDeltaObserved := false } },
      some generation)

/-- The fields a listener event must have before it counts as a change. -/
def deltaIsInvalid (association : ListenerAssociation) (observedAtNs : Nat) : Bool :=
  observedAtNs = 0 || association.port = 0 || !supportedFamily association.family ||
    association.cgroupId = 0 || s.rootCgroupId = some association.cgroupId

def recordDelta (association : ListenerAssociation) (observedAtNs : Nat) :
    ListenerState × DeltaOutcome :=
  if s.deltaIsInvalid association observedAtNs then (s, .ignoredInvalid)
  else if s.ready && observedAtNs < s.appliedCutNs then (s, .ignoredBeforeCut)
  else
    let marked := { s with inFlight := s.inFlight.map (·.observe observedAtNs) }
    if s.ready then (marked.clearOwnership, .invalidated) else (marked, .quarantined)

/-- The replacement carries exactly the evidence in force. -/
def authorizationIsUnchanged (snapshot : ListenerSnapshot) (listenerDropCounts : List Nat) : Bool :=
  s.ready && s.rootCgroupId = some snapshot.rootCgroupId && s.owners = snapshot.owners &&
    s.foreignCandidates = snapshot.foreignCandidates &&
    s.appliedDropCounts = some listenerDropCounts

/-- The last part of `apply_snapshot_with_loss`: the snapshot becomes the evidence. -/
def install (inFlight : InFlightSnapshot) (snapshot : ListenerSnapshot)
    (listenerDropCounts : List Nat) : ListenerState :=
  { s with
    owners := snapshot.owners
    foreignCandidates := snapshot.foreignCandidates
    associationCount := snapshot.owners.card
    rootCgroupId := some snapshot.rootCgroupId
    appliedCutNs := inFlight.cutNs
    appliedGeneration := some inFlight.generation
    appliedDropCounts := some listenerDropCounts
    authorizationRevisionCounter :=
      if s.authorizationIsUnchanged snapshot listenerDropCounts then s.authorizationRevisionCounter
      else nextGeneration s.authorizationRevisionCounter
    ready := true
    inFlight := none }

/-- Number of evidence records of a snapshot. -/
def evidenceCount (snapshot : ListenerSnapshot) : Nat :=
  snapshot.associations.card + snapshot.foreignCandidates.card

/-- Replace ownership with an authoritative snapshot. `ok false` means that a stale result arrived
after a reset or a newer generation and was ignored. -/
def applySnapshotWithLoss (snapshot : ListenerSnapshot)
    (listenerDropCounts : List Nat) (associationLimit : Nat) : ListenerState × Except String Bool :=
  match s.inFlight with
  | none => (s, .ok false)
  | some f =>
    if f.generation ≠ generation then (s, .ok false)
    else
      -- from here on the snapshot has been taken out of `in_flight`
      let failed := { s with inFlight := none }.clearOwnership
      if f.listenerDropCounts ≠ listenerDropCounts then
        (failed, .error (s!"listener discovery lost events during snapshot " ++
          s!"({f.listenerDropCounts} -> {listenerDropCounts})"))
      else if f.unclassifiedDeltaObserved then
        (failed, .error "unclassified listener change occurred during snapshot; retry required")
      else if associationLimit < evidenceCount snapshot then
        (failed, .error (s!"listener snapshot contains {evidenceCount snapshot} " ++
          s!"evidence records (limit {associationLimit})"))
      else (s.install f snapshot listenerDropCounts, .ok true)

/-- Fail closed when a snapshot cannot be completed. -/
def failSnapshot : ListenerState × Bool :=
  if s.snapshotIsCurrent generation then ({ s with inFlight := none }.clearOwnership, true)
  else (s, false)

/-- Invalidate the evidence and any eventual result of a snapshot started before. -/
def reset : ListenerState :=
  { s with
    generation := nextGeneration s.generation
    inFlight := none
    rootCgroupId := none
    appliedCutNs := 0
    appliedDropCounts := none }.clearOwnership

/-- Evidence found for a port. -/
def portEvidence (socketCgroups : Finset Nat)
    (foreignRuntimeCandidates : Finset ForeignRuntimeIdentity) : PortEvidence :=
  if socketCgroups = ∅ ∧ foreignRuntimeCandidates = ∅ then .absent
  else .present socketCgroups foreignRuntimeCandidates

def evidenceForPort (port : Nat) : PortEvidence :=
  if !s.ready then .notReady
  else portEvidence ((s.owners.filter fun o => o.1.2 = port).image (·.2))
    ((s.foreignCandidates.filter fun c => c.1 = port).image (·.2))

/-! ## What each operation does to the fields -/

section

variable (s : ListenerState)

@[simp] theorem clearOwnership_ready : s.clearOwnership.ready = false := rfl

@[simp] theorem clearOwnership_inFlight : s.clearOwnership.inFlight = s.inFlight := rfl

@[simp] theorem clearOwnership_generation : s.clearOwnership.generation = s.generation := rfl

@[simp] theorem reset_generation : s.reset.generation = nextGeneration s.generation := rfl

/-- Evidence is reported only in the ready state. -/
theorem authorizationGeneration_eq_some {generation : Nat} :
    s.authorizationGeneration = some generation ↔
      s.ready = true ∧ s.appliedGeneration = some generation := by
  unfold authorizationGeneration
  cases s.ready <;> simp

theorem dropOnLoss_cases (counts : List Nat) :
    s.dropOnLoss counts = s ∨ s.dropOnLoss counts = s.clearOwnership := by
  unfold dropOnLoss
  split
  · exact .inr rfl
  · exact .inl rfl

/-- A validated authorization has the loss counters of the applied snapshot and changes nothing. -/
theorem validateAuthorization_ok {generation : Nat} {counts : List Nat}
    (h : (s.validateAuthorization generation counts).2 = .ok ()) :
    (s.validateAuthorization generation counts).1 = s ∧ s.inFlight = none ∧
      s.authorizationGeneration = some generation ∧ s.appliedDropCounts = some counts := by
  unfold validateAuthorization at h ⊢
  split at h
  · cases h
  · next hgen =>
    split at h
    · cases h
    · next hcounts =>
      have hpub := not_not.1 hgen
      unfold publishableAuthorizationGeneration at hpub
      cases hf : s.inFlight with
      | some f => simp [hf] at hpub
      | none =>
        rw [if_neg hgen, if_neg hcounts]
        simp only [hf] at hpub
        exact ⟨rfl, rfl, hpub, not_not.1 hcounts⟩

end

end ListenerState

end EdgePacer.Ebpf
