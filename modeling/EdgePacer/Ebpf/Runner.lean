import EdgePacer.Ebpf.Manager
import EdgePacer.L7.Causality
import EdgePacer.L7.Conn

/-!
# The runner

The runner is one loop over a `select`: reconcile ticks, captured lines, flows and L7 segments,
listener events, the results of two background workers, the health of the listener drain, and
shutdown. One event is one iteration, and `step` is the loop's body. What the outside answers during
an iteration (the program, the discovery cache, the clocks and the file system) is a part of the
event.

`delivered` and `emitted` log what the loop hands on; the flushes on a tick are left out.
`published` is ghost state: the resolution that the routing in force comes from, with the listener
state it was published under.
-/

namespace EdgePacer.Ebpf

open L7

def maxPortCgroupAssociations : Nat := 16384
def maxListenerFencePasses : Nat := 8

/-! ## Routing captured events -/

/-- The stamps of a captured line, flow or segment that routing reads. -/
structure CapturedEvent where
  (captureGeneration policyGeneration pid scopeCgroupId : Nat)
  deriving DecidableEq, Repr

def routeCapturedEvent (pidRouting : PidRouting) (cgroupRouting : CgroupRouting)
    (pid scopeCgroupId policyGeneration : Nat) : Option String :=
  let pidService := pidRouting.serviceFor pid
  if scopeCgroupId = 0 then
    if policyGeneration = 0 ∨ pidRouting.policyGeneration ≠ some policyGeneration then none
    else pidService
  else if policyGeneration = 0 ∨ cgroupRouting.policyGeneration ≠ some policyGeneration then none
  else
    match pidService, cgroupRouting.serviceFor scopeCgroupId with
    | some pidService, some cgroupService =>
      if pidService ≠ cgroupService then none else some pidService
    | none, some service => some service
    | _, none => none

def captureGenerationIsCurrent (recordGeneration : Nat) (activeGeneration : Option Nat) : Bool :=
  recordGeneration ≠ 0 && activeGeneration = some recordGeneration

def authorizationGenerationChanged (previousCapture currentCapture previousPidPolicy
    currentPidPolicy : Option Nat) : Bool :=
  previousCapture ≠ currentCapture || previousPidPolicy ≠ currentPidPolicy

/-! ## State -/

structure PortHint where
  protocol : String
  client : Bool
  deriving DecidableEq, Repr

/-- What `/proc` says about a descriptor. -/
structure ResolvedConn where
  hint : Option PortHint
  (peer localEnd : String)
  deriving DecidableEq, Repr

/-- The trackers and the resolved connections, both by connection identity. -/
structure L7Tables (ext : Externals) where
  conns : ConnRegistry ext := ConnRegistry.new
  portHints : AList (fun _ : CapturedConnectionIdentity => Option ResolvedConn) := ∅

/-- `port_hints.entry(…).or_insert_with(…)`: the first answer for an identity stays. -/
def L7Tables.resolve {ext : Externals} (tables : L7Tables ext)
    (identity : CapturedConnectionIdentity) (resolved : Option ResolvedConn) :
    L7Tables ext × Option ResolvedConn :=
  match tables.portHints.lookup identity with
  | some known => (tables, known)
  | none => ({ tables with portHints := tables.portHints.insert identity resolved }, resolved)

structure CgroupResolutionKey where
  (listenerGeneration authorizationRevision captureGeneration : Nat)
  deriving DecidableEq, Repr

/-- An event that was routed to a service. -/
structure Delivery where
  event : CapturedEvent
  service : String
  deriving DecidableEq, Repr

/-- A record pushed for a service, with the segment that completed it. -/
structure EmittedRecord where
  service : String
  segment : CapturedSegment
  record : L7Record
  kind : Option SpanKind
  socketPeer : Option String
  conn : Option ConnEndpoints
  deriving DecidableEq

/-- The resolution a routing was published from, and the listener state at that time. -/
structure PublishedRouting where
  key : CgroupResolutionKey
  state : ListenerState

/-- The state of the capture loop. -/
structure Runner (ext : Externals) where
  manager : EbpfManager := {}
  pidRouting : PidRouting := {}
  cgroupRouting : CgroupRouting := {}
  listenerState : ListenerState := {}
  listenerConfigHash : Option String := none
  activeListenerGeneration : Option Nat := none
  nextCgroupPolicyGeneration : Nat := 0
  pendingCgroupResolution : Option CgroupResolutionKey := none
  l7 : L7Tables ext := {}
  /-- The loop has returned, or a call in it never will. -/
  halted : Bool := false
  delivered : List Delivery := []
  emitted : List EmittedRecord := []
  published : Option PublishedRouting := none

/-! ## Draining listener events -/

structure CapturedListener where
  association : ListenerAssociation
  observedAtNs : Nat
  deriving DecidableEq, Repr

/-- Take in a listener event; whether it made the evidence unready. -/
def recordListenerDelta (s : ListenerState) (listener : CapturedListener) : ListenerState × Bool :=
  let s' := (s.recordDelta listener.association listener.observedAtNs).1
  (s', s.ready && !s'.ready)

/-- One pass of the drain: the call for a fence, the events that come before its acknowledgment or
are queued then, the acknowledgment, and the next observation. -/
structure FencePass where
  fence : Except String Unit := .ok ()
  listeners : List CapturedListener := []
  acknowledged : Except String Unit := .ok ()
  next : Except String ListenerObservation

inductive StableListenerFenceError where
  | fatal (error : String)
  | captureRestarted (before after : Nat)
  deriving DecidableEq, Repr

/-- Take in listener events up to the first that makes the evidence unready. -/
def recordListenerDeltas (s : ListenerState) : List CapturedListener → ListenerState × Bool
  | [] => (s, false)
  | listener :: rest =>
    match recordListenerDelta s listener with
    | (s, true) => (s, true)
    | (s, false) => recordListenerDeltas s rest

def drainListenerUntilFence (pass : FencePass) (s : ListenerState) :
    ListenerState × Except String Unit :=
  match recordListenerDeltas s pass.listeners with
  | (s, true) =>
    (s, .error "listener ownership invalidated while draining the publication fence")
  | (s, false) => (s, pass.acknowledged)

def listenerPublicationCountsAreStable (sampled observed : List Nat) : Except String Bool :=
  if sampled.length ≠ observed.length then
    .error (s!"listener publication CPU count changed from {sampled.length} " ++
      s!"to {observed.length}")
  else
    match (sampled.zip observed).zipIdx.find? fun p => p.1.2 < p.1.1 with
    | some ((before, after), cpu) =>
      .error s!"listener publication count regressed on CPU {cpu} from {before} to {after}"
    | none => .ok (sampled = observed)

/-- Drain until the published counts stand still, for at most `fuel` passes. A pass that is not
given is a fence that is never acknowledged. -/
def drainListenerUntilPublicationStable (m : EbpfManager) (captureGeneration : Nat) :
    Nat → List FencePass → ListenerObservation → ListenerState →
      ListenerState × Except StableListenerFenceError ListenerObservation
  | 0, _, _, s =>
    (s, .error (.fatal (s!"listener publications did not quiesce after " ++
      s!"{maxListenerFencePasses} drain fences")))
  | _ + 1, [], _, s => (s, .error (.fatal "listener drain fence timed out after 5s"))
  | fuel + 1, pass :: passes, observation, s =>
    match m.listenerFence pass.fence with
    | .error e => (s, .error (.fatal e))
    | .ok () =>
      match drainListenerUntilFence pass s with
      | (s, .error e) => (s, .error (.fatal e))
      | (s, .ok ()) =>
        match m.listenerObservation pass.next with
        | .error e => (s, .error (.fatal e))
        | .ok next =>
          if next.generation ≠ captureGeneration then
            (s, .error (.captureRestarted captureGeneration next.generation))
          else
            match listenerPublicationCountsAreStable observation.publishedCounts
              next.publishedCounts with
            | .error e => (s, .error (.fatal e))
            | .ok true => (s, .ok next)
            | .ok false =>
              drainListenerUntilPublicationStable m captureGeneration fuel passes next s

namespace Runner

variable {ext : Externals}

/-! ## Failing closed -/

variable (r : Runner ext)

/-- `fail_listener_capture`; a tick without a section and a stopped drain do the same. -/
def failListenerCapture : Runner ext :=
  { r with
    manager := r.manager.shutdown
    pidRouting := {}
    cgroupRouting := {}
    listenerState := r.listenerState.reset
    listenerConfigHash := none
    activeListenerGeneration := none
    l7 := {} }

variable (answer : Except String Unit)

def clearCgroupAuthorization : Runner ext × Except String Unit :=
  if r.cgroupRouting.isEmpty then (r, .ok ())
  else
    let (manager, result) := r.manager.setAllowedCgroups {} answer
    ({ r with manager, cgroupRouting := {} }, result)

def clearCgroupAuthorizationAndL7 : Runner ext × Except String Unit :=
  let (r, result) := r.clearCgroupAuthorization answer
  ({ r with l7 := {} }, result)

/-- Clear the allow set, and unload capture when that fails. -/
def clearOrFail : Runner ext :=
  match r.clearCgroupAuthorizationAndL7 answer with
  | (r, .error _) => r.failListenerCapture
  | (r, .ok ()) => r

def listenerAuthorizationIsAvailable (s : ListenerState) : Bool := s.authorizationGeneration.isSome

def clearUnreadyCgroupAuthorization : Runner ext :=
  if listenerAuthorizationIsAvailable r.listenerState || r.cgroupRouting.isEmpty then r
  else r.clearOrFail answer

/-! ## Reconcile ticks -/

/-- What `start_listener_snapshot` meets. -/
structure SnapshotStart where
  reserved : Except String Unit := .ok ()
  containers : Except String Unit := .ok ()
  observation : Except String ListenerObservation
  monotonicNs : Except String Nat

/-- What a tick finds. -/
structure Tick where
  /-- No section counts as disabled. -/
  config : Option EbpfSectionConfig
  containerRevision : Nat
  resolved : ResolvedPids := {}
  observation : Except String ListenerObservation
  workersIdle : Bool
  start : SnapshotStart
  answers : ProgramAnswers := {}

def startListenerSnapshot (m : EbpfManager) (s : ListenerState) (start : SnapshotStart) :
    ListenerState × Except String Unit :=
  let prepared : Except String (Nat × List Nat) := do
    start.reserved
    start.containers
    let observation ← m.listenerObservation start.observation
    let cutNs ← start.monotonicNs
    return (cutNs, observation.dropCounts)
  match prepared with
  | .error e => (s, .error e)
  | .ok (cutNs, dropCounts) =>
    match s.beginSnapshotWithLoss cutNs dropCounts with
    | (s, none) => (s, .error "listener snapshot already running")
    | (s, some _) => (s, .ok ())

/-- The first part of a tick: drop an allow set built from an older identity. `false` when the tick
ends here because that failed. -/
def dropStaleAuthorization (config : EbpfSectionConfig) (t : Tick) : Runner ext × Bool :=
  if !config.enabled ||
      r.cgroupRouting.authorizationRevision.any (fun revision => revision ≠ t.containerRevision) ||
      r.listenerConfigHash.any (fun hash => hash ≠ config.configHash) then
    match r.clearCgroupAuthorizationAndL7 t.answers.setAllowedCgroups with
    | (r, .error _) =>
      ({ r with
          manager := r.manager.shutdown
          pidRouting := {}
          listenerState := r.listenerState.reset
          listenerConfigHash := none
          activeListenerGeneration := none },
        false)
    | (r, .ok ()) =>
      ({ r with listenerState := r.listenerState.reset, listenerConfigHash := none }, true)
  else (r, true)

/-- The second part: drive the program and learn its generation. Returns whether it runs. -/
def reconcileCapture (config : EbpfSectionConfig) (t : Tick) : Runner ext × Bool :=
  let (manager, outcome) := r.manager.reconcile config t.resolved t.answers
  let r := { r with manager, pidRouting := outcome.routing }
  if outcome.running then
    match manager.listenerObservation t.observation with
    | .ok observation => ({ r with activeListenerGeneration := some observation.generation }, true)
    | .error _ =>
      ({ r with
          manager := manager.shutdown
          pidRouting := {}
          cgroupRouting := {}
          activeListenerGeneration := none },
        false)
  else ({ r with cgroupRouting := {}, activeListenerGeneration := none }, false)

/-- Trackers and resolved connections do not outlive the generations they were keyed by. -/
def dropL7OnChange (previous r : Runner ext) : Runner ext :=
  if authorizationGenerationChanged previous.activeListenerGeneration r.activeListenerGeneration
      previous.pidRouting.policyGeneration r.pidRouting.policyGeneration then
    { r with l7 := {} }
  else r

/-- A section that is new to the listener state starts it afresh. -/
def adoptConfig (config : EbpfSectionConfig) : Runner ext :=
  if r.listenerConfigHash ≠ some config.configHash then
    { r with
      listenerState := r.listenerState.reset
      listenerConfigHash := some config.configHash }
  else r

/-- The third part, while capture runs: start the next listener snapshot. -/
def refreshListeners (t : Tick) : Runner ext :=
  if !r.listenerState.snapshotInFlight && t.workersIdle && r.pendingCgroupResolution.isNone then
    match startListenerSnapshot r.manager r.listenerState t.start with
    | (s, .error _) =>
      match { r with listenerState := s.reset }.clearCgroupAuthorizationAndL7
        t.answers.setAllowedCgroups with
      | (r, .error _) =>
        { r with manager := r.manager.shutdown, pidRouting := {}, activeListenerGeneration := none }
      | (r, .ok ()) => r
    | (s, .ok ()) =>
      let r := { r with listenerState := s }
      if listenerAuthorizationIsAvailable s then r
      else
        match r.clearCgroupAuthorizationAndL7 t.answers.setAllowedCgroups with
        | (r, .error _) =>
          { r with
            manager := r.manager.shutdown
            pidRouting := {}
            listenerState := r.listenerState.reset
            listenerConfigHash := none
            activeListenerGeneration := none }
        | (r, .ok ()) => r
  else r

/-- The third part otherwise. -/
def forgetListeners : Runner ext :=
  { r with
    listenerState := r.listenerState.reset
    listenerConfigHash := none
    activeListenerGeneration := none }

def onTick (t : Tick) : Runner ext :=
  match t.config with
  | none => r.failListenerCapture
  | some config =>
    match r.dropStaleAuthorization config t with
    | (r, false) => r
    | (r, true) =>
      let (reconciled, running) := r.reconcileCapture config t
      let reconciled := dropL7OnChange r reconciled
      if running && config.enabled then (reconciled.adoptConfig config).refreshListeners t
      else reconciled.forgetListeners

/-! ## Snapshot results -/

structure ListenerSnapshotResult where
  (stateGeneration authorizationRevision captureGeneration : Nat)
  result : Except String ListenerSnapshot

/-- What the loop meets while it takes in a snapshot: two checks of the container revision, the
listener drain, the container snapshot and the worker for the resolution. -/
structure SnapshotAnswers where
  verified : Except String Unit := .ok ()
  observation : Except String ListenerObservation
  passes : List FencePass
  verifiedAgain : Except String Unit := .ok ()
  containers : Except String Unit := .ok ()
  reserved : Except String Unit := .ok ()
  setAllowedCgroups : Except String Unit := .ok ()

/-- Give up the running snapshot, and the allow set with it. -/
def abandonSnapshot (generation : Nat) (answer : Except String Unit) : Runner ext :=
  { r with listenerState := (r.listenerState.failSnapshot generation).1
    }.clearUnreadyCgroupAuthorization answer

/-- After a restart of capture the configuration is taken up again too. -/
def abandonRestarted (generation : Nat) (answer : Except String Unit) : Runner ext :=
  { r with listenerConfigHash := none }.abandonSnapshot generation answer

variable (key : CgroupResolutionKey)

/-- Resolve the applied snapshot off the loop. -/
def startCgroupResolution (reserved : Except String Unit) : Runner ext :=
  match reserved with
  | .error _ => r.failListenerCapture
  | .ok () => { r with pendingCgroupResolution := some key }

variable (res : ListenerSnapshotResult)

/-- The snapshot replaces the evidence; an allow set built from other evidence goes first. -/
def applySnapshot (snapshot : ListenerSnapshot)
    (dropCounts : List Nat) (a : SnapshotAnswers) : Runner ext :=
  let key : CgroupResolutionKey :=
    { listenerGeneration := res.stateGeneration
      authorizationRevision := res.authorizationRevision
      captureGeneration := res.captureGeneration }
  match r.listenerState.applySnapshotWithLoss res.stateGeneration snapshot dropCounts
    maxPortCgroupAssociations with
  | (s, .ok true) =>
    let applied := { r with listenerState := s }
    if r.listenerState.authorizationRevision ≠ s.authorizationRevision then
      match applied.clearCgroupAuthorizationAndL7 a.setAllowedCgroups with
      | (r, .error _) => r.failListenerCapture
      | (r, .ok ()) => r.startCgroupResolution key a.reserved
    else applied.startCgroupResolution key a.reserved
  | (s, .ok false) => { r with listenerState := s }
  | (s, .error _) => { r with listenerState := s }.clearUnreadyCgroupAuthorization
      a.setAllowedCgroups

/-- The drain is done: check the container revision once more, then apply. -/
def commitSnapshot (snapshot : ListenerSnapshot)
    (dropCounts : List Nat) (a : SnapshotAnswers) : Runner ext :=
  match (do a.verifiedAgain; a.containers : Except String Unit) with
  | .error _ => r.abandonSnapshot res.stateGeneration a.setAllowedCgroups
  | .ok () => r.applySnapshot res snapshot dropCounts a

def onSnapshot (a : SnapshotAnswers) : Runner ext :=
  if !r.listenerState.snapshotIsCurrent res.stateGeneration then r
  else
    match res.result with
    | .error _ => r.abandonSnapshot res.stateGeneration a.setAllowedCgroups
    | .ok snapshot =>
      match a.verified with
      | .error _ => r.abandonSnapshot res.stateGeneration a.setAllowedCgroups
      | .ok () =>
        match r.manager.listenerObservation a.observation with
        | .error _ => r.failListenerCapture
        | .ok observation =>
          if observation.generation ≠ res.captureGeneration then
            r.abandonRestarted res.stateGeneration a.setAllowedCgroups
          else
            match drainListenerUntilPublicationStable r.manager res.captureGeneration
              maxListenerFencePasses a.passes observation r.listenerState with
            | (s, .error (.fatal _)) => { r with listenerState := s }.failListenerCapture
            | (s, .error (.captureRestarted _ _)) =>
              { r with listenerState := s }.abandonRestarted res.stateGeneration a.setAllowedCgroups
            | (s, .ok observation) =>
              { r with listenerState := s }.commitSnapshot res snapshot observation.dropCounts a

/-! ## Resolution results -/

/-- What the resolver gives: a table without entries has no generation. -/
structure ResolvedCgroups where
  routing : CgroupRouting := {}
  generation_of_empty : routing.isEmpty = true → routing.policyGeneration = none := by decide

structure CgroupResolutionResult where
  key : CgroupResolutionKey
  result : Except String ResolvedCgroups

/-- What the loop meets while it takes in a resolution. -/
structure ResolutionAnswers where
  containerRevision : Nat
  observation : Except String ListenerObservation
  passes : List FencePass
  verified : Except String Unit := .ok ()
  revalidatedBefore : Except String Unit := .ok ()
  revalidatedAfter : Except String Unit := .ok ()
  setAllowedCgroups : Except String Unit := .ok ()

inductive CgroupPublicationRecovery where
  | clearCgroupsKeepPid (error : String)
  | unloadCapture (error : String)
  deriving DecidableEq, Repr

/-- The allow set is flipped between two checks of the identities it was built from. -/
def publishRevalidatedCgroups (m : EbpfManager) (routing : CgroupRouting) (a : ResolutionAnswers) :
    EbpfManager × Except CgroupPublicationRecovery Unit :=
  match a.revalidatedBefore with
  | .error e => (m, .error (.clearCgroupsKeepPid e))
  | .ok () =>
    match m.setAllowedCgroups routing a.setAllowedCgroups with
    | (m, .error e) => (m, .error (.unloadCapture e))
    | (m, .ok ()) =>
      match a.revalidatedAfter with
      | .error e => (m, .error (.unloadCapture e))
      | .ok () => (m, .ok ())

def cgroupResolutionIsCurrent (s : ListenerState)
    (activeCaptureGeneration : Option Nat) (currentAuthorizationRevision : Nat) : Bool :=
  key.authorizationRevision = currentAuthorizationRevision &&
    activeCaptureGeneration = some key.captureGeneration &&
    s.publishableAuthorizationGeneration = some key.listenerGeneration

def cgroupPublicationIsRequired (active desired : CgroupRouting) : Bool :=
  !desired.sameAuthorizationAs active

def nextCgroupGeneration : Runner ext × Nat :=
  ({ r with nextCgroupPolicyGeneration := nextGeneration r.nextCgroupPolicyGeneration },
    nextGeneration r.nextCgroupPolicyGeneration)

variable (desired : CgroupRouting)

/-- The generation for a table that is not empty: the active one if it authorizes the same. -/
def cgroupGenerationFor : Runner ext × Nat :=
  if cgroupPublicationIsRequired r.cgroupRouting desired then r.nextCgroupGeneration
  else
    match r.cgroupRouting.policyGeneration with
    | some generation => (r, generation)
    | none => r.nextCgroupGeneration

theorem byId_of_not_required {active desired : CgroupRouting}
    (h : cgroupPublicationIsRequired active desired = false) : desired.byId = active.byId := by
  simp only [cgroupPublicationIsRequired, CgroupRouting.sameAuthorizationAs, Bool.not_eq_false',
    Bool.and_eq_true, decide_eq_true_eq] at h
  exact h.1

theorem cgroupGenerationFor_fields :
    ∃ n, (r.cgroupGenerationFor desired).1 = { r with nextCgroupPolicyGeneration := n } := by
  unfold cgroupGenerationFor
  split
  · exact ⟨_, rfl⟩
  · split
    · exact ⟨r.nextCgroupPolicyGeneration, rfl⟩
    · exact ⟨_, rfl⟩

def assignCgroupGeneration : Runner ext × Except String CgroupRouting :=
  if desired.isEmpty then (r, .ok desired)
  else
    let (r, generation) := r.cgroupGenerationFor desired
    (r, desired.assignPolicyGeneration generation)

/-- The table becomes the routing in force. -/
def adoptRouting : Runner ext :=
  { r with
    l7 :=
      if r.cgroupRouting.policyGeneration ≠ desired.policyGeneration then {} else r.l7
    cgroupRouting := desired
    published := some ⟨key, r.listenerState⟩ }

variable (resolved : CgroupRouting)

/-- The last part: number the table and publish it, unless the kernel has it already. -/
def publishCgroups (a : ResolutionAnswers) : Runner ext :=
  match r.assignCgroupGeneration resolved with
  | (r, .error _) => r.failListenerCapture
  | (r, .ok desired) =>
    if cgroupPublicationIsRequired r.cgroupRouting resolved then
      match publishRevalidatedCgroups r.manager desired a with
      | (manager, .ok ()) => { r with manager }.adoptRouting key desired
      | (manager, .error (.clearCgroupsKeepPid _)) =>
        { r with manager, listenerState := r.listenerState.reset }.clearOrFail a.setAllowedCgroups
      | (manager, .error (.unloadCapture _)) => { r with manager }.failListenerCapture
    else r.adoptRouting key desired

/-- Start over with the listener evidence. -/
def restartListeners : Runner ext :=
  { r with listenerState := r.listenerState.reset }.clearUnreadyCgroupAuthorization answer

/-- The drain is done: the evidence must still be that of the resolution. -/
def commitResolution (dropCounts : List Nat) (a : ResolutionAnswers) : Runner ext :=
  match r.listenerState.validateAuthorization key.listenerGeneration dropCounts with
  | (s, .error _) => { r with listenerState := s }.clearUnreadyCgroupAuthorization
      a.setAllowedCgroups
  | (s, .ok ()) =>
    let r := { r with listenerState := s }
    match a.verified with
    | .error _ => r.restartListeners a.setAllowedCgroups
    | .ok () => r.publishCgroups key resolved a

/-- A current resolution: drain the listener events that came before it. -/
def takeResolution (a : ResolutionAnswers) : Runner ext :=
  match r.manager.listenerObservation a.observation with
  | .error _ => r.failListenerCapture
  | .ok observation =>
    if observation.generation ≠ key.captureGeneration then r.restartListeners a.setAllowedCgroups
    else
      match drainListenerUntilPublicationStable r.manager key.captureGeneration
        maxListenerFencePasses a.passes observation r.listenerState with
      | (s, .error (.fatal _)) => { r with listenerState := s }.failListenerCapture
      | (s, .error (.captureRestarted _ _)) =>
        { r with listenerState := s }.restartListeners a.setAllowedCgroups
      | (s, .ok observation) =>
        { r with listenerState := s }.commitResolution key resolved observation.dropCounts a

def onResolution (res : CgroupResolutionResult) (a : ResolutionAnswers) : Runner ext :=
  let r := if r.pendingCgroupResolution = some res.key then
    { r with pendingCgroupResolution := none } else r
  if res.key.authorizationRevision ≠ a.containerRevision then
    r.restartListeners a.setAllowedCgroups
  else if !cgroupResolutionIsCurrent res.key r.listenerState r.activeListenerGeneration
      a.containerRevision then r
  else
    match res.result with
    | .error _ => { r with listenerState := r.listenerState.reset }.clearOrFail a.setAllowedCgroups
    | .ok resolved => r.takeResolution res.key resolved.routing a

/-! ## Captured data -/

variable (event : CapturedEvent)

/-- Where an event goes: nowhere if its program or its policy is no longer in force. -/
def route : Option String :=
  if captureGenerationIsCurrent event.captureGeneration r.activeListenerGeneration then
    routeCapturedEvent r.pidRouting r.cgroupRouting event.pid event.scopeCgroupId
      event.policyGeneration
  else none

/-- A line is handed on if the service's pipeline takes raw lines and has room. -/
def onLine (taken : Bool) : Runner ext :=
  match r.route event with
  | some service =>
    if taken then { r with delivered := r.delivered ++ [⟨event, service⟩] } else r
  | none => r

def onFlow : Runner ext :=
  match r.route event with
  | some service => { r with delivered := r.delivered ++ [⟨event, service⟩] }
  | none => r

variable (seg : CapturedSegment)

def segmentEvent : CapturedEvent where
  captureGeneration := seg.captureGeneration
  policyGeneration := seg.policyGeneration
  pid := seg.pid
  scopeCgroupId := seg.scopeCgroupId

/-- The hint's verdict first, then the role the bytes show. -/
def spanKindVerdict (hintClient : Option Bool) (byteRole : Option PeerRole) : Option SpanKind :=
  match hintClient, byteRole with
  | some true, _ => some .client
  | some false, _ => some .server
  | none, some .client => some .client
  | none, some .server => some .server
  | none, none => none

/-- What the registry is given for a segment of a resolved connection. -/
def segmentInput (known : Option ResolvedConn) : Input where
  segment := seg
  hint := (known.bind (·.hint)).map (·.protocol)
  flip := ((known.bind (·.hint)).map (·.client)).getD false

/-- The records a segment completes, with what was resolved for its connection. -/
def emitRecords (service : String) (seg : CapturedSegment) (known : Option ResolvedConn)
    (conns : ConnRegistry ext) (records : List L7Record) : List EmittedRecord :=
  records.map fun record =>
    { service, segment := seg, record
      kind := spanKindVerdict ((known.bind (·.hint)).map (·.client))
        ((conns.entries.lookup seg.connectionIdentity).bind (·.byteRole))
      socketPeer := known.map (·.peer)
      conn := known.map fun k => ⟨k.localEnd, k.peer⟩ }

/-- Feed a segment to the tracker of its connection; `resolved` is what `/proc` says now. -/
def onSegment (resolved : Option ResolvedConn) : Runner ext :=
  match r.route (segmentEvent seg) with
  | none => r
  | some service =>
    let (l7, known) := r.l7.resolve seg.connectionIdentity resolved
    match l7.conns.onSegmentHinted (segmentInput seg known) with
    | none => { r with halted := true }
    | some (conns, records) =>
      { r with
        l7 := { l7 with conns }
        delivered := r.delivered ++ [⟨segmentEvent seg, service⟩]
        emitted := r.emitted ++ emitRecords service seg known conns records }

/-! ## The loop -/

structure ListenerDrainHealth where
  generation : Nat
  running : Bool
  deriving DecidableEq, Repr

def listenerHealthFailed (health : ListenerDrainHealth) (activeGeneration : Option Nat) : Bool :=
  !health.running && activeGeneration = some health.generation

def onHealth (health : ListenerDrainHealth) : Runner ext :=
  if listenerHealthFailed health r.activeListenerGeneration && r.listenerConfigHash.isSome then
    r.failListenerCapture
  else r

def onListener (listener : CapturedListener) (answer : Except String Unit) : Runner ext :=
  { r with listenerState := (recordListenerDelta r.listenerState listener).1
    }.clearUnreadyCgroupAuthorization answer

/-- What the loop selects on. -/
inductive Event where
  | tick (t : Tick)
  | line (event : CapturedEvent) (taken : Bool)
  | flow (event : CapturedEvent)
  | listener (listener : CapturedListener) (setAllowedCgroups : Except String Unit)
  | snapshot (result : ListenerSnapshotResult) (answers : SnapshotAnswers)
  | resolution (result : CgroupResolutionResult) (answers : ResolutionAnswers)
  | health (health : ListenerDrainHealth)
  | segment (seg : CapturedSegment) (resolved : Option ResolvedConn)
  | shutdown

/-- The body of the loop for one event. -/
def handle : Event → Runner ext
  | .tick t => r.onTick t
  | .line event taken => r.onLine event taken
  | .flow event => r.onFlow event
  | .listener listener answer => r.onListener listener answer
  | .snapshot result answers => r.onSnapshot result answers
  | .resolution result answers => r.onResolution result answers
  | .health health => r.onHealth health
  | .segment seg resolved => r.onSegment seg resolved
  | .shutdown => { r with manager := r.manager.shutdown, halted := true }

def step (e : Event) : Runner ext := if r.halted then r else r.handle e

end Runner

end EdgePacer.Ebpf
