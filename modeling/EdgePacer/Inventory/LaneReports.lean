import EdgePacer.Inventory.InventorySync

/-!
# Reporting lane by lane

A cycle sends the report of its scan in up to four POSTs: explicit services, plain containers,
files, journald units. Commit and rollback are for the cycle as a whole, a resync answer at any lane
makes the next cycle a full report, and a lane with nothing to tell is not sent. The receiver
applies each POST it accepts to the lane of that POST.
-/

namespace EdgePacer.Inventory

open Lib
open Std (ExtTreeMap)

/-! ## Entries -/

structure ServiceCensusEntry where
  serviceName : String
  serviceNameExplicit : Bool
  (stableInstanceId containerName image state : String)
  «namespace» : String
  (deployment format : String)
  (labels identifiers : ExtTreeMap String String)

structure InstanceEntry where
  (stableInstanceId state logPath : String)
  identifiers : ExtTreeMap String String

structure ContainerCensusEntry where
  (identifier stableInstanceId containerName image state : String)
  «namespace» : String
  (deployment serviceName format : String)
  (labels identifiers : ExtTreeMap String String)
  activeInstances : List InstanceEntry

structure FileCensusEntry where
  (identifier name path : String)
  size : Nat
  (format sourceFormat permissions modified : String)
  lineCount : Nat
  state : String
  deriving DecidableEq

structure UnitEntry where
  (identifier unitName activeState subState loadState : String)
  deriving DecidableEq

def serviceCensusEntry (c : Container) : ServiceCensusEntry where
  serviceName := c.serviceName
  serviceNameExplicit := true
  stableInstanceId := c.stableInstanceId
  containerName := c.name
  image := c.image
  state := c.state
  «namespace» := c.namespace
  deployment := c.deployment
  format := c.logFormat
  labels := c.labels
  identifiers := c.identifierSet

/-- The running replicas of the workload an entry stands for. -/
def workloadInstances (entry : Container) (discovered : List Container) : List Container :=
  (discovered.filter fun c =>
    !c.explicitService && isRunning c && c.stableId == entry.stableId).insertionSort
      fun a b => (compare a.stableInstanceId b.stableInstanceId).isLE

def containerCensusEntry (discovered : List Container) (c : Container) : ContainerCensusEntry where
  identifier := c.stableId
  stableInstanceId := c.stableInstanceId
  containerName := c.name
  image := c.image
  state := c.state
  «namespace» := c.namespace
  deployment := c.deployment
  serviceName := c.serviceName
  format := c.logFormat
  labels := c.labels
  identifiers := c.identifierSet
  activeInstances := (workloadInstances c discovered).map fun i =>
    ⟨i.stableInstanceId, i.state, i.logPath, i.identifierSet⟩

def FileSourceFormat.hashPart : FileSourceFormat → String
  | .plain => "file"
  | .dockerJson => "docker-json"
  | .kubernetesCri => "k8s-cri"

/-- The part of a path behind its last slash. -/
def fileName (path : String) : String := String.ofList ((path.toList.splitOn '/').getLastD [])

def fileCensusEntry (f : LogFile) : FileCensusEntry where
  identifier := f.identifier
  name := fileName f.path
  path := f.path
  size := f.size
  format := f.format
  sourceFormat := f.sourceFormat.hashPart
  permissions := f.permissions
  modified := f.modified
  lineCount := f.lineCount
  state := "active"

def unitEntry (s : SystemdService) : UnitEntry where
  identifier := s.identifier
  unitName := s.name
  activeState := s.activeState
  subState := s.subState
  loadState := s.loadState

/-! ## Payloads and lanes -/

structure LanePayload (ρ : Type) where
  items : List ρ
  stopped : List String
  fullReport : Bool

/-- Rows by identifier. -/
abbrev Lane (ρ : Type) := ExtTreeMap String (List ρ)

section

variable {ρ : Type} (identifier : ρ → String)

def LanePayload.isEmpty (p : LanePayload ρ) : Bool := p.items.isEmpty && p.stopped.isEmpty

/-- The rows listed under an identifier replace those held under it; stopped ones are removed. -/
def LanePayload.ops (p : LanePayload ρ) : List (String × Option (List ρ)) :=
  (groupByKey identifier p.items).toList.map (fun e => (e.1, some e.2)) ++
    p.stopped.map fun id => (id, none)

/-- A full payload replaces the lane, any other puts and removes. -/
def Lane.accept (lane : Lane ρ) (p : LanePayload ρ) : Lane ρ :=
  applyOps (if p.fullReport then ∅ else lane) (p.ops identifier)

/-- A lane after a payload, at one identifier. -/
theorem getElem?_accept (lane : Lane ρ) (p : LanePayload ρ) (k : String) :
    (lane.accept identifier p)[k]? =
      if k ∈ p.stopped then none
      else if (p.items.filter fun row => identifier row = k) = [] then
        if p.fullReport then none else lane[k]?
      else some (p.items.filter fun row => identifier row = k) := by
  have hstops : lastFor k (p.stopped.map fun id => (id, (none : Option (List ρ)))) =
      if k ∈ p.stopped then some none else none := by
    induction p.stopped with
    | nil => rfl
    | cons id ids ih =>
      rw [List.map_cons, lastFor, ih]
      by_cases hid : id = k
      · by_cases hk : k ∈ ids
        · simp [hk]
        · simp [hid, hk]
      · simp [hid, Ne.symm hid]
  rw [Lane.accept, getElem?_applyOps, LanePayload.ops, lastFor_append, hstops,
    lastFor_map_snd k some, lastFor_toList, getElem?_groupByKey]
  by_cases hk : k ∈ p.stopped
  · simp [hk]
  · by_cases hrows : (p.items.filter fun row => identifier row = k) = []
    · cases p.fullReport <;> simp [hk, hrows]
    · simp [hk, hrows]

end

/-! ## The cycle -/

/-- The four lanes of a receiver. -/
structure LaneReceiver where
  services : Lane ServiceCensusEntry
  containers : Lane ContainerCensusEntry
  files : Lane FileCensusEntry
  units : Lane UnitEntry

def InventoryReport.isEmpty (report : InventoryReport) : Bool :=
  report.newContainers.isEmpty && report.changedContainers.isEmpty &&
    report.stoppedContainers.isEmpty && report.newFiles.isEmpty && report.stoppedFiles.isEmpty &&
    report.newServices.isEmpty && report.stoppedServices.isEmpty

/-- New items and stops of a lane whose items are tracked by their identifier. -/
def itemPayload {α ρ : Type} (row : α → ρ) (new : List α) (stopped : List StoppedItem)
    (fullReport : Bool) : LanePayload ρ where
  items := new.map row
  stopped := stopped.map StoppedItem.identifier
  fullReport := fullReport

namespace InventoryReport

variable (report : InventoryReport)

/-- The containers of one kind, and the stops of the groups of that kind. -/
def groupPayload {ρ : Type} (service : Bool) (row : Container → ρ) (fullReport : Bool) :
    LanePayload ρ where
  items := ((report.newContainers ++ report.changedContainers).filter fun c =>
    c.explicitService == service).map row
  stopped := (report.stoppedContainers.filter fun s => s.explicitService == service).map
    StoppedItem.identifier
  fullReport := fullReport

/-- Explicit services. -/
def servicePayload (fullReport : Bool) : LanePayload ServiceCensusEntry :=
  report.groupPayload true serviceCensusEntry fullReport

/-- All other containers. -/
def containerPayload (fullReport : Bool) (discovered : List Container) :
    LanePayload ContainerCensusEntry :=
  report.groupPayload false (containerCensusEntry discovered) fullReport

def filePayload (fullReport : Bool) : LanePayload FileCensusEntry :=
  itemPayload fileCensusEntry report.newFiles report.stoppedFiles fullReport

/-- The payload of the journald lane is never marked as full. -/
def unitPayload : LanePayload UnitEntry :=
  itemPayload unitEntry report.newServices report.stoppedServices false

end InventoryReport

/-- A POST: whether it is sent, and what it does to a receiver that accepts it. -/
structure Post where
  needed : Bool
  deliver : LaneReceiver → LaneReceiver

/-- The POSTs of a report, in the order in which they are sent. -/
def posts (fullReport : Bool) (report : InventoryReport) (discovered : List Container) :
    List Post :=
  let services := report.servicePayload fullReport
  let containers := report.containerPayload fullReport discovered
  let files := report.filePayload fullReport
  let units := report.unitPayload
  [⟨!services.isEmpty, fun r => { r with
      services := r.services.accept ServiceCensusEntry.stableInstanceId services }⟩,
    ⟨!containers.isEmpty, fun r => { r with
      containers := r.containers.accept ContainerCensusEntry.identifier containers }⟩,
    ⟨fullReport || !files.isEmpty, fun r => { r with
      files := r.files.accept FileCensusEntry.identifier files }⟩,
    ⟨!units.isEmpty, fun r => { r with units := r.units.accept UnitEntry.identifier units }⟩]

/-- What becomes of a POST; an accepted one may be answered with a resync request. -/
inductive PostOutcome where
  | accepted (fullResyncRequired : Bool)
  | failed
  deriving DecidableEq

/-- How far a cycle got: whether every POST sent was accepted, whether a resync was requested, how
many were accepted, and what it left. -/
structure Sent where
  (ok resync : Bool)
  accepted : Nat
  tracker : ChangeTracker
  receiver : LaneReceiver

/-- Send the POSTs in turn, up to the first that fails. -/
def sendPosts : List (Post × PostOutcome) → ChangeTracker → LaneReceiver → Sent
  | [], t, r => ⟨true, false, 0, t, r⟩
  | (post, outcome) :: rest, t, r =>
      if post.needed then
        match outcome with
        | .failed => ⟨false, false, 0, t, r⟩
        | .accepted resync =>
            let later := sendPosts rest (if resync then t.requireFullResync else t) (post.deliver r)
            { later with resync := resync || later.resync, accepted := later.accepted + 1 }
      else sendPosts rest t r

/-- A scan, and the outcomes of the four POSTs in case they are sent. -/
structure Cycle where
  census : Census
  (services containers files units : PostOutcome)

def Cycle.outcomes (c : Cycle) : List PostOutcome := [c.services, c.containers, c.files, c.units]

/-- What happens: a cycle, or a resync request in answer to another lane's POST. -/
inductive LaneEvent where
  | cycle (c : Cycle)
  | resync

/-- A tracker, a receiver, and the lanes of the last scan if its cycle ended with all its POSTs
accepted and no resync requested. -/
structure LaneWorld where
  tracker : ChangeTracker
  receiver : LaneReceiver
  clean : Option Lanes

namespace LaneWorld

/-- A new tracker and a receiver that holds whatever it holds. -/
def start (receiver : LaneReceiver) : LaneWorld := ⟨.new, receiver, none⟩

/-- The report of a cycle's scan, sent. -/
def send (w : LaneWorld) (c : Cycle) : Sent :=
  let updated := w.tracker.updateFromScan c.census
  if updated.2.fullReport || !updated.1.isEmpty then
    sendPosts ((posts updated.2.fullReport updated.1 c.census.containers).zip c.outcomes)
      updated.2 w.receiver
  else ⟨true, false, 0, updated.2, w.receiver⟩

/-- `report_inventory_cycle`: commit if every POST was accepted, else roll back. -/
def step (w : LaneWorld) : LaneEvent → LaneWorld
  | .resync => { w with tracker := w.tracker.requireFullResync, clean := none }
  | .cycle c =>
      let sent := w.send c
      if sent.ok then
        { tracker := sent.tracker.commitScan
          receiver := sent.receiver
          clean := if sent.resync then none else some (scanLanes w.tracker.rejected c.census) }
      else
        { tracker := sent.tracker.rollbackScan
          receiver := sent.receiver
          clean := none }

end LaneWorld

end EdgePacer.Inventory
