import EdgePacer.Inventory.Census
import EdgePacer.Lib.BigEndian
import EdgePacer.Lib.DeltaLane

/-!
# The change tracker

The tracker compares each scan with the state committed last and reports the difference; the scan
becomes the committed state when its report was acknowledged, and is dropped when it was not. The
inventory lanes (containers, files, services) and the package lane are committed separately. A hash
table of the source is a table in key order here: only the order of the stopped items of a report
depends on it.
-/

namespace EdgePacer.Inventory

open Lib SystemdService
open Std (ExtTreeMap)

/-! ## Containers of one workload -/

/-- The key a container is tracked under: its replica for an explicit service, else its
workload. -/
def containerKey (c : Container) : String :=
  if c.explicitService then c.stableInstanceId else c.stableId

/-- The order replicas are compared in. -/
def replicaLe (a b : Container) : Bool :=
  ((compare a.stableInstanceId b.stableInstanceId).then (compare a.id b.id)).isLE

def isRunning (c : Container) : Bool := c.state = "running"

/-- The replicas that stand for a workload: the running ones if there are any, in a fixed order. -/
def trackedReplicas (replicas : List Container) : List Container :=
  let sorted := replicas.insertionSort fun a b => replicaLe a b
  if sorted.any isRunning then sorted.filter isRunning else sorted

def containersChanged (prev current : List Container) : Bool :=
  prev.length != current.length ||
    (prev.zip current).any fun pc =>
      pc.1.state != pc.2.state || pc.1.image != pc.2.image ||
        pc.1.logFormat != pc.2.logFormat ||
        decide (pc.1.identifierSet ≠ pc.2.identifierSet)

/-- What is reported of a group: every replica of an explicit service, else a representative. -/
def reportContainerGroup (replicas : List Container) : List Container :=
  if replicas.any Container.explicitService then replicas else replicas.head?.toList

/-! ## Reports -/

inductive ItemType where
  | container
  | file
  | service
  deriving DecidableEq, Repr

structure StoppedItem where
  identifier : String
  itemType : ItemType
  explicitService : Bool
  deriving DecidableEq

/-- What changed since the last report. -/
structure InventoryReport where
  (newContainers changedContainers : List Container)
  stoppedContainers : List StoppedItem
  newFiles : List LogFile
  stoppedFiles : List StoppedItem
  newServices : List SystemdService
  stoppedServices : List StoppedItem

inductive PackageEventOperation where
  | upsert
  | delete
  deriving DecidableEq, Repr

structure PackageInventoryEvent where
  eventId : String
  operation : PackageEventOperation
  (itemId itemVersionHash : String)
  tombstone : Bool
  package : Option Package
  deriving DecidableEq

abbrev PackageState := ExtTreeMap String Package

structure PackageLaneReport where
  schemaVersion : Nat
  lane : String
  agentSequence : Nat
  (cycleId baselineId laneDigest : String)
  fullSnapshot : Bool
  (itemCount upsertCount deleteCount : Nat)
  events : List PackageInventoryEvent
  installedPackages : List Package

/-! ## Comparing a scan with the committed state -/

/-- The items of the three inventory lanes, by key. -/
structure Lanes where
  containers : ExtTreeMap String (List Container)
  files : ExtTreeMap String LogFile
  services : ExtTreeMap String SystemdService

def Lanes.empty : Lanes := ⟨∅, ∅, ∅⟩

section

variable (rejected : ExtTreeMap String Unit)

/-- The items of a scan that were not rejected. -/
def unrejected {α : Type} (key : α → String) (items : List α) : List α :=
  items.filter fun a => !rejected.contains (key a)

variable (census : Census)

/-- The tracked replicas of every workload in the scan. -/
def currentContainers : ExtTreeMap String (List Container) :=
  (groupByKey containerKey (unrejected rejected containerKey census.containers)).map
    fun _ replicas => trackedReplicas replicas

/-- The workloads in the order in which the scan first has them. -/
def containerOrder : List String :=
  firstSightings ((unrejected rejected containerKey census.containers).map containerKey)

/-- The scanned items of a lane whose items are tracked by their identifier alone. -/
def currentItems {α : Type} (identifier : α → String) (items : List α) : ExtTreeMap String α :=
  (unrejected rejected identifier items).foldl (fun m a => m.insert (identifier a) a) ∅

/-- Everything in the scan, lane by lane. -/
def scanLanes : Lanes where
  containers := currentContainers rejected census
  files := currentItems rejected LogFile.identifier census.logFiles
  services := currentItems rejected identifier census.systemdServices

/-- The groups of the scan that `report` selects, in report form. -/
def reportedContainers (committed : ExtTreeMap String (List Container)) (census : Census)
    (report : Option (List Container) → List Container → Bool) : List Container :=
  (containerOrder rejected census).flatMap fun id =>
    let replicas := (currentContainers rejected census).getD id []
    if report committed[id]? replicas then reportContainerGroup replicas else []

/-- The scanned items whose identifier is not committed. -/
def newItems {α : Type} (identifier : α → String) (committed : ExtTreeMap String α)
    (items : List α) : List α :=
  (unrejected rejected identifier items).filter fun a => !committed.contains (identifier a)

/-- Stop records for the committed keys that the scan does not have. -/
def stoppedItems {α : Type} (committed current : ExtTreeMap String α) (itemType : ItemType)
    (explicit : α → Bool) : List StoppedItem :=
  (committed.toList.filter fun e => !current.contains e.1).map
    fun e => ⟨e.1, itemType, explicit e.2⟩

/-- The report of a scan against the committed state. -/
def scanReport (committed : Lanes) (census : Census) : InventoryReport where
  newContainers := reportedContainers rejected committed.containers census fun prev _ => prev.isNone
  changedContainers := reportedContainers rejected committed.containers census
    fun prev replicas => prev.any fun p => containersChanged p replicas
  stoppedContainers := stoppedItems committed.containers (currentContainers rejected census)
    .container fun prev => prev.any Container.explicitService
  newFiles := newItems rejected LogFile.identifier committed.files census.logFiles
  stoppedFiles := stoppedItems committed.files
    (currentItems rejected LogFile.identifier census.logFiles) .file fun _ => false
  newServices := newItems rejected identifier committed.services census.systemdServices
  stoppedServices := stoppedItems committed.services
    (currentItems rejected identifier census.systemdServices) .service
    fun _ => false

end

/-! ## Package identities and digests

`sha` is SHA-256 followed by the hexadecimal encoding; nothing below depends on which function it
is. -/

section

variable (sha : Bytes → String)

def CENSUS_SCHEMA_VERSION : Nat := 1
def PACKAGE_LANE : String := "packages"
def UNKNOWN_AGENT_ID : String := "unknown-agent"

/-- A text with its length in front. -/
def hashPart (value : String) : Bytes := toBe 8 value.utf8ByteSize ++ value.toUTF8.toList

def packageItemId (p : Package) : String := p.manager ++ ":" ++ p.name

/-- Packages by item, the last one of each. -/
def packageState (packages : List Package) : PackageState :=
  packages.foldl (fun m p => m.insert (packageItemId p) p) ∅

variable (packages : PackageState)

def packageStateDigest : String :=
  sha (packages.toList.flatMap fun e =>
    hashPart e.1 ++ hashPart e.2.manager ++ hashPart e.2.name ++ hashPart e.2.version)

def packageItemVersionHash (p : Package) : String :=
  sha (hashPart PACKAGE_LANE ++ hashPart p.manager ++ hashPart p.name ++ hashPart p.version)

def packageTombstoneVersionHash (itemId : String) (p : Package) : String :=
  sha (hashPart PACKAGE_LANE ++ hashPart "delete" ++ hashPart itemId ++
    hashPart (packageItemVersionHash sha p))

def packageBaselineId (digest : String) : String := PACKAGE_LANE ++ ":" ++ digest

variable (agentIdentity : String)

def normalizedAgentIdentity : String :=
  if agentIdentity.isEmpty then UNKNOWN_AGENT_ID else agentIdentity

def packageCycleId (sequence : Nat) (digest : String) : String :=
  normalizedAgentIdentity agentIdentity ++ ":" ++ PACKAGE_LANE ++ ":" ++ toString sequence ++ ":" ++
    digest

def packageEventId (agentIdentity itemId itemVersionHash : String) : String :=
  normalizedAgentIdentity agentIdentity ++ ":" ++ PACKAGE_LANE ++ ":" ++ itemId ++ ":" ++
    itemVersionHash

def packageUpsertEvent (agentIdentity itemId : String) (p : Package) : PackageInventoryEvent where
  eventId := packageEventId agentIdentity itemId (packageItemVersionHash sha p)
  operation := .upsert
  itemId := itemId
  itemVersionHash := packageItemVersionHash sha p
  tombstone := false
  package := some p

def packageDeleteEvent (agentIdentity itemId : String) (p : Package) : PackageInventoryEvent where
  eventId := packageEventId agentIdentity itemId (packageTombstoneVersionHash sha itemId p)
  operation := .delete
  itemId := itemId
  itemVersionHash := packageTombstoneVersionHash sha itemId p
  tombstone := true
  package := none

/-- All packages as upserts for a full snapshot, else what changed and what is gone. -/
def packageEvents (fullSnapshot : Bool) (previous current : PackageState) :
    List PackageInventoryEvent :=
  if fullSnapshot then
    current.toList.map fun e => packageUpsertEvent sha agentIdentity e.1 e.2
  else
    (current.toList.filter fun e => previous[e.1]? ≠ some e.2).map
        (fun e => packageUpsertEvent sha agentIdentity e.1 e.2) ++
      (previous.toList.filter fun e => !current.contains e.1).map
        (fun e => packageDeleteEvent sha agentIdentity e.1 e.2)

def operationRank : PackageEventOperation → Nat
  | .upsert => 0
  | .delete => 1

/-- By item, and upserts first. -/
def eventLe (left right : PackageInventoryEvent) : Bool :=
  ((compare left.itemId right.itemId).then
    (compare (operationRank left.operation) (operationRank right.operation))).isLE

def entryBytes (e : String × Package) : Bytes :=
  hashPart e.1 ++ hashPart e.2.manager ++ hashPart e.2.name ++ hashPart e.2.version

/-- What the digest of a state is made of. -/
def packageStateBytes : Bytes := packages.toList.flatMap entryBytes

/-- All texts fit into memory. -/
def InMemory : Prop :=
  ∀ e ∈ packages.toList, ∀ text ∈ [e.1, e.2.manager, e.2.name, e.2.version],
    text.utf8ByteSize < 2 ^ 64

end

section

open List

theorem toList_byteArray (bytes : ByteArray) : bytes.toList = bytes.data.toList := by
  have hloop (i : Nat) (r : Bytes) :
      ByteArray.toList.loop bytes i r = r.reverse ++ bytes.data.toList.drop i := by
    fun_induction ByteArray.toList.loop bytes i r with
    | case1 i r h ih =>
      have hlt : i < bytes.data.toList.length := h
      rw [ih, reverse_cons, append_assoc, drop_eq_getElem_cons hlt]
      simp [ByteArray.get!, h]
    | case2 i r h =>
      rw [drop_eq_nil_of_le (not_lt.1 h), append_nil]
  exact hloop 0 []

/-- A text with its length in front can be told from what follows. -/
theorem hashPart_append_inj {v w : String} (hv : v.utf8ByteSize < 2 ^ 64)
    (hw : w.utf8ByteSize < 2 ^ 64) {x y : Bytes} (h : hashPart v ++ x = hashPart w ++ y) :
    v = w ∧ x = y := by
  rw [hashPart, hashPart, append_assoc, append_assoc, toList_byteArray, toList_byteArray] at h
  obtain ⟨hlen, hrest⟩ := append_inj h (by simp)
  have hsize : v.utf8ByteSize = w.utf8ByteSize := by
    rw [← ofBe_toBe_of_lt (w := 8) hv, hlen, ofBe_toBe_of_lt hw]
  obtain ⟨htext, hxy⟩ := append_inj hrest (by simpa using hsize)
  exact ⟨String.toByteArray_inj.1 (ByteArray.ext (Array.toList_inj.1 htext)), hxy⟩

theorem packageStateBytes_injective {a b : PackageState} (ha : InMemory a) (hb : InMemory b)
    (h : packageStateBytes a = packageStateBytes b) : a = b := by
  refine ExtTreeMap.toList_inj.1 ?_
  unfold InMemory at ha hb
  unfold packageStateBytes at h
  generalize a.toList = l at ha h
  generalize b.toList = l' at hb h
  induction l generalizing l' with
  | nil =>
    cases l' with
    | nil => rfl
    | cons e l' => cases h
  | cons e l ih =>
    cases l' with
    | nil => cases h
    | cons e' l' =>
      obtain ⟨hsize, hl⟩ := forall_mem_cons.1 ha
      obtain ⟨hsize', hl'⟩ := forall_mem_cons.1 hb
      simp only [forall_mem_cons] at hsize hsize'
      rw [flatMap_cons, flatMap_cons, entryBytes, entryBytes] at h
      simp only [append_assoc] at h
      obtain ⟨hid, h⟩ := hashPart_append_inj hsize.1 hsize'.1 h
      obtain ⟨hmanager, h⟩ := hashPart_append_inj hsize.2.1 hsize'.2.1 h
      obtain ⟨hname, h⟩ := hashPart_append_inj hsize.2.2.1 hsize'.2.2.1 h
      obtain ⟨hversion, h⟩ := hashPart_append_inj hsize.2.2.2.1 hsize'.2.2.2.1 h
      have he : e = e' := by
        rw [Prod.ext_iff, Package.mk.injEq]
        exact ⟨hid, hname, hversion, hmanager⟩
      rw [he, ih hl l' hl' h]

/-- **A baseline id stands for one state.** States with the same digest input are equal, and two
states share a baseline id only where the hash collides. -/
theorem state_of_baseline_id (sha : Bytes → String) {a b : PackageState} (ha : InMemory a)
    (hb : InMemory b) :
    (packageStateBytes a = packageStateBytes b → a = b) ∧
      (packageBaselineId (packageStateDigest sha a) = packageBaselineId (packageStateDigest sha b) →
        a ≠ b → packageStateBytes a ≠ packageStateBytes b ∧
          sha (packageStateBytes a) = sha (packageStateBytes b)) := by
  refine ⟨packageStateBytes_injective ha hb, fun hid hne => ⟨fun hbytes => ?_, ?_⟩⟩
  · exact hne (packageStateBytes_injective ha hb hbytes)
  · exact String.append_right_inj _ |>.1 hid

/-- Another version of a package has another input. -/
theorem versions_told_apart :
    packageStateBytes (packageState [⟨"ssl", "1", "apt"⟩]) ≠
      packageStateBytes (packageState [⟨"ssl", "2", "apt"⟩]) := by
  have hne : packageState [⟨"ssl", "1", "apt"⟩] ≠ packageState [⟨"ssl", "2", "apt"⟩] := by
    rw [Ne, ← ExtTreeMap.toList_inj]
    decide +kernel
  have hsized : InMemory (packageState [⟨"ssl", "1", "apt"⟩]) ∧
      InMemory (packageState [⟨"ssl", "2", "apt"⟩]) := by
    unfold InMemory
    decide +kernel
  exact fun h => hne ((state_of_baseline_id (fun _ => "") hsized.1 hsized.2).1 h)

end

/-! ## The tracker -/

/-- What was reported, and what is being reported. -/
structure ChangeTracker where
  committedContainers : ExtTreeMap String (List Container)
  committedFiles : ExtTreeMap String LogFile
  committedServices : ExtTreeMap String SystemdService
  committedPackages : PackageState
  pendingContainers : Option (ExtTreeMap String (List Container))
  pendingFiles : Option (ExtTreeMap String LogFile)
  pendingServices : Option (ExtTreeMap String SystemdService)
  pendingPackages : Option PackageState
  nextPackageSequence : Nat
  forcePackageFullSnapshot : Bool
  /-- The next report carries everything: there is no acknowledged state to compare with. -/
  fullInventoryReport : Bool
  rejected : ExtTreeMap String Unit

namespace ChangeTracker

def new : ChangeTracker where
  committedContainers := ∅
  committedFiles := ∅
  committedServices := ∅
  committedPackages := ∅
  pendingContainers := none
  pendingFiles := none
  pendingServices := none
  pendingPackages := none
  nextPackageSequence := 1
  forcePackageFullSnapshot := true
  fullInventoryReport := true
  rejected := ∅

variable (t : ChangeTracker)

def fullReport : Bool := t.fullInventoryReport

/-! ### Inventory lanes -/

/-- The committed state that scans are compared with. -/
def committed : Lanes := ⟨t.committedContainers, t.committedFiles, t.committedServices⟩

/-- Report a scan and keep it for the commit. -/
def updateFromScan (census : Census) : InventoryReport × ChangeTracker :=
  let current := scanLanes t.rejected census
  (scanReport t.rejected t.committed census,
    { t with
      pendingContainers := some current.containers
      pendingFiles := some current.files
      pendingServices := some current.services })

def commitScan : ChangeTracker :=
  { t with
    committedContainers := t.pendingContainers.getD t.committedContainers
    fullInventoryReport := if t.pendingContainers.isSome then false else t.fullInventoryReport
    committedFiles := t.pendingFiles.getD t.committedFiles
    committedServices := t.pendingServices.getD t.committedServices
    pendingContainers := none
    pendingFiles := none
    pendingServices := none }

def rollbackScan : ChangeTracker :=
  { t with pendingContainers := none, pendingFiles := none, pendingServices := none }

def markRejected (identifier : String) : ChangeTracker :=
  { t with rejected := t.rejected.insert identifier () }

/-! ### Package lane -/

def packageReport (sha : Bytes → String) (agentIdentity : String)
    (packages : List Package) : PackageLaneReport :=
  let current := packageState packages
  let currentDigest := packageStateDigest sha current
  let previousDigest := packageStateDigest sha t.committedPackages
  let fullSnapshot := t.forcePackageFullSnapshot
  let events := (packageEvents sha agentIdentity fullSnapshot t.committedPackages
    current).insertionSort fun a b => eventLe a b
  let upsertCount := events.countP fun e => e.operation = .upsert
  { schemaVersion := CENSUS_SCHEMA_VERSION
    lane := PACKAGE_LANE
    agentSequence := t.nextPackageSequence
    cycleId := packageCycleId agentIdentity t.nextPackageSequence currentDigest
    baselineId := packageBaselineId (if fullSnapshot then currentDigest else previousDigest)
    laneDigest := currentDigest
    fullSnapshot := fullSnapshot
    itemCount := current.size
    upsertCount := upsertCount
    deleteCount := events.length - upsertCount
    events := events
    installedPackages := if fullSnapshot then current.toList.map Prod.snd else [] }

def updatePackagesFromScan (sha : Bytes → String) (agentIdentity : String)
    (packages : List Package) : PackageLaneReport × ChangeTracker :=
  (t.packageReport sha agentIdentity packages,
    { t with pendingPackages := some (packageState packages) })

def commitPackageScan : ChangeTracker :=
  match t.pendingPackages with
  | none => t
  | some packages =>
      { t with
        pendingPackages := none
        committedPackages := packages
        forcePackageFullSnapshot := false
        nextPackageSequence := t.nextPackageSequence + 1 }

def rollbackPackageScan : ChangeTracker := { t with pendingPackages := none }

def requirePackageFullResync : ChangeTracker :=
  { t with pendingPackages := none, forcePackageFullSnapshot := true }

/-- Forget the committed inventory, so that the next report carries everything. -/
def requireFullResync : ChangeTracker :=
  { t with
    committedContainers := ∅
    committedFiles := ∅
    committedServices := ∅
    pendingContainers := none
    pendingFiles := none
    pendingServices := none
    fullInventoryReport := true }.requirePackageFullResync

end ChangeTracker

/-- What happens to a tracker, in any order. -/
inductive TrackerEvent where
  | scan (census : Census)
  | commitScan
  | rollbackScan
  | markRejected (identifier : String)
  | packageScan (agentIdentity : String) (packages : List Package)
  | commitPackageScan
  | rollbackPackageScan
  | requirePackageFullResync
  | requireFullResync

/-- The tracker after an event. -/
def ChangeTracker.step (sha : Bytes → String) (t : ChangeTracker) : TrackerEvent → ChangeTracker
  | .scan census => (t.updateFromScan census).2
  | .commitScan => t.commitScan
  | .rollbackScan => t.rollbackScan
  | .markRejected identifier => t.markRejected identifier
  | .packageScan agentIdentity packages => (t.updatePackagesFromScan sha agentIdentity packages).2
  | .commitPackageScan => t.commitPackageScan
  | .rollbackPackageScan => t.rollbackPackageScan
  | .requirePackageFullResync => t.requirePackageFullResync
  | .requireFullResync => t.requireFullResync

end EdgePacer.Inventory
