import EdgePacer.Inventory.Census
import EdgePacer.Lib.FirstMatch
import Mathlib.Data.List.AList
import Mathlib.Data.String.Basic
import Mathlib.Data.Prod.Lex

/-!
# The discovery cache

Every scan is indexed by all names a container, file, unit or channel goes by, and a directive's
identifier is looked up in these indexes. A container stands in its index under many keys; a key
that several containers share belongs to the one that was indexed last.

The indexes are hash maps. An index is kept here in the order in which the map is iterated, which
may be any: `Holds` leaves it open. Whether a path is a file is asked of the file system, which is
the parameter `isFile` and does not change during one resolution.
-/

namespace EdgePacer.Inventory.Container

inductive AccessMethod where
  | file
  | dockerJsonFile
  | dockerApi
  | journald
  | kubernetes
  | windowsEventLog
  deriving DecidableEq, Repr

variable (isFile : String → Bool)

def locallyReadableLogPath (path : String) : Bool := !path.isEmpty && isFile path

variable (c : Container)

def determineAccessMethod : AccessMethod :=
  if c.runtime = "kubernetes" then .kubernetes
  else if c.runtime = "docker" then
    if locallyReadableLogPath isFile c.logPath then .dockerJsonFile else .dockerApi
  else if c.runtime = "containerd" ∨ c.runtime = "cri-o" ∨ c.runtime = "podman" then .file
  else if c.logPath.isEmpty then .dockerApi else .file

/-- What a reader of the container's log is given. -/
def logLocator : String :=
  match c.determineAccessMethod isFile with
  | .kubernetes | .file | .dockerJsonFile => c.logPath
  | .dockerApi => if c.containerId.isEmpty then c.name else c.containerId
  | .journald | .windowsEventLog => ""

/-- The names a container is indexed under, in the order of indexing. Others may share them. -/
def aliases : List String :=
  let specName := if c.containerName.isEmpty then c.name else c.containerName
  (if c.name.isEmpty then [] else [c.name]) ++
  (if c.runtime = "kubernetes" ∧ c.inKubernetes then
    [c.namespace ++ "/" ++ c.deployment ++ "/" ++ specName, c.namespace ++ "/" ++ c.deployment]
  else []) ++
  (if c.serviceName.isEmpty then [] else [c.serviceName]) ++
  (if c.stableId = c.name then [] else [c.stableId]) ++
  (if c.stableInstanceId = c.stableId ∨ c.stableInstanceId = c.name then []
    else [c.stableInstanceId]) ++
  (if c.logPath.isEmpty then [] else [c.logPath])

/-- The exact runtime identifiers. -/
def runtimeIds : List String :=
  c.id :: if c.containerId.isEmpty ∨ c.containerId = c.id then [] else [c.containerId]

def isRunning : Bool := c.state == "running"

end EdgePacer.Inventory.Container

namespace EdgePacer.Discovery

open Inventory Inventory.Container Lib

/-! ## Outcomes of a lookup -/

inductive Confidence where
  | explicit
  | strong
  | weak
  deriving DecidableEq, Repr

/-- The key by which a directive was resolved. -/
inductive MatchVia where
  | stableInstanceId
  | stableId
  | serviceName
  | containerName
  | containerId
  | systemdUnit
  | filePath
  | windowsEventLog
  deriving DecidableEq, Repr

def MatchVia.asStr : MatchVia → String
  | .stableInstanceId => "stable_instance_id"
  | .stableId => "stable_id"
  | .serviceName => "service_name"
  | .containerName => "container_name"
  | .containerId => "container_id"
  | .systemdUnit => "systemd_unit"
  | .filePath => "file_path"
  | .windowsEventLog => "windows_event_log"

def MatchVia.confidence : MatchVia → Confidence
  | .stableInstanceId | .stableId | .serviceName => .explicit
  | .containerName | .systemdUnit | .filePath | .windowsEventLog => .strong
  | .containerId => .weak

def Confidence.asStr : Confidence → String
  | .explicit => "explicit"
  | .strong => "strong"
  | .weak => "weak"

structure ResolvedAccess where
  accessMethod : AccessMethod
  matchedVia : MatchVia
  (stableIdentity accessLocator : String)
  deriving DecidableEq

inductive CollectMatch where
  | matched (access : ResolvedAccess)
  | ambiguous (candidates : Nat)
  | notFound
  deriving DecidableEq

inductive MatchStatus where
  | matched
  | ambiguous
  | notFound
  deriving DecidableEq, Repr

/-- The lanes a directive's strategy points to; `unknown` tries them all. -/
inductive LoggableType where
  | container
  | systemdService
  | file
  | windowsEventLog
  | unknown
  deriving DecidableEq, Repr

def inferLoggableType (matchingStrategy : String) : LoggableType :=
  if matchingStrategy ∈ ["env_var", "container_name", "container_id", "stable_id",
      "stable_instance_id", "log_path", "image"] then .container
  else if matchingStrategy = "systemd_unit" then .systemdService
  else if matchingStrategy = "file_path" then .file
  else if matchingStrategy = "windows_event_log" then .windowsEventLog
  else .unknown

/-! ## The indexes -/

structure EventLogChannel where
  channel : String
  recordCount : Nat

/-- What a scan hands to the cache. -/
structure Scan extends Census where
  eventLogChannels : List EventLogChannel

/-- A hash map from names, in its iteration order. -/
abbrev Index (ν : Type) : Type := AList fun _ : String => ν

namespace Index

variable {ν : Type}

def get? (m : Index ν) (key : String) : Option ν := AList.lookup key m

def values (m : Index ν) : List ν := m.entries.map fun e => e.2

/-- The map after the insertions, one after the other. -/
def ofWrites (writes : List (String × ν)) : Index ν :=
  writes.foldl (fun m w => AList.insert w.1 w.2 m) (∅ : AList fun _ : String => ν)

/-- The same map, iterated in some order. -/
def Same (m m' : Index ν) : Prop := m.entries.Perm m'.entries

end Index

/-- What the last scan found, under all its names. -/
structure DiscoveryCache where
  containers : Index Container
  files : Index LogFile
  systemdServices : Index SystemdService
  eventLogChannels : Index EventLogChannel

/-- The insertions into the index of containers: stopped generations first, then the running ones,
and the runtime identifiers of all last. -/
def containerWrites (containers : List Container) : List (String × Container) :=
  (containers.filter (fun c => !c.isRunning) ++ containers.filter Container.isRunning).flatMap
      (fun c => c.aliases.map fun key => (key, c)) ++
    containers.flatMap fun c => c.runtimeIds.map fun key => (key, c)

def updateContainers (containers : List Container) : Index Container :=
  Index.ofWrites (containerWrites containers)

def updateFiles (files : List LogFile) : Index LogFile :=
  Index.ofWrites (files.map fun f => (f.path, f))

def updateSystemdServices (services : List SystemdService) : Index SystemdService :=
  Index.ofWrites (services.flatMap fun s =>
    (s.name, s) :: if s.serviceName.isEmpty then [] else [(s.serviceName, s)])

def updateEventLogChannels (channels : List EventLogChannel) : Index EventLogChannel :=
  Index.ofWrites (channels.map fun c => (c.channel, c))

def updateAll (scan : Scan) : DiscoveryCache where
  containers := updateContainers scan.containers
  files := updateFiles scan.logFiles
  systemdServices := updateSystemdServices scan.systemdServices
  eventLogChannels := updateEventLogChannels scan.eventLogChannels

namespace DiscoveryCache

/-- The cache after a scan, whatever the order in which its maps are iterated. -/
structure Holds (cache : DiscoveryCache) (scan : Scan) : Prop where
  containers : cache.containers.Same (updateAll scan).containers
  files : cache.files.Same (updateAll scan).files
  systemdServices : cache.systemdServices.Same (updateAll scan).systemdServices
  eventLogChannels : cache.eventLogChannels.Same (updateAll scan).eventLogChannels

/-- The key by which the listed containers are sorted. -/
def sortKey (c : Container) : String ×ₗ String := toLex (c.stableInstanceId, c.id)

/-- Every container once, by its identity. -/
def distinctContainers (cache : DiscoveryCache) : List Container :=
  (unseen Container.id [] cache.containers.values).insertionSort fun a b => sortKey a ≤ sortKey b

/-! ## Lookups -/

variable (isFile : String → Bool) (cache : DiscoveryCache) (identifier : String)

/-- Build a match for a container; without a locator there is nothing to read yet. -/
def containerMatch (c : Container) (via : MatchVia) : CollectMatch :=
  if (c.logLocator isFile).isEmpty then .notFound
  else
    .matched {
      accessMethod := c.determineAccessMethod isFile
      matchedVia := via
      stableIdentity := if via = .stableInstanceId then c.stableInstanceId else c.stableId
      accessLocator := c.logLocator isFile }

def classifyContainerMatch (c : Container) : MatchVia :=
  if c.stableInstanceId ≠ c.stableId ∧ c.stableInstanceId = identifier then .stableInstanceId
  else if c.stableId = identifier then .stableId
  else if c.id = identifier ∨ c.containerId = identifier then .containerId
  else if c.name = identifier then .containerName
  else if c.serviceName = identifier then .serviceName
  else if '/' ∈ identifier.toList then .stableId
  else .containerName

/-- The id and the identifier agree in their first twelve bytes. -/
def matchesById (c : Container) : Bool :=
  12 ≤ identifier.toUTF8.size && 12 ≤ c.id.toUTF8.size &&
    c.id.toUTF8.toList.take 12 == identifier.toUTF8.toList.take 12

def resolveContainer : CollectMatch :=
  match cache.containers.get? identifier with
  | some c => containerMatch isFile c (classifyContainerMatch identifier c)
  | none =>
      match unseen Container.id [] (cache.containers.values.filter (matchesById identifier)) with
      | [] => .notFound
      | [c] => containerMatch isFile c .containerId
      | many => .ambiguous many.length

def resolveFile : CollectMatch :=
  match cache.files.get? identifier with
  | some file =>
      if file.readable then .matched ⟨.file, .filePath, file.path, file.path⟩ else .notFound
  | none => .notFound

def resolveSystemd : CollectMatch :=
  match cache.systemdServices.get? identifier with
  | some service =>
      if service.loadState = "loaded" ∧ ".service".toList <:+ service.name.toList then
        .matched ⟨.journald, .systemdUnit, service.name, service.name⟩
      else .notFound
  | none => .notFound

def resolveWindowsEventLog : CollectMatch :=
  match cache.eventLogChannels.get? identifier with
  | some channel => .matched ⟨.windowsEventLog, .windowsEventLog, channel.channel, channel.channel⟩
  | none => .notFound

/-- The reader for a directive's identifier. Without a lane the lanes are tried in turn. -/
def resolve : LoggableType → CollectMatch
  | .container => resolveContainer isFile cache identifier
  | .file => resolveFile cache identifier
  | .systemdService => resolveSystemd cache identifier
  | .windowsEventLog => resolveWindowsEventLog cache identifier
  | .unknown =>
      match resolveContainer isFile cache identifier with
      | .notFound =>
          match resolveFile cache identifier with
          | .notFound =>
              match resolveSystemd cache identifier with
              | .notFound => resolveWindowsEventLog cache identifier
              | found => found
          | found => found
      | found => found

/-! ## The listed containers -/

variable {cache}

theorem mem_distinctContainers {c : Container} :
    c ∈ cache.distinctContainers ↔ c ∈ unseen Container.id [] cache.containers.values :=
  List.mem_insertionSort _

theorem nodup_distinctContainers : (cache.distinctContainers.map Container.id).Nodup :=
  ((List.perm_insertionSort _ _).map Container.id).nodup_iff.2 (nodup_map_unseen _ _)

theorem pairwise_distinctContainers :
    cache.distinctContainers.Pairwise fun a b => sortKey a < sortKey b := by
  have hsorted : cache.distinctContainers.Pairwise fun a b => sortKey a ≤ sortKey b :=
    List.pairwise_insertionSort _ _
  have hids : cache.distinctContainers.Pairwise fun a b => a.id ≠ b.id :=
    List.pairwise_map.1 nodup_distinctContainers
  refine (hsorted.and hids).imp fun {a b} h => lt_of_le_of_ne h.1 fun heq => h.2 ?_
  exact congrArg (fun k => (ofLex k).2) heq

end DiscoveryCache

end EdgePacer.Discovery
