import EdgePacer.Common
import Mathlib.Data.List.Sort

/-!
# The census of a discovery scan

What a scan finds (containers, log files, systemd services, packages) and how each item is
identified across scans. A container has two identities: the workload it belongs to (`stableId`)
and the replica it is (`stableInstanceId`); both are read off the orchestrator's labels, so that
they survive a redeploy. `identifierSet` are the further facts a container is known by.
-/

namespace EdgePacer.Inventory

open Std (ExtTreeMap)

/-! ## Text -/

/-- The rest of a text behind a given beginning (`str::strip_prefix`). -/
def afterStart (start s : String) : Option String :=
  if start.toList.isPrefixOf s.toList then
    some (String.ofList (s.toList.drop start.toList.length))
  else none

/-- The position of the last occurrence of a character. -/
def rfind (c : Char) (s : List Char) : Option Nat :=
  if c ∈ s then some (s.length - 1 - s.reverse.idxOf c) else none

/-- Nonempty and all ASCII digits. -/
def isNumeric (s : String) : Bool := !s.isEmpty && s.toList.all Char.isDigit

def numeric? (s : String) : Option String := if isNumeric s then some s else none

/-- The image without digest and tag. A colon starts a tag only behind the last slash. -/
def imageRepo (image : String) : Option String :=
  let withoutDigest := image.toList.takeWhile (· ≠ '@')
  let repo :=
    match rfind ':' withoutDigest with
    | some idx =>
        if (rfind '/' withoutDigest).getD 0 < idx then withoutDigest.take idx else withoutDigest
    | none => withoutDigest
  if repo.isEmpty then none else some (String.ofList repo)

/-- The ordinal in a StatefulSet pod's name. -/
def podOrdinal (podName workload : String) : Option String :=
  (afterStart workload podName).bind fun rest => (afterStart "-" rest).bind numeric?

/-- The ordinal in a Compose container's name, with hyphens or underscores. -/
def composeOrdinal (name project service : String) : Option String :=
  ((afterStart (project ++ "-" ++ service ++ "-") name).or
    (afterStart (project ++ "_" ++ service ++ "_") name)).bind numeric?

/-- The slot in a Swarm task name `service.slot.taskid`. -/
def swarmSlot (taskName : String) : Option String :=
  (taskName.toList.splitOn '.')[1]?.bind fun slot => numeric? (String.ofList slot)

/-! ## Containers -/

structure RuntimeProcessIdentity where
  (pid startTimeTicks : Nat)
  deriving DecidableEq

structure Container where
  (id name serviceName : String)
  serviceNameExplicit : Bool
  (image state : String)
  labels : ExtTreeMap String String
  env : List String
  (runtime logPath logFormat podUid podName : String)
  «namespace» : String
  (nodeName deployment workloadKind containerId containerName : String)
  runtimeProcess : Option RuntimeProcessIdentity

namespace Container

variable (c : Container)

def hasServiceName : Bool := !c.serviceName.isEmpty

/-- Whether the container opted into collection by a service name of its own. -/
def explicitService : Bool := c.serviceNameExplicit && c.hasServiceName

def inKubernetes : Bool := !c.namespace.isEmpty && !c.deployment.isEmpty

/-- The workload of a container. -/
def stableId : String :=
  let compose := c.labels["com.docker.compose.service"]?
  let swarm := c.labels["com.docker.swarm.service.name"]?
  if c.inKubernetes then
    c.namespace ++ "/" ++ c.deployment ++ "/" ++
      (if c.containerName.isEmpty then c.name else c.containerName)
  else
    match c.labels["com.docker.compose.project"]?, compose with
    | some project, some service => project ++ "/" ++ service
    | none, some service => service
    | _, none =>
        match c.labels["com.docker.stack.namespace"]?, swarm with
        | some stack, some service => stack ++ "/" ++ service
        | none, some service => service
        | _, none =>
            match c.labels["service"]?, c.labels["destination"]? with
            | some service, some destination => service ++ "-" ++ destination
            | _, _ => c.name

/-- The replica a container is, within its workload. -/
def stableInstanceId : String :=
  let swarm := c.labels["com.docker.swarm.service.name"]?
  if c.inKubernetes then
    if c.workloadKind = "statefulset" then
      match podOrdinal c.podName c.deployment with
      | some ordinal => c.stableId ++ "/" ++ ordinal
      | none => c.stableId
    else if c.workloadKind = "daemonset" ∧ c.nodeName.isEmpty = false then
      c.stableId ++ "/" ++ c.nodeName
    else c.stableId
  else
    match c.labels["com.docker.compose.project"]?, c.labels["com.docker.compose.service"]? with
    | some project, some service =>
        let number := c.labels["com.docker.compose.container-number"]?.bind numeric?
        match number.or (composeOrdinal c.name project service) with
        | some ordinal => project ++ "/" ++ service ++ "/" ++ ordinal
        | none => project ++ "/" ++ service
    | _, _ =>
        match swarm with
        | some service =>
            let workload :=
              match c.labels["com.docker.stack.namespace"]? with
              | some stack => stack ++ "/" ++ service
              | none => service
            match c.labels["com.docker.swarm.task.name"]?.bind swarmSlot with
            | some slot => workload ++ "/" ++ slot
            | none => workload
        | none =>
            match c.labels["service"]?, c.labels["destination"]? with
            | some service, some destination =>
                match c.labels["role"]? with
                | some role => service ++ "-" ++ role ++ "-" ++ destination
                | none => service ++ "-" ++ destination
            | _, _ => c.name

/-- The facts a container is known by, each under its kind. -/
def identifierSet : ExtTreeMap String String :=
  let kamal : List (String × String) :=
    match c.labels["service"]?, c.labels["destination"]? with
    | some service, some destination =>
        [("kamal.service", service), ("kamal.destination", destination)] ++
          (c.labels["role"]?.map fun role => ("kamal.role", role)).toList
    | _, _ => []
  let atoms : List (String × Option String) :=
    [("compose.project", c.labels["com.docker.compose.project"]?),
     ("compose.service", c.labels["com.docker.compose.service"]?),
     ("swarm.stack", c.labels["com.docker.stack.namespace"]?),
     ("swarm.service", c.labels["com.docker.swarm.service.name"]?),
     ("k8s.namespace", if c.namespace.isEmpty then none else some c.namespace),
     ("k8s.workload", if c.deployment.isEmpty then none else some c.deployment),
     ("k8s.container", if c.containerName.isEmpty then none else some c.containerName),
     ("image.repo", imageRepo c.image),
     ("container.name", if c.name.isEmpty then none else some c.name)]
  let explicit := if c.explicitService then [("service_name", c.serviceName)] else []
  (explicit ++ kamal ++ atoms.filterMap fun a => a.2.map fun v => (a.1, v)).foldl
    (fun m a => m.insert a.1 a.2) ∅

end Container

/-! ## Files, services and packages -/

inductive FileSourceFormat where
  | plain
  | dockerJson
  | kubernetesCri
  deriving DecidableEq, Repr

structure LogFile where
  path : String
  size : Nat
  modified : String
  readable : Bool
  (permissions format : String)
  sourceFormat : FileSourceFormat
  lineCount : Nat
  deriving DecidableEq

def LogFile.identifier (f : LogFile) : String := f.path

structure SystemdService where
  (name loadState activeState subState description serviceName : String)
  mainPid : Nat
  deriving DecidableEq

def SystemdService.identifier (s : SystemdService) : String := s.name

structure Package where
  (name version manager : String)
  deriving DecidableEq

/-- The part of a scan the tracker looks at. -/
structure Census where
  containers : List Container
  logFiles : List LogFile
  systemdServices : List SystemdService

end EdgePacer.Inventory
