import Mathlib.Data.List.Pairwise
import Mathlib.Order.Basic

/-!
# Routing tables

A routing table says which log source the events of a cgroup anchor or of a process belong to, and
under which policy generation the kernel stamps them. Maps are lists sorted by key, so that two
tables are equal exactly when the source's maps are.
-/

namespace EdgePacer.Ebpf

/-- A cgroup together with its absolute level in the cgroup-v2 hierarchy. -/
structure CgroupAnchor where
  (id level : Nat)
  deriving DecidableEq, Repr

structure CgroupRoute where
  anchor : CgroupAnchor
  logSourceId : String
  deriving DecidableEq, Repr

theorem CgroupRoute.sorted_nil :
    ([] : List CgroupRoute).Pairwise (fun a b => a.anchor.id < b.anchor.id) := .nil

/-- Routing by cgroup anchor (`by_id` is a map from the anchor's id). The attestations that are only
read by the file-system checks before a publication are left out. -/
structure CgroupRouting where
  byId : List CgroupRoute := []
  authorizationRevision : Option Nat := none
  policyGeneration : Option Nat := none
  sorted : byId.Pairwise (fun a b => a.anchor.id < b.anchor.id) := by
    first | exact CgroupRoute.sorted_nil | simp
  deriving DecidableEq

namespace CgroupRouting

variable (r : CgroupRouting)

def isEmpty : Bool := r.byId.isEmpty

/-- Anchors to seed into the kernel's policy maps. -/
def allowedCgroups : List CgroupAnchor := r.byId.map (·.anchor)

def serviceFor (scopeCgroupId : Nat) : Option String :=
  (r.byId.find? fun route => route.anchor.id = scopeCgroupId).map (·.logSourceId)

def sameAuthorizationAs (r other : CgroupRouting) : Bool :=
  r.byId = other.byId && r.authorizationRevision = other.authorizationRevision

def assignPolicyGeneration (generation : Nat) : Except String CgroupRouting :=
  if r.isEmpty then
    if generation ≠ 0 then .error "empty cgroup routing must use policy generation zero"
    else .ok { r with policyGeneration := none }
  else if generation = 0 then .error "nonempty cgroup routing requires a policy generation"
  else .ok { r with policyGeneration := some generation }

end CgroupRouting

theorem pidRoutes_sorted_nil : ([] : List (Nat × String)).Pairwise (fun a b => a.1 < b.1) := .nil

/-- Routing by process id (`by_pid`). -/
structure PidRouting where
  byPid : List (Nat × String) := []
  policyGeneration : Option Nat := none
  sorted : byPid.Pairwise (fun a b => a.1 < b.1) := by
    first | exact pidRoutes_sorted_nil | simp
  deriving DecidableEq

namespace PidRouting

def isEmpty (r : PidRouting) : Bool := r.byPid.isEmpty

def serviceFor (r : PidRouting) (pid : Nat) : Option String :=
  (r.byPid.find? fun entry => entry.1 = pid).map (·.2)

def sameAuthorizationAs (r other : PidRouting) : Bool := r.byPid = other.byPid

def assignPolicyGeneration (r : PidRouting) (generation : Nat) : Except String PidRouting :=
  if r.isEmpty then
    if generation ≠ 0 then .error "empty PID routing must use policy generation zero"
    else .ok { r with policyGeneration := none }
  else if generation = 0 then .error "nonempty PID routing requires a policy generation"
  else .ok { r with policyGeneration := some generation }

end PidRouting

end EdgePacer.Ebpf
