import EdgePacer.Config.Claiming
import EdgePacer.Lib.Trace
import Mathlib.Data.Multiset.Basic

/-!
# Containers as authorization evidence

Who may be observed is decided by a snapshot of the container inventory, and before the decision
takes effect the cache is asked whether it still holds: by a revision that is counted up when the
identities of the running containers, or the outcome of the discovery, differ from the last scan's.
`verified_unchanged` says that an accepted revision stands for the same identities at every scan
since the snapshot.
-/

namespace EdgePacer.Discovery

open Inventory Lib List Config

/-- What of a container an authorization rests on. -/
structure ContainerAuthorizationIdentity where
  (id containerId : String)
  explicitServiceName : Option String
  runtimeProcess : Option RuntimeProcessIdentity
  deriving DecidableEq

def authorizationIdentity (c : Container) : ContainerAuthorizationIdentity where
  id := c.id
  containerId := c.containerId
  explicitServiceName := if c.explicitService then some c.serviceName else none
  runtimeProcess := c.runtimeProcess

/-- The identities of the running containers. The source sorts them to compare them. -/
def runningIdentities (containers : List Container) : Multiset ContainerAuthorizationIdentity :=
  ((containers.filter Container.isRunning).map authorizationIdentity : List _)

structure ContainerAuthorizationFingerprint where
  inventoryError : Option String
  containers : Multiset ContainerAuthorizationIdentity
  deriving DecidableEq

/-- The failed backends of those that find containers. -/
def containerInventoryError (errors : List String) : Option String :=
  let failed := ["docker", "kubernetes", "cri"].filter (· ∈ errors)
  if failed.isEmpty then none
  else some ("container discovery failed: " ++ ", ".intercalate failed)

/-- A scan, the parts of it that failed, and what the cache holds of it. -/
structure Update where
  scan : Scan
  errors : List String
  cache : DiscoveryCache
  holds : cache.Holds scan

/-- The discovery cache with its revision of the inventory. -/
structure Inventory where
  cache : DiscoveryCache
  epoch : Nat := 0
  inventoryError : Option String := none
  fingerprint : Option ContainerAuthorizationFingerprint := none
  revision : Nat := 0

structure CompleteContainerSnapshot where
  (epoch authorizationRevision : Nat)
  containers : List Container

namespace Inventory

variable (s : Inventory)

def containerAuthorizationFingerprint : ContainerAuthorizationFingerprint :=
  ⟨s.inventoryError, runningIdentities s.cache.distinctContainers⟩

def updateAll (u : Update) : Inventory :=
  let s := { s with
    cache := u.cache
    inventoryError := containerInventoryError u.errors
    epoch := s.epoch + 1 }
  if s.fingerprint ≠ some s.containerAuthorizationFingerprint then
    { s with
      -- never 0, which is the revision before the first scan
      revision := max ((s.revision + 1) % 2 ^ 64) 1
      fingerprint := some s.containerAuthorizationFingerprint }
  else s

def completeContainerSnapshot : Except String CompleteContainerSnapshot :=
  if s.epoch = 0 then .error "container discovery has not completed an initial scan"
  else
    match s.inventoryError with
    | some error => .error error
    | none => .ok ⟨s.epoch, s.revision, s.cache.distinctContainers⟩

def verifyCompleteContainerAuthorizationRevision (expected : Nat) : Except String Unit :=
  if s.revision ≠ expected then
    .error s!"container authorization changed during listener snapshot ({expected} -> {s.revision})"
  else
    match s.inventoryError with
    | some error => .error error
    | none => .ok ()

variable {s : Inventory} {u : Update} {snapshot : CompleteContainerSnapshot}

theorem cache_updateAll : (s.updateAll u).cache = u.cache := by
  unfold updateAll
  dsimp only
  split_ifs <;> rfl

theorem fingerprint_updateAll :
    (s.updateAll u).fingerprint = some (s.updateAll u).containerAuthorizationFingerprint := by
  unfold updateAll
  dsimp only
  split_ifs with h
  · rfl
  · exact not_not.1 h

/-- The revision does not wrap at this scan. -/
def NoWrap (s : Inventory) (u : Update) : Prop := s.revision ≤ (s.updateAll u).revision

theorem NoWrap.cases (h : s.NoWrap u) :
    s.revision < (s.updateAll u).revision ∨ (s.updateAll u).fingerprint = s.fingerprint := by
  unfold NoWrap updateAll at h
  unfold updateAll
  dsimp only at h ⊢
  split_ifs at h ⊢
  · left
    dsimp only at h ⊢
    omega
  · exact .inr rfl

/-- Where the revision does not wrap it never goes down, and while it stays no scan differs from the
first in what the fingerprint is of. -/
theorem unchanged_of_revision {updates : List Update} (h : Each updateAll NoWrap s updates)
    (hs : s.fingerprint = some s.containerAuthorizationFingerprint) :
    s.revision ≤ (updates.foldl updateAll s).revision ∧
      ((updates.foldl updateAll s).revision = s.revision →
        Always updateAll (fun t => t.containerAuthorizationFingerprint =
          s.containerAuthorizationFingerprint) s updates) := by
  induction updates generalizing s with
  | nil => exact ⟨le_rfl, fun _ => rfl⟩
  | cons u updates ih =>
    obtain ⟨hle, hsame⟩ := ih h.2 fingerprint_updateAll
    refine ⟨h.1.trans hle, fun heq => ⟨rfl, ?_⟩⟩
    rcases h.1.cases with hlt | hfingerprint
    · exact absurd heq (hlt.trans_le hle).ne'
    · rw [fingerprint_updateAll, hs] at hfingerprint
      rw [← Option.some.inj hfingerprint]
      exact hsame (heq.trans (h.1.antisymm (hle.trans_eq heq)))

/-- Every id is of one container, and no runtime handle of another. -/
structure OwnIds (containers : List Container) : Prop where
  nodup : (containers.map Container.id).Nodup
  handles : ∀ c ∈ containers, ∀ c' ∈ containers, c.id ∈ c'.runtimeIds → c'.id = c.id

theorem perm_distinctContainers (h : OwnIds u.scan.containers) :
    u.cache.distinctContainers.Perm u.scan.containers := by
  have hlisted : u.cache.distinctContainers.Nodup :=
    .of_map _ DiscoveryCache.nodup_distinctContainers
  refine (perm_ext_iff_of_nodup hlisted (.of_map _ h.nodup)).2 fun c => ⟨?_, fun hc => ?_⟩
  · exact mem_scan_of_mem_distinctContainers u.holds
  · refine mem_distinctContainers_of_own_id u.holds hc fun c' hc' hid => ?_
    exact inj_on_of_nodup_map h.nodup hc' hc (h.handles c hc c' hc' hid)

/-- **Snapshots.** A snapshot after any scan lists every container of that scan once, whatever names
they share. If its revision is accepted after further scans, without a wrap of the revision, then
all of these found the containers completely, and the same identities running. -/
theorem verified_unchanged
    (hsnapshot : (s.updateAll u).completeContainerSnapshot = .ok snapshot) :
    (OwnIds u.scan.containers → snapshot.containers.Perm u.scan.containers) ∧
      ∀ later, Each updateAll NoWrap (s.updateAll u) later →
        (later.foldl updateAll (s.updateAll u)).verifyCompleteContainerAuthorizationRevision
          snapshot.authorizationRevision = .ok () →
        Always updateAll (fun t => t.inventoryError = none ∧
          runningIdentities t.cache.distinctContainers = runningIdentities snapshot.containers)
          (s.updateAll u) later := by
  unfold completeContainerSnapshot at hsnapshot
  split_ifs at hsnapshot
  split at hsnapshot
  · cases hsnapshot
  · next hcomplete =>
    cases hsnapshot
    refine ⟨fun h => cache_updateAll ▸ perm_distinctContainers h, fun later hwrap hverified => ?_⟩
    unfold verifyCompleteContainerAuthorizationRevision at hverified
    split_ifs at hverified with hrevision
    refine ((unchanged_of_revision hwrap fingerprint_updateAll).2 (not_not.1 hrevision)).mono
      fun t ht => ?_
    obtain ⟨herror, hidentities⟩ := ContainerAuthorizationFingerprint.mk.inj ht
    exact ⟨herror.trans hcomplete, hidentities⟩

/-- A scan that finds two running containers of one name. -/
def sharedName : Update where
  scan := containerScan [generation "a" "shop-1" "running", generation "b" "shop-1" "running"]
  errors := []
  cache := Discovery.updateAll
    (containerScan [generation "a" "shop-1" "running", generation "b" "shop-1" "running"])
  holds := holds_updateAll _

theorem sharedName_ownIds : OwnIds sharedName.scan.containers where
  nodup := by decide +kernel
  handles := by decide +kernel

/-- Both containers are listed, and a scan that finds the same keeps the revision. -/
theorem same_scan_verified :
    ∃ s snapshot, s = updateAll { cache := sharedName.cache } sharedName ∧
      s.completeContainerSnapshot = .ok snapshot ∧
      snapshot.containers.Perm sharedName.scan.containers ∧
      Always updateAll (fun t => t.inventoryError = none ∧
        runningIdentities t.cache.distinctContainers = runningIdentities snapshot.containers)
        s [sharedName] := by
  have hsnapshot := verified_unchanged (s := { cache := sharedName.cache }) (u := sharedName) rfl
  refine ⟨_, _, rfl, rfl, hsnapshot.1 sharedName_ownIds,
    hsnapshot.2 [sharedName] ⟨?_, trivial⟩ ?_⟩
  · unfold NoWrap
    decide +kernel
  · decide +kernel

end Inventory

end EdgePacer.Discovery
