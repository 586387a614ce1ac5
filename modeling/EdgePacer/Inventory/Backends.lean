import EdgePacer.Inventory.InventorySync

/-!
# Discovery backends

A scan asks every discovery backend and merges what they found; a backend that fails contributes
nothing and leaves its error in the census. The agent looks at these errors for the packages only,
so for the tracker a failed backend is one that found nothing, and its items are stopped and dropped
like items that are gone.

The world keeps the results behind the pending scan and behind the scan committed last.
`stops_justified` says which runs are right: an item that is reported stopped, or dropped by a
commit, was found by backends that did not fail this time, exactly when every committed item of a
failing backend is found by another one.
-/

namespace EdgePacer.Inventory

open Lib List Lanes ChangeTracker
open Std (ExtTreeMap)

/-! ## Merging the results -/

/-- The backends whose items the tracker commits. -/
inductive Backend where
  | docker
  | kubernetes
  | cri
  | files
  | systemd
  | packages
  deriving DecidableEq, Repr

/-- What each backend answered: its items, or its error. -/
structure BackendResults where
  (docker kubernetes cri : Except String (List Container))
  files : Except String (List LogFile)
  systemd : Except String (List SystemdService)
  packages : Except String (List Package)

/-- What a failed backend contributes is nothing. -/
def found {α : Type} : Except String (List α) → List α
  | .ok items => items
  | .error _ => []

/-- The error of a failed backend, under the backend's key. -/
def errorEntry {α : Type} (key : String) : Except String (List α) → List (String × String)
  | .ok _ => []
  | .error e => [(key, e)]

/-- A container id without the scheme of its runtime. -/
def normalizedRuntimeId (containerId : String) : String :=
  let chars := containerId.toList
  match (range chars.length).find? fun i => "://".toList.isPrefixOf (chars.drop i) with
  | some i => if i = 0 then containerId else String.ofList (chars.drop (i + 3))
  | none => containerId

/-- The processes the CRI runtime names for its containers, and the ids it names two for. -/
structure CriProcesses where
  processes : ExtTreeMap String RuntimeProcessIdentity
  ambiguousIds : ExtTreeMap String Unit

def CriProcesses.add (known : CriProcesses) (c : Container) : CriProcesses :=
  let id := normalizedRuntimeId c.containerId
  match c.runtimeProcess with
  | none => known
  | some process =>
      if id.isEmpty || known.ambiguousIds.contains id then known
      else if known.processes[id]?.any fun existing => decide (existing ≠ process) then
        ⟨known.processes.erase id, known.ambiguousIds.insert id ()⟩
      else { known with processes := known.processes.insert id process }

/-- Give the pods' containers the processes that the CRI runtime names for them. -/
def joinCriRuntimeProcesses (kubernetes cri : List Container) : List Container :=
  let known := cri.foldl CriProcesses.add ⟨∅, ∅⟩
  kubernetes.map fun c =>
    { c with runtimeProcess := known.processes[normalizedRuntimeId c.containerId]? }

/-- The census of a scan, its packages, and the errors of the backends. -/
structure Discovered where
  census : Census
  installedPackages : List Package
  errors : ExtTreeMap String String

/-- The pods' containers, joined with the CRI runtime's processes if these are asked for. -/
def BackendResults.pods (r : BackendResults) (includeRuntimeProcesses : Bool) : List Container :=
  match includeRuntimeProcesses, r.kubernetes, r.cri with
  | true, .ok kubernetes, .ok cri => joinCriRuntimeProcesses kubernetes cri
  | _, kubernetes, _ => found kubernetes

/-- `discover_with_file_settings_and_runtime_processes`, from the backends' results. -/
def discover (includeRuntimeProcesses : Bool) (r : BackendResults) : Discovered where
  census :=
    { containers := found r.docker ++ r.pods includeRuntimeProcesses ++ found r.cri
      logFiles := found r.files
      systemdServices := found r.systemd }
  installedPackages := found r.packages
  errors := .ofList
    (errorEntry "docker" r.docker ++ errorEntry "kubernetes" r.kubernetes ++
      errorEntry "cri" r.cri ++ errorEntry "files" r.files ++ errorEntry "systemd" r.systemd ++
      errorEntry "packages" r.packages)

namespace BackendResults

/-- Whether a backend failed. -/
def failed (r : BackendResults) : Backend → Bool
  | .docker => !r.docker.isOk
  | .kubernetes => !r.kubernetes.isOk
  | .cri => !r.cri.isOk
  | .files => !r.files.isOk
  | .systemd => !r.systemd.isOk
  | .packages => !r.packages.isOk

/-- The keys of the tracked items of a type that a backend found. -/
def keysFound (r : BackendResults) : Backend → ItemType → List String
  | .docker, .container => (found r.docker).map containerKey
  | .kubernetes, .container => (found r.kubernetes).map containerKey
  | .cri, .container => (found r.cri).map containerKey
  | .files, .file => (found r.files).map LogFile.identifier
  | .systemd, .service => (found r.systemd).map SystemdService.identifier
  | _, _ => []

end BackendResults

theorem mem_keys_errorEntry {α : Type} {key key' : String} {r : Except String (List α)} :
    key' ∈ (errorEntry key r).map Prod.fst ↔ key' = key ∧ r.isOk = false := by
  cases r with
  | ok items | error e => simp [errorEntry, Except.toBool]

/-- The error the agent looks at is the package backend's. -/
theorem contains_errors_packages (includeRuntimeProcesses : Bool) (r : BackendResults) :
    (discover includeRuntimeProcesses r).errors.contains "packages" = r.failed .packages := by
  rw [discover, ExtTreeMap.contains_ofList, Bool.eq_iff_iff, contains_iff_mem]
  simp only [map_append, mem_append, mem_keys_errorEntry]
  simp [BackendResults.failed]

/-! ## Which keys a scan has -/

/-- Whether lanes hold an item of a type under a key. -/
def Lanes.has (lanes : Lanes) : ItemType → String → Bool
  | .container, key => lanes.containers.contains key
  | .file, key => lanes.files.contains key
  | .service, key => lanes.services.contains key

/-- All stop records of a report. -/
def InventoryReport.stops (report : InventoryReport) : List StoppedItem :=
  report.stoppedContainers ++ report.stoppedFiles ++ report.stoppedServices

section

variable (rejected : ExtTreeMap String Unit)

variable (r : BackendResults) (includeRuntimeProcesses : Bool)

theorem map_containerKey_pods :
    (r.pods includeRuntimeProcesses).map containerKey = (found r.kubernetes).map containerKey := by
  unfold BackendResults.pods
  split
  · rename_i kubernetes cri hk _
    rw [hk, joinCriRuntimeProcesses, map_map]
    rfl
  · rfl

/-- **The keys of a scan** are those that some backend found and that are not rejected. -/
theorem has_scanLanes (r : BackendResults) (type : ItemType) (key : String) :
    (scanLanes rejected (discover includeRuntimeProcesses r).census).has type key = true ↔
      (∃ b, key ∈ r.keysFound b type) ∧ rejected.contains key = false := by
  cases type with
  | container =>
    simp only [has, scanLanes, contains_currentContainers, discover, map_append,
      mem_append, map_containerKey_pods]
    refine and_congr_left fun _ => ⟨?_, ?_⟩
    · rintro ((h | h) | h)
      · exact ⟨.docker, h⟩
      · exact ⟨.kubernetes, h⟩
      · exact ⟨.cri, h⟩
    · rintro ⟨b, hb⟩
      cases b with
      | docker => exact .inl (.inl hb)
      | kubernetes => exact .inl (.inr hb)
      | cri => exact .inr hb
      | files | systemd | packages => cases hb
  | file =>
    simp only [has, scanLanes, contains_currentItems]
    refine and_congr_left fun _ => ⟨fun h => ⟨.files, h⟩, ?_⟩
    rintro ⟨b, hb⟩
    cases b <;> first | exact hb | cases hb
  | service =>
    simp only [has, scanLanes, contains_currentItems]
    refine and_congr_left fun _ => ⟨fun h => ⟨.systemd, h⟩, ?_⟩
    rintro ⟨b, hb⟩
    cases b <;> first | exact hb | cases hb

/-- Only committed items that the scan does not have are reported stopped. -/
theorem has_of_mem_stops {committed : Lanes} {census : Census} {item : StoppedItem}
    (h : item ∈ (scanReport rejected committed census).stops) :
    committed.has item.itemType item.identifier = true ∧
      (scanLanes rejected census).has item.itemType item.identifier = false := by
  simp only [InventoryReport.stops, scanReport, mem_append] at h
  rcases h with (h | h) | h
  all_goals
    obtain ⟨htype, hcurrent, a, ha, -⟩ := mem_stoppedItems.1 h
    rw [htype]
    refine ⟨?_, hcurrent⟩
    rw [has, ExtTreeMap.contains_eq_isSome_getElem?, ha]
    rfl

end

/-! ## Runs -/

/-- What came of a scan: the results, the results behind the committed state it was compared with,
and the reports. -/
structure ScanRecord where
  results : BackendResults
  comparedWith : Option BackendResults
  report : InventoryReport
  packageReport : Option PackageLaneReport

/-- What the agent does with its tracker, in any order. -/
inductive AgentEvent where
  | scan (results : BackendResults)
  | commitScan
  | rollbackScan
  | markRejected (identifier : String)
  | commitPackageScan
  | rollbackPackageScan
  | requirePackageFullResync
  | requireFullResync

/-- A tracker, the last scan, and the results behind the pending and the committed state. -/
structure DiscoveryWorld where
  tracker : ChangeTracker
  lastScan : Option ScanRecord
  (pendingFrom committedFrom : Option BackendResults)

/-- The agent's settings that a scan reads. -/
structure AgentSettings where
  sha : Bytes → String
  agentIdentity : String
  includeRuntimeProcesses : Bool

namespace DiscoveryWorld

def start : DiscoveryWorld := ⟨.new, none, none, none⟩

section

variable (settings : AgentSettings)

/-- A scan and its two reports. A failed package backend leaves the package lane as it is. -/
def scan (w : DiscoveryWorld) (results : BackendResults) : DiscoveryWorld :=
  let discovered := discover settings.includeRuntimeProcesses results
  let inventory := w.tracker.updateFromScan discovered.census
  let packages : Option PackageLaneReport × ChangeTracker :=
    if discovered.errors.contains "packages" then (none, inventory.2)
    else
      let updated := inventory.2.updatePackagesFromScan settings.sha settings.agentIdentity
        discovered.installedPackages
      (some updated.1, updated.2)
  { tracker := packages.2
    lastScan := some ⟨results, w.committedFrom, inventory.1, packages.1⟩
    pendingFrom := some results
    committedFrom := w.committedFrom }

def step (w : DiscoveryWorld) : AgentEvent → DiscoveryWorld
  | .scan results => w.scan settings results
  | .commitScan =>
      { w with
        tracker := w.tracker.commitScan
        committedFrom := w.pendingFrom.or w.committedFrom
        pendingFrom := none }
  | .rollbackScan => { w with tracker := w.tracker.rollbackScan, pendingFrom := none }
  | .markRejected identifier => { w with tracker := w.tracker.markRejected identifier }
  | .commitPackageScan => { w with tracker := w.tracker.commitPackageScan }
  | .rollbackPackageScan => { w with tracker := w.tracker.rollbackPackageScan }
  | .requirePackageFullResync => { w with tracker := w.tracker.requirePackageFullResync }
  | .requireFullResync =>
      { w with
        tracker := w.tracker.requireFullResync
        committedFrom := none
        pendingFrom := none }

end

/-- The item is missing from the scan. When the state was committed it was found by backends, and
none of these failed now. -/
def Gone (last now : BackendResults) (type : ItemType) (key : String) : Prop :=
  (∀ b, key ∉ now.keysFound b type) ∧ (∃ b, key ∈ last.keysFound b type) ∧
    ∀ b, key ∈ last.keysFound b type → now.failed b = false

/-- An item is reported stopped, or dropped by a commit, only if it is missing from a scan in which
the backends that discover it did not fail. -/
structure Justified (w : DiscoveryWorld) : Prop where
  stops : ∀ scan, w.lastScan = some scan → ∀ item ∈ scan.report.stops,
    ∃ last, scan.comparedWith = some last ∧ Gone last scan.results item.itemType item.identifier
  drops : ∀ type key, w.tracker.committed.has type key = true →
    w.tracker.commitScan.committed.has type key = false →
    ∃ last now, w.committedFrom = some last ∧ w.pendingFrom = some now ∧ Gone last now type key
  packages : ∀ scan, w.lastScan = some scan → scan.packageReport.isSome = true →
    scan.results.failed .packages = false

/-- Every committed item that a backend found and now fails to look for is found by another one,
and no committed item that is found is rejected. -/
def Covered (w : DiscoveryWorld) : AgentEvent → Prop
  | .scan results => ∀ last, w.committedFrom = some last → ∀ type key,
      w.tracker.committed.has type key = true → ∀ b,
        results.failed b = true ∧ key ∈ last.keysFound b type ∨ key ∈ results.keysFound b type →
        (∃ b', key ∈ results.keysFound b' type) ∧ w.tracker.rejected.contains key = false
  | _ => True

/-! ### The invariant -/

variable {settings : AgentSettings} {w : DiscoveryWorld}

/-- The lanes are those of a scan with the given results, under some rejections. -/
def ScannedFrom (settings : AgentSettings) (results : BackendResults) (lanes : Lanes) : Prop :=
  ∃ rejected, lanes = scanLanes rejected (discover settings.includeRuntimeProcesses results).census

/-- Justified so far, and the committed and the pending state come from the recorded results. -/
structure Recorded (settings : AgentSettings) (w : DiscoveryWorld) : Prop where
  justified : w.Justified
  fresh : w.committedFrom = none → w.tracker.committed = .empty
  committed : ∀ last, w.committedFrom = some last → ScannedFrom settings last w.tracker.committed
  idle : w.pendingFrom = none → w.tracker.commitScan.committed = w.tracker.committed
  pending : ∀ now, w.pendingFrom = some now →
    ScannedFrom settings now w.tracker.commitScan.committed

variable {type : ItemType} {key : String} {results : BackendResults} {t : ChangeTracker}
  (ev : AgentEvent)

variable (h : w.Recorded settings)

include h

theorem Recorded.found_of_committed (hkey : w.tracker.committed.has type key = true) :
    ∃ last, w.committedFrom = some last ∧ ∃ b, key ∈ last.keysFound b type := by
  cases hfrom : w.committedFrom with
  | none =>
    rw [h.fresh hfrom] at hkey
    cases type <;> simp [has, empty] at hkey
  | some last =>
    obtain ⟨rejected, hlanes⟩ := h.committed last hfrom
    rw [hlanes, has_scanLanes] at hkey
    exact ⟨last, rfl, hkey.1⟩

omit h in
theorem recorded_start : start.Recorded settings where
  justified :=
    { stops := fun _ h => nomatch h
      drops := by
        intro type key hkey _
        cases type <;> simp [start, committed, new, has] at hkey
      packages := fun _ h => nomatch h }
  fresh := fun _ => rfl
  committed := fun _ h => nomatch h
  idle := fun _ => rfl
  pending := fun _ h => nomatch h

/-- A committed item that a covered scan does not have is gone. -/
theorem Recorded.gone (hcovered : w.Covered (.scan results))
    (hkey : w.tracker.committed.has type key = true)
    (hscan : (scanLanes w.tracker.rejected
    (discover settings.includeRuntimeProcesses results).census).has type key = false) :
    ∃ last, w.committedFrom = some last ∧ Gone last results type key := by
  obtain ⟨last, hfrom, hfound⟩ := h.found_of_committed hkey
  rw [← Bool.not_eq_true, has_scanLanes] at hscan
  refine ⟨last, hfrom, fun b hb => ?_, hfound, fun b hb => ?_⟩
  · exact hscan (hcovered last hfrom type key hkey b (.inr hb))
  · by_contra hfailed
    exact hscan (hcovered last hfrom type key hkey b (.inl ⟨by simpa using hfailed, hb⟩))

omit h in
theorem commitScan_scan (settings : AgentSettings) (w : DiscoveryWorld) (results : BackendResults) :
    (w.scan settings results).tracker.committed = w.tracker.committed ∧
      (w.scan settings results).tracker.commitScan.committed =
        scanLanes w.tracker.rejected
          (discover settings.includeRuntimeProcesses results).census := by
  simp only [scan]
  split
  · exact ⟨rfl, rfl⟩
  · exact ⟨rfl, rfl⟩

theorem Recorded.scan (hcovered : w.Covered (.scan results)) :
    (w.scan settings results).Recorded settings := by
  obtain ⟨hcommitted, hpending⟩ := commitScan_scan settings w results
  refine ⟨⟨?_, ?_, ?_⟩, ?_, ?_, (fun hnone => nomatch hnone), ?_⟩
  · intro scan hscan item hitem
    cases hscan
    obtain ⟨hkey, hgone⟩ := has_of_mem_stops w.tracker.rejected hitem
    exact h.gone hcovered hkey hgone
  · intro type key hkey hdrop
    rw [hcommitted] at hkey
    rw [hpending] at hdrop
    obtain ⟨last, hfrom, hgone⟩ := h.gone hcovered hkey hdrop
    exact ⟨last, results, hfrom, rfl, hgone⟩
  · intro scan hscan hreport
    cases hscan
    rw [← contains_errors_packages settings.includeRuntimeProcesses]
    by_contra hfailed
    rw [if_pos (by simpa using hfailed)] at hreport
    cases hreport
  · intro hfrom
    rw [hcommitted]
    exact h.fresh hfrom
  · intro last hfrom
    rw [hcommitted]
    exact h.committed last hfrom
  · intro now hnow
    cases hnow
    exact ⟨_, hpending⟩

/-- What changes neither the committed nor the pending lanes. -/
theorem Recorded.of_same_lanes (hcommitted : t.committed = w.tracker.committed)
    (hpending : t.commitScan.committed = w.tracker.commitScan.committed) :
    Recorded settings { w with tracker := t } where
  justified :=
    { stops := h.justified.stops
      drops := by
        intro type key hkey hdrop
        rw [hcommitted] at hkey
        rw [hpending] at hdrop
        exact h.justified.drops type key hkey hdrop
      packages := h.justified.packages }
  fresh := fun hnone => hcommitted.trans (h.fresh hnone)
  committed := fun last hlast => hcommitted ▸ h.committed last hlast
  idle := fun hnone => hpending.trans ((h.idle hnone).trans hcommitted.symm)
  pending := fun now hnow => hpending ▸ h.pending now hnow

/-- With nothing pending, a commit drops nothing. -/
theorem Recorded.of_idle {from' : Option BackendResults}
    (hidle : t.commitScan.committed = t.committed) (hfresh : from' = none → t.committed = .empty)
    (hcommitted : ∀ last, from' = some last → ScannedFrom settings last t.committed) :
    Recorded settings ⟨t, w.lastScan, none, from'⟩ where
  justified :=
    { stops := h.justified.stops
      drops := by
        intro type key hkey hdrop
        rw [hidle, hkey] at hdrop
        cases hdrop
      packages := h.justified.packages }
  fresh := hfresh
  committed := hcommitted
  idle := fun _ => hidle
  pending := fun _ hnow => nomatch hnow

theorem Recorded.step (ev : AgentEvent) (hcovered : w.Covered ev) :
    (w.step settings ev).Recorded settings := by
  cases ev with
  | scan results => exact h.scan hcovered
  | commitScan =>
    refine h.of_idle rfl ?_ ?_
    · intro hnone
      obtain ⟨hpending, hcommitted⟩ := Option.or_eq_none_iff.1 hnone
      exact (h.idle hpending).trans (h.fresh hcommitted)
    · intro last hlast
      cases hpending : w.pendingFrom with
      | none =>
        rw [hpending] at hlast
        rw [show w.tracker.commitScan.committed = _ from h.idle hpending]
        exact h.committed last hlast
      | some now =>
        rw [hpending, Option.some_or, Option.some.injEq] at hlast
        exact hlast ▸ h.pending now hpending
  | rollbackScan => exact h.of_idle rfl h.fresh h.committed
  | markRejected identifier => exact h.of_same_lanes rfl rfl
  | commitPackageScan =>
    refine h.of_same_lanes ?_ ?_
    all_goals
      unfold commitPackageScan
      split
      · rfl
      · rfl
  | rollbackPackageScan | requirePackageFullResync => exact h.of_same_lanes rfl rfl
  | requireFullResync => exact h.of_idle rfl (fun _ => rfl) (fun _ hlast => nomatch hlast)

omit h

theorem Recorded.covered (hafter : (w.step settings ev).Justified) : w.Covered ev := by
  cases ev with
  | scan results =>
    intro last hlast type key hkey b hb
    obtain ⟨hcommitted, hpending⟩ := commitScan_scan settings w results
    by_contra hlost
    have hdrop : (w.scan settings results).tracker.commitScan.committed.has type key = false := by
      rw [hpending, ← Bool.not_eq_true, has_scanLanes]
      exact hlost
    obtain ⟨last', now, hlast', hnow, hmissing, -, hok⟩ :=
      hafter.drops type key (by rw [← hkey, ← hcommitted]; rfl) hdrop
    obtain rfl : last = last' := Option.some.inj (hlast.symm.trans hlast')
    obtain rfl : results = now := Option.some.inj hnow
    rcases hb with ⟨hfailed, hb⟩ | hb
    · rw [hok b hb] at hfailed
      cases hfailed
    · exact hmissing b hb
  | _ => trivial

/-- **Backend failures.** Along a run, stops and drops are justified throughout exactly when every
scan finds again each committed item of a backend that fails in it, and rejects none it finds. -/
theorem stops_justified (settings : AgentSettings) (events : List AgentEvent) :
    Always (step settings) Justified start events ↔ Each (step settings) Covered start events :=
  always_iff_each (fun _ h => h.justified)
    (fun _ ev h hcovered => h.step ev hcovered) (fun _ ev _ hafter => Recorded.covered ev hafter)
    recorded_start events

/-! ### A failed backend -/

/-- Results with the given containers from Docker and from CRI, and nothing else. -/
def containerResults (docker cri : Except String (List Container)) : BackendResults :=
  ⟨docker, .ok [], cri, .ok [], .ok [], .ok []⟩

/-- A scan that finds a container, and one in which the Docker daemon does not answer. -/
def dockerOutage : List AgentEvent :=
  [.scan (containerResults (.ok [InventoryWorld.replicaLoggingTo "1" ""]) (.ok [])), .commitScan,
    .scan (containerResults (.error "connection refused") (.ok []))]

def plainSettings : AgentSettings := ⟨fun _ => "", "agent", false⟩

/-- The container is reported stopped, and the commit drops it. -/
theorem outage_stops_container :
    ((dockerOutage.foldl (step plainSettings) start).lastScan.map fun scan =>
        (scan.results.failed .docker, scan.report.stops)) =
      some (true, [⟨"web", .container, false⟩]) ∧
      (dockerOutage.foldl (step plainSettings) start).tracker.committed.has .container "web" =
        true ∧
      ((dockerOutage ++ [AgentEvent.commitScan]).foldl (step plainSettings)
        start).tracker.committed.has .container "web" = false ∧
      ¬ Always (step plainSettings) Justified start dockerOutage := by
  refine ⟨by decide +kernel, by decide +kernel, by decide +kernel, fun h => ?_⟩
  obtain ⟨last, now, hlast, hnow, -, -, hok⟩ :=
    h.last.drops .container "web" (by decide +kernel) (by decide +kernel)
  cases hlast
  cases hnow
  have hfound := hok .docker (by decide +kernel)
  cases hfound

end DiscoveryWorld

end EdgePacer.Inventory
