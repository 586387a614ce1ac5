import EdgePacer.Inventory.Tracker
import EdgePacer.Lib.Trace

/-!
# Replicating the package lane

A receiver applies every package report whose scan is committed: it takes over a full snapshot, and
applies a delta if the delta's baseline is the digest of what it holds. `packages_in_sync` says that
along every run of the tracker the receiver never turns a delta away, holds after every commit
exactly the packages of the scan committed last, and sees the sequence numbers 1, 2, 3 and so on.

The tie is `Synced`: as long as a scan is pending, its report is the one the tracker would make now,
because whatever changes the committed packages or asks for a snapshot also drops the pending scan.
-/

namespace EdgePacer.Inventory

open Lib List PackageInventoryEvent ChangeTracker
open Std (ExtTreeMap)

/-! ## What the events of a report say -/

variable (packages : List Package)

theorem getElem?_packageState (k : String) :
    (packageState packages)[k]? = lastFor k (packages.map fun p => (packageItemId p, p)) := by
  rw [packageState, getElem?_foldl_insert]
  simp

/-- A package is kept under its own item. -/
theorem packageItemId_of_getElem? {packages : List Package} {k : String} {p : Package}
    (h : (packageState packages)[k]? = some p) : packageItemId p = k := by
  rw [getElem?_packageState] at h
  induction packages with
  | nil => cases h
  | cons q packages ih =>
    rw [map_cons, lastFor, Option.or_eq_some_iff] at h
    rcases h with hlater | ⟨-, hhere⟩
    · exact ih hlater
    · split at hhere
      · rename_i hkey
        cases hhere
        exact hkey
      · cases hhere

theorem packageState_toList :
    packageState ((packageState packages).toList.map Prod.snd) = packageState packages := by
  apply ExtTreeMap.ext_getElem?
  intro k
  have hpairs : ((packageState packages).toList.map Prod.snd).map
      (fun p => (packageItemId p, p)) = (packageState packages).toList := by
    rw [map_map]
    refine (map_congr_left fun e he => ?_).trans (map_id _)
    have hitem := packageItemId_of_getElem? (ExtTreeMap.mem_toList_iff_getElem?_eq_some.1 he)
    exact Prod.ext hitem rfl
  rw [getElem?_packageState, hpairs, lastFor_toList]

/-- What a receiver does for an event: store the package of an upsert, or remove the item. -/
def PackageInventoryEvent.op (e : PackageInventoryEvent) : String × Option Package :=
  (e.itemId, if e.operation = .upsert then e.package else none)

section

variable (sha : Bytes → String) (agentIdentity : String) (previous current : PackageState)

/-- The operations of a delta: puts of what is new or different, removals of what is gone. -/
theorem map_op_packageEvents :
    (packageEvents sha agentIdentity false previous current).map op =
      (current.toList.filter fun e => previous[e.1]? ≠ current[e.1]?).map
          (fun e => (e.1, some e.2)) ++
        (previous.toList.filter fun e => !current.contains e.1).map fun e => (e.1, none) := by
  have hsame : ∀ e ∈ current.toList,
      decide (previous[e.1]? ≠ some e.2) = decide (previous[e.1]? ≠ current[e.1]?) := by
    intro e he
    rw [ExtTreeMap.mem_toList_iff_getElem?_eq_some.1 he]
  rw [packageEvents, if_neg Bool.false_ne_true, map_append, map_map, map_map, filter_congr hsame]
  rfl

theorem nodup_items_packageEvents :
    (((packageEvents sha agentIdentity false previous current).map op).map Prod.fst).Nodup := by
  rw [map_op_packageEvents, map_append, map_map, map_map, nodup_append']
  refine ⟨?_, ?_, ?_⟩
  · exact (nodup_fst_toList current).sublist (filter_sublist.map _)
  · exact (nodup_fst_toList previous).sublist (filter_sublist.map _)
  · -- a removed item is not in the current table
    intro k hput hgone
    obtain ⟨e, he, rfl⟩ := mem_map.1 hput
    obtain ⟨e', he', hkey⟩ := mem_map.1 hgone
    have hin : current[e.1]? = some e.2 :=
      ExtTreeMap.mem_toList_iff_getElem?_eq_some.1 (mem_of_mem_filter he)
    have hout := (mem_filter.1 he').2
    change e'.1 = e.1 at hkey
    rw [hkey, ExtTreeMap.contains_eq_isSome_getElem?, hin] at hout
    simp at hout

/-- A delta tells a receiver of the previous packages about the current ones. -/
theorem packageEvents_tells (k : String) :
    lastFor k (((packageEvents sha agentIdentity false previous current).insertionSort
        fun a b => eventLe a b).map op) =
      tell id id previous[k]? current[k]? := by
  have hperm := (perm_insertionSort (fun a b => eventLe a b)
    (packageEvents sha agentIdentity false previous current)).map op
  rw [← lastFor_perm hperm.symm (nodup_items_packageEvents sha agentIdentity previous current),
    map_op_packageEvents, lastFor_append, lastFor_map_snd k some,
    lastFor_map_snd k fun _ => none, lastFor_filter k (fun k => !current.contains k),
    lastFor_toList, lastFor_filter k (fun k => decide (previous[k]? ≠ current[k]?)), lastFor_toList,
    ExtTreeMap.contains_eq_isSome_getElem?]
  cases previous[k]? with
  | none => cases current[k]? <;> simp [Lib.tell]
  | some old =>
    cases current[k]? with
    | none => simp [Lib.tell]
    | some new => by_cases h : old = new <;> simp [Lib.tell, h]

end

/-! ## The receiver -/

structure PackageReceiver where
  packages : PackageState
  /-- The sequence numbers of the reports received. -/
  sequences : List Nat
  /-- How many deltas were turned away. -/
  refused : Nat

variable (sha : Bytes → String)

/-- Take over a snapshot; apply a delta whose baseline is what the receiver holds. -/
def PackageReceiver.receive (r : PackageReceiver) (report : PackageLaneReport) : PackageReceiver :=
  let sequences := r.sequences ++ [report.agentSequence]
  if report.fullSnapshot then
    { r with packages := packageState report.installedPackages, sequences := sequences }
  else if report.baselineId = packageBaselineId (packageStateDigest sha r.packages) then
    { r with
      packages := applyOps r.packages (report.events.map op)
      sequences := sequences }
  else { r with sequences := sequences, refused := r.refused + 1 }

/-- A receiver that holds the committed packages is left with the scanned ones. -/
theorem PackageReceiver.receive_packageReport (r : PackageReceiver)
    (t : ChangeTracker) (agentIdentity : String) (packages : List Package)
    (h : t.forcePackageFullSnapshot = false → r.packages = t.committedPackages) :
    r.receive sha (t.packageReport sha agentIdentity packages) =
      { packages := packageState packages
        sequences := r.sequences ++ [t.nextPackageSequence]
        refused := r.refused } := by
  cases hfull : t.forcePackageFullSnapshot with
  | true => simp [receive, packageReport, hfull, packageState_toList]
  | false =>
    have happly : applyOps r.packages
        ((t.packageReport sha agentIdentity packages).events.map op) = packageState packages := by
      apply ExtTreeMap.ext_getElem?
      intro k
      have hheld : ∀ k : String, r.packages[k]? = t.committedPackages[k]?.map id := fun k => by
        rw [h hfull, Option.map_id, id]
      rw [packageReport, hfull, getElem?_applyOps_of_tells id id
        (packageEvents_tells sha agentIdentity t.committedPackages (packageState packages)) hheld
        (fun _ => rfl), settle_id, Option.map_id, id]
    rw [receive, happly]
    simp [packageReport, hfull, h hfull]

/-! ## Runs -/

/-- A tracker with the report of its last package scan, the receiver of the committed reports, and
the number of commits and the scan committed last. -/
structure PackageWorld where
  tracker : ChangeTracker
  report : Option PackageLaneReport
  scanned : List Package
  receiver : PackageReceiver
  commits : Nat
  committedScan : Option (List Package)

namespace PackageWorld

/-- A new tracker and a receiver that holds whatever it holds. -/
def start (packages : PackageState) : PackageWorld := ⟨.new, none, [], ⟨packages, [], 0⟩, 0, none⟩

/-- The tracker's step; the receiver gets a report when its scan is committed. -/
def step (sha : Bytes → String) (w : PackageWorld) (ev : TrackerEvent) : PackageWorld :=
  let w' := { w with tracker := w.tracker.step sha ev }
  match ev with
  | .packageScan agentIdentity packages =>
      { w' with
        report := some (w.tracker.updatePackagesFromScan sha agentIdentity packages).1
        scanned := packages }
  | .commitPackageScan =>
      match w.tracker.pendingPackages, w.report with
      | some _, some report =>
          { w' with
            receiver := w.receiver.receive sha report
            commits := w.commits + 1
            committedScan := some w.scanned }
      | _, _ => w'
  | _ => w'

/-- The receiver turned no delta away, saw one sequence number per commit, counted from 1, and
holds the packages of the scan committed last, as the tracker does. -/
structure InSync (w : PackageWorld) : Prop where
  refused : w.receiver.refused = 0
  sequences : w.receiver.sequences = List.range' 1 w.commits
  packages : ∀ scan, w.committedScan = some scan →
    w.receiver.packages = packageState scan ∧ w.tracker.committedPackages = packageState scan

/-- In sync, and the pending scan's report is the one the tracker would make now. -/
structure Synced (sha : Bytes → String) (w : PackageWorld) : Prop extends InSync w where
  next : w.tracker.nextPackageSequence = w.commits + 1
  based : w.tracker.forcePackageFullSnapshot = false → ∃ scan, w.committedScan = some scan
  pending : ∀ packages, w.tracker.pendingPackages = some packages →
    packages = packageState w.scanned ∧
      ∃ agentIdentity, w.report = some (w.tracker.packageReport sha agentIdentity w.scanned)

theorem synced_start (packages : PackageState) : (start packages).Synced sha where
  refused := rfl
  sequences := rfl
  packages := fun _ h => by cases h
  next := rfl
  based := fun h => by cases h
  pending := fun _ h => by cases h

variable {sha : Bytes → String} {w : PackageWorld}

/-- Whatever leaves the package lane alone, or only drops the pending scan, keeps the tie. -/
theorem Synced.of_frame (h : w.Synced sha) {t : ChangeTracker}
    (hcommitted : t.committedPackages = w.tracker.committedPackages)
    (hnext : t.nextPackageSequence = w.tracker.nextPackageSequence)
    (hforce : t.forcePackageFullSnapshot = false → w.tracker.forcePackageFullSnapshot = false)
    (hpending : t.pendingPackages = none ∨ t.pendingPackages = w.tracker.pendingPackages ∧
      t.forcePackageFullSnapshot = w.tracker.forcePackageFullSnapshot) :
    ({ w with tracker := t } : PackageWorld).Synced sha where
  refused := h.refused
  sequences := h.sequences
  packages := fun scan hscan => by
    rw [hcommitted]
    exact h.packages scan hscan
  next := hnext.trans h.next
  based := fun hfalse => h.based (hforce hfalse)
  pending := fun packages hp => by
    rcases hpending with hnone | ⟨hsame, hflag⟩
    · cases hnone.symm.trans hp
    · obtain ⟨hscan, agentIdentity, hreport⟩ := h.pending packages (hsame ▸ hp)
      refine ⟨hscan, agentIdentity, hreport.trans ?_⟩
      rw [packageReport, packageReport, hcommitted, hnext, hflag]

theorem Synced.step (h : w.Synced sha) (ev : TrackerEvent) : (w.step sha ev).Synced sha := by
  cases ev with
  | scan census | commitScan | rollbackScan | markRejected identifier =>
    exact h.of_frame rfl rfl id (.inr ⟨rfl, rfl⟩)
  | rollbackPackageScan => exact h.of_frame rfl rfl id (.inl rfl)
  | requirePackageFullResync | requireFullResync =>
    exact h.of_frame rfl rfl (fun hf => by cases hf) (.inl rfl)
  | packageScan agentIdentity packages =>
    exact
      { refused := h.refused
        sequences := h.sequences
        packages := h.packages
        next := h.next
        based := h.based
        pending := fun p hp => ⟨(Option.some.inj hp).symm, agentIdentity, rfl⟩ }
  | commitPackageScan =>
    cases hp : w.tracker.pendingPackages with
    | none =>
      have hsame : w.step sha .commitPackageScan = { w with tracker := w.tracker } := by
        simp [PackageWorld.step, ChangeTracker.step, ChangeTracker.commitPackageScan, hp]
      rw [hsame]
      exact h
    | some packages =>
      obtain ⟨hscan, agentIdentity, hreport⟩ := h.pending packages hp
      -- the receiver holds the committed packages unless a snapshot is due
      have hbase : w.tracker.forcePackageFullSnapshot = false →
          w.receiver.packages = w.tracker.committedPackages := by
        intro hfalse
        obtain ⟨scan, hcommitted⟩ := h.based hfalse
        obtain ⟨hreceiver, htracker⟩ := h.packages scan hcommitted
        rw [hreceiver, htracker]
      have hreceived := w.receiver.receive_packageReport sha w.tracker agentIdentity w.scanned hbase
      have hstep : w.step sha .commitPackageScan =
          { w with
            tracker := { w.tracker with
              pendingPackages := none
              committedPackages := packages
              forcePackageFullSnapshot := false
              nextPackageSequence := w.tracker.nextPackageSequence + 1 }
            receiver :=
              { packages := packageState w.scanned
                sequences := w.receiver.sequences ++ [w.tracker.nextPackageSequence]
                refused := w.receiver.refused }
            commits := w.commits + 1
            committedScan := some w.scanned } := by
        simp [PackageWorld.step, ChangeTracker.step, ChangeTracker.commitPackageScan, hp, hreport,
          hreceived]
      rw [hstep]
      exact
        { refused := h.refused
          sequences := by
            rw [h.sequences, h.next, List.range'_concat, Nat.one_mul, Nat.add_comm 1]
          packages := fun scan hs => by
            cases hs
            exact ⟨rfl, hscan⟩
          next := by
            rw [h.next]
          based := fun _ => ⟨_, rfl⟩
          pending := fun _ hnone => by cases hnone }

end PackageWorld

end EdgePacer.Inventory
