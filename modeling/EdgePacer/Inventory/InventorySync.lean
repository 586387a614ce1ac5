import EdgePacer.Inventory.Tracker
import EdgePacer.Lib.Trace

/-!
# Replicating the inventory lanes

A receiver applies every inventory report whose scan is committed: a full report replaces what it
holds, a delta puts the reported items and removes the stopped ones. Files and services are only
reported when their identifier is new, and a container group when it is new or changed in what the
tracker watches (`watched`), so the receiver does not hold the items of the last scan as they are
now. `inventory_mirrored` says what it does hold: exactly the keys of the scan committed last, each
with the item it was last told about (`Held`), which for a container group agrees with the scan in
everything watched. `unwatched_unreported` shows what it misses, such as the growth of a known file.
-/

namespace EdgePacer.Inventory

open Lib Option
open Std (ExtTreeMap)

/-! ## What the tracker watches -/

/-- The facts about a replica whose change makes the tracker report its group again. -/
structure ReplicaFacts where
  (state image logFormat : String)
  identifiers : ExtTreeMap String String
  deriving DecidableEq

def watched (replicas : List Container) : List ReplicaFacts :=
  replicas.map fun c => ⟨c.state, c.image, c.logFormat, c.identifierSet⟩

theorem containersChanged_eq_false_iff (prev current : List Container) :
    containersChanged prev current = false ↔ watched prev = watched current := by
  induction prev generalizing current with
  | nil => cases current <;> simp [containersChanged, watched]
  | cons p prev ih =>
    cases current with
    | nil => simp [containersChanged, watched]
    | cons c current =>
      have htail := ih current
      simp only [containersChanged, watched, Bool.or_eq_false_iff, List.any_eq_false] at htail ⊢
      simp only [List.length_cons, List.zip_cons_cons, List.mem_cons, forall_eq_or_imp,
        List.map_cons, List.cons.injEq, ← htail, ReplicaFacts.mk.injEq]
      simp only [bne_eq_false_iff_eq, Nat.add_right_cancel_iff, Bool.not_eq_true,
        Bool.or_eq_false_iff, decide_eq_false_iff_not]
      tauto

variable {replicas : List Container} {c : Container} {α : Type}

theorem mem_of_mem_trackedReplicas (h : c ∈ trackedReplicas replicas) : c ∈ replicas := by
  have hsorted : c ∈ replicas.insertionSort fun a b => replicaLe a b := by
    rw [trackedReplicas] at h
    split at h
    · exact List.mem_of_mem_filter h
    · exact h
  exact (List.perm_insertionSort _ _).subset hsorted

theorem trackedReplicas_ne_nil (h : replicas ≠ []) : trackedReplicas replicas ≠ [] := by
  rw [trackedReplicas]
  split
  · rename_i hany
    obtain ⟨c, hc, hrunning⟩ := List.any_eq_true.1 hany
    exact List.ne_nil_of_mem (List.mem_filter.2 ⟨hc, hrunning⟩)
  · intro hnil
    have hlen := (List.perm_insertionSort (fun a b => replicaLe a b) replicas).length_eq
    rw [hnil] at hlen
    exact h (List.length_eq_zero_iff.1 hlen.symm)

theorem mem_of_mem_reportContainerGroup (h : c ∈ reportContainerGroup replicas) : c ∈ replicas := by
  rw [reportContainerGroup] at h
  split at h
  · exact h
  · exact List.mem_of_mem_head? (mem_toList.1 h)

theorem reportContainerGroup_ne_nil (h : replicas ≠ []) : reportContainerGroup replicas ≠ [] := by
  rw [reportContainerGroup]
  split
  · exact h
  · cases replicas with
    | nil => exact absurd rfl h
    | cons c replicas => simp

/-! ## What a report tells -/

/-- Removals of stopped items. -/
def stopOps {α : Type} (stopped : List StoppedItem) : List (String × Option α) :=
  stopped.map fun s => (s.identifier, none)

section

variable (rejected : ExtTreeMap String Unit)

variable {α : Type} (committed : ExtTreeMap String α) (identifier : α → String) (items : List α)
  {census : Census} (key : String)

theorem lastFor_stopOps {γ : Type} (current : ExtTreeMap String α) (itemType : ItemType)
    (explicit : α → Bool) (k : String) :
    lastFor k (stopOps (α := γ) (stoppedItems committed current itemType explicit)) =
      if current[k]? = none ∧ committed[k]? ≠ none then some none else none := by
  rw [stopOps, stoppedItems, List.map_map]
  change lastFor k (List.map (fun e : String × α => (e.1, (none : Option γ))) _) = _
  rw [lastFor_map_snd k fun _ => none, lastFor_filter k fun k => !current.contains k,
    lastFor_toList, ExtTreeMap.contains_eq_isSome_getElem?]
  cases current[k]? with
  | some _ => simp
  | none => cases committed[k]? <;> simp

variable (k : String)

theorem getElem?_currentItems :
    (currentItems rejected identifier items)[k]? =
      lastFor k ((unrejected rejected identifier items).map fun a => (identifier a, a)) := by
  rw [currentItems, getElem?_foldl_insert]
  simp

/-- Puts of new items and removals of stopped ones tell about a lane tracked by identifier. -/
theorem newItems_tells (committed : ExtTreeMap String α) (items : List α) (itemType : ItemType)
    (k : String) :
    lastFor k ((newItems rejected identifier committed items).map
        (fun a => (identifier a, some a)) ++
      stopOps (stoppedItems committed (currentItems rejected identifier items) itemType
        fun _ => false)) =
      tell (fun _ => ()) id committed[k]? (currentItems rejected identifier items)[k]? := by
  have hnew : (newItems rejected identifier committed items).map
      (fun a => (identifier a, some a)) =
      (((unrejected rejected identifier items).map fun a => (identifier a, a)).filter
        fun e => !committed.contains e.1).map fun e => (e.1, some e.2) := by
    rw [List.filter_map, List.map_map]
    rfl
  rw [lastFor_append, lastFor_stopOps, hnew, lastFor_map_snd k some,
    lastFor_filter k fun k => !committed.contains k, ← getElem?_currentItems,
    ExtTreeMap.contains_eq_isSome_getElem?]
  cases committed[k]? with
  | none | some old => cases (currentItems rejected identifier items)[k]? <;> simp [Lib.tell]

/-- A tracked group: not empty, and every replica is tracked under the group's key. -/
theorem currentContainers_group {k : String} {replicas : List Container}
    (h : (currentContainers rejected census)[k]? = some replicas) :
    replicas ≠ [] ∧ ∀ c ∈ replicas, containerKey c = k := by
  rw [currentContainers, ExtTreeMap.getElem?_map, getElem?_groupByKey] at h
  split at h
  · cases h
  · rename_i hne
    cases h
    refine ⟨trackedReplicas_ne_nil hne, fun c hc => ?_⟩
    have hmem := List.mem_filter.1 (mem_of_mem_trackedReplicas hc)
    exact of_decide_eq_true hmem.2

theorem mem_containerOrder_iff {k : String} :
    k ∈ containerOrder rejected census ↔ (currentContainers rejected census)[k]? ≠ none := by
  rw [containerOrder, mem_firstSightings, currentContainers, ExtTreeMap.getElem?_map,
    getElem?_groupByKey, List.mem_map]
  constructor
  · rintro ⟨c, hc, rfl⟩
    rw [if_neg (List.ne_nil_of_mem (List.mem_filter.2 ⟨hc, decide_eq_true rfl⟩))]
    simp
  · intro hsome
    split at hsome
    · exact absurd rfl hsome
    · rename_i hne
      obtain ⟨c, hc⟩ := List.exists_mem_of_ne_nil _ hne
      exact ⟨c, (List.mem_filter.1 hc).1, of_decide_eq_true (List.mem_filter.1 hc).2⟩

/-- The reported containers of a key are its group's report form, if the group is selected. -/
theorem filter_reportedContainers (committed : ExtTreeMap String (List Container))
    (census : Census) (report : Option (List Container) → List Container → Bool) (k : String) :
    (reportedContainers rejected committed census report).filter (fun c => containerKey c = k) =
      match (currentContainers rejected census)[k]? with
      | none => []
      | some replicas =>
          if report committed[k]? replicas then reportContainerGroup replicas else [] := by
  rw [reportedContainers, filter_flatMap_key containerKey _ (containerOrder rejected census)
    (nodup_firstSightings _)]
  · cases hk : (currentContainers rejected census)[k]? with
    | none => rw [if_neg fun hmem => (mem_containerOrder_iff rejected).1 hmem hk]
    | some replicas =>
      rw [if_pos ((mem_containerOrder_iff rejected).2 (by simp [hk]))]
      simp only [ExtTreeMap.getD_eq_getD_getElem?, hk, getD_some]
  · intro id hid c hc
    obtain ⟨replicas, hreplicas⟩ := ne_none_iff_exists'.1 ((mem_containerOrder_iff rejected).1 hid)
    simp only [ExtTreeMap.getD_eq_getD_getElem?, hreplicas] at hc
    split at hc
    · exact (currentContainers_group rejected hreplicas).2 c (mem_of_mem_reportContainerGroup hc)
    · cases hc

theorem mem_map_unrejected :
    key ∈ (unrejected rejected identifier items).map identifier ↔
      key ∈ items.map identifier ∧ rejected.contains key = false := by
  constructor
  · intro h
    obtain ⟨a, ha, rfl⟩ := List.mem_map.1 h
    obtain ⟨ha, hrej⟩ := List.mem_filter.1 ha
    exact ⟨List.mem_map_of_mem ha, by simpa using hrej⟩
  · rintro ⟨h, hrej⟩
    obtain ⟨a, ha, rfl⟩ := List.mem_map.1 h
    exact List.mem_map_of_mem (List.mem_filter.2 ⟨ha, by simpa using hrej⟩)

theorem contains_currentItems :
    (currentItems rejected identifier items).contains key = true ↔
      key ∈ items.map identifier ∧ rejected.contains key = false := by
  rw [ExtTreeMap.contains_eq_isSome_getElem?, getElem?_currentItems, ← ne_none_iff_isSome,
    Ne, lastFor_eq_none_iff, not_not, List.map_map]
  exact mem_map_unrejected rejected identifier items key

theorem contains_currentContainers (census : Census) (key : String) :
    (currentContainers rejected census).contains key = true ↔
      key ∈ census.containers.map containerKey ∧ rejected.contains key = false := by
  rw [ExtTreeMap.contains_eq_isSome_getElem?, ← ne_none_iff_isSome,
    ← mem_containerOrder_iff, containerOrder, mem_firstSightings]
  exact mem_map_unrejected rejected containerKey census.containers key

end

/-- A stop record is of a committed item that is not in the scan. -/
theorem mem_stoppedItems {committed current : ExtTreeMap String α} {itemType : ItemType}
    {explicit : α → Bool} {item : StoppedItem} :
    item ∈ stoppedItems committed current itemType explicit ↔
      item.itemType = itemType ∧ current.contains item.identifier = false ∧
        ∃ a, committed[item.identifier]? = some a ∧ item.explicitService = explicit a := by
  constructor
  · intro h
    obtain ⟨e, he, rfl⟩ := List.mem_map.1 h
    obtain ⟨he, hcurrent⟩ := List.mem_filter.1 he
    exact ⟨rfl, by simpa using hcurrent, e.2, ExtTreeMap.mem_toList_iff_getElem?_eq_some.1 he, rfl⟩
  · obtain ⟨key, type, service⟩ := item
    rintro ⟨rfl, hcurrent, a, ha, rfl⟩
    exact List.mem_map.2 ⟨(key, a), List.mem_filter.2
      ⟨ExtTreeMap.mem_toList_iff_getElem?_eq_some.2 ha, by simpa using hcurrent⟩, rfl⟩

/-! ## The receiver -/

structure InventoryReceiver where
  /-- The reported containers of every key. -/
  containers : ExtTreeMap String (List Container)
  files : ExtTreeMap String LogFile
  services : ExtTreeMap String SystemdService

/-- The operations of a report, lane by lane. -/
def InventoryReport.containerOps (report : InventoryReport) :
    List (String × Option (List Container)) :=
  (groupByKey containerKey (report.newContainers ++ report.changedContainers)).toList.map
      (fun e => (e.1, some e.2)) ++
    stopOps report.stoppedContainers

def InventoryReport.fileOps (report : InventoryReport) : List (String × Option LogFile) :=
  report.newFiles.map (fun f => (f.identifier, some f)) ++ stopOps report.stoppedFiles

def InventoryReport.serviceOps (report : InventoryReport) : List (String × Option SystemdService) :=
  report.newServices.map (fun s => (s.identifier, some s)) ++ stopOps report.stoppedServices

/-- A full report replaces what is held; a delta puts and removes. -/
def InventoryReceiver.receive (r : InventoryReceiver) (full : Bool) (report : InventoryReport) :
    InventoryReceiver where
  containers := applyOps (if full then ∅ else r.containers) report.containerOps
  files := applyOps (if full then ∅ else r.files) report.fileOps
  services := applyOps (if full then ∅ else r.services) report.serviceOps

variable (rejected : ExtTreeMap String Unit) (committed : Lanes) (census : Census) (k : String)

/-- The reported containers of a key are what the report tells of its group. -/
theorem filter_reported :
    (((scanReport rejected committed census).newContainers ++
        (scanReport rejected committed census).changedContainers).filter
      fun c => containerKey c = k) =
      ((tell watched reportContainerGroup committed.containers[k]?
        (scanLanes rejected census).containers[k]?).getD none).getD [] := by
  simp only [List.filter_append, scanReport, scanLanes, filter_reportedContainers]
  cases (currentContainers rejected census)[k]? with
  | none => cases committed.containers[k]? <;> simp [Lib.tell]
  | some replicas =>
    cases committed.containers[k]? with
    | none => simp [Lib.tell]
    | some prev =>
      by_cases hsame : watched prev = watched replicas
      · have hkeep := (containersChanged_eq_false_iff prev replicas).2 hsame
        simp [Lib.tell, hsame, hkeep]
      · have hchange : containersChanged prev replicas = true := by
          rw [← Bool.not_eq_false, containersChanged_eq_false_iff]
          exact hsame
        simp [Lib.tell, hsame, hchange]

theorem containerOps_tells :
    lastFor k (scanReport rejected committed census).containerOps =
      tell watched reportContainerGroup committed.containers[k]?
        (scanLanes rejected census).containers[k]? := by
  rw [InventoryReport.containerOps, lastFor_append, lastFor_map_snd k some, lastFor_toList,
    getElem?_groupByKey, filter_reported]
  simp only [scanReport, scanLanes, lastFor_stopOps]
  rcases eq_none_or_eq_some (currentContainers rejected census)[k]? with
    hcur | ⟨replicas, hcur⟩
  · rcases eq_none_or_eq_some committed.containers[k]? with hprev | ⟨prev, hprev⟩
    · simp [Lib.tell, hcur, hprev]
    · simp [Lib.tell, hcur, hprev]
  · have hne := reportContainerGroup_ne_nil (currentContainers_group rejected hcur).1
    rcases eq_none_or_eq_some committed.containers[k]? with hprev | ⟨prev, hprev⟩
    · simp [Lib.tell, hcur, hprev, hne]
    · by_cases hsame : watched prev = watched replicas
      · simp [Lib.tell, hcur, hprev, hsame]
      · simp [Lib.tell, hcur, hprev, hsame, hne]

/-! ## What the receiver is left with -/

/-- The items a receiver was last told about, before they are put into report form. -/
structure Held where
  containers : String → Option (List Container)
  files : String → Option LogFile
  services : String → Option SystemdService

def Held.empty : Held := ⟨fun _ => none, fun _ => none, fun _ => none⟩

/-- A committed scan replaces the items it has as new or changed, and keeps the others it has. -/
def Held.commit (held : Held) (full : Bool) (scan : Lanes) : Held :=
  let held := if full then .empty else held
  { containers := fun k => settle watched (held.containers k) scan.containers[k]?
    files := fun k => settle (fun _ => ()) (held.files k) scan.files[k]?
    services := fun k => settle (fun _ => ()) (held.services k) scan.services[k]? }

/-- What the receiver stores for the items it was told about. -/
structure Held.Shown (held : Held) (r : InventoryReceiver) : Prop where
  containers : ∀ k : String, r.containers[k]? = (held.containers k).map reportContainerGroup
  files : ∀ k : String, r.files[k]? = held.files k
  services : ∀ k : String, r.services[k]? = held.services k

/-- Exactly the keys of a scan, and container groups that agree with it in what is watched. -/
structure Held.Covers (held : Held) (scan : Lanes) : Prop where
  containers : ∀ k : String, (held.containers k).map watched = scan.containers[k]?.map watched
  files : ∀ k : String, (held.files k).isSome = scan.files[k]?.isSome
  services : ∀ k : String, (held.services k).isSome = scan.services[k]?.isSome

theorem Held.covers_commit (held : Held) (full : Bool) (scan : Lanes) :
    (held.commit full scan).Covers scan where
  containers := fun _ => map_settle watched _ _
  files := fun _ => settle_isSome ..
  services := fun _ => settle_isSome ..

theorem map_unit_of_isSome {a b : Option α} (h : a.isSome = b.isSome) :
    a.map (fun _ => ()) = b.map fun _ => () := by
  cases a <;> cases b <;> first | rfl | cases h

/-- A receiver in step with the committed lanes is left with what the committed scan settles. -/
theorem Held.Shown.receive {held : Held} {r : InventoryReceiver} {committed : Lanes}
    (hshown : held.Shown r) (hcovers : held.Covers committed) (rejected : ExtTreeMap String Unit)
    (census : Census) :
    (held.commit false (scanLanes rejected census)).Shown
      (r.receive false (scanReport rejected committed census)) where
  containers := fun k => getElem?_applyOps_of_tells watched reportContainerGroup
    (containerOps_tells rejected committed census) hshown.containers hcovers.containers k
  files := fun k => by
    have hheld : ∀ k : String, r.files[k]? = (held.files k).map id := fun k => by
      rw [hshown.files k, map_id, id]
    have happly := getElem?_applyOps_of_tells (fun _ => ()) id
      (newItems_tells rejected LogFile.identifier committed.files census.logFiles .file) hheld
      (fun k => map_unit_of_isSome (hcovers.files k)) k
    rwa [map_id] at happly
  services := fun k => by
    have hheld : ∀ k : String, r.services[k]? = (held.services k).map id := fun k => by
      rw [hshown.services k, map_id, id]
    have happly := getElem?_applyOps_of_tells (fun _ => ()) id
      (newItems_tells rejected SystemdService.identifier committed.services
        census.systemdServices .service) hheld
      (fun k => map_unit_of_isSome (hcovers.services k)) k
    rwa [map_id] at happly

theorem Held.shown_empty : Held.empty.Shown ⟨∅, ∅, ∅⟩ where
  containers := fun k => by simp [Held.empty]
  files := fun k => by simp [Held.empty]
  services := fun k => by simp [Held.empty]

theorem Held.covers_empty : Held.empty.Covers Lanes.empty where
  containers := fun k => by simp [Held.empty, Lanes.empty]
  files := fun k => by simp [Held.empty, Lanes.empty]
  services := fun k => by simp [Held.empty, Lanes.empty]

/-! ## Runs -/

/-- A tracker with the report and the lanes of its last scan, the receiver of the committed reports,
the items it was told about, the scan committed last, and the lanes the next scan is compared
with. -/
structure InventoryWorld where
  tracker : ChangeTracker
  /-- The last report, and whether it was sent as a full one. -/
  report : Option (Bool × InventoryReport)
  scanned : Lanes
  receiver : InventoryReceiver
  held : Held
  committedScan : Option Lanes
  baseline : Lanes

namespace InventoryWorld

/-- A new tracker and a receiver that holds whatever it holds. -/
def start (receiver : InventoryReceiver) : InventoryWorld :=
  ⟨.new, none, .empty, receiver, .empty, none, .empty⟩

/-- The tracker's step; the receiver gets a report when its scan is committed. A commit makes the
scan the baseline, and a resync leaves none. -/
def step (sha : Bytes → String) (w : InventoryWorld) (ev : TrackerEvent) : InventoryWorld :=
  let w' := { w with tracker := w.tracker.step sha ev }
  match ev with
  | .scan census =>
      { w' with
        report := some (w.tracker.fullReport, (w.tracker.updateFromScan census).1)
        scanned := scanLanes w.tracker.rejected census }
  | .commitScan =>
      match w.tracker.pendingContainers, w.report with
      | some _, some report =>
          { w' with
            receiver := w.receiver.receive report.1 report.2
            held := w.held.commit report.1 w.scanned
            committedScan := some w.scanned
            baseline := w.scanned }
      | _, _ => w'
  | .requireFullResync => { w' with baseline := .empty }
  | _ => w'

/-- Once a scan is committed, the receiver holds exactly its keys, each with the item it was last
told about. The next report is the difference to the baseline. -/
structure Mirrored (w : InventoryWorld) : Prop where
  shown : ∀ scan, w.committedScan = some scan → w.held.Shown w.receiver
  covers : ∀ scan, w.committedScan = some scan → w.held.Covers scan
  baseline : ∀ census, (w.tracker.updateFromScan census).1 =
    scanReport w.tracker.rejected w.baseline census

/-- Mirrored, and a pending scan's report is its difference to the committed state. -/
structure Tracked (w : InventoryWorld) : Prop where
  shown : ∀ scan, w.committedScan = some scan → w.held.Shown w.receiver
  covers : ∀ scan, w.committedScan = some scan → w.held.Covers scan
  committed : w.tracker.committed = w.baseline
  fresh : w.tracker.fullInventoryReport = true → w.baseline = .empty
  based : w.tracker.fullInventoryReport = false → w.committedScan = some w.baseline
  pending : w.tracker.pendingContainers = none ∧ w.tracker.pendingFiles = none ∧
      w.tracker.pendingServices = none ∨
    w.tracker.pendingContainers = some w.scanned.containers ∧
      w.tracker.pendingFiles = some w.scanned.files ∧
      w.tracker.pendingServices = some w.scanned.services ∧
      ∃ rejected census, w.scanned = scanLanes rejected census ∧
        w.report = some (w.tracker.fullInventoryReport,
          scanReport rejected w.tracker.committed census)

variable {w : InventoryWorld}

theorem Tracked.mirrored (h : w.Tracked) : w.Mirrored where
  shown := h.shown
  covers := h.covers
  baseline := fun census => by rw [← h.committed]; rfl

theorem tracked_start (receiver : InventoryReceiver) : (start receiver).Tracked where
  shown := fun _ h => by cases h
  covers := fun _ h => by cases h
  committed := rfl
  fresh := fun _ => rfl
  based := fun h => by cases h
  pending := .inl ⟨rfl, rfl, rfl⟩

/-- The pending scan's report leaves the receiver with what the scan settles. -/
theorem Tracked.receive (h : w.Tracked) {rejected : ExtTreeMap String Unit} {census : Census}
    (hscan : w.scanned = scanLanes rejected census) :
    (w.held.commit w.tracker.fullInventoryReport w.scanned).Shown
      (w.receiver.receive w.tracker.fullInventoryReport
        (scanReport rejected w.tracker.committed census)) := by
  rw [hscan, h.committed]
  cases hfull : w.tracker.fullInventoryReport with
  | true =>
    rw [h.fresh hfull]
    exact Held.shown_empty.receive Held.covers_empty rejected census
  | false =>
    have hlast := h.based hfull
    exact (h.shown _ hlast).receive (h.covers _ hlast) rejected census

theorem Tracked.step (sha : Bytes → String) (h : w.Tracked) (ev : TrackerEvent) :
    (w.step sha ev).Tracked := by
  cases ev with
  | scan census =>
    exact { h with
      pending := .inr ⟨rfl, rfl, rfl, w.tracker.rejected, census, rfl, rfl⟩ }
  | commitScan =>
    rcases h.pending with ⟨hc, hf, hs⟩ | ⟨hc, hf, hs, rejected, census, hscan, hreport⟩
    · -- nothing is pending: the tracker drops nothing and commits nothing
      have hsame : w.step sha .commitScan = { w with tracker := w.tracker.commitScan } := by
        simp [InventoryWorld.step, ChangeTracker.step, hc]
      have htracker : w.tracker.commitScan = w.tracker := by
        rw [ChangeTracker.commitScan]
        cases htr : w.tracker
        simp_all
      rw [hsame, htracker]
      exact h
    · have hstep : w.step sha .commitScan =
          { w with
            tracker := w.tracker.commitScan
            receiver := w.receiver.receive w.tracker.fullInventoryReport
              (scanReport rejected w.tracker.committed census)
            held := w.held.commit w.tracker.fullInventoryReport w.scanned
            committedScan := some w.scanned
            baseline := w.scanned } := by
        simp [InventoryWorld.step, ChangeTracker.step, hc, hreport]
      rw [hstep]
      exact
        { shown := fun _ _ => h.receive hscan
          covers := fun scan hlast => by
            cases hlast
            exact w.held.covers_commit _ w.scanned
          committed := by
            simp [ChangeTracker.committed, ChangeTracker.commitScan, hc, hf, hs]
          fresh := fun hfull => by simp [ChangeTracker.commitScan, hc] at hfull
          based := fun _ => rfl
          pending := .inl ⟨rfl, rfl, rfl⟩ }
  | rollbackScan => exact { h with pending := .inl ⟨rfl, rfl, rfl⟩ }
  | markRejected identifier | packageScan agentIdentity packages => exact { h with }
  | commitPackageScan =>
    -- of the tracker only the package fields change
    show Tracked { w with tracker := w.tracker.commitPackageScan }
    unfold ChangeTracker.commitPackageScan
    split
    · exact h
    · exact { h with }
  | rollbackPackageScan | requirePackageFullResync => exact { h with }
  | requireFullResync =>
    exact
      { shown := h.shown
        covers := h.covers
        committed := rfl
        fresh := fun _ => rfl
        based := fun hf => by cases hf
        pending := .inl ⟨rfl, rfl, rfl⟩ }

/-- Along every run of the tracker, whatever the receiver held at first, the receiver mirrors the
scan committed last up to what the tracker does not watch. -/
theorem inventory_mirrored (sha : Bytes → String) (receiver : InventoryReceiver)
    (events : List TrackerEvent) : Always (step sha) Mirrored (start receiver) events :=
  (always_of_step (fun _ ev h => h.step sha ev) (tracked_start receiver)
    events).mono fun _ h => h.mirrored

/-- A log file of the given size. -/
def sizedFile (size : Nat) : LogFile :=
  ⟨"/var/log/app.log", size, "", true, "0644", "plain_text", .plain, 0⟩

/-- A running container that logs to the given path, as the given replica of a workload. -/
def replicaLoggingTo (id logPath : String) : Container where
  id := id
  name := "web"
  serviceName := ""
  serviceNameExplicit := false
  image := "nginx"
  state := "running"
  labels := ∅
  env := []
  runtime := "docker"
  logPath := logPath
  logFormat := "plain_text"
  podUid := ""
  podName := ""
  «namespace» := ""
  nodeName := ""
  deployment := ""
  workloadKind := ""
  containerId := id
  containerName := ""
  runtimeProcess := none

/-- A run in which two scans are committed. -/
def twoScans (first second : Census) : List TrackerEvent :=
  [.scan first, .commitScan, .scan second, .commitScan]

def finalReceiver (events : List TrackerEvent) : InventoryReceiver :=
  (events.foldl (step fun _ => "") (start ⟨∅, ∅, ∅⟩)).receiver

/-- What the receiver does not hold as scanned last: the new size of a known file, a rejected file,
the new log path of a container, and the second replica of a workload. -/
theorem unwatched_unreported :
    (finalReceiver (twoScans ⟨[], [sizedFile 10], []⟩ ⟨[], [sizedFile 20], []⟩)).files[
        "/var/log/app.log"]? = some (sizedFile 10) ∧
      (finalReceiver (.markRejected "/var/log/app.log" ::
        twoScans ⟨[], [], []⟩ ⟨[], [sizedFile 20], []⟩)).files["/var/log/app.log"]? = none ∧
      ((finalReceiver (twoScans ⟨[replicaLoggingTo "1" "/a"], [], []⟩
        ⟨[replicaLoggingTo "1" "/b"], [], []⟩)).containers["web"]?.map fun group =>
          group.map Container.logPath) = some ["/a"] ∧
      ((finalReceiver (twoScans ⟨[], [], []⟩
        ⟨[replicaLoggingTo "1" "/a", replicaLoggingTo "2" "/b"], [], []⟩)).containers[
          "web"]?.map fun group => group.map Container.id) = some ["1"] := by
  decide +kernel

end InventoryWorld

end EdgePacer.Inventory
