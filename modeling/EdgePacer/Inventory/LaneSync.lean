import EdgePacer.Inventory.LaneReports

/-!
# What the lanes of a receiver have

`lanes_mirrored` says what a receiver has after a cycle whose POSTs were all accepted without a
resync: in every lane exactly the identifiers of the scan, and for services and containers the
state, image, format and identifiers the scan has. The runs it holds for are those of `Sound`
cycles; `lanes_astray` has a run for each way in which another cycle leaves a lane behind, and one
for the fields that are not reported again.

The argument goes lane by lane. `accept_groupPayload` and `contains_accept_items` say what one
payload does to a lane; the invariant `Tracked` is that a report which is not full is a difference
to what the receiver mirrors.
-/

namespace EdgePacer.Inventory

open Lib List InventoryReport InventoryWorld ServiceCensusEntry FileCensusEntry
open Std (ExtTreeMap)

/-! ## What a lane has of a scan -/

def ServiceCensusEntry.facts (e : ServiceCensusEntry) : ReplicaFacts :=
  ⟨e.state, e.image, e.format, e.identifiers⟩

def ContainerCensusEntry.facts (e : ContainerCensusEntry) : ReplicaFacts :=
  ⟨e.state, e.image, e.format, e.identifiers⟩

/-- Whether a group is in the services lane. -/
def isServiceGroup (replicas : List Container) : Bool := replicas.any Container.explicitService

/-- The group of a key, if it belongs to the lane of explicit services or to that of the others. -/
def groupOf (lanes : Lanes) (service : Bool) (k : String) : Option (List Container) :=
  lanes.containers[k]?.filter fun replicas => isServiceGroup replicas == service

/-- What is watched of the replicas that are reported for a group. -/
def reportedFacts (replicas : List Container) : List ReplicaFacts :=
  watched (reportContainerGroup replicas)

/-- Every lane has exactly the identifiers of the scan; services and containers have the facts the
scan has. -/
structure LaneReceiver.Mirrors (r : LaneReceiver) (scan : Lanes) : Prop where
  services : ∀ k : String, r.services[k]?.map (map facts) = (groupOf scan true k).map reportedFacts
  containers : ∀ k : String,
    r.containers[k]?.map (map ContainerCensusEntry.facts) = (groupOf scan false k).map reportedFacts
  files : ∀ k : String, r.files.contains k = scan.files.contains k
  units : ∀ k : String, r.units.contains k = scan.services.contains k

/-- A group is all explicit services or has none, and it is of the kind it was committed as. -/
def KindsKept (committed scan : Lanes) : Prop :=
  ∀ e ∈ scan.containers.toList,
    (∀ c ∈ e.2, c.explicitService = isServiceGroup e.2) ∧
      ∀ prev ∈ committed.containers[e.1]?, isServiceGroup prev = isServiceGroup e.2

/-! ## One lane, one payload -/

section

variable {ρ : Type} {identifier : ρ → String} {rejected : ExtTreeMap String Unit}
  {committed : Lanes} {census : Census} {fullReport : Bool}

variable {lane : Lane ρ} {p : LanePayload ρ} {row : Container → ρ} {service : Bool}
  {replicas : List Container} {facts : ρ → ReplicaFacts} {α : Type} {itemType : ItemType}
  {items : List α}

theorem getElem?_accept_of_isEmpty (h : p.isEmpty = true) (k : String) :
    (lane.accept identifier p)[k]? = if p.fullReport then none else lane[k]? := by
  obtain ⟨hitems, hstopped⟩ := Bool.and_eq_true_iff.1 h
  rw [getElem?_accept, isEmpty_iff.1 hitems, isEmpty_iff.1 hstopped]
  simp

/-- A payload that is not marked and sent only if it is not empty. -/
theorem contains_send {needed : Bool}
    (hneeded : needed = false → p.isEmpty = true ∧ p.fullReport = false) (k : String) :
    (if needed = true then lane.accept identifier p else lane).contains k =
      (lane.accept identifier p).contains k := by
  split
  · rfl
  · rename_i hskip
    obtain ⟨hempty, hfull⟩ := hneeded (by simpa using hskip)
    rw [ExtTreeMap.contains_eq_isSome_getElem?, ExtTreeMap.contains_eq_isSome_getElem?,
      getElem?_accept_of_isEmpty hempty, hfull]
    rfl

/-- The stops of one kind of groups. -/
theorem mem_stopped_groupPayload {k : String} :
    k ∈ ((scanReport rejected committed census).groupPayload service row fullReport).stopped ↔
      (scanLanes rejected census).containers[k]? = none ∧
        ∃ prev, committed.containers[k]? = some prev ∧ isServiceGroup prev = service := by
  simp only [groupPayload, scanReport, mem_map, mem_filter,
    mem_stoppedItems, ExtTreeMap.contains_eq_isSome_getElem?,
    Option.isSome_eq_false_iff, Option.isNone_iff_eq_none]
  constructor
  · rintro ⟨s, ⟨⟨-, hcurrent, prev, hprev, hexplicit⟩, hservice⟩, rfl⟩
    rw [hexplicit] at hservice
    exact ⟨hcurrent, prev, hprev, by simpa [isServiceGroup] using hservice⟩
  · rintro ⟨hcurrent, prev, hprev, hservice⟩
    exact ⟨⟨k, .container, service⟩, ⟨⟨rfl, hcurrent, prev, hprev, hservice.symm⟩, by simp⟩, rfl⟩

/-- The rows of a group, if its kind is the lane's. -/
theorem filter_kind (service : Bool)
    (hkind : ∀ c ∈ replicas, c.explicitService = isServiceGroup replicas) :
    (reportContainerGroup replicas).filter (fun c => c.explicitService == service) =
      if isServiceGroup replicas = service then reportContainerGroup replicas else [] := by
  split
  · rename_i hservice
    refine filter_eq_self.2 fun c hc => ?_
    rw [hkind c (mem_of_mem_reportContainerGroup hc), hservice]
    exact beq_self_eq_true service
  · rename_i hservice
    refine filter_eq_nil_iff.2 fun c hc => ?_
    rw [hkind c (mem_of_mem_reportContainerGroup hc)]
    simpa using hservice

/-- Groups of one kind with the same watched facts show the same facts. -/
theorem reportedFacts_congr {prev : List Container}
    (hkind : isServiceGroup prev = isServiceGroup replicas)
    (hwatched : watched prev = watched replicas) : reportedFacts prev = reportedFacts replicas := by
  have hhead : ∀ rs : List Container, watched rs.head?.toList = (watched rs).take 1 := by
    intro rs
    cases rs with
    | nil | cons c rs => rfl
  rw [isServiceGroup, isServiceGroup] at hkind
  rw [reportedFacts, reportedFacts, reportContainerGroup, reportContainerGroup, hkind]
  split
  · exact hwatched
  · rw [hhead, hhead, hwatched]

/-- What is told about a group in the lane of its kind. -/
def toldGroup (service : Bool) (committed scanned : Option (List Container)) : List Container :=
  (((tell watched reportContainerGroup committed scanned).getD none).getD []).filter
    fun c => c.explicitService == service

theorem toldGroup_some {committed : Option (List Container)}
    (hkind : ∀ c ∈ replicas, c.explicitService = isServiceGroup replicas) :
    toldGroup service committed (some replicas) =
      if isServiceGroup replicas = service ∧ committed.map watched ≠ some (watched replicas) then
        reportContainerGroup replicas
      else [] := by
  have hfilter := filter_kind service hkind
  cases committed with
  | none => simp [toldGroup, Lib.tell, hfilter]
  | some prev =>
    by_cases hwatched : watched prev = watched replicas
    · simp [toldGroup, Lib.tell, hwatched]
    · simp [toldGroup, Lib.tell, hwatched, hfilter]

variable (hident : ∀ c, c.explicitService = service → identifier (row c) = containerKey c)
  (hfacts : ∀ c, facts (row c) = ⟨c.state, c.image, c.logFormat, c.identifierSet⟩)

include hident in
theorem filter_items_groupPayload (k : String) :
    (((scanReport rejected committed census).groupPayload service row fullReport).items.filter
      fun r => identifier r = k) =
      (toldGroup service committed.containers[k]?
        (scanLanes rejected census).containers[k]?).map row := by
  rw [toldGroup, ← filter_reported, groupPayload, filter_map, filter_filter, filter_filter]
  congr 1
  refine filter_congr fun c _ => ?_
  by_cases hservice : c.explicitService = service
  · simp [hservice, hident c hservice]
  · have hother : (c.explicitService == service) = false := by simpa using hservice
    simp [hother]

include hfacts in
/-- What a lane is told about one group leaves it with the facts of the scanned group. -/
theorem cell_of_tells {base : Option (List ρ)} {committed scanned : Option (List Container)}
    (hnonempty : ∀ replicas, scanned = some replicas → replicas ≠ [])
    (hkind : ∀ replicas, scanned = some replicas → ∀ c ∈ replicas, c.explicitService =
      isServiceGroup replicas)
    (hsame : ∀ prev replicas, committed = some prev → scanned = some replicas → isServiceGroup prev
      = isServiceGroup replicas)
    (hbase : base.map (map facts) = (committed.filter fun g => isServiceGroup g == service).map
      reportedFacts) :
    (if scanned = none ∧ ∃ prev, committed = some prev ∧ isServiceGroup prev = service then none
      else if (toldGroup service committed scanned).map row = [] then base
      else some ((toldGroup service committed scanned).map row)).map (map facts) =
      (scanned.filter fun g => isServiceGroup g == service).map reportedFacts := by
  have hrows : ∀ rs : List Container, (rs.map row).map facts = watched rs := by
    intro rs
    rw [map_map, watched]
    exact map_congr_left fun c _ => hfacts c
  cases scanned with
  | none =>
    cases committed with
    | none => simpa [toldGroup, Lib.tell] using hbase
    | some prev =>
      by_cases hservice : isServiceGroup prev = service
      · simp [hservice]
      · have hother : (isServiceGroup prev == service) = false := by simpa using hservice
        rw [Option.filter_some, hother] at hbase
        simpa [toldGroup, Lib.tell, hservice] using hbase
  | some replicas =>
    have hne := reportContainerGroup_ne_nil (hnonempty replicas rfl)
    rw [toldGroup_some (hkind replicas rfl), Option.filter_some]
    by_cases hservice : isServiceGroup replicas = service
    · by_cases hwatched : committed.map watched = some (watched replicas)
      · -- nothing watched has changed, so the lane shows the group already
        obtain ⟨prev, rfl, hprev⟩ := Option.map_eq_some_iff.1 hwatched
        have hsame := hsame prev replicas rfl rfl
        rw [Option.filter_some, if_pos (by simp [hsame, hservice]), Option.map_some,
          reportedFacts_congr hsame hprev] at hbase
        simpa [hservice, hprev] using hbase
      · simp only [hservice, ne_eq, hwatched, not_false_eq_true, and_self, if_true]
        simp [hne, reportedFacts, ← hrows]
    · -- the group is in the other lane, and so was its predecessor
      have hother : (isServiceGroup replicas == service) = false := by simpa using hservice
      have hnone : (committed.filter fun g => isServiceGroup g == service) = none := by
        cases committed with
        | none => rfl
        | some prev =>
          rw [Option.filter_some, hsame prev replicas rfl rfl, hother]
          rfl
      rw [hnone] at hbase
      simpa [hservice] using hbase

/-- The stops of items tracked by their identifier. -/
theorem mem_stopped_items {committed current : ExtTreeMap String α} {explicit : α → Bool}
    {k : String} :
    k ∈ (stoppedItems committed current itemType explicit).map StoppedItem.identifier ↔
      committed.contains k = true ∧ current.contains k = false := by
  simp only [mem_map, mem_stoppedItems, ExtTreeMap.contains_eq_isSome_getElem?]
  constructor
  · rintro ⟨s, ⟨-, hcurrent, a, ha, -⟩, rfl⟩
    exact ⟨by rw [ha]; rfl, hcurrent⟩
  · rintro ⟨hcommitted, hcurrent⟩
    obtain ⟨a, ha⟩ := Option.isSome_iff_exists.1 hcommitted
    exact ⟨⟨k, itemType, explicit a⟩, ⟨rfl, hcurrent, a, ha, rfl⟩, rfl⟩

/-- The new items are those of the scan that are not committed. -/
theorem mem_newItems {itemIdentifier : α → String} {committed : ExtTreeMap String α} {k : String} :
    k ∈ (newItems rejected itemIdentifier committed items).map itemIdentifier ↔
      (currentItems rejected itemIdentifier items).contains k = true ∧
        committed.contains k = false := by
  rw [contains_currentItems]
  simp only [newItems, unrejected, mem_map, mem_filter, Bool.not_eq_true']
  constructor
  · rintro ⟨a, ⟨⟨ha, hrejected⟩, hcommitted⟩, rfl⟩
    exact ⟨⟨⟨a, ha, rfl⟩, hrejected⟩, hcommitted⟩
  · rintro ⟨⟨⟨a, ha, rfl⟩, hrejected⟩, hcommitted⟩
    exact ⟨a, ⟨⟨ha, hrejected⟩, hcommitted⟩, rfl⟩

/-- **A lane of items tracked by identifier.** What is committed and gone is removed, what is new is
put, and the rest is as the lane has it, or would have it after a clear. -/
theorem contains_accept_items (lane : Lane ρ) {row : α → ρ} (itemIdentifier : α → String)
    {committed : ExtTreeMap String α} (hident : ∀ a, identifier (row a) = itemIdentifier a)
    (k : String) :
    (lane.accept identifier (itemPayload row (newItems rejected itemIdentifier committed items)
      (stoppedItems committed (currentItems rejected itemIdentifier items) itemType
        fun _ => false) fullReport)).contains k =
      if committed.contains k = (currentItems rejected itemIdentifier items).contains k then
        (if fullReport then none else lane[k]?).isSome
      else (currentItems rejected itemIdentifier items).contains k := by
  have hnew : ((newItems rejected itemIdentifier committed items).map row).filter
      (fun r => identifier r = k) = [] ↔
        ¬ ((currentItems rejected itemIdentifier items).contains k = true ∧
          committed.contains k = false) := by
    rw [← mem_newItems, filter_eq_nil_iff, mem_map]
    constructor
    · rintro h ⟨a, ha, rfl⟩
      exact h (row a) (mem_map_of_mem ha) (by simp [hident])
    · intro h r hr hk
      obtain ⟨a, ha, rfl⟩ := mem_map.1 hr
      exact h ⟨a, ha, by rw [← hident]; exact of_decide_eq_true hk⟩
  rw [ExtTreeMap.contains_eq_isSome_getElem?, getElem?_accept]
  simp only [itemPayload, mem_stopped_items, hnew]
  generalize committed.contains k = wasThere
  generalize (currentItems rejected itemIdentifier items).contains k = isThere
  cases wasThere <;> cases isThere <;> cases fullReport <;> simp

theorem groupOf_empty (service : Bool) (k : String) : groupOf Lanes.empty service k = none := by
  simp [groupOf, Lanes.empty]

/-- If no key has a group of a kind, no group is of that kind. -/
theorem not_kind_of_groupOf_none {scan : Lanes} {service : Bool}
    (h : ∀ k, groupOf scan service k = none) :
    ∀ e ∈ scan.containers.toList, isServiceGroup e.2 = !service := by
  intro e he
  have hk := h e.1
  rw [groupOf, ExtTreeMap.mem_toList_iff_getElem?_eq_some.1 he] at hk
  cases hservice : isServiceGroup e.2 <;> cases service <;> simp_all

theorem getElem?_of_isEmpty {ρ : Type} {lane : Lane ρ} (h : lane.isEmpty = true) (k : String) :
    lane[k]? = none := by
  rw [ExtTreeMap.isEmpty_iff.1 h]
  exact ExtTreeMap.getElem?_empty

variable (hkept : KindsKept committed (scanLanes rejected census))

include hident hfacts hkept

/-- **A lane of container groups.** If what the lane has, or would have after a clear, shows the
committed groups of its kind, then after the payload it shows the scanned ones. -/
theorem accept_groupPayload (k : String)
    (hbase : (if fullReport then none else lane[k]?).map (map facts) = (groupOf committed
      service k).map reportedFacts) :
    (lane.accept identifier
        ((scanReport rejected committed census).groupPayload service row fullReport))[k]?.map
      (map facts) = (groupOf (scanLanes rejected census) service k).map reportedFacts := by
  have hgroup := fun replicas h => hkept (k, replicas)
        (ExtTreeMap.mem_toList_iff_getElem?_eq_some.2 h)
  rw [getElem?_accept, filter_items_groupPayload hident]
  simp only [mem_stopped_groupPayload]
  exact cell_of_tells hfacts (fun replicas h => (currentContainers_group rejected h).1)
    (fun replicas h => (hgroup replicas h).1)
    (fun prev replicas hprev h => (hgroup replicas h).2 prev hprev) hbase

variable (facts) in
/-- A payload of container groups that is sent only if it is not empty. -/
theorem send_groupPayload
    (hfresh : fullReport = true → committed = .empty)
    (hmirrored : fullReport = false → ∀ k : String,
      lane[k]?.map (map facts) = (groupOf committed service k).map reportedFacts)
    (hleft : fullReport = true → (∀ e ∈ (scanLanes rejected census).containers.toList,
      isServiceGroup e.2 = !service) → lane.isEmpty = true) (k : String) :
    (if (!((scanReport rejected committed census).groupPayload service row
        fullReport).isEmpty) = true then
      lane.accept identifier
        ((scanReport rejected committed census).groupPayload service row fullReport)
      else lane)[k]?.map (map facts) =
      (groupOf (scanLanes rejected census) service k).map reportedFacts := by
  have hbase : ∀ k : String, (if fullReport then none else lane[k]?).map (map facts) =
      (groupOf committed service k).map reportedFacts := by
    intro k
    cases fullReport with
    | true =>
      rw [hfresh rfl, groupOf_empty]
      rfl
    | false => exact hmirrored rfl k
  have haccept := fun k => accept_groupPayload hident hfacts hkept k (hbase k)
  split
  · exact haccept k
  · rename_i hempty
    have hempty : ((scanReport rejected committed census).groupPayload service row
        fullReport).isEmpty = true := by simpa using hempty
    simp only [getElem?_accept_of_isEmpty hempty] at haccept
    cases fullReport with
    | false => exact haccept k
    | true =>
      -- nothing of this kind is in the scan, so the lane has to be empty already
      have hnone : ∀ k, groupOf (scanLanes rejected census) service k = none := by
        intro k
        exact Option.map_eq_none_iff.1 (haccept k).symm
      rw [getElem?_of_isEmpty (hleft rfl (not_kind_of_groupOf_none hnone)), hnone k]
      rfl

end

/-! ## A cycle's POSTs -/

/-- The tracker is told of a resync, or left alone. -/
theorem sendPosts_tracker (ps : List (Post × PostOutcome)) (t : ChangeTracker) (r : LaneReceiver) :
    (sendPosts ps t r).tracker = if (sendPosts ps t r).resync then t.requireFullResync else t := by
  induction ps generalizing t r with
  | nil => rfl
  | cons p ps ih =>
    obtain ⟨post, outcome⟩ := p
    simp only [sendPosts]
    split
    · cases outcome with
      | failed => rfl
      | accepted resync =>
        simp only [ih]
        cases resync with
        | false => rfl
        | true =>
          -- a second request finds nothing left to forget
          simp only [if_true]
          split
          · rfl
          · rfl
    · exact ih t r

variable {ps : List (Post × PostOutcome)} {t : ChangeTracker} {r : LaneReceiver}

theorem sendPosts_of_none_accepted (h : (sendPosts ps t r).accepted = 0) :
    (sendPosts ps t r).receiver = r ∧ (sendPosts ps t r).resync = false := by
  induction ps generalizing t r with
  | nil => exact ⟨rfl, rfl⟩
  | cons p ps ih =>
    obtain ⟨post, outcome⟩ := p
    simp only [sendPosts] at h ⊢
    split at h
    · rename_i hneeded
      cases outcome with
      | failed => simp [hneeded]
      | accepted resync => exact absurd h (Nat.succ_ne_zero _)
    · rename_i hneeded
      simp only [hneeded]
      exact ih h

/-- When every POST sent is accepted, the receiver has them all. -/
theorem sendPosts_of_ok (h : (sendPosts ps t r).ok = true) :
    (sendPosts ps t r).receiver =
      ps.foldl (fun r p => if p.1.needed then p.1.deliver r else r) r := by
  induction ps generalizing t r with
  | nil => rfl
  | cons p ps ih =>
    obtain ⟨post, outcome⟩ := p
    simp only [sendPosts, foldl_cons] at h ⊢
    split at h
    · rename_i hneeded
      cases outcome with
      | failed => cases h
      | accepted resync =>
        simp only [hneeded]
        exact ih h
    · rename_i hneeded
      simp only [hneeded]
      exact ih h

namespace LaneWorld

variable (w : LaneWorld)

/-- A cycle ends clean when all its POSTs were accepted and no resync was requested. -/
def EndsClean (c : Cycle) : Prop := (w.send c).ok = true ∧ (w.send c).resync = false

/-- What a full report does not clear: a lane of containers that is empty in the scan, and units
that are not in the scan. -/
structure NothingLeft (r : LaneReceiver) (scan : Lanes) : Prop where
  services : (∀ e ∈ scan.containers.toList, isServiceGroup e.2 = false) → r.services.isEmpty = true
  containers : (∀ e ∈ scan.containers.toList, isServiceGroup e.2 = true) →
    r.containers.isEmpty = true
  units : ∀ k ∈ r.units.keys, scan.services.contains k = true

/-- A clean cycle keeps the kinds of its groups and leaves nothing that a full report does not
clear; a cycle that fails half way is a full report, or is followed by one. -/
def Sound : LaneEvent → Prop
  | .resync => True
  | .cycle c =>
      (w.EndsClean c → KindsKept w.tracker.committed (scanLanes w.tracker.rejected c.census) ∧
        (w.tracker.fullReport = true →
          NothingLeft w.receiver (scanLanes w.tracker.rejected c.census))) ∧
      ((w.send c).ok = false → w.tracker.fullReport = false → (w.send c).resync = false →
        (w.send c).accepted = 0)

/-- After a clean cycle the receiver mirrors the scan. -/
def InStep : Prop := ∀ scan, w.clean = some scan → w.receiver.Mirrors scan

/-! ### The invariant -/

variable {w : LaneWorld}

/-- In step so far; a report that is not full is a difference to what the receiver mirrors. -/
structure Tracked (w : LaneWorld) : Prop where
  inStep : w.InStep
  fresh : w.tracker.fullReport = true → w.tracker.committed = .empty
  mirrored : w.tracker.fullReport = false → w.receiver.Mirrors w.tracker.committed

/-- A tracker that is about to send everything owes the receiver nothing. -/
theorem tracked_of_full {t : ChangeTracker} (hfull : t.fullReport = true)
    (hcommitted : t.committed = .empty) (receiver : LaneReceiver) :
    Tracked ⟨t, receiver, none⟩ where
  inStep := nofun
  fresh := fun _ => hcommitted
  mirrored := by
    intro hdelta
    cases hfull.symm.trans hdelta

/-- The receiver once it has every POST of a report. -/
def delivered (r : LaneReceiver) (fullReport : Bool) (report : InventoryReport)
    (discovered : List Container) : LaneReceiver where
  services :=
    if (!(report.servicePayload fullReport).isEmpty) = true then
      r.services.accept stableInstanceId (report.servicePayload fullReport)
    else r.services
  containers :=
    if (!(report.containerPayload fullReport discovered).isEmpty) = true then
      r.containers.accept ContainerCensusEntry.identifier
        (report.containerPayload fullReport discovered)
    else r.containers
  files :=
    if (fullReport || !(report.filePayload fullReport).isEmpty) = true then
      r.files.accept identifier (report.filePayload fullReport)
    else r.files
  units :=
    if (!report.unitPayload.isEmpty) = true then
      r.units.accept UnitEntry.identifier report.unitPayload
    else r.units

variable (r : LaneReceiver)

theorem foldl_posts (fullReport : Bool) (report : InventoryReport) (c : Cycle) :
    ((posts fullReport report c.census.containers).zip c.outcomes).foldl
      (fun r p => if p.1.needed then p.1.deliver r else r) r =
      delivered r fullReport report c.census.containers := by
  simp only [posts, Cycle.outcomes, zip_cons_cons, foldl_cons, delivered]
  split <;> split <;> split <;> split <;> rfl

/-- **A clean cycle.** Once every POST is accepted, the receiver mirrors the scan. -/
theorem Tracked.mirrors_delivered (h : w.Tracked) {census : Census}
    (hkept : KindsKept w.tracker.committed (scanLanes w.tracker.rejected census))
    (hleft : w.tracker.fullReport = true →
      NothingLeft w.receiver (scanLanes w.tracker.rejected census)) :
    (delivered w.receiver w.tracker.fullReport
      (scanReport w.tracker.rejected w.tracker.committed census) census.containers).Mirrors
      (scanLanes w.tracker.rejected census) where
  services := by
    refine send_groupPayload facts (fun c hc => ?_) (fun c => rfl) hkept h.fresh
      (fun hfull => (h.mirrored hfull).services) (fun hfull => (hleft hfull).services)
    simp [containerKey, hc, serviceCensusEntry]
  containers := by
    refine send_groupPayload ContainerCensusEntry.facts (fun c hc => ?_) (fun c => rfl) hkept
      h.fresh (fun hfull => (h.mirrored hfull).containers) (fun hfull => (hleft hfull).containers)
    simp [containerKey, hc, containerCensusEntry]
  files := by
    intro k
    have haccept : (w.receiver.files.accept identifier
        ((scanReport w.tracker.rejected w.tracker.committed census).filePayload
          w.tracker.fullReport)).contains k = _ :=
      contains_accept_items w.receiver.files LogFile.identifier (fun a => rfl) k
    have hbase : (if w.tracker.fullReport then none else w.receiver.files[k]?).isSome =
        w.tracker.committed.files.contains k := by
      cases hfull : w.tracker.fullReport with
      | true =>
        rw [h.fresh hfull]
        simp [Lanes.empty]
      | false =>
        rw [← (h.mirrored hfull).files k, ExtTreeMap.contains_eq_isSome_getElem?]
        rfl
    refine (contains_send (fun hskip => ?_) k).trans (haccept.trans ?_)
    · obtain ⟨hfull, hempty⟩ := Bool.or_eq_false_iff.1 hskip
      exact ⟨by simpa using hempty, hfull⟩
    · rw [hbase]
      split
      · assumption
      · rfl
  units := by
    intro k
    have haccept : (w.receiver.units.accept UnitEntry.identifier
        (scanReport w.tracker.rejected w.tracker.committed census).unitPayload).contains k = _ :=
      contains_accept_items w.receiver.units SystemdService.identifier (fun a => rfl) k
    refine (contains_send (fun hskip => ⟨by simpa using hskip, rfl⟩) k).trans (haccept.trans ?_)
    split
    · rename_i hsame
      -- the lane is not cleared: what it has beside the committed units must be in the scan
      have hscan : (scanLanes w.tracker.rejected census).services.contains k =
        w.tracker.committed.services.contains k := hsame.symm
      rw [hscan]
      cases hfull : w.tracker.fullReport with
      | false =>
        rw [← (h.mirrored hfull).units k, ExtTreeMap.contains_eq_isSome_getElem?]
        rfl
      | true =>
        have hnone : w.tracker.committed.services.contains k = false := by
          rw [h.fresh hfull]
          exact ExtTreeMap.contains_empty
        rw [hnone]
        change w.receiver.units[k]?.isSome = false
        rw [← ExtTreeMap.contains_eq_isSome_getElem?, ← Bool.not_eq_true]
        intro hheld
        have hkey := (hleft hfull).units k (ExtTreeMap.mem_keys.2 hheld)
        rw [hscan, hnone] at hkey
        cases hkey
    · rfl

/-- An empty report has nothing to deliver. -/
theorem delivered_of_isEmpty {report : InventoryReport} (h : report.isEmpty = true)
    (r : LaneReceiver) (discovered : List Container) : delivered r false report discovered = r := by
  simp only [InventoryReport.isEmpty, Bool.and_eq_true, List.isEmpty_iff] at h
  obtain ⟨⟨⟨⟨⟨⟨hnew, hchanged⟩, hstopped⟩, hfiles⟩, hstoppedFiles⟩, hunits⟩, hstoppedUnits⟩ := h
  simp [delivered, InventoryReport.servicePayload, InventoryReport.containerPayload,
    filePayload, unitPayload, groupPayload,
    itemPayload, LanePayload.isEmpty, hnew, hchanged, hstopped, hfiles, hstoppedFiles, hunits,
    hstoppedUnits]

/-- What sending a cycle's report can do: the tracker is told of a resync or left as the scan left
it, and the receiver has all of it, nothing, or something in between. -/
theorem send_spec (c : Cycle) : (w.send c).tracker =
        (if (w.send c).resync then (w.tracker.updateFromScan c.census).2.requireFullResync
          else (w.tracker.updateFromScan c.census).2) ∧
      ((w.send c).accepted = 0 → (w.send c).receiver = w.receiver) ∧
      ((w.send c).ok = true → (w.send c).receiver =
        delivered w.receiver w.tracker.fullReport
          (scanReport w.tracker.rejected w.tracker.committed c.census) c.census.containers) := by
  simp only [send]
  split
  · refine ⟨sendPosts_tracker .., fun h => (sendPosts_of_none_accepted h).1, fun h => ?_⟩
    rw [sendPosts_of_ok h, foldl_posts]
    rfl
  · rename_i hquiet
    refine ⟨rfl, fun _ => rfl, fun _ => ?_⟩
    obtain ⟨hfull, hempty⟩ := Bool.or_eq_false_iff.1 (Bool.eq_false_iff.2 hquiet)
    rw [show w.tracker.fullReport = false from hfull]
    have hempty : (w.tracker.updateFromScan c.census).1.isEmpty = true := by simpa using hempty
    exact (delivered_of_isEmpty hempty _ _).symm

theorem Tracked.step (h : w.Tracked) (ev : LaneEvent) (hsound : w.Sound ev) :
    (w.step ev).Tracked := by
  cases ev with
  | resync => exact tracked_of_full rfl rfl w.receiver
  | cycle c =>
    obtain ⟨htracker, hnothing, hall⟩ := w.send_spec c
    obtain ⟨hclean, hhalf⟩ := hsound
    simp only [LaneWorld.step]
    cases hok : (w.send c).ok with
    | true =>
      cases hresync : (w.send c).resync with
      | true =>
        -- the scan is not committed: the next report is full
        rw [hresync] at htracker
        rw [htracker]
        exact tracked_of_full rfl rfl _
      | false =>
        obtain ⟨hkept, hleft⟩ := hclean ⟨hok, hresync⟩
        have hmirrors := h.mirrors_delivered hkept hleft
        rw [hresync] at htracker
        rw [htracker, hall hok]
        refine ⟨?_, nofun, fun _ => hmirrors⟩
        intro scan hscan
        cases hscan
        exact hmirrors
    | false =>
      cases hresync : (w.send c).resync with
      | true =>
        rw [hresync] at htracker
        rw [htracker]
        exact tracked_of_full rfl rfl _
      | false =>
        rw [hresync] at htracker
        rw [htracker]
        refine ⟨nofun, h.fresh, fun hfull => ?_⟩
        rw [hnothing (hhalf hok hfull hresync)]
        exact h.mirrored hfull

/-- **Lane by lane.** Along every run of sound cycles, whatever the receiver held at first, after
each clean cycle it mirrors the scan. -/
theorem lanes_mirrored (receiver : LaneReceiver) (events : List LaneEvent)
    (hsound : Each step Sound (start receiver) events) :
    Always step InStep (start receiver) events :=
  (always_of_each (fun _ ev h hs => h.step ev hs) (tracked_of_full rfl rfl receiver)
    hsound).mono fun _ h => h.inStep

/-! ### Runs -/

instance KindsKept.decidable (committed scan : Lanes) : Decidable (KindsKept committed scan) :=
  inferInstanceAs (Decidable (∀ e ∈ scan.containers.toList, _))

instance NothingLeft.decidable (r : LaneReceiver) (scan : Lanes) : Decidable (NothingLeft r scan) :=
  decidable_of_iff
    (((∀ e ∈ scan.containers.toList, isServiceGroup e.2 = false) → r.services.isEmpty = true) ∧
      ((∀ e ∈ scan.containers.toList, isServiceGroup e.2 = true) → r.containers.isEmpty = true) ∧
      ∀ k ∈ r.units.keys, scan.services.contains k = true)
    ⟨fun h => ⟨h.1, h.2.1, h.2.2⟩, fun h => ⟨h.services, h.containers, h.units⟩⟩

instance Sound.decidable (w : LaneWorld) : ∀ ev, Decidable (w.Sound ev)
  | .resync => inferInstanceAs (Decidable True)
  | .cycle _ => inferInstanceAs (Decidable ((_ ∧ _ → _ ∧ (_ → _)) ∧ (_ → _ → _ → _)))

/-- A cycle all of whose POSTs are accepted without a resync. -/
def accepted (census : Census) : LaneEvent :=
  .cycle ⟨census, .accepted false, .accepted false, .accepted false, .accepted false⟩

def emptyReceiver : LaneReceiver := ⟨∅, ∅, ∅, ∅⟩

/-- The world after a run from an empty receiver. -/
def after (events : List LaneEvent) : LaneWorld := events.foldl step (start emptyReceiver)

def webContainer : Container := replicaLoggingTo "1" "/a"

/-- The same container, opted in as a service. -/
def webService : Container :=
  { webContainer with serviceName := "web", serviceNameExplicit := true }

def sshUnit : SystemdService := ⟨"ssh.service", "loaded", "active", "running", "", "", 1⟩

/-- A full report, a delta that fails at its first POST, a delta that goes through, and a resync
after which everything is sent again. -/
def steadyRun : List LaneEvent :=
  [accepted ⟨[webContainer], [sizedFile 10], []⟩,
    .cycle ⟨⟨[], [], [sshUnit]⟩, .accepted false, .failed, .accepted false, .accepted false⟩,
    accepted ⟨[webContainer], [], [sshUnit]⟩,
    .resync, accepted ⟨[webContainer], [], [sshUnit]⟩]

theorem steadyRun_mirrored :
    Each step Sound (start emptyReceiver) steadyRun ∧
      Always step InStep (start emptyReceiver) steadyRun :=
  ⟨by decide +kernel, lanes_mirrored emptyReceiver steadyRun (by decide +kernel)⟩

def nothing : Census := ⟨[], [], []⟩

/-- A known file that grows. -/
def growthRun : List LaneEvent :=
  [accepted ⟨[], [sizedFile 10], []⟩, accepted ⟨[], [sizedFile 20], []⟩]

/-- Items that are gone when everything is sent again. -/
def resyncRun (census : Census) : List LaneEvent := [accepted census, .resync, accepted nothing]

/-- A new container whose POST is accepted in a cycle that fails at the files, and which is gone in
the next scan. -/
def halfRun : List LaneEvent :=
  [accepted nothing,
    .cycle ⟨⟨[webContainer], [sizedFile 10], []⟩, .accepted false, .accepted false,
      .failed, .accepted false⟩,
    accepted nothing]

/-- A container that opts in as a service. -/
def optInRun : List LaneEvent :=
  [accepted ⟨[webContainer], [], []⟩, accepted ⟨[webService], [], []⟩]

/-- A service and a container under one key, both gone in the next scan. -/
def mixedRun : List LaneEvent := [accepted ⟨[webContainer, webService], [], []⟩, accepted nothing]

/-- Whether a run ends clean with a row under `web` in the containers lane, where the scan has
none. -/
def leavesContainer (events : List LaneEvent) : Bool :=
  (after events).receiver.containers.contains "web" &&
    (after events).clean.any fun scan => (groupOf scan false "web").isNone

/-- After each of these runs, all ended clean, a lane differs from the scan: the size of a file is
the old one by design; units, services and containers that are gone stay after a full report; a
container stays after a cycle that failed half way, after its opt-in as a service, and after a
service of the same key is gone with it. -/
theorem lanes_astray :
    ((after growthRun).clean.isSome = true ∧
        (after growthRun).receiver.files["/var/log/app.log"]?.map (map size) = some [10]) ∧
      ((after (resyncRun ⟨[], [], [sshUnit]⟩)).clean.map fun scan =>
        scan.services.contains "ssh.service") = some false ∧
      (after (resyncRun ⟨[], [], [sshUnit]⟩)).receiver.units.contains "ssh.service" = true ∧
      ((after (resyncRun ⟨[webService], [], []⟩)).clean.map fun scan =>
        scan.containers.contains "web") = some false ∧
      (after (resyncRun ⟨[webService], [], []⟩)).receiver.services.contains "web" = true ∧
      leavesContainer (resyncRun ⟨[webContainer], [], []⟩) = true ∧
      leavesContainer halfRun = true ∧
      leavesContainer optInRun = true ∧ leavesContainer mixedRun = true := by
  decide +kernel

end LaneWorld

end EdgePacer.Inventory
