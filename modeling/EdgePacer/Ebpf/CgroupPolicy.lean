import EdgePacer.Lib.Prog
import EdgePacer.Ebpf.Routing
import Mathlib.Data.Nat.Bitwise
import Mathlib.Data.Finset.Sort

/-!
# Publishing a cgroup policy, and looking it up in the kernel

The policy lives in two slots of kernel maps: the allow set (anchor id to generation) and the packed
levels of its anchors. One selector word names the active slot and the policy's generation. User
space rewrites the inactive slot map write by map write and then publishes it by one write of the
selector. The kernel lookup reads the selector, the levels and the allow set one by one and re-reads
the selector before it answers.

Both sides are programs over the maps (`Lib.Prog`), so that every map access is a step of its own.
-/

namespace EdgePacer.Ebpf

open Function Except

open Lib (Prog)

def maxAllowedCgroups : Nat := 1024
def maxCgroupAncestorLevel : Nat := 32
def cgroupLevelMask : Nat := 2 ^ 32 - 1
def cgroupMinLevelShift : Nat := 32
def cgroupMaxLevelShift : Nat := 40
def cgroupLevelFieldMask : Nat := 2 ^ 8 - 1
def cgroupSelectorSlotShift : Nat := 63
def cgroupSelectorGenerationMask : Nat := 2 ^ 63 - 1

/-! ## The policy -/

/-- The anchors of one publication. -/
structure CgroupPolicy where
  ids : Finset Nat
  (levelPolicy generation : Nat)
  deriving DecidableEq

/-- The accumulators of the loop over the anchors. -/
structure AnchorScan where
  ids : Finset Nat := ∅
  levelMask : Nat := 0
  minLevel : Nat := maxCgroupAncestorLevel
  maxLevel : Nat := 0

/-- One anchor of the loop in `cgroup_policy_from_anchors`. -/
def AnchorScan.add (scan : AnchorScan) (anchor : CgroupAnchor) : Except String AnchorScan :=
  if anchor.id = 0 then .error "allowed cgroup id must be non-zero"
  else if anchor.id = 1 then .error "the root cgroup is not an allowed workload scope"
  else if anchor.level = 0 then .error s!"allowed cgroup {anchor.id} is the cgroup-v2 root"
  else if maxCgroupAncestorLevel < anchor.level then
    .error (s!"allowed cgroup {anchor.id} has unsupported level {anchor.level} " ++
      s!"(max {maxCgroupAncestorLevel})")
  else if anchor.id ∉ scan.ids ∧ maxAllowedCgroups < (insert anchor.id scan.ids).card then
    .error (s!"cgroup policy exceeds kernel allow-set capacity of {maxAllowedCgroups} " ++
      "distinct anchors")
  else .ok
    { ids := insert anchor.id scan.ids
      levelMask := scan.levelMask ||| (1 <<< (anchor.level - 1))
      minLevel := min scan.minLevel anchor.level
      maxLevel := max scan.maxLevel anchor.level }

def scanAnchors : AnchorScan → List CgroupAnchor → Except String AnchorScan
  | scan, [] => .ok scan
  | scan, anchor :: anchors =>
    match scan.add anchor with
    | .error e => .error e
    | .ok scan => scanAnchors scan anchors

/-- The error both places give for a generation that does not fit the selector. -/
def generationTooLarge (generation : Nat) : String :=
  s!"cgroup policy generation {generation} exceeds packed selector maximum " ++
    s!"{cgroupSelectorGenerationMask}"

/-- The packed level policy: mask, minimum and maximum level. -/
def AnchorScan.levelPolicy (scan : AnchorScan) : Nat :=
  scan.levelMask ||| (scan.minLevel <<< cgroupMinLevelShift) |||
    (scan.maxLevel <<< cgroupMaxLevelShift)

def cgroupPolicyFromAnchors (anchors : List CgroupAnchor) (generation : Nat) :
    Except String CgroupPolicy :=
  match scanAnchors {} anchors with
  | .error e => .error e
  | .ok scan =>
    if scan.ids = ∅ then
      if generation ≠ 0 then .error "empty cgroup policy must use generation zero"
      else .ok { ids := scan.ids, levelPolicy := 0, generation := 0 }
    else if generation = 0 then .error "nonempty cgroup policy must use a nonzero generation"
    else if cgroupSelectorGenerationMask < generation then .error (generationTooLarge generation)
    else .ok { ids := scan.ids, levelPolicy := scan.levelPolicy, generation }

def cgroupPolicyFromRouting (routing : CgroupRouting) : Except String CgroupPolicy :=
  if routing.isEmpty then cgroupPolicyFromAnchors routing.allowedCgroups 0
  else
    match routing.policyGeneration.filter (· ≠ 0) with
    | none => .error "nonempty cgroup routing has no policy generation"
    | some generation => cgroupPolicyFromAnchors routing.allowedCgroups generation

def packCgroupSelector (slot generation : Nat) : Except String Nat :=
  if 1 < slot then .error s!"invalid cgroup policy slot {slot}"
  else if cgroupSelectorGenerationMask < generation then .error (generationTooLarge generation)
  else .ok ((slot <<< cgroupSelectorSlotShift) ||| generation)

def unpackCgroupSelector (selector : Nat) : Nat × Nat :=
  (selector >>> cgroupSelectorSlotShift, selector &&& cgroupSelectorGenerationMask)

/-! ## The kernel maps -/

/-- The maps of one loaded capture program. -/
structure CgroupMaps where
  allowed : Nat → Nat → Option Nat := fun _ _ => none
  levels : Nat → Nat := fun _ => 0
  selector : Nat := 0

inductive MapWrite where
  | remove (slot id : Nat)
  | insert (slot id generation : Nat)
  | setLevels (slot packed : Nat)
  | setSelector (selector : Nat)
  deriving DecidableEq, Repr

inductive WriteResult where
  | ok
  | keyNotFound
  | error (error : String)
  deriving DecidableEq, Repr

def CgroupMaps.write (m : CgroupMaps) : MapWrite → CgroupMaps
  | .remove slot id =>
    { m with allowed := update m.allowed slot (update (m.allowed slot) id none) }
  | .insert slot id generation =>
    { m with
      allowed := update m.allowed slot (update (m.allowed slot) id (some generation)) }
  | .setLevels slot packed => { m with levels := update m.levels slot packed }
  | .setSelector selector => { m with selector }

/-- A failed map write: the error, and whether the kernel had carried the write out. -/
structure WriteFault where
  error : String
  applied : Bool
  deriving DecidableEq, Repr

/-- The answer to a map write. -/
def CgroupMaps.writeResult (m : CgroupMaps) (op : MapWrite) : Option WriteFault → WriteResult
  | some fault => .error fault.error
  | none =>
    match op with
    | .remove slot id => if (m.allowed slot id).isNone then .keyNotFound else .ok
    | _ => .ok

inductive MapRead where
  | selector
  | levels (slot : Nat)
  | allowed (slot id : Nat)
  | ancestor (level : Nat)
  deriving DecidableEq, Repr

/-- The answer to a map read. `ancestor` is what the kernel helper says of the current task. -/
def CgroupMaps.read (m : CgroupMaps) (ancestor : Nat) : MapRead → Option Nat
  | .selector => some m.selector
  | .levels slot => some (m.levels slot)
  | .allowed slot id => m.allowed slot id
  | .ancestor _ => some ancestor

/-! ## User space: `set_allowed_cgroups` -/

/-- What user space remembers of the slots of the loaded program. -/
structure LoadedCgroups where
  seededAllowedCgroups : Nat → Finset Nat := fun _ => ∅
  seededAllowedCgroupLevels : Nat → Nat := fun _ => 0
  seededAllowedCgroupGenerations : Nat → Nat := fun _ => 0
  activeCgroupSlotIndex : Nat := 0

/-- The order in which a hash set is iterated. -/
structure HashOrder where
  order : Finset Nat → List Nat
  mem_order : ∀ {s : Finset Nat} {id : Nat}, id ∈ order s ↔ id ∈ s
  nodup_order : ∀ s, (order s).Nodup

/-- Iteration in increasing order. -/
def HashOrder.increasing : HashOrder where
  order s := s.sort (· ≤ ·)
  mem_order := Finset.mem_sort _
  nodup_order s := s.sort_nodup (· ≤ ·)

/-- A stretch of `set_allowed_cgroups`: map writes, then the bookkeeping it leaves and its result.
An early return keeps the bookkeeping made so far. -/
abbrev Publishing := Prog MapWrite WriteResult (LoadedCgroups × Except String Unit)

/-- `?` between two stretches. -/
def Publishing.andThen (p : Publishing) (next : LoadedCgroups → Publishing) : Publishing :=
  p.bind fun (loaded, result) =>
    match result with
    | .error e => .ret (loaded, .error e)
    | .ok () => next loaded

variable (slot : Nat)

def cgroupSlotName : String := if slot = 0 then "A" else "B"

def LoadedCgroups.seed (loaded : LoadedCgroups) (slot id : Nat) : LoadedCgroups :=
  { loaded with
    seededAllowedCgroups := update loaded.seededAllowedCgroups slot
      (insert id (loaded.seededAllowedCgroups slot)) }

def LoadedCgroups.unseed (loaded : LoadedCgroups) (slot id : Nat) : LoadedCgroups :=
  { loaded with
    seededAllowedCgroups := update loaded.seededAllowedCgroups slot
      ((loaded.seededAllowedCgroups slot).erase id) }

/-- The loop that clears the stale ids of the inactive slot. -/
def clearStale (slot : Nat) : List Nat → LoadedCgroups → Publishing
  | [], loaded => .ret (loaded, .ok ())
  | id :: ids, loaded => .call (.remove slot id) fun
    | .ok => clearStale slot ids (loaded.unseed slot id)
    | .keyNotFound => clearStale slot ids (loaded.unseed slot id)
    | .error e =>
      .ret (loaded, .error s!"clear ALLOWED_CGROUPS_{cgroupSlotName slot} id {id}: {e}")

/-- The text of an aya map error other than the one a call handles. -/
def WriteResult.toError : WriteResult → Except String Unit
  | .ok => .ok ()
  | .keyNotFound => .error "the requested key was not found"
  | .error e => .error e

/-- The loop that seeds the new ids. -/
def seedAllowed (slot generation : Nat) : List Nat → LoadedCgroups → Publishing
  | [], loaded => .ret (loaded, .ok ())
  | id :: ids, loaded => .call (.insert slot id generation) fun r =>
    match r.toError with
    | .ok () => seedAllowed slot generation ids (loaded.seed slot id)
    | .error e =>
      .ret (loaded, .error s!"seed ALLOWED_CGROUPS_{cgroupSlotName slot} id {id}: {e}")

def writeLevels (desired : CgroupPolicy) (loaded : LoadedCgroups) : Publishing :=
  .call (.setLevels slot desired.levelPolicy) fun r =>
    match r.toError with
    | .error e => .ret (loaded, .error s!"write ALLOWED_CGROUP_LEVELS_{cgroupSlotName slot}: {e}")
    | .ok () => .ret
      ({ loaded with
          seededAllowedCgroupLevels :=
            update loaded.seededAllowedCgroupLevels slot desired.levelPolicy
          seededAllowedCgroupGenerations :=
            update loaded.seededAllowedCgroupGenerations slot desired.generation },
        .ok ())

def publishSelector (desired : CgroupPolicy) (loaded : LoadedCgroups) : Publishing :=
  match packCgroupSelector slot desired.generation with
  | .error e => .ret (loaded, .error e)
  | .ok selector => .call (.setSelector selector) fun r =>
    match r.toError with
    | .error e => .ret (loaded, .error (s!"publish ACTIVE_CGROUP_SLOT={cgroupSlotName slot} " ++
        s!"generation={desired.generation}: {e}"))
    | .ok () => .ret ({ loaded with activeCgroupSlotIndex := slot }, .ok ())

/-- The active slot already holds the desired policy. -/
def LoadedCgroups.holds (loaded : LoadedCgroups) (desired : CgroupPolicy) : Bool :=
  loaded.seededAllowedCgroups loaded.activeCgroupSlotIndex = desired.ids &&
    loaded.seededAllowedCgroupLevels loaded.activeCgroupSlotIndex = desired.levelPolicy &&
    loaded.seededAllowedCgroupGenerations loaded.activeCgroupSlotIndex = desired.generation

/-- `set_allowed_cgroups`, once the routing has been turned into a policy. -/
def setAllowedCgroups (hash : HashOrder) (desired : CgroupPolicy) (loaded : LoadedCgroups) :
    Publishing :=
  if loaded.holds desired then .ret (loaded, .ok ())
  else
    let inactive := 1 - loaded.activeCgroupSlotIndex
    (clearStale inactive (hash.order (loaded.seededAllowedCgroups inactive)) loaded).andThen
      fun loaded =>
        (seedAllowed inactive desired.generation (hash.order desired.ids) loaded).andThen
        fun loaded => (writeLevels inactive desired loaded).andThen
          fun loaded => publishSelector inactive desired loaded

/-! ## The kernel: `matched_cgroup_scope` -/

abbrev Looking := Prog MapRead (Option Nat)

structure CgroupLevelPolicy where
  (mask min max : Nat)
  deriving DecidableEq, Repr

/-- The bits `mask & !through_max` of a 64-bit word. -/
def bitsAbove (mask throughMax : Nat) : Nat := mask &&& ((2 ^ 64 - 1) ^^^ throughMax)

/-- The checks `configured_cgroup_levels` makes on the packed word. -/
def unpackLevels (packed : Nat) : Option CgroupLevelPolicy :=
  let mask := packed &&& cgroupLevelMask
  let min := (packed >>> cgroupMinLevelShift) &&& cgroupLevelFieldMask
  let max := (packed >>> cgroupMaxLevelShift) &&& cgroupLevelFieldMask
  if mask = 0 || min < 1 || maxCgroupAncestorLevel < max || max < min then none
  else
    let minBit := 1 <<< (min - 1)
    let maxBit := 1 <<< (max - 1)
    let throughMax :=
      if max = maxCgroupAncestorLevel then cgroupLevelMask else (1 <<< max) - 1
    if mask &&& minBit = 0 || mask &&& maxBit = 0 || mask &&& (minBit - 1) ≠ 0 ||
        bitsAbove mask throughMax ≠ 0 then none
    else some { mask, min, max }

def configuredCgroupLevels : Looking (Option CgroupLevelPolicy) :=
  if slot = 0 ∨ slot = 1 then
    (Prog.ask (.levels slot)).bind fun packed => .ret (unpackLevels (packed.getD 0))
  else .ret (unpackLevels 0)

def cgroupAllowed (slot cgroupId generation : Nat) : Looking Bool :=
  if slot = 0 ∨ slot = 1 then
    (Prog.ask (.allowed slot cgroupId)).bind fun stored => .ret (stored = some generation)
  else .ret false

def cgroupPolicyIsCurrent (selector : Nat) : Looking Bool :=
  (Prog.ask .selector).bind fun current => .ret (current = some selector)

/-- The helper's answer for an ancestor level; zero when there is none. -/
def currentAncestor (level : Nat) : Looking Nat :=
  (Prog.ask (.ancestor level)).bind fun id => .ret (id.getD 0)

/-- The last test of the lookup for a candidate anchor: allowed, and the policy still active. -/
def anchorMatches (selector cgroupId : Nat) : Looking Bool :=
  (cgroupAllowed (unpackCgroupSelector selector).1 cgroupId
    (unpackCgroupSelector selector).2).andAlso (cgroupPolicyIsCurrent selector)

/-- The loop over the configured levels, deepest first. -/
def inspectAncestors (selector rootCgroupId : Nat) (levels : CgroupLevelPolicy) :
    Nat → Nat → Looking (Option (Nat × Nat))
  | 0, _ => .ret none
  | remaining + 1, level =>
    if level < levels.min then .ret none
    else if levels.mask &&& (1 <<< (level - 1)) = 0 then
      inspectAncestors selector rootCgroupId levels remaining (level - 1)
    else
      (currentAncestor level).bind fun ancestorId =>
        if ancestorId = 0 ∨ ancestorId = rootCgroupId then
          inspectAncestors selector rootCgroupId levels remaining (level - 1)
        else
          (anchorMatches selector ancestorId).bind fun found =>
            if found then .ret (some (ancestorId, (unpackCgroupSelector selector).2))
            else inspectAncestors selector rootCgroupId levels remaining (level - 1)

/-- The part of the lookup after the root check: the leaf itself, then its ancestors. -/
def matchScopes (selector cgroupId rootCgroupId : Nat) (levels : CgroupLevelPolicy)
    (exactMatch : Bool) : Looking (Option (Nat × Nat)) :=
  let ancestors := inspectAncestors selector rootCgroupId levels maxCgroupAncestorLevel levels.max
  if exactMatch && cgroupId ≠ rootCgroupId then
    (cgroupPolicyIsCurrent selector).bind fun current =>
      if current then .ret (some (cgroupId, (unpackCgroupSelector selector).2)) else ancestors
  else ancestors

/-- The lookup behind a selector that names a policy. -/
def lookupScope (selector cgroupId : Nat) : Looking (Option (Nat × Nat)) :=
  (configuredCgroupLevels (unpackCgroupSelector selector).1).bind fun
    | none => .ret none
    | some levels =>
      (cgroupAllowed (unpackCgroupSelector selector).1 cgroupId
        (unpackCgroupSelector selector).2).bind fun exactMatch =>
          (currentAncestor 0).bind fun rootCgroupId =>
            if rootCgroupId = 0 then .ret none
            else matchScopes selector cgroupId rootCgroupId levels exactMatch

def matchedCgroupScope (cgroupId : Nat) : Looking (Option (Nat × Nat)) :=
  if cgroupId = 0 then .ret none
  else (Prog.ask .selector).bind fun
    | none => .ret none
    | some selector =>
      if (unpackCgroupSelector selector).2 = 0 then .ret none else lookupScope selector cgroupId

/-! ## Facts about the pure parts -/

variable {generation : Nat} {anchors : List CgroupAnchor} {policy : CgroupPolicy}

/-- The selector gives back the slot and the generation it was packed from. -/
theorem unpackCgroupSelector_pack {slot selector : Nat}
    (h : packCgroupSelector slot generation = .ok selector) :
    unpackCgroupSelector selector = (slot, generation) := by
  unfold packCgroupSelector at h
  split at h
  · cases h
  · split at h
    · cases h
    · next hslot hgen =>
      obtain rfl := ok.inj h
      have hlt : generation < 2 ^ 63 := by
        unfold cgroupSelectorGenerationMask at hgen
        omega
      simp only [unpackCgroupSelector, cgroupSelectorSlotShift, cgroupSelectorGenerationMask]
      rw [← Nat.shiftLeft_add_eq_or_of_lt hlt, Nat.and_two_pow_sub_one_eq_mod]
      exact Prod.ext (by omega) (by omega)

theorem AnchorScan.add_ids {scan scan' : AnchorScan} {anchor : CgroupAnchor}
    (h : scan.add anchor = .ok scan') : scan'.ids = insert anchor.id scan.ids := by
  unfold AnchorScan.add at h
  split at h
  · cases h
  split at h
  · cases h
  split at h
  · cases h
  split at h
  · cases h
  split at h
  · cases h
  exact (congrArg AnchorScan.ids (ok.inj h)).symm

theorem scanAnchors_ids {scan scan' : AnchorScan} (h : scanAnchors scan anchors = .ok scan')
    (id : Nat) : id ∈ scan'.ids ↔ id ∈ scan.ids ∨ ∃ a ∈ anchors, a.id = id := by
  induction anchors generalizing scan with
  | nil =>
    obtain rfl := ok.inj h
    simp
  | cons a anchors ih =>
    rw [scanAnchors] at h
    cases hadd : scan.add a with
    | error e => simp [hadd] at h
    | ok next =>
      rw [hadd] at h
      rw [ih h, AnchorScan.add_ids hadd, Finset.mem_insert]
      simp only [List.mem_cons, exists_eq_or_imp]
      tauto

/-- A policy carries the generation it was asked for, and its ids are the ids of its anchors. -/
theorem fromAnchors_spec (h : cgroupPolicyFromAnchors anchors generation = .ok policy) :
    policy.generation = generation ∧ ∀ id, id ∈ policy.ids ↔ ∃ a ∈ anchors, a.id = id := by
  unfold cgroupPolicyFromAnchors at h
  cases hscan : scanAnchors {} anchors with
  | error e => simp [hscan] at h
  | ok scan =>
    have hids := scanAnchors_ids hscan
    simp only [Finset.notMem_empty, false_or] at hids
    simp only [hscan] at h
    split at h
    · split at h
      · cases h
      · next hzero =>
        obtain rfl := ok.inj h
        exact ⟨(not_not.1 hzero).symm, hids⟩
    · split at h
      · cases h
      · split at h
        · cases h
        · obtain rfl := ok.inj h
          exact ⟨rfl, hids⟩

end EdgePacer.Ebpf
