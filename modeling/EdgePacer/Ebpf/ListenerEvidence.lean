import EdgePacer.Ebpf.ListenerState
import EdgePacer.Lib.Trace

/-!
# What an authorization generation stands for

The listener state is driven by any sequence of its operations. The log keeps each operation with
its answer, newest first, so that "the last applied snapshot", "since the snapshot began" and
"started before a reset" are functions of the log alone and say nothing about the state's fields.

A run is orderly when no snapshot is begun at a cut before the one in force and the generation
counter does not wrap. In every orderly run a reported authorization generation stands for fresh
evidence (`authorization_fresh`). The order of the checks in `record_delta` and the wrapping counter
make both conditions necessary (`disorderly_evidence`).
-/

namespace EdgePacer.Ebpf

open List Option ListenerState InFlightSnapshot

open Lib (Always Each)

/-! ## Operations, answers and the log -/

inductive ListenerOp where
  | begin (cutNs : Nat) (listenerDropCounts : List Nat)
  | recordDelta (association : ListenerAssociation) (observedAtNs : Nat)
  | apply (generation : Nat) (snapshot : ListenerSnapshot) (listenerDropCounts : List Nat)
      (associationLimit : Nat)
  | fail (generation : Nat)
  | validate (generation : Nat) (listenerDropCounts : List Nat)
  | clear
  | reset

inductive ListenerAnswer where
  | begun (generation : Option Nat)
  | delta (outcome : DeltaOutcome)
  | applied (result : Except String Bool)
  | failed (current : Bool)
  | validated (result : Except String Unit)
  | done

def ListenerState.exec (s : ListenerState) : ListenerOp → ListenerState × ListenerAnswer
  | .begin cut counts =>
    ((s.beginSnapshotWithLoss cut counts).1, .begun (s.beginSnapshotWithLoss cut counts).2)
  | .recordDelta a t => ((s.recordDelta a t).1, .delta (s.recordDelta a t).2)
  | .apply g snapshot counts limit =>
    ((s.applySnapshotWithLoss g snapshot counts limit).1,
      .applied (s.applySnapshotWithLoss g snapshot counts limit).2)
  | .fail g => ((s.failSnapshot g).1, .failed (s.failSnapshot g).2)
  | .validate g counts =>
    ((s.validateAuthorization g counts).1, .validated (s.validateAuthorization g counts).2)
  | .clear => (s.clearOwnership, .done)
  | .reset => (s.reset, .done)

abbrev ListenerEntry := ListenerOp × ListenerAnswer

/-- The state together with everything that was asked of it, newest first. -/
structure ListenerHistory where
  state : ListenerState := {}
  log : List ListenerEntry := []

def ListenerHistory.step (h : ListenerHistory) (op : ListenerOp) : ListenerHistory :=
  { state := (h.state.exec op).1, log := (op, (h.state.exec op).2) :: h.log }

namespace ListenerEntry

/-- The generation, cut and loss counters of a snapshot that this entry started. -/
def started : ListenerEntry → Option (Nat × Nat × List Nat)
  | (.begin cut counts, .begun (some g)) => some (g, cut, counts)
  | _ => none

/-- The generation, snapshot and loss counters that this entry put in force. -/
def installed : ListenerEntry → Option (Nat × ListenerSnapshot × List Nat)
  | (.apply g snapshot counts _, .applied (.ok true)) => some (g, snapshot, counts)
  | _ => none

/-- The generation of a running snapshot that this entry ended: applied, refused or failed. -/
def ended : ListenerEntry → Option Nat
  | (.apply g .., .applied (.ok true)) => some g
  | (.apply g .., .applied (.error _)) => some g
  | (.fail g, .failed true) => some g
  | _ => none

def resets : ListenerEntry → Bool
  | (.reset, _) => true
  | _ => false

/-- The observation time of a valid listener change that this entry recorded. -/
def changed : ListenerEntry → Option Nat
  | (.recordDelta _ t, .delta outcome) => if outcome = .ignoredInvalid then none else some t
  | _ => none

/-- The entry recorded a change observed at or after `cut`. -/
def ChangesFrom (cut : Nat) (e : ListenerEntry) : Prop := ∃ t, e.changed = some t ∧ cut ≤ t

end ListenerEntry

open ListenerEntry

/-! ## Reading the log -/

/-- The last applied snapshot. -/
def lastApplied : List ListenerEntry → Option (Nat × ListenerSnapshot × List Nat)
  | [] => none
  | e :: log =>
    match e.installed with
    | some applied => some applied
    | none => lastApplied log

/-- Cut and loss counters with which the latest snapshot of this generation began. -/
def begunAs (generation : Nat) : List ListenerEntry → Option (Nat × List Nat)
  | [] => none
  | e :: log =>
    match e.started with
    | some (g, cut, counts) => if g = generation then some (cut, counts) else begunAs generation log
    | none => begunAs generation log

/-- The entries since the latest snapshot of this generation began. -/
def sinceBegun (generation : Nat) : List ListenerEntry → List ListenerEntry
  | [] => []
  | e :: log =>
    if e.started.any (·.1 = generation) then [] else e :: sinceBegun generation log

/-- The snapshots started and neither applied, refused, failed nor reset since. -/
def openSnapshots : List ListenerEntry → List Nat
  | [] => []
  | e :: log =>
    match e.started with
    | some (g, _) => g :: openSnapshots log
    | none =>
      if e.resets then []
      else match e.ended with
        | some g => (openSnapshots log).erase g
        | none => openSnapshots log

/-- Generations of all snapshots started. -/
def startedGenerations (log : List ListenerEntry) : List Nat :=
  log.filterMap fun e => e.started.map (·.1)

/-- Generations of the snapshots started before a reset or before a newer snapshot. -/
def superseded : List ListenerEntry → List Nat
  | [] => []
  | e :: log =>
    if e.started.isSome || e.resets then startedGenerations log else superseded log

/-- No snapshot was applied that had been started before a reset or a newer snapshot. -/
def OnlyCurrentApplied : List ListenerEntry → Prop
  | [] => True
  | e :: log => (∀ applied, e.installed = some applied → applied.1 ∉ superseded log) ∧
      OnlyCurrentApplied log

/-! ## The property -/

/-- What a snapshot shows for a port: the sockets and the foreign candidates it lists for it. -/
def ListenerSnapshot.evidenceForPort (snapshot : ListenerSnapshot) (port : Nat) : PortEvidence :=
  portEvidence
    ((snapshot.associations.filter fun a => a.port = port).image (·.cgroupId))
    ((snapshot.foreignCandidates.filter fun c => c.1 = port).image (·.2))

/-- The state's evidence is exactly the snapshot. -/
structure ListenerState.Shows (s : ListenerState) (snapshot : ListenerSnapshot) : Prop where
  owners : s.owners = snapshot.owners
  foreignCandidates : s.foreignCandidates = snapshot.foreignCandidates
  rootCgroupId : s.rootCgroupId = some snapshot.rootCgroupId
  associationCount : s.associationCount = snapshot.associations.card
  evidence : ∀ port, s.evidenceForPort port = snapshot.evidenceForPort port

/-- A reported generation: it is that of the last applied snapshot, which is the evidence; no change
at or after its cut was recorded since it began; its loss counters are those it began with and the
only ones a validation accepts. -/
def ListenerHistory.Authorised (h : ListenerHistory) (generation : Nat) : Prop :=
  ∃ snapshot cut counts,
    lastApplied h.log = some (generation, snapshot, counts) ∧
    h.state.Shows snapshot ∧
    begunAs generation h.log = some (cut, counts) ∧
    (∀ e ∈ sinceBegun generation h.log, ¬ e.ChangesFrom cut) ∧
    (∀ counts', (h.state.validateAuthorization generation counts').2 = .ok () → counts' = counts)

structure ListenerHistory.Fresh (h : ListenerHistory) : Prop where
  authorised : ∀ generation, h.state.authorizationGeneration = some generation →
    h.Authorised generation
  one_in_flight : (openSnapshots h.log).length ≤ 1
  only_current : OnlyCurrentApplied h.log

/-- No snapshot begins at a cut before the one in force, and no generation wraps. -/
def ListenerHistory.Orderly (h : ListenerHistory) : ListenerOp → Prop
  | .begin cut _ =>
    (h.state.ready = true → h.state.appliedCutNs ≤ cut) ∧ h.state.generation + 1 < 2 ^ 64
  | .reset => h.state.generation + 1 < 2 ^ 64
  | _ => True

/-! ## What one operation can do -/

/-- The entry neither starts, applies, ends nor resets a snapshot. -/
structure ListenerEntry.Quiet (e : ListenerEntry) : Prop where
  started : e.started = none
  installed : e.installed = none
  ended : e.ended = none
  resets : e.resets = false

/-- The state a successful `begin` leaves. -/
def ListenerState.begun (s : ListenerState) (cutNs : Nat) (listenerDropCounts : List Nat) :
    ListenerState :=
  { s.dropOnLoss listenerDropCounts with
    generation := nextGeneration s.generation
    inFlight := some
      { generation := nextGeneration s.generation, cutNs, listenerDropCounts,
        unclassifiedDeltaObserved := false } }

/-- Every effect an operation can have, with the entry it leaves in the log. -/
inductive ListenerStep (s : ListenerState) : ListenerEntry → ListenerState → Prop
  | begin {cut : Nat} {counts : List Nat} (idle : s.inFlight = none) :
      ListenerStep s (.begin cut counts, .begun (some (nextGeneration s.generation)))
        (s.begun cut counts)
  | keep {e : ListenerEntry} (quiet : e.Quiet)
      (early : ∀ t, e.changed = some t → s.ready = true ∧ t < s.appliedCutNs) : ListenerStep s e s
  | drop {e : ListenerEntry} (quiet : e.Quiet) (unchanged : e.changed = none) :
      ListenerStep s e s.clearOwnership
  | change {e : ListenerEntry} {s' : ListenerState} {t : Nat} (quiet : e.Quiet)
      (changed : e.changed = some t) (unready : s'.ready = false)
      (marked : s'.inFlight = s.inFlight.map (·.observe t))
      (generation : s'.generation = s.generation) : ListenerStep s e s'
  | install {f : InFlightSnapshot} {snapshot : ListenerSnapshot} {limit : Nat}
      (running : s.inFlight = some f) (clean : f.unclassifiedDeltaObserved = false) :
      ListenerStep s (.apply f.generation snapshot f.listenerDropCounts limit, .applied (.ok true))
        (s.install f snapshot f.listenerDropCounts)
  | abandon {e : ListenerEntry} {f : InFlightSnapshot} (running : s.inFlight = some f)
      (started : e.started = none) (installed : e.installed = none)
      (ended : e.ended = some f.generation) (resets : e.resets = false)
      (unchanged : e.changed = none) :
      ListenerStep s e { s with inFlight := none }.clearOwnership
  | reset : ListenerStep s (.reset, .done) s.reset

namespace ListenerState

variable (s : ListenerState)

theorem begin_step (cut : Nat) (counts : List Nat) :
    ListenerStep s (.begin cut counts, .begun (s.beginSnapshotWithLoss cut counts).2)
      (s.beginSnapshotWithLoss cut counts).1 := by
  unfold beginSnapshotWithLoss
  split
  · exact .keep ⟨rfl, rfl, rfl, rfl⟩ nofun
  · next hidle =>
    simp only [Bool.or_eq_true, isSome_iff_ne_none, not_or, not_not] at hidle
    exact .begin hidle.1

theorem recordDelta_step (a : ListenerAssociation) (t : Nat) :
    ListenerStep s (.recordDelta a t, .delta (s.recordDelta a t).2) (s.recordDelta a t).1 := by
  unfold recordDelta
  split
  · exact .keep ⟨rfl, rfl, rfl, rfl⟩ nofun
  · split
    · next hearly =>
      -- a change before the cut in force: it is recorded, and nothing happens
      simp only [Bool.and_eq_true, decide_eq_true_eq] at hearly
      refine .keep ⟨rfl, rfl, rfl, rfl⟩ fun t' ht' => ?_
      obtain rfl : t = t' := by simpa [changed] using ht'
      exact hearly
    · cases hready : s.ready with
      | true | false => exact .change ⟨rfl, rfl, rfl, rfl⟩ rfl rfl rfl rfl

theorem apply_step (g : Nat) (snapshot : ListenerSnapshot) (counts : List Nat) (limit : Nat) :
    ListenerStep s
      (.apply g snapshot counts limit, .applied (s.applySnapshotWithLoss g snapshot counts limit).2)
      (s.applySnapshotWithLoss g snapshot counts limit).1 := by
  unfold applySnapshotWithLoss
  cases hf : s.inFlight with
  | none => exact .keep ⟨rfl, rfl, rfl, rfl⟩ nofun
  | some f =>
    dsimp only
    by_cases hg : f.generation = g
    · subst hg
      rw [if_neg (not_not.2 rfl)]
      by_cases hcounts : f.listenerDropCounts = counts
      · subst hcounts
        rw [if_neg (not_not.2 rfl)]
        cases hclean : f.unclassifiedDeltaObserved with
        | true => exact .abandon hf rfl rfl rfl rfl rfl
        | false =>
          rw [if_neg Bool.false_ne_true]
          split
          · exact .abandon hf rfl rfl rfl rfl rfl
          · exact .install hf hclean
      · rw [if_pos hcounts]
        exact .abandon hf rfl rfl rfl rfl rfl
    · rw [if_pos hg]
      exact .keep ⟨rfl, rfl, rfl, rfl⟩ nofun

theorem fail_step (g : Nat) :
    ListenerStep s (.fail g, .failed (s.failSnapshot g).2) (s.failSnapshot g).1 := by
  unfold failSnapshot
  split
  · next hcurrent =>
    obtain ⟨f, hf, hg⟩ := (any_eq_true _ _).1 hcurrent
    obtain rfl := of_decide_eq_true hg
    exact .abandon hf rfl rfl rfl rfl rfl
  · exact .keep ⟨rfl, rfl, rfl, rfl⟩ nofun

theorem validate_step (g : Nat) (counts : List Nat) :
    ListenerStep s (.validate g counts, .validated (s.validateAuthorization g counts).2)
      (s.validateAuthorization g counts).1 := by
  unfold validateAuthorization
  split
  · exact .keep ⟨rfl, rfl, rfl, rfl⟩ nofun
  · split
    · exact .drop ⟨rfl, rfl, rfl, rfl⟩ rfl
    · exact .keep ⟨rfl, rfl, rfl, rfl⟩ nofun

/-- Every operation has one of the effects of `ListenerStep`. -/
theorem exec_step (op : ListenerOp) : ListenerStep s (op, (s.exec op).2) (s.exec op).1 := by
  cases op with
  | begin cut counts => exact s.begin_step cut counts
  | recordDelta a t => exact s.recordDelta_step a t
  | apply g snapshot counts limit => exact s.apply_step g snapshot counts limit
  | fail g => exact s.fail_step g
  | validate g counts => exact s.validate_step g counts
  | clear => exact .drop ⟨rfl, rfl, rfl, rfl⟩ rfl
  | reset => exact .reset

end ListenerState

/-! ## One more entry in the log -/

section

variable {e : ListenerEntry} {log : List ListenerEntry} {g : Nat}

theorem lastApplied_cons (h : e.installed = none) : lastApplied (e :: log) = lastApplied log := by
  rw [lastApplied, h]

variable (h : e.started = none)

include h

theorem begunAs_cons : begunAs g (e :: log) = begunAs g log := by
  rw [begunAs, h]

theorem sinceBegun_cons : sinceBegun g (e :: log) = e :: sinceBegun g log := by
  rw [sinceBegun, h]
  rfl

theorem startedGenerations_cons : startedGenerations (e :: log) = startedGenerations log := by
  rw [startedGenerations, filterMap_cons, h]
  rfl

theorem superseded_cons (hreset : e.resets = false) : superseded (e :: log) = superseded log := by
  rw [superseded, h, hreset]
  rfl

theorem openSnapshots_cons (hreset : e.resets = false) (hended : e.ended = none) :
    openSnapshots (e :: log) = openSnapshots log := by
  simp [openSnapshots, h, hreset, hended]

theorem openSnapshots_ended (hreset : e.resets = false) (hended : e.ended = some g) :
    openSnapshots (e :: log) = (openSnapshots log).erase g := by
  simp [openSnapshots, h, hreset, hended]

omit h

theorem onlyCurrentApplied_cons (h : e.installed = none) :
    OnlyCurrentApplied (e :: log) ↔ OnlyCurrentApplied log := by
  simp [OnlyCurrentApplied, h]

theorem mem_startedGenerations_of_begunAs {begun : Nat × List Nat}
    (h : begunAs g log = some begun) : g ∈ startedGenerations log := by
  induction log with
  | nil => cases h
  | cons e log ih =>
    rw [startedGenerations, filterMap_cons]
    rw [begunAs] at h
    cases hs : e.started with
    | none =>
      rw [hs] at h
      exact ih h
    | some start =>
      simp only [hs] at h
      split at h
      · next heq => exact heq ▸ mem_cons_self
      · exact mem_cons_of_mem _ (ih h)

end

/-! ## The invariant -/

/-- The evidence in force, read off the log. -/
structure ListenerHistory.InForce (h : ListenerHistory) (g : Nat) (snapshot : ListenerSnapshot)
    (counts : List Nat) : Prop where
  generation : h.state.appliedGeneration = some g
  last : lastApplied h.log = some (g, snapshot, counts)
  shows : h.state.Shows snapshot
  begun : begunAs g h.log = some (h.state.appliedCutNs, counts)
  unchanged : ∀ e ∈ sinceBegun g h.log, ¬ e.ChangesFrom h.state.appliedCutNs
  counts : h.state.appliedDropCounts = some counts

/-- The snapshot in flight, read off the log. -/
structure ListenerHistory.Running (h : ListenerHistory) (f : InFlightSnapshot) : Prop where
  generation : f.generation = h.state.generation
  begun : begunAs f.generation h.log = some (f.cutNs, f.listenerDropCounts)
  unchanged : f.unclassifiedDeltaObserved = false →
    ∀ e ∈ sinceBegun f.generation h.log, ¬ e.ChangesFrom f.cutNs
  after_cut : h.state.ready = true → h.state.appliedCutNs ≤ f.cutNs

/-- The state's fields as the log has them. -/
structure ListenerHistory.Inv (h : ListenerHistory) : Prop where
  started_le : ∀ g ∈ startedGenerations h.log, g ≤ h.state.generation
  superseded_lt : ∀ g ∈ superseded h.log, g < h.state.generation
  open_eq : openSnapshots h.log = (h.state.inFlight.map (·.generation)).toList
  running : ∀ f, h.state.inFlight = some f → h.Running f
  inForce : h.state.ready = true → ∃ g snapshot counts, h.InForce g snapshot counts
  only_current : OnlyCurrentApplied h.log

variable {cut : Nat}

theorem ListenerEntry.not_changesFrom_of_none {e : ListenerEntry} (h : e.changed = none) :
    ¬ e.ChangesFrom cut := by
  rintro ⟨t, ht, -⟩
  cases h.symm.trans ht

theorem ListenerEntry.not_changesFrom {e : ListenerEntry} (h : ∀ t, e.changed = some t → t < cut) :
    ¬ e.ChangesFrom cut := by
  rintro ⟨t, ht, hcut⟩
  have := h t ht
  omega

namespace ListenerHistory

variable {h : ListenerHistory} {e : ListenerEntry} {s' : ListenerState}

variable {snapshot : ListenerSnapshot} {counts : List Nat} (f : InFlightSnapshot)

/-- The evidence in force survives an entry that starts and applies nothing and is not a change
after the cut, as long as the evidence itself is untouched. -/
theorem InForce.cons {g : Nat} (hf : h.InForce g snapshot counts) (hstart : e.started = none)
    (hinst : e.installed = none) (hchange : ¬ e.ChangesFrom h.state.appliedCutNs) :
    InForce ⟨h.state, e :: h.log⟩ g snapshot counts where
  generation := hf.generation
  last := (lastApplied_cons hinst).trans hf.last
  shows := hf.shows
  begun := (begunAs_cons hstart).trans hf.begun
  unchanged := by
    rw [sinceBegun_cons hstart]
    exact forall_mem_cons.2 ⟨hchange, hf.unchanged⟩
  counts := hf.counts

theorem Inv.keep (hi : h.Inv) (hq : e.Quiet)
    (hearly : ∀ t, e.changed = some t → h.state.ready = true ∧ t < h.state.appliedCutNs) :
    Inv ⟨h.state, e :: h.log⟩ where
  started_le := by rw [startedGenerations_cons hq.started]; exact hi.started_le
  superseded_lt := by rw [superseded_cons hq.started hq.resets]; exact hi.superseded_lt
  open_eq := by rw [openSnapshots_cons hq.started hq.resets hq.ended]; exact hi.open_eq
  running := by
    intro f hf
    have hr := hi.running f hf
    refine ⟨hr.generation, (begunAs_cons hq.started).trans hr.begun, fun hclean => ?_, hr.after_cut⟩
    -- a change before the cut in force is before the cut of the running snapshot too
    have hnew : ¬ e.ChangesFrom f.cutNs := not_changesFrom fun t ht =>
      lt_of_lt_of_le (hearly t ht).2 (hr.after_cut (hearly t ht).1)
    rw [sinceBegun_cons hq.started]
    exact forall_mem_cons.2 ⟨hnew, hr.unchanged hclean⟩
  inForce := by
    intro hready
    obtain ⟨g, snapshot, counts, hf⟩ := hi.inForce hready
    exact ⟨g, snapshot, counts, hf.cons hq.started hq.installed
      (not_changesFrom fun t ht => (hearly t ht).2)⟩
  only_current := (onlyCurrentApplied_cons hq.installed).2 hi.only_current

/-- Once the evidence is dropped only the running snapshot has to be followed. -/
theorem Inv.unready (hi : h.Inv) (hstart : e.started = none) (hinst : e.installed = none)
    (hreset : e.resets = false) (hgen : s'.generation = h.state.generation)
    (hready : s'.ready = false)
    (hopen : openSnapshots (e :: h.log) = (s'.inFlight.map (·.generation)).toList)
    (hrun : ∀ f, s'.inFlight = some f → Running ⟨s', e :: h.log⟩ f) : Inv ⟨s', e :: h.log⟩ where
  started_le := by
    rw [startedGenerations_cons hstart]
    exact hgen ▸ hi.started_le
  superseded_lt := by
    rw [superseded_cons hstart hreset]
    exact hgen ▸ hi.superseded_lt
  open_eq := hopen
  running := hrun
  inForce := fun hr => nomatch hready.symm.trans hr
  only_current := (onlyCurrentApplied_cons hinst).2 hi.only_current

theorem Inv.drop (hi : h.Inv) (hq : e.Quiet) (hsame : e.changed = none) :
    Inv ⟨h.state.clearOwnership, e :: h.log⟩ := by
  refine hi.unready hq.started hq.installed hq.resets rfl rfl
    ((openSnapshots_cons hq.started hq.resets hq.ended).trans hi.open_eq) fun f hf => ?_
  have hr := hi.running f hf
  refine ⟨hr.generation, (begunAs_cons hq.started).trans hr.begun, fun hclean => ?_,
    nofun⟩
  rw [sinceBegun_cons hq.started]
  exact forall_mem_cons.2 ⟨not_changesFrom_of_none hsame, hr.unchanged hclean⟩

@[simp] theorem observe_generation (t : Nat) : (f.observe t).generation = f.generation := by
  unfold observe
  split <;> rfl

/-- A change that leaves a running snapshot unmarked was observed before its cut. -/
theorem observe_unmarked {f : InFlightSnapshot} {t : Nat}
    (hclean : (f.observe t).unclassifiedDeltaObserved = false) : f.observe t = f ∧ t < f.cutNs := by
  unfold observe at hclean
  split at hclean
  · cases hclean
  · next hbefore => exact ⟨if_neg hbefore, not_le.1 hbefore⟩

theorem observe_begun (t : Nat) :
    (f.observe t).cutNs = f.cutNs ∧ (f.observe t).listenerDropCounts = f.listenerDropCounts := by
  unfold observe
  split <;> exact ⟨rfl, rfl⟩

theorem Inv.change {t : Nat} (hi : h.Inv) (hq : e.Quiet) (hchange : e.changed = some t)
    (hready : s'.ready = false) (hmark : s'.inFlight = h.state.inFlight.map (·.observe t))
    (hgen : s'.generation = h.state.generation) : Inv ⟨s', e :: h.log⟩ := by
  have hopen : openSnapshots (e :: h.log) = (s'.inFlight.map (·.generation)).toList := by
    rw [openSnapshots_cons hq.started hq.resets hq.ended, hi.open_eq, hmark, Option.map_map]
    congr 2
    exact funext fun f => (observe_generation f t).symm
  refine hi.unready hq.started hq.installed hq.resets hgen hready hopen fun f' hf' => ?_
  rw [hmark] at hf'
  obtain ⟨f, hf, rfl⟩ := map_eq_some_iff.1 hf'
  have hr := hi.running f hf
  obtain ⟨hcut, hcounts⟩ := observe_begun f t
  refine ⟨?_, ?_, fun hclean => ?_, fun hr => nomatch hready.symm.trans hr⟩
  · rw [observe_generation, hr.generation]
    exact hgen.symm
  · rw [observe_generation, hcut, hcounts]
    exact (begunAs_cons hq.started).trans hr.begun
  · -- the snapshot stayed unmarked, so the change came before its cut
    obtain ⟨hsame, hbefore⟩ := observe_unmarked hclean
    have hnew : ¬ e.ChangesFrom f.cutNs := not_changesFrom fun t' ht' => by
      obtain rfl : t = t' := some.inj (hchange.symm.trans ht')
      exact hbefore
    rw [hsame, sinceBegun_cons hq.started]
    exact forall_mem_cons.2 ⟨hnew, hr.unchanged (hsame ▸ hclean)⟩

theorem Inv.abandon {f : InFlightSnapshot} (hi : h.Inv) (hrun : h.state.inFlight = some f)
    (hstart : e.started = none) (hinst : e.installed = none) (hended : e.ended = some f.generation)
    (hreset : e.resets = false) :
    Inv ⟨{ h.state with inFlight := none }.clearOwnership, e :: h.log⟩ := by
  refine hi.unready hstart hinst hreset rfl rfl ?_ nofun
  rw [openSnapshots_ended hstart hreset hended, hi.open_eq, hrun]
  simp

theorem Inv.reset (hi : h.Inv) (hwrap : h.state.generation + 1 < 2 ^ 64) :
    Inv ⟨h.state.reset, (.reset, .done) :: h.log⟩ where
  started_le := by
    intro g hg
    rw [reset_generation, nextGeneration_of_lt hwrap]
    exact Nat.le_succ_of_le (hi.started_le g hg)
  superseded_lt := by
    intro g hg
    rw [reset_generation, nextGeneration_of_lt hwrap]
    exact Nat.lt_succ_of_le (hi.started_le g hg)
  open_eq := rfl
  running := nofun
  inForce := nofun
  only_current := (onlyCurrentApplied_cons rfl).2 hi.only_current

theorem Inv.begin {cut : Nat} (hi : h.Inv) (hidle : h.state.inFlight = none)
    (hcut : h.state.ready = true → h.state.appliedCutNs ≤ cut)
    (hwrap : h.state.generation + 1 < 2 ^ 64) :
    Inv ⟨h.state.begun cut counts,
      (.begin cut counts, .begun (some (nextGeneration h.state.generation))) :: h.log⟩ := by
  rw [nextGeneration_of_lt hwrap]
  have hgen := nextGeneration_of_lt hwrap
  -- evidence that is still in force afterwards was not touched
  have hkept : (h.state.begun cut counts).ready = true → h.state.dropOnLoss counts = h.state := by
    intro hready
    rcases h.state.dropOnLoss_cases counts with hsame | hdrop
    · exact hsame
    · have hready : (h.state.dropOnLoss counts).ready = true := hready
      rw [hdrop] at hready
      cases hready
  constructor
  case started_le =>
    intro g hg
    rcases mem_cons.1 hg with rfl | hg
    · exact hgen.ge
    · exact hgen.ge.trans' (Nat.le_succ_of_le (hi.started_le g hg))
  case superseded_lt =>
    intro g hg
    exact hgen.ge.trans_lt' (Nat.lt_succ_of_le (hi.started_le g hg))
  case open_eq =>
    have hopen : openSnapshots h.log = [] := by rw [hi.open_eq, hidle]; rfl
    simp [openSnapshots, started, hopen, begun, nextGeneration_of_lt hwrap]
  case running =>
    intro f hf
    cases hf
    refine ⟨rfl, ?_, fun _ => ?_, fun hready => ?_⟩
    · simp [begunAs, started, nextGeneration_of_lt hwrap]
    · simp [sinceBegun, started, nextGeneration_of_lt hwrap]
    · have hsame := hkept hready
      have hready : (h.state.dropOnLoss counts).ready = true := hready
      show (h.state.dropOnLoss counts).appliedCutNs ≤ cut
      rw [hsame] at hready ⊢
      exact hcut hready
  case inForce =>
    intro hready
    have hsame := hkept hready
    have hready : (h.state.dropOnLoss counts).ready = true := hready
    rw [hsame] at hready
    obtain ⟨g, snapshot, counts', hf⟩ := hi.inForce hready
    have hne : h.state.generation + 1 ≠ g := by
      have := hi.started_le g (mem_startedGenerations_of_begunAs hf.begun)
      omega
    refine ⟨g, snapshot, counts', ?_⟩
    simp only [begun, hsame]
    refine ⟨hf.generation, (lastApplied_cons rfl).trans hf.last,
      ⟨hf.shows.owners, hf.shows.foreignCandidates, hf.shows.rootCgroupId,
        hf.shows.associationCount, hf.shows.evidence⟩, ?_, ?_, hf.counts⟩
    · simp [begunAs, started, hne, hf.begun]
    · rw [sinceBegun, if_neg (by simpa [started] using hne)]
      exact forall_mem_cons.2 ⟨not_changesFrom_of_none rfl, hf.unchanged⟩
  case only_current => exact (onlyCurrentApplied_cons rfl).2 hi.only_current

/-- An installed snapshot is what the state shows. -/
theorem install_shows (s : ListenerState) (f : InFlightSnapshot) (snapshot : ListenerSnapshot)
    (counts : List Nat) : (s.install f snapshot counts).Shows snapshot where
  owners := rfl
  foreignCandidates := rfl
  rootCgroupId := rfl
  associationCount := by
    refine Finset.card_image_of_injective _ fun a b hab => ?_
    cases a
    cases b
    simpa [and_assoc] using hab
  evidence := by
    intro port
    have howners : (snapshot.owners.filter fun o => o.1.2 = port).image (·.2) =
        (snapshot.associations.filter fun a => a.port = port).image (·.cgroupId) := by
      rw [ListenerSnapshot.owners, Finset.filter_image, Finset.image_image]
      rfl
    rw [ListenerSnapshot.evidenceForPort, ← howners]
    rfl

theorem Inv.install {f : InFlightSnapshot} {limit : Nat} (hi : h.Inv)
    (hrun : h.state.inFlight = some f) (hclean : f.unclassifiedDeltaObserved = false) :
    Inv ⟨h.state.install f snapshot f.listenerDropCounts,
      (.apply f.generation snapshot f.listenerDropCounts limit, .applied (.ok true)) :: h.log⟩ := by
  have hr := hi.running f hrun
  constructor
  case started_le => exact hi.started_le
  case superseded_lt => exact hi.superseded_lt
  case open_eq =>
    rw [openSnapshots_ended rfl rfl rfl, hi.open_eq, hrun]
    simp [ListenerState.install]
  case running => exact nofun
  case inForce =>
    refine fun _ => ⟨f.generation, snapshot, f.listenerDropCounts, rfl, rfl, install_shows ..,
      (begunAs_cons rfl).trans hr.begun, ?_, rfl⟩
    exact forall_mem_cons.2 ⟨not_changesFrom_of_none rfl, hr.unchanged hclean⟩
  case only_current =>
    refine ⟨fun applied happ => ?_, hi.only_current⟩
    cases happ
    -- the running snapshot has the newest generation, a superseded one an older number
    intro hmem
    have := hi.superseded_lt _ hmem
    have := hr.generation
    omega

theorem Inv.step (hi : h.Inv) (op : ListenerOp) (ho : h.Orderly op) : (h.step op).Inv := by
  have hstep := h.state.exec_step op
  show Inv ⟨(h.state.exec op).1, (op, (h.state.exec op).2) :: h.log⟩
  generalize he : (op, (h.state.exec op).2) = e at hstep ⊢
  generalize (h.state.exec op).1 = s' at hstep ⊢
  cases hstep with
  | begin hidle =>
    obtain rfl := congrArg Prod.fst he
    exact hi.begin hidle ho.1 ho.2
  | keep hq hearly => exact hi.keep hq hearly
  | drop hq hsame => exact hi.drop hq hsame
  | change hq hchange hready hmark hgen => exact hi.change hq hchange hready hmark hgen
  | install hrun hclean => exact hi.install hrun hclean
  | abandon hrun hstart hinst hended hreset _ => exact hi.abandon hrun hstart hinst hended hreset
  | reset =>
    obtain rfl := congrArg Prod.fst he
    exact hi.reset ho

theorem inv_initial : Inv {} where
  started_le := nofun
  superseded_lt := nofun
  open_eq := rfl
  running := nofun
  inForce := nofun
  only_current := trivial

theorem Inv.fresh (hi : h.Inv) : h.Fresh where
  authorised := by
    intro g hg
    obtain ⟨hready, happlied⟩ := h.state.authorizationGeneration_eq_some.1 hg
    obtain ⟨g', snapshot, counts, hf⟩ := hi.inForce hready
    obtain rfl : g' = g := some.inj (hf.generation.symm.trans happlied)
    refine ⟨snapshot, h.state.appliedCutNs, counts, hf.last, hf.shows, hf.begun, hf.unchanged, ?_⟩
    intro counts' hok
    have hcounts := (h.state.validateAuthorization_ok hok).2.2.2
    exact some.inj (hcounts.symm.trans hf.counts)
  one_in_flight := by
    rw [hi.open_eq]
    cases h.state.inFlight <;> simp
  only_current := hi.only_current

end ListenerHistory

open ListenerHistory

/-- **Freshness of the evidence.** In every orderly run of the listener state: whenever it reports
an authorization generation, its evidence is exactly the last applied snapshot, no valid listener
change at or after that snapshot's cut was recorded since it began, and the loss counters at its
begin, at its application and at any accepted validation are equal; at most one snapshot is in
flight; and no snapshot is applied that was started before a reset or before a newer snapshot. -/
theorem authorization_fresh (ops : List ListenerOp)
    (horderly : Each step Orderly {} ops) :
    Always step Fresh {} ops :=
  (Lib.always_of_each (fun _ op hi ho => hi.step op ho) inv_initial
    horderly).mono fun _ hi => hi.fresh

instance (h : ListenerHistory) (op : ListenerOp) : Decidable (h.Orderly op) :=
  match op with
  | .begin _ _ => inferInstanceAs (Decidable ((_ → _) ∧ _))
  | .reset => inferInstanceAs (Decidable (_ < _))
  | .recordDelta _ _ | .apply .. | .fail _ | .validate _ _ | .clear =>
      inferInstanceAs (Decidable True)

/-- An inventory of one listener on port 80. -/
def oneListener : ListenerSnapshot where
  rootCgroupId := 1
  associations := {⟨2, 80, 7⟩}
  foreignCandidates := ∅
  root_ne_zero := Nat.one_ne_zero
  associations_valid := by
    intro a ha
    rw [Finset.mem_singleton.1 ha]
    rfl
  candidates_valid := fun c hc => absurd hc (Finset.notMem_empty c)

/-- A snapshot is applied, an identical one replaces it, and the result is validated. -/
def replacement : List ListenerOp :=
  [.begin 10 [0], .recordDelta ⟨2, 81, 9⟩ 4, .apply 1 oneListener [0] 8, .begin 20 [0],
    .apply 2 oneListener [0] 8, .validate 2 [0]]

theorem replacement_fresh :
    Each step Orderly {} replacement ∧
      (replacement.foldl step {}).state.authorizationGeneration = some 2 ∧
      Always step Fresh {} replacement :=
  ⟨by decide, rfl, authorization_fresh replacement (by decide)⟩

/-! ## The conditions are needed -/

/-- The second snapshot begins at an earlier cut than the first; the change at 7 is before the cut
in force, so it is answered before the running snapshot is looked at. -/
def backwardCuts : List ListenerOp :=
  [.begin 10 [0], .apply 1 oneListener [0] 8, .begin 5 [0], .recordDelta ⟨2, 80, 9⟩ 7,
    .apply 2 oneListener [0] 8]

theorem backwardCuts_not_fresh : ¬ Always step Fresh {}
    backwardCuts := by
  intro h
  obtain ⟨snapshot, cut, counts, -, -, hbegun, hchanges, -⟩ := h.last.authorised 2 rfl
  obtain ⟨rfl, rfl⟩ := Prod.ext_iff.1 (some.inj hbegun)
  have hmem : (ListenerOp.recordDelta ⟨2, 80, 9⟩ 7, ListenerAnswer.delta .ignoredBeforeCut) ∈
      sinceBegun 2 (backwardCuts.foldl step {}).log :=
    .tail _ (.head _)
  exact hchanges _ hmem ⟨7, rfl, by decide⟩

/-- Resets only count the generation up. -/
theorem resets_run (n : Nat) (h : ListenerHistory) (hwrap : h.state.generation + n < 2 ^ 64) :
    ((replicate n ListenerOp.reset).foldl step h).state.generation =
        h.state.generation + n ∧
      startedGenerations ((replicate n ListenerOp.reset).foldl step h).log =
        startedGenerations h.log ∧
      (h.state.inFlight = none →
        ((replicate n ListenerOp.reset).foldl step h).state.inFlight = none) := by
  induction n generalizing h with
  | zero => exact ⟨rfl, rfl, id⟩
  | succ n ih =>
    have hgen : (h.step .reset).state.generation = h.state.generation + 1 :=
      nextGeneration_of_lt (by omega)
    obtain ⟨hg, hs, hf⟩ := ih (h.step .reset) (by omega)
    refine ⟨?_, hs, fun _ => hf rfl⟩
    rw [replicate_succ, foldl_cons]
    omega

/-- The generation counter has come round: the result of the first snapshot carries the number of
the second one. -/
def wrappedResets (resets : Nat) : List ListenerOp :=
  [.begin 1 [0], .reset] ++ replicate resets .reset ++ [.begin 2 [0], .apply 1 oneListener [0] 8]

theorem wrappedResets_not_fresh {resets : Nat} (hn : resets = 2 ^ 64 - 3) :
    ¬ Always step Fresh {} (wrappedResets resets) := by
  intro h
  have hlast := h.last.only_current
  rw [wrappedResets, foldl_append, foldl_append] at hlast
  -- the state after the first snapshot began and was reset once
  generalize hb : [ListenerOp.begin 1 [0], .reset].foldl step {} = before at hlast
  have hg : before.state.generation = 2 := by rw [← hb]; rfl
  have hs : startedGenerations before.log = [1] := by rw [← hb]; rfl
  have hi : before.state.inFlight = none := by rw [← hb]; rfl
  obtain ⟨hg', hs', hi'⟩ := resets_run resets before (by omega)
  have hi' := hi' hi
  rw [hs] at hs'
  generalize (replicate resets ListenerOp.reset).foldl step before =
    after at hlast hg' hs' hi'
  have hnext : nextGeneration after.state.generation = 1 := by
    rw [nextGeneration]
    omega
  have hbegin : after.step (.begin 2 [0]) = ⟨after.state.begun 2 [0],
      (.begin 2 [0], .begun (some 1)) :: after.log⟩ := by
    simp [step, exec, beginSnapshotWithLoss, hi', hnext, begun]
  have hflight : (after.state.begun 2 [0]).inFlight = some ⟨1, 2, [0], false⟩ := by
    simp [begun, hnext]
  have happly : ((after.state.begun 2 [0]).applySnapshotWithLoss 1 oneListener [0] 8).2 =
      .ok true := by
    simp only [applySnapshotWithLoss, hflight]
    rfl
  rw [foldl_cons, foldl_cons, hbegin] at hlast
  refine hlast.1 (1, oneListener, [0]) ?_ ?_
  · simp [installed, exec, happly]
  · simp [superseded, started, hs']

/-- A listener of the root cgroup is refused as invalid and leaves the evidence in force. -/
def rootListener : List ListenerOp :=
  [.begin 10 [0], .apply 1 oneListener [0] 8, .recordDelta ⟨2, 80, 1⟩ 20]

/-- Cuts that go back and a wrapped generation break freshness, and a change that is refused as
invalid is recorded after the cut without any effect. -/
theorem disorderly_evidence :
    ¬ Always step Fresh {} backwardCuts ∧
      ¬ Always step Fresh {} (wrappedResets (2 ^ 64 - 3)) ∧
      (rootListener.foldl step {}).state.authorizationGeneration = some 1 ∧
      begunAs 1 (rootListener.foldl step {}).log = some (10, [0]) ∧
      (ListenerOp.recordDelta ⟨2, 80, 1⟩ 20, ListenerAnswer.delta .ignoredInvalid) ∈
        sinceBegun 1 (rootListener.foldl step {}).log :=
  ⟨backwardCuts_not_fresh, wrappedResets_not_fresh rfl, rfl, rfl, .head _⟩

end EdgePacer.Ebpf
