import EdgePacer.Ebpf.ListenerState
import EdgePacer.Ebpf.Routing

/-!
# The capture manager

The manager owns the capture program: it loads and unloads it, seeds the PID filter on every
reconcile, and hands it cgroup policies. A call that fails leaves the kernel's maps uncertain, so
the program is unloaded.

What the calls on the program return is given from outside (`ProgramAnswers`). Of the program itself
the model keeps the allow set in force and, as ghost state, every policy it was handed under a
generation, also those it failed to take.
-/

namespace EdgePacer.Ebpf

/-! ## The program -/

/-- What is loaded into the kernel. -/
structure CaptureProgram where
  /-- The allow set of the active slot; there is none while the program is not loaded. -/
  allowedCgroups : List CgroupAnchor := []
  pidPolicies : List (Nat × List (Nat × String)) := []
  cgroupPolicies : List (Nat × List CgroupRoute) := []

/-- The results of the calls on the program in one iteration of the runner. No iteration changes the
cgroup policy twice. -/
structure ProgramAnswers where
  start : Except String Unit := .ok ()
  setTargetPids : Except String Unit := .ok ()
  setAllowedCgroups : Except String Unit := .ok ()

namespace CaptureProgram

variable (p : CaptureProgram)

/-- Unloading drops the maps; loading starts with empty ones. -/
def unload : CaptureProgram := { p with allowedCgroups := [] }

/-- The empty policy has no generation. -/
def setTargetPids (routing : PidRouting) : CaptureProgram :=
  match routing.policyGeneration with
  | none => p
  | some generation => { p with pidPolicies := p.pidPolicies ++ [(generation, routing.byPid)] }

/-- A failed call is logged too; which allow set it leaves does not matter, as the program is
unloaded. -/
def setAllowedCgroups (routing : CgroupRouting) (answer : Except String Unit) : CaptureProgram :=
  { p with
    allowedCgroups :=
      match answer with
      | .ok () => routing.allowedCgroups
      | .error _ => p.allowedCgroups
    cgroupPolicies :=
      match routing.policyGeneration with
      | none => p.cgroupPolicies
      | some generation => p.cgroupPolicies ++ [(generation, routing.byId)] }

@[simp] theorem unload_allowedCgroups : p.unload.allowedCgroups = [] := rfl

@[simp] theorem setTargetPids_allowedCgroups (routing : PidRouting) :
    (p.setTargetPids routing).allowedCgroups = p.allowedCgroups := by
  unfold setTargetPids
  split
  · rfl
  · rfl

end CaptureProgram

/-! ## The manager -/

/-- The part of the `ebpf` configuration section that decides about the program. -/
structure EbpfSectionConfig where
  enabled : Bool
  configHash : String
  deriving DecidableEq, Repr

inductive ManagerState where
  | stopped
  | running (configHash : String)
  deriving DecidableEq, Repr

inductive ReconcileAction where
  | noop
  | start
  | stop
  | restart
  deriving DecidableEq, Repr

namespace ManagerState

def isRunning : ManagerState → Bool
  | stopped => false
  | running _ => true

/-- The lifecycle action of a reconcile tick. -/
def decide (current : ManagerState) (desired : EbpfSectionConfig) : ReconcileAction :=
  match current, desired.enabled with
  | stopped, false => .noop
  | stopped, true => .start
  | running _, false => .stop
  | running configHash, true => if configHash = desired.configHash then .noop else .restart

end ManagerState

/-- What the resolver makes of a port census: a table without entries has no generation. -/
structure ResolvedPids where
  routing : PidRouting := {}
  generation_of_empty : routing.isEmpty = true → routing.policyGeneration = none := by decide

structure ReconcileOutcome where
  running : Bool
  lastError : Option String
  routing : PidRouting

/-- Per-CPU counters of the listener probe, under the capture generation they belong to. -/
structure ListenerObservation where
  generation : Nat
  (publishedCounts dropCounts : List Nat)
  deriving DecidableEq, Repr

/-- The program and its state; unloaded, it allows nothing. -/
structure EbpfManager where
  program : CaptureProgram := {}
  state : ManagerState := .stopped
  activePidRouting : PidRouting := {}
  nextPidPolicyGeneration : Nat := 0
  unloaded : state.isRunning = false → program.allowedCgroups = [] := by exact fun _ => rfl

namespace EbpfManager

variable (m : EbpfManager)

def stop : EbpfManager :=
  { m with
    program := m.program.unload
    state := .stopped
    activePidRouting := {}
    unloaded := fun _ => rfl }

variable (config : EbpfSectionConfig)

def start (answer : Except String Unit) : EbpfManager × Option String :=
  match answer with
  | .error e => (m, some e)
  | .ok () =>
    ({ m with
        program := m.program.unload
        state := .running config.configHash
        activePidRouting := {}
        unloaded := fun _ => rfl },
      none)

/-- The first half of `reconcile`: load or unload the program. -/
def converge (answer : Except String Unit) : EbpfManager × Option String :=
  match m.state.decide config with
  | .noop => (m, none)
  | .stop => (m.stop, none)
  | .start => m.start config answer
  | .restart => m.stop.start config answer

def nextPidGeneration : EbpfManager × Nat :=
  ({ m with nextPidPolicyGeneration := nextGeneration m.nextPidPolicyGeneration },
    nextGeneration m.nextPidPolicyGeneration)

variable (routing : PidRouting)

/-- The generation for a table that is not empty: the active one if it authorizes the same. -/
def pidGenerationFor : EbpfManager × Nat :=
  if routing.sameAuthorizationAs m.activePidRouting then
    match m.activePidRouting.policyGeneration with
    | some generation => (m, generation)
    | none => m.nextPidGeneration
  else m.nextPidGeneration

/-- Hand the program a table; if it does not take it, it is unloaded. -/
def seedPids (answer : Except String Unit) : EbpfManager × PidRouting × Option String :=
  let seeded :=
    { m with
      program := m.program.setTargetPids routing
      activePidRouting := routing
      unloaded := by rw [CaptureProgram.setTargetPids_allowedCgroups]; exact m.unloaded }
  match answer with
  | .error e => (seeded.stop, {}, some e)
  | .ok () => (seeded, routing, none)

/-- The second half of `reconcile`, while the program runs: refresh the PID filter. -/
def refreshPids (resolved : PidRouting) (answer : Except String Unit) :
    EbpfManager × PidRouting × Option String :=
  if resolved.isEmpty then m.seedPids resolved answer
  else
    let (m, generation) := m.pidGenerationFor resolved
    match resolved.assignPolicyGeneration generation with
    | .error e => (m.stop, {}, some e)
    | .ok routing => m.seedPids routing answer

/-- Drive the program toward the section, then refresh the PID filter from the census. -/
def reconcile (resolved : ResolvedPids)
    (answers : ProgramAnswers) : EbpfManager × ReconcileOutcome :=
  match m.converge config answers.start with
  | (m, some e) => (m, ⟨false, some e, {}⟩)
  | (m, none) =>
    if m.state.isRunning then
      let (m, routing, error) := m.refreshPids resolved.routing answers.setTargetPids
      (m, ⟨m.state.isRunning && error.isNone, error, routing⟩)
    else (m, ⟨false, none, {}⟩)

/-- Stop the program if it runs. -/
def shutdown : EbpfManager := if m.state.isRunning then m.stop else m

def listenerObservation (answer : Except String ListenerObservation) :
    Except String ListenerObservation :=
  if !m.state.isRunning then
    .error "listener observation requested while capture is stopped"
  else answer

def listenerFence (answer : Except String Unit) : Except String Unit :=
  if !m.state.isRunning then .error "listener fence requested while capture is stopped"
  else answer

/-- Replace the cgroup policy while capture runs; unlike the other ways to stop, the failure leaves
the active PID table. -/
def setAllowedCgroups (m : EbpfManager) (routing : CgroupRouting) (answer : Except String Unit) :
    EbpfManager × Except String Unit :=
  if hstopped : m.state.isRunning = false then
    (m, .error "set_allowed_cgroups requested while capture is stopped")
  else
    let program := m.program.setAllowedCgroups routing answer
    match answer with
    | .error e =>
      ({ m with program := program.unload, state := .stopped, unloaded := fun _ => rfl }, .error e)
    | .ok () => ({ m with program, unloaded := fun h => absurd h hstopped }, .ok ())

/-! ### What the operations do to the state and the allow set -/

variable (m : EbpfManager)

@[simp] theorem shutdown_isRunning : m.shutdown.state.isRunning = false := by
  unfold shutdown
  split
  · rfl
  · exact Bool.eq_false_iff.2 ‹_›

@[simp] theorem shutdown_allowedCgroups : m.shutdown.program.allowedCgroups = [] :=
  m.shutdown.unloaded m.shutdown_isRunning

/-- A policy is either in force afterwards, or capture does not run. -/
theorem setAllowedCgroups_cases (routing : CgroupRouting) (answer : Except String Unit) :
    ((m.setAllowedCgroups routing answer).2 = .ok () ∧
        (m.setAllowedCgroups routing answer).1.state = m.state ∧
        (m.setAllowedCgroups routing answer).1.program.allowedCgroups = routing.allowedCgroups) ∨
      ((∃ e, (m.setAllowedCgroups routing answer).2 = .error e) ∧
        (m.setAllowedCgroups routing answer).1.state.isRunning = false) := by
  unfold setAllowedCgroups
  split
  · next hstopped => exact .inr ⟨⟨_, rfl⟩, hstopped⟩
  · cases answer with
    | error e => exact .inr ⟨⟨e, rfl⟩, rfl⟩
    | ok u => exact .inl ⟨rfl, rfl, rfl⟩

/-- Only a running program can be observed. -/
theorem isRunning_of_listenerObservation {answer : Except String ListenerObservation}
    {observation : ListenerObservation} (h : m.listenerObservation answer = .ok observation) :
    m.state.isRunning = true := by
  unfold listenerObservation at h
  split at h
  · cases h
  · next hrunning => simpa using hrunning

theorem pidGenerationFor_fields :
    (m.pidGenerationFor routing).1.state = m.state ∧
      (m.pidGenerationFor routing).1.program = m.program ∧
      (m.pidGenerationFor routing).1.activePidRouting = m.activePidRouting := by
  unfold pidGenerationFor
  split
  · split
    · exact ⟨rfl, rfl, rfl⟩
    · exact ⟨rfl, rfl, rfl⟩
  · exact ⟨rfl, rfl, rfl⟩

/-- A refresh changes the PID filter alone, or fails and leaves the program stopped. -/
def FilterOnly (result : EbpfManager × PidRouting × Option String) : Prop :=
  (result.2.2 = none ∧ result.1.state = m.state ∧
      result.1.program.allowedCgroups = m.program.allowedCgroups) ∨
    (result.2.2 ≠ none ∧ result.1.state.isRunning = false)

theorem seedPids_cases (answer : Except String Unit) :
    m.FilterOnly (m.seedPids routing answer) := by
  cases answer with
  | error e => exact .inr ⟨nofun, rfl⟩
  | ok u => exact .inl ⟨rfl, rfl, m.program.setTargetPids_allowedCgroups routing⟩

theorem refreshPids_cases (resolved : PidRouting) (answer : Except String Unit) :
    m.FilterOnly (m.refreshPids resolved answer) := by
  obtain ⟨hstate, hprogram, _⟩ := m.pidGenerationFor_fields resolved
  unfold refreshPids
  split
  · exact m.seedPids_cases resolved answer
  · dsimp only
    split
    · exact .inr ⟨nofun, rfl⟩
    · next routing _ =>
      have hseed := (m.pidGenerationFor resolved).1.seedPids_cases routing answer
      rwa [FilterOnly, hstate, hprogram] at hseed

/-- A program that runs after loading and unloading runs under the section, which is enabled; its
allow set is what it was if it ran under the section before, and empty otherwise. -/
theorem converge_cases (answer : Except String Unit) :
    (m.converge config answer).1.state.isRunning = false ∨
      (m.converge config answer).2 = none ∧
      (m.converge config answer).1.state = .running config.configHash ∧ config.enabled = true ∧
      (m.state = .running config.configHash ∧
          (m.converge config answer).1.program.allowedCgroups = m.program.allowedCgroups ∨
        m.state ≠ .running config.configHash ∧
          (m.converge config answer).1.program.allowedCgroups = []) := by
  cases hstate : m.state with
  | stopped =>
    cases henabled : config.enabled with
    | false => simp [converge, ManagerState.decide, hstate, henabled, ManagerState.isRunning]
    | true =>
      cases answer with
      | error e =>
        simp [converge, ManagerState.decide, hstate, henabled, ManagerState.isRunning, start]
      | ok u => simp [converge, ManagerState.decide, hstate, henabled, start]
  | running hash =>
    cases henabled : config.enabled with
    | false => simp [converge, ManagerState.decide, hstate, henabled, ManagerState.isRunning, stop]
    | true =>
      by_cases hhash : hash = config.configHash
      · simp [converge, ManagerState.decide, hstate, henabled, hhash]
      · cases answer with
        | error e =>
          simp [converge, ManagerState.decide, hstate, henabled, hhash, ManagerState.isRunning,
            start, stop]
        | ok u => simp [converge, ManagerState.decide, hstate, henabled, hhash, start]

/-- The same for a whole reconcile: it reports that capture runs exactly if it does. -/
theorem reconcile_cases (resolved : ResolvedPids) (answers : ProgramAnswers) :
    ((m.reconcile config resolved answers).2.running = false ∧
        (m.reconcile config resolved answers).1.state.isRunning = false) ∨
      (m.reconcile config resolved answers).2.running = true ∧
      (m.reconcile config resolved answers).1.state = .running config.configHash ∧
      config.enabled = true ∧
      (m.state = .running config.configHash ∧
          (m.reconcile config resolved answers).1.program.allowedCgroups =
            m.program.allowedCgroups ∨
        m.state ≠ .running config.configHash ∧
          (m.reconcile config resolved answers).1.program.allowedCgroups = []) := by
  have hconverge := m.converge_cases config answers.start
  unfold reconcile
  generalize hc : m.converge config answers.start = c at hconverge
  obtain ⟨m', error⟩ := c
  rcases hconverge with hstopped | ⟨rfl, hstate, henabled, hallowed⟩
  · left
    cases error with
    | some e => exact ⟨rfl, hstopped⟩
    | none =>
      dsimp only
      rw [if_neg (Bool.eq_false_iff.1 hstopped)]
      exact ⟨rfl, hstopped⟩
  · have hrunning : m'.state.isRunning = true := by rw [hstate]; rfl
    dsimp only
    rw [if_pos hrunning]
    rcases m'.refreshPids_cases resolved.routing answers.setTargetPids with
      ⟨hnone, hstate', hallowed'⟩ | ⟨hsome, hstopped⟩
    · right
      rw [hstate', hallowed', hnone, hstate]
      exact ⟨rfl, rfl, henabled, hallowed⟩
    · left
      rw [hstopped]
      exact ⟨rfl, rfl⟩

end EbpfManager

end EdgePacer.Ebpf
