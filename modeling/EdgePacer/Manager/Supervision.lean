import EdgePacer.Lib.Trace
import Mathlib.Data.List.Nodup

/-!
# The manager's agent process

The manager starts the agent, checks on it at every tick, restarts it when it has died or when its
token was rotated, and replaces it by new versions with a way back. Every call that can wait or fail
is a phase of its own, so that a process may die between any two of them; what the environment
decides about a call stands in the `Answers` of its step.

A start puts the new process in the place of the old one without looking at it
(`ProcessManager::start` assigns `child`). Every start but the one after a token rotation is reached
only when no agent is alive. `sole_agent` is what remains: one agent at most, as long as a rotation
finds the agent dead and a stop ends in the agent's exit.
-/

namespace EdgePacer.Manager

open Lib List

/-! ## Processes -/

/-- How a stop ends: the process exits within the grace period, waiting for it fails, or the period
passes and the kill succeeds or fails. -/
inductive StopOutcome where
  | exited
  | waitFailed
  | killed
  | killFailed
  deriving DecidableEq, Repr

/-- Whether the process is certainly gone. -/
def StopOutcome.endsProcess : StopOutcome → Bool
  | .exited => true
  | .killed => true
  | .waitFailed => false
  | .killFailed => false

/-- The child the manager knows of, and the agent processes it started that are alive. -/
structure Processes where
  child : Option Nat := none
  alive : List Nat := []
  /-- How many were spawned; the next one gets this number. -/
  spawned : Nat := 0
  deriving DecidableEq, Repr

namespace Processes

variable (p : Processes)

/-- The new process takes the place of the old child, whether that is alive or not. -/
def start : Processes :=
  { child := some p.spawned, alive := p.alive ++ [p.spawned], spawned := p.spawned + 1 }

/-- The child is forgotten however the stop ends. -/
def stop (outcome : StopOutcome) : Processes :=
  match p.child with
  | none => p
  | some pid =>
      { p with
        child := none
        alive := if outcome.endsProcess then p.alive.filter (· ≠ pid) else p.alive }

/-- A child whose state cannot be read counts as running. -/
def isRunning (tryWaitFails : Bool) : Bool :=
  p.child.any fun pid => tryWaitFails || decide (pid ∈ p.alive)

/-- A process dies on its own. -/
def die (pid : Nat) : Processes := { p with alive := p.alive.filter (· ≠ pid) }

/-- Every agent that is alive is the known child. -/
def Sole : Prop := p.alive.Nodup ∧ ∀ pid ∈ p.alive, p.child = some pid

variable {p : Processes}

theorem Sole.length_le (h : p.Sole) : p.alive.length ≤ 1 := by
  obtain ⟨hnodup, hchild⟩ := h
  cases halive : p.alive with
  | nil => exact Nat.zero_le 1
  | cons a rest =>
    cases rest with
    | nil => exact Nat.le_refl 1
    | cons b rest =>
      rw [halive] at hnodup hchild
      have hsame : some a = some b :=
        (hchild a mem_cons_self).symm.trans (hchild b (mem_cons_of_mem _ mem_cons_self))
      rw [Option.some.inj hsame] at hnodup
      exact absurd mem_cons_self (nodup_cons.1 hnodup).1

theorem sole_of_none_alive (h : p.alive = []) : p.Sole := by
  unfold Sole
  rw [h]
  exact ⟨nodup_nil, forall_mem_nil _⟩

theorem sole_start (h : p.alive = []) : p.start.Sole := by
  unfold Sole start
  rw [h]
  exact ⟨nodup_singleton _, fun pid hpid => congrArg some (mem_singleton.1 hpid).symm⟩

theorem Sole.die (h : p.Sole) (pid : Nat) : (p.die pid).Sole :=
  ⟨h.1.filter _, fun q hq => h.2 q (mem_of_mem_filter hq)⟩

theorem alive_die (h : p.alive = []) (pid : Nat) : (p.die pid).alive = [] := by
  rw [Processes.die, h]
  rfl

theorem Sole.alive_stop (h : p.Sole) {outcome : StopOutcome}
    (hends : p.alive ≠ [] → outcome.endsProcess = true) : (p.stop outcome).alive = [] := by
  cases hchild : p.child with
  | none =>
    rw [Processes.stop, hchild]
    exact eq_nil_iff_forall_not_mem.2 fun pid hpid =>
      nomatch hchild.symm.trans (h.2 pid hpid)
  | some pid =>
    rw [Processes.stop, hchild]
    dsimp only
    by_cases halive : p.alive = []
    · rw [halive, filter_nil, ite_self]
    · rw [if_pos (hends halive), filter_eq_nil_iff]
      intro q hq
      have hsame := hchild.symm.trans (h.2 q hq)
      simp [Option.some.inj hsame]

theorem Sole.alive_of_not_running (h : p.Sole) {tryWaitFails : Bool}
    (hrunning : p.isRunning tryWaitFails = false) : p.alive = [] := by
  refine eq_nil_iff_forall_not_mem.2 fun pid hpid => ?_
  rw [isRunning, h.2 pid hpid, Option.any_some, Bool.or_eq_false_iff] at hrunning
  exact of_decide_eq_false hrunning.2 hpid

end Processes

open Processes

/-! ## The manager -/

inductive Revalidation where
  | rotated
  | unchanged
  | failed
  deriving DecidableEq, Repr

inductive UpdateCheck where
  | available
  | upToDate
  | failed
  deriving DecidableEq, Repr

/-- What the environment decides about the calls of a step. -/
structure Answers where
  /-- The shutdown signal came before the tick. -/
  shutdown : Bool := false
  spawns : Bool := true
  healthy : Bool := true
  tryWaitFails : Bool := false
  revalidation : Revalidation := .unchanged
  versionRead : Bool := true
  update : UpdateCheck := .upToDate
  downloaded : Bool := true
  backedUp : Bool := true
  stopped : StopOutcome := .exited
  installed : Bool := true
  restored : Bool := true
  deriving DecidableEq, Repr

/-- The call the manager makes next. -/
inductive Phase where
  | starting
  | firstHealth
  | waiting
  | checkingChild
  | restarting
  | restartHealth
  | revalidating
  | startingRotated
  | rotatedHealth
  | readingVersion
  | checkingUpdate
  | downloading
  | backingUp
  | stoppingOld
  | installing
  | undoingInstall
  | startingNew
  | newHealth
  | stoppingNew
  /-- `restore_backup` after a start or a health check that failed. -/
  | rollingBack
  | startingOld
  | shuttingDown
  | stopped
  /-- The manager has returned an error. -/
  | failed
  deriving DecidableEq, Repr

/-- The phases that are entered only with no agent alive and left before one is started. -/
def Phase.idle : Phase → Bool
  | .starting => true
  | .restarting => true
  | .installing => true
  | .undoingInstall => true
  | .startingNew => true
  | .rollingBack => true
  | .startingOld => true
  | .stopped => true
  | _ => false

/-- The manager and its agents. -/
structure Supervisor where
  phase : Phase := .starting
  processes : Processes := {}
  deriving DecidableEq, Repr

inductive Event where
  /-- An agent process dies. -/
  | dies (pid : Nat)
  | proceeds (a : Answers)
  deriving DecidableEq, Repr

namespace Supervisor

variable (m : Supervisor)

def goTo (phase : Phase) : Supervisor := { m with phase := phase }

/-- Start the agent, and go on with one phase or the other. -/
def start (m : Supervisor) (a : Answers) (done onError : Phase) : Supervisor :=
  if a.spawns then { phase := done, processes := m.processes.start } else m.goTo onError

def stop (m : Supervisor) (a : Answers) (done : Phase) : Supervisor :=
  { phase := done, processes := m.processes.stop a.stopped }

/-- The next call of `main`, of its loop and of `perform_update`. An error of `perform_update` is
logged, and the loop goes on. -/
def proceed (a : Answers) : Supervisor :=
  match m.phase with
  | .starting => m.start a .firstHealth .failed
  | .firstHealth => m.goTo (if a.healthy then .waiting else .failed)
  | .waiting => m.goTo (if a.shutdown then .shuttingDown else .checkingChild)
  | .checkingChild =>
      m.goTo (if m.processes.isRunning a.tryWaitFails then .revalidating else .restarting)
  | .restarting => m.start a .restartHealth .failed
  | .restartHealth => m.goTo (if a.healthy then .revalidating else .waiting)
  | .revalidating =>
      m.goTo (if a.revalidation = .rotated then .startingRotated else .readingVersion)
  | .startingRotated => m.start a .rotatedHealth .failed
  | .rotatedHealth => m.goTo (if a.healthy then .readingVersion else .waiting)
  | .readingVersion => m.goTo (if a.versionRead then .checkingUpdate else .waiting)
  | .checkingUpdate => m.goTo (if a.update = .available then .downloading else .waiting)
  | .downloading => m.goTo (if a.downloaded then .backingUp else .waiting)
  | .backingUp => m.goTo (if a.backedUp then .stoppingOld else .waiting)
  | .stoppingOld => m.stop a .installing
  | .installing => m.goTo (if a.installed then .startingNew else .undoingInstall)
  | .undoingInstall => m.goTo .waiting
  | .startingNew => m.start a .newHealth .rollingBack
  | .newHealth => m.goTo (if a.healthy then .waiting else .stoppingNew)
  | .stoppingNew => m.stop a .rollingBack
  | .rollingBack => m.goTo (if a.restored then .startingOld else .waiting)
  | .startingOld => m.start a .waiting .waiting
  | .shuttingDown => m.stop a .stopped
  | .stopped => m
  | .failed => m

def step : Event → Supervisor
  | .dies pid => { m with processes := m.processes.die pid }
  | .proceeds a => m.proceed a

/-! ## One agent at a time -/

/-- At most one agent is alive, and none after an orderly shutdown. -/
def SingleAgent : Prop :=
  m.processes.alive.length ≤ 1 ∧ (m.phase = .stopped → m.processes.alive = [])

instance (m : Supervisor) : Decidable m.SingleAgent := inferInstanceAs (Decidable (_ ∧ (_ → _)))

/-- The agent started last is dead when the rotated token's agent is started, and a stop of an agent
that is alive ends in its exit. -/
def FindsDead : Event → Prop
  | .dies _ => True
  | .proceeds a =>
      (m.phase = .startingRotated → m.processes.alive = []) ∧
        (m.phase = .stoppingOld ∨ m.phase = .stoppingNew ∨ m.phase = .shuttingDown →
          m.processes.alive ≠ [] → a.stopped.endsProcess = true)

instance (m : Supervisor) : ∀ e, Decidable (m.FindsDead e)
  | .dies _ => inferInstanceAs (Decidable True)
  | .proceeds _ => inferInstanceAs (Decidable ((_ → _) ∧ (_ → _ → _)))

/-- One agent, none while the manager idles. -/
structure Supervised (m : Supervisor) : Prop where
  sole : m.processes.Sole
  idle : m.phase.idle = true → m.processes.alive = []

variable {m : Supervisor}

theorem Supervised.goTo (h : Supervised m) {phase : Phase}
    (hidle : phase.idle = true → m.processes.alive = []) : Supervised (m.goTo phase) :=
  ⟨h.sole, hidle⟩

/-- A start from an idle phase leads to one that is not. -/
theorem supervised_start (halive : m.processes.alive = []) (a : Answers) {done : Phase}
    (onError : Phase) (hdone : done.idle = false) : Supervised (m.start a done onError) := by
  unfold start
  split
  · exact ⟨sole_start halive, fun hidle => nomatch hdone.symm.trans hidle⟩
  · exact ⟨sole_of_none_alive halive, fun _ => halive⟩

theorem Supervised.stop (h : Supervised m) {a : Answers}
    (hends : m.processes.alive ≠ [] → a.stopped.endsProcess = true) (done : Phase) :
    Supervised (m.stop a done) := by
  have halive := h.sole.alive_stop hends
  exact ⟨sole_of_none_alive halive, fun _ => halive⟩

theorem Supervised.proceed (h : Supervised m) (a : Answers) (hdead : m.FindsDead (.proceeds a)) :
    Supervised (m.proceed a) := by
  obtain ⟨hrotated, hstop⟩ := hdead
  -- a phase that only chooses the next one starts and stops nothing
  have hchoice : ∀ (b : Prop) [Decidable b] {yes no : Phase},
      (yes.idle = true → m.processes.alive = []) → (no.idle = true → m.processes.alive = []) →
        Supervised (m.goTo (if b then yes else no)) := by
    intro b _ yes no hyes hno
    split
    · exact h.goTo hyes
    · exact h.goTo hno
  unfold Supervisor.proceed
  -- starts, then stops, then the phases that know no agent is alive, then the rest
  cases hphase : m.phase with
  | starting | restarting | startingNew | startingOld =>
    exact supervised_start (h.idle (by rw [hphase]; rfl)) a _ rfl
  | startingRotated => exact supervised_start (hrotated hphase) a _ rfl
  | stoppingOld => exact h.stop (hstop (.inl hphase)) _
  | stoppingNew => exact h.stop (hstop (.inr (.inl hphase))) _
  | shuttingDown => exact h.stop (hstop (.inr (.inr hphase))) _
  | checkingChild =>
    cases hrunning : m.processes.isRunning a.tryWaitFails with
    | true => exact h.goTo nofun
    | false => exact h.goTo fun _ => h.sole.alive_of_not_running hrunning
  | installing =>
    have halive : m.processes.alive = [] := h.idle (by rw [hphase]; rfl)
    exact hchoice _ (fun _ => halive) fun _ => halive
  | rollingBack =>
    have halive : m.processes.alive = [] := h.idle (by rw [hphase]; rfl)
    exact hchoice _ (fun _ => halive) fun _ => halive
  | undoingInstall => exact h.goTo nofun
  | stopped | failed => exact h
  | firstHealth | waiting | restartHealth | revalidating | rotatedHealth | readingVersion
  | checkingUpdate | downloading | backingUp | newHealth => exact hchoice _ nofun nofun

theorem Supervised.step {e : Event} (h : Supervised m) (hdead : m.FindsDead e) :
    Supervised (m.step e) := by
  cases e with
  | dies pid =>
    exact ⟨h.sole.die pid, fun hidle => alive_die (h.idle hidle) pid⟩
  | proceeds a => exact h.proceed a hdead

/-- **One agent at a time.** In every run of the manager in which the agent is dead when the agent
with a rotated token is started, and every stop of a live agent ends in its exit: at most one agent
is alive at any time, and none after an orderly shutdown. -/
theorem sole_agent (events : List Event) (h : Each step FindsDead ({} : Supervisor) events) :
    Always step SingleAgent ({} : Supervisor) events := by
  have hstart : Supervised ({} : Supervisor) := ⟨sole_of_none_alive rfl, fun _ => rfl⟩
  have hrun := always_of_each (fun m e hm hdead => Supervised.step hm hdead) hstart h
  exact hrun.mono fun m hm =>
    ⟨hm.sole.length_le, fun hphase => hm.idle (by rw [hphase]; rfl)⟩

/-- The calls of one tick with nothing to do, up to the revalidation of the token. -/
def quietTick : List Event := [.proceeds {}, .proceeds {}]

/-- The agent dies and is restarted; an update is installed, fails its health check and is rolled
back; the manager is shut down. -/
def eventfulRun : List Event :=
  [.proceeds {}, .proceeds {}, .dies 0] ++ quietTick ++ List.replicate 4 (.proceeds {}) ++
    [.proceeds { update := .available }] ++ List.replicate 5 (.proceeds {}) ++
    [.proceeds { healthy := false }, .proceeds { stopped := .killed }, .proceeds {}, .proceeds {},
      .proceeds { shutdown := true }, .proceeds {}]

theorem eventfulRun_sole :
    (eventfulRun.foldl step {}).phase = .stopped ∧
      (eventfulRun.foldl step {}).processes.spawned = 4 ∧
      Always step SingleAgent ({} : Supervisor) eventfulRun :=
  ⟨by decide, by decide, sole_agent eventfulRun (by decide)⟩

/-- The agent is healthy when its token is rotated. -/
def rotatedRun : List Event :=
  [.proceeds {}, .proceeds {}] ++ quietTick ++
    [.proceeds { revalidation := .rotated }, .proceeds {}]

/-- The agent with the old token is left running beside the new one. -/
theorem rotation_starts_second_agent : ¬ Always step SingleAgent ({} : Supervisor) rotatedRun := by
  decide

end Supervisor

end EdgePacer.Manager
