import EdgePacer.Ebpf.FailClosed
import EdgePacer.Ebpf.Iteration

/-!
# Events are attributed by their own policy

Captured events wait in channels while policies are replaced and programs restarted. An event is
stamped with the generation of the policy that let it through, and the runner routes it only while
the tables of that generation are in force. Generations come from two counters that outlive the
program, and a generation is used again only for the same table, so the table that routes an event
is the policy that was published under its stamp (`events_attributed_by_own_policy`).
-/

namespace EdgePacer.Ebpf

open Lib L7 List PidRouting CaptureProgram List.Subset

/-! ## Policies and their generations -/

/-- A value is the only one that was ever logged under a number. -/
def OnlyUnder {ν : Type} (log : List (Nat × ν)) (number : Nat) (value : ν) : Prop :=
  (number, value) ∈ log ∧ ∀ other, (number, other) ∈ log → other = value

variable (p : CaptureProgram)

/-- Some policy that the program was handed under the event's generation gives the event to the
service: a PID policy if the event has no scope, a cgroup policy otherwise. -/
def CaptureProgram.Authorizes (event : CapturedEvent) (service : String) : Prop :=
  if event.scopeCgroupId = 0 then
    ∃ routing : PidRouting, (event.policyGeneration, routing.byPid) ∈ p.pidPolicies ∧
      routing.serviceFor event.pid = some service
  else
    ∃ routing : CgroupRouting, (event.policyGeneration, routing.byId) ∈ p.cgroupPolicies ∧
      routing.serviceFor event.scopeCgroupId = some service

variable {service : String}

theorem CaptureProgram.Authorizes.mono {p p' : CaptureProgram} {event : CapturedEvent}
    (h : p.Authorizes event service) (hpid : p.pidPolicies ⊆ p'.pidPolicies)
    (hcgroup : p.cgroupPolicies ⊆ p'.cgroupPolicies) : p'.Authorizes event service := by
  unfold Authorizes at h ⊢
  split
  · next hscope =>
    rw [if_pos hscope] at h
    obtain ⟨routing, hmem, hservice⟩ := h
    exact ⟨routing, hpid hmem, hservice⟩
  · next hscope =>
    rw [if_neg hscope] at h
    obtain ⟨routing, hmem, hservice⟩ := h
    exact ⟨routing, hcgroup hmem, hservice⟩

section

variable {p : CaptureProgram} {routing : CgroupRouting} {answer : Except String Unit}

/-- Logging a cgroup policy is appending it, if it has a generation. -/
theorem CaptureProgram.cgroupPolicies_of_none (h : routing.policyGeneration = none) :
    (p.setAllowedCgroups routing answer).cgroupPolicies = p.cgroupPolicies := by
  simp only [setAllowedCgroups, h]

theorem CaptureProgram.cgroupPolicies_of_some {generation : Nat}
    (h : routing.policyGeneration = some generation) :
    (p.setAllowedCgroups routing answer).cgroupPolicies =
      p.cgroupPolicies ++ [(generation, routing.byId)] := by
  simp only [setAllowedCgroups, h]

theorem CaptureProgram.cgroupPolicies_subset :
    p.cgroupPolicies ⊆ (p.setAllowedCgroups routing answer).cgroupPolicies := by
  cases h : routing.policyGeneration with
  | none =>
    rw [cgroupPolicies_of_none h]
    exact refl _
  | some generation =>
    rw [cgroupPolicies_of_some h]
    exact subset_append_left _ _

end

/-- A table under a generation was handed to the program. -/
def PidRouting.Logged (routing : PidRouting) (p : CaptureProgram) : Prop :=
  ∀ generation, routing.policyGeneration = some generation →
    (generation, routing.byPid) ∈ p.pidPolicies

/-- The same for cgroups; a table with entries has a generation. -/
structure CgroupRouting.Logged (routing : CgroupRouting) (p : CaptureProgram) : Prop where
  mem : ∀ generation, routing.policyGeneration = some generation →
    (generation, routing.byId) ∈ p.cgroupPolicies
  numbered : routing.isEmpty = false → routing.policyGeneration.isSome = true

theorem PidRouting.logged_default : ({} : PidRouting).Logged p :=
  nofun

theorem CgroupRouting.logged_default : ({} : CgroupRouting).Logged p := ⟨nofun, nofun⟩

/-! ## The manager's counter -/

namespace EbpfManager

/-- PID policies have numbers of their own, and the active table is one of them. -/
structure PidsNumbered (m : EbpfManager) : Prop where
  numbered : Numbered m.nextPidPolicyGeneration m.program.pidPolicies
  active : m.activePidRouting.Logged m.program

theorem PidsNumbered.quiet {m m' : EbpfManager} (h : m.PidsNumbered) (hq : Quiet m m') :
    m'.PidsNumbered where
  numbered := by
    rw [hq.nextPid, hq.pidPolicies]
    exact h.numbered
  active := by
    rcases hq.active with hsame | hempty
    · intro generation hgeneration
      rw [hq.pidPolicies]
      rw [hsame] at hgeneration ⊢
      exact h.active generation hgeneration
    · rw [hempty]
      exact logged_default _

variable (m : EbpfManager)

/-- A call that changes the cgroup policy logs it, whether it succeeds or not. -/
theorem setAllowedCgroups_logs (routing : CgroupRouting) (answer : Except String Unit) :
    (m.setAllowedCgroups routing answer).1.program.pidPolicies = m.program.pidPolicies ∧
      (m.setAllowedCgroups routing answer).1.nextPidPolicyGeneration = m.nextPidPolicyGeneration ∧
      (m.setAllowedCgroups routing answer).1.activePidRouting = m.activePidRouting ∧
      ((m.setAllowedCgroups routing answer).1 = m ∧
          (m.setAllowedCgroups routing answer).2 ≠ .ok () ∨
        (m.setAllowedCgroups routing answer).1.program.cgroupPolicies =
          (m.program.setAllowedCgroups routing answer).cgroupPolicies) := by
  unfold setAllowedCgroups
  split
  · exact ⟨rfl, rfl, rfl, .inl ⟨rfl, nofun⟩⟩
  · cases answer with
    | error e | ok u => exact ⟨rfl, rfl, rfl, .inr rfl⟩

/-- What a reconcile leaves: numbers of their own again, and a table that was handed over. -/
structure PidsRefreshed (m m' : EbpfManager) (routing : PidRouting) : Prop where
  numbered : m'.PidsNumbered
  subset : m.program.pidPolicies ⊆ m'.program.pidPolicies
  cgroupPolicies : m'.program.cgroupPolicies = m.program.cgroupPolicies
  routing : routing.Logged m'.program

theorem seedPids_refreshed (routing : PidRouting) (answer : Except String Unit)
    (hnumbered : Numbered m.nextPidPolicyGeneration (m.program.setTargetPids routing).pidPolicies) :
    PidsRefreshed m (m.seedPids routing answer).1 (m.seedPids routing answer).2.1 := by
  have hsubset : m.program.pidPolicies ⊆ (m.program.setTargetPids routing).pidPolicies := by
    unfold setTargetPids
    split
    · exact refl _
    · exact subset_append_left _ _
  have hcgroup : (m.program.setTargetPids routing).cgroupPolicies = m.program.cgroupPolicies := by
    unfold setTargetPids
    split
    · rfl
    · rfl
  have hlogged : routing.Logged (m.program.setTargetPids routing) := by
    intro generation hgeneration
    rw [setTargetPids, hgeneration]
    exact mem_append_right _ mem_cons_self
  cases answer with
  | error e =>
    exact ⟨⟨hnumbered, logged_default _⟩, hsubset, hcgroup, logged_default _⟩
  | ok u => exact ⟨⟨hnumbered, hlogged⟩, hsubset, hcgroup, hlogged⟩

variable (h : m.PidsNumbered) (hwrap : m.nextPidPolicyGeneration + 1 < 2 ^ 64)

include h

theorem PidsNumbered.refreshed {m' : EbpfManager} (hq : Quiet m m') : PidsRefreshed m m' {} where
  numbered := h.quiet hq
  subset := fun _ hp => hq.pidPolicies ▸ hp
  cgroupPolicies := hq.cgroupPolicies
  routing := logged_default _

include hwrap

/-- A table gets the number it had, or one above all that were used. -/
theorem pidGenerationFor_cases (routing : PidRouting) :
    Numbered (m.pidGenerationFor routing).1.nextPidPolicyGeneration
        (m.program.pidPolicies ++ [((m.pidGenerationFor routing).2, routing.byPid)]) := by
  have hnext : Numbered m.nextPidGeneration.1.nextPidPolicyGeneration
      (m.program.pidPolicies ++ [(m.nextPidGeneration.2, routing.byPid)]) := by
    rw [nextPidGeneration]
    rw [nextGeneration_of_lt hwrap]
    exact h.numbered.next (Nat.lt_succ_self _) _
  unfold pidGenerationFor
  split
  · next hsame =>
    cases hactive : m.activePidRouting.policyGeneration with
    | none => exact hnext
    | some generation =>
      have hpids : routing.byPid = m.activePidRouting.byPid := of_decide_eq_true hsame
      rw [hpids]
      exact h.numbered.again (h.active generation hactive)
  · exact hnext

theorem refreshPids_refreshed (resolved : ResolvedPids) (answer : Except String Unit) :
    PidsRefreshed m (m.refreshPids resolved.routing answer).1
      (m.refreshPids resolved.routing answer).2.1 := by
  unfold refreshPids
  split
  · next hempty =>
    apply seedPids_refreshed
    rw [setTargetPids, resolved.generation_of_empty hempty]
    exact h.numbered
  · next hne =>
    have hnumbered := m.pidGenerationFor_cases h hwrap resolved.routing
    obtain ⟨_, hprogram, _⟩ := m.pidGenerationFor_fields resolved.routing
    generalize m.pidGenerationFor resolved.routing = numbered at hnumbered hprogram
    obtain ⟨m', generation⟩ := numbered
    dsimp only at hnumbered hprogram ⊢
    rw [← hprogram] at hnumbered
    rw [assignPolicyGeneration, if_neg hne]
    split
    · have hkept := hnumbered.of_subset (subset_append_left _ _)
      refine ⟨⟨hkept, logged_default _⟩, ?_, ?_, logged_default _⟩
      · rw [← hprogram]
        exact refl _
      · rw [← hprogram]
        rfl
    · next routing hassign =>
      split at hassign
      · cases hassign
      · cases hassign
        have hseeded := m'.seedPids_refreshed
          { resolved.routing with policyGeneration := some generation } answer hnumbered
        exact
          { hseeded with
            subset := hprogram ▸ hseeded.subset
            cgroupPolicies := hprogram ▸ hseeded.cgroupPolicies }

theorem reconcile_refreshed (config : EbpfSectionConfig) (resolved : ResolvedPids)
    (answers : ProgramAnswers) :
    PidsRefreshed m (m.reconcile config resolved answers).1
      (m.reconcile config resolved answers).2.routing := by
  have hquiet := m.converge_quiet config answers.start
  unfold reconcile
  generalize m.converge config answers.start = converged at hquiet
  obtain ⟨m', error⟩ := converged
  cases error with
  | some e => exact h.refreshed m hquiet
  | none =>
    dsimp only
    split
    · have hrefreshed := m'.refreshPids_refreshed (h.quiet hquiet) (hquiet.nextPid ▸ hwrap) resolved
        answers.setTargetPids
      exact
        { hrefreshed with
          subset := hquiet.pidPolicies ▸ hrefreshed.subset
          cgroupPolicies := hrefreshed.cgroupPolicies.trans hquiet.cgroupPolicies }
    · exact h.refreshed m hquiet

end EbpfManager

/-! ## Routing -/

/-- A routed event has the generation of the table that routes it. -/
theorem routeCapturedEvent_eq_some {pidRouting : PidRouting} {cgroupRouting : CgroupRouting}
    {pid scopeCgroupId policyGeneration : Nat}
    (h : routeCapturedEvent pidRouting cgroupRouting pid scopeCgroupId policyGeneration = some
      service) :
    (scopeCgroupId = 0 → pidRouting.policyGeneration = some policyGeneration ∧
        pidRouting.serviceFor pid = some service) ∧
      (scopeCgroupId ≠ 0 → cgroupRouting.policyGeneration = some policyGeneration ∧
        cgroupRouting.serviceFor scopeCgroupId = some service) := by
  unfold routeCapturedEvent at h
  dsimp only at h
  split at h
  · next hscope =>
    split at h
    · cases h
    · next hgeneration =>
      rw [not_or, not_not] at hgeneration
      exact ⟨fun _ => ⟨hgeneration.2, h⟩, fun hne => absurd hscope hne⟩
  · next hscope =>
    split at h
    · cases h
    · next hgeneration =>
      rw [not_or, not_not] at hgeneration
      refine ⟨fun hzero => absurd hzero hscope, fun _ => ⟨hgeneration.2, ?_⟩⟩
      split at h
      · next hcgroup =>
        split at h
        · cases h
        · next hsame => rw [hcgroup, ← not_not.1 hsame, h]
      · next hcgroup => rw [hcgroup, h]
      · cases h

namespace Runner

variable {ext : Externals}

/-! ## The invariant -/

/-- Policies have numbers of their own, the tables in force are among them, and so are those that
events were routed by. -/
structure Attributing (r : Runner ext) : Prop where
  pids : r.manager.PidsNumbered
  cgroups : Numbered r.nextCgroupPolicyGeneration r.manager.program.cgroupPolicies
  pidRouting : r.pidRouting.Logged r.manager.program
  cgroupRouting : r.cgroupRouting.Logged r.manager.program
  delivered : ∀ d ∈ r.delivered, r.manager.program.Authorizes d.event d.service

variable {r r' : Runner ext} {desired : CgroupRouting} {event : CapturedEvent} {service : String}

theorem Attributing.quiet (h : Attributing r) (hq : Quiet r r') : Attributing r' where
  pids := h.pids.quiet hq.manager
  cgroups := by
    rw [hq.nextCgroup, hq.manager.cgroupPolicies]
    exact h.cgroups
  pidRouting := by
    rcases hq.pidRouting with hsame | hempty
    · intro generation hgeneration
      rw [hq.manager.pidPolicies]
      rw [hsame] at hgeneration ⊢
      exact h.pidRouting generation hgeneration
    · rw [hempty]
      exact logged_default _
  cgroupRouting := by
    rcases hq.cgroupRouting with hsame | hempty
    · rw [hsame]
      refine ⟨fun generation hgeneration => ?_, h.cgroupRouting.numbered⟩
      rw [hq.manager.cgroupPolicies]
      exact h.cgroupRouting.mem generation hgeneration
    · rw [hempty]
      exact CgroupRouting.logged_default _
  delivered := by
    intro d hd
    rw [hq.delivered] at hd
    exact (h.delivered d hd).mono (hq.manager.pidPolicies ▸ refl _)
      (hq.manager.cgroupPolicies ▸ refl _)

/-! ## Publications -/

/-- A numbered table can be logged, and need not be if it was. -/
structure Assigned (r r' : Runner ext) (resolved desired : CgroupRouting) : Prop where
  attributing : Attributing r'
  manager : r'.manager = r.manager
  routing : r'.cgroupRouting = r.cgroupRouting
  numbered : ∀ answer, Numbered r'.nextCgroupPolicyGeneration
    (r.manager.program.setAllowedCgroups desired answer).cgroupPolicies
  hasNumber : desired.isEmpty = false → desired.policyGeneration.isSome = true
  logged : cgroupPublicationIsRequired r.cgroupRouting resolved = false →
    desired.Logged r.manager.program

variable (h : Attributing r) (hwrap : r.nextCgroupPolicyGeneration + 1 < 2 ^ 64)

include h

theorem Attributing.withCounter {n : Nat} (hn : Numbered n r.manager.program.cgroupPolicies) :
    Attributing { r with nextCgroupPolicyGeneration := n } :=
  ⟨h.pids, hn, h.pidRouting, h.cgroupRouting, h.delivered⟩

include hwrap in
/-- A table gets the number it had, or one above all that were used; if it need not be published, it
was logged under that number before. -/
theorem cgroupGenerationFor_numbered {resolved : CgroupRouting} (hne : resolved.isEmpty = false) :
    Numbered (r.cgroupGenerationFor resolved).1.nextCgroupPolicyGeneration
        (r.manager.program.cgroupPolicies ++
          [((r.cgroupGenerationFor resolved).2, resolved.byId)]) ∧
      (cgroupPublicationIsRequired r.cgroupRouting resolved = false →
        ((r.cgroupGenerationFor resolved).2, resolved.byId) ∈
          r.manager.program.cgroupPolicies) := by
  unfold cgroupGenerationFor
  split
  · next hrequired =>
    refine ⟨?_, fun hnot => nomatch hrequired.symm.trans hnot⟩
    rw [nextCgroupGeneration]
    dsimp only
    rw [nextGeneration_of_lt hwrap]
    exact h.cgroups.next (Nat.lt_succ_self _) _
  · next hnot =>
    have hsame := byId_of_not_required (Bool.eq_false_iff.2 hnot)
    have hactive : r.cgroupRouting.isEmpty = false := by
      rwa [CgroupRouting.isEmpty, ← hsame, ← CgroupRouting.isEmpty]
    obtain ⟨generation, hgeneration⟩ :=
      Option.isSome_iff_exists.1 (h.cgroupRouting.numbered hactive)
    have hmem := h.cgroupRouting.mem generation hgeneration
    rw [hgeneration, hsame]
    exact ⟨h.cgroups.again hmem, fun _ => hmem⟩

include hwrap in
theorem assignCgroupGeneration_error {resolved : CgroupRouting} {e : String}
    (hassign : r.assignCgroupGeneration resolved = (r', .error e)) : Attributing r' := by
  unfold assignCgroupGeneration at hassign
  split at hassign
  · cases hassign
  · next hne =>
    obtain ⟨n, hn⟩ := r.cgroupGenerationFor_fields resolved
    have hnumbered := (cgroupGenerationFor_numbered h hwrap (Bool.eq_false_iff.2 hne)).1
    have hr' : (r.cgroupGenerationFor resolved).1 = r' := congrArg Prod.fst hassign
    rw [hn] at hnumbered hr'
    rw [← hr']
    exact h.withCounter (hnumbered.of_subset (subset_append_left _ _))

include hwrap in
theorem assignCgroupGeneration_assigned (resolved : ResolvedCgroups)
    (hassign : r.assignCgroupGeneration resolved.routing = (r', .ok desired)) :
    Assigned r r' resolved.routing desired := by
  unfold assignCgroupGeneration at hassign
  split at hassign
  · -- without entries there is nothing to number
    next hempty =>
    cases hassign
    have hnone := resolved.generation_of_empty hempty
    refine ⟨h, rfl, rfl, fun answer => ?_, fun hne => ?_, fun _ => ⟨fun g hg => ?_, fun hne => ?_⟩⟩
    · rw [cgroupPolicies_of_none hnone]
      exact h.cgroups
    · exact nomatch hempty.symm.trans hne
    · cases hnone.symm.trans hg
    · exact nomatch hempty.symm.trans hne
  · next hne =>
    obtain ⟨n, hn⟩ := r.cgroupGenerationFor_fields resolved.routing
    obtain ⟨hnumbered, hmem⟩ := cgroupGenerationFor_numbered h hwrap (Bool.eq_false_iff.2 hne)
    generalize r.cgroupGenerationFor resolved.routing = numbered at hassign hn hnumbered hmem
    obtain ⟨r₁, generation⟩ := numbered
    dsimp only at hassign hn hnumbered hmem
    subst hn
    obtain ⟨rfl, hdesired⟩ := Prod.mk.inj hassign
    rw [CgroupRouting.assignPolicyGeneration, if_neg hne] at hdesired
    split at hdesired
    · cases hdesired
    · cases hdesired
      refine ⟨h.withCounter (hnumbered.of_subset (subset_append_left _ _)), rfl, rfl,
        fun answer => hnumbered, fun _ => rfl, fun hnot => ⟨fun g hg => ?_, fun _ => rfl⟩⟩
      cases hg
      exact hmem hnot

/-- A manager that has logged a cgroup policy more. -/
theorem Attributing.withManager {routing : CgroupRouting} {answer : Except String Unit}
    (hnumbered : Numbered r.nextCgroupPolicyGeneration
    (r.manager.program.setAllowedCgroups routing answer).cgroupPolicies) :
    Attributing { r with manager := (r.manager.setAllowedCgroups routing answer).1 } := by
  obtain ⟨hpid, hnext, hactive, hcgroup⟩ := r.manager.setAllowedCgroups_logs routing answer
  have hsubset : r.manager.program.cgroupPolicies ⊆
      (r.manager.setAllowedCgroups routing answer).1.program.cgroupPolicies := by
    rcases hcgroup with ⟨hsame, _⟩ | hlogged
    · rw [hsame]
      exact refl _
    · rw [hlogged]
      exact cgroupPolicies_subset
  refine ⟨⟨?_, ?_⟩, ?_, ?_, ⟨?_, h.cgroupRouting.numbered⟩, ?_⟩
  · rw [hnext, hpid]
    exact h.pids.numbered
  · intro generation hgeneration
    rw [hactive] at hgeneration ⊢
    rw [hpid]
    exact h.pids.active generation hgeneration
  · rcases hcgroup with ⟨hsame, _⟩ | hlogged
    · rw [hsame]
      exact h.cgroups
    · rw [hlogged]
      exact hnumbered
  · intro generation hgeneration
    rw [hpid]
    exact h.pidRouting generation hgeneration
  · exact fun generation hgeneration => hsubset (h.cgroupRouting.mem generation hgeneration)
  · exact fun d hd => (h.delivered d hd).mono (hpid ▸ refl _) hsubset

theorem Attributing.adopt (key : CgroupResolutionKey)
    (hdesired : desired.Logged r.manager.program) :
    Attributing (r.adoptRouting key desired) :=
  ⟨h.pids, h.cgroups, h.pidRouting, hdesired, h.delivered⟩

omit h in
/-- A publication ends with the manager as it was, or after the call that logs the policy; a
success is logged. -/
theorem publishRevalidatedCgroups_manager {m m' : EbpfManager} {routing : CgroupRouting}
    {a : ResolutionAnswers} {result : Except CgroupPublicationRecovery Unit}
    (h : publishRevalidatedCgroups m routing a = (m', result)) :
    (m' = m ∧ result ≠ .ok ()) ∨
      m' = (m.setAllowedCgroups routing a.setAllowedCgroups).1 ∧
        (result = .ok () → m'.program.cgroupPolicies =
          (m.program.setAllowedCgroups routing a.setAllowedCgroups).cgroupPolicies) := by
  unfold publishRevalidatedCgroups at h
  split at h
  · cases h
    exact .inl ⟨rfl, nofun⟩
  · split at h
    · next hset =>
      cases h
      rw [hset]
      exact .inr ⟨rfl, nofun⟩
    · next hset =>
      have hlogs := (m.setAllowedCgroups_logs routing a.setAllowedCgroups).2.2.2
      rw [hset] at hlogs ⊢
      split at h
      · cases h
        exact .inr ⟨rfl, nofun⟩
      · cases h
        exact .inr ⟨rfl, fun _ => hlogs.resolve_left fun hsame => hsame.2 rfl⟩

include hwrap in
theorem publishCgroups_attributing
    (key : CgroupResolutionKey) (resolved : ResolvedCgroups) (a : ResolutionAnswers) :
    Attributing (r.publishCgroups key resolved.routing a) := by
  unfold publishCgroups
  split
  · next hassign =>
    exact (assignCgroupGeneration_error h hwrap hassign).quiet (failListenerCapture_quiet _)
  · next r' desired hassign =>
    have hassigned := assignCgroupGeneration_assigned h hwrap resolved hassign
    have hnumbered := hassigned.numbered a.setAllowedCgroups
    rw [← hassigned.manager] at hnumbered
    have hpublished := hassigned.attributing.withManager hnumbered
    split
    · split
      · next m hpublish =>
        rcases publishRevalidatedCgroups_manager hpublish with ⟨_, hnot⟩ | ⟨rfl, hlogged⟩
        · exact absurd rfl hnot
        · refine hpublished.adopt key ⟨fun generation hgeneration => ?_, hassigned.hasNumber⟩
          dsimp only
          rw [hlogged rfl, cgroupPolicies_of_some hgeneration]
          exact mem_append_right _ mem_cons_self
      · next m _ hpublish =>
        apply Attributing.quiet _ (clearOrFail_quiet _ _)
        rcases publishRevalidatedCgroups_manager hpublish with ⟨rfl, _⟩ | ⟨rfl, _⟩
        · exact hassigned.attributing.quiet (r'.quiet_listener _ _)
        · exact hpublished.quiet (quiet_listener ..)
      · next m _ hpublish =>
        apply Attributing.quiet _ (failListenerCapture_quiet _)
        rcases publishRevalidatedCgroups_manager hpublish with ⟨rfl, _⟩ | ⟨rfl, _⟩
        · exact hassigned.attributing
        · exact hpublished
    · -- the active table under the active number
      next hnot =>
      refine hassigned.attributing.adopt key ?_
      rw [hassigned.manager]
      rw [hassigned.routing] at hnot
      exact hassigned.logged (Bool.eq_false_iff.2 hnot)

/-! ## Reconciles -/

theorem reconcileCapture_attributing (hwrap : r.manager.nextPidPolicyGeneration + 1 < 2 ^ 64)
    {config : EbpfSectionConfig} {t : Tick} {running : Bool}
    (hreconcile : r.reconcileCapture config t = (r', running)) : Attributing r' := by
  have hrefreshed := r.manager.reconcile_refreshed h.pids hwrap config t.resolved t.answers
  unfold reconcileCapture at hreconcile
  generalize r.manager.reconcile config t.resolved t.answers = reconciled at hrefreshed hreconcile
  obtain ⟨m, outcome⟩ := reconciled
  dsimp only at hrefreshed hreconcile
  have hseeded : Attributing { r with manager := m, pidRouting := outcome.routing } := by
    refine ⟨hrefreshed.numbered, ?_, hrefreshed.routing, ⟨?_, h.cgroupRouting.numbered⟩, ?_⟩
    · rw [hrefreshed.cgroupPolicies]
      exact h.cgroups
    · rw [hrefreshed.cgroupPolicies]
      exact h.cgroupRouting.mem
    · intro d hd
      exact (h.delivered d hd).mono hrefreshed.subset (hrefreshed.cgroupPolicies ▸ refl _)
  split at hreconcile
  · split at hreconcile
    · cases hreconcile
      exact hseeded.quiet ⟨⟨.inl rfl, rfl⟩, .refl _, rfl, .inl rfl, .inl rfl, rfl⟩
    · cases hreconcile
      exact hseeded.quiet ⟨⟨.inl rfl, rfl⟩, m.shutdown_quiet, rfl, .inr rfl, .inr rfl, rfl⟩
  · cases hreconcile
    exact hseeded.quiet ⟨⟨.inl rfl, rfl⟩, .refl _, rfl, .inl rfl, .inr rfl, rfl⟩

omit h

/-- The next generation of either counter fits into 64 bits. -/
def NoWrap (r : Runner ext) (_ : Event) : Prop :=
  r.manager.nextPidPolicyGeneration + 1 < 2 ^ 64 ∧ r.nextCgroupPolicyGeneration + 1 < 2 ^ 64

instance (r : Runner ext) (e : Event) : Decidable (NoWrap r e) :=
  inferInstanceAs (Decidable (_ ∧ _))

theorem Iterates.attributing (h : Iterates r r') {e : Event} (hr : Attributing r)
    (hwrap : NoWrap r e) : Attributing r' := by
  obtain ⟨r₁, r₂, hbefore, hpublishes, hafter⟩ := h
  have h₁ := hr.quiet hbefore
  -- quiet work leaves the counters as they were
  have hpid := hwrap.1
  have hcgroup := hwrap.2
  rw [← hbefore.manager.nextPid] at hpid
  rw [← hbefore.nextCgroup] at hcgroup
  apply Attributing.quiet _ hafter
  cases hpublishes with
  | nothing => exact h₁
  | pids hreconcile => exact reconcileCapture_attributing h₁ hpid hreconcile
  | cgroups key resolved a => exact publishCgroups_attributing h₁ hcgroup key resolved a

/-! ## Captured data -/

variable (h : Attributing r)

include h

theorem Attributing.authorizes (hroute : r.route event = some service) :
    r.manager.program.Authorizes event service := by
  unfold route at hroute
  split at hroute
  · obtain ⟨hpid, hcgroup⟩ := routeCapturedEvent_eq_some hroute
    unfold Authorizes
    split
    · next hscope =>
      obtain ⟨hgeneration, hservice⟩ := hpid hscope
      exact ⟨r.pidRouting, h.pidRouting _ hgeneration, hservice⟩
    · next hscope =>
      obtain ⟨hgeneration, hservice⟩ := hcgroup hscope
      exact ⟨r.cgroupRouting, h.cgroupRouting.mem _ hgeneration, hservice⟩
  · cases hroute

/-- Handing on a routed event; what else the iteration does is not about attribution. -/
theorem Attributing.deliver (hroute : r.route event = some service)
    (hmanager : r'.manager = r.manager)
    (hnext : r'.nextCgroupPolicyGeneration = r.nextCgroupPolicyGeneration)
    (hpid : r'.pidRouting = r.pidRouting) (hcgroup : r'.cgroupRouting = r.cgroupRouting)
    (hdelivered : r'.delivered = r.delivered ++ [⟨event, service⟩]) : Attributing r' := by
  refine ⟨hmanager ▸ h.pids, ?_, ?_, ?_, ?_⟩
  · rw [hmanager, hnext]
    exact h.cgroups
  · rw [hmanager, hpid]
    exact h.pidRouting
  · rw [hmanager, hcgroup]
    exact h.cgroupRouting
  · rw [hdelivered, hmanager]
    exact forall_mem_append.2 ⟨h.delivered, forall_mem_singleton.2 (h.authorizes hroute)⟩

theorem onLine_attributing (event : CapturedEvent) (taken : Bool) :
    Attributing (r.onLine event taken) := by
  unfold onLine
  split
  · next hroute =>
    split
    · exact h.deliver hroute rfl rfl rfl rfl rfl
    · exact h
  · exact h

theorem onFlow_attributing (event : CapturedEvent) : Attributing (r.onFlow event) := by
  unfold onFlow
  split
  · next hroute => exact h.deliver hroute rfl rfl rfl rfl rfl
  · exact h

theorem onSegment_attributing (seg : CapturedSegment) (resolved : Option ResolvedConn) :
    Attributing (r.onSegment seg resolved) := by
  unfold onSegment
  split
  · exact h
  · next hroute =>
    dsimp only
    split
    · exact h.quiet ⟨⟨.inl rfl, rfl⟩, .refl _, rfl, .inl rfl, .inl rfl, rfl⟩
    · exact h.deliver hroute rfl rfl rfl rfl rfl

omit h

/-! ## The loop -/

theorem step_attributing (r : Runner ext) (e : Event) (h : Attributing r) (hwrap : NoWrap r e) :
    Attributing (r.step e) := by
  cases hcontrol : e.isControl with
  | true => exact (step_iterates r hcontrol).attributing h hwrap
  | false =>
    unfold step
    split
    · exact h
    · cases e with
      | line event taken => exact onLine_attributing h event taken
      | flow event => exact onFlow_attributing h event
      | segment seg resolved => exact onSegment_attributing h seg resolved
      | tick | listener | snapshot | resolution | health | shutdown => cases hcontrol

/-- The policy that was published under the event's generation, and no other was, gives the event to
the service. -/
def AuthorizedByOwnPolicy (d : Delivery) : Prop :=
  if d.event.scopeCgroupId = 0 then
    ∃ routing : PidRouting, OnlyUnder p.pidPolicies d.event.policyGeneration routing.byPid ∧
      routing.serviceFor d.event.pid = some d.service
  else
    ∃ routing : CgroupRouting, OnlyUnder p.cgroupPolicies d.event.policyGeneration routing.byId ∧
      routing.serviceFor d.event.scopeCgroupId = some d.service

/-- Everything that was handed on so far went where its own policy sends it. -/
def Attributed (r : Runner ext) : Prop :=
  ∀ d ∈ r.delivered, AuthorizedByOwnPolicy r.manager.program d

theorem attributed_of_attributing (r : Runner ext) (h : Attributing r) : Attributed r := by
  intro d hd
  have hauthorized := h.delivered d hd
  unfold Authorizes at hauthorized
  unfold AuthorizedByOwnPolicy
  split
  · next hscope =>
    rw [if_pos hscope] at hauthorized
    obtain ⟨routing, hmem, hservice⟩ := hauthorized
    exact ⟨routing, ⟨hmem, fun _ hother => h.pids.numbered.unique _ hother _ hmem rfl⟩, hservice⟩
  · next hscope =>
    rw [if_neg hscope] at hauthorized
    obtain ⟨routing, hmem, hservice⟩ := hauthorized
    exact ⟨routing, ⟨hmem, fun _ hother => h.cgroups.unique _ hother _ hmem rfl⟩, hservice⟩

/-- **Attribution.** In every run whose generations do not wrap, every captured event that is handed
to a service, with whatever stamps and delay it comes, goes where the one policy that was ever
published under its generation sends its process or scope. -/
theorem events_attributed_by_own_policy (ext : Externals) (events : List Event)
    (hwrap : Each step NoWrap ({} : Runner ext) events) :
    Always step Attributed ({} : Runner ext) events := by
  have hstart : Attributing ({} : Runner ext) := by
    refine ⟨⟨Numbered.nil _, PidRouting.logged_default _⟩, Numbered.nil _,
      PidRouting.logged_default _, CgroupRouting.logged_default _, fun d hd => ?_⟩
    cases hd
  exact (always_of_each step_attributing hstart hwrap).mono attributed_of_attributing

/-- A published allow set, and an event of its scope. -/
def deliveringRun : List Event := [quietTick 10, webSnapshot 2, webResolution 2, .flow ⟨1, 1, 7, 5⟩]

theorem deliveringRun_attributed :
    (deliveringRun.foldl step ({} : Runner httpOnly)).delivered = [⟨⟨1, 1, 7, 5⟩, "web"⟩] ∧
      Always step Attributed ({} : Runner httpOnly) deliveringRun :=
  ⟨by decide +kernel, events_attributed_by_own_policy httpOnly deliveringRun (by decide +kernel)⟩

end Runner

end EdgePacer.Ebpf
