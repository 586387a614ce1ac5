import EdgePacer.Ebpf.Runner

/-!
# What an iteration can do

Most of the runner's branches publish nothing: they clear tables, change the listener state, or
unload capture (`Quiet`). An iteration without captured data is quiet work around at most one
publication, by a reconcile or by the last part of a resolution (`step_iterates`), so a property of
whole runs needs to look at those two only.
-/

namespace EdgePacer.Ebpf

open L7

theorem kept_or_emptied {α : Type} {a b c empty : α} (h : b = a ∨ b = empty)
    (h' : c = b ∨ c = empty) : c = a ∨ c = empty := by
  rcases h' with hsame | hempty
  · rw [hsame]
    exact h
  · exact .inr hempty

namespace EbpfManager

/-- The tables and counters are as they were, up to tables that were emptied. -/
structure Quiet (m m' : EbpfManager) : Prop where
  pidPolicies : m'.program.pidPolicies = m.program.pidPolicies
  cgroupPolicies : m'.program.cgroupPolicies = m.program.cgroupPolicies
  nextPid : m'.nextPidPolicyGeneration = m.nextPidPolicyGeneration
  active : m'.activePidRouting = m.activePidRouting ∨ m'.activePidRouting = {}

theorem Quiet.refl (m : EbpfManager) : Quiet m m := ⟨rfl, rfl, rfl, .inl rfl⟩

theorem Quiet.trans {m m' m'' : EbpfManager} (h : Quiet m m') (h' : Quiet m' m'') :
    Quiet m m'' where
  pidPolicies := h'.pidPolicies.trans h.pidPolicies
  cgroupPolicies := h'.cgroupPolicies.trans h.cgroupPolicies
  nextPid := h'.nextPid.trans h.nextPid
  active := kept_or_emptied h.active h'.active

variable (m : EbpfManager)

theorem stop_quiet : Quiet m m.stop := ⟨rfl, rfl, rfl, .inr rfl⟩

theorem shutdown_quiet : Quiet m m.shutdown := by
  unfold shutdown
  split
  · exact m.stop_quiet
  · exact .refl m

variable (config : EbpfSectionConfig) (answer : Except String Unit)

theorem start_quiet : Quiet m (m.start config answer).1 := by
  cases answer with
  | error e => exact .refl m
  | ok u => exact ⟨rfl, rfl, rfl, .inr rfl⟩

theorem converge_quiet : Quiet m (m.converge config answer).1 := by
  unfold converge
  cases m.state.decide config with
  | noop => exact .refl m
  | stop => exact m.stop_quiet
  | start => exact m.start_quiet config answer
  | restart => exact m.stop_quiet.trans (m.stop.start_quiet config answer)

theorem setAllowedCgroups_quiet : Quiet m (m.setAllowedCgroups {} answer).1 := by
  unfold setAllowedCgroups
  split
  · exact .refl m
  · cases answer with
    | error e | ok u => exact ⟨rfl, rfl, rfl, .inl rfl⟩

end EbpfManager

namespace Runner

variable {ext : Externals}

/-! ## Quiet work -/

/-- Nothing is emitted, and trackers and resolved connections are kept or dropped together. -/
structure L7Quiet (r r' : Runner ext) : Prop where
  l7 : r'.l7 = r.l7 ∨ r'.l7 = {}
  emitted : r'.emitted = r.emitted

theorem L7Quiet.trans {r r' r'' : Runner ext} (h : L7Quiet r r') (h' : L7Quiet r' r'') :
    L7Quiet r r'' where
  l7 := kept_or_emptied h.l7 h'.l7
  emitted := h'.emitted.trans h.emitted

theorem L7Quiet.after {r r₁ r' : Runner ext} (h : L7Quiet r₁ r') (hl7 : r₁.l7 = r.l7)
    (hemitted : r₁.emitted = r.emitted) : L7Quiet r r' :=
  L7Quiet.trans ⟨.inl hl7, hemitted⟩ h

/-- No policy is published, no event is routed, and tables change only by being emptied. -/
structure Quiet (r r' : Runner ext) : Prop extends L7Quiet r r' where
  manager : r.manager.Quiet r'.manager
  nextCgroup : r'.nextCgroupPolicyGeneration = r.nextCgroupPolicyGeneration
  pidRouting : r'.pidRouting = r.pidRouting ∨ r'.pidRouting = {}
  cgroupRouting : r'.cgroupRouting = r.cgroupRouting ∨ r'.cgroupRouting = {}
  delivered : r'.delivered = r.delivered

namespace Quiet

variable {r r' r'' : Runner ext}

theorem refl (r : Runner ext) : Quiet r r :=
  ⟨⟨.inl rfl, rfl⟩, .refl _, rfl, .inl rfl, .inl rfl, rfl⟩

theorem trans (h : Quiet r r') (h' : Quiet r' r'') : Quiet r r'' where
  toL7Quiet := h.toL7Quiet.trans h'.toL7Quiet
  manager := h.manager.trans h'.manager
  nextCgroup := h'.nextCgroup.trans h.nextCgroup
  pidRouting := kept_or_emptied h.pidRouting h'.pidRouting
  cgroupRouting := kept_or_emptied h.cgroupRouting h'.cgroupRouting
  delivered := h'.delivered.trans h.delivered

end Quiet

variable (r : Runner ext)

theorem failListenerCapture_quiet : Quiet r r.failListenerCapture :=
  ⟨⟨.inr rfl, rfl⟩, r.manager.shutdown_quiet, rfl, .inr rfl, .inr rfl, rfl⟩

theorem clear_quiet {r r' : Runner ext} {answer result : Except String Unit}
    (h : r.clearCgroupAuthorizationAndL7 answer = (r', result)) : Quiet r r' := by
  have hr' : { (r.clearCgroupAuthorization answer).1 with l7 := {} } = r' := congrArg Prod.fst h
  subst hr'
  unfold clearCgroupAuthorization
  split
  · exact ⟨⟨.inr rfl, rfl⟩, .refl _, rfl, .inl rfl, .inl rfl, rfl⟩
  · exact ⟨⟨.inr rfl, rfl⟩, r.manager.setAllowedCgroups_quiet answer, rfl, .inl rfl, .inr rfl, rfl⟩

variable (answer : Except String Unit)

theorem clearOrFail_quiet : Quiet r (r.clearOrFail answer) := by
  unfold clearOrFail
  split
  · next hclear => exact (clear_quiet hclear).trans (failListenerCapture_quiet _)
  · next hclear => exact clear_quiet hclear

theorem clearUnready_quiet : Quiet r (r.clearUnreadyCgroupAuthorization answer) := by
  unfold clearUnreadyCgroupAuthorization
  split
  · exact .refl r
  · exact clearOrFail_quiet r answer

theorem quiet_listener (s : ListenerState) (hash : Option String) :
    Quiet r { r with listenerState := s, listenerConfigHash := hash } :=
  ⟨⟨.inl rfl, rfl⟩, .refl _, rfl, .inl rfl, .inl rfl, rfl⟩

theorem abandonSnapshot_quiet (generation : Nat) (answer : Except String Unit) :
    Quiet r (r.abandonSnapshot generation answer) :=
  (r.quiet_listener _ r.listenerConfigHash).trans (clearUnready_quiet _ answer)

theorem abandonRestarted_quiet (generation : Nat) (answer : Except String Unit) :
    Quiet r (r.abandonRestarted generation answer) :=
  (r.quiet_listener r.listenerState none).trans (abandonSnapshot_quiet _ generation answer)

variable (key : CgroupResolutionKey)

theorem startCgroupResolution_quiet
    (reserved : Except String Unit) : Quiet r (r.startCgroupResolution key reserved) := by
  unfold startCgroupResolution
  split
  · exact failListenerCapture_quiet r
  · exact ⟨⟨.inl rfl, rfl⟩, .refl _, rfl, .inl rfl, .inl rfl, rfl⟩

theorem applySnapshot_quiet (res : ListenerSnapshotResult)
    (snapshot : ListenerSnapshot) (dropCounts : List Nat) (a : SnapshotAnswers) :
    Quiet r (r.applySnapshot res snapshot dropCounts a) := by
  unfold applySnapshot
  dsimp only
  split
  · next s _ =>
    have hstate := r.quiet_listener s r.listenerConfigHash
    split
    · split
      · next hclear =>
        exact (hstate.trans (clear_quiet hclear)).trans (failListenerCapture_quiet _)
      · next hclear =>
        exact (hstate.trans (clear_quiet hclear)).trans (startCgroupResolution_quiet ..)
    · exact hstate.trans (startCgroupResolution_quiet ..)
  · exact r.quiet_listener _ _
  · exact (r.quiet_listener _ _).trans (clearUnready_quiet _ _)

theorem onSnapshot_quiet (res : ListenerSnapshotResult) (a : SnapshotAnswers) :
    Quiet r (r.onSnapshot res a) := by
  unfold onSnapshot
  split
  · exact .refl r
  · split
    · exact abandonSnapshot_quiet r _ _
    · split
      · exact abandonSnapshot_quiet r _ _
      · split
        · exact failListenerCapture_quiet r
        · split
          · exact abandonRestarted_quiet r _ _
          · split
            · exact (r.quiet_listener _ _).trans (failListenerCapture_quiet _)
            · exact (r.quiet_listener _ _).trans (abandonRestarted_quiet ..)
            · apply (r.quiet_listener _ _).trans
              unfold commitSnapshot
              split
              · exact abandonSnapshot_quiet ..
              · exact applySnapshot_quiet ..

theorem restartListeners_quiet : Quiet r (r.restartListeners answer) :=
  (r.quiet_listener _ _).trans (clearUnready_quiet _ answer)

/-! ## What an iteration can do -/

/-- The part of an iteration that can publish a policy: a reconcile, or a resolution's last part. -/
inductive Publishes : Runner ext → Runner ext → Prop
  | nothing (r : Runner ext) : Publishes r r
  | pids {r r' : Runner ext} {config : EbpfSectionConfig} {t : Tick} {running : Bool}
      (h : r.reconcileCapture config t = (r', running)) : Publishes r r'
  | cgroups (r : Runner ext) (key : CgroupResolutionKey) (resolved : ResolvedCgroups)
      (a : ResolutionAnswers) : Publishes r (r.publishCgroups key resolved.routing a)

/-- An iteration without captured data: at most one publication, with quiet work around it. -/
def Iterates (r r' : Runner ext) : Prop := ∃ r₁ r₂, Quiet r r₁ ∧ Publishes r₁ r₂ ∧ Quiet r₂ r'

theorem Quiet.iterates {r r' : Runner ext} (h : Quiet r r') : Iterates r r' :=
  ⟨r', r', h, .nothing r', .refl r'⟩

theorem Iterates.after_quiet {r r' r'' : Runner ext} (h : Iterates r' r'') (hq : Quiet r r') :
    Iterates r r'' := by
  obtain ⟨r₁, r₂, hbefore, hpublishes, hafter⟩ := h
  exact ⟨r₁, r₂, hq.trans hbefore, hpublishes, hafter⟩

theorem takeResolution_iterates
    (resolved : ResolvedCgroups) (a : ResolutionAnswers) :
    Iterates r (r.takeResolution key resolved.routing a) := by
  unfold takeResolution
  split
  · exact (failListenerCapture_quiet r).iterates
  · split
    · exact (restartListeners_quiet r _).iterates
    · split
      · exact ((r.quiet_listener _ _).trans (failListenerCapture_quiet _)).iterates
      · exact ((r.quiet_listener _ _).trans (restartListeners_quiet _ _)).iterates
      · next s _ _ =>
        unfold commitResolution
        split
        · exact ((quiet_listener ..).trans (clearUnready_quiet _ _)).iterates
        · next s' _ =>
          refine Iterates.after_quiet ?_ (quiet_listener _ s' r.listenerConfigHash)
          split
          · exact (restartListeners_quiet _ _).iterates
          · exact ⟨_, _, .refl _, .cgroups _ key resolved a, .refl _⟩

theorem onResolution_iterates (res : CgroupResolutionResult)
    (a : ResolutionAnswers) : Iterates r (r.onResolution res a) := by
  have hpending : Quiet r (if r.pendingCgroupResolution = some res.key then
      { r with pendingCgroupResolution := none } else r) := by
    split
    · exact ⟨⟨.inl rfl, rfl⟩, .refl _, rfl, .inl rfl, .inl rfl, rfl⟩
    · exact .refl r
  unfold onResolution
  generalize (if r.pendingCgroupResolution = some res.key then
      { r with pendingCgroupResolution := none } else r) = r' at hpending
  refine Iterates.after_quiet ?_ hpending
  dsimp only
  split
  · exact (restartListeners_quiet r' _).iterates
  · split
    · exact (Quiet.refl r').iterates
    · split
      · exact ((r'.quiet_listener _ _).trans (clearOrFail_quiet _ _)).iterates
      · exact takeResolution_iterates r' _ _ a

variable {config : EbpfSectionConfig}

theorem dropStaleAuthorization_quiet {r r' : Runner ext} {t : Tick} {continues : Bool}
    (h : r.dropStaleAuthorization config t = (r', continues)) : Quiet r r' := by
  unfold dropStaleAuthorization at h
  split at h
  · split at h
    · next r₁ _ hclear =>
      cases h
      exact (clear_quiet hclear).trans ⟨⟨.inl rfl, rfl⟩,
        r₁.manager.shutdown_quiet, rfl, .inr rfl, .inl rfl, rfl⟩
    · next hclear =>
      cases h
      exact (clear_quiet hclear).trans (quiet_listener ..)
  · cases h
    exact .refl r

theorem dropL7OnChange_quiet (previous r : Runner ext) : Quiet r (dropL7OnChange previous r) := by
  unfold dropL7OnChange
  split
  · exact ⟨⟨.inr rfl, rfl⟩, .refl _, rfl, .inl rfl, .inl rfl, rfl⟩
  · exact .refl r

theorem adoptConfig_quiet (config : EbpfSectionConfig) : Quiet r (r.adoptConfig config) := by
  unfold adoptConfig
  split
  · exact r.quiet_listener _ _
  · exact .refl r

theorem refreshListeners_quiet (t : Tick) : Quiet r (r.refreshListeners t) := by
  fun_cases refreshListeners r t
  case case1 r₁ _ hclear | case4 r₁ _ hclear =>
    exact ((r.quiet_listener _ _).trans (clear_quiet hclear)).trans
      ⟨⟨.inl rfl, rfl⟩, r₁.manager.shutdown_quiet, rfl, .inr rfl, .inl rfl, rfl⟩
  case case2 hclear | case5 hclear => exact (r.quiet_listener _ _).trans (clear_quiet hclear)
  case case3 => exact r.quiet_listener _ _
  case case6 => exact .refl r

theorem onTick_iterates (t : Tick) : Iterates r (r.onTick t) := by
  unfold onTick
  split
  · exact (failListenerCapture_quiet r).iterates
  · next config _ =>
    split
    · next hdrop => exact (dropStaleAuthorization_quiet hdrop).iterates
    · next r₁ hdrop =>
      generalize hreconcile : r₁.reconcileCapture config t = reconciled
      obtain ⟨r₂, running⟩ := reconciled
      refine ⟨r₁, r₂, dropStaleAuthorization_quiet hdrop, .pids hreconcile, ?_⟩
      refine (dropL7OnChange_quiet r₁ r₂).trans ?_
      dsimp only
      split
      · exact (adoptConfig_quiet _ config).trans (refreshListeners_quiet _ t)
      · exact ⟨⟨.inl rfl, rfl⟩, .refl _, rfl, .inl rfl, .inl rfl, rfl⟩

/-- The events that carry no captured data. -/
def Event.isControl : Event → Bool
  | .line _ _ => false
  | .flow _ => false
  | .segment _ _ => false
  | _ => true

theorem step_iterates {e : Event} (he : e.isControl = true) : Iterates r (r.step e) := by
  unfold step
  split
  · exact (Quiet.refl r).iterates
  · cases e with
    | tick t => exact onTick_iterates r t
    | line event taken | flow event => cases he
    | listener listener answer =>
      exact ((r.quiet_listener _ _).trans (clearUnready_quiet _ answer)).iterates
    | snapshot result answers => exact (onSnapshot_quiet r result answers).iterates
    | resolution result answers => exact onResolution_iterates r result answers
    | health health =>
      rw [handle, onHealth]
      split
      · exact (failListenerCapture_quiet r).iterates
      · exact (Quiet.refl r).iterates
    | segment seg resolved => cases he
    | shutdown =>
      have hquiet : Quiet r { r with manager := r.manager.shutdown, halted := true } :=
        ⟨⟨.inl rfl, rfl⟩, r.manager.shutdown_quiet, rfl, .inl rfl, .inl rfl, rfl⟩
      exact hquiet.iterates

/-! ## Trackers and resolved connections -/

theorem adoptRouting_l7 (desired : CgroupRouting) : L7Quiet r (r.adoptRouting key desired) := by
  refine ⟨?_, rfl⟩
  unfold adoptRouting
  split
  · exact .inr rfl
  · exact .inl rfl

theorem assignCgroupGeneration_l7 {r r' : Runner ext} {resolved : CgroupRouting}
    {result : Except String CgroupRouting}
    (h : r.assignCgroupGeneration resolved = (r', result)) : L7Quiet r r' := by
  unfold assignCgroupGeneration at h
  split at h
  · cases h
    exact ⟨.inl rfl, rfl⟩
  · obtain ⟨n, hn⟩ := r.cgroupGenerationFor_fields resolved
    have hr' : (r.cgroupGenerationFor resolved).1 = r' := congrArg Prod.fst h
    rw [hn] at hr'
    subst hr'
    exact ⟨.inl rfl, rfl⟩

theorem publishCgroups_l7 (resolved : CgroupRouting)
    (a : ResolutionAnswers) : L7Quiet r (r.publishCgroups key resolved a) := by
  unfold publishCgroups
  split
  · next hassign =>
    exact (assignCgroupGeneration_l7 hassign).trans (failListenerCapture_quiet _).toL7Quiet
  · next r' desired hassign =>
    apply (assignCgroupGeneration_l7 hassign).trans
    split
    · split
      · exact (adoptRouting_l7 _ key desired).after rfl rfl
      · exact (clearOrFail_quiet _ _).toL7Quiet.after rfl rfl
      · exact (failListenerCapture_quiet _).toL7Quiet.after rfl rfl
    · exact adoptRouting_l7 r' key desired

theorem reconcileCapture_l7 {r r' : Runner ext} {t : Tick} {running : Bool}
    (h : r.reconcileCapture config t = (r', running)) : L7Quiet r r' := by
  unfold reconcileCapture at h
  dsimp only at h
  split at h
  · split at h
    · cases h
      exact ⟨.inl rfl, rfl⟩
    · cases h
      exact ⟨.inl rfl, rfl⟩
  · cases h
    exact ⟨.inl rfl, rfl⟩

/-- An iteration without captured data keeps all trackers and resolved connections or drops them
all, and emits nothing. -/
theorem Iterates.l7Quiet {r r' : Runner ext} (h : Iterates r r') : L7Quiet r r' := by
  obtain ⟨r₁, r₂, hbefore, hpublishes, hafter⟩ := h
  have hmiddle : L7Quiet r₁ r₂ := by
    cases hpublishes with
    | nothing => exact ⟨.inl rfl, rfl⟩
    | pids hreconcile => exact reconcileCapture_l7 hreconcile
    | cgroups key resolved a => exact publishCgroups_l7 r₁ key resolved.routing a
  exact (hbefore.toL7Quiet.trans hmiddle).trans hafter.toL7Quiet

end Runner

end EdgePacer.Ebpf
