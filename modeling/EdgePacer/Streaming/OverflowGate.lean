import EdgePacer.Streaming.Checkpoint
import EdgePacer.Streaming.Spill

/-!
# Checkpoints over spilled lines

With an overflow store the empty buffer is not all there is to a checkpoint: spilled lines wait in
the store's files. The pipeline replays them before it tries to save, but only if `hasOverflow`
finds a finalized file, so records that are all in the active file are passed over
(`active_record_covered`); and the save at the end of the shutdown drain looks at no file at all.

`Spills` keeps the records in sight: a line that is spilled finds a finalized file beside the active
one, or completes the active one, and no file is evicted. `Gated` says that a pending checkpoint is
not saved past them: a replay can read the store, and the shutdown finds it empty. With whole
replays that is enough, in every run (`covers_only_handled`).
-/

namespace EdgePacer.Streaming

open Lib Delivery StreamingDeliveryPipeline List History

universe u

namespace StreamingDeliveryPipeline

variable {κ : Type u} {p q : StreamingDeliveryPipeline κ}

/-- When a checkpoint is pending, a replay can read the store, and the shutdown's save finds no
record. -/
def Gated (p : StreamingDeliveryPipeline κ) : Op κ → Prop
  | .idleHousekeeping env => p.pendingCheckpoint.isSome = true → ∀ w, p.overflow = some w →
      w.hasOverflow p.sourceId = true → env.replay.fault = none
  | .saveCheckpointIfPending _ => p.pendingCheckpoint.isSome = true → ∀ w, p.overflow = some w →
      w.available p.sourceId = []
  | _ => True

/-- A line for which the buffer has no room finds a finalized file of the source, or fills the
active one; and no write exceeds the store's budget. -/
def Spills (p : StreamingDeliveryPipeline κ) : Op κ → Prop
  | .enqueue env line => p.isFull env line = true → ∀ w, p.overflow = some w →
      w.Roomy env.write p.sourceId line.data line.timestampNs ∧
        (w.hasOverflow p.sourceId = true ∨ w.Fills p.sourceId line.data)
  | .overflowElsewhere op => ∀ w, p.overflow = some w → op.source ≠ p.sourceId → op.Roomy w
  | _ => True

instance (p : StreamingDeliveryPipeline κ) : DecidablePred p.Gated
  | .idleHousekeeping _ => inferInstanceAs (Decidable (_ → ∀ _ ∈ p.overflow, _ → _))
  | .saveCheckpointIfPending _ => inferInstanceAs (Decidable (_ → ∀ _ ∈ p.overflow, _))
  | .enqueue _ _ | .setPendingCheckpoint _ | .settle .. | .overflowElsewhere _ =>
      inferInstanceAs (Decidable True)

instance (p : StreamingDeliveryPipeline κ) : DecidablePred p.Spills
  | .enqueue _ _ => inferInstanceAs (Decidable (_ → ∀ _ ∈ p.overflow, (_ ≤ _) ∧ (_ ∨ (_ ≤ _))))
  | .overflowElsewhere _ => inferInstanceAs (Decidable (∀ _ ∈ p.overflow, _ → _))
  | .idleHousekeeping _ | .setPendingCheckpoint _ | .settle .. | .saveCheckpointIfPending _ =>
      inferInstanceAs (Decidable True)

theorem Stored.inStore_eq_nil (h : p.Stored) {w : Writer} (hw : p.overflow = some w)
    (hnil : w.available p.sourceId = []) : p.journal.inStore = [] := by
  have hrecords := h.records w hw
  rw [hnil] at hrecords
  exact forall₂_nil_left_iff.1 hrecords

/-- `hasOverflow` finds the source's records. -/
def Seen (p : StreamingDeliveryPipeline κ) : Prop :=
  ∀ w, p.overflow = some w → w.available p.sourceId ≠ [] → w.hasOverflow p.sourceId = true

theorem Seen.of_eq (h : p.Seen) (hoverflow : q.overflow = p.overflow)
    (hsource : q.sourceId = p.sourceId) : q.Seen := by
  unfold Seen
  rw [hoverflow, hsource]
  exact h

theorem Seen.of_same (h : p.Seen) {w w' : Writer} (hw : p.overflow = some w)
    (hsame : Writer.SameFor p.sourceId w' w) (hoverflow : q.overflow = some w')
    (hsource : q.sourceId = p.sourceId) : q.Seen := by
  intro v hv hne
  obtain rfl : w' = v := Option.some.inj (hoverflow.symm.trans hv)
  rw [hsource, hsame.available] at hne
  rw [hsource, hsame.hasOverflow]
  exact h w hw hne

/-- A spilled line is in sight, and nothing is evicted for it. -/
theorem Seen.enqueued (hseen : p.Seen) (h : p.Stored) {env : EnqueueEnv} {line : StreamLine}
    {r : Bool × StreamingDeliveryPipeline κ} (hspec : Enqueued p env line r)
    (hs : p.Supported (.enqueue env line)) (hspills : p.Spills (.enqueue env line)) :
    r.2.Seen ∧ r.2.journal.evicted = p.journal.evicted := by
  cases hspec with
  | blank hblank | buffered hblank hraw htable hstep => exact ⟨hseen.of_eq rfl rfl, rfl⟩
  | refused => exact ⟨hseen, rfl⟩
  | failed hw hfault => exact ⟨hseen.of_same hw ((hs _ hw).2.2 _ hfault) rfl rfl, rfl⟩
  | @spilled w hblank hfull hw hwrote =>
    obtain ⟨hclock, hfits, -⟩ := hs w hw
    obtain ⟨hroomy, hfound⟩ := hspills hfull w hw
    have hok : env.write.fault = none := by
      cases hfault : env.write.fault with
      | none => rfl
      | some left =>
        rw [Writer.write, hfault] at hwrote
        cases hwrote
    obtain ⟨-, hav⟩ := Writer.appended_spec (r := (line.timestampNs, line.data))
      (h.wellFormed w hw) hclock hfits
    have hafter := Writer.appended_seen (r := (line.timestampNs, line.data))
      (h.wellFormed w hw) hclock hfits hfound
    rw [Writer.write_of_roomy hroomy hok]
    refine ⟨fun v hv _ => ?_, ?_⟩
    · cases hv
      exact hafter
    · -- the store has all its records and the new one
      have hlen := (h.records w hw).length_eq
      show p.journal.evicted ++ (p.journal.inStore ++ [some p.journal.accepted.length]).rdrop _ = _
      rw [hav, length_append, hlen, rdrop, length_append, length_singleton, length_singleton,
        Nat.sub_self, take_zero, append_nil]

theorem Seen.replayed (hseen : p.Seen) (h : p.Stored) {env : IdleEnv}
    (hspec : Replayed p env.replay q) (hs : p.Supported (.idleHousekeeping env)) :
    q.Seen ∧ q.journal.evicted = p.journal.evicted := by
  cases hspec with
  | skipped hskip => exact ⟨hseen, rfl⟩
  | failed hover hfault hw => exact ⟨hseen.of_same hw ((hs _ hw).2 _ hfault) rfl rfl, rfl⟩
  | @taken w raws hover hfault hw hraws htable hstep =>
    refine ⟨fun v hv hne => ?_, rfl⟩
    obtain rfl : (w.replayBatch p.sourceId REPLAY_BATCH env.replay.now).2 = v := Option.some.inj hv
    exact Writer.replayBatch_seen (h.wellFormed w hw) (hs w hw).1 REPLAY_BATCH hne

theorem Seen.elsewhere (hseen : p.Seen) (h : p.Stored) {op : OverflowOp} (hspec : Evicted p op q)
    (hs : p.Supported (.overflowElsewhere op)) (hspills : p.Spills (.overflowElsewhere op)) :
    q.Seen ∧ q.journal.evicted = p.journal.evicted := by
  cases hspec with
  | untouched => exact ⟨hseen, rfl⟩
  | @changed w hw hne =>
    have hsame := OverflowOp.apply_of_roomy (hs w hw hne) (hspills w hw hne)
    refine ⟨hseen.of_same hw hsame rfl rfl, ?_⟩
    have hlen := (h.records w hw).length_eq
    show p.journal.evicted ++ p.journal.inStore.rdrop _ = _
    rw [hsame.available, hlen, rdrop, Nat.sub_self, take_zero, append_nil]

/-- The store is tied to the journal, has lost nothing, and its records are in sight. -/
structure Keeping (p : StreamingDeliveryPipeline κ) : Prop where
  stored : p.Stored
  lost : p.journal.lost = []
  evicted : p.journal.evicted = []
  seen : p.Seen

/-- After a gated, whole replay an empty buffer means an empty store. -/
theorem Keeping.replay_empties (h : p.Keeping) (hstep : p.buffer.InStep) {env : IdleEnv}
    (hspec : Replayed p env.replay q) (hs : p.Supported (.idleHousekeeping env))
    (hwhole : p.Whole (.idleHousekeeping env)) (hgated : p.Gated (.idleHousekeeping env))
    (hpending : p.pendingCheckpoint.isSome = true) {w : Writer} (hw : p.overflow = some w)
    (hempty : q.buffer.isEmpty = true) : q.journal.inStore = [] := by
  have hq := h.stored.replayed hs hspec
  cases hspec with
  | skipped hskip =>
    -- nothing is in sight, so nothing is there
    apply h.stored.inStore_eq_nil hw
    by_contra hne
    exact absurd (h.seen w hw hne) (by rw [hskip w hw]; exact Bool.false_ne_true)
  | @failed w' left hover hfault hw' =>
    cases hfault.symm.trans (hgated hpending w' hw' hover)
  | @taken w' raws hover hfault hw' hraws htable hstep' =>
    have hseqs := (DiskBuffer.isEmpty_iff (hstep' hstep)).1 hempty
    rw [DiskBuffer.seqs, htable, SeqTable.seqs_insertAll, append_eq_nil_iff] at hseqs
    have hraws0 : raws.length = 0 := by simpa using congrArg length hseqs.2
    have hopened := opened_length h.stored hs hwhole hw' hover hfault htable
    obtain ⟨-, -, -, hdone⟩ := Writer.replayBatch_spec (h.stored.wellFormed w' hw') (hs w' hw').1
      REPLAY_BATCH
    have hnil := hdone.resolve_left (by rw [← hopened, hraws0]; decide)
    exact hq.inStore_eq_nil rfl hnil

/-- Under these conditions every save that finds the buffer empty finds the store clear. -/
theorem Keeping.savesClear (hp : p.Located) (h : p.Keeping) {op : Op κ} (hs : p.Supported op)
    (hwhole : p.Whole op) (hgated : p.Gated op) : p.SavesClear op := by
  cases op with
  | enqueue env line | setPendingCheckpoint checkpoint | settle fault outcome sequences
  | overflowElsewhere op => trivial
  | idleHousekeeping env =>
    intro hpending hempty
    have hspec := p.replayOverflowIntoBuffer_spec env.replay
    rw [hspec.grows.2.1] at hpending
    refine ⟨?_, (lost_replayed h.stored hs hwhole hspec).trans h.lost,
      (h.seen.replayed h.stored hspec hs).2.trans h.evicted⟩
    cases hw : p.overflow with
    | none =>
      have hsame : p.replayOverflowIntoBuffer env.replay = p := by
        rw [replayOverflowIntoBuffer, hw]
      rw [hsame]
      exact h.stored.absent hw
    | some w =>
      exact h.replay_empties hp.inStep hspec hs hwhole hgated
        (Option.isSome_iff_ne_none.2 hpending) hw hempty
  | saveCheckpointIfPending env =>
    intro hpending _
    refine ⟨?_, h.lost, h.evicted⟩
    cases hw : p.overflow with
    | none => exact h.stored.absent hw
    | some w =>
      exact h.stored.inStore_eq_nil hw (hgated (Option.isSome_iff_ne_none.2 hpending) w hw)

theorem Keeping.apply (h : p.Keeping) {op : Op κ} (hs : p.Supported op) (hwhole : p.Whole op)
    (hspills : p.Spills op) : (p.apply op).Keeping := by
  have hrest : (p.apply op).Seen ∧ (p.apply op).journal.evicted = p.journal.evicted := by
    have hspec := p.apply_spec op
    generalize p.apply op = q at hspec
    cases hspec with
    | enqueue henqueued => exact h.seen.enqueued h.stored henqueued hs hspills
    | setPendingCheckpoint checkpoint => exact ⟨h.seen.of_eq rfl rfl, rfl⟩
    | settle hsettled =>
      cases hsettled with
      | kept | deleted htable hstep => exact ⟨h.seen.of_eq rfl rfl, rfl⟩
    | idleHousekeeping hreplayed hsaved =>
      have hseen := h.seen.replayed h.stored hreplayed hs
      cases hsaved with
      | kept => exact hseen
      | persisted hpending hempty => exact ⟨hseen.1.of_eq rfl rfl, hseen.2⟩
    | saveCheckpointIfPending hsaved =>
      cases hsaved with
      | kept => exact ⟨h.seen, rfl⟩
      | persisted hpending hempty => exact ⟨h.seen.of_eq rfl rfl, rfl⟩
    | overflowElsewhere hevicted => exact h.seen.elsewhere h.stored hevicted hs hspills
  exact ⟨h.stored.apply hs, (lost_apply h.stored hs hwhole).trans h.lost,
    hrest.2.trans h.evicted, hrest.1⟩

end StreamingDeliveryPipeline

namespace World

variable {κ : Type u}

/-- Every line the persisted checkpoint covers was accepted, and was blank or handled by the outcome
of a ship; and `hasOverflow` is true when the store has a record of the source. -/
structure CoversHandled (w : World κ) : Prop where
  covered : ∀ checkpoint n, w.pipeline.persisted = some (checkpoint, n) → ∀ i < n,
    ∃ line fate, w.sent[i]? = some line ∧ w.journal.accepted[i]? = some (line, fate) ∧
      w.journal.Handled fate
  seen : w.pipeline.Seen

/-- All that an event does to the pipeline meets the conditions. -/
def Kept (w : World κ) (ev : Event κ) : Prop :=
  Each apply (fun p op => p.Supported op ∧ p.Whole op ∧ p.Gated op ∧ p.Spills op)
    w.pipeline (w.actor.ops (ev.stamp w.sent.length))

instance (w : World κ) (ev : Event κ) : Decidable (w.Kept ev) :=
  inferInstanceAs (Decidable (Each ..))

/-- **With an overflow store a persisted checkpoint covers handled lines only**, and the records of
the source are in sight, in every run whose events all keep to the conditions. -/
theorem covers_only_handled (table : SeqTable Bytes) (bufferMaxMb : Nat) (persisted : Option κ)
    (shipBatchSize shipBatchMaxBytes : Nat) (sourceId : String) (store : Writer)
    (events : List (Event κ)) (hwf : store.WellFormed sourceId)
    (hseen : store.available sourceId ≠ [] → store.hasOverflow sourceId = true)
    (hevents : Each step Kept (spawn table bufferMaxMb persisted shipBatchSize shipBatchMaxBytes
      sourceId (some store)) events) :
    Always step CoversHandled (spawn table bufferMaxMb persisted shipBatchSize shipBatchMaxBytes
      sourceId (some store)) events := by
  have hrun : Always step
      (fun w : World κ => w.Intake ∧ w.pipeline.Sound ∧ w.pipeline.Keeping)
      (spawn table bufferMaxMb persisted shipBatchSize shipBatchMaxBytes sourceId (some store))
      events := by
    refine always_of_each ?_ ?_ hevents
    · intro w ev hw hkept
      refine Intake.step_sound ?_ hw hkept
      exact fun p op hlocated hkeeping ⟨hs, hwhole, hgated, hspills⟩ =>
        ⟨hkeeping.apply hs hwhole hspills, hkeeping.savesClear hlocated hs hwhole hgated⟩
    · refine ⟨intake_spawn .., sound_open .., stored_open ?_, rfl, rfl, ?_⟩
      · intro w hw
        cases hw
        exact hwf
      · intro w hw
        cases hw
        exact hseen
  refine hrun.mono fun w hw => ⟨fun _ _ hn _ hi => ?_, hw.2.2.seen⟩
  exact covered_of_sound hw.1 hw.2.1 hn hi

/-- A line and a checkpoint that covers it; the ship of the line empties the buffer, the file an
earlier process left is replayed and shipped too, and then the checkpoint is persisted. -/
def leftoverRun : List (Event Nat) :=
  [.send (.enqueue ⟨[97], 0, .unspecified⟩), .send (.setCheckpoint 7), .recv (.calm 2),
    .recv (.calm 2), .tick (.calm 3), .delivered 3, .tick (.calm 4), .delivered 4]

theorem covers_only_handled_leftover :
    Each step Kept (spawn (.empty 0) 1 none 10 1000 "app" (some leftoverStore)) leftoverRun ∧
      (leftoverRun.foldl step (spawn (.empty 0) 1 none 10 1000 "app"
        (some leftoverStore))).pipeline.persisted = some (7, 1) ∧
      Always step CoversHandled (spawn (.empty 0) 1 none 10 1000 "app" (some leftoverStore))
        leftoverRun :=
  ⟨by decide +kernel, by decide +kernel,
    covers_only_handled (.empty 0) 1 none 10 1000 "app" leftoverStore leftoverRun
      wellFormed_leftoverStore (by decide) (by decide +kernel)⟩

/-! ## A record in the active file -/

/-- An actor with a one-megabyte buffer and a fresh store. -/
def smallSpawn : World Nat := spawn (.empty 0) 1 none 10 1000 "app" (some freshStore)

/-- A line that the buffer has no room for, a checkpoint that covers it, and a timer tick. -/
def spillRun (line : StreamLine) : List (Event Nat) :=
  [.send (.enqueue line), .send (.setCheckpoint 7), .recv (.calm 1), .recv (.calm 1),
    .tick (.calm 3)]

section

variable {line : StreamLine} (hblank : isBlankLogLine line.data = false)
  (hfull : 1024 * 1024 ≤ line.data.length)
  (hfit : 12 + line.data.length < DEFAULT_MAX_FILE_BYTES)

include hblank hfull hfit

/-- The tick finds the buffer empty and no finalized file, and persists the checkpoint. -/
theorem spillRun_last :
    ((spillRun line).foldl step smallSpawn).pipeline =
      { smallSpawn.pipeline with
        overflow := some (oneRecord "app" 1 line.data line.timestampNs)
        persisted := some (7, 1)
        journal := ⟨[(line, .spilled 0)], [], [], [some 0], [], [], []⟩ } := by
  have hlimit : DEFAULT_MAX_FILE_BYTES = 10485760 := rfl
  have henq : smallSpawn.pipeline.enqueue (.calm 1) line = (true,
      { smallSpawn.pipeline with
        overflow := some (oneRecord "app" 1 line.data line.timestampNs)
        journal := smallSpawn.pipeline.journal.spill line
          ((oneRecord "app" 1 line.data line.timestampNs).available "app").length }) :=
    enqueue_of_full rfl hblank (by omega)
      (show 1048576 < 0 + (12 + line.data.length) by omega) (freshStore_write rfl hfit)
  have hfits : Record.Fits (line.timestampNs, line.data) := by
    rw [Record.Fits]
    dsimp only
    omega
  have hav : (oneRecord "app" 1 line.data line.timestampNs).available "app" =
      [(line.timestampNs, line.data)] := available_oneRecord hfits
  have hno := hasOverflow_oneRecord "app" 1 line.data line.timestampNs
  rw [hav] at henq
  generalize oneRecord "app" 1 line.data line.timestampNs = stored at henq hno
  generalize hq : ({ smallSpawn.pipeline with
      overflow := some stored
      journal := smallSpawn.pipeline.journal.spill line 1 } :
        StreamingDeliveryPipeline (Nat × Nat)) = q at henq
  have hrecv := Actor.recv_enqueue (a := { smallSpawn.actor with
      queue := [.enqueue line, .setCheckpoint (7, 1)] }) rfl rfl henq
  have hreplay : (q.setPendingCheckpoint (7, 1)).replayOverflowIntoBuffer
      ⟨none, 3, fun _ => false⟩ = q.setPendingCheckpoint (7, 1) := by
    rw [← hq]
    exact if_pos hno
  show (step (step (World.mk (Actor.recv { smallSpawn.actor with
    queue := [.enqueue line, .setCheckpoint (7, 1)] } (.calm 1)) [line]) (.recv (.calm 1)))
    (.tick (.calm 3))).pipeline = _
  rw [hrecv]
  subst hq
  exact congrArg (fun r => r.saveCheckpointIfPending .calm) hreplay

/-- Such a run leaves the line in the active file, under a checkpoint that covers it. -/
theorem spillRun_covers :
    ((spillRun line).foldl step smallSpawn).pipeline.persisted = some (7, 1) ∧
      ((spillRun line).foldl step smallSpawn).journal.accepted = [(line, .spilled 0)] ∧
      (∃ store, ((spillRun line).foldl step smallSpawn).pipeline.overflow = some store ∧
        store.available "app" = [(line.timestampNs, line.data)] ∧
        store.hasOverflow "app" = false) ∧
      ¬ Always step CoversHandled smallSpawn (spillRun line) := by
  have hlimit : DEFAULT_MAX_FILE_BYTES = 10485760 := rfl
  have hlast := spillRun_last hblank hfull hfit
  have hjournal : ((spillRun line).foldl step smallSpawn).journal =
      ⟨[(line, .spilled 0)], [], [], [some 0], [], [], []⟩ :=
    congrArg StreamingDeliveryPipeline.journal hlast
  have hpersisted := congrArg StreamingDeliveryPipeline.persisted hlast
  have hfits : Record.Fits (line.timestampNs, line.data) := by
    rw [Record.Fits]
    dsimp only
    omega
  refine ⟨hpersisted, congrArg Journal.accepted hjournal,
    ⟨_, congrArg overflow hlast, available_oneRecord hfits, hasOverflow_oneRecord ..⟩, fun h => ?_⟩
  -- the covered line was not replayed
  obtain ⟨l, fate, -, hget, hhandled⟩ := h.last.covered 7 1 hpersisted 0 Nat.one_pos
  rw [hjournal] at hget hhandled
  cases hget
  obtain ⟨s, hs, -⟩ := hhandled
  cases hs

end

/-- A line of `n` megabytes. -/
def bigLine (n : Nat) : StreamLine := ⟨replicate (n * 1024 * 1024) 97, 0, .unspecified⟩

theorem length_bigLine (n : Nat) : (bigLine n).data.length = n * 1024 * 1024 := length_replicate

theorem bigLine_not_blank {n : Nat} (hn : 0 < n) : isBlankLogLine (bigLine n).data = false := by
  have hne : n * 1024 * 1024 ≠ 0 := by omega
  rw [isBlankLogLine, bigLine, all_replicate, if_neg hne]
  rfl

/-- A one-megabyte line is spilled into the active file; the next tick finds no finalized file,
takes the store for empty and persists the checkpoint that covers the line. -/
theorem active_record_covered :
    ((spillRun (bigLine 1)).foldl step smallSpawn).pipeline.persisted = some (7, 1) ∧
      ((spillRun (bigLine 1)).foldl step smallSpawn).journal.accepted = [(bigLine 1, .spilled 0)] ∧
      (∃ store, ((spillRun (bigLine 1)).foldl step smallSpawn).pipeline.overflow = some store ∧
        store.available "app" = [((bigLine 1).timestampNs, (bigLine 1).data)] ∧
        store.hasOverflow "app" = false) ∧
      ¬ Always step CoversHandled smallSpawn (spillRun (bigLine 1)) := by
  have hlimit : DEFAULT_MAX_FILE_BYTES = 10485760 := rfl
  have hlen := length_bigLine 1
  have hblank := bigLine_not_blank Nat.one_pos
  exact spillRun_covers hblank (by omega) (by omega)

end World

end EdgePacer.Streaming
