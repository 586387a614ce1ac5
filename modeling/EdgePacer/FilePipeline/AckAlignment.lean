import EdgePacer.FilePipeline.Effects

/-!
# Acks and the entries they stand for

The pipeline acks batches by counting: a drain that settles `n` entries acks the `n` oldest
pending batches. The counted batches are those of the settled entries as long as the two queues are
aligned, and entries that no batch stands for, left by an earlier process or replayed from
overflow, put them out of step.

`pendingSeqs` is always a sublist of the buffer's numbers (`Ledger.Sound`), so alignment is a
question about each drain alone: either every entry it removes has a pending batch, or no entry it
leaves has one. `acksMatch_iff_inStep` says that acks and entries agree throughout a run exactly
when every drain meets this.
-/

namespace EdgePacer.FilePipeline

open Lib Delivery Source List DeliveryPipeline BatchTracker

/-- The pipeline with the entries ship outcomes settled and the batches behind saved
checkpoints. -/
structure Ledger where
  pipe : DeliveryPipeline
  handled : List Nat
  covered : List TrackedBatch

namespace Ledger

/-- The entries an event's ship outcome settles. -/
def settledBy (p : DeliveryPipeline) : Event → List Nat
  | .drain env => p.shipped env
  | _ => []

/-- The batches an event's checkpoint covers. -/
def coveredBy (p : DeliveryPipeline) : Event → List TrackedBatch
  | .checkpoint true => p.tracker.ackedPrefix
  | _ => []

def step (libs : Externals) (w : Ledger) (ev : Event) : Ledger where
  pipe := w.pipe.step libs ev
  handled := w.handled ++ settledBy w.pipe ev
  covered := w.covered ++ coveredBy w.pipe ev

/-- A batch whose entry was settled and has left the buffer. -/
def Settled (w : Ledger) (b : TrackedBatch) : Prop :=
  b.bufferFirstSeq ∈ w.handled ∧ b.bufferFirstSeq ∉ w.pipe.seqs

/-- Every acked batch, and every batch behind a checkpoint, had its own entry settled. -/
structure AcksMatch (w : Ledger) : Prop where
  acked : ∀ b ∈ w.pipe.tracker.batches, b.status = .acked → w.Settled b
  covered : ∀ b ∈ w.covered, w.Settled b

/-- A drain is in step when it leaves no pending batch's entry behind an entry without one. -/
def InStep (w : Ledger) : Event → Prop
  | .drain env =>
      (∀ n ∈ w.pipe.seqs.take (w.pipe.drainCount env), n ∈ w.pipe.tracker.pendingSeqs) ∨
        ∀ n ∈ w.pipe.seqs.drop (w.pipe.drainCount env), n ∉ w.pipe.tracker.pendingSeqs
  | _ => True

/-- What holds whatever the drains do: pending batches have their entries in the buffer, in
order, and numbers are never given out twice. -/
structure Sound (w : Ledger) : Prop where
  pending : w.pipe.tracker.pendingSeqs.Sublist w.pipe.seqs
  known : ∀ b ∈ w.pipe.tracker.batches, b.bufferFirstSeq ≤ w.pipe.lastSeq
  coveredKnown : ∀ b ∈ w.covered, b.bufferFirstSeq ≤ w.pipe.lastSeq

variable {libs : Externals} {w : Ledger}

/-- An entry that has left the buffer does not come back. -/
theorem Settled.mono {w' : Ledger} {b : TrackedBatch} (h : w.Settled b)
    (hhandled : ∀ n ∈ w.handled, n ∈ w'.handled)
    (hseqs : ∀ n ∈ w'.pipe.seqs, n ∈ w.pipe.seqs ∨ w.pipe.lastSeq < n)
    (hknown : b.bufferFirstSeq ≤ w.pipe.lastSeq) : w'.Settled b := by
  refine ⟨hhandled _ h.1, ?_⟩
  intro hmem
  rcases hseqs _ hmem with hold | hnew
  · exact h.2 hold
  · omega

/-! ## Storing -/

variable {ev : Event} {inode : Nat} {items : List Item} {env : DrainEnv} {k : Nat}

variable (h : w.Sound)

include h

theorem stored_sound (hst : w.pipe.Stored (w.pipe.step libs ev) inode items)
    (hcov : coveredBy w.pipe ev = []) : (w.step libs ev).Sound where
  pending := by
    simp only [step, hst.tracker, hst.seqs, trackAll_pendingSeqs]
    exact h.pending.append (List.Sublist.refl _)
  known := by
    intro b hb
    simp only [step, hst.tracker, hst.lastSeq] at hb ⊢
    rcases mem_trackAll _ _ _ _ hb with hold | ⟨-, -, item, hmem, -⟩
    · have := h.known b hold
      omega
    · have := fst_of_mem_numberFrom hmem
      omega
  coveredKnown := by
    intro b hb
    simp only [step, hcov, append_nil, hst.lastSeq] at hb ⊢
    have := h.coveredKnown b hb
    omega

theorem stored_acksMatch (hm : w.AcksMatch) (hst : w.pipe.Stored (w.pipe.step libs ev) inode items)
    (hcov : coveredBy w.pipe ev = []) : (w.step libs ev).AcksMatch := by
  have hseqs : ∀ n ∈ (w.step libs ev).pipe.seqs, n ∈ w.pipe.seqs ∨ w.pipe.lastSeq < n := by
    intro n hn
    simp only [step, hst.seqs] at hn
    rcases mem_append.1 hn with hold | hnew
    · exact .inl hold
    · rw [mem_range'_1] at hnew
      exact .inr (by omega)
  have hhandled : ∀ n ∈ w.handled, n ∈ (w.step libs ev).handled := fun n hn => mem_append_left _ hn
  constructor
  · intro b hb hacked
    simp only [step, hst.tracker] at hb
    rcases mem_trackAll _ _ _ _ hb with hold | ⟨hpend, -⟩
    · exact (hm.acked b hold hacked).mono hhandled hseqs (h.known b hold)
    · cases hpend.symm.trans hacked
  · intro b hb
    simp only [step, hcov, append_nil] at hb
    exact (hm.covered b hb).mono hhandled hseqs (h.coveredKnown b hb)

/-! ## Draining -/

/-- The entries of the batches a drain acks are gone exactly when the drain is in step. -/
theorem inStep_drain_iff :
    w.InStep (.drain env) ↔
      ∀ n ∈ w.pipe.tracker.pendingSeqs.take (w.pipe.drainCount env),
        n ∉ w.pipe.seqs.drop (w.pipe.drainCount env) :=
  (overtakes_iff h.pending w.pipe.seqs_nodup _).symm

variable (hd : w.pipe.Drained (w.pipe.step libs (.drain env)) (w.pipe.drainCount env) k)

include hd

theorem drained_sound : (w.step libs (.drain env)).Sound where
  pending := by
    simp only [step, hd.tracker, hd.seqs, pendingSeqs_ackHandledPrefix]
    exact (h.pending.drop _).trans (sublist_append_left _ _)
  known := by
    intro b hb
    simp only [step, hd.tracker, hd.lastSeq] at hb ⊢
    rcases mem_ackHandledPrefix hb with hold | ⟨b₀, hb₀, rfl⟩
    · have := h.known b hold
      omega
    · have := h.known b₀ (mem_of_mem_filter (mem_of_mem_take hb₀))
      dsimp only
      omega
  coveredKnown := by
    intro b hb
    simp only [step, coveredBy, append_nil, hd.lastSeq] at hb ⊢
    have := h.coveredKnown b hb
    omega

omit h in
theorem drained_seqs :
    ∀ n ∈ (w.step libs (.drain env)).pipe.seqs, n ∈ w.pipe.seqs ∨ w.pipe.lastSeq < n := by
  intro n hn
  simp only [step, hd.seqs] at hn
  rcases mem_append.1 hn with hold | hnew
  · exact .inl (mem_of_mem_drop hold)
  · rw [mem_range'_1] at hnew
    exact .inr (by omega)

theorem drained_acksMatch (hm : w.AcksMatch) (hin : w.InStep (.drain env)) :
    (w.step libs (.drain env)).AcksMatch := by
  have hhandled : ∀ n ∈ w.handled, n ∈ (w.step libs (.drain env)).handled :=
    fun n hn => mem_append_left _ hn
  constructor
  · intro b hb hacked
    simp only [step, hd.tracker] at hb
    rcases mem_ackHandledPrefix hb with hold | ⟨b₀, hb₀, rfl⟩
    · exact (hm.acked b hold hacked).mono hhandled (drained_seqs hd) (h.known b hold)
    · -- a batch acked by this drain: its entry was in the buffer and is not left there
      have hpend : b₀.bufferFirstSeq ∈ w.pipe.tracker.pendingSeqs.take (w.pipe.drainCount env) := by
        rw [pendingSeqs, ← map_take]
        exact mem_map_of_mem hb₀
      have hgone := (inStep_drain_iff h).1 hin _ hpend
      have hmem := h.pending.subset (mem_of_mem_take hpend)
      have htaken : b₀.bufferFirstSeq ∈ w.pipe.seqs.take (w.pipe.drainCount env) := by
        rw [← take_append_drop (w.pipe.drainCount env) w.pipe.seqs] at hmem
        exact (mem_append.1 hmem).resolve_right hgone
      refine ⟨mem_append_right _ (w.pipe.take_drainCount_subset env _ htaken), ?_⟩
      simp only [step, hd.seqs]
      intro hleft
      rcases mem_append.1 hleft with hleft | hnew
      · exact hgone hleft
      · rw [mem_range'_1] at hnew
        have : _ ≤ w.pipe.lastSeq := SeqTable.seqs_le _ (mem_of_mem_take htaken)
        omega
  · intro b hb
    simp only [step, coveredBy, append_nil] at hb
    exact (hm.covered b hb).mono hhandled (drained_seqs hd) (h.coveredKnown b hb)

theorem inStep_of_acksMatch (hm' : (w.step libs (.drain env)).AcksMatch) :
    w.InStep (.drain env) := by
  rw [inStep_drain_iff h]
  intro n hn hleft
  rw [pendingSeqs, ← map_take] at hn
  obtain ⟨b, hb, rfl⟩ := mem_map.1 hn
  have hacked := acked_mem_ackHandledPrefix hb
  have hsettled := hm'.acked { b with status := .acked } (by
    simp only [step, hd.tracker]
    exact hacked) rfl
  apply hsettled.2
  simp only [step, hd.seqs]
  exact mem_append_left _ hleft

/-! ## Checkpoints -/

omit hd

theorem checkpoint_sound (saved : Bool) : (w.step libs (.checkpoint saved)).Sound := by
  obtain ⟨hbuffer, -, -, -, htracker⟩ := w.pipe.checkpointCycle_frame saved
  have hseqs : (w.pipe.checkpointCycle saved).seqs = w.pipe.seqs := by
    rw [seqs, hbuffer, seqs]
  have hlast : (w.pipe.checkpointCycle saved).lastSeq = w.pipe.lastSeq := by
    rw [lastSeq, hbuffer, lastSeq]
  have hsub : ∀ b ∈ (w.pipe.checkpointCycle saved).tracker.batches, b ∈ w.pipe.tracker.batches := by
    intro b hb
    rcases htracker with heq | heq <;> rw [heq] at hb
    · exact hb
    · exact mem_drainAcked hb
  refine ⟨?_, ?_, ?_⟩
  · simp only [step, DeliveryPipeline.step, hseqs]
    rcases htracker with heq | heq <;> rw [heq]
    · exact h.pending
    · rw [pendingSeqs_drainAcked]
      exact h.pending
  · intro b hb
    simp only [step, DeliveryPipeline.step, hlast] at hb ⊢
    exact h.known b (hsub b hb)
  · intro b hb
    simp only [step, DeliveryPipeline.step, hlast] at hb ⊢
    rcases mem_append.1 hb with hold | hnew
    · exact h.coveredKnown b hold
    · cases saved with
      | false => cases hnew
      | true => exact h.known b (mem_ackedPrefix hnew).1

omit h in
theorem checkpoint_acksMatch (hm : w.AcksMatch) (saved : Bool) :
    (w.step libs (.checkpoint saved)).AcksMatch := by
  obtain ⟨hbuffer, -, -, -, htracker⟩ := w.pipe.checkpointCycle_frame saved
  have hsettled : ∀ b, w.Settled b → (w.step libs (.checkpoint saved)).Settled b := by
    intro b hb
    refine ⟨mem_append_left _ hb.1, ?_⟩
    simp only [step, DeliveryPipeline.step, DeliveryPipeline.seqs, hbuffer]
    exact hb.2
  constructor
  · intro b hb hacked
    simp only [step, DeliveryPipeline.step] at hb
    apply hsettled
    rcases htracker with heq | heq <;> rw [heq] at hb
    · exact hm.acked b hb hacked
    · exact hm.acked b (mem_drainAcked hb) hacked
  · intro b hb
    apply hsettled
    rcases mem_append.1 hb with hold | hnew
    · exact hm.covered b hold
    · cases saved with
      | false => cases hnew
      | true =>
        obtain ⟨hmem, hacked⟩ := mem_ackedPrefix hnew
        exact hm.acked b hmem hacked

/-! ## Whole runs -/

omit h in
theorem coveredBy_of_storeEnv {p : DeliveryPipeline} {env : StoreEnv}
    (h : storeEnv ev = some env) : coveredBy p ev = [] := by
  cases ev with
  | checkpoint saved => cases h
  | _ => rfl

theorem step_sound (ev : Event) : (w.step libs ev).Sound := by
  rcases w.pipe.step_effect libs ev with ⟨env, inode, henv, hst⟩ | ⟨env, k, rfl, hd⟩ |
    ⟨saved, rfl⟩ | ⟨store, rfl⟩
  · exact stored_sound h hst (coveredBy_of_storeEnv henv)
  · exact drained_sound h hd
  · exact checkpoint_sound h saved
  · refine ⟨h.pending, h.known, fun b hb => ?_⟩
    simp only [step, coveredBy, append_nil] at hb
    exact h.coveredKnown b hb

theorem step_acksMatch (hm : w.AcksMatch) (hin : w.InStep ev) : (w.step libs ev).AcksMatch := by
  rcases w.pipe.step_effect libs ev with ⟨env, inode, henv, hst⟩ | ⟨env, k, rfl, hd⟩ |
    ⟨saved, rfl⟩ | ⟨store, rfl⟩
  · exact stored_acksMatch h hm hst (coveredBy_of_storeEnv henv)
  · exact drained_acksMatch h hd hm hin
  · exact checkpoint_acksMatch hm saved
  · refine ⟨fun b hb hacked => ?_, fun b hb => ?_⟩
    · exact ⟨mem_append_left _ (hm.acked b hb hacked).1, (hm.acked b hb hacked).2⟩
    · simp only [step, coveredBy, append_nil] at hb
      exact ⟨mem_append_left _ (hm.covered b hb).1, (hm.covered b hb).2⟩

theorem inStep_of_step_acksMatch (hm' : (w.step libs ev).AcksMatch) : w.InStep ev := by
  cases ev with
  | drain env =>
    obtain ⟨k, hd⟩ := w.pipe.drainCycle_drained env
    exact inStep_of_acksMatch h hd hm'
  | _ => trivial

omit h

variable (libs : Externals) (tailer : LogTailer) (table : SeqTable Bytes) (bufferMaxMb : Nat)
  (persisted : Option Checkpoint) (config : PipelineConfig) (sourceId : String)
  (overflow : Option Writer) (assemblers : Option StreamAssemblers)

/-- The ledger of a pipeline that starts, over any leftover buffer. -/
def start : Ledger :=
  ⟨.start tailer table bufferMaxMb persisted config sourceId overflow assemblers, [], []⟩

/-- Over every run, from any buffer content an earlier process left: a batch is acked, and covered
by a checkpoint, only after its own entry was settled and has left the buffer, exactly as long as
every drain is in step. -/
theorem acksMatch_iff_inStep (events : List Event) :
    Always (step libs) AcksMatch
        (start tailer table bufferMaxMb persisted config sourceId overflow assemblers) events ↔
      Each (step libs) InStep
        (start tailer table bufferMaxMb persisted config sourceId overflow assemblers) events := by
  apply always_iff_each (I := fun w => w.Sound ∧ w.AcksMatch)
  · exact fun w h => h.2
  · exact fun w ev h hin => ⟨step_sound h.1 ev, step_acksMatch h.1 h.2 hin⟩
  · exact fun w ev h hm' => inStep_of_step_acksMatch h.1 hm'
  · refine ⟨⟨nil_sublist _, ?_, ?_⟩, ⟨?_, ?_⟩⟩
    · exact forall_mem_nil _
    · exact forall_mem_nil _
    · exact forall_mem_nil _
    · exact forall_mem_nil _

/-- A buffer in which an earlier process left two lines. -/
def twoLeftLines : SeqTable Bytes :=
  (SeqTable.empty 0).insertAll [toBe 8 0 ++ toBe 4 1 ++ [0x61], toBe 8 0 ++ toBe 4 1 ++ [0x62]]

/-- A restart over `twoLeftLines` that ships one entry at a time. -/
def restarted : Ledger :=
  start (.file (.pending (.checkpoint ⟨0, 7⟩))) twoLeftLines 1 none ⟨10, 1⟩ "app" none none

/-- Read the line `n`, deliver the oldest entry, checkpoint. -/
def restartEvents : List Event := [.readFile 7 [0x6E, 0x0A], .deliver 10, .checkpoint true]

/-- Delivering a left line acks the new one: the checkpoint passes it while its entry is still in
the buffer. -/
theorem left_line_acks_new_line :
    (restartEvents.foldl (step plainExternals) restarted).pipe.persisted = some ⟨2, 7⟩ ∧
      (restartEvents.foldl (step plainExternals) restarted).pipe.seqs = [2, 3] ∧
      (restartEvents.foldl (step plainExternals) restarted).handled = [1] ∧
      (restartEvents.foldl (step plainExternals) restarted).covered.map
        TrackedBatch.bufferFirstSeq = [3] ∧
      ¬ Always (step plainExternals) AcksMatch restarted restartEvents := by
  have hcovered : (restartEvents.foldl (step plainExternals) restarted).covered.map
      TrackedBatch.bufferFirstSeq = [3] := by decide
  have hhandled : (restartEvents.foldl (step plainExternals) restarted).handled = [1] := by
    decide
  refine ⟨by decide, by decide, hhandled, hcovered, ?_⟩
  intro h
  have hmem : 3 ∈ (restartEvents.foldl (step plainExternals) restarted).covered.map
      TrackedBatch.bufferFirstSeq := by exact mem_cons_self
  obtain ⟨b, hb, hseq⟩ := mem_map.1 hmem
  have hsettled := (h.last.covered b hb).1
  rw [hseq, hhandled] at hsettled
  simp at hsettled

end Ledger

end EdgePacer.FilePipeline
