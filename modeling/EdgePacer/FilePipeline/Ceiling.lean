import EdgePacer.FilePipeline.Effects
import EdgePacer.FilePipeline.Accounting

/-!
# Checkpoints and lines not yet delivered

With multi-line assembly a line waits in the assembler of its stream and is then enqueued as part
of an event. A saved checkpoint is held back in two ways: by the ceiling, the oldest line still in
an assembler, and by the consecutive-ack rule, which stops at the first batch that is not acked.

The rule goes by the order in which batches were tracked, not by their offsets, so a checkpoint is
safe when the two orders agree: every event enqueued starts at or after the end of every batch then
in the tracker, and reads start where the tailer stands (`InOrder`). `heldBack_of_inOrder` proves it
for every run that meets these. `interleaved_event_overtaken` is a run with two streams that does
not.
-/

namespace EdgePacer.FilePipeline

open Lib Delivery Source List DeliveryPipeline EntryAssembler

/-- The pipeline with the start of every line enqueued, beside the buffer entry the line is in,
and each saved checkpoint offset with the starts of the lines that were not delivered then. -/
structure Watch where
  pipe : DeliveryPipeline
  lineLog : List (Nat × Nat)
  saved : List (Nat × List Nat)

namespace Watch

/-- The starts of the lines in items stored under consecutive numbers. -/
def lineStarts (firstSeq : Nat) (items : List Item) : List (Nat × Nat) :=
  (numberFrom firstSeq items).flatMap fun e => e.2.lineStarts.map fun start => (e.1, start)

/-- The starts of the lines in the assemblers. -/
def heldStarts (p : DeliveryPipeline) : List Nat :=
  match p.assemblers with
  | none => []
  | some as => as.contexts.map LineContext.startOffset

/-- The starts of the lines in an assembler or in a batch that is not acked. -/
def undelivered (w : Watch) : List Nat :=
  heldStarts w.pipe ++
    (w.lineLog.filter fun e => decide (e.1 ∈ w.pipe.tracker.pendingSeqs)).map Prod.snd

/-- What an event saves. -/
def saves (w : Watch) : Event → List (Nat × List Nat)
  | .checkpoint true =>
      match w.pipe.nextCheckpoint with
      | some cp => [(cp.offset, w.undelivered)]
      | none => []
  | _ => []

def step (libs : Externals) (w : Watch) (ev : Event) : Watch where
  pipe := w.pipe.step libs ev
  lineLog := w.lineLog ++ lineStarts (w.pipe.lastSeq + 1) (w.pipe.added libs ev)
  saved := w.saved ++ w.saves ev

/-- No checkpoint passed the start of a line that was not delivered when it was saved. -/
def HeldBack (w : Watch) : Prop := ∀ s ∈ w.saved, ∀ start ∈ s.2, s.1 ≤ start

instance (w : Watch) : Decidable w.HeldBack :=
  inferInstanceAs (Decidable (∀ s ∈ w.saved, ∀ start ∈ s.2, s.1 ≤ start))

/-- Items that start at or after the end of every tracked batch, each after the one before. -/
def After (t : BatchTracker) (items : List Item) : Prop :=
  (∀ r ∈ ranges t, ∀ item ∈ items, r.2 ≤ item.start) ∧ items.Pairwise fun a b => a.stop ≤ b.start

instance (t : BatchTracker) (items : List Item) : Decidable (After t items) :=
  inferInstanceAs (Decidable (_ ∧ _))

/-- What an event has to meet: a read is in place, and what is stored comes after what is
tracked. -/
def InOrder (libs : Externals) (w : Watch) (ev : Event) : Prop :=
  (match ev with
    | .read env => w.pipe.blocked = false →
        InPlace libs env.view w.pipe.config.batchSize w.pipe.tailer
    | _ => True) ∧
  After w.pipe.tracker (w.pipe.added libs ev)

instance (libs : Externals) (w : Watch) : DecidablePred (w.InOrder libs)
  | .read _ => inferInstanceAs (Decidable ((_ → _) ∧ _))
  | .assemblerCheck _ _ | .flush _ | .drain _ | .checkpoint _ | .overflowElsewhere _ =>
      inferInstanceAs (Decidable (True ∧ _))

/-! ## Lines in the assemblers -/

/-- Lines in the order of their starts, none starting after `n`. -/
def Sorted (n : Nat) (lines : List ContextLine) : Prop :=
  lines.Pairwise (fun a b => a.2.startOffset ≤ b.2.startOffset) ∧ ∀ x ∈ lines, x.2.startOffset ≤ n

theorem Sorted.nil (n : Nat) : Sorted n [] := ⟨List.Pairwise.nil, by simp⟩

variable {n : Nat} {xs : List ContextLine} {p : DeliveryPipeline} {ev : Event}

theorem Sorted.snoc {buf : List ContextLine} (payload : Bytes) (len inode : Nat)
    (h : Sorted n buf) : Sorted (n + len) (buf ++ [(payload, ⟨n, n + len, inode⟩)]) := by
  constructor
  · rw [pairwise_append]
    exact ⟨h.1, pairwise_singleton _ _, fun a ha => forall_mem_singleton.2 (h.2 a ha)⟩
  · refine forall_mem_append.2 ⟨fun x hx => ?_, forall_mem_singleton.2 (Nat.le_add_right n len)⟩
    exact (h.2 x hx).trans (Nat.le_add_right n len)

theorem Sorted.split {ys : List ContextLine} (h : Sorted n (xs ++ ys)) :
    Sorted n xs ∧ Sorted n ys := by
  have hp := pairwise_append.1 h.1
  exact ⟨⟨hp.1, (forall_mem_append.1 h.2).1⟩, ⟨hp.2.1, (forall_mem_append.1 h.2).2⟩⟩

theorem Sorted.mono {m : Nat} (h : Sorted n xs) (hnm : n ≤ m) :
    Sorted m xs := ⟨h.1, fun x hx => (h.2 x hx).trans hnm⟩

theorem start_le_of_sorted {ev : StreamEvent} (h : Sorted n ev.2.lines) :
    ∀ s ∈ (eventItem ev).lineStarts, (eventItem ev).start ≤ s := by
  intro s hs
  obtain ⟨x, hx, rfl⟩ := mem_map.1 hs
  rcases mem_cons.1 hx with rfl | htail
  · exact le_rfl
  · exact (pairwise_cons.1 h.1).1 x htail

theorem start_le_of_batchItems (lines : List TailedLine) :
    ∀ (start : Nat), ∀ item ∈ batchItems start lines, ∀ s ∈ item.lineStarts, item.start ≤ s := by
  induction lines with
  | nil => exact nofun
  | cons line lines ih =>
    intro start item hitem
    rw [batchItems] at hitem
    split at hitem
    · exact ih _ item hitem
    · rcases mem_cons.1 hitem with rfl | hrest
      · exact forall_mem_singleton.2 le_rfl
      · exact ih _ item hrest

/-- The assemblers hold sorted lines that start at or before the running offset, and the running
offset and the fragments that wait lie before the tailer's position. -/
structure HeldSorted (p : DeliveryPipeline) : Prop where
  lines : ∀ as ∈ p.assemblers, ∀ q ∈ as.perStream, Sorted p.runningOffset q.2.buffer
  aligned : p.tailer.Aligned
  room : p.runningOffset + p.tailer.pendingPartialBytes ≤ p.tailer.position.offset

theorem HeldSorted.of_eq {q : DeliveryPipeline} (h : HeldSorted p) (htailer : q.tailer = p.tailer)
    (hasm : q.assemblers = p.assemblers) (hrun : q.runningOffset = p.runningOffset) :
    HeldSorted q := by
  refine ⟨?_, ?_, ?_⟩
  · rw [hasm, hrun]
    exact h.lines
  · rw [htailer]
    exact h.aligned
  · rw [htailer, hrun]
    exact h.room

/-- The items that a drain of the assemblers gives. -/
theorem drainIntake_sorted {drain} (hdrain : EntryAssembler.Drains drain)
    (h : HeldSorted p) :
    HeldSorted (p.drainIntake drain).1 ∧
      ∀ item ∈ (p.drainIntake drain).2, ∀ s ∈ item.lineStarts, item.start ≤ s := by
  obtain ⟨hheld, evs, hitems, hevents⟩ := drainIntake_rule hdrain
    (fun xs ys => Sorted.split) h.lines
  obtain ⟨htailer, hrun, -⟩ := p.drainIntake_frame drain
  constructor
  · refine ⟨?_, htailer.symm ▸ h.aligned, ?_⟩
    · rw [hrun]
      exact hheld
    · rw [htailer, hrun]
      exact h.room
  · rw [hitems]
    intro item hitem
    obtain ⟨ev, hev, rfl⟩ := mem_map.1 hitem
    exact start_le_of_sorted (hevents ev hev)

/-- The items that a read in place gives. -/
theorem readIntake_sorted {libs : Externals} {env : ReadEnv}
    (hin : p.blocked = false → InPlace libs env.view p.config.batchSize p.tailer)
    (h : HeldSorted p) :
    HeldSorted (p.readIntake libs env).1 ∧
      ∀ item ∈ (p.readIntake libs env).2, ∀ s ∈ item.lineStarts, item.start ≤ s := by
  by_cases hb : p.blocked = true
  · rw [readIntake_blocked hb]
    exact ⟨h, forall_mem_nil _⟩
  rw [Bool.not_eq_true] at hb
  have haligned := LogTailer.readLines_aligned h.aligned libs env.view p.config.batchSize
  have haccounts := (hin hb).accounts h.aligned
  have hroom := h.room
  generalize hread : p.tailer.readLines libs env.view p.config.batchSize = read
    at haligned haccounts
  have hle : p.runningOffset + (read.1.map TailedLine.sourceLen).sum ≤ nextOffset read.2 := by
    rw [nextOffset]
    omega
  have hroom' : nextOffset read.2 + read.2.pendingPartialBytes ≤ read.2.position.offset := by
    rw [nextOffset]
    omega
  rcases readIntake_cases hb hread with ⟨hnil, heq⟩ | ⟨has, heq⟩ | ⟨as, has, heq⟩ <;> rw [heq]
  · -- without lines the running offset stays, and the fragments grow by at most what was read
    refine ⟨⟨h.lines, haligned, ?_⟩, forall_mem_nil _⟩
    dsimp only
    omega
  · refine ⟨⟨?_, haligned, hroom'⟩, start_le_of_batchItems _ _⟩
    intro as has'
    cases has.symm.trans has'
  · obtain ⟨hheld, hevents⟩ := feed_rule read.2.position.inode env.clock Sorted.nil
      (fun n m xs h => h.mono (Nat.le_add_right n m)) (fun n xs ys => Sorted.split) read.1
      p.runningOffset 0 as (fun before line _ buf _ hb => hb.snoc line.payload line.sourceLen _)
      (h.lines as has)
    constructor
    · refine ⟨?_, haligned, hroom'⟩
      rintro as' ⟨⟩ q hq
      exact (hheld q hq).mono hle
    · intro item hitem
      obtain ⟨ev, hev, rfl⟩ := mem_map.1 hitem
      exact start_le_of_sorted (hevents ev hev)

theorem intake_sorted {libs : Externals} {w : Watch} (hin : w.InOrder libs ev)
    (h : HeldSorted w.pipe) :
    HeldSorted (w.pipe.intake libs ev).1 ∧
      ∀ item ∈ (w.pipe.intake libs ev).2, ∀ s ∈ item.lineStarts, item.start ≤ s := by
  cases ev with
  | read env => exact readIntake_sorted hin.1 h
  | assemblerCheck now store =>
    exact drainIntake_sorted (checkTimeout_lines now) h
  | flush store => exact drainIntake_sorted flush_lines h
  | drain env | checkpoint saved | overflowElsewhere store =>
    exact ⟨h, forall_mem_nil _⟩

/-! ## The invariant -/

/-- Batches are tracked in offset order, the log of lines agrees with them, and the assemblers are
sorted. -/
structure Orderly (w : Watch) : Prop where
  ranges : (ranges w.pipe.tracker).Pairwise fun a b => a.2 ≤ b.1
  held : HeldSorted w.pipe
  known : ∀ b ∈ w.pipe.tracker.batches, b.bufferFirstSeq ≤ w.pipe.lastSeq
  logKnown : ∀ e ∈ w.lineLog, e.1 ≤ w.pipe.lastSeq
  logStart : ∀ b ∈ w.pipe.tracker.batches, b.status = .pending →
    ∀ e ∈ w.lineLog, e.1 = b.bufferFirstSeq → b.startOffset ≤ e.2

variable {libs : Externals} {w : Watch}

theorem mem_lineStarts {items : List Item} {e : Nat × Nat} (h : e ∈ lineStarts n items) :
    ∃ item, (e.1, item) ∈ numberFrom n items ∧ e.2 ∈ item.lineStarts := by
  obtain ⟨q, hq, hmap⟩ := mem_flatMap.1 h
  obtain ⟨s, hs, rfl⟩ := mem_map.1 hmap
  exact ⟨q.2, hq, hs⟩

theorem ceiling_le (h : HeldSorted p) {s : Nat} (hs : s ∈ heldStarts p) :
    ∃ ceiling, p.checkpointCeiling = some ceiling ∧ ceiling ≤ s := by
  unfold heldStarts at hs
  split at hs
  · cases hs
  · rename_i as has
    obtain ⟨ctx, hctx, rfl⟩ := mem_map.1 hs
    obtain ⟨q, hq, hmap⟩ := mem_flatMap.1 hctx
    obtain ⟨x, hx, rfl⟩ := mem_map.1 hmap
    -- the first line of the assembler that holds `x` bounds both
    obtain ⟨y, ys, hbuf⟩ : ∃ y ys, q.2.buffer = y :: ys := by
      cases hb : q.2.buffer with
      | nil =>
        rw [hb] at hx
        cases hx
      | cons y ys => exact ⟨y, ys, rfl⟩
    have hfirst : q.2.bufferedStartOffset = some y.2.startOffset := by
      simp [bufferedStartOffset, hbuf]
    have hyx : y.2.startOffset ≤ x.2.startOffset := by
      have hsorted := (h.lines as has q hq).1
      rw [hbuf] at hsorted hx
      rcases mem_cons.1 hx with rfl | hx
      · exact le_rfl
      · exact (pairwise_cons.1 hsorted).1 x hx
    have hmem : y.2.startOffset ∈ as.perStream.filterMap fun q => q.2.bufferedStartOffset :=
      mem_filterMap.2 ⟨q, hq, hfirst⟩
    obtain ⟨m, hm⟩ : ∃ m, as.bufferedStartOffset = some m := by
      apply Option.isSome_iff_exists.1
      rw [StreamAssemblers.bufferedStartOffset, List.isSome_min?_iff]
      exact ne_nil_of_mem hmem
    refine ⟨m, ?_, ?_⟩
    · rw [checkpointCeiling, has]
      exact hm
    · exact ((List.min?_eq_some_iff.1 hm).2 _ hmem).trans hyx

variable (h : w.Orderly)

include h

theorem nextCheckpoint_le_undelivered {cp : Checkpoint} (hcp : w.pipe.nextCheckpoint = some cp) :
    ∀ s ∈ w.undelivered, cp.offset ≤ s := by
  obtain ⟨⟨a, ha, hle, -⟩, hceil⟩ := nextCheckpoint_spec hcp
  intro s hs
  rcases mem_append.1 hs with hheld | hlog
  · obtain ⟨ceiling, hc, hcs⟩ := ceiling_le h.held hheld
    exact (hceil ceiling hc).trans hcs
  · obtain ⟨e, he, rfl⟩ := mem_map.1 hlog
    obtain ⟨helog, hepend⟩ := mem_filter.1 he
    obtain ⟨b, hb, hseq⟩ := mem_map.1 (of_decide_eq_true hepend)
    -- the acked batch was tracked before the pending one, hence ends before it starts
    obtain ⟨l₁, l₂, l₃, hsplit⟩ := BatchTracker.ackedPrefix_lt_pending ha hb
    have hbatch : b ∈ w.pipe.tracker.batches := mem_of_mem_filter hb
    have hpend : b.status = .pending := by simpa using of_mem_filter hb
    have hranges := h.ranges
    rw [ranges, hsplit, map_append, pairwise_append, map_cons, pairwise_cons] at hranges
    have hab : a.endOffset ≤ b.startOffset := hranges.2.1.1 (b.startOffset, b.endOffset) (by simp)
    exact hle.trans (hab.trans (h.logStart b hbatch hpend e helog hseq.symm))

/-! ## Steps -/

theorem stored_orderly {env : StoreEnv} (hin : w.InOrder libs ev) (henv : storeEnv ev = some env) :
    (w.step libs ev).Orderly := by
  obtain ⟨hheld, hstarts⟩ := intake_sorted hin h.held
  have hst := step_stored libs (p := w.pipe) henv
  obtain ⟨htailer, hasm, hrun⟩ := w.pipe.step_source libs ev
  have hnew : ∀ e ∈ lineStarts (w.pipe.lastSeq + 1) (w.pipe.added libs ev),
      w.pipe.lastSeq < e.1 ∧ e.1 ≤ (w.pipe.step libs ev).lastSeq := by
    intro e he
    obtain ⟨item, hitem, -⟩ := mem_lineStarts he
    have hbound := fst_of_mem_numberFrom hitem
    rw [hst.lastSeq]
    omega
  refine ⟨?_, ?_, ?_, ?_, ?_⟩
  · simp only [step, hst.tracker, ranges_trackAll]
    rw [pairwise_append]
    refine ⟨h.ranges, ?_, ?_⟩
    · rw [pairwise_map]
      exact hin.2.2
    · intro r hr r' hr'
      obtain ⟨item, hitem, rfl⟩ := mem_map.1 hr'
      exact hin.2.1 r hr item hitem
  · exact hheld.of_eq htailer hasm hrun
  · intro b hb
    simp only [step, hst.tracker, hst.lastSeq] at hb ⊢
    rcases mem_trackAll _ _ _ _ hb with hold | ⟨-, -, item, hitem, -⟩
    · have := h.known b hold
      omega
    · have := fst_of_mem_numberFrom hitem
      omega
  · intro e he
    rcases mem_append.1 he with hold | hnew'
    · have hlast : w.pipe.lastSeq ≤ (w.pipe.step libs ev).lastSeq := by rw [hst.lastSeq]; omega
      exact (h.logKnown e hold).trans hlast
    · exact (hnew e hnew').2
  · intro b hb hpend e he heq
    simp only [step, hst.tracker] at hb
    rcases mem_trackAll _ _ _ _ hb with hold | ⟨-, -, item, hitem, hstart, -⟩
    · rcases mem_append.1 he with helog | henew
      · exact h.logStart b hold hpend e helog heq
      · have := (hnew e henew).1
        have := h.known b hold
        omega
    · rcases mem_append.1 he with helog | henew
      · have := h.logKnown e helog
        have := fst_of_mem_numberFrom hitem
        omega
      · -- one number names one item
        obtain ⟨item', hitem', hs⟩ := mem_lineStarts henew
        have heq' : item' = item := by
          have := eq_of_mem_numberFrom hitem' hitem heq
          exact (Prod.mk.inj this).2
        rw [hstart, ← heq']
        exact hstarts item' (added_subset item' (snd_of_mem_numberFrom hitem')) e.2 hs

/-- A step that stores nothing: batches go or are acked, and none changes its range. -/
theorem Orderly.of_quiet {w' : Watch} (hheld : HeldSorted w'.pipe) (hlog : w'.lineLog = w.lineLog)
    (hlast : w.pipe.lastSeq ≤ w'.pipe.lastSeq)
    (hranges : FilePipeline.ranges w'.pipe.tracker <+ FilePipeline.ranges w.pipe.tracker)
    (hbatches : ∀ b ∈ w'.pipe.tracker.batches, ∃ b₀ ∈ w.pipe.tracker.batches,
      b.bufferFirstSeq = b₀.bufferFirstSeq ∧ (b.status = .pending → b = b₀)) : w'.Orderly where
  ranges := h.ranges.sublist hranges
  held := hheld
  known := by
    intro b hb
    obtain ⟨b₀, hb₀, hseq, -⟩ := hbatches b hb
    rw [hseq]
    exact (h.known b₀ hb₀).trans hlast
  logKnown := fun e he => (h.logKnown e (hlog ▸ he)).trans hlast
  logStart := by
    intro b hb hpend e he
    obtain ⟨b₀, hb₀, -, hsame⟩ := hbatches b hb
    obtain rfl := hsame hpend
    exact h.logStart b hb₀ hpend e (hlog ▸ he)

theorem step_orderly (hin : w.InOrder libs ev) : (w.step libs ev).Orderly := by
  cases ev with
  | read env | assemblerCheck now store | flush store => exact stored_orderly h hin rfl
  | drain env =>
    obtain ⟨k, hd⟩ := w.pipe.drainCycle_drained env
    refine h.of_quiet (h.held.of_eq hd.tailer hd.assemblers hd.runningOffset) (append_nil _)
      (hd.lastSeq ▸ Nat.le_add_right _ k) ?_ fun b hb => ?_
    · simp only [step, DeliveryPipeline.step, hd.tracker, ranges_ackHandledPrefix]
      exact Sublist.refl _
    · simp only [step, DeliveryPipeline.step, hd.tracker] at hb
      rcases BatchTracker.mem_ackHandledPrefix hb with hold | ⟨b₀, hb₀, rfl⟩
      · exact ⟨b, hold, rfl, fun _ => rfl⟩
      · exact ⟨b₀, mem_of_mem_filter (mem_of_mem_take hb₀), rfl, fun hpend => by cases hpend⟩
  | checkpoint saved =>
    obtain ⟨hbuffer, htailer, hasm, hrun, htracker⟩ := w.pipe.checkpointCycle_frame saved
    refine h.of_quiet (h.held.of_eq htailer hasm hrun) (append_nil _)
      (congrArg (·.core.table.lastSeq) hbuffer).ge ?_ fun b hb =>
        ⟨b, mem_checkpointCycle hb, rfl, fun _ => rfl⟩
    simp only [step, DeliveryPipeline.step]
    rcases htracker with heq | heq
    · rw [heq]
    · rw [heq]
      exact filter_sublist.map _
  | overflowElsewhere store =>
    exact h.of_quiet (h.held.of_eq rfl rfl rfl) (append_nil _) le_rfl (Sublist.refl _)
      fun b hb => ⟨b, hb, rfl, fun _ => rfl⟩

theorem step_heldBack (hb : w.HeldBack) (ev : Event) : (w.step libs ev).HeldBack := by
  intro s hs
  rcases mem_append.1 hs with hold | hnew
  · exact hb s hold
  · unfold saves at hnew
    split at hnew
    · split at hnew
      · rename_i cp hcp
        rw [mem_singleton.1 hnew]
        exact nextCheckpoint_le_undelivered h hcp
      · cases hnew
    · cases hnew

omit h

variable (libs : Externals) (tailer : LogTailer) (hfresh : tailer.Fresh) (table : SeqTable Bytes)
  (bufferMaxMb : Nat) (persisted : Option Checkpoint) (config : PipelineConfig) (sourceId : String)
  (overflow : Option Writer) (isStart : Bytes → Bool) (maxLines timeoutSecs : Nat)

/-- A container source with multi-line assembly as it starts, over any buffer and any overflow
store. -/
def start : Watch :=
  ⟨.start tailer table bufferMaxMb persisted config sourceId overflow
    (some (.new isStart maxLines timeoutSecs)), [], []⟩

include hfresh

theorem start_orderly :
    (start tailer table bufferMaxMb persisted config sourceId overflow isStart maxLines
      timeoutSecs).Orderly where
  ranges := List.Pairwise.nil
  held := by
    refine ⟨?_, hfresh.aligned, le_of_eq ?_⟩
    · rintro as ⟨⟩
      exact forall_mem_singleton.2 (Sorted.nil _)
    · exact congrArg (tailer.position.offset + ·) hfresh.pending
  known := forall_mem_nil _
  logKnown := forall_mem_nil _
  logStart := forall_mem_nil _

/-- In every run whose reads are in place and whose events are enqueued in offset order, every
checkpoint saved is at most the start of every line that is in an assembler or in a batch
not yet acked. -/
theorem heldBack_of_inOrder (events : List Event)
    (hevents : Each (step libs) (InOrder libs) (start tailer table bufferMaxMb persisted config
      sourceId overflow isStart maxLines timeoutSecs) events) :
    Always (step libs) HeldBack (start tailer table bufferMaxMb persisted config sourceId overflow
      isStart maxLines timeoutSecs) events := by
  have hstart : ∀ s ∈ (start tailer table bufferMaxMb persisted config sourceId overflow isStart
      maxLines timeoutSecs).saved, ∀ x ∈ s.2, s.1 ≤ x := forall_mem_nil _
  have hrun := always_of_each (I := fun w : Watch => w.Orderly ∧ w.HeldBack)
    (fun w ev h hin => ⟨step_orderly h.1 hin, step_heldBack h.1 h.2 ev⟩)
    ⟨start_orderly tailer hfresh .., hstart⟩ hevents
  exact hrun.mono fun w h => h.2

omit hfresh

/-- A pod log in which every line starts an event. -/
def podStart : Watch :=
  start (.kubernetes containerReader) (SeqTable.empty 0) 1 none ⟨10, 1000⟩ "pod" none
    (fun _ => true) 10 1

/-- Two lines of one stream: the first is emitted by the second, delivered and checkpointed. -/
def oneStream : List Event :=
  [.readContainer (ascii "2024-01-15T10:30:45Z stdout F a\n2024-01-15T10:30:45Z stdout F b\n"),
    .deliver 10, .checkpoint true]

theorem heldBack_one_stream :
    Each (step criExternals) (InOrder criExternals) podStart oneStream ∧
      Always (step criExternals) HeldBack podStart oneStream :=
  ⟨by decide +kernel, heldBack_of_inOrder criExternals (.kubernetes containerReader)
    ⟨trivial, rfl⟩ (SeqTable.empty 0) 1 none ⟨10, 1000⟩ "pod" none (fun _ => true) 10 1 oneStream
    (by decide +kernel)⟩

/-- A line on stderr, then two on stdout. The first stdout line is emitted and delivered; the
stderr line times out and is enqueued behind it; then a checkpoint is made. -/
def twoStreams : List Event :=
  [.readContainer (ascii "2024-01-15T10:30:45Z stderr F e\n2024-01-15T10:30:45Z stdout F a\n" ++
      ascii "2024-01-15T10:30:45Z stdout F b\n"),
    .deliver 10, .assemblerCheck 2000000000 .quiet, .checkpoint true]

/-- The checkpoint passes the stderr line, which is enqueued and not delivered. -/
theorem interleaved_event_overtaken :
    (twoStreams.foldl (step criExternals) podStart).pipe.persisted = some ⟨64, 7⟩ ∧
      (twoStreams.foldl (step criExternals) podStart).saved = [(64, [0, 64])] ∧
      (twoStreams.foldl (step criExternals) podStart).pipe.seqs = [2, 3] ∧
      ¬ Always (step criExternals) HeldBack podStart twoStreams := by
  decide +kernel

end Watch

end EdgePacer.FilePipeline
