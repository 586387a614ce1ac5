import EdgePacer.FilePipeline.Effects

/-!
# Lines that could not be stored

A batch that the buffer refuses is spilled to overflow when the buffer is full, and is dropped
otherwise; lines that overflow does not take either are dropped too. The tailer has moved past them
by then, and nothing remembers them: a full buffer pauses reads, which resume after the dropped
lines.

A checkpoint then stays behind a dropped line only as long as nothing that was read after it is
tracked. `kept_of_stopped` proves it for every run in which no append succeeds once a line was
dropped (`Stopped`). `dropped_line_passed` is a run with one failed append.
-/

namespace EdgePacer.FilePipeline

open Lib Delivery Source List DeliveryPipeline

/-- Which of the lines handed to overflow it takes. -/
def spillOutcomes (source : String) (env : StoreEnv) : Nat → List Bytes → Writer → List Bool
  | _, [], _ => []
  | i, line :: lines, w =>
      let wrote := w.write (env.writes i) source line env.now
      wrote.1 :: spillOutcomes source env (i + 1) lines wrote.2

namespace DeliveryPipeline

/-- The items that storing drops: neither the buffer nor overflow takes them. -/
def dropped (p : DeliveryPipeline) (items : List Item) (env : StoreEnv) : List Item :=
  if items = [] then []
  else
    match p.buffer.enqueueStreamBatch env.fault (items.map fun i => (i.data, i.stream)) env.now with
    | .ok _ => []
    | .error (.full _ _) =>
        match p.overflow with
        | none => items
        | some w =>
            ((items.zip (spillOutcomes p.sourceId env 0 (items.map Item.data) w)).filter
              fun q => !q.2).map Prod.fst
    | .error _ => items

/-- The items an event drops. -/
def lost (libs : Externals) (p : DeliveryPipeline) (ev : Event) : List Item :=
  match storeEnv ev with
  | some env => (p.intake libs ev).1.dropped (p.intake libs ev).2 env
  | none => []

variable {p : DeliveryPipeline} {items : List Item} {env : StoreEnv}

theorem mem_of_mem_dropped {item : Item} (h : item ∈ p.dropped items env) : item ∈ items := by
  rw [dropped] at h
  split at h
  · cases h
  · split at h
    · cases h
    · split at h
      · exact h
      · obtain ⟨q, hq, rfl⟩ := mem_map.1 h
        exact (of_mem_zip (mem_of_mem_filter hq)).1
    · exact h

theorem dropped_of_takes (h : p.takes items env = true) : p.dropped items env = [] := by
  rw [takes] at h
  rw [dropped]
  split at h
  · rename_i r hok
    rw [hok]
    split <;> rfl
  · cases h

end DeliveryPipeline

/-- The pipeline with the start of every item dropped, and each saved checkpoint offset with the
starts of the items dropped by then. -/
structure LossLog where
  pipe : DeliveryPipeline
  dropped : List Nat
  saved : List (Nat × List Nat)

namespace LossLog

def step (libs : Externals) (w : LossLog) (ev : Event) : LossLog where
  pipe := w.pipe.step libs ev
  dropped := w.dropped ++ (w.pipe.lost libs ev).map Item.start
  saved := w.saved ++ (w.pipe.saves ev).toList.map fun cp => (cp.offset, w.dropped)

/-- No checkpoint passed a line that was dropped before it was saved. -/
def Kept (w : LossLog) : Prop := ∀ s ∈ w.saved, ∀ start ∈ s.2, s.1 ≤ start

instance (w : LossLog) : Decidable w.Kept :=
  inferInstanceAs (Decidable (∀ s ∈ w.saved, ∀ start ∈ s.2, s.1 ≤ start))

/-- What an event has to meet: what it takes in starts after what is tracked, and once a line was
dropped the buffer takes nothing more. -/
def Stopped (libs : Externals) (w : LossLog) (ev : Event) : Prop :=
  (∀ r ∈ ranges w.pipe.tracker, ∀ item ∈ (w.pipe.intake libs ev).2, r.2 ≤ item.start) ∧
    (w.dropped = [] ∨ w.pipe.added libs ev = [])

instance (libs : Externals) (w : LossLog) (ev : Event) : Decidable (w.Stopped libs ev) :=
  inferInstanceAs (Decidable (_ ∧ _))

/-- Every tracked batch ends before every dropped line, and no checkpoint passed one. -/
structure Inv (w : LossLog) : Prop where
  batches : ∀ b ∈ w.pipe.tracker.batches, ∀ start ∈ w.dropped, b.endOffset ≤ start
  kept : w.Kept

variable {libs : Externals} {w : LossLog} {ev : Event}

theorem mem_of_mem_lost {p : DeliveryPipeline} {item : Item} (h : item ∈ p.lost libs ev) :
    item ∈ (p.intake libs ev).2 := by
  rw [lost] at h
  split at h
  · exact mem_of_mem_dropped h
  · cases h

theorem lost_eq_nil_of_added {p : DeliveryPipeline} (h : p.added libs ev ≠ []) :
    p.lost libs ev = [] := by
  revert h
  rw [added, lost]
  cases storeEnv ev with
  | none => exact fun h => absurd rfl h
  | some env =>
    intro h
    by_cases htakes : (p.intake libs ev).1.takes (p.intake libs ev).2 env = true
    · exact dropped_of_takes htakes
    · exact absurd (if_neg htakes) h

theorem step_batches_before (h : w.Inv) (hstop : w.Stopped libs ev) :
    ∀ b ∈ (w.step libs ev).pipe.tracker.batches, ∀ start ∈ (w.step libs ev).dropped,
      b.endOffset ≤ start := by
  by_cases hadded : w.pipe.added libs ev = []
  · -- nothing is tracked, and what is dropped starts after what is tracked
    apply step_batches libs (P := fun _ _ stop => ∀ start ∈ (w.step libs ev).dropped, stop ≤ start)
    · intro b hb start hstart
      rcases mem_append.1 hstart with hold | hnew
      · exact h.batches b hb start hold
      · obtain ⟨item, hitem, rfl⟩ := mem_map.1 hnew
        exact hstop.1 (b.startOffset, b.endOffset) (mem_map.2 ⟨b, hb, rfl⟩) item
          (mem_of_mem_lost hitem)
    · rw [hadded]
      exact forall_mem_nil _
  · -- something is tracked, so nothing was or is dropped
    have hdropped : (w.step libs ev).dropped = [] := by
      rw [step, lost_eq_nil_of_added hadded, hstop.2.resolve_right hadded]
      rfl
    rw [hdropped]
    exact nofun

theorem step_kept (h : w.Inv) : (w.step libs ev).Kept := by
  intro s hs
  rcases mem_append.1 hs with hold | hnew
  · exact h.kept s hold
  · obtain ⟨cp, hcp, rfl⟩ := mem_map.1 hnew
    have hnext := saves_eq_some (Option.mem_toList.1 hcp)
    obtain ⟨⟨a, ha, hle, -⟩, -⟩ := nextCheckpoint_spec hnext
    intro start hstart
    exact hle.trans (h.batches a (BatchTracker.mem_ackedPrefix ha).1 start hstart)

variable (libs : Externals) (tailer : LogTailer) (table : SeqTable Bytes) (bufferMaxMb : Nat)
  (persisted : Option Checkpoint) (config : PipelineConfig) (sourceId : String)
  (overflow : Option Writer) (multiline : Option MultilineConfig)

/-- A source as it starts, over whatever buffer and overflow store there is. -/
def start : LossLog :=
  ⟨.start tailer table bufferMaxMb persisted config sourceId overflow
    (multiline.map MultilineConfig.assemblers), [], []⟩

/-- In every run, of any source, that takes lines in by offset and in which the buffer takes nothing
more once a line was dropped: no checkpoint ever passes a line that was dropped. -/
theorem kept_of_stopped (events : List Event)
    (hevents : Each (step libs) (Stopped libs) (start tailer table bufferMaxMb persisted config
      sourceId overflow multiline) events) :
    Always (step libs) Kept (start tailer table bufferMaxMb persisted config sourceId overflow
      multiline) events := by
  have hrun := always_of_each (I := Inv)
    (fun w ev h hstop => ⟨step_batches_before h hstop, step_kept h⟩)
    ⟨fun b hb => absurd hb not_mem_nil, fun s hs => absurd hs not_mem_nil⟩ hevents
  exact hrun.mono fun w h => h.kept

/-- A read of the file in which the buffer's transaction fails. -/
def failedRead (inode : Nat) (content : Bytes) : Event :=
  .read ⟨⟨FileView.ofFile inode content, DirView.missing⟩, fun _ => 0,
    { StoreEnv.quiet with fault := true }⟩

def plainStart : LossLog :=
  start (.file (.pending .fromStart)) (SeqTable.empty 0) 1 none ⟨10, 1000⟩ "app" none none

/-- The last append before the end of the run fails. -/
def failedLast : List Event :=
  [.readFile 7 (ascii "a\n"), .deliver 10, failedRead 7 (ascii "a\nb\n"), .checkpoint true]

theorem kept_failed_last :
    Each (step plainExternals) (Stopped plainExternals) plainStart failedLast ∧
      Always (step plainExternals) Kept plainStart failedLast :=
  ⟨by decide +kernel, kept_of_stopped plainExternals (.file (.pending .fromStart))
    (SeqTable.empty 0) 1 none ⟨10, 1000⟩ "app" none none failedLast (by decide +kernel)⟩

/-- An append fails; the next line is stored and delivered, and a checkpoint is made. -/
def failedFirst : List Event :=
  [failedRead 7 (ascii "a\n"), .readFile 7 (ascii "a\nb\n"), .deliver 10, .checkpoint true]

/-- The first line is dropped, and the checkpoint passes it. -/
theorem dropped_line_passed :
    (failedFirst.foldl (step plainExternals) plainStart).dropped = [0] ∧
      (failedFirst.foldl (step plainExternals) plainStart).pipe.persisted = some ⟨4, 7⟩ ∧
      (failedFirst.foldl (step plainExternals) plainStart).pipe.lastSeq = 1 ∧
      ¬ Always (step plainExternals) Kept plainStart failedFirst := by
  decide +kernel

end LossLog

end EdgePacer.FilePipeline
