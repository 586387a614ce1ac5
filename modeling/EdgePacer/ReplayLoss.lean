import EdgePacer.FilePipeline.Model
import EdgePacer.Streaming.Pipeline

/-!
# Replayed records that are lost

Both pipelines replay in the same way: the store hands out a batch and deletes the files it read,
then the batch is appended to the buffer one record at a time up to the first append that fails.
Nothing is put back into the store, so a record handed out survives exactly when it is appended.
`keepsReplayed_iff_fits` says for both pipelines that no record is lost exactly when nothing is due
or every append of what is due goes through.
-/

namespace EdgePacer

open Delivery List

universe u

/-! ## What a replay hands out -/

variable (overflow : Option Writer) (source : String) (env : ReplayEnv)

/-- The records a replay takes from the store, and the store without them. -/
def handOut : List Record × Option Writer :=
  match overflow with
  | none => ([], none)
  | some w =>
      if w.hasOverflow source = false then ([], some w)
      else
        match env.fault with
        | some left => ([], some left)
        | none =>
            let batch := w.replayBatch source REPLAY_BATCH env.now
            (batch.1, some batch.2)

/-- The records a replay is to take, read off the store before it: the first ones in the files the
replay reads. -/
def dueRecords : List Record :=
  match overflow with
  | none => []
  | some w =>
      if w.hasOverflow source = false ∨ env.fault.isSome = true then []
      else
        (((w.finalizeActive source env.now).replayFiles source).flatMap fun f =>
          readEntireFile f.content).take REPLAY_BATCH

theorem replayLoop_fst (n : Nat) (fs : List OverflowFile) :
    ∀ (out : List Record) (w : Writer), out.length ≤ n →
      (Writer.replayLoop n fs out w).1 =
        (out ++ fs.flatMap fun f => readEntireFile f.content).take n := by
  induction fs with
  | nil =>
    intro out w hout
    rw [Writer.replayLoop, flatMap_nil, append_nil, take_of_length_le hout]
  | cons f fs ih =>
    intro out w hout
    rw [Writer.replayLoop, flatMap_cons, ← append_assoc]
    split
    · rename_i hn
      rw [take_append_of_le_length hn]
    · exact ih _ _ (by omega)

theorem handOut_fst : (handOut overflow source env).1 = dueRecords overflow source env := by
  cases overflow with
  | none => rfl
  | some w =>
    rw [handOut, dueRecords]
    cases hover : w.hasOverflow source with
    | false => rfl
    | true =>
      cases env.fault with
      | some left => rfl
      | none => exact replayLoop_fst REPLAY_BATCH _ [] _ (Nat.zero_le _)

/-- Both pipelines replay by taking from the store and appending to the buffer. -/
theorem FilePipeline.DeliveryPipeline.replay_eq (p : FilePipeline.DeliveryPipeline)
    (env : ReplayEnv) :
    (p.replayOverflowIntoBuffer env).overflow = (handOut p.overflow p.sourceId env).2 ∧
      (p.replayOverflowIntoBuffer env).buffer =
        replayEnqueue env.enqueueFault 0 (handOut p.overflow p.sourceId env).1 p.buffer := by
  rw [replayOverflowIntoBuffer]
  cases hw : p.overflow with
  | none => exact ⟨hw, rfl⟩
  | some w =>
    rw [handOut]
    dsimp only
    split
    · exact ⟨hw, rfl⟩
    · cases env.fault with
      | some left | none => exact ⟨rfl, rfl⟩

theorem Streaming.StreamingDeliveryPipeline.replay_eq {κ : Type u}
    (p : Streaming.StreamingDeliveryPipeline κ) (env : ReplayEnv) :
    (p.replayOverflowIntoBuffer env).overflow = (handOut p.overflow p.sourceId env).2 ∧
      (p.replayOverflowIntoBuffer env).buffer =
        replayEnqueue env.enqueueFault 0 (handOut p.overflow p.sourceId env).1 p.buffer := by
  rw [replayOverflowIntoBuffer]
  cases hw : p.overflow with
  | none => exact ⟨hw, rfl⟩
  | some w =>
    rw [handOut]
    dsimp only
    split
    · exact ⟨hw, rfl⟩
    · cases env.fault with
      | some left | none => exact ⟨rfl, rfl⟩

/-! ## No record is lost -/

/-- The records of a source in its overflow store. -/
def storedRecords (overflow : Option Writer) (source : String) : List Record :=
  match overflow with
  | none => []
  | some w => w.available source

/-- What was in the buffer, what the store kept and what it handed out is, as often as it occurs,
in the buffer or in the store afterwards. -/
def KeepsReplayed (buffer buffer' : DiskBuffer) (overflow' : Option Writer) : Prop :=
  (buffer.records ++ (handOut overflow source env).1 ++
      storedRecords (handOut overflow source env).2 source).Subperm
    (buffer'.records ++ storedRecords overflow' source)

/-- A replay that appends what it was handed keeps it exactly when every append goes through. -/
theorem keepsReplayed_replayEnqueue (overflow : Option Writer) (source : String)
    (env : ReplayEnv) (b : DiskBuffer) :
    KeepsReplayed overflow source env b
        (replayEnqueue env.enqueueFault 0 (handOut overflow source env).1 b)
        (handOut overflow source env).2 ↔
      dueRecords overflow source env = [] ∨
        AllFit env.enqueueFault b (dueRecords overflow source env) := by
  obtain ⟨k, hk, hrecords, hall⟩ :=
    replayEnqueue_records env.enqueueFault (handOut overflow source env).1 0 b
  simp only [Nat.zero_add] at hall
  rw [← handOut_fst, ← hall, KeepsReplayed, hrecords]
  constructor
  · intro hsub
    -- a shorter list cannot hold a longer one
    have hlen := hsub.length_le
    simp only [length_append, length_take] at hlen
    omega
  · intro hfull
    rw [hfull, take_length]

/-- In both pipelines a replay loses no record it was handed exactly when none is due, or no append
fails and the buffer has the room for all that are due. -/
theorem keepsReplayed_iff_fits {κ : Type u} (file : FilePipeline.DeliveryPipeline)
    (streaming : Streaming.StreamingDeliveryPipeline κ) (env : ReplayEnv) :
    (KeepsReplayed file.overflow file.sourceId env file.buffer
          (file.replayOverflowIntoBuffer env).buffer (file.replayOverflowIntoBuffer env).overflow ↔
        dueRecords file.overflow file.sourceId env = [] ∨
          AllFit env.enqueueFault file.buffer (dueRecords file.overflow file.sourceId env)) ∧
      (KeepsReplayed streaming.overflow streaming.sourceId env streaming.buffer
          (streaming.replayOverflowIntoBuffer env).buffer
          (streaming.replayOverflowIntoBuffer env).overflow ↔
        dueRecords streaming.overflow streaming.sourceId env = [] ∨
          AllFit env.enqueueFault streaming.buffer
            (dueRecords streaming.overflow streaming.sourceId env)) := by
  constructor
  · obtain ⟨hoverflow, hbuffer⟩ := file.replay_eq env
    rw [hoverflow, hbuffer]
    exact keepsReplayed_replayEnqueue file.overflow file.sourceId env file.buffer
  · obtain ⟨hoverflow, hbuffer⟩ := streaming.replay_eq env
    rw [hoverflow, hbuffer]
    exact keepsReplayed_replayEnqueue streaming.overflow streaming.sourceId env streaming.buffer

/-- A freshly opened pipeline whose store has two records left from an earlier process, in one
finalized file. -/
def twoSpilled : Streaming.StreamingDeliveryPipeline Nat :=
  .open (.empty 0) 1 none 10 1000 "app" (some (Writer.new [] 1
    [⟨dirOf [] "app", 1, encodeAll [(0, [120]), (1, [121])]⟩] List.length))

/-- The second append of a replay fails: the file is gone and the second record with it. -/
theorem second_append_fails_loses :
    (handOut twoSpilled.overflow "app" ⟨none, 5, fun i => i == 1⟩).1 = [(0, [120]), (1, [121])] ∧
      (twoSpilled.replayOverflowIntoBuffer ⟨none, 5, fun i => i == 1⟩).buffer.records =
        [(0, [120])] ∧
      ¬ KeepsReplayed twoSpilled.overflow "app" ⟨none, 5, fun i => i == 1⟩ twoSpilled.buffer
        (twoSpilled.replayOverflowIntoBuffer ⟨none, 5, fun i => i == 1⟩).buffer
        (twoSpilled.replayOverflowIntoBuffer ⟨none, 5, fun i => i == 1⟩).overflow := by
  refine ⟨by decide +kernel, by decide +kernel, fun h => ?_⟩
  have hlen := h.length_le
  revert hlen
  decide +kernel

end EdgePacer
