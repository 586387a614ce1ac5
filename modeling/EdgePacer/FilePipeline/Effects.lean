import EdgePacer.FilePipeline.Model

/-!
# What a step of the file pipeline does

One lemma for each way a cycle touches the tracker and the buffer. Storing items puts them at the
back of the buffer and of the tracker, under the same sequence numbers, or changes neither. A drain
removes the oldest entries from the buffer and acks as many of the oldest pending batches; what it
replays from overflow comes to the back of the buffer only. A checkpoint touches the tracker only.

Every later proof uses these and none looks into the cycles again.
-/

namespace EdgePacer.FilePipeline

open Lib Delivery Source List BatchTracker TailedLine BufferedEntry

namespace DeliveryPipeline

variable {p : DeliveryPipeline} {items : List Item} {env : StoreEnv}

/-- The sequence numbers in the buffer, oldest first. -/
def seqs (p : DeliveryPipeline) : List Nat := p.buffer.seqs

/-- The last sequence number the buffer gave out. -/
def lastSeq (p : DeliveryPipeline) : Nat := p.buffer.core.table.lastSeq

theorem seqs_nodup (p : DeliveryPipeline) : p.seqs.Nodup := p.buffer.core.table.seqs_nodup

/-! ## Storing -/

/-- Whether the buffer takes the items. -/
def takes (p : DeliveryPipeline) (items : List Item) (env : StoreEnv) : Bool :=
  match p.buffer.enqueueStreamBatch env.fault (items.map fun i => (i.data, i.stream)) env.now with
  | .ok _ => true
  | .error _ => false

/-- Items the buffer takes go to the back of buffer and tracker. Items it refuses are spilled or
dropped. -/
theorem enqueue_eq (p : DeliveryPipeline) (items : List Item) (inode : Nat) (env : StoreEnv) :
    let kept := if p.takes items env then items else []
    ∃ buffer overflow blocked, p.enqueue items inode env =
        { p with
          buffer := buffer
          overflow := overflow
          blocked := blocked
          tracker := trackAll inode (p.lastSeq + 1) kept p.tracker } ∧
      buffer.seqs = p.seqs ++ range' (p.lastSeq + 1) kept.length ∧
      buffer.core.table.lastSeq = p.lastSeq + kept.length := by
  by_cases hne : items = []
  · subst hne
    exact ⟨p.buffer, p.overflow, p.blocked, rfl, by simp [seqs], rfl⟩
  rw [enqueue, if_neg hne, takes]
  cases hstore : p.buffer.enqueueStreamBatch env.fault (items.map fun i => (i.data, i.stream))
      env.now with
  | ok r =>
    obtain ⟨hfirst, hseqs, hlast, -⟩ := DiskBuffer.enqueueStreamBatch_ok (by simpa using hne) hstore
    rw [length_map] at hseqs hlast
    refine ⟨r.2, p.overflow, p.blocked, ?_, hseqs, hlast⟩
    dsimp only
    rw [hfirst]
    rfl
  | error err =>
    refine ⟨p.buffer, ?_⟩
    cases err with
    | full c m => exact ⟨_, _, rfl, by simp [seqs], rfl⟩
    | sqlite | entryTooLarge l | corrupt s =>
      exact ⟨p.overflow, p.blocked, rfl, by simp [seqs], rfl⟩

end DeliveryPipeline

/-! ## Feeding the assemblers -/

variable (inode : Nat) (t : BatchTracker)

/-- **Feeding lines.** Let `Q n` hold of every buffer, where `n` is the running offset. If it keeps
holding, at the advanced offset, when one of the lines is added at the offset it gets or none is,
and passes to both parts of a list, then it holds at the end of every buffer and of every event
emitted. -/
theorem feed_rule (clock : Nat → Nat) {Q : Nat → List ContextLine → Prop} (hnil : ∀ n, Q n [])
    (hmono : ∀ n m buf, Q n buf → Q (n + m) buf)
    (hsplit : ∀ n xs ys, Q n (xs ++ ys) → Q n xs ∧ Q n ys) (lines : List TailedLine) :
    ∀ (running i : Nat) (as : StreamAssemblers),
      (∀ before line rest buf, lines = before ++ line :: rest →
        Q (running + (before.map sourceLen).sum) buf →
        Q (running + (before.map sourceLen).sum + line.sourceLen)
          (buf ++ [(line.payload, ⟨running + (before.map sourceLen).sum,
            running + (before.map sourceLen).sum + line.sourceLen, inode⟩)])) →
      (∀ q ∈ as.perStream, Q running q.2.buffer) →
      (∀ q ∈ (feed inode clock running i lines as).2.perStream,
        Q (running + (lines.map sourceLen).sum) q.2.buffer) ∧
      ∀ ev ∈ (feed inode clock running i lines as).1,
        Q (running + (lines.map sourceLen).sum) ev.2.lines := by
  induction lines with
  | nil =>
    intro running i as _ h
    exact ⟨h, forall_mem_nil _⟩
  | cons line lines ih =>
    intro running i as hsnoc h
    have hline := StreamAssemblers.process_rule line.stream (clock i)
      (line.payload, ⟨running, running + line.sourceLen, inode⟩) (hnil running)
      (fun buf hb => hsnoc [] line lines buf rfl hb) (hsplit _) h
    obtain ⟨hheld, hevents⟩ := ih (running + line.sourceLen) (i + 1) _ (by
      -- the lines before one of the rest are those before it here, without the first
      intro before l rest buf hlines
      have hnext := hsnoc (line :: before) l rest buf (by rw [hlines, cons_append])
      rw [map_cons, sum_cons, ← Nat.add_assoc] at hnext
      exact hnext) hline.1
    rw [map_cons, sum_cons, ← Nat.add_assoc]
    refine ⟨hheld, ?_⟩
    intro ev hev
    rcases mem_append.1 hev with hhere | hlater
    · obtain ⟨ev', hev', rfl⟩ := mem_map.1 hhere
      exact hmono _ _ _ (hline.2 ev' (Option.mem_toList.1 hev'))
    · exact hevents ev hlater

/-! ## What a read takes in -/

namespace DeliveryPipeline

variable {libs : Externals} {p : DeliveryPipeline} {env : ReadEnv}

theorem readIntake_blocked (hb : p.blocked = true) : p.readIntake libs env = (p, []) := if_pos hb

/-- A read without lines takes nothing in. Without assembly the lines are counted back from the next
offset, with assembly they are counted up from the running offset. -/
theorem readIntake_cases (hb : p.blocked = false) {read : List TailedLine × LogTailer}
    (hread : p.tailer.readLines libs env.view p.config.batchSize = read) :
    read.1 = [] ∧ p.readIntake libs env = ({ p with tailer := read.2 }, []) ∨
    p.assemblers = none ∧ p.readIntake libs env =
      ({ p with tailer := read.2, runningOffset := nextOffset read.2 },
        batchItems (nextOffset read.2 - (read.1.map sourceLen).sum) read.1) ∨
    ∃ as, p.assemblers = some as ∧ p.readIntake libs env =
      let fed := feed read.2.position.inode env.clock p.runningOffset 0 read.1 as
      ({ p with
          tailer := read.2, runningOffset := nextOffset read.2, assemblers := some fed.2 },
        fed.1.map eventItem) := by
  rw [readIntake, if_neg (by simp [hb]), hread]
  by_cases hnil : read.1 = []
  · exact .inl ⟨hnil, if_pos hnil⟩
  rw [if_neg hnil]
  cases p.assemblers with
  | none => exact .inr (.inl ⟨rfl, rfl⟩)
  | some as => exact .inr (.inr ⟨as, rfl, rfl⟩)

end DeliveryPipeline

/-- **Draining the assemblers.** What holds of every buffer and passes to both parts of a list holds
of every buffer and of every event afterwards. -/
theorem DeliveryPipeline.drainIntake_rule {p : DeliveryPipeline} {R : List ContextLine → Prop}
    {drain} (hdrain : EntryAssembler.Drains drain)
    (hsplit : ∀ xs ys, R (xs ++ ys) → R xs ∧ R ys)
    (h : ∀ as ∈ p.assemblers, ∀ q ∈ as.perStream, R q.2.buffer) :
    (∀ as ∈ (p.drainIntake drain).1.assemblers, ∀ q ∈ as.perStream, R q.2.buffer) ∧
      ∃ evs : List StreamEvent, (p.drainIntake drain).2 = evs.map eventItem ∧
        ∀ ev ∈ evs, R ev.2.lines := by
  rw [drainIntake]
  cases has : p.assemblers with
  | none =>
    refine ⟨?_, [], rfl, forall_mem_nil _⟩
    rw [has]
    rintro as ⟨⟩
  | some as =>
    obtain ⟨hbuffers, hevents⟩ := StreamAssemblers.collectReady_rule hdrain hsplit (h as has)
    refine ⟨?_, _, rfl, hevents⟩
    rintro as' ⟨⟩
    exact hbuffers

theorem DeliveryPipeline.drainIntake_frame (p : DeliveryPipeline)
    (drain : EntryAssembler → Option AssembledEvent × EntryAssembler) :
    (p.drainIntake drain).1.tailer = p.tailer ∧
      (p.drainIntake drain).1.runningOffset = p.runningOffset ∧
      ((p.drainIntake drain).1.assemblers ≠ none → p.assemblers ≠ none) := by
  rw [drainIntake]
  split
  · exact ⟨rfl, rfl, id⟩
  · rename_i as has
    exact ⟨rfl, rfl, fun _ => by simp [has]⟩

/-! ## Tracking -/

variable (items : List Item)

theorem trackAll_pendingSeqs :
    ∀ (seq : Nat) (t : BatchTracker),
      (trackAll inode seq items t).pendingSeqs = t.pendingSeqs ++ range' seq items.length := by
  induction items with
  | nil => simp [trackAll]
  | cons item items ih =>
    intro seq t
    rw [trackAll, ih, pendingSeqs_track, length_cons, range'_succ, append_assoc, singleton_append]

/-- The batches an item list adds to a tracker: a pending one for each item, with its range and
the next sequence number. -/
theorem mem_trackAll :
    ∀ (seq : Nat) (t : BatchTracker) {b : TrackedBatch},
      b ∈ (trackAll inode seq items t).batches →
        b ∈ t.batches ∨ b.status = .pending ∧ b.inode = inode ∧
          ∃ item, (b.bufferFirstSeq, item) ∈ numberFrom seq items ∧
            b.startOffset = item.start ∧ b.endOffset = item.stop := by
  induction items with
  | nil => exact fun _ _ _ h => Or.inl h
  | cons item items ih =>
    intro seq t b h
    rcases ih (seq + 1) _ h with hold | ⟨hst, hin, item', hmem, hrange⟩
    · rcases mem_append.1 hold with hb | hb
      · exact .inl hb
      · rw [mem_singleton] at hb
        subst hb
        exact .inr ⟨rfl, rfl, item, mem_cons_self, rfl, rfl⟩
    · exact .inr ⟨hst, hin, item', mem_cons_of_mem _ hmem, hrange⟩

/-- The byte ranges of the tracked batches, in tracking order. -/
def ranges (t : BatchTracker) : List (Nat × Nat) :=
  t.batches.map fun b => (b.startOffset, b.endOffset)

theorem ranges_trackAll :
    ∀ (seq : Nat) (t : BatchTracker),
      ranges (trackAll inode seq items t) =
        ranges t ++ items.map fun item => (item.start, item.stop) := by
  induction items with
  | nil => simp [trackAll]
  | cons item items ih =>
    intro seq t
    rw [trackAll, ih]
    simp [ranges, track]

theorem ranges_ack (seq : Nat) : ranges (t.ack seq) = ranges t := by
  simp only [ranges, BatchTracker.ack, mark, map_map]
  apply map_congr_left
  intro b _
  simp only [Function.comp, setStatus]
  split <;> rfl

theorem ranges_ackHandledPrefix (n : Nat) : ranges (t.ackHandledPrefix n) = ranges t := by
  induction n generalizing t with
  | zero => rfl
  | succ n ih =>
    rw [ackHandledPrefix]
    split
    · rw [ih, ranges_ack]
    · exact ih t

namespace DeliveryPipeline

variable {p : DeliveryPipeline}

/-! ## Draining -/

/-- The numbers of the entries a drain peeks. -/
def peeked (p : DeliveryPipeline) (env : DrainEnv) : List Nat :=
  match p.buffer.peek env.peekFault env.batchSize with
  | .ok entries => entries.map sequence
  | .error _ => []

/-- How many of the peeked entries the ship outcome settles. -/
def settled (p : DeliveryPipeline) (env : DrainEnv) : Nat :=
  match p.buffer.peek env.peekFault env.batchSize with
  | .ok entries => (p.ship env entries).handled
  | .error _ => 0

/-- The numbers of the entries the ship outcome settles. -/
def shipped (p : DeliveryPipeline) (env : DrainEnv) : List Nat :=
  (p.peeked env).take (p.settled env)

/-- How many batches a drain acks: those settled, unless the deletion fails. -/
def drainCount (p : DeliveryPipeline) (env : DrainEnv) : Nat :=
  match p.buffer.deleteSequences env.deleteFault (p.shipped env) with
  | .ok _ => p.settled env
  | .error _ => 0

variable (p : DeliveryPipeline) (env : DrainEnv)

theorem peeked_prefix : p.peeked env <+: p.seqs := by
  unfold peeked
  split
  · rename_i es hpeek
    exact DiskBuffer.peek_sequences hpeek
  · exact nil_prefix

theorem settled_le : p.settled env ≤ (p.peeked env).length := by
  unfold settled peeked
  split
  · rename_i es _
    have h := handled_shipCappedWithShrink_le
      (es.map fun e => (⟨e.data, e.stream⟩ : ShipEntry)) p.config.shipBatchMaxBytes env.transport
    rw [length_map] at h ⊢
    exact h
  · exact Nat.zero_le _

theorem shipped_eq : p.shipped env = p.seqs.take (p.settled env) := by
  obtain ⟨rest, hrest⟩ := p.peeked_prefix env
  rw [shipped, ← hrest, take_append_of_le_length (p.settled_le env)]

theorem applyDrainOutcome_eq (fault : Bool) (outcome : CappedShipOutcome)
    (sequences : List Nat) :
    p.applyDrainOutcome fault outcome sequences = none ∧ outcome.handled = 0 ∨
      p.applyDrainOutcome fault outcome sequences =
        p.deleteAndAckPrefix fault sequences outcome.handled := by
  cases outcome with
  | delivered count | droppedOversized count | rejectedAdjudicated accepted rejected =>
    exact .inr rfl
  | deferred reason => exact .inl ⟨rfl, rfl⟩

/-- What a drain leaves alone. -/
structure DrainFrame (p p' : DeliveryPipeline) : Prop where
  tailer : p'.tailer = p.tailer
  assemblers : p'.assemblers = p.assemblers
  runningOffset : p'.runningOffset = p.runningOffset
  persisted : p'.persisted = p.persisted

/-- What a drain does: `n` entries leave the front of the buffer, `n` pending batches are acked,
and `k` replayed entries come to the back of the buffer. -/
structure Drained (p p' : DeliveryPipeline) (n k : Nat) : Prop extends DrainFrame p p' where
  tracker : p'.tracker = p.tracker.ackHandledPrefix n
  seqs : p'.seqs = p.seqs.drop n ++ range' (p.lastSeq + 1) k
  lastSeq : p'.lastSeq = p.lastSeq + k

theorem drained_zero : p.Drained p 0 0 where
  tailer := rfl
  assemblers := rfl
  runningOffset := rfl
  persisted := rfl
  tracker := rfl
  seqs := by simp
  lastSeq := rfl

theorem replayOverflowIntoBuffer_drained (env : ReplayEnv) :
    ∃ k, p.Drained (p.replayOverflowIntoBuffer env) 0 k := by
  unfold replayOverflowIntoBuffer
  split
  · exact ⟨0, p.drained_zero⟩
  · split
    · exact ⟨0, p.drained_zero⟩
    · split
      -- a replay that fails changes the store only
      · exact ⟨0, ⟨rfl, rfl, rfl, rfl⟩, rfl, p.drained_zero.seqs, rfl⟩
      · rename_i w _ _ _ _
        obtain ⟨k, -, hseqs, hlast⟩ := replayEnqueue_seqs env.enqueueFault
          (w.replayBatch p.sourceId REPLAY_BATCH env.now).1 0 p.buffer
        exact ⟨k, ⟨rfl, rfl, rfl, rfl⟩, rfl, hseqs, hlast⟩

theorem Drained.trans_replay {p q r : DeliveryPipeline} {n k : Nat} (h : p.Drained q n 0)
    (h' : q.Drained r 0 k) : p.Drained r n k where
  tailer := h'.tailer.trans h.tailer
  assemblers := h'.assemblers.trans h.assemblers
  runningOffset := h'.runningOffset.trans h.runningOffset
  persisted := h'.persisted.trans h.persisted
  tracker := h'.tracker.trans h.tracker
  seqs := by
    rw [h'.seqs, h.seqs, h.lastSeq]
    simp
  lastSeq := by rw [h'.lastSeq, h.lastSeq, Nat.add_zero]

theorem drainCount_of_settled_eq_zero {p : DeliveryPipeline} {env : DrainEnv}
    (h : p.settled env = 0) : p.drainCount env = 0 := by
  unfold drainCount
  split
  · exact h
  · rfl

/-- What is left to do once the outcome is applied: release reads, and replay overflow into an
empty buffer. -/
theorem drained_after_apply {p q : DeliveryPipeline} {n : Nat} (h : p.Drained q n 0)
    (env : DrainEnv) :
    ∃ k, p.Drained
      (let q := if q.blocked && env.released then { q with blocked := false } else q
       if env.emptyFault = false ∧ q.buffer.isEmpty = true then
         q.replayOverflowIntoBuffer env.replay
       else q) n k := by
  dsimp only
  have hq : p.Drained (if (q.blocked && env.released) = true then { q with blocked := false }
      else q) n 0 := by
    split
    · exact ⟨⟨h.tailer, h.assemblers, h.runningOffset, h.persisted⟩, h.tracker, h.seqs, h.lastSeq⟩
    · exact h
  generalize (if (q.blocked && env.released) = true then { q with blocked := false } else q) =
    q' at hq
  split
  · obtain ⟨k, hk⟩ := q'.replayOverflowIntoBuffer_drained env.replay
    exact ⟨k, hq.trans_replay hk⟩
  · exact ⟨0, hq⟩

theorem drainCycle_drained : ∃ k, p.Drained (p.drainCycle env) (p.drainCount env) k := by
  unfold drainCycle
  cases hpeek : p.buffer.peek env.peekFault env.batchSize with
  | error err =>
    have hsettled : p.settled env = 0 := by simp only [settled, hpeek]
    rw [drainCount_of_settled_eq_zero hsettled]
    exact ⟨0, p.drained_zero⟩
  | ok entries =>
    cases entries with
    | nil =>
      -- an empty batch is never shipped
      have hsettled : p.settled env = 0 := by
        simp only [settled, hpeek]
        rfl
      rw [drainCount_of_settled_eq_zero hsettled]
      exact ⟨0, ⟨rfl, rfl, rfl, rfl⟩, rfl, by simp [seqs], rfl⟩
    | cons e es =>
      have hsettled : p.settled env = (p.ship env (e :: es)).handled := by
        simp only [settled, hpeek]
      have hshipped : p.shipped env =
          ((e :: es).map sequence).take (p.ship env (e :: es)).handled := by
        simp only [shipped, peeked, hpeek, hsettled]
      dsimp only
      rcases p.applyDrainOutcome_eq env.deleteFault (p.ship env (e :: es))
        ((e :: es).map sequence) with ⟨hnone, hzero⟩ | happly
      · rw [hnone, drainCount_of_settled_eq_zero (hsettled.trans hzero)]
        exact ⟨0, p.drained_zero⟩
      · rw [happly, deleteAndAckPrefix, ← hshipped, ← hsettled]
        cases hdel : p.buffer.deleteSequences env.deleteFault (p.shipped env) with
        | error err =>
          have hcount : p.drainCount env = 0 := by simp only [drainCount, hdel]
          rw [hcount]
          exact ⟨0, p.drained_zero⟩
        | ok buffer =>
          have hcount : p.drainCount env = p.settled env := by simp only [drainCount, hdel]
          rw [hcount]
          rw [p.shipped_eq] at hdel
          obtain ⟨hseqs, hlast⟩ := DiskBuffer.deleteSequences_take hdel
          apply drained_after_apply
          refine ⟨⟨rfl, rfl, rfl, rfl⟩, rfl, ?_, hlast⟩
          rw [range'_zero, append_nil]
          exact hseqs

theorem take_drainCount_subset : ∀ n ∈ p.seqs.take (p.drainCount env), n ∈ p.shipped env := by
  intro n hn
  have hcount : p.drainCount env = 0 ∨ p.drainCount env = p.settled env := by
    unfold drainCount
    split
    · exact .inr rfl
    · exact .inl rfl
  rcases hcount with hzero | heq
  · rw [hzero] at hn
    cases hn
  · rw [p.shipped_eq, ← heq]
    exact hn

/-! ## Any step -/

/-- What the environment decides about storing, for the events that take items in. -/
def storeEnv : Event → Option StoreEnv
  | .read env => some env.store
  | .assemblerCheck _ store => some store
  | .flush store => some store
  | .drain _ | .checkpoint _ | .overflowElsewhere _ => none

variable (libs : Externals)

theorem intake_frame (ev : Event) :
    (p.intake libs ev).1.buffer = p.buffer ∧ (p.intake libs ev).1.tracker = p.tracker := by
  have hdrain : ∀ drain, (p.drainIntake drain).1.buffer = p.buffer ∧
      (p.drainIntake drain).1.tracker = p.tracker := by
    intro drain
    unfold drainIntake
    split <;> exact ⟨rfl, rfl⟩
  cases ev with
  | read env =>
    rw [intake, readIntake]
    split
    · exact ⟨rfl, rfl⟩
    · dsimp only
      split
      · exact ⟨rfl, rfl⟩
      · split <;> exact ⟨rfl, rfl⟩
  | assemblerCheck now store | flush store => exact hdrain _
  | drain env | checkpoint saved | overflowElsewhere store => exact ⟨rfl, rfl⟩

variable {ev : Event} {cp : Checkpoint}

/-- An event that takes items in stores them afterwards. -/
theorem step_eq_enqueue {p : DeliveryPipeline} {env : StoreEnv} (h : storeEnv ev = some env) :
    p.step libs ev = (p.intake libs ev).1.enqueue (p.intake libs ev).2
      (p.intake libs ev).1.tailer.position.inode env := by
  cases ev with
  | read env' | assemblerCheck now store | flush store =>
    cases h
    rfl
  | drain env' | checkpoint saved | overflowElsewhere store => cases h

/-- The items an event adds to the buffer: all it took in, or none. -/
def added (p : DeliveryPipeline) (ev : Event) : List Item :=
  match storeEnv ev with
  | some env =>
      if (p.intake libs ev).1.takes (p.intake libs ev).2 env then (p.intake libs ev).2 else []
  | none => []

variable {libs} in
theorem added_subset {p : DeliveryPipeline} :
    ∀ item ∈ p.added libs ev, item ∈ (p.intake libs ev).2 := by
  intro item hitem
  unfold added at hitem
  split at hitem
  · split at hitem
    · exact hitem
    · cases hitem
  · cases hitem

/-- What storing does: the items come to the back of the buffer and of the tracker under the same
numbers. -/
structure Stored (p p' : DeliveryPipeline) (inode : Nat) (items : List Item) : Prop where
  tracker : p'.tracker = trackAll inode (p.lastSeq + 1) items p.tracker
  seqs : p'.seqs = p.seqs ++ range' (p.lastSeq + 1) items.length
  lastSeq : p'.lastSeq = p.lastSeq + items.length

theorem step_stored {p : DeliveryPipeline} {env : StoreEnv} (h : storeEnv ev = some env) :
    p.Stored (p.step libs ev) (p.intake libs ev).1.tailer.position.inode (p.added libs ev) := by
  obtain ⟨hbuffer, htracker⟩ := p.intake_frame libs ev
  obtain ⟨buffer, overflow, blocked, heq, hseqs, hlast⟩ := (p.intake libs ev).1.enqueue_eq
    (p.intake libs ev).2 (p.intake libs ev).1.tailer.position.inode env
  have hadded : p.added libs ev =
      if (p.intake libs ev).1.takes (p.intake libs ev).2 env then (p.intake libs ev).2 else [] := by
    rw [added, h]
  rw [step_eq_enqueue libs h, heq]
  rw [← hadded, seqs, lastSeq, hbuffer] at hseqs
  rw [← hadded, lastSeq, hbuffer] at hlast
  rw [← hadded, lastSeq, hbuffer, htracker]
  exact ⟨rfl, hseqs, hlast⟩

/-- **Every step** stores items, drains, makes a checkpoint, or changes neither tracker nor
buffer. -/
theorem step_effect (ev : Event) :
    (∃ env inode, storeEnv ev = some env ∧ p.Stored (p.step libs ev) inode (p.added libs ev)) ∨
      (∃ env k, ev = .drain env ∧ p.Drained (p.step libs ev) (p.drainCount env) k) ∨
      (∃ saved, ev = .checkpoint saved) ∨ ∃ store, ev = .overflowElsewhere store := by
  cases ev with
  | read env => exact .inl ⟨env.store, _, rfl, step_stored libs rfl⟩
  | assemblerCheck now store | flush store => exact .inl ⟨store, _, rfl, step_stored libs rfl⟩
  | drain env =>
    obtain ⟨k, hk⟩ := p.drainCycle_drained env
    exact .inr (.inl ⟨env, k, rfl, hk⟩)
  | checkpoint saved => exact .inr (.inr (.inl ⟨saved, rfl⟩))
  | overflowElsewhere store => exact .inr (.inr (.inr ⟨store, rfl⟩))

/-- A checkpoint cycle drains the acked prefix of the tracker or leaves it. -/
theorem checkpointCycle_frame (saved : Bool) :
    (p.checkpointCycle saved).buffer = p.buffer ∧
      (p.checkpointCycle saved).tailer = p.tailer ∧
      (p.checkpointCycle saved).assemblers = p.assemblers ∧
      (p.checkpointCycle saved).runningOffset = p.runningOffset ∧
      ((p.checkpointCycle saved).tracker = p.tracker ∨
        (p.checkpointCycle saved).tracker = p.tracker.drainAcked) := by
  unfold checkpointCycle
  split
  · exact ⟨rfl, rfl, rfl, rfl, .inl rfl⟩
  · split
    · exact ⟨rfl, rfl, rfl, rfl, .inr rfl⟩
    · exact ⟨rfl, rfl, rfl, rfl, .inl rfl⟩

theorem mem_checkpointCycle {p : DeliveryPipeline} {saved : Bool} {b : TrackedBatch}
    (hb : b ∈ (p.checkpointCycle saved).tracker.batches) : b ∈ p.tracker.batches := by
  rcases (p.checkpointCycle_frame saved).2.2.2.2 with heq | heq <;> rw [heq] at hb
  · exact hb
  · exact mem_drainAcked hb

/-- Any step leaves the tailer, the assemblers and the running offset as its intake does. -/
theorem step_source (ev : Event) :
    (p.step libs ev).tailer = (p.intake libs ev).1.tailer ∧
      (p.step libs ev).assemblers = (p.intake libs ev).1.assemblers ∧
      (p.step libs ev).runningOffset = (p.intake libs ev).1.runningOffset := by
  have hstore : ∀ env, storeEnv ev = some env →
      (p.step libs ev).tailer = (p.intake libs ev).1.tailer ∧
        (p.step libs ev).assemblers = (p.intake libs ev).1.assemblers ∧
        (p.step libs ev).runningOffset = (p.intake libs ev).1.runningOffset := by
    intro env henv
    obtain ⟨_, _, _, heq, -⟩ := (p.intake libs ev).1.enqueue_eq (p.intake libs ev).2
      (p.intake libs ev).1.tailer.position.inode env
    rw [step_eq_enqueue libs henv, heq]
    exact ⟨rfl, rfl, rfl⟩
  cases ev with
  | read env => exact hstore env.store rfl
  | assemblerCheck now store | flush store => exact hstore store rfl
  | drain env =>
    obtain ⟨k, hd⟩ := p.drainCycle_drained env
    exact ⟨hd.tailer, hd.assemblers, hd.runningOffset⟩
  | checkpoint saved =>
    obtain ⟨-, htailer, hasm, hrun, -⟩ := p.checkpointCycle_frame saved
    exact ⟨htailer, hasm, hrun⟩
  | overflowElsewhere store => exact ⟨rfl, rfl, rfl⟩

variable {p}

/-- What holds of the range and inode of every batch in the tracker and of every item stored holds
of every batch in the tracker after the step. -/
theorem step_batches {P : Nat → Nat → Nat → Prop}
    (h : ∀ b ∈ p.tracker.batches, P b.inode b.startOffset b.endOffset)
    (hadded : ∀ item ∈ p.added libs ev, P (p.intake libs ev).1.tailer.position.inode item.start
      item.stop) : ∀ b ∈ (p.step libs ev).tracker.batches, P b.inode b.startOffset b.endOffset := by
  have hstore : ∀ env, storeEnv ev = some env →
      ∀ b ∈ (p.step libs ev).tracker.batches, P b.inode b.startOffset b.endOffset := by
    intro env henv b hb
    rw [(step_stored libs henv).tracker] at hb
    rcases mem_trackAll _ _ _ _ hb with hold | ⟨-, hinode, item, hitem, hstart, hstop⟩
    · exact h b hold
    · rw [hinode, hstart, hstop]
      exact hadded item (snd_of_mem_numberFrom hitem)
  cases ev with
  | read env => exact hstore env.store rfl
  | assemblerCheck now store | flush store => exact hstore store rfl
  | drain env =>
    obtain ⟨k, hd⟩ := p.drainCycle_drained env
    intro b hb
    rw [step, hd.tracker] at hb
    rcases mem_ackHandledPrefix hb with hold | ⟨b₀, hb₀, rfl⟩
    · exact h b hold
    · exact h b₀ (mem_of_mem_filter (mem_of_mem_take hb₀))
  | checkpoint saved =>
    intro b hb
    exact h b (mem_checkpointCycle hb)
  | overflowElsewhere store => exact h

/-- A saved checkpoint stays below the end of an acked batch that no unacked one precedes, and
below every line in an assembler. -/
theorem nextCheckpoint_spec (h : p.nextCheckpoint = some cp) :
    (∃ a ∈ p.tracker.ackedPrefix, cp.offset ≤ a.endOffset ∧ cp.inode = a.inode) ∧
      ∀ ceiling, p.checkpointCeiling = some ceiling → cp.offset ≤ ceiling := by
  obtain ⟨safe, hsafe, rfl⟩ := Option.map_eq_some_iff.1 h
  obtain ⟨a, ha, hoff, hinode⟩ := safeCheckpoint_eq_some hsafe
  refine ⟨⟨a, mem_of_getLast? ha, ?_, hinode⟩, ?_⟩
  · rw [← hoff]
    split
    · exact Nat.min_le_left _ _
    · exact le_rfl
  · intro ceiling hc
    rw [hc]
    exact Nat.min_le_right _ _

/-- A saved checkpoint is the end of an acked batch that no unacked one precedes, or the ceiling. -/
theorem nextCheckpoint_offset (h : p.nextCheckpoint = some cp) :
    (∃ a ∈ p.tracker.ackedPrefix, cp.offset = a.endOffset) ∨
      p.checkpointCeiling = some cp.offset := by
  obtain ⟨safe, hsafe, rfl⟩ := Option.map_eq_some_iff.1 h
  obtain ⟨a, ha, hoff, -⟩ := safeCheckpoint_eq_some hsafe
  cases hc : p.checkpointCeiling with
  | none => exact .inl ⟨a, mem_of_getLast? ha, hoff⟩
  | some ceiling =>
    rcases le_total safe.offset ceiling with hle | hle
    · refine .inl ⟨a, mem_of_getLast? ha, ?_⟩
      rw [← hoff]
      exact min_eq_left hle
    · exact .inr (congrArg some (min_eq_right hle).symm)

/-- The checkpoint an event saves, if any. -/
def saves (p : DeliveryPipeline) : Event → Option Checkpoint
  | .checkpoint true => p.nextCheckpoint
  | _ => none

theorem saves_eq_some (h : p.saves ev = some cp) : p.nextCheckpoint = some cp := by
  rw [saves.eq_def] at h
  split at h
  · exact h
  · cases h

end DeliveryPipeline

end EdgePacer.FilePipeline
