import EdgePacer.Streaming.Actor
import Mathlib.Data.List.ReduceOption

/-!
# Where the lines of a streaming pipeline are

The relations `Enqueued`, `Settled`, `Replayed`, `Saved` and `Evicted` say once what each elementary
operation can do, with the facts that hold when it does. From them follows `Located`: every line
that went to the buffer is in it or settled, and the tickets of the spilled lines are spread without
repetition over the places a spilled line can be in. Both hold after every operation, whatever the
environment does.
-/

namespace EdgePacer.Streaming

open Lib Delivery List List.Subset DiskBuffer

universe u

/-- The ticket of a spilled line. -/
def Fate.ticket? : Fate → Option Nat
  | .spilled ticket => some ticket
  | _ => none

namespace Journal

/-- The tickets of the spilled lines, in acceptance order. -/
def tickets (j : Journal) : List Nat := j.accepted.filterMap fun x => x.2.ticket?

/-- The tickets of the records that were written or found in the store, by the place they are in
now. -/
def places (j : Journal) : List (Option Nat) :=
  j.evicted ++ (j.replayed.map Prod.fst ++ (j.lost ++ j.inStore))

/-- Nothing is forgotten: what was accepted, shipped, settled, replayed or evicted stays so. -/
structure Grows (j j' : Journal) : Prop where
  accepted : j.accepted <+: j'.accepted
  ships : j.ships ⊆ j'.ships
  settled : j.settled ⊆ j'.settled
  replayed : j.replayed ⊆ j'.replayed
  evicted : j.evicted ⊆ j'.evicted

theorem Grows.refl (j : Journal) : j.Grows j :=
  ⟨prefix_refl _, Subset.refl _, Subset.refl _, Subset.refl _, Subset.refl _⟩

theorem Grows.shipped {j j' : Journal} (h : j.Grows j') {s : Nat} (hs : j.Shipped s) :
    j'.Shipped s := by
  obtain ⟨x, hx, hmem⟩ := hs
  exact ⟨x, h.ships hx, hmem⟩

variable (j : Journal)

theorem rdrop_append_rtake {α : Type} (l : List α) (n : Nat) : l.rdrop n ++ l.rtake n = l :=
  take_append_drop _ l

variable (n : Nat) (line : StreamLine) (fate : Fate)

theorem grows_replay (first k : Nat) : j.Grows (j.replay n first k) :=
  ⟨prefix_refl _, Subset.refl _, Subset.refl _, subset_append_left _ _, Subset.refl _⟩

theorem tickets_accept : (j.accept line fate).tickets = j.tickets ++ fate.ticket?.toList := by
  rw [tickets, accept, filterMap_append]
  cases fate <;> rfl

theorem tickets_spill (n : Nat) :
    (j.spill line n).tickets = j.tickets ++ [j.accepted.length] := j.tickets_accept line _

theorem places_evictTo : (j.evictTo n).places.Perm j.places := by
  rw [perm_iff_count]
  intro a
  have hsplit := congrArg (count a) (rdrop_append_rtake j.inStore n)
  simp only [places, evictTo, count_append] at hsplit ⊢
  omega

theorem places_spill (n : Nat) :
    (j.spill line n).places.Perm (j.places ++ [some j.accepted.length]) := by
  refine (places_evictTo _ n).trans (perm_iff_count.2 fun a => ?_)
  simp only [places, accept, count_append]
  omega

theorem places_replay (first k : Nat) : (j.replay n first k).places.Perm j.places := by
  rw [perm_iff_count]
  intro a
  have hsplit := congrArg (count a) (rdrop_append_rtake j.inStore n)
  have hcut := congrArg (count a) (take_append_drop k (j.inStore.rdrop n))
  have hzip : (((j.inStore.rdrop n).take k).zip (range' first k)).map Prod.fst =
      (j.inStore.rdrop n).take k := by
    apply map_fst_zip
    simp
  simp only [places, replay, map_append, hzip, count_append] at hsplit hcut ⊢
  omega

end Journal

/-! ## What an elementary operation can do -/

section

variable {κ : Type u} (p : StreamingDeliveryPipeline κ)

/-- What `enqueue` can do. -/
inductive Enqueued (env : EnqueueEnv) (line : StreamLine) :
    Bool × StreamingDeliveryPipeline κ → Prop
  | blank (hblank : isBlankLogLine line.data = true) :
      Enqueued env line (true, { p with journal := p.journal.accept line .blank })
  | buffered {raw : Bytes} {b : DiskBuffer} (hblank : isBlankLogLine line.data = false)
      (hraw : encodeEntry line.timestampNs line.data line.stream = .ok raw)
      (htable : b.core.table = p.buffer.core.table.insertAll [raw])
      (hstep : p.buffer.InStep → b.InStep) :
      Enqueued env line (true, { p with
        buffer := b
        journal := p.journal.accept line (.buffered (p.buffer.core.table.lastSeq + 1)) })
  | spilled {w : Writer} (hblank : isBlankLogLine line.data = false)
      (hfull : p.isFull env line = true) (hw : p.overflow = some w)
      (hwrote : (w.write env.write p.sourceId line.data line.timestampNs).1 = true) :
      Enqueued env line (true, { p with
        overflow := some (w.write env.write p.sourceId line.data line.timestampNs).2
        journal := p.journal.spill line ((w.write env.write p.sourceId line.data
          line.timestampNs).2.available p.sourceId).length })
  | refused : Enqueued env line (false, p)
  | failed {w left : Writer} (hw : p.overflow = some w) (hfault : env.write.fault = some left) :
      Enqueued env line (false, { p with overflow := some left })

/-- What the outcome of a ship can do. -/
inductive Settled (outcome : CappedShipOutcome) (sequences : List Nat) :
    StreamingDeliveryPipeline κ → Prop
  | kept : Settled outcome sequences { p with journal := p.journal.ship sequences outcome }
  | deleted {b : DiskBuffer}
      (htable : b.core.table = p.buffer.core.table.deleteIn (sequences.take outcome.handled))
      (hstep : p.buffer.InStep → b.InStep) :
      Settled outcome sequences { p with
        buffer := b
        journal := (p.journal.ship sequences outcome).settle (sequences.take outcome.handled) }

/-- What a replay can do. -/
inductive Replayed (env : ReplayEnv) : StreamingDeliveryPipeline κ → Prop
  | skipped (hskip : ∀ w, p.overflow = some w → w.hasOverflow p.sourceId = false) : Replayed env p
  | failed {w left : Writer} (hover : w.hasOverflow p.sourceId = true)
      (hfault : env.fault = some left) (hw : p.overflow = some w) :
      Replayed env { p with overflow := some left }
  | taken {w : Writer} {raws : List Bytes} (hover : w.hasOverflow p.sourceId = true)
      (hfault : env.fault = none) (hw : p.overflow = some w)
      (hraws : List.Forall₂ Record.Encodes
        ((w.replayBatch p.sourceId REPLAY_BATCH env.now).1.take raws.length) raws)
      (htable : (replayEnqueue env.enqueueFault 0
        (w.replayBatch p.sourceId REPLAY_BATCH env.now).1 p.buffer).core.table =
          p.buffer.core.table.insertAll raws)
      (hstep : p.buffer.InStep → (replayEnqueue env.enqueueFault 0
        (w.replayBatch p.sourceId REPLAY_BATCH env.now).1 p.buffer).InStep) :
      Replayed env { p with
        overflow := some (w.replayBatch p.sourceId REPLAY_BATCH env.now).2
        buffer := replayEnqueue env.enqueueFault 0
          (w.replayBatch p.sourceId REPLAY_BATCH env.now).1 p.buffer
        journal := p.journal.replay ((w.replayBatch p.sourceId REPLAY_BATCH
          env.now).2.available p.sourceId).length (p.buffer.core.table.lastSeq + 1) raws.length }

/-- What an attempt to save the pending checkpoint can do. -/
inductive Saved : StreamingDeliveryPipeline κ → Prop
  | kept : Saved p
  | persisted {checkpoint : κ} (hpending : p.pendingCheckpoint = some checkpoint)
      (hempty : p.buffer.isEmpty = true) :
      Saved { p with persisted := some checkpoint, pendingCheckpoint := none }

/-- What another source's use of the store can do. -/
inductive Evicted (op : OverflowOp) : StreamingDeliveryPipeline κ → Prop
  | untouched : Evicted op p
  | changed {w : Writer} (hw : p.overflow = some w) (hne : op.source ≠ p.sourceId) :
      Evicted op { p with
        overflow := some (op.apply w)
        journal := p.journal.evictTo ((op.apply w).available p.sourceId).length }

/-- What an elementary operation can do. -/
inductive Applied : Op κ → StreamingDeliveryPipeline κ → Prop
  | enqueue {env : EnqueueEnv} {line : StreamLine} {r : Bool × StreamingDeliveryPipeline κ}
      (h : Enqueued p env line r) : Applied (.enqueue env line) r.2
  | setPendingCheckpoint (checkpoint : κ) :
      Applied (.setPendingCheckpoint checkpoint) (p.setPendingCheckpoint checkpoint)
  | settle {fault : Bool} {outcome : CappedShipOutcome} {sequences : List Nat}
      {q : StreamingDeliveryPipeline κ} (h : Settled p outcome sequences q) :
      Applied (.settle fault outcome sequences) q
  | idleHousekeeping {env : IdleEnv} {q r : StreamingDeliveryPipeline κ}
      (h : Replayed p env.replay q) (hsaved : Saved q r) : Applied (.idleHousekeeping env) r
  | saveCheckpointIfPending {env : SaveEnv} {q : StreamingDeliveryPipeline κ} (h : Saved p q) :
      Applied (.saveCheckpointIfPending env) q
  | overflowElsewhere {op : OverflowOp} {q : StreamingDeliveryPipeline κ} (h : Evicted p op q) :
      Applied (.overflowElsewhere op) q

namespace StreamingDeliveryPipeline

theorem enqueue_spec (env : EnqueueEnv) (line : StreamLine) :
    Enqueued p env line (p.enqueue env line) := by
  rw [enqueue]
  split
  · rename_i hblank
    exact .blank hblank
  · rename_i hblank
    have hblank : isBlankLogLine line.data = false := by simpa using hblank
    split
    · rename_i seqs b hok
      obtain ⟨raw, hraw, hfirst, htable, hstep⟩ := appendEncoded_one hok
      rw [hfirst]
      exact .buffered hblank hraw htable hstep
    · rename_i hfull
      have hfull : p.isFull env line = true := by rw [isFull, hfull]
      rw [spillToOverflow]
      cases hw : p.overflow with
      | none => exact .refused
      | some w =>
        dsimp only
        split
        · next hwrote => exact .spilled hblank hfull hw hwrote
        · next hwrote =>
          cases hfault : env.write.fault with
          | none => exact absurd (by rw [Writer.write, hfault]) hwrote
          | some left =>
            have hleft : (w.write env.write p.sourceId line.data line.timestampNs).2 = left := by
              rw [Writer.write, hfault]
            rw [hleft]
            exact .failed hw hfault
    · exact .refused

theorem settle_spec (fault : Bool) (outcome : CappedShipOutcome) (sequences : List Nat) :
    Settled p outcome sequences (p.settle fault outcome sequences) := by
  have hremove : Settled p outcome sequences (remove
      { p with journal := p.journal.ship sequences outcome } fault
        (sequences.take outcome.handled)) := by
    rw [remove]
    split
    · exact .kept
    · rename_i b hok
      obtain ⟨htable, hstep⟩ := deleteSequences_ok hok
      exact .deleted htable hstep
  cases outcome with
  | deferred reason => exact .kept
  | delivered count | droppedOversized count | rejectedAdjudicated accepted rejected =>
    exact hremove

theorem replayOverflowIntoBuffer_spec (env : ReplayEnv) :
    Replayed p env (p.replayOverflowIntoBuffer env) := by
  rw [replayOverflowIntoBuffer]
  cases hw : p.overflow with
  | none => exact .skipped (by simp [hw])
  | some w =>
    dsimp only
    split
    · rename_i hskip
      exact .skipped (by simpa [hw] using hskip)
    · rename_i hover
      rw [Bool.not_eq_false] at hover
      cases hfault : env.fault with
      | some left => exact .failed hover hfault hw
      | none =>
        obtain ⟨raws, hraws, htable, hstep⟩ := replayEnqueue_table env.enqueueFault
          (w.replayBatch p.sourceId REPLAY_BATCH env.now).1 0 p.buffer
        dsimp only
        have hcount : (replayEnqueue env.enqueueFault 0
            (w.replayBatch p.sourceId REPLAY_BATCH env.now).1 p.buffer).core.table.lastSeq -
              p.buffer.core.table.lastSeq = raws.length := by
          rw [htable, SeqTable.lastSeq_insertAll]
          omega
        rw [hcount]
        exact .taken hover hfault hw hraws htable hstep

theorem saveCheckpointIfPending_spec (env : SaveEnv) : Saved p (p.saveCheckpointIfPending env) := by
  rw [saveCheckpointIfPending]
  split
  · exact .kept
  · rename_i checkpoint hpending
    split
    · exact .kept
    · rename_i hempty
      split
      · exact .kept
      · exact .persisted hpending (by simp at hempty; exact hempty.2)

theorem overflowElsewhere_spec (op : OverflowOp) : Evicted p op (p.overflowElsewhere op) := by
  rw [overflowElsewhere]
  split
  · exact .untouched
  · rename_i w hw
    split
    · exact .untouched
    · rename_i hne
      exact .changed hw hne

theorem apply_spec (op : Op κ) : Applied p op (p.apply op) := by
  cases op with
  | enqueue env line => exact .enqueue (p.enqueue_spec env line)
  | setPendingCheckpoint checkpoint => exact .setPendingCheckpoint checkpoint
  | settle fault outcome sequences => exact .settle (p.settle_spec fault outcome sequences)
  | idleHousekeeping env =>
    exact .idleHousekeeping (p.replayOverflowIntoBuffer_spec _) (saveCheckpointIfPending_spec _ _)
  | saveCheckpointIfPending env =>
    exact .saveCheckpointIfPending (p.saveCheckpointIfPending_spec env)
  | overflowElsewhere op => exact .overflowElsewhere (p.overflowElsewhere_spec op)

end StreamingDeliveryPipeline

end

/-! ## Growth -/

section

variable {κ : Type u} {p q : StreamingDeliveryPipeline κ}

variable {env : EnqueueEnv} {line : StreamLine} {r : Bool × StreamingDeliveryPipeline κ}
  {outcome : CappedShipOutcome} {sequences : List Nat} {op : OverflowOp}

/-- Nothing is forgotten, and only setting and saving touch the checkpoints. -/
theorem Enqueued.grows (h : Enqueued p env line r) :
    p.journal.Grows r.2.journal ∧ r.2.pendingCheckpoint = p.pendingCheckpoint ∧
      r.2.persisted = p.persisted := by
  cases h with
  | blank hblank | buffered hblank hraw htable hstep =>
    exact ⟨⟨prefix_append _ _, refl _, refl _, refl _, refl _⟩, rfl, rfl⟩
  | spilled hblank hfull hw hwrote =>
    exact ⟨⟨prefix_append _ _, refl _, refl _, refl _, subset_append_left _ _⟩, rfl, rfl⟩
  | refused | failed hw hfault => exact ⟨.refl _, rfl, rfl⟩

theorem Settled.grows (h : Settled p outcome sequences q) :
    p.journal.Grows q.journal ∧ q.pendingCheckpoint = p.pendingCheckpoint ∧
      q.persisted = p.persisted := by
  cases h with
  | kept => exact ⟨⟨prefix_refl _, subset_append_left _ _, refl _, refl _, refl _⟩, rfl, rfl⟩
  | deleted htable hstep =>
    exact ⟨⟨prefix_refl _, subset_append_left _ _, subset_append_left _ _, refl _, refl _⟩, rfl,
      rfl⟩

theorem Replayed.grows {env : ReplayEnv} (h : Replayed p env q) :
    p.journal.Grows q.journal ∧ q.pendingCheckpoint = p.pendingCheckpoint ∧
      q.persisted = p.persisted := by
  cases h with
  | skipped hskip | failed hover hfault hw => exact ⟨.refl _, rfl, rfl⟩
  | taken hover hfault hw hraws htable hstep =>
    exact ⟨p.journal.grows_replay .., rfl, rfl⟩

theorem Evicted.grows (h : Evicted p op q) :
    p.journal.Grows q.journal ∧ q.pendingCheckpoint = p.pendingCheckpoint ∧
      q.persisted = p.persisted := by
  cases h with
  | untouched => exact ⟨.refl _, rfl, rfl⟩
  | changed hw hne =>
    exact ⟨⟨prefix_refl _, refl _, refl _, refl _, subset_append_left _ _⟩, rfl, rfl⟩

theorem Saved.journal_eq (h : Saved p q) : q.journal = p.journal ∧ q.buffer = p.buffer := by
  cases h with
  | kept | persisted hpending hempty => exact ⟨rfl, rfl⟩

end

/-! ## Locations -/

/-- Every accepted line is where its fate says. -/
structure StreamingDeliveryPipeline.Located {κ : Type u} (p : StreamingDeliveryPipeline κ) :
    Prop where
  inStep : p.buffer.InStep
  blank : ∀ line, (line, Fate.blank) ∈ p.journal.accepted → isBlankLogLine line.data = true
  buffered : ∀ line s, (line, Fate.buffered s) ∈ p.journal.accepted →
    s ∈ p.journal.settled ∨ s ∈ p.buffer.seqs
  replayed : ∀ x ∈ p.journal.replayed, x.2 ∈ p.journal.settled ∨ x.2 ∈ p.buffer.seqs
  shipped : ∀ s ∈ p.journal.settled, p.journal.Shipped s
  places : p.journal.places.reduceOption.Perm p.journal.tickets

section

variable {κ : Type u} {p q : StreamingDeliveryPipeline κ}

theorem mem_seqs_insertAll {b b' : DiskBuffer} {raws : List Bytes}
    (htable : b'.core.table = b.core.table.insertAll raws) {s : Nat} :
    s ∈ b'.seqs ↔ s ∈ b.seqs ∨ s ∈ range' (b.core.table.lastSeq + 1) raws.length := by
  rw [seqs, htable, SeqTable.seqs_insertAll, mem_append]
  rfl

theorem Enqueued.located {env : EnqueueEnv} {line : StreamLine}
    {r : Bool × StreamingDeliveryPipeline κ} (h : Enqueued p env line r) (hp : p.Located) :
    r.2.Located := by
  -- what the new line adds, by its fate
  have hblanks : ∀ fate : Fate, (fate = .blank → isBlankLogLine line.data = true) →
      ∀ l, (l, Fate.blank) ∈ p.journal.accepted ++ [(line, fate)] →
        isBlankLogLine l.data = true := by
    intro fate hnew l hl
    rcases mem_append.1 hl with hl | hl
    · exact hp.blank l hl
    · obtain ⟨rfl, hfate⟩ := Prod.mk.inj (mem_singleton.1 hl)
      exact hnew hfate.symm
  have hnumbers : ∀ fate : Fate, (∀ s, fate ≠ .buffered s) →
      ∀ l s, (l, Fate.buffered s) ∈ p.journal.accepted ++ [(line, fate)] →
        s ∈ p.journal.settled ∨ s ∈ p.buffer.seqs := by
    intro fate hnew l s hl
    rcases mem_append.1 hl with hl | hl
    · exact hp.buffered l s hl
    · exact absurd (Prod.mk.inj (mem_singleton.1 hl)).2.symm (hnew s)
  cases h with
  | refused => exact hp
  | failed hw hfault =>
    exact ⟨hp.inStep, hp.blank, hp.buffered, hp.replayed, hp.shipped, hp.places⟩
  | blank hblank =>
    refine ⟨hp.inStep, hblanks _ fun _ => hblank, hnumbers _ (by simp), hp.replayed, hp.shipped, ?_⟩
    rw [Journal.tickets_accept]
    exact (append_nil p.journal.tickets).symm ▸ hp.places
  | buffered hblank hraw htable hstep =>
    have hnew : p.buffer.core.table.lastSeq + 1 ∈
        range' (p.buffer.core.table.lastSeq + 1) 1 := by simp
    refine ⟨hstep hp.inStep, hblanks _ (by simp), ?_, ?_, hp.shipped, ?_⟩
    · intro l s hl
      rw [mem_seqs_insertAll htable]
      rcases mem_append.1 hl with hl | hl
      · exact (hp.buffered l s hl).imp_right Or.inl
      · cases mem_singleton.1 hl
        exact .inr (.inr hnew)
    · intro x hx
      rw [mem_seqs_insertAll htable]
      exact (hp.replayed x hx).imp_right Or.inl
    · rw [Journal.tickets_accept]
      exact (append_nil p.journal.tickets).symm ▸ hp.places
  | spilled hblank hfull hw hwrote =>
    refine ⟨hp.inStep, hblanks _ (by simp), hnumbers _ (by simp), hp.replayed, hp.shipped, ?_⟩
    rw [Journal.tickets_spill]
    refine ((p.journal.places_spill line _).filterMap id).trans ?_
    rw [filterMap_append]
    exact hp.places.append_right _

theorem Settled.located {outcome : CappedShipOutcome} {sequences : List Nat}
    (h : Settled p outcome sequences q) (hp : p.Located) : q.Located := by
  have hgrows := h.grows.1
  cases h with
  | kept =>
    exact ⟨hp.inStep, hp.blank, hp.buffered, hp.replayed,
      fun s hs => hgrows.shipped (hp.shipped s hs), hp.places⟩
  | @deleted b htable hstep =>
    -- a number that left the buffer is one of those now settled
    have hmove : ∀ s, s ∈ p.journal.settled ∨ s ∈ p.buffer.seqs →
        s ∈ p.journal.settled ++ sequences.take outcome.handled ∨ s ∈ b.seqs := by
      rintro s (hs | hs)
      · exact .inl (mem_append_left _ hs)
      · by_cases hin : s ∈ sequences.take outcome.handled
        · exact .inl (mem_append_right _ hin)
        · right
          rw [seqs, htable]
          exact (SeqTable.mem_seqs_deleteIn _ _).2 ⟨hs, hin⟩
    refine ⟨hstep hp.inStep, hp.blank, fun l s hl => hmove s (hp.buffered l s hl),
      fun x hx => hmove x.2 (hp.replayed x hx), fun s hs => ?_, hp.places⟩
    rcases mem_append.1 hs with hs | hs
    · exact hgrows.shipped (hp.shipped s hs)
    · exact ⟨(sequences, outcome), mem_append_right _ (mem_singleton.2 rfl), hs⟩

theorem Replayed.located {env : ReplayEnv} (h : Replayed p env q) (hp : p.Located) : q.Located := by
  cases h with
  | skipped hskip => exact hp
  | failed hover hfault hw =>
    exact ⟨hp.inStep, hp.blank, hp.buffered, hp.replayed, hp.shipped, hp.places⟩
  | @taken w raws hover hfault hw hraws htable hstep =>
    refine ⟨hstep hp.inStep, hp.blank, ?_, ?_, hp.shipped, ?_⟩
    · intro l s hl
      rw [mem_seqs_insertAll htable]
      exact (hp.buffered l s hl).imp_right Or.inl
    · intro x hx
      rw [mem_seqs_insertAll htable]
      rcases mem_append.1 hx with hx | hx
      · exact (hp.replayed x hx).imp_right Or.inl
      · exact .inr (.inr (of_mem_zip hx).2)
    · exact ((p.journal.places_replay ..).filterMap id).trans hp.places

theorem Saved.located (h : Saved p q) (hp : p.Located) : q.Located := by
  cases h with
  | kept | persisted hpending hempty =>
    exact ⟨hp.inStep, hp.blank, hp.buffered, hp.replayed, hp.shipped, hp.places⟩

theorem Evicted.located {op : OverflowOp} (h : Evicted p op q) (hp : p.Located) : q.Located := by
  cases h with
  | untouched => exact hp
  | changed hw hne =>
    refine ⟨hp.inStep, hp.blank, hp.buffered, hp.replayed, hp.shipped, ?_⟩
    exact ((p.journal.places_evictTo _).filterMap id).trans hp.places

theorem StreamingDeliveryPipeline.Located.apply (hp : p.Located) (op : Op κ) :
    (p.apply op).Located := by
  have hspec := p.apply_spec op
  generalize p.apply op = q at hspec
  cases hspec with
  | enqueue h => exact h.located hp
  | setPendingCheckpoint checkpoint =>
    exact ⟨hp.inStep, hp.blank, hp.buffered, hp.replayed, hp.shipped, hp.places⟩
  | settle h => exact h.located hp
  | idleHousekeeping h hsaved => exact hsaved.located (h.located hp)
  | saveCheckpointIfPending h => exact h.located hp
  | overflowElsewhere h => exact h.located hp

theorem StreamingDeliveryPipeline.located_open (table : SeqTable Bytes) (bufferMaxMb : Nat)
    (persisted : Option κ) (shipBatchSize shipBatchMaxBytes : Nat) (sourceId : String)
    (overflow : Option Writer) :
    (StreamingDeliveryPipeline.open table bufferMaxMb persisted shipBatchSize shipBatchMaxBytes
      sourceId overflow).Located := by
  refine ⟨open_inStep table bufferMaxMb, ?_, ?_, ?_, ?_, ?_⟩
  · exact nofun
  · exact nofun
  · exact forall_mem_nil _
  · exact forall_mem_nil _
  · -- what an earlier process spilled has no ticket
    have hnone : ∀ n, (replicate n (none : Option Nat)).reduceOption = [] := by
      intro n
      induction n with
      | zero => rfl
      | succ n ih => exact ih
    exact List.Perm.of_eq (hnone _)

end

end EdgePacer.Streaming
