import EdgePacer.Streaming.Journal

/-!
# The overflow store of a streaming pipeline

`Stored` ties the journal to the files: the source's store is well formed, and the records in it
are, in order, those of the lines whose tickets the journal keeps as `inStore`. Writes, evictions
and replays all work on the two ends of that list, so the tie holds after every operation as long
as the clock names new files after old ones (`Supported`).

A replay can lose records: it removes the files it opens and returns at most `REPLAY_BATCH`
records of them, and it stops putting them back at the first append that fails. `Whole` says that
it does neither, and then nothing is ever lost (`lost_apply`).
-/

namespace EdgePacer.Streaming

open Lib Delivery List StreamingDeliveryPipeline Writer

universe u

/-- The record is that of the line with the ticket. -/
def Journal.Matches (j : Journal) (r : Record) (ticket : Option Nat) : Prop :=
  ∀ k, ticket = some k → ∃ line, (line, Fate.spilled k) ∈ j.accepted ∧
    r = (line.timestampNs, line.data)

/-- What is left of a list pairs with the end of what the whole was paired with. -/
theorem forall₂_rtake {α β : Type} {R : α → β → Prop} {gone rest : List α} {l : List β}
    (h : Forall₂ R (gone ++ rest) l) : Forall₂ R rest (l.rtake rest.length) := by
  have hlen := h.length_eq
  rw [length_append] at hlen
  have hdrop := forall₂_drop gone.length h
  rw [drop_left] at hdrop
  rwa [rtake, ← hlen, Nat.add_sub_cancel]

/-- A store in which an earlier process left one finalized file of the source `app`. -/
def leftoverStore : Writer := new [] 1 [⟨dirOf [] "app", 1, encodeAll [(0, [120])]⟩] length

theorem wellFormed_leftoverStore : leftoverStore.WellFormed "app" := by
  have hfiles : leftoverStore.filesOf "app" = leftoverStore.files := by decide
  refine ⟨fun name hname => ?_, ?_, ?_, fun _ hsw => by cases hsw⟩
  · have hdir : leftoverStore.subdirectory (dirOf leftoverStore.baseDir "app") =
        some "app".toList := by decide
    rw [hdir, Option.some.injEq] at hname
    exact hname.symm
  · rw [hfiles]
    exact pairwise_singleton _ _
  · rw [hfiles]
    exact forall_mem_singleton.2 ⟨[(0, [120])], by decide, rfl⟩

namespace StreamingDeliveryPipeline

variable {κ : Type u} {p q : StreamingDeliveryPipeline κ}

/-- The store is well formed and holds the records of the tickets in `inStore`. -/
structure Stored (p : StreamingDeliveryPipeline κ) : Prop where
  wellFormed : ∀ w, p.overflow = some w → w.WellFormed p.sourceId
  records : ∀ w, p.overflow = some w →
    Forall₂ p.journal.Matches (w.available p.sourceId) p.journal.inStore
  absent : p.overflow = none → p.journal.inStore = []

/-- The clock names new files of the source after its old ones, and lines fit the record length;
other ids lead to other directories; and an operation that fails has changed nothing of the
source. -/
def Supported (p : StreamingDeliveryPipeline κ) : Op κ → Prop
  | .enqueue env line => ∀ w, p.overflow = some w →
      w.ClockOk env.write p.sourceId ∧ Record.Fits (line.timestampNs, line.data) ∧
        w.Unharmed p.sourceId env.write.fault
  | .idleHousekeeping env => ∀ w, p.overflow = some w →
      w.Later p.sourceId env.replay.now ∧ w.Unharmed p.sourceId env.replay.fault
  | .overflowElsewhere op => ∀ w, p.overflow = some w → op.source ≠ p.sourceId →
      op.Elsewhere w p.sourceId
  | _ => True

/-- A replay opens no more records than it may return, and all of them go back into the buffer. -/
def Whole (p : StreamingDeliveryPipeline κ) : Op κ → Prop
  | .idleHousekeeping env => ∀ w, p.overflow = some w → w.hasOverflow p.sourceId = true →
      env.replay.fault = none →
        (w.opened p.sourceId REPLAY_BATCH env.replay.now).length ≤ REPLAY_BATCH ∧
          AllFit env.replay.enqueueFault p.buffer (w.opened p.sourceId REPLAY_BATCH env.replay.now)
  | _ => True

instance (p : StreamingDeliveryPipeline κ) : DecidablePred p.Supported
  | .enqueue _ _ => inferInstanceAs (Decidable (∀ _ ∈ p.overflow, _ ∧ _ ∧ _))
  | .idleHousekeeping _ => inferInstanceAs (Decidable (∀ _ ∈ p.overflow, _ ∧ _))
  | .overflowElsewhere _ => inferInstanceAs (Decidable (∀ _ ∈ p.overflow, _ → _))
  | .setPendingCheckpoint _ | .settle .. | .saveCheckpointIfPending _ =>
      inferInstanceAs (Decidable True)

instance (p : StreamingDeliveryPipeline κ) : DecidablePred p.Whole
  | .idleHousekeeping _ => inferInstanceAs (Decidable (∀ _ ∈ p.overflow, _ → _ → _ ∧ _))
  | .enqueue _ _ | .setPendingCheckpoint _ | .settle .. | .saveCheckpointIfPending _
  | .overflowElsewhere _ => inferInstanceAs (Decidable True)

theorem matches_mono {j j' : Journal} (h : j.Grows j') {r : Record} {ticket : Option Nat}
    (hm : j.Matches r ticket) : j'.Matches r ticket := by
  intro k hk
  obtain ⟨line, hmem, heq⟩ := hm k hk
  exact ⟨line, h.accepted.subset hmem, heq⟩

variable (h : p.Stored)

include h

/-- What leaves the store alone keeps the tie. -/
theorem Stored.of_grows (hgrows : p.journal.Grows q.journal) (hoverflow : q.overflow = p.overflow)
    (hsource : q.sourceId = p.sourceId) (hstore : q.journal.inStore = p.journal.inStore) :
    q.Stored where
  wellFormed w hw := by
    rw [hsource]
    exact h.wellFormed w (hoverflow ▸ hw)
  records w hw := by
    rw [hsource, hstore]
    exact (h.records w (hoverflow ▸ hw)).imp fun _ _ => matches_mono hgrows
  absent hnone := by
    rw [hstore]
    exact h.absent (hoverflow ▸ hnone)

/-- New records join the store at the back and others leave it at the front, with their tickets. -/
theorem Stored.shifted {w w' : Writer} (hw : p.overflow = some w) (hwf : w'.WellFormed p.sourceId)
    {new gone : List Record} {tickets : List (Option Nat)}
    (hav : w.available p.sourceId ++ new = gone ++ w'.available p.sourceId)
    (hnew : Forall₂ q.journal.Matches new tickets) (hgrows : p.journal.Grows q.journal)
    (hoverflow : q.overflow = some w') (hsource : q.sourceId = p.sourceId)
    (hstore : q.journal.inStore =
      (p.journal.inStore ++ tickets).rtake (w'.available p.sourceId).length) : q.Stored := by
  have hold := (h.records w hw).imp fun _ _ => matches_mono hgrows
  have hall : Forall₂ q.journal.Matches (w.available p.sourceId ++ new)
      (p.journal.inStore ++ tickets) := rel_append hold hnew
  rw [hav] at hall
  refine ⟨?_, ?_, by simp [hoverflow]⟩
  · intro v hv
    rw [hoverflow, Option.some.injEq] at hv
    rw [hsource, ← hv]
    exact hwf
  · intro v hv
    rw [hoverflow, Option.some.injEq] at hv
    rw [hsource, ← hv, hstore]
    exact forall₂_rtake hall

/-- A failed operation that has changed nothing of the source. -/
theorem Stored.unharmed {w left : Writer} (hw : p.overflow = some w)
    (hsame : SameFor p.sourceId left w) : Stored { p with overflow := some left } := by
  refine ⟨?_, ?_, nofun⟩
  · intro v hv
    obtain rfl : left = v := Option.some.inj hv
    exact (h.wellFormed w hw).of_same hsame
  · intro v hv
    obtain rfl : left = v := Option.some.inj hv
    rw [hsame.available]
    exact h.records w hw

/-- A spilled record joins the store at the back; evictions take others from the front. -/
theorem Stored.enqueued {env : EnqueueEnv} {line : StreamLine}
    {r : Bool × StreamingDeliveryPipeline κ} (hspec : Enqueued p env line r)
    (hs : p.Supported (.enqueue env line)) : r.2.Stored := by
  have hgrows := hspec.grows.1
  cases hspec with
  | blank hblank | buffered hblank hraw htable hstep => exact h.of_grows hgrows rfl rfl rfl
  | refused => exact h
  | failed hw hfault => exact h.unharmed hw ((hs _ hw).2.2 _ hfault)
  | @spilled w hblank hfull hw hwrote =>
    obtain ⟨hclock, hfits, hfault⟩ := hs w hw
    obtain ⟨hwf, hav⟩ := write_spec (h.wellFormed w hw) hclock hfits hfault
    rw [if_pos hwrote] at hav
    refine h.shifted hw hwf hav (.cons ?_ .nil) hgrows rfl rfl rfl
    -- the ticket is the line's place among the accepted ones
    intro k hk
    cases hk
    exact ⟨line, mem_append_right _ (mem_singleton.2 rfl), rfl⟩

variable {env : IdleEnv} (hs : p.Supported (.idleHousekeeping env))

include hs in
theorem Stored.replayed (hspec : Replayed p env.replay q) : q.Stored := by
  have hgrows := hspec.grows.1
  cases hspec with
  | skipped hskip => exact h
  | failed hover hfault hw => exact h.unharmed hw ((hs _ hw).2 _ hfault)
  | @taken w raws hover hfault hw hraws htable hstep =>
    obtain ⟨hwf, -, hav, -⟩ := replayBatch_spec (h.wellFormed w hw) (hs w hw).1 REPLAY_BATCH
    rw [← append_nil (w.available p.sourceId)] at hav
    refine h.shifted hw hwf hav .nil hgrows rfl rfl ?_
    rw [append_nil]
    rfl

theorem Stored.saved (hspec : Saved p q) : q.Stored := by
  cases hspec with
  | kept => exact h
  | persisted hpending hempty => exact h.of_grows (.refl _) rfl rfl rfl

theorem Stored.evicted {op : OverflowOp} (hspec : Evicted p op q)
    (hs : p.Supported (.overflowElsewhere op)) : q.Stored := by
  have hgrows := hspec.grows.1
  cases hspec with
  | untouched => exact h
  | @changed w hw hne =>
    obtain ⟨hwf, gone, hav⟩ := OverflowOp.apply_apart (hs w hw hne) (h.wellFormed w hw)
    rw [← append_nil (w.available p.sourceId)] at hav
    refine h.shifted hw hwf hav .nil hgrows rfl rfl ?_
    rw [append_nil]
    rfl

theorem Stored.apply {op : Op κ} (hs : p.Supported op) : (p.apply op).Stored := by
  have hspec := p.apply_spec op
  generalize p.apply op = q at hspec
  cases hspec with
  | enqueue henqueued => exact h.enqueued henqueued hs
  | setPendingCheckpoint checkpoint => exact h.of_grows (.refl _) rfl rfl rfl
  | settle hsettled =>
    have hgrows := hsettled.grows.1
    cases hsettled with
    | kept | deleted htable hstep => exact h.of_grows hgrows rfl rfl rfl
  | idleHousekeeping hreplayed hsaved => exact (h.replayed hs hreplayed).saved hsaved
  | saveCheckpointIfPending hsaved => exact h.saved hsaved
  | overflowElsewhere hevicted => exact h.evicted hevicted hs

omit h in
/-- A pipeline over a well-formed store, whose records have no tickets yet. -/
theorem stored_open {table : SeqTable Bytes} {bufferMaxMb : Nat} {persisted : Option κ}
    {shipBatchSize shipBatchMaxBytes : Nat} {sourceId : String} {overflow : Option Writer}
    (hwf : ∀ w, overflow = some w → w.WellFormed sourceId) :
    («open» table bufferMaxMb persisted shipBatchSize shipBatchMaxBytes sourceId
      overflow).Stored := by
  refine ⟨hwf, ?_, ?_⟩
  rotate_left
  · intro hnone
    have hnone : overflow = none := hnone
    rw [«open», hnone]
    rfl
  intro w hw
  have hcount : recordCount overflow sourceId = (w.available sourceId).length := by
    rw [show overflow = some w from hw]
    rfl
  show Forall₂ _ (w.available sourceId) (replicate (recordCount overflow sourceId) none)
  rw [hcount]
  generalize w.available sourceId = records
  induction records with
  | nil => exact .nil
  | cons r records ih => exact .cons nofun ih

/-! ## Nothing is lost -/

section

variable (hwhole : p.Whole (.idleHousekeeping env))

include hs hwhole

/-- A whole replay adds one row for each record it opens. -/
theorem opened_length {w : Writer} (hw : p.overflow = some w)
    (hover : w.hasOverflow p.sourceId = true) (hfault : env.replay.fault = none)
    {raws : List Bytes}
    (htable : (replayEnqueue env.replay.enqueueFault 0
      (w.replayBatch p.sourceId REPLAY_BATCH env.replay.now).1 p.buffer).core.table =
        p.buffer.core.table.insertAll raws) :
    raws.length = (w.opened p.sourceId REPLAY_BATCH env.replay.now).length := by
  obtain ⟨-, hout, -, -⟩ := replayBatch_spec (h.wellFormed w hw) (hs w hw).1 REPLAY_BATCH
  obtain ⟨hlen, hfit⟩ := hwhole w hw hover hfault
  rw [take_of_length_le hlen] at hout
  have hall := replayEnqueue_all env.replay.enqueueFault _ 0 p.buffer (by simpa using hfit)
  rw [← hout, htable, SeqTable.lastSeq_insertAll] at hall
  rw [← hout]
  omega

theorem lost_replayed (hspec : Replayed p env.replay q) : q.journal.lost = p.journal.lost := by
  cases hspec with
  | skipped hskip | failed hover hfault hw => rfl
  | @taken w raws hover hfault hw hraws htable hstep =>
    have hrows := opened_length h hs hwhole hw hover hfault htable
    obtain ⟨-, -, hav, -⟩ := replayBatch_spec (h.wellFormed w hw) (hs w hw).1 REPLAY_BATCH
    have hlen := (h.records w hw).length_eq
    rw [hav, length_append] at hlen
    have hnone : (p.journal.inStore.rdrop ((w.replayBatch p.sourceId REPLAY_BATCH
        env.replay.now).2.available p.sourceId).length).drop raws.length = [] := by
      apply drop_eq_nil_of_le
      rw [rdrop, length_take]
      omega
    rw [Journal.replay, hnone]
    exact append_nil _

end

theorem lost_apply {op : Op κ} (hs : p.Supported op) (hwhole : p.Whole op) :
    (p.apply op).journal.lost = p.journal.lost := by
  have hspec := p.apply_spec op
  generalize p.apply op = q at hspec
  cases hspec with
  | enqueue henqueued => cases henqueued <;> rfl
  | setPendingCheckpoint checkpoint => rfl
  | settle hsettled => cases hsettled <;> rfl
  | idleHousekeeping hreplayed hsaved =>
    rw [hsaved.journal_eq.1]
    exact lost_replayed h hs hwhole hreplayed
  | saveCheckpointIfPending hsaved => rw [hsaved.journal_eq.1]
  | overflowElsewhere hevicted => cases hevicted <;> rfl

end StreamingDeliveryPipeline

end EdgePacer.Streaming
