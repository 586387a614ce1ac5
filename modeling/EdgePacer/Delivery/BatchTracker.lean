import Mathlib.Data.List.Nodup
import Mathlib.Data.List.TakeWhile

/-!
# The batch tracker

Tracked batches in the order of their sequence numbers, with the consecutive-ack rule: the safe
checkpoint is the end of the last batch in the leading run of acked ones. Batches are acked by
position, not by name: `ackHandledPrefix n` acks the `n` oldest pending batches.

Two views carry the proofs about the tracker. `pending` lists the pending batches; acking by
position takes `n` from its front (`pending_ackHandledPrefix`). `ackedPrefix` is the leading run of
acked batches, which the safe checkpoint ends (`safeCheckpoint_eq`) and `drainAcked` removes
(`drainAcked_batches`). Over any run of operations batches are numbered one by one, across drains
too (`History.consecutive_run`).
-/

namespace EdgePacer.Delivery

open List Option

inductive BatchStatus where
  | pending
  | acked
  | failed
  deriving DecidableEq, Repr

/-- A tracked batch: its file range, the inode it was read from, and its buffer entries. -/
structure TrackedBatch where
  (sequence startOffset endOffset inode bufferFirstSeq bufferLastSeq : Nat)
  status : BatchStatus
  deriving DecidableEq, Repr

/-- The batches by sequence number. The map of the source is a list in key order; the invariants
make appending a fresh batch the map's insertion. -/
structure BatchTracker where
  batches : List TrackedBatch
  nextSequence : Nat
  sorted : batches.Pairwise fun a b => a.sequence < b.sequence
  fresh : ∀ b ∈ batches, b.sequence < nextSequence

/-- Where a restart may resume. -/
structure SafeCheckpoint where
  (offset inode : Nat)
  ackedBufferSequences : List Nat
  deriving DecidableEq, Repr

/-- Set the status of the batch with a given sequence number, if there is one. -/
def setStatus (status : BatchStatus) (sequence : Nat) (b : TrackedBatch) : TrackedBatch :=
  if b.sequence = sequence then { b with status := status } else b

variable (status : BatchStatus) (sequence : Nat) (b : TrackedBatch)

@[simp] theorem setStatus_sequence : (setStatus status sequence b).sequence = b.sequence := by
  unfold setStatus
  split <;> rfl

namespace BatchTracker

def new : BatchTracker := ⟨[], 1, List.Pairwise.nil, by simp⟩

variable (t : BatchTracker)

/-- Insert a batch under the next sequence number, which is returned. -/
def track (startOffset endOffset inode bufferFirstSeq bufferLastSeq : Nat) :
    Nat × BatchTracker where
  fst := t.nextSequence
  snd :=
    { batches := t.batches ++
        [⟨t.nextSequence, startOffset, endOffset, inode, bufferFirstSeq, bufferLastSeq, .pending⟩]
      nextSequence := t.nextSequence + 1
      sorted := by
        rw [pairwise_append]
        refine ⟨t.sorted, pairwise_singleton _ _, ?_⟩
        intro a ha b hb
        rw [mem_singleton] at hb
        subst hb
        exact t.fresh a ha
      fresh := by
        intro b hb
        rcases mem_append.1 hb with h | h
        · exact Nat.lt_succ_of_lt (t.fresh b h)
        · rw [mem_singleton] at h
          subst h
          exact Nat.lt_succ_self _ }

/-- Set one batch's status (`get_mut`). -/
def mark (status : BatchStatus) (sequence : Nat) : BatchTracker where
  batches := t.batches.map (setStatus status sequence)
  nextSequence := t.nextSequence
  sorted := by
    rw [pairwise_map]
    simpa using t.sorted
  fresh := by
    intro b hb
    obtain ⟨b', hb', rfl⟩ := mem_map.1 hb
    simpa using t.fresh b' hb'

def ack (sequence : Nat) : BatchTracker := t.mark .acked sequence

def fail (sequence : Nat) : BatchTracker := t.mark .failed sequence

/-- The consecutive-ack loop: stop at the first batch that is not acked. -/
def safeCheckpointLoop : Option SafeCheckpoint → List TrackedBatch → Option SafeCheckpoint
  | checkpoint, [] => checkpoint
  | checkpoint, b :: bs =>
      match b.status with
      | .acked =>
          safeCheckpointLoop
            (some ⟨b.endOffset, b.inode,
              (checkpoint.map SafeCheckpoint.ackedBufferSequences).getD [] ++
                range' b.bufferFirstSeq (b.bufferLastSeq + 1 - b.bufferFirstSeq)⟩)
            bs
      | .pending | .failed => checkpoint

def safeCheckpoint : Option SafeCheckpoint := safeCheckpointLoop none t.batches

/-- The leading run of acked batches. -/
def ackedPrefix : List TrackedBatch := t.batches.takeWhile fun b => b.status == .acked

/-- Remove the leading run of acked batches, key by key. -/
def drainAcked : BatchTracker where
  batches := t.batches.filter fun b => decide (b.sequence ∉ t.ackedPrefix.map (·.sequence))
  nextSequence := t.nextSequence
  sorted := t.sorted.sublist filter_sublist
  fresh := fun b hb => t.fresh b (mem_of_mem_filter hb)

def oldestPendingSequence : Option Nat :=
  (t.batches.find? fun b => b.status == .pending).map (·.sequence)

/-- Ack the oldest pending batch, `handled` times. -/
def ackHandledPrefix (t : BatchTracker) : Nat → BatchTracker
  | 0 => t
  | n + 1 =>
      match t.oldestPendingSequence with
      | some seq => ackHandledPrefix (t.ack seq) n
      | none => ackHandledPrefix t n

variable {t : BatchTracker} {b : TrackedBatch} {seq : Nat}

theorem eq_of_sequence_eq {a : TrackedBatch} (ha : a ∈ t.batches) (hb : b ∈ t.batches)
    (h : a.sequence = b.sequence) : a = b := by
  have hnd : (t.batches.map (·.sequence)).Nodup := by
    apply List.Pairwise.map _ _ t.sorted
    intro a b hlt
    exact ne_of_lt hlt
  exact inj_on_of_nodup_map hnd ha hb h

/-! ## Pending batches -/

/-- The pending batches, oldest first. -/
def pending (t : BatchTracker) : List TrackedBatch := t.batches.filter fun b => b.status == .pending

/-- The buffer entries of the pending batches, oldest first. -/
def pendingSeqs (t : BatchTracker) : List Nat := t.pending.map (·.bufferFirstSeq)

@[simp] theorem pending_track (s e i f l : Nat) :
    (t.track s e i f l).2.pending = t.pending ++ [⟨t.nextSequence, s, e, i, f, l, .pending⟩] := by
  simp [pending, track]

@[simp] theorem pendingSeqs_track (s e i f l : Nat) :
    (t.track s e i f l).2.pendingSeqs = t.pendingSeqs ++ [f] := by
  simp [pendingSeqs]

/-- Acking the first pending batch of an ordered list removes it from the pending ones. -/
theorem filter_pending_ack :
    ∀ {bs : List TrackedBatch} {b : TrackedBatch},
      bs.Pairwise (fun a b => a.sequence < b.sequence) →
      bs.find? (fun b => b.status == .pending) = some b →
      (bs.map (setStatus .acked b.sequence)).filter (fun b => b.status == .pending) =
        (bs.filter fun b => b.status == .pending).tail
  | [], b, _, h => by simp at h
  | a :: bs, b, hs, h => by
      rw [pairwise_cons] at hs
      by_cases hp : a.status = .pending
      · -- The head is the oldest pending batch; no later batch shares its number.
        have hab : a = b := by simpa [hp] using h
        subst hab
        have hrest : bs.map (setStatus .acked a.sequence) = bs := by
          conv_rhs => rw [← map_id bs]
          apply map_congr_left
          intro c hc
          have hlt := hs.1 c hc
          unfold setStatus
          rw [if_neg (by omega), id]
        rw [map_cons, hrest]
        simp [setStatus, hp]
      · have hfind : bs.find? (fun b => b.status == .pending) = some b := by
          simpa [hp] using h
        have hmem : b ∈ bs := mem_of_find?_eq_some hfind
        have hlt := hs.1 b hmem
        have hhead : setStatus .acked b.sequence a = a := by
          unfold setStatus
          rw [if_neg (by omega)]
        rw [map_cons, hhead, filter_cons, filter_cons]
        simp only [beq_iff_eq, hp]
        exact filter_pending_ack hs.2 hfind

theorem pending_ack_oldest (h : t.oldestPendingSequence = some seq) :
    (t.ack seq).pending = t.pending.tail := by
  unfold oldestPendingSequence at h
  rw [map_eq_some_iff] at h
  obtain ⟨b, hb, rfl⟩ := h
  exact filter_pending_ack t.sorted hb

theorem pending_eq_nil (h : t.oldestPendingSequence = none) : t.pending = [] := by
  unfold oldestPendingSequence at h
  rw [map_eq_none_iff, find?_eq_none] at h
  rw [pending, filter_eq_nil_iff]
  exact h

/-- **Acking by position** takes the `n` oldest batches from the pending ones. -/
theorem pending_ackHandledPrefix (n : Nat) : (t.ackHandledPrefix n).pending = t.pending.drop n := by
  induction n generalizing t with
  | zero => rfl
  | succ n ih =>
    cases h : t.oldestPendingSequence with
    | none =>
      have hnil := pending_eq_nil h
      simp only [ackHandledPrefix, h]
      rw [ih, hnil, drop_nil, drop_nil]
    | some seq =>
      simp only [ackHandledPrefix, h]
      rw [ih, pending_ack_oldest h, drop_tail]

theorem pendingSeqs_ackHandledPrefix (n : Nat) :
    (t.ackHandledPrefix n).pendingSeqs = t.pendingSeqs.drop n := by
  rw [pendingSeqs, pending_ackHandledPrefix, map_drop, pendingSeqs]

theorem head_pending (h : t.oldestPendingSequence = some seq) :
    ∃ b rest, t.pending = b :: rest ∧ b.sequence = seq := by
  unfold oldestPendingSequence at h
  rw [map_eq_some_iff] at h
  obtain ⟨b, hb, rfl⟩ := h
  rw [← head?_filter] at hb
  cases hp : t.pending with
  | nil =>
    rw [pending] at hp
    rw [hp] at hb
    cases hb
  | cons c rest =>
    rw [pending] at hp
    rw [hp] at hb
    cases hb
    exact ⟨b, rest, rfl, rfl⟩

/-- Up to its status, a batch behind `ackHandledPrefix n` was there before: with the same status,
or as one of the `n` oldest pending batches, now acked. -/
theorem mem_ackHandledPrefix {n : Nat} (h : b ∈ (t.ackHandledPrefix n).batches) :
    b ∈ t.batches ∨ ∃ b₀ ∈ t.pending.take n, b = { b₀ with status := .acked } := by
  induction n generalizing t with
  | zero => exact .inl h
  | succ n ih =>
    cases ho : t.oldestPendingSequence with
    | none =>
      simp only [ackHandledPrefix, ho] at h
      rcases ih h with h1 | ⟨b₀, hb₀, rfl⟩
      · exact .inl h1
      · rw [pending_eq_nil ho, take_nil] at hb₀
        cases hb₀
    | some seq =>
      simp only [ackHandledPrefix, ho] at h
      obtain ⟨b₁, rest, hpend, hseq⟩ := head_pending ho
      rcases ih h with h1 | ⟨b₀, hb₀, rfl⟩
      · obtain ⟨c, hc, rfl⟩ := mem_map.1
          (show b ∈ t.batches.map (setStatus .acked seq) from h1)
        by_cases hcs : c.sequence = seq
        · -- The acked batch is the oldest pending one: the numbers are distinct.
          right
          have hb₁ : b₁ ∈ t.batches := by
            have : b₁ ∈ t.pending := by rw [hpend]; exact mem_cons_self
            exact mem_of_mem_filter this
          have hcb : c = b₁ := eq_of_sequence_eq hc hb₁ (by rw [hcs, hseq])
          refine ⟨b₁, ?_, ?_⟩
          · rw [hpend]
            exact mem_cons_self
          · rw [hcb] at hcs ⊢
            simp [setStatus, hcs]
        · left
          unfold setStatus
          rw [if_neg hcs]
          exact hc
      · right
        refine ⟨b₀, ?_, rfl⟩
        rw [pending_ack_oldest ho, hpend] at hb₀
        rw [hpend]
        exact mem_cons_of_mem _ hb₀

theorem mem_ackHandledPrefix_of_acked (hb : b ∈ t.batches) (hacked : b.status = .acked) (n : Nat) :
    b ∈ (t.ackHandledPrefix n).batches := by
  induction n generalizing t with
  | zero => exact hb
  | succ n ih =>
    rw [ackHandledPrefix]
    split
    · apply ih
      refine mem_map.2 ⟨b, hb, ?_⟩
      unfold setStatus
      split
      · rw [← hacked]
      · rfl
    · exact ih hb

/-- The `n` oldest pending batches are acked. -/
theorem acked_mem_ackHandledPrefix {n : Nat} (h : b ∈ t.pending.take n) :
    { b with status := .acked } ∈ (t.ackHandledPrefix n).batches := by
  induction n generalizing t with
  | zero =>
    cases h
  | succ n ih =>
    cases ho : t.oldestPendingSequence with
    | none =>
      rw [pending_eq_nil ho] at h
      cases h
    | some seq =>
      obtain ⟨b₁, rest, hpend, hseq⟩ := head_pending ho
      simp only [ackHandledPrefix, ho]
      rw [hpend, take_succ_cons, mem_cons] at h
      rcases h with rfl | h
      · apply mem_ackHandledPrefix_of_acked _ rfl
        have hb : b ∈ t.batches := by
          have : b ∈ t.pending := by rw [hpend]; exact mem_cons_self
          exact mem_of_mem_filter this
        exact mem_map.2 ⟨b, hb, by simp [setStatus, hseq]⟩
      · apply ih
        rw [pending_ack_oldest ho, hpend]
        exact h

/-! ## The acked prefix -/

/-- The buffer entries of a batch. -/
def bufferRange (b : TrackedBatch) : List Nat :=
  range' b.bufferFirstSeq (b.bufferLastSeq + 1 - b.bufferFirstSeq)

/-- The loop ends in the last acked batch of the leading run, or in what it started from. -/
theorem safeCheckpointLoop_eq (bs : List TrackedBatch) (cp : Option SafeCheckpoint) :
    safeCheckpointLoop cp bs = ((bs.takeWhile fun b => b.status == .acked).getLast?.map
      fun b => ⟨b.endOffset, b.inode, (cp.map SafeCheckpoint.ackedBufferSequences).getD [] ++
        (bs.takeWhile fun b => b.status == .acked).flatMap bufferRange⟩).or cp := by
  induction bs generalizing cp with
  | nil => rfl
  | cons b bs ih =>
    by_cases ha : b.status = .acked
    · simp only [safeCheckpointLoop]
      rw [ih]
      simp only [takeWhile_cons, ha]
      cases hl : (bs.takeWhile fun b => b.status == .acked).getLast? with
      | none =>
        rw [getLast?_eq_none_iff] at hl
        simp [hl, bufferRange]
      | some c => simp [getLast?_cons, hl, bufferRange]
    · have hstop : safeCheckpointLoop cp (b :: bs) = cp := by
        cases hb : b.status with
        | acked => exact absurd hb ha
        | pending | failed => simp [safeCheckpointLoop, hb]
      rw [hstop]
      simp [ha]

theorem safeCheckpoint_eq : t.safeCheckpoint = t.ackedPrefix.getLast?.map fun b =>
      ⟨b.endOffset, b.inode, t.ackedPrefix.flatMap bufferRange⟩ := by
  rw [safeCheckpoint, safeCheckpointLoop_eq, or_none]
  rfl

theorem safeCheckpoint_eq_some {cp : SafeCheckpoint} (h : t.safeCheckpoint = some cp) :
    ∃ b, t.ackedPrefix.getLast? = some b ∧ cp.offset = b.endOffset ∧ cp.inode = b.inode := by
  rw [safeCheckpoint_eq] at h
  obtain ⟨b, hb, rfl⟩ := map_eq_some_iff.1 h
  exact ⟨b, hb, rfl, rfl⟩

theorem mem_ackedPrefix (h : b ∈ t.ackedPrefix) : b ∈ t.batches ∧ b.status = .acked := by
  refine ⟨takeWhile_subset _ h, ?_⟩
  have := mem_takeWhile_imp h
  simpa using this

/-- What is left behind the leading run of acked batches. -/
def unacked (t : BatchTracker) : List TrackedBatch :=
  t.batches.dropWhile fun b => b.status == .acked

theorem ackedPrefix_append_unacked : t.ackedPrefix ++ t.unacked = t.batches :=
  takeWhile_append_dropWhile ..

theorem drainAcked_batches : t.drainAcked.batches = t.unacked := by
  have hsorted := t.sorted
  rw [← ackedPrefix_append_unacked, pairwise_append] at hsorted
  unfold drainAcked
  dsimp only
  conv_lhs => rw [← t.ackedPrefix_append_unacked]
  rw [filter_append, filter_eq_nil_iff.2, nil_append, filter_eq_self.2]
  · intro b hb
    rw [decide_eq_true_eq, List.mem_map]
    rintro ⟨a, ha, heq⟩
    exact ne_of_lt (hsorted.2.2 a ha b hb) heq
  · intro b hb
    rw [decide_eq_true_eq]
    exact not_not.2 (mem_map_of_mem hb)

theorem mem_drainAcked (h : b ∈ t.drainAcked.batches) : b ∈ t.batches := mem_of_mem_filter h

theorem pending_drainAcked : t.drainAcked.pending = t.pending := by
  have hnone : t.ackedPrefix.filter (fun b => b.status == .pending) = [] := by
    rw [filter_eq_nil_iff]
    intro b hb
    rw [(mem_ackedPrefix hb).2]
    decide
  rw [pending, pending, drainAcked_batches, ← t.ackedPrefix_append_unacked, filter_append, hnone,
    nil_append]

theorem pendingSeqs_drainAcked : t.drainAcked.pendingSeqs = t.pendingSeqs := by
  rw [pendingSeqs, pending_drainAcked, pendingSeqs]

/-- A pending batch comes after every batch of the acked prefix. -/
theorem ackedPrefix_lt_pending {a : TrackedBatch} (ha : a ∈ t.ackedPrefix) (hb : b ∈ t.pending) :
    ∃ l₁ l₂ l₃, t.batches = l₁ ++ a :: (l₂ ++ b :: l₃) := by
  have hsplit := t.ackedPrefix_append_unacked.symm
  obtain ⟨l₁, l₂, hl⟩ := append_of_mem ha
  have hbm : b ∈ t.unacked := by
    have hbb : b ∈ t.batches := mem_of_mem_filter hb
    rw [hsplit] at hbb
    rcases mem_append.1 hbb with h | h
    · have hs := (mem_ackedPrefix h).2
      have hp : b.status = .pending := by
        have := of_mem_filter hb
        simpa using this
      cases hp.symm.trans hs
    · exact h
  obtain ⟨l₃, l₄, hl'⟩ := append_of_mem hbm
  refine ⟨l₁, l₂ ++ l₃, l₄, ?_⟩
  rw [hsplit, hl, hl']
  simp

/-! ## Whole runs -/

/-- A call on the tracker. -/
inductive Operation where
  | track (startOffset endOffset inode bufferFirstSeq bufferLastSeq : Nat)
  | ack (sequence : Nat)
  | fail (sequence : Nat)
  | safeCheckpoint
  | drainAcked

/-- A tracker with what it was told and what was removed from it: the batches handed to `track`
under the numbers it returned, the reports on each number (a batch starts out pending), latest
first, and the batches drained, in order. -/
structure History where
  tracker : BatchTracker := new
  tracked : List TrackedBatch := []
  reports : List (Nat × BatchStatus) := []
  drained : List TrackedBatch := []

namespace History

def step (h : History) : Operation → History
  | .track s e i f l =>
      let (sequence, tracker) := h.tracker.track s e i f l
      { h with
        tracker
        tracked := h.tracked ++ [⟨sequence, s, e, i, f, l, .pending⟩]
        reports := (sequence, .pending) :: h.reports }
  | .ack sequence =>
      { h with tracker := h.tracker.ack sequence, reports := (sequence, .acked) :: h.reports }
  | .fail sequence =>
      { h with tracker := h.tracker.fail sequence, reports := (sequence, .failed) :: h.reports }
  -- `safe_checkpoint` only looks
  | .safeCheckpoint => h
  | .drainAcked =>
      { h with
        tracker := h.tracker.drainAcked
        drained := h.drained ++ h.tracker.ackedPrefix }

/-- A batch as it was tracked. -/
def asTracked (b : TrackedBatch) : TrackedBatch := { b with status := .pending }

/-- The consecutive-ack rule. Batches are numbered without gap or repetition, across drains too.
None is lost: the drained and the kept ones are those that were tracked, and a kept one has the
status of the latest report on it. The safe checkpoint covers, and the next drain removes, the
batches last reported acked, up to the first that is not. -/
structure Consecutive (h : History) : Prop where
  numbered : h.tracked.map (·.sequence) = range' 1 h.tracked.length
  next : h.tracker.nextSequence = h.tracked.length + 1
  complete : (h.drained ++ h.tracker.batches).map asTracked = h.tracked
  reported : ∀ b ∈ h.tracker.batches, h.reports.lookup b.sequence = some b.status
  settled : ∀ b ∈ h.drained, b.status = .acked
  frontier : ∃ acked rest, h.tracker.batches = acked ++ rest ∧
    (∀ b ∈ acked, h.reports.lookup b.sequence = some .acked) ∧
    (∀ b, rest.head? = some b → h.reports.lookup b.sequence ≠ some .acked) ∧
    h.tracker.safeCheckpoint = acked.getLast?.map (fun b =>
      ⟨b.endOffset, b.inode, acked.flatMap bufferRange⟩) ∧
    h.tracker.drainAcked.batches = rest

/-- The frontier follows from the rest. -/
theorem Consecutive.of_reported {h : History}
    (hnumbered : h.tracked.map (·.sequence) = range' 1 h.tracked.length)
    (hnext : h.tracker.nextSequence = h.tracked.length + 1)
    (hcomplete : (h.drained ++ h.tracker.batches).map asTracked = h.tracked)
    (hreported : ∀ b ∈ h.tracker.batches, h.reports.lookup b.sequence = some b.status)
    (hsettled : ∀ b ∈ h.drained, b.status = .acked) : h.Consecutive := by
  refine ⟨hnumbered, hnext, hcomplete, hreported, hsettled, h.tracker.ackedPrefix,
    h.tracker.unacked, h.tracker.ackedPrefix_append_unacked.symm, fun b hb => ?_, fun b hb => ?_,
    h.tracker.safeCheckpoint_eq, h.tracker.drainAcked_batches⟩
  · obtain ⟨hmem, hacked⟩ := mem_ackedPrefix hb
    rw [hreported b hmem, hacked]
  · have hstop := head?_dropWhile_not (fun b : TrackedBatch => b.status == .acked) h.tracker.batches
    rw [show h.tracker.batches.dropWhile _ = h.tracker.unacked from rfl, hb] at hstop
    rw [hreported b (dropWhile_subset _ (mem_of_mem_head? hb))]
    simpa using hstop

theorem Consecutive.step {h : History} (hc : h.Consecutive) (op : Operation) :
    (h.step op).Consecutive := by
  -- a report on a number is the latest one for that number and leaves the others
  have hmark : ∀ status sequence, Consecutive { h with
      tracker := h.tracker.mark status sequence
      reports := (sequence, status) :: h.reports } := by
    intro status sequence
    refine .of_reported hc.numbered hc.next ?_ ?_ hc.settled
    · rw [← hc.complete, map_append, map_append, mark, List.map_map]
      refine congrArg _ (map_congr_left fun b _ => ?_)
      rw [Function.comp_apply, setStatus]
      split <;> rfl
    · intro b hb
      obtain ⟨a, ha, rfl⟩ := mem_map.1 hb
      have hreport := hc.reported a ha
      by_cases hs : a.sequence = sequence
      · simp [setStatus, hs]
      · simpa [setStatus, hs, lookup_cons, beq_false_of_ne hs] using hreport
  cases op with
  | track s e i f l =>
    refine .of_reported ?_ ?_ ?_ ?_ hc.settled
    · simp only [History.step, track, map_append, length_append, hc.numbered, hc.next]
      rw [length_singleton, range'_concat]
      simp [Nat.add_comm]
    · simp [History.step, track, hc.next]
    · simp only [History.step, track, ← append_assoc]
      rw [map_append, hc.complete]
      rfl
    · intro b hb
      rcases mem_append.1 hb with hb | hb
      · have hlt := h.tracker.fresh b hb
        have hne : (b.sequence == h.tracker.nextSequence) = false := beq_false_of_ne hlt.ne
        simpa [History.step, track, lookup_cons, hne] using hc.reported b hb
      · rw [mem_singleton] at hb
        subst hb
        simp [History.step, track]
  | ack sequence => exact hmark .acked sequence
  | fail sequence => exact hmark .failed sequence
  | safeCheckpoint => exact hc
  | drainAcked =>
    refine .of_reported hc.numbered hc.next ?_ (fun b hb => hc.reported b (mem_drainAcked hb))
      fun b hb => ?_
    · simpa [History.step, drainAcked_batches, ackedPrefix_append_unacked] using hc.complete
    · rcases mem_append.1 hb with hb | hb
      · exact hc.settled b hb
      · exact (mem_ackedPrefix hb).2

/-- **The consecutive-ack rule over every run** of operations on a new tracker. -/
theorem consecutive_run (ops : List Operation) : (ops.foldl step {}).Consecutive := by
  have hrun : ∀ h : History, h.Consecutive → (ops.foldl step h).Consecutive := by
    induction ops with
    | nil => exact fun h hc => hc
    | cons op ops ih => exact fun h hc => ih _ (hc.step op)
  exact hrun {} (.of_reported rfl rfl rfl nofun nofun)

end History

end BatchTracker

end EdgePacer.Delivery
