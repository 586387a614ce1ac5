import EdgePacer.Streaming.Intake

/-!
# What a persisted checkpoint covers

A checkpoint is persisted only when the buffer is found empty, and it was set only after all the
lines it covers had left the channel. So if nothing that was spilled is still waiting at that
moment, every line it covers has been handled (`Sound.apply`). Without an overflow store there is
nothing to wait for: `covers_only_settled` holds in every run of the actor, whatever is blocked,
retried or abandoned on the way.
-/

namespace EdgePacer.Streaming

open Lib Delivery List StreamingDeliveryPipeline

universe u

/-- An accepted line needs nothing more: it was blank, or the outcome of a ship handled it. -/
def Journal.Handled (j : Journal) : Fate → Prop
  | .blank => True
  | .buffered s => j.Shipped s
  | .spilled ticket => ∃ s, (some ticket, s) ∈ j.replayed ∧ j.Shipped s

theorem Journal.Grows.handled {j j' : Journal} (h : j.Grows j') {fate : Fate}
    (hf : j.Handled fate) : j'.Handled fate := by
  cases fate with
  | blank => trivial
  | buffered s => exact h.shipped hf
  | spilled ticket =>
    obtain ⟨s, hs, hshipped⟩ := hf
    exact ⟨s, h.replayed hs, h.shipped hshipped⟩

namespace StreamingDeliveryPipeline

variable {κ : Type u} {p q : StreamingDeliveryPipeline (κ × Nat)}

/-- No record waits in the overflow store, and none was lost on the way out of it or evicted. -/
def Clear (p : StreamingDeliveryPipeline κ) : Prop :=
  p.journal.inStore = [] ∧ p.journal.lost = [] ∧ p.journal.evicted = []

/-- An empty buffer and a clear store leave no accepted line behind. -/
theorem Located.handled {p : StreamingDeliveryPipeline κ} (h : p.Located)
    (hempty : p.buffer.isEmpty = true) (hclear : p.Clear) :
    ∀ x ∈ p.journal.accepted, p.journal.Handled x.2 := by
  have hseqs : p.buffer.seqs = [] := (DiskBuffer.isEmpty_iff h.inStep).1 hempty
  have hout : ∀ s, s ∈ p.journal.settled ∨ s ∈ p.buffer.seqs → p.journal.Shipped s := by
    intro s hs
    rw [hseqs] at hs
    exact h.shipped s (hs.resolve_right not_mem_nil)
  rintro ⟨line, fate⟩ hx
  cases fate with
  | blank => trivial
  | buffered s => exact hout s (h.buffered line s hx)
  | spilled ticket =>
    have hticket : ticket ∈ p.journal.tickets := mem_filterMap.2 ⟨_, hx, rfl⟩
    have hplace := reduceOption_mem_iff.1 (h.places.mem_iff.2 hticket)
    rw [Journal.places, hclear.1, hclear.2.1, hclear.2.2, nil_append, append_nil,
      append_nil] at hplace
    -- the ticket is in the one place that is left
    obtain ⟨⟨o, s⟩, hmem, ho⟩ := mem_map.1 hplace
    cases ho
    exact ⟨s, hmem, hout s (h.replayed _ hmem)⟩

/-- Lines are where they should be, and no checkpoint covers a line it should not. -/
structure Sound (p : StreamingDeliveryPipeline (κ × Nat)) : Prop where
  located : p.Located
  pending : ∀ checkpoint, p.pendingCheckpoint = some checkpoint →
    checkpoint.2 ≤ p.journal.accepted.length
  persisted : ∀ checkpoint, p.persisted = some checkpoint →
    checkpoint.2 ≤ p.journal.accepted.length ∧
      ∀ x ∈ p.journal.accepted.take checkpoint.2, p.journal.Handled x.2

/-- What leaves the checkpoints alone keeps them sound. -/
theorem Sound.of_grows (h : p.Sound) (hloc : q.Located)
    (hsame : p.journal.Grows q.journal ∧ q.pendingCheckpoint = p.pendingCheckpoint ∧
      q.persisted = p.persisted) : q.Sound where
  located := hloc
  pending checkpoint hq := by
    rw [hsame.2.1] at hq
    exact (h.pending checkpoint hq).trans hsame.1.accepted.length_le
  persisted checkpoint hq := by
    have hgrows := hsame.1
    rw [hsame.2.2] at hq
    obtain ⟨hle, hcovered⟩ := h.persisted checkpoint hq
    refine ⟨hle.trans hgrows.accepted.length_le, ?_⟩
    obtain ⟨new, hnew⟩ := hgrows.accepted
    rw [← hnew, take_append_of_le_length hle]
    exact fun x hx => hgrows.handled (hcovered x hx)

theorem Sound.saved (h : p.Sound) (hsaved : Saved p q)
    (hclear : p.pendingCheckpoint ≠ none → p.buffer.isEmpty = true → p.Clear) : q.Sound := by
  cases hsaved with
  | kept => exact h
  | persisted hpending hempty =>
    refine ⟨(Saved.persisted hpending hempty).located h.located, by simp, ?_⟩
    intro checkpoint hq
    cases hq
    refine ⟨h.pending _ hpending, fun x hx => ?_⟩
    have hset : p.pendingCheckpoint ≠ none := by simp [hpending]
    exact h.located.handled hempty (hclear hset hempty) x (mem_of_mem_take hx)

/-- The pending checkpoint that an operation sets covers accepted lines only. -/
def StampFits (p : StreamingDeliveryPipeline (κ × Nat)) : Op (κ × Nat) → Prop
  | .setPendingCheckpoint checkpoint => checkpoint.2 ≤ p.journal.accepted.length
  | _ => True

/-- Where an operation can persist a checkpoint, an empty buffer means a clear store. -/
def SavesClear (p : StreamingDeliveryPipeline κ) : Op κ → Prop
  | .idleHousekeeping env =>
      (p.replayOverflowIntoBuffer env.replay).pendingCheckpoint ≠ none →
        (p.replayOverflowIntoBuffer env.replay).buffer.isEmpty = true →
          (p.replayOverflowIntoBuffer env.replay).Clear
  | .saveCheckpointIfPending _ =>
      p.pendingCheckpoint ≠ none → p.buffer.isEmpty = true → p.Clear
  | _ => True

theorem Sound.apply (h : p.Sound) {op : Op (κ × Nat)} (hstamp : p.StampFits op)
    (hclear : p.SavesClear op) : (p.apply op).Sound := by
  cases op with
  | setPendingCheckpoint checkpoint =>
    refine ⟨h.located.apply (.setPendingCheckpoint checkpoint), ?_, h.persisted⟩
    intro c hc
    cases hc
    exact hstamp
  | enqueue env line => exact h.of_grows (h.located.apply _) (p.enqueue_spec env line).grows
  | settle fault outcome sequences =>
    exact h.of_grows (h.located.apply _) (p.settle_spec fault outcome sequences).grows
  | idleHousekeeping env =>
    have hspec := p.replayOverflowIntoBuffer_spec env.replay
    have hreplayed := h.of_grows (hspec.located h.located) hspec.grows
    exact hreplayed.saved (saveCheckpointIfPending_spec _ env.save) hclear
  | saveCheckpointIfPending env => exact h.saved (p.saveCheckpointIfPending_spec env) hclear
  | overflowElsewhere op => exact h.of_grows (h.located.apply _) (p.overflowElsewhere_spec op).grows

theorem sound_open (table : SeqTable Bytes) (bufferMaxMb : Nat) (persisted : Option κ)
    (shipBatchSize shipBatchMaxBytes : Nat) (sourceId : String) (overflow : Option Writer) :
    («open» table bufferMaxMb (persisted.map fun checkpoint => (checkpoint, 0)) shipBatchSize
      shipBatchMaxBytes sourceId overflow).Sound := by
  refine ⟨located_open .., ?_, ?_⟩
  · exact fun _ h => absurd h (by simp [«open»])
  · intro checkpoint h
    obtain ⟨c, -, rfl⟩ := Option.map_eq_some_iff.1 h
    exact ⟨Nat.zero_le _, nofun⟩

end StreamingDeliveryPipeline

/-! ## Stamps that leave the channel -/

namespace Actor

variable {κ : Type u} {a : Actor (κ × Nat)} {sent : List StreamLine}

/-- Operations that set no checkpoint. -/
theorem each_stampFits {p : StreamingDeliveryPipeline (κ × Nat)} {ops : List (Op (κ × Nat))}
    (h : ∀ op ∈ ops, ∀ checkpoint, op ≠ .setPendingCheckpoint checkpoint) :
    Each apply StampFits p ops := by
  apply each_of_mem
  intro op hop q
  cases op with
  | setPendingCheckpoint checkpoint => exact absurd rfl (h _ hop checkpoint)
  | enqueue env line | settle fault outcome sequences | idleHousekeeping env
  | saveCheckpointIfPending env | overflowElsewhere op => trivial

/-- A checkpoint that leaves the channel covers accepted lines only. -/
theorem Intake.stampFits_nextOps (h : a.Intake sent) (hp : a.phase.TakesCommands)
    (hb : a.blocked = none) (env : EnqueueEnv) :
    Each apply StampFits a.pipeline (a.nextOps env) := by
  have hstamps := h.stamps hp
  rw [nextOps]
  cases hq : a.queue with
  | nil => trivial
  | cons command queue =>
    rw [hq, hb] at hstamps
    cases command with
    | enqueue line => exact ⟨trivial, trivial⟩
    | setCheckpoint checkpoint =>
      refine ⟨?_, trivial⟩
      have hle := hstamps.1 checkpoint rfl
      rwa [Journal.lines, length_map, Option.toList_none] at hle
    | getCheckpoint => trivial

theorem each_stampFits_settle (a : Actor (κ × Nat)) (transport : Option Transport)
    (confirm : ConfirmEnv) (retry : EnqueueEnv) :
    Each apply StampFits a.pipeline
      (a.completeOps transport confirm ++ retryOps a.blocked retry) := by
  apply each_stampFits
  intro op hop checkpoint heq
  rcases mem_append.1 hop with hop | hop
  · rcases mem_completeOps hop with ⟨outcome, ks, h'⟩ | h' <;> cases heq.symm.trans h'
  · obtain ⟨line, -, h'⟩ := mem_retryOps hop
    cases heq.symm.trans h'

theorem Intake.stampFits_ops (h : a.Intake sent) (ev : Event (κ × Nat)) :
    Each apply StampFits a.pipeline (a.ops ev) := by
  cases ev with
  | send command | close => trivial
  | recv env =>
    exact each_ite_nil fun hen => h.stampFits_nextOps (by rw [hen.1]; trivial) hen.2 env
  | shipped transport confirm retry =>
    exact each_ite_nil fun _ => each_stampFits_settle a (some transport) confirm retry
  | tick env =>
    refine each_ite_nil fun _ => each_stampFits fun op hop checkpoint heq => ?_
    rcases mem_append.1 hop with hop | hop
    · obtain ⟨line, -, h'⟩ := mem_retryOps hop
      cases heq.symm.trans h'
    · split at hop
      · cases hop
      · cases heq.symm.trans (mem_prepareOps hop)
  | settle transport confirm retry =>
    exact each_ite_nil fun _ => each_stampFits_settle a transport confirm retry
  | takeRemaining env =>
    exact each_ite_nil fun hphase =>
      h.stampFits_nextOps (by rw [hphase]; trivial) (h.unblocked hphase) env
  | shutdownDrain env =>
    refine each_ite_nil fun _ => each_stampFits fun op hop checkpoint heq => ?_
    rw [shutdownOps] at hop
    split at hop
    · cases heq.symm.trans (mem_singleton.1 hop)
    · split at hop
      · cases heq.symm.trans (mem_singleton.1 hop)
      · split at hop
        · cases heq.symm.trans (mem_prepareOps hop)
        · rcases mem_outcomeOps hop with h' | h' <;> cases heq.symm.trans h'
  | overflowElsewhere op => exact ⟨trivial, trivial⟩

end Actor

/-! ## Without an overflow store -/

/-- A pipeline without a store has nothing in it. -/
structure StreamingDeliveryPipeline.NoStore {κ : Type u} (p : StreamingDeliveryPipeline κ) :
    Prop where
  overflow : p.overflow = none
  clear : p.Clear
  unspilled : ∀ x ∈ p.journal.accepted, x.2.ticket? = none

namespace StreamingDeliveryPipeline

variable {κ : Type u} {p : StreamingDeliveryPipeline κ}

theorem NoStore.replay (h : p.NoStore) (env : ReplayEnv) : p.replayOverflowIntoBuffer env = p := by
  rw [replayOverflowIntoBuffer, h.overflow]

variable {q : StreamingDeliveryPipeline κ}

theorem NoStore.of_eq (h : p.NoStore) (hoverflow : q.overflow = p.overflow)
    (hjournal : q.journal = p.journal) : q.NoStore where
  overflow := hoverflow.trans h.overflow
  clear := by rw [Clear, hjournal]; exact h.clear
  unspilled := by rw [hjournal]; exact h.unspilled

theorem NoStore.accept (h : p.NoStore) {line : StreamLine} {fate : Fate}
    (hfate : fate.ticket? = none) (hoverflow : q.overflow = p.overflow)
    (hjournal : q.journal = p.journal.accept line fate) : q.NoStore where
  overflow := hoverflow.trans h.overflow
  clear := by rw [Clear, hjournal]; exact h.clear
  unspilled := by
    rw [hjournal]
    exact forall_mem_append.2 ⟨h.unspilled, forall_mem_singleton.2 hfate⟩

theorem NoStore.saved (h : p.NoStore) (hsaved : Saved p q) : q.NoStore := by
  cases hsaved with
  | kept => exact h
  | persisted hpending hempty => exact h.of_eq rfl rfl

theorem NoStore.apply (h : p.NoStore) (op : Op κ) : (p.apply op).NoStore ∧ p.SavesClear op := by
  have hspec := p.apply_spec op
  generalize p.apply op = q at hspec
  cases hspec with
  | enqueue henqueued =>
    cases henqueued with
    | blank hblank | buffered hblank hraw htable hstep => exact ⟨h.accept rfl rfl rfl, trivial⟩
    | spilled hblank hfull hw hwrote | failed hw hfault => cases h.overflow.symm.trans hw
    | refused => exact ⟨h, trivial⟩
  | setPendingCheckpoint checkpoint => exact ⟨h.of_eq rfl rfl, trivial⟩
  | settle hsettled =>
    cases hsettled with
    | kept | deleted htable hstep => exact ⟨⟨h.overflow, h.clear, h.unspilled⟩, trivial⟩
  | idleHousekeeping hreplayed hsaved =>
    rw [SavesClear, h.replay]
    refine ⟨?_, fun _ _ => h.clear⟩
    cases hreplayed with
    | skipped hskip => exact h.saved hsaved
    | failed hover hfault hw | taken hover hfault hw hraws htable hstep =>
      exact absurd (h.overflow.symm.trans hw) nofun
  | saveCheckpointIfPending hsaved => exact ⟨h.saved hsaved, fun _ _ => h.clear⟩
  | overflowElsewhere hevicted =>
    cases hevicted with
    | untouched => exact ⟨h, trivial⟩
    | changed hw hne => exact absurd (h.overflow.symm.trans hw) nofun

end StreamingDeliveryPipeline

namespace World

variable {κ : Type u}

/-- Every line the persisted checkpoint covers was accepted and needs nothing more: it was blank,
or the outcome of a ship that had it in its batch delivered it, saw it adjudicated or dropped it as
oversized. A line left behind when the actor stopped taking commands is not covered. -/
structure CoversSettled (w : World κ) : Prop where
  covered : ∀ checkpoint n, w.pipeline.persisted = some (checkpoint, n) → ∀ i < n,
    ∃ line fate, w.sent[i]? = some line ∧ w.journal.accepted[i]? = some (line, fate) ∧
      (fate = .blank ∧ isBlankLogLine line.data = true ∨
        ∃ s, fate = .buffered s ∧ w.journal.Shipped s)
  abandoned : ¬ w.actor.phase.TakesCommands → ∀ checkpoint n,
    w.pipeline.persisted = some (checkpoint, n) → ∀ i < w.sent.length,
      w.journal.accepted.length ≤ i → n ≤ i

variable {w : World κ}

/-- A sound pipeline whose accepted lines are the first ones sent covers sent lines. -/
theorem covered_of_sound (hintake : w.Intake) (hsound : w.pipeline.Sound) {checkpoint : κ}
    {n : Nat} (hn : w.pipeline.persisted = some (checkpoint, n)) {i : Nat} (hi : i < n) :
    ∃ line fate, w.sent[i]? = some line ∧ w.journal.accepted[i]? = some (line, fate) ∧
      w.journal.Handled fate := by
  obtain ⟨hle, hcovered⟩ := hsound.persisted _ hn
  have hlt : i < w.journal.accepted.length := lt_of_lt_of_le hi hle
  have hget : w.journal.accepted[i]? = some w.journal.accepted[i] := List.getElem?_eq_getElem hlt
  have hmem : w.journal.accepted[i] ∈ w.journal.accepted.take n := by
    rw [mem_take_iff_getElem]
    exact ⟨i, by rw [Nat.lt_min]; exact ⟨hi, hlt⟩, rfl⟩
  refine ⟨w.journal.accepted[i].1, w.journal.accepted[i].2, ?_, hget, hcovered _ hmem⟩
  have hline : w.journal.lines[i]? = some w.journal.accepted[i].1 := by
    rw [Journal.lines, List.getElem?_map, hget]
    rfl
  have hlen : i < w.journal.lines.length := by
    rw [Journal.lines, length_map]
    exact hlt
  -- the accepted lines are the first ones sent
  obtain ⟨later, hlater⟩ : w.journal.lines <+: w.sent := hintake.first
  rw [← hlater, List.getElem?_append_left hlen]
  exact hline

theorem coversSettled_of_noStore (hintake : w.Intake) (hsound : w.pipeline.Sound)
    (hstore : w.pipeline.NoStore) : w.CoversSettled := by
  constructor
  · intro checkpoint n hn i hi
    obtain ⟨line, fate, hsent, hget, hhandled⟩ := covered_of_sound hintake hsound hn hi
    refine ⟨line, fate, hsent, hget, ?_⟩
    have hmem := List.mem_of_getElem? hget
    cases fate with
    | blank => exact .inl ⟨rfl, hsound.located.blank line hmem⟩
    | buffered s => exact .inr ⟨s, rfl, hhandled⟩
    | spilled ticket => exact absurd (hstore.unspilled _ hmem) (by simp [Fate.ticket?])
  · intro _ checkpoint n hn i _ hi
    exact (hsound.persisted _ hn).1.trans hi

/-- An event keeps `Sound` together with any invariant `G` under which an empty buffer at a save
means a clear store. -/
theorem Intake.step_sound {G : StreamingDeliveryPipeline (κ × Nat) → Prop}
    {D : StreamingDeliveryPipeline (κ × Nat) → Op (κ × Nat) → Prop}
    (hG : ∀ p op, p.Located → G p → D p op → G (p.apply op) ∧ p.SavesClear op) {w : World κ}
    (h : w.Intake ∧ w.pipeline.Sound ∧ G w.pipeline) {ev : Event κ}
    (hD : Each apply D w.pipeline (w.actor.ops (ev.stamp w.sent.length))) :
    (w.step ev).Intake ∧ (w.step ev).pipeline.Sound ∧ G (w.step ev).pipeline := by
  have hstamps := Actor.Intake.stampFits_ops h.1 (ev.stamp w.sent.length)
  have hrun : Always apply (fun p => p.Sound ∧ G p) w.pipeline
      (w.actor.ops (ev.stamp w.sent.length)) := by
    refine always_of_each ?_ h.2 (hstamps.and hD)
    rintro p op ⟨hsound, hg⟩ ⟨hs, hd⟩
    obtain ⟨hg', hclear⟩ := hG p op hsound.located hg hd
    exact ⟨hsound.apply hs hclear, hg'⟩
  have hsame : (w.step ev).pipeline = _ := w.actor.step_pipeline _
  rw [hsame]
  exact ⟨h.1.step ev, hrun.last⟩

/-- **Without an overflow store every persisted checkpoint covers settled lines only**, in every
run of the actor: whatever producers send, however ships end, whatever is blocked, retried or
abandoned at shutdown, and whichever database operations fail. -/
theorem covers_only_settled (table : SeqTable Bytes) (bufferMaxMb : Nat) (persisted : Option κ)
    (shipBatchSize shipBatchMaxBytes : Nat) (sourceId : String) (events : List (Event κ)) :
    Always step CoversSettled
      (spawn table bufferMaxMb persisted shipBatchSize shipBatchMaxBytes sourceId none) events := by
  have hrun : Always step
      (fun w : World κ => w.Intake ∧ w.pipeline.Sound ∧ w.pipeline.NoStore)
      (spawn table bufferMaxMb persisted shipBatchSize shipBatchMaxBytes sourceId none) events := by
    apply always_of_step
    · intro w ev hw
      exact Intake.step_sound (fun p op _ hstore _ => hstore.apply op) hw (each_true _ _)
    · exact ⟨intake_spawn .., sound_open ..,
        rfl, ⟨rfl, rfl, rfl⟩, forall_mem_nil _⟩
  exact hrun.mono fun w hw => coversSettled_of_noStore hw.1 hw.2.1 hw.2.2

end World

end EdgePacer.Streaming
