import EdgePacer.FilePipeline.ByteRanges

/-!
# Checkpoints and json-file fragments

Docker splits a long line into several records, and the reassembler keeps the fragments of each
stream until the record that ends the line. Their bytes lie behind the tailer's position, so the
pipeline counts from that position less all bytes that wait. This is where the first waiting
fragment starts as long as the waiting bytes are the last ones read. Once a record of one stream
completes a line while a fragment of the other waits, they are not.

`behind_of_alone` proves, for every run in which a line is completed only while no other stream's
fragment waits (`CompletesAlone`), that neither the running offset nor the end of a batch passes the
first record of a fragment that waits. `interleaved_fragment_passed` is a run in which a checkpoint
does.
-/

namespace EdgePacer.FilePipeline

open Lib Delivery Source List DeliveryPipeline DockerJsonReassembler ReadLog TailLine LogTailer

/-! ## Fragments that wait -/

/-- Keep the position of the first record of each line whose fragments wait: the record that ends
the line removes it. -/
def noteRecord (ps : RecordParsers) (waiting : List (LogStream × Nat)) (l : TailLine) :
    List (LogStream × Nat) :=
  match parseDockerJsonLine ps l.payload with
  | none => waiting
  | some record =>
      if record.isFragment then
        if waiting.any fun q => q.1 == record.stream then waiting
        else waiting ++ [(record.stream, l.start)]
      else waiting.filter fun q => q.1 != record.stream

/-- Every record that completes a line leaves no fragment of another stream waiting. -/
def CompletesAlone (ps : RecordParsers) : List Bytes → DockerJsonReassembler → Prop
  | [], _ => True
  | raw :: raws, r =>
      ((r.push ps raw).1.isSome = true → (r.push ps raw).2.pendingBytes = 0) ∧
        CompletesAlone ps raws (r.push ps raw).2

instance CompletesAlone.decidable (ps : RecordParsers) :
    ∀ raws r, Decidable (CompletesAlone ps raws r)
  | [], _ => inferInstanceAs (Decidable True)
  | raw :: raws, r =>
      have := CompletesAlone.decidable ps raws (r.push ps raw).2
      inferInstanceAs (Decidable ((_ → _) ∧ CompletesAlone ps raws (r.push ps raw).2))

/-- The bytes that wait end at `offset` and reach back to no later than the first record of every
fragment that waits. -/
structure Waits (offset : Nat) (r : DockerJsonReassembler) (waiting : List (LogStream × Nat)) :
    Prop where
  pending : r.pendingBytes ≤ offset
  starts : ∀ q ∈ waiting, offset ≤ q.2 + r.pendingBytes
  known : ∀ q ∈ waiting, 0 < r.waiting q.1

variable {waiting : List (LogStream × Nat)} {ps : RecordParsers}

theorem waiting_eq_nil {r : DockerJsonReassembler} (h : ∀ q ∈ waiting, 0 < r.waiting q.1)
    (hzero : r.pendingBytes = 0) : waiting = [] := by
  cases waiting with
  | nil => rfl
  | cons q qs =>
    have hpos := h q mem_cons_self
    have hle := r.waiting_le_pendingBytes q.1
    omega

/-- One record. A fragment makes the waiting bytes longer by all it took; a record that completes
a line leaves none. -/
theorem Waits.push {offset : Nat} {r : DockerJsonReassembler} {l : TailLine}
    (h : Waits offset r waiting) (hstart : l.start = offset) (hlen : countedLen l = l.consumed)
    (halone : (r.push ps l.payload).1.isSome = true → (r.push ps l.payload).2.pendingBytes = 0) :
    Waits l.stop (r.push ps l.payload).2 (noteRecord ps waiting l) := by
  have hstop : l.stop = offset + (l.payload.length + 1) := by
    rw [stop, hstart, ← hlen, countedLen]
  have hpending := h.pending
  -- once a line is complete nothing waits
  have hcomplete : (r.push ps l.payload).1.isSome = true →
      (∀ q ∈ noteRecord ps waiting l, 0 < (r.push ps l.payload).2.waiting q.1) →
      Waits l.stop (r.push ps l.payload).2 (noteRecord ps waiting l) := by
    intro hsome hknown
    have hzero := halone hsome
    rw [waiting_eq_nil hknown hzero]
    exact ⟨by omega, forall_mem_nil _, forall_mem_nil _⟩
  cases hparse : parseDockerJsonLine ps l.payload with
  | none =>
    have hpush := push_of_not_record (r := r) hparse
    apply hcomplete
    · rw [hpush]
      rfl
    · rw [hpush, noteRecord, hparse]
      exact h.known
  | some record =>
    obtain ⟨hline, hself, hother, hgrown⟩ := push_record hparse
    cases hf : record.isFragment with
    | true =>
      rw [pushRecord, if_pos hf] at hself hgrown
      dsimp only at hgrown
      have hhere : 0 < (r.push ps l.payload).2.waiting record.stream := by
        rw [waiting_eq, hself]
        exact lt_of_lt_of_le (Nat.succ_pos _) (Nat.le_add_left _ _)
      have hknown : ∀ q ∈ waiting, 0 < (r.push ps l.payload).2.waiting q.1 := by
        intro q hq
        have hpos := h.known q hq
        by_cases hs : q.1 = record.stream
        · rw [hs]
          exact hhere
        · rw [waiting_eq, hother _ hs]
          exact hpos
      have hstarts : ∀ q ∈ waiting, l.stop ≤ q.2 + (r.push ps l.payload).2.pendingBytes := by
        intro q hq
        have := h.starts q hq
        omega
      rw [noteRecord, hparse]
      dsimp only
      rw [if_pos hf]
      split
      · exact ⟨by omega, hstarts, hknown⟩
      · -- the first fragment of its line starts at the offset
        refine ⟨by omega, ?_, ?_⟩
        · exact forall_mem_append.2 ⟨hstarts, forall_mem_singleton.2 (by omega)⟩
        · exact forall_mem_append.2 ⟨hknown, forall_mem_singleton.2 hhere⟩
    | false =>
      have hsome : (r.push ps l.payload).1.isSome = true := by
        rw [hline, pushRecord, if_neg (by simp [hf])]
        rfl
      apply hcomplete hsome
      intro q hq
      rw [noteRecord, hparse] at hq
      dsimp only at hq
      rw [if_neg (by simp [hf]), mem_filter] at hq
      rw [waiting_eq, hother q.1 (by simpa using hq.2)]
      exact h.known q hq.1

/-- The records of a read, by induction over them. -/
theorem Waits.pushAll {inode hi : Nat} (lines : List TailLine) :
    ∀ {offset : Nat} {r : DockerJsonReassembler} {waiting : List (LogStream × Nat)},
      Waits offset r waiting → Contiguous inode offset lines hi →
      (∀ l ∈ lines, countedLen l = l.consumed) →
      CompletesAlone ps (lines.map payload) r →
      Waits hi (FilePipeline.pushAll ps (lines.map payload) r).2
        (lines.foldl (noteRecord ps) waiting) := by
  induction lines with
  | nil =>
    intro offset r waiting h hcontig _ _
    have heq : offset = hi := hcontig
    exact heq ▸ h
  | cons l lines ih =>
    intro offset r waiting h hcontig hlen halone
    have hfirst := h.push hcontig.2.1 (hlen l mem_cons_self) halone.1
    exact ih hfirst hcontig.2.2.2 ((forall_mem_cons.1 hlen).2) halone.2

/-! ## The pipeline with the fragments that wait -/

/-- The pipeline with the position of the first record of each line whose fragments wait. -/
structure FragmentLog where
  pipe : DeliveryPipeline
  waiting : List (LogStream × Nat)

namespace FragmentLog

def step (libs : Externals) (w : FragmentLog) (ev : Event) : FragmentLog where
  pipe := w.pipe.step libs ev
  waiting := (linesRead libs w.pipe ev).foldl (noteRecord libs.parsers) w.waiting

/-- Neither the running offset nor the end of a tracked batch, from which checkpoints are made,
passes the first record of a fragment that waits. -/
def Behind (w : FragmentLog) : Prop :=
  ∀ q ∈ w.waiting, w.pipe.runningOffset ≤ q.2 ∧ ∀ b ∈ w.pipe.tracker.batches, b.endOffset ≤ q.2

instance (w : FragmentLog) : Decidable w.Behind := inferInstanceAs (Decidable (∀ q ∈ w.waiting, _))

/-- A read of complete records, in place, in which a line is completed only while no fragment of
another stream waits. -/
def Alone (libs : Externals) (w : FragmentLog) : Event → Prop
  | .read env => w.pipe.blocked = false →
      match w.pipe.tailer with
      | .dockerJson t r =>
          let read := t.readLines libs.utf16 env.view.file w.pipe.config.batchSize
          (t.prepare env.view.file).2.state.offset = t.state.offset ∧
            t.drained libs.utf16 env.view.file w.pipe.config.batchSize = [] ∧
            (∀ l ∈ read.1, countedLen l = l.consumed) ∧
            CompletesAlone libs.parsers (read.1.map payload) r
      | _ => True
  | _ => True

instance (libs : Externals) (w : FragmentLog) : DecidablePred (w.Alone libs)
  | .read env => by
      rw [Alone]
      split
      · infer_instance
      · infer_instance
  | .assemblerCheck _ _ | .flush _ | .drain _ | .checkpoint _ | .overflowElsewhere _ =>
      inferInstanceAs (Decidable True)

/-! ## The invariant -/

/-- Lines that end at or before `n`. -/
def EndBy (n : Nat) (lines : List ContextLine) : Prop := ∀ x ∈ lines, x.2.endOffset ≤ n

variable {n : Nat} {xs : List ContextLine} {p : DeliveryPipeline} {ev : Event}

theorem EndBy.split {ys : List ContextLine} (h : EndBy n (xs ++ ys)) : EndBy n xs ∧ EndBy n ys :=
  ⟨(forall_mem_append.1 h).1, (forall_mem_append.1 h).2⟩

theorem EndBy.mono {m : Nat} (h : EndBy n xs) (hle : n ≤ m) :
    EndBy m xs := fun x hx => (h x hx).trans hle

theorem stop_le_of_endBy {evs : List StreamEvent} (h : ∀ ev ∈ evs, EndBy n ev.2.lines) :
    ∀ item ∈ evs.map eventItem, item.stop ≤ n := by
  intro item hitem
  obtain ⟨ev, hev, rfl⟩ := mem_map.1 hitem
  exact h ev hev (ev.2.tail.getLastD ev.2.head) getLastD_mem_cons

/-- What the pipeline counted lies before the bytes that wait. -/
structure Counted (p : DeliveryPipeline) (t : FileTailer) (r : DockerJsonReassembler) : Prop where
  tailer : p.tailer = .dockerJson t r
  running : p.runningOffset + r.pendingBytes ≤ t.state.offset
  held : ∀ as ∈ p.assemblers, ∀ q ∈ as.perStream, EndBy p.runningOffset q.2.buffer

/-- What holds between reads. -/
structure Inv (w : FragmentLog) (t : FileTailer) (r : DockerJsonReassembler) : Prop where
  aligned : t.state.Aligned
  counted : Counted w.pipe t r
  waits : Waits t.state.offset r w.waiting
  batches : ∀ b ∈ w.pipe.tracker.batches, b.endOffset + r.pendingBytes ≤ t.state.offset

variable {libs : Externals} {w : FragmentLog} {t : FileTailer} {r : DockerJsonReassembler}
  {env : ReadEnv}

theorem Inv.behind (h : w.Inv t r) : w.Behind := by
  intro q hq
  have hstart := h.waits.starts q hq
  have hrun := h.counted.running
  refine ⟨by omega, ?_⟩
  intro b hb
  have := h.batches b hb
  omega

/-- A read counts its lines up to the bytes that wait after it. -/
theorem readIntake_counted (h : Counted p t r) (hb : p.blocked = false) {t' : FileTailer}
    {r' : DockerJsonReassembler}
    (htailer : (p.tailer.readLines libs env.view p.config.batchSize).2 = .dockerJson t' r')
    (haccounts : ((p.tailer.readLines libs env.view p.config.batchSize).1.map
      TailedLine.sourceLen).sum + r'.pendingBytes + t.state.offset = r.pendingBytes +
      t'.state.offset) :
    Counted (p.readIntake libs env).1 t' r' ∧
      ∀ item ∈ (p.readIntake libs env).2, item.stop + r'.pendingBytes ≤ t'.state.offset := by
  have hrun := h.running
  have hpos : ∀ line ∈ (p.tailer.readLines libs env.view p.config.batchSize).1,
      0 < line.sourceLen := sourceLen_pos (by rw [h.tailer]; rfl) _ _ _
  generalize hread : p.tailer.readLines libs env.view p.config.batchSize = read
    at htailer haccounts hpos
  have hnext : nextOffset read.2 = t'.state.offset - r'.pendingBytes := by
    rw [htailer]
    rfl
  rcases readIntake_cases hb hread with ⟨hnil, heq⟩ | ⟨hasm, heq⟩ | ⟨as, hasm, heq⟩ <;> rw [heq]
  · -- fragments only: what waits grows by what was read
    refine ⟨⟨htailer, ?_, h.held⟩, forall_mem_nil _⟩
    dsimp only
    omega
  · refine ⟨⟨htailer, by dsimp only; omega, ?_⟩, ?_⟩
    · rw [hasm]
      rintro as ⟨⟩
    · intro item hitem
      have := bounded_batchItems _ hpos _ item hitem
      omega
  · obtain ⟨hbuffers, hevents⟩ := feed_rule read.2.position.inode env.clock
      (Q := EndBy) nofun
      (fun n m xs h => h.mono (Nat.le_add_right n m)) (fun n xs ys => EndBy.split)
      read.1 p.runningOffset 0 as
      (by
        intro before line rest buf _ hbuf x hx
        rcases mem_append.1 hx with hx | hx
        · exact (hbuf x hx).trans (Nat.le_add_right _ _)
        · rw [mem_singleton.1 hx])
      (h.held as hasm)
    refine ⟨⟨htailer, by dsimp only; omega, ?_⟩, ?_⟩
    · rintro as' ⟨⟩ q hq
      exact (hbuffers q hq).mono (by dsimp only; omega)
    · intro item hitem
      have := stop_le_of_endBy hevents item hitem
      omega

theorem drainIntake_counted (h : Counted p t r)
    {drain} (hdrain : EntryAssembler.Drains drain) :
    Counted (p.drainIntake drain).1 t r ∧
      ∀ item ∈ (p.drainIntake drain).2, item.stop + r.pendingBytes ≤ t.state.offset := by
  obtain ⟨hheld, evs, hitems, hevents⟩ := drainIntake_rule hdrain (fun xs ys => EndBy.split) h.held
  obtain ⟨htailer, hrun, -⟩ := p.drainIntake_frame drain
  refine ⟨⟨htailer.trans h.tailer, ?_, ?_⟩, ?_⟩
  · rw [hrun]
    exact h.running
  · rw [hrun]
    exact hheld
  · rw [hitems]
    intro item hitem
    have hstop := stop_le_of_endBy hevents item hitem
    have := h.running
    omega

/-- What one event does: the pipeline counts up to the bytes that wait after it, and what was
counted before stays before them. -/
structure Counts (libs : Externals) (w : FragmentLog) (ev : Event) (t t' : FileTailer)
    (r r' : DockerJsonReassembler) : Prop where
  aligned : t'.state.Aligned
  counted : Counted (w.pipe.intake libs ev).1 t' r'
  items : ∀ item ∈ (w.pipe.intake libs ev).2, item.stop + r'.pendingBytes ≤ t'.state.offset
  waits : Waits t'.state.offset r' (w.step libs ev).waiting
  room : t.state.offset + r'.pendingBytes ≤ t'.state.offset + r.pendingBytes

theorem read_counts (h : w.Inv t r) (halone : w.Alone libs (.read env)) :
    ∃ t' r', w.Counts libs (.read env) t t' r r' := by
  by_cases hb : w.pipe.blocked = true
  · have hread : (w.step libs (.read env)).waiting = w.waiting := by
      rw [step, linesRead, if_pos hb]
      rfl
    refine ⟨t, r, h.aligned, ?_, ?_, hread ▸ h.waits, le_rfl⟩
    · rw [intake, readIntake_blocked hb]
      exact h.counted
    · rw [intake, readIntake_blocked hb]
      exact forall_mem_nil _
  · rw [Bool.not_eq_true] at hb
    have htailer := h.counted.tailer
    have hcond := halone hb
    rw [htailer] at hcond
    obtain ⟨hoffset, hdrained, hlen, hcompletes⟩ := hcond
    obtain ⟨haligned, inode, hcontig⟩ := FileTailer.readLines_contiguous h.aligned hdrained
    rw [hoffset] at hcontig
    -- what is counted for the lines is what they took
    have hfile : w.pipe.tailer.fileTailer = some t := by
      rw [htailer]
      rfl
    have haccounts := accounts hfile libs env.view w.pipe.config.batchSize
    rw [sum_countedLen hlen] at haccounts
    have hsum := hcontig.sum_consumed
    have hread : linesRead libs w.pipe (.read env) =
        (t.readLines libs.utf16 env.view.file w.pipe.config.batchSize).1 := by
      rw [linesRead, if_neg (by simp [hb]), htailer]
      rfl
    have htailer' : (w.pipe.tailer.readLines libs env.view w.pipe.config.batchSize).2 =
        .dockerJson (t.readLines libs.utf16 env.view.file w.pipe.config.batchSize).2
          (pushAll libs.parsers ((t.readLines libs.utf16 env.view.file
            w.pipe.config.batchSize).1.map payload) r).2 := by
      rw [htailer]
      rfl
    have hpending : w.pipe.tailer.pendingPartialBytes = r.pendingBytes := by
      rw [htailer]
      rfl
    rw [htailer', hpending] at haccounts
    obtain ⟨hcounted, hitems⟩ := readIntake_counted h.counted hb htailer' (by
      simp only [pendingPartialBytes] at haccounts
      omega)
    refine ⟨_, _, haligned, hcounted, hitems, ?_, ?_⟩
    · simp only [step, hread]
      exact h.waits.pushAll _ hcontig hlen hcompletes
    · simp only [pendingPartialBytes] at haccounts
      omega

/-- An event that reads nothing. -/
theorem counts_of_intake (h : w.Inv t r) (hread : linesRead libs w.pipe ev = [])
    (hcounted : Counted (w.pipe.intake libs ev).1 t r)
    (hitems : ∀ item ∈ (w.pipe.intake libs ev).2, item.stop + r.pendingBytes ≤ t.state.offset) :
    ∃ t' r', w.Counts libs ev t t' r r' := by
  refine ⟨t, r, h.aligned, hcounted, hitems, ?_, le_rfl⟩
  simp only [step, hread]
  exact h.waits

theorem event_counts (h : w.Inv t r) (halone : w.Alone libs ev) :
    ∃ t' r', w.Counts libs ev t t' r r' := by
  have hnone : ∀ item ∈ ([] : List Item), item.stop + r.pendingBytes ≤ t.state.offset :=
    forall_mem_nil _
  cases ev with
  | read env => exact read_counts h halone
  | assemblerCheck now store =>
    obtain ⟨hcounted, hitems⟩ :=
      drainIntake_counted h.counted (EntryAssembler.checkTimeout_lines now)
    exact counts_of_intake h rfl hcounted hitems
  | flush store =>
    obtain ⟨hcounted, hitems⟩ := drainIntake_counted h.counted EntryAssembler.flush_lines
    exact counts_of_intake h rfl hcounted hitems
  | drain env | checkpoint saved | overflowElsewhere store =>
    exact counts_of_intake h rfl h.counted hnone

theorem step_inv (h : w.Inv t r) (halone : w.Alone libs ev) :
    ∃ t' r', (w.step libs ev).Inv t' r' := by
  obtain ⟨t', r', hc⟩ := event_counts h halone
  obtain ⟨htailer, hasm, hrun⟩ := w.pipe.step_source libs ev
  refine ⟨t', r', hc.aligned, ⟨htailer.trans hc.counted.tailer, ?_, ?_⟩, hc.waits, ?_⟩
  · simp only [step, hrun]
    exact hc.counted.running
  · simp only [step, hasm, hrun]
    exact hc.counted.held
  · apply step_batches libs
      (P := fun _ _ stop => stop + r'.pendingBytes ≤ t'.state.offset)
    · intro b hb
      have hold := h.batches b hb
      have hroom := hc.room
      omega
    · exact fun item hitem => hc.items item (added_subset item hitem)

/-! ## Runs -/

variable (libs : Externals) (t : FileTailer) (haligned : t.state.Aligned) (table : SeqTable Bytes)
  (bufferMaxMb : Nat) (persisted : Option Checkpoint) (config : PipelineConfig) (sourceId : String)
  (overflow : Option Writer) (multiline : Option MultilineConfig)

/-- A json-file source as it starts, over whatever buffer and overflow store there is. -/
def start : FragmentLog :=
  ⟨.start (.dockerJson t .empty) table bufferMaxMb persisted config sourceId overflow
    (multiline.map MultilineConfig.assemblers), []⟩

include haligned

theorem start_inv :
    (start t table bufferMaxMb persisted config sourceId overflow multiline).Inv t .empty where
  aligned := haligned
  counted := by
    refine ⟨rfl, le_rfl, ?_⟩
    intro as has
    obtain ⟨cfg, -, rfl⟩ := Option.map_eq_some_iff.1 has
    exact forall_mem_singleton.2 (forall_mem_nil _)
  waits := ⟨Nat.zero_le _, forall_mem_nil _, forall_mem_nil _⟩
  batches := forall_mem_nil _

/-- In every run of a json-file log whose reads are in place and complete a line only while no
fragment of another stream waits: in every state, neither the running offset nor the end of a batch
passes the first record of a fragment that waits. -/
theorem behind_of_alone (events : List Event)
    (hevents : Each (step libs) (Alone libs) (start t table bufferMaxMb persisted config sourceId
      overflow multiline) events) :
    Always (step libs) Behind (start t table bufferMaxMb persisted config sourceId overflow
      multiline) events := by
  have hrun := always_of_each (I := fun w : FragmentLog => ∃ t r, w.Inv t r)
    (fun w ev ⟨_, _, h⟩ halone => step_inv h halone)
    ⟨t, .empty, start_inv t haligned table bufferMaxMb persisted config sourceId overflow
      multiline⟩ hevents
  exact hrun.mono fun w ⟨_, _, h⟩ => h.behind

omit haligned

/-- The records of the runs below: a fragment on stderr, its end, and a line on stdout. -/
def jsonParsers : RecordParsers where
  validUtf8 := fun _ => true
  logPattern := fun _ => none
  dockerJson := fun line =>
    if hasWindow (ascii "\"log\":\"e\"") line then some (ascii "e", "stderr")
    else if hasWindow (ascii "\"log\":\"f\\n\"") line then some (ascii "f\n", "stderr")
    else if hasWindow (ascii "\"log\":\"a\\n\"") line then some (ascii "a\n", "stdout")
    else none

def jsonExternals : Externals := ⟨⟨id, id⟩, jsonParsers⟩

def stderrFragment : Bytes := ascii "\x7b\"log\":\"e\",\"stream\":\"stderr\"\x7d\n"

def stderrEnd : Bytes := ascii "\x7b\"log\":\"f\\n\",\"stream\":\"stderr\"\x7d\n"

def stdoutLine : Bytes := ascii "\x7b\"log\":\"a\\n\",\"stream\":\"stdout\"\x7d\n"

def jsonStart : FragmentLog :=
  start (.pending .fromStart) (SeqTable.empty 0) 1 none ⟨10, 1000⟩ "web" none none

/-- The fragment ends before the other stream writes. -/
def oneAtATime : List Event :=
  [.readFile 7 stderrFragment, .readFile 7 (stderrFragment ++ stderrEnd ++ stdoutLine),
    .deliver 10, .checkpoint true]

theorem behind_one_at_a_time :
    Each (step jsonExternals) (Alone jsonExternals) jsonStart oneAtATime ∧
      Always (step jsonExternals) Behind jsonStart oneAtATime :=
  ⟨by decide +kernel, behind_of_alone jsonExternals (.pending .fromStart)
    (TailerState.aligned_pending _) (SeqTable.empty 0) 1 none ⟨10, 1000⟩ "web" none none oneAtATime
    (by decide +kernel)⟩

/-- A line on stdout is complete while the fragment waits. -/
def interleaved : List Event :=
  [.readFile 7 (stderrFragment ++ stdoutLine), .deliver 10, .checkpoint true]

/-- The fragment waits at byte 0, and the checkpoint is saved at byte 32. -/
theorem interleaved_fragment_passed :
    (interleaved.foldl (step jsonExternals) jsonStart).waiting = [(.stderr, 0)] ∧
      (interleaved.foldl (step jsonExternals) jsonStart).pipe.persisted = some ⟨32, 7⟩ ∧
      ¬ Always (step jsonExternals) Behind jsonStart interleaved := by
  decide +kernel

end FragmentLog

end EdgePacer.FilePipeline
