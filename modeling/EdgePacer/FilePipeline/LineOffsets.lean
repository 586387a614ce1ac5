import EdgePacer.FilePipeline.ByteRanges

/-!
# The end offset of each line

For a plain file the pipeline takes one byte more than a line's payload as the line's length. The
payload is what is left after decoding, after trimming the line ending and the byte-order mark, and
after cutting a long line, so its length says little about the bytes the line took.

`offsetsExact_iff_linesExact` says for which files the offsets are right, whatever the split into
cycles: without assembly, when in each cycle every line but the first took one byte more than its
payload, and the first is not counted as longer than all the bytes up to its end; with assembly,
when every line took one byte more than its payload. In those runs every checkpoint saved is the
start or the end of a line. `crlf_checkpoint_inside_line` is a run with CRLF endings.
-/

namespace EdgePacer.FilePipeline

open Lib Delivery Source List DeliveryPipeline TailLine TailedLine

/-- Where lines of the given lengths end, counted from `first` on. -/
def endOffsets : Nat → List Nat → List Nat
  | _, [] => []
  | first, n :: ns => (first + n) :: endOffsets (first + n) ns

namespace ReadLog

variable (libs : Externals)

/-- The end offset the pipeline attributes to each line of a read. -/
def attributedEnds (p : DeliveryPipeline) (env : ReadEnv) : List Nat :=
  endOffsets (firstOffset libs p env)
    ((p.tailer.readLines libs env.view p.config.batchSize).1.map sourceLen)

/-- The offsets attributed to the ends of the lines are the positions just past them. -/
def OffsetsExact (w : ReadLog) : Event → Prop
  | .read env => w.pipe.blocked = false →
      attributedEnds libs w.pipe env = (linesRead libs w.pipe (.read env)).map stop
  | _ => True

/-- What the first line of a read has to meet. -/
def FirstExact (p : DeliveryPipeline) (l : TailLine) : Prop :=
  match p.assemblers with
  | none => countedLen l ≤ l.stop
  | some _ => countedLen l = l.consumed

/-- What the lines of a read have to meet for their offsets to be right. -/
def LinesExact (w : ReadLog) : Event → Prop
  | .read env =>
      match linesRead libs w.pipe (.read env) with
      | [] => True
      | l :: ls => FirstExact w.pipe l ∧ ∀ x ∈ ls, countedLen x = x.consumed
  | _ => True

/-- A read that starts where the tailer stands and takes nothing from a rotated file. -/
def Steady (w : ReadLog) : Event → Prop
  | .read env => w.pipe.blocked = false → ∀ t ∈ w.pipe.tailer.fileTailer,
      (t.prepare env.view.file).2.state.offset = t.state.offset ∧
        t.drained libs.utf16 env.view.file w.pipe.config.batchSize = []
  | _ => True

instance (libs : Externals) (w : ReadLog) : DecidablePred (w.OffsetsExact libs)
  | .read _ => inferInstanceAs (Decidable (_ → _))
  | .assemblerCheck _ _ | .flush _ | .drain _ | .checkpoint _ | .overflowElsewhere _ =>
      inferInstanceAs (Decidable True)

instance (p : DeliveryPipeline) (l : TailLine) : Decidable (FirstExact p l) := by
  rw [FirstExact]
  split <;> infer_instance

instance (libs : Externals) (w : ReadLog) : DecidablePred (w.LinesExact libs)
  | .read env => by
      rw [LinesExact]
      split <;> infer_instance
  | .assemblerCheck _ _ | .flush _ | .drain _ | .checkpoint _ | .overflowElsewhere _ =>
      inferInstanceAs (Decidable True)

instance (libs : Externals) (w : ReadLog) : DecidablePred (w.Steady libs)
  | .read _ => inferInstanceAs (Decidable (_ → _))
  | .assemblerCheck _ _ | .flush _ | .drain _ | .checkpoint _ | .overflowElsewhere _ =>
      inferInstanceAs (Decidable True)

/-- Every checkpoint saved is the start or the end of a line. -/
def OnBoundaries (w : ReadLog) : Prop :=
  ∀ cp ∈ w.saved, ∃ l ∈ w.read, cp.offset = l.start ∨ cp.offset = l.stop

instance (w : ReadLog) : Decidable w.OnBoundaries := inferInstanceAs (Decidable (∀ cp ∈ w.saved, _))

/-! ## Counting contiguous lines -/

variable {ls : List TailLine} {ev : Event} {read : List TailLine} {xs : List ContextLine}

theorem endOffsets_eq_stops_iff {inode lo hi : Nat} (h : Contiguous inode lo ls hi) :
    endOffsets lo (ls.map countedLen) = ls.map stop ↔ ∀ x ∈ ls, countedLen x = x.consumed := by
  induction ls generalizing lo with
  | nil => simp [endOffsets]
  | cons l ls ih =>
    obtain ⟨-, hstart, -, hrest⟩ := h
    have hhead : lo + countedLen l = l.stop ↔ countedLen l = l.consumed := by
      rw [stop]
      omega
    rw [map_cons, map_cons, endOffsets, List.cons.injEq, hhead, forall_mem_cons]
    apply and_congr_right
    intro hlen
    rw [hhead.2 hlen]
    exact ih hrest

/-- Counting from any offset is right when the first line ends right and the others are counted
right. -/
theorem endOffsets_cons_eq_stops_iff {inode first hi : Nat} {l : TailLine}
    (h : Contiguous inode l.stop ls hi) :
    endOffsets first ((l :: ls).map countedLen) = (l :: ls).map stop ↔
      first + countedLen l = l.stop ∧ ∀ x ∈ ls, countedLen x = x.consumed := by
  rw [map_cons, map_cons, endOffsets, List.cons.injEq]
  apply and_congr_right
  intro hend
  rw [hend]
  exact endOffsets_eq_stops_iff h

/-! ## Steady reads of a plain file -/

/-- A plain file whose running offset, where it is used, is the tailer's. -/
structure Level (w : ReadLog) (t : FileTailer) : Prop where
  tailer : w.pipe.tailer = .file t
  aligned : t.state.Aligned
  running : w.pipe.assemblers ≠ none → w.pipe.runningOffset = t.state.offset

variable {libs : Externals} {w : ReadLog} {t : FileTailer} {env : ReadEnv}

/-- The tailer after a read. -/
def tailerAfter (libs : Externals) (w : ReadLog) (t : FileTailer) (env : ReadEnv) : FileTailer :=
  (t.readLines libs.utf16 env.view.file w.pipe.config.batchSize).2

/-- What an unblocked read of a plain file gives. -/
structure PlainRead (libs : Externals) (w : ReadLog) (t : FileTailer) (env : ReadEnv)
    (cur : List TailLine) : Prop where
  lines : linesRead libs w.pipe (.read env) = cur
  tailed : w.pipe.tailer.readLines libs env.view w.pipe.config.batchSize =
    (cur.map fun l => lineWithPayloadAsSource l.payload, .file (tailerAfter libs w t env))
  aligned : (tailerAfter libs w t env).state.Aligned
  contiguous : ∃ inode, Contiguous inode t.state.offset cur (tailerAfter libs w t env).state.offset

namespace PlainRead

variable {cur : List TailLine} (h : PlainRead libs w t env cur)

include h

theorem sourceLens :
    (w.pipe.tailer.readLines libs env.view w.pipe.config.batchSize).1.map sourceLen =
      cur.map countedLen := by
  rw [h.tailed, map_map]
  rfl

theorem nextOffset :
    nextOffset (w.pipe.tailer.readLines libs env.view w.pipe.config.batchSize).2 =
      (tailerAfter libs w t env).state.offset := by
  rw [h.tailed]
  rfl

/-- Counting back from the tailer's position ends the first line right exactly when there is room
for it, once the other lines are counted right. -/
theorem countedBack {l : TailLine} {ls : List TailLine} (hcur : cur = l :: ls)
    (hls : ∀ x ∈ ls, countedLen x = x.consumed) :
    (tailerAfter libs w t env).state.offset - (cur.map countedLen).sum + countedLen l = l.stop ↔
      countedLen l ≤ l.stop := by
  obtain ⟨inode, hcontig⟩ := h.contiguous
  rw [hcur] at hcontig
  have hhi := hcontig.2.2.2.sum_consumed
  rw [hcur, map_cons, sum_cons, sum_countedLen hls]
  omega

end PlainRead

variable (h : w.Level t)

include h

theorem plainRead (hb : w.pipe.blocked = false) (hsteady : w.Steady libs (.read env)) :
    ∃ cur, PlainRead libs w t env cur := by
  have htailer : w.pipe.tailer.fileTailer = some t := by
    rw [h.tailer]
    rfl
  obtain ⟨hoffset, hdrained⟩ := hsteady hb t htailer
  obtain ⟨haligned, hcontig⟩ := FileTailer.readLines_contiguous h.aligned hdrained
  rw [hoffset] at hcontig
  refine ⟨_, ?_, ?_, haligned, hcontig⟩
  · simp only [linesRead, hb, htailer, Bool.false_eq_true, if_false]
  · rw [h.tailer]
    rfl

theorem offsetsExact_iff (hsteady : w.Steady libs ev) :
    w.OffsetsExact libs ev ↔ w.LinesExact libs ev := by
  cases ev with
  | read env =>
    by_cases hb : w.pipe.blocked = true
    · have hread : linesRead libs w.pipe (.read env) = [] := if_pos hb
      simp [OffsetsExact, LinesExact, hb, hread]
    · rw [Bool.not_eq_true] at hb
      obtain ⟨cur, hr⟩ := plainRead h hb hsteady
      obtain ⟨inode, hcontig⟩ := hr.contiguous
      simp only [OffsetsExact, LinesExact, hb, attributedEnds, hr.sourceLens, hr.lines,
        forall_const]
      cases hcur : cur with
      | nil => simp [endOffsets]
      | cons l ls =>
        rw [hcur] at hcontig
        rw [endOffsets_cons_eq_stops_iff hcontig.2.2.2]
        apply and_congr_left
        intro hls
        cases hasm : w.pipe.assemblers with
        | none =>
          simp only [firstOffset, FirstExact, hasm, hr.nextOffset, hr.sourceLens]
          exact hr.countedBack hcur hls
        | some as =>
          -- the running offset is where the first line starts
          have hrun := h.running (by simp [hasm])
          have hstart := hcontig.2.1
          simp only [firstOffset, FirstExact, hasm, stop]
          omega
  | assemblerCheck now store | flush store | drain env | checkpoint saved
  | overflowElsewhere store =>
    exact Iff.rfl

variable {cur : List TailLine}

/-- A steady read leaves the running offset at the tailer's. -/
theorem readIntake_level (hb : w.pipe.blocked = false) (hr : PlainRead libs w t env cur) :
    (w.pipe.readIntake libs env).1.tailer = .file (tailerAfter libs w t env) ∧
      ((w.pipe.readIntake libs env).1.assemblers ≠ none →
        (w.pipe.readIntake libs env).1.runningOffset =
          (tailerAfter libs w t env).state.offset) := by
  rcases readIntake_cases hb hr.tailed with ⟨hnil, heq⟩ | ⟨hasm, heq⟩ | ⟨as, -, heq⟩ <;> rw [heq]
  · -- without lines neither offset moves
    refine ⟨rfl, fun hasm => ?_⟩
    obtain ⟨inode, hcontig⟩ := hr.contiguous
    rw [map_eq_nil_iff.1 hnil] at hcontig
    exact (h.running hasm).trans hcontig
  · exact ⟨rfl, fun hne => absurd hasm hne⟩
  · refine ⟨rfl, fun _ => Eq.trans ?_ hr.nextOffset⟩
    rw [hr.tailed]

theorem drainIntake_level (drain : EntryAssembler → Option AssembledEvent × EntryAssembler) :
    (w.pipe.drainIntake drain).1.tailer = .file t ∧
      ((w.pipe.drainIntake drain).1.assemblers ≠ none →
        (w.pipe.drainIntake drain).1.runningOffset = t.state.offset) := by
  obtain ⟨htailer, hrun, hasm⟩ := w.pipe.drainIntake_frame drain
  rw [htailer, hrun]
  exact ⟨h.tailer, fun hne => h.running (hasm hne)⟩

theorem step_level (hsteady : w.Steady libs ev) : ∃ t', (w.step libs ev).Level t' := by
  obtain ⟨htailer, hasm, hrun⟩ := w.pipe.step_source libs ev
  -- the step ends with what its intake leaves
  suffices hintake : ∃ t', t'.state.Aligned ∧ (w.pipe.intake libs ev).1.tailer = .file t' ∧
      ((w.pipe.intake libs ev).1.assemblers ≠ none →
        (w.pipe.intake libs ev).1.runningOffset = t'.state.offset) by
    obtain ⟨t', haligned, htailer', hrun'⟩ := hintake
    refine ⟨t', htailer.trans htailer', haligned, ?_⟩
    simp only [step, hasm, hrun]
    exact hrun'
  cases ev with
  | read env =>
    by_cases hb : w.pipe.blocked = true
    · have hintake : w.pipe.intake libs (.read env) = (w.pipe, []) := if_pos hb
      rw [hintake]
      exact ⟨t, h.aligned, h.tailer, h.running⟩
    · rw [Bool.not_eq_true] at hb
      obtain ⟨cur, hr⟩ := plainRead h hb hsteady
      exact ⟨_, hr.aligned, readIntake_level h hb hr⟩
  | assemblerCheck now store | flush store => exact ⟨t, h.aligned, drainIntake_level h _⟩
  | drain env | checkpoint saved | overflowElsewhere store =>
    exact ⟨t, h.aligned, h.tailer, h.running⟩

/-! ## Line boundaries -/

omit h

/-- Lines whose ranges are those of lines read. -/
def AreRead (read : List TailLine) (lines : List ContextLine) : Prop :=
  ∀ x ∈ lines, ∃ l ∈ read, x.2.startOffset = l.start ∧ x.2.endOffset = l.stop

/-- Items that end where a line ends. -/
def EndRead (read : List TailLine) (items : List Item) : Prop :=
  ∀ item ∈ items, ∃ l ∈ read, item.stop = l.stop

/-- Batches end where a line ends, and the assemblers hold lines that were read. -/
structure Marked (w : ReadLog) : Prop where
  batches : ∀ b ∈ w.pipe.tracker.batches, ∃ l ∈ w.read, b.endOffset = l.stop
  held : ∀ as ∈ w.pipe.assemblers, ∀ q ∈ as.perStream, AreRead w.read q.2.buffer

theorem AreRead.split {ys : List ContextLine} (h : AreRead read (xs ++ ys)) :
    AreRead read xs ∧ AreRead read ys :=
  ⟨(forall_mem_append.1 h).1, (forall_mem_append.1 h).2⟩

theorem AreRead.extend {more : List TailLine} (h : AreRead read xs) :
    AreRead (read ++ more) xs := by
  intro x hx
  obtain ⟨l, hl, hrange⟩ := h x hx
  exact ⟨l, mem_append_left _ hl, hrange⟩

theorem endRead_events {evs : List StreamEvent} (h : ∀ ev ∈ evs, AreRead read ev.2.lines) :
    EndRead read (evs.map eventItem) := by
  intro item hitem
  obtain ⟨ev, hev, rfl⟩ := mem_map.1 hitem
  obtain ⟨l, hl, -, hstop⟩ := h ev hev (ev.2.tail.getLastD ev.2.head) getLastD_mem_cons
  exact ⟨l, hl, hstop⟩

theorem stop_mem_endOffsets (lines : List TailedLine) :
    ∀ first, ∀ item ∈ batchItems first lines,
      item.stop ∈ endOffsets first (lines.map sourceLen) := by
  induction lines with
  | nil => exact nofun
  | cons line lines ih =>
    intro first item hitem
    rw [map_cons, endOffsets, mem_cons]
    rw [batchItems] at hitem
    split at hitem
    · exact .inr (ih _ item hitem)
    · rcases mem_cons.1 hitem with rfl | hitem
      · exact .inl rfl
      · exact .inr (ih _ item hitem)

/-- The lines that a read with exact lines feeds to the assemblers have the ranges of the lines
read. -/
theorem feed_areRead (file : Nat) (clock : Nat → Nat) (i : Nat) {inode lo hi : Nat}
    {as : StreamAssemblers} (hcontig : Contiguous inode lo cur hi)
    (hexact : ∀ x ∈ cur, countedLen x = x.consumed)
    (has : ∀ q ∈ as.perStream, AreRead read q.2.buffer) :
    (∀ q ∈
        (feed file clock lo i (cur.map fun l => lineWithPayloadAsSource l.payload) as).2.perStream,
        AreRead (read ++ cur) q.2.buffer) ∧
      ∀ ev ∈ (feed file clock lo i (cur.map fun l => lineWithPayloadAsSource l.payload) as).1,
        AreRead (read ++ cur) ev.2.lines := by
  apply feed_rule file clock (Q := fun _ => AreRead (read ++ cur))
    nofun (fun _ _ _ h => h) (fun _ _ _ h => h.split)
  · intro before line rest buf hlines hbuf x hx
    rcases mem_append.1 hx with hx | hx
    · exact hbuf x hx
    · rw [mem_singleton.1 hx]
      -- the line fed after `before` is the line read after as many lines
      obtain ⟨cb, cr, rfl, rfl, hrest⟩ := map_eq_append_iff.1 hlines
      obtain ⟨l, ls, rfl, rfl, -⟩ := map_eq_cons_iff.1 hrest
      have hbefore : ((cb.map fun l => lineWithPayloadAsSource l.payload).map
          sourceLen).sum = (cb.map consumed).sum := by
        rw [map_map]
        exact sum_countedLen (forall_mem_append.1 hexact).1
      have hstart := hcontig.start_eq
      have hlen : (lineWithPayloadAsSource l.payload).sourceLen = l.consumed := hexact l (by simp)
      refine ⟨l, by simp, ?_, ?_⟩
      · rw [hbefore, hstart]
      · rw [hbefore, hlen, stop, hstart]
  · exact fun q hq => (has q hq).extend

/-- The ceiling is the start of a line in an assembler. -/
theorem exists_of_ceiling {p : DeliveryPipeline} {c : Nat} (h : p.checkpointCeiling = some c) :
    ∃ as ∈ p.assemblers, ∃ q ∈ as.perStream, ∃ x ∈ q.2.buffer, x.2.startOffset = c := by
  obtain ⟨as, has, hmin⟩ := Option.bind_eq_some_iff.1 h
  obtain ⟨q, hq, hc⟩ := mem_filterMap.1 (List.min?_mem hmin)
  obtain ⟨x, hx, hstart⟩ := Option.map_eq_some_iff.1 hc
  exact ⟨as, has, q, hq, x, List.mem_of_head? hx, hstart⟩

variable (hm : w.Marked)

include h hm

/-- The items of a steady read with exact lines end where lines end. -/
theorem readIntake_marked (hb : w.pipe.blocked = false)
    (hr : PlainRead libs w t env cur)
    (hexact : w.OffsetsExact libs (.read env)) (hlines : w.LinesExact libs (.read env)) :
    (∀ as ∈ (w.pipe.readIntake libs env).1.assemblers, ∀ q ∈ as.perStream,
        AreRead (w.read ++ cur) q.2.buffer) ∧
      EndRead (w.read ++ cur) (w.pipe.readIntake libs env).2 := by
  rcases readIntake_cases hb hr.tailed with ⟨-, heq⟩ | ⟨hasm, heq⟩ | ⟨as, hasm, heq⟩ <;> rw [heq]
  · refine ⟨fun as has q hq => (hm.held as has q hq).extend, ?_⟩
    exact forall_mem_nil _
  · constructor
    · intro as has
      cases hasm.symm.trans has
    intro item hitem
    -- an item ends at one of the attributed ends, and these are the ends of lines
    have hends := hexact hb
    rw [attributedEnds, hr.lines, firstOffset, hasm, hr.tailed] at hends
    have hmem := stop_mem_endOffsets _ _ item hitem
    rw [hends] at hmem
    obtain ⟨l, hl, hstop⟩ := mem_map.1 hmem
    exact ⟨l, mem_append_right _ hl, hstop.symm⟩
  · have hall : ∀ x ∈ cur, countedLen x = x.consumed := by
      simp only [LinesExact, hr.lines, FirstExact, hasm] at hlines
      cases cur with
      | nil => exact forall_mem_nil _
      | cons l ls => exact forall_mem_cons.2 hlines
    obtain ⟨inode, hcontig⟩ := hr.contiguous
    rw [← h.running (by simp [hasm])] at hcontig
    obtain ⟨hbuffers, hevents⟩ := feed_areRead _ env.clock 0 hcontig hall
      (fun q hq => hm.held as hasm q hq)
    refine ⟨?_, endRead_events hevents⟩
    rintro as' ⟨⟩
    exact hbuffers

omit h in
theorem drainIntake_marked {drain} (hdrain : EntryAssembler.Drains drain) :
    (∀ as ∈ (w.pipe.drainIntake drain).1.assemblers, ∀ q ∈ as.perStream,
        AreRead w.read q.2.buffer) ∧
      EndRead w.read (w.pipe.drainIntake drain).2 := by
  obtain ⟨hheld, evs, hitems, hevents⟩ := drainIntake_rule hdrain
    (fun xs ys => AreRead.split) hm.held
  rw [hitems]
  exact ⟨hheld, endRead_events hevents⟩

/-- What an intake leaves in the assemblers and takes in, in a steady step with exact lines. -/
theorem intake_marked (hsteady : w.Steady libs ev) (hlines : w.LinesExact libs ev) :
    (∀ as ∈ (w.pipe.intake libs ev).1.assemblers, ∀ q ∈ as.perStream,
        AreRead (w.read ++ linesRead libs w.pipe ev) q.2.buffer) ∧
      EndRead (w.read ++ linesRead libs w.pipe ev) (w.pipe.intake libs ev).2 := by
  have hnone : ∀ more, (∀ as ∈ w.pipe.assemblers, ∀ q ∈ as.perStream,
      AreRead (w.read ++ more) q.2.buffer) ∧ EndRead (w.read ++ more) [] :=
    fun more => ⟨fun as has q hq => (hm.held as has q hq).extend, forall_mem_nil _⟩
  cases ev with
  | read env =>
    by_cases hb : w.pipe.blocked = true
    · have hintake : w.pipe.intake libs (.read env) = (w.pipe, []) := if_pos hb
      rw [hintake]
      exact hnone _
    · rw [Bool.not_eq_true] at hb
      obtain ⟨cur, hr⟩ := plainRead h hb hsteady
      rw [hr.lines]
      exact readIntake_marked h hm hb hr ((offsetsExact_iff h hsteady).2 hlines) hlines
  | assemblerCheck now store =>
    have hread : linesRead libs w.pipe (.assemblerCheck now store) = [] := rfl
    rw [hread, append_nil]
    exact drainIntake_marked hm (EntryAssembler.checkTimeout_lines now)
  | flush store =>
    have hread : linesRead libs w.pipe (.flush store) = [] := rfl
    rw [hread, append_nil]
    exact drainIntake_marked hm EntryAssembler.flush_lines
  | drain env | checkpoint saved | overflowElsewhere store => exact hnone _

theorem step_marked (hsteady : w.Steady libs ev) (hlines : w.LinesExact libs ev) :
    (w.step libs ev).Marked := by
  obtain ⟨hheld, hitems⟩ := intake_marked h hm hsteady hlines
  constructor
  · apply step_batches libs
      (P := fun _ _ stop => ∃ l ∈ (w.step libs ev).read, stop = l.stop)
    · intro b hb
      obtain ⟨l, hl, hstop⟩ := hm.batches b hb
      exact ⟨l, mem_append_left _ hl, hstop⟩
    · exact fun item hitem => hitems item (added_subset item hitem)
  · simp only [step, (w.pipe.step_source libs ev).2.1]
    exact hheld

omit h in
theorem step_onBoundaries (hb : w.OnBoundaries) (ev : Event) : (w.step libs ev).OnBoundaries := by
  have hextend : ∀ n, (∃ l ∈ w.read, n = l.start ∨ n = l.stop) →
      ∃ l ∈ (w.step libs ev).read, n = l.start ∨ n = l.stop := by
    rintro n ⟨l, hl, hn⟩
    exact ⟨l, mem_append_left _ hl, hn⟩
  intro cp hcp
  apply hextend
  rcases mem_append.1 hcp with hold | hnew
  · exact hb cp hold
  · have hnext := saves_eq_some (Option.mem_toList.1 hnew)
    rcases nextCheckpoint_offset hnext with ⟨a, ha, hoffset⟩ | hceiling
    · obtain ⟨l, hl, hstop⟩ := hm.batches a (BatchTracker.mem_ackedPrefix ha).1
      exact ⟨l, hl, .inr (hoffset.trans hstop)⟩
    · obtain ⟨as, has, q, hq, x, hx, hstart⟩ := exists_of_ceiling hceiling
      obtain ⟨l, hl, hl', -⟩ := hm.held as has q hq x hx
      exact ⟨l, hl, .inl (hstart.symm.trans hl')⟩

/-! ## Runs -/

omit h hm

/-- For every file and every split of its reading into cycles, among any other cycles: the offset
attributed to the end of each line is the position just past the line, in every cycle, exactly when
the lines of every cycle meet `LinesExact`; and then every checkpoint saved is the start or the end
of a line. -/
theorem offsetsExact_iff_linesExact (libs : Externals) (t : FileTailer)
    (haligned : t.state.Aligned) (table : SeqTable Bytes) (bufferMaxMb : Nat)
    (persisted : Option Checkpoint) (config : PipelineConfig) (sourceId : String)
    (overflow : Option Writer) (multiline : Option MultilineConfig) (events : List Event)
    (hsteady : Each (step libs) (Steady libs) (start (.file t) table bufferMaxMb persisted config
      sourceId overflow multiline) events) :
    (Each (step libs) (OffsetsExact libs) (start (.file t) table bufferMaxMb persisted config
        sourceId overflow multiline) events ↔
      Each (step libs) (LinesExact libs) (start (.file t) table bufferMaxMb persisted config
        sourceId overflow multiline) events) ∧
    (Each (step libs) (LinesExact libs) (start (.file t) table bufferMaxMb persisted config
        sourceId overflow multiline) events →
      Always (step libs) OnBoundaries (start (.file t) table bufferMaxMb persisted config sourceId
        overflow multiline) events) := by
  constructor
  · exact each_iff_each (I := fun w : ReadLog => ∃ t, w.Level t)
      (fun w ev ⟨_, h⟩ hs => step_level h hs) (fun w ev ⟨_, h⟩ hs => offsetsExact_iff h hs)
      ⟨t, rfl, haligned, fun _ => rfl⟩ hsteady
  · intro hlines
    have hmarked : (start (.file t) table bufferMaxMb persisted config sourceId overflow
        multiline).Marked := by
      refine ⟨forall_mem_nil _, ?_⟩
      intro as has
      obtain ⟨cfg, -, rfl⟩ := Option.map_eq_some_iff.1 has
      exact forall_mem_singleton.2 (forall_mem_nil _)
    have hrun := always_of_each
      (I := fun w : ReadLog => (∃ t, w.Level t) ∧ w.Marked ∧ w.OnBoundaries)
      (fun w ev ⟨⟨_, h⟩, hm, hb⟩ hc =>
        ⟨step_level h hc.1, step_marked h hm hc.1 hc.2, step_onBoundaries hm hb ev⟩)
      ⟨⟨t, rfl, haligned, fun _ => rfl⟩, hmarked, forall_mem_nil _⟩ (hsteady.and hlines)
    exact hrun.mono fun w h => h.2.2

/-- Lines that end in a line feed, read in two cycles, with a checkpoint. -/
def lfFile : List Event :=
  [.readFile 7 (ascii "a\n"), .readFile 7 (ascii "a\nbc\nd\n"), .deliver 2, .checkpoint true]

theorem offsetsExact_lf_file :
    Each (step plainExternals) (OffsetsExact plainExternals) plainStart lfFile ∧
      Always (step plainExternals) OnBoundaries plainStart lfFile :=
  have h := offsetsExact_iff_linesExact plainExternals (.pending .fromStart)
    (TailerState.aligned_pending _) (SeqTable.empty 0) 1 none ⟨10, 1000⟩ "app" none none lfFile
    (by decide +kernel)
  ⟨h.1.2 (by decide +kernel), h.2 (by decide +kernel)⟩

/-- Two lines that end in CRLF; the first is delivered, and a checkpoint is made. -/
def crlfFile : List Event := [.readFile 7 (ascii "a\r\nb\r\n"), .deliver 1, .checkpoint true]

/-- The first line ends at byte 3 and is recorded as ending at 4, past the text of the second. -/
theorem crlf_checkpoint_inside_line :
    (crlfFile.foldl (step plainExternals) plainStart).read.map stop = [3, 6] ∧
      (crlfFile.foldl (step plainExternals) plainStart).pipe.persisted = some ⟨4, 7⟩ ∧
      (crlfFile.foldl (step plainExternals) plainStart).pipe.buffer.seqs = [2] ∧
      ¬ Each (step plainExternals) (OffsetsExact plainExternals) plainStart crlfFile ∧
      ¬ Always (step plainExternals) OnBoundaries plainStart crlfFile := by
  refine ⟨by decide +kernel, by decide +kernel, by decide +kernel, ?_, ?_⟩
  · decide +kernel
  · decide +kernel

end ReadLog

end EdgePacer.FilePipeline
