import EdgePacer.FilePipeline.Effects
import EdgePacer.FilePipeline.Accounting

/-!
# Recorded byte ranges and the bytes read

The pipeline does not take the byte range of a line from the tailer. Without assembly it counts
back from the tailer's position by the lengths of the lines; with assembly it counts up from a
running offset of its own. The range is recorded under the inode the tailer has after the read.

Both counts are right as long as they stay within the part of the current file that was read. A
read *fits* (`Fits`) when it takes nothing from a rotated file, every line took at least the bytes
that are counted for it, and the tailer opens, changes or resets its file only while nothing waits
to be counted and no batch of that file ends past where it goes. `inside_of_fits` proves for every
run of reads that fit that every recorded range lies inside the bytes read of its inode, and that no
checkpoint points past the position that the reader has in its inode when it is saved.
`rotation_records_unread_bytes` is a rotation that breaks it: a line drained from the old file is
recorded under the new inode.
-/

namespace EdgePacer.FilePipeline

open Lib Delivery Source List DeliveryPipeline LogTailer Option EntryAssembler

/-! ## Bytes read -/

/-- Every byte from `lo` to `hi` of the file was read. -/
def Covered (read : List TailLine) (inode lo hi : Nat) : Prop :=
  ∀ x < hi, lo ≤ x → ∃ l ∈ read, l.inode = inode ∧ l.start ≤ x ∧ x < l.stop

instance (read : List TailLine) (inode lo hi : Nat) : Decidable (Covered read inode lo hi) :=
  inferInstanceAs (Decidable (∀ x < hi, _))

namespace Covered

variable {read more : List TailLine} {inode lo mid hi : Nat}

theorem extend (h : Covered read inode lo hi) : Covered (read ++ more) inode lo hi := by
  intro x hx hlo
  obtain ⟨l, hl, hin⟩ := h x hx hlo
  exact ⟨l, mem_append_left _ hl, hin⟩

theorem sub {lo' hi' : Nat} (h : Covered read inode lo hi) (hlo : lo ≤ lo') (hhi : hi' ≤ hi) :
    Covered read inode lo' hi' :=
  fun x hx hx' => h x (lt_of_lt_of_le hx hhi) (hlo.trans hx')

theorem join (h : Covered read inode lo mid) (h' : Covered read inode mid hi) :
    Covered read inode lo hi := by
  intro x hx hlo
  by_cases hmid : x < mid
  · exact h x hmid hlo
  · exact h' x hx (Nat.le_of_not_lt hmid)

theorem of_contiguous (h : Contiguous inode lo more hi) : Covered (read ++ more) inode lo hi := by
  intro x hx hlo
  obtain ⟨l, hl, hin⟩ := h.exists_mem hlo hx
  exact ⟨l, mem_append_right _ hl, hin⟩

end Covered

/-! ## The pipeline with its reads -/

/-- The pipeline with every line its tailer read, the position at which reading the current file
began, the checkpoints saved, and the reader's position in each inode: where it stands in the
current file, and where it stood last in the others. -/
structure ReadLog where
  pipe : DeliveryPipeline
  read : List TailLine
  origin : Nat
  saved : List Checkpoint
  position : Nat → Nat

/-- Whether a read opens, changes or resets the file before it reads. -/
def moves (t : FileTailer) (view : FileView) : Bool :=
  decide ((t.prepare view).2.state.offset ≠ t.state.offset ∨
    (t.prepare view).2.state.inode ≠ t.state.inode)

namespace ReadLog

variable (libs : Externals)

/-- The lines an event reads off the file. -/
def linesRead (p : DeliveryPipeline) : Event → List TailLine
  | .read env =>
      if p.blocked then []
      else
        match p.tailer.fileTailer with
        | none => []
        | some t => (t.readLines libs.utf16 env.view.file p.config.batchSize).1
  | _ => []

/-- Where reading the file that is current after an event began. -/
def nextOrigin (w : ReadLog) : Event → Nat
  | .read env =>
      if w.pipe.blocked then w.origin
      else
        match w.pipe.tailer.fileTailer with
        | none => w.origin
        | some t =>
            if moves t env.view.file then (t.prepare env.view.file).2.state.offset else w.origin
  | _ => w.origin

def step (w : ReadLog) (ev : Event) : ReadLog where
  pipe := w.pipe.step libs ev
  read := w.read ++ linesRead libs w.pipe ev
  origin := w.nextOrigin ev
  saved := w.saved ++ (w.pipe.saves ev).toList
  position :=
    let here := (w.pipe.step libs ev).tailer.position
    Function.update w.position here.inode here.offset

/-- The ends of the recorded ranges, and the checkpoint that was saved last. -/
def marks (w : ReadLog) : List Checkpoint :=
  w.saved.getLast?.toList ++ w.pipe.tracker.batches.map fun b => ⟨b.endOffset, b.inode⟩

/-- Every recorded range lies inside the bytes read of its inode, and neither a range nor the last
checkpoint ends past the reader's position in its inode. -/
def Inside (w : ReadLog) : Prop :=
  (∀ b ∈ w.pipe.tracker.batches, Covered w.read b.inode b.startOffset b.endOffset) ∧
  ∀ m ∈ w.marks, m.offset ≤ w.position m.inode

instance (w : ReadLog) : Decidable w.Inside := inferInstanceAs (Decidable (_ ∧ _))

/-- The offset from which the lines of a read are counted. -/
def firstOffset (p : DeliveryPipeline) (env : ReadEnv) : Nat :=
  let read := p.tailer.readLines libs env.view p.config.batchSize
  match p.assemblers with
  | none => nextOffset read.2 - (read.1.map TailedLine.sourceLen).sum
  | some _ => p.runningOffset

/-- Nothing waits to be counted: no fragment, and with assembly no line, and the count goes on
where the tailer will read. -/
def NothingWaits (p : DeliveryPipeline) (t : FileTailer) (view : FileView) : Prop :=
  p.tailer.pendingPartialBytes = 0 ∧
    (p.assemblers.isNone ∨
      p.checkpointCeiling = none ∧ p.runningOffset = (t.prepare view).2.state.offset)

/-- Nothing that is recorded of the file that is read next ends past where its reading starts. -/
def NothingAhead (w : ReadLog) (t : FileTailer) (view : FileView) : Prop :=
  ∀ m ∈ w.marks, m.inode = (t.prepare view).2.state.inode →
    m.offset ≤ (t.prepare view).2.state.offset

/-- A read that fits: the file opened is the one the tailer reports; the tailer opens, changes or
resets its file only while nothing waits and to a place that nothing recorded of the file lies ahead
of; nothing is taken from a rotated file; and every line took at least the bytes counted for it. -/
def Fits (w : ReadLog) : Event → Prop
  | .read env => w.pipe.blocked = false → ∀ t ∈ w.pipe.tailer.fileTailer,
      (∀ r ∈ (t.prepare env.view.file).2.state.reader,
        r.inode = (t.prepare env.view.file).2.state.inode) ∧
      (moves t env.view.file = true →
        NothingWaits w.pipe t env.view.file ∧ w.NothingAhead t env.view.file) ∧
      t.drained libs.utf16 env.view.file w.pipe.config.batchSize = [] ∧
      ∀ l ∈ (t.readLines libs.utf16 env.view.file w.pipe.config.batchSize).1,
        countedLen l ≤ l.consumed
  | _ => True

instance (p : DeliveryPipeline) (t : FileTailer) (view : FileView) :
    Decidable (NothingWaits p t view) := inferInstanceAs (Decidable (_ ∧ _))

instance (w : ReadLog) (t : FileTailer) (view : FileView) : Decidable (w.NothingAhead t view) :=
  inferInstanceAs (Decidable (∀ m ∈ _, _ → _))

instance (libs : Externals) (w : ReadLog) : DecidablePred (w.Fits libs)
  | .read _ => inferInstanceAs (Decidable (_ → _))
  | .assemblerCheck _ _ | .flush _ | .drain _ | .checkpoint _ | .overflowElsewhere _ =>
      inferInstanceAs (Decidable True)

/-! ## Lines and items within the part of the file that was read -/

/-- Lines whose ranges are not empty and lie between `lo` and `hi`. -/
def Within (lo hi : Nat) (lines : List ContextLine) : Prop :=
  ∀ x ∈ lines, lo ≤ x.2.startOffset ∧ x.2.startOffset < x.2.endOffset ∧ x.2.endOffset ≤ hi

theorem Within.split {lo hi : Nat} {xs ys : List ContextLine} (h : Within lo hi (xs ++ ys)) :
    Within lo hi xs ∧ Within lo hi ys :=
  ⟨(forall_mem_append.1 h).1, (forall_mem_append.1 h).2⟩

theorem Within.mono {lo hi hi' : Nat} {xs : List ContextLine} (h : Within lo hi xs)
    (hle : hi ≤ hi') : Within lo hi' xs :=
  fun x hx => ⟨(h x hx).1, (h x hx).2.1, (h x hx).2.2.trans hle⟩

/-- Items whose ranges lie between `lo` and `hi`. -/
def Bounded (lo hi : Nat) (items : List Item) : Prop :=
  ∀ item ∈ items, lo < hi ∧ lo ≤ item.start ∧ item.stop ≤ hi

theorem bounded_nil (lo hi : Nat) : Bounded lo hi [] := forall_mem_nil _

theorem bounded_events {lo hi : Nat} {evs : List StreamEvent}
    (h : ∀ ev ∈ evs, Within lo hi ev.2.lines) : Bounded lo hi (evs.map eventItem) := by
  intro item hitem
  obtain ⟨ev, hev, rfl⟩ := mem_map.1 hitem
  have hfirst := h ev hev ev.2.head mem_cons_self
  have hlast := h ev hev (ev.2.tail.getLastD ev.2.head) getLastD_mem_cons
  refine ⟨?_, hfirst.1, hlast.2.2⟩
  omega

theorem bounded_batchItems (lines : List TailedLine) :
    (∀ line ∈ lines, 0 < line.sourceLen) → ∀ start,
      Bounded start (start + (lines.map TailedLine.sourceLen).sum) (batchItems start lines) := by
  induction lines with
  | nil => exact fun _ start => bounded_nil _ _
  | cons line lines ih =>
    intro hpos start item hitem
    have hline := hpos line mem_cons_self
    have hrest := ih ((forall_mem_cons.1 hpos).2) (start + line.sourceLen)
    rw [map_cons, sum_cons]
    rw [batchItems] at hitem
    split at hitem
    · have := hrest item hitem
      omega
    · rcases mem_cons.1 hitem with rfl | hitem
      · dsimp only
        omega
      · have := hrest item hitem
        omega

/-- Where the tailer stands, and that the bytes since the origin were read and hold the lines in
the assemblers. -/
structure Anchored (w : ReadLog) (t : FileTailer) : Prop where
  tailer : w.pipe.tailer.fileTailer = some t
  aligned : t.state.Aligned
  pending : w.origin + w.pipe.tailer.pendingPartialBytes ≤ t.state.offset
  running : w.pipe.assemblers ≠ none → w.origin ≤ w.pipe.runningOffset ∧
    w.pipe.runningOffset + w.pipe.tailer.pendingPartialBytes ≤ t.state.offset
  covered : Covered w.read t.state.inode w.origin t.state.offset
  held : ∀ as ∈ w.pipe.assemblers, ∀ q ∈ as.perStream, Within w.origin t.state.offset q.2.buffer
  stands : w.position t.state.inode = t.state.offset

variable {libs : Externals} {w : ReadLog} {t : FileTailer} {env : ReadEnv}

/-- Without a ceiling no assembler holds a line. -/
theorem buffer_eq_nil_of_ceiling {p : DeliveryPipeline} (h : p.checkpointCeiling = none)
    {as : StreamAssemblers} (has : p.assemblers = some as) :
    ∀ q ∈ as.perStream, q.2.buffer = [] := by
  intro q hq
  rw [checkpointCeiling, has, bind_some,
    StreamAssemblers.bufferedStartOffset, List.min?_eq_none_iff, filterMap_eq_nil_iff] at h
  have hnone := h q hq
  cases hbuf : q.2.buffer with
  | nil => rfl
  | cons x xs => simp [bufferedStartOffset, hbuf] at hnone

theorem of_not_moves {view : FileView} (h : moves t view = false) :
    (t.prepare view).2.state.offset = t.state.offset ∧
      (t.prepare view).2.state.inode = t.state.inode := by
  rw [moves, decide_eq_false_iff_not] at h
  omega

/-- The lengths of the lines of a read, and of the fragments that wait after it, fit between the
origin and the tailer's position. -/
def Accounted (libs : Externals) (w : ReadLog) (t : FileTailer) (env : ReadEnv) : Prop :=
  let read := w.pipe.tailer.readLines libs env.view w.pipe.config.batchSize
  w.nextOrigin (.read env) ≤ firstOffset libs w.pipe env ∧
    firstOffset libs w.pipe env + (read.1.map TailedLine.sourceLen).sum +
        read.2.pendingPartialBytes ≤
      (t.readLines libs.utf16 env.view.file w.pipe.config.batchSize).2.state.offset

/-- Nothing recorded of the file at which the tailer stands is left ahead of it. -/
def LeavesBehind (w : ReadLog) (t' : FileTailer) : Prop :=
  ∀ m ∈ w.marks, m.inode = t'.state.inode → m.offset ≤ w.position m.inode →
    m.offset ≤ t'.state.offset

/-- What a step does to a pipeline that is anchored at `t`: it is anchored again, with nothing
ahead, and the items it takes in lie within the part of the file that was read. -/
def Progress (libs : Externals) (w : ReadLog) (ev : Event) : Prop :=
  ∃ t', (w.step libs ev).Anchored t' ∧ w.LeavesBehind t' ∧
    Bounded (w.nextOrigin ev) t'.state.offset (w.pipe.intake libs ev).2

/-- What holds once the input of an event is taken in: the tailer, the running offset, the lines in
the assemblers and the items fit into the part of the file that was read. -/
structure TakenIn (p : DeliveryPipeline) (t : FileTailer) (origin : Nat) (items : List Item) :
    Prop where
  tailer : p.tailer.fileTailer = some t
  pending : origin + p.tailer.pendingPartialBytes ≤ t.state.offset
  running : p.assemblers ≠ none → origin ≤ p.runningOffset ∧
    p.runningOffset + p.tailer.pendingPartialBytes ≤ t.state.offset
  held : ∀ as ∈ p.assemblers, ∀ q ∈ as.perStream, Within origin t.state.offset q.2.buffer
  items : Bounded origin t.state.offset items

/-- A step is anchored by what its intake leaves and what it reads. -/
theorem progress_of_takenIn {ev : Event} {t' : FileTailer} (haligned : t'.state.Aligned)
    (hcovered : Covered (w.read ++ linesRead libs w.pipe ev) t'.state.inode (w.nextOrigin ev)
      t'.state.offset)
    (hbehind : w.LeavesBehind t')
    (h : TakenIn (w.pipe.intake libs ev).1 t' (w.nextOrigin ev) (w.pipe.intake libs ev).2) :
    w.Progress libs ev := by
  obtain ⟨htailer, hasm, hrun⟩ := w.pipe.step_source libs ev
  refine ⟨t', ⟨?_, haligned, ?_, ?_, hcovered, ?_, ?_⟩, hbehind, h.items⟩
  · simp only [step, htailer]
    exact h.tailer
  · simp only [step, htailer]
    exact h.pending
  · simp only [step, htailer, hasm, hrun]
    exact h.running
  · simp only [step, hasm]
    exact h.held
  · simp only [step, htailer, position_of_fileTailer h.tailer, Function.update_self]

section

variable (h : w.Anchored t)

include h

/-- A tailer that stays in its file and does not go back. -/
theorem leavesBehind_of_le {t' : FileTailer} (hinode : t'.state.inode = t.state.inode)
    (hle : t.state.offset ≤ t'.state.offset) : w.LeavesBehind t' := by
  intro b _ hb hbehind
  rw [hb, hinode, h.stands] at hbehind
  exact hbehind.trans hle

theorem takenIn_nil : TakenIn w.pipe t w.origin [] :=
  ⟨h.tailer, h.pending, h.running, h.held, bounded_nil _ _⟩

/-- The tailer's next offset, by its position and the fragments that wait. -/
theorem nextOffset_readLines (libs : Externals) (env : ReadEnv) :
    nextOffset
        (w.pipe.tailer.readLines libs env.view w.pipe.config.batchSize).2 =
      (t.readLines libs.utf16 env.view.file w.pipe.config.batchSize).2.state.offset -
        (w.pipe.tailer.readLines libs env.view w.pipe.config.batchSize).2.pendingPartialBytes := by
  rw [nextOffset, position_of_fileTailer (fileTailer_readLines h.tailer libs env.view _)]

theorem drainIntake_takenIn
    {drain} (hdrain : EntryAssembler.Drains drain) :
    TakenIn (w.pipe.drainIntake drain).1 t w.origin (w.pipe.drainIntake drain).2 := by
  obtain ⟨hheld, evs, hitems, hevents⟩ := drainIntake_rule hdrain (fun xs ys => Within.split) h.held
  obtain ⟨htailer, hrun, hasm⟩ := w.pipe.drainIntake_frame drain
  refine ⟨?_, ?_, ?_, hheld, ?_⟩
  · rw [htailer]
    exact h.tailer
  · rw [htailer]
    exact h.pending
  · rw [htailer, hrun]
    exact fun hne => h.running (hasm hne)
  · rw [hitems]
    exact bounded_events hevents

section

variable (hb : w.pipe.blocked = false)

include hb

theorem nextOrigin_read :
    w.nextOrigin (.read env) =
      if moves t env.view.file then (t.prepare env.view.file).2.state.offset else w.origin := by
  simp only [nextOrigin, hb, h.tailer, Bool.false_eq_true, if_false]

theorem linesRead_read :
    linesRead libs w.pipe (.read env) =
      (t.readLines libs.utf16 env.view.file w.pipe.config.batchSize).1 := by
  simp only [linesRead, hb, h.tailer, Bool.false_eq_true, if_false]

variable (libs) in
/-- A read covers the current file from its origin to the tailer's new position. -/
theorem covered_read
    (hinode : ∀ r ∈ (t.prepare env.view.file).2.state.reader,
      r.inode = (t.prepare env.view.file).2.state.inode) :
    let t' := (t.readLines libs.utf16 env.view.file w.pipe.config.batchSize).2
    t'.state.Aligned ∧
      Covered (w.read ++ linesRead libs w.pipe (.read env)) t'.state.inode
        (w.nextOrigin (.read env)) t'.state.offset ∧
      t'.state.inode = (t.prepare env.view.file).2.state.inode ∧
      (t.prepare env.view.file).2.state.offset ≤ t'.state.offset := by
  intro t'
  obtain ⟨cur, hlines, haligned, hinode', hcur⟩ := FileTailer.readLines_spec h.aligned
    libs.utf16 env.view.file w.pipe.config.batchSize
  -- the new lines cover what lies between the prepared and the final offset
  have hnew : (t.prepare env.view.file).2.state.offset ≤ t'.state.offset ∧
      Covered (w.read ++ linesRead libs w.pipe (.read env)) t'.state.inode
        (t.prepare env.view.file).2.state.offset t'.state.offset := by
    rw [linesRead_read h hb, hlines, hinode', ← append_assoc]
    rcases hcur with ⟨r, hr, hcontig⟩ | ⟨-, hoffset⟩
    · rw [hinode r hr] at hcontig
      exact ⟨hcontig.le, Covered.of_contiguous hcontig⟩
    · refine ⟨le_of_eq hoffset.symm, ?_⟩
      intro x hx hlo
      have hx' : x < (t.prepare env.view.file).2.state.offset := hoffset ▸ hx
      omega
  rw [nextOrigin_read h hb]
  refine ⟨haligned, ?_, hinode', hnew.1⟩
  split
  · exact hnew.2
  · rename_i hmoves
    obtain ⟨hoffset, hinode₂⟩ := of_not_moves (by simpa using hmoves)
    have hold : Covered (w.read ++ linesRead libs w.pipe (.read env)) t'.state.inode w.origin
        t.state.offset := by
      rw [hinode', hinode₂]
      exact h.covered.extend
    rw [hoffset] at hnew
    exact hold.join hnew.2

/-- A read that is accounted for. -/
theorem readIntake_takenIn
    (hacc : w.Accounted libs t env)
    (hheld : ∀ as ∈ w.pipe.assemblers, ∀ q ∈ as.perStream, Within (w.nextOrigin (.read env))
      (t.readLines libs.utf16 env.view.file w.pipe.config.batchSize).2.state.offset q.2.buffer) :
    TakenIn (w.pipe.readIntake libs env).1
      (t.readLines libs.utf16 env.view.file w.pipe.config.batchSize).2
      (w.nextOrigin (.read env)) (w.pipe.readIntake libs env).2 := by
  have htailer := fileTailer_readLines h.tailer libs env.view w.pipe.config.batchSize
  have hpos := sourceLen_pos h.tailer libs env.view w.pipe.config.batchSize
  have hnext := nextOffset_readLines h libs env
  obtain ⟨horigin, hsum⟩ := hacc
  rw [firstOffset] at horigin hsum
  generalize hread : w.pipe.tailer.readLines libs env.view w.pipe.config.batchSize = read
    at htailer hpos hnext horigin hsum
  generalize (t.readLines libs.utf16 env.view.file w.pipe.config.batchSize).2 = t',
    w.nextOrigin (.read env) = origin at *
  rcases readIntake_cases hb hread with ⟨hnil, heq⟩ | ⟨hasm, heq⟩ | ⟨as, hasm, heq⟩ <;> rw [heq]
  · -- without lines the running offset stays
    refine ⟨htailer, by dsimp only; omega, fun hne => ?_, hheld, bounded_nil _ _⟩
    obtain ⟨as, hasm⟩ := ne_none_iff_exists'.1 hne
    rw [hasm] at horigin hsum
    dsimp only at horigin hsum ⊢
    omega
  · rw [hasm] at horigin hsum
    refine ⟨htailer, by dsimp only; omega, fun hne => absurd hasm hne, ?_, ?_⟩
    · rw [hasm]
      rintro as ⟨⟩
    · intro item hitem
      have := bounded_batchItems _ hpos _ item hitem
      omega
  · rw [hasm] at horigin hsum
    dsimp only at horigin hsum
    obtain ⟨hbuffers, hevents⟩ := feed_rule read.2.position.inode env.clock
      (Q := fun n buf => n ≤ t'.state.offset → Within origin t'.state.offset buf)
      nofun
      (fun n m buf hbuf hn => hbuf (by omega))
      (fun n xs ys hxs => ⟨fun hn => (hxs hn).split.1, fun hn => (hxs hn).split.2⟩)
      read.1 w.pipe.runningOffset 0 as
      (by
        intro before line rest buf hlines hbuf hle x hx
        rcases mem_append.1 hx with hx | hx
        · exact hbuf (by omega) x hx
        · rw [mem_singleton.1 hx]
          have := hpos line (hlines ▸ by simp)
          dsimp only
          omega)
      (fun q hq _ => hheld as hasm q hq)
    refine ⟨htailer, by dsimp only; omega, fun _ => by dsimp only; omega, ?_, ?_⟩
    · rintro as' ⟨⟩ q hq
      exact hbuffers q hq (by omega)
    · exact bounded_events fun ev hev => hevents ev hev (by omega)

variable (hmoves : moves t env.view.file = true → NothingWaits w.pipe t env.view.file)

include hmoves

/-- The lines in the assemblers stay within the part that was read. -/
theorem held_read {hi : Nat}
    (hhi : moves t env.view.file = false → t.state.offset ≤ hi) :
    ∀ as ∈ w.pipe.assemblers, ∀ q ∈ as.perStream,
      Within (w.nextOrigin (.read env)) hi q.2.buffer := by
  intro as has q hq
  rw [nextOrigin_read h hb]
  split
  · rename_i hm
    rcases (hmoves hm).2 with hnone | ⟨hceiling, -⟩
    · rw [has] at hnone
      cases hnone
    · rw [buffer_eq_nil_of_ceiling hceiling has q hq]
      exact forall_mem_nil _
  · rename_i hm
    exact (h.held as has q hq).mono (hhi (by simpa using hm))

/-- Before the lines of a read are counted, the fragments that wait, and with assembly the running
offset, lie between the origin and the offset at which reading starts. -/
theorem room_before_read :
    w.nextOrigin (.read env) + w.pipe.tailer.pendingPartialBytes ≤
        (t.prepare env.view.file).2.state.offset ∧
      (w.pipe.assemblers ≠ none → w.nextOrigin (.read env) ≤ w.pipe.runningOffset ∧
        w.pipe.runningOffset + w.pipe.tailer.pendingPartialBytes ≤
          (t.prepare env.view.file).2.state.offset) := by
  rw [nextOrigin_read h hb]
  split
  · rename_i hm
    obtain ⟨hpending, hassembly⟩ := hmoves hm
    refine ⟨le_of_eq (by rw [hpending, Nat.add_zero]), fun hne => ?_⟩
    rcases hassembly with hnone | ⟨-, hrun⟩
    · exact absurd (isNone_iff_eq_none.1 hnone) hne
    · rw [hpending, hrun]
      exact ⟨le_rfl, le_rfl⟩
  · rename_i hm
    rw [(of_not_moves (by simpa using hm)).1]
    exact ⟨h.pending, h.running⟩

theorem accounted
    (hdrained : t.drained libs.utf16 env.view.file w.pipe.config.batchSize = [])
    (hlen : ∀ l ∈ (t.readLines libs.utf16 env.view.file w.pipe.config.batchSize).1,
      countedLen l ≤ l.consumed) : w.Accounted libs t env := by
  have haccounts := accounts h.tailer libs env.view w.pipe.config.batchSize
  have hcounted := FileTailer.counted_le h.aligned hdrained hlen
  obtain ⟨hroom, hrunning⟩ := room_before_read h hb hmoves
  rw [Accounted, firstOffset]
  cases hasm : w.pipe.assemblers with
  | none =>
    dsimp only
    rw [nextOffset_readLines h libs env]
    omega
  | some as =>
    have := hrunning (by simp [hasm])
    dsimp only
    omega

end

theorem read_progress (hfits : w.Fits libs (.read env)) : w.Progress libs (.read env) := by
  by_cases hb : w.pipe.blocked = true
  · -- a blocked pipeline does not read
    have hread : linesRead libs w.pipe (.read env) = [] := if_pos hb
    have horigin : w.nextOrigin (.read env) = w.origin := if_pos hb
    apply progress_of_takenIn h.aligned
    · rw [hread, horigin, append_nil]
      exact h.covered
    · exact leavesBehind_of_le h rfl le_rfl
    · rw [intake, readIntake_blocked hb, horigin]
      exact takenIn_nil h
  · rw [Bool.not_eq_true] at hb
    obtain ⟨hinode, hmoves, hdrained, hlen⟩ := hfits hb t h.tailer
    obtain ⟨haligned, hcovered, hinode', hstart⟩ := covered_read libs h hb hinode
    have hhi : moves t env.view.file = false → t.state.offset ≤
        (t.readLines libs.utf16 env.view.file w.pipe.config.batchSize).2.state.offset :=
      fun hm => (of_not_moves hm).1 ▸ hstart
    have hwaits := fun hm => (hmoves hm).1
    apply progress_of_takenIn haligned hcovered
    · cases hm : moves t env.view.file with
      | true => exact fun b hb hbi _ => ((hmoves hm).2 b hb (hbi.trans hinode')).trans hstart
      | false => exact leavesBehind_of_le h (hinode'.trans (of_not_moves hm).2) (hhi hm)
    · exact readIntake_takenIn h hb (accounted h hb hwaits hdrained hlen)
        (held_read h hb hwaits hhi)

theorem step_progress {ev : Event} (hfits : w.Fits libs ev) : w.Progress libs ev := by
  have hcovered : Covered (w.read ++ []) t.state.inode w.origin t.state.offset := by
    rw [append_nil]
    exact h.covered
  have hbehind : w.LeavesBehind t := leavesBehind_of_le h rfl le_rfl
  cases ev with
  | read env => exact read_progress h hfits
  | assemblerCheck now store =>
    exact progress_of_takenIn h.aligned hcovered hbehind
      (drainIntake_takenIn h (checkTimeout_lines now))
  | flush store =>
    exact progress_of_takenIn h.aligned hcovered hbehind (drainIntake_takenIn h flush_lines)
  | drain env | checkpoint saved | overflowElsewhere store =>
    exact progress_of_takenIn h.aligned hcovered hbehind (takenIn_nil h)

end

/-- What is recorded after a step was recorded before, is of an item taken in, or is a checkpoint
that ends at or before a batch of the tracker. -/
theorem step_inside (hin : w.Inside) {ev : Event} (hprog : w.Progress libs ev) :
    (w.step libs ev).Inside := by
  obtain ⟨t', hanchored, hbehind, hitems⟩ := hprog
  have hhere := position_of_fileTailer hanchored.tailer
  have hinode : (w.pipe.intake libs ev).1.tailer.position.inode = t'.state.inode := by
    rw [← (w.pipe.step_source libs ev).1]
    exact congrArg ReadPosition.inode hhere
  have hold : ∀ m ∈ w.marks, m.offset ≤ (w.step libs ev).position m.inode := by
    intro m hm
    by_cases hmi : m.inode = t'.state.inode
    · rw [hmi, hanchored.stands]
      exact hbehind m hm hmi (hin.2 m hm)
    · have hother : (w.step libs ev).position m.inode = w.position m.inode := by
        refine Function.update_of_ne ?_ ..
        exact fun heq => hmi (heq.trans (congrArg ReadPosition.inode hhere))
      rw [hother]
      exact hin.2 m hm
  have hbatch : ∀ b ∈ w.pipe.tracker.batches,
      b.endOffset ≤ (w.step libs ev).position b.inode := fun b hb =>
    hold ⟨b.endOffset, b.inode⟩ (mem_append_right _ (mem_map_of_mem hb))
  have hbatches := step_batches libs
    (P := fun inode start stop => Covered (w.step libs ev).read inode start stop ∧
      stop ≤ (w.step libs ev).position inode)
    (fun b hb => ⟨(hin.1 b hb).extend, hbatch b hb⟩)
    (by
      intro item hitem
      obtain ⟨-, hstart, hstop⟩ := hitems item (added_subset item hitem)
      rw [hinode, hanchored.stands]
      exact ⟨hanchored.covered.sub hstart hstop, hstop⟩)
  refine ⟨fun b hb => (hbatches b hb).1, fun m hm => ?_⟩
  rcases mem_append.1 hm with hm | hm
  · cases hsaves : w.pipe.saves ev with
    | none =>
      rw [step, hsaves, Option.toList_none, append_nil] at hm
      exact hold m (mem_append_left _ hm)
    | some cp =>
      rw [step, hsaves, Option.toList_some, getLast?_concat] at hm
      obtain ⟨⟨a, ha, hle, hcp⟩, -⟩ := nextCheckpoint_spec (saves_eq_some hsaves)
      rw [mem_singleton.1 hm, hcp]
      exact hle.trans (hbatch a (BatchTracker.mem_ackedPrefix ha).1)
  · obtain ⟨b, hb, rfl⟩ := mem_map.1 hm
    exact (hbatches b hb).2

/-! ## Runs -/

variable (libs : Externals) (docker : Bool) (t : FileTailer) (haligned : t.state.Aligned)
  (tailer : LogTailer) (table : SeqTable Bytes) (bufferMaxMb : Nat) (persisted : Option Checkpoint)
  (config : PipelineConfig) (sourceId : String) (overflow : Option Writer)
  (multiline : Option MultilineConfig)

/-- A source as it starts, over whatever buffer and overflow store there is. -/
def start : ReadLog :=
  ⟨.start tailer table bufferMaxMb persisted config sourceId overflow
    (multiline.map MultilineConfig.assemblers), [], tailer.position.offset, [],
    fun _ => tailer.position.offset⟩

include haligned

theorem start_anchored :
    (start (.ofFile docker t) table bufferMaxMb persisted config sourceId overflow
      multiline).Anchored t := by
  have htailer : (ofFile docker t).fileTailer = some t := by cases docker <;> rfl
  have hpending : (ofFile docker t).pendingPartialBytes = 0 := by cases docker <;> rfl
  have horigin : (ofFile docker t).position.offset = t.state.offset := by
    rw [position_of_fileTailer htailer]
  refine ⟨htailer, haligned, ?_, fun _ => ⟨le_rfl, ?_⟩, ?_, ?_, horigin⟩
  · exact le_of_eq ((congrArg₂ _ horigin hpending).trans (Nat.add_zero _))
  · exact le_of_eq ((congrArg₂ _ horigin hpending).trans (Nat.add_zero _))
  · intro x hx hlo
    have hlo' : (ofFile docker t).position.offset ≤ x := hlo
    omega
  · intro as has
    obtain ⟨cfg, -, rfl⟩ := map_eq_some_iff.1 has
    exact forall_mem_singleton.2 (forall_mem_nil _)

/-- In every run of a tailed file, plain or json-file, with or without assembly, whose reads fit:
in every state, every range recorded for a batch lies inside the bytes read of its inode, and the
checkpoint that was saved last does not point past the reader's position in its inode. -/
theorem inside_of_fits (events : List Event)
    (hevents : Each (step libs) (Fits libs) (start (.ofFile docker t) table bufferMaxMb persisted
      config sourceId overflow multiline) events) :
    Always (step libs) Inside (start (.ofFile docker t) table bufferMaxMb persisted config sourceId
      overflow multiline) events := by
  have hstart := start_anchored docker t haligned table bufferMaxMb persisted config sourceId
    overflow multiline
  have hrun := always_of_each (I := fun w : ReadLog => (∃ t, w.Anchored t) ∧ w.Inside)
    (fun w ev ⟨⟨t, h⟩, hin⟩ hfits =>
      have hprog := step_progress h hfits
      ⟨hprog.imp fun t' h' => h'.1, step_inside hin hprog⟩)
    ⟨⟨t, hstart⟩, forall_mem_nil _, forall_mem_nil _⟩ hevents
  exact hrun.mono fun w h => h.2

omit haligned

/-- A plain file, read from its start. -/
def plainStart : ReadLog :=
  start (.file (.pending .fromStart)) (SeqTable.empty 0) 1 none ⟨10, 1000⟩ "app" none none

/-- Two reads of a growing file, with a delivery and a checkpoint. -/
def growingFile : List Event :=
  [.readFile 7 (ascii "a\r\nb\n"), .readFile 7 (ascii "a\r\nb\nc\n"), .deliver 10, .checkpoint true]

theorem inside_growing_file :
    Each (step plainExternals) (Fits plainExternals) plainStart growingFile ∧
      Always (step plainExternals) Inside plainStart growingFile :=
  ⟨by decide +kernel, inside_of_fits plainExternals false (.pending .fromStart)
    (TailerState.aligned_pending _) (SeqTable.empty 0) 1 none ⟨10, 1000⟩ "app" none none
    growingFile (by decide +kernel)⟩

/-- A line is read; another is written, the file is moved away, and an empty one takes its place
before the next read. -/
def rotation : List Event :=
  [.readFile 7 (ascii "a\n"), .readRotated 7 8 (ascii "a\nb\n") [], .deliver 10, .checkpoint true]

/-- The line drained from the old file is recorded as bytes 0 to 2 of the new one, of which none
was read, and the checkpoint points there. -/
theorem rotation_records_unread_bytes :
    (rotation.foldl (step plainExternals) plainStart).pipe.persisted = some ⟨2, 8⟩ ∧
      (rotation.foldl (step plainExternals) plainStart).pipe.tailer.position = ⟨0, 8⟩ ∧
      (rotation.foldl (step plainExternals) plainStart).read.map TailLine.inode = [7, 7] ∧
      ¬ Always (step plainExternals) Inside plainStart rotation := by
  decide +kernel

end ReadLog

end EdgePacer.FilePipeline
