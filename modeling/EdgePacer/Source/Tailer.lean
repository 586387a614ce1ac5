import EdgePacer.Source.Line

/-!
# The file tailer

A tailer follows a path: it opens the file lazily, notices when the path leads to another file or
the file shrank, drains what is left of a rotated file and reads new lines. Each call sees the file
system through a `FileView`, which leaves every answer open: what opening the path gives, what its
metadata says (possibly of another file: the calls are not atomic), what opening it again for a
rotation gives, and what the open files contain.

A line that is read keeps where it came from, its file and byte range, beside its payload; the code
keeps only the payload. `readLines_spec` describes a read after the rotation check: first lines
from the rotated file, then contiguous lines from the current one, by which the offset advances.
-/

namespace EdgePacer.Source

open List

/-! ## What a call sees of the file system -/

/-- The result of a file-system call on a path: `unavailable` for the two errors that are retried
later (not found, permission denied), `failed` for the others. -/
inductive Access (α : Type) where
  | found (value : α)
  | unavailable
  | failed

structure FileStat where
  (inode size modtime : Nat)
  deriving DecidableEq

/-- A freshly opened file: its metadata, its first three bytes, and where seeking to the end
leads. -/
structure OpenedFile where
  stat : FileStat
  head : Bytes
  endPos : Nat

/-- What the file system answers during one read. -/
structure FileView where
  /-- Opening the path, while the tailer has no file yet. -/
  opened : Access OpenedFile
  /-- The path's metadata, when the tailer looks for a rotation. -/
  observed : Access FileStat
  /-- Opening the path once a rotation was found: the new file's inode. -/
  reopened : Access Nat
  /-- The content of each open file. -/
  content : Nat → Bytes

/-- A file with the given content lies at the path, with modification time 1. -/
def FileView.ofFile (inode : Nat) (content : Bytes) : FileView where
  opened := .found ⟨⟨inode, content.length, 1⟩, content.take 3, content.length⟩
  observed := .found ⟨inode, content.length, 1⟩
  reopened := .found inode
  content := fun i => if i = inode then content else []

/-- The file `old` was moved away and `new` lies at the path. -/
def FileView.rotatedTo (old new : Nat) (oldContent newContent : Bytes) : FileView where
  opened := .found ⟨⟨new, newContent.length, 1⟩, newContent.take 3, newContent.length⟩
  observed := .found ⟨new, newContent.length, 1⟩
  reopened := .found new
  content := fun i => if i = new then newContent else if i = old then oldContent else []

/-! ## State -/

/-- What to do once the file can be opened. -/
inductive PendingOpen where
  | tailFromEnd
  | fromStart
  | checkpoint (cp : Checkpoint)
  deriving DecidableEq

/-- The open file, and the rotated one before it. -/
structure TailerState where
  reader : Option BufReader
  (offset inode modtime size : Nat)
  /-- The reader of a rotated file that is still to be read to its end. -/
  draining : Option BufReader
  pendingOpen : Option PendingOpen
  encoding : LineEncoding
  deriving DecidableEq

/-- A line read: the file and position it was read from, the source bytes it took, and its decoded
and trimmed text. -/
structure TailLine where
  (inode start consumed : Nat)
  payload : Bytes
  deriving DecidableEq

/-- Position just past a line. -/
def TailLine.stop (l : TailLine) : Nat := l.start + l.consumed

namespace TailerState

/-- A tailer without a file. -/
def pending (mode : PendingOpen) : TailerState where
  reader := none
  offset := 0
  inode := 0
  modtime := 0
  size := 0
  draining := none
  pendingOpen := some mode
  encoding := .utf8

/-- The position at which a mode starts reading a file that was just opened. -/
def openPos (mode : PendingOpen) (f : OpenedFile) : Nat :=
  match mode with
  | .tailFromEnd => f.endPos
  | .fromStart => 0
  | .checkpoint cp =>
      if f.stat.inode ≠ cp.inode then 0
      else if f.stat.size < cp.offset then 0
      else cp.offset

variable (st : TailerState)

/-- Open the file if none is open yet; `none` is an error to report. -/
def tryUpgradePending (view : FileView) : Option TailerState :=
  match st.pendingOpen with
  | none => some st
  | some mode =>
      match view.opened with
      | .unavailable => some st
      | .failed => none
      | .found f =>
          some
            { st with
              reader := some (BufReader.atPos f.stat.inode (openPos mode f))
              offset := openPos mode f
              inode := f.stat.inode
              modtime := f.stat.modtime
              size := if mode = .tailFromEnd then f.endPos else f.stat.size
              encoding := detectEncoding f.head
              pendingOpen := none }

/-- The signs of a rotation: another inode, a modification time that went back, or a size that
fell below half. -/
def rotated (current : FileStat) : Bool :=
  (current.inode != 0 && st.inode != 0 && current.inode != st.inode) ||
    decide (current.modtime < st.modtime) ||
    (decide (current.size < st.size / 2) && current.modtime != st.modtime)

/-- Switch to the file now at the path and park the old reader, unless an earlier one is still
draining. -/
def beginRotation (current : FileStat) (reopened : Access Nat) : Option TailerState :=
  match reopened with
  | .unavailable => some st
  | .failed => none
  | .found inode =>
      some
        { st with
          reader := some (BufReader.atPos inode 0)
          draining := if st.draining.isSome then st.draining else st.reader
          offset := 0
          inode := current.inode
          size := current.size
          modtime := current.modtime }

/-- Look for a rotation or a truncation; `none` is an error to report. -/
def checkRotation (view : FileView) : Option TailerState :=
  match st.reader with
  | none => some st
  | some r =>
      match view.observed with
      | .unavailable => some st
      | .failed => none
      | .found current =>
          if st.rotated current then st.beginRotation current view.reopened
          else if current.size < st.offset then
            some
              { st with
                reader := some (BufReader.atPos r.inode 0)
                offset := 0
                size := current.size
                modtime := current.modtime }
          else some { st with size := current.size, modtime := current.modtime }

/-- The line a read gives. -/
def tailLine (utf16 : Utf16Decoder) (encoding : LineEncoding) (first : Bool) (r : BufReader)
    (read : LineRead) : TailLine where
  inode := r.inode
  start := r.pos
  consumed := read.consumed
  payload := trimLineEnding (decodeLine utf16 read.buf encoding first)

/-- Read lines from the rotated file, until it is at its end or `maxLines` are read. -/
def drainLoop (utf16 : Utf16Decoder) (content : Nat → Bytes) (maxLineBytes : Nat) :
    Nat → TailerState → List TailLine × TailerState
  | 0, st => ([], st)
  | maxLines + 1, st =>
      match st.draining with
      | none => ([], st)
      | some d =>
          let read := readOneLine st.encoding maxLineBytes (content d.inode) d
          if read.consumed = 0 then ([], { st with draining := none })
          else
            let next :=
              drainLoop utf16 content maxLineBytes maxLines { st with draining := some read.reader }
            (tailLine utf16 st.encoding false d read :: next.1, next.2)

/-- Read lines from the current file. -/
def readerLoop (utf16 : Utf16Decoder) (content : Nat → Bytes) (maxLineBytes : Nat) :
    Nat → TailerState → List TailLine × TailerState
  | 0, st => ([], st)
  | maxLines + 1, st =>
      match st.reader with
      | none => ([], st)
      | some r =>
          let read := readOneLine st.encoding maxLineBytes (content r.inode) r
          if read.consumed = 0 then ([], { st with reader := some read.reader })
          else
            let next := readerLoop utf16 content maxLineBytes maxLines
              { st with reader := some read.reader, offset := st.offset + read.consumed }
            (tailLine utf16 st.encoding (st.offset == 0) r read :: next.1, next.2)

def readLines (utf16 : Utf16Decoder) (content : Nat → Bytes) (maxLineBytes maxLines : Nat)
    (st : TailerState) : List TailLine × TailerState :=
  let drained := drainLoop utf16 content maxLineBytes maxLines st
  let read := readerLoop utf16 content maxLineBytes (maxLines - drained.1.length) drained.2
  (drained.1 ++ read.1, read.2)

end TailerState

open TailerState

def DEFAULT_MAX_LINE_BYTES : Nat := 1048576

/-- A tailer of one path. -/
structure FileTailer where
  state : TailerState
  maxLineBytes : Nat

namespace FileTailer

def pending (mode : PendingOpen) : FileTailer := ⟨.pending mode, DEFAULT_MAX_LINE_BYTES⟩

/-- Open or check the file before a read. The Boolean says whether the read goes on. -/
def prepare (t : FileTailer) (view : FileView) : Bool × FileTailer :=
  match t.state.tryUpgradePending view with
  | none => (false, t)
  | some st =>
      match st.checkRotation view with
      | none => (false, { t with state := st })
      | some st => (true, { t with state := st })

/-- Read up to `maxLines` lines; a failed call reads none. -/
def readLines (t : FileTailer) (utf16 : Utf16Decoder) (view : FileView) (maxLines : Nat) :
    List TailLine × FileTailer :=
  let prepared := t.prepare view
  if prepared.1 then
    let read := prepared.2.state.readLines utf16 view.content t.maxLineBytes maxLines
    (read.1, { t with state := read.2 })
  else ([], prepared.2)

end FileTailer

/-! ## What a read does -/

/-- Lines of one file, each beginning where the one before ends. -/
def Contiguous (inode : Nat) : Nat → List TailLine → Nat → Prop
  | lo, [], hi => lo = hi
  | lo, l :: ls, hi => l.inode = inode ∧ l.start = lo ∧ 0 < l.consumed ∧
      Contiguous inode l.stop ls hi

namespace Contiguous

variable {inode lo hi : Nat} {ls : List TailLine}

theorem le (h : Contiguous inode lo ls hi) : lo ≤ hi := by
  induction ls generalizing lo with
  | nil => exact Nat.le_of_eq h
  | cons l ls ih =>
    have := ih h.2.2.2
    have hstart := h.2.1
    unfold TailLine.stop at this
    omega

theorem sum_consumed (h : Contiguous inode lo ls hi) :
    hi = lo + (ls.map TailLine.consumed).sum := by
  induction ls generalizing lo with
  | nil => exact h.symm
  | cons l ls ih =>
    have := ih h.2.2.2
    rw [map_cons, sum_cons, this, TailLine.stop, h.2.1]
    omega

theorem exists_mem (h : Contiguous inode lo ls hi) {x : Nat} (hlo : lo ≤ x) (hhi : x < hi) :
    ∃ l ∈ ls, l.inode = inode ∧ l.start ≤ x ∧ x < l.stop := by
  induction ls generalizing lo with
  | nil =>
    have heq : lo = hi := h
    omega
  | cons l ls ih =>
    obtain ⟨hinode, hstart, -, hrest⟩ := h
    by_cases hx : x < l.stop
    · exact ⟨l, mem_cons_self, hinode, by omega, hx⟩
    · obtain ⟨l', hmem, hl'⟩ := ih hrest (Nat.le_of_not_lt hx)
      exact ⟨l', mem_cons_of_mem _ hmem, hl'⟩

/-- A line starts after all the lines before it. -/
theorem start_eq {before rest : List TailLine} {l : TailLine}
    (h : Contiguous inode lo (before ++ l :: rest) hi) :
    l.start = lo + (before.map TailLine.consumed).sum := by
  induction before generalizing lo with
  | nil => exact h.2.1
  | cons b before ih =>
    rw [ih h.2.2.2, map_cons, sum_cons, TailLine.stop, h.2.1]
    omega

end Contiguous

namespace TailerState

variable {st : TailerState} {utf16 : Utf16Decoder} {content : Nat → Bytes} {maxLineBytes : Nat}

/-- The reader stands at the offset the tailer reports. -/
def Aligned (st : TailerState) : Prop := ∀ r, st.reader = some r → r.pos = st.offset

theorem aligned_pending (mode : PendingOpen) : (pending mode).Aligned := by
  intro r hr
  cases hr

theorem tryUpgradePending_aligned {view : FileView} {st' : TailerState} (h : st.Aligned)
    (heq : st.tryUpgradePending view = some st') : st'.Aligned := by
  unfold tryUpgradePending at heq
  split at heq
  · cases heq
    exact h
  · split at heq
    · cases heq
      exact h
    · cases heq
    · cases heq
      rintro r ⟨⟩
      rfl

theorem checkRotation_aligned {view : FileView} {st' : TailerState} (h : st.Aligned)
    (heq : st.checkRotation view = some st') : st'.Aligned := by
  unfold checkRotation at heq
  split at heq
  · cases heq
    exact h
  · split at heq
    · cases heq
      exact h
    · cases heq
    · split at heq
      · unfold beginRotation at heq
        split at heq
        · cases heq
          exact h
        · cases heq
        · cases heq
          rintro r ⟨⟩
          rfl
      · split at heq
        · cases heq
          rintro r ⟨⟩
          rfl
        · cases heq
          exact h

/-- Draining touches nothing but the parked reader. -/
theorem drainLoop_state (utf16 : Utf16Decoder) (content : Nat → Bytes) (maxLineBytes : Nat) :
    ∀ (n : Nat) (st : TailerState),
      ∃ d, (drainLoop utf16 content maxLineBytes n st).2 = { st with draining := d } := by
  intro n
  induction n with
  | zero => exact fun st => ⟨st.draining, rfl⟩
  | succ n ih =>
    intro st
    unfold drainLoop
    split
    · exact ⟨st.draining, rfl⟩
    · dsimp only
      split
      · exact ⟨none, rfl⟩
      · rename_i d _ _
        exact ih { st with
          draining := some (readOneLine st.encoding maxLineBytes (content d.inode) d).reader }

/-- What the reader loop does: it reads contiguous lines from the offset on, and moves the reader
and the offset past them. -/
structure ReadFrom (st st' : TailerState) (content : Nat → Bytes) (r : BufReader)
    (lines : List TailLine) : Prop where
  reader : ∃ r', st' = { st with reader := some r', offset := st'.offset } ∧
    r'.inode = r.inode ∧ r'.pos = st'.offset ∧
    r'.rest (content r.inode) = (r.rest (content r.inode)).drop (st'.offset - st.offset)
  lines : Contiguous r.inode st.offset lines st'.offset

theorem readerLoop_spec (utf16 : Utf16Decoder) (content : Nat → Bytes) (maxLineBytes : Nat) :
    ∀ (n : Nat) (st : TailerState) (r : BufReader), st.reader = some r → r.pos = st.offset →
      st.ReadFrom (readerLoop utf16 content maxLineBytes n st).2 content r
        (readerLoop utf16 content maxLineBytes n st).1 := by
  intro n
  induction n with
  | zero =>
    intro st r hr hpos
    refine ⟨⟨r, ?_, rfl, hpos, ?_⟩, rfl⟩
    · simp only [readerLoop, ← hr]
    · simp [readerLoop]
  | succ n ih =>
    intro st r hr hpos
    have hread := readOneLine_spec st.encoding maxLineBytes (content r.inode) r
    have hconsumed : (readOneLine st.encoding maxLineBytes (content r.inode) r).consumed =
        st.encoding.lineLength (r.rest (content r.inode)) := by
      rw [hread.consumed, Nat.zero_add]
    have hinode := hread.inode
    have hpos' := hread.pos
    have hrest := hread.rest
    rw [← hconsumed] at hpos' hrest
    unfold readerLoop
    rw [hr]
    dsimp only at hpos' hrest ⊢
    split
    · rename_i hzero
      rw [hzero] at hpos'
      rw [hzero] at hrest
      refine ⟨⟨_, rfl, hinode, hpos'.trans hpos, ?_⟩, rfl⟩
      rw [hrest, Nat.sub_self]
    · rename_i hzero
      have hnext := ih { st with
        reader := some (readOneLine st.encoding maxLineBytes (content r.inode) r).reader
        offset := st.offset + (readOneLine st.encoding maxLineBytes (content r.inode) r).consumed }
        _ rfl (hpos'.trans (by rw [hpos]))
      obtain ⟨⟨r', hst', hinode', hrpos, hrrest⟩, hlines⟩ := hnext
      rw [hinode] at hinode' hrrest hlines
      have hle := hlines.le
      refine ⟨⟨r', ?_, hinode', hrpos, ?_⟩, rfl, hpos, Nat.pos_of_ne_zero hzero, ?_⟩
      · rw [hst']
      · rw [hrrest, hrest, drop_drop]
        congr 1
        dsimp only at hle ⊢
        omega
      · have hstop : (tailLine utf16 st.encoding (st.offset == 0) r
            (readOneLine st.encoding maxLineBytes (content r.inode) r)).stop =
            st.offset + (readOneLine st.encoding maxLineBytes (content r.inode) r).consumed := by
          rw [← hpos]
          rfl
        rw [hstop]
        exact hlines

theorem readerLoop_none (hr : st.reader = none) (n : Nat) :
    readerLoop utf16 content maxLineBytes n st = ([], st) := by
  cases n with
  | zero => rfl
  | succ n => rw [readerLoop, hr]

end TailerState

namespace FileTailer

theorem prepare_aligned {t : FileTailer} (h : t.state.Aligned) (view : FileView) :
    (t.prepare view).2.state.Aligned := by
  unfold prepare
  split
  · exact h
  · rename_i st hst
    have haligned := tryUpgradePending_aligned h hst
    split
    · exact haligned
    · rename_i st' hst'
      exact checkRotation_aligned haligned hst'

/-- The lines that a read takes from a rotated file. -/
def drained (t : FileTailer) (utf16 : Utf16Decoder) (view : FileView) (maxLines : Nat) :
    List TailLine :=
  if (t.prepare view).1 then
    (drainLoop utf16 view.content t.maxLineBytes maxLines (t.prepare view).2.state).1
  else []

/-- A read gives the lines of a rotated file and then contiguous lines of the current one, from
where the preparation left the offset. -/
theorem readLines_spec {t : FileTailer} (h : t.state.Aligned) (utf16 : Utf16Decoder)
    (view : FileView) (maxLines : Nat) :
    ∃ cur, (t.readLines utf16 view maxLines).1 = t.drained utf16 view maxLines ++ cur ∧
      (t.readLines utf16 view maxLines).2.state.Aligned ∧
      (t.readLines utf16 view maxLines).2.state.inode = (t.prepare view).2.state.inode ∧
      ((∃ r, (t.prepare view).2.state.reader = some r ∧
          Contiguous r.inode (t.prepare view).2.state.offset cur
            (t.readLines utf16 view maxLines).2.state.offset) ∨
        cur = [] ∧ (t.readLines utf16 view maxLines).2.state.offset =
          (t.prepare view).2.state.offset) := by
  have haligned := prepare_aligned h view
  rw [drained]
  by_cases hok : (t.prepare view).1 = true
  · rw [if_pos hok]
    obtain ⟨d, hstate⟩ := drainLoop_state utf16 view.content t.maxLineBytes maxLines
      (t.prepare view).2.state
    -- Draining leaves a state that differs from the prepared one in the parked reader only.
    generalize hst : drainLoop utf16 view.content t.maxLineBytes maxLines
      (t.prepare view).2.state = dr at hstate
    have hread : t.readLines utf16 view maxLines =
        (dr.1 ++ (TailerState.readerLoop utf16 view.content t.maxLineBytes
            (maxLines - dr.1.length) dr.2).1,
          { t with state := (TailerState.readerLoop utf16 view.content t.maxLineBytes
            (maxLines - dr.1.length) dr.2).2 }) := by
      simp only [readLines, if_pos hok, TailerState.readLines, hst]
    have hreader : dr.2.reader = (t.prepare view).2.state.reader := by rw [hstate]
    have hoffset : dr.2.offset = (t.prepare view).2.state.offset := by rw [hstate]
    have hinode : dr.2.inode = (t.prepare view).2.state.inode := by rw [hstate]
    have hst' : dr.2.Aligned := by rw [hstate]; exact haligned
    rw [hread, ← hreader, ← hoffset, ← hinode]
    refine ⟨_, rfl, ?_⟩
    cases hr : dr.2.reader with
    | none =>
      rw [readerLoop_none hr]
      exact ⟨hst', rfl, .inr ⟨rfl, rfl⟩⟩
    | some r =>
      obtain ⟨⟨r', hout, -, hpos, -⟩, hlines⟩ := readerLoop_spec utf16
        view.content t.maxLineBytes (maxLines - dr.1.length) dr.2 r hr (hst' r hr)
      refine ⟨?_, by rw [hout], .inl ⟨r, rfl, hlines⟩⟩
      intro r₂ hr₂
      rw [hout] at hr₂
      cases hr₂
      exact hpos
  · have hread : t.readLines utf16 view maxLines = ([], (t.prepare view).2) := if_neg hok
    rw [hread, if_neg hok]
    exact ⟨[], rfl, haligned, rfl, .inr ⟨rfl, rfl⟩⟩

end FileTailer

end EdgePacer.Source
