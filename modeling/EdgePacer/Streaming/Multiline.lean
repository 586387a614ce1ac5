import EdgePacer.Source.Assembler
import EdgePacer.Streaming.Pipeline

/-!
# Multi-line assembly for streaming sources

A streaming source may carry several streams over one connection, so each stream has its own
assembler. Lines are recorded in the order they arrive and marked finished when the event that
holds them is emitted; the resume point is released through the finished lines at the front only.

An emitted event keeps the lines it was assembled from (`sources`), which the code no longer has:
the joined text and the first line's time are functions of them. Journald, event logs and plain
files have one stream, and for these the lines leave in the order they came
(`processStreamLine_passes`, `checkTimeout_passes`, `flush_passes`).
-/

namespace EdgePacer.Streaming

open Source Lib List Option Prod EntryAssembler

universe u

variable {κ : Type u}

/-! ## The model -/

/-- A line given to the assembler, with the resume point right after it. -/
structure FedLine (κ : Type u) where
  stream : LogStream
  data : Bytes
  timestampNs : TimestampNs
  checkpoint : Option κ
  deriving DecidableEq

/-- A line that arrived, and whether the event that holds it has been emitted. -/
structure PendingLine (κ : Type u) where
  line : FedLine κ
  finished : Bool

/-- An event on its way to the pipeline, the resume point it releases, and its lines. -/
structure StreamingEmit (κ : Type u) where
  line : StreamLine
  checkpoint : Option κ
  sources : List (FedLine κ)

/-- `assemblers` is absent when the source has no multi-line setting. -/
structure StreamingEntryAssembler (κ : Type u) where
  assemblers : Option StreamAssemblers
  nextOffset : Nat
  pending : List (PendingLine κ)

/-- A multi-line setting whose patterns compile: the start test, and the caps. -/
structure MultilineConfig where
  isStart : Bytes → Bool
  (maxLines timeoutSecs : Nat)

/-- Mark the first `count` unfinished lines of a stream; the lines marked come out in order. -/
def markFinished (stream : LogStream) :
    Nat → List (PendingLine κ) → List (PendingLine κ) × List (FedLine κ)
  | 0, pending => (pending, [])
  | _ + 1, [] => ([], [])
  | count + 1, p :: rest =>
      if p.finished || p.line.stream != stream then
        (p :: (markFinished stream (count + 1) rest).1, (markFinished stream (count + 1) rest).2)
      else
        ({ p with finished := true } :: (markFinished stream count rest).1,
          p.line :: (markFinished stream count rest).2)

/-- Drop the finished lines at the front; the last resume point among them is released. -/
def releaseFinished (pending : List (PendingLine κ)) : List (PendingLine κ) × Option κ :=
  (pending.dropWhile PendingLine.finished,
    ((pending.takeWhile PendingLine.finished).filterMap fun p => p.line.checkpoint).getLast?)

namespace StreamingEntryAssembler

def new (multiline : Option MultilineConfig) : StreamingEntryAssembler κ where
  assemblers := multiline.map fun cfg => .new cfg.isStart cfg.maxLines cfg.timeoutSecs
  nextOffset := 0
  pending := []

variable (a : StreamingEntryAssembler κ)

/-- Settle an event's lines (`consume_pending`) and hand the event on. -/
def emitAssembled (stream : LogStream) (ev : AssembledEvent) :
    StreamingEmit κ × StreamingEntryAssembler κ :=
  let marked := markFinished stream ev.metadata.lineCount a.pending
  let released := releaseFinished marked.1
  let timestampNs := (marked.2.head?.map FedLine.timestampNs).getD 0
  (⟨⟨ev.bytes, timestampNs, stream⟩, released.2, marked.2⟩, { a with pending := released.1 })

/-- Hand on every drained event in turn. -/
def emitAll (a : StreamingEntryAssembler κ) :
    List StreamEvent → List (StreamingEmit κ) × StreamingEntryAssembler κ
  | [] => ([], a)
  | (stream, ev) :: ready =>
      let first := a.emitAssembled stream ev
      let rest := first.2.emitAll ready
      (first.1 :: rest.1, rest.2)

/-- Take in a line of a stream (`process_stream_line`); at most one event comes out. -/
def processStreamLine (now : Nat) (line : FedLine κ) :
    List (StreamingEmit κ) × StreamingEntryAssembler κ :=
  match a.assemblers with
  | none => ([⟨⟨line.data, line.timestampNs, line.stream⟩, line.checkpoint, [line]⟩], a)
  | some as =>
      let context : LineContext := ⟨a.nextOffset, a.nextOffset + 1, 0⟩
      let processed := as.process line.stream now (line.data, context)
      let a : StreamingEntryAssembler κ :=
        ⟨some processed.2, a.nextOffset + 1, a.pending ++ [⟨line, false⟩]⟩
      a.emitAll (processed.1.toList.map fun ev => (line.stream, ev))

/-- A line of a source with one stream. -/
def processLine (now : Nat) (data : Bytes) (timestampNs : TimestampNs) (checkpoint : Option κ) :
    List (StreamingEmit κ) × StreamingEntryAssembler κ :=
  a.processStreamLine now ⟨.unspecified, data, timestampNs, checkpoint⟩

/-- Drain every stream and hand on what comes out. -/
def drainAll (drain : EntryAssembler → Option AssembledEvent × EntryAssembler) :
    List (StreamingEmit κ) × StreamingEntryAssembler κ :=
  match a.assemblers with
  | none => ([], a)
  | some as =>
      let collected := as.collectReady drain
      emitAll { a with assemblers := some collected.2 } collected.1

def checkTimeout (a : StreamingEntryAssembler κ) (now : Nat) :
    List (StreamingEmit κ) × StreamingEntryAssembler κ :=
  a.drainAll (EntryAssembler.checkTimeout now)

def flush (a : StreamingEntryAssembler κ) : List (StreamingEmit κ) × StreamingEntryAssembler κ :=
  a.drainAll EntryAssembler.flush

/-- The lines that arrived and are not emitted yet. -/
def held : List (FedLine κ) := a.pending.map PendingLine.line

end StreamingEntryAssembler

/-- The lines of a sequence of events, in order. -/
def emittedSources (emits : List (StreamingEmit κ)) : List (FedLine κ) :=
  emits.flatMap StreamingEmit.sources

/-- The line the pipeline gets for an event: the texts joined, at the time of the first. -/
def eventLine (stream : LogStream) (sources : List (FedLine κ)) : StreamLine :=
  ⟨joinWithNewline (sources.map FedLine.data),
    (sources.head?.map FedLine.timestampNs).getD 0, stream⟩

/-! ## Sources with one stream -/

section

variable {stream : LogStream} {lines : List (FedLine κ)}

/-- Lines that wait, none of them finished. -/
def waiting (lines : List (FedLine κ)) : List (PendingLine κ) := lines.map fun l => ⟨l, false⟩

@[simp] theorem waiting_lines (lines : List (FedLine κ)) :
    (waiting lines).map PendingLine.line = lines := by
  simp [waiting, Function.comp_def]

theorem dropWhile_waiting (lines : List (FedLine κ)) :
    (waiting lines).dropWhile PendingLine.finished = waiting lines := by
  cases lines with
  | nil | cons l rest => rfl

/-- Marking as many lines as wait at the front marks exactly these. -/
theorem markFinished_waiting (hstream : ∀ l ∈ lines, l.stream = stream)
    (later : List (PendingLine κ)) :
    markFinished stream lines.length (waiting lines ++ later) =
      (lines.map (fun l => ⟨l, true⟩) ++ later, lines) := by
  induction lines with
  | nil => simp [waiting, markFinished]
  | cons l rest ih =>
    have hl : l.stream = stream := hstream l mem_cons_self
    have hrest := ih (forall_mem_cons.1 hstream).2
    simp only [waiting] at hrest
    simp [waiting, markFinished, hl, hrest]

/-- Once its lines are marked, the front is released up to the lines that still wait. -/
theorem releaseFinished_marked (lines later : List (FedLine κ)) :
    (releaseFinished (lines.map (fun l => (⟨l, true⟩ : PendingLine κ)) ++ waiting later)).1 =
      waiting later := by
  induction lines with
  | nil => exact dropWhile_waiting later
  | cons l rest ih => exact ih

end

namespace StreamingEntryAssembler

section

variable {stream : LogStream} {a : StreamingEntryAssembler κ}

/-- The lines an assembler of one stream holds are the waiting ones, in the same order. -/
structure Single (stream : LogStream) (a : StreamingEntryAssembler κ) : Prop where
  waits : a.pending = waiting a.held
  tagged : ∀ l ∈ a.held, l.stream = stream
  buffered : ∀ as, a.assemblers = some as →
    ∃ e, as.perStream = [(stream, e)] ∧ e.buffer.map fst = a.held.map FedLine.data
  absent : a.assemblers = none → a.held = []

theorem single_new (multiline : Option MultilineConfig) :
    (new multiline : StreamingEntryAssembler κ).Single .unspecified where
  waits := rfl
  tagged := nofun
  buffered := by
    intro as has
    obtain ⟨cfg, -, rfl⟩ := map_eq_some_iff.1 has
    exact ⟨_, rfl, rfl⟩
  absent := fun _ => rfl

/-- What came out and what is held now are the lines there were, each event with its own text. -/
structure Passes (stream : LogStream) (lines : List (FedLine κ))
    (r : List (StreamingEmit κ) × StreamingEntryAssembler κ) : Prop where
  single : r.2.Single stream
  lines : emittedSources r.1 ++ r.2.held = lines
  event : ∀ e ∈ r.1, e.line = eventLine stream e.sources

/-- An event that takes the front of the waiting lines. -/
theorem emitAssembled_waiting {front later : List (FedLine κ)} {ev : AssembledEvent}
    (hp : a.pending = waiting (front ++ later)) (hstream : ∀ l ∈ front, l.stream = stream)
    (hev : ev.lines.map fst = front.map FedLine.data) :
    (a.emitAssembled stream ev).1.sources = front ∧
      (a.emitAssembled stream ev).1.line = eventLine stream front ∧
      (a.emitAssembled stream ev).2 = { a with pending := waiting later } := by
  have hcount : ev.metadata.lineCount = front.length := by
    have hlen := congrArg List.length hev
    simpa [AssembledEvent.metadata] using hlen
  have happ : waiting (front ++ later) = waiting front ++ waiting later := map_append
  have hmark : markFinished stream ev.metadata.lineCount a.pending =
      (front.map (fun l => ⟨l, true⟩) ++ waiting later, front) := by
    rw [hcount, hp, happ, markFinished_waiting hstream]
  refine ⟨?_, ?_, ?_⟩
  · simp only [emitAssembled, hmark]
  · simp only [emitAssembled, hmark, eventLine, AssembledEvent.bytes, hev]
  · simp only [emitAssembled, hmark, releaseFinished_marked]

/-- **Events of one stream.** Let the held lines be `front ++ later`, the assembler keep `later` and
the event, if there is one, be `front`. Handing it on passes every line. -/
theorem passes_emitAll {as : StreamAssemblers} {e : EntryAssembler} {ev : Option AssembledEvent}
    {front later : List (FedLine κ)} {offset : Nat} (hper : as.perStream = [(stream, e)])
    (hstream : ∀ l ∈ front ++ later, l.stream = stream)
    (hev : (emittedLines ev).map fst = front.map FedLine.data)
    (hbuf : e.buffer.map fst = later.map FedLine.data) :
    Passes stream (front ++ later)
      ((⟨some as, offset, waiting (front ++ later)⟩ : StreamingEntryAssembler κ).emitAll
        (ev.toList.map fun ev => (stream, ev))) := by
  have hsingle : (⟨some as, offset, waiting later⟩ : StreamingEntryAssembler κ).Single stream := by
    have hheld : (⟨some as, offset, waiting later⟩ : StreamingEntryAssembler κ).held = later :=
      waiting_lines later
    refine ⟨?_, ?_, ?_, nofun⟩
    · rw [hheld]
    · intro l hl
      rw [hheld] at hl
      exact hstream l (mem_append_right _ hl)
    · intro as' has
      cases has
      exact ⟨e, hper, by rw [hheld, hbuf]⟩
  cases ev with
  | none =>
    -- nothing came out, so nothing was taken off the front
    have hfront : front = [] := map_eq_nil_iff.1 hev.symm
    subst hfront
    exact ⟨hsingle, waiting_lines later, nofun⟩
  | some ev =>
    obtain ⟨hsources, hline, hafter⟩ := emitAssembled_waiting
      (a := ⟨some as, offset, waiting (front ++ later)⟩) rfl
      ((forall_mem_append.1 hstream).1) hev
    refine ⟨?_, ?_, ?_⟩
    · simp only [toList_some, map_cons, emitAll, hafter]
      exact hsingle
    · simp only [toList_some, map_cons, map_nil, emitAll, hafter, emittedSources,
        flatMap_cons, flatMap_nil, hsources, append_nil, held, waiting_lines]
    · intro e he
      simp only [toList_some, map_cons, map_nil, emitAll, mem_singleton] at he
      rw [he, hsources, hline]

/-- A split of the buffered texts splits the held lines. -/
theorem split_held (lines : List (FedLine κ)) {texts front later : List Bytes}
    (h : lines.map FedLine.data = texts) (hsplit : front ++ later = texts) :
    ∃ f l : List (FedLine κ), lines = f ++ l ∧ f.map FedLine.data = front ∧
      l.map FedLine.data = later := by
  rw [← hsplit] at h
  obtain ⟨f, l, hlines, hf, hl⟩ := map_eq_append_iff.1 h
  exact ⟨f, l, hlines, hf, hl⟩

variable (h : a.Single stream)

include h

/-- Taking in a line of the stream passes the held lines and the new one. -/
theorem processStreamLine_passes (now : Nat) {line : FedLine κ} (hline : line.stream = stream) :
    Passes stream (a.held ++ [line]) (a.processStreamLine now line) := by
  cases has : a.assemblers with
  | none =>
    have hheld := h.absent has
    refine ⟨?_, ?_, ?_⟩
    · simpa only [processStreamLine, has] using h
    · simp [processStreamLine, has, emittedSources, hheld]
    · intro e he
      simp only [processStreamLine, has, mem_singleton] at he
      subst he
      simp [eventLine, joinWithNewline, hline]
  | some as =>
    obtain ⟨e, hper, hbuf⟩ := h.buffered as has
    subst hline
    generalize hcontext : (⟨a.nextOffset, a.nextOffset + 1, 0⟩ : LineContext) = context
    -- the assembler's lines leave in order, and so do the held ones beside them
    have hlines := congrArg (List.map fst) (e.process_lines now (line.data, context))
    simp only [map_append, hbuf] at hlines
    obtain ⟨front, later, hheld, hfront, hlater⟩ := split_held (a.held ++ [line]) (by simp) hlines
    have hprocess : as.process line.stream now (line.data, context) =
        ((e.process now (line.data, context)).1,
          { as with perStream := [(line.stream, (e.process now (line.data, context)).2)] }) := by
      simp [StreamAssemblers.process, hper, updateSlot]
    have hpending : a.pending ++ [⟨line, false⟩] = waiting (front ++ later) := by
      rw [← hheld, h.waits]
      simp [waiting]
    have hstream : ∀ l ∈ front ++ later, l.stream = line.stream := by
      rw [← hheld]
      exact forall_mem_append.2 ⟨h.tagged, forall_mem_singleton.2 rfl⟩
    rw [hheld]
    simp only [processStreamLine, has, hcontext, hprocess, hpending]
    exact passes_emitAll rfl hstream hfront.symm hlater.symm

theorem drainAll_passes {drain} (hdrain : EntryAssembler.Drains drain) :
    Passes stream a.held (a.drainAll drain) := by
  cases has : a.assemblers with
  | none =>
    refine ⟨?_, ?_, ?_⟩
    · simpa only [drainAll, has] using h
    · simp [drainAll, has, emittedSources]
    · intro e he
      simp [drainAll, has] at he
  | some as =>
    obtain ⟨e, hper, hbuf⟩ := h.buffered as has
    have hlines := congrArg (List.map fst) (hdrain e)
    rw [map_append, hbuf] at hlines
    obtain ⟨front, later, hheld, hfront, hlater⟩ := split_held a.held rfl hlines
    have hcollect : as.collectReady drain =
        ((drain e).1.toList.map fun ev => (stream, ev),
          { as with perStream := [(stream, (drain e).2)] }) := by
      cases hd : (drain e).1 with
      | none | some ev => simp [StreamAssemblers.collectReady, hper, hd]
    have hstream : ∀ l ∈ front ++ later, l.stream = stream := by
      rw [← hheld]
      exact h.tagged
    have hpending : a.pending = waiting (front ++ later) := by rw [← hheld, ← h.waits]
    rw [hheld]
    simp only [drainAll, has, hcollect, hpending]
    exact passes_emitAll rfl hstream hfront.symm hlater.symm

theorem checkTimeout_passes (now : Nat) : Passes stream a.held (a.checkTimeout now) :=
  drainAll_passes h (checkTimeout_lines now)

theorem flush_passes : Passes stream a.held a.flush := drainAll_passes h flush_lines

omit h in
theorem emitAll_assemblers (ready : List StreamEvent) (a : StreamingEntryAssembler κ) :
    (a.emitAll ready).2.assemblers = a.assemblers := by
  induction ready generalizing a with
  | nil => rfl
  | cons p ready ih => exact ih _

theorem flush_held : a.flush.2.held = [] := by
  have hpass := flush_passes h
  cases has : a.assemblers with
  | none =>
    have hflush : a.flush = ([], a) := by simp only [flush, drainAll, has]
    rw [hflush]
    exact h.absent has
  | some as =>
    have hafter : a.flush.2.assemblers = some (as.collectReady EntryAssembler.flush).2 := by
      simp only [flush, drainAll, has, emitAll_assemblers]
    obtain ⟨e, hper, hbuf⟩ := hpass.single.buffered _ hafter
    obtain ⟨e', hper', -⟩ := h.buffered as has
    have he : e = e'.flush.2 := by
      simp only [StreamAssemblers.collectReady, hper', map_cons, map_nil,
        List.cons.injEq, Prod.mk.injEq, and_true, true_and] at hper
      exact hper.symm
    rw [he, e'.flush_buffer] at hbuf
    exact map_eq_nil_iff.1 hbuf.symm

end

end StreamingEntryAssembler

end EdgePacer.Streaming
