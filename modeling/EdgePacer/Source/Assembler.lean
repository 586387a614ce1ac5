import EdgePacer.Common
import EdgePacer.Lib.Slots

/-!
# Multi-line assembly

An entry assembler collects the lines of one stream into events: a line that matches a start
pattern, a full buffer or an idle timeout ends the event so far. `StreamAssemblers` owns one
assembler for each stream that was seen.

An event keeps its lines with their byte ranges; the code keeps of them the joined text and the
first and last range, which are functions of it here. `process_lines`, `checkTimeout_lines` and
`flush_lines` say that lines leave an assembler in the order they came and none is dropped.
-/

namespace EdgePacer.Source

open Lib

/-- The byte range of a line and the file it came from. -/
structure LineContext where
  (startOffset endOffset inode : Nat)
  deriving DecidableEq

structure EventMetadata where
  (first last : LineContext)
  lineCount : Nat
  deriving DecidableEq

/-- A line with its context. -/
abbrev ContextLine := Bytes × LineContext

/-- The lines of an event; there is at least one. -/
structure AssembledEvent where
  head : ContextLine
  tail : List ContextLine
  deriving DecidableEq

/-- Join lines with line feeds. -/
def joinWithNewline : List Bytes → Bytes
  | [] => []
  | [line] => line
  | line :: rest => line ++ 0x0A :: joinWithNewline rest

namespace AssembledEvent

variable (ev : AssembledEvent)

def lines : List ContextLine := ev.head :: ev.tail

def bytes : Bytes := joinWithNewline (ev.lines.map Prod.fst)

def metadata : EventMetadata where
  first := ev.head.2
  last := (ev.tail.getLastD ev.head).2
  lineCount := ev.lines.length

end AssembledEvent

/-! ## One stream -/

def DEFAULT_MAX_LINES : Nat := 500

/-- Five seconds, in nanoseconds. -/
def DEFAULT_TIMEOUT : Nat := 5000000000

/-- The start-pattern test is a parameter; the cap on lines is never zero. -/
structure EntryAssembler where
  isStart : Bytes → Bool
  (maxLines timeout : Nat)
  buffer : List ContextLine
  lastLineAt : Option Nat
  maxLines_pos : 0 < maxLines

namespace EntryAssembler

/-- Zero values stand for the defaults. -/
def new (isStart : Bytes → Bool) (maxLines timeout : Nat) : EntryAssembler where
  isStart := isStart
  maxLines := if maxLines = 0 then DEFAULT_MAX_LINES else maxLines
  timeout := if timeout = 0 then DEFAULT_TIMEOUT else timeout
  buffer := []
  lastLineAt := none
  maxLines_pos := by
    split
    · decide
    · omega

variable (a : EntryAssembler)

/-- Take the buffered lines as an event. -/
def drainCurrent : Option AssembledEvent × EntryAssembler :=
  (match a.buffer with
    | [] => none
    | head :: tail => some ⟨head, tail⟩, { a with buffer := [], lastLineAt := none })

variable (now : Nat)

def push (line : ContextLine) : EntryAssembler :=
  { a with buffer := a.buffer ++ [line], lastLineAt := some now }

/-- Whether a line that comes at `now` ends the event so far. -/
def shouldFlush (line : Bytes) : Bool :=
  let timedOut := (a.lastLineAt.any fun t => decide (a.timeout < now - t)) && !a.buffer.isEmpty
  (a.isStart line && !a.buffer.isEmpty) || decide (a.maxLines ≤ a.buffer.length) || timedOut

/-- Take in a line; the event so far comes out if the line ends it. -/
def process (line : ContextLine) : Option AssembledEvent × EntryAssembler :=
  if a.shouldFlush now line.1 then (a.drainCurrent.1, a.drainCurrent.2.push now line)
  else (none, a.push now line)

def checkTimeout (a : EntryAssembler) : Option AssembledEvent × EntryAssembler :=
  match a.lastLineAt with
  | none => (none, a)
  | some last =>
      if a.buffer.isEmpty then (none, a)
      else if now - last ≤ a.timeout then (none, a)
      else a.drainCurrent

def flush : Option AssembledEvent × EntryAssembler :=
  if a.buffer.isEmpty then (none, a) else a.drainCurrent

def bufferedStartOffset : Option Nat := a.buffer.head?.map fun line => line.2.startOffset

/-- The lines of what a drain emitted. -/
def emittedLines (ev : Option AssembledEvent) : List ContextLine :=
  (ev.map AssembledEvent.lines).getD []

variable (a : EntryAssembler) (now : Nat)

theorem drainCurrent_lines :
    emittedLines a.drainCurrent.1 = a.buffer ∧ a.drainCurrent.2.buffer = [] := by
  unfold drainCurrent emittedLines
  cases a.buffer with
  | nil | cons head tail => exact ⟨rfl, rfl⟩

theorem process_lines (line : ContextLine) :
    emittedLines (a.process now line).1 ++ (a.process now line).2.buffer = a.buffer ++ [line] := by
  unfold process
  split
  · have hdrain := a.drainCurrent_lines
    rw [hdrain.1]
    simp only [push, hdrain.2, List.nil_append]
  · rfl

/-- The lines leave in the order in which they came, and none is dropped. -/
def Drains (drain : EntryAssembler → Option AssembledEvent × EntryAssembler) : Prop :=
  ∀ a, emittedLines (drain a).1 ++ (drain a).2.buffer = a.buffer

theorem checkTimeout_lines (a : EntryAssembler) :
    emittedLines (a.checkTimeout now).1 ++ (a.checkTimeout now).2.buffer = a.buffer := by
  unfold checkTimeout
  split
  · rfl
  · split
    · rfl
    · split
      · rfl
      · rw [a.drainCurrent_lines.1, a.drainCurrent_lines.2, List.append_nil]

theorem flush_buffer : a.flush.2.buffer = [] := by
  unfold flush
  split
  · exact List.isEmpty_iff.1 ‹_›
  · exact a.drainCurrent_lines.2

theorem flush_lines : emittedLines a.flush.1 ++ a.flush.2.buffer = a.buffer := by
  unfold flush
  split
  · rfl
  · rw [a.drainCurrent_lines.1, a.drainCurrent_lines.2, List.append_nil]

end EntryAssembler

/-! ## All streams -/

/-- An event and the stream whose assembler gave it. -/
abbrev StreamEvent := LogStream × AssembledEvent

/-- An assembler for each stream. -/
structure StreamAssemblers where
  isStart : Bytes → Bool
  (maxLines timeout : Nat)
  perStream : List (LogStream × EntryAssembler)

namespace StreamAssemblers

variable (as : StreamAssemblers)

/-- An assembler for a stream seen for the first time. -/
def fresh : EntryAssembler :=
  EntryAssembler.new as.isStart as.maxLines as.timeout

def new (isStart : Bytes → Bool) (maxLines timeoutSecs : Nat) : StreamAssemblers where
  isStart := isStart
  maxLines := maxLines
  timeout := max timeoutSecs 1 * 1000000000
  perStream :=
    [(.unspecified, EntryAssembler.new isStart maxLines (max timeoutSecs 1 * 1000000000))]

/-- Feed a line to the assembler of its stream. -/
def process (stream : LogStream) (now : Nat) (line : ContextLine) :
    Option AssembledEvent × StreamAssemblers :=
  let updated := updateSlot stream as.fresh
    (fun a => ((a.process now line).2, (a.process now line).1)) as.perStream
  (updated.2, { as with perStream := updated.1 })

/-- Drain every assembler. -/
def collectReady (drain : EntryAssembler → Option AssembledEvent × EntryAssembler) :
    List StreamEvent × StreamAssemblers :=
  (as.perStream.filterMap fun p => (drain p.2).1.map fun ev => (p.1, ev),
    { as with perStream := as.perStream.map fun p => (p.1, (drain p.2).2) })

/-- The lowest start offset still buffered in any stream. -/
def bufferedStartOffset : Option Nat :=
  (as.perStream.filterMap fun p => p.2.bufferedStartOffset).min?

/-- The contexts of all buffered lines. -/
def contexts : List LineContext :=
  as.perStream.flatMap fun p => p.2.buffer.map Prod.snd

/-! ### Rules for what the assemblers hold -/

section

variable {as : StreamAssemblers} {Q R : List ContextLine → Prop}

/-- **Taking in a line.** Let `Q` hold of every buffer. If adding the line to a buffer makes it
satisfy `R`, and `R` passes to both parts of a list, then `R` holds of every buffer afterwards and
of the event that comes out. -/
theorem process_rule (stream : LogStream) (now : Nat) (line : ContextLine) (hnil : Q [])
    (hsnoc : ∀ buf, Q buf → R (buf ++ [line])) (hsplit : ∀ xs ys, R (xs ++ ys) → R xs ∧ R ys)
    (h : ∀ p ∈ as.perStream, Q p.2.buffer) :
    (∀ p ∈ (as.process stream now line).2.perStream, R p.2.buffer) ∧
      ∀ ev, (as.process stream now line).1 = some ev → R ev.lines := by
  have hmono : ∀ buf, Q buf → R buf := fun buf hb => (hsplit _ _ (hsnoc buf hb)).1
  have hslot : Q (slot stream as.fresh as.perStream).buffer := by
    rcases slot_mem_or_new stream as.fresh as.perStream with hmem | hnew
    · exact h _ hmem
    · rw [hnew]
      exact hnil
  have hboth := hsplit _ _ (by
    rw [EntryAssembler.process_lines (slot stream as.fresh as.perStream) now line]
    exact hsnoc _ hslot)
  constructor
  · intro p hp
    rcases mem_updateSlot hp with hold | rfl
    · exact hmono _ (h p hold)
    · exact hboth.2
  · intro ev hev
    have hev' : ((slot stream as.fresh as.perStream).process now line).1 = some ev := by
      rw [← hev, StreamAssemblers.process, updateSlot_snd]
    rw [hev'] at hboth
    exact hboth.1

/-- **Draining.** A drain that only moves lines out keeps what passes to both parts of a list. -/
theorem collectReady_rule {drain} (hdrain : EntryAssembler.Drains drain)
    (hsplit : ∀ xs ys, R (xs ++ ys) → R xs ∧ R ys) (h : ∀ p ∈ as.perStream, R p.2.buffer) :
    (∀ p ∈ (as.collectReady drain).2.perStream, R p.2.buffer) ∧
      ∀ ev ∈ (as.collectReady drain).1, R ev.2.lines := by
  have hboth : ∀ p ∈ as.perStream, R (EntryAssembler.emittedLines (drain p.2).1) ∧
      R (drain p.2).2.buffer := by
    intro p hp
    apply hsplit
    rw [hdrain p.2]
    exact h p hp
  constructor
  · intro p hp
    obtain ⟨q, hq, rfl⟩ := List.mem_map.1 hp
    exact (hboth q hq).2
  · intro ev hev
    obtain ⟨q, hq, hmap⟩ := List.mem_filterMap.1 hev
    obtain ⟨ev', hev', rfl⟩ := Option.map_eq_some_iff.1 hmap
    have hlines := (hboth q hq).1
    rw [hev'] at hlines
    exact hlines

end

end StreamAssemblers

end EdgePacer.Source
