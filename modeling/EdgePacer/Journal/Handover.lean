import EdgePacer.Journal.Stream

/-!
# From the native reader to the fallback

When the native reader fails, `journalctl` starts again from the resume cursor the stream began
with, or behind the last entry when there was none, and with an assembler of its own. Nothing of
what the native reader has done carries over: entries it handed on are handed on again after a
resume cursor, and without one the entries it had not handed on are passed over. Entries with a
message that `journalctl` does not print are lost either way.

While the actor is there, a reader hands on or still holds each entry it delivered, in order
(`Reads`); at its end it holds none (`Reads.finish`). `handover_exact` puts the two readers
together: what they hand on is right exactly when the hand-over is `Seamless`.
-/

namespace EdgePacer.Journal

open Source Streaming StreamingEntryAssembler List Journal.Stream StreamingEmit StreamHandle

universe u v

variable {κ : Type u} {ε : Type v}

/-! ## One reader -/

/-- The line an entry is to the assembler. -/
def StreamEntry.fed (entry : StreamEntry κ) : FedLine κ :=
  ⟨.unspecified, intoBytes entry.message, entry.timestampNs, entry.cursor⟩

variable (read : ε → Option (StreamEntry κ))

/-- The lines a reader makes of entries; blank ones are skipped. -/
def fedLines (entries : List (ε)) : List (FedLine κ) :=
  (entries.filterMap read).map StreamEntry.fed

theorem fedLines_append (xs ys : List (ε)) :
    fedLines read (xs ++ ys) = fedLines read xs ++ fedLines read ys := by
  simp only [fedLines, filterMap_append, map_append]

theorem fedLines_cons (x : ε) (xs : List ε) :
    fedLines read (x :: xs) = ((read x).map StreamEntry.fed).toList ++ fedLines read xs := by
  unfold fedLines
  rw [filterMap_cons]
  cases read x with
  | none | some entry => rfl

/-- What the multi-line assembler makes of a reader's event. -/
def assembleEvent (a : StreamingEntryAssembler κ) :
    ReaderEvent ε → List (StreamingEmit κ) × StreamingEntryAssembler κ
  | .tick now => a.checkTimeout now
  | .entry now entry =>
      match read entry with
      | none => ([], a)
      | some entry =>
          a.processLine now (intoBytes entry.message) entry.timestampNs entry.cursor

/-- What the multi-line assembler makes of a reader's events. -/
def assemble (read : ε → Option (StreamEntry κ)) :
    List (ReaderEvent ε) → StreamingEntryAssembler κ →
      List (StreamingEmit κ) × StreamingEntryAssembler κ
  | [], a => ([], a)
  | ev :: evs, a =>
      let first := assembleEvent read a ev
      let rest := assemble read evs first.2
      (first.1 ++ rest.1, rest.2)

namespace Stream

variable {s s' : Stream κ} {emits : List (StreamingEmit κ)}
  {read : ε → Option (StreamEntry κ)}

/-- The actor is there and takes the events. -/
structure Sends (s : Stream κ) (emits : List (StreamingEmit κ)) (s' : Stream κ) : Prop where
  alive : s'.handle.goneAfter = none
  assembler : s'.assembler = s.assembler
  events : s'.events = s.events ++ emits.map sources
  lines : s'.handle.lines = s.handle.lines ++ emits.map line

theorem send_of_alive {h : StreamHandle κ} (halive : h.goneAfter = none)
    (command : StreamCommand κ) :
    h.send command = (true, { h with sent := h.sent ++ [command] }) := by
  simp [send, halive]

theorem lines_setCheckpoint (h : StreamHandle κ) (cursor : κ) :
    lines { h with sent := h.sent ++ [.setCheckpoint cursor] } = h.lines := by
  simp [lines]

section

variable (read) (halive : s.handle.goneAfter = none)

include halive

theorem enqueueAll_of_alive (emits : List (StreamingEmit κ)) :
    (s.enqueueAll emits).1 = true ∧ Sends s emits (s.enqueueAll emits).2 := by
  induction emits generalizing s with
  | nil => exact ⟨rfl, halive, rfl, (append_nil _).symm, (append_nil _).symm⟩
  | cons emit emits ih =>
    simp only [enqueueAll, send_of_alive halive, if_true]
    obtain ⟨htaken, hsends⟩ := ih (s := { s with
      handle := { s.handle with sent := s.handle.sent ++ [.enqueue emit.line] }
      events := s.events ++ [emit.sources] }) halive
    refine ⟨htaken, hsends.alive, hsends.assembler, ?_, ?_⟩
    · rw [hsends.events]
      simp
    · rw [hsends.lines]
      simp [lines]

theorem recordEmit_of_alive (emit : Option (StreamingEmit κ)) :
    (s.recordEmit emit).1 = true ∧ Sends s [] (s.recordEmit emit).2 := by
  have hsame : Sends s [] s := ⟨halive, rfl, (append_nil _).symm, (append_nil _).symm⟩
  cases emit with
  | none => exact ⟨rfl, hsame⟩
  | some emit =>
    simp only [recordEmit]
    cases emit.checkpoint.or s.lastCursor with
    | none => exact ⟨rfl, hsame.alive, rfl, hsame.events, hsame.lines⟩
    | some cursor =>
      simp only [send_of_alive halive]
      split
      · refine ⟨rfl, halive, rfl, hsame.events, ?_⟩
        rw [lines_setCheckpoint]
        exact hsame.lines
      · exact ⟨rfl, hsame.alive, rfl, hsame.events, hsame.lines⟩

theorem deliver_of_alive (r : List (StreamingEmit κ) × StreamingEntryAssembler κ) :
    (s.deliver r).1 = true ∧ Sends { s with assembler := r.2 } r.1 (s.deliver r).2 := by
  obtain ⟨htaken, hsends⟩ := enqueueAll_of_alive (s := { s with assembler := r.2 }) halive r.1
  obtain ⟨hrecorded, hafter⟩ := recordEmit_of_alive hsends.alive r.1.getLast?
  simp only [deliver, htaken, if_true]
  refine ⟨hrecorded, hafter.alive, ?_, ?_, ?_⟩
  · rw [hafter.assembler, hsends.assembler]
  · rw [hafter.events, hsends.events, map_nil, append_nil]
  · rw [hafter.lines, hsends.lines, map_nil, append_nil]

/-- One turn of the loop, in terms of the assembler. -/
theorem onEvent_eq (ev : ReaderEvent ε) :
    (s.onEvent read ev).1 = true ∧
      Sends { s with assembler := (assembleEvent read s.assembler ev).2 }
        (assembleEvent read s.assembler ev).1 (s.onEvent read ev).2 := by
  cases ev with
  | tick now => exact deliver_of_alive halive _
  | entry now entry =>
    simp only [onEvent, assembleEvent]
    cases read entry with
    | none => exact ⟨rfl, halive, rfl, (append_nil _).symm, (append_nil _).symm⟩
    | some entry => exact deliver_of_alive halive _

/-- The events of a loop are those of its assembler, which ends as the loop's does. -/
theorem runLoop_eq (evs : List (ReaderEvent ε)) :
    (runLoop read evs s).2.events =
        s.events ++ (assemble read evs s.assembler).1.map sources ∧
      (runLoop read evs s).2.assembler = (assemble read evs s.assembler).2 := by
  induction evs generalizing s with
  | nil => exact ⟨(append_nil _).symm, rfl⟩
  | cons ev evs ih =>
    obtain ⟨hturn, hsends⟩ := onEvent_eq read halive ev
    obtain ⟨hevents, hasm⟩ := ih hsends.alive
    simp only [runLoop, hturn, if_true, assemble]
    rw [hevents, hasm, hsends.assembler, hsends.events, map_append, append_assoc]
    exact ⟨rfl, rfl⟩

end

/-- A reader that began with the lines `before` in its channel and has delivered the entries `fed`:
each of them is handed on or held, in order. -/
structure Reads (before : List StreamLine) (fed : List (FedLine κ)) (s : Stream κ) : Prop where
  alive : s.handle.goneAfter = none
  single : s.assembler.Single .unspecified
  entries : s.events.flatten ++ s.assembler.held = fed
  lines : s.handle.lines = before ++ s.events.map (eventLine .unspecified)

variable {before : List StreamLine} {fed : List (FedLine κ)}

theorem reads_new (handle : StreamHandle κ) (halive : handle.goneAfter = none)
    (multiline : Option MultilineConfig) : Reads handle.lines [] (new handle multiline) where
  alive := halive
  single := single_new multiline
  entries := rfl
  lines := (append_nil _).symm

theorem fedLines_entriesOf_cons (ev : ReaderEvent ε) (evs : List (ReaderEvent ε)) :
    fedLines read (entriesOf (ev :: evs)) =
      fedLines read (entriesOf [ev]) ++ fedLines read (entriesOf evs) := by
  cases ev with
  | tick now => rfl
  | entry now entry => exact fedLines_append read [entry] (entriesOf evs)

variable (h : Reads before fed s)

include h

/-- Delivering what the assembler passes keeps the account. -/
theorem Reads.deliver {more : List (FedLine κ)}
    {r : List (StreamingEmit κ) × StreamingEntryAssembler κ}
    (hr : Passes .unspecified (s.assembler.held ++ more) r) :
    Reads before (fed ++ more) (s.deliver r).2 := by
  have hsends := (deliver_of_alive h.alive r).2
  refine ⟨hsends.alive, ?_, ?_, ?_⟩
  · rw [hsends.assembler]
    exact hr.single
  · rw [hsends.assembler, hsends.events, flatten_append, ← h.entries, append_assoc,
      append_assoc, ← hr.lines]
    rfl
  · have hlines : r.1.map line = (r.1.map sources).map (eventLine .unspecified) := by
      rw [map_map]
      exact map_congr_left hr.event
    rw [hsends.lines, hsends.events, h.lines, hlines, map_append, append_assoc]

theorem Reads.onEvent (ev : ReaderEvent ε) :
    Reads before (fed ++ fedLines read (entriesOf [ev])) (s.onEvent read ev).2 := by
  cases ev with
  | tick now =>
    refine h.deliver ?_
    rw [show fedLines read (entriesOf [ReaderEvent.tick now]) = [] from rfl, append_nil]
    exact checkTimeout_passes h.single now
  | entry now entry =>
    simp only [Stream.onEvent, fedLines, entriesOf]
    cases hread : read entry with
    | none => simpa [hread] using h
    | some entry' =>
      have hfed : [entry].filterMap read = [entry'] := by simp [hread]
      rw [hfed]
      exact h.deliver (processStreamLine_passes h.single now rfl)

variable (read) in
/-- **A reader's loop.** While the actor is there the loop goes through all events and keeps the
account of the entries. -/
theorem Reads.runLoop (evs : List (ReaderEvent ε)) :
    (runLoop read evs s).1 = true ∧
      Reads before (fed ++ fedLines read (entriesOf evs)) (runLoop read evs s).2 := by
  induction evs generalizing fed s with
  | nil =>
    refine ⟨rfl, ?_⟩
    rw [show fedLines read (entriesOf []) = [] from rfl, append_nil]
    exact h
  | cons ev evs ih =>
    have hturn := (onEvent_eq read h.alive ev).1
    simp only [runLoop, hturn, if_true]
    rw [fedLines_entriesOf_cons, ← append_assoc]
    exact ih (h.onEvent ev)

/-- **The end of a reader.** Every entry it delivered is handed on. -/
theorem Reads.finish :
    s.finish.events.flatten = fed ∧
      s.finish.handle.lines = before ++ s.finish.events.map (eventLine .unspecified) := by
  have hpass : Passes .unspecified (s.assembler.held ++ []) s.assembler.flush := by
    rw [append_nil]
    exact flush_passes h.single
  have hflushed := h.deliver hpass
  obtain ⟨htaken, hsends⟩ := deliver_of_alive h.alive s.assembler.flush
  have hheld : (s.deliver s.assembler.flush).2.assembler.held = [] := by
    rw [hsends.assembler]
    exact flush_held h.single
  have hentries := hflushed.entries
  rw [hheld, append_nil, append_nil] at hentries
  simp only [Stream.finish, htaken, if_true]
  cases (s.deliver s.assembler.flush).2.lastCursor with
  | none => exact ⟨hentries, hflushed.lines⟩
  | some cursor =>
    simp only [send_of_alive hflushed.alive, lines_setCheckpoint]
    exact ⟨hentries, hflushed.lines⟩

end Stream

/-! ## Two readers -/

/-- A run in which the native reader fails. `resume` and `start` count the entries up to the resume
cursor and those the journal has when the stream starts, `restart` those it has when `journalctl`
starts. A cursor names one entry. -/
structure Handover where
  lossy : LossyDecoder
  journalctl : Journalctl
  multiline : Option MultilineConfig
  journal : List JournalEntry
  resume : Option Nat
  start : Nat
  native : List (ReaderEvent JournalEntry)
  restart : Nat
  output : List (ReaderEvent OutputLine)
  cursors_nodup : (journal.map JournalEntry.cursor).Nodup
  native_reads : entriesOf native <+: journal.drop (resume.getD start)
  native_read_before : resume.getD start + (entriesOf native).length ≤ restart
  output_reads : Forall₂ journalctl.Prints (entriesOf output) (journal.drop (resume.getD restart))

namespace Handover

variable (h : Handover)

/-- Both readers, with an actor that stays. -/
def run : Stream String × Option (Stream String) :=
  streamUnitLogsNative h.lossy ⟨[], none⟩ h.multiline h.native .failed h.output

/-- The entries of each event that was handed to the pipeline. -/
def events : List (List (FedLine String)) := h.run.1.events ++ (h.run.2.map Stream.events).getD []

/-- The lines the pipeline got. -/
def lines : List StreamLine := (h.run.2.getD h.run.1).handle.lines

/-- The lines for entries; blank ones are skipped. -/
def fedEntries (entries : List JournalEntry) : List (FedLine String) :=
  fedLines (entryToStream h.lossy) entries

theorem fedEntries_append (xs ys : List JournalEntry) :
    h.fedEntries (xs ++ ys) = h.fedEntries xs ++ h.fedEntries ys := fedLines_append _ xs ys

/-- The non-blank entries behind the resume cursor, or behind the start when there is none. -/
def expected : List (FedLine String) := h.fedEntries (h.journal.drop (h.resume.getD h.start))

/-- The entries behind those that the native reader has delivered. -/
def undelivered : List JournalEntry :=
  h.journal.drop (h.resume.getD h.start + (entriesOf h.native).length)

/-- The entries the native reader had not read when `journalctl` started without a cursor. -/
def unread : List JournalEntry :=
  (h.journal.take h.restart).drop (h.start + (entriesOf h.native).length)

/-- The native reader's assembler, fed what the reader delivered. -/
def assembled : List (StreamingEmit String) × StreamingEntryAssembler String :=
  assemble (entryToStream h.lossy) h.native (.new h.multiline)

/-- The entry is blank, or `journalctl` prints its message. -/
def Shown (entry : JournalEntry) : Prop :=
  entryToStream h.lossy entry = none ∨ h.journalctl.shows entry = true

/-- After a resume cursor `journalctl` prints, of the entries delivered before, just those that the
assembler still holds; without one the assembler has let go all of them, and what the reader had
left unread is blank. No later message is too long for `journalctl`. -/
def Seamless : Prop :=
  match h.resume with
  | some _ =>
      h.fedEntries ((entriesOf h.native).filter h.journalctl.shows) = h.assembled.2.held ∧
        ∀ entry ∈ h.undelivered, h.Shown entry
  | none => h.assembled.2.held = [] ∧ h.fedEntries h.unread = [] ∧
      ∀ entry ∈ h.journal.drop h.restart, h.Shown entry

/-! ### What each reader hands on -/

/-- The native reader's task when the reader fails. -/
def nativeTask : Stream String :=
  ((new ⟨[], none⟩ h.multiline).runLoop (entryToStream h.lossy) h.native).2

/-- The fallback's task at its end. -/
def fallbackTask : Stream String :=
  streamUnitLogs h.lossy h.nativeTask.handle h.multiline h.output

theorem nativeTask_reads :
    Stream.Reads [] (h.fedEntries (entriesOf h.native)) h.nativeTask :=
  ((reads_new ⟨[], none⟩ rfl h.multiline).runLoop _ h.native).2

theorem run_eq : h.run = (h.nativeTask, some h.fallbackTask) := by
  have htaken : ((new ⟨[], none⟩ h.multiline).runLoop (entryToStream h.lossy)
      h.native).1 = true := ((reads_new ⟨[], none⟩ rfl h.multiline).runLoop _ h.native).1
  simp only [run, streamUnitLogsNative, htaken]
  rfl

/-- The native reader hands on what its assembler lets go. -/
theorem nativeTask_eq :
    h.nativeTask.events.flatten = emittedSources h.assembled.1 ∧
      h.nativeTask.assembler = h.assembled.2 := by
  obtain ⟨hevents, hasm⟩ := runLoop_eq (s := new ⟨[], none⟩ h.multiline)
    (entryToStream h.lossy) rfl h.native
  exact ⟨congrArg List.flatten hevents, hasm⟩

/-- What the assembler has let go and what it holds are the entries delivered. -/
theorem assembled_entries :
    emittedSources h.assembled.1 ++ h.assembled.2.held = h.fedEntries (entriesOf h.native) := by
  rw [← h.nativeTask_eq.1, ← h.nativeTask_eq.2]
  exact h.nativeTask_reads.entries

theorem fedLines_of_prints {lines : List OutputLine} {entries : List JournalEntry}
    (hprints : Forall₂ h.journalctl.Prints lines entries) :
    fedLines (parsedToStream h.lossy) lines =
      h.fedEntries (entries.filter h.journalctl.shows) := by
  induction hprints with
  | nil => rfl
  | @cons line entry lines entries hline _ ih =>
    rw [fedLines_cons, parsedToStream_of_prints h.lossy hline, ih, filter_cons]
    cases h.journalctl.shows entry with
    | true => exact (fedLines_cons (entryToStream h.lossy) entry _).symm
    | false => rfl

/-- The fallback hands on every entry of its output. -/
theorem fallbackTask_spec :
    h.fallbackTask.events.flatten =
        h.fedEntries ((h.journal.drop (h.resume.getD h.restart)).filter h.journalctl.shows) ∧
      h.fallbackTask.handle.lines =
        h.nativeTask.handle.lines ++ h.fallbackTask.events.map (eventLine .unspecified) := by
  have hreads := ((reads_new _ h.nativeTask_reads.alive h.multiline).runLoop
    (parsedToStream h.lossy) h.output).2
  rw [h.fedLines_of_prints h.output_reads] at hreads
  exact hreads.finish

/-! ### What the fallback leaves out -/

variable (entries : List JournalEntry)

theorem fedEntries_shows_sublist :
    (h.fedEntries (entries.filter h.journalctl.shows)).Sublist (h.fedEntries entries) :=
  (filter_sublist.filterMap _).map _

/-- The fallback hands on all entries exactly if all that are not blank are shown. -/
theorem fedEntries_shows_iff :
    h.fedEntries (entries.filter h.journalctl.shows) = h.fedEntries entries ↔
      ∀ entry ∈ entries, h.Shown entry := by
  induction entries with
  | nil => simp
  | cons entry entries ih =>
    have hcons (rest : List JournalEntry) := fedLines_cons (entryToStream h.lossy) entry rest
    rw [forall_mem_cons, filter_cons, ← ih, Shown]
    rw [fedEntries, fedEntries] at ih ⊢
    cases h.journalctl.shows entry with
    | true =>
      rw [if_pos rfl, hcons, hcons, append_cancel_left_eq]
      exact ⟨fun heq => ⟨.inr rfl, heq⟩, And.right⟩
    | false =>
      rw [if_neg Bool.false_ne_true, hcons]
      cases entryToStream h.lossy entry with
      | none => exact ⟨fun heq => ⟨.inl rfl, heq⟩, And.right⟩
      | some line =>
        -- a line that is left out is missing in the count
        refine ⟨fun heq => ?_, fun heq => nomatch heq.1⟩
        have hlen := (h.fedEntries_shows_sublist entries).length_le
        rw [fedEntries, heq] at hlen
        exact absurd hlen (by simp [fedEntries])

/-- A line carries the cursor of its entry. -/
theorem cursor_of_mem_fedEntries {entries : List JournalEntry} {line : FedLine String}
    (hline : line ∈ h.fedEntries entries) :
    ∃ entry ∈ entries, line.checkpoint = some entry.cursor := by
  obtain ⟨streamed, hstreamed, rfl⟩ := mem_map.1 hline
  obtain ⟨entry, hentry, hread⟩ := mem_filterMap.1 hstreamed
  refine ⟨entry, hentry, ?_⟩
  obtain ⟨message, -, hnormal⟩ := Option.bind_eq_some_iff.1 hread
  obtain ⟨text, -, rfl⟩ := Option.map_eq_some_iff.1 hnormal
  rfl

/-- The entries behind the resume point are those delivered, and those that are not. -/
theorem drop_eq : h.journal.drop (h.resume.getD h.start) = entriesOf h.native ++ h.undelivered := by
  obtain ⟨rest, hrest⟩ := h.native_reads
  rw [undelivered, ← drop_drop, ← hrest, drop_left]

theorem expected_eq : h.expected =
    emittedSources h.assembled.1 ++ (h.assembled.2.held ++ h.fedEntries h.undelivered) := by
  rw [expected, drop_eq, fedEntries_append, ← append_assoc, h.assembled_entries]

/-- No line of an entry delivered is one of an entry not delivered. -/
theorem disjoint_delivered :
    (h.fedEntries (entriesOf h.native)).Disjoint (h.fedEntries h.undelivered) := by
  intro line hold hnew
  obtain ⟨entry, hentry, hcursor⟩ := h.cursor_of_mem_fedEntries hold
  obtain ⟨later, hlater, hcursor'⟩ := h.cursor_of_mem_fedEntries hnew
  have hnodup := h.cursors_nodup.sublist
    ((drop_sublist (h.resume.getD h.start) h.journal).map JournalEntry.cursor)
  rw [h.drop_eq, map_append] at hnodup
  exact hnodup.disjoint (mem_map_of_mem hentry)
    (Option.some.inj (hcursor.symm.trans hcursor') ▸ mem_map_of_mem hlater)

/-- What is shown of the entries delivered and of the later ones makes up what the assembler holds
and the later ones, only if each part does. -/
theorem parts_eq (heq : h.fedEntries ((entriesOf h.native).filter h.journalctl.shows) ++
      h.fedEntries (h.undelivered.filter h.journalctl.shows) =
        h.assembled.2.held ++ h.fedEntries h.undelivered) :
    h.fedEntries ((entriesOf h.native).filter h.journalctl.shows) = h.assembled.2.held ∧
      h.fedEntries (h.undelivered.filter h.journalctl.shows) = h.fedEntries h.undelivered := by
  suffices hsame : h.fedEntries ((entriesOf h.native).filter h.journalctl.shows) =
      h.assembled.2.held from ⟨hsame, append_cancel_left (hsame ▸ heq)⟩
  rcases append_eq_append_iff.1 heq with ⟨more, hheld, hlater⟩ | ⟨more, hshown, hlater⟩
  · have hlen := (h.fedEntries_shows_sublist h.undelivered).length_le
    rw [hlater, length_append] at hlen
    rw [hheld, length_eq_zero_iff.1 (show more.length = 0 by omega), append_nil]
  · -- a line handed on a second time would be one of a later entry
    have hnone : more = [] := by
      refine eq_nil_iff_forall_not_mem.2 fun line hline => ?_
      refine h.disjoint_delivered ?_ (hlater ▸ mem_append_left _ hline)
      exact (h.fedEntries_shows_sublist _).subset (hshown ▸ mem_append_right _ hline)
    rw [hshown, hnone, append_nil]

/-- Without a cursor the undelivered entries are those unread and those the fallback starts with. -/
theorem undelivered_eq (hresume : h.resume = none) :
    h.undelivered = h.unread ++ h.journal.drop h.restart := by
  have hbefore := h.native_read_before
  rw [hresume, Option.getD_none] at hbefore
  rw [undelivered, unread, drop_take, hresume, Option.getD_none]
  conv_lhs => rw [← take_append_drop (h.restart - (h.start + (entriesOf h.native).length))
    (h.journal.drop (h.start + (entriesOf h.native).length))]
  rw [drop_drop, Nat.add_sub_cancel' hbefore]

end Handover

/-- **The hand-over.** The pipeline gets one line for each event, and the entries of the events are
the expected ones, each once and in order, exactly when the hand-over is seamless. -/
theorem handover_exact (h : Handover) :
    h.lines = h.events.map (eventLine .unspecified) ∧
      (h.events.flatten = h.expected ↔ h.Seamless) := by
  obtain ⟨hfallback, hlines⟩ := h.fallbackTask_spec
  have hflatten : h.events.flatten = emittedSources h.assembled.1 ++
      h.fedEntries ((h.journal.drop (h.resume.getD h.restart)).filter h.journalctl.shows) := by
    simp only [Handover.events, h.run_eq, Option.map_some, Option.getD_some,
      flatten_append, h.nativeTask_eq.1, hfallback]
  constructor
  · simp only [Handover.lines, Handover.events, h.run_eq, Option.map_some, Option.getD_some, hlines,
      h.nativeTask_reads.lines, nil_append, map_append]
  · rw [hflatten, h.expected_eq, append_cancel_left_eq, Handover.Seamless]
    cases hresume : h.resume with
    | some cursor =>
      have hagain := h.drop_eq
      simp only [hresume, Option.getD_some] at hagain ⊢
      rw [hagain, filter_append, h.fedEntries_append, ← h.fedEntries_shows_iff]
      exact ⟨h.parts_eq, fun ⟨hheld, hlater⟩ => congrArg₂ _ hheld hlater⟩
    | none =>
      dsimp only [Option.getD_none]
      rw [h.undelivered_eq hresume, ← h.fedEntries_shows_iff, h.fedEntries_append, ← append_assoc]
      refine ⟨fun heq => ?_, fun ⟨hheld, hunread, hlater⟩ => by rw [hheld, hunread, hlater]; rfl⟩
      -- the fallback hands on at most the last part
      have hlen := (h.fedEntries_shows_sublist (h.journal.drop h.restart)).length_le
      rw [heq, length_append] at hlen
      have hnone : h.assembled.2.held ++ h.fedEntries h.unread = [] :=
        length_eq_zero_iff.1 (by omega)
      rw [hnone, nil_append] at heq
      exact ⟨(append_eq_nil_iff.1 hnone).1, (append_eq_nil_iff.1 hnone).2, heq⟩

/-! ### Hand-overs that are not seamless -/

/-- Bytes as Latin-1, which is the decoder's answer on ASCII. -/
def asciiDecoder : LossyDecoder := ⟨fun bytes => bytes.map fun b => Char.ofNat b.toNat, rfl⟩

theorem utf8EncodeChar_of_ascii : ∀ n : Fin 128,
    String.utf8EncodeChar (Char.ofNat n) = [UInt8.ofNat n] := by decide +kernel

/-- The bytes from the blank to the tilde are printed as a text, and fields of 4096 bytes or more
are not printed. -/
def asciiJournalctl : Journalctl where
  tooLong value := 4096 ≤ "MESSAGE=".length + value.length
  printable value :=
    if value.all fun b => 0x20 ≤ b && b < 0x7f then
      some (String.ofList (asciiDecoder.decode value))
    else none
  intoBytes_printable {value text} h := by
    split at h
    · next hall =>
      cases h
      rw [String.toList_ofList, intoBytes, asciiDecoder, flatMap_map]
      induction value with
      | nil => rfl
      | cons b value ih =>
        simp only [all_cons, Bool.and_eq_true, decide_eq_true_eq] at hall
        obtain ⟨⟨-, hb⟩, hrest⟩ := hall
        have hbyte := utf8EncodeChar_of_ascii ⟨b.toNat, Nat.lt_trans hb (by decide)⟩
        rw [flatMap_cons, ih hrest, hbyte, UInt8.ofNat_toNat]
        rfl
    · cases h

/-- An entry of letters, and the line that `journalctl` prints of it. -/
def lettersEntry (message : Bytes) (cursor : String) : JournalEntry := ⟨some message, 0, cursor⟩

def lettersLine (message : Bytes) (cursor : String) : OutputLine :=
  ⟨[], some (asciiJournalctl.entryJson (lettersEntry message cursor)), 0⟩

/-- After a resume cursor the native reader delivers one entry of two, then fails. -/
def rereadHandover : Handover where
  lossy := asciiDecoder
  journalctl := asciiJournalctl
  multiline := none
  journal := [lettersEntry [0x61] "i=1", lettersEntry [0x62] "i=2"]
  resume := some 0
  start := 0
  native := [.entry 0 (lettersEntry [0x61] "i=1")]
  restart := 2
  output := [.entry 1 (lettersLine [0x61] "i=1"), .entry 1 (lettersLine [0x62] "i=2")]
  cursors_nodup := by decide
  native_reads := ⟨_, rfl⟩
  native_read_before := by decide
  output_reads := .cons rfl (.cons rfl .nil)

/-- After a resume cursor the native reader fails at once, and the first message is too long. -/
def longHandover : Handover where
  lossy := asciiDecoder
  journalctl := asciiJournalctl
  multiline := none
  journal := [lettersEntry (replicate 4096 0x61) "i=1", lettersEntry [0x62] "i=2"]
  resume := some 0
  start := 0
  native := []
  restart := 2
  output := [.entry 1 (lettersLine (replicate 4096 0x61) "i=1"),
    .entry 1 (lettersLine [0x62] "i=2")]
  cursors_nodup := by decide
  native_reads := nil_prefix
  native_read_before := by decide
  output_reads := .cons rfl (.cons rfl .nil)

/-- Without a cursor the native reader fails with an entry unread, before `journalctl` starts. -/
def unreadHandover : Handover where
  lossy := asciiDecoder
  journalctl := asciiJournalctl
  multiline := none
  journal := [lettersEntry [0x61] "i=1", lettersEntry [0x62] "i=2", lettersEntry [0x63] "i=3"]
  resume := none
  start := 0
  native := [.entry 0 (lettersEntry [0x61] "i=1")]
  restart := 2
  output := [.entry 1 (lettersLine [0x63] "i=3")]
  cursors_nodup := by decide
  native_reads := ⟨_, rfl⟩
  native_read_before := by decide
  output_reads := .cons rfl .nil

/-- Without a cursor the native reader fails while its assembler holds an entry. -/
def heldHandover : Handover where
  lossy := asciiDecoder
  journalctl := asciiJournalctl
  multiline := some ⟨fun line => line.head? = some 0x61, 10, 5⟩
  journal := [lettersEntry [0x61] "i=1"]
  resume := none
  start := 0
  native := [.entry 0 (lettersEntry [0x61] "i=1")]
  restart := 1
  output := []
  cursors_nodup := by decide
  native_reads := ⟨_, rfl⟩
  native_read_before := by decide
  output_reads := .nil

/-- An entry handed on twice, one not printed, one never read, and one lost with the assembler. -/
theorem handover_astray :
    rereadHandover.events.flatten.map FedLine.checkpoint = [some "i=1", some "i=1", some "i=2"] ∧
      rereadHandover.expected.map FedLine.checkpoint = [some "i=1", some "i=2"] ∧
      longHandover.events.flatten.map FedLine.checkpoint = [some "i=2"] ∧
      longHandover.expected.map FedLine.checkpoint = [some "i=1", some "i=2"] ∧
      unreadHandover.events.flatten.map FedLine.checkpoint = [some "i=1", some "i=3"] ∧
      unreadHandover.expected.map FedLine.checkpoint = [some "i=1", some "i=2", some "i=3"] ∧
      heldHandover.events = [] ∧
      heldHandover.expected.map FedLine.checkpoint = [some "i=1"] := by
  decide +kernel

end EdgePacer.Journal
