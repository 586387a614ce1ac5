import EdgePacer.L7.Isolation

/-!
# Capturing the bytes of a connection

The probes see a read or a write of the monitored process twice: the entry stages its arguments, the
exit copies the transferred bytes into a ring record, at most 1024 of them and for `writev` at most
the first vector. A record whose bytes are not all the operation transferred carries the gap flag.
The drain turns each record into a segment for the connection's tracker.

A record that is never written leaves no trace: when the ring is full, the user memory faults or the
arguments were not staged, the next segment says nothing about the missing bytes, and the tracker
joins what comes before them to what comes after (`lost_record_unflagged`). Nor do the probes look
at the flags of `recvfrom`: bytes that are only peeked at are recorded, and for discarded ones the
memory that was not written. Otherwise missing bytes are flagged and the tracker starts afresh
(`losses_flagged`).
-/

namespace EdgePacer.Ebpf

open List Option L7

open L7 (Direction CapturedSegment ConnTracker Externals Input)

/-! ## The kernel's part -/

def l7ChunkLen : Nat := 1024
def l7FlagStreamGap : Nat := 1

def boundedCaptureLen (count capacity : Nat) : Nat :=
  if capacity < count then capacity else count

structure L7CaptureOutcome where
  (len flags : Nat)
  deriving DecidableEq, Repr

/-- How much of an operation one record can hold: `contiguousLen` bytes are readable in one piece,
`streamLen` bytes were transferred. -/
def l7CaptureOutcome (streamLen contiguousLen capacity : Nat) : L7CaptureOutcome :=
  let readableLen := if streamLen < contiguousLen then streamLen else contiguousLen
  let len := boundedCaptureLen readableLen capacity
  { len, flags := if len < streamLen then l7FlagStreamGap else 0 }

/-- The authorization of a task. -/
structure CaptureScope where
  (cgroupId scopeCgroupId policyGeneration : Nat)
  deriving DecidableEq, Repr

/-- A record of the L7 or TLS ring. -/
structure L7Chunk where
  scope : CaptureScope
  (pid tid fd : Nat)
  direction : Direction
  (flags len : Nat)
  data : Bytes

/-- A call of the process on the connection. `read` and `write` stand for the socket calls and for
`SSL_read` and `SSL_write`; the `ex` variants return their count through a pointer. `peek` and
`discard` are `recvfrom` with `MSG_PEEK`, which leaves the bytes in the stream, and with
`MSG_TRUNC`, which takes them out and leaves the buffer as it was. -/
inductive StreamCall where
  | read (received : Bytes)
  | peek (seen : Bytes)
  | discard (discarded buffer : Bytes) (discarded_le : discarded.length ≤ buffer.length)
  | write (accepted rest : Bytes)
  | writev (iovs : List Bytes) (accepted : Nat) (accepted_le : accepted ≤ iovs.flatten.length)
  | readEx (received : Bytes)
  | writeEx (accepted rest : Bytes)

namespace StreamCall

def direction : StreamCall → Direction
  | .read _ => .inbound
  | .peek _ => .inbound
  | .discard .. => .inbound
  | .readEx _ => .inbound
  | .write _ _ => .outbound
  | .writev .. => .outbound
  | .writeEx _ _ => .outbound

/-- The bytes that entered or left the stream. -/
def transferred : StreamCall → Bytes
  | .read received => received
  | .peek _ => []
  | .discard discarded _ _ => discarded
  | .readEx received => received
  | .write accepted _ => accepted
  | .writeEx accepted _ => accepted
  | .writev iovs accepted _ => iovs.flatten.take accepted

/-- The byte count that the call returns. -/
def returned (call : StreamCall) : Nat :=
  match call with
  | .peek seen => seen.length
  | _ => call.transferred.length

/-- The memory the exit probe can read in one piece. -/
def contiguous : StreamCall → Bytes
  | .read received => received
  | .peek seen => seen
  | .discard discarded buffer _ => buffer.take discarded.length
  | .readEx received => received
  | .write accepted rest => accepted ++ rest
  | .writeEx accepted rest => accepted ++ rest
  | .writev iovs _ _ => iovs.headD []

/-- The exit probe reads the first vector or the byte count from user memory. -/
def readsArguments : StreamCall → Bool
  | .read _ => false
  | .peek _ => false
  | .discard .. => false
  | .write _ _ => false
  | .writev .. => true
  | .readEx _ => true
  | .writeEx _ _ => true

/-- The call takes what it writes into the buffer out of the stream. -/
def moves : StreamCall → Bool
  | .peek _ => false
  | .discard .. => false
  | _ => true

end StreamCall

/-- What happens at the two probes of a call, as the kernel and the consumer of the ring decide. -/
structure Probe where
  (enterScope exitScope : Option CaptureScope)
  /-- The entry stored the arguments of the call; never for a call without probes. -/
  staged : Bool
  /-- Reading the first vector or the byte count faulted. -/
  argumentFault : Bool
  /-- The ring had room for a record. -/
  reserved : Bool
  /-- Reading the bytes faulted. -/
  dataFault : Bool
  tid : Nat
  timestampNano : Int64

/-- The process and descriptor of a connection, as seen by one capture instance. -/
structure CapturedStream where
  (captureGeneration pid fd : Nat)

structure StreamOp where
  call : StreamCall
  probe : Probe

/-- `read_user_prefix`: an empty prefix is never read. -/
def readUserPrefix (source : Bytes) (fault : Bool) (count capacity : Nat) : Option Bytes :=
  let len := boundedCaptureLen count capacity
  if len = 0 then some [] else if fault then none else some (source.take len)

variable (conn : CapturedStream)

/-- `emit_l7` and `emit_tls`. -/
def emitL7 (scope : CaptureScope) (op : StreamOp) : Option L7Chunk :=
  let outcome := l7CaptureOutcome op.call.returned op.call.contiguous.length l7ChunkLen
  if !op.probe.reserved then none
  else
    (readUserPrefix op.call.contiguous op.probe.dataFault outcome.len l7ChunkLen).map fun data =>
      { scope, pid := conn.pid, tid := op.probe.tid, fd := conn.fd,
        direction := op.call.direction, flags := outcome.flags, len := data.length, data }

/-- The entry and exit probes of a call: the exit needs the staged arguments, a positive count and
the authorization the entry saw. -/
def tryCapture (op : StreamOp) : Option L7Chunk :=
  match op.probe.enterScope with
  | none => none
  | some staged =>
    if !op.probe.staged then none
    else if op.call.returned = 0 then none
    else
      match op.probe.exitScope with
      | none => none
      | some scope =>
        if scope ≠ staged then none
        else if op.call.readsArguments && op.probe.argumentFault then none
        else emitL7 conn scope op

/-- The drain's decoding of a record. -/
def L7Chunk.segment (chunk : L7Chunk) (captureGeneration : Nat) (timestampNano : Int64) :
    CapturedSegment where
  captureGeneration := captureGeneration
  policyGeneration := chunk.scope.policyGeneration
  pid := chunk.pid
  tid := chunk.tid
  cgroupId := chunk.scope.cgroupId
  scopeCgroupId := chunk.scope.scopeCgroupId
  fd := chunk.fd
  direction := chunk.direction
  timestampNano := timestampNano
  streamGap := chunk.flags &&& l7FlagStreamGap != 0
  bytes := chunk.data.take (min chunk.len l7ChunkLen)

/-- The segment user space receives for a call, if any. -/
def StreamOp.segment (op : StreamOp) : Option CapturedSegment :=
  (tryCapture conn op).map (·.segment conn.captureGeneration op.probe.timestampNano)

/-- The segments user space receives: both the ring and the channel behind it keep the order. -/
def segments (ops : List StreamOp) : List CapturedSegment :=
  ops.filterMap (·.segment conn)

/-! ## Streams, losses and the tracker -/

/-- The bytes of one direction. -/
def transferredIn (dir : Direction) (ops : List StreamOp) : Bytes :=
  ops.flatMap fun op => if op.call.direction = dir then op.call.transferred else []

def receivedIn (dir : Direction) (segs : List CapturedSegment) : Bytes :=
  segs.flatMap fun seg => if seg.direction = dir then seg.bytes else []

/-- Bytes of this call do not reach user space. -/
def StreamOp.Loses (op : StreamOp) : Prop :=
  (op.segment conn).elim [] (·.bytes) ≠ op.call.transferred

/-- The tracker of the connection once it has been fed these segments, each with the answers of the
port table at that time; `none` when a call into a parser does not return. -/
def trackerAfter (ext : Externals) (inputs : List Input) : Option (ConnTracker ext) :=
  inputs.foldlM (fun t input => (t.feed input).map (·.1)) ConnTracker.new

/-- The stream is received in full, or else missing bytes are flagged on the first segment received
once they were lost, and the tracker has forgotten everything before them when the next segment
comes. -/
structure LossesFlagged (conn : CapturedStream) (ops : List StreamOp) : Prop where
  whole : (∀ op ∈ ops, ¬ op.Loses conn) →
    ∀ dir, receivedIn dir (segments conn ops) = transferredIn dir ops
  flagged : ∀ before op after, ops = before ++ op :: after → op.Loses conn →
    ∀ seg, (segments conn (op :: after)).head? = some seg → seg.streamGap = true
  forgotten : ∀ before op after, ops = before ++ op :: after → op.Loses conn →
    segments conn after ≠ [] → ∀ (ext : Externals) (inputs : List Input) t,
      inputs.map (·.segment) = segments conn (before ++ [op]) →
      trackerAfter ext inputs = some t → t = .killed

/-- The call is made under the authorization of the connection. -/
def StreamOp.Authorised (scope : CaptureScope) (op : StreamOp) : Prop :=
  op.probe.enterScope = some scope ∧ op.probe.exitScope = some scope

/-- The call neither peeks nor discards, and if bytes were transferred, the arguments were staged,
the ring had room and the user memory was readable. -/
def StreamOp.Recorded (op : StreamOp) : Prop :=
  op.call.moves = true ∧ (op.call.transferred ≠ [] →
    op.probe.staged = true ∧ op.probe.reserved = true ∧ op.probe.argumentFault = false ∧
      op.probe.dataFault = false)

/-! ## One call -/

theorem boundedCaptureLen_eq_min (count capacity : Nat) :
    boundedCaptureLen count capacity = min count capacity := by
  unfold boundedCaptureLen
  split <;> omega

/-- The captured prefix is as long as the record, the readable memory and the stream allow, and the
flag says whether that is less than the stream. -/
theorem l7CaptureOutcome_eq (streamLen contiguousLen capacity : Nat) :
    l7CaptureOutcome streamLen contiguousLen capacity =
      { len := min (min streamLen contiguousLen) capacity
        flags := if min (min streamLen contiguousLen) capacity < streamLen then l7FlagStreamGap
          else 0 } := by
  have hreadable : (if streamLen < contiguousLen then streamLen else contiguousLen) =
      min streamLen contiguousLen := by
    split <;> omega
  simp only [l7CaptureOutcome, boundedCaptureLen_eq_min, hreadable]

theorem StreamCall.returned_of_moves {call : StreamCall} (h : call.moves = true) :
    call.returned = call.transferred.length := by
  cases call with
  | peek seen => cases h
  | _ => rfl

/-- The readable memory starts with the transferred bytes, or is a first part of them. -/
theorem StreamCall.take_contiguous {call : StreamCall} (hmoves : call.moves = true) (n : Nat)
    (hn : n ≤ min call.transferred.length call.contiguous.length) :
    call.contiguous.take n = call.transferred.take n := by
  cases call with
  | read received | readEx received => rfl
  | peek seen | discard discarded buffer hle => cases hmoves
  | write accepted rest =>
    simp only [transferred, contiguous] at hn ⊢
    rw [take_append_of_le_length (by omega)]
  | writeEx accepted rest =>
    simp only [transferred, contiguous] at hn ⊢
    rw [take_append_of_le_length (by omega)]
  | writev iovs accepted haccepted =>
    cases iovs with
    | nil => simp [contiguous, transferred]
    | cons iov iovs =>
      simp only [transferred, contiguous, headD_cons, length_take] at hn ⊢
      rw [take_take, flatten_cons, take_append_of_le_length (by omega)]
      congr 1
      omega

/-- Length of the captured part of a call. -/
def StreamCall.captureLen (call : StreamCall) : Nat :=
  min (min call.transferred.length call.contiguous.length) l7ChunkLen

theorem StreamCall.captureLen_le (call : StreamCall) :
    call.captureLen ≤ call.transferred.length ∧ call.captureLen ≤ call.contiguous.length ∧
      call.captureLen ≤ l7ChunkLen := by
  unfold captureLen
  omega

section

variable {conn : CapturedStream} {scope : CaptureScope} {op : StreamOp}

theorem segment_of_nothing_transferred (hmoves : op.call.moves = true)
    (h : op.call.transferred = []) : op.segment conn = none := by
  unfold StreamOp.segment tryCapture
  cases op.probe.enterScope with
  | none => rfl
  | some staged =>
    cases op.probe.staged <;> simp [h, StreamCall.returned_of_moves hmoves]

/-- The record of a recorded call holds the first `captureLen` of its bytes. -/
theorem tryCapture_of_recorded (hauth : op.Authorised scope) (hrec : op.Recorded)
    (hne : op.call.transferred ≠ []) :
    tryCapture conn op = some
      { scope, pid := conn.pid, tid := op.probe.tid, fd := conn.fd, direction := op.call.direction
        flags := if op.call.captureLen < op.call.transferred.length then l7FlagStreamGap else 0
        len := op.call.captureLen
        data := op.call.transferred.take op.call.captureLen } := by
  obtain ⟨henter, hexit⟩ := hauth
  obtain ⟨hstaged, hreserved, hargs, hdata⟩ := hrec.2 hne
  have hlen : op.call.transferred.length ≠ 0 := fun h => hne (eq_nil_of_length_eq_zero h)
  have hle := op.call.captureLen_le
  have hprefix : readUserPrefix op.call.contiguous false op.call.captureLen l7ChunkLen =
      some (op.call.transferred.take op.call.captureLen) := by
    have hbound : boundedCaptureLen op.call.captureLen l7ChunkLen = op.call.captureLen := by
      rw [boundedCaptureLen_eq_min]
      omega
    simp only [readUserPrefix, hbound]
    split
    · next hzero => rw [hzero, take_zero]
    · rw [if_neg Bool.false_ne_true, StreamCall.take_contiguous hrec.1 _ (by omega)]
  have hdatalen : (op.call.transferred.take op.call.captureLen).length = op.call.captureLen := by
    rw [length_take]
    omega
  have houtcome := l7CaptureOutcome_eq op.call.transferred.length op.call.contiguous.length
    l7ChunkLen
  simp only [tryCapture, StreamCall.returned_of_moves hrec.1, henter, hexit, hstaged, hlen, hargs,
    emitL7, hreserved, hdata, houtcome, Bool.not_true, Bool.false_eq_true, if_false, Bool.and_false,
    ne_eq, not_true_eq_false]
  rw [← StreamCall.captureLen, hprefix, map_some, hdatalen]

/-- What is received for a recorded call: a first part of its bytes, flagged exactly when it is not
all of them. -/
theorem segment_of_recorded (hauth : op.Authorised scope) (hrec : op.Recorded)
    (hne : op.call.transferred ≠ []) :
    ∃ seg, op.segment conn = some seg ∧ seg.direction = op.call.direction ∧
      (seg.bytes ≠ op.call.transferred → seg.streamGap = true) := by
  refine ⟨_, congrArg (Option.map _) (tryCapture_of_recorded hauth hrec hne), rfl, fun hbytes => ?_⟩
  have hle := op.call.captureLen_le
  by_cases hgap : op.call.captureLen < op.call.transferred.length
  · simp [L7Chunk.segment, hgap, l7FlagStreamGap]
  · -- nothing is missing: the record holds all the bytes
    refine absurd ?_ hbytes
    show (op.call.transferred.take op.call.captureLen).take (min op.call.captureLen l7ChunkLen) = _
    rw [take_take, take_of_length_le]
    omega

/-- A recorded call that loses bytes is received with the flag. -/
theorem segment_of_loses (hauth : op.Authorised scope) (hrec : op.Recorded)
    (hloses : op.Loses conn) : ∃ seg, op.segment conn = some seg ∧ seg.streamGap = true := by
  by_cases hne : op.call.transferred = []
  · refine absurd ?_ hloses
    rw [segment_of_nothing_transferred hrec.1 hne, hne]
    rfl
  · obtain ⟨seg, hseg, -, hflag⟩ : ∃ seg, op.segment conn = some seg ∧ _ ∧
        (seg.bytes ≠ op.call.transferred → seg.streamGap = true) :=
      segment_of_recorded hauth hrec hne
    refine ⟨seg, hseg, hflag fun hbytes => hloses ?_⟩
    rw [hseg]
    exact hbytes

theorem segment_direction {seg : CapturedSegment} (h : op.segment conn = some seg) :
    seg.direction = op.call.direction := by
  obtain ⟨chunk, hchunk, rfl⟩ := map_eq_some_iff.1 h
  unfold tryCapture at hchunk
  split at hchunk
  · cases hchunk
  split at hchunk
  · cases hchunk
  split at hchunk
  · cases hchunk
  split at hchunk
  · cases hchunk
  split at hchunk
  · cases hchunk
  split at hchunk
  · cases hchunk
  unfold emitL7 at hchunk
  split at hchunk
  · cases hchunk
  obtain ⟨data, -, rfl⟩ := map_eq_some_iff.1 hchunk
  rfl

end

/-! ## Whole runs -/

variable {conn : CapturedStream}

theorem receivedIn_segments {ops : List StreamOp} (h : ∀ op ∈ ops, ¬ op.Loses conn)
    (dir : Direction) : receivedIn dir (segments conn ops) = transferredIn dir ops := by
  induction ops with
  | nil => rfl
  | cons op ops ih =>
    have hop := not_not.1 (h op mem_cons_self)
    have hrest := ih (forall_mem_cons.1 h).2
    rw [transferredIn, flatMap_cons, ← transferredIn, ← hrest]
    cases hseg : op.segment conn with
    | none =>
      rw [hseg] at hop
      rw [segments, filterMap_cons_none hseg, ← segments, ← hop]
      simp
    | some seg =>
      rw [hseg] at hop
      rw [segments, filterMap_cons_some hseg, receivedIn, flatMap_cons,
        segment_direction hseg, ← hop]
      rfl

/-- The tracker after a flagged segment. -/
theorem trackerAfter_gap {ext : Externals} {inputs : List Input} {last : Input}
    {t : ConnTracker ext} (hgap : last.segment.streamGap = true)
    (h : trackerAfter ext (inputs ++ [last]) = some t) : t = .killed := by
  rw [trackerAfter, foldlM_append] at h
  obtain ⟨before, -, hlast⟩ := bind_eq_some_iff.1 h
  simp only [foldlM_cons, foldlM_nil, bind_pure] at hlast
  obtain ⟨⟨t', records⟩, hfeed, rfl⟩ := map_eq_some_iff.1 hlast
  exact ConnTracker.feed_gap hgap hfeed

/-- **Losses are flagged.** On an authorised connection, for every sequence of calls each of which,
if it transferred bytes, was staged, found room in the ring and was read without a fault, and none
of which peeks or discards: the segments are the whole stream, or the first segment from a loss on
carries the gap flag and the tracker has forgotten the bytes before it. -/
theorem losses_flagged (conn : CapturedStream) (scope : CaptureScope) (ops : List StreamOp)
    (hauth : ∀ op ∈ ops, op.Authorised scope) (hrec : ∀ op ∈ ops, op.Recorded) :
    LossesFlagged conn ops where
  whole := receivedIn_segments
  flagged := by
    rintro before op after rfl hloses seg hseg
    have hop : op ∈ before ++ op :: after := mem_append_right _ mem_cons_self
    obtain ⟨own, hown, hgap⟩ := segment_of_loses (hauth op hop) (hrec op hop) hloses
    rw [segments, filterMap_cons_some hown] at hseg
    exact some.inj hseg ▸ hgap
  forgotten := by
    rintro before op after rfl hloses - ext inputs t hinputs ht
    have hop : op ∈ before ++ op :: after := mem_append_right _ mem_cons_self
    obtain ⟨own, hown, hgap⟩ := segment_of_loses (hauth op hop) (hrec op hop) hloses
    rw [segments, filterMap_append, filterMap_cons_some hown] at hinputs
    -- the last segment fed is the flagged one
    obtain ⟨earlier, lasts, rfl, -, hlasts⟩ := map_eq_append_iff.1 hinputs
    obtain ⟨last, rfl, rfl⟩ := map_eq_singleton_iff.1 hlasts
    exact trackerAfter_gap hgap ht

/-! ## Losses without a record -/

/-- The probes of a call of an authorised task, all of which succeed. -/
def allWell : Probe where
  enterScope := some ⟨30, 7, 1⟩
  exitScope := some ⟨30, 7, 1⟩
  staged := true
  argumentFault := false
  reserved := true
  dataFault := false
  tid := 1
  timestampNano := 0

def stream4 : CapturedStream := { captureGeneration := 1, pid := 1, fd := 4 }

/-- A request, and a response of which only the first vector is captured. -/
def vectoredExchange : List StreamOp :=
  [⟨.read (ascii "GET 0"), allWell⟩,
    ⟨.writev [ascii "20", ascii "0"] 3 (by decide), allWell⟩,
    ⟨.read (ascii "GET 1"), allWell⟩]

theorem vectoredExchange_flagged :
    (∀ op ∈ vectoredExchange, op.Authorised ⟨30, 7, 1⟩) ∧ (∀ op ∈ vectoredExchange, op.Recorded) ∧
      LossesFlagged stream4 vectoredExchange := by
  have hauth : ∀ op ∈ vectoredExchange, op.Authorised ⟨30, 7, 1⟩ := by
    simp [vectoredExchange, StreamOp.Authorised, allWell]
  have hrec : ∀ op ∈ vectoredExchange, op.Recorded := by
    simp [vectoredExchange, StreamOp.Recorded, StreamCall.moves, allWell]
  exact ⟨hauth, hrec, losses_flagged stream4 ⟨30, 7, 1⟩ vectoredExchange hauth hrec⟩

/-- A request in three reads, the second of which has this fate. -/
def threeReads (second : Probe) : List StreamOp :=
  [⟨.read (ascii "GET 1"), allWell⟩, ⟨.read (ascii "2"), second⟩, ⟨.read (ascii "3\n"), allWell⟩]

/-- The same request, had it been one byte shorter. -/
def twoReads : List StreamOp := [⟨.read (ascii "GET 1"), allWell⟩, ⟨.read (ascii "3\n"), allWell⟩]

/-- The ring is full, or the user memory faults. -/
def lossyProbes : List Probe :=
  [{ allWell with reserved := false }, { allWell with dataFault := true }]

instance (conn : CapturedStream) (op : StreamOp) : Decidable (op.Loses conn) :=
  inferInstanceAs (Decidable (_ ≠ _))

/-- The second read loses its byte, and the next segment does not carry the flag. -/
theorem threeReads_second_lost : ∀ second ∈ lossyProbes,
    StreamOp.Loses stream4 ⟨.read (ascii "2"), second⟩ ∧
      (segments stream4 ((threeReads second).drop 1)).head?.map (·.streamGap) = some false := by
  decide +kernel

/-- A read that finds the ring full, or whose memory faults, leaves no trace: user space receives
what it would receive without that read, and no segment carries the flag. -/
theorem lost_record_unflagged :
    lossyProbes.length = 2 ∧ ∀ second ∈ lossyProbes,
      segments stream4 (threeReads second) = segments stream4 twoReads ∧
        (∀ seg ∈ segments stream4 (threeReads second), seg.streamGap = false) ∧
        receivedIn .inbound (segments stream4 (threeReads second)) ≠
          transferredIn .inbound (threeReads second) ∧
        ¬ LossesFlagged stream4 (threeReads second) := by
  refine ⟨rfl, fun second hsecond => ⟨?_, ?_, ?_, fun h => ?_⟩⟩
  · revert second
    decide +kernel
  · revert second
    decide +kernel
  · revert second
    decide +kernel
  obtain ⟨hloses, hnext⟩ := threeReads_second_lost second hsecond
  obtain ⟨seg, hseg, hflag⟩ := map_eq_some_iff.1 hnext
  have hgap := h.flagged [_] _ [_] rfl hloses seg hseg
  cases hflag.symm.trans hgap

end EdgePacer.Ebpf
