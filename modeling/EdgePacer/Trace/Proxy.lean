import EdgePacer.Trace.Buffer
import EdgePacer.Trace.Request
import EdgePacer.Delivery.Shipper
import EdgePacer.Lib.Trace

/-!
# The trace proxy

Requests are tasks that forward their payloads one by one and put a payload into the buffer when it
can be tried again. Beside them the drain loop ships what the buffer holds: it copies up to fifty
entries under the lock, ships them without it, and deletes those that are settled. Tasks append
while the loop works on its copy, and a shutdown can cut both off in the middle of a ship.

The steps of a run are the points where a task or the loop awaits something. The state carries four
logs that the code does not keep: the rows the table ever held, the outcomes of the forwards, the
buffers and faults that the enqueues met, and the attempts of each drain cycle, newest first.
`always_conserves` is about these logs: no row is
gone but for a reason, a cycle goes through its entries in order, and every payload of a request
that was answered with success is accounted for.
-/

namespace EdgePacer.Trace

open Lib Delivery List TraceBuffer SeqTable

/-- What an answer of the transport means for a payload. An error is known by whether it is
retryable. -/
def shipPayload : Except Bool ShipResult → ForwardOutcome
  | .ok (.accepted _) => .delivered
  | .ok (.rejected _ _) => .nonRetryable
  | .error true => .retryable
  | .error false => .nonRetryable

def DRAIN_BATCH_SIZE : Nat := 50

/-! ## Requests as tasks -/

/-- What became of a payload. -/
inductive Fate where
  | delivered
  | refused
  | stored (sequence : Nat)
  | lost (error : TraceBufferError)

/-- Where a task stands, and which payloads it still has to forward. -/
inductive TaskPhase where
  | forwarding (payload : Bytes) (rest : List Bytes)
  | buffering (payload : Bytes) (rest : List Bytes)
  | answered (result : Except TraceRequestRejection Unit)
  /-- The client went away and the task with it. -/
  | dropped

/-- A request being answered. -/
structure Task where
  request : List ResourceSpans
  fates : List (Bytes × Fate)
  phase : TaskPhase

namespace Task

/-- Go on with the next payload, or answer. -/
def goOn (t : Task) : List Bytes → Task
  | [] => { t with phase := .answered (.ok ()) }
  | payload :: rest => { t with phase := .forwarding payload rest }

def settle (t : Task) (payload : Bytes) (fate : Fate) (rest : List Bytes) : Task :=
  { t with fates := t.fates ++ [(payload, fate)] }.goOn rest

def forwarded (t : Task) (payload : Bytes) (rest : List Bytes) : ForwardOutcome → Task
  | .delivered => t.settle payload .delivered rest
  | .nonRetryable => t.settle payload .refused rest
  | .retryable => { t with phase := .buffering payload rest }

end Task

/-! ## The proxy -/

/-- Where the drain loop stands. -/
inductive DrainPhase where
  | waiting
  /-- It holds the lock and looks for entries. -/
  | peeking
  /-- It ships `entry`; `rest` follows, and `delivered` will be deleted. -/
  | shipping (entry : BufferedTraceEntry) (rest : List BufferedTraceEntry) (delivered : List Nat)
  | deleting (delivered : List Nat)
  | stopped
  deriving DecidableEq

/-- One ship of a buffered entry; no outcome while it is under way or when it was cut off. -/
structure Attempt where
  entry : BufferedTraceEntry
  outcome : Option ForwardOutcome

/-- The entry is not to be tried again. -/
def Attempt.Final (a : Attempt) : Prop :=
  a.outcome = some .delivered ∨ a.outcome = some .nonRetryable

/-- A proxy with its buffer, its loop and its tasks. -/
structure Proxy where
  config : TraceProxyConfig
  buffer : TraceBuffer
  shutdown : Bool
  drain : DrainPhase
  tasks : List Task
  /-- Every row the table ever held. -/
  rows : List (Nat × Bytes)
  /-- The payloads forwarded by tasks, with the outcome. -/
  forwards : List (Bytes × ForwardOutcome)
  /-- The payloads that tasks put into the buffer, with the buffer at that moment and whether it
  failed. -/
  enqueues : List (Bytes × TraceBuffer × Bool)
  /-- The attempts of each drain cycle; cycles and attempts newest first. -/
  cycles : List (List Attempt)

/-- One step of a task or of the drain loop. -/
inductive Event where
  | request (request : List ResourceSpans)
  | forwarded (task : Nat) (answer : Except Bool ShipResult)
  /-- A task sees the shutdown before the answer. -/
  | forwardCut (task : Nat)
  | enqueued (task : Nat) (fault : Bool)
  | taskDropped (task : Nat)
  | tick
  /-- One turn of the loop that drops undecodable entries. -/
  | peeked (peekFault deleteFault : Bool)
  | shipped (answer : Except Bool ShipResult)
  | shipCut
  | deleted (fault : Bool)
  | drainReturns
  | drainAborted
  | shutdown

section

variable (lossy : Bytes → String) (encode : WireRequest → Option Bytes)

variable (config : TraceProxyConfig)

/-- The payloads of an accepted request. A batch that does not encode is skipped. -/
def encodedPayloads (request : List ResourceSpans) : List Bytes :=
  (payloads lossy config request).filterMap encode

/-- A new task: the policy first, then the payloads. -/
def newTask (request : List ResourceSpans) : Task :=
  match applyPolicy config request with
  | .error rejection => ⟨request, [], .answered (.error (.serviceNamePolicy rejection))⟩
  | .ok accepted =>
      Task.goOn ⟨request, [], .dropped⟩ (encodedPayloads lossy encode config accepted)

namespace Proxy

/-- A proxy that starts over a buffer file. -/
def start (table : SeqTable Bytes) (maxMb : Nat) : Proxy :=
  ⟨config, .open table maxMb, false, .waiting, [], table.rows, [], [], []⟩

variable (s : Proxy)

/-- A task's forward is answered. -/
def taskForwarded (i : Nat) (outcome : ForwardOutcome) : Proxy :=
  match s.tasks[i]? with
  | some ⟨request, fates, .forwarding payload rest⟩ =>
      { s with
        forwards := s.forwards ++ [(payload, outcome)]
        tasks := s.tasks.set i
          (Task.forwarded ⟨request, fates, .forwarding payload rest⟩ payload rest outcome) }
  | _ => s

def taskForwardCut (i : Nat) : Proxy :=
  match s.tasks[i]? with
  | some ⟨request, fates, .forwarding _ _⟩ =>
      if s.shutdown then
        { s with tasks := s.tasks.set i ⟨request, fates, .answered (.error .shuttingDown)⟩ }
      else s
  | _ => s

/-- A task has the lock and stores its payload. -/
def bufferForRetry (i : Nat) (fault : Bool) : Proxy :=
  match s.tasks[i]? with
  | some ⟨request, fates, .buffering payload rest⟩ =>
      let s := { s with enqueues := s.enqueues ++ [(payload, s.buffer, fault)] }
      match s.buffer.enqueue fault s.config.archiveId s.config.repoId payload with
      | .ok (sequence, buffer) =>
          { s with
            buffer := buffer
            rows := s.rows ++ buffer.rows.drop s.buffer.rows.length
            tasks := s.tasks.set i
              (Task.settle ⟨request, fates, .buffering payload rest⟩ payload (.stored sequence)
                rest) }
      | .error error =>
          { s with
            tasks := s.tasks.set i
              (Task.settle ⟨request, fates, .buffering payload rest⟩ payload (.lost error) rest) }
  | _ => s

def taskDropped (i : Nat) : Proxy :=
  match s.tasks[i]? with
  | some ⟨_, _, .answered _⟩ => s
  | some t => { s with tasks := s.tasks.set i { t with phase := .dropped } }
  | none => s

/-- Peek; an entry that does not decode is deleted, and the loop peeks again. -/
def peeked (peekFault deleteFault : Bool) : Proxy :=
  match s.buffer.peek peekFault DRAIN_BATCH_SIZE with
  | .ok [] => { s with drain := .waiting }
  | .ok (entry :: rest) =>
      { s with
        drain := .shipping entry rest []
        cycles := [⟨entry, none⟩] :: s.cycles }
  | .error (.corrupt sequence) =>
      -- the phase stays, so the next turn peeks again
      match s.buffer.deleteSequences deleteFault [sequence] with
      | .ok buffer => { s with buffer := buffer }
      | .error _ => { s with drain := .waiting }
  | .error _ => { s with drain := .waiting }

/-- The attempt under way is answered. -/
def logOutcome (outcome : ForwardOutcome) : List (List Attempt) → List (List Attempt)
  | (a :: older) :: cycles => ({ a with outcome := some outcome } :: older) :: cycles
  | cycles => cycles

/-- A next attempt in the same cycle. -/
def logAttempt (entry : BufferedTraceEntry) : List (List Attempt) → List (List Attempt)
  | cycle :: cycles => (⟨entry, none⟩ :: cycle) :: cycles
  | [] => []

/-- The cycle is through with shipping. -/
def finish (delivered : List Nat) : Proxy :=
  if delivered.isEmpty then { s with drain := .waiting }
  else { s with drain := .deleting delivered }

/-- An entry was shipped with this outcome. -/
def shipped (s : Proxy) (outcome : ForwardOutcome) : Proxy :=
  match s.drain with
  | .shipping entry rest delivered =>
      let s := { s with cycles := logOutcome outcome s.cycles }
      -- nothing is shipped past an entry that is to be tried again
      if outcome = .retryable then s.finish delivered
      else
        match rest with
        | [] => s.finish (delivered ++ [entry.sequence])
        | next :: rest =>
            { s with
              drain := .shipping next rest (delivered ++ [entry.sequence])
              cycles := logAttempt next s.cycles }
  | _ => s

def shipCut : Proxy :=
  match s.drain with
  | .shipping _ _ delivered => if s.shutdown then s.finish delivered else s
  | _ => s

def deleted (fault : Bool) : Proxy :=
  match s.drain with
  | .deleting delivered =>
      match s.buffer.deleteSequences fault delivered with
      | .ok buffer => { s with buffer := buffer, drain := .waiting }
      | .error _ => { s with drain := .waiting }
  | _ => s

def step : Event → Proxy
  | .request request => { s with tasks := s.tasks ++ [newTask lossy encode s.config request] }
  | .forwarded i answer => s.taskForwarded i (shipPayload answer)
  | .forwardCut i => s.taskForwardCut i
  -- the loop holds the lock while it peeks
  | .enqueued i fault => if s.drain = .peeking then s else s.bufferForRetry i fault
  | .taskDropped i => s.taskDropped i
  | .tick => if s.drain = .waiting then { s with drain := .peeking } else s
  | .peeked peekFault deleteFault =>
      if s.drain = .peeking then s.peeked peekFault deleteFault else s
  | .shipped answer => s.shipped (shipPayload answer)
  | .shipCut => s.shipCut
  | .deleted fault => s.deleted fault
  | .drainReturns => if s.drain = .waiting ∧ s.shutdown then { s with drain := .stopped } else s
  | .drainAborted => if s.drain = .peeking then s else { s with drain := .stopped }
  | .shutdown => { s with shutdown := true }

/-! ## What is claimed -/

/-- The row's own payload was delivered, or refused for good. -/
def Shipped (cycles : List (List Attempt)) (row : Nat × Bytes) : Prop :=
  ∃ cycle ∈ cycles, ∃ a ∈ cycle, decodeEntry row.1 row.2 = some a.entry ∧ a.Final

/-- What stands behind the fate of a payload. -/
def Settled (payload : Bytes) : Fate → Prop
  | .delivered => (payload, .delivered) ∈ s.forwards
  | .refused => (payload, .nonRetryable) ∈ s.forwards
  | .stored sequence => ∃ raw, (sequence, raw) ∈ s.rows ∧
      decodeEntry sequence raw = some ⟨sequence, s.config.archiveId, s.config.repoId, payload⟩
  | .lost error => ∃ b fault, (payload, b, fault) ∈ s.enqueues ∧
      b.enqueue fault s.config.archiveId s.config.repoId payload = .error error

/-- Entries are shipped in sequence order, and only the last one can be one to try again. -/
def InOrder (cycle : List Attempt) : Prop :=
  (cycle.map fun a => a.entry.sequence).Pairwise (· > ·) ∧ ∀ a ∈ cycle.tail, a.Final

/-- No row is gone without a reason. -/
def Kept : Prop :=
  ∀ row ∈ s.rows, row ∈ s.buffer.rows ∨ decodeEntry row.1 row.2 = none ∨ Shipped s.cycles row

/-- Every resource with spans of a request answered with success is accounted for. -/
def Accounted (t : Task) : Prop :=
  t.phase = .answered (.ok ()) → ∃ accepted, applyPolicy s.config t.request = .ok accepted ∧
    List.Forall₂ (fun rs outcome => encode (resourceBatch lossy s.config rs) = some outcome.1 ∧
      s.Settled outcome.1 outcome.2) (accepted.filter hasSpans) t.fates

/-- No span is lost without a reason. -/
structure Conserves (s : Proxy) : Prop where
  held : ∀ row ∈ s.buffer.rows, row ∈ s.rows
  kept : s.Kept
  inOrder : ∀ cycle ∈ s.cycles, InOrder cycle
  accounted : ∀ t ∈ s.tasks, s.Accounted lossy encode t

/-! ## Tasks -/

end Proxy

/-- The payloads a task has still to settle before it answers with success. -/
def TaskPhase.pending : TaskPhase → Option (List Bytes)
  | .forwarding payload rest => some (payload :: rest)
  | .buffering payload rest => some (payload :: rest)
  | .answered (.ok _) => some []
  | .answered (.error _) => none
  | .dropped => none

namespace Proxy

/-- The payloads settled and those pending are the request's, in order. -/
def TaskOk (s : Proxy) (t : Task) : Prop :=
  ∀ pending, t.phase.pending = some pending → ∃ accepted,
    applyPolicy s.config t.request = .ok accepted ∧
      t.fates.map Prod.fst ++ pending = encodedPayloads lossy encode s.config accepted ∧
      ∀ outcome ∈ t.fates, s.Settled outcome.1 outcome.2

variable {s : Proxy} {payload : Bytes} {fate : Fate} {t : Task} {cycles : List (List Attempt)}
  {row : Nat × Bytes} {drain : DrainPhase} {delivered : List Nat} {rest : List BufferedTraceEntry}
  {entry : BufferedTraceEntry} {older : List Attempt}

section

variable {s' : Proxy} (hconfig : s'.config = s.config) (hrows : ∀ row ∈ s.rows, row ∈ s'.rows)
  (hforwards : ∀ f ∈ s.forwards, f ∈ s'.forwards) (henqueues : ∀ e ∈ s.enqueues, e ∈ s'.enqueues)

include hconfig hrows hforwards henqueues

theorem Settled.mono (h : s.Settled payload fate) : s'.Settled payload fate := by
  cases fate with
  | delivered | refused => exact hforwards _ h
  | stored sequence =>
    obtain ⟨raw, hraw, hdec⟩ := h
    exact ⟨raw, hrows _ hraw, by rw [hconfig]; exact hdec⟩
  | lost error =>
    obtain ⟨b, fault, hmem, herror⟩ := h
    exact ⟨b, fault, henqueues _ hmem, by rw [hconfig]; exact herror⟩

variable {lossy encode} in
theorem TaskOk.mono (h : s.TaskOk lossy encode t) : s'.TaskOk lossy encode t := by
  intro pending hpending
  obtain ⟨accepted, hpolicy, hpayloads, hsettled⟩ := h pending hpending
  refine ⟨accepted, by rw [hconfig]; exact hpolicy, by rw [hconfig]; exact hpayloads, ?_⟩
  exact fun outcome ho => (hsettled outcome ho).mono hconfig hrows hforwards henqueues

end

variable {lossy encode}

theorem pending_goOn (t : Task) (rest : List Bytes) : (t.goOn rest).phase.pending = some rest := by
  cases rest with
  | nil | cons payload rest => rfl

theorem fates_goOn (t : Task) (rest : List Bytes) :
    (t.goOn rest).fates = t.fates ∧ (t.goOn rest).request = t.request := by
  cases rest with
  | nil | cons payload rest => exact ⟨rfl, rfl⟩

theorem taskOk_newTask (s : Proxy) (request : List ResourceSpans) :
    s.TaskOk lossy encode (newTask lossy encode s.config request) := by
  intro pending hpending
  unfold newTask at hpending ⊢
  cases hpolicy : applyPolicy s.config request with
  | error rejection =>
    rw [hpolicy] at hpending
    cases hpending
  | ok accepted =>
    rw [hpolicy] at hpending
    rw [pending_goOn] at hpending
    cases hpending
    obtain ⟨hfates, hrequest⟩ :=
      fates_goOn ⟨request, [], .dropped⟩ (encodedPayloads lossy encode s.config accepted)
    refine ⟨accepted, by rw [hrequest]; exact hpolicy, by rw [hfates]; rfl, ?_⟩
    rw [hfates]
    exact forall_mem_nil _

/-- The first pending payload is settled. -/
theorem TaskOk.settle (h : s.TaskOk lossy encode t) {rest : List Bytes}
    (hpending : t.phase.pending = some (payload :: rest)) (hfate : s.Settled payload fate) :
    s.TaskOk lossy encode (t.settle payload fate rest) := by
  intro pending hpending'
  obtain ⟨accepted, hpolicy, hpayloads, hsettled⟩ := h _ hpending
  rw [Task.settle, pending_goOn] at hpending'
  cases hpending'
  obtain ⟨hfates, hrequest⟩ := fates_goOn { t with fates := t.fates ++ [(payload, fate)] } rest
  refine ⟨accepted, by rw [Task.settle, hrequest]; exact hpolicy, ?_, ?_⟩
  · rw [Task.settle, hfates, map_append, append_assoc]
    exact hpayloads
  · rw [Task.settle, hfates]
    exact forall_mem_append.2 ⟨hsettled, forall_mem_singleton.2 hfate⟩

theorem forall_mem_set {P : Task → Prop} {ts : List Task} (h : ∀ t ∈ ts, P t) (ht : P t) (i : Nat) :
    ∀ t' ∈ ts.set i t, P t' := by
  intro t' ht'
  rcases mem_or_eq_of_mem_set ht' with hmem | rfl
  · exact h t' hmem
  · exact ht

theorem forall₂_of_map_eq_filterMap {α β γ : Type} {f : α → Option β} {g : γ → β}
    (hf : ∀ a, (f a).isSome) {P : γ → Prop} {as : List α} {cs : List γ} (hcs : ∀ c ∈ cs, P c)
    (h : cs.map g = as.filterMap f) : List.Forall₂ (fun a c => f a = some (g c) ∧ P c) as cs := by
  induction as generalizing cs with
  | nil =>
    rw [filterMap_nil, map_eq_nil_iff] at h
    subst h
    exact .nil
  | cons a as ih =>
    obtain ⟨b, hb⟩ := Option.isSome_iff_exists.1 (hf a)
    rw [filterMap_cons, hb] at h
    cases cs with
    | nil => cases h
    | cons c cs =>
      obtain ⟨hhead, htail⟩ := List.cons.inj h
      refine .cons ⟨by rw [hb, hhead], hcs c mem_cons_self⟩ ?_
      exact ih ((forall_mem_cons.1 hcs).2) htail

theorem TaskOk.accounted (hencode : ∀ r, (encode r).isSome) (h : s.TaskOk lossy encode t) :
    s.Accounted lossy encode t := by
  intro hphase
  obtain ⟨accepted, hpolicy, hpayloads, hsettled⟩ := h [] (by rw [hphase]; rfl)
  refine ⟨accepted, hpolicy, ?_⟩
  rw [append_nil, encodedPayloads, payloads_eq, filterMap_map] at hpayloads
  exact forall₂_of_map_eq_filterMap (fun rs => hencode (resourceBatch lossy s.config rs)) hsettled
    hpayloads

/-! ## The drain loop -/

/-- The entry is a decoded row. -/
def FromRow (s : Proxy) (entry : BufferedTraceEntry) : Prop :=
  ∃ raw, (entry.sequence, raw) ∈ s.rows ∧ decodeEntry entry.sequence raw = some entry

/-- The row of this number was shipped. -/
def Done (s : Proxy) (sequence : Nat) : Prop :=
  ∃ raw, (sequence, raw) ∈ s.rows ∧ Shipped s.cycles (sequence, raw)

/-- The loop's copy stands for rows in order, and what it is to delete is done. -/
def DrainOk (s : Proxy) : Prop :=
  match s.drain with
  | .shipping entry rest delivered =>
      ((entry :: rest).map BufferedTraceEntry.sequence).Pairwise (· < ·) ∧
        (∀ e ∈ entry :: rest, s.FromRow e) ∧ (∀ n ∈ delivered, s.Done n) ∧
        ∃ older cycles, s.cycles = (⟨entry, none⟩ :: older) :: cycles ∧ ∀ a ∈ older, a.Final
  | .deleting delivered => ∀ n ∈ delivered, s.Done n
  | _ => True

theorem Shipped.mono {cycles' : List (List Attempt)}
    (h : ∀ cycle ∈ cycles, ∀ a ∈ cycle, a.Final → ∃ cycle' ∈ cycles', a ∈ cycle')
    (hrow : Shipped cycles row) : Shipped cycles' row := by
  obtain ⟨cycle, hcycle, a, ha, hdec, hfinal⟩ := hrow
  obtain ⟨cycle', hcycle', ha'⟩ := h cycle hcycle a ha hfinal
  exact ⟨cycle', hcycle', a, ha', hdec, hfinal⟩

variable (lossy encode) in
/-- What the tasks and the loop know of the buffer. -/
structure Inv (s : Proxy) : Prop where
  held : ∀ row ∈ s.buffer.rows, row ∈ s.rows
  bounded : ∀ row ∈ s.rows, row.1 ≤ s.buffer.core.table.lastSeq
  unique : (s.rows.map Prod.fst).Nodup
  kept : s.Kept
  inOrder : ∀ cycle ∈ s.cycles, InOrder cycle
  drain : s.DrainOk
  tasks : ∀ t ∈ s.tasks, s.TaskOk lossy encode t

theorem Inv.conserves (hencode : ∀ r, (encode r).isSome) (h : s.Inv lossy encode) :
    s.Conserves lossy encode :=
  ⟨h.held, h.kept, h.inOrder, fun t ht => (h.tasks t ht).accounted hencode⟩

theorem inv_start (table : SeqTable Bytes) (maxMb : Nat) :
    (start config table maxMb).Inv lossy encode where
  held := fun _ h => h
  bounded := fun _ h => table.bounded _ (mem_map_of_mem h)
  unique := table.seqs_nodup
  kept := fun _ h => .inl h
  inOrder := forall_mem_nil _
  drain := trivial
  tasks := forall_mem_nil _

variable (h : s.Inv lossy encode)

include h

theorem Inv.withTasks {forwards : List (Bytes × ForwardOutcome)}
    {enqueues : List (Bytes × TraceBuffer × Bool)} {tasks : List Task}
    (htasks : ∀ t ∈ tasks, TaskOk lossy encode { s with forwards, enqueues, tasks } t) :
    Inv lossy encode { s with forwards, enqueues, tasks } :=
  ⟨h.held, h.bounded, h.unique, h.kept, h.inOrder, h.drain, htasks⟩

theorem Inv.withDrain (hdrain : DrainOk { s with drain := drain }) :
    Inv lossy encode { s with drain := drain } :=
  ⟨h.held, h.bounded, h.unique, h.kept, h.inOrder, hdrain, h.tasks⟩

theorem Inv.finish (hdone : ∀ n ∈ delivered, s.Done n) : (s.finish delivered).Inv lossy encode := by
  unfold Proxy.finish
  split
  · exact h.withDrain trivial
  · exact h.withDrain hdone

/-- Deletion of rows that do not decode or were shipped. -/
theorem Inv.delete {buffer : TraceBuffer} {ks : List Nat}
    (htable : buffer.core.table = s.buffer.core.table.deleteIn ks)
    (hks : ∀ row ∈ s.rows, row.1 ∈ ks → decodeEntry row.1 row.2 = none ∨ Shipped s.cycles row)
    (hdrain : DrainOk { s with drain := drain }) :
    Inv lossy encode { s with buffer := buffer, drain := drain } where
  held := by
    intro row hrow
    rw [TraceBuffer.rows, htable] at hrow
    exact h.held row (mem_filter.1 hrow).1
  bounded := by
    intro row hrow
    rw [htable]
    exact h.bounded row hrow
  unique := h.unique
  kept := by
    intro row hrow
    rcases h.kept row hrow with hin | hout
    · by_cases hmem : row.1 ∈ ks
      · exact .inr (hks row hrow hmem)
      · left
        show row ∈ buffer.core.table.rows
        rw [htable]
        exact mem_filter.2 ⟨hin, decide_eq_true hmem⟩
    · exact .inr hout
  inOrder := h.inOrder
  drain := hdrain
  tasks := h.tasks

/-- Other cycles, in which all that was shipped is. -/
theorem Inv.withCycles {cycles : List (List Attempt)}
    (hmono : ∀ row, Shipped s.cycles row → Shipped cycles row)
    (horder : ∀ cycle ∈ cycles, InOrder cycle) (hdrain : DrainOk { s with cycles, drain }) :
    Inv lossy encode { s with cycles, drain } where
  held := h.held
  bounded := h.bounded
  unique := h.unique
  kept row hrow := (h.kept row hrow).imp_right fun hout => hout.imp_right (hmono row)
  inOrder := horder
  drain := hdrain
  tasks := h.tasks

theorem Inv.row_eq (hrow : row ∈ s.rows) {raw : Bytes} (hraw : (row.1, raw) ∈ s.rows) :
    row = (row.1, raw) :=
  inj_on_of_nodup_map h.unique hrow hraw rfl

theorem Inv.drainOk (hphase : s.drain = drain) : DrainOk { s with drain := drain } :=
  hphase ▸ h.drain

/-! ## Steps -/

theorem inv_taskForwarded (i : Nat) (outcome : ForwardOutcome) :
    (s.taskForwarded i outcome).Inv lossy encode := by
  unfold taskForwarded
  split
  · next request fates payload rest ht =>
    have hold := h.tasks _ (List.mem_of_getElem? ht)
    apply h.withTasks
    -- the log only grows, so the other tasks stay as they are
    have hgrow : ∀ t, s.TaskOk lossy encode t → TaskOk lossy encode
        { s with
          forwards := s.forwards ++ [(payload, outcome)]
          tasks := s.tasks.set i (Task.forwarded ⟨request, fates, .forwarding payload rest⟩ payload
            rest outcome) } t := by
      intro t ok
      refine TaskOk.mono ?_ ?_ ?_ ?_ ok
      · rfl
      · exact fun _ hr => hr
      · exact fun _ hf => mem_append_left _ hf
      · exact fun _ he => he
    refine forall_mem_set (fun t ht => hgrow t (h.tasks t ht)) ?_ i
    have hnew := hgrow _ hold
    cases outcome with
    | delivered | nonRetryable => exact hnew.settle rfl (mem_append_right _ (mem_singleton.2 rfl))
    | retryable => exact hnew
  · exact h

theorem inv_taskForwardCut (i : Nat) : (s.taskForwardCut i).Inv lossy encode := by
  unfold taskForwardCut
  split
  · next request fates payload rest ht =>
    split
    · refine h.withTasks (forall_mem_set h.tasks ?_ i)
      intro pending hpending
      cases hpending
    · exact h
  · exact h

theorem inv_taskDropped (i : Nat) : (s.taskDropped i).Inv lossy encode := by
  unfold taskDropped
  split
  · exact h
  · refine h.withTasks (forall_mem_set h.tasks ?_ i)
    intro pending hpending
    cases hpending
  · exact h

omit h in
/-- A stored payload is one more row. -/
theorem Inv.store {s : Proxy} (h : s.Inv lossy encode) {buffer : TraceBuffer} {raw : Bytes}
    (htable : buffer.core.table = s.buffer.core.table.insertAll [raw])
    {enqueues : List (Bytes × TraceBuffer × Bool)} {tasks : List Task}
    (htasks : ∀ t ∈ tasks, TaskOk lossy encode
      { s with
        buffer
        rows := s.rows ++ [(s.buffer.core.table.lastSeq + 1, raw)]
        enqueues
        tasks } t) :
    Inv lossy encode
      { s with
        buffer
        rows := s.rows ++ [(s.buffer.core.table.lastSeq + 1, raw)]
        enqueues
        tasks } where
  held := by
    intro row hrow
    rw [TraceBuffer.rows, htable, rows_insertAll] at hrow
    rcases mem_append.1 hrow with hrow | hrow
    · exact mem_append_left _ (h.held row hrow)
    · exact mem_append_right _ hrow
  bounded := by
    intro row hrow
    show row.1 ≤ buffer.core.table.lastSeq
    rw [htable]
    rcases mem_append.1 hrow with hrow | hrow
    · exact Nat.le_succ_of_le (h.bounded row hrow)
    · exact le_of_eq (congrArg Prod.fst (mem_singleton.1 hrow))
  unique := by
    show ((s.rows ++ [(s.buffer.core.table.lastSeq + 1, raw)]).map Prod.fst).Nodup
    rw [map_append, nodup_append]
    refine ⟨h.unique, nodup_singleton _, ?_⟩
    intro a ha b hb hab
    -- numbers are never given twice, deleted rows included
    obtain ⟨row, hrow, rfl⟩ := mem_map.1 ha
    have hle := h.bounded row hrow
    rw [map_singleton, mem_singleton] at hb
    omega
  kept := by
    intro row hrow
    show row ∈ buffer.core.table.rows ∨ _
    rw [htable, rows_insertAll]
    rcases mem_append.1 hrow with hrow | hrow
    · exact (h.kept row hrow).imp_left (mem_append_left _)
    · exact .inl (mem_append_right _ hrow)
  inOrder := h.inOrder
  drain := by
    have hmono : ∀ row, row ∈ s.rows → row ∈ s.rows ++ [(s.buffer.core.table.lastSeq + 1, raw)] :=
      fun row hrow => mem_append_left _ hrow
    have hdrain := h.drain
    unfold DrainOk at hdrain ⊢
    dsimp only
    split
    · next entry rest delivered hphase =>
      rw [hphase] at hdrain
      obtain ⟨hsorted, hfrom, hdone, hcycle⟩ := hdrain
      refine ⟨hsorted, fun e he => ?_, fun n hn => ?_, hcycle⟩
      · obtain ⟨r, hr, hdec⟩ := hfrom e he
        exact ⟨r, hmono _ hr, hdec⟩
      · obtain ⟨r, hr, hshipped⟩ := hdone n hn
        exact ⟨r, hmono _ hr, hshipped⟩
    · next delivered hphase =>
      rw [hphase] at hdrain
      intro n hn
      obtain ⟨r, hr, hshipped⟩ := hdrain n hn
      exact ⟨r, hmono _ hr, hshipped⟩
    · trivial
  tasks := htasks

theorem inv_bufferForRetry (i : Nat) (fault : Bool) :
    (s.bufferForRetry i fault).Inv lossy encode := by
  unfold bufferForRetry
  split
  · next request fates payload rest ht =>
    have hold := h.tasks _ (List.mem_of_getElem? ht)
    dsimp only
    split
    · next sequence buffer henq =>
      obtain ⟨raw, htable, rfl, hdec⟩ := enqueue_ok henq
      have hnew : buffer.rows.drop s.buffer.rows.length =
          [(s.buffer.core.table.lastSeq + 1, raw)] := by
        unfold TraceBuffer.rows
        rw [htable]
        exact drop_left' rfl
      rw [hnew]
      apply h.store htable
      have hgrow : ∀ t, s.TaskOk lossy encode t → TaskOk lossy encode
          { s with
            buffer := buffer
            rows := s.rows ++ [(s.buffer.core.table.lastSeq + 1, raw)]
            enqueues := s.enqueues ++ [(payload, s.buffer, fault)]
            tasks := s.tasks.set i (Task.settle ⟨request, fates, .buffering payload rest⟩ payload
              (.stored (s.buffer.core.table.lastSeq + 1)) rest) } t := by
        intro t ok
        refine TaskOk.mono ?_ ?_ ?_ ?_ ok
        · rfl
        · exact fun _ hr => mem_append_left _ hr
        · exact fun _ hf => hf
        · exact fun _ he => mem_append_left _ he
      refine forall_mem_set (fun t ht => hgrow t (h.tasks t ht)) ?_ i
      exact (hgrow _ hold).settle rfl ⟨raw, mem_append_right _ (mem_singleton.2 rfl), hdec⟩
    · next error henq =>
      apply h.withTasks
      have hgrow : ∀ t, s.TaskOk lossy encode t → TaskOk lossy encode
          { s with
            enqueues := s.enqueues ++ [(payload, s.buffer, fault)]
            tasks := s.tasks.set i (Task.settle ⟨request, fates, .buffering payload rest⟩ payload
              (.lost error) rest) } t := by
        intro t ok
        refine TaskOk.mono ?_ ?_ ?_ ?_ ok
        · rfl
        · exact fun _ hr => hr
        · exact fun _ hf => hf
        · exact fun _ he => mem_append_left _ he
      refine forall_mem_set (fun t ht => hgrow t (h.tasks t ht)) ?_ i
      exact (hgrow _ hold).settle rfl
        ⟨s.buffer, fault, mem_append_right _ (mem_singleton.2 rfl), henq⟩
  · exact h

theorem inv_peeked (peekFault deleteFault : Bool) :
    (s.peeked peekFault deleteFault).Inv lossy encode := by
  unfold peeked
  split
  · exact h.withDrain trivial
  · next entry rest hpeek =>
    obtain ⟨hsorted, hfrom⟩ := peek_ok hpeek
    have hmono : ∀ row, Shipped s.cycles row → Shipped ([⟨entry, none⟩] :: s.cycles) row :=
      fun row => Shipped.mono fun cycle hc a ha _ => ⟨cycle, mem_cons_of_mem _ hc, ha⟩
    refine h.withCycles hmono (fun cycle hcycle => ?_) ?_
    · rcases mem_cons.1 hcycle with rfl | hcycle
      · exact ⟨pairwise_singleton _ _, forall_mem_nil _⟩
      · exact h.inOrder cycle hcycle
    · refine ⟨hsorted, fun e he => ?_, forall_mem_nil _, [], s.cycles, rfl,
        forall_mem_nil _⟩
      obtain ⟨raw, hraw, hdec⟩ := hfrom e he
      exact ⟨raw, h.held _ hraw, hdec⟩
  · next sequence hpeek =>
    obtain ⟨raw, hraw, hdec⟩ := peek_corrupt hpeek
    split
    · next buffer hdel =>
      have hdrain : DrainOk { s with drain := s.drain } := h.drain
      refine h.delete (deleteSequences_ok hdel) ?_ hdrain
      rintro row hrow hk
      obtain ⟨n, bytes⟩ := row
      cases mem_singleton.1 hk
      -- the number stands for the row that did not decode
      cases h.row_eq hrow (h.held _ hraw)
      exact .inl hdec
    · exact h.withDrain trivial
  · exact h.withDrain trivial

/-- The answer to the attempt under way is logged. -/
theorem Inv.logOutcome (hcycles : s.cycles = (⟨entry, none⟩ :: older) :: cycles)
    (outcome : ForwardOutcome) :
    (∀ row, Shipped s.cycles row → Shipped (logOutcome outcome s.cycles) row) ∧
      ∀ cycle ∈ Proxy.logOutcome outcome s.cycles, InOrder cycle := by
  have hall := h.inOrder
  rw [hcycles] at hall ⊢
  refine ⟨fun row => Shipped.mono fun cycle hc a ha hfinal => ?_, fun cycle hc => ?_⟩
  · rcases mem_cons.1 hc with rfl | hc
    · rcases mem_cons.1 ha with rfl | ha
      · -- the attempt under way settles nothing yet
        exact hfinal.elim (fun h' => nomatch h') fun h' => nomatch h'
      · exact ⟨_, mem_cons_self, mem_cons_of_mem _ ha⟩
    · exact ⟨cycle, mem_cons_of_mem _ hc, ha⟩
  · rcases mem_cons.1 hc with rfl | hc
    · exact hall (⟨entry, none⟩ :: older) mem_cons_self
    · exact hall cycle (mem_cons_of_mem _ hc)

/-- The next entry of the cycle is shipped after one that is settled. -/
theorem Inv.attempt {a : Attempt} (hcycles : s.cycles = (a :: older) :: cycles) (hfinal : a.Final)
    (hlt : entry.sequence > a.entry.sequence) (holder : ∀ a' ∈ older, a'.Final)
    (hsorted : ((entry :: rest).map BufferedTraceEntry.sequence).Pairwise (· < ·))
    (hfrom : ∀ e ∈ entry :: rest, s.FromRow e) (hdone : ∀ n ∈ delivered, s.Done n) :
    Inv lossy encode
      { s with
        drain := .shipping entry rest delivered
        cycles := logAttempt entry s.cycles } := by
  have hall := h.inOrder
  rw [hcycles] at hall
  have hlog : logAttempt entry s.cycles = (⟨entry, none⟩ :: a :: older) :: cycles := by
    rw [hcycles]
    rfl
  have hmono : ∀ row, Shipped s.cycles row → Shipped (logAttempt entry s.cycles) row := by
    intro row
    apply Shipped.mono
    intro cycle hc a' ha' _
    rw [hcycles] at hc
    rw [hlog]
    rcases mem_cons.1 hc with rfl | hc
    · exact ⟨_, mem_cons_self, mem_cons_of_mem _ ha'⟩
    · exact ⟨cycle, mem_cons_of_mem _ hc, ha'⟩
  refine h.withCycles hmono (fun cycle hc => ?_) ?_
  · have hc' := hlog ▸ hc
    rcases mem_cons.1 hc' with rfl | hc'
    · obtain ⟨hdesc, -⟩ := hall _ mem_cons_self
      refine ⟨pairwise_cons.2 ⟨?_, hdesc⟩, forall_mem_cons.2 ⟨hfinal, holder⟩⟩
      -- whatever came before `a` has a smaller number still
      refine forall_mem_cons.2 ⟨hlt, fun n hn => ?_⟩
      exact Nat.lt_trans ((pairwise_cons.1 hdesc).1 n hn) hlt
    · exact hall cycle (mem_cons_of_mem _ hc')
  · refine ⟨hsorted, hfrom, fun n hn => ?_, a :: older, cycles, hlog,
      forall_mem_cons.2 ⟨hfinal, holder⟩⟩
    obtain ⟨raw, hraw, hshipped⟩ := hdone n hn
    exact ⟨raw, hraw, hmono _ hshipped⟩

theorem inv_shipped (outcome : ForwardOutcome) : (s.shipped outcome).Inv lossy encode := by
  unfold shipped
  split
  · next entry rest delivered hphase =>
    obtain ⟨hsorted, hfrom, hdone, older, cycles, hcycles, holder⟩ := h.drainOk hphase
    obtain ⟨hmono, horder⟩ := h.logOutcome hcycles outcome
    -- the state with the answer logged and nothing yet to delete
    have hlogged : Inv lossy encode
        { s with cycles := logOutcome outcome s.cycles, drain := .waiting } :=
      h.withCycles hmono horder trivial
    have hdone' : ∀ n ∈ delivered, Done { s with cycles := logOutcome outcome s.cycles } n := by
      intro n hn
      obtain ⟨raw, hraw, hshipped⟩ := hdone n hn
      exact ⟨raw, hraw, hmono _ hshipped⟩
    split
    · exact hlogged.finish hdone'
    · next hne =>
      have hfinal : Attempt.Final ⟨entry, some outcome⟩ := by
        cases outcome with
        | delivered => exact .inl rfl
        | nonRetryable => exact .inr rfl
        | retryable => exact absurd rfl hne
      have hnow : ∀ n ∈ delivered ++ [entry.sequence],
          Done { s with cycles := logOutcome outcome s.cycles } n := by
        intro n hn
        rcases mem_append.1 hn with hn | hn
        · exact hdone' n hn
        · obtain ⟨raw, hraw, hdec⟩ := hfrom entry mem_cons_self
          rw [mem_singleton.1 hn]
          refine ⟨raw, hraw, ⟨entry, some outcome⟩ :: older, ?_, _, mem_cons_self, hdec, hfinal⟩
          rw [hcycles]
          exact mem_cons_self
      split
      · exact hlogged.finish hnow
      · next following rest =>
        obtain ⟨hlt, hsorted'⟩ := pairwise_cons.1 hsorted
        have hbefore : following.sequence > entry.sequence := hlt _ (mem_map_of_mem mem_cons_self)
        have hlog : logOutcome outcome s.cycles = (⟨entry, some outcome⟩ :: older) :: cycles := by
          rw [hcycles]
          rfl
        refine hlogged.attempt hlog ?_ hbefore ?_ hsorted' ?_ hnow
        · exact hfinal
        · exact holder
        · exact (forall_mem_cons.1 hfrom).2
  · exact h

theorem inv_shipCut : s.shipCut.Inv lossy encode := by
  unfold shipCut
  split
  · next entry rest delivered hphase =>
    obtain ⟨-, -, hdone, -⟩ := h.drainOk hphase
    split
    -- the entry that was cut off is not among those to delete
    · exact h.finish hdone
    · exact h
  · exact h

theorem inv_deleted (fault : Bool) : (s.deleted fault).Inv lossy encode := by
  unfold deleted
  split
  · next delivered hphase =>
    split
    · next buffer hdel =>
      refine h.delete (deleteSequences_ok hdel) ?_ trivial
      rintro ⟨n, bytes⟩ hrow hn
      obtain ⟨raw, hraw, hshipped⟩ := h.drainOk hphase n hn
      cases h.row_eq hrow hraw
      exact .inr hshipped
    · exact h.withDrain trivial
  · exact h

theorem inv_step (e : Event) : (s.step lossy encode e).Inv lossy encode := by
  cases e with
  | request request =>
    refine h.withTasks (forall_mem_append.2 ⟨h.tasks, ?_⟩)
    exact forall_mem_singleton.2 (taskOk_newTask s request)
  | forwarded i answer => exact inv_taskForwarded h i _
  | forwardCut i => exact inv_taskForwardCut h i
  | enqueued i fault =>
    rw [step]
    split
    · exact h
    · exact inv_bufferForRetry h i fault
  | taskDropped i => exact inv_taskDropped h i
  | tick =>
    rw [step]
    split
    · exact h.withDrain trivial
    · exact h
  | peeked peekFault deleteFault =>
    rw [step]
    split
    · exact inv_peeked h peekFault deleteFault
    · exact h
  | shipped answer => exact inv_shipped h _
  | shipCut => exact inv_shipCut h
  | deleted fault => exact inv_deleted h fault
  | drainReturns =>
    rw [step]
    split
    · exact h.withDrain trivial
    · exact h
  | drainAborted =>
    rw [step]
    split
    · exact h
    · exact h.withDrain trivial
  | shutdown => exact ⟨h.held, h.bounded, h.unique, h.kept, h.inOrder, h.drain, h.tasks⟩

omit h

/-- **Conservation.** In every run of a proxy over any buffer file, if every batch encodes: a row is
gone only if it does not decode or its own payload was delivered or refused for good; a drain cycle
ships its entries in sequence order, and none after one that is to be tried again; and a request
answered with success has each of its resources with spans delivered, refused, stored, or lost to
an error of the buffer. -/
theorem always_conserves (lossy : Bytes → String) (encode : WireRequest → Option Bytes)
    (hencode : ∀ r, (encode r).isSome) (config : TraceProxyConfig) (table : SeqTable Bytes)
    (maxMb : Nat) (events : List Event) :
    Always (step lossy encode) (Conserves lossy encode) (start config table maxMb) events := by
  have hinv : Always (step lossy encode) (Inv lossy encode) (start config table maxMb) events := by
    refine always_of_step ?_ ?_ events
    · exact fun s e h => inv_step h e
    · exact inv_start config table maxMb
  exact hinv.mono fun s h => h.conserves hencode

end Proxy

end

/-- The receiver is down while a request comes in, up again when its payload is drained, and the
proxy is shut down in the middle of the next one. -/
def outage : List Event :=
  [.request [spanNamed ["checkout"]], .forwarded 0 (.error true), .enqueued 0 false, .tick,
    .peeked false false, .shipped (.error true), .tick, .peeked false false,
    .request [spanNamed ["checkout"]], .shipped (.ok (.accepted 1)), .deleted false, .shutdown,
    .forwardCut 1, .drainReturns]

theorem outage_conserves :
    Always (Proxy.step (fun _ => "") fun _ => some [7])
        (Proxy.Conserves (fun _ => "") fun _ => some [7])
        (Proxy.start checkoutOnly (empty 0) 1) outage ∧
      (outage.foldl (Proxy.step (fun _ => "") fun _ => some [7])
        (Proxy.start checkoutOnly (empty 0) 1)).rows.length = 1 ∧
      (outage.foldl (Proxy.step (fun _ => "") fun _ => some [7])
        (Proxy.start checkoutOnly (empty 0) 1)).buffer.rows = [] :=
  ⟨Proxy.always_conserves (fun _ => "") (fun _ => some [7]) (fun _ => rfl) checkoutOnly
    (empty 0) 1 outage, by decide, by decide⟩

end EdgePacer.Trace
