import EdgePacer.Trace.Proxy
import EdgePacer.Orchestrator.Paths

/-!
# Trace proxies across configurations

The manager stops proxies that are gone or changed and then starts what is missing. A buffer file
goes by the folded id of its proxy alone, so it outlives the configuration that filled it. The drain
loop ships an entry to the endpoint of the current configuration, with the token of its repository;
the archive and repository stored with the entry are read for a log line only.

A state of the model has all buffer files, and beside them, for every row ever stored, the
destination it was stored for. A stopped proxy can still have requests that wait for the buffer; it
stays in the list until they are done. Every step of a proxy is one of `Proxy.step` over the file it
shares.

`sent_where_stored` says when entries go where they were stored for; `reconfigured_proxy_resends`
is the plain case of a proxy that gets another endpoint and repository.
-/

namespace EdgePacer.Trace

open Lib Delivery Orchestrator List Subset TraceBuffer

/-! ## Facts about the steps of a proxy -/

/-- The entry that is being shipped. -/
def DrainPhase.inFlight : DrainPhase → Option BufferedTraceEntry
  | .shipping entry _ _ => some entry
  | _ => none

namespace Proxy

/-- The entries of the drain loop's copy that are not settled. -/
def copied : DrainPhase → List BufferedTraceEntry
  | .shipping entry rest _ => entry :: rest
  | _ => []

theorem inFlight_mem_copied {phase : DrainPhase} {entry : BufferedTraceEntry}
    (h : entry ∈ phase.inFlight) : entry ∈ copied phase := by
  cases phase with
  | shipping e rest delivered =>
    cases h
    exact mem_cons_self
  | waiting | peeking | deleting delivered | stopped => cases h

/-- What one step does to the file and to the loop's copy. -/
structure StepFacts (s s' : Proxy) : Prop where
  config : s'.config = s.config
  rows : ∀ row ∈ s'.buffer.rows, row ∈ s.buffer.rows ∨
    s.buffer.core.table.lastSeq < row.1 ∧ row.1 ≤ s'.buffer.core.table.lastSeq
  copied : ∀ entry ∈ Proxy.copied s'.drain, entry ∈ Proxy.copied s.drain ∨
    ∃ raw, (entry.sequence, raw) ∈ s.buffer.rows

theorem stepFacts_same {s s' : Proxy} (hconfig : s'.config = s.config)
    (hbuffer : s'.buffer = s.buffer) (hcopied : copied s'.drain ⊆ copied s.drain) :
    StepFacts s s' where
  config := hconfig
  rows := by
    rw [hbuffer]
    exact fun _ hrow => .inl hrow
  copied := fun _ he => .inl (hcopied he)

theorem stepFacts_delete {s s' : Proxy} {ks : List Nat} (hconfig : s'.config = s.config)
    (htable : s'.buffer.core.table = s.buffer.core.table.deleteIn ks)
    (hcopied : copied s'.drain ⊆ copied s.drain) : StepFacts s s' where
  config := hconfig
  rows := by
    intro row hrow
    rw [TraceBuffer.rows, htable] at hrow
    exact .inl (mem_filter.1 hrow).1
  copied := fun _ he => .inl (hcopied he)

variable (s : Proxy) (fault : Bool)

theorem stepFacts_finish (delivered : List Nat) : StepFacts s (s.finish delivered) := by
  fun_cases finish s delivered <;> exact stepFacts_same rfl rfl (nil_subset _)

theorem stepFacts_bufferForRetry (i : Nat) (fault : Bool) :
    StepFacts s (s.bufferForRetry i fault) := by
  unfold bufferForRetry
  split
  · dsimp only
    split
    · next sequence buffer henq =>
      obtain ⟨raw, htable, rfl, -⟩ := enqueue_ok henq
      refine ⟨rfl, fun row hrow => ?_, fun _ he => .inl he⟩
      have hrow' : row ∈ buffer.core.table.rows := hrow
      rw [htable] at hrow'
      rcases mem_append.1 hrow' with hrow' | hrow'
      · exact .inl hrow'
      · right
        rw [mem_singleton.1 hrow']
        refine ⟨lt_add_one _, ?_⟩
        rw [htable]
        exact le_rfl
    · exact stepFacts_same rfl rfl (refl _)
  · exact stepFacts_same rfl rfl (refl _)

theorem stepFacts_peeked (peekFault deleteFault : Bool) :
    StepFacts s (s.peeked peekFault deleteFault) := by
  unfold peeked
  split
  · exact stepFacts_same rfl rfl (nil_subset _)
  · next entry rest hpeek =>
    obtain ⟨-, hfrom⟩ := peek_ok hpeek
    refine ⟨rfl, fun _ hrow => .inl hrow, fun e he => .inr ?_⟩
    obtain ⟨raw, hraw, -⟩ := hfrom e he
    exact ⟨raw, hraw⟩
  · split
    · next buffer hdel =>
      exact stepFacts_delete rfl (deleteSequences_ok hdel) (refl _)
    · exact stepFacts_same rfl rfl (nil_subset _)
  · exact stepFacts_same rfl rfl (nil_subset _)

theorem stepFacts_shipped (outcome : ForwardOutcome) : StepFacts s (s.shipped outcome) := by
  -- the log of outcomes is no part of the facts
  have hfinish : ∀ delivered,
      StepFacts s ({ s with cycles := logOutcome outcome s.cycles }.finish delivered) := by
    intro delivered
    obtain ⟨hconfig, hrows, hcopied⟩ :=
      stepFacts_finish { s with cycles := logOutcome outcome s.cycles } delivered
    exact ⟨hconfig, hrows, hcopied⟩
  unfold shipped
  split
  · next entry rest delivered hphase =>
    split
    · exact hfinish _
    · split
      · exact hfinish _
      · refine stepFacts_same rfl rfl fun e he => ?_
        rw [hphase]
        exact mem_cons_of_mem _ he
  · exact stepFacts_same rfl rfl (refl _)

theorem stepFacts_deleted : StepFacts s (s.deleted fault) := by
  unfold deleted
  split
  · split
    · next buffer hdel =>
      exact stepFacts_delete rfl (deleteSequences_ok hdel) (nil_subset _)
    · exact stepFacts_same rfl rfl (nil_subset _)
  · exact stepFacts_same rfl rfl (refl _)

theorem stepFacts (lossy : Bytes → String) (encode : WireRequest → Option Bytes) (s : Proxy)
    (e : Event) : StepFacts s (s.step lossy encode e) := by
  have hsame : ∀ {s' : Proxy}, s'.config = s.config → s'.buffer = s.buffer → s'.drain = s.drain →
      StepFacts s s' := fun hc hb hd => stepFacts_same hc hb (hd ▸ refl _)
  cases e with
  | request request => exact hsame rfl rfl rfl
  | forwarded i answer =>
    rw [step]
    fun_cases taskForwarded <;> exact hsame rfl rfl rfl
  | forwardCut i =>
    rw [step]
    fun_cases taskForwardCut <;> exact hsame rfl rfl rfl
  | enqueued i fault =>
    rw [step]
    split
    · exact hsame rfl rfl rfl
    · exact stepFacts_bufferForRetry s i fault
  | taskDropped i =>
    rw [step]
    fun_cases taskDropped <;> exact hsame rfl rfl rfl
  | tick =>
    rw [step]
    split
    · exact stepFacts_same rfl rfl (nil_subset _)
    · exact hsame rfl rfl rfl
  | peeked peekFault deleteFault =>
    rw [step]
    split
    · exact stepFacts_peeked s peekFault deleteFault
    · exact hsame rfl rfl rfl
  | shipped answer => exact stepFacts_shipped s _
  | shipCut =>
    show StepFacts s s.shipCut
    unfold shipCut
    split
    · split
      · exact stepFacts_finish s _
      · exact hsame rfl rfl rfl
    · exact hsame rfl rfl rfl
  | deleted fault => exact stepFacts_deleted s fault
  | drainReturns =>
    rw [step]
    split
    · exact stepFacts_same rfl rfl (nil_subset _)
    · exact hsame rfl rfl rfl
  | drainAborted =>
    rw [step]
    split
    · exact hsame rfl rfl rfl
    · exact stepFacts_same rfl rfl (nil_subset _)
  | shutdown => exact hsame rfl rfl rfl

end Proxy

/-! ## The manager -/

/-- A proxy as the control plane configures it. -/
structure TraceProxyStreamConfig where
  (logSourceId subboxEndpoint archiveId repoId : String)
  requireServiceName : Bool
  allowedServiceNames : Finset String
  configHash : String

/-- Where a transport sends, and the repository whose upload token it sends along. -/
structure Destination where
  (endpoint repoId : String)
  deriving DecidableEq

def DEFAULT_TRACE_BUFFER_MAX_MB : Nat := 100

/-- A proxy that was started, over the buffer file at `path`. -/
structure Instance where
  (logSourceId configHash : String)
  path : Location
  /-- The manager has it; once stopped, it only finishes requests. -/
  managed : Bool
  proxy : Proxy

def Instance.destination (p : Instance) : Destination :=
  ⟨p.proxy.config.subboxEndpoint, p.proxy.config.repoId⟩

/-- All requests are answered or dropped. -/
def Instance.settled (p : Instance) : Bool :=
  p.proxy.tasks.all fun t =>
    match t.phase with
    | .answered _ => true
    | .dropped => true
    | .forwarding _ _ => false
    | .buffering _ _ => false

/-- The proxies, and the reconcile under way. -/
structure TraceProxyManager where
  dataDir : Location
  resourceId : String
  instances : List Instance
  /-- The proxies that the reconcile under way stops. -/
  stopping : List String
  /-- The configurations it then goes through. -/
  starting : List TraceProxyStreamConfig
  /-- The buffer files. -/
  files : Location → SeqTable Bytes
  /-- For every row of a file, the destination it was stored for. -/
  storedFor : Location → Nat → Option Destination

/-- A step of a reconcile or of a proxy. -/
inductive ManagerEvent where
  | reconcile (configs : List TraceProxyStreamConfig)
  | stopCompleted (logSourceId : String)
  /-- The next configuration is looked at; starting it may fail. -/
  | startNext (starts : Bool)
  | proxy (index : Nat) (event : Event)
  /-- A stopped proxy is through with its requests. -/
  | reaped (index : Nat)
  /-- The agent is restarted. -/
  | restart

/-- Steps of requests that are being processed. -/
def Event.ofTask : Event → Bool
  | .forwarded _ _ => true
  | .forwardCut _ => true
  | .enqueued _ _ => true
  | .taskDropped _ => true
  | _ => false

namespace TraceProxyManager

/-- No buffer files yet. -/
def new (dataDir : Location) (resourceId : String) : TraceProxyManager :=
  ⟨dataDir, resourceId, [], [], [], fun _ => SeqTable.empty 0, fun _ _ => none⟩

variable (m : TraceProxyManager)

def buildProxy (cfg : TraceProxyStreamConfig) : TraceProxyConfig where
  subboxEndpoint := cfg.subboxEndpoint
  archiveId := cfg.archiveId
  repoId := cfg.repoId
  resourceIdentifier := m.resourceId
  requireServiceName := cfg.requireServiceName
  allowedServiceNames := cfg.allowedServiceNames

def bufferPath (cfg : TraceProxyStreamConfig) : Location :=
  traceBufferPath m.dataDir cfg.logSourceId

def isManaged (id : String) : Bool :=
  m.instances.any fun p => p.managed && p.logSourceId == id

/-- The proxies that are not wanted any more, or not as they are. Of several configurations with one
id the last counts. -/
def toStop (configs : List TraceProxyStreamConfig) : List String :=
  (m.instances.filter fun p => p.managed &&
    match (configs.filter fun cfg => cfg.logSourceId == p.logSourceId).getLast? with
    | none => true
    | some cfg => p.configHash != cfg.configHash).map Instance.logSourceId

/-- Open the buffer file and start. -/
def startProxy (cfg : TraceProxyStreamConfig) : Instance where
  logSourceId := cfg.logSourceId
  configHash := cfg.configHash
  path := m.bufferPath cfg
  managed := true
  proxy := Proxy.start (m.buildProxy cfg) (m.files (m.bufferPath cfg)) DEFAULT_TRACE_BUFFER_MAX_MB

/-- The proxy with what is in its file by now. -/
def withFile (p : Instance) : Proxy :=
  { p.proxy with
    buffer := ⟨{ p.proxy.buffer.core with table := m.files p.path }⟩ }

section

variable (lossy : Bytes → String) (encode : WireRequest → Option Bytes) (m : TraceProxyManager)

/-- A proxy takes a step; rows it adds to its file are stored for its destination. -/
def proxyStep (k : Nat) (p : Instance) (e : Event) : TraceProxyManager :=
  let proxy := (m.withFile p).step lossy encode e
  { m with
    instances := m.instances.set k { p with proxy := proxy }
    files := fun path => if path = p.path then proxy.buffer.core.table else m.files path
    storedFor := fun path n =>
      if path = p.path ∧ (m.files p.path).lastSeq < n ∧ n ≤ proxy.buffer.core.table.lastSeq then
        some p.destination
      else m.storedFor path n }

def step : ManagerEvent → TraceProxyManager
  | .reconcile configs =>
      if m.stopping = [] ∧ m.starting.isEmpty then
        { m with stopping := m.toStop configs, starting := configs }
      else m
  | .stopCompleted id =>
      -- the drain loop is gone; requests may still wait for the buffer
      if id ∈ m.stopping then
        { m with
          stopping := m.stopping.filter (· ≠ id)
          instances := m.instances.map fun p =>
            if p.managed && p.logSourceId == id then
              { p with managed := false, proxy := { p.proxy with drain := .stopped } }
            else p }
      else m
  | .startNext starts =>
      -- all stops are awaited before the first start
      if m.stopping = [] then
        match m.starting with
        | [] => m
        | cfg :: rest =>
            if m.isManaged cfg.logSourceId || !starts then { m with starting := rest }
            else
              { m with
                starting := rest
                instances := m.instances ++ [m.startProxy cfg] }
      else m
  | .proxy k e =>
      match m.instances[k]? with
      | none => m
      | some p => if p.managed || e.ofTask then m.proxyStep lossy encode k p e else m
  | .reaped k =>
      match m.instances[k]? with
      | none => m
      | some p =>
          if !p.managed && p.settled then { m with instances := m.instances.eraseIdx k } else m
  -- the files stay
  | .restart => { m with instances := [], stopping := [], starting := [] }

/-! ## Where entries go -/

/-- Whatever a drain loop is shipping goes to the destination it was stored for. -/
def Faithful : Prop :=
  ∀ p ∈ m.instances, ∀ entry ∈ p.proxy.drain.inFlight,
    m.storedFor p.path entry.sequence = some p.destination

instance : DecidablePred Faithful := fun m =>
  inferInstanceAs (Decidable (∀ p ∈ m.instances, ∀ _ ∈ p.proxy.drain.inFlight, _))

/-- The destination of a configuration. -/
def destinationOf (cfg : TraceProxyStreamConfig) : Destination := ⟨cfg.subboxEndpoint, cfg.repoId⟩

/-- A proxy that is started finds entries of its own destination in its buffer file, and no proxy
of another one that still works on this file. -/
def Inherits : ManagerEvent → Prop
  | .startNext true => ∀ cfg ∈ m.starting.head?, m.stopping = [] →
      m.isManaged cfg.logSourceId = false →
        (∀ row ∈ (m.files (m.bufferPath cfg)).rows,
          m.storedFor (m.bufferPath cfg) row.1 = some (destinationOf cfg)) ∧
        ∀ p ∈ m.instances, p.path = m.bufferPath cfg → p.destination = destinationOf cfg
  | _ => True

instance (m : TraceProxyManager) : ∀ e, Decidable (m.Inherits e)
  | .startNext true =>
      inferInstanceAs (Decidable (∀ cfg ∈ m.starting.head?, _ → _ →
        (∀ _ ∈ (m.files (m.bufferPath cfg)).rows, _) ∧ ∀ _ ∈ m.instances, _ → _))
  | .startNext false | .reconcile _ | .stopCompleted _ | .proxy _ _ | .reaped _ | .restart =>
      .isTrue trivial

/-- Every proxy's file and copy are of its own destination, and proxies that share a file share the
destination. -/
structure Inv (m : TraceProxyManager) : Prop where
  rows : ∀ p ∈ m.instances, ∀ row ∈ (m.files p.path).rows,
    m.storedFor p.path row.1 = some p.destination
  copied : ∀ p ∈ m.instances, ∀ entry ∈ Proxy.copied p.proxy.drain,
    m.storedFor p.path entry.sequence = some p.destination
  agree : ∀ p ∈ m.instances, ∀ q ∈ m.instances, p.path = q.path → p.destination = q.destination

variable {m : TraceProxyManager} {starting : List TraceProxyStreamConfig}

theorem Inv.faithful (h : m.Inv) : m.Faithful := by
  intro p hp entry he
  exact h.copied p hp entry (Proxy.inFlight_mem_copied he)

theorem inv_new (dataDir : Location) (resourceId : String) : (new dataDir resourceId).Inv :=
  ⟨forall_mem_nil _, forall_mem_nil _, forall_mem_nil _⟩

/-- Proxies that are replaced by ones with the same file, destination and a smaller copy, or left
out. -/
theorem Inv.of_instances (h : m.Inv) {instances : List Instance} {stopping : List String}
    (hfrom : ∀ p ∈ instances, ∃ q ∈ m.instances, p.path = q.path ∧ p.destination = q.destination ∧ ∀
      entry ∈ Proxy.copied p.proxy.drain, entry ∈ Proxy.copied q.proxy.drain) :
    Inv { m with instances := instances, stopping := stopping, starting := starting } where
  rows := by
    intro p hp row hrow
    obtain ⟨q, hq, hpath, hdest, -⟩ := hfrom p hp
    rw [hpath, hdest]
    exact h.rows q hq row (hpath ▸ hrow)
  copied := by
    intro p hp entry he
    obtain ⟨q, hq, hpath, hdest, hcopied⟩ := hfrom p hp
    rw [hpath, hdest]
    exact h.copied q hq entry (hcopied entry he)
  agree := by
    intro p hp p' hp' hpath
    obtain ⟨q, hq, hq1, hq2, -⟩ := hfrom p hp
    obtain ⟨q', hq', hq1', hq2', -⟩ := hfrom p' hp'
    rw [hq2, hq2']
    exact h.agree q hq q' hq' (hq1.symm.trans (hpath.trans hq1'))

theorem inv_proxyStep (h : m.Inv) {k : Nat} {p : Instance} (hp : m.instances[k]? = some p)
    (e : Event) : (m.proxyStep lossy encode k p e).Inv := by
  have hpmem := List.mem_of_getElem? hp
  have hfacts := Proxy.stepFacts lossy encode (m.withFile p) e
  -- the file and the destination of each proxy are as before
  have hfrom : ∀ q ∈ (m.proxyStep lossy encode k p e).instances, ∃ q₀ ∈ m.instances,
      q.path = q₀.path ∧ q.destination = q₀.destination ∧
      (q = q₀ ∨ q₀ = p ∧ q = { p with proxy := (m.withFile p).step lossy encode e }) := by
    intro q hq
    rcases mem_or_eq_of_mem_set hq with hq | rfl
    · exact ⟨q, hq, rfl, rfl, .inl rfl⟩
    · refine ⟨p, hpmem, rfl, ?_, .inr ⟨rfl, rfl⟩⟩
      show Destination.mk _ _ = Destination.mk _ _
      rw [hfacts.config]
      rfl
  -- what was stored for a destination still is, and new rows are stored for that of `p`
  have hkeep : ∀ q ∈ m.instances, ∀ n, m.storedFor q.path n = some q.destination →
      (m.proxyStep lossy encode k p e).storedFor q.path n = some q.destination := by
    intro q hq n hn
    show (if _ then _ else _) = _
    split
    · next hnew => rw [h.agree p hpmem q hq hnew.1.symm]
    · exact hn
  constructor
  · intro q hq row hrow
    obtain ⟨q₀, hq₀, hpath, hdest, -⟩ := hfrom q hq
    rw [hpath, hdest]
    rw [hpath] at hrow
    by_cases hsame : q₀.path = p.path
    · have hrow' : row ∈ ((m.withFile p).step lossy encode e).buffer.rows := by
        have hfile : (m.proxyStep lossy encode k p e).files q₀.path =
          ((m.withFile p).step lossy encode e).buffer.core.table := if_pos hsame
        rw [hfile] at hrow
        exact hrow
      -- rows were there before the step, or have the numbers the step gave
      rcases hfacts.rows row hrow' with hold | hnew
      · refine hkeep q₀ hq₀ row.1 (h.rows q₀ hq₀ row ?_)
        rw [hsame]
        exact hold
      · show (if _ then _ else _) = _
        rw [if_pos ⟨hsame, hnew⟩, h.agree p hpmem q₀ hq₀ hsame.symm]
    · have hfile : (m.proxyStep lossy encode k p e).files q₀.path = m.files q₀.path := if_neg hsame
      rw [hfile] at hrow
      exact hkeep q₀ hq₀ row.1 (h.rows q₀ hq₀ row hrow)
  · intro q hq entry he
    obtain ⟨q₀, hq₀, hpath, hdest, hcase⟩ := hfrom q hq
    rw [hdest]
    rcases hcase with rfl | ⟨rfl, rfl⟩
    · exact hkeep q hq₀ _ (h.copied q hq₀ entry he)
    -- the loop copies entries out of the file only
    · rcases hfacts.copied entry he with hold | ⟨raw, hraw⟩
      · exact hkeep q₀ hq₀ _ (h.copied q₀ hq₀ entry hold)
      · exact hkeep q₀ hq₀ _ (h.rows q₀ hq₀ _ hraw)
  · intro q hq q' hq' hpath
    obtain ⟨q₀, hq₀, hq1, hq2, -⟩ := hfrom q hq
    obtain ⟨q₀', hq₀', hq1', hq2', -⟩ := hfrom q' hq'
    rw [hq2, hq2']
    exact h.agree q₀ hq₀ q₀' hq₀' (hq1.symm.trans (hpath.trans hq1'))

/-- A proxy is started over a file of its own destination. -/
theorem inv_startProxy (h : m.Inv) {cfg : TraceProxyStreamConfig}
    (hrows : ∀ row ∈ (m.files (m.bufferPath cfg)).rows, m.storedFor (m.bufferPath cfg) row.1 = some
      (destinationOf cfg))
    (hothers : ∀ p ∈ m.instances, p.path = m.bufferPath cfg → p.destination = destinationOf cfg) :
    Inv { m with starting := starting, instances := m.instances ++ [m.startProxy cfg] } := by
  have hpath : (m.startProxy cfg).path = m.bufferPath cfg := by rw [startProxy]
  have hdest : (m.startProxy cfg).destination = destinationOf cfg := rfl
  have hdrain : (m.startProxy cfg).proxy.drain = .waiting := rfl
  generalize m.startProxy cfg = new at *
  have hmem : ∀ p ∈ m.instances ++ [new], p ∈ m.instances ∨ p = new := fun p hp =>
    (mem_append.1 hp).imp_right mem_singleton.1
  constructor
  · intro p hp row hrow
    rcases hmem p hp with hp | rfl
    · exact h.rows p hp row hrow
    · rw [hpath, hdest]
      exact hrows row (hpath ▸ hrow)
  · intro p hp entry he
    rcases hmem p hp with hp | rfl
    · exact h.copied p hp entry he
    · rw [hdrain] at he
      cases he
  · intro p hp q hq hsame
    rcases hmem p hp with hp' | rfl
    · rcases hmem q hq with hq' | rfl
      · exact h.agree p hp' q hq' hsame
      · rw [hdest]
        exact hothers p hp' (hsame.trans hpath)
    · rcases hmem q hq with hq' | rfl
      · rw [hdest]
        exact (hothers q hq' (hsame.symm.trans hpath)).symm
      · rfl

theorem inv_step (h : m.Inv) (e : ManagerEvent) (hinherits : m.Inherits e) :
    (m.step lossy encode e).Inv := by
  have hsame : ∀ (stopping : List String) (starting : List TraceProxyStreamConfig),
      Inv { m with stopping := stopping, starting := starting } := fun _ _ =>
    ⟨h.rows, h.copied, h.agree⟩
  cases e with
  | reconcile configs =>
    rw [step]
    split
    · exact hsame _ _
    · exact h
  | stopCompleted id =>
    rw [step]
    split
    · refine h.of_instances fun p hp => ?_
      obtain ⟨q, hq, rfl⟩ := mem_map.1 hp
      refine ⟨q, hq, ?_⟩
      split
      · exact ⟨rfl, rfl, forall_mem_nil _⟩
      · exact ⟨rfl, rfl, fun _ he => he⟩
    · exact h
  | startNext starts =>
    rw [step]
    split
    · next hstopping =>
      split
      · exact h
      · next cfg rest hstarting =>
        split
        · exact hsame _ _
        · next hstart =>
          rw [Bool.or_eq_true, not_or, Bool.not_eq_true, Bool.not_eq_true', Bool.not_eq_false]
            at hstart
          obtain ⟨hmanaged, rfl⟩ := hstart
          obtain ⟨hrows, hothers⟩ := hinherits cfg (by rw [hstarting]; rfl) hstopping hmanaged
          exact inv_startProxy h hrows hothers
    · exact h
  | proxy k e =>
    rw [step]
    split
    · exact h
    · next p hp =>
      split
      · exact inv_proxyStep lossy encode h hp e
      · exact h
  | reaped k =>
    rw [step]
    split
    · exact h
    · split
      · refine h.of_instances fun p hp => ⟨p, mem_of_mem_eraseIdx hp, rfl, rfl, fun _ he => he⟩
      · exact h
  | restart => exact h.of_instances nofun

/-- **Destinations.** In every history of configurations, restarts and steps of the proxies that
begins without buffer files: if each proxy is started over a file of its own destination, every
buffered entry that is being shipped goes to the endpoint it was stored for, with the token of the
repository it was stored for. -/
theorem sent_where_stored (dataDir : Location) (resourceId : String) (events : List ManagerEvent)
    (h : Each (step lossy encode) Inherits (new dataDir resourceId) events) :
    Always (step lossy encode) Faithful (new dataDir resourceId) events := by
  have hinv : Always (step lossy encode) Inv (new dataDir resourceId) events := by
    refine always_of_each ?_ ?_ h
    · exact fun m e hm hinherits => inv_step lossy encode hm e hinherits
    · exact inv_new dataDir resourceId
  exact hinv.mono fun m hm => hm.faithful

end

/-! ## Two histories -/

/-- A proxy for the checkout service with the given destination. -/
def checkoutProxy (endpoint repo hash : String) : TraceProxyStreamConfig where
  logSourceId := "traces"
  subboxEndpoint := endpoint
  archiveId := "arc"
  repoId := repo
  requireServiceName := false
  allowedServiceNames := ∅
  configHash := hash

/-- A proxy stores a payload and gets another configuration before it can ship it. -/
def reconfigured (before after : TraceProxyStreamConfig) : List ManagerEvent :=
  [.reconcile [before], .startNext true, .proxy 0 (.request [spanNamed ["checkout"]]),
    .proxy 0 (.forwarded 0 (.error true)), .proxy 0 (.enqueued 0 false), .reconcile [after],
    .stopCompleted "traces", .reaped 0, .startNext true, .proxy 0 .tick,
    .proxy 0 (.peeked false false)]

/-- With the same destination the entry goes where it was to go. -/
theorem policy_change_faithful :
    Always (step (fun _ => "") fun _ => some [7]) Faithful (new [] "host")
      (reconfigured (checkoutProxy "e" "r" "1") (checkoutProxy "e" "r" "2")) :=
  sent_where_stored (fun _ => "") (fun _ => some [7]) [] "host" _ (by decide)

/-- What was stored for one repository is shipped to the endpoint of another, with its token. -/
theorem reconfigured_proxy_resends :
    ¬ Always (step (fun _ => "") fun _ => some [7]) Faithful (new [] "host")
      (reconfigured (checkoutProxy "https://one" "first" "1")
        (checkoutProxy "https://two" "second" "2")) := by
  intro h
  exact absurd h.last (by decide)

end TraceProxyManager

end EdgePacer.Trace
