import EdgePacer.Config.Claiming
import EdgePacer.Config.HashTexts
import EdgePacer.Lib.Reconcile
import EdgePacer.Lib.Trace

/-!
# The orchestrator brings sources in line with the configuration

The orchestrator polls the configuration and the discovery cache. When one of them has changed it
resolves the directives again and reconciles: in both lanes it stops what is no longer desired or
desired under another digest, then it starts what is missing. A change of the buffer tuning stops
everything first.

A stop waits for a task for a bounded time, aborts it, and waits again; a task may outlive that.
The environment decides which do (`outlives`) and which starts fail (`fails`).

`always_inLine` is about whole runs: what runs is what is desired, as long as the digest tells apart
what differs. It does not tell the target of a streaming source (`kept_reader_of_old_container`).
A poll that changes nothing restarts nothing (`unchanged_poll_rests`).
-/

namespace EdgePacer.Config

inductive Lane where
  | file
  | streaming
  deriving DecidableEq, Repr

def Source.lane : Source → Lane
  | .file _ => .file
  | .streaming _ => .streaming

/-- The hashed text of a file source, read off the source. -/
def LogStreamConfig.text (s : LogStreamConfig) : List Char :=
  Lib.joined '|' [s.path.toList, s.endpoint.toList, s.archiveId.toList, s.repoId.toList,
    multilineHashPart s.multiline, hashPart s.sourceFormat, stampPart s.stampResourceIdentifier]

end EdgePacer.Config

namespace EdgePacer.Orchestrator

open Config Discovery Lib List LogStreamConfig String

/-! ## Polls -/

structure BufferTuning where
  (cacheSizeBytes shipBatchMaxBytes : Nat)
  deriving DecidableEq

/-- The parts of the configuration that a reconcile reads. -/
structure UnifiedConfig where
  checksum : String
  services : List ServiceDescription
  collect : List CollectStreamConfig
  tuning : BufferTuning

/-- What a poll finds, and what the environment does during the reconcile. -/
structure Poll where
  config : Option UnifiedConfig
  epoch : Nat
  cache : DiscoveryCache
  isFile : String → Bool
  (outlives fails : Source → Bool)

/-- What the orchestrator reacts to. -/
inductive Event where
  | poll (p : Poll)
  | shutdown (outlives : Source → Bool)

/-- What a reconcile did. -/
inductive Action where
  | stopped (source : Source)
  /-- The stop gave up on a task that does not end. -/
  | abandoned (source : Source)
  | started (source : Source)
  | startFailed (source : Source)
  deriving DecidableEq

def Action.isStop : Action → Bool
  | .stopped _ | .abandoned _ => true
  | .started _ | .startFailed _ => false

/-- What one reconcile worked on and did. -/
structure Pass where
  before : List Source
  desired : ResolvedCollectStreams
  actions : List Action

/-- The managed sources, each with the settings its tasks were started with. Tasks that outlived
their stop are no longer managed. `last` is the reconcile that was done last. -/
structure State where
  pipelines : List LogStreamConfig := []
  streamingSources : List StreamingSourceConfig := []
  lingering : List Source := []
  lastChecksum : String := ""
  lastDiscoveryEpoch : Nat := 0
  lastTuning : Option BufferTuning := none
  finished : Bool := false
  last : Option Pass := none

namespace State

def running (s : State) : List Source :=
  s.pipelines.map Source.file ++ s.streamingSources.map Source.streaming

/-! ## Stopping and starting -/

def stopAction (outlives : Source → Bool) (source : Source) : Action :=
  if outlives source then .abandoned source else .stopped source

def startAction (attempt : Source × Bool) : Action :=
  if attempt.2 then .started attempt.1 else .startFailed attempt.1

/-- Stop everything. -/
def shutdownAll (outlives : Source → Bool) (s : State) : State × List Action :=
  ({ s with
      pipelines := []
      streamingSources := []
      lingering := s.lingering ++ s.running.filter outlives },
    s.running.map (stopAction outlives))

def staleSources (s : State) (desired : ResolvedCollectStreams) : List Source :=
  (stale logSourceId configHash s.pipelines
      desired.fileStreams).map Source.file ++
    (stale StreamingSourceConfig.logSourceId StreamingSourceConfig.configHash s.streamingSources
      desired.streamingSources).map Source.streaming

/-- The file lane after the stops and starts, and its attempts. -/
def reconciledFiles (fails : Source → Bool) (s : State) (desired : ResolvedCollectStreams) :
    List LogStreamConfig × List (LogStreamConfig × Bool) :=
  startMissing logSourceId (fun d => fails (.file d))
    (kept logSourceId configHash s.pipelines desired.fileStreams)
    desired.fileStreams

/-- The streaming lane after the stops and starts, and its attempts. -/
def reconciledStreams (fails : Source → Bool) (s : State) (desired : ResolvedCollectStreams) :
    List StreamingSourceConfig × List (StreamingSourceConfig × Bool) :=
  startMissing StreamingSourceConfig.logSourceId (fun d => fails (.streaming d))
    (kept StreamingSourceConfig.logSourceId StreamingSourceConfig.configHash s.streamingSources
      desired.streamingSources)
    desired.streamingSources

def startActions (fails : Source → Bool) (s : State) (desired : ResolvedCollectStreams) :
    List Action :=
  (s.reconciledFiles fails desired).2.map (fun a => startAction (.file a.1, a.2)) ++
    (s.reconciledStreams fails desired).2.map fun a => startAction (.streaming a.1, a.2)

/-- Both lanes stop before either starts. Between the two, state directories are adopted; that
touches the disk only. -/
def reconcile (outlives fails : Source → Bool) (s : State) (desired : ResolvedCollectStreams) :
    State × List Action :=
  ({ s with
      pipelines := (s.reconciledFiles fails desired).1
      streamingSources := (s.reconciledStreams fails desired).1
      lingering := s.lingering ++ (s.staleSources desired).filter outlives },
    (s.staleSources desired).map (stopAction outlives) ++ s.startActions fails desired)

def reconcileDue (checksum lastChecksum : String) (epoch lastEpoch : Nat) : Bool :=
  checksum != lastChecksum || epoch != lastEpoch

variable (sha : List Char → String)

def desiredOf (p : Poll) (config : UnifiedConfig) : ResolvedCollectStreams :=
  resolvedCollectFromConfig sha p.isFile config.services config.collect p.cache

/-- A change of the tuning reopens every buffer. -/
def retuned (s : State) (p : Poll) (config : UnifiedConfig) : State × List Action :=
  if s.lastTuning = some config.tuning then (s, []) else s.shutdownAll p.outlives

def apply (s : State) (p : Poll) (config : UnifiedConfig) : State :=
  let start := s.retuned p config
  -- what a shutdown has emptied is started again here
  let done := start.1.reconcile p.outlives p.fails (desiredOf sha p config)
  { done.1 with
    lastChecksum := config.checksum
    lastDiscoveryEpoch := p.epoch
    lastTuning := some config.tuning
    last := some ⟨s.running, desiredOf sha p config, start.2 ++ done.2⟩ }

def step (s : State) : Event → State
  | .poll p =>
      match p.config with
      | some config =>
          -- nothing is resolved while checksum and epoch stand
          if s.finished = false ∧
              reconcileDue config.checksum s.lastChecksum p.epoch s.lastDiscoveryEpoch then
            s.apply sha p config
          else s
      | none => s
  | .shutdown outlives =>
      if s.finished then s
      else { (s.shutdownAll outlives).1 with finished := true, last := none }

end State

open State

/-! ## In line -/

def entries (desired : ResolvedCollectStreams) : List Source := desired.sources.map Prod.snd

/-- A running source and a desired one of the same lane and id. -/
def Corresponds (a d : Source) : Prop := d.lane = a.lane ∧ d.logSourceId = a.logSourceId

/-- They read the same and ship to the same place in the same way. -/
def Agrees (a d : Source) : Prop := a.target = d.target ∧ a.settings = d.settings

/-- The desired sources have no entry that a running source agrees with. -/
def Outdated (desired : List Source) (a : Source) : Prop :=
  ¬ ∃ d ∈ desired, Corresponds a d ∧ Agrees a d

/-- What a reconcile leaves behind. -/
structure InLine (pass : Pass) (s : State) : Prop where
  /-- Every running source has an entry, and agrees with it. -/
  current : ∀ a ∈ s.running ++ s.lingering, (∃ d ∈ entries pass.desired, Corresponds a d) ∧
    ∀ d ∈ entries pass.desired, Corresponds a d → Agrees a d
  /-- What is desired runs, unless its start failed. -/
  complete : ∀ lane id, (∃ a ∈ s.running, a.lane = lane ∧ a.logSourceId = id) ↔
    (∃ d ∈ entries pass.desired, d.lane = lane ∧ d.logSourceId = id) ∧
      ∀ d, d.lane = lane → d.logSourceId = id → .startFailed d ∉ pass.actions
  /-- All stops, of every outdated source of both lanes, come before the first start. -/
  ordered : ∃ stops starts, pass.actions = stops ++ starts ∧ (∀ x ∈ stops, x.isStop = true) ∧
    (∀ x ∈ starts, x.isStop = false) ∧
    ∀ a ∈ pass.before, Outdated (entries pass.desired) a → .stopped a ∈ stops

def State.InLine (s : State) : Prop := ∀ pass, s.last = some pass → Orchestrator.InLine pass s

/-! ## Steady polls -/

variable (sha : List Char → String) (T : Set (List Char))

/-- What a directive must be like for its hashed text to tell its settings. -/
def Distinctive (s : CollectStreamConfig) : Prop := s.Plain ∧ s.hashText ∈ T

/-- A poll after which what runs is in line. -/
structure Steady (s : State) (p : Poll) (config : UnifiedConfig) : Prop where
  /-- No id is desired twice in a lane. -/
  fileIds : ((desiredOf sha p config).fileStreams.map logSourceId).Nodup
  streamIds : ((desiredOf sha p config).streamingSources.map
    StreamingSourceConfig.logSourceId).Nodup
  /-- The hashed texts can be read back. -/
  services : ∀ d ∈ config.services, Distinctive T d.collect
  collect : ∀ c ∈ config.collect, Distinctive T c
  files : ∀ f ∈ (desiredOf sha p config).fileStreams, NoBar f.path ∧ f.text ∈ T
  /-- A stream whose directive has not changed still reads the same. -/
  targets : s.lastTuning = some config.tuning → ∀ a ∈ s.streamingSources,
    ∀ d ∈ (desiredOf sha p config).streamingSources, d.logSourceId = a.logSourceId →
      d.configHash = a.configHash → d.accessMethod = a.accessMethod
  /-- Tasks end when they are stopped. -/
  stops : ∀ a ∈ s.running, p.outlives a = false

def SteadyEvent (s : State) : Event → Prop
  | .poll p => ∀ config, p.config = some config → s.finished = false →
      reconcileDue config.checksum s.lastChecksum p.epoch s.lastDiscoveryEpoch = true →
        Steady sha T s p config
  | .shutdown _ => True

/-! ## Where sources come from -/

/-- A file source whose text can be read back. -/
def BuiltFile (f : LogStreamConfig) : Prop :=
  ∃ s format, f = logStreamFromCollect sha s f.path format ∧ s.Plain ∧ NoBar f.path ∧ f.text ∈ T

/-- A streaming source whose directive's text can be read back. -/
def BuiltStream (f : StreamingSourceConfig) : Prop :=
  ∃ s, f = streamingSource sha s f.accessMethod ∧ Distinctive T s

section

variable {sha T}

/-- Every resolved source is made of a directive, or of a description's payload under another
id. -/
theorem exists_directive {isFile : String → Bool} {ds : List ServiceDescription}
    {streams : List CollectStreamConfig} {cache : DiscoveryCache} {e : Origin × Source}
    (he : e ∈ (resolvedCollectFromConfig sha isFile ds streams cache).sources) :
    ∃ s, (s ∈ streams ∨ ∃ d ∈ ds, ∃ id, s = d.streamFor id) ∧
      ((∃ path format, e.2 = .file (logStreamFromCollect sha s path format)) ∨
        ∃ method, e.2 = .streaming (streamingSource sha s method)) := by
  have hroute : ∀ (s : CollectStreamConfig) (locator : String) method,
      (∃ path format, routeSource sha s locator method =
          .file (logStreamFromCollect sha s path format)) ∨
        ∃ m, routeSource sha s locator method = .streaming (streamingSource sha s m) := by
    intro s locator method
    cases method with
    | file | dockerJsonFile | kubernetes => exact .inl ⟨_, _, rfl⟩
    | dockerApi | journald | windowsEventLog => exact .inr ⟨_, rfl⟩
  rcases mem_sources_resolvedCollect.1 he with he | ⟨-, s, hs, hadds⟩
  -- from a claim
  · obtain ⟨c, -, d, hd, -, hsource⟩ := mem_sources_resolve.1 he
    have hmem : d ∈ ds := List.mem_of_find?_eq_some hd
    rw [claimSource] at hsource
    split at hsource
    · cases hsource
    · cases hsource
      exact ⟨_, .inr ⟨d, hmem, _, rfl⟩, hroute ..⟩
  -- from a directive, by what it names
  · obtain ⟨origin, source⟩ := e
    refine ⟨s, .inl hs, ?_⟩
    cases hadds with
    | eventLog => exact .inr ⟨_, rfl⟩
    | filePath => exact .inl ⟨_, _, rfl⟩
    | lookup access => exact hroute ..

/-- The digest of a file source tells its path and settings. -/
theorem BuiltFile.agrees (hinj : Set.InjOn sha T) {a d : LogStreamConfig}
    (ha : BuiltFile sha T a) (hd : BuiltFile sha T d) (h : d.configHash = a.configHash) :
    Agrees (.file a) (.file d) := by
  obtain ⟨s, format, hsa, hs, hpath, htext⟩ := ha
  obtain ⟨s', format', hsd, hs', hpath', htext'⟩ := hd
  have hta : a.text = hashText a.path s format := by rw [hsa]; rfl
  have htd : d.text = hashText d.path s' format' := by rw [hsd]; rfl
  have hha : a.configHash = sha a.text := by rw [hsa]; rfl
  have hhd : d.configHash = sha d.text := by rw [hsd]; rfl
  -- equal digests come from equal texts, and these can be read back
  have htexts : a.text = d.text := hinj htext htext' (by rw [← hha, ← hhd, h])
  rw [hta, htd] at htexts
  obtain ⟨hpaths, hsettings⟩ := settings_eq_of_fileText_eq hpath hpath' hs hs' htexts
  have hseta : a.settings = s.settings := by rw [hsa]; rfl
  have hsetd : d.settings = s'.settings := by rw [hsd]; rfl
  exact ⟨congrArg Target.file hpaths, by
    rw [Source.settings, Source.settings, hseta, hsetd, hsettings]⟩

/-- The digest of a streaming source tells its settings; the target has to be the same anyhow. -/
theorem BuiltStream.agrees (hinj : Set.InjOn sha T) {a d : StreamingSourceConfig}
    (ha : BuiltStream sha T a) (hd : BuiltStream sha T d) (h : d.configHash = a.configHash)
    (htarget : d.accessMethod = a.accessMethod) : Agrees (.streaming a) (.streaming d) := by
  obtain ⟨s, hsa, hs, htext⟩ := ha
  obtain ⟨s', hsd, hs', htext'⟩ := hd
  have hha : a.configHash = sha s.hashText := by rw [hsa]; rfl
  have hhd : d.configHash = sha s'.hashText := by rw [hsd]; rfl
  have htexts : s.hashText = s'.hashText := hinj htext htext' (by rw [← hha, ← hhd, h])
  have hsettings := settings_eq_of_hashText_eq hs hs' htexts
  have hseta : a.settings = s.settings := by rw [hsa]; rfl
  have hsetd : d.settings = s'.settings := by rw [hsd]; rfl
  exact ⟨congrArg Target.stream htarget.symm, by
    rw [Source.settings, Source.settings, hseta, hsetd, hsettings]⟩

end

/-! ## The desired sources of a steady poll -/

section

variable {sha T} {s : State} {p : Poll} {config : UnifiedConfig}

variable {desired : ResolvedCollectStreams} {f : StreamingSourceConfig}

theorem mem_entries_file {f : LogStreamConfig} :
    .file f ∈ entries desired ↔ f ∈ desired.fileStreams := by
  rw [entries, ResolvedCollectStreams.fileStreams, mem_map, mem_filterMap]
  refine exists_congr fun e => and_congr_right fun _ => ?_
  cases e.2 <;> simp [Source.file?]

theorem mem_entries_streaming : .streaming f ∈ entries desired ↔ f ∈ desired.streamingSources := by
  rw [entries, ResolvedCollectStreams.streamingSources, mem_map, mem_filterMap]
  refine exists_congr fun e => and_congr_right fun _ => ?_
  cases e.2 <;> simp [Source.streaming?]

/-- The directive of a desired source can be told from its text. -/
theorem Steady.distinctive (h : Steady sha T s p config) {c : CollectStreamConfig}
    (hc : c ∈ config.collect ∨ ∃ d ∈ config.services, ∃ id, c = d.streamFor id) :
    Distinctive T c := by
  rcases hc with hc | ⟨d, hd, id, rfl⟩
  · exact h.collect c hc
  · obtain ⟨hplain, htext⟩ := h.services d hd
    exact ⟨⟨hplain.1, hplain.2, hplain.3, hplain.4, hplain.5, hplain.6⟩, htext⟩

theorem Steady.builtFile (h : Steady sha T s p config) {f : LogStreamConfig}
    (hf : f ∈ (desiredOf sha p config).fileStreams) : BuiltFile sha T f := by
  obtain ⟨hpath, htext⟩ := h.files f hf
  obtain ⟨e, he, hfile⟩ := mem_filterMap.1 hf
  obtain ⟨c, hc, ⟨path, format, hsource⟩ | ⟨method, hsource⟩⟩ := exists_directive he
  · rw [hsource] at hfile
    cases hfile
    exact ⟨c, format, rfl, (h.distinctive hc).1, hpath, htext⟩
  · rw [hsource] at hfile
    exact nomatch hfile

theorem Steady.builtStream (h : Steady sha T s p config)
    (hf : f ∈ (desiredOf sha p config).streamingSources) : BuiltStream sha T f := by
  obtain ⟨e, he, hstream⟩ := mem_filterMap.1 hf
  obtain ⟨c, hc, ⟨path, format, hsource⟩ | ⟨method, hsource⟩⟩ := exists_directive he
  · rw [hsource] at hstream
    exact nomatch hstream
  · rw [hsource] at hstream
    cases hstream
    exact ⟨c, rfl, h.distinctive hc⟩

end

/-! ## The invariant -/

/-- What holds of the managed sources between two polls. -/
structure Good (s : State) : Prop where
  files : ∀ a ∈ s.pipelines, BuiltFile sha T a
  streams : ∀ a ∈ s.streamingSources, BuiltStream sha T a
  fileIds : (s.pipelines.map logSourceId).Nodup
  streamIds : (s.streamingSources.map StreamingSourceConfig.logSourceId).Nodup
  lingering : s.lingering = []

section

variable {sha T} {s : State} {p : Poll} {config : UnifiedConfig}

theorem mem_running_file {f : LogStreamConfig} : .file f ∈ s.running ↔ f ∈ s.pipelines := by
  simp [running]

theorem mem_running_streaming {f : StreamingSourceConfig} :
    .streaming f ∈ s.running ↔ f ∈ s.streamingSources := by
  simp [running]

variable {outlives : Source → Bool} {sources : List Source} {a : Source}
  {desired : ResolvedCollectStreams} {d : Source} {fails : Source → Bool} {x : Action}

theorem filter_outlives_eq_nil (h : ∀ a ∈ sources, outlives a = false) :
    sources.filter outlives = [] :=
  filter_eq_nil_iff.2 fun a ha => by simp [h a ha]

theorem retuned_eq_or (s : State) (p : Poll) (config : UnifiedConfig) :
    s.retuned p config = (s, []) ∧ s.lastTuning = some config.tuning ∨
      s.retuned p config = s.shutdownAll p.outlives := by
  rw [retuned]
  split
  · exact .inl ⟨rfl, by assumption⟩
  · exact .inr rfl

theorem Good.retuned (hs : Good sha T s) (hstops : ∀ a ∈ s.running, p.outlives a = false) :
    Good sha T (s.retuned p config).1 := by
  rcases retuned_eq_or s p config with ⟨h, -⟩ | h
  · rw [h]
    exact hs
  · rw [h]
    refine ⟨nofun, nofun, nodup_nil, nodup_nil, ?_⟩
    show s.lingering ++ s.running.filter p.outlives = []
    rw [hs.lingering, filter_outlives_eq_nil hstops]
    rfl

theorem mem_running_of_mem_retuned (ha : a ∈ (s.retuned p config).1.running) :
    a ∈ s.running ∧ s.lastTuning = some config.tuning := by
  rcases retuned_eq_or s p config with ⟨h, htuning⟩ | h
  · rw [h] at ha
    exact ⟨ha, htuning⟩
  · rw [h] at ha
    exact nomatch ha

theorem mem_running_of_mem_staleSources (ha : a ∈ s.staleSources desired) : a ∈ s.running := by
  rcases mem_append.1 ha with ha | ha
  · obtain ⟨f, hf, rfl⟩ := mem_map.1 ha
    exact mem_running_file.2 (mem_of_mem_stale hf)
  · obtain ⟨f, hf, rfl⟩ := mem_map.1 ha
    exact mem_running_streaming.2 (mem_of_mem_stale hf)

theorem corresponds_file {a : LogStreamConfig} (h : Corresponds (.file a) d) :
    ∃ f, d = .file f ∧ f.logSourceId = a.logSourceId := by
  cases d with
  | file f => exact ⟨f, rfl, h.2⟩
  | streaming f => exact nomatch h.1

theorem corresponds_streaming {a : StreamingSourceConfig} (h : Corresponds (.streaming a) d) :
    ∃ f, d = .streaming f ∧ f.logSourceId = a.logSourceId := by
  cases d with
  | file f => exact nomatch h.1
  | streaming f => exact ⟨f, rfl, h.2⟩

variable (hinj : Set.InjOn sha T) (hs : Good sha T s) (hsteady : Steady sha T s p config)

section

include hinj hs hsteady

/-- What runs in the file lane after a reconcile agrees with an entry with its id. -/
theorem file_agrees {a : LogStreamConfig}
    (ha : a ∈ ((s.retuned p config).1.reconciledFiles p.fails (desiredOf sha p config)).1) :
    BuiltFile sha T a ∧ ∃ d ∈ (desiredOf sha p config).fileStreams,
      d.logSourceId = a.logSourceId ∧ Agrees (.file a) (.file d) := by
  obtain ⟨d, hd, hid, rfl | ⟨hrun, hhash⟩⟩ := exists_desired_of_mem_reconciled _ hsteady.fileIds ha
  · exact ⟨hsteady.builtFile hd, d, hd, rfl, rfl, rfl⟩
  · have hbuilt := (hs.retuned hsteady.stops).files a hrun
    exact ⟨hbuilt, d, hd, hid, hbuilt.agrees hinj (hsteady.builtFile hd) hhash⟩

/-- And so in the streaming lane; there the target is what the poll has to leave alone. -/
theorem stream_agrees {a : StreamingSourceConfig}
    (ha : a ∈ ((s.retuned p config).1.reconciledStreams p.fails (desiredOf sha p config)).1) :
    BuiltStream sha T a ∧ ∃ d ∈ (desiredOf sha p config).streamingSources,
      d.logSourceId = a.logSourceId ∧ Agrees (.streaming a) (.streaming d) := by
  obtain ⟨d, hd, hid, rfl | ⟨hrun, hhash⟩⟩ :=
    exists_desired_of_mem_reconciled _ hsteady.streamIds ha
  · exact ⟨hsteady.builtStream hd, d, hd, rfl, rfl, rfl⟩
  · have hbuilt := (hs.retuned hsteady.stops).streams a hrun
    -- the digest does not cover the target, so the poll has to leave it alone
    obtain ⟨hbefore, htuning⟩ := mem_running_of_mem_retuned (mem_running_streaming.2 hrun)
    have htarget := hsteady.targets htuning a (mem_running_streaming.1 hbefore) d hd hid hhash
    exact ⟨hbuilt, d, hd, hid, hbuilt.agrees hinj (hsteady.builtStream hd) hhash htarget⟩

theorem Good.apply : Good sha T (s.apply sha p config) where
  files a ha := (file_agrees hinj hs hsteady ha).1
  streams a ha := (stream_agrees hinj hs hsteady ha).1
  fileIds := nodup_keys_reconciled _ (hs.retuned hsteady.stops).fileIds hsteady.fileIds
  streamIds := nodup_keys_reconciled _ (hs.retuned hsteady.stops).streamIds hsteady.streamIds
  lingering := by
    show (s.retuned p config).1.lingering ++
      ((s.retuned p config).1.staleSources _).filter p.outlives = []
    rw [(hs.retuned hsteady.stops).lingering, filter_outlives_eq_nil, append_nil]
    intro a ha
    exact hsteady.stops a (mem_running_of_mem_retuned (mem_running_of_mem_staleSources ha)).1

/-! ## One reconcile -/

theorem current_apply (ha : a ∈ (s.apply sha p config).running) :
    (∃ d ∈ entries (desiredOf sha p config), Corresponds a d) ∧
      ∀ d ∈ entries (desiredOf sha p config), Corresponds a d → Agrees a d := by
  cases a with
  | file a =>
    obtain ⟨-, d, hd, hid, hagrees⟩ := file_agrees hinj hs hsteady (mem_running_file.1 ha)
    refine ⟨⟨.file d, mem_entries_file.2 hd, rfl, hid⟩, fun d' hd' hcorr => ?_⟩
    obtain ⟨f, rfl, hf⟩ := corresponds_file hcorr
    -- no other entry has the id
    obtain rfl : f = d := inj_on_of_nodup_map hsteady.fileIds (mem_entries_file.1 hd') hd
      (hf.trans hid.symm)
    exact hagrees
  | streaming a =>
    obtain ⟨-, d, hd, hid, hagrees⟩ := stream_agrees hinj hs hsteady (mem_running_streaming.1 ha)
    refine ⟨⟨.streaming d, mem_entries_streaming.2 hd, rfl, hid⟩, fun d' hd' hcorr => ?_⟩
    obtain ⟨f, rfl, hf⟩ := corresponds_streaming hcorr
    obtain rfl : f = d := inj_on_of_nodup_map hsteady.streamIds
      (mem_entries_streaming.1 hd') hd (hf.trans hid.symm)
    exact hagrees

end

/-- Failed starts are logged as such, and nothing else is. -/
theorem startFailed_mem_startActions : .startFailed d ∈ s.startActions fails desired ↔
      (∃ f, d = .file f ∧ (f, false) ∈ (s.reconciledFiles fails desired).2) ∨
        ∃ f, d = .streaming f ∧ (f, false) ∈ (s.reconciledStreams fails desired).2 := by
  have hlog : ∀ {β : Type} (wrap : β → Source) (log : List (β × Bool)),
      .startFailed d ∈ log.map (fun a => startAction (wrap a.1, a.2)) ↔
        ∃ f, d = wrap f ∧ (f, false) ∈ log := by
    intro β wrap log
    rw [mem_map]
    constructor
    · rintro ⟨⟨f, ok⟩, hmem, haction⟩
      cases ok with
      | true => exact nomatch haction
      | false => exact ⟨f, (Action.startFailed.inj haction).symm, hmem⟩
    · rintro ⟨f, rfl, hmem⟩
      exact ⟨(f, false), hmem, rfl⟩
  rw [startActions, mem_append, hlog, hlog]

theorem isStop_of_mem_stops (hx : x ∈ sources.map (stopAction outlives)) :
    x.isStop = true := by
  obtain ⟨a, -, rfl⟩ := mem_map.1 hx
  rw [stopAction]
  split <;> rfl

theorem isStop_of_mem_startActions (hx : x ∈ s.startActions fails desired) : x.isStop = false := by
  have hstart : ∀ attempt, (startAction attempt).isStop = false := by
    rintro ⟨a, ok⟩
    cases ok <;> rfl
  rcases mem_append.1 hx with hx | hx
  · obtain ⟨a, -, rfl⟩ := mem_map.1 hx
    exact hstart _
  · obtain ⟨a, -, rfl⟩ := mem_map.1 hx
    exact hstart _

theorem isStop_of_mem_retuned (hx : x ∈ (s.retuned p config).2) : x.isStop = true := by
  rcases retuned_eq_or s p config with ⟨h, -⟩ | h
  · rw [h] at hx
    exact nomatch hx
  · rw [h] at hx
    exact isStop_of_mem_stops hx

theorem startFailed_mem_actions :
    .startFailed d ∈ (s.retuned p config).2 ++
        ((s.retuned p config).1.reconcile p.outlives p.fails (desiredOf sha p config)).2 ↔
      .startFailed d ∈
        (s.retuned p config).1.startActions p.fails (desiredOf sha p config) := by
  rw [mem_append, reconcile, mem_append]
  constructor
  · rintro (h | h | h)
    · exact nomatch isStop_of_mem_retuned h
    · exact nomatch isStop_of_mem_stops h
    · exact h
  · exact fun h => .inr (.inr h)

/-- What a reconcile says about the ids of a lane, said about sources. -/
theorem complete_lane {β : Type} (wrap : β → Source) (key : β → String) {lane : Lane} {id : String}
    (hlane : ∀ x : Source, x.lane = lane ↔ ∃ f, x = wrap f)
    (hkey : ∀ f, (wrap f).logSourceId = key f)
    {running desired : List Source} {after entries : List β} {log : List (β × Bool)}
    {failed : Source → Prop} (hrunning : ∀ f, wrap f ∈ running ↔ f ∈ after)
    (hdesired : ∀ f, wrap f ∈ desired ↔ f ∈ entries)
    (hfailed : ∀ f, failed (wrap f) ↔ (f, false) ∈ log)
    (hkeys : id ∈ after.map key ↔ id ∈ entries.map key ∧ ∀ d, key d = id → (d, false) ∉ log) :
    (∃ a ∈ running, a.lane = lane ∧ a.logSourceId = id) ↔
      (∃ d ∈ desired, d.lane = lane ∧ d.logSourceId = id) ∧
        ∀ d, d.lane = lane → d.logSourceId = id → ¬ failed d := by
  have hids : ∀ {xs : List Source} {fs : List β}, (∀ f, wrap f ∈ xs ↔ f ∈ fs) →
      ((∃ x ∈ xs, x.lane = lane ∧ x.logSourceId = id) ↔ id ∈ fs.map key) := by
    intro xs fs hmem
    rw [mem_map]
    constructor
    · rintro ⟨x, hx, hxlane, hid⟩
      obtain ⟨f, rfl⟩ := (hlane x).1 hxlane
      exact ⟨f, (hmem f).1 hx, (hkey f).symm.trans hid⟩
    · rintro ⟨f, hf, hid⟩
      exact ⟨wrap f, (hmem f).2 hf, (hlane _).2 ⟨f, rfl⟩, (hkey f).trans hid⟩
  rw [hids hrunning, hids hdesired, hkeys]
  refine and_congr_right fun _ => ⟨fun h d hdlane hid hfail => ?_, fun h f hid hfail => ?_⟩
  · obtain ⟨f, rfl⟩ := (hlane d).1 hdlane
    exact h f ((hkey f).symm.trans hid) ((hfailed f).1 hfail)
  · exact h (wrap f) ((hlane _).2 ⟨f, rfl⟩) ((hkey f).trans hid) ((hfailed f).2 hfail)

include hsteady

theorem complete_apply (lane : Lane) (id : String) :
    (∃ a ∈ (s.apply sha p config).running, a.lane = lane ∧ a.logSourceId = id) ↔
      (∃ d ∈ entries (desiredOf sha p config), d.lane = lane ∧ d.logSourceId = id) ∧
        ∀ d, d.lane = lane → d.logSourceId = id →
          .startFailed d ∉ (s.retuned p config).2 ++
            ((s.retuned p config).1.reconcile p.outlives p.fails
              (desiredOf sha p config)).2 := by
  simp only [startFailed_mem_actions, startFailed_mem_startActions]
  cases lane with
  | file =>
    refine complete_lane Source.file logSourceId ?_
      (fun _ => rfl) (fun _ => mem_running_file) (fun _ => mem_entries_file) (fun f => ?_)
      (mem_keys_reconciled _ hsteady.fileIds)
    · intro x
      cases x <;> simp [Source.lane]
    · simp [reconciledFiles]
  | streaming =>
    refine complete_lane Source.streaming StreamingSourceConfig.logSourceId ?_
      (fun _ => rfl) (fun _ => mem_running_streaming) (fun _ => mem_entries_streaming)
      (fun f => ?_) (mem_keys_reconciled _ hsteady.streamIds)
    · intro x
      cases x <;> simp [Source.lane]
    · simp [reconciledStreams]

include hinj hs

/-- A source that is neither stopped by a change of the tuning nor stale is kept, and agrees with
its entry. -/
theorem stopped_of_outdated (ha : a ∈ s.running)
    (hout : Outdated (entries (desiredOf sha p config)) a) :
    .stopped a ∈ (s.retuned p config).2 ++
      ((s.retuned p config).1.staleSources (desiredOf sha p config)).map
        (stopAction p.outlives) := by
  have hstop : stopAction p.outlives a = .stopped a := by
    rw [stopAction, hsteady.stops a ha]
    rfl
  rw [mem_append]
  rcases retuned_eq_or s p config with ⟨h, htuning⟩ | h
  · rw [h]
    refine .inr (mem_map.2 ⟨a, ?_, hstop⟩)
    -- a kept source has an entry with its digest, and that entry would agree with it
    cases a with
    | file a =>
      have hrun := mem_running_file.1 ha
      refine mem_append_left _ (mem_map_of_mem (mem_stale_of_not_mem_kept hrun ?_))
      intro hkept
      obtain ⟨d, hd, hid, hhash⟩ := exists_desired_of_mem_kept hkept
      exact hout ⟨.file d, mem_entries_file.2 hd, ⟨rfl, hid⟩,
        (hs.files a hrun).agrees hinj (hsteady.builtFile hd) hhash⟩
    | streaming a =>
      have hrun := mem_running_streaming.1 ha
      refine mem_append_right _ (mem_map_of_mem (mem_stale_of_not_mem_kept hrun ?_))
      intro hkept
      obtain ⟨d, hd, hid, hhash⟩ := exists_desired_of_mem_kept hkept
      exact hout ⟨.streaming d, mem_entries_streaming.2 hd, ⟨rfl, hid⟩,
        (hs.streams a hrun).agrees hinj (hsteady.builtStream hd) hhash
          (hsteady.targets htuning a hrun d hd hid hhash)⟩
  · rw [h]
    exact .inl (mem_map.2 ⟨a, ha, hstop⟩)

theorem inLine_apply : (s.apply sha p config).InLine := by
  intro pass hpass
  cases hpass
  refine ⟨?_, complete_apply hsteady, ?_⟩
  · intro a ha
    rw [(hs.apply hinj hsteady).lingering, append_nil] at ha
    exact current_apply hinj hs hsteady ha
  -- the stops are those of the shutdown and of the stale sources
  · refine ⟨_, _, (append_assoc _ _ _).symm, ?_, ?_, ?_⟩
    · intro x hx
      rcases mem_append.1 hx with hx | hx
      · exact isStop_of_mem_retuned hx
      · exact isStop_of_mem_stops hx
    · exact fun x hx => isStop_of_mem_startActions hx
    · exact fun a ha hout => stopped_of_outdated hinj hs hsteady ha hout

end

/-! ## Runs -/

/-- In every run of the orchestrator whose polls are steady, what runs after a reconcile is in line
with what was desired. -/
theorem always_inLine (hinj : Set.InjOn sha T) (events : List Event)
    (h : Each (State.step sha) (SteadyEvent sha T) {} events) :
    Always (State.step sha) State.InLine {} events := by
  have hinv : Always (State.step sha)
      (fun s => (s.finished = false → Good sha T s) ∧ s.InLine) {} events := by
    refine always_of_each ?_ ?_ h
    · rintro s e ⟨hgood, hline⟩ hsteady
      cases e with
      | shutdown outlives =>
        rw [State.step]
        split
        · exact ⟨hgood, hline⟩
        · exact ⟨nofun, nofun⟩
      | poll p =>
        rw [State.step]
        split
        · rename_i config hconfig
          split
          · rename_i hdue
            have hs := hgood hdue.1
            have hpoll := hsteady config hconfig hdue.1 hdue.2
            exact ⟨fun _ => hs.apply hinj hpoll, inLine_apply hinj hs hpoll⟩
          · exact ⟨hgood, hline⟩
        · exact ⟨hgood, hline⟩
    · exact ⟨fun _ => ⟨nofun, nofun, nodup_nil, nodup_nil, rfl⟩, nofun⟩
  exact hinv.mono fun s hs => hs.2

/-- A poll that finds one generation of the shop running in docker. -/
def shopPoll (epoch : Nat) (checksum endpoint containerId : String) : Poll where
  config := some {
    checksum := checksum
    services := [{ shopService with
      collect := { shopService.collect with subboxEndpoint := endpoint } }]
    collect := []
    tuning := ⟨1, 1⟩ }
  epoch := epoch
  cache := updateAll (containerScan [generation containerId "shop" "running"])
  isFile := fun _ => false
  outlives := fun _ => false
  fails := fun _ => false

theorem steady_shopPoll {s : State} {epoch : Nat} {checksum endpoint containerId : String}
    (hbar : NoBar endpoint)
    (hfiles : (desiredOf ofList (shopPoll epoch checksum endpoint containerId)
      ((shopPoll epoch checksum endpoint containerId).config.get rfl)).fileStreams = [])
    (hids : ((desiredOf ofList (shopPoll epoch checksum endpoint containerId)
      ((shopPoll epoch checksum endpoint containerId).config.get rfl)).streamingSources.map
        StreamingSourceConfig.logSourceId).Nodup)
    (htargets : ∀ a ∈ s.streamingSources,
      ∀ d ∈ (desiredOf ofList (shopPoll epoch checksum endpoint containerId)
        ((shopPoll epoch checksum endpoint containerId).config.get rfl)).streamingSources,
        d.logSourceId = a.logSourceId → d.configHash = a.configHash →
          d.accessMethod = a.accessMethod) :
    SteadyEvent ofList Set.univ s (.poll (shopPoll epoch checksum endpoint containerId)) := by
  rintro config hconfig - -
  cases hconfig
  refine ⟨?_, hids, ?_, nofun, ?_, fun _ => htargets, fun _ _ => rfl⟩
  · exact hfiles ▸ nodup_nil
  · intro d hd
    obtain rfl := mem_singleton.1 hd
    have hplain : shopService.collect.Plain :=
      ⟨by decide +kernel, by decide +kernel, by decide +kernel, by decide +kernel,
        by decide +kernel, by decide +kernel⟩
    exact ⟨⟨hplain.1, hplain.2, hbar, hplain.4, hplain.5, hplain.6⟩, trivial⟩
  · exact fun f hf => nomatch hfiles ▸ hf

/-- The endpoint changes: the source is restarted with the new one. -/
theorem endpoint_change_inLine :
    Always (State.step ofList) State.InLine {}
        [.poll (shopPoll 1 "1" "http://one" "a"), .poll (shopPoll 1 "2" "http://two" "a")] ∧
      (State.step ofList (State.step ofList {}
        (.poll (shopPoll 1 "1" "http://one" "a")))
        (.poll (shopPoll 1 "2" "http://two" "a"))).streamingSources.map
          StreamingSourceConfig.endpoint = ["http://two"] := by
  refine ⟨always_inLine ofList Set.univ (fun _ _ _ _ h => ofList_injective h) _
    ⟨?_, ?_, trivial⟩, by decide +kernel⟩
  · exact steady_shopPoll (by decide +kernel) (by decide +kernel) (by decide +kernel) nofun
  · exact steady_shopPoll (by decide +kernel) (by decide +kernel) (by decide +kernel)
      (by decide +kernel)

/-- The service is deployed anew: the source still reads the container that is gone. -/
theorem kept_reader_of_old_container :
    ¬ Always (State.step ofList) State.InLine {}
      [.poll (shopPoll 1 "1" "http://one" "a"), .poll (shopPoll 2 "1" "http://one" "b")] := by
  intro h
  have hlast := h.last
  have hreads : ((State.step ofList (State.step ofList {}
      (.poll (shopPoll 1 "1" "http://one" "a")))
      (.poll (shopPoll 2 "1" "http://one" "b"))).streamingSources.map fun a =>
        (a.logSourceId, a.accessMethod)) = [("shop/shop-prod", .dockerApi "a")] := by
    decide +kernel
  have hdesired : ((desiredOf ofList (shopPoll 2 "1" "http://one" "b")
      ((shopPoll 2 "1" "http://one" "b").config.get rfl)).streamingSources.map fun a =>
        (a.logSourceId, a.accessMethod)) = [("shop/shop-prod", .dockerApi "b")] := by
    decide +kernel
  obtain ⟨a, ha, haeq⟩ := mem_map.1 (hreads ▸ mem_singleton_self _)
  obtain ⟨d, hd, hdeq⟩ := mem_map.1 (hdesired ▸ mem_singleton_self _)
  obtain ⟨hida, hta⟩ := Prod.mk.inj haeq
  obtain ⟨hidd, htd⟩ := Prod.mk.inj hdeq
  have hagrees := ((hlast _ rfl).current (.streaming a)
    (mem_append_left _ (mem_running_streaming.2 ha))).2 (.streaming d)
    (mem_entries_streaming.2 hd) ⟨rfl, hidd.trans hida.symm⟩
  have htarget : a.accessMethod = d.accessMethod := Target.stream.inj hagrees.1
  rw [hta, htd] at htarget
  exact absurd (StreamAccessMethod.dockerApi.inj htarget) (by decide +kernel)

/-! ## Polls that change nothing -/

theorem State.reconcile_of_rest (s : State) {desired : ResolvedCollectStreams}
    (outlives : Source → Bool) {fails : Source → Bool} (hstale : s.staleSources desired = [])
    (hfiles : s.reconciledFiles fails desired = (s.pipelines, []))
    (hstreams : s.reconciledStreams fails desired = (s.streamingSources, [])) :
    s.reconcile outlives fails desired = (s, []) := by
  rw [reconcile, startActions, hstale, hfiles, hstreams, filter_nil, append_nil]
  rfl

/-- After a reconcile whose starts succeed, one that finds the same sources desired under the same
tuning stops nothing and starts nothing. -/
theorem unchanged_poll_rests (s : State) (p p' : Poll) (config config' : UnifiedConfig)
    (hfiles : ((desiredOf sha p config).fileStreams.map logSourceId).Nodup)
    (hstreams : ((desiredOf sha p config).streamingSources.map
      StreamingSourceConfig.logSourceId).Nodup)
    (hstart : ∀ d ∈ entries (desiredOf sha p config), p.fails d = false)
    (hdesired : desiredOf sha p' config' = desiredOf sha p config)
    (htuning : config'.tuning = config.tuning) :
    (s.apply sha p config).apply sha p' config' =
      { s.apply sha p config with
        lastChecksum := config'.checksum
        lastDiscoveryEpoch := p'.epoch
        last := some ⟨(s.apply sha p config).running, desiredOf sha p config, []⟩ } := by
  obtain ⟨hstale, hrest⟩ := reconciled_again configHash _ hfiles
    (fun d => p'.fails (.file d)) (fun f hf => hstart _ (mem_entries_file.2 hf)) rfl
  obtain ⟨hstale', hrest'⟩ := reconciled_again StreamingSourceConfig.configHash _ hstreams
    (fun d => p'.fails (.streaming d)) (fun f hf => hstart _ (mem_entries_streaming.2 hf)) rfl
  have hsame := (s.apply sha p config).reconcile_of_rest p'.outlives
    (congrArg₂ (fun xs ys => xs.map Source.file ++ ys.map Source.streaming) hstale hstale') hrest
    hrest'
  have hretuned : (s.apply sha p config).retuned p' config' = (s.apply sha p config, []) :=
    if_pos (by rw [htuning]; rfl)
  rw [State.apply, hretuned, hdesired, hsame, htuning]
  rfl

/-- A new scan that finds the same container. -/
theorem rescan_rests :
    ((State.apply ofList {} (shopPoll 1 "1" "http://one" "a")
      ((shopPoll 1 "1" "http://one" "a").config.get rfl)).apply ofList
        (shopPoll 2 "1" "http://one" "a")
        ((shopPoll 2 "1" "http://one" "a").config.get rfl)).last.map Pass.actions = some [] :=
  congrArg (fun s => s.last.map Pass.actions) (unchanged_poll_rests ofList {} _ _ _ _
    (by decide +kernel) (by decide +kernel) (fun _ _ => rfl) rfl rfl)

end EdgePacer.Orchestrator
