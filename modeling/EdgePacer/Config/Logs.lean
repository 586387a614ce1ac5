import EdgePacer.Discovery.Cache
import EdgePacer.Lib.Separated

/-!
# From directives to sources

A collect directive names what to read by an identifier and a matching strategy. Resolution looks
the identifier up in the discovery cache and routes the directive to one of two lanes, files and
streams. Directives whose container a service description has claimed are left out.

The two lanes are two lists in the code. Here the sources of both stand in one list, each with
where it came from (`Origin`, which the code does not keep); the lanes are its two parts.
-/

namespace EdgePacer.Config

open Inventory Inventory.Container Discovery Lib

/-! ## Settings -/

/-- Multi-line settings of a source. -/
structure MultilineConfig where
  startPattern : String
  startPatterns : List String
  (maxLines timeoutSecs : Nat)
  deriving DecidableEq

/-- The patterns lines are matched against. -/
def MultilineConfig.patterns (m : MultilineConfig) : List String :=
  if m.startPatterns.isEmpty then [m.startPattern] else m.startPatterns

/-- The unit separator stands between two patterns. -/
def unitSeparator : Char := Char.ofNat 31

def multilineHashPart : Option MultilineConfig → List Char
  | some m =>
      joined '|' [joined unitSeparator (m.patterns.map String.toList),
        Nat.toDigits 10 m.maxLines, Nat.toDigits 10 m.timeoutSecs]
  | none => ['-']

def stampPart (stampResourceIdentifier : Bool) : List Char :=
  if stampResourceIdentifier then "stamp".toList else "nostamp".toList

def hashPart : FileSourceFormat → List Char
  | .plain => "file".toList
  | .dockerJson => "docker-json".toList
  | .kubernetesCri => "k8s-cri".toList

/-- A collect directive, or the collect payload of a service description. -/
structure CollectStreamConfig where
  (logSourceId locator matchingStrategy containerIdentifier subboxEndpoint archiveId : String)
  repoId : String
  stampResourceIdentifier : Bool
  multiline : Option MultilineConfig

namespace CollectStreamConfig

/-- The text whose digest is the directive's `config_hash`. -/
def hashText (s : CollectStreamConfig) : List Char :=
  joined '|' [s.locator.toList, s.matchingStrategy.toList, s.subboxEndpoint.toList,
    s.archiveId.toList, s.repoId.toList, multilineHashPart s.multiline,
    stampPart s.stampResourceIdentifier]

/-- Both parsers set `config_hash` to this; a description's streams keep it under other ids. -/
def configHash (sha : List Char → String) (s : CollectStreamConfig) : String := sha s.hashText

/-- What a directive is looked up by. -/
def identifier (s : CollectStreamConfig) : String :=
  if s.containerIdentifier.isEmpty then s.locator else s.containerIdentifier

end CollectStreamConfig

/-! ## Sources -/

/-- How a source that is not a file is read. -/
inductive StreamAccessMethod where
  | dockerApi (containerId : String)
  | journald (unit : String)
  | windowsEventLog (channel : String)
  deriving DecidableEq, Repr

/-- A source of the file lane. -/
structure LogStreamConfig where
  (logSourceId path endpoint archiveId repoId : String)
  stampResourceIdentifier : Bool
  sourceFormat : FileSourceFormat
  multiline : Option MultilineConfig
  configHash : String
  deriving DecidableEq

/-- The text whose digest is a file source's `config_hash`. -/
def LogStreamConfig.hashText (path : String) (s : CollectStreamConfig) (format : FileSourceFormat) :
    List Char :=
  joined '|' [path.toList, s.subboxEndpoint.toList, s.archiveId.toList, s.repoId.toList,
    multilineHashPart s.multiline, hashPart format, stampPart s.stampResourceIdentifier]

/-- A source of the streaming lane. -/
structure StreamingSourceConfig where
  logSourceId : String
  accessMethod : StreamAccessMethod
  (endpoint archiveId repoId : String)
  multiline : Option MultilineConfig
  configHash : String
  deriving DecidableEq

inductive Source where
  | file (config : LogStreamConfig)
  | streaming (config : StreamingSourceConfig)
  deriving DecidableEq

/-- What a source reads. -/
inductive Target where
  | file (path : String)
  | stream (method : StreamAccessMethod)
  deriving DecidableEq, Repr

def Source.target : Source → Target
  | .file s => .file s.path
  | .streaming s => .stream s.accessMethod

def Source.logSourceId : Source → String
  | .file s => s.logSourceId
  | .streaming s => s.logSourceId

def Source.file? : Source → Option LogStreamConfig
  | .file s => some s
  | .streaming _ => none

def Source.streaming? : Source → Option StreamingSourceConfig
  | .file _ => none
  | .streaming s => some s

/-- Where a source comes from: a description, for a container, or a directive. -/
inductive Origin where
  | selector (containerId : String)
  | directive
  deriving DecidableEq, Repr

structure CollectDiagnostic where
  logSourceId : String
  status : MatchStatus
  detail : String

structure CheckpointAdoption where
  (legacyLogSourceId logSourceId : String)
  deriving DecidableEq

/-- What resolving the directives comes to. -/
structure ResolvedCollectStreams where
  sources : List (Origin × Source) := []
  diagnostics : List CollectDiagnostic := []
  checkpointAdoptions : List CheckpointAdoption := []

namespace ResolvedCollectStreams

variable (r : ResolvedCollectStreams)

def fileStreams : List LogStreamConfig := r.sources.filterMap fun e => e.2.file?

def streamingSources : List StreamingSourceConfig := r.sources.filterMap fun e => e.2.streaming?

def push (origin : Origin) (source : Source) : ResolvedCollectStreams :=
  { r with sources := r.sources ++ [(origin, source)] }

def diagnose (d : CollectDiagnostic) : ResolvedCollectStreams :=
  { r with diagnostics := r.diagnostics ++ [d] }

@[simp] theorem sources_push (origin : Origin) (source : Source) :
    (r.push origin source).sources = r.sources ++ [(origin, source)] := rfl

@[simp] theorem sources_diagnose (d : CollectDiagnostic) : (r.diagnose d).sources = r.sources := rfl

end ResolvedCollectStreams

/-! ## Routing -/

section

variable (sha : List Char → String) (s : CollectStreamConfig)

def logStreamFromCollect (path : String) (format : FileSourceFormat) : LogStreamConfig where
  logSourceId := s.logSourceId
  path := path
  endpoint := s.subboxEndpoint
  archiveId := s.archiveId
  repoId := s.repoId
  stampResourceIdentifier := s.stampResourceIdentifier
  sourceFormat := format
  multiline := s.multiline
  configHash := sha (LogStreamConfig.hashText path s format)

/-- The digest is the directive's own; the access method does not enter it. -/
def streamingSource (method : StreamAccessMethod) : StreamingSourceConfig where
  logSourceId := s.logSourceId
  accessMethod := method
  endpoint := s.subboxEndpoint
  archiveId := s.archiveId
  repoId := s.repoId
  multiline := s.multiline
  configHash := s.configHash sha

/-- The source for a directive and the access it was resolved to. -/
def routeSource (locator : String) : AccessMethod → Source
  | .file => .file (logStreamFromCollect sha s locator .plain)
  | .dockerJsonFile => .file (logStreamFromCollect sha s locator .dockerJson)
  | .kubernetes => .file (logStreamFromCollect sha s locator .kubernetesCri)
  | .dockerApi => .streaming (streamingSource sha s (.dockerApi locator))
  | .journald => .streaming (streamingSource sha s (.journald locator))
  | .windowsEventLog => .streaming (streamingSource sha s (.windowsEventLog locator))

/-- What a locator refers to under an access method. -/
def targetOf (locator : String) : AccessMethod → Target
  | .file | .dockerJsonFile | .kubernetes => .file locator
  | .dockerApi => .stream (.dockerApi locator)
  | .journald => .stream (.journald locator)
  | .windowsEventLog => .stream (.windowsEventLog locator)

@[simp] theorem target_routeSource (locator : String) (method : AccessMethod) :
    (routeSource sha s locator method).target = targetOf locator method := by
  cases method <;> rfl

end

/-! ## Directives -/

def isWindowsEventLogMethod (method : String) : Bool :=
  method ∈ ["windows_event", "windows_event_log", "event_log", "eventlog"]

def matched (s : CollectStreamConfig) (via : MatchVia) : CollectDiagnostic :=
  ⟨s.logSourceId, .matched, "via " ++ via.asStr ++ " (" ++ via.confidence.asStr ++ ")"⟩

def notFound (s : CollectStreamConfig) (detail : String) : CollectDiagnostic :=
  ⟨s.logSourceId, .notFound, detail⟩

section

variable (sha : List Char → String) (isFile : String → Bool) (cache : DiscoveryCache)
  (claimedLocators : List String)

variable (r : ResolvedCollectStreams) (s : CollectStreamConfig)

/-- One directive of `resolve_collect_streams_into`. -/
def resolveDirective : ResolvedCollectStreams :=
  if s.identifier.isEmpty then r.diagnose (notFound s "missing locator")
  else if isWindowsEventLogMethod s.matchingStrategy then
    let source := streamingSource sha s (.windowsEventLog s.identifier)
    (r.push .directive (.streaming source)).diagnose (matched s .windowsEventLog)
  else if s.matchingStrategy = "file_path" then
    if isFile s.identifier then
      (r.push .directive (.file (logStreamFromCollect sha s s.identifier .plain))).diagnose
        (matched s .filePath)
    else r.diagnose (notFound s ("no file at " ++ s.identifier))
  else
    match cache.resolve isFile s.identifier (inferLoggableType s.matchingStrategy) with
    | .matched access =>
        if access.accessLocator ∈ claimedLocators then
          r.diagnose ⟨s.logSourceId, .matched, "container claimed by a service description"⟩
        else
          (r.push .directive (routeSource sha s access.accessLocator access.accessMethod)).diagnose
            (matched s access.matchedVia)
    | .ambiguous candidates =>
        r.diagnose ⟨s.logSourceId, .ambiguous, toString candidates ++
          " discovered sources matched " ++ s.matchingStrategy ++ " ambiguously"⟩
    | .notFound =>
        r.diagnose (notFound s ("no discovered loggable for " ++ s.matchingStrategy ++ "=" ++
          s.identifier))

def resolveCollectStreamsInto (streams : List CollectStreamConfig) : ResolvedCollectStreams :=
  streams.foldl (resolveDirective sha isFile cache claimedLocators) r

/-- A directive whose strategy is the exact path of a file, where the file exists. -/
def NamesFile : Prop :=
  s.identifier.isEmpty = false ∧ isWindowsEventLogMethod s.matchingStrategy = false ∧
    s.matchingStrategy = "file_path" ∧ isFile s.identifier = true

/-- A directive that the cache resolves to an access. -/
def LooksUp (access : ResolvedAccess) : Prop :=
  s.identifier.isEmpty = false ∧ isWindowsEventLogMethod s.matchingStrategy = false ∧
    s.matchingStrategy ≠ "file_path" ∧
    cache.resolve isFile s.identifier (inferLoggableType s.matchingStrategy) = .matched access

/-- The source a directive adds, if it adds one. -/
inductive Adds (s : CollectStreamConfig) : Source → Prop where
  | eventLog (hid : s.identifier.isEmpty = false)
      (hmethod : isWindowsEventLogMethod s.matchingStrategy = true) :
      Adds s (.streaming (streamingSource sha s (.windowsEventLog s.identifier)))
  | filePath (h : NamesFile isFile s) :
      Adds s (.file (logStreamFromCollect sha s s.identifier .plain))
  | lookup (access : ResolvedAccess) (h : LooksUp isFile cache s access)
      (hfree : access.accessLocator ∉ claimedLocators) :
      Adds s (routeSource sha s access.accessLocator access.accessMethod)

variable {sha isFile cache claimedLocators}

variable (sha isFile cache claimedLocators) in
/-- What a directive adds, as the branches of `resolveDirective` have it. -/
def addedSource : Option Source :=
  if s.identifier.isEmpty then none
  else if isWindowsEventLogMethod s.matchingStrategy then
    some (.streaming (streamingSource sha s (.windowsEventLog s.identifier)))
  else if s.matchingStrategy = "file_path" then
    if isFile s.identifier then some (.file (logStreamFromCollect sha s s.identifier .plain))
    else none
  else
    match cache.resolve isFile s.identifier (inferLoggableType s.matchingStrategy) with
    | .matched access =>
        if access.accessLocator ∈ claimedLocators then none
        else some (routeSource sha s access.accessLocator access.accessMethod)
    | _ => none

theorem sources_resolveDirective :
    (resolveDirective sha isFile cache claimedLocators r s).sources = r.sources ++
      ((addedSource sha isFile cache claimedLocators s).map (Prod.mk Origin.directive)).toList := by
  rw [resolveDirective, addedSource]
  by_cases hid : s.identifier.isEmpty = true
  · simp [hid]
  rw [if_neg hid, if_neg hid]
  by_cases hmethod : isWindowsEventLogMethod s.matchingStrategy = true
  · simp [hmethod]
  rw [if_neg hmethod, if_neg hmethod]
  by_cases hpath : s.matchingStrategy = "file_path"
  · rw [if_pos hpath, if_pos hpath]
    by_cases hfile : isFile s.identifier = true <;> simp [hfile]
  -- the remaining strategies ask the cache
  rw [if_neg hpath, if_neg hpath]
  cases cache.resolve isFile s.identifier (inferLoggableType s.matchingStrategy) with
  | matched access => by_cases hclaimed : access.accessLocator ∈ claimedLocators <;> simp [hclaimed]
  | ambiguous candidates | notFound => simp

variable {s : CollectStreamConfig} {e : Origin × Source}

theorem addedSource_eq_some_iff {source : Source} :
    addedSource sha isFile cache claimedLocators s = some source ↔
      Adds sha isFile cache claimedLocators s source := by
  constructor
  · intro h
    rw [addedSource] at h
    split_ifs at h with hid hmethod hpath hfile
    · cases h
      exact .eventLog (by simpa using hid) hmethod
    · cases h
      exact .filePath ⟨by simpa using hid, by simpa using hmethod, hpath, hfile⟩
    · split at h
      · next access hresolve =>
        split_ifs at h with hclaimed
        cases h
        exact .lookup access ⟨by simpa using hid, by simpa using hmethod, hpath, hresolve⟩ hclaimed
      · exact nomatch h
  · intro h
    rw [addedSource]
    cases h with
    | eventLog hid hmethod => simp [hid, hmethod]
    | filePath h =>
      obtain ⟨hid, hmethod, hpath, hfile⟩ := h
      rw [if_neg (by simp [hid]), if_neg (by simp [hmethod]), if_pos hpath, if_pos hfile]
    | lookup access h hfree =>
      obtain ⟨hid, hmethod, hpath, hresolve⟩ := h
      simp [hid, hmethod, hpath, hresolve, hfree]

theorem mem_sources_resolveDirective {r : ResolvedCollectStreams} :
    e ∈ (resolveDirective sha isFile cache claimedLocators r s).sources ↔
      e ∈ r.sources ∨ e.1 = .directive ∧ Adds sha isFile cache claimedLocators s e.2 := by
  rw [sources_resolveDirective, List.mem_append, Option.mem_toList, Option.map_eq_some_iff]
  refine or_congr_right ⟨?_, fun ⟨horigin, hadds⟩ => ?_⟩
  · rintro ⟨source, hsource, rfl⟩
    exact ⟨rfl, addedSource_eq_some_iff.1 hsource⟩
  · exact ⟨e.2, addedSource_eq_some_iff.2 hadds, Prod.ext horigin.symm rfl⟩

/-- The sources after all directives: those that were there, and what each directive adds. -/
theorem mem_sources_resolveCollectStreamsInto :
    ∀ {streams : List CollectStreamConfig} {r : ResolvedCollectStreams},
      e ∈ (resolveCollectStreamsInto sha isFile cache claimedLocators r streams).sources ↔
        e ∈ r.sources ∨
          e.1 = .directive ∧ ∃ s ∈ streams, Adds sha isFile cache claimedLocators s e.2 := by
  intro streams
  induction streams with
  | nil => simp [resolveCollectStreamsInto]
  | cons s streams ih =>
    intro r
    have hstep : resolveCollectStreamsInto sha isFile cache claimedLocators r (s :: streams) =
        resolveCollectStreamsInto sha isFile cache claimedLocators
          (resolveDirective sha isFile cache claimedLocators r s) streams := rfl
    rw [hstep, ih, mem_sources_resolveDirective, or_assoc, ← and_or_left]
    simp

end

end EdgePacer.Config
