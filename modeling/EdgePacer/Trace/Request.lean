import EdgePacer.Trace.Wire
import Mathlib.Data.Finset.Basic

/-!
# Trace requests

A request is a list of resources with their spans. The service-name policy looks at every resource
first; an accepted request is then encoded and forwarded resource by resource.

The policy goes by the first nonempty text under `service.name`, the `service_name` field of a span
by the first attribute of that key, and the span's `resource_attributes` keep the last one. The
three agree on a resource whose first and last such attribute give the same text (`named_iff`); an
allow-list is no protection against the others (`second_name_ships`).
-/

namespace EdgePacer.Trace

open List Json

/-- The part of the configuration that requests are processed by. -/
structure TraceProxyConfig where
  (subboxEndpoint archiveId repoId resourceIdentifier : String)
  requireServiceName : Bool
  allowedServiceNames : Finset String

/-- The spans of one resource. -/
structure ResourceSpans where
  resource : Option Attributes
  /-- The spans of each instrumentation scope. -/
  scopeSpans : List (List Span)

def SERVICE_NAME_KEY : String := "service.name"

inductive ServiceNamePolicyRejection where
  | missing
  | notAllowed (serviceName : String)
  deriving DecidableEq

inductive TraceRequestRejection where
  | serviceNamePolicy (rejection : ServiceNamePolicyRejection)
  | shuttingDown
  deriving DecidableEq

/-! ## Names -/

/-- A nonempty text under `service.name`. -/
def serviceNameOf (kv : String × AnyValue) : Option String :=
  if kv.1 ≠ SERVICE_NAME_KEY then none
  else
    match kv.2 with
    | .stringValue name => if name.isEmpty then none else some name
    | _ => none

def existingServiceName (rs : ResourceSpans) : Option String :=
  rs.resource.bind fun attrs => attrs.findSome? serviceNameOf

def serviceNameFromAttrs (attrs : Attributes) : String :=
  match attrs.find? fun kv => kv.1 = SERVICE_NAME_KEY with
  | some (_, .stringValue s) => s
  | _ => ""

/-- Replace whatever stands under `service.name` by the fallback, unless there is a name. -/
def ensureServiceName (rs : ResourceSpans) (fallback : String) : Bool × ResourceSpans :=
  if (existingServiceName rs).isSome then (false, rs)
  else
    let attrs := (rs.resource.getD []).filter fun kv => kv.1 ≠ SERVICE_NAME_KEY
    (true, { rs with resource := some (attrs ++ [(SERVICE_NAME_KEY, .stringValue fallback)]) })

def applyServiceNamePolicy (rs : ResourceSpans) (fallback : String) (requireServiceName : Bool)
    (allowedServiceNames : Finset String) :
    Except ServiceNamePolicyRejection (Bool × ResourceSpans) :=
  match existingServiceName rs with
  | some serviceName =>
      if allowedServiceNames ≠ ∅ ∧ serviceName ∉ allowedServiceNames then
        .error (.notAllowed serviceName)
      else .ok (false, rs)
  | none =>
      if requireServiceName = true ∨ allowedServiceNames ≠ ∅ then .error .missing
      else .ok (ensureServiceName rs fallback)

/-! ## Payloads -/

/-- One routed batch of spans. -/
structure WireRequest where
  (archiveId repoId : String)
  schemaVersion : Nat
  entriesJson : List Json

/-- What becomes of a payload that is shipped. -/
inductive ForwardOutcome where
  | delivered
  | retryable
  | nonRetryable
  deriving DecidableEq, Repr

/-- What the environment decides while a request is forwarded. -/
structure ForwardEnv where
  outcome : Nat → ForwardOutcome
  /-- The forward during which the proxy is shut down. -/
  shutdownAt : Option Nat

/-- What a request did: the payloads handed to the transport, those handed to the buffer, and the
answer. -/
structure Processed where
  (forwarded buffered : List WireRequest)
  result : Except TraceRequestRejection Unit

section

variable (lossy : Bytes → String)

/-- The batch of a resource's spans; none if it has no spans. -/
def encodeResourceSpanBatch (rs : ResourceSpans) (archiveId repoId : String) : Option WireRequest :=
  let resourceAttrs := (rs.resource.map (attrsToJson lossy)).getD (.obj [])
  let serviceName := (rs.resource.map serviceNameFromAttrs).getD ""
  let entriesJson := rs.scopeSpans.flatten.map fun span =>
    spanToJsonValue lossy span serviceName resourceAttrs
  if entriesJson.isEmpty then none else some ⟨archiveId, repoId, 1, entriesJson⟩

/-- The policy is applied to every resource before anything is forwarded. -/
def applyPolicy (config : TraceProxyConfig) :
    List ResourceSpans → Except ServiceNamePolicyRejection (List ResourceSpans)
  | [] => .ok []
  | rs :: rest =>
      match applyServiceNamePolicy rs ("unknown:" ++ config.resourceIdentifier)
          config.requireServiceName config.allowedServiceNames with
      | .error rejection => .error rejection
      | .ok (_, rs') =>
          match applyPolicy config rest with
          | .error rejection => .error rejection
          | .ok rest' => .ok (rs' :: rest')

variable (config : TraceProxyConfig)

/-- The payloads of a request, in their order. -/
def payloads (request : List ResourceSpans) : List WireRequest :=
  request.filterMap fun rs => encodeResourceSpanBatch lossy rs config.archiveId config.repoId

/-- Forward one payload after the other, from the `i`-th on. -/
def forwardPayloads (env : ForwardEnv) : Nat → List WireRequest → Processed
  | _, [] => ⟨[], [], .ok ()⟩
  | i, payload :: rest =>
      if env.shutdownAt = some i then ⟨[payload], [], .error .shuttingDown⟩
      else
        let later := forwardPayloads env (i + 1) rest
        { later with
          forwarded := payload :: later.forwarded
          buffered :=
            if env.outcome i = .retryable then payload :: later.buffered else later.buffered }

def processTraceRequest (request : List ResourceSpans) (env : ForwardEnv) : Processed :=
  match applyPolicy config request with
  | .error rejection => ⟨[], [], .error (.serviceNamePolicy rejection)⟩
  | .ok request' => forwardPayloads env 0 (payloads lossy config request')

/-! ## What is forwarded -/

/-- The number of payloads that are handed to the transport, of `count` from the `i`-th on. -/
def reached (env : ForwardEnv) (i count : Nat) : Nat :=
  match env.shutdownAt with
  | some k => if i ≤ k then min count (k + 1 - i) else count
  | none => count

theorem forwarded_eq_take (env : ForwardEnv) (i : Nat) (ps : List WireRequest) :
    (forwardPayloads env i ps).forwarded = ps.take (reached env i ps.length) := by
  induction ps generalizing i with
  | nil =>
    rw [take_nil]
    rfl
  | cons payload rest ih =>
    rw [forwardPayloads]
    by_cases hk : env.shutdownAt = some i
    · have hone : reached env i (payload :: rest).length = 1 := by
        rw [reached, hk]
        simp
      rw [if_pos hk, hone]
      rfl
    · have hmore : reached env i (payload :: rest).length =
          reached env (i + 1) rest.length + 1 := by
        unfold reached
        cases hs : env.shutdownAt with
        | none => rfl
        | some k =>
          have hne : k ≠ i := fun h => hk (h ▸ hs)
          simp only [length_cons]
          split <;> split <;> omega
      rw [if_neg hk, hmore, take_succ_cons, ← ih]

/-- What is buffered was forwarded. -/
theorem buffered_subset (env : ForwardEnv) (i : Nat) (ps : List WireRequest) :
    ∀ p ∈ (forwardPayloads env i ps).buffered, p ∈ (forwardPayloads env i ps).forwarded := by
  induction ps generalizing i with
  | nil => exact forall_mem_nil _
  | cons payload rest ih =>
    rw [forwardPayloads]
    split
    · exact forall_mem_nil _
    · intro p hp
      split at hp
      · rcases mem_cons.1 hp with rfl | hp
        · exact mem_cons_self
        · exact mem_cons_of_mem _ (ih (i + 1) p hp)
      · exact mem_cons_of_mem _ (ih (i + 1) p hp)

/-- With an allow-list the policy changes nothing that it lets through. -/
theorem applyPolicy_eq {config : TraceProxyConfig} (hallow : config.allowedServiceNames ≠ ∅)
    {request request' : List ResourceSpans} (h : applyPolicy config request = .ok request') :
    request' = request ∧ ∀ rs ∈ request, ∃ name ∈ config.allowedServiceNames,
      existingServiceName rs = some name := by
  induction request generalizing request' with
  | nil =>
    cases h
    exact ⟨rfl, forall_mem_nil _⟩
  | cons rs rest ih =>
    rw [applyPolicy, applyServiceNamePolicy] at h
    cases hname : existingServiceName rs with
    | none =>
      rw [hname] at h
      rw [if_pos (.inr hallow)] at h
      cases h
    | some name =>
      rw [hname] at h
      dsimp only at h
      by_cases hin : name ∈ config.allowedServiceNames
      · rw [if_neg fun hout => hout.2 hin] at h
        cases hrest : applyPolicy config rest with
        | error rejection =>
          rw [hrest] at h
          cases h
        | ok rest' =>
          rw [hrest] at h
          cases h
          obtain ⟨rfl, hall⟩ := ih hrest
          exact ⟨rfl, forall_mem_cons.2 ⟨⟨name, hin, hname⟩, hall⟩⟩
      · rw [if_pos ⟨hallow, hin⟩] at h
        cases h

/-! ## One name -/

def hasSpans (rs : ResourceSpans) : Bool := !rs.scopeSpans.flatten.isEmpty

/-- The span's two names are one and the same, and allowed. -/
def Named (allowed : Finset String) (entry : Json) : Prop :=
  ∃ name ∈ allowed, (entry.get? "service_name").bind asStr? = some name ∧
    ((entry.get? "resource_attributes").bind fun attrs => attrs.get? SERVICE_NAME_KEY).bind
      asStr? = some name

/-- The values under `service.name`. -/
def namesGiven (rs : ResourceSpans) : List AnyValue :=
  ((rs.resource.getD []).filter fun kv => kv.1 = SERVICE_NAME_KEY).map Prod.snd

/-- The first value under `service.name` is a nonempty text, and the last one reads the same. -/
def OneName (rs : ResourceSpans) : Prop :=
  ∃ name, name ≠ "" ∧ (namesGiven rs).head? = some (.stringValue name) ∧
    ((namesGiven rs).getLast? = some (.stringValue name) ∨
      ∃ b, (namesGiven rs).getLast? = some (.bytesValue b) ∧ lossy b = name)

/-- The entry of a resource's span. -/
def spanEntry (rs : ResourceSpans) (span : Span) : Json :=
  spanToJsonValue lossy span ((rs.resource.map serviceNameFromAttrs).getD "")
    ((rs.resource.map (attrsToJson lossy)).getD (.obj []))

/-- The names of a resource's spans. -/
theorem named_span_iff (allowed : Finset String) (rs : ResourceSpans) (span : Span) :
    Named allowed (spanEntry lossy rs span) ↔
      ∃ name ∈ allowed, name ≠ "" ∧ (namesGiven rs).head? = some (.stringValue name) ∧
        ((namesGiven rs).getLast?.map (anyvalueToJson lossy)).bind asStr? = some name := by
  obtain ⟨hattrs, hname⟩ := get?_spanToJsonValue lossy span
    ((rs.resource.map serviceNameFromAttrs).getD "")
    ((rs.resource.map (attrsToJson lossy)).getD (.obj []))
  -- the attribute that stands, and the one that names the service
  have hlast : ((rs.resource.map (attrsToJson lossy)).getD (.obj [])).get? SERVICE_NAME_KEY =
      (namesGiven rs).getLast?.map (anyvalueToJson lossy) := by
    cases hr : rs.resource with
    | none => simp [namesGiven, hr, get?]
    | some attrs =>
      rw [Option.map_some, Option.getD_some, attrsToJson, get?, lookup_insertAttrs, namesGiven,
        hr, Option.getD_some, List.getLast?_map]
      cases (attrs.filter fun kv => kv.1 = SERVICE_NAME_KEY).getLast? with
      | none | some kv => rfl
  have hfirst : ∀ name, (rs.resource.map serviceNameFromAttrs).getD "" = name ∧ name ≠ "" ↔
      name ≠ "" ∧ (namesGiven rs).head? = some (.stringValue name) := by
    intro name
    cases hr : rs.resource with
    | none => simp [namesGiven, hr]
    | some attrs =>
      rw [Option.map_some, namesGiven, hr, List.head?_map,
        List.head?_filter, serviceNameFromAttrs, and_comm]
      refine and_congr_right fun hne => ?_
      split
      · next k s hs => simp [hs]
      · next hother =>
        refine ⟨fun h => absurd h.symm hne, fun h => ?_⟩
        obtain ⟨⟨k, v⟩, hkv, hv⟩ := Option.map_eq_some_iff.1 h
        cases hv
        exact absurd hkv (hother k name)
  unfold Named spanEntry
  rw [hattrs, hname, Option.bind_some, hlast]
  refine exists_congr fun name => and_congr_right fun _ => ?_
  rw [← and_assoc, ← hfirst name]
  refine and_congr_left fun _ => ?_
  by_cases hempty : ((rs.resource.map serviceNameFromAttrs).getD "").isEmpty = true
  · have hnil := String.isEmpty_iff.1 hempty
    rw [hnil]
    exact ⟨fun h => absurd h (Option.some_ne_none _).symm, fun h => absurd h.1.symm h.2⟩
  · rw [if_neg hempty]
    have hne := fun h => hempty (String.isEmpty_iff.2 h)
    exact ⟨fun h => ⟨Option.some.inj h, fun h' => hne ((Option.some.inj h).trans h')⟩,
      fun h => congrArg some h.1⟩

/-- What reads as a text: a text, or bytes. -/
theorem asStr?_anyvalueToJson_iff (value : AnyValue) (name : String) :
    (anyvalueToJson lossy value).asStr? = some name ↔
      value = .stringValue name ∨ ∃ b, value = .bytesValue b ∧ lossy b = name := by
  cases value with
  | stringValue s | bytesValue b => simp [anyvalueToJson, asStr?]
  | doubleValue bits =>
    rw [anyvalueToJson]
    split <;> simp [asStr?]
  | unset | boolValue b | intValue i | arrayValue values | kvlistValue values
  | stringValueStrindex i => simp [anyvalueToJson, asStr?]

/-- The policy sees the first value, if that is a name. -/
theorem findSome?_serviceNameOf {attrs : Attributes} {name : String} (hne : name ≠ "")
    (h : ((attrs.filter fun kv => kv.1 = SERVICE_NAME_KEY).map Prod.snd).head? =
      some (.stringValue name)) : attrs.findSome? serviceNameOf = some name := by
  induction attrs with
  | nil => cases h
  | cons kv rest ih =>
    rw [filter_cons] at h
    rw [List.findSome?_cons, serviceNameOf]
    by_cases hkey : kv.1 = SERVICE_NAME_KEY
    · rw [if_pos (decide_eq_true hkey)] at h
      rw [if_neg (not_not_intro hkey), Option.some.inj h]
      dsimp only
      rw [if_neg fun h' => hne (String.isEmpty_iff.1 h')]
    · rw [if_neg fun h' => hkey (of_decide_eq_true h')] at h
      rw [if_pos hkey]
      exact ih h

theorem existingServiceName_of_head {rs : ResourceSpans} {name : String} (hne : name ≠ "")
    (h : (namesGiven rs).head? = some (.stringValue name)) :
    existingServiceName rs = some name := by
  unfold namesGiven at h
  cases hr : rs.resource with
  | none =>
    rw [hr] at h
    cases h
  | some attrs =>
    rw [hr] at h
    rw [existingServiceName, hr]
    exact findSome?_serviceNameOf hne h

/-- **One span.** With an allowed name seen by the policy, the span is named exactly if its resource
gives one name. -/
theorem named_iff {allowed : Finset String} {rs : ResourceSpans} {seen : String}
    (hseen : existingServiceName rs = some seen) (hallowed : seen ∈ allowed) (span : Span) :
    Named allowed (spanEntry lossy rs span) ↔ OneName lossy rs := by
  rw [named_span_iff]
  have hlast : ∀ name, ((namesGiven rs).getLast?.map (anyvalueToJson lossy)).bind asStr? =
      some name ↔ ((namesGiven rs).getLast? = some (.stringValue name) ∨
        ∃ b, (namesGiven rs).getLast? = some (.bytesValue b) ∧ lossy b = name) := by
    intro name
    cases (namesGiven rs).getLast? with
    | none => simp
    | some value =>
      rw [Option.map_some, Option.bind_some, asStr?_anyvalueToJson_iff]
      simp only [Option.some.injEq]
  constructor
  · rintro ⟨name, _, hne, hhead, htext⟩
    exact ⟨name, hne, hhead, (hlast name).1 htext⟩
  · rintro ⟨name, hne, hhead, htext⟩
    have hsame := hseen.symm.trans (existingServiceName_of_head hne hhead)
    exact ⟨name, Option.some.inj hsame ▸ hallowed, hne, hhead, (hlast name).2 htext⟩

/-! ## Requests -/

/-- The batch of a resource that has spans. -/
def resourceBatch (rs : ResourceSpans) : WireRequest :=
  ⟨config.archiveId, config.repoId, 1, rs.scopeSpans.flatten.map (spanEntry lossy rs)⟩

theorem payloads_eq (request : List ResourceSpans) :
    payloads lossy config request = (request.filter hasSpans).map (resourceBatch lossy config) := by
  have hencode : ∀ rs, encodeResourceSpanBatch lossy rs config.archiveId config.repoId =
      if hasSpans rs then some (resourceBatch lossy config rs) else none := by
    intro rs
    rw [encodeResourceSpanBatch, hasSpans, isEmpty_map]
    cases rs.scopeSpans.flatten.isEmpty with
    | true | false => rfl
  unfold payloads
  induction request with
  | nil => rfl
  | cons rs rest ih =>
    rw [filterMap_cons, hencode, filter_cons]
    cases hasSpans rs with
    | true => exact congrArg _ ih
    | false => exact ih

/-- **Names of shipped spans.** Let a proxy with an allow-list accept a request. Its spans that are
shipped or buffered all have one name, which is allowed, exactly if each resource that has spans and
is reached before a shutdown gives one name. -/
theorem shipped_names_iff (hallow : config.allowedServiceNames ≠ ∅)
    (request : List ResourceSpans) (env : ForwardEnv)
    (haccepted : ∀ rejection, (processTraceRequest lossy config request env).result ≠
      .error (.serviceNamePolicy rejection)) :
    (∀ payload ∈ (processTraceRequest lossy config request env).forwarded ++
        (processTraceRequest lossy config request env).buffered,
      ∀ entry ∈ payload.entriesJson, Named config.allowedServiceNames entry) ↔
    ∀ rs ∈ (request.filter hasSpans).take (reached env 0 (request.filter hasSpans).length),
      OneName lossy rs := by
  unfold processTraceRequest at haccepted ⊢
  cases hpolicy : applyPolicy config request with
  | error rejection =>
    rw [hpolicy] at haccepted
    exact absurd rfl (haccepted rejection)
  | ok request' =>
    obtain ⟨rfl, hseen⟩ := applyPolicy_eq hallow hpolicy
    -- what is forwarded, and nothing else, is shipped or buffered
    have hforwarded := forwarded_eq_take env 0 (payloads lossy config request')
    rw [payloads_eq, length_map, ← map_take] at hforwarded
    have hall : ∀ P : WireRequest → Prop,
        (∀ payload ∈ (forwardPayloads env 0 (payloads lossy config request')).forwarded ++
          (forwardPayloads env 0 (payloads lossy config request')).buffered, P payload) ↔
        ∀ rs ∈ (request'.filter hasSpans).take (reached env 0 (request'.filter hasSpans).length),
          P (resourceBatch lossy config rs) := by
      intro P
      rw [forall_mem_append, payloads_eq]
      constructor
      · intro h rs hrs
        exact h.1 _ (hforwarded ▸ mem_map_of_mem hrs)
      · intro h
        have hforward : ∀ p ∈ (forwardPayloads env 0
            ((request'.filter hasSpans).map (resourceBatch lossy config))).forwarded, P p := by
          rw [hforwarded]
          exact forall_mem_map.2 h
        exact ⟨hforward, fun p hp => hforward p (buffered_subset env 0 _ p hp)⟩
    rw [hall]
    refine forall₂_congr fun rs hrs => ?_
    obtain ⟨hmem, hspans⟩ := mem_filter.1 (mem_of_mem_take hrs)
    obtain ⟨name, hallowed, hname⟩ := hseen rs hmem
    rw [resourceBatch, forall_mem_map]
    obtain ⟨span, hspan⟩ := exists_mem_of_ne_nil rs.scopeSpans.flatten
      (by simpa [hasSpans] using hspans)
    exact ⟨fun h => (named_iff lossy hname hallowed span).1 (h span hspan),
      fun h span _ => (named_iff lossy hname hallowed span).2 h⟩

end

/-! ## Two requests -/

/-- A span without attributes. -/
def bareSpan (name : String) : Span :=
  { traceId := [1], spanId := [2], parentSpanId := [], name, kind := 2, startTimeUnixNano := 0,
    endTimeUnixNano := 0, attributes := [], events := [], links := [], status := none,
    traceState := "" }

/-- Only the checkout service may send. -/
def checkoutOnly : TraceProxyConfig where
  subboxEndpoint := "https://subbox.example"
  archiveId := "arc"
  repoId := "repo"
  resourceIdentifier := "host"
  requireServiceName := true
  allowedServiceNames := {"checkout"}

def quietForward : ForwardEnv := ⟨fun _ => .delivered, none⟩

/-- One span of a resource with the given values under `service.name`. -/
def spanNamed (names : List String) : ResourceSpans :=
  ⟨some (names.map fun name => (SERVICE_NAME_KEY, .stringValue name)), [[bareSpan "GET /"]]⟩

/-- The second resource gives its name twice. -/
def checkoutTwice : List ResourceSpans :=
  [spanNamed ["checkout"], spanNamed ["checkout", "checkout"]]

theorem checkout_ships_named :
    (∀ payload ∈ (processTraceRequest (fun _ => "") checkoutOnly checkoutTwice
        quietForward).forwarded ++
        (processTraceRequest (fun _ => "") checkoutOnly checkoutTwice quietForward).buffered,
      ∀ entry ∈ payload.entriesJson, Named checkoutOnly.allowedServiceNames entry) ∧
    (processTraceRequest (fun _ => "") checkoutOnly checkoutTwice
      quietForward).forwarded.length = 2 := by
  refine ⟨(shipped_names_iff (fun _ => "") checkoutOnly (by decide) checkoutTwice
    quietForward ?_).2 ?_, by decide⟩
  · intro rejection
    exact nofun
  · intro rs hrs
    have hmem : rs ∈ checkoutTwice := mem_of_mem_filter (mem_of_mem_take hrs)
    rcases mem_pair.1 hmem with rfl | rfl
    · exact ⟨"checkout", by decide, rfl, .inl rfl⟩
    · exact ⟨"checkout", by decide, rfl, .inl rfl⟩

/-- The request is accepted for its first name, and the span ships with the second as well. -/
theorem second_name_ships :
    (∀ rejection, (processTraceRequest (fun _ => "") checkoutOnly
        [spanNamed ["checkout", "billing"]] quietForward).result ≠
      .error (.serviceNamePolicy rejection)) ∧
    ¬ ∀ payload ∈ (processTraceRequest (fun _ => "") checkoutOnly
        [spanNamed ["checkout", "billing"]] quietForward).forwarded,
      ∀ entry ∈ payload.entriesJson, Named checkoutOnly.allowedServiceNames entry := by
  refine ⟨fun rejection h => (nomatch h), fun h => ?_⟩
  have hentry := h _ mem_cons_self _ mem_cons_self
  obtain ⟨name, _, hfield, hattr⟩ := hentry
  have hname : some name = some "checkout" := hfield.symm.trans (by decide)
  have hother : some name = some "billing" := hattr.symm.trans (by decide)
  exact nomatch hname.symm.trans hother

end EdgePacer.Trace
