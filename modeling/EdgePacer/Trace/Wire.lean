import EdgePacer.Text

/-!
# Spans as JSON

An OTLP span becomes one JSON object, which carries the attributes of its resource and the name of
its service. Objects are maps sorted by key, as `serde_json` keeps them: a repeated key keeps its
last value. Doubles are their bit patterns.
-/

namespace EdgePacer.Trace

open List

/-! ## JSON -/

/-- A JSON value. -/
inductive Json where
  | null
  | bool (b : Bool)
  | int (n : Int)
  | double (bits : UInt64)
  | str (s : String)
  | arr (values : List Json)
  | obj (fields : List (String × Json))

/-- The fields of an object. -/
abbrev Fields := List (String × Json)

/-- Put a field in its place; an old value of the key is replaced. -/
def Fields.insert (key : String) (value : Json) : Fields → Fields
  | [] => [(key, value)]
  | (k, v) :: rest =>
      if key < k then (key, value) :: (k, v) :: rest
      else if key = k then (key, value) :: rest
      else (k, v) :: Fields.insert key value rest

theorem Fields.lookup_insert (key k : String) (value : Json) (fields : Fields) :
    (Fields.insert key value fields).lookup k =
      if k = key then some value else fields.lookup k := by
  induction fields with
  | nil =>
    by_cases hk : k = key
    · rw [if_pos hk, Fields.insert, hk, lookup_cons_self]
    · rw [if_neg hk, Fields.insert, lookup_cons, beq_false_of_ne hk]
  | cons f rest ih =>
    rw [Fields.insert]
    by_cases hk : k = key
    · subst hk
      rw [if_pos rfl] at ih ⊢
      split
      · rw [lookup_cons_self]
      · split
        · rw [lookup_cons_self]
        · next hne =>
          rw [lookup_cons, beq_false_of_ne hne]
          exact ih
    · rw [if_neg hk] at ih ⊢
      split
      · rw [lookup_cons, beq_false_of_ne hk]
      · split
        · next heq => rw [lookup_cons, lookup_cons, beq_false_of_ne hk, beq_false_of_ne (heq ▸ hk)]
        · rw [lookup_cons, lookup_cons, ih]

/-- The value of an object's field. -/
def Json.get? (key : String) : Json → Option Json
  | .obj fields => fields.lookup key
  | _ => none

def Json.asStr? : Json → Option String
  | .str s => some s
  | _ => none

/-- Neither infinite nor NaN. -/
def isFinite (bits : UInt64) : Bool := (bits >>> 52) &&& 0x7FF != 0x7FF

/-! ## Attributes -/

/-- An OTLP value. `unset` stands for an absent value and for one without a kind. -/
inductive AnyValue where
  | unset
  | stringValue (s : String)
  | boolValue (b : Bool)
  | intValue (i : Int64)
  | doubleValue (bits : UInt64)
  | bytesValue (b : Bytes)
  | arrayValue (values : List AnyValue)
  | kvlistValue (values : List (String × AnyValue))
  | stringValueStrindex (i : Int32)

/-- Key-value pairs, in the order of the message; keys may repeat. -/
abbrev Attributes := List (String × AnyValue)

section

-- `String::from_utf8_lossy`
variable (lossy : Bytes → String)

mutual

def anyvalueToJson : AnyValue → Json
  | .unset => .null
  | .stringValue s => .str s
  | .boolValue b => .bool b
  | .intValue i => .int i.toInt
  | .doubleValue bits => if isFinite bits then .double bits else .null
  | .bytesValue b => .str (lossy b)
  | .arrayValue values => .arr (valuesToJson values)
  | .kvlistValue values => .obj (insertAttrs [] values)
  | .stringValueStrindex _ => .null

def valuesToJson : List AnyValue → List Json
  | [] => []
  | v :: rest => anyvalueToJson v :: valuesToJson rest

/-- Add attributes to an object in their order. -/
def insertAttrs (fields : Fields) : List (String × AnyValue) → Fields
  | [] => fields
  | (key, value) :: rest => insertAttrs (Fields.insert key (anyvalueToJson value) fields) rest

end

def attrsToJson (attrs : Attributes) : Json := .obj (insertAttrs lossy [] attrs)

/-- The last value of a key stands. -/
theorem lookup_insertAttrs (key : String) (attrs : Attributes) (fields : Fields) :
    (insertAttrs lossy fields attrs).lookup key =
      match (attrs.filter fun kv => kv.1 = key).getLast? with
      | some kv => some (anyvalueToJson lossy kv.2)
      | none => fields.lookup key := by
  induction attrs generalizing fields with
  | nil =>
    rfl
  | cons kv rest ih =>
    obtain ⟨k, v⟩ := kv
    rw [insertAttrs, ih, Fields.lookup_insert, filter_cons]
    by_cases hk : key = k
    · subst hk
      rw [if_pos (decide_eq_true rfl), if_pos rfl, List.getLast?_cons]
      cases (rest.filter fun kv => kv.1 = key).getLast? with
      | none | some last => rfl
    · rw [if_neg hk, if_neg fun h => hk (of_decide_eq_true h).symm]

/-! ## Spans -/

structure SpanEvent where
  timeUnixNano : UInt64
  name : String
  attributes : Attributes

structure SpanLink where
  (traceId spanId : Bytes)
  attributes : Attributes

structure SpanStatus where
  code : Int32
  message : String

/-- An OTLP span. -/
structure Span where
  (traceId spanId parentSpanId : Bytes)
  name : String
  kind : Int32
  (startTimeUnixNano endTimeUnixNano : UInt64)
  attributes : Attributes
  events : List SpanEvent
  links : List SpanLink
  status : Option SpanStatus
  traceState : String

def spanKindStr (kind : Int32) : String :=
  if kind = 1 then "INTERNAL"
  else if kind = 2 then "SERVER"
  else if kind = 3 then "CLIENT"
  else if kind = 4 then "PRODUCER"
  else if kind = 5 then "CONSUMER"
  else "UNSPECIFIED"

/-- Add a field unless it is to be left out. -/
def Fields.insertIf (cond : Bool) (key : String) (value : Json) (fields : Fields) : Fields :=
  if cond then fields.insert key value else fields

theorem Fields.lookup_insertIf (cond : Bool) (key k : String) (value : Json) (fields : Fields) :
    (Fields.insertIf cond key value fields).lookup k =
      if cond = true ∧ k = key then some value else fields.lookup k := by
  unfold Fields.insertIf
  cases cond with
  | true =>
    rw [if_pos rfl, Fields.lookup_insert]
    simp only [true_and]
  | false =>
    rw [if_neg nofun, if_neg fun h => nomatch h.1]

def statusToJson (status : SpanStatus) : Json :=
  let code := if status.code = 1 then "OK" else if status.code = 2 then "ERROR" else "UNSET"
  .obj (Fields.insertIf (!status.message.isEmpty) "message" (.str status.message)
    (Fields.insert "code" (.str code) []))

def eventToJson (event : SpanEvent) : Json :=
  .obj (Fields.insertIf (!event.attributes.isEmpty) "attributes"
    (attrsToJson lossy event.attributes)
    (Fields.insert "name" (.str event.name)
      (Fields.insert "time" (.int (event.timeUnixNano.toNat / 1000000)) [])))

def linkToJson (link : SpanLink) : Json :=
  .obj (Fields.insertIf (!link.attributes.isEmpty) "attributes" (attrsToJson lossy link.attributes)
    (Fields.insert "span_id" (.str (Text.hexEncode link.spanId))
      (Fields.insert "trace_id" (.str (Text.hexEncode link.traceId)) [])))

variable (span : Span)

/-- The fields of a span but for the name of its service. -/
def spanFields (resourceAttributes : Json) : Fields :=
  let startMs := span.startTimeUnixNano.toNat / 1000000
  let endMs := span.endTimeUnixNano.toNat / 1000000
  let fields := Fields.insert "trace_id" (.str (Text.hexEncode span.traceId)) []
  let fields := fields.insert "span_id" (.str (Text.hexEncode span.spanId))
  let fields := fields.insertIf (!span.parentSpanId.isEmpty) "parent_span_id"
    (.str (Text.hexEncode span.parentSpanId))
  let fields := fields.insert "name" (.str span.name)
  let fields := fields.insert "kind" (.str (spanKindStr span.kind))
  let fields := fields.insert "start_time" (.int startMs)
  let fields := fields.insert "end_time" (.int endMs)
  let fields := fields.insert "duration_ms" (.int (endMs - startMs : Nat))
  let fields := fields.insert "attributes" (attrsToJson lossy span.attributes)
  let fields := fields.insert "resource_attributes" resourceAttributes
  let fields := fields.insertIf (!span.events.isEmpty) "events"
    (.arr (span.events.map (eventToJson lossy)))
  let fields := fields.insertIf (!span.links.isEmpty) "links"
    (.arr (span.links.map (linkToJson lossy)))
  let fields :=
    match span.status with
    | some status => fields.insert "status" (statusToJson status)
    | none => fields
  fields.insertIf (!span.traceState.isEmpty) "trace_state" (.str span.traceState)

/-- The resource's attributes are among the fields, a service name is not. -/
theorem lookup_spanFields (resourceAttributes : Json) :
    (spanFields lossy span resourceAttributes).lookup "resource_attributes" =
        some resourceAttributes ∧
      (spanFields lossy span resourceAttributes).lookup "service_name" = none := by
  unfold spanFields
  cases span.status with
  | none =>
    constructor <;> simp [Fields.lookup_insertIf, Fields.lookup_insert]
  | some status =>
    constructor <;> simp [Fields.lookup_insertIf, Fields.lookup_insert]

def spanToJsonValue (serviceName : String) (resourceAttributes : Json) : Json :=
  .obj ((spanFields lossy span resourceAttributes).insertIf (!serviceName.isEmpty) "service_name"
    (.str serviceName))

theorem get?_spanToJsonValue (serviceName : String) (resourceAttributes : Json) :
    (spanToJsonValue lossy span serviceName resourceAttributes).get? "resource_attributes" =
        some resourceAttributes ∧
      (spanToJsonValue lossy span serviceName resourceAttributes).get? "service_name" =
        if serviceName.isEmpty then none else some (.str serviceName) := by
  obtain ⟨hattrs, hname⟩ := lookup_spanFields lossy span resourceAttributes
  rw [spanToJsonValue, Json.get?, Json.get?, Fields.lookup_insertIf, Fields.lookup_insertIf, hattrs,
    hname]
  constructor
  · rw [if_neg fun h => nomatch h.2]
  · cases serviceName.isEmpty with
    | true | false => rfl

end

end EdgePacer.Trace
