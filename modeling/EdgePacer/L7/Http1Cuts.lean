import EdgePacer.L7.Http1
import EdgePacer.Lib.Messages
import Mathlib.Data.List.Infix

/-!
# HTTP/1 messages cut into segments

A session is a list of requests and a list of responses, each a head that `httparse` recognises
when it is complete and not before, followed by the body that its `Content-Length` announces. The
segments may cut the messages anywhere. As long as no response's head is complete before its
request's, the parser pairs the responses with the requests in order, with the times at which the
last bytes of the heads arrived (`Session.run_eq`), and looks for heads at message boundaries only.
-/

namespace EdgePacer.L7.Http1

open Lib List L7Record

section

variable (hp : Httparse)

/-- A request on the wire. -/
structure Request where
  (head body : Bytes)
  fields : RequestFields
  nonempty : head ≠ []
  waits : ∀ a b, head = a ++ b → b ≠ [] → hp.request a = .incomplete
  completes : ∀ rest, hp.request (head ++ rest) = .complete head.length fields
  framed : body.length = contentLength fields.headers
  /-- The message is no longer than a machine word can say. -/
  fits : head.length + body.length < 2 ^ 64

/-- A response on the wire. -/
structure Response where
  (head body : Bytes)
  fields : ResponseFields
  code : Nat
  hasCode : fields.code = some code
  nonempty : head ≠ []
  waits : ∀ a b, head = a ++ b → b ≠ [] → hp.response a = .incomplete
  completes : ∀ rest, hp.response (head ++ rest) = .complete head.length fields
  framed : body.length = contentLength fields.headers
  /-- The message is no longer than a machine word can say. -/
  fits : head.length + body.length < 2 ^ 64

/-- Pipelined requests and their responses. -/
structure Session where
  requests : List (Request hp)
  responses : List (Response hp)

/-- A captured segment: its direction, its bytes and when it was seen. -/
abbrev Segment := Piece Direction UInt8 Int64

/-- Feed segments to a fresh parser. -/
def run (segments : List Segment) : Option Http1Parser := segments.foldlM (framer hp).step .new

end

variable {hp : Httparse}

/-- What `parse_request` makes of the head. -/
def Request.value (r : Request hp) : RequestHead :=
  { method := r.fields.method.getD "", path := r.fields.path.getD "", host := host r.fields.headers,
    propagated := propagatedContext r.fields.headers }

def Request.message (r : Request hp) : Message ((framer hp).next .inbound) () where
  head := r.head
  body := r.body
  unit := .request r.value
  nonempty := r.nonempty
  waits a b hab hb := by
    show (parseRequest hp a).map Head.request = .incomplete
    rw [parseRequest, r.waits a b hab hb]
    rfl
  completes rest := by
    show (parseRequest hp (r.head ++ rest)).map Head.request = _
    rw [parseRequest, r.completes rest]
    dsimp only
    rw [totalLen, ← r.framed, Nat.mod_eq_of_lt r.fits]
    rfl

def Response.message (r : Response hp) : Message ((framer hp).next .outbound) () where
  head := r.head
  body := r.body
  unit := .response r.code
  nonempty := r.nonempty
  waits a b hab hb := by
    show (parseResponse hp a).map Head.response = .incomplete
    rw [parseResponse, r.waits a b hab hb]
    rfl
  completes rest := by
    show (parseResponse hp (r.head ++ rest)).map Head.response = _
    rw [parseResponse, r.completes rest]
    dsimp only
    rw [r.hasCode]
    rw [totalLen, ← r.framed, Nat.mod_eq_of_lt r.fits]
    rfl

namespace Session

variable (s : Session hp)

/-- The messages of a direction. -/
def messages : (dir : Direction) → List (Message ((framer hp).next dir) ())
  | .inbound => s.requests.map Request.message
  | .outbound => s.responses.map Response.message

/-- How many heads of a direction the segments complete. -/
def heads (dir : Direction) (segments : List Segment) : Nat :=
  headsIn (s.messages dir) (laneBytes dir segments).length

/-- When the heads of a direction are complete. -/
def times (dir : Direction) (segments : List Segment) : List Int64 :=
  headTimes (s.messages dir) 0 (lane dir segments)

/-- The segments carry the session, and at no time has a response's head been completed before its
request's. -/
structure Cut (segments : List Segment) : Prop where
  bytes : ∀ dir, laneBytes dir segments = stream (s.messages dir)
  order : ∀ seen, seen <+: segments → s.heads .outbound seen ≤ s.heads .inbound seen

variable (segments : List Segment)

/-- Every segment is one message. -/
def Whole : Prop := ∀ dir, (lane dir segments).map Prod.fst = (s.messages dir).map Message.bytes

/-- The requests as the parser notes them. -/
def noted : List Pending :=
  zipWith Pending.mk (s.requests.map Request.value) (s.times .inbound segments)

/-- The statuses as the parser sees them. -/
def answers : List (Nat × Int64) := (s.responses.map Response.code).zip (s.times .outbound segments)

/-- The n-th response answers the n-th request. -/
def records : List L7Record :=
  zipWith (fun req answer => record req answer.1 answer.2) (s.noted segments) (s.answers segments)

end Session

/-! ## Pairing -/

/-- **First in, first out.** If no response overtakes the requests, responses are paired with
requests in order. -/
theorem foldl_react (es : List (Direction × Option Head × Int64)) (queue : List Pending)
    (records : List L7Record) (reqs : List Pending) (answers : List (Nat × Int64))
    (hin : lane .inbound es = reqs.map fun r => (some (.request r.head), r.startUnixNano))
    (hout : lane .outbound es = answers.map fun r => (some (.response r.1), r.2))
    (horder : ∀ seen, seen <+: es →
      (lane .outbound seen).length ≤ queue.length + (lane .inbound seen).length) :
    es.foldl (framer hp).react ⟨⟨queue, records⟩, false⟩ =
      ⟨⟨(queue ++ reqs).drop answers.length, records ++
        zipWith (fun req answer => record req answer.1 answer.2) (queue ++ reqs) answers⟩,
        false⟩ := by
  induction es generalizing queue records reqs answers with
  | nil =>
    rw [map_eq_nil_iff.1 hin.symm, map_eq_nil_iff.1 hout.symm, zipWith_nil_right]
    simp only [append_nil, length_nil, drop_zero, foldl_nil]
  | cons e es ih =>
    obtain ⟨dir, u, t⟩ := e
    rw [foldl_cons]
    cases dir with
    | inbound =>
      -- the request joins the queue
      cases reqs with
      | nil => cases hin
      | cons req reqs =>
        obtain ⟨hhead, hrest⟩ := cons.inj hin
        cases hhead
        rw [← singleton_append, ← append_assoc]
        refine ih (queue ++ [req]) records reqs answers hrest hout fun seen hseen => ?_
        have h := horder _ (cons_prefix_cons.2 ⟨rfl, hseen⟩)
        rw [lane_cons_of_ne (by decide), lane_cons_self, length_cons] at h
        rw [length_append, length_singleton]
        omega
    | outbound =>
      -- the response answers the request at the front of the queue
      cases answers with
      | nil => cases hout
      | cons answer answers =>
        obtain ⟨hhead, hrest⟩ := cons.inj hout
        cases hhead
        have hfirst := horder _ (cons_prefix_cons.2 ⟨rfl, nil_prefix⟩)
        cases queue with
        | nil => exact absurd hfirst (by simp [lane])
        | cons req queue =>
          have hlater := ih queue (records ++ [record req answer.1 answer.2]) reqs answers hin hrest
            fun seen hseen => by
              have h := horder _ (cons_prefix_cons.2 ⟨rfl, hseen⟩)
              rw [lane_cons_self, lane_cons_of_ne (by decide), length_cons, length_cons] at h
              omega
          rw [append_assoc] at hlater
          exact hlater

namespace Session

variable {s : Session hp} {segments : List Segment}

/-- The units of both directions, as they become recognisable. -/
def events (hp : Httparse) (segments : List Segment) : List (Direction × Option Head × Int64) :=
  Lib.events (framer hp).next (fun _ => ()) (fun _ => []) segments

/-- The bytes of each direction are a first part of the session's. -/
def Carries (s : Session hp) (segments : List Segment) : Prop :=
  ∀ dir, laneBytes dir segments <+: stream (s.messages dir)

theorem Cut.carries (h : s.Cut segments) {seen : List Segment} (hseen : seen <+: segments) :
    s.Carries seen := by
  intro dir
  obtain ⟨rest, rfl⟩ := hseen
  rw [← h.bytes, laneBytes_append]
  exact prefix_append _ _

theorem lane_events (h : s.Carries segments) (dir : Direction) :
    lane dir (events hp segments) =
      ((s.messages dir).map fun m => some m.unit).zip (s.times dir segments) := by
  have harrivals := arrivals_stream (s.messages dir) (lane dir segments) [] (h dir)
  rw [events, Lib.lane_events, harrivals, length_nil, headsIn_zero]
  rfl

theorem length_times (s : Session hp) (dir : Direction) (segments : List Segment) :
    (s.times dir segments).length = s.heads dir segments := by
  rw [times, length_headTimes, headsIn_zero, Nat.zero_add]
  rfl

theorem length_lane_events (h : s.Carries segments) (dir : Direction) :
    (lane dir (events hp segments)).length = s.heads dir segments := by
  have hmax : s.heads dir segments ≤ (s.messages dir).length := headsIn_le_length _ _
  rw [lane_events h, length_zip, length_map, length_times, min_eq_right hmax]

theorem lane_inbound_events (h : s.Carries segments) :
    lane .inbound (events hp segments) =
      (s.noted segments).map fun r => (some (.request r.head), r.startUnixNano) := by
  rw [lane_events h, noted, messages, map_zipWith, map_map, zip, zipWith_map_left, zipWith_map_left]
  rfl

theorem lane_outbound_events (h : s.Carries segments) :
    lane .outbound (events hp segments) =
      (s.answers segments).map fun r => (some (.response r.1), r.2) := by
  rw [lane_events h, answers, messages, map_map, zip, zip, map_zipWith,
    zipWith_map_left, zipWith_map_left]
  rfl

/-- No response overtakes the requests, in any part of what the parser sees. -/
theorem Cut.events_order (h : s.Cut segments) {es : List (Direction × Option Head × Int64)}
    (hes : es <+: events hp segments) : (lane .outbound es).length ≤ (lane .inbound es).length := by
  obtain ⟨seen, hseen, hout, hin⟩ := prefix_events
    (show Direction.outbound ≠ .inbound by decide) segments (fun _ => []) hes
  have hcarries := h.carries hseen
  calc (lane .outbound es).length
      ≤ (lane .outbound (events hp seen)).length := hout
    _ = s.heads .outbound seen := length_lane_events hcarries .outbound
    _ ≤ s.heads .inbound seen := h.order seen hseen
    _ = (lane .inbound (events hp seen)).length := (length_lane_events hcarries .inbound).symm
    _ ≤ (lane .inbound es).length := hin

theorem framed (hp : Httparse) (dir : Direction) :
    Framed ((framer hp).next dir) (OfMessages ((framer hp).next dir) ()) :=
  framed_ofMessages

/-- What the parser does with a first part of a session. -/
theorem Carries.run_eq (h : s.Carries segments) :
    ∃ p, run hp segments = some p ∧
      p.core = (events hp segments).foldl (framer hp).react ⟨.new, false⟩ ∧
      (p.core.dead = false → ∀ dir,
        (scan ((framer hp).next dir) () (laneBytes dir segments)).2 = some (p.lanes dir)) :=
  Framer.run_eq (framed hp) segments Http1Parser.new (fun _ => [])
    (fun dir => ⟨rfl, s.messages dir, h dir⟩) (fun _ _ => congrArg Prod.snd (scan_nil ()))

/-- **Whatever the cuts**, the n-th response answers the n-th request. -/
theorem Cut.run_eq (h : s.Cut segments) :
    ∃ p, run hp segments = some p ∧ p.isDead = false ∧
      p.core.conn.records = s.records segments := by
  have hcarries := h.carries prefix_rfl
  obtain ⟨p, hrun, hcore, _⟩ := hcarries.run_eq
  rw [Http1Conn.new, foldl_react (events hp segments) [] [] (s.noted segments) (s.answers segments)
    (lane_inbound_events hcarries) (lane_outbound_events hcarries)
    (fun es hes => le_trans (h.events_order hes) (Nat.le_add_left _ _))] at hcore
  exact ⟨p, hrun, congrArg Core.dead hcore, congrArg (fun c => c.conn.records) hcore⟩

/-- Heads are looked for at message boundaries only. -/
theorem Carries.attempts_at {seen : List Segment} {segment : Segment}
    (h : s.Carries (seen ++ [segment])) :
    ∃ p, run hp seen = some p ∧ ∀ buf ∈ (framer hp).attempts p segment,
      ∃ i, i ≤ (s.messages segment.1).length ∧
        buf = (laneBytes segment.1 (seen ++ [segment])).drop
          (stream ((s.messages segment.1).take i)).length := by
  have hseen : s.Carries seen := by
    intro dir
    have hall := h dir
    rw [laneBytes_append] at hall
    exact (prefix_append _ _).trans hall
  obtain ⟨p, hrun, _, hlanes⟩ := hseen.run_eq
  refine ⟨p, hrun, fun buf hbuf => ?_⟩
  have hall := h segment.1
  rw [laneBytes_append, laneBytes_singleton, if_pos rfl] at hall ⊢
  obtain ⟨n, k, hat, hbuf⟩ := Framer.attempts_at (framed hp) segment
    ⟨rfl, s.messages segment.1, hall⟩ hlanes buf hbuf
  obtain ⟨i, hi, rfl⟩ := at_stream hat hall
  exact ⟨i, hi, hbuf⟩

theorem Cut.length_times (h : s.Cut segments) (dir : Direction) :
    (s.times dir segments).length = (s.messages dir).length := by
  rw [Session.length_times, heads, h.bytes, headsIn_stream]

/-- Without the times, records depend on the messages only. -/
theorem map_untimed_zipWith (reqs : List RequestHead) (codes : List Nat) {ts ts' : List Int64}
    (hts : ts.length = reqs.length) (hts' : ts'.length = codes.length) :
    (zipWith (fun req answer => record req answer.1 answer.2)
        (zipWith Pending.mk reqs ts) (codes.zip ts')).map untimed =
      zipWith (fun req code => (record ⟨req, 0⟩ code 0).untimed) reqs codes := by
  induction reqs generalizing codes ts ts' with
  | nil => rfl
  | cons req reqs ih =>
    cases codes with
    | nil => cases ts <;> rfl
    | cons code codes =>
      cases ts with
      | nil => cases hts
      | cons t ts =>
        cases ts' with
        | nil => cases hts'
        | cons t' ts' =>
          exact congrArg₂ cons rfl (ih codes (Nat.succ.inj hts) (Nat.succ.inj hts'))

theorem Cut.untimed_records (h : s.Cut segments) :
    (s.records segments).map untimed =
      zipWith (fun req code => (record ⟨req, 0⟩ code 0).untimed)
        (s.requests.map Request.value) (s.responses.map Response.code) := by
  refine map_untimed_zipWith _ _ ?_ ?_
  · rw [h.length_times, messages, length_map, length_map]
  · rw [h.length_times, messages, length_map, length_map]

theorem Cut.length_records (h : s.Cut segments) :
    (s.records segments).length = s.responses.length := by
  have hout : s.heads .outbound segments = s.responses.length := by
    rw [heads, h.bytes, headsIn_stream, messages, length_map]
  have hin : s.heads .inbound segments = s.requests.length := by
    rw [heads, h.bytes, headsIn_stream, messages, length_map]
  have horder := h.order segments prefix_rfl
  rw [records, noted, answers, length_zipWith, length_zipWith, length_zip,
    length_map, length_map, Session.length_times, Session.length_times]
  omega

/-- **Cuts do not matter.** However the messages of a session are cut into segments, the parser
emits one record for each response, which pairs the n-th response with the n-th request; the
records are those of a delivery in which every message arrives whole, at the same times if the heads
are completed at the same times; and heads are looked for at message boundaries only. -/
theorem cuts_do_not_matter (s : Session hp) (segments : List Segment) (hcut : s.Cut segments) :
    ∃ p, run hp segments = some p ∧ p.isDead = false ∧
      p.core.conn.records = s.records segments ∧
      p.core.conn.records.length = s.responses.length ∧
      (∀ whole, s.Whole whole → s.Cut whole → ∃ w, run hp whole = some w ∧
        p.core.conn.records.map untimed = w.core.conn.records.map untimed ∧
        ((∀ dir, s.times dir segments = s.times dir whole) →
          p.core.conn.records = w.core.conn.records)) ∧
      ∀ seen segment, seen ++ [segment] <+: segments →
        ∃ q, run hp seen = some q ∧ ∀ buf ∈ (framer hp).attempts q segment,
          ∃ i, i ≤ (s.messages segment.1).length ∧
            buf = (laneBytes segment.1 (seen ++ [segment])).drop
              (stream ((s.messages segment.1).take i)).length := by
  obtain ⟨p, hrun, hdead, hrecords⟩ := hcut.run_eq
  refine ⟨p, hrun, hdead, hrecords, ?_, ?_, ?_⟩
  · rw [hrecords, hcut.length_records]
  · intro whole _ hwhole
    obtain ⟨w, hrun', _, hrecords'⟩ := hwhole.run_eq
    refine ⟨w, hrun', ?_, fun htimes => ?_⟩
    · rw [hrecords, hrecords', hcut.untimed_records, hwhole.untimed_records]
    · rw [hrecords, hrecords', records, records, noted, noted, answers, answers, htimes, htimes]
  · intro seen segment hseen
    exact (hcut.carries hseen).attempts_at

end Session

/-! ## A session in pieces -/

/-- Every proper beginning of a head of the table is incomplete. -/
theorem answer_waits {α : Type} {table : List (Bytes × α)} {head : Bytes}
    (htable : ∀ n < head.length, answer table (head.take n) = .incomplete) (a b : Bytes)
    (h : head = a ++ b) (hb : b ≠ []) : answer table a = .incomplete := by
  subst h
  have hlt := htable a.length (by simpa using length_pos_iff.2 hb)
  rwa [take_left] at hlt

/-- A request with a body of two bytes. -/
def putRequest : Request tableHttparse where
  head := ascii "PUT / HTTP/1.1\r\nContent-Length: 2\r\n\r\n"
  body := ascii "\x7b\x7d"
  fields := ⟨some "PUT", some "/", [⟨"Content-Length", ascii "2"⟩]⟩
  nonempty := by decide
  waits := answer_waits (by decide)
  completes rest := rfl
  framed := by decide +kernel
  fits := by decide

/-- Its response, with a body of one byte. -/
def putResponse : Response tableHttparse where
  head := ascii "HTTP/1.1 200 OK\r\ncontent-length: 1\r\n\r\n"
  body := ascii "1"
  fields := ⟨some 200, [⟨"content-length", ascii "1"⟩]⟩
  code := 200
  hasCode := rfl
  nonempty := by decide
  waits := answer_waits (by decide)
  completes rest := rfl
  framed := by decide +kernel
  fits := by decide

def twoPuts : Session tableHttparse := ⟨[putRequest, putRequest], [putResponse, putResponse]⟩

/-- Cuts in heads and bodies; the second request is complete before the first response. -/
def putSegments : List Segment :=
  [(.inbound, ascii "PUT / HT", 1),
    (.inbound, ascii "TP/1.1\r\nContent-Length: 2\r\n\r\n\x7b", 2),
    (.inbound, ascii "\x7dPUT / HTTP/1.1\r\nContent-Length: 2\r\n\r\n", 3),
    (.outbound, ascii "HTTP/1.1 200 OK\r\ncontent-length: 1\r\n\r\n1HTTP", 4),
    (.inbound, ascii "\x7b\x7d", 5),
    (.outbound, ascii "/1.1 200 OK\r\ncontent-length: 1\r\n\r\n1", 6)]

theorem twoPuts_cut : twoPuts.Cut putSegments where
  bytes dir := by cases dir <;> rfl
  order seen hseen := by
    have h : ∀ seen ∈ putSegments.inits,
        twoPuts.heads .outbound seen ≤ twoPuts.heads .inbound seen := by decide +kernel
    exact h seen ((mem_inits _ _).2 hseen)

theorem twoPuts_cuts_do_not_matter :
    twoPuts.Cut putSegments ∧ ∃ p, run tableHttparse putSegments = some p ∧
      p.core.conn.records.length = 2 := by
  obtain ⟨p, hrun, _, _, hlength, _⟩ := Session.cuts_do_not_matter twoPuts putSegments twoPuts_cut
  exact ⟨twoPuts_cut, p, hrun, hlength⟩

end EdgePacer.L7.Http1
