import EdgePacer.Ebpf.FailClosed
import EdgePacer.Ebpf.Iteration

/-!
# The connections behind descriptors

The kernel names a captured segment's connection by process and descriptor number. Processes close
connections and use the numbers again, and the runner is not told: trackers and resolved connections
are dropped only when a generation changes. `Descriptors` runs the loop beside the true history of
connections, which numbers them in the order they are opened.

`Faithful` asks that every record is one the connection's own segments give, that no record carries
the ends of an earlier connection, and that a connection is refused a tracker only while as many are
open as can be tracked. It fails when a number is used again (`reused_descriptor_joins`), and holds
while identities and connections correspond (`faithful_of_distinct`).
-/

namespace EdgePacer.Ebpf

open Lib L7 List Runner L7Tables

/-- A connection of a monitored process. Its segments carry `fd`: the descriptor, or what stands for
it on a TLS connection. -/
structure Connection where
  (pid fd : Nat)
  ends : ConnEndpoints
  deriving DecidableEq

/-- A segment that was routed since the tables were last dropped. -/
structure Seen where
  origin : Nat
  input : Input
  refused : Bool

def Seen.identity (s : Seen) : CapturedConnectionIdentity := s.input.segment.connectionIdentity

/-- An emitted record, the connection whose segment completed it, and that connection's segments
under the same identity so far. -/
structure Traced where
  origin : Nat
  own : List Input
  emitted : EmittedRecord

/-- The loop beside the history of connections. -/
structure Descriptors (ext : Externals) where
  runner : Runner ext := {}
  connections : List Connection := []
  isOpen : List Nat := []
  seen : List Seen := []
  records : List Traced := []
  /-- How many connections were open at each refusal. -/
  refusals : List Nat := []

inductive Happening where
  | opens (c : Connection)
  | closes (number : Nat)
  | captured (origin : Nat) (seg : CapturedSegment) (resolved : Option ResolvedConn)
  | other (e : Event)

def Runner.Event.isSegment : Event → Bool
  | .segment _ _ => true
  | _ => false

namespace Descriptors

variable {ext : Externals}

/-! ## Steps -/

variable (w : Descriptors ext)

/-- The open connection of a number, if it has the given process and descriptor. -/
def openOn (pid fd number : Nat) : Option Connection :=
  if number ∈ w.isOpen then w.connections[number]?.filter fun c => c.pid = pid ∧ c.fd = fd else none

/-- A descriptor number is given out again only after it was closed. -/
def isFree (c : Connection) : Bool :=
  w.isOpen.all fun number => (w.openOn c.pid c.fd number).isNone

/-- `/proc` is silent, or says what is open under the number now. -/
def saysOpen (pid fd : Nat) (resolved : Option ResolvedConn) : Bool :=
  resolved.all fun r => w.isOpen.any fun number =>
    (w.openOn pid fd number).any fun c => c.ends = ⟨r.localEnd, r.peer⟩

/-- A segment comes from a connection that was opened, and may come after it was closed. -/
def isPossible (origin : Nat) (seg : CapturedSegment) (resolved : Option ResolvedConn) : Bool :=
  (w.connections[origin]?.any fun c => c.pid = seg.pid ∧ c.fd = seg.fd) &&
    w.saysOpen seg.pid seg.fd resolved

/-- A connection's segments under an identity that its tracker took in. -/
def ownInputs (seen : List Seen) (origin : Nat) (identity : CapturedConnectionIdentity) :
    List Input :=
  (seen.filter fun s => s.origin = origin ∧ s.identity = identity ∧ s.refused = false).map (·.input)

/-- Run the loop on a segment, and trace what comes of it. -/
def capture (origin : Nat) (seg : CapturedSegment)
    (resolved : Option ResolvedConn) : Descriptors ext :=
  let r := w.runner
  let r' := r.step (.segment seg resolved)
  if r.halted || r'.halted || (r.route (segmentEvent seg)).isNone then
    { w with runner := r' }
  else
    let refused := decide (r.l7.conns.dropped < r'.l7.conns.dropped)
    let input := segmentInput seg (r.l7.resolve seg.connectionIdentity resolved).2
    let seen := w.seen ++ [⟨origin, input, refused⟩]
    { w with
      runner := r'
      seen
      records := w.records ++ (r'.emitted.drop r.emitted.length).map fun e =>
        ⟨origin, ownInputs seen origin seg.connectionIdentity, e⟩
      refusals := if refused then w.refusals ++ [w.isOpen.length] else w.refusals }

/-- Run the loop on anything else. The resolved connections are gone exactly if the tables were
dropped or nothing was routed since. -/
def control (e : Event) : Descriptors ext :=
  let r' := w.runner.step e
  { w with runner := r', seen := if r'.l7.portHints.keys = [] then [] else w.seen }

/-- What cannot happen changes nothing. -/
def step : Happening → Descriptors ext
  | .opens c =>
    if w.isFree c then
      { w with
        connections := w.connections ++ [c]
        isOpen := w.isOpen ++ [w.connections.length] }
    else w
  | .closes number => { w with isOpen := w.isOpen.filter (· ≠ number) }
  | .captured origin seg resolved =>
    if w.isPossible origin seg resolved then w.capture origin seg resolved else w
  | .other e => if e.isSegment then w else w.control e

/-! ## The property -/

/-- The record is one that the connection's own segments give to a tracker of their own. -/
def Alone (ext : Externals) (t : Traced) : Prop := t.emitted.record ∈ (conns ext).solo .new t.own

/-- The ends on the record are not those of an earlier connection. -/
def NotEarlier (connections : List Connection) (t : Traced) : Prop :=
  t.emitted.conn = none ∧ t.emitted.socketPeer = none ∨
    ∃ n c, t.origin ≤ n ∧ connections[n]? = some c ∧ t.emitted.conn = some c.ends ∧
      t.emitted.socketPeer = some c.ends.remoteEnd

structure Faithful (w : Descriptors ext) : Prop where
  alone : ∀ t ∈ w.records, Alone ext t
  ends : ∀ t ∈ w.records, NotEarlier w.connections t
  refusals : ∀ n ∈ w.refusals, maxTrackedConns ≤ n

/-- Every connection that was captured since the tables were last dropped is open, and has one
identity. -/
def OneEach : Prop :=
  ∀ s ∈ w.seen, s.origin ∈ w.isOpen ∧ ∀ s' ∈ w.seen, s'.origin = s.origin → s'.identity = s.identity

/-- Since the tables were last dropped, the segment's identity belonged to no other connection, and
fewer identities were captured than can be tracked, unless they are those of open connections, one
each. -/
def Distinct : Happening → Prop
  | .captured origin seg _ =>
    (∀ s ∈ w.seen, s.identity = seg.connectionIdentity → s.origin = origin) ∧
      ((w.seen.map (·.identity)).dedup.length < maxTrackedConns ∨ w.OneEach)
  | _ => True

/-! ## The invariant -/

/-- What a tracker took in. -/
def fed (k : CapturedConnectionIdentity) : List Input :=
  (w.seen.filter fun s => s.identity = k ∧ s.refused = false).map (·.input)

/-- The ends that were resolved are those of a connection not before the given one. -/
def EndsFrom (connections : List Connection) (origin : Nat) (known : ResolvedConn) : Prop :=
  ∃ n c, origin ≤ n ∧ connections[n]? = some c ∧ c.ends = ⟨known.localEnd, known.peer⟩

/-- What the tables tell of the connections. -/
structure Traces (w : Descriptors ext) : Prop extends Faithful w where
  /-- An open connection is the latest under its number. -/
  latest : ∀ pid fd n c, w.openOn pid fd n = some c → ∀ m c', w.connections[m]? = some c' →
    c'.pid = pid → c'.fd = fd → m ≤ n
  hints : ∀ k, (w.runner.l7.portHints.lookup k).isSome = true ↔ ∃ s ∈ w.seen, s.identity = k
  resolved : ∀ k known, w.runner.l7.portHints.lookup k = some (some known) →
    ∀ s ∈ w.seen, s.identity = k → EndsFrom w.connections s.origin known
  trackers : ∀ k, (conns ext).Reached .new (w.fed k) ((conns ext).get w.runner.l7.conns k)
  tracked : ∀ k ∈ w.runner.l7.conns.entries.keys, ∃ s ∈ w.seen, s.identity = k

/-! ## The history of connections -/

variable {c : Connection} {cs : List Connection} {origin : Nat} {known : ResolvedConn}
  {e : Event} {seg : CapturedSegment} {service : String}

variable {w : Descriptors ext} {r : Runner ext} {resolved : Option ResolvedConn}

theorem openOn_eq_some {pid fd number : Nat} :
    w.openOn pid fd number = some c ↔
      number ∈ w.isOpen ∧ w.connections[number]? = some c ∧ c.pid = pid ∧ c.fd = fd := by
  unfold openOn
  split
  · next hopen => simp [hopen]
  · next hclosed => simp [hclosed]

theorem getElem?_append_of_eq_some {n : Nat} (h : cs[n]? = some c) (new : Connection) :
    (cs ++ [new])[n]? = some c := by
  rw [List.getElem?_append_left (List.getElem?_eq_some_iff.1 h).1, h]

theorem EndsFrom.append (h : EndsFrom cs origin known) (new : Connection) :
    EndsFrom (cs ++ [new]) origin known := by
  obtain ⟨n, c, hle, hc, hends⟩ := h
  exact ⟨n, c, hle, getElem?_append_of_eq_some hc new, hends⟩

theorem NotEarlier.append {t : Traced} (h : NotEarlier cs t) (new : Connection) :
    NotEarlier (cs ++ [new]) t := by
  rcases h with hnone | ⟨n, c, hle, hc, hends⟩
  · exact .inl hnone
  · exact .inr ⟨n, c, hle, getElem?_append_of_eq_some hc new, hends⟩

/-- A new connection is the latest under its number, and the others were not under it. -/
theorem Traces.opens (h : Traces w) (hfree : w.isFree c = true) :
    Traces { w with
      connections := w.connections ++ [c]
      isOpen := w.isOpen ++ [w.connections.length] } where
  alone := h.alone
  ends := fun t ht => (h.ends t ht).append c
  refusals := h.refusals
  latest := by
    intro pid fd n c₁ hopen m c₂ hm hpid hfd
    obtain ⟨hn, hc₁, hpid₁, hfd₁⟩ := openOn_eq_some.1 hopen
    have hbound : m < w.connections.length + 1 := by
      have := (List.getElem?_eq_some_iff.1 hm).1
      rwa [length_append] at this
    rcases lt_or_ge n w.connections.length with hlt | hge
    · -- an older connection: it is still the latest, as its number is not free
      rw [List.getElem?_append_left hlt] at hc₁
      have hmem : n ∈ w.isOpen := by
        rcases mem_append.1 hn with hold | hnew
        · exact hold
        · rw [mem_singleton.1 hnew] at hlt
          exact absurd hlt (lt_irrefl _)
      have hwas : w.openOn pid fd n = some c₁ := openOn_eq_some.2 ⟨hmem, hc₁, hpid₁, hfd₁⟩
      rcases lt_or_ge m w.connections.length with hmlt | hmge
      · rw [List.getElem?_append_left hmlt] at hm
        exact h.latest pid fd n c₁ hwas m c₂ hm hpid hfd
      · obtain rfl : m = w.connections.length := by omega
        rw [List.getElem?_concat_length] at hm
        cases hm
        have hnone := all_eq_true.1 hfree n hmem
        rw [hpid, hfd, hwas] at hnone
        cases hnone
    · omega
  hints := h.hints
  resolved := fun k known hk s hs hid => (h.resolved k known hk s hs hid).append c
  trackers := h.trackers
  tracked := h.tracked

theorem Traces.closes (h : Traces w) (number : Nat) :
    Traces { w with isOpen := w.isOpen.filter (· ≠ number) } := by
  refine { h with latest := ?_ }
  intro pid fd n c hopen
  obtain ⟨hn, hc⟩ := openOn_eq_some.1 hopen
  exact h.latest pid fd n c (openOn_eq_some.2 ⟨(mem_filter.1 hn).1, hc⟩)

/-! ## Iterations without segments -/

theorem step_l7Quiet (r : Runner ext) (he : e.isSegment = false) : L7Quiet r (r.step e) := by
  cases hcontrol : e.isControl with
  | true => exact (step_iterates r hcontrol).l7Quiet
  | false =>
    unfold Runner.step
    split
    · exact ⟨.inl rfl, rfl⟩
    · cases e with
      | line event taken =>
        rw [handle, onLine]
        split
        · split
          · exact ⟨.inl rfl, rfl⟩
          · exact ⟨.inl rfl, rfl⟩
        · exact ⟨.inl rfl, rfl⟩
      | flow event =>
        rw [handle, onFlow]
        split
        · exact ⟨.inl rfl, rfl⟩
        · exact ⟨.inl rfl, rfl⟩
      | segment seg resolved => cases he
      | tick | listener | snapshot | resolution | health | shutdown => cases hcontrol

theorem Traces.withRunner (h : Traces w) (hl7 : r.l7 = w.runner.l7) :
    Traces { w with runner := r } where
  toFaithful := ⟨h.alone, h.ends, h.refusals⟩
  latest := h.latest
  hints := by rw [hl7]; exact h.hints
  resolved := by rw [hl7]; exact h.resolved
  trackers := by rw [hl7]; exact h.trackers
  tracked := by rw [hl7]; exact h.tracked

theorem seen_eq_nil_of_no_hints (h : Traces w) (hkeys : w.runner.l7.portHints.keys = []) :
    w.seen = [] := by
  rw [eq_nil_iff_forall_not_mem]
  intro s hs
  have hsome := (h.hints s.identity).2 ⟨s, hs, rfl⟩
  have hmem : s.identity ∈ w.runner.l7.portHints := AList.lookup_isSome.1 hsome
  rw [AList.mem_keys, hkeys] at hmem
  exact not_mem_nil hmem

theorem Traces.control (h : Traces w) (he : e.isSegment = false) : Traces (w.control e) := by
  have hquiet := step_l7Quiet w.runner he
  unfold Descriptors.control
  dsimp only
  rcases hquiet.l7 with hsame | hempty
  · have hseen : (if (w.runner.step e).l7.portHints.keys = [] then [] else w.seen) = w.seen := by
      split
      · next hkeys =>
        rw [hsame] at hkeys
        exact (seen_eq_nil_of_no_hints h hkeys).symm
      · rfl
    rw [hseen]
    exact h.withRunner hsame
  · -- the tables were dropped, so nothing has been seen since
    have hkeys : (w.runner.step e).l7.portHints.keys = [] := by
      rw [hempty]
      rfl
    rw [if_pos hkeys]
    refine
      { toFaithful := ⟨h.alone, h.ends, h.refusals⟩
        latest := h.latest
        hints := ?_, resolved := ?_, trackers := ?_, tracked := ?_ }
    · intro k
      rw [hempty]
      exact ⟨nofun, fun ⟨_, hs, _⟩ => absurd hs not_mem_nil⟩
    · intro _ _ _ _ hs
      cases hs
    · intro k
      rw [hempty]
      rfl
    · intro k hk
      rw [hempty] at hk
      cases hk

/-! ## Segments -/

section

variable (tables : L7Tables ext) (identity : CapturedConnectionIdentity)
  (resolved : Option ResolvedConn)

theorem resolve_conns : (tables.resolve identity resolved).1.conns = tables.conns := by
  unfold resolve
  split
  · rfl
  · rfl

theorem resolve_lookup_self :
    (tables.resolve identity resolved).1.portHints.lookup identity =
      some (tables.resolve identity resolved).2 := by
  unfold resolve
  split
  · next hknown => exact hknown
  · exact AList.lookup_insert _

theorem resolve_lookup_ne {k : CapturedConnectionIdentity} (hk : k ≠ identity) :
    (tables.resolve identity resolved).1.portHints.lookup k = tables.portHints.lookup k := by
  unfold resolve
  split
  · rfl
  · exact AList.lookup_insert_ne hk

/-- What is known for an identity was known before, or is resolved now. -/
theorem resolve_known :
    tables.portHints.lookup identity = some (tables.resolve identity resolved).2 ∨
      tables.portHints.lookup identity = none ∧
        (tables.resolve identity resolved).2 = resolved := by
  unfold resolve
  split
  · next hknown => exact .inl hknown
  · next hnew => exact .inr ⟨hnew, rfl⟩

end

/-- A routed segment goes to the registry; nothing else of the tables changes. -/
theorem step_segment (hlive : r.halted = false)
    (hreturns : (r.step (.segment seg resolved)).halted = false)
    (hroute : r.route (segmentEvent seg) = some service) :
    ∃ registry records,
      (conns ext).feedOne maxTrackedConns r.l7.conns (segmentInput seg
        (r.l7.resolve seg.connectionIdentity resolved).2) = some (registry, records) ∧
      (r.step (.segment seg resolved)).l7 =
        { (r.l7.resolve seg.connectionIdentity resolved).1 with conns := registry } ∧
      (r.step (.segment seg resolved)).emitted = r.emitted ++ emitRecords service seg
        (r.l7.resolve seg.connectionIdentity resolved).2 registry records := by
  rw [Runner.step, if_neg (Bool.eq_false_iff.1 hlive), Runner.handle, Runner.onSegment, hroute]
    at hreturns ⊢
  dsimp only at hreturns ⊢
  rw [resolve_conns] at hreturns ⊢
  split at hreturns
  · cases hreturns
  · next registry records hfeed => exact ⟨registry, records, hfeed, rfl, rfl⟩

/-- A segment that is not routed, or never returns, leaves the tables. -/
theorem step_segment_l7
    (h : (r.halted || (r.step (.segment seg resolved)).halted || (r.route (segmentEvent
      seg)).isNone) = true) : (r.step (.segment seg resolved)).l7 = r.l7 := by
  cases hhalted : r.halted with
  | true => rw [Runner.step, if_pos hhalted]
  | false =>
    rw [Runner.step, if_neg (Bool.eq_false_iff.1 hhalted), Runner.handle, Runner.onSegment] at h ⊢
    cases hroute : r.route (Runner.segmentEvent seg) with
    | none => rfl
    | some service =>
      rw [hroute, hhalted] at h
      dsimp only at h ⊢
      split at h
      · rfl
      · cases h

/-- As many values as are determined by the others. -/
theorem length_dedup_le {α β γ : Type} [DecidableEq β] [DecidableEq γ] (f : α → β) (g : α → γ)
    (xs : List α) (h : ∀ x ∈ xs, ∀ y ∈ xs, f y = f x → g y = g x) :
    (xs.map g).dedup.length ≤ (xs.map f).dedup.length := by
  induction xs with
  | nil => exact le_rfl
  | cons x xs ih =>
    have hrest := ih fun y hy z hz => h y (mem_cons_of_mem _ hy) z (mem_cons_of_mem _ hz)
    rw [map_cons, map_cons]
    by_cases hf : f x ∈ xs.map f
    · have hg : g x ∈ xs.map g := by
        obtain ⟨y, hy, hxy⟩ := mem_map.1 hf
        exact mem_map.2 ⟨y, hy, h x mem_cons_self y (mem_cons_of_mem _ hy) hxy⟩
      rw [dedup_cons_of_mem hf, dedup_cons_of_mem hg]
      exact hrest
    · rw [dedup_cons_of_notMem hf]
      by_cases hg : g x ∈ xs.map g
      · rw [dedup_cons_of_mem hg]
        exact Nat.le_succ_of_le hrest
      · rw [dedup_cons_of_notMem hg]
        exact Nat.succ_le_succ hrest

theorem Traces.trackers_le (h : Traces w) :
    w.runner.l7.conns.entries.keys.length ≤ (w.seen.map (·.identity)).dedup.length := by
  refine (subperm_of_subset w.runner.l7.conns.entries.keys_nodup fun k hk => ?_).length_le
  obtain ⟨s, hs, rfl⟩ := h.tracked k hk
  exact mem_dedup.2 (mem_map_of_mem hs)

/-- A full table means as many open connections. -/
theorem Traces.open_of_full (h : Traces w)
    (hroom : (w.seen.map (·.identity)).dedup.length < maxTrackedConns ∨ w.OneEach)
    (hfull : maxTrackedConns ≤ w.runner.l7.conns.entries.keys.length) :
    maxTrackedConns ≤ w.isOpen.length := by
  have hle := h.trackers_le
  rcases hroom with hbelow | heach
  · omega
  · have hdetermined := length_dedup_le (fun s : Seen => s.origin) Seen.identity w.seen
      fun s hs s' hs' => (heach s hs).2 s' hs'
    have hopen : (w.seen.map (·.origin)).dedup.length ≤ w.isOpen.length := by
      refine (subperm_of_subset (nodup_dedup _) fun n hn => ?_).length_le
      obtain ⟨s, hs, rfl⟩ := mem_map.1 (mem_dedup.1 hn)
      exact (heach s hs).1
    have hids : (w.seen.map Seen.identity).dedup.length = (w.seen.map (·.identity)).dedup.length :=
      rfl
    omega

theorem fed_append (w : Descriptors ext) (s : Seen) (k : CapturedConnectionIdentity) :
    fed { w with seen := w.seen ++ [s] } k =
      w.fed k ++ if s.identity = k ∧ s.refused = false then [s.input] else [] := by
  unfold fed
  rw [filter_append, map_append, filter_singleton]
  split
  · next h =>
    rw [decide_eq_true h]
    rfl
  · next h =>
    rw [decide_eq_false h]
    rfl

/-- While the identity belongs to one connection, that connection's segments are those of the
tracker. -/
theorem ownInputs_eq_fed {k : CapturedConnectionIdentity}
    (h : ∀ s ∈ w.seen, s.identity = k → s.origin = origin) :
    ownInputs w.seen origin k = w.fed k := by
  unfold ownInputs
  congr 1
  apply filter_congr
  intro s hs
  by_cases hid : s.identity = k
  · simp [h s hs hid]
  · simp [hid]

/-- What `/proc` says at a segment is not about an earlier connection: what is open under a number
is the latest that was. -/
theorem Traces.endsFrom_of_possible (h : Traces w)
    (hpossible : w.isPossible origin seg resolved = true) (hknown : resolved = some known) :
    EndsFrom w.connections origin known := by
  unfold isPossible saysOpen at hpossible
  rw [Bool.and_eq_true, hknown, Option.all_some, any_eq_true] at hpossible
  obtain ⟨horigin, number, _, hopen⟩ := hpossible
  obtain ⟨c₀, hc₀, hsame⟩ := (Option.any_eq_true _ _).1 horigin
  obtain ⟨c, hc, hends⟩ := (Option.any_eq_true _ _).1 hopen
  rw [decide_eq_true_eq] at hsame hends
  exact ⟨number, c, h.latest _ _ number c hc origin c₀ hc₀ hsame.1 hsame.2,
    (openOn_eq_some.1 hc).2.1, hends⟩

/-- The records of a segment carry what is known of its identity. -/
theorem notEarlier_of_emitRecords {known : Option ResolvedConn}
    (hknown : ∀ k, known = some k → EndsFrom w.connections origin k) {registry : ConnRegistry ext}
    {records : List L7Record} {e : EmittedRecord}
    (he : e ∈ emitRecords service seg known registry records) (own : List Input) :
    NotEarlier w.connections ⟨origin, own, e⟩ := by
  obtain ⟨record, _, rfl⟩ := mem_map.1 he
  cases known with
  | none => exact .inl ⟨rfl, rfl⟩
  | some k =>
    obtain ⟨n, c, hle, hc, hends⟩ := hknown k rfl
    refine .inr ⟨n, c, hle, hc, ?_, ?_⟩
    · dsimp only [Option.map_some]
      rw [hends]
    · dsimp only [Option.map_some]
      rw [hends]

section

variable {w : Descriptors ext} (h : Traces w) {s : Seen} {resolved : Option ResolvedConn}
include h

theorem Traces.hints_append (k : CapturedConnectionIdentity) :
    ((w.runner.l7.resolve s.identity resolved).1.portHints.lookup k).isSome = true ↔
      ∃ s' ∈ w.seen ++ [s], s'.identity = k := by
  by_cases hk : k = s.identity
  · rw [hk, resolve_lookup_self]
    exact ⟨fun _ => ⟨s, mem_append_right _ mem_cons_self, rfl⟩, fun _ => rfl⟩
  · rw [resolve_lookup_ne _ _ _ hk, h.hints k]
    constructor
    · rintro ⟨s', hs', hid⟩
      exact ⟨s', mem_append_left _ hs', hid⟩
    · rintro ⟨s', hs', hid⟩
      rcases mem_append.1 hs' with hold | hnew
      · exact ⟨s', hold, hid⟩
      · rw [mem_singleton.1 hnew] at hid
        exact absurd hid.symm hk

variable (hsame : ∀ s' ∈ w.seen, s'.identity = s.identity → s'.origin = s.origin)
  (hnow : ∀ known, resolved = some known → EndsFrom w.connections s.origin known)
include hsame hnow

/-- What is resolved stays right for a connection that keeps its identity to itself. -/
theorem Traces.resolved_append {k : CapturedConnectionIdentity} {known : ResolvedConn}
    (hk : (w.runner.l7.resolve s.identity resolved).1.portHints.lookup k = some (some known))
    {s' : Seen} (hs' : s' ∈ w.seen ++ [s]) (hid : s'.identity = k) :
    EndsFrom w.connections s'.origin known := by
  by_cases hks : k = s.identity
  · subst hks
    rw [resolve_lookup_self] at hk
    rcases resolve_known w.runner.l7 s.identity resolved with hold | ⟨hnew, hresolved⟩
    · -- known from an earlier segment of the same connection
      rw [hk] at hold
      rcases mem_append.1 hs' with hs' | hs'
      · exact h.resolved _ known hold s' hs' hid
      · rw [mem_singleton.1 hs']
        obtain ⟨s₀, hs₀, hid₀⟩ := (h.hints s.identity).1 (by rw [hold]; rfl)
        rw [← hsame s₀ hs₀ hid₀]
        exact h.resolved _ known hold s₀ hs₀ hid₀
    · -- resolved now, at the first segment of its identity
      rcases mem_append.1 hs' with hs' | hs'
      · have hsome := (h.hints s.identity).2 ⟨s', hs', hid⟩
        rw [hnew] at hsome
        cases hsome
      · rw [mem_singleton.1 hs']
        rw [hresolved, Option.some.injEq] at hk
        exact hnow known hk
  · rw [resolve_lookup_ne _ _ _ hks] at hk
    rcases mem_append.1 hs' with hs' | hs'
    · exact h.resolved k known hk s' hs' hid
    · rw [mem_singleton.1 hs'] at hid
      exact absurd hid.symm hks

variable {r : Runner ext}

/-- A segment that finds the table full. -/
theorem Traces.refuse (hrefused : s.refused = true)
    (hl7 : r.l7 = { (w.runner.l7.resolve s.identity resolved).1 with
      conns := { w.runner.l7.conns with dropped := w.runner.l7.conns.dropped + 1 } })
    (hopen : maxTrackedConns ≤ w.isOpen.length) :
    Traces { w with
      runner := r, seen := w.seen ++ [s], refusals := w.refusals ++ [w.isOpen.length] } where
  alone := h.alone
  ends := h.ends
  refusals := forall_mem_append.2 ⟨h.refusals, forall_mem_singleton.2 hopen⟩
  latest := h.latest
  hints := by
    rw [hl7]
    exact h.hints_append
  resolved := by
    rw [hl7]
    exact fun k known hk s' hs' hid => h.resolved_append hsame hnow hk hs' hid
  trackers := by
    intro k
    have hfed := fed_append w s k
    rw [if_neg (by simp [hrefused]), append_nil] at hfed
    change (conns ext).Reached .new (fed { w with seen := w.seen ++ [s] } k) _
    rw [hfed, hl7]
    exact h.trackers k
  tracked := by
    intro k hk
    rw [hl7] at hk
    obtain ⟨s', hs', hid⟩ := h.tracked k hk
    exact ⟨s', mem_append_left _ hs', hid⟩

/-- A segment that its tracker takes in: its records come from its own connection's segments. -/
theorem Traces.take (hrefused : s.refused = false) {tracker : ConnTracker ext}
    {out : List L7Record}
    (hstep : (conns ext).step ((conns ext).get w.runner.l7.conns s.identity) s.input =
      some (tracker, out))
    (hl7 : r.l7 = { (w.runner.l7.resolve s.identity resolved).1 with
      conns := { w.runner.l7.conns with
        entries := w.runner.l7.conns.entries.insert s.identity tracker } })
    {new : List Traced} (hnew : ∀ t ∈ new, t.own = ownInputs (w.seen ++ [s]) s.origin s.identity ∧
      t.emitted.record ∈ out ∧ NotEarlier w.connections t) :
    Traces { w with runner := r, seen := w.seen ++ [s], records := w.records ++ new } where
  alone := by
    intro t ht
    rcases mem_append.1 ht with hold | hlast
    · exact h.alone t hold
    · obtain ⟨hown, hrecord, _⟩ := hnew t hlast
      have hfed := fed_append w s s.identity
      rw [if_pos ⟨rfl, hrefused⟩] at hfed
      have hall : ∀ s' ∈ w.seen ++ [s], s'.identity = s.identity → s'.origin = s.origin :=
        forall_mem_append.2 ⟨hsame, forall_mem_singleton.2 fun _ => rfl⟩
      have howned : t.own = w.fed s.identity ++ [s.input] := by
        rw [hown, ← hfed]
        exact ownInputs_eq_fed (w := { w with seen := w.seen ++ [s] }) hall
      unfold Alone
      rw [howned]
      exact (h.trackers s.identity).mem_solo hstep hrecord
  ends := by
    intro t ht
    rcases mem_append.1 ht with hold | hlast
    · exact h.ends t hold
    · exact (hnew t hlast).2.2
  refusals := h.refusals
  latest := h.latest
  hints := by
    rw [hl7]
    exact h.hints_append
  resolved := by
    rw [hl7]
    exact fun k known hk s' hs' hid => h.resolved_append hsame hnow hk hs' hid
  trackers := by
    intro k
    have hfed := fed_append w s k
    change (conns ext).Reached .new (fed { w with seen := w.seen ++ [s] } k) _
    rw [hfed, hl7, Machine.get_insert]
    by_cases hk : k = s.identity
    · rw [if_pos hk, if_pos ⟨hk.symm, hrefused⟩, hk]
      exact (h.trackers s.identity).snoc hstep
    · rw [if_neg hk, if_neg fun hid => hk hid.1.symm, append_nil]
      exact h.trackers k
  tracked := by
    intro k hk
    rw [hl7, AList.keys_insert] at hk
    rcases mem_cons.1 hk with rfl | hk
    · exact ⟨s, mem_append_right _ mem_cons_self, rfl⟩
    · obtain ⟨s', hs', hid⟩ := h.tracked k (mem_of_mem_erase hk)
      exact ⟨s', mem_append_left _ hs', hid⟩

end

theorem Traces.capture (h : Traces w) (hpossible : w.isPossible origin seg resolved = true)
    (hdistinct : w.Distinct (.captured origin seg resolved)) :
    Traces (w.capture origin seg resolved) := by
  obtain ⟨hsame, hroom⟩ := hdistinct
  unfold Descriptors.capture
  dsimp only
  split
  · next hskip => exact h.withRunner (step_segment_l7 hskip)
  · next hrouted =>
    rw [Bool.or_eq_true, Bool.or_eq_true, not_or, not_or, Option.isNone_iff_eq_none,
      Bool.not_eq_true, Bool.not_eq_true] at hrouted
    obtain ⟨⟨hlive, hreturns⟩, hsome⟩ := hrouted
    obtain ⟨service, hroute⟩ := Option.ne_none_iff_exists'.1 hsome
    obtain ⟨registry, records, hfeed, hl7, hemitted⟩ := step_segment hlive hreturns hroute
    have hnow : ∀ known, resolved = some known → EndsFrom w.connections origin known :=
      fun known hknown => h.endsFrom_of_possible hpossible hknown
    rw [hemitted, drop_left]
    generalize w.runner.step (.segment seg resolved) = r at hl7
    rcases Machine.feedOne_cases hfeed with ⟨rfl, rfl, hfull⟩ | ⟨tracker, hstep, rfl⟩
    · -- refused: no records
      have hrefused : decide (w.runner.l7.conns.dropped < r.l7.conns.dropped) = true := by
        rw [hl7]
        exact decide_eq_true (Nat.lt_succ_self _)
      rw [hrefused]
      have hrefuse := h.refuse (s := ⟨origin, segmentInput seg
        (w.runner.l7.resolve seg.connectionIdentity resolved).2, true⟩) hsame hnow rfl hl7
        (h.open_of_full hroom hfull)
      simpa [emitRecords] using hrefuse
    · have hrefused : decide (w.runner.l7.conns.dropped < r.l7.conns.dropped) = false := by
        rw [hl7]
        exact decide_eq_false (lt_irrefl _)
      rw [hrefused]
      refine h.take (s := ⟨origin, segmentInput seg
        (w.runner.l7.resolve seg.connectionIdentity resolved).2, false⟩) hsame hnow rfl hstep hl7
        fun t ht => ?_
      obtain ⟨e, he, rfl⟩ := mem_map.1 ht
      refine ⟨rfl, ?_, notEarlier_of_emitRecords (fun k hk => ?_) he _⟩
      · obtain ⟨record, hrecord, rfl⟩ := mem_map.1 he
        exact hrecord
      · refine h.resolved_append (s := ⟨origin, segmentInput seg none, false⟩) hsame hnow ?_
          (mem_append_right _ mem_cons_self) rfl
        rw [← hk]
        exact resolve_lookup_self ..

/-! ## Every history -/

theorem step_traces (w : Descriptors ext) (e : Happening) (h : Traces w)
    (hdistinct : w.Distinct e) : Traces (w.step e) := by
  cases e with
  | opens c =>
    rw [step]
    split
    · next hfree => exact h.opens hfree
    · exact h
  | closes number => exact h.closes number
  | captured origin seg resolved =>
    rw [step]
    split
    · next hpossible => exact h.capture hpossible hdistinct
    · exact h
  | other e =>
    rw [step]
    split
    · exact h
    · next he => exact h.control (Bool.eq_false_iff.2 he)

/-- **Descriptors and connections.** In every run of the loop beside every history of connections:
while identities and connections correspond, every record comes from the segments of one connection,
none carries the ends of an earlier one, and a connection is refused a tracker only while as many
connections are open as can be tracked. -/
theorem faithful_of_distinct (ext : Externals) (history : List Happening)
    (h : Each step Distinct ({} : Descriptors ext) history) :
    Always step Faithful ({} : Descriptors ext) history := by
  have hstart : Traces ({} : Descriptors ext) := by
    refine
      { alone := forall_mem_nil _
        ends := forall_mem_nil _
        refusals := forall_mem_nil _
        latest := ?_
        hints := ?_
        resolved := nofun
        trackers := fun _ => rfl
        tracked := forall_mem_nil _ }
    · intro pid fd n c hopen
      exact absurd (openOn_eq_some.1 hopen).1 not_mem_nil
    · intro k
      exact ⟨nofun, fun ⟨_, hs, _⟩ => absurd hs not_mem_nil⟩
  exact (always_of_each step_traces hstart h).mono fun _ hw => hw.toFaithful

/-! ## Concrete histories -/

instance (w : Descriptors ext) : Decidable w.OneEach :=
  inferInstanceAs (Decidable (∀ s ∈ w.seen,
    s.origin ∈ w.isOpen ∧ ∀ s' ∈ w.seen, s'.origin = s.origin → s'.identity = s.identity))

instance (w : Descriptors ext) : ∀ e, Decidable (w.Distinct e)
  | .captured .. => inferInstanceAs (Decidable ((∀ _ ∈ _, _ → _) ∧ (_ ∨ _)))
  | .opens _ | .closes _ | .other _ => inferInstanceAs (Decidable True)

/-- A connection of the web process from the given client. -/
def webConnection (fd : Nat) (client : String) : Connection := ⟨7, fd, ⟨"10.0.0.1:80", client⟩⟩

/-- A captured segment of a connection that `/proc` knows. -/
def webSegment (origin : Nat) (c : Connection) (direction : Direction) (timestampNano : Int64)
    (bytes : Bytes) : Happening :=
  .captured origin
    { captureGeneration := 1, policyGeneration := 1, pid := c.pid, tid := 7, cgroupId := 5,
      scopeCgroupId := 5, fd := c.fd, direction, timestampNano, streamGap := false, bytes }
    (some ⟨none, c.ends.remoteEnd, c.ends.localEnd⟩)

def getRequest : Bytes := ascii "GET / HTTP/1.1\r\n\r\n"

def okResponse : Bytes := ascii "HTTP/1.1 200 OK\r\n\r\n"

/-- The runner starts and publishes an allow set. -/
def webAllowed : List Happening :=
  [.other (quietTick 10), .other (webSnapshot 2), .other (webResolution 2)]

/-- Two connections on two descriptors, with their requests and responses interleaved. -/
def twoConnections : List Happening :=
  let first := webConnection 3 "10.0.0.8:40001"
  let second := webConnection 4 "10.0.0.9:40002"
  webAllowed ++
    [.opens first, .opens second,
      webSegment 0 first .inbound 1 getRequest,
      webSegment 1 second .inbound 2 getRequest,
      webSegment 1 second .outbound 3 okResponse,
      .closes 1, webSegment 0 first .outbound 4 okResponse]

theorem twoConnections_faithful :
    (twoConnections.foldl step ({} : Descriptors httpOnly)).records.map (·.origin) = [1, 0] ∧
      Always step Faithful ({} : Descriptors httpOnly) twoConnections :=
  ⟨by decide +kernel, faithful_of_distinct httpOnly twoConnections (by decide +kernel)⟩

/-- The first client sends a request and hangs up; the second is accepted on the same descriptor,
and is answered. -/
def reuseRun : List Happening :=
  let first := webConnection 3 "10.0.0.8:40001"
  let second := webConnection 3 "10.0.0.9:40002"
  webAllowed ++
    [.opens first,
      webSegment 0 first .inbound 1 getRequest,
      .closes 0,
      .opens second,
      webSegment 1 second .inbound 5 getRequest,
      webSegment 1 second .outbound 6 okResponse]

/-- The second connection's response answers the first connection's request, and the record carries
the first connection's ends. -/
theorem reused_descriptor_joins : ¬ Always step Faithful ({} : Descriptors httpOnly) reuseRun := by
  intro h
  have hlast := h.last
  generalize hw : reuseRun.foldl step ({} : Descriptors httpOnly) = w at hlast
  have hrecords : w.records.map
      (fun t => (t.origin, t.emitted.record.startUnixNano, t.emitted.socketPeer)) =
        [(1, 1, some "10.0.0.8:40001")] := by
    rw [← hw]
    decide +kernel
  -- alone, the response would answer the request of its own connection
  have hsolo : ∀ t ∈ w.records, ((conns httpOnly).solo .new t.own).map (·.startUnixNano) = [5] := by
    rw [← hw]
    decide +kernel
  cases hr : w.records with
  | nil =>
    rw [hr] at hrecords
    cases hrecords
  | cons t rest =>
    have ht : t ∈ w.records := hr ▸ mem_cons_self
    have hstart := hsolo t ht ▸ mem_map_of_mem (hlast.alone t ht)
    rw [hr, map_cons, List.cons.injEq, Prod.mk.injEq, Prod.mk.injEq] at hrecords
    rw [hrecords.1.2.1] at hstart
    revert hstart
    decide

end Descriptors

end EdgePacer.Ebpf
