import EdgePacer.L7.Isolation

/-!
# What a tracker keeps before it knows the protocol

While the protocol is unknown, a tracker keeps the bytes of both directions. Inbound bytes are
bounded, because detection gives up on them. Outbound bytes are given up by nobody: as long as the
inbound bytes are inconclusive, any number of outbound bytes is kept (`outbound_unbounded`), and
before the peer has spoken so are those that no protocol begins with. The bound holds in runs in
which no outbound segment is one of these (`retained_bounded`).
-/

namespace EdgePacer.L7

open Lib List Http2

variable {ext : Externals}

namespace ConnTracker

/-- The bytes kept before the protocol is known. -/
def retained (t : ConnTracker ext) : Nat := t.preInbound.length + t.preOutbound.length

/-- The tracker after a segment; as it was if the call does not return. -/
def after (t : ConnTracker ext) (input : Input) : ConnTracker ext :=
  ((t.feed input).map Prod.fst).getD t

end ConnTracker

/-- Detection wants more bytes. -/
def Detect.inconclusive : Detect ext → Bool
  | .needMore => true
  | _ => false

/-- Detection has given up. -/
def Detect.isUnknown : Detect ext → Bool
  | .unknown => true
  | _ => false

/-- An outbound segment of a connection whose protocol is open comes in turn: the hint names the
protocol, or the peer has not spoken and what was sent so far may open a request. -/
def ConnTracker.inTurn (t : ConnTracker ext) (input : Input) : Bool :=
  let seg := input.segment
  let dir := t.orient seg.direction input.flip
  match t.revive dir seg.bytes input.hint with
  | none => true
  | some t =>
      dir = .inbound || t.parser.isSome ||
        (input.hint.bind parserForProtocol : Option (Parser ext)).isSome ||
        t.preInbound.isEmpty && input.hint.isNone &&
          !(detect (t.preOutbound ++ seg.bytes) none : Detect ext).isUnknown

/-- Detection gives up on long openings. -/
theorem length_lt_of_inconclusive {bytes : Bytes} {hint : Option String}
    (h : (detect bytes hint : Detect ext).inconclusive = true) :
    bytes.length < preface.length := by
  rw [detect] at h
  split at h
  · cases h
  · split at h
    · cases h
    · split at h
      · rename_i hprefix
        rw [looksLikePrefacePrefix, Bool.and_eq_true, Bool.and_eq_true,
          decide_eq_true_iff] at hprefix
        exact hprefix.1.2
      · split at h
        · cases h
        · split at h
          · cases h
          · split at h
            · cases h
            · rename_i hlen
              exact lt_of_lt_of_le (not_le.1 hlen) (by decide)

namespace ConnTracker

/-- Both directions are short. -/
def Short (t : ConnTracker ext) : Prop :=
  t.preInbound.length < preface.length ∧ t.preOutbound.length < preface.length

variable {t t' : ConnTracker ext} {input : Input} (n : Nat)

theorem short_of_nil (hin : t.preInbound = []) (hout : t.preOutbound = []) : t.Short := by
  rw [Short, hin, hout]
  decide

theorem Short.revive (h : t.Short) {dir : Direction} {bytes : Bytes} {hint : Option String}
    (ht : t.revive dir bytes hint = some t') : t'.Short := by
  rw [ConnTracker.revive] at ht
  split at ht
  · -- a dead tracker starts again with nothing buffered
    dsimp only at ht
    split at ht
    · cases ht
      exact short_of_nil rfl rfl
    · cases ht
  · cases ht
    exact h

theorem bind_short {parser : Parser ext} {role : Option PeerRole} {flipped : Bool} {ts : Int64}
    (h : t.bind parser role flipped ts = some t') : t'.Short := by
  obtain ⟨p₁, _, h⟩ := Option.bind_eq_some_iff.1 h
  obtain ⟨p₂, _, h⟩ := Option.bind_eq_some_iff.1 h
  split at h
  · cases h
    exact short_of_nil rfl rfl
  · cases h
    exact short_of_nil rfl rfl

theorem inconclusive_of_wait {hint : Option String} (h : t.verdict hint = .wait) :
    (detect t.preInbound hint : Detect ext).inconclusive = true := by
  rw [verdict] at h
  cases hdetect : (detect t.preInbound hint : Detect ext) with
  | parser p =>
    rw [hdetect] at h
    cases h
  | unknown =>
    -- the outbound bytes can only save the tracker by naming a parser
    split at h
    · cases h
    · cases h
    · cases h
    · contradiction
    · contradiction
  | needMore => rfl

/-- Before the peer has spoken, outbound bytes are kept while they are inconclusive. -/
theorem outbound_inconclusive_of_wait (h : t.verdict none = .wait) (hin : t.preInbound = [])
    (hknown : (detect t.preOutbound none : Detect ext).isUnknown = false) :
    (detect t.preOutbound none : Detect ext).inconclusive = true := by
  rw [verdict, hin] at h
  cases hdetect : (detect t.preOutbound none : Detect ext) with
  | parser p =>
    simp only [hdetect, Option.isNone_none, isEmpty_nil, Bool.and_self, if_true] at h
    split at h
    · cases h
    · cases h
    · cases h
    · contradiction
    · next hother _ => exact absurd rfl (hother p)
  | unknown =>
    rw [hdetect] at hknown
    cases hknown
  | needMore => rfl

/-- The buffers after a segment that comes in turn are short. -/
theorem Short.onSegment (h : t.Short) (hturn : t.inTurn input = true)
    (ht : t.onSegment input.segment.direction input.segment.bytes input.segment.timestampNano
      input.hint input.flip = some t') : t'.Short := by
  rw [inTurn] at hturn
  rw [ConnTracker.onSegment] at ht
  split at ht
  · cases ht
    exact h
  · rename_i u hrevive
    rw [hrevive] at hturn
    have hu : u.Short := h.revive hrevive
    dsimp only at hturn
    cases hparser : u.parser with
    | some parser =>
      rw [hparser] at ht
      obtain ⟨p, _, ht⟩ := Option.bind_eq_some_iff.1 ht
      split at ht
      · cases ht
        exact short_of_nil rfl rfl
      · cases ht
        exact hu
    | none =>
      rw [hparser] at ht hturn
      dsimp only at ht
      split at ht
      · exact bind_short ht
      · cases ht
        exact short_of_nil rfl rfl
      · rename_i hwait
        cases ht
        refine ⟨length_lt_of_inconclusive (inconclusive_of_wait hwait), ?_⟩
        cases hdir : t.orient input.segment.direction input.flip with
        | inbound => exact hu.2
        | outbound =>
          rw [hdir] at hwait hturn
          cases hhint : (input.hint.bind parserForProtocol : Option (Parser ext)) with
          | some p =>
            -- a known hint binds at once
            have hopen := inconclusive_of_wait hwait
            rw [detect, hhint] at hopen
            cases hopen
          | none =>
            simp only [hhint, Option.isSome_none, Bool.or_false, reduceCtorEq, decide_false,
              Bool.false_or, Bool.and_eq_true, List.isEmpty_iff, Option.isNone_iff_eq_none,
              Bool.not_eq_true'] at hturn
            obtain ⟨⟨hin, hnone⟩, hknown⟩ := hturn
            rw [hnone] at hwait
            exact length_lt_of_inconclusive (outbound_inconclusive_of_wait hwait hin hknown)

theorem Short.takeRecords (h : t.Short) : t.takeRecords.2.Short := by
  rw [ConnTracker.takeRecords]
  split
  · exact h
  · exact h

theorem Short.after (h : t.Short) (hturn : t.inTurn input = true) :
    (t.after input).Short := by
  rw [ConnTracker.after]
  cases hfeed : t.feed input with
  | none => exact h
  | some out =>
    obtain ⟨u, hu, hout⟩ := Option.bind_eq_some_iff.1 hfeed
    have hshort : u.Short := h.onSegment hturn hu
    cases hout
    split
    · exact short_of_nil rfl rfl
    · exact hshort.takeRecords

theorem Short.retained_lt (h : t.Short) : t.retained < 2 * preface.length := by
  rw [Nat.two_mul]
  exact Nat.add_lt_add h.1 h.2

/-! ## The bound -/

/-- **Undetected bytes are bounded** by twice the length of the preface, in every run in which
outbound segments come in turn. -/
theorem retained_bounded (ext : Externals) (inputs : List Input)
    (hturn : Each after (fun t input => t.inTurn input = true) (new : ConnTracker ext) inputs) :
    Always after (fun t => t.retained < 2 * preface.length) (new : ConnTracker ext) inputs := by
  have hshort := always_of_each (fun _ _ h hturn => h.after hturn) (short_of_nil rfl rfl) hturn
  exact hshort.mono fun _ h => h.retained_lt

/-- A client sends a byte that may begin the preface, and is answered. -/
def earlyAnswer : List Input :=
  [segmentOn 4 .outbound (ascii "P"), segmentOn 4 .inbound (ascii "H")]

theorem early_answer_bounded :
    Each after (fun t input => t.inTurn input = true) (new : ConnTracker httpOnly) earlyAnswer ∧
      Always after (fun t => t.retained < 2 * preface.length)
        (new : ConnTracker httpOnly) earlyAnswer := by
  have hturn : Each after (fun t input => t.inTurn input = true)
      (new : ConnTracker httpOnly) earlyAnswer := by
    decide +kernel
  exact ⟨hturn, retained_bounded httpOnly _ hturn⟩

/-! ### A server that answers half a request -/

/-- One byte comes in, and any number of bytes go out. -/
def trickle (n : Nat) : List Input :=
  segmentOn 4 .inbound (ascii "P") :: replicate n (segmentOn 4 .outbound [0])

/-- The tracker in the middle of it. -/
def waiting (n : Nat) : ConnTracker ext := ⟨none, false, ascii "P", replicate n 0, none⟩

theorem after_request_byte :
    (new : ConnTracker ext).after (segmentOn 4 .inbound (ascii "P")) = waiting 0 := rfl

theorem after_waiting :
    (waiting n : ConnTracker ext).after (segmentOn 4 .outbound [0]) = waiting (n + 1) := by
  have hbuffer : replicate n (0 : UInt8) ++ [0] = replicate (n + 1) 0 := replicate_succ'.symm
  rw [waiting, waiting, ← hbuffer]
  rfl

theorem foldl_replicate_waiting (m : Nat) :
    (replicate n (segmentOn 4 .outbound [0])).foldl after (waiting m : ConnTracker ext) =
      waiting (m + n) := by
  induction n generalizing m with
  | zero => rfl
  | succ n ih =>
    rw [replicate_succ, foldl_cons, after_waiting, ih, Nat.add_assoc, Nat.add_comm 1]

/-- The server's bytes are all kept. -/
theorem retained_trickle :
    ((trickle n).foldl after (new : ConnTracker ext)).parser.isNone ∧
      ((trickle n).foldl after (new : ConnTracker ext)).retained = n + 1 := by
  have hlast : (trickle n).foldl after (new : ConnTracker ext) = waiting n := by
    rw [trickle, foldl_cons, after_request_byte, foldl_replicate_waiting, Nat.zero_add]
  rw [hlast]
  refine ⟨rfl, ?_⟩
  rw [retained, waiting, length_replicate, Nat.add_comm]
  rfl

/-- No bound holds for every sequence of segments. -/
theorem outbound_unbounded :
    ¬ ∃ bound, ∀ inputs : List Input,
      (inputs.foldl after (new : ConnTracker httpOnly)).parser.isNone →
        (inputs.foldl after (new : ConnTracker httpOnly)).retained ≤ bound := by
  rintro ⟨bound, hbound⟩
  obtain ⟨hopen, hkept⟩ := @retained_trickle httpOnly bound
  have hle := hbound (trickle bound) hopen
  omega

end ConnTracker

end EdgePacer.L7
