import EdgePacer.Lib.Lists

/-!
# Framing byte streams that arrive in pieces

A stream is a sequence of units, each recognised by its front part: `next` gives the unit and its
whole length, which may reach past the bytes at hand. What is recognised may depend on a stage (a
handshake comes before the messages). A `Reassembly` keeps the bytes in which no unit was
recognised yet and how many bytes of the last unit are still to come.

`scan` says what a stretch of a stream that starts at a boundary contains. `scan_append` is what
the rest builds on: what is recognised does not depend on where the stream is cut, as long as a unit
recognised in the part that has arrived is recognised in the same way once more has arrived
(`Framed`). A `Framer` reads several such streams at once and hands their units to a user who may
stop for good. Its loop does not return when a unit has no length; where every unit has one
(`Advances`), `Framer.run_eq` says that the loop returns and shows the user the units of the
streams in the order in which they become recognisable (`events`).
-/

namespace EdgePacer.Lib

open List Function Bool

universe u

variable {ι κ β υ τ σ : Type u}

/-- What the front of a buffer holds. -/
inductive Outcome (κ υ : Type u) where
  /-- A unit, the length of all of it, and the stage after it. -/
  | complete (unit : υ) (totalLen : Nat) (stage : κ)
  /-- Not enough to tell. -/
  | incomplete
  /-- Nothing that more bytes could make a unit. -/
  | invalid

def Outcome.map {υ' : Type u} (f : υ → υ') : Outcome κ υ → Outcome κ υ'
  | .complete u n k => .complete (f u) n k
  | .incomplete => .incomplete
  | .invalid => .invalid

/-- Bytes not yet taken, and how many bytes to drop before the next unit. -/
structure Reassembly (κ β : Type u) where
  stage : κ
  buf : List β
  skip : Nat

namespace Reassembly

def push (s : Reassembly κ β) (bytes : List β) : Reassembly κ β := { s with buf := s.buf ++ bytes }

/-- Drop a unit of `totalLen` bytes, remembering how much of it is not there yet. -/
def advance (s : Reassembly κ β) (totalLen : Nat) : Reassembly κ β :=
  if totalLen ≤ s.buf.length then { s with buf := s.buf.drop totalLen }
  else { s with skip := totalLen - s.buf.length, buf := [] }

/-- Drop pending bytes; true once all of them are gone. -/
def drainSkip (s : Reassembly κ β) : Bool × Reassembly κ β :=
  if s.skip = 0 then (true, s)
  else
    let n := min s.skip s.buf.length
    (s.skip - n == 0, { s with buf := s.buf.drop n, skip := s.skip - n })

variable {s : Reassembly κ β}

theorem drainSkip_of_short (h : s.buf.length < s.skip) :
    s.drainSkip = (false, { s with buf := [], skip := s.skip - s.buf.length }) := by
  have hne : ¬ s.skip = 0 := by omega
  have hmin : min s.skip s.buf.length = s.buf.length := by omega
  have hleft : (s.skip - s.buf.length == 0) = false := by
    rw [beq_eq_false_iff_ne]
    omega
  rw [drainSkip, if_neg hne]
  simp only [hmin, drop_length, hleft]

theorem drainSkip_of_long (h : s.skip ≤ s.buf.length) :
    s.drainSkip = (true, { s with buf := s.buf.drop s.skip, skip := 0 }) := by
  rw [drainSkip]
  split
  · rename_i hzero
    rw [hzero, drop_zero, ← hzero]
  · have hmin : min s.skip s.buf.length = s.skip := by omega
    simp only [hmin, Nat.sub_self, beq_self_eq_true]

end Reassembly

open Reassembly

/-! ## What a stretch of a stream contains -/

section

variable (next : κ → List β → Outcome κ υ)

/-- The unit at the front of a stretch. -/
def front (stage : κ) (bytes : List β) : Outcome κ υ :=
  if bytes.isEmpty then .incomplete else next stage bytes

/-- `scan` with a bound on the number of units. -/
def scanLoop : Nat → κ → List β → List (Option υ) × Option (Reassembly κ β)
  | 0, _, _ => ([], none)
  | fuel + 1, stage, bytes =>
      match front next stage bytes with
      | .incomplete => ([], some ⟨stage, bytes, 0⟩)
      | .invalid => ([none], none)
      | .complete u n stage' =>
          if bytes.length < n then ([some u], some ⟨stage', [], n - bytes.length⟩)
          else
            let rest := scanLoop fuel stage' (bytes.drop n)
            (some u :: rest.1, rest.2)

/-- The units in a stretch that starts at a boundary, and what is left of it: `none` among the units
says that the stream is invalid there, and nothing is read after that. A unit without length takes
all the fuel; elsewhere there is enough of it. -/
def scan (stage : κ) (bytes : List β) : List (Option υ) × Option (Reassembly κ β) :=
  scanLoop next (bytes.length + 1) stage bytes

/-- What is recognised when bytes arrive in a buffer. -/
def feed (s : Reassembly κ β) (bytes : List β) : List (Option υ) × Option (Reassembly κ β) :=
  if (s.buf ++ bytes).length < s.skip then
    ([], some { s with buf := [], skip := s.skip - (s.buf ++ bytes).length })
  else scan next s.stage ((s.buf ++ bytes).drop s.skip)

/-- `At k bytes n k'`: reading the stretch, a unit is looked for at offset `n`, in stage `k'`. -/
inductive At : κ → List β → Nat → κ → Prop where
  | start (k : κ) (bytes : List β) : At k bytes 0 k
  | unit {k k' l : κ} {bytes : List β} {u : υ} {n m : Nat}
      (hfront : front next k bytes = .complete u n k') (hlen : n ≤ bytes.length)
      (hrest : At k' (bytes.drop n) m l) : At k bytes (n + m) l

/-- Every unit of the stretch has a length, so that reading it comes to an end. -/
def Advances (k : κ) (bytes : List β) : Prop :=
  ∀ n k', At next k bytes n k' → ∀ u m l, front next k' (bytes.drop n) = .complete u m l → 0 < m

/-- Streams in which what is recognised in the bytes that have arrived stays recognised. -/
structure Framed (Good : κ → List β → Prop) : Prop where
  complete : ∀ {k k' : κ} {a b : List β} {u : υ} {n : Nat}, Good k (a ++ b) →
    front next k a = .complete u n k' → front next k (a ++ b) = .complete u n k'
  invalid : ∀ {k : κ} {a b : List β}, Good k (a ++ b) →
    front next k a = .invalid → front next k (a ++ b) = .invalid
  pos : ∀ {k k' : κ} {a : List β} {u : υ} {n : Nat}, Good k a →
    front next k a = .complete u n k' → 0 < n
  rest : ∀ {k k' : κ} {a : List β} {u : υ} {n : Nat}, Good k a →
    front next k a = .complete u n k' → Good k' (a.drop n)
  part : ∀ {k : κ} {a b : List β}, Good k (a ++ b) → Good k a

variable {next}

variable {k : κ} {bytes : List β} {k' : κ} {u : υ} {n : Nat} (fuel : Nat)

theorem scan_incomplete (h : front next k bytes = .incomplete) :
    scan next k bytes = ([], some ⟨k, bytes, 0⟩) := by
  rw [scan, scanLoop, h]

theorem scan_invalid (h : front next k bytes = .invalid) : scan next k bytes = ([none], none) := by
  rw [scan, scanLoop, h]

theorem scan_long (h : front next k bytes = .complete u n k') (hlen : bytes.length < n) :
    scan next k bytes = ([some u], some ⟨k', [], n - bytes.length⟩) := by
  rw [scan, scanLoop, h]
  exact if_pos hlen

theorem length_pos_of_front (h : front next k bytes = .complete u n k') : 0 < bytes.length := by
  cases bytes with
  | nil => cases h
  | cons b bytes => exact Nat.succ_pos _

theorem Advances.front (h : Advances next k bytes)
    (hfront : front next k bytes = .complete u n k') : 0 < n :=
  h 0 k (.start k bytes) u n k' hfront

theorem At.trans {l : κ} {m : Nat} (h : At next k bytes n k') (h' : At next k' (bytes.drop n) m l) :
    At next k bytes (n + m) l := by
  induction h with
  | start k bytes =>
    rw [Nat.zero_add]
    exact h'
  | unit hfront hlen hrest ih =>
    rw [Nat.add_assoc]
    rw [← drop_drop] at h'
    exact .unit hfront hlen (ih h')

theorem Advances.at (h : Advances next k bytes) (hat : At next k bytes n k') :
    Advances next k' (bytes.drop n) := by
  intro m l hm v j l' hv
  rw [drop_drop] at hv
  exact h (n + m) l (hat.trans hm) v j l' hv

theorem Advances.rest (h : Advances next k bytes)
    (hfront : Lib.front next k bytes = .complete u n k') (hlen : n ≤ bytes.length) :
    Advances next k' (bytes.drop n) :=
  h.at (.unit hfront hlen (.start _ _))

theorem advances_nil (k : κ) : Advances next k [] := by
  intro n k' _ u m l hfront
  rw [drop_nil] at hfront
  cases hfront

/-- Whether every unit has a length, for as many units as there is fuel. -/
def advancesLoop (next : κ → List β → Outcome κ υ) : Nat → κ → List β → Bool
  | 0, _, _ => true
  | fuel + 1, k, bytes =>
      match front next k bytes with
      | .complete _ n k' =>
          0 < n && (decide (bytes.length < n) || advancesLoop next fuel k' (bytes.drop n))
      | _ => true

theorem advances_of_loop (hfuel : bytes.length < fuel) (h : advancesLoop next fuel k bytes = true) :
    Advances next k bytes := by
  induction fuel generalizing k bytes with
  | zero => exact absurd hfuel (Nat.not_lt_zero _)
  | succ fuel ih =>
    rw [advancesLoop] at h
    intro m l hat
    cases hat with
    | start =>
      intro u n k' hfront
      rw [drop_zero] at hfront
      rw [hfront, and_eq_true, decide_eq_true_iff] at h
      exact h.1
    | unit hfront hlen hrest =>
      rename_i k' u n m
      rw [hfront, and_eq_true, decide_eq_true_iff, or_eq_true, decide_eq_true_iff] at h
      have hshort : (bytes.drop n).length < fuel := by
        rw [length_drop]
        omega
      rw [← drop_drop]
      exact ih hshort (h.2.resolve_left (Nat.not_lt.2 hlen)) m l hrest

theorem loop_of_advances (h : Advances next k bytes) : advancesLoop next fuel k bytes = true := by
  induction fuel generalizing k bytes with
  | zero => rfl
  | succ fuel ih =>
    rw [advancesLoop]
    split
    · rename_i u n k' hfront
      rw [and_eq_true, decide_eq_true_iff, or_eq_true, decide_eq_true_iff]
      refine ⟨h.front hfront, ?_⟩
      by_cases hlen : bytes.length < n
      · exact .inl hlen
      · exact .inr (ih (h.rest hfront (Nat.not_lt.1 hlen)))
    · rfl

instance Advances.decidable (next : κ → List β → Outcome κ υ) (k : κ) (bytes : List β) :
    Decidable (Advances next k bytes) :=
  decidable_of_iff (advancesLoop next (bytes.length + 1) k bytes = true)
    ⟨advances_of_loop _ (Nat.lt_succ_self _), loop_of_advances _⟩

/-- Where every unit has a length, fuel beyond the length of the stretch makes no difference. -/
theorem scanLoop_fuel (fuel' : Nat) (hadv : Advances next k bytes) (h : bytes.length < fuel)
    (h' : bytes.length < fuel') : scanLoop next fuel k bytes = scanLoop next fuel' k bytes := by
  induction fuel generalizing fuel' k bytes with
  | zero => exact absurd h (Nat.not_lt_zero _)
  | succ fuel ih =>
    cases fuel' with
    | zero => exact absurd h' (Nat.not_lt_zero _)
    | succ fuel' =>
      rw [scanLoop, scanLoop]
      cases hfront : front next k bytes with
      | incomplete | invalid => rfl
      | complete u n k' =>
        dsimp only
        split
        · rfl
        · rename_i hle
          have hn := hadv.front hfront
          rw [ih fuel' (hadv.rest hfront (Nat.not_lt.1 hle))]
          · rw [length_drop]
            omega
          · rw [length_drop]
            omega

theorem scan_whole (hadv : Advances next k bytes) (h : front next k bytes = .complete u n k')
    (hlen : n ≤ bytes.length) :
    scan next k bytes =
      (some u :: (scan next k' (bytes.drop n)).1, (scan next k' (bytes.drop n)).2) := by
  have hn := hadv.front h
  have hrest := scanLoop_fuel bytes.length ((bytes.drop n).length + 1)
    (hadv.rest h hlen) (by rw [length_drop]; omega) (Nat.lt_succ_self _)
  rw [scan, scanLoop, h]
  dsimp only
  rw [if_neg (Nat.not_lt.2 hlen), hrest]
  rfl

theorem scan_nil (k : κ) : scan next k [] = ([], some ⟨k, [], 0⟩) := scan_incomplete rfl

theorem feed_push (s : Reassembly κ β) (bytes : List β) :
    feed next s bytes = feed next (s.push bytes) [] := by
  simp only [feed, push, append_nil]

section

variable {Good : κ → List β → Prop} (hframed : Framed next Good)
include hframed

theorem Framed.advances {k : κ} {bytes : List β} (hgood : Good k bytes) :
    Advances next k bytes := by
  intro n k' hat
  induction hat with
  | start k bytes => exact fun u m l hfront => hframed.pos hgood hfront
  | unit hfront hlen hrest ih =>
    intro v j l hv
    rw [← drop_drop] at hv
    exact ih (hframed.rest hgood hfront) v j l hv

variable (b : List β) (k : κ) (a : List β) {s : Reassembly κ β}

/-- **Induction on a first piece** `a` of a stream that goes on with `b`: what is recognised in `a`
is recognised in both together, and if all of it is in `a` the rest is a shorter first piece. -/
theorem Framed.cut_rec {motive : ∀ k a, Good k (a ++ b) → Prop}
    (incomplete : ∀ k a h, front next k a = .incomplete → motive k a h)
    (invalid : ∀ k a h, front next k a = .invalid → front next k (a ++ b) = .invalid → motive k a h)
    (long : ∀ k a h u n k', front next k a = .complete u n k' →
      front next k (a ++ b) = .complete u n k' → a.length < n → motive k a h)
    (whole : ∀ k a h u n k' h', front next k a = .complete u n k' →
      front next k (a ++ b) = .complete u n k' → n ≤ a.length →
      (a ++ b).drop n = a.drop n ++ b → motive k' (a.drop n) h' → motive k a h)
    (k : κ) (a : List β) (hgood : Good k (a ++ b)) : motive k a hgood := by
  induction hlen : a.length using Nat.strongRecOn generalizing k a with
  | _ len ih =>
  subst hlen
  cases hfront : front next k a with
  | incomplete => exact incomplete k a hgood hfront
  | invalid => exact invalid k a hgood hfront (hframed.invalid hgood hfront)
  | complete u n k' =>
    have hboth := hframed.complete hgood hfront
    by_cases hlong : a.length < n
    · exact long k a hgood u n k' hfront hboth hlong
    · have hle : n ≤ a.length := Nat.not_lt.1 hlong
      have hdrop : (a ++ b).drop n = a.drop n ++ b := drop_append_of_le_length hle
      have hshort : (a.drop n).length < a.length := by
        have hn := hframed.pos hgood hboth
        rw [length_drop]
        omega
      have hrest : Good k' (a.drop n ++ b) := hdrop ▸ hframed.rest hgood hboth
      exact whole k a hgood u n k' hrest hfront hboth hle hdrop (ih _ hshort k' _ hrest rfl)

variable (b : List β)

variable (hgood : Good k (a ++ b))

include hgood

/-- What a first piece leaves behind: reading goes on where it would in both pieces together. -/
theorem at_append (hs : (scan next k a).2 = some s) (hskip : s.skip ≤ (s.buf ++ b).length) :
    ∃ n, At next k (a ++ b) n s.stage ∧ (s.buf ++ b).drop s.skip = (a ++ b).drop n := by
  have hadv := hframed.advances (hframed.part hgood)
  induction k, a, hgood using hframed.cut_rec b with
  | incomplete k a hgood hfront =>
    rw [scan_incomplete hfront] at hs
    cases hs
    exact ⟨0, .start _ _, rfl⟩
  | invalid k a hgood hfront hboth =>
    rw [scan_invalid hfront] at hs
    cases hs
  | long k a hgood u n k' hfront hboth hlong =>
    rw [scan_long hfront hlong] at hs
    cases hs
    simp only [nil_append] at hskip ⊢
    have hall : n ≤ (a ++ b).length := by
      rw [length_append]
      omega
    refine ⟨n, .unit hboth hall (.start _ _), ?_⟩
    rw [drop_append, drop_of_length_le (Nat.le_of_lt hlong), nil_append]
  | whole k a hgood u n k' hrest hfront hboth hle hdrop ih =>
    have hall : n ≤ (a ++ b).length := by
      rw [length_append]
      omega
    rw [scan_whole hadv hfront hle] at hs
    obtain ⟨j, hj, hbuf⟩ := ih hs (hadv.rest hfront hle)
    refine ⟨n + j, .unit hboth hall (hdrop ▸ hj), ?_⟩
    rw [hbuf, ← drop_drop, hdrop]

/-- What scanning two pieces together gives, by what the first of them leaves behind. -/
theorem scan_append_eq :
    scan next k (a ++ b) = match (scan next k a).2 with
      | none => scan next k a
      | some s => ((scan next k a).1 ++ (feed next s b).1, (feed next s b).2) := by
  have hadv := hframed.advances hgood
  have hadv' := hframed.advances (hframed.part hgood)
  induction k, a, hgood using hframed.cut_rec b with
  | incomplete k a hgood hfront =>
    rw [scan_incomplete hfront]
    rfl
  | invalid k a hgood hfront hboth => rw [scan_invalid hfront, scan_invalid hboth]
  | long k a hgood u n k' hfront hboth hlong =>
    rw [scan_long hfront hlong]
    simp only [feed, nil_append]
    by_cases hmore : b.length < n - a.length
    · -- not even both pieces together reach the end of the unit
      have hall : (a ++ b).length < n := by
        rw [length_append]
        omega
      rw [if_pos hmore, scan_long hboth hall, length_append, Nat.sub_add_eq]
      rfl
    · have hall : n ≤ (a ++ b).length := by
        rw [length_append]
        omega
      rw [if_neg hmore, scan_whole hadv hboth hall, drop_append,
        drop_of_length_le (Nat.le_of_lt hlong)]
      rfl
  | whole k a hgood u n k' hrest hfront hboth hle hdrop ih =>
    have hall : n ≤ (a ++ b).length := by
      rw [length_append]
      omega
    rw [scan_whole hadv' hfront hle, scan_whole hadv hboth hall, hdrop,
      ih (hdrop ▸ hadv.rest hboth hall) (hadv'.rest hfront hle)]
    cases hs : (scan next k' (a.drop n)).2 with
    | none => simp only [hs]
    | some s => simp only [cons_append]

/-- **Cut independence.** Scanning two pieces one after the other recognises what scanning them
together does, and leaves the same behind. -/
theorem scan_append (hs : (scan next k a).2 = some s) :
    scan next k (a ++ b) = ((scan next k a).1 ++ (feed next s b).1, (feed next s b).2) := by
  rw [scan_append_eq hframed k a b hgood, hs]

theorem scan_append_none (hs : (scan next k a).2 = none) :
    scan next k (a ++ b) = scan next k a := by
  rw [scan_append_eq hframed k a b hgood, hs]

theorem scan_mono : (scan next k a).1 <+: (scan next k (a ++ b)).1 := by
  cases hs : (scan next k a).2 with
  | none =>
    have hsame := scan_append_none hframed k a b hgood hs
    exact hsame ▸ prefix_rfl
  | some s =>
    rw [scan_append hframed k a b hgood hs]
    exact prefix_append _ _

end

end

/-! ## Several streams at once -/

/-- Pieces of several streams, in the order of arrival. -/
abbrev Piece (ι β τ : Type u) := ι × List β × τ

/-- All that arrives on one stream. -/
def laneBytes [DecidableEq ι] (i : ι) (pieces : List (Piece ι β τ)) : List β :=
  (lane i pieces).flatMap Prod.fst

section

variable [DecidableEq ι]

theorem laneBytes_append (i : ι) (a b : List (Piece ι β τ)) :
    laneBytes i (a ++ b) = laneBytes i a ++ laneBytes i b := by
  rw [laneBytes, lane_append, flatMap_append]
  rfl

theorem laneBytes_singleton (i : ι) (piece : Piece ι β τ) :
    laneBytes i [piece] = if piece.1 = i then piece.2.1 else [] := by
  by_cases h : piece.1 = i <;> simp [laneBytes, lane, h]

end

/-- The units in the order in which they become recognisable: what the bytes of a stream contain
beyond what they contained before the piece. -/
def events [DecidableEq ι] (next : ι → κ → List β → Outcome κ υ) (start : ι → κ) :
    (ι → List β) → List (Piece ι β τ) → List (ι × Option υ × τ)
  | _, [] => []
  | arrived, (i, bytes, t) :: pieces =>
      ((scan (next i) (start i) (arrived i ++ bytes)).1.drop
          (scan (next i) (start i) (arrived i)).1.length).map (fun u => (i, u, t)) ++
        events next start (update arrived i (arrived i ++ bytes)) pieces

/-- The units of one stream with the times at which they become recognisable. -/
def arrivals (next : κ → List β → Outcome κ υ) (start : κ) :
    List β → List (List β × τ) → List (Option υ × τ)
  | _, [] => []
  | arrived, (bytes, t) :: pieces =>
      ((scan next start (arrived ++ bytes)).1.drop (scan next start arrived).1.length).map
          (fun u => (u, t)) ++
        arrivals next start (arrived ++ bytes) pieces

/-- The units of a stream are those of its bytes as a whole. -/
theorem map_fst_arrivals {next : κ → List β → Outcome κ υ} {Good : κ → List β → Prop}
    (hframed : Framed next Good) (k : κ) (pieces : List (List β × τ)) (arrived : List β)
    (hgood : Good k (arrived ++ pieces.flatMap Prod.fst)) :
    (scan next k arrived).1 ++ (arrivals next k arrived pieces).map Prod.fst =
      (scan next k (arrived ++ pieces.flatMap Prod.fst)).1 := by
  induction pieces generalizing arrived with
  | nil => rw [arrivals, map_nil, flatMap_nil, append_nil, append_nil]
  | cons piece pieces ih =>
    obtain ⟨bytes, t⟩ := piece
    rw [flatMap_cons, ← append_assoc] at hgood ⊢
    obtain ⟨new, hnew⟩ := scan_mono hframed k arrived bytes (hframed.part hgood)
    rw [← ih _ hgood, arrivals, ← hnew, drop_left, map_append, map_map, ← append_assoc]
    exact congrArg (fun l => _ ++ l ++ _) (map_id new)

section

variable [DecidableEq ι] {next : ι → κ → List β → Outcome κ υ} {start : ι → κ}

/-- **What is recognised on one stream**, and when, depends on the pieces of this stream only. -/
theorem lane_events (i : ι) (pieces : List (Piece ι β τ)) (arrived : ι → List β) :
    lane i (events next start arrived pieces) =
      arrivals (next i) (start i) (arrived i) (lane i pieces) := by
  induction pieces generalizing arrived with
  | nil => rfl
  | cons piece pieces ih =>
    obtain ⟨j, bytes, t⟩ := piece
    rw [events, lane_append, lane_map_mk, lane_cons, ih]
    by_cases hj : j = i
    · subst hj
      rw [if_pos rfl, if_pos rfl, update_self, arrivals]
    · rw [if_neg hj, if_neg hj, update_of_ne (Ne.symm hj), nil_append]

/-- At any moment one stream is no further, and another no less far, than after some pieces. -/
theorem prefix_events {i j : ι} (hij : i ≠ j) (pieces : List (Piece ι β τ))
    (arrived : ι → List β) {es : List (ι × Option υ × τ)}
    (hes : es <+: events next start arrived pieces) :
    ∃ seen, seen <+: pieces ∧
      (lane i es).length ≤ (lane i (events next start arrived seen)).length ∧
      (lane j (events next start arrived seen)).length ≤ (lane j es).length := by
  induction pieces generalizing arrived es with
  | nil =>
    rw [events, prefix_nil] at hes
    subst hes
    exact ⟨[], nil_prefix, Nat.le_refl _, Nat.le_refl _⟩
  | cons piece pieces ih =>
    obtain ⟨d, bytes, t⟩ := piece
    obtain ⟨rest, hrest⟩ := hes
    rcases append_eq_append_iff.1 hrest with ⟨more, hnow, _⟩ | ⟨later, rfl, hlater⟩
    · -- the units of one piece are all of one stream
      have hes : es <+: _ := ⟨more, hnow.symm⟩
      by_cases hd : d = i
      · refine ⟨[(d, bytes, t)], cons_prefix_cons.2 ⟨rfl, nil_prefix⟩, ?_, ?_⟩
        · rw [events, events, append_nil]
          exact (lane_mono i hes).length_le
        · rw [events, events, append_nil, lane_map_mk, if_neg fun h => hij (hd.symm.trans h)]
          exact Nat.zero_le _
      · have hnone := lane_mono i hes
        rw [lane_map_mk, if_neg hd] at hnone
        refine ⟨[], nil_prefix, ?_, Nat.zero_le _⟩
        rw [prefix_nil.1 hnone]
        exact Nat.zero_le _
    · obtain ⟨seen, hseen, hi, hj⟩ := ih _ ⟨rest, hlater.symm⟩
      refine ⟨(d, bytes, t) :: seen, cons_prefix_cons.2 ⟨rfl, hseen⟩, ?_, ?_⟩
      · rw [events, lane_append, lane_append, length_append, length_append]
        exact Nat.add_le_add_left hi _
      · rw [events, lane_append, lane_append, length_append, length_append]
        exact Nat.add_le_add_left hj _

end

/-- How to recognise units, and what to do with them. -/
structure Framer (ι κ β υ τ σ : Type u) where
  next : ι → κ → List β → Outcome κ υ
  handle : σ → ι → υ → τ → σ
  fail : σ → σ
  stop : σ → Bool
  stop_fail : ∀ c, stop (fail c) = true

/-- The buffers of several streams, and what has been made of their units. -/
structure Demux (ι κ β σ : Type u) where
  lanes : ι → Reassembly κ β
  core : σ

namespace Framer

variable (F : Framer ι κ β υ τ σ)

/-- Take units off a buffer and hand them on, until none is recognised or the user stops. -/
def drain (i : ι) (t : τ) : Nat → Reassembly κ β → σ → Option (Reassembly κ β × σ)
  | 0, _, _ => none
  | fuel + 1, s, c =>
      let skipped := s.drainSkip
      if skipped.1 = false then some (skipped.2, c)
      else if skipped.2.buf.isEmpty then some (skipped.2, c)
      else
        match F.next i skipped.2.stage skipped.2.buf with
        | .incomplete => some (skipped.2, c)
        | .invalid => some (skipped.2, F.fail c)
        | .complete u n k =>
            let c := F.handle c i u t
            let s := { skipped.2.advance n with stage := k }
            if F.stop c then some (s, c) else drain i t fuel s c

/-- The buffers in which a unit is looked for while `drain` runs. -/
def tried (i : ι) (t : τ) : Nat → Reassembly κ β → σ → List (List β)
  | 0, _, _ => []
  | fuel + 1, s, c =>
      let skipped := s.drainSkip
      if skipped.1 = false then []
      else if skipped.2.buf.isEmpty then []
      else
        match F.next i skipped.2.stage skipped.2.buf with
        | .incomplete => [skipped.2.buf]
        | .invalid => [skipped.2.buf]
        | .complete u n k =>
            let c := F.handle c i u t
            let s := { skipped.2.advance n with stage := k }
            skipped.2.buf :: if F.stop c then [] else tried i t fuel s c

/-- What the user makes of a unit, or of the news that a stream is invalid. -/
def react (c : σ) (e : ι × Option υ × τ) : σ :=
  if F.stop c then c
  else
    match e.2.1 with
    | some u => F.handle c e.1 u e.2.2
    | none => F.fail c

variable {F}

variable {c : σ} {i : ι} {k : κ} {buf : List β} {u : υ} {n : Nat} {s : Reassembly κ β} (fuel : Nat)

theorem react_of_stop (h : F.stop c = true) (e : ι × Option υ × τ) : F.react c e = c := by
  rw [react, if_pos h]

theorem foldl_react_of_stop (h : F.stop c = true) (es : List (ι × Option υ × τ)) :
    es.foldl F.react c = c := by
  induction es with
  | nil => rfl
  | cons e es ih => rw [foldl_cons, react_of_stop h, ih]

/-- Dropping the unit at the front and going on is what scanning the whole buffer does. -/
theorem scan_advance {k' : κ} (hadv : Advances (F.next i) k buf)
    (h : front (F.next i) k buf = .complete u n k') :
    scan (F.next i) k buf =
      (some u :: (feed (F.next i) { (Reassembly.mk k buf 0).advance n with stage := k' } []).1,
        (feed (F.next i) { (Reassembly.mk k buf 0).advance n with stage := k' } []).2) := by
  by_cases hlong : buf.length < n
  · rw [scan_long h hlong, Reassembly.advance, if_neg (Nat.not_le.2 hlong), feed,
      if_pos (by simp only [append_nil, length_nil]; omega)]
    rfl
  · have hle := Nat.not_lt.1 hlong
    rw [scan_whole hadv h hle, Reassembly.advance, if_pos hle, feed, append_nil]
    rfl

theorem length_advance_lt (hn : 0 < n) (hs : 0 < s.buf.length) :
    (s.advance n).buf.length < s.buf.length := by
  rw [Reassembly.advance]
  split
  · rw [length_drop]
    omega
  · exact hs

/-- Dropping a unit leaves a buffer that still advances. -/
theorem advances_advance {k' : κ} (h : Advances (F.next i) k buf)
    (hfront : front (F.next i) k buf = .complete u n k') :
    Advances (F.next i) k'
      (((Reassembly.mk k buf 0).advance n).buf.drop ((Reassembly.mk k buf 0).advance n).skip) := by
  rw [Reassembly.advance]
  split
  · rename_i hle
    exact h.rest hfront hle
  · rw [drop_nil]
    exact advances_nil k'

/-- The loop returns, hands on what is recognised in the buffer, in order, and unless the user stops
leaves behind what scanning leaves behind. Fuel beyond the buffer's length is enough. -/
theorem drain_eq (i : ι) (t : τ) (fuel : Nat) : ∀ (s : Reassembly κ β) (c : σ),
    F.stop c = false → s.buf.length < fuel →
    Advances (F.next i) s.stage (s.buf.drop s.skip) →
      ∃ r, F.drain i t fuel s c = some r ∧
        r.2 = ((feed (F.next i) s []).1.map fun u => (i, u, t)).foldl F.react c ∧
        (F.stop r.2 = false → (feed (F.next i) s []).2 = some r.1) := by
  induction fuel with
  | zero => exact fun s c _ h => absurd h (Nat.not_lt_zero _)
  | succ fuel ih =>
    intro s c hc hfuel hadv
    rw [drain, feed, append_nil]
    by_cases hskip : s.buf.length < s.skip
    · rw [drainSkip_of_short hskip, if_pos hskip]
      exact ⟨_, rfl, rfl, fun _ => rfl⟩
    · rw [drainSkip_of_long (Nat.not_lt.1 hskip), if_neg hskip]
      simp only [true_eq_false, if_false]
      by_cases hempty : (s.buf.drop s.skip).isEmpty
      · have hfront : front (F.next i) s.stage (s.buf.drop s.skip) = .incomplete := by
          rw [front, if_pos hempty]
        rw [if_pos hempty, scan_incomplete hfront]
        exact ⟨_, rfl, rfl, fun _ => rfl⟩
      · have hfront : front (F.next i) s.stage (s.buf.drop s.skip) =
            F.next i s.stage (s.buf.drop s.skip) := by
          rw [front, if_neg hempty]
        rw [if_neg hempty]
        cases hnext : F.next i s.stage (s.buf.drop s.skip) with
        | incomplete =>
          rw [scan_incomplete (hfront.trans hnext)]
          exact ⟨_, rfl, rfl, fun _ => rfl⟩
        | invalid =>
          rw [scan_invalid (hfront.trans hnext)]
          refine ⟨_, rfl, ?_, fun hgo => ?_⟩
          · exact (if_neg (by rw [hc]; exact false_ne_true)).symm
          · rw [F.stop_fail] at hgo
            cases hgo
        | complete u n k' =>
          have hn := hadv.front (hfront.trans hnext)
          have hlt : ((Reassembly.mk s.stage (s.buf.drop s.skip) 0).advance n).buf.length <
              (s.buf.drop s.skip).length :=
            length_advance_lt hn (length_pos_of_front (hfront.trans hnext))
          have hshort : ((Reassembly.mk s.stage (s.buf.drop s.skip) 0).advance n).buf.length <
              fuel := by
            rw [length_drop] at hlt
            omega
          have hreact : F.react c (i, some u, t) = F.handle c i u t := by
            rw [react, if_neg (by rw [hc]; exact false_ne_true)]
          rw [scan_advance hadv (hfront.trans hnext), map_cons, foldl_cons, hreact]
          dsimp only
          split
          · rename_i hstop
            refine ⟨_, rfl, (foldl_react_of_stop hstop _).symm, fun hgo => ?_⟩
            cases hstop.symm.trans hgo
          · rename_i hgo
            exact ih _ _ (eq_false_iff.2 hgo) hshort (advances_advance hadv (hfront.trans hnext))

/-- The loop looks for units only where reading the stretch does. -/
theorem tried_at (i : ι) (t : τ) (fuel : Nat) : ∀ (s : Reassembly κ β) (c : σ),
    ∀ buf ∈ F.tried i t fuel s c, s.skip ≤ s.buf.length ∧ ∃ n k,
      At (F.next i) s.stage (s.buf.drop s.skip) n k ∧ buf = (s.buf.drop s.skip).drop n := by
  induction fuel with
  | zero => exact nofun
  | succ fuel ih =>
    intro s c buf hbuf
    rw [tried] at hbuf
    by_cases hskip : s.buf.length < s.skip
    · rw [drainSkip_of_short hskip] at hbuf
      cases hbuf
    · have hle := Nat.not_lt.1 hskip
      refine ⟨hle, ?_⟩
      rw [drainSkip_of_long hle] at hbuf
      simp only [true_eq_false, if_false] at hbuf
      have hhere : ∃ n k, At (F.next i) s.stage (s.buf.drop s.skip) n k ∧
          s.buf.drop s.skip = (s.buf.drop s.skip).drop n := ⟨0, _, .start _ _, rfl⟩
      split at hbuf
      · cases hbuf
      · rename_i hempty
        split at hbuf
        · rw [mem_singleton.1 hbuf]
          exact hhere
        · rw [mem_singleton.1 hbuf]
          exact hhere
        · rename_i u n k' hnext
          rcases mem_cons.1 hbuf with rfl | hlater
          · exact hhere
          · split at hlater
            · cases hlater
            · have hfront : front (F.next i) s.stage (s.buf.drop s.skip) = .complete u n k' := by
                rw [front, if_neg hempty, hnext]
              obtain ⟨hwhole, m, l, hm, rfl⟩ := ih _ _ _ hlater
              rw [Reassembly.advance] at hwhole hm ⊢
              split at hwhole
              · rename_i hn
                rw [if_pos hn] at hm ⊢
                exact ⟨n + m, l, .unit hfront hn hm, by rw [← drop_drop]; rfl⟩
              · rename_i hn
                exact absurd (Nat.le_of_sub_eq_zero (Nat.le_zero.1 hwhole)) hn

section

variable [DecidableEq ι] (F)

/-- A piece arrives; once stopped, nothing is read. -/
def step (p : Demux ι κ β σ) (piece : Piece ι β τ) : Option (Demux ι κ β σ) :=
  if F.stop p.core then some p
  else
    let s := (p.lanes piece.1).push piece.2.1
    (F.drain piece.1 piece.2.2 (s.buf.length + 1) s p.core).map fun r =>
      { lanes := update p.lanes piece.1 r.1, core := r.2 }

/-- The buffers in which a unit is looked for while a piece is taken in. -/
def attempts (p : Demux ι κ β σ) (piece : Piece ι β τ) : List (List β) :=
  if F.stop p.core then []
  else
    let s := (p.lanes piece.1).push piece.2.1
    F.tried piece.1 piece.2.2 (s.buf.length + 1) s p.core

/-- Nothing has arrived yet. -/
def fresh (start : ι → κ) (core : σ) : Demux ι κ β σ := ⟨fun i => ⟨start i, [], 0⟩, core⟩

/-- Unless the user has stopped, the buffers hold what scanning all that has arrived leaves. -/
def Holds (start : ι → κ) (arrived : ι → List β) (p : Demux ι κ β σ) : Prop :=
  F.stop p.core = false → ∀ i, (scan (F.next i) (start i) (arrived i)).2 = some (p.lanes i)

variable {F}

variable {p : Demux ι κ β σ} {piece : Piece ι β τ}

/-- A piece after which every unit in the buffer has a length is taken in. -/
theorem step_isSome
    (h : Advances (F.next piece.1) (p.lanes piece.1).stage (((p.lanes piece.1).buf ++
      piece.2.1).drop (p.lanes piece.1).skip)) : (F.step p piece).isSome := by
  rw [step]
  split
  · rfl
  · rename_i hgo
    obtain ⟨r, hr, _⟩ := drain_eq piece.1 piece.2.2 _ ((p.lanes piece.1).push piece.2.1) p.core
      (eq_false_iff.2 hgo) (Nat.lt_succ_self _) h
    dsimp only
    rw [hr]
    rfl

theorem step_lanes_of_ne {p' : Demux ι κ β σ} (h : F.step p piece = some p') {i : ι}
    (hi : i ≠ piece.1) : p'.lanes i = p.lanes i := by
  rw [step] at h
  split at h
  · cases h
    rfl
  · obtain ⟨r, _, rfl⟩ := Option.map_eq_some_iff.1 h
    exact update_of_ne hi _ _

section

variable {Good : ι → κ → List β → Prop} (hframed : ∀ i, Framed (F.next i) (Good i)) {start : ι → κ}
include hframed

variable {p : Demux ι κ β σ} {arrived : ι → List β} (piece : Piece ι β τ)

section

variable (hgood : Good piece.1 (start piece.1) (arrived piece.1 ++ piece.2.1))
  (hp : F.Holds start arrived p)
include hgood hp

/-- One piece: the user sees the units that become recognisable. -/
theorem step_eq :
    ∃ p', F.step p piece = some p' ∧
      p'.core = (((scan (F.next piece.1) (start piece.1) (arrived piece.1 ++ piece.2.1)).1.drop
        (scan (F.next piece.1) (start piece.1) (arrived piece.1)).1.length).map
          fun u => (piece.1, u, piece.2.2)).foldl F.react p.core ∧
      F.Holds start (update arrived piece.1 (arrived piece.1 ++ piece.2.1)) p' := by
  rw [step]
  cases hstop : F.stop p.core with
  | true =>
    -- nothing is read any more, and nothing is made of what is recognised
    rw [foldl_react_of_stop hstop]
    exact ⟨p, rfl, rfl, fun hgo => nomatch hstop.symm.trans hgo⟩
  | false =>
    have hlane := hp hstop piece.1
    have hadv : Advances (F.next piece.1) (p.lanes piece.1).stage
        (((p.lanes piece.1).buf ++ piece.2.1).drop (p.lanes piece.1).skip) := by
      by_cases hskip : (p.lanes piece.1).skip ≤ ((p.lanes piece.1).buf ++ piece.2.1).length
      · obtain ⟨n, hn, hbuf⟩ := at_append (hframed _) _ _ _ hgood hlane hskip
        rw [hbuf]
        exact ((hframed _).advances hgood).at hn
      · rw [drop_of_length_le (Nat.le_of_not_le hskip)]
        exact advances_nil _
    obtain ⟨r, hr, hcore, hrest⟩ :=
      drain_eq piece.1 piece.2.2 _ ((p.lanes piece.1).push piece.2.1) p.core hstop
        (Nat.lt_succ_self _) hadv
    have hscan := scan_append (hframed _) _ _ _ hgood hlane
    refine ⟨⟨update p.lanes piece.1 r.1, r.2⟩, ?_, ?_, fun hgo i => ?_⟩
    · dsimp only
      rw [hr]
      rfl
    · rw [hscan, drop_left, feed_push, hcore]
    · dsimp only
      by_cases hi : i = piece.1
      · subst hi
        rw [update_self, update_self, hscan, feed_push, hrest hgo]
      · rw [update_of_ne hi, update_of_ne hi, hp hstop i]

omit [DecidableEq ι] in
/-- Units are looked for only where reading the stream as a whole does. -/
theorem attempts_at :
    ∀ buf ∈ F.attempts p piece, ∃ n k,
      At (F.next piece.1) (start piece.1) (arrived piece.1 ++ piece.2.1) n k ∧
        buf = (arrived piece.1 ++ piece.2.1).drop n := by
  intro buf hbuf
  rw [attempts] at hbuf
  split at hbuf
  · cases hbuf
  · rename_i hgo
    obtain ⟨hskip, m, k, hm, rfl⟩ := tried_at _ _ _ _ _ _ hbuf
    obtain ⟨n, hn, heq⟩ := at_append (hframed _) _ _ _ hgood (hp (eq_false_iff.2 hgo) piece.1) hskip
    refine ⟨n + m, k, hn.trans (heq ▸ hm), ?_⟩
    rw [← drop_drop, ← heq]
    rfl

end

/-- **The user sees the units of the streams** in the order in which they become recognisable. -/
theorem run_eq (pieces : List (Piece ι β τ)) (p : Demux ι κ β σ) (arrived : ι → List β)
    (hgood : ∀ i, Good i (start i) (arrived i ++ laneBytes i pieces))
    (hp : F.Holds start arrived p) :
    ∃ p', pieces.foldlM F.step p = some p' ∧
      p'.core = (events F.next start arrived pieces).foldl F.react p.core ∧
      F.Holds start (fun i => arrived i ++ laneBytes i pieces) p' := by
  induction pieces generalizing p arrived with
  | nil =>
    refine ⟨p, rfl, rfl, fun hgo i => ?_⟩
    show (scan _ _ (arrived i ++ [])).2 = _
    rw [append_nil]
    exact hp hgo i
  | cons piece pieces ih =>
    have harrived : ∀ i, update arrived piece.1 (arrived piece.1 ++ piece.2.1) i ++
        laneBytes i pieces = arrived i ++ laneBytes i (piece :: pieces) := by
      intro i
      rw [← singleton_append, laneBytes_append, laneBytes_singleton, ← append_assoc]
      by_cases hi : piece.1 = i
      · subst hi
        rw [update_self, if_pos rfl]
      · rw [update_of_ne (Ne.symm hi), if_neg hi, append_nil]
    have hfirst := hgood piece.1
    rw [← harrived, update_self] at hfirst
    obtain ⟨p₁, hstep, hcore, hlanes⟩ := step_eq hframed piece ((hframed _).part hfirst) hp
    obtain ⟨p', hrun, hcore', hlanes'⟩ := ih p₁ _ (fun i => by rw [harrived]; exact hgood i) hlanes
    refine ⟨p', ?_, ?_, ?_⟩
    · rw [foldlM_cons, hstep]
      exact hrun
    · rw [hcore', hcore, events, foldl_append]
    · simp only [← harrived]
      exact hlanes'

end

end

end Framer

end EdgePacer.Lib
