import EdgePacer.Streaming.Journal

/-!
# What producers sent and what the pipeline took

`World` runs the actor beside the list of the lines sent so far, and stamps every checkpoint a
producer sends with the number of lines sent before it: the lines the checkpoint covers. The actor's
checkpoint type is a parameter, so stamps cannot change what it does.

`Intake` is the order of things between producers and the buffer: lines are accepted in the order
they were sent, the blocked line is the next one, those in the channel come after it, and a
checkpoint in the channel covers no line behind it. Once the actor has stopped taking commands, the
accepted lines are still the first ones sent.
-/

namespace EdgePacer.Streaming

open Lib Delivery List StreamingDeliveryPipeline Option

universe u

/-! ## Stamps -/

def StreamCommand.stamp {κ : Type u} (n : Nat) : StreamCommand κ → StreamCommand (κ × Nat)
  | .enqueue line => .enqueue line
  | .setCheckpoint checkpoint => .setCheckpoint (checkpoint, n)
  | .getCheckpoint => .getCheckpoint

def Event.stamp {κ : Type u} (n : Nat) : Event κ → Event (κ × Nat)
  | .send command => .send (command.stamp n)
  | .close => .close
  | .recv env => .recv env
  | .shipped transport confirm retry => .shipped transport confirm retry
  | .tick env => .tick env
  | .settle transport confirm retry => .settle transport confirm retry
  | .takeRemaining env => .takeRemaining env
  | .shutdownDrain env => .shutdownDrain env
  | .overflowElsewhere op => .overflowElsewhere op

/-- The line a command carries. -/
def StreamCommand.line? {κ : Type u} : StreamCommand κ → Option StreamLine
  | .enqueue line => some line
  | _ => none

/-- The lines in the channel, in order. -/
def queuedLines {κ : Type u} (queue : List (StreamCommand κ)) : List StreamLine :=
  queue.filterMap StreamCommand.line?

/-- The line an event sends. -/
def Event.sent? {κ : Type u} : Event κ → Option StreamLine
  | .send command => command.line?
  | _ => none

/-- The actor with the lines that producers have sent. -/
structure World (κ : Type u) where
  actor : Actor (κ × Nat)
  sent : List StreamLine

namespace World

variable {κ : Type u}

/-- An actor over what an earlier process left behind; the checkpoint it persisted covers no line
of this run. -/
def spawn (table : SeqTable Bytes) (bufferMaxMb : Nat) (persisted : Option κ)
    (shipBatchSize shipBatchMaxBytes : Nat) (sourceId : String) (overflow : Option Writer) :
    World κ where
  actor := Actor.spawn (.open table bufferMaxMb (persisted.map fun checkpoint => (checkpoint, 0))
    shipBatchSize shipBatchMaxBytes sourceId overflow)
  sent := []

def pipeline (w : World κ) : StreamingDeliveryPipeline (κ × Nat) := w.actor.pipeline

def journal (w : World κ) : Journal := w.pipeline.journal

/-- One event. A line counts as sent when the channel is still open. -/
def step (w : World κ) (ev : Event κ) : World κ where
  actor := w.actor.step (ev.stamp w.sent.length)
  sent := if w.actor.closed then w.sent else w.sent ++ ev.sent?.toList

end World

/-! ## An environment in which nothing fails -/

variable (now : Nat)

/-- Nothing fails, and a file opened now is named `now`. -/
def EnqueueEnv.calm : EnqueueEnv := ⟨false, ⟨none, now, now + 1, .created⟩⟩

def SaveEnv.calm : SaveEnv := ⟨false, false⟩

def IdleEnv.calm : IdleEnv := ⟨⟨none, now, fun _ => false⟩, .calm⟩

def TickEnv.calm : TickEnv := ⟨0, 0, .calm now, ⟨false, .calm now⟩⟩

def ConfirmEnv.calm : ConfirmEnv := ⟨false, false, .calm now⟩

/-- The receiver takes whatever it is sent. -/
def acceptAll : Transport := fun entries => .ok (.accepted entries.length)

/-- The ship in flight is delivered. -/
def Event.delivered {κ : Type u} (now : Nat) : Event κ := .shipped acceptAll (.calm now) (.calm now)

/-! ## Accepted lines -/

/-- The accepted lines, without their fates. -/
def Journal.lines (j : Journal) : List StreamLine := j.accepted.map Prod.fst

section

variable {κ : Type u} {p q : StreamingDeliveryPipeline κ}

variable {env : EnqueueEnv} {op : Op κ} {outcome : CappedShipOutcome} {sequences : List Nat}

theorem Enqueued.lines {line : StreamLine} {r : Bool × StreamingDeliveryPipeline κ}
    (h : Enqueued p env line r) :
    r.2.journal.lines = p.journal.lines ++ if r.1 then [line] else [] := by
  cases h with
  | blank hblank | buffered hblank hraw htable hstep | spilled hblank hfull hw hwrote =>
    exact map_append
  | refused | failed hw hfault => exact (append_nil _).symm

/-- An elementary operation other than `enqueue`. -/
def Op.Quiet : Op κ → Prop
  | .enqueue _ _ => False
  | _ => True

/-- Only `enqueue` accepts lines. -/
theorem accepted_apply (hop : op.Quiet) : (p.apply op).journal.accepted = p.journal.accepted := by
  have hspec := p.apply_spec op
  generalize p.apply op = q at hspec
  cases hspec with
  | enqueue h => exact hop.elim
  | setPendingCheckpoint checkpoint => rfl
  | settle h => cases h <;> rfl
  | idleHousekeeping h hsaved =>
    rw [hsaved.journal_eq.1]
    cases h <;> rfl
  | saveCheckpointIfPending h => rw [h.journal_eq.1]
  | overflowElsewhere h => cases h <;> rfl

theorem lines_foldl_apply {ops : List (Op κ)} (hops : ∀ op ∈ ops, op.Quiet) :
    (ops.foldl apply p).journal.lines = p.journal.lines := by
  induction ops generalizing p with
  | nil => rfl
  | cons op ops ih =>
    rw [foldl_cons, ih (forall_mem_cons.1 hops).2, Journal.lines,
      accepted_apply (hops op mem_cons_self), Journal.lines]

theorem mem_prepareOps {env : PrepareEnv} (h : op ∈ p.prepareOps env) :
    op = .idleHousekeeping env.idle := by
  rw [prepareOps] at h
  split at h
  · cases h
  · split at h
    · exact mem_singleton.1 h
    · cases h

/-- An outcome comes down to its deletion and the idle housekeeping at most. -/
theorem mem_outcomeOps {env : ConfirmEnv} (h : op ∈ p.outcomeOps env outcome sequences) :
    op = .settle env.deleteFault outcome sequences ∨ op = .idleHousekeeping env.idle := by
  have hconfirm : ∀ ks, op ∈ p.confirmOps env ks → op = .idleHousekeeping env.idle := by
    intro ks hmem
    rw [confirmOps] at hmem
    split at hmem
    · cases hmem
    · split at hmem
      · exact mem_singleton.1 hmem
      · cases hmem
  refine (mem_cons.1 h).imp_right fun hrest => ?_
  cases outcome with
  | deferred reason => cases hrest
  | delivered count | droppedOversized count | rejectedAdjudicated accepted rejected =>
    exact hconfirm _ hrest

theorem Actor.mem_retryOps {blocked : Option StreamLine} (h : op ∈ Actor.retryOps blocked env) :
    ∃ line, blocked = some line ∧ op = .enqueue env line := by
  cases blocked with
  | none => cases h
  | some line => exact ⟨line, rfl, mem_singleton.1 h⟩

theorem Actor.mem_completeOps {a : Actor κ} {transport : Option Transport} {confirm : ConfirmEnv}
    (h : op ∈ a.completeOps transport confirm) :
    (∃ outcome ks, op = .settle confirm.deleteFault outcome ks) ∨
      op = .idleHousekeeping confirm.idle := by
  unfold completeOps at h
  split at h
  · exact (mem_outcomeOps h).imp_left fun heq => ⟨_, _, heq⟩
  · cases h

theorem quiet_prepareOps {env : PrepareEnv} : ∀ op ∈ p.prepareOps env, op.Quiet := by
  intro op h
  rw [mem_prepareOps h]
  trivial

theorem quiet_outcomeOps {env : ConfirmEnv} :
    ∀ op ∈ p.outcomeOps env outcome sequences, op.Quiet := by
  intro op h
  rcases mem_outcomeOps h with rfl | rfl <;> trivial

end

/-! ## The order between producers and the buffer -/

/-- The actor still takes commands from the channel. -/
def Phase.TakesCommands : Phase → Prop
  | .running | .settling | .remaining => True
  | .draining | .stopped => False

/-- Every checkpoint in the channel covers at most the `n` lines before the channel and the lines
before it in the channel. -/
def StampsFit {κ : Type u} : Nat → List (StreamCommand (κ × Nat)) → Prop
  | _, [] => True
  | n, command :: queue =>
      (∀ checkpoint, command = .setCheckpoint checkpoint → checkpoint.2 ≤ n) ∧
        StampsFit (n + command.line?.toList.length) queue

theorem StampsFit.snoc {κ : Type u} {command : StreamCommand (κ × Nat)}
    {queue : List (StreamCommand (κ × Nat))} :
    ∀ {n : Nat}, StampsFit n queue →
      (∀ checkpoint, command = .setCheckpoint checkpoint →
        checkpoint.2 ≤ n + (queuedLines queue).length) → StampsFit n (queue ++ [command]) := by
  induction queue with
  | nil => exact fun _ h => ⟨by simpa [queuedLines] using h, trivial⟩
  | cons c queue ih =>
    intro n h hc
    refine ⟨h.1, ih h.2 ?_⟩
    intro checkpoint heq
    have hle := hc checkpoint heq
    cases hline : c.line? with
    | none => simpa [queuedLines, hline] using hle
    | some line =>
      simp only [queuedLines, filterMap_cons, hline, length_cons] at hle
      simp only [toList_some, length_singleton, queuedLines]
      omega

/-- Lines are accepted in the order they were sent; the blocked line is next, then the channel. -/
structure Actor.Intake {κ : Type u} (a : Actor (κ × Nat)) (sent : List StreamLine) : Prop where
  lines : a.phase.TakesCommands →
    sent = a.pipeline.journal.lines ++ (a.blocked.toList ++ queuedLines a.queue)
  first : a.pipeline.journal.lines <+: sent
  stamps : a.phase.TakesCommands →
    StampsFit (a.pipeline.journal.lines.length + a.blocked.toList.length) a.queue
  unblocked : a.phase = .remaining → a.blocked = none

namespace Actor

variable {κ : Type u} {a a' : Actor (κ × Nat)} {sent : List StreamLine}

/-- `Intake` looks at the accepted lines, the blocked line, the channel and the phase. -/
theorem Intake.of_eq (h : a.Intake sent)
    (hlines : a'.pipeline.journal.lines = a.pipeline.journal.lines)
    (hblocked : a'.blocked = a.blocked) (hqueue : a'.queue = a.queue)
    (htakes : a'.phase.TakesCommands → a.phase.TakesCommands)
    (hremaining : a'.phase = .remaining → a.phase = .remaining) : a'.Intake sent where
  lines hp := by rw [hlines, hblocked, hqueue]; exact h.lines (htakes hp)
  first := by rw [hlines]; exact h.first
  stamps hp := by rw [hlines, hblocked, hqueue]; exact h.stamps (htakes hp)
  unblocked hp := by rw [hblocked]; exact h.unblocked (hremaining hp)

/-- A retried line stays the next one, or joins the accepted ones. -/
theorem retryBlocked_spec (a : Actor (κ × Nat)) (env : EnqueueEnv) :
    (a.retryBlocked env).pipeline.journal.lines ++ (a.retryBlocked env).blocked.toList =
        a.pipeline.journal.lines ++ a.blocked.toList ∧
      (a.retryBlocked env).queue = a.queue ∧ (a.retryBlocked env).phase = a.phase ∧
      (a.blocked = none → (a.retryBlocked env).blocked = none) := by
  rw [retryBlocked]
  cases hb : a.blocked with
  | none => exact ⟨by rw [hb], rfl, rfl, fun _ => hb⟩
  | some line =>
    have hlines := (a.pipeline.enqueue_spec env line).lines
    refine ⟨?_, rfl, rfl, by simp⟩
    dsimp only
    rw [hlines]
    cases (a.pipeline.enqueue env line).1 <;> simp

/-- While commands are taken, the other facts follow from the order of the lines. -/
theorem Intake.of_lines
    (hlines : sent = a.pipeline.journal.lines ++ (a.blocked.toList ++ queuedLines a.queue))
    (hstamps : StampsFit (a.pipeline.journal.lines.length + a.blocked.toList.length) a.queue)
    (hunblocked : a.phase = .remaining → a.blocked = none) : a.Intake sent :=
  ⟨fun _ => hlines, hlines ▸ prefix_append _ _, fun _ => hstamps, hunblocked⟩

theorem Intake.retryBlocked (h : a.Intake sent) (hp : a.phase.TakesCommands) (env : EnqueueEnv) :
    (a.retryBlocked env).Intake sent := by
  obtain ⟨hlines, hqueue, hphase, hnone⟩ := a.retryBlocked_spec env
  have hlen := congrArg List.length hlines
  rw [length_append, length_append] at hlen
  apply Intake.of_lines
  · rw [← append_assoc, hlines, hqueue, append_assoc]
    exact h.lines hp
  · rw [hlen, hqueue]
    exact h.stamps hp
  · intro hr
    exact hnone (h.unblocked (hphase ▸ hr))

theorem Intake.complete (h : a.Intake sent) (transport : Option Transport) (confirm : ConfirmEnv) :
    (a.complete transport confirm).Intake sent := by
  obtain ⟨hblocked, hqueue, hphase⟩ := a.complete_frame transport confirm
  refine h.of_eq ?_ hblocked hqueue (by rw [hphase]; exact id) (by rw [hphase]; exact id)
  rw [complete_pipeline]
  apply lines_foldl_apply
  unfold completeOps
  split
  · exact quiet_outcomeOps
  · simp

theorem Intake.startShip (h : a.Intake sent) (env : PrepareEnv) :
    (a.startShip env).Intake sent := by
  have hframe : (a.startShip env).blocked = a.blocked ∧ (a.startShip env).queue = a.queue ∧
      (a.startShip env).phase = a.phase := by
    rw [Actor.startShip]
    split
    · exact ⟨rfl, rfl, rfl⟩
    · split <;> exact ⟨rfl, rfl, rfl⟩
  refine h.of_eq ?_ hframe.1 hframe.2.1 (by rw [hframe.2.2]; exact id)
    (by rw [hframe.2.2]; exact id)
  rw [startShip_pipeline]
  apply lines_foldl_apply
  split
  · simp
  · exact quiet_prepareOps

/-- A command leaves the channel: its line is accepted or refused. -/
theorem handle_spec (a : Actor (κ × Nat)) (env : EnqueueEnv) (command : StreamCommand (κ × Nat)) :
    (a.handle env command).2.pipeline.journal.lines ++ (a.handle env command).1.toList =
        a.pipeline.journal.lines ++ command.line?.toList ∧
      (a.handle env command).2.queue = a.queue ∧ (a.handle env command).2.phase = a.phase ∧
      (a.handle env command).2.blocked = a.blocked := by
  cases command with
  | enqueue line =>
    have hlines := (a.pipeline.enqueue_spec env line).lines
    refine ⟨?_, rfl, rfl, rfl⟩
    rw [handle]
    dsimp only
    rw [hlines]
    cases (a.pipeline.enqueue env line).1 <;> simp [StreamCommand.line?]
  | setCheckpoint checkpoint | getCheckpoint => exact ⟨rfl, rfl, rfl, rfl⟩

variable (command : StreamCommand (κ × Nat))

theorem queuedLines_cons (queue : List (StreamCommand (κ × Nat))) :
    queuedLines (command :: queue) = command.line?.toList ++ queuedLines queue := by
  rw [queuedLines, filterMap_cons]
  cases command.line? <;> rfl

variable (h : a.Intake sent)

include h

/-- Taking a command keeps the order; a refused line is the next one. -/
theorem Intake.handle (hp : a.phase.TakesCommands) (hb : a.blocked = none)
    {command : StreamCommand (κ × Nat)} {queue : List (StreamCommand (κ × Nat))}
    (hq : a.queue = command :: queue) (env : EnqueueEnv) :
    let handled := { a with queue := queue }.handle env command
    sent = handled.2.pipeline.journal.lines ++ (handled.1.toList ++ queuedLines handled.2.queue) ∧
      StampsFit (handled.2.pipeline.journal.lines.length + handled.1.toList.length)
        handled.2.queue := by
  obtain ⟨hlines, hqueue, -, -⟩ := { a with queue := queue }.handle_spec env command
  have hlen := congrArg List.length hlines
  rw [length_append, length_append] at hlen
  have hsent := h.lines hp
  have hstamps := h.stamps hp
  rw [hb, hq, toList_none, nil_append, queuedLines_cons] at hsent
  rw [hb, hq] at hstamps
  constructor
  · rw [← append_assoc, hlines, hqueue, hsent, append_assoc]
  · rw [hlen, hqueue]
    exact hstamps.2

theorem Intake.recv (hphase : a.phase = .running) (env : EnqueueEnv) :
    (a.recv env).Intake sent := by
  have htakes : a.phase.TakesCommands := by rw [hphase]; trivial
  rw [Actor.recv]
  by_cases hb : a.blocked = none
  · rw [if_neg (by simp [hb])]
    split
    · split
      · exact h.of_eq rfl rfl rfl (fun _ => htakes) (by simp)
      · exact h
    · rename_i command queue hq
      obtain ⟨hsent, hstamps⟩ := h.handle htakes hb hq env
      have hspec := ({ a with queue := queue } : Actor (κ × Nat)).handle_spec env command
      refine Intake.of_lines hsent hstamps fun hr => ?_
      -- the loop is running, not emptying the channel
      cases hr.symm.trans (hspec.2.2.1.trans hphase)
  · rw [if_pos (isSome_iff_ne_none.2 hb)]
    exact h

theorem Intake.takeRemaining (hphase : a.phase = .remaining) (env : EnqueueEnv) :
    (a.takeRemaining env).Intake sent := by
  have htakes : a.phase.TakesCommands := by rw [hphase]; trivial
  have hb := h.unblocked hphase
  rw [Actor.takeRemaining]
  split
  · exact h.of_eq rfl rfl rfl (fun hp => hp.elim) (by simp)
  · rename_i command queue hq
    obtain ⟨hsent, hstamps⟩ := h.handle htakes hb hq env
    obtain ⟨-, -, hsame, hblocked⟩ := ({ a with queue := queue } : Actor (κ × Nat)).handle_spec env
      command
    by_cases href : ({ a with queue := queue }.handle env command).1.isSome = true
    · -- the refused line and what is behind it are abandoned
      rw [if_pos href]
      refine ⟨fun hp => hp.elim, ?_, fun hp => hp.elim, by simp⟩
      rw [hsent]
      exact prefix_append _ _
    · rw [if_neg href]
      have hnone : ({ a with queue := queue }.handle env command).1 = none := by simpa using href
      rw [hnone] at hsent hstamps
      have hb' := hblocked.trans hb
      apply Intake.of_lines
      · rw [hb']
        exact hsent
      · rw [hb']
        exact hstamps
      · exact fun _ => hb'

theorem Intake.tick (hphase : a.phase = .running) (env : TickEnv) : (a.tick env).Intake sent := by
  have htakes : a.phase.TakesCommands := by rw [hphase]; trivial
  have hship := (h.retryBlocked htakes env.retry).startShip env.prepare
  rw [Actor.tick]
  generalize hs : (a.retryBlocked env.retry).startShip env.prepare = s at hship
  have hrun : s.phase = .running := by
    rw [← hs, Actor.startShip]
    have hsame := (a.retryBlocked_spec env.retry).2.2.1.trans hphase
    split
    · exact hsame
    · split <;> exact hsame
  have hs' : s.phase.TakesCommands := by rw [hrun]; trivial
  rw [checkWedged]
  split
  · refine hship.of_eq rfl rfl rfl (fun _ => hs') ?_
    intro hr
    dsimp only at hr
    rw [hrun] at hr
    split at hr <;> cases hr
  · exact hship.of_eq rfl rfl rfl id id

theorem Intake.settle (hphase : a.phase = .settling) (transport : Option Transport)
    (confirm : ConfirmEnv) (retry : EnqueueEnv) :
    (a.settle transport confirm retry).Intake sent := by
  have hcomplete := h.complete transport confirm
  have htakes : (a.complete transport confirm).phase.TakesCommands := by
    rw [(a.complete_frame _ _).2.2, hphase]
    trivial
  have hretried := hcomplete.retryBlocked htakes retry
  have hphase' := (((a.complete transport confirm).retryBlocked_spec retry).2.2.1)
  rw [Actor.settle]
  generalize (a.complete transport confirm).retryBlocked retry = r at hretried hphase'
  have hr : r.phase.TakesCommands := by rw [hphase']; exact htakes
  refine ⟨fun _ => hretried.lines hr, hretried.first, fun _ => hretried.stamps hr, ?_⟩
  intro hrem
  by_contra hne
  rw [if_pos (isSome_iff_ne_none.2 hne)] at hrem
  cases hrem

theorem Intake.shutdownDrain (hphase : a.phase = .draining) (env : ShutdownEnv) :
    (a.shutdownDrain env).Intake sent := by
  have hlines : (a.shutdownDrain env).pipeline.journal.lines = a.pipeline.journal.lines := by
    rw [shutdownDrain_pipeline]
    apply lines_foldl_apply
    rw [shutdownOps]
    split
    · simp [Op.Quiet]
    · split
      · simp [Op.Quiet]
      · split
        · exact quiet_prepareOps
        · exact quiet_outcomeOps
  have hphase' : (a.shutdownDrain env).phase = .draining ∨
      (a.shutdownDrain env).phase = .stopped := by
    rw [Actor.shutdownDrain]
    split
    · exact .inr rfl
    · split
      · exact .inr rfl
      · exact .inl hphase
  have hno : ¬ (a.shutdownDrain env).phase.TakesCommands := by
    rcases hphase' with hp | hp <;> rw [hp] <;> exact id
  refine ⟨fun hp => (hno hp).elim, ?_, fun hp => (hno hp).elim, fun hp => ?_⟩
  · rw [hlines]
    exact h.first
  · exact (hno (by rw [hp]; trivial)).elim

end Actor

open Actor

namespace World

variable {κ : Type u}

/-- The order between producers and the buffer, in a world. -/
def Intake (w : World κ) : Prop := w.actor.Intake w.sent

theorem intake_spawn (table : SeqTable Bytes) (bufferMaxMb : Nat) (persisted : Option κ)
    (shipBatchSize shipBatchMaxBytes : Nat) (sourceId : String) (overflow : Option Writer) :
    (spawn table bufferMaxMb persisted shipBatchSize shipBatchMaxBytes sourceId overflow).Intake :=
  Intake.of_lines rfl trivial (fun _ => rfl)

variable {w : World κ}

theorem Intake.send (h : w.Intake) (command : StreamCommand κ) :
    (w.step (.send command)).Intake := by
  rw [step, Event.stamp, Actor.step]
  by_cases hc : w.actor.closed = true
  · rw [if_pos hc, if_pos hc]
    exact h
  · rw [if_neg hc, if_neg hc]
    have hline : (Event.send command).sent? = (command.stamp w.sent.length).line? := by
      cases command <;> rfl
    rw [hline]
    have hqueue : queuedLines (w.actor.queue ++ [command.stamp w.sent.length]) =
        queuedLines w.actor.queue ++ (command.stamp w.sent.length).line?.toList := by
      rw [queuedLines, filterMap_append]
      cases command <;> rfl
    refine ⟨?_, h.first.trans (prefix_append _ _), ?_, h.unblocked⟩
    · intro hp
      rw [hqueue, ← append_assoc, ← append_assoc,
        append_assoc w.actor.pipeline.journal.lines, ← h.lines hp]
    · intro hp
      apply (h.stamps hp).snoc
      intro checkpoint heq
      have hstamp : checkpoint.2 = w.sent.length := by
        cases command with
        | enqueue line => cases heq
        | setCheckpoint c => cases heq; rfl
        | getCheckpoint => cases heq
      have hlen := congrArg List.length (h.lines hp)
      rw [length_append, length_append] at hlen
      omega

theorem Intake.step (h : w.Intake) (ev : Event κ) : (w.step ev).Intake := by
  have hsame : ev.sent? = none → (w.step ev).sent = w.sent := by
    intro hnone
    rw [World.step]
    rw [hnone, toList_none, append_nil, ite_self]
  have hmono : ∀ {a : Actor (κ × Nat)}, ev.sent? = none →
      w.actor.step (ev.stamp w.sent.length) = a → a.Intake w.sent → (w.step ev).Intake := by
    intro a hnone ha hI
    rw [Intake, hsame hnone, World.step, ha]
    exact hI
  -- outside of its phase an event is ignored
  have hphase : ∀ {c : Prop} [Decidable c] {a : Actor (κ × Nat)}, (c → a.Intake w.sent) →
      (if c then a else w.actor).Intake w.sent := by
    intro c _ a hI
    split
    · next hc => exact hI hc
    · exact h
  cases ev with
  | send command => exact h.send command
  | close => exact hmono rfl rfl (h.of_eq rfl rfl rfl id id)
  | recv env => exact hmono rfl rfl (hphase fun hp => Intake.recv h hp env)
  | shipped transport confirm retry =>
    refine hmono rfl rfl (hphase fun hp => hphase fun _ => ?_)
    apply (Intake.complete h (some transport) confirm).retryBlocked
    rw [(w.actor.complete_frame _ _).2.2, hp]
    trivial
  | tick env => exact hmono rfl rfl (hphase fun hp => Intake.tick h hp env)
  | settle transport confirm retry =>
    exact hmono rfl rfl (hphase fun hp => Intake.settle h hp transport confirm retry)
  | takeRemaining env => exact hmono rfl rfl (hphase fun hp => Intake.takeRemaining h hp env)
  | shutdownDrain env => exact hmono rfl rfl (hphase fun hp => Intake.shutdownDrain h hp env)
  | overflowElsewhere op =>
    have hlines : (w.actor.pipeline.apply (.overflowElsewhere op)).journal.lines =
        w.actor.pipeline.journal.lines := congrArg (List.map Prod.fst) (accepted_apply trivial)
    exact hmono rfl rfl (h.of_eq hlines rfl rfl id id)

end World

end EdgePacer.Streaming
