import Mathlib
import Timewheel.Lib.Pipe
import Timewheel.Lib.Run

/-!
# Batches of webhooks

`BatchSender` puts the payloads it accepts into a queue. Its loop collects them
into a batch and hands the batch on to `SendWithRetry`, one payload after the
other, when it is large enough or when the ticker fires. When the context of
the loop is cancelled the loop hands on what is in the batch, with the cancelled
context, and returns; what is in the queue stays there.

Nothing is lost or overtaken on the way (`Pipe`), so the payloads that are
delivered late or never are those that wait somewhere at the moment of the
cancellation. `delivered_iff` says that a run delivers what it has accepted
exactly if there are none.

A payload is at any time in one of four places: the queue, the batch, among
those handed on, or nowhere because it was never accepted. The `Pipe` of the
library is the first three of them in a row, and it guarantees order and that
nothing is doubled. What is added here is when the context was cancelled.
-/

namespace Webhook

variable {P : Type*}

/-! ## The code -/

/-- Where the loop of `Start` is. The loop takes one case of its `select` at a
time. -/
inductive Phase where
  | select
  /-- In `sendBatch`, which is the last one when the context is done. -/
  | sending (last : Bool)
  | returned
  deriving DecidableEq, Repr

/-- The loop is done, or in its last batch. It will not wait for payloads again. -/
def Phase.isLast : Phase → Bool
  | .select => false
  | .sending last => last
  | .returned => true

/-- `BatchSender` and its loop, which has handed on the payloads in `handed`,
each with the context cancelled already or not. `accepted` and `late` are the
payloads for which `Enqueue` has returned nil, before the cancellation and since
then. The last two fields are for the specification; the code does not keep
them. -/
structure BatchSender (P : Type*) where
  pipe : Pipe P
  phase : Phase
  cancelled : Bool
  handed : List (P × Bool)
  accepted : List P
  late : List P

/-- A step of a caller, of the loop, or of the owner of the context. With
`handover` a payload goes to the loop that waits for one. Which case of the
`select` is taken when several are ready is left open. -/
inductive Action (P : Type*) where
  | enqueue (payload : P) (handover : Bool)
  | receive
  | timer
  | done
  | send
  | endBatch
  | cancel
  deriving DecidableEq

namespace BatchSender

/-- `NewBatchSender`, and a loop that has just started. -/
def start : BatchSender P where
  pipe := .empty
  phase := .select
  cancelled := false
  handed := []
  accepted := []
  late := []

/-- `Enqueue` returns nil. This includes payloads that nobody will receive any
more. -/
def accept (s : BatchSender P) (payload : P) (pipe : Pipe P) : BatchSender P :=
  if s.cancelled then { s with pipe := pipe, late := s.late ++ [payload] }
  else { s with pipe := pipe, accepted := s.accepted ++ [payload] }

/-- A payload has been received into the batch. A full batch is sent at once. -/
def received (size : ℕ) (s : BatchSender P) : BatchSender P :=
  { s with phase := if s.pipe.batch.length ≥ size then .sending false else .select }

/-- **The step function.** A full queue turns a payload away. -/
def step (size : ℕ) (s : BatchSender P) : Action P → Option (BatchSender P)
  | .enqueue payload true =>
    if s.phase = .select ∧ s.pipe.queue = [] then
      (s.pipe.push payload).receive.map (fun pipe => (s.accept payload pipe).received size)
    else none
  | .enqueue payload false =>
    if s.pipe.queue.length < size * 2 then some (s.accept payload (s.pipe.push payload))
    else some s
  | .receive =>
    if s.phase = .select then s.pipe.receive.map (fun pipe => { s with pipe := pipe }.received size)
    else none
  | .timer =>
    if s.phase = .select then
      some (if s.pipe.batch.length > 0 then { s with phase := .sending false } else s)
    else none
  | .done =>
    if s.phase = .select ∧ s.cancelled = true then
      some { s with phase := if s.pipe.batch.length > 0 then .sending true else .returned }
    else none
  | .send =>
    match s.phase, s.pipe.batch with
    | .sending _, payload :: _ =>
      s.pipe.emit.map (fun pipe =>
        { s with pipe := pipe, handed := s.handed ++ [(payload, s.cancelled)] })
    | _, _ => none
  | .endBatch =>
    match s.phase, s.pipe.batch with
    | .sending last, [] => some { s with phase := if last then .returned else .select }
    | _, _ => none
  | .cancel => if s.cancelled then none else some { s with cancelled := true }

/-- **What has been accepted is delivered**: each payload accepted before the
cancellation has been handed on once, in order, with a context not yet
cancelled. The context counts, because a payload that is handed on with a
cancelled one is not sent. -/
structure Delivered (s : BatchSender P) : Prop where
  handed : s.accepted.map (fun payload => (payload, false)) <+: s.handed
  once : s.handed.map Prod.fst <+: s.accepted ++ s.late

/-- Nothing waits to be handed on. This is what the condition asks for at the
moment of the cancellation. -/
def Idle (s : BatchSender P) : Prop := s.pipe.batch = [] ∧ s.pipe.queue = []

instance [DecidableEq P] (s : BatchSender P) : Decidable s.Idle :=
  inferInstanceAs (Decidable (_ ∧ _))

end BatchSender

/-! ## What holds along a run -/

open BatchSender

variable {size : ℕ} {s s' t : BatchSender P} {a : Action P}

/-- The invariant of the loop. The third field says that before the cancellation
everything goes out in time. -/
structure Sound (s : BatchSender P) : Prop where
  out : s.pipe.out = s.handed.map Prod.fst
  entered : s.pipe.entered = s.accepted ++ s.late
  early : s.cancelled = false →
    s.late = [] ∧ s.handed = s.pipe.out.map (fun payload => (payload, false))
  last : s.phase.isLast = true → s.cancelled = true

/-- **What a step can do.** Seven actions come down to four kinds of change. -/
inductive Stepped (s : BatchSender P) : Action P → BatchSender P → Prop where
  /-- A payload is accepted, and perhaps received at once. -/
  | accepted {payload : P} {handover : Bool} {pipe : Pipe P} {phase : Phase}
      (hout : pipe.out = s.pipe.out) (hpipe : pipe.entered = s.pipe.entered ++ [payload])
      (hphase : phase.isLast = true → s.phase.isLast = true) :
      Stepped s (.enqueue payload handover) { s.accept payload pipe with phase := phase }
  /-- The loop goes on, or a payload is turned away. -/
  | moved {a : Action P} {pipe : Pipe P} {phase : Phase} (ha : a ≠ .cancel)
      (hout : pipe.out = s.pipe.out) (hpipe : pipe.entered = s.pipe.entered)
      (hphase : phase.isLast = true → s.cancelled = true ∨ s.phase.isLast = true) :
      Stepped s a { s with pipe := pipe, phase := phase }
  /-- A payload is handed on. -/
  | handedOn {payload : P} {pipe : Pipe P} (hout : pipe.out = s.pipe.out ++ [payload])
      (hpipe : pipe.entered = s.pipe.entered) :
      Stepped s .send { s with pipe := pipe, handed := s.handed ++ [(payload, s.cancelled)] }
  /-- The context is cancelled. -/
  | cancelled (h : s.cancelled = false) : Stepped s .cancel { s with cancelled := true }

/-- The inversion of the step function. It is used once, for all the properties
below. -/
theorem stepped_of_step (h : step size s a = some s') : Stepped s a s' := by
  cases a with
  | enqueue payload handover =>
    cases handover with
    | true =>
      -- handed over directly: the message is accepted and received in one step
      unfold step at h
      dsimp only at h
      split_ifs at h with hselect
      obtain ⟨pipe, hpipe, rfl⟩ := Option.map_eq_some_iff.mp h
      have hentered := Pipe.entered_of_receive hpipe
      rw [Pipe.entered_push] at hentered
      refine .accepted ((Pipe.out_of_receive hpipe).trans rfl) hentered (fun hlast => ?_)
      split_ifs at hlast
      · cases hlast
      · cases hlast
    | false =>
      unfold step at h
      dsimp only at h
      split_ifs at h with hroom
      -- there is room in the queue
      · obtain rfl := Option.some.inj h
        have hstepped : Stepped s (.enqueue payload false)
            { s.accept payload (s.pipe.push payload) with phase := s.phase } :=
          .accepted rfl (Pipe.entered_push s.pipe payload) id
        have hphase : { s.accept payload (s.pipe.push payload) with phase := s.phase }
            = s.accept payload (s.pipe.push payload) := by
          unfold accept
          split_ifs
          · rfl
          · rfl
        exact hphase ▸ hstepped
      -- and here there is none: the message is refused
      · exact Option.some.inj h ▸ .moved (fun h => nomatch h) rfl rfl Or.inr
  | receive =>
    unfold step at h
    dsimp only at h
    split_ifs at h with hselect
    obtain ⟨pipe, hpipe, rfl⟩ := Option.map_eq_some_iff.mp h
    refine .moved (fun h => nomatch h) (Pipe.out_of_receive hpipe) (Pipe.entered_of_receive hpipe)
      (fun hlast => ?_)
    split_ifs at hlast
    · cases hlast
    · cases hlast
  | timer =>
    unfold step at h
    dsimp only at h
    split_ifs at h
    · exact Option.some.inj h ▸ .moved (fun h => nomatch h) rfl rfl (fun hlast => nomatch hlast)
    · exact Option.some.inj h ▸ .moved (fun h => nomatch h) rfl rfl Or.inr
  | done =>
    -- the loop leaves with or without a last batch; either way the context is cancelled
    unfold step at h
    dsimp only at h
    split_ifs at h with hdone
    · exact Option.some.inj h ▸ .moved (fun h => nomatch h) rfl rfl (fun _ => Or.inl hdone.2)
    · exact Option.some.inj h ▸ .moved (fun h => nomatch h) rfl rfl (fun _ => Or.inl hdone.2)
  | send =>
    unfold step at h
    dsimp only at h
    split at h
    · next payload batch hphase hbatch =>
      obtain ⟨pipe, hpipe, rfl⟩ := Option.map_eq_some_iff.mp h
      refine .handedOn ?_ (Pipe.entered_of_emit hpipe)
      -- what is handed on is the head of the batch
      unfold Pipe.emit at hpipe
      rw [hbatch] at hpipe
      exact Option.some.inj hpipe ▸ rfl
    · cases h
  | endBatch =>
    unfold step at h
    dsimp only at h
    split at h
    · next last hphase hbatch =>
      obtain rfl := Option.some.inj h
      refine .moved (fun h => nomatch h) rfl rfl (fun hlast => Or.inr ?_)
      rw [hphase]
      cases last with
      | true => rfl
      | false => cases hlast
    · cases h
  | cancel =>
    unfold step at h
    dsimp only at h
    split_ifs at h with hcancelled
    exact Option.some.inj h ▸ .cancelled (Bool.not_eq_true _ ▸ hcancelled)

/-- **A step keeps the invariant.** By the kinds of change. -/
theorem Sound.of_step (h : Sound s) (hstep : step size s a = some s') : Sound s' := by
  obtain ⟨hout, hentered, hearly, hlast⟩ := h
  cases stepped_of_step hstep with
  | @accepted payload handover pipe phase hpipeOut hpipe hphase =>
    unfold accept
    by_cases hc : s.cancelled = true
    · rw [if_pos hc]
      refine ⟨hpipeOut.trans hout, ?_, fun hn => absurd (hc.symm.trans hn) (by decide),
        fun hl => hlast (hphase hl)⟩
      rw [hpipe, hentered, List.append_assoc]
    · rw [if_neg hc]
      have hfalse := Bool.eq_false_iff.mpr hc
      obtain ⟨hnil, hhanded⟩ := hearly hfalse
      refine ⟨hpipeOut.trans hout, ?_, fun _ => ⟨hnil, ?_⟩, fun hl => hlast (hphase hl)⟩
      · dsimp only
        rw [hpipe, hentered, hnil, List.append_nil, List.append_nil]
      · dsimp only
        rw [hpipeOut]
        exact hhanded
  | @moved a pipe phase ha hpipeOut hpipe hphase =>
    refine ⟨hpipeOut.trans hout, hpipe.trans hentered, fun hn => ?_,
      fun hl => (hphase hl).elim id hlast⟩
    dsimp only
    rw [hpipeOut]
    exact hearly hn
  | @handedOn payload pipe hpipeOut hpipe =>
    refine ⟨?_, hpipe.trans hentered, fun hn => ⟨(hearly hn).1, ?_⟩, hlast⟩
    · dsimp only
      rw [hpipeOut, hout, List.map_append]
      rfl
    · dsimp only at hn ⊢
      rw [hpipeOut, List.map_append, (hearly hn).2, hn]
      rfl
  | cancelled hc => exact ⟨hout, hentered, fun hn => (nomatch hn), fun _ => rfl⟩

/-- Each payload has been handed on once at most, in order. Nothing is handed on
that was not accepted. -/
theorem Sound.once (h : Sound s) : s.handed.map Prod.fst <+: s.accepted ++ s.late := by
  rw [← h.out, ← h.entered]
  exact s.pipe.out_prefix

/-- **The cancellation decides.** What is handed on afterwards does not count,
and what has been handed on before is all that has been accepted exactly if
nothing waits. Before the cancellation there is nothing to prove yet. -/
theorem delivered_of_step (h : Sound s) (hstep : step size s a = some s') :
    (s'.cancelled = true → s'.Delivered)
      ↔ (s.cancelled = true → s.Delivered) ∧ (a = .cancel → s.Idle) := by
  have h' := h.of_step hstep
  -- a step that is not the cancellation, and hands nothing on before it
  have hsame : a ≠ .cancel → s'.cancelled = s.cancelled →
      (s.cancelled = true → (s'.Delivered ↔ s.Delivered)) →
      ((s'.cancelled = true → s'.Delivered)
        ↔ (s.cancelled = true → s.Delivered) ∧ (a = .cancel → s.Idle)) := by
    intro ha hc hd
    rw [hc, and_iff_left (fun h => absurd h ha)]
    exact forall_congr' hd
  have hkeeps : s'.accepted = s.accepted → s'.handed = s.handed →
      (s'.Delivered ↔ s.Delivered) := by
    intro haccepted hhanded
    constructor
    · intro hd
      refine ⟨?_, h.once⟩
      rw [← haccepted, ← hhanded]
      exact hd.handed
    · intro hd
      refine ⟨?_, h'.once⟩
      rw [haccepted, hhanded]
      exact hd.handed
  cases stepped_of_step hstep with
  | @accepted payload handover pipe phase hpipeOut hpipe hphase =>
    refine hsame (fun h => nomatch h) ?_ (fun hc => hkeeps ?_ ?_)
    all_goals
      unfold accept
      split_ifs
      all_goals rfl
  | @moved a pipe phase ha hpipeOut hpipe hphase =>
    exact hsame ha rfl (fun _ => hkeeps rfl rfl)
  | @handedOn payload pipe hpipeOut hpipe =>
    refine hsame (fun h => nomatch h) rfl (fun hc => ?_)
    have hiff : s.accepted.map (fun payload => (payload, false))
          <+: s.handed ++ [(payload, s.cancelled)]
        ↔ s.accepted.map (fun payload => (payload, false)) <+: s.handed := by
      rw [List.prefix_concat_iff, hc]
      refine or_iff_right (fun heq => ?_)
      have hmem : (payload, true) ∈ s.accepted.map (fun payload => (payload, false)) := by
        rw [heq]
        exact List.mem_append_right _ List.mem_cons_self
      obtain ⟨_, -, hpair⟩ := List.mem_map.mp hmem
      cases hpair
    exact ⟨fun hd => ⟨hiff.mp hd.handed, h.once⟩, fun hd => ⟨hiff.mpr hd.handed, h'.once⟩⟩
  | cancelled hc =>
    obtain ⟨hnil, hhanded⟩ := h.early hc
    have hentered := h.entered
    rw [hnil, List.append_nil] at hentered
    have hidle : s.accepted.map (fun payload => (payload, false)) <+: s.handed ↔ s.Idle := by
      rw [hhanded, ← hentered]
      constructor
      · intro hprefix
        refine s.pipe.out_eq_entered_iff.mp (s.pipe.out_prefix.eq_of_length ?_)
        refine le_antisymm s.pipe.out_prefix.length_le ?_
        simpa using hprefix.length_le
      · intro hi
        rw [s.pipe.out_eq_entered_iff.mpr hi]
    rw [hc, and_iff_right (fun h => nomatch h)]
    constructor
    · exact fun hd _ => hidle.mp (hd rfl).handed
    · exact fun hi _ => ⟨hidle.mpr (hi rfl), h'.once⟩

/-- Before anything has happened. Nothing has been accepted. -/
theorem sound_start : Sound (start : BatchSender P) :=
  ⟨rfl, rfl, fun _ => ⟨rfl, rfl⟩, fun h => nomatch h⟩

/-- **Exactly the runs that have nothing waiting when the context is cancelled
deliver what they have accepted.** The runs are all interleavings of callers,
the loop and the owner of the context, and the only moment that matters is that
of the cancellation. -/
theorem delivered_iff (size : ℕ) {as : List (Action P)}
    (hrun : Machine.run (step size) start as = some t) (ht : t.phase = .returned) :
    t.Delivered ↔ Machine.Each (step size) (fun s a _ => a = .cancel → s.Idle) start as := by
  have hsound : Sound t := Machine.inv_of_run (G := fun _ _ _ => True)
    (fun s a s' h _ hstep => Sound.of_step h hstep) sound_start
    (Machine.each_of_forall (P := fun _ => True) (fun _ _ => trivial)) hrun
  have hcancelled : t.cancelled = true := hsound.last (by rw [ht]; rfl)
  have hdecided := Machine.iff_each_of_run (D := fun s => s.cancelled = true → s.Delivered)
    (fun s a s' h hstep => Sound.of_step h hstep)
    (fun s a s' h hstep => delivered_of_step h hstep) sound_start hrun
  rw [and_iff_right (fun h => nomatch h)] at hdecided
  exact (forall_prop_of_true hcancelled).symm.trans hdecided

/-- A batch of one that is handed on before the cancellation. -/
theorem delivered_of_sent :
    ∃ t : BatchSender ℕ, Machine.run (step 1) start
        [.enqueue 7 false, .receive, .send, .endBatch, .cancel, .done] = some t
      ∧ t.phase = .returned ∧ t.handed = [(7, false)] ∧ t.Delivered := by
  have hrun : (Machine.run (step 1) (start : BatchSender ℕ)
      [.enqueue 7 false, .receive, .send, .endBatch, .cancel, .done]).map
        (fun s => (s.phase, s.handed)) = some (.returned, [(7, false)]) := by decide +kernel
  obtain ⟨t, ht, hvalues⟩ := Option.map_eq_some_iff.mp hrun
  simp only [Prod.mk.injEq] at hvalues
  refine ⟨t, ht, hvalues.1, hvalues.2, (delivered_iff 1 ht hvalues.1).mpr ?_⟩
  decide +kernel

/-- **A payload in the queue.** It has been accepted, and the loop returns
without a look at the queue. -/
theorem not_delivered_of_queued :
    ∃ t : BatchSender ℕ, Machine.run (step 10) start [.enqueue 7 false, .cancel, .done] = some t
      ∧ t.phase = .returned ∧ t.accepted = [7] ∧ t.handed = [] ∧ ¬ t.Delivered := by
  have hrun : (Machine.run (step 10) (start : BatchSender ℕ)
      [.enqueue 7 false, .cancel, .done]).map (fun s => (s.phase, s.accepted, s.handed))
      = some (.returned, [7], []) := by decide +kernel
  obtain ⟨t, ht, hvalues⟩ := Option.map_eq_some_iff.mp hrun
  simp only [Prod.mk.injEq] at hvalues
  obtain ⟨hreturned, haccepted, hhanded⟩ := hvalues
  refine ⟨t, ht, hreturned, haccepted, hhanded, fun hd => ?_⟩
  have hprefix := hd.handed
  rw [haccepted, hhanded] at hprefix
  exact absurd hprefix (by decide)

end Webhook
