import Mathlib.Data.List.Infix
import Runbook.Proofs.Copy.Responses
/-!
# Exchanges come to rest

The sender and the receiver of a copy take turns until neither of them goes on.  This file says that
they get there, with any source and any far end, and what each of them has done by then: a report
comes of what its task was given by the other one, and a task that has not reported waits for more.

* `Script.chunks_playSteps` — what a command has written stays written when it is given more;
* `Sending.written_prefix` — so does what a sender has written that was waiting;
* `Exchange.Going` — what holds of both at every time, and `Going.settle` that it does;
* `Exchange.Steady`, `Exchange.steady_settle` — neither goes on any more: a round that is not the
  last one lets the sender write its second part or report;
* `Exchange.Rests`, `Exchange.rests_run` — the end of an exchange.
-/

namespace Runbook

/-! ### Commands that are given more -/

theorem bytesOn_prefix {stream : Stream} {chunks more : List Chunk} (h : chunks <+: more) :
    bytesOn stream chunks <+: bytesOn stream more := by
  obtain ⟨rest, rfl⟩ := h
  exact ⟨bytesOn stream rest, by simp [bytesOn]⟩

/-- What a command has written stays written when it is given more. -/
theorem Remote.Script.chunks_playSteps (result : Except SshError Unit)
    (steps : List Remote.FarStep) {given more : Remote.Given} (hbytes : given.bytes <+: more.bytes)
    (hended : given.ended = true → more.ended = true) :
    (playSteps result steps given).chunks <+: (playSteps result steps more).chunks := by
  induction steps generalizing given more with
  | nil => exact List.prefix_refl _
  | cons step rest ih =>
    cases step with
    | output bytes => exact (List.prefix_cons_inj _).2 (ih hbytes hended)
    | errorOutput bytes => exact (List.prefix_cons_inj _).2 (ih hbytes hended)
    | readLine =>
      rcases hsplit : Copy.Response.splitLine? given.bytes with _ | ⟨line, left⟩
      · have hnothing : (playSteps result (.readLine :: rest) given).chunks = [] := by
          rw [playSteps, hsplit]
          dsimp only
          split <;> rfl
        rw [hnothing]
        exact List.nil_prefix
      · obtain ⟨tail, htail⟩ := hbytes
        obtain ⟨hline, hgiven⟩ := Copy.Response.splitLine?_eq_some_iff.1 hsplit
        have hmore : Copy.Response.splitLine? more.bytes = some (line, left ++ tail) := by
          refine Copy.Response.splitLine?_eq_some_iff.2 ⟨hline, ?_⟩
          rw [← htail, hgiven, List.append_assoc, List.cons_append]
        rw [playSteps, playSteps, hsplit, hmore]
        exact ih (List.prefix_append left tail) hended
    | read count =>
      by_cases hcount : count ≤ given.bytes.length
      · rw [playSteps, playSteps, if_pos hcount, if_pos (Nat.le_trans hcount hbytes.length_le)]
        exact ih (hbytes.drop count) hended
      · have hnothing : (playSteps result (.read count :: rest) given).chunks = [] := by
          rw [playSteps, if_neg hcount]
          split <;> rfl
        rw [hnothing]
        exact List.nil_prefix
    | readAll =>
      by_cases hend : given.ended = true
      · rw [playSteps, playSteps, if_pos hend, if_pos (hended hend)]
        exact ih (List.prefix_refl _) hended
      · rw [playSteps, if_neg hend]
        exact List.nil_prefix
    | holdOutput milliseconds => exact ih hbytes hended
    | waitClose => exact List.prefix_refl _

namespace Copy

open Remote (Script)

/-! ### Senders that are given more -/

namespace Sending

variable {s : Sending} {room : Option Nat} {answers : Answers}

/-- Where a sender waits: behind its announcement, or behind everything, when the announcement was
answered with a success. -/
theorem waits_cases (hwaits : (s.progress room answers).outcome = none) :
    (s.progress room answers).written = s.header ∨
      (s.progress room answers).written = s.whole ∧ s.size ≤ s.source.bytes.length ∧
        ∃ more, answers.bytes = 0 :: more := by
  unfold progress at hwaits ⊢
  split at hwaits
  · cases hwaits
  · next hroom =>
    rw [if_neg hroom]
    split at hwaits
    · exact .inl rfl
    · cases hwaits
    · next left hfirst =>
      right
      unfold deliver at hwaits ⊢
      dsimp only at hwaits ⊢
      split at hwaits
      · cases hwaits
      · next hfits =>
        rw [if_neg hfits]
        split at hwaits
        · split at hwaits <;> cases hwaits
        · next hsize =>
          rw [if_neg hsize]
          unfold finish at hwaits ⊢
          dsimp only at hwaits ⊢
          split at hwaits
          · cases hwaits
          · next hmark =>
            rw [if_neg hmark, eq_of_acknowledge hfirst]
            exact ⟨rfl, Nat.le_of_not_lt hsize, _, rfl⟩

/-- What a sender has written that waits stays written when it is answered more. -/
theorem written_prefix {room' : Option Nat} {answers' : Answers}
    (hwaits : (s.progress room answers).outcome = none) (hmore : answers.bytes <+: answers'.bytes)
    (hroom : fits room' (s.progress room answers).written.length = true) :
    (s.progress room answers).written <+: (s.progress room' answers').written := by
  rcases waits_cases hwaits with hheader | ⟨hwhole, hsize, more, hfirst⟩
  · rw [hheader] at hroom ⊢
    exact s.header_prefix_progress hroom _
  · rw [hwhole] at hroom ⊢
    obtain ⟨tail, htail⟩ := hmore
    obtain ⟨bytes, ended⟩ := answers'
    have hbytes : bytes = 0 :: (more ++ tail) := by rw [hfirst] at htail; exact htail.symm
    rw [hbytes, progress_of_confirmed hsize hroom]

end Sending

/-! ### What holds at every time -/

namespace Exchange

variable {sending : Sending} {script : Script} {x : Exchange}

/-- What the receiver has answered. -/
def answered (x : Exchange) : List UInt8 :=
  bytesOn .stdout x.played.chunks

/-- What the pipe takes: any bytes, until the receiver has gone. -/
def room (x : Exchange) : Option Nat :=
  if x.played.outcome.isSome then some x.written.length else none

/-- What the sender has done comes of answers that the receiver has given: all of them up to some
place, and their end only behind the end of the receiver, where the pipe breaks. -/
def Sends (sending : Sending) (x : Exchange) : Prop :=
  ∃ room answers, answers.bytes <+: x.answered ∧
    (answers.ended = true → x.played.outcome.isSome = true) ∧
    (room ≠ none → x.played.outcome.isSome = true) ∧
    sending.progress room answers = ⟨x.written, x.sender⟩

/-- What the receiver has done comes of bytes that the sender has written: all of them up to some
place, and their end only behind the report of the sender. -/
def Receives (script : Script) (x : Exchange) : Prop :=
  ∃ given : Remote.Given, given.bytes <+: x.written ∧
    (given.ended = true → x.sender.isSome = true) ∧ given.closed = false ∧
    script.play given = x.played

/-- What holds of sender and receiver at every time; the receiver may have had no turn yet. -/
structure Going (sending : Sending) (script : Script) (x : Exchange) : Prop where
  sends : x.Sends sending
  receives : x.played = {} ∨ x.Receives script

theorem receiverTurn_of_none (h : x.played.outcome = none) (script : Script) :
    x.receiverTurn script
      = { x with
          played := script.play { bytes := x.written, ended := x.sender.isSome }
          reports := x.reports ++
            ((script.play { bytes := x.written, ended := x.sender.isSome }).outcome.map
              receiverReport).toList } := by
  rw [receiverTurn, h]

theorem receiverTurn_of_some {o : Except SshError Unit} (h : x.played.outcome = some o)
    (script : Script) : x.receiverTurn script = x := by
  rw [receiverTurn, h]

theorem senderTurn_of_none (h : x.sender = none) (sending : Sending) (late : Bool) :
    x.senderTurn sending late
      = { x with
          written := (sending.progress x.room (x.answers late)).written
          sender := (sending.progress x.room (x.answers late)).outcome
          reports := x.reports ++ (sending.progress x.room (x.answers late)).outcome.toList } := by
  rw [senderTurn, h]
  rfl

theorem senderTurn_of_some {r : Report} (h : x.sender = some r) (sending : Sending)
    (late : Bool) : x.senderTurn sending late = x := by
  rw [senderTurn, h]

theorem written_receiverTurn (x : Exchange) (script : Script) :
    (x.receiverTurn script).written = x.written := by
  unfold receiverTurn
  split <;> rfl

theorem sender_receiverTurn (x : Exchange) (script : Script) :
    (x.receiverTurn script).sender = x.sender := by
  unfold receiverTurn
  split <;> rfl

theorem played_senderTurn (x : Exchange) (sending : Sending) (late : Bool) :
    (x.senderTurn sending late).played = x.played := by
  unfold senderTurn
  split <;> rfl

namespace Going

theorem start (sending : Sending) (script : Script) :
    Going sending script (senderTurn sending false {}) := by
  rw [senderTurn_start]
  exact ⟨⟨none, {}, List.nil_prefix, nofun, fun h => absurd rfl h, rfl⟩, .inl rfl⟩

/-- The receiver goes on; what it has answered before stays answered. -/
theorem receiverTurn (h : Going sending script x) :
    Going sending script (x.receiverTurn script) := by
  cases houtcome : x.played.outcome with
  | some o => rwa [receiverTurn_of_some houtcome]
  | none =>
    have hanswered : x.answered
        <+: bytesOn .stdout (script.play { bytes := x.written, ended := x.sender.isSome }).chunks := by
      rcases h.receives with hnothing | ⟨given, hbytes, hended, -, hplayed⟩
      · rw [answered, hnothing]
        exact List.nil_prefix
      · rw [answered, ← hplayed]
        exact bytesOn_prefix (Script.chunks_playSteps _ _ hbytes hended)
    obtain ⟨room, answers, hbytes, hended, hroom, hprogress⟩ := h.sends
    rw [houtcome] at hended hroom
    rw [receiverTurn_of_none houtcome]
    refine ⟨⟨room, answers, hbytes.trans hanswered, fun hend => ?_, fun hbreaks => ?_, hprogress⟩,
      .inr ⟨_, List.prefix_refl _, id, rfl, rfl⟩⟩
    · exact absurd (hended hend) Bool.false_ne_true
    · exact absurd (hroom hbreaks) Bool.false_ne_true

/-- What a sender has written that waits stays written. -/
theorem written_prefix (h : Going sending script x) (hsender : x.sender = none) (late : Bool) :
    x.written <+: (sending.progress x.room (x.answers late)).written := by
  obtain ⟨room, answers, hbytes, -, -, hprogress⟩ := h.sends
  have hwaits : (sending.progress room answers).outcome = none := by rw [hprogress, hsender]
  have hfits : Sending.fits x.room (sending.progress room answers).written.length = true := by
    rw [hprogress, Exchange.room]
    split <;> simp [Sending.fits]
  have hprefix : (sending.progress room answers).written
      <+: (sending.progress x.room (x.answers late)).written :=
    Sending.written_prefix hwaits hbytes hfits
  rwa [hprogress] at hprefix

/-- The sender goes on. -/
theorem senderTurn (h : Going sending script x) (late : Bool) :
    Going sending script (x.senderTurn sending late) := by
  cases hsender : x.sender with
  | some r => rwa [senderTurn_of_some hsender]
  | none =>
    have hwritten := h.written_prefix hsender late
    have hended : (x.answers late).ended = true → x.played.outcome.isSome = true := by
      intro hend
      exact (Bool.and_eq_true_iff.1 hend).1
    have hroom : x.room ≠ none → x.played.outcome.isSome = true := by
      intro hbreaks
      by_contra hgoes
      exact hbreaks (if_neg hgoes)
    rw [senderTurn_of_none hsender]
    refine ⟨⟨x.room, x.answers late, List.prefix_refl _, hended, hroom, rfl⟩,
      h.receives.imp_right ?_⟩
    rintro ⟨given, hbytes, hend, hclosed, hplayed⟩
    refine ⟨given, hbytes.trans hwritten, fun hgiven => ?_, hclosed, hplayed⟩
    rw [hsender] at hend
    exact absurd (hend hgiven) Bool.false_ne_true

theorem settle (h : Going sending script x) (rounds : Nat) :
    Going sending script (Exchange.settle sending script rounds x) := by
  induction rounds generalizing x with
  | zero => exact h
  | succ rounds ih => exact ih (h.receiverTurn.senderTurn false)

end Going

/-! ### Rounds -/

/-- Neither side goes on any more. -/
def Steady (sending : Sending) (script : Script) (x : Exchange) : Prop :=
  (x.receiverTurn script).senderTurn sending false = x

theorem settle_of_steady (h : Steady sending script x) (rounds : Nat) :
    settle sending script rounds x = x := by
  induction rounds with
  | zero => rfl
  | succ rounds ih =>
    have hround : (x.receiverTurn script).senderTurn sending false = x := h
    rw [settle, hround, ih]

/-- A round in which the sender neither writes nor reports is the last one. -/
theorem steady_of_same {y : Exchange} (hy : (x.receiverTurn script).senderTurn sending false = y)
    (hwritten : y.written = x.written) (hsender : y.sender.isSome = x.sender.isSome) :
    Steady sending script y := by
  have hplayed : (x.receiverTurn script).played = y.played := by rw [← hy, played_senderTurn]
  -- the receiver was given all there is, so it has nothing more to do
  have hreceiver : y.receiverTurn script = y := by
    cases houtcome : y.played.outcome with
    | some o => exact receiverTurn_of_some houtcome script
    | none =>
      have hbefore : x.played.outcome = none := by
        cases hfirst : x.played.outcome with
        | none => rfl
        | some o =>
          rw [receiverTurn_of_some hfirst] at hplayed
          rw [hplayed, houtcome] at hfirst
          cases hfirst
      rw [receiverTurn_of_none hbefore] at hplayed
      have hsame : script.play { bytes := y.written, ended := y.sender.isSome } = y.played := by
        rw [hwritten, hsender]
        exact hplayed
      rw [receiverTurn_of_none houtcome, hsame, houtcome]
      show { y with reports := y.reports ++ [] } = y
      rw [List.append_nil]
  unfold Steady
  rw [hreceiver]
  -- and then the sender is answered what it was answered before
  cases hreport : y.sender with
  | some r => exact senderTurn_of_some hreport sending false
  | none =>
    have hwaits : (x.receiverTurn script).sender = none := by
      rw [sender_receiverTurn]
      rw [hreport] at hsender
      exact Option.isNone_iff_eq_none.1 (by simpa using hsender.symm)
    have hanswers : y.answers false = (x.receiverTurn script).answers false := by
      rw [answers, answers, hplayed]
    have hroom : y.room = (x.receiverTurn script).room := by
      rw [room, room, hplayed, hwritten, written_receiverTurn]
    rw [senderTurn_of_none hwaits] at hy
    have hprogress : sending.progress y.room (y.answers false) = ⟨y.written, none⟩ := by
      rw [hroom, hanswers, ← hreport, ← hy]
    rw [senderTurn_of_none hreport, hprogress]
    show { y with sender := none, reports := y.reports ++ [] } = y
    rw [List.append_nil, ← hreport]

/-- How much the sender still has to do: to write its second part, and to report. -/
def stage (sending : Sending) (x : Exchange) : Nat :=
  if x.sender.isSome then 0 else if x.written = sending.whole then 1 else 2

theorem stage_le_two (sending : Sending) (x : Exchange) : x.stage sending ≤ 2 := by
  unfold stage
  split
  · exact Nat.zero_le 2
  · split <;> decide

theorem stage_of_none (hsender : x.sender = none) (sending : Sending) :
    x.stage sending = if x.written = sending.whole then 1 else 2 := by
  rw [stage, hsender]
  rfl

/-- Where the sender is that has not reported. -/
theorem Going.written_cases (h : Going sending script x) (hsender : x.sender = none) :
    x.written = sending.header ∨ x.written = sending.whole := by
  obtain ⟨room, answers, -, -, -, hprogress⟩ := h.sends
  have hwaits : (sending.progress room answers).outcome = none := by rw [hprogress, hsender]
  have hcases := Sending.waits_cases hwaits
  rw [hprogress] at hcases
  exact hcases.imp_right And.left

/-- What such a sender has written is part of what it has written a round later. -/
theorem Going.round_prefix (h : Going sending script x) (hsender : x.sender = none) :
    x.written <+: ((x.receiverTurn script).senderTurn sending false).written := by
  have hwaits : (x.receiverTurn script).sender = none := by rw [sender_receiverTurn, hsender]
  have hprefix := h.receiverTurn.written_prefix hwaits false
  rw [written_receiverTurn] at hprefix
  rwa [senderTurn_of_none hwaits]

/-- A round in which the sender writes or reports leaves it less to do. -/
theorem Going.stage_lt (h : Going sending script x) {y : Exchange}
    (hy : (x.receiverTurn script).senderTurn sending false = y)
    (hchanged : ¬(y.written = x.written ∧ y.sender.isSome = x.sender.isSome)) :
    y.stage sending < x.stage sending := by
  cases hsender : x.sender with
  | some r =>
    have hsame : (x.receiverTurn script).sender = some r := by rw [sender_receiverTurn, hsender]
    rw [senderTurn_of_some hsame] at hy
    refine absurd ⟨?_, ?_⟩ hchanged
    · rw [← hy, written_receiverTurn]
    · rw [← hy, sender_receiverTurn]
  | none =>
    rw [stage_of_none hsender]
    cases hreport : y.sender with
    | some r =>
      have hdone : y.stage sending = 0 := by rw [stage, hreport]; rfl
      rw [hdone]
      split <;> decide
    | none =>
      -- the sender has written more, so it has gone from its announcement to everything
      have hmore : y.written ≠ x.written :=
        fun hsame => hchanged ⟨hsame, by rw [hreport, hsender]⟩
      have hgoing : Going sending script y := by
        rw [← hy]
        exact h.receiverTurn.senderTurn false
      have hle := (h.round_prefix hsender).length_le
      rw [hy] at hle
      have hlength := sending.length_whole
      rcases h.written_cases hsender with hx | hx <;>
        rcases hgoing.written_cases hreport with hwritten | hwritten
      · exact absurd (hwritten.trans hx.symm) hmore
      · have hnot : x.written ≠ sending.whole := fun hwhole => hmore (hwritten.trans hwhole.symm)
        rw [stage_of_none hreport, if_pos hwritten, if_neg hnot]
        decide
      · rw [hx, hwritten] at hle
        omega
      · exact absurd (hwritten.trans hx.symm) hmore

/-- An exchange is steady behind one round more than its sender has to do. -/
theorem steady_settle (h : Going sending script x) {rounds : Nat}
    (hrounds : x.stage sending ≤ rounds) :
    Steady sending script (settle sending script (rounds + 1) x) := by
  induction rounds generalizing x with
  | zero =>
    by_cases hsame : ((x.receiverTurn script).senderTurn sending false).written = x.written ∧
        ((x.receiverTurn script).senderTurn sending false).sender.isSome = x.sender.isSome
    · exact steady_of_same rfl hsame.1 hsame.2
    · exact absurd (h.stage_lt rfl hsame) (by omega)
  | succ rounds ih =>
    rw [settle]
    by_cases hsame : ((x.receiverTurn script).senderTurn sending false).written = x.written ∧
        ((x.receiverTurn script).senderTurn sending false).sender.isSome = x.sender.isSome
    · have hsteady := steady_of_same rfl hsame.1 hsame.2
      rwa [settle_of_steady hsteady]
    · have hless := h.stage_lt rfl hsame
      exact ih (h.receiverTurn.senderTurn false) (by omega)

/-! ### The end of an exchange -/

/-- Sender and receiver have gone as far as they can.

* What the sender has done comes of answers of the receiver, and what the receiver has done comes of
  bytes of the sender.
* A sender that has not reported waits, with all answers there are, for more of them; and its
  receiver has not ended, or keeps its output open until the deadline.
* A receiver that has not ended waits, with all bytes there are, for more of them. -/
structure Rests (sending : Sending) (script : Script) (timeout : Nat) (x : Exchange) : Prop where
  sends : x.Sends sending
  receives : x.Receives script
  senderWaits : x.sender = none →
    (sending.progress x.room { bytes := x.answered }).outcome = none ∧
      (x.played.outcome = none ∨ timeout ≤ x.played.held)
  receiverWaits : x.played.outcome = none →
    (script.play { bytes := x.written, ended := x.sender.isSome }).outcome = none

theorem Steady.played_eq (h : Steady sending script x) (houtcome : x.played.outcome = none) :
    script.play { bytes := x.written, ended := x.sender.isSome } = x.played := by
  have hround : ((x.receiverTurn script).senderTurn sending false).played = x.played := by rw [h]
  rwa [played_senderTurn, receiverTurn_of_none houtcome] at hround

/-- A sender in a steady exchange waits with all answers there are. -/
theorem Steady.sender_waits (h : Steady sending script x) (hsender : x.sender = none) :
    (sending.progress x.room { bytes := x.answered }).outcome = none := by
  have hround : (x.receiverTurn script).senderTurn sending false = x := h
  have hplayed : (x.receiverTurn script).played = x.played := by
    rw [← played_senderTurn _ sending false, hround]
  have hroom : (x.receiverTurn script).room = x.room := by
    rw [room, room, hplayed, written_receiverTurn]
  have hanswers : (x.receiverTurn script).answers false = x.answers false := by
    rw [answers, answers, hplayed]
  have hwaits : (sending.progress x.room (x.answers false)).outcome = none := by
    have hturn : (x.receiverTurn script).sender = none := by rw [sender_receiverTurn, hsender]
    rw [senderTurn_of_none hturn, hroom, hanswers] at hround
    exact (congrArg Exchange.sender hround).trans hsender
  -- it would not wait for answers that have ended
  have hopen : x.answers false = { bytes := x.answered } := by
    cases hended : (x.answers false).ended with
    | true => exact absurd hwaits (sending.outcome_ne_none x.room hended)
    | false =>
      show Answers.mk x.answered (x.answers false).ended = _
      rw [hended]
  rwa [hopen] at hwaits

/-- The receiver has had a turn in an exchange that is steady. -/
theorem Going.receives_of_steady (h : Going sending script x) (hsteady : Steady sending script x) :
    x.Receives script := by
  rcases h.receives with hnothing | hreceives
  · have houtcome : x.played.outcome = none := by rw [hnothing]
    exact ⟨_, List.prefix_refl _, id, rfl, hsteady.played_eq houtcome⟩
  · exact hreceives

/-- **The end of an exchange.** -/
theorem rests_run (sending : Sending) (script : Script) (timeout : Nat) :
    (Exchange.run sending script timeout).Rests sending script timeout := by
  have hstart := Going.start sending script
  have hrounds : rounds script = script.steps.length + 4 + 1 := rfl
  have hgoing := hstart.settle (rounds script)
  have hsteady : Steady sending script
      (settle sending script (rounds script) (Exchange.senderTurn sending false {})) := by
    rw [hrounds]
    exact steady_settle hstart (Nat.le_trans (stage_le_two sending _) (by omega))
  unfold Exchange.run
  dsimp only
  generalize settle sending script (rounds script) (Exchange.senderTurn sending false {}) = x
    at hgoing hsteady
  have hreceives := hgoing.receives_of_steady hsteady
  split
  · next hlate =>
    -- the output that was held is closed, so the sender does not wait any longer
    simp only [Bool.and_eq_true, Option.isNone_iff_eq_none] at hlate
    obtain ⟨⟨hended, hsender⟩, -⟩ := hlate
    have hclosed : (x.answers true).ended = true := by simp [answers, hended]
    have hturn := hgoing.senderTurn true
    have hplayed := x.played_senderTurn sending true
    refine ⟨hturn.sends, ?_, ?_, ?_⟩
    · rcases hturn.receives with hnothing | hreceives
      · rw [hplayed] at hnothing
        rw [hnothing] at hended
        cases hended
      · exact hreceives
    · rw [senderTurn_of_none hsender]
      exact fun hnone => absurd hnone (sending.outcome_ne_none x.room hclosed)
    · intro hnone
      rw [hplayed] at hnone
      rw [hnone] at hended
      cases hended
  · next hlate =>
    refine ⟨hgoing.sends, hreceives, fun hsender => ⟨hsteady.sender_waits hsender, ?_⟩, ?_⟩
    · cases houtcome : x.played.outcome with
      | none => exact .inl rfl
      | some o =>
        right
        simpa [houtcome, hsender] using hlate
    · intro houtcome
      rw [hsteady.played_eq houtcome, houtcome]

end Exchange

end Copy

end Runbook
