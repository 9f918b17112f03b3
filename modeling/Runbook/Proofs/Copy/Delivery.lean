import Mathlib.Data.List.Basic
import Runbook.Copy.Client
import Runbook.Proofs.Text.Encoding
/-!
# What a copy delivers

A sender writes an announcement, the contents and a mark, and reads one answer behind the
announcement and one behind the contents.  The far end may answer anything, and the pipe to it may
break at any byte.  This file says what has been written at any time, when a sender succeeds, and
what a receiver that keeps to the protocol has got then.

* `Sending.Keeps` — what holds of the bytes that a sender has written, by what it was answered;
* `Sending.keeps_progress` — every sender keeps to that, with every far end and every pipe;
* `Sending.outcome_eq_ok` — when a sender succeeds;
* `Accepts` — a receiver that takes one file: it reads a line, answers, reads as many bytes as were
  announced and one more, and answers;
* `AtRest`, `Sending.atRest_iff` — sender and receiver have read all that the other one wrote, and
  the one place where they rest is the end of the copy;
* `Exchange.run_accepted` — an exchange comes to that end;
* `copy_delivers_exact_bytes` — all of this as one statement.

Of the contents nothing is assumed: they may hold the mark, newlines, or an announcement.
-/

namespace Runbook.Copy

open Response (newline)

/-! ### Answers -/

/-- A warning and an error are failures. -/
theorem Response.isFailure_of_readMessage {v : Verdict} {bytes rest : List UInt8} {r : Response}
    (h : Response.readMessage v bytes = (.ok r, rest)) (hv : v ≠ .success) :
    r.isFailure = true := by
  unfold Response.readMessage at h
  split at h
  · cases h
    simp [Response.isFailure, hv]
  · cases h

/-- A response that is no failure is the byte of success. -/
theorem Response.eq_of_read {bytes rest : List UInt8} {r : Response}
    (h : Response.read bytes = (.ok r, rest)) (hr : r.isFailure = false) : bytes = 0 :: rest := by
  have hfails : r.isFailure ≠ true := by simp [hr]
  cases bytes with
  | nil => cases h
  | cons b more =>
    rw [Response.read] at h
    by_cases hsuccess : b = 0
    · rw [if_pos hsuccess] at h
      cases h
      rw [hsuccess]
    · rw [if_neg hsuccess] at h
      by_cases hwarning : b = 1
      · rw [if_pos hwarning] at h
        exact absurd (isFailure_of_readMessage h nofun) hfails
      · rw [if_neg hwarning] at h
        by_cases herror : b = 2
        · rw [if_pos herror] at h
          exact absurd (isFailure_of_readMessage h nofun) hfails
        · rw [if_neg herror] at h
          cases h

theorem acknowledge_success (stage : String) (more : List UInt8) (ended : Bool) :
    acknowledge stage ⟨0 :: more, ended⟩ = some (.ok ⟨more, ended⟩) := by
  simp [acknowledge, Response.isComplete, Response.read, Response.isFailure]

/-- Only a success lets a sender go on, and it takes one byte of the answers. -/
theorem eq_of_acknowledge {stage : String} {answers left : Answers}
    (h : acknowledge stage answers = some (.ok left)) :
    answers = ⟨0 :: left.bytes, left.ended⟩ := by
  unfold acknowledge at h
  split at h
  · cases h
  · split at h
    · cases h
    · next r rest hread =>
      split at h
      · cases h
      · next hr =>
        cases h
        rw [← Response.eq_of_read hread (Bool.eq_false_iff.2 hr)]

/-- A sender does not wait for a far end that has gone. -/
theorem acknowledge_ne_none {stage : String} {answers : Answers} (h : answers.ended = true) :
    acknowledge stage answers ≠ none := by
  simp only [acknowledge, h, Bool.not_true, Bool.false_and, Bool.false_eq_true, if_false]
  split
  · simp
  · split <;> simp

namespace Sending

/-! ### What is written -/

/-- What holds of the bytes that a sender has written when it was answered `answers`: they are its
parts in order, as far as it has come; bytes of the contents stand behind an answer that is a
success; and the mark stands behind contents of the announced size. -/
structure Keeps (s : Sending) (answers : Answers) (written : List UInt8) : Prop where
  inOrder : written <+: s.header ++ s.source.bytes.take s.size ++ [endMarker]
  confirmed : s.header.length < written.length → ∃ more, answers.bytes = 0 :: more
  complete : s.header.length + (s.source.bytes.take s.size).length < written.length →
    (s.source.bytes.take s.size).length = s.size

/-- What holds of all that was written has held at every byte before. -/
theorem Keeps.before {s : Sending} {answers : Answers} {written early : List UInt8}
    (h : s.Keeps answers written) (hearly : early <+: written) : s.Keeps answers early where
  inOrder := hearly.trans h.inOrder
  confirmed hlong := h.confirmed (Nat.lt_of_lt_of_le hlong hearly.length_le)
  complete hlong := h.complete (Nat.lt_of_lt_of_le hlong hearly.length_le)

theorem length_contents {s : Sending} (h : s.size ≤ s.source.bytes.length) :
    s.contents.length = s.size := by
  rw [contents, List.length_take, Nat.min_eq_left h]

theorem length_whole (s : Sending) :
    s.whole.length = s.header.length + s.contents.length + 1 := by
  simp only [whole, List.length_append, List.length_singleton]

theorem fits_of_le {room : Option Nat} {count more : Nat} (hle : count ≤ more)
    (h : fits room more = true) : fits room count = true := by
  cases room with
  | none => rfl
  | some n =>
    simp only [fits, Option.all_some, decide_eq_true_eq] at h ⊢
    omega

/-- Behind the first answer a sender writes contents, and the mark only when the source has given
all that was announced. -/
theorem deliver_written (s : Sending) (room : Option Nat) (answers : Answers) :
    (s.deliver room answers).written <+: s.header ++ s.contents ∨
      s.size ≤ s.source.bytes.length ∧ (s.deliver room answers).written = s.whole := by
  unfold deliver
  dsimp only
  split
  · exact .inl (List.take_prefix _ _)
  · split
    · left
      split <;> exact List.prefix_refl _
    · next hsize =>
      unfold finish
      dsimp only
      split
      · exact .inl (List.prefix_refl _)
      · exact .inr ⟨Nat.le_of_not_lt hsize, rfl⟩

/-- A sender whose pipe takes the announcement writes it first. -/
theorem header_prefix_progress (s : Sending) {room : Option Nat}
    (hroom : fits room s.header.length = true) (answers : Answers) :
    s.header <+: (s.progress room answers).written := by
  have hsent : s.header <+: s.header ++ s.contents := List.prefix_append _ _
  unfold progress
  rw [if_neg (by simp [hroom])]
  split
  · exact List.prefix_refl _
  · exact List.prefix_refl _
  · next left _ =>
    unfold deliver
    dsimp only
    split
    · next hbroken =>
      cases room with
      | none => simp [fits] at hbroken
      | some n =>
        have hn : s.header.length ≤ n := by simpa [fits] using hroom
        exact List.prefix_take_iff.2 ⟨hsent, hn⟩
    · split
      · split <;> exact hsent
      · unfold finish
        dsimp only
        split
        · exact hsent
        · exact hsent.trans (List.prefix_append _ _)

theorem deliver_ne_none {s : Sending} {room : Option Nat} {answers : Answers}
    (h : answers.ended = true) : (s.deliver room answers).outcome ≠ none := by
  unfold deliver
  dsimp only
  split
  · simp
  · split
    · split <;> simp
    · unfold finish
      dsimp only
      split
      · simp
      · simpa using acknowledge_ne_none h

/-- A sender that has written of its announcement at most keeps to its parts. -/
theorem keeps_of_prefix {s : Sending} {written : List UInt8} (h : written <+: s.header)
    (answers : Answers) : s.Keeps answers written where
  inOrder := by
    rw [List.append_assoc]
    exact h.trans (List.prefix_append _ _)
  confirmed hlong := absurd h.length_le (by omega)
  complete hlong := absurd h.length_le (by omega)

/-- **What a sender writes**, with every far end and every pipe. -/
theorem keeps_progress (s : Sending) (room : Option Nat) (answers : Answers) :
    s.Keeps answers (s.progress room answers).written := by
  unfold progress
  split
  · exact keeps_of_prefix (List.take_prefix _ _) answers
  · split
    · exact keeps_of_prefix (List.prefix_refl _) answers
    · exact keeps_of_prefix (List.prefix_refl _) answers
    · next left hfirst =>
      rw [eq_of_acknowledge hfirst]
      rcases s.deliver_written room left with hpart | ⟨hsize, hwhole⟩
      · refine ⟨hpart.trans (List.prefix_append _ _), fun _ => ⟨_, rfl⟩, fun hlong => ?_⟩
        have hle := hpart.length_le
        rw [List.length_append, contents] at hle
        omega
      · refine ⟨?_, fun _ => ⟨_, rfl⟩, fun _ => length_contents hsize⟩
        rw [hwhole]
        exact List.prefix_refl _

/-- A sender never waits for a far end that has gone. -/
theorem outcome_ne_none (s : Sending) (room : Option Nat) {answers : Answers}
    (h : answers.ended = true) : (s.progress room answers).outcome ≠ none := by
  unfold progress
  split
  · simp
  · split
    · next hnone => exact absurd hnone (acknowledge_ne_none h)
    · simp
    · next left hfirst =>
      rw [eq_of_acknowledge hfirst] at h
      exact deliver_ne_none h

/-! ### When a sender succeeds -/

/-- A sender with enough to send that was confirmed has written everything, and waits for the
answer to that. -/
theorem progress_of_confirmed {s : Sending} (hsize : s.size ≤ s.source.bytes.length)
    {room : Option Nat} (hroom : fits room s.whole.length = true) (more : List UInt8)
    (ended : Bool) :
    s.progress room ⟨0 :: more, ended⟩
      = ⟨s.whole, (acknowledge "acknowledge contents" ⟨more, ended⟩).map
          fun answer => answer.map fun _ => ()⟩ := by
  have hlength := s.length_whole
  have hheader : fits room s.header.length = true := fits_of_le (by omega) hroom
  have hsent : fits room (s.header ++ s.contents).length = true :=
    fits_of_le (by rw [List.length_append]; omega) hroom
  have hmark : fits room ((s.header ++ s.contents).length + 1) = true :=
    fits_of_le (by rw [List.length_append]; omega) hroom
  simp only [progress, hheader, acknowledge_success, deliver, hsent, finish, hmark, Bool.not_true,
    Bool.and_false, Bool.false_eq_true, if_false, Nat.not_lt.2 hsize]

/-- **When a sender succeeds.**  Over a pipe that does not break, it does so exactly when both
answers are successes and the source gives as many bytes as were announced. -/
theorem outcome_eq_ok (s : Sending) (answers : Answers) :
    (s.progress none answers).outcome = some (.ok ()) ↔
      (∃ more, answers.bytes = 0 :: 0 :: more) ∧ s.size ≤ s.source.bytes.length := by
  constructor
  · intro h
    unfold progress at h
    rw [if_neg (by simp [fits])] at h
    split at h
    · cases h
    · cases h
    · next left hfirst =>
      have hbytes := eq_of_acknowledge hfirst
      unfold deliver at h
      dsimp only at h
      rw [if_neg (by simp [fits])] at h
      split at h
      · split at h <;> cases h
      · next hsize =>
        unfold finish at h
        dsimp only at h
        rw [if_neg (by simp [fits])] at h
        rcases hsecond : acknowledge "acknowledge contents" left with _ | _ | last
        all_goals rw [hsecond] at h
        · cases h
        · cases h
        · rw [hbytes, eq_of_acknowledge hsecond]
          exact ⟨⟨_, rfl⟩, Nat.le_of_not_lt hsize⟩
  · rintro ⟨⟨more, hbytes⟩, hsize⟩
    obtain ⟨bytes, ended⟩ := answers
    dsimp only at hbytes
    rw [hbytes, progress_of_confirmed hsize rfl, acknowledge_success]
    rfl

/-- A sender that succeeds has written everything. -/
theorem written_of_ok {s : Sending} {answers : Answers}
    (h : (s.progress none answers).outcome = some (.ok ())) :
    (s.progress none answers).written = s.whole := by
  obtain ⟨⟨more, hbytes⟩, hsize⟩ := (s.outcome_eq_ok answers).1 h
  obtain ⟨bytes, ended⟩ := answers
  dsimp only at hbytes
  rw [hbytes, progress_of_confirmed hsize rfl]

/-- A sender with enough to send has written the announcement alone, or everything. -/
theorem written_cases {s : Sending} (hsize : s.size ≤ s.source.bytes.length) (answers : Answers) :
    (s.progress none answers).written = s.header ∨
      (s.progress none answers).written = s.whole := by
  rcases hfirst : acknowledge "acknowledge header" answers with _ | _ | left
  · left
    simp [progress, fits, hfirst]
  · left
    simp [progress, fits, hfirst]
  · right
    rw [eq_of_acknowledge hfirst, progress_of_confirmed hsize rfl]

end Sending

/-! ### Receivers -/

theorem Response.splitLine?_append {line : List UInt8} (h : newline ∉ line) (rest : List UInt8) :
    Response.splitLine? (line ++ newline :: rest) = some (line, rest) := by
  induction line with
  | nil => simp [Response.splitLine?]
  | cons b line ih =>
    have hb : b ≠ newline := fun heq => h (heq ▸ List.mem_cons_self)
    have hline : newline ∉ line := fun hmem => h (List.mem_cons_of_mem b hmem)
    simp [Response.splitLine?, hb, ih hline]

section Reading

open Remote (FarStep Given Script)

variable (result : Except SshError Unit) (rest : List FarStep) (given : Given)

/-- A command that reads a line takes it with its newline. -/
theorem playSteps_readLine {line : List UInt8} (h : newline ∉ line) (more : List UInt8) :
    Script.playSteps result (.readLine :: rest) { given with bytes := line ++ newline :: more }
      = (Script.playSteps result rest { given with bytes := more }).after (line ++ [newline]) := by
  simp only [Script.playSteps, Response.splitLine?_append h]

/-- A command that reads a number of bytes takes them when they are there. -/
theorem playSteps_read (chunk more : List UInt8) :
    Script.playSteps result (.read chunk.length :: rest) { given with bytes := chunk ++ more }
      = (Script.playSteps result rest { given with bytes := more }).after chunk := by
  simp [Script.playSteps]

/-- It waits for the rest when they are not. -/
theorem playSteps_read_short {count : Nat} (h : given.bytes.length < count)
    (hended : given.ended = false) :
    Script.playSteps result (.read count :: rest) given = { received := given.bytes } := by
  simp [Script.playSteps, Nat.not_le.2 h, hended]

end Reading

/-- The steps of a receiver that takes one file of `size` bytes: it reads a line and answers it, and
reads the contents with the byte behind them and answers these; each answer is a success. -/
def accepting (size : Nat) : List Remote.FarStep :=
  [.readLine, .output [0], .read size, .read 1, .output [0]]

/-- A session in which nothing fails and such a receiver runs. -/
structure Accepts (size : Nat) (script : Remote.Script) : Prop where
  steps : script.steps = accepting size
  failure : script.failure = none
  inputError : script.inputError = none
  outputError : script.outputError = none

namespace Accepts

variable {size : Nat} {script : Remote.Script} {line contents : List UInt8}

theorem play_eq (h : Accepts size script) (given : Remote.Given) :
    script.play given = Remote.Script.playSteps (.ok ()) (accepting size) given := by
  rw [Remote.Script.play, h.steps, Remote.Script.result, h.failure]

/-- A receiver that was given the announcement alone has answered it, and waits. -/
theorem play_line (h : Accepts size script) (hline : newline ∉ line) :
    (script.play { bytes := line ++ [newline] }).outcome = none ∧
      (script.play { bytes := line ++ [newline] }).chunks = [(.stdout, [0])] := by
  have hwaits : Remote.Script.playSteps (.ok ()) [.read size, .read 1, .output [0]] {}
      = ({} : Remote.Played) := by
    cases size with
    | zero =>
      have hnothing := playSteps_read (.ok ()) [.read 1, .output [0]] {} [] []
      rw [List.length_nil, List.append_nil] at hnothing
      rw [hnothing, playSteps_read_short (.ok ()) _ _ (by decide) rfl]
      rfl
    | succ size => rw [playSteps_read_short (.ok ()) _ _ (Nat.succ_pos size) rfl]
  rw [h.play_eq, accepting, playSteps_readLine (.ok ()) _ {} hline []]
  simp only [Remote.Script.playSteps.eq_2, hwaits]
  exact ⟨rfl, rfl⟩

/-- A receiver that was given everything has read it, has answered twice, and has ended. -/
theorem play_whole (h : Accepts size script) (hline : newline ∉ line)
    (hcontents : contents.length = size) (mark : UInt8) :
    script.play { bytes := line ++ [newline] ++ contents ++ [mark] }
      = { received := line ++ [newline] ++ contents ++ [mark]
          chunks := [(.stdout, [0]), (.stdout, [0])]
          outcome := some (.ok ()) } := by
  have hmark := playSteps_read (.ok ()) [.output [0]] {} [mark] []
  have hread := playSteps_read (.ok ()) [.read 1, .output [0]] {} contents [mark]
  rw [List.length_singleton, List.append_nil] at hmark
  rw [hmark] at hread
  rw [h.play_eq, accepting, ← hcontents, List.append_assoc, List.append_assoc,
    List.singleton_append, playSteps_readLine (.ok ()) _ {} hline]
  simp only [Remote.Script.playSteps.eq_2, hread]
  simp [Remote.Played.after, Remote.Script.playSteps]

end Accepts

/-! ### Sender and receiver together -/

/-- Sender and receiver rest: what the sender has written comes of all that was answered, and what
the receiver has answered comes of all that was written. -/
structure AtRest (s : Sending) (script : Remote.Script) (written answered : List UInt8) : Prop where
  sender : (s.progress none { bytes := answered }).written = written
  receiver : bytesOn .stdout (script.play { bytes := written }).chunks = answered

namespace Sending

variable {s : Sending} {script : Remote.Script} {line : List UInt8}

theorem whole_eq (hheader : s.header = line ++ [newline]) :
    s.whole = line ++ [newline] ++ s.contents ++ [endMarker] := by
  rw [whole, hheader]

/-- The order in which sender and receiver have gone on does not matter: they rest nowhere but where
all is written and both answers are there. -/
theorem eq_whole_of_atRest (hsize : s.size ≤ s.source.bytes.length)
    (hheader : s.header = line ++ [newline]) (hline : newline ∉ line)
    (haccepts : Accepts s.size script) {written answered : List UInt8}
    (h : AtRest s script written answered) : written = s.whole ∧ answered = [0, 0] := by
  have hanswers : answered = bytesOn .stdout (script.play { bytes := written }).chunks :=
    h.receiver.symm
  rcases written_cases hsize { bytes := answered } with hwritten | hwritten
  · -- the announcement was answered, so the sender goes on
    rw [h.sender] at hwritten
    rw [hwritten, hheader, (haccepts.play_line hline).2] at hanswers
    have hconfirmed : answered = [0] := hanswers
    have hsender := h.sender
    rw [hconfirmed, progress_of_confirmed hsize rfl, hwritten] at hsender
    have hlength := congrArg List.length hsender
    dsimp only at hlength
    rw [s.length_whole] at hlength
    omega
  · rw [h.sender] at hwritten
    refine ⟨hwritten, ?_⟩
    rw [hwritten, whole_eq hheader, haccepts.play_whole hline (length_contents hsize)] at hanswers
    exact hanswers

/-- There is one rest, at which sender and receiver have both succeeded. -/
theorem atRest_iff (hsize : s.size ≤ s.source.bytes.length)
    (hheader : s.header = line ++ [newline]) (hline : newline ∉ line)
    (haccepts : Accepts s.size script) {written answered : List UInt8} :
    AtRest s script written answered ↔ written = s.whole ∧ answered = [0, 0] := by
  constructor
  · exact eq_whole_of_atRest hsize hheader hline haccepts
  · rintro ⟨rfl, rfl⟩
    constructor
    · rw [progress_of_confirmed hsize rfl]
    · rw [whole_eq hheader, haccepts.play_whole hline (length_contents hsize)]
      rfl

end Sending

namespace Exchange

variable {s : Sending} {script : Remote.Script} {line : List UInt8}

/-- When both sides have reported, nothing happens any more. -/
theorem settle_of_reported {x : Exchange} (houtcome : x.played.outcome.isSome)
    (hsender : x.sender.isSome) (rounds : Nat) : settle s script rounds x = x := by
  obtain ⟨o, ho⟩ := Option.isSome_iff_exists.1 houtcome
  obtain ⟨r, hr⟩ := Option.isSome_iff_exists.1 hsender
  induction rounds with
  | zero => rfl
  | succ rounds ih => simp only [settle, receiverTurn, senderTurn, ho, hr, ih]

/-- An exchange that went well: both sides have reported a success, and the receiver has read all
that the sender wrote. -/
def delivered (s : Sending) : Exchange :=
  { written := s.whole
    played :=
      { received := s.whole
        chunks := [(.stdout, [0]), (.stdout, [0])]
        outcome := some (.ok ()) }
    sender := some (.ok ())
    reports := [.ok (), .ok ()] }

/-- The sender announces the file and waits. -/
theorem senderTurn_start (s : Sending) : senderTurn s false {} = { written := s.header } := by
  have hprogress : s.progress none {} = ⟨s.header, none⟩ := rfl
  show ({ written := (s.progress none {}).written, sender := (s.progress none {}).outcome
          reports := [] ++ (s.progress none {}).outcome.toList } : Exchange) = _
  rw [hprogress]
  rfl

/-- A receiver that has answered the announcement waits, and the sender writes the rest. -/
theorem round_confirmed (hsize : s.size ≤ s.source.bytes.length)
    (hwaits : (script.play { bytes := s.header }).outcome = none)
    (hfirst : (script.play { bytes := s.header }).chunks = [(.stdout, [0])]) :
    (receiverTurn script { written := s.header }).senderTurn s false
      = { written := s.whole, played := script.play { bytes := s.header } } := by
  have hturn : receiverTurn script { written := s.header }
      = { written := s.header, played := script.play { bytes := s.header } } := by
    simp [receiverTurn, hwaits]
  have hanswers : answers false
      { written := s.header, played := script.play { bytes := s.header } } = ⟨[0], false⟩ := by
    simp [answers, hfirst, hwaits, bytesOn]
  have hprogress : s.progress none ⟨[0], false⟩ = ⟨s.whole, none⟩ :=
    Sending.progress_of_confirmed hsize rfl [] false
  rw [hturn]
  simp [senderTurn, hwaits, hanswers, hprogress]

/-- The receiver reads the rest, answers and ends, and then the sender ends as well, although the
pipe takes no more bytes. -/
theorem round_ended (hsize : s.size ≤ s.source.bytes.length)
    (hwaits : (script.play { bytes := s.header }).outcome = none)
    (hplayed : script.play { bytes := s.whole } = (delivered s).played) :
    (receiverTurn script
      { written := s.whole, played := script.play { bytes := s.header } }).senderTurn s false
      = delivered s := by
  have hturn : receiverTurn script
      { written := s.whole, played := script.play { bytes := s.header } }
      = { written := s.whole, played := (delivered s).played, reports := [.ok ()] } := by
    simp only [receiverTurn, hwaits, Option.isSome_none, hplayed]
    rfl
  have hanswers : answers false
      { written := s.whole, played := (delivered s).played, reports := [.ok ()] }
      = ⟨[0, 0], true⟩ := rfl
  have hgone : (delivered s).played.outcome.isSome = true := rfl
  have hprogress : s.progress (some s.whole.length) ⟨[0, 0], true⟩
      = ⟨s.whole, some (.ok ())⟩ := by
    rw [Sending.progress_of_confirmed hsize (by simp [Sending.fits]), acknowledge_success]
    rfl
  rw [hturn]
  simp only [senderTurn, hanswers, hgone, if_true, hprogress]
  rfl

/-- **An exchange with a receiver that takes the file** comes to the end at which all is
delivered. -/
theorem run_accepted (hsize : s.size ≤ s.source.bytes.length)
    (hheader : s.header = line ++ [newline]) (hline : newline ∉ line)
    (haccepts : Accepts s.size script) (timeout : Nat) :
    Exchange.run s script timeout = delivered s := by
  have hplayed : script.play { bytes := s.whole } = (delivered s).played := by
    rw [Sending.whole_eq hheader, haccepts.play_whole hline (Sending.length_contents hsize),
      delivered, Sending.whole_eq hheader]
  obtain ⟨hwaits, hfirst⟩ := haccepts.play_line hline
  rw [← hheader] at hwaits hfirst
  have hrounds : rounds script = 8 + 1 + 1 := by
    rw [rounds, haccepts.steps]
    rfl
  have hsettled : settle s script (rounds script) (senderTurn s false {}) = delivered s := by
    rw [hrounds, senderTurn_start, settle, round_confirmed hsize hwaits hfirst, settle,
      round_ended hsize hwaits hplayed]
    exact settle_of_reported rfl rfl 8
  rw [Exchange.run, hsettled]
  rfl

end Exchange

/-! ### Copies -/

namespace Client

/-- What a copy comes to whose receiver takes the file. -/
theorem transfer_accepted (client : Client) {s : Sending} {line : List UInt8} (path : String)
    {session : Remote.Session} (connection : Remote.Connection)
    (hsize : s.size ≤ s.source.bytes.length) (hheader : s.header = line ++ [newline])
    (hline : newline ∉ line) (haccepts : Accepts s.size session.script) :
    (client.transfer s path session connection).result = .ok () ∧
      (client.transfer s path session connection).session.received
        = session.received ++ (line ++ [newline] ++ s.contents ++ [endMarker]) := by
  have hmoments : (Exchange.delivered s).moments
      = [.report (.ok ()), .leave, .receive, .report (.ok ()), .leave, .receive] := rfl
  unfold transfer transferIn
  dsimp only
  rw [Exchange.run_accepted hsize hheader hline haccepts, hmoments, ← Sending.whole_eq hheader]
  exact ⟨rfl, rfl⟩

/-- The line that announces a file, without its newline. -/
def announcement (permissions : String) (size : Nat) (name : String) : List UInt8 :=
  Text.Utf8.ofString ("C" ++ permissions ++ " " ++ Text.natText size ++ " " ++ name)

theorem fileHeader_eq (permissions : String) (size : Nat) (name : String) :
    Text.Utf8.ofString (fileHeader permissions size name)
      = announcement permissions size name ++ [newline] := by
  have hnewline : Text.Utf8.ofString "\n" = [newline] := by
    rw [Text.Utf8.ofString_eq_encode]
    rfl
  rw [fileHeader, Text.Utf8.ofString_append, hnewline, announcement]

/-- An announcement is one line when neither the permissions nor the name has a newline. -/
theorem newline_not_mem_announcement {permissions name : String} (size : Nat)
    (hpermissions : '\n' ∉ permissions.toList) (hname : '\n' ∉ name.toList) :
    newline ∉ announcement permissions size name := by
  refine Text.Utf8.newline_not_mem_ofString ?_
  have hsize := Text.newline_not_mem_natText size
  simp only [String.toList_append, List.mem_append, not_or]
  exact ⟨⟨⟨⟨⟨by decide, hpermissions⟩, by decide⟩, hsize⟩, by decide⟩, hname⟩

/-- A source that can be read is copied with its own length. -/
theorem copyFile_eq (client : Client) {source : Source} (hfailure : source.failure = none)
    (path permissions : String) {session : Remote.Session} (connection : Remote.Connection)
    (hinput : session.script.inputError = none) (houtput : session.script.outputError = none) :
    client.copyFile source path permissions session connection
      = client.transfer
          { header := announcement permissions source.bytes.length (baseName path) ++ [newline]
            source := { bytes := source.bytes }
            size := source.bytes.length } path session connection := by
  have hcontents : source.contents = .ok source.bytes := by rw [Source.contents, hfailure]
  rw [copyFile, hcontents]
  dsimp only
  rw [copy, copyIn, hinput, houtput]
  dsimp only
  rw [fileHeader_eq, transfer]

end Client

/-- **What a copy delivers.**

* Whatever the far end answers and wherever the pipe breaks, a sender keeps to its parts at every
  byte that it writes, and it does not wait for a far end that has gone.
* Over a pipe that does not break it succeeds exactly when both answers are successes and the source
  gives enough; then it has written everything.
* With a receiver that takes the file there is one rest, whatever the order in which both went on:
  both have succeeded, and the receiver has read the line, the contents and the mark.
* A file that is copied arrives byte for byte. -/
theorem copy_delivers_exact_bytes (s : Sending) :
    (∀ room answers written, written <+: (s.progress room answers).written →
      s.Keeps answers written) ∧
    (∀ room answers, answers.ended = true → (s.progress room answers).outcome ≠ none) ∧
    (∀ answers, (s.progress none answers).outcome = some (.ok ()) ↔
      (∃ more, answers.bytes = 0 :: 0 :: more) ∧ s.size ≤ s.source.bytes.length) ∧
    (∀ answers, (s.progress none answers).outcome = some (.ok ()) →
      (s.progress none answers).written
        = s.header ++ s.source.bytes.take s.size ++ [endMarker]) ∧
    (∀ line script, s.header = line ++ [newline] → newline ∉ line →
      s.size ≤ s.source.bytes.length → Accepts s.size script →
      (∃ written answered, AtRest s script written answered) ∧
      ∀ written answered, AtRest s script written answered →
        (s.progress none { bytes := answered }).outcome = some (.ok ()) ∧
        (script.play { bytes := written }).outcome = some (.ok ()) ∧
        (script.play { bytes := written }).received
          = line ++ [newline] ++ s.source.bytes.take s.size ++ [endMarker]) ∧
    (∀ (client : Client) (source : Source) (path permissions : String) (session : Remote.Session)
      (connection : Remote.Connection), source.failure = none → '\n' ∉ permissions.toList →
      '\n' ∉ (baseName path).toList → Accepts source.bytes.length session.script →
      (client.copyFile source path permissions session connection).result = .ok () ∧
      ∃ line, newline ∉ line ∧
        (client.copyFile source path permissions session connection).session.received
          = session.received ++ (line ++ [newline] ++ source.bytes ++ [endMarker])) := by
  refine ⟨fun room answers _ => (s.keeps_progress room answers).before,
    fun room _ => s.outcome_ne_none room, s.outcome_eq_ok, fun _ => Sending.written_of_ok, ?_, ?_⟩
  · intro line script hheader hline hsize haccepts
    have hiff : ∀ written answered,
        AtRest s script written answered ↔ written = s.whole ∧ answered = [0, 0] :=
      fun _ _ => Sending.atRest_iff hsize hheader hline haccepts
    refine ⟨⟨_, _, (hiff _ _).2 ⟨rfl, rfl⟩⟩, fun written answered hrest => ?_⟩
    obtain ⟨rfl, rfl⟩ := (hiff _ _).1 hrest
    have hplayed := haccepts.play_whole hline (Sending.length_contents hsize) endMarker
    rw [← Sending.whole_eq hheader] at hplayed
    rw [hplayed]
    exact ⟨(s.outcome_eq_ok _).2 ⟨⟨[], rfl⟩, hsize⟩, rfl, Sending.whole_eq hheader⟩
  · intro client source path permissions session connection hfailure hpermissions hname haccepts
    have hline := Client.newline_not_mem_announcement source.bytes.length hpermissions hname
    rw [client.copyFile_eq hfailure path permissions connection haccepts.inputError
      haccepts.outputError]
    obtain ⟨hresult, hreceived⟩ := client.transfer_accepted path connection
      (s := ⟨_, { bytes := source.bytes }, source.bytes.length⟩) (Nat.le_refl _) rfl hline haccepts
    refine ⟨hresult, _, hline, ?_⟩
    rw [hreceived, Sending.contents, List.take_length]

/-- Contents that look like the protocol: a mark, an announcement and another mark. -/
def disguised : Sending :=
  { header := [67, 10], source := { bytes := [0, 67, 10, 0, 10] }, size := 4 }

/-- A session whose receiver takes them. -/
def taker : Remote.Session :=
  { script := { steps := accepting 4 } }

/-- They arrive as they are, and so does a file of the same bytes. -/
theorem copy_delivers_disguised :
    newline ∉ [67] ∧ disguised.size ≤ disguised.source.bytes.length ∧
    Accepts disguised.size taker.script ∧
    AtRest disguised taker.script disguised.whole [0, 0] ∧
    (taker.script.play { bytes := disguised.whole }).received
      = [67] ++ [newline] ++ [0, 67, 10, 0] ++ [endMarker] ∧
    '\n' ∉ ("0644" : String).toList ∧ '\n' ∉ (baseName "/f").toList ∧
    (({} : Client).copyFile { bytes := [0, 67, 10, 0] } "/f" "0644" taker {}).result = .ok () := by
  obtain ⟨-, -, -, -, hrests, hcopies⟩ := copy_delivers_exact_bytes disguised
  have haccepts : Accepts 4 taker.script := ⟨rfl, rfl, rfl, rfl⟩
  have hrest : AtRest disguised taker.script disguised.whole [0, 0] := ⟨rfl, rfl⟩
  have hname : '\n' ∉ (baseName "/f").toList := by decide
  refine ⟨by decide, by decide, haccepts, hrest, ?_, by decide, hname, ?_⟩
  · exact ((hrests [67] _ rfl (by decide) (by decide) haccepts).2 _ _ hrest).2.2
  · exact (hcopies {} { bytes := [0, 67, 10, 0] } "/f" "0644" taker {} rfl (by decide) hname
      haccepts).1

end Runbook.Copy
