import Mathlib.Data.List.Basic
import Runbook.Proofs.Copy.Delivery
import Runbook.Proofs.Text.Decoding
/-!
# One response after the other

A sender reads responses from a stream that goes on behind them.  A reader that took a byte too many
would find the next response shifted, so what is left of the stream belongs to every statement here.

* `Framed` — the bytes of one response, with what they say;
* `read_framed`, `framed_of_read` — a response is read from its bytes and from no others, and what
  stands behind them is left;
* `read_eq_unknown_iff`, `read_eq_end_iff` — the two ways in which nothing is read: a first byte
  that is no verdict, and a stream that ends inside a response;
* `readMany_encode` — responses written one behind the other are read back, and nothing else;
* `read_takes_one_response` — all of this as one statement.

A message is read with replacement characters in place of ill-formed bytes, so a response may be
read from bytes that it is never written as; `Sendable` is what comes back as it was.
-/

namespace Runbook.Copy

namespace Response

open Text (Utf8.ofString Utf8.toStringLossy)

/-! ### The bytes of a response -/

/-- The bytes of one response, and the response. -/
inductive Framed : List UInt8 → Response → Prop where
  | success : Framed [0] ⟨.success, ""⟩
  | warning {line : List UInt8} (hline : newline ∉ line) :
      Framed (1 :: (line ++ [newline])) ⟨.warning, Utf8.toStringLossy line⟩
  | error {line : List UInt8} (hline : newline ∉ line) :
      Framed (2 :: (line ++ [newline])) ⟨.error, Utf8.toStringLossy line⟩

/-- A response that comes back as it was: a success has no message, and a message is one line. -/
structure Sendable (r : Response) : Prop where
  silent : r.verdict = .success → r.message = ""
  oneLine : '\n' ∉ r.message.toList

theorem framed_encode {r : Response} (h : r.Sendable) : Framed r.encode r := by
  obtain ⟨verdict, message⟩ := r
  have hline := Text.Utf8.newline_not_mem_ofString h.oneLine
  have hshown := Text.Utf8.toStringLossy_ofString message
  cases verdict with
  | success =>
    have hmessage : message = "" := h.silent rfl
    subst hmessage
    exact Framed.success
  | warning =>
    have hframed := Framed.warning hline
    rw [hshown] at hframed
    exact hframed
  | error =>
    have hframed := Framed.error hline
    rw [hshown] at hframed
    exact hframed

/-! ### Lines -/

/-- What is split off is one line, and nothing is lost. -/
theorem splitLine?_eq_some_iff {bytes line rest : List UInt8} :
    splitLine? bytes = some (line, rest) ↔ newline ∉ line ∧ bytes = line ++ newline :: rest := by
  refine ⟨fun h => ?_, fun ⟨hline, heq⟩ => heq ▸ splitLine?_append hline rest⟩
  induction bytes generalizing line with
  | nil => cases h
  | cons b bytes ih =>
    rw [splitLine?] at h
    by_cases hb : b = newline
    · rw [if_pos hb] at h
      cases h
      exact ⟨List.not_mem_nil, by rw [hb, List.nil_append]⟩
    · rw [if_neg hb, Option.map_eq_some_iff] at h
      obtain ⟨⟨more, left⟩, hmore, heq⟩ := h
      cases heq
      obtain ⟨hline, hbytes⟩ := ih hmore
      refine ⟨fun hmem => ?_, by rw [hbytes, List.cons_append]⟩
      rcases List.mem_cons.1 hmem with hfirst | hlater
      · exact hb hfirst.symm
      · exact hline hlater

theorem splitLine?_eq_none_iff {bytes : List UInt8} :
    splitLine? bytes = none ↔ newline ∉ bytes := by
  constructor
  · intro h hmem
    obtain ⟨line, rest, hbytes, hline⟩ := List.eq_append_cons_of_mem hmem
    rw [splitLine?_eq_some_iff.2 ⟨hline, hbytes⟩] at h
    cases h
  · intro h
    cases hsplit : splitLine? bytes with
    | none => rfl
    | some parts =>
      obtain ⟨line, rest⟩ := parts
      refine absurd ?_ h
      rw [(splitLine?_eq_some_iff.1 hsplit).2]
      exact List.mem_append_right _ List.mem_cons_self

/-! ### Reading one response -/

/-- How a read goes on behind the first byte. -/
theorem read_cases (b : UInt8) (bytes : List UInt8) :
    b = 0 ∧ read (b :: bytes) = (.ok ⟨.success, ""⟩, bytes) ∨
      b = 1 ∧ read (b :: bytes) = readMessage .warning bytes ∨
      b = 2 ∧ read (b :: bytes) = readMessage .error bytes ∨
      2 < b ∧ read (b :: bytes) = (.error (unknownVerdict b), bytes) := by
  by_cases hsuccess : b = 0
  · exact .inl ⟨hsuccess, by rw [read, if_pos hsuccess]⟩
  · by_cases hwarning : b = 1
    · exact .inr (.inl ⟨hwarning, by rw [read, if_neg hsuccess, if_pos hwarning]⟩)
    · by_cases herror : b = 2
      · exact .inr (.inr (.inl ⟨herror,
          by rw [read, if_neg hsuccess, if_neg hwarning, if_pos herror]⟩))
      · refine .inr (.inr (.inr ⟨by grind, ?_⟩))
        rw [read, if_neg hsuccess, if_neg hwarning, if_neg herror]

theorem readMessage_line {verdict : Verdict} {line : List UInt8} (hline : newline ∉ line)
    (rest : List UInt8) :
    readMessage verdict (line ++ newline :: rest)
      = (.ok ⟨verdict, Utf8.toStringLossy line⟩, rest) := by
  rw [readMessage, splitLine?_append hline]

theorem readMessage_unended {verdict : Verdict} {bytes : List UInt8} (h : newline ∉ bytes) :
    readMessage verdict bytes = (.error .unexpectedEnd, []) := by
  rw [readMessage, splitLine?_eq_none_iff.2 h]

/-- A message is a line and its newline, or the stream ends before the newline. -/
theorem readMessage_cases (verdict : Verdict) (bytes : List UInt8) :
    (∃ line rest, newline ∉ line ∧ bytes = line ++ newline :: rest ∧
      readMessage verdict bytes = (.ok ⟨verdict, Utf8.toStringLossy line⟩, rest)) ∨
    newline ∉ bytes ∧ readMessage verdict bytes = (.error .unexpectedEnd, []) := by
  by_cases h : newline ∈ bytes
  · obtain ⟨line, rest, hbytes, hline⟩ := List.eq_append_cons_of_mem h
    exact .inl ⟨line, rest, hline, hbytes, hbytes ▸ readMessage_line hline rest⟩
  · exact .inr ⟨h, readMessage_unended h⟩

/-- **A response is read from its bytes**, and what stands behind them is left. -/
theorem read_framed {frame : List UInt8} {r : Response} (h : Framed frame r) (rest : List UInt8) :
    read (frame ++ rest) = (.ok r, rest) := by
  cases h with
  | success => rfl
  | @warning line hline =>
    rw [List.cons_append, List.append_assoc, List.singleton_append]
    exact readMessage_line hline rest
  | @error line hline =>
    rw [List.cons_append, List.append_assoc, List.singleton_append]
    exact readMessage_line hline rest

/-- The start of a response that the stream ends in. -/
def CutOff (bytes : List UInt8) : Prop :=
  ∃ missing r, missing ≠ [] ∧ Framed (bytes ++ missing) r

theorem cutOff_nil : CutOff [] :=
  ⟨[0], _, by simp, Framed.success⟩

theorem cutOff_warning {bytes : List UInt8} (h : newline ∉ bytes) : CutOff (1 :: bytes) :=
  ⟨[newline], _, by simp, Framed.warning h⟩

theorem cutOff_error {bytes : List UInt8} (h : newline ∉ bytes) : CutOff (2 :: bytes) :=
  ⟨[newline], _, by simp, Framed.error h⟩

/-- **What a read comes to**: the response that the stream starts with, a byte that is no verdict,
or the end of a stream that is the start of a response. -/
theorem read_outcome (bytes : List UInt8) :
    (∃ frame r rest, Framed frame r ∧ bytes = frame ++ rest ∧ read bytes = (.ok r, rest)) ∨
    (∃ b rest, 2 < b ∧ bytes = b :: rest ∧ read bytes = (.error (unknownVerdict b), rest)) ∨
    CutOff bytes ∧ read bytes = (.error .unexpectedEnd, []) := by
  cases bytes with
  | nil => exact .inr (.inr ⟨cutOff_nil, rfl⟩)
  | cons b bytes =>
    rcases read_cases b bytes with ⟨rfl, hread⟩ | ⟨rfl, hread⟩ | ⟨rfl, hread⟩ | ⟨hb, hread⟩
    · exact .inl ⟨_, _, bytes, Framed.success, rfl, hread⟩
    · rcases readMessage_cases .warning bytes with ⟨line, rest, hline, rfl, hmessage⟩ | ⟨h, hmessage⟩
      · exact .inl ⟨_, _, rest, Framed.warning hline, by simp, hread.trans hmessage⟩
      · exact .inr (.inr ⟨cutOff_warning h, hread.trans hmessage⟩)
    · rcases readMessage_cases .error bytes with ⟨line, rest, hline, rfl, hmessage⟩ | ⟨h, hmessage⟩
      · exact .inl ⟨_, _, rest, Framed.error hline, by simp, hread.trans hmessage⟩
      · exact .inr (.inr ⟨cutOff_error h, hread.trans hmessage⟩)
    · exact .inr (.inl ⟨b, bytes, hb, rfl, hread⟩)

theorem framed_of_read {bytes rest : List UInt8} {r : Response} (h : read bytes = (.ok r, rest)) :
    ∃ frame, Framed frame r ∧ bytes = frame ++ rest := by
  rcases read_outcome bytes with ⟨frame, r', rest', hframe, hbytes, hread⟩ | ⟨_, _, _, _, hread⟩ |
    ⟨_, hread⟩
  · cases hread.symm.trans h
    exact ⟨frame, hframe, hbytes⟩
  · cases hread.symm.trans h
  · cases hread.symm.trans h

/-- A byte that is no verdict starts no response. -/
theorem not_framed_of_lt {b : UInt8} (hb : 2 < b) (rest : List UInt8) (r : Response) :
    ¬Framed (b :: rest) r := by
  intro h
  cases h <;> exact absurd hb (by decide)

/-- A response does not go on behind its end. -/
theorem not_cutOff_of_framed {frame : List UInt8} {r : Response} (h : Framed frame r)
    (rest : List UInt8) : ¬CutOff (frame ++ rest) := by
  rintro ⟨missing, r', hmissing, hwhole⟩
  have hread := read_framed h (rest ++ missing)
  rw [← List.append_assoc, ← List.append_nil ((frame ++ rest) ++ missing),
    read_framed hwhole []] at hread
  exact hmissing (List.append_eq_nil_iff.1 (congrArg Prod.snd hread).symm).2

theorem read_cutOff {bytes : List UInt8} (h : CutOff bytes) :
    read bytes = (.error .unexpectedEnd, []) := by
  rcases read_outcome bytes with ⟨frame, r, rest, hframe, hbytes, _⟩ | ⟨b, rest, hb, hbytes, _⟩ |
    ⟨_, hread⟩
  · rw [hbytes] at h
    exact absurd h (not_cutOff_of_framed hframe rest)
  · obtain ⟨missing, r, _, hframe⟩ := h
    rw [hbytes] at hframe
    exact absurd hframe (not_framed_of_lt hb _ r)
  · exact hread

theorem read_unknown {b : UInt8} (hb : 2 < b) (rest : List UInt8) :
    read (b :: rest) = (.error (unknownVerdict b), rest) := by
  rcases read_cases b rest with ⟨rfl, _⟩ | ⟨rfl, _⟩ | ⟨rfl, _⟩ | ⟨_, hread⟩
  · exact absurd hb (by decide)
  · exact absurd hb (by decide)
  · exact absurd hb (by decide)
  · exact hread

/-- A read fails with invalid data at a first byte that is no verdict, having taken that byte. -/
theorem read_eq_unknown_iff {bytes rest : List UInt8} {e : IoError} (he : e.kind = .invalidData) :
    read bytes = (.error e, rest) ↔ ∃ b, 2 < b ∧ e = unknownVerdict b ∧ bytes = b :: rest := by
  constructor
  · intro h
    rcases read_outcome bytes with ⟨_, _, _, _, _, hread⟩ | ⟨b, more, hb, hbytes, hread⟩ |
      ⟨_, hread⟩
    · cases hread.symm.trans h
    · cases hread.symm.trans h
      exact ⟨b, hb, rfl, hbytes⟩
    · cases hread.symm.trans h
      cases he
  · rintro ⟨b, hb, rfl, rfl⟩
    exact read_unknown hb rest

/-- A read fails for the end of the stream at the start of a response, having taken all of it. -/
theorem read_eq_end_iff {bytes rest : List UInt8} {e : IoError} (he : e.kind = .unexpectedEnd) :
    read bytes = (.error e, rest) ↔ CutOff bytes ∧ e = .unexpectedEnd ∧ rest = [] := by
  constructor
  · intro h
    rcases read_outcome bytes with ⟨_, _, _, _, _, hread⟩ | ⟨_, _, _, _, hread⟩ | ⟨hcut, hread⟩
    · cases hread.symm.trans h
    · cases hread.symm.trans h
      cases he
    · cases hread.symm.trans h
      exact ⟨hcut, rfl, rfl⟩
  · rintro ⟨hcut, rfl, rfl⟩
    exact read_cutOff hcut

/-- **What is taken decides**: what stands behind the bytes that a read takes is left, whatever it
is, unless the stream ends too early. -/
theorem read_looks_no_further (bytes : List UInt8) :
    ∃ taken, bytes = taken ++ (read bytes).2 ∧
      (CutOff bytes ∨ ∀ other, read (taken ++ other) = ((read bytes).1, other)) := by
  rcases read_outcome bytes with ⟨frame, r, rest, hframe, hbytes, hread⟩ |
    ⟨b, rest, hb, hbytes, hread⟩ | ⟨hcut, hread⟩
  · exact ⟨frame, by rw [hread, hbytes], .inr fun other => by rw [hread, read_framed hframe]⟩
  · exact ⟨[b], by rw [hread, hbytes, List.singleton_append], .inr fun other => by
      rw [hread, List.singleton_append, read_unknown hb]⟩
  · exact ⟨bytes, by rw [hread, List.append_nil], .inl hcut⟩

/-! ### Reading responses one behind the other -/

/-- Read `count` responses, up to the first one that cannot be read; the second component is what
is left of the stream. -/
def readMany : Nat → List UInt8 → Except IoError (List Response) × List UInt8
  | 0, bytes => (.ok [], bytes)
  | count + 1, bytes =>
    match read bytes with
    | (.error e, rest) => (.error e, rest)
    | (.ok r, rest) =>
      let (more, left) := readMany count rest
      (more.map (r :: ·), left)

/-- **Responses are read back.** -/
theorem readMany_encode {responses : List Response} (h : ∀ r ∈ responses, r.Sendable)
    (following : List UInt8) :
    readMany responses.length (responses.flatMap encode ++ following)
      = (.ok responses, following) := by
  induction responses with
  | nil => rfl
  | cons r responses ih =>
    have hfirst := framed_encode (h r List.mem_cons_self)
    have hlater := ih fun r hr => h r (List.mem_cons_of_mem _ hr)
    rw [List.length_cons, readMany, List.flatMap_cons, List.append_assoc, read_framed hfirst]
    dsimp only
    rw [hlater]
    rfl

/-! ### The sender -/

theorem isComplete_message {b : UInt8} (hb : b = 1 ∨ b = 2) (bytes : List UInt8) :
    isComplete (b :: bytes) = false ↔ newline ∉ bytes := by
  rw [isComplete, if_pos hb, Bool.eq_false_iff, Ne, List.contains_iff_mem]

theorem newline_not_mem_of_unended {verdict : Verdict} {bytes : List UInt8} {e : IoError}
    {rest : List UInt8} (h : readMessage verdict bytes = (.error e, rest)) : newline ∉ bytes := by
  rcases readMessage_cases verdict bytes with ⟨_, _, _, _, hread⟩ | ⟨hnone, _⟩
  · cases hread.symm.trans h
  · exact hnone

/-- A stream holds a response unless it ends inside one. -/
theorem isComplete_eq_false_iff {bytes : List UInt8} : isComplete bytes = false ↔ CutOff bytes := by
  cases bytes with
  | nil => exact ⟨fun _ => cutOff_nil, fun _ => rfl⟩
  | cons b bytes =>
    constructor
    · intro h
      have hb : b = 1 ∨ b = 2 := by
        rw [isComplete] at h
        by_contra hb
        rw [if_neg hb] at h
        cases h
      have hnone := (isComplete_message hb bytes).1 h
      rcases hb with rfl | rfl
      · exact cutOff_warning hnone
      · exact cutOff_error hnone
    · intro h
      have hend := read_cutOff h
      rcases read_cases b bytes with ⟨_, hread⟩ | ⟨hb, hread⟩ | ⟨hb, hread⟩ | ⟨_, hread⟩
      · cases hread.symm.trans hend
      · exact (isComplete_message (.inl hb) bytes).2
          (newline_not_mem_of_unended (hread.symm.trans hend))
      · exact (isComplete_message (.inr hb) bytes).2
          (newline_not_mem_of_unended (hread.symm.trans hend))
      · cases hread.symm.trans hend

/-- A sender waits while a response may still come to its end. -/
theorem acknowledge_eq_none_iff {stage : String} {bytes : List UInt8} {ended : Bool} :
    acknowledge stage ⟨bytes, ended⟩ = none ↔ ended = false ∧ CutOff bytes := by
  rw [← isComplete_eq_false_iff, acknowledge]
  split
  · next h => simpa using h
  · next h =>
    constructor
    · intro hnone
      split at hnone
      · cases hnone
      · split at hnone <;> cases hnone
    · rintro ⟨rfl, hshort⟩
      simp [hshort] at h

/-- Behind a response that it has read, a sender reads on where the response ended. -/
theorem acknowledge_of_read {bytes rest : List UInt8} {r : Response}
    (h : read bytes = (.ok r, rest)) (stage : String) (ended : Bool) :
    acknowledge stage ⟨bytes, ended⟩
      = some (if r.isFailure then .error (.remote stage r.message) else .ok ⟨rest, ended⟩) := by
  have hcomplete : isComplete bytes = true := by
    rw [← Bool.not_eq_false, isComplete_eq_false_iff]
    intro hcut
    cases (read_cutOff hcut).symm.trans h
  rw [acknowledge, hcomplete, h, if_neg (by simp)]
  dsimp only
  split <;> rfl

theorem acknowledge_of_failure {stage : String} {bytes rest : List UInt8} {ended : Bool}
    {e : IoError} (h : read bytes = (.error e, rest))
    (hready : acknowledge stage ⟨bytes, ended⟩ ≠ none) :
    acknowledge stage ⟨bytes, ended⟩ = some (.error (.io stage e)) := by
  rw [acknowledge] at hready ⊢
  split at hready
  · exact absurd rfl hready
  · next hcomplete => rw [if_neg hcomplete, h]

/-! ### Altogether -/

/-- **Responses and what follows them.**  Responses that were written one behind the other are read
back, and the bytes behind them are left.  On any stream a read takes the bytes of the one response
that the stream starts with; it fails with invalid data exactly at a first byte that is no verdict,
having taken that byte, and for the end of the stream exactly where the stream ends inside a
response; it fails in no third way, and looks at nothing behind what it takes.  A sender that has
read a response goes on behind it or gives up with its message, it waits for more only where the
stream ends inside one, and else it reports how the read failed. -/
theorem read_takes_one_response :
    (∀ (responses : List Response) (following : List UInt8), (∀ r ∈ responses, r.Sendable) →
      readMany responses.length (responses.flatMap encode ++ following)
        = (.ok responses, following)) ∧
    (∀ bytes : List UInt8,
      (∀ r rest, read bytes = (.ok r, rest) ↔ ∃ frame, Framed frame r ∧ bytes = frame ++ rest) ∧
      (∀ e rest, e.kind = .invalidData →
        (read bytes = (.error e, rest) ↔ ∃ b, 2 < b ∧ e = unknownVerdict b ∧ bytes = b :: rest)) ∧
      (∀ e rest, e.kind = .unexpectedEnd →
        (read bytes = (.error e, rest) ↔ CutOff bytes ∧ e = .unexpectedEnd ∧ rest = [])) ∧
      (∀ e rest, read bytes = (.error e, rest) →
        e.kind = .invalidData ∨ e.kind = .unexpectedEnd) ∧
      ∃ taken, bytes = taken ++ (read bytes).2 ∧
        (CutOff bytes ∨ ∀ other, read (taken ++ other) = ((read bytes).1, other))) ∧
    (∀ (stage : String) (bytes : List UInt8) (ended : Bool),
      (acknowledge stage ⟨bytes, ended⟩ = none ↔ ended = false ∧ CutOff bytes) ∧
      (∀ r rest, read bytes = (.ok r, rest) → acknowledge stage ⟨bytes, ended⟩
        = some (if r.isFailure then .error (.remote stage r.message) else .ok ⟨rest, ended⟩)) ∧
      ∀ e rest, read bytes = (.error e, rest) → acknowledge stage ⟨bytes, ended⟩ ≠ none →
        acknowledge stage ⟨bytes, ended⟩ = some (.error (.io stage e))) := by
  refine ⟨fun _ following h => readMany_encode h following, fun bytes => ⟨fun r rest => ?_,
    fun _ _ he => read_eq_unknown_iff he, fun _ _ he => read_eq_end_iff he, fun e rest h => ?_,
    read_looks_no_further bytes⟩, fun stage _ ended =>
    ⟨acknowledge_eq_none_iff, fun _ _ h => acknowledge_of_read h stage ended,
      fun _ _ h => acknowledge_of_failure h⟩⟩
  · exact ⟨framed_of_read, fun ⟨_, hframe, heq⟩ => heq ▸ read_framed hframe rest⟩
  · rcases read_outcome bytes with ⟨_, _, _, _, _, hread⟩ | ⟨_, _, _, _, hread⟩ | ⟨_, hread⟩
    · cases hread.symm.trans h
    · cases hread.symm.trans h
      exact .inl rfl
    · cases hread.symm.trans h
      exact .inr rfl

/-- Three responses, and behind them a byte of a fourth one. -/
def mixed : List Response :=
  [⟨.warning, "no space"⟩, ⟨.success, ""⟩, ⟨.error, "/tmp/é: denied"⟩]

/-- The responses come back and the byte is left; then it is read as the start of a response that
is cut off, a byte that is no verdict is taken alone, and a sender goes on behind a success. -/
theorem read_takes_mixed :
    (∀ r ∈ mixed, r.Sendable) ∧
    readMany 3 (mixed.flatMap encode ++ [1]) = (.ok mixed, [1]) ∧
    read [1] = (.error .unexpectedEnd, []) ∧
    read [7, 0] = (.error (unknownVerdict 7), [0]) ∧
    acknowledge "acknowledge header" ⟨[0, 2], false⟩ = some (.ok ⟨[2], false⟩) ∧
    acknowledge "acknowledge header" ⟨[1], true⟩
      = some (.error (.io "acknowledge header" .unexpectedEnd)) := by
  have hsendable : ∀ r ∈ mixed, r.Sendable := by
    intro r hr
    simp only [mixed, List.mem_cons, List.not_mem_nil, or_false] at hr
    rcases hr with rfl | rfl | rfl
    · exact ⟨nofun, by decide⟩
    · exact ⟨fun _ => rfl, by decide⟩
    · exact ⟨nofun, by decide⟩
  obtain ⟨hmany, hone, hsender⟩ := read_takes_one_response
  have hcut : CutOff [1] := cutOff_warning List.not_mem_nil
  have hend : read [1] = (.error .unexpectedEnd, []) :=
    ((hone [1]).2.2.1 .unexpectedEnd [] rfl).2 ⟨hcut, rfl, rfl⟩
  exact ⟨hsendable, hmany mixed [1] hsendable, hend,
    ((hone [7, 0]).2.1 (unknownVerdict 7) [0] rfl).2 ⟨7, by decide, rfl, rfl⟩,
    (hsender "acknowledge header" [0, 2] false).2.1 ⟨.success, ""⟩ [2] rfl,
    (hsender "acknowledge header" [1] true).2.2 .unexpectedEnd [] hend
      (acknowledge_ne_none rfl)⟩

end Response

end Runbook.Copy
