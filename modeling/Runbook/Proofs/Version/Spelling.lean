import Mathlib.Data.List.TakeWhile
import Runbook.Proofs.Text.Cutting
import Runbook.Proofs.Text.Encoding
import Runbook.Version
/-!
# The spellings of versions

A version can be written in many ways, and every text that is read as a version is one of them.

* `Identifier`, `PreIdentifier` — what stands between the dots of build metadata and of a
  pre-release;
* `Spelling` — a way to write a version: blanks around it, a mark in front, one to three numbers, a
  pre-release and build metadata; `Spelling.text` and `Spelling.version` are its text and what it
  stands for;
* `readCore?_padding`, `parse?_padding` — a text whose core is padded with zeros is read as a text
  that may leave numbers out;
* `readNumber?_eq_some_iff`, `readShortCore?_eq_some_iff`, `readTail?_eq_some_iff` — what each part
  of that reader accepts;
* `ofText?_accepts_spellings` — the texts that are read as a version are the texts of its spellings,
  and the canonical text is one of them.
-/

namespace Runbook.Version

open Runbook.Text

/-! ### Identifiers -/

/-- An identifier: letters, digits and dashes, at least one. -/
structure Identifier (part : List Char) : Prop where
  ne_nil : part ≠ []
  marks : ∀ c ∈ part, c.isAlphanum = true ∨ c = '-'

/-- An identifier of a pre-release: if it has digits only, it is a number as it is written, without
zeros in front. -/
structure PreIdentifier (part : List Char) : Prop extends Identifier part where
  number : (∀ c ∈ part, c.isDigit = true) → ∃ n, part = (natText n).toList

/-- Digits without a zero in front of others are those of a number. -/
theorem digits_iff {part : List Char} (hne : part ≠ []) :
    (isNumeric part = true ∧ hasLeadingZero part = false) ↔
      part = (natText (Decimal.runValue part)).toList := by
  rw [toList_natText]
  constructor
  · rintro ⟨hdigits, hzero⟩
    rw [isNumeric, List.all_eq_true] at hdigits
    obtain ⟨c, digits, rfl⟩ := List.exists_cons_of_ne_nil hne
    by_cases hc : c = '0'
    · subst hc
      cases digits with
      | nil => rfl
      | cons d digits => cases hzero
    · exact (toDigits_ofDigitChars hdigits hc).symm
  · intro hpart
    generalize Decimal.runValue part = n at hpart
    subst hpart
    have hdigits : ∀ c ∈ Nat.toDigits 10 n, c.isDigit = true :=
      fun c => Nat.isDigit_of_mem_toDigits (by decide) (by decide)
    refine ⟨List.all_eq_true.2 hdigits, ?_⟩
    by_cases hn : n = 0
    · subst hn
      rfl
    · have hfirst := head?_toDigits_ne hn
      unfold hasLeadingZero
      split
      · next hzero =>
        rw [hzero] at hfirst
        exact absurd rfl hfirst
      · rfl

theorem isBuildPart_iff {part : List Char} : isBuildPart part = true ↔ Identifier part := by
  unfold isBuildPart
  constructor
  · intro h
    obtain ⟨hne, hmarks⟩ := Bool.and_eq_true_iff.1 h
    refine ⟨?_, fun c hc => ?_⟩
    · rintro rfl
      cases hne
    · simpa [isMark] using List.all_eq_true.1 hmarks c hc
  · rintro ⟨hne, hmarks⟩
    rw [Bool.and_eq_true, List.all_eq_true]
    refine ⟨?_, fun c hc => ?_⟩
    · simpa using hne
    · simpa [isMark] using hmarks c hc

theorem runValue_natText (n : Nat) : Decimal.runValue (natText n).toList = n :=
  ofDigitChars_natText n

theorem isPrePart_iff {part : List Char} : isPrePart part = true ↔ PreIdentifier part := by
  unfold isPrePart
  rw [Bool.and_eq_true, isBuildPart_iff, Bool.not_eq_true', Bool.and_eq_false_iff]
  constructor
  · rintro ⟨hpart, hzero⟩
    refine ⟨hpart, fun hdigits => ⟨Decimal.runValue part, ?_⟩⟩
    have hnumeric : isNumeric part = true := List.all_eq_true.2 hdigits
    refine (digits_iff hpart.ne_nil).1 ⟨hnumeric, hzero.resolve_left ?_⟩
    rw [hnumeric]
    exact Bool.noConfusion
  · intro hpart
    refine ⟨hpart.toIdentifier, ?_⟩
    by_cases hnumeric : isNumeric part = true
    · obtain ⟨n, hn⟩ := hpart.number (List.all_eq_true.1 hnumeric)
      have hvalue : part = (natText (Decimal.runValue part)).toList := by
        rw [hn, runValue_natText]
      exact .inr ((digits_iff hpart.ne_nil).2 hvalue).2
    · exact .inl (Bool.eq_false_iff.2 hnumeric)

theorem Identifier.not_mem {part : List Char} (h : Identifier part) {c : Char}
    (hc : isMark c = false) : c ∉ part := by
  intro hmem
  rw [isMark, Bool.or_eq_false_iff, beq_eq_false_iff_ne] at hc
  rcases h.marks c hmem with hmark | hmark
  · rw [hc.1] at hmark
    cases hmark
  · exact hc.2 hmark

/-! ### Numbers -/

/-- A component is the decimal text of a 64-bit number. -/
theorem readNumber?_eq_some_iff {part : List Char} {n : Nat} :
    readNumber? part = some n ↔ n < Nat.pow 2 64 ∧ part = (natText n).toList := by
  unfold readNumber?
  constructor
  · intro h
    split at h
    · cases h
    · next hform =>
      rw [Bool.or_eq_true, Bool.or_eq_true, not_or, not_or] at hform
      obtain ⟨⟨hne, hnumeric⟩, hzero⟩ := hform
      have hpart : part ≠ [] := fun he => hne (by rw [he]; rfl)
      have hdigits := (digits_iff hpart).1 ⟨by simpa using hnumeric, by simpa using hzero⟩
      dsimp only at h
      split at h
      · next hbound =>
        cases h
        exact ⟨hbound, hdigits⟩
      · cases h
  · rintro ⟨hbound, rfl⟩
    have hne : (natText n).toList ≠ [] := by
      rw [toList_natText]
      exact Nat.toDigits_ne_nil
    have hdigits := (digits_iff hne).2 (by rw [runValue_natText])
    have hempty : (natText n).toList.isEmpty = false := by
      rw [Bool.eq_false_iff, Ne, List.isEmpty_iff]
      exact hne
    rw [hdigits.1, hdigits.2, hempty, runValue_natText]
    exact if_pos hbound

/-- The numbers of a core: one to three of 64 bits. -/
structure IsCore (numbers : List Nat) : Prop where
  ne_nil : numbers ≠ []
  length_le : numbers.length ≤ 3
  bound : ∀ n ∈ numbers, n < Nat.pow 2 64

/-- The numbers of a core with dots between them. -/
def coreText (numbers : List Nat) : List Char :=
  joinWith ['.'] (numbers.map fun n => (natText n).toList)

theorem isDigit_of_mem_natText {n : Nat} {c : Char} (h : c ∈ (natText n).toList) :
    c.isDigit = true := by
  rw [toList_natText] at h
  exact Nat.isDigit_of_mem_toDigits (by decide) (by decide) h

theorem splitBy_coreText {numbers : List Nat} (h : numbers ≠ []) :
    splitBy (· == '.') (coreText numbers) = numbers.map fun n => (natText n).toList := by
  refine splitBy_joinWith (fun hnil => h (List.map_eq_nil_iff.1 hnil)) ?_
  intro piece hpiece hdot
  obtain ⟨n, -, rfl⟩ := List.mem_map.1 hpiece
  exact absurd (isDigit_of_mem_natText hdot) (by decide)

/-- The numbers of a core of one to three components, with zeros for those that are missing. -/
def readShortCore? (core : List Char) : Option (Nat × Nat × Nat) :=
  match splitBy (· == '.') core with
  | [a] => (readNumber? a).map fun a => (a, 0, 0)
  | [a, b] => (readNumber? a).bind fun a => (readNumber? b).map fun b => (a, b, 0)
  | [a, b, c] =>
    (readNumber? a).bind fun a => (readNumber? b).bind fun b =>
      (readNumber? c).map fun c => (a, b, c)
  | _ => none

theorem splitBy_append_zeros (core : List Char) (count : Nat) :
    splitBy (· == '.') (core ++ (List.replicate count ['.', '0']).flatten)
      = splitBy (· == '.') core ++ List.replicate count ['0'] := by
  induction count generalizing core with
  | zero => simp
  | succ count ih =>
    have hzero : splitBy (· == '.') (core ++ ['.', '0']) = splitBy (· == '.') core ++ [['0']] :=
      splitBy_append_cons rfl core ['0']
    rw [List.replicate_succ, List.flatten_cons, ← List.append_assoc, ih, hzero, List.append_assoc]
    rfl

/-- Padding makes a core out of a short one, with zeros for the numbers that are missing. -/
theorem readCore?_padding (core : List Char) :
    readCore? (core ++ padding core) = readShortCore? core := by
  have hzero : readNumber? ['0'] = some 0 := by decide
  unfold readCore? readShortCore? padding
  rw [splitBy_append_zeros]
  match hsplit : splitBy (· == '.') core with
  | [] => exact absurd hsplit (splitBy_ne_nil _ core)
  | [a] => cases hread : readNumber? a <;> simp [hread, hzero, List.replicate]
  | [a, b] => cases hread : readNumber? b <;> simp [hread, hzero]
  | [a, b, c] => simp
  | _ :: _ :: _ :: _ :: _ => simp

/-- A core is read as its numbers, with zeros for those that are missing. -/
theorem readShortCore?_eq_some_iff {core : List Char} {major minor patch : Nat} :
    readShortCore? core = some (major, minor, patch) ↔
      ∃ numbers, IsCore numbers ∧ coreText numbers = core ∧
        (numbers.getD 0 0, numbers.getD 1 0, numbers.getD 2 0) = (major, minor, patch) := by
  constructor
  · intro h
    have hjoin := joinWith_splitBy '.' core
    unfold readShortCore? at h
    split at h
    · next a hsplit =>
      obtain ⟨m, hm, he⟩ := Option.map_eq_some_iff.1 h
      obtain ⟨hbound, rfl⟩ := readNumber?_eq_some_iff.1 hm
      rw [hsplit] at hjoin
      exact ⟨[m], ⟨nofun, by simp, by simpa using hbound⟩, hjoin, he⟩
    · next a b hsplit =>
      obtain ⟨m, hm, h⟩ := Option.bind_eq_some_iff.1 h
      obtain ⟨n, hn, he⟩ := Option.map_eq_some_iff.1 h
      obtain ⟨hmbound, rfl⟩ := readNumber?_eq_some_iff.1 hm
      obtain ⟨hnbound, rfl⟩ := readNumber?_eq_some_iff.1 hn
      rw [hsplit] at hjoin
      exact ⟨[m, n], ⟨nofun, by simp, by simpa using ⟨hmbound, hnbound⟩⟩, hjoin, he⟩
    · next a b c hsplit =>
      obtain ⟨m, hm, h⟩ := Option.bind_eq_some_iff.1 h
      obtain ⟨n, hn, h⟩ := Option.bind_eq_some_iff.1 h
      obtain ⟨p, hp, he⟩ := Option.map_eq_some_iff.1 h
      obtain ⟨hmbound, rfl⟩ := readNumber?_eq_some_iff.1 hm
      obtain ⟨hnbound, rfl⟩ := readNumber?_eq_some_iff.1 hn
      obtain ⟨hpbound, rfl⟩ := readNumber?_eq_some_iff.1 hp
      rw [hsplit] at hjoin
      exact ⟨[m, n, p], ⟨nofun, by simp, by simpa using ⟨hmbound, hnbound, hpbound⟩⟩, hjoin, he⟩
    · cases h
  · rintro ⟨numbers, hcore, rfl, he⟩
    have hread : ∀ n ∈ numbers, readNumber? (natText n).toList = some n :=
      fun n hn => readNumber?_eq_some_iff.2 ⟨hcore.bound n hn, rfl⟩
    unfold readShortCore?
    rw [splitBy_coreText hcore.ne_nil, ← he]
    match numbers, hcore, hread with
    | [m], _, hread => simp [hread m]
    | [m, n], _, hread => simp [hread m, hread n]
    | [m, n, p], _, hread => simp [hread m, hread n, hread p]
    | [], hcore, _ => exact absurd rfl hcore.ne_nil
    | _ :: _ :: _ :: _ :: _, hcore, _ => exact absurd hcore.length_le (by simp)

/-! ### Pre-releases and build metadata -/

/-- Identifiers without dots are read as they are joined. -/
theorem readParts?_eq_some_iff {ok : List Char → Bool}
    (hok : ∀ part, ok part = true → Identifier part) {cs : List Char}
    {parts : List (List Char)} :
    readParts? ok cs = some parts ↔
      parts ≠ [] ∧ (∀ part ∈ parts, ok part = true) ∧ joinWith ['.'] parts = cs := by
  unfold readParts?
  constructor
  · intro h
    dsimp only at h
    split at h
    · next hall =>
      cases h
      exact ⟨splitBy_ne_nil _ cs, List.all_eq_true.1 hall, joinWith_splitBy '.' cs⟩
    · cases h
  · rintro ⟨hne, hall, rfl⟩
    have hsplit : splitBy (· == '.') (joinWith ['.'] parts) = parts :=
      splitBy_joinWith hne fun part hpart => (hok part (hall part hpart)).not_mem rfl
    rw [hsplit]
    exact if_pos (List.all_eq_true.2 hall)

theorem identifier_of_isPrePart (part : List Char) (h : isPrePart part = true) :
    Identifier part :=
  (isPrePart_iff.1 h).toIdentifier

theorem identifier_of_isBuildPart (part : List Char) (h : isBuildPart part = true) :
    Identifier part :=
  isBuildPart_iff.1 h

/-- There is no plus sign in identifiers and the dots between them. -/
theorem plus_not_mem_joinWith {parts : List (List Char)}
    (h : ∀ part ∈ parts, Identifier part) : '+' ∉ joinWith ['.'] parts := by
  intro hmem
  rcases mem_joinWith hmem with hdot | ⟨part, hpart, hplus⟩
  · cases hdot
  · exact (h part hpart).not_mem rfl hplus

theorem partsText_of_ne {parts : List (List Char)} (h : parts ≠ []) (mark : Char) :
    partsText mark parts = mark :: joinWith ['.'] parts := by
  unfold partsText
  rw [if_neg fun he => h (List.isEmpty_iff.1 he)]

/-- What is read at the end of a version stands there behind its marks. -/
theorem parts_of_readTail? {tail : List Char} {pre build : List (List Char)}
    (h : readTail? tail = some (pre, build)) :
    (∀ part ∈ pre, PreIdentifier part) ∧ (∀ part ∈ build, Identifier part) ∧
      partsText '-' pre ++ partsText '+' build = tail := by
  have hpres := @readParts?_eq_some_iff _ identifier_of_isPrePart
  have hbuilds := @readParts?_eq_some_iff _ identifier_of_isBuildPart
  unfold readTail? at h
  split at h
  · cases h
    exact ⟨List.forall_mem_nil _, List.forall_mem_nil _, rfl⟩
  · next c cs =>
    split at h
    · next hc =>
      subst hc
      split at h
      · obtain ⟨parts, hparts, he⟩ := Option.map_eq_some_iff.1 h
        obtain ⟨hne, hall, rfl⟩ := hpres.1 hparts
        cases he
        refine ⟨fun part hpart => isPrePart_iff.1 (hall part hpart), List.forall_mem_nil _, ?_⟩
        rw [partsText_of_ne hne]
        exact List.append_nil _
      · next front back hcut =>
        obtain ⟨parts, hparts, h⟩ := Option.bind_eq_some_iff.1 h
        obtain ⟨more, hmore, he⟩ := Option.map_eq_some_iff.1 h
        obtain ⟨hne, hall, rfl⟩ := hpres.1 hparts
        obtain ⟨hmorene, hmoreall, rfl⟩ := hbuilds.1 hmore
        cases he
        obtain ⟨plus, hplus, rfl⟩ := eq_of_splitAtFirst? hcut
        refine ⟨fun part hpart => isPrePart_iff.1 (hall part hpart),
          fun part hpart => isBuildPart_iff.1 (hmoreall part hpart), ?_⟩
        rw [partsText_of_ne hne, partsText_of_ne hmorene, beq_iff_eq.1 hplus]
        rfl
    · split at h
      · next hc =>
        subst hc
        obtain ⟨parts, hparts, he⟩ := Option.map_eq_some_iff.1 h
        obtain ⟨hne, hall, rfl⟩ := hbuilds.1 hparts
        cases he
        refine ⟨List.forall_mem_nil _, fun part hpart => isBuildPart_iff.1 (hall part hpart), ?_⟩
        rw [partsText_of_ne hne]
        rfl
      · cases h

/-- Identifiers behind their marks are read. -/
theorem readTail?_partsText {pre build : List (List Char)}
    (hpre : ∀ part ∈ pre, PreIdentifier part) (hbuild : ∀ part ∈ build, Identifier part) :
    readTail? (partsText '-' pre ++ partsText '+' build) = some (pre, build) := by
  have hreadPre : pre ≠ [] → readParts? isPrePart (joinWith ['.'] pre) = some pre :=
    fun hne => (readParts?_eq_some_iff identifier_of_isPrePart).2
      ⟨hne, fun part hpart => isPrePart_iff.2 (hpre part hpart), rfl⟩
  have hreadBuild : build ≠ [] → readParts? isBuildPart (joinWith ['.'] build) = some build :=
    fun hne => (readParts?_eq_some_iff identifier_of_isBuildPart).2
      ⟨hne, fun part hpart => isBuildPart_iff.2 (hbuild part hpart), rfl⟩
  have hplus : ∀ c ∈ joinWith ['.'] pre, (c == '+') = false := by
    intro c hc
    rw [beq_eq_false_iff_ne]
    rintro rfl
    exact plus_not_mem_joinWith (fun part hpart => (hpre part hpart).toIdentifier) hc
  by_cases hnopre : pre = []
  · subst hnopre
    by_cases hnobuild : build = []
    · subst hnobuild
      rfl
    · rw [partsText_of_ne hnobuild]
      show (readParts? isBuildPart (joinWith ['.'] build)).map _ = _
      rw [hreadBuild hnobuild]
      rfl
  · rw [partsText_of_ne hnopre, List.cons_append, readTail?, if_pos rfl]
    by_cases hnobuild : build = []
    · subst hnobuild
      rw [show partsText '+' [] = [] from rfl, List.append_nil, splitAtFirst?_eq_none hplus]
      dsimp only
      rw [hreadPre hnopre]
      rfl
    · rw [partsText_of_ne hnobuild, splitAtFirst?_append_cons hplus rfl]
      dsimp only
      rw [hreadPre hnopre, Option.bind_some, hreadBuild hnobuild]
      rfl

/-- The end of a version is read as the identifiers behind its marks. -/
theorem readTail?_eq_some_iff {tail : List Char} {pre build : List (List Char)} :
    readTail? tail = some (pre, build) ↔
      (∀ part ∈ pre, PreIdentifier part) ∧ (∀ part ∈ build, Identifier part) ∧
        partsText '-' pre ++ partsText '+' build = tail := by
  refine ⟨parts_of_readTail?, ?_⟩
  rintro ⟨hpre, hbuild, rfl⟩
  exact readTail?_partsText hpre hbuild

/-! ### Spellings -/

/-- A way to write a version. -/
structure Spelling where
  before : List Char
  mark : List Char
  numbers : List Nat
  pre : List (List Char)
  build : List (List Char)
  after : List Char
  blank_before : ∀ c ∈ before, isBlank c = true
  blank_after : ∀ c ∈ after, isBlank c = true
  mark_cases : mark = [] ∨ mark = ['v'] ∨ mark = ['V']
  core : IsCore numbers
  pre_identifiers : ∀ part ∈ pre, PreIdentifier part
  build_identifiers : ∀ part ∈ build, Identifier part

namespace Spelling

/-- What is written between the blanks and behind the mark. -/
def body (sp : Spelling) : List Char :=
  coreText sp.numbers ++ (partsText '-' sp.pre ++ partsText '+' sp.build)

/-- The text of a spelling. -/
def text (sp : Spelling) : List Char :=
  sp.before ++ (sp.mark ++ sp.body) ++ sp.after

/-- The version that is written: numbers that are missing are zero. -/
def version (sp : Spelling) : Version where
  major := sp.numbers.getD 0 0
  minor := sp.numbers.getD 1 0
  patch := sp.numbers.getD 2 0
  pre := sp.pre
  build := sp.build

end Spelling

/-! ### Where the parts of a text end -/

theorem exists_natText_eq_cons (n : Nat) :
    ∃ c cs, (natText n).toList = c :: cs ∧ c.isDigit = true := by
  have hne : (natText n).toList ≠ [] := by
    rw [toList_natText]
    exact Nat.toDigits_ne_nil
  obtain ⟨c, cs, hcons⟩ := List.exists_cons_of_ne_nil hne
  exact ⟨c, cs, hcons, isDigit_of_mem_natText (hcons ▸ List.mem_cons_self)⟩

/-- A core starts with a digit. -/
theorem exists_coreText_eq_cons {numbers : List Nat} (h : numbers ≠ []) :
    ∃ c cs, coreText numbers = c :: cs ∧ c.isDigit = true := by
  obtain ⟨n, rest, rfl⟩ := List.exists_cons_of_ne_nil h
  obtain ⟨c, cs, hcons, hc⟩ := exists_natText_eq_cons n
  cases rest with
  | nil => exact ⟨c, cs, hcons, hc⟩
  | cons m rest =>
    refine ⟨c, cs ++ ['.'] ++ coreText (m :: rest), ?_, hc⟩
    show (natText n).toList ++ ['.'] ++ coreText (m :: rest) = _
    rw [hcons]
    rfl

theorem mem_coreText {numbers : List Nat} {c : Char} (h : c ∈ coreText numbers) :
    c = '.' ∨ c.isDigit = true := by
  refine (mem_joinWith h).imp_right ?_
  rintro ⟨piece, hpiece, hc⟩
  obtain ⟨n, -, rfl⟩ := List.mem_map.1 hpiece
  exact isDigit_of_mem_natText hc

/-- A core ends at the first dash or plus sign. -/
theorem endsCore_of_mem_coreText {numbers : List Nat} {c : Char} (h : c ∈ coreText numbers) :
    endsCore c = false := by
  rw [endsCore, Bool.or_eq_false_iff, beq_eq_false_iff_ne, beq_eq_false_iff_ne]
  constructor
  · rintro rfl
    exact absurd (mem_coreText h) (by decide)
  · rintro rfl
    exact absurd (mem_coreText h) (by decide)

theorem mem_partsText {mark c : Char} {parts : List (List Char)}
    (hparts : ∀ part ∈ parts, Identifier part) (h : c ∈ partsText mark parts) :
    c = mark ∨ c = '.' ∨ isMark c = true := by
  by_cases hne : parts = []
  · subst hne
    cases h
  · rw [partsText_of_ne hne, List.mem_cons] at h
    refine h.imp_right fun hjoined => (mem_joinWith hjoined).imp_right ?_
    rintro ⟨part, hpart, hc⟩
    simpa [isMark] using (hparts part hpart).marks c hc

/-- What stands behind a core starts with a dash or a plus sign. -/
theorem endsCore_of_head? {pre build : List (List Char)} {c : Char}
    (h : c ∈ (partsText '-' pre ++ partsText '+' build).head?) : endsCore c = true := by
  by_cases hpre : pre = []
  · subst hpre
    by_cases hbuild : build = []
    · subst hbuild
      cases h
    · rw [partsText_of_ne hbuild] at h
      cases h
      rfl
  · rw [partsText_of_ne hpre] at h
    cases h
    rfl

theorem isBlank_of_isMark {c : Char} (h : isMark c = true) : isBlank c = false := by
  rcases Bool.or_eq_true_iff.1 h with h | h
  · exact isBlank_of_isIdentChar (Bool.or_eq_true_iff.2 (.inl h))
  · rw [beq_iff_eq.1 h]
    decide

/-- Text in front of a dash or a plus sign is the core, and what follows is the tail. -/
theorem coreOf_append {core tail : List Char} (hcore : ∀ c ∈ core, endsCore c = false)
    (htail : ∀ c ∈ tail.head?, endsCore c = true) :
    coreOf (core ++ tail) = core ∧ tailOf (core ++ tail) = tail := by
  have hkept : ∀ c ∈ core, (!endsCore c) = true := by
    intro c hc
    rw [hcore c hc]
    rfl
  have hends : ∀ c ∈ tail.head?, (!endsCore c) = false := by
    intro c hc
    rw [htail c hc]
    rfl
  unfold coreOf tailOf
  rw [takeWhile_append_of_head? hends, dropWhile_append_of_head? hends,
    List.takeWhile_eq_self_iff.2 hkept, List.dropWhile_eq_nil_iff.2 hkept]
  exact ⟨rfl, rfl⟩

/-! ### Padded cores -/

theorem endsCore_of_mem_coreOf {cs : List Char} {c : Char} (h : c ∈ coreOf cs) :
    endsCore c = false := by
  simpa using List.mem_takeWhile_imp h

theorem endsCore_of_mem_tailOf_head? {cs : List Char} {c : Char} (h : c ∈ (tailOf cs).head?) :
    endsCore c = true := by
  have hhead := List.head?_dropWhile_not (fun c => !endsCore c) cs
  unfold tailOf at h
  rw [h] at hhead
  simpa using hhead

theorem mem_padding {core : List Char} {c : Char} (h : c ∈ padding core) : c = '.' ∨ c = '0' := by
  obtain ⟨zero, hzero, hc⟩ := List.mem_flatten.1 h
  rw [List.eq_of_mem_replicate hzero] at hc
  simpa using hc

/-- A version whose minor and patch numbers may be left out. -/
def parseShort? (cs : List Char) : Option Version :=
  (readShortCore? (coreOf cs)).bind fun (major, minor, patch) =>
    (readTail? (tailOf cs)).map fun (pre, build) => { major, minor, patch, pre, build }

/-- A text whose core was padded is read as the text with the short core. -/
theorem parse?_padding (cs : List Char) :
    parse? (coreOf cs ++ padding (coreOf cs) ++ tailOf cs) = parseShort? cs := by
  have hpadded : ∀ c ∈ coreOf cs ++ padding (coreOf cs), endsCore c = false := by
    intro c hc
    rcases List.mem_append.1 hc with hc | hc
    · exact endsCore_of_mem_coreOf hc
    · rcases mem_padding hc with rfl | rfl
      · rfl
      · rfl
  obtain ⟨hcore, htail⟩ := coreOf_append hpadded fun c hc => endsCore_of_mem_tailOf_head? hc
  rw [parse?, hcore, htail, readCore?_padding, parseShort?]

theorem ofChars?_eq (cs : List Char) : ofChars? cs = parseShort? (dropMark (trim cs)) :=
  parse?_padding _

/-! ### Marks -/

theorem dropMark_append {mark cs : List Char} {c : Char}
    (hmark : mark = [] ∨ mark = ['v'] ∨ mark = ['V']) (hc : c.isDigit = true) :
    dropMark (mark ++ c :: cs) = c :: cs := by
  rcases hmark with rfl | rfl | rfl
  · have hv : ¬(c = 'v' ∨ c = 'V') := by
      rintro (rfl | rfl) <;> exact absurd hc (by decide)
    exact if_neg hv
  · rfl
  · rfl

theorem exists_dropMark (cs : List Char) :
    ∃ mark, (mark = [] ∨ mark = ['v'] ∨ mark = ['V']) ∧ cs = mark ++ dropMark cs := by
  cases cs with
  | nil => exact ⟨[], .inl rfl, rfl⟩
  | cons c cs =>
    by_cases hlower : c = 'v'
    · subst hlower
      exact ⟨['v'], .inr (.inl rfl), rfl⟩
    · by_cases hupper : c = 'V'
      · subst hupper
        exact ⟨['V'], .inr (.inr rfl), rfl⟩
      · refine ⟨[], .inl rfl, ?_⟩
        rw [dropMark, if_neg (not_or.2 ⟨hlower, hupper⟩)]
        rfl

namespace Spelling

variable (sp : Spelling)

theorem isBlank_body {c : Char} (h : c ∈ sp.mark ++ sp.body) : isBlank c = false := by
  rcases List.mem_append.1 h with h | h
  · rcases sp.mark_cases with hmark | hmark | hmark
    · rw [hmark] at h
      cases h
    · rw [hmark, List.mem_singleton] at h
      rw [h]
      decide
    · rw [hmark, List.mem_singleton] at h
      rw [h]
      decide
  · -- what is left are digits, identifiers and the signs between them
    have hsigns : c = '.' ∨ c = '-' ∨ c = '+' ∨ Version.isMark c = true := by
      rcases List.mem_append.1 h with h | h
      · refine (mem_coreText h).imp_right fun hdigit => .inr (.inr ?_)
        simp [Version.isMark, Char.isAlphanum, hdigit]
      · rcases List.mem_append.1 h with h | h
        · have hpre : ∀ part ∈ sp.pre, Version.Identifier part :=
            fun part hpart => (sp.pre_identifiers part hpart).toIdentifier
          rcases mem_partsText hpre h with h | h | h
          · exact .inr (.inl h)
          · exact .inl h
          · exact .inr (.inr (.inr h))
        · rcases mem_partsText sp.build_identifiers h with h | h | h
          · exact .inr (.inr (.inl h))
          · exact .inl h
          · exact .inr (.inr (.inr h))
    rcases hsigns with rfl | rfl | rfl | hmark
    · decide
    · decide
    · decide
    · exact isBlank_of_isMark hmark

/-- The parts of a spelling are found where they stand, and read as what they are. -/
theorem ofChars?_text : ofChars? sp.text = some sp.version := by
  have htrim : trim sp.text = sp.mark ++ sp.body :=
    trim_append sp.blank_before sp.blank_after
      (fun c hc => sp.isBlank_body (List.mem_of_mem_head? hc))
      (fun c hc => sp.isBlank_body (List.mem_of_mem_getLast? hc))
  obtain ⟨c, cs, hcons, hdigit⟩ := exists_coreText_eq_cons sp.core.ne_nil
  have hmark : dropMark (trim sp.text) = sp.body := by
    rw [htrim, body, hcons, List.cons_append]
    exact dropMark_append sp.mark_cases hdigit
  obtain ⟨hcut, htail⟩ : coreOf sp.body = coreText sp.numbers ∧
      tailOf sp.body = partsText '-' sp.pre ++ partsText '+' sp.build :=
    coreOf_append (fun c hc => endsCore_of_mem_coreText hc) fun c hc => endsCore_of_head? hc
  have hcore := readShortCore?_eq_some_iff.2 ⟨sp.numbers, sp.core, rfl, rfl⟩
  have hsigned := readTail?_eq_some_iff.2 ⟨sp.pre_identifiers, sp.build_identifiers, rfl⟩
  rw [ofChars?_eq, hmark, parseShort?, hcut, htail, hcore, Option.bind_some, hsigned]
  rfl

end Spelling

/-- A text that is read as a version is the text of a spelling of it. -/
theorem exists_spelling {cs : List Char} {v : Version} (h : ofChars? cs = some v) :
    ∃ sp : Spelling, sp.text = cs ∧ sp.version = v := by
  obtain ⟨before, after, htrim, hbefore, hafter⟩ := exists_trim cs
  obtain ⟨mark, hmark, hdrop⟩ := exists_dropMark (trim cs)
  rw [ofChars?_eq] at h
  obtain ⟨⟨major, minor, patch⟩, hcore, h⟩ := Option.bind_eq_some_iff.1 h
  obtain ⟨⟨pre, build⟩, htail, he⟩ := Option.map_eq_some_iff.1 h
  obtain ⟨numbers, hnumbers, hcoreText, hparts⟩ := readShortCore?_eq_some_iff.1 hcore
  obtain ⟨hpre, hbuild, htailText⟩ := readTail?_eq_some_iff.1 htail
  refine ⟨⟨before, mark, numbers, pre, build, after, hbefore, hafter, hmark, hnumbers, hpre,
    hbuild⟩, ?_, ?_⟩
  · have hbody : coreText numbers ++ (partsText '-' pre ++ partsText '+' build)
        = dropMark (trim cs) := by
      rw [hcoreText, htailText]
      exact List.takeWhile_append_dropWhile
    show before ++ (mark ++ (coreText numbers ++ _)) ++ after = cs
    rw [hbody, ← hdrop, ← htrim]
  · obtain ⟨hmajor, hrest⟩ := Prod.mk.inj hparts
    obtain ⟨hminor, hpatch⟩ := Prod.mk.inj hrest
    subst hmajor hminor hpatch
    exact he

/-- The numbers of a version that was read have 64 bits. -/
theorem Spelling.version_bound (sp : Spelling) :
    sp.version.major < Nat.pow 2 64 ∧ sp.version.minor < Nat.pow 2 64 ∧
      sp.version.patch < Nat.pow 2 64 := by
  have hbound : ∀ i, sp.numbers.getD i 0 < Nat.pow 2 64 := by
    intro i
    rw [List.getD_eq_getElem?_getD]
    cases hget : sp.numbers[i]? with
    | none => exact Nat.two_pow_pos 64
    | some n => exact sp.core.bound n (List.mem_of_getElem? hget)
  exact ⟨hbound 0, hbound 1, hbound 2⟩

/-- The spelling without blanks and mark, with all three numbers. -/
def Spelling.canonical (sp : Spelling) : Spelling where
  before := []
  mark := []
  numbers := [sp.version.major, sp.version.minor, sp.version.patch]
  pre := sp.pre
  build := sp.build
  after := []
  blank_before := nofun
  blank_after := nofun
  mark_cases := .inl rfl
  core := ⟨nofun, by simp, by simpa using sp.version_bound⟩
  pre_identifiers := sp.pre_identifiers
  build_identifiers := sp.build_identifiers

theorem Spelling.text_canonical (sp : Spelling) :
    sp.canonical.text = (Version.text sp.version).toList := by
  simp [Spelling.text, body, canonical, version, Version.text, coreText, joinWith]

/-- **The texts of versions.**  A text is read as a version exactly when it is a spelling of it, and
the canonical text of every version that was read is read as the same version. -/
theorem ofText?_accepts_spellings (s : String) (v : Version) :
    (ofText? s = some v ↔ ∃ sp : Spelling, sp.text = s.toList ∧ sp.version = v) ∧
    (ofText? s = some v → ofText? v.text = some v) := by
  have hread : ofText? s = some v ↔ ∃ sp : Spelling, sp.text = s.toList ∧ sp.version = v := by
    constructor
    · exact exists_spelling
    · rintro ⟨sp, htext, rfl⟩
      rw [ofText?, ← htext]
      exact sp.ofChars?_text
  refine ⟨hread, fun h => ?_⟩
  obtain ⟨sp, -, rfl⟩ := hread.1 h
  rw [ofText?, ← sp.text_canonical]
  exact sp.canonical.ofChars?_text

/-- A version with blanks, a mark, a number left out, and dashes and dots behind its signs. -/
def candidate : String := " V1.2-rc-.10+b-7.00\t"

/-- The version that is written. -/
def candidateVersion : Version :=
  { major := 1, minor := 2, patch := 0, pre := ["rc-".toList, "10".toList],
    build := ["b-7".toList, "00".toList] }

/-- It is one of the spellings, and its canonical text is another. -/
theorem ofText?_accepts_candidate :
    ofText? candidate = some candidateVersion ∧
    (∃ sp : Spelling, sp.text = candidate.toList ∧ sp.version = candidateVersion) ∧
    Version.text candidateVersion = "1.2.0-rc-.10+b-7.00" ∧
    ofText? "1.2.0-rc-.10+b-7.00" = some candidateVersion := by
  have hread : ofText? candidate = some candidateVersion := by decide +kernel
  have htext : Version.text candidateVersion = "1.2.0-rc-.10+b-7.00" := by decide +kernel
  obtain ⟨hspelled, hagain⟩ := ofText?_accepts_spellings candidate candidateVersion
  refine ⟨hread, hspelled.1 hread, htext, ?_⟩
  rw [← htext]
  exact hagain hread

end Runbook.Version
