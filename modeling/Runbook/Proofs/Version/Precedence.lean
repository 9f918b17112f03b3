import Runbook.Condition.Functions
import Runbook.Proofs.Version.Spelling
/-!
# The precedence of versions

The comparisons of versions belong to one order, which looks at what is written and not at how.

* `compareText_eq`, `comparePart_eq`, `compareParts_eq`, `comparePre_eq`, `compare_eq` — precedence
  is put together from orders on numbers, truth values and lists;
* `compare_eq_eq_iff` — two versions have the same rank when their numbers and pre-releases are the
  same;
* `Condition.says?` — what a comparison says of two texts;
* `Spelling.SameRank`, `Spelling.ReleaseOf` — spellings that differ in their form and their build
  metadata at most, and a pre-release with its release;
* `Condition.comparisons_order_versions` — the comparisons are those of a total preorder, in which
  such spellings have one place and a pre-release comes before its release.
-/

namespace Runbook

namespace Version

/-! ### Precedence as an order -/

theorem compareText_eq : compareText = List.compareLex (compareOn Char.toNat) := by
  funext a b
  induction a generalizing b with
  | nil => cases b <;> rfl
  | cons c a ih =>
    cases b with
    | nil => rfl
    | cons d b =>
      rw [compareText, List.compareLex_cons_cons, ih]
      rfl

/-- Numeric identifiers come first, the shorter of them before the longer. -/
theorem comparePart_eq :
    comparePart = compareLex (compareOn fun part => !isNumeric part)
      (compareLex (compareOn fun part => if isNumeric part then part.length else 0)
        compareText) := by
  funext a b
  unfold comparePart
  show _ = (Ord.compare (!isNumeric a) (!isNumeric b)).then
    ((Ord.compare (if isNumeric a then a.length else 0) (if isNumeric b then b.length else 0)).then
      (compareText a b))
  cases isNumeric a <;> cases isNumeric b <;> rfl

theorem compareParts_eq : compareParts = List.compareLex comparePart := by
  funext a b
  induction a generalizing b with
  | nil => cases b <;> rfl
  | cons c a ih =>
    cases b with
    | nil => rfl
    | cons d b => rw [compareParts, List.compareLex_cons_cons, ih]

theorem comparePre_eq : comparePre = compareLex (compareOn List.isEmpty) compareParts := by
  funext a b
  cases a <;> cases b <;> rfl

theorem compare_eq :
    compare = compareLex (compareOn major) (compareLex (compareOn minor)
      (compareLex (compareOn patch) fun v w => comparePre v.pre w.pre)) := by
  rfl

instance : Std.TransCmp compareText := compareText_eq ▸ inferInstance

instance : Std.TransCmp comparePart := comparePart_eq ▸ inferInstance

instance : Std.TransCmp compareParts := compareParts_eq ▸ inferInstance

instance : Std.TransCmp comparePre := comparePre_eq ▸ inferInstance

instance : Std.TransCmp fun v w : Version => comparePre v.pre w.pre where
  eq_swap := Std.OrientedCmp.eq_swap
  isLE_trans := fun h h' => Std.TransCmp.isLE_trans h h'

instance : Std.TransCmp compare := compare_eq ▸ inferInstance

/-! ### Versions of one rank -/

theorem eq_of_compareText {a b : List Char} (h : compareText a b = .eq) : a = b := by
  induction a generalizing b with
  | nil =>
    cases b with
    | nil => rfl
    | cons d b => cases h
  | cons c a ih =>
    cases b with
    | nil => cases h
    | cons d b =>
      obtain ⟨hfirst, hrest⟩ := Ordering.then_eq_eq.1 h
      rw [Char.toNat_inj.1 (Nat.compare_eq_eq.1 hfirst), ih hrest]

theorem eq_of_comparePart {a b : List Char} (h : comparePart a b = .eq) : a = b := by
  unfold comparePart at h
  split at h
  · exact eq_of_compareText (Ordering.then_eq_eq.1 h).2
  · cases h
  · cases h
  · exact eq_of_compareText h

theorem eq_of_compareParts {a b : List (List Char)} (h : compareParts a b = .eq) : a = b := by
  induction a generalizing b with
  | nil =>
    cases b with
    | nil => rfl
    | cons d b => cases h
  | cons c a ih =>
    cases b with
    | nil => cases h
    | cons d b =>
      obtain ⟨hfirst, hrest⟩ := Ordering.then_eq_eq.1 h
      rw [eq_of_comparePart hfirst, ih hrest]

theorem comparePre_eq_eq_iff {a b : List (List Char)} : comparePre a b = .eq ↔ a = b := by
  constructor
  · intro h
    rw [comparePre_eq] at h
    exact eq_of_compareParts (Ordering.then_eq_eq.1 h).2
  · rintro rfl
    exact Std.ReflCmp.compare_self

/-- Two versions have one rank when they differ in their build metadata at most. -/
theorem compare_eq_eq_iff {v w : Version} :
    v.compare w = .eq ↔
      v.major = w.major ∧ v.minor = w.minor ∧ v.patch = w.patch ∧ v.pre = w.pre := by
  unfold compare
  rw [Ordering.then_eq_eq, Ordering.then_eq_eq, Ordering.then_eq_eq, Nat.compare_eq_eq,
    Nat.compare_eq_eq, Nat.compare_eq_eq, comparePre_eq_eq_iff]

/-! ### Spellings of one rank -/

namespace Spelling

variable {sp other : Spelling}

/-- Two spellings have the same numbers, those that are missing being zero. -/
def SameNumbers (sp other : Spelling) : Prop :=
  ∀ place < 3, sp.numbers.getD place 0 = other.numbers.getD place 0

/-- Two spellings that differ in blanks, marks, zeros that are left out and build metadata at
most. -/
structure SameRank (sp other : Spelling) : Prop where
  numbers : sp.SameNumbers other
  pre : sp.pre = other.pre

/-- A spelling of the release that a pre-release comes before. -/
structure ReleaseOf (release sp : Spelling) : Prop where
  numbers : sp.SameNumbers release
  pre : sp.pre ≠ []
  release : release.pre = []

theorem sameNumbers_iff : sp.SameNumbers other ↔
    sp.version.major = other.version.major ∧ sp.version.minor = other.version.minor ∧
      sp.version.patch = other.version.patch := by
  constructor
  · intro h
    exact ⟨h 0 (by decide), h 1 (by decide), h 2 (by decide)⟩
  · rintro ⟨hmajor, hminor, hpatch⟩ place hplace
    match place, hplace with
    | 0, _ => exact hmajor
    | 1, _ => exact hminor
    | 2, _ => exact hpatch

theorem sameRank_iff : sp.SameRank other ↔ sp.version.compare other.version = .eq := by
  rw [compare_eq_eq_iff]
  constructor
  · intro h
    obtain ⟨hmajor, hminor, hpatch⟩ := sameNumbers_iff.1 h.numbers
    exact ⟨hmajor, hminor, hpatch, h.pre⟩
  · rintro ⟨hmajor, hminor, hpatch, hpre⟩
    exact ⟨sameNumbers_iff.2 ⟨hmajor, hminor, hpatch⟩, hpre⟩

/-- A pre-release comes before its release. -/
theorem ReleaseOf.compare_eq_lt (h : other.ReleaseOf sp) :
    sp.version.compare other.version = .lt := by
  obtain ⟨hmajor, hminor, hpatch⟩ := sameNumbers_iff.1 h.numbers
  have hpre : comparePre sp.version.pre other.version.pre = .lt := by
    show comparePre sp.pre other.pre = .lt
    obtain ⟨part, parts, hcons⟩ := List.exists_cons_of_ne_nil h.pre
    rw [hcons, h.release]
    rfl
  unfold compare
  rw [Nat.compare_eq_eq.2 hmajor, Nat.compare_eq_eq.2 hminor, Nat.compare_eq_eq.2 hpatch, hpre]
  rfl

end Spelling

/-- Two texts that spell versions of one rank. -/
def SameRank (s t : String) : Prop :=
  ∃ sp other : Spelling, sp.text = s.toList ∧ other.text = t.toList ∧ sp.SameRank other

/-- A text that spells the release of the pre-release that another text spells. -/
def ReleaseOf (release s : String) : Prop :=
  ∃ sp other : Spelling, sp.text = s.toList ∧ other.text = release.toList ∧ other.ReleaseOf sp

theorem ofText?_of_text {sp : Spelling} {s : String} (h : sp.text = s.toList) :
    ofText? s = some sp.version := by
  rw [ofText?, ← h]
  exact sp.ofChars?_text

theorem sameRank_iff {s t : String} {v w : Version} (hs : ofText? s = some v)
    (ht : ofText? t = some w) : SameRank s t ↔ v.compare w = .eq := by
  constructor
  · rintro ⟨sp, other, hsp, hother, hsame⟩
    cases hs.symm.trans (ofText?_of_text hsp)
    cases ht.symm.trans (ofText?_of_text hother)
    exact Spelling.sameRank_iff.1 hsame
  · intro h
    obtain ⟨sp, hsp, rfl⟩ := exists_spelling hs
    obtain ⟨other, hother, rfl⟩ := exists_spelling ht
    exact ⟨sp, other, hsp, hother, Spelling.sameRank_iff.2 h⟩

end Version

namespace Condition

open Version

/-! ### Comparisons of texts -/

/-- What a comparison says of two texts, if it says anything. -/
def says? (name : String) (a b : String) : Option Bool :=
  (versionHelpers.lookup name).bind fun helper =>
    match helper [.str a, .str b] with
    | .ok (.bool answer) => some answer
    | _ => none

/-- A comparison holds of two texts. -/
def Says (name : String) (a b : String) : Prop :=
  says? name a b = some true

/-- The names of the comparisons. -/
def comparisons : List String :=
  versionHelpers.map Prod.fst

section Answers

variable {a b : String} {v w : Version} (ha : ofText? a = some v) (hb : ofText? b = some w)

include ha hb

/-- A comparison says what it accepts of the order of two versions. -/
theorem says?_of_lookup {name : String} {accept : Ordering → Bool}
    (h : versionHelpers.lookup name = some (versionHelper name accept)) :
    says? name a b = some (accept (v.compare w)) := by
  have hleft : versionArg name 1 (.str a) = .ok v := by
    unfold versionArg
    simp only [ha]
  have hright : versionArg name 2 (.str b) = .ok w := by
    unfold versionArg
    simp only [hb]
  have hanswer : versionHelper name accept [.str a, .str b]
      = .ok (.bool (accept (v.compare w))) := by
    unfold versionHelper
    dsimp only
    rw [hleft, hright]
    rfl
  unfold says?
  rw [h, Option.bind_some, hanswer]

theorem says_lt : Says "version_lt" a b ↔ v.compare w = .lt := by
  rw [Says, says?_of_lookup ha hb rfl]
  simp

theorem says_lte : Says "version_lte" a b ↔ (v.compare w).isLE = true := by
  rw [Says, says?_of_lookup ha hb rfl]
  cases v.compare w <;> decide

theorem says_gt : Says "version_gt" a b ↔ v.compare w = .gt := by
  rw [Says, says?_of_lookup ha hb rfl]
  simp

theorem says_gte : Says "version_gte" a b ↔ v.compare w ≠ .lt := by
  rw [Says, says?_of_lookup ha hb rfl]
  simp

theorem says_eq : Says "version_eq" a b ↔ v.compare w = .eq := by
  rw [Says, says?_of_lookup ha hb rfl]
  simp

end Answers

/-- Every comparison accepts some orders of two versions. -/
theorem exists_accept {name : String} (h : name ∈ comparisons) :
    ∃ accept, versionHelpers.lookup name = some (versionHelper name accept) := by
  have hnames : comparisons
      = ["version_lt", "version_lte", "version_gt", "version_gte", "version_eq"] := rfl
  rw [hnames] at h
  simp only [List.mem_cons, List.not_mem_nil, or_false] at h
  rcases h with rfl | rfl | rfl | rfl | rfl <;> exact ⟨_, rfl⟩

/-- **The comparisons are those of one order.**  Of all texts that are read as versions:

* each comparison says something, and exactly one of less, equal and greater holds;
* the other two are less or equal, and greater or equal; greater is less the other way round, and
  less or equal is transitive;
* two texts are equal exactly when they differ in blanks around them, a mark in front, zeros that
  are left out and build metadata at most, and then no comparison tells them apart;
* a pre-release is less than its release. -/
theorem comparisons_order_versions {a b c : String} (ha : (ofText? a).isSome = true)
    (hb : (ofText? b).isSome = true) (hc : (ofText? c).isSome = true) :
    (∀ name ∈ comparisons, (says? name a b).isSome = true) ∧
    (Says "version_lt" a b ∧ ¬Says "version_eq" a b ∧ ¬Says "version_gt" a b ∨
      ¬Says "version_lt" a b ∧ Says "version_eq" a b ∧ ¬Says "version_gt" a b ∨
      ¬Says "version_lt" a b ∧ ¬Says "version_eq" a b ∧ Says "version_gt" a b) ∧
    (Says "version_lte" a b ↔ Says "version_lt" a b ∨ Says "version_eq" a b) ∧
    (Says "version_gte" a b ↔ Says "version_gt" a b ∨ Says "version_eq" a b) ∧
    (Says "version_lt" a b ↔ Says "version_gt" b a) ∧
    (Says "version_lte" a b → Says "version_lte" b c → Says "version_lte" a c) ∧
    (Says "version_eq" a b ↔ SameRank a b) ∧
    (∀ other, SameRank a other → ∀ name ∈ comparisons,
      says? name other b = says? name a b ∧ says? name b other = says? name b a) ∧
    ∀ release, ReleaseOf release a → Says "version_lt" a release := by
  obtain ⟨u, hu⟩ := Option.isSome_iff_exists.1 ha
  obtain ⟨v, hv⟩ := Option.isSome_iff_exists.1 hb
  obtain ⟨w, hw⟩ := Option.isSome_iff_exists.1 hc
  have hswap : u.compare v = (v.compare u).swap := Std.OrientedCmp.eq_swap
  refine ⟨?_, ?_, ?_, ?_, ?_, ?_, ?_, ?_, ?_⟩
  · intro name hname
    obtain ⟨accept, haccept⟩ := exists_accept hname
    rw [says?_of_lookup hu hv haccept]
    rfl
  · rw [says_lt hu hv, says_eq hu hv, says_gt hu hv]
    cases u.compare v <;> decide
  · rw [says_lte hu hv, says_lt hu hv, says_eq hu hv]
    cases u.compare v <;> decide
  · rw [says_gte hu hv, says_gt hu hv, says_eq hu hv]
    cases u.compare v <;> decide
  · rw [says_lt hu hv, says_gt hv hu, hswap]
    cases v.compare u <;> decide
  · rw [says_lte hu hv, says_lte hv hw, says_lte hu hw]
    exact Std.TransCmp.isLE_trans
  · rw [says_eq hu hv, sameRank_iff hu hv]
  · intro other hsame name hname
    have ⟨_, sp, _, hsp, _⟩ := hsame
    have hother := ofText?_of_text hsp
    obtain ⟨accept, haccept⟩ := exists_accept hname
    have hrank := (sameRank_iff hu hother).1 hsame
    have hleft : u.compare v = sp.version.compare v := Std.TransCmp.congr_left hrank
    have hright : v.compare u = v.compare sp.version := Std.TransCmp.congr_right hrank
    rw [says?_of_lookup hother hv haccept, says?_of_lookup hu hv haccept,
      says?_of_lookup hv hother haccept, says?_of_lookup hv hu haccept, hleft, hright]
    exact ⟨rfl, rfl⟩
  · rintro release ⟨sp, other, hsp, hother, hrelease⟩
    rw [says_lt (ofText?_of_text hsp) (ofText?_of_text hother)]
    exact hrelease.compare_eq_lt

/-- A candidate for a release, with blanks, a mark, a number left out and build metadata. -/
def earlyCandidate : String := " v1.2-rc.2+x.1\t"

/-- A later candidate for the same release. -/
def lateCandidate : String := "1.2.0-rc.10"

/-- Candidates count by their numbers, however they are written, and come before the release. -/
theorem comparisons_order_candidates :
    ((ofText? earlyCandidate).isSome = true ∧ (ofText? lateCandidate).isSome = true ∧
      (ofText? "V1.2").isSome = true) ∧
    SameRank earlyCandidate "1.2.0-rc.2" ∧
    Says "version_lt" "1.2.0-rc.2" lateCandidate ∧
    Says "version_lte" earlyCandidate "V1.2" := by
  have hearly : (ofText? earlyCandidate).isSome = true := by decide +kernel
  have hlate : (ofText? lateCandidate).isSome = true := by decide +kernel
  have hplain : (ofText? "1.2.0-rc.2").isSome = true := by decide +kernel
  have hrelease : (ofText? "V1.2").isSome = true := by decide +kernel
  have hless : says? "version_lt" earlyCandidate lateCandidate = some true := by decide +kernel
  have hequal : Says "version_eq" earlyCandidate "1.2.0-rc.2" := by
    unfold Says
    decide +kernel
  have hbefore : Says "version_lte" lateCandidate "V1.2" := by
    unfold Says
    decide +kernel
  obtain ⟨-, -, -, -, -, -, hrank, -⟩ := comparisons_order_versions hearly hplain hlate
  have hsame := hrank.1 hequal
  obtain ⟨-, -, hlte, -, -, htrans, -, hrespelled, -⟩ :=
    comparisons_order_versions hearly hlate hrelease
  refine ⟨⟨hearly, hlate, hrelease⟩, hsame, ?_, htrans (hlte.2 (.inl hless)) hbefore⟩
  exact (hrespelled _ hsame "version_lt" (by decide)).1.trans hless

end Condition

end Runbook
