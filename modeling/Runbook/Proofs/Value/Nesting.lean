import Mathlib.Data.List.Basic
import Mathlib.Data.List.TakeWhile
import Runbook.Proofs.Run.Documents
/-!
# How deep step records stand inside one another

A record may hold lists of further records, to be run as steps.  Writing records as a document and
reading it again does not nest them any deeper, whatever numbers, texts and keys they hold.

* `Value.nesting` — how deep records stand inside one another by the lists that hold steps;
* `Value.nesting_lt_of_get?` — the records of such a list are nested less deep than the record that
  holds it;
* `Value.Stuck`, `Value.ReadsLike` — a text behind which no list and no record goes on, and a value
  whose text is read as one that is nested no deeper, or leaves such a text;
* `Value.readsLike` — every value is such a one;
* `Scenario.nesting_of_document` — the records of a document that was written of records.

Doubles are not always read back as they were, so what is read need not be what was written.
-/

namespace Runbook

namespace Value

/-! ### Nesting -/

/-- The keys under which a record holds lists of steps. -/
def stepKeys : List String :=
  ["commands", "onEachFailure", "onFinalFailure"]

mutual

/-- How deep records stand inside one another: a record counts one more than the records of the
lists that it holds under the keys for steps. -/
def nesting : Value → Nat
  | .arr items => nestingItems items
  | .obj fields => nestingFields fields + 1
  | _ => 0
termination_by structural v => v

/-- The nesting of the items of a list. -/
def nestingItems : List Value → Nat
  | [] => 0
  | v :: rest => max (nesting v) (nestingItems rest)
termination_by structural v => v

/-- The nesting of what the entries of a record hold under the keys for steps. -/
def nestingFields : List (String × Value) → Nat
  | [] => 0
  | entry :: rest => max (nestingEntry entry) (nestingFields rest)
termination_by structural v => v

/-- The nesting of what an entry holds under a key for steps. -/
def nestingEntry : String × Value → Nat
  | (key, v) => if key ∈ stepKeys then nesting v else 0
termination_by structural v => v

end

theorem nesting_le_of_mem {items : List Value} {v : Value} (h : v ∈ items) :
    v.nesting ≤ nestingItems items := by
  induction items with
  | nil => cases h
  | cons first rest ih =>
    rw [nestingItems]
    rcases List.mem_cons.1 h with rfl | hrest
    · exact Nat.le_max_left _ _
    · exact Nat.le_trans (ih hrest) (Nat.le_max_right _ _)

theorem nestingEntry_le_of_get? {fields : Fields} {key : String} {v : Value}
    (h : Fields.get? key fields = some v) : nestingEntry (key, v) ≤ nestingFields fields := by
  induction fields with
  | nil => cases h
  | cons entry rest ih =>
    obtain ⟨k, w⟩ := entry
    rw [nestingFields]
    rw [Fields.get?] at h
    split at h
    · next hk =>
      cases h
      exact hk ▸ Nat.le_max_left _ _
    · exact Nat.le_trans (ih h) (Nat.le_max_right _ _)

/-- **A list of steps is a strict part** of the record that holds it. -/
theorem nesting_lt_of_get? {fields : Fields} {key : String} {records : List Value}
    (hkey : key ∈ stepKeys) (h : Fields.get? key fields = some (.arr records)) :
    nestingItems records < (Value.obj fields).nesting := by
  have hentry := nestingEntry_le_of_get? h
  rw [nestingEntry, if_pos hkey] at hentry
  exact Nat.lt_succ_of_le hentry

/-- Binding a key nests a record no deeper than its entries and the new one. -/
theorem nestingFields_insert (key : String) (v : Value) (fields : Fields) :
    nestingFields (fields.insert key v) ≤ max (nestingEntry (key, v)) (nestingFields fields) := by
  induction fields with
  | nil => exact Nat.le_refl _
  | cons entry rest ih =>
    obtain ⟨k, w⟩ := entry
    rw [Fields.insert]
    split
    · rw [nestingFields, nestingFields]
      omega
    · split
      · exact Nat.le_refl _
      · rw [nestingFields, nestingFields]
        omega

theorem nestingFields_insertAll (entries : List (String × Value)) (fields : Fields) :
    nestingFields (fields.insertAll entries)
      ≤ max (nestingFields entries) (nestingFields fields) := by
  induction entries generalizing fields with
  | nil => exact Nat.le_max_right _ _
  | cons entry entries ih =>
    obtain ⟨key, v⟩ := entry
    have hstep := nestingFields_insert key v fields
    have hrest := ih (fields.insert key v)
    rw [nestingFields]
    show nestingFields ((fields.insert key v).insertAll entries) ≤ _
    omega

/-- A record that is built from entries is nested no deeper than they are. -/
theorem nesting_ofList (entries : List (String × Value)) :
    (Value.obj (Fields.ofList entries)).nesting ≤ nestingFields entries + 1 := by
  have hentries := nestingFields_insertAll entries []
  rw [nesting]
  have hnil : nestingFields [] = 0 := rfl
  rw [hnil, Nat.max_zero] at hentries
  exact Nat.succ_le_succ hentries

/-! ### Numerals -/

/-- A character of a numeral. -/
def isNumeral (c : Char) : Bool :=
  c.isDigit || c == '.' || c == 'e' || c == 'E' || c == '+' || c == '-'

/-- Characters in front of a rest that is left of a text. -/
def Takes (cs rest : List Char) : Prop :=
  ∃ used, cs = used ++ rest ∧ ∀ c ∈ used, isNumeral c = true

theorem Takes.refl (cs : List Char) : Takes cs cs :=
  ⟨[], rfl, List.forall_mem_nil _⟩

theorem Takes.trans {cs more rest : List Char} (h : Takes cs more) (h' : Takes more rest) :
    Takes cs rest := by
  obtain ⟨used, rfl, hused⟩ := h
  obtain ⟨others, rfl, hothers⟩ := h'
  refine ⟨used ++ others, (List.append_assoc _ _ _).symm, fun c hc => ?_⟩
  rcases List.mem_append.1 hc with h | h
  · exact hused c h
  · exact hothers c h

theorem Takes.cons {c : Char} (hc : isNumeral c = true) {cs rest : List Char} (h : Takes cs rest) :
    Takes (c :: cs) rest :=
  Takes.trans ⟨[c], rfl, fun _ hd => List.mem_singleton.1 hd ▸ hc⟩ h

theorem takes_digitRun (cs : List Char) : Takes cs (Decimal.digitRun cs).2 := by
  refine ⟨cs.takeWhile Char.isDigit, List.takeWhile_append_dropWhile.symm, fun c hc => ?_⟩
  have hdigit : c.isDigit = true := List.mem_takeWhile_imp hc
  rw [isNumeral, hdigit]
  rfl

theorem takes_readExponentPart? {cs rest : List Char} {e : Int}
    (h : readExponentPart? cs = some (e, rest)) : Takes cs rest := by
  have hdigits : ∀ {cs : List Char} {value : Int},
      (if (Decimal.digitRun cs).1.isEmpty = true then none
        else some (value, (Decimal.digitRun cs).2)) = some (e, rest) → Takes cs rest := by
    intro cs value hread
    split at hread
    · cases hread
    · cases hread
      exact takes_digitRun cs
  unfold readExponentPart? at h
  split at h
  · next c cs =>
    split at h
    · next hc =>
      have hnumeral : isNumeral c = true := by
        rcases hc with rfl | rfl <;> rfl
      refine Takes.cons hnumeral ?_
      -- a sign may stand in front of the digits
      dsimp only at h
      split at h
      · exact Takes.cons (c := '-') rfl (hdigits h)
      · exact Takes.cons (c := '+') rfl (hdigits h)
      · exact hdigits h
    · cases h
      exact Takes.refl _
  · cases h
    exact Takes.refl _

/-- A numeral takes characters of numerals only. -/
theorem takes_readNumber? {negative : Bool} {cs rest : List Char} {n : Number}
    (h : readNumber? negative cs = some (n, rest)) : Takes cs rest := by
  unfold readNumber? at h
  have hwhole := takes_digitRun cs
  generalize Decimal.digitRun cs = run at h hwhole
  obtain ⟨whole, more⟩ := run
  dsimp only at h hwhole
  refine hwhole.trans ?_
  replace h := (Option.ite_none_left_eq_some.1 h).2
  split at h
  · next behind =>
    split at h
    · cases h
    · obtain ⟨⟨e, left⟩, hexponent, hscaled⟩ := Option.bind_eq_some_iff.1 h
      obtain ⟨m, -, he⟩ := Option.map_eq_some_iff.1 hscaled
      cases he
      exact Takes.cons (c := '.') rfl
        ((takes_digitRun behind).trans (takes_readExponentPart? hexponent))
  · split at h
    · obtain ⟨⟨e, left⟩, hexponent, hscaled⟩ := Option.bind_eq_some_iff.1 h
      obtain ⟨m, -, he⟩ := Option.map_eq_some_iff.1 hscaled
      cases he
      exact takes_readExponentPart? hexponent
    · split at h
      · obtain ⟨m, -, he⟩ := Option.map_eq_some_iff.1 h
        cases he
        exact Takes.refl _
      · split at h
        · cases h
          exact Takes.refl _
        · split at h
          · cases h
            exact Takes.refl _
          · split at h <;> cases h <;> exact Takes.refl _

/-! ### The texts of numbers -/

/-- A character that is no blank and has no meaning between values. -/
def Inert (c : Char) : Prop :=
  isGap c = false ∧ c ∉ ['"', ',', ':', '[', ']', '\x7b', '\x7d']

instance (c : Char) : Decidable (Inert c) :=
  inferInstanceAs (Decidable (_ ∧ _))

theorem inert_of_isDigit {c : Char} (h : c.isDigit = true) : Inert c := by
  refine ⟨isGap_of_isDigit h, fun hmem => ?_⟩
  simp only [List.mem_cons, List.not_mem_nil, or_false] at hmem
  rcases hmem with rfl | rfl | rfl | rfl | rfl | rfl | rfl <;> cases h

theorem inert_toDigits (n : Nat) : ∀ c ∈ Nat.toDigits 10 n, Inert c := fun _ hc =>
  inert_of_isDigit (Nat.isDigit_of_mem_toDigits (by decide) (by decide) hc)

theorem inert_zeros (n : Nat) : ∀ c ∈ Decimal.zeros n, Inert c := fun _ hc =>
  (List.mem_replicate.1 hc).2 ▸ by decide

theorem inert_of_all {l : List Char} (h : l.all (decide <| Inert ·) = true) : ∀ c ∈ l, Inert c :=
  fun c hc => of_decide_eq_true (List.all_eq_true.1 h c hc)

/-- Characters of which none has a meaning between values. -/
theorem inert_append {l more : List Char} (h : ∀ c ∈ l, Inert c) (h' : ∀ c ∈ more, Inert c) :
    ∀ c ∈ l ++ more, Inert c := fun c hc =>
  (List.mem_append.1 hc).elim (h c) (h' c)

/-- A text that starts with a digit and has no character with a meaning between values. -/
structure Figure (cs : List Char) : Prop where
  digit : ∃ c ∈ cs.head?, c.isDigit = true
  inert : ∀ c ∈ cs, Inert c

theorem Figure.append {l more : List Char} (h : Figure l) (h' : ∀ c ∈ more, Inert c) :
    Figure (l ++ more) := by
  obtain ⟨⟨c, hc, hdigit⟩, hinert⟩ := h
  refine ⟨⟨c, ?_, hdigit⟩, inert_append hinert h'⟩
  rw [List.head?_append, Option.mem_def.1 hc]
  rfl

theorem figure_toDigits (n : Nat) : Figure (Nat.toDigits 10 n) := by
  obtain ⟨c, cs, hdigits, hc⟩ := exists_toDigits_eq_cons n
  refine ⟨⟨c, ?_, hc⟩, inert_toDigits n⟩
  rw [hdigits]
  rfl

theorem figure_positional {digits whole : List Char} (hdigits : Figure digits)
    (hwhole : ∀ c ∈ whole, Inert c) (point : Int) :
    Figure (Decimal.positional digits point whole) := by
  unfold Decimal.positional
  split
  · exact Figure.append (l := ['0', '.'] ++ Decimal.zeros (-point).toNat)
      (Figure.append ⟨⟨'0', rfl, rfl⟩, inert_of_all rfl⟩ (inert_zeros _)) hdigits.inert
  · next hpoint =>
    dsimp only
    split
    · exact (hdigits.append (inert_zeros _)).append hwhole
    · -- the first digit stands before the point
      obtain ⟨before, hbefore⟩ : ∃ before, point.toNat = before + 1 :=
        Nat.exists_eq_succ_of_ne_zero (by omega)
      obtain ⟨⟨c, hc, hdigit⟩, hinert⟩ := hdigits
      have hfront : Figure (digits.take point.toNat) := by
        refine ⟨⟨c, ?_, hdigit⟩, fun d hd => hinert d (List.mem_of_mem_take hd)⟩
        rw [hbefore, List.head?_take, if_neg (Nat.succ_ne_zero before)]
        exact hc
      exact hfront.append (inert_append (l := ['.']) (inert_of_all rfl) fun d hd =>
        hinert d (List.mem_of_mem_drop hd))

theorem figure_exponential {digits : List Char} (hdigits : Figure digits) (point : Int)
    (plus : Bool) : Figure (Decimal.exponential digits point plus) := by
  have hexponent : ∀ sign : List Char, (∀ c ∈ sign, Inert c) → ∀ n : Nat,
      ∀ c ∈ 'e' :: (sign ++ Decimal.digitsOf n), Inert c := by
    intro sign hsign n
    exact inert_append (l := ['e']) (inert_of_all rfl) (inert_append hsign (inert_toDigits n))
  have hsign : ∀ e : Int, ∀ c ∈ (if e < 0 then ['-'] else if plus then ['+'] else []),
      Inert c := by
    intro e
    split
    · exact inert_of_all rfl
    · split <;> exact inert_of_all rfl
  unfold Decimal.exponential
  dsimp only
  obtain ⟨⟨c, hc, hdigit⟩, hinert⟩ := hdigits
  cases digits with
  | nil => cases hc
  | cons first rest =>
    cases hc
    have hfirst : Figure [c] := ⟨⟨c, rfl, hdigit⟩, fun d hd =>
      List.mem_singleton.1 hd ▸ inert_of_isDigit hdigit⟩
    rw [List.append_assoc, List.cons_append]
    cases rest with
    | nil => exact hfirst.append (hexponent _ (hsign _) _)
    | cons second rest =>
      refine Figure.append (l := c :: '.' :: second :: rest) ⟨⟨c, rfl, hdigit⟩, ?_⟩
        (hexponent _ (hsign _) _)
      exact inert_append (l := [c, '.'])
        (List.forall_mem_cons.2 ⟨inert_of_isDigit hdigit, inert_of_all rfl⟩)
        fun d hd => hinert d (List.mem_cons_of_mem _ hd)

/-- A text that starts with a digit, a sign or a letter that starts no literal, and has no character
with a meaning between values. -/
structure Numeric (cs : List Char) : Prop where
  first : ∃ c ∈ cs.head?, c.isDigit = true ∨ c ∈ ['-', 'N', 'i']
  inert : ∀ c ∈ cs, Inert c

theorem Figure.numeric {cs : List Char} (h : Figure cs) : Numeric cs := by
  obtain ⟨⟨c, hc, hdigit⟩, hinert⟩ := h
  exact ⟨⟨c, hc, .inl hdigit⟩, hinert⟩

theorem numeric_neg {cs : List Char} (h : ∀ c ∈ cs, Inert c) : Numeric ('-' :: cs) :=
  ⟨⟨'-', rfl, .inr (by decide)⟩, List.forall_mem_cons.2 ⟨by decide, h⟩⟩

theorem numeric_signed (d : Double) {magnitude : List Char} (h : Figure magnitude) :
    Numeric (Decimal.signed d magnitude).toList := by
  have hbody : Numeric (if d.isFinite then magnitude else ['i', 'n', 'f']) := by
    split
    · exact h.numeric
    · exact ⟨⟨'i', rfl, .inr (by decide)⟩, inert_of_all rfl⟩
  unfold Decimal.signed
  split
  · exact ⟨⟨'N', rfl, .inr (by decide)⟩, inert_of_all rfl⟩
  · dsimp only
    rw [String.toList_ofList]
    split
    · exact numeric_neg hbody.inert
    · exact hbody

theorem numeric_text (n : Number) : Numeric n.text.toList := by
  cases n with
  | int i =>
    show Numeric (Text.intText i).toList
    unfold Text.intText
    split
    · rw [String.toList_append, Text.toList_natText]
      exact numeric_neg (inert_toDigits _)
    · rw [Text.toList_natText]
      exact (figure_toDigits _).numeric
  | double d =>
    show Numeric (Decimal.data d).toList
    have hdigits : Figure (Decimal.layout d).1 := figure_toDigits _
    unfold Decimal.data
    generalize Decimal.layout d = placed at hdigits
    obtain ⟨digits, point⟩ := placed
    refine numeric_signed d ?_
    split
    · exact figure_positional hdigits (inert_of_all rfl) point
    · exact figure_exponential hdigits point true

/-! ### What is read of a text -/

/-- A text that starts with a character behind which no list and no record goes on. -/
def Stuck (cs : List Char) : Prop :=
  ∃ c ∈ cs.head?, Inert c

/-- A text that goes on with no numeral. -/
def Ends (cs : List Char) : Prop :=
  ∀ c ∈ cs.head?, isNumeral c = false

/-- Whatever is read from the text of a value is nested no deeper than the value, and leaves what
stands behind the text, or a part of the text that cannot go on. -/
def ReadsLike (v : Value) : Prop :=
  ∀ (fuel depth : Nat) (rest : List Char) (w : Value) (left : List Char), Ends rest →
    readValue fuel depth (v.text.toList ++ rest) = some (w, left) →
    w.nesting ≤ v.nesting ∧ (left = rest ∨ Stuck left)

/-- Characters of numerals are taken from the text of a number only. -/
theorem Takes.left {cs rest left : List Char} (h : Takes (cs ++ rest) left)
    (hcs : ∀ c ∈ cs, Inert c) (hrest : Ends rest) : left = rest ∨ Stuck left := by
  obtain ⟨used, heq, hused⟩ := h
  rcases List.append_eq_append_iff.1 heq with ⟨more, rfl, rfl⟩ | ⟨more, rfl, rfl⟩
  · cases more with
    | nil => exact .inl rfl
    | cons c more =>
      have hnumeral : isNumeral c = true := hused c (List.mem_append_right _ List.mem_cons_self)
      rw [hrest c rfl] at hnumeral
      cases hnumeral
  · cases more with
    | nil => exact .inl rfl
    | cons c more =>
      exact .inr ⟨c, rfl, hcs c (List.mem_append_right _ List.mem_cons_self)⟩

theorem readsLike_num (n : Number) : ReadsLike (.num n) := by
  intro fuel depth rest w left hrest h
  obtain ⟨⟨c, hc, hfirst⟩, hinert⟩ := numeric_text n
  change readValue fuel depth (n.text.toList ++ rest) = some (w, left) at h
  suffices hread : w.nesting = 0 ∧ Takes (n.text.toList ++ rest) left from
    ⟨hread.1 ▸ Nat.zero_le _, hread.2.left hinert hrest⟩
  cases htext : n.text.toList with
  | nil =>
    rw [htext] at hc
    cases hc
  | cons first cs =>
    rw [htext] at hc h
    cases hc
    cases fuel with
    | zero => cases h
    | succ fuel =>
      rcases hfirst with hdigit | hletter
      · rw [List.cons_append, readValue_of_isDigit hdigit] at h
        obtain ⟨⟨m, more⟩, hread, he⟩ := Option.map_eq_some_iff.1 h
        cases he
        exact ⟨rfl, takes_readNumber? hread⟩
      · simp only [List.mem_cons, List.not_mem_nil, or_false] at hletter
        rcases hletter with rfl | rfl | rfl
        · change (readNumber? true (cs ++ rest)).map _ = some (w, left) at h
          obtain ⟨⟨m, more⟩, hread, he⟩ := Option.map_eq_some_iff.1 h
          cases he
          exact ⟨rfl, (takes_readNumber? hread).cons rfl⟩
        · cases h
        · cases h

theorem readsLike_str (s : String) : ReadsLike (.str s) := by
  intro fuel depth rest w left _ h
  have htext : (Value.str s).text.toList = '"' :: (s.toList.flatMap escapedChar ++ ['"']) :=
    String.toList_ofList
  cases fuel with
  | zero => cases h
  | succ fuel =>
    rw [htext, List.cons_append, List.append_assoc, List.singleton_append, readValue,
      skipGap_cons rfl] at h
    change (readString? _).map _ = _ at h
    rw [readString?_escaped] at h
    cases h
    exact ⟨Nat.le_refl 0, .inl rfl⟩

/-- The first character of a text is no blank and ends no list. -/
theorem exists_first (v : Value) :
    ∃ c cs, v.text.toList = c :: cs ∧ isGap c = false ∧ c ≠ ']' := by
  cases v with
  | null => exact ⟨_, _, rfl, rfl, by decide⟩
  | bool b => cases b <;> exact ⟨_, _, rfl, rfl, by decide⟩
  | num n =>
    obtain ⟨⟨c, hc, -⟩, hinert⟩ := numeric_text n
    show ∃ c cs, n.text.toList = c :: cs ∧ _
    cases htext : n.text.toList with
    | nil =>
      rw [htext] at hc
      cases hc
    | cons first cs =>
      obtain ⟨hgap, hmeaning⟩ := hinert first (htext ▸ List.mem_cons_self)
      exact ⟨first, cs, rfl, hgap, fun he => hmeaning (by rw [he]; decide)⟩
  | str s =>
    show ∃ c cs, (escaped s).toList = c :: cs ∧ _
    rw [escaped, String.toList_ofList]
    exact ⟨_, _, rfl, rfl, by decide⟩
  | arr =>
    rw [text, String.toList_append, String.toList_append]
    exact ⟨_, _, rfl, rfl, by decide⟩
  | obj =>
    rw [text, String.toList_append, String.toList_append]
    exact ⟨_, _, rfl, rfl, by decide⟩

theorem ends_cons {c : Char} (h : isNumeral c = false) (rest : List Char) : Ends (c :: rest) :=
  fun _ hd => Option.some.inj hd ▸ h

/-- A text that is stuck is no separator and no end of a list or record. -/
theorem Stuck.skipGap {cs : List Char} (h : Stuck cs) :
    ∃ c more, Value.skipGap cs = c :: more ∧ Inert c := by
  obtain ⟨c, hc, hinert⟩ := h
  cases cs with
  | nil => cases hc
  | cons first more =>
    cases hc
    exact ⟨c, more, skipGap_cons hinert.1 more, hinert⟩

/-- Behind the value of an item, the list goes on or is closed; it does neither where a text is
stuck. -/
theorem readItems_cons {fuel depth : Nat} {v : Value} (hread : ReadsLike v) {behind left : List Char}
    {ws : List Value} (hbehind : Ends behind)
    (h : readItems (fuel + 1) depth (v.text.toList ++ behind) = some (ws, left)) :
    ∃ w, w.nesting ≤ v.nesting ∧
      ((∃ more us, skipGap behind = ',' :: more ∧ ws = w :: us ∧
        readItems fuel depth more = some (us, left)) ∨
      skipGap behind = ']' :: left ∧ ws = [w]) := by
  rw [readItems] at h
  obtain ⟨⟨w, past⟩, hw, hgoes⟩ := Option.bind_eq_some_iff.1 h
  obtain ⟨hnesting, hpast⟩ := hread fuel depth behind w past hbehind hw
  refine ⟨w, hnesting, ?_⟩
  dsimp only at hgoes
  rcases hpast with rfl | hstuck
  · split at hgoes
    · next more hmore =>
      obtain ⟨⟨us, last⟩, hus, he⟩ := Option.map_eq_some_iff.1 hgoes
      cases he
      exact .inl ⟨more, us, hmore, rfl, hus⟩
    · next more hmore =>
      cases hgoes
      exact .inr ⟨hmore, rfl⟩
    · cases hgoes
  · obtain ⟨c, more, hskip, -, hmeaning⟩ := hstuck.skipGap
    rw [hskip] at hgoes
    split at hgoes
    · next heq =>
      cases heq
      exact absurd (by decide) hmeaning
    · next heq =>
      cases heq
      exact absurd (by decide) hmeaning
    · cases hgoes

/-- The items of a list are read as items that are nested no deeper, up to the end of the list. -/
theorem readItems_like {items : List Value} (hitems : ∀ v ∈ items, ReadsLike v) (hne : items ≠ [])
    {fuel depth : Nat} {rest left : List Char} {ws : List Value}
    (h : readItems fuel depth ((textItems items).toList ++ ']' :: rest) = some (ws, left)) :
    nestingItems ws ≤ nestingItems items ∧ left = rest := by
  induction items generalizing fuel ws with
  | nil => exact absurd rfl hne
  | cons v items ih =>
    have hread := hitems v List.mem_cons_self
    cases fuel with
    | zero => cases h
    | succ fuel =>
      cases items with
      | nil =>
        rw [textItems_singleton] at h
        obtain ⟨w, hw, ⟨more, us, hskip, -, -⟩ | ⟨hskip, rfl⟩⟩ :=
          readItems_cons hread (ends_cons rfl _) h
        · cases hskip
        · cases hskip
          exact ⟨by simpa [nestingItems] using hw, rfl⟩
      | cons next items =>
        rw [textItems_cons_cons, List.append_assoc, List.cons_append] at h
        obtain ⟨w, hw, ⟨more, us, hskip, rfl, hmore⟩ | ⟨hskip, rfl⟩⟩ :=
          readItems_cons hread (ends_cons rfl _) h
        · cases hskip
          obtain ⟨hus, hleft⟩ := ih (fun v hv => hitems v (List.mem_cons_of_mem _ hv))
            (List.cons_ne_nil _ _) hmore
          refine ⟨?_, hleft⟩
          rw [nestingItems, nestingItems]
          omega
        · cases hskip

/-- A list is closed at once, or it has items. -/
theorem readsLike_arr {items : List Value} (hitems : ∀ v ∈ items, ReadsLike v) :
    ReadsLike (.arr items) := by
  intro fuel depth rest w left _ h
  have htext : (Value.arr items).text.toList = '[' :: ((textItems items).toList ++ [']']) := by
    rw [text, String.toList_append, String.toList_append]
    rfl
  rw [htext, List.cons_append, List.append_assoc, List.singleton_append] at h
  cases fuel with
  | zero => cases h
  | succ fuel =>
    rw [readValue, skipGap_cons rfl] at h
    replace h := (Option.ite_none_left_eq_some.1 h).2
    cases items with
    | nil =>
      cases h
      exact ⟨Nat.le_refl 0, .inl rfl⟩
    | cons v items =>
      obtain ⟨c, cs, hcons, hgap, hc⟩ := exists_first v
      have hfirst : (textItems (v :: items)).toList
          = c :: (cs ++ (textMoreItems items).toList) := by
        rw [textItems, String.toList_append, hcons, List.cons_append]
      rw [hfirst, List.cons_append, skipGap_cons hgap] at h
      split at h
      · next heq =>
        cases heq
        exact absurd rfl hc
      · rw [← List.cons_append, ← hfirst] at h
        obtain ⟨⟨ws, last⟩, hws, he⟩ := Option.map_eq_some_iff.1 h
        cases he
        obtain ⟨hnesting, hleft⟩ := readItems_like hitems (List.cons_ne_nil v items) hws
        exact ⟨hnesting, .inl hleft⟩

theorem nestingEntry_le {key : String} {v w : Value} (h : w.nesting ≤ v.nesting) :
    nestingEntry (key, w) ≤ nestingEntry (key, v) := by
  rw [nestingEntry, nestingEntry]
  split
  · exact h
  · exact Nat.le_refl 0

/-- Behind the value of an entry, the record goes on or is closed; it does neither where a text is
stuck. -/
theorem readEntries_cons {fuel depth : Nat} {key : String} {v : Value} (hread : ReadsLike v)
    {behind left : List Char} {entries : List (String × Value)} (hbehind : Ends behind)
    (h : readEntries (fuel + 1) depth ((textEntry (key, v)).toList ++ behind)
      = some (entries, left)) :
    ∃ w, w.nesting ≤ v.nesting ∧
      ((∃ more others, skipGap behind = ',' :: more ∧ entries = (key, w) :: others ∧
        readEntries fuel depth more = some (others, left)) ∨
      skipGap behind = '\x7d' :: left ∧ entries = [(key, w)]) := by
  rw [toList_textEntry, List.cons_append, List.append_assoc, List.cons_append, List.cons_append,
    readEntries, skipGap_cons rfl] at h
  change (readString? _).bind _ = _ at h
  rw [readString?_escaped, Option.bind_some] at h
  change (readValue _ _ _).bind _ = _ at h
  obtain ⟨⟨w, past⟩, hw, hgoes⟩ := Option.bind_eq_some_iff.1 h
  obtain ⟨hnesting, hpast⟩ := hread fuel depth behind w past hbehind hw
  refine ⟨w, hnesting, ?_⟩
  dsimp only at hgoes
  rcases hpast with rfl | hstuck
  · split at hgoes
    · next more hmore =>
      obtain ⟨⟨others, last⟩, hothers, he⟩ := Option.map_eq_some_iff.1 hgoes
      cases he
      exact .inl ⟨more, others, hmore, rfl, hothers⟩
    · next more hmore =>
      cases hgoes
      exact .inr ⟨hmore, rfl⟩
    · cases hgoes
  · obtain ⟨c, more, hskip, -, hmeaning⟩ := hstuck.skipGap
    rw [hskip] at hgoes
    split at hgoes
    · next heq =>
      cases heq
      exact absurd (by decide) hmeaning
    · next heq =>
      cases heq
      exact absurd (by decide) hmeaning
    · cases hgoes

/-- The entries of a record are read as entries that are nested no deeper, up to the end of the
record. -/
theorem readEntries_like {fields : List (String × Value)}
    (hfields : ∀ entry ∈ fields, ReadsLike entry.2) (hne : fields ≠ []) {fuel depth : Nat}
    {rest left : List Char} {entries : List (String × Value)}
    (h : readEntries fuel depth ((textFields fields).toList ++ '\x7d' :: rest)
      = some (entries, left)) :
    nestingFields entries ≤ nestingFields fields ∧ left = rest := by
  induction fields generalizing fuel entries with
  | nil => exact absurd rfl hne
  | cons entry fields ih =>
    obtain ⟨key, v⟩ := entry
    have hread : ReadsLike v := hfields (key, v) List.mem_cons_self
    cases fuel with
    | zero => cases h
    | succ fuel =>
      cases fields with
      | nil =>
        rw [textFields_singleton] at h
        obtain ⟨w, hw, ⟨more, others, hskip, -, -⟩ | ⟨hskip, rfl⟩⟩ :=
          readEntries_cons hread (ends_cons rfl _) h
        · cases hskip
        · cases hskip
          exact ⟨by simpa [nestingFields] using nestingEntry_le hw, rfl⟩
      | cons next fields =>
        rw [textFields_cons_cons, List.append_assoc, List.cons_append] at h
        obtain ⟨w, hw, ⟨more, others, hskip, rfl, hmore⟩ | ⟨hskip, rfl⟩⟩ :=
          readEntries_cons hread (ends_cons rfl _) h
        · cases hskip
          obtain ⟨hothers, hleft⟩ := ih (fun e he => hfields e (List.mem_cons_of_mem _ he))
            (List.cons_ne_nil _ _) hmore
          have hentry : nestingEntry (key, w) ≤ nestingEntry (key, v) := nestingEntry_le hw
          refine ⟨?_, hleft⟩
          rw [nestingFields, nestingFields]
          omega
        · cases hskip

/-- A record is closed at once, or it has entries. -/
theorem readsLike_obj {fields : Fields} (hfields : ∀ entry ∈ fields, ReadsLike entry.2) :
    ReadsLike (.obj fields) := by
  intro fuel depth rest w left _ h
  have htext : (Value.obj fields).text.toList
      = '\x7b' :: ((textFields fields).toList ++ ['\x7d']) := by
    rw [text, String.toList_append, String.toList_append]
    rfl
  rw [htext, List.cons_append, List.append_assoc, List.singleton_append] at h
  cases fuel with
  | zero => cases h
  | succ fuel =>
    rw [readValue, skipGap_cons rfl] at h
    replace h := (Option.ite_none_left_eq_some.1 h).2
    cases fields with
    | nil =>
      cases h
      exact ⟨Nat.le_refl _, .inl rfl⟩
    | cons entry fields =>
      obtain ⟨cs, hcs⟩ : ∃ cs, (textFields (entry :: fields)).toList = '"' :: cs := by
        rw [textFields, String.toList_append, toList_textEntry]
        exact ⟨_, rfl⟩
      rw [hcs, List.cons_append, skipGap_cons rfl] at h
      change (readEntries fuel (depth - 1) ('"' :: (cs ++ _))).map _ = _ at h
      rw [← List.cons_append, ← hcs] at h
      obtain ⟨⟨entries, last⟩, hentries, he⟩ := Option.map_eq_some_iff.1 h
      cases he
      obtain ⟨hnesting, hleft⟩ := readEntries_like hfields (List.cons_ne_nil _ _) hentries
      exact ⟨Nat.le_trans (nesting_ofList entries) (Nat.succ_le_succ hnesting), .inl hleft⟩

/-- **Every value** is read as one that is nested no deeper. -/
theorem readsLike (v : Value) : ReadsLike v := by
  cases v with
  | null =>
    intro fuel depth rest w left _ h
    cases fuel with
    | zero => cases h
    | succ fuel =>
      cases h
      exact ⟨Nat.le_refl 0, .inl rfl⟩
  | bool b =>
    intro fuel depth rest w left _ h
    cases fuel with
    | zero => cases h
    | succ fuel => cases b <;> cases h <;> exact ⟨Nat.le_refl 0, .inl rfl⟩
  | num n => exact readsLike_num n
  | str s => exact readsLike_str s
  | arr items => exact readsLike_arr fun v _ => readsLike v
  | obj fields => exact readsLike_obj fun entry _ => readsLike entry.2
termination_by sizeOf v
decreasing_by
  · have hless := List.sizeOf_lt_of_mem ‹v ∈ items›
    simp only [arr.sizeOf_spec]
    omega
  · have hless := List.sizeOf_lt_of_mem ‹entry ∈ fields›
    obtain ⟨key, v⟩ := entry
    simp only [obj.sizeOf_spec, Prod.mk.sizeOf_spec] at hless ⊢
    omega

theorem nesting_of_ofChars? {v w : Value} (h : ofChars? v.text.toList = some w) :
    w.nesting ≤ v.nesting := by
  obtain ⟨⟨u, left⟩, hread, hu⟩ := Option.bind_eq_some_iff.1 h
  dsimp only at hu
  split at hu
  · cases hu
    rw [← List.append_nil v.text.toList] at hread
    exact (readsLike v _ _ _ _ _ (fun _ hc => absurd hc (by simp)) hread).1
  · cases hu

/-- What starts with a brace is a record. -/
theorem exists_fields_of_ofChars? {cs : List Char} {w : Value}
    (h : ofChars? ('\x7b' :: cs) = some w) : ∃ fields, w = .obj fields := by
  obtain ⟨⟨u, left⟩, hread, hu⟩ := Option.bind_eq_some_iff.1 h
  obtain rfl : u = w := by
    dsimp only at hu
    split at hu
    · exact Option.some.inj hu
    · cases hu
  rw [readValue, skipGap_cons rfl] at hread
  replace hread := (Option.ite_none_left_eq_some.1 hread).2
  split at hread
  · cases hread
    exact ⟨[], rfl⟩
  · obtain ⟨⟨entries, last⟩, -, he⟩ := Option.map_eq_some_iff.1 hread
    cases he
    exact ⟨_, rfl⟩

end Value

namespace Scenario

theorem nesting_document (records : List Value) :
    (Value.obj [("commands", .arr records)]).nesting = Value.nestingItems records + 1 := by
  have hkey : "commands" ∈ Value.stepKeys := by decide
  rw [Value.nesting, Value.nestingFields, Value.nestingFields, Value.nestingEntry, if_pos hkey,
    Nat.max_zero, Value.nesting]

/-- **Records that are written as a document** and read again are nested no deeper. -/
theorem nesting_of_document {records : List Value} {scenario : Scenario}
    (h : ofText (document records) = .ok scenario) :
    Value.nestingItems scenario.commands ≤ Value.nestingItems records := by
  rw [ofText] at h
  split at h
  · cases h
    exact Nat.zero_le _
  · unfold document Document.value at h
    dsimp only at h
    rw [if_pos (Document.isBraced_text _), Text.Utf8.decode?_ofString, Option.bind_some] at h
    cases hread : Value.ofChars? (Value.obj [("commands", .arr records)]).text.toList with
    | none =>
      rw [hread] at h
      cases h
    | some w =>
      rw [hread] at h
      have hnesting := Value.nesting_of_ofChars? hread
      rw [nesting_document] at hnesting
      rw [Value.text, String.toList_append, String.toList_append] at hread
      obtain ⟨fields, rfl⟩ := Value.exists_fields_of_ofChars? hread
      change ofValue (.obj fields) = .ok scenario at h
      rw [ofValue] at h
      split at h
      · cases h
        exact Nat.zero_le _
      · next commands hcommands =>
        cases h
        have hless := Value.nesting_lt_of_get? (by decide) hcommands
        show Value.nestingItems commands ≤ _
        omega
      · cases h

end Scenario

end Runbook
