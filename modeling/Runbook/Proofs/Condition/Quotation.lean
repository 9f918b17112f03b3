import Mathlib.Data.List.Basic
import Runbook.Condition.Eval
/-!
# Texts between single quotes

A text between single quotes is written with a backslash in front of each backslash and each single
quote in it.  Wherever it stands in a condition, it becomes a literal between double quotes that
the expression language reads as the very same text.

* `openAfter` — the quotation mark that is open behind some characters;
* `requote_append` — behind a place where none is open, requoting starts afresh;
* `literal` — a text between quotation marks; `requote_literal` — one kind becomes the other;
* `readText_literal` — such a literal is read as the text it was made of;
* `doubleQuoted_literal` — all of this in its place, and what it means for a comparison.
-/

namespace Runbook.Condition

open Runbook.Text

/-! ### Open quotation marks -/

/-- The quotation marks. -/
def marks : List Char := ['\'', '"', '\x60']

/-- The quotation mark that is open behind some characters, when `quote` is open in front of
them. -/
def openAfter : (quote : Option Char) → List Char → Option Char
  | quote, [] => quote
  | none, c :: cs =>
    if c ∈ marks then openAfter (some c) cs else openAfter none cs
  | some q, ['\\'] => some q
  | some q, '\\' :: _ :: cs => openAfter (some q) cs
  | some q, c :: cs => if c = q then openAfter none cs else openAfter (some q) cs

/-- Between quotation marks, a character that is no backslash is taken by itself. -/
theorem requote_cons {q c : Char} (hc : c ≠ '\\') (cs : List Char) :
    requote (some q) (c :: cs)
      = if c = q then (if q = '\'' then '"' else c) :: requote none cs
        else if q = '\'' ∧ c = '"' then '\\' :: c :: requote (some q) cs
        else c :: requote (some q) cs :=
  requote.eq_5 q c cs (fun h => absurd h hc) (fun _ _ h => absurd h hc)

theorem openAfter_cons {q c : Char} (hc : c ≠ '\\') (cs : List Char) :
    openAfter (some q) (c :: cs) = if c = q then openAfter none cs else openAfter (some q) cs :=
  openAfter.eq_5 q c cs (fun h => absurd h hc) (fun _ _ h => absurd h hc)

/-- A character that only the two patterns of a backslash could have taken is no backslash. -/
theorem ne_backslash {c : Char} {cs : List Char} (hlast : c = '\\' → cs = [] → False)
    (hmore : ∀ d rest, c = '\\' → cs = d :: rest → False) : c ≠ '\\' := by
  intro hc
  cases cs with
  | nil => exact hlast hc rfl
  | cons d rest => exact hmore d rest hc rfl

/-- Outside of texts, a character that is no quotation mark is kept. -/
theorem requote_of_unmarked {c : Char} (hc : c ∉ marks) (cs : List Char) :
    requote none (c :: cs) = c :: requote none cs := by
  simp only [marks, List.mem_cons, List.not_mem_nil, or_false, not_or] at hc
  obtain ⟨hsingle, hdouble, hverbatim⟩ := hc
  rw [requote, if_neg hsingle, if_neg (not_or.2 ⟨hdouble, hverbatim⟩)]

/-- Outside of texts, a quotation mark opens one. -/
theorem requote_of_mark {c : Char} (hc : c ∈ marks) (cs : List Char) :
    requote none (c :: cs) = (if c = '\'' then '"' else c) :: requote (some c) cs := by
  simp only [marks, List.mem_cons, List.not_mem_nil, or_false] at hc
  rw [requote]
  split
  · rfl
  · next hsingle => exact if_pos (hc.resolve_left hsingle)

/-- Where no quotation mark is open, requoting starts afresh. -/
theorem requote_append {quote : Option Char} {front : List Char}
    (h : openAfter quote front = none) (back : List Char) :
    requote quote (front ++ back) = requote quote front ++ requote none back := by
  fun_induction openAfter quote front with
  | case1 quote =>
    subst h
    rfl
  | case2 c cs hmark ih =>
    rw [List.cons_append, requote_of_mark hmark, requote_of_mark hmark, ih h, List.cons_append]
  | case3 c cs hplain ih =>
    rw [List.cons_append, requote_of_unmarked hplain, requote_of_unmarked hplain, ih h,
      List.cons_append]
  | case4 q => cases h
  | case5 q c cs ih =>
    rw [List.cons_append, List.cons_append, requote, requote]
    split <;> simp only [ih h, List.cons_append]
  | case6 c cs hlast hmore ih =>
    have hc := ne_backslash hlast hmore
    rw [List.cons_append, requote_cons hc, requote_cons hc, if_pos rfl, if_pos rfl, ih h,
      List.cons_append]
  | case7 q c cs hlast hmore hq ih =>
    have hc := ne_backslash hlast hmore
    rw [List.cons_append, requote_cons hc, requote_cons hc, if_neg hq, if_neg hq]
    split <;> simp only [ih h, List.cons_append]

/-- Characters outside of texts without quotation marks are kept. -/
theorem requote_append_of_unmarked {front : List Char} (h : ∀ c ∈ front, c ∉ marks)
    (back : List Char) : requote none (front ++ back) = front ++ requote none back := by
  induction front with
  | nil => rfl
  | cons c front ih =>
    have hfront : ∀ d ∈ front, d ∉ marks := fun d hd => h d (List.mem_cons_of_mem c hd)
    rw [List.cons_append, requote_of_unmarked (h c List.mem_cons_self), ih hfront,
      List.cons_append]

/-! ### Literals -/

/-- A character of a text between quotation marks. -/
def escaped (quote c : Char) : List Char :=
  if c = '\\' ∨ c = quote then ['\\', c] else [c]

/-- A text between quotation marks. -/
def literal (quote : Char) (text : List Char) : List Char :=
  quote :: (text.flatMap (escaped quote) ++ [quote])

theorem escaped_of_ne {quote c : Char} (hbackslash : c ≠ '\\') (hquote : c ≠ quote) :
    escaped quote c = [c] :=
  if_neg (not_or.2 ⟨hbackslash, hquote⟩)

/-- Between single quotes, what stands for a character becomes what stands for it between double
quotes. -/
theorem requote_escaped (c : Char) (rest : List Char) :
    requote (some '\'') (escaped '\'' c ++ rest)
      = escaped '"' c ++ requote (some '\'') rest := by
  by_cases hbackslash : c = '\\'
  · subst hbackslash
    rfl
  · by_cases hsingle : c = '\''
    · subst hsingle
      rfl
    · rw [escaped_of_ne hbackslash hsingle, List.singleton_append, requote_cons hbackslash,
        if_neg hsingle]
      by_cases hdouble : c = '"'
      · subst hdouble
        rfl
      · rw [if_neg fun h => hdouble h.2, escaped_of_ne hbackslash hdouble,
          List.singleton_append]

/-- A text between single quotes becomes the same text between double quotes. -/
theorem requote_literal (text rest : List Char) :
    requote none (literal '\'' text ++ rest) = literal '"' text ++ requote none rest := by
  have hbody : requote (some '\'') (text.flatMap (escaped '\'') ++ '\'' :: rest)
      = text.flatMap (escaped '"') ++ '"' :: requote none rest := by
    induction text with
    | nil => rfl
    | cons c text ih =>
      rw [List.flatMap_cons, List.flatMap_cons, List.append_assoc, requote_escaped, ih,
        List.append_assoc]
  rw [literal, literal, List.cons_append, List.append_assoc, List.singleton_append, requote,
    if_pos rfl, hbody, List.cons_append, List.append_assoc, List.singleton_append]

/-! ### How literals are read -/

/-- What stands for a character is read as that character. -/
theorem readText_escaped {c : Char} {rest : List Char} (hc : c ≠ '\n')
    (hrest : rest.head? ≠ some '\n') :
    readText '"' .plain (escaped '"' c ++ rest)
      = (readText '"' .plain rest).map fun (text, rest) => (c :: text, rest) := by
  by_cases hbackslash : c = '\\'
  · subst hbackslash
    rfl
  · by_cases hdouble : c = '"'
    · subst hdouble
      rfl
    · have hreturn : ¬(c = '\r' ∧ rest.head? = some '\n') := fun h => hrest h.2
      rw [escaped_of_ne hbackslash hdouble, List.singleton_append]
      cases rest <;>
        simp only [readText, if_neg hdouble, if_neg hbackslash, if_neg hc, if_neg hreturn]

theorem head?_escaped (quote c : Char) (rest : List Char) :
    (escaped quote c ++ rest).head? = if c = '\\' ∨ c = quote then some '\\' else some c := by
  unfold escaped
  split <;> rfl

/-- **A literal without line breaks is read as its text**, up to its closing quote. -/
theorem readText_literal {text rest : List Char} (htext : '\n' ∉ text)
    (hrest : rest.head? ≠ some '"') :
    readText '"' .plain (text.flatMap (escaped '"') ++ '"' :: rest) = some (text, rest) := by
  induction text with
  | nil =>
    cases rest with
    | nil => rfl
    | cons d rest =>
      have hd : d ≠ '"' := fun h => hrest (congrArg some h)
      simp [readText, hd]
  | cons c text ih =>
    obtain ⟨hc, htext⟩ := not_or.1 (List.mem_cons.not.1 htext)
    have hnext : (text.flatMap (escaped '"') ++ '"' :: rest).head? ≠ some '\n' := by
      cases text with
      | nil => simp
      | cons d text =>
        rw [List.flatMap_cons, List.append_assoc, head?_escaped]
        split
        · simp
        · exact fun h => htext (List.mem_cons.2 (.inl (Option.some.inj h).symm))
    rw [List.flatMap_cons, List.append_assoc, readText_escaped (Ne.symm hc) hnext, ih htext]
    rfl

/-- A scanner in front of a literal reads the text and goes on behind it. -/
theorem scanFront?_literal {text rest : List Char} (htext : '\n' ∉ text)
    (hrest : rest.head? ≠ some '"') (signed : Bool) :
    scanFront? signed (literal '"' text ++ rest) = some (.token (.str text) rest) := by
  rw [literal, List.cons_append, List.append_assoc, List.singleton_append]
  have hread := readText_literal htext hrest
  simp [scanFront?, hread, isBlank]

/-- The tokens that neither open an expression inside a text nor stand for a brace. -/
def Token.isLevel : Token → Bool
  | .opened _ => false
  | .symbol s => !(s == "\x7b" || s == "\x23\x7b" || s == "\x7d")
  | _ => true

theorem scanFrom?_blank {fuel : Nat} {signed : Bool} {depths : List Nat} {cs rest : List Char}
    (h : scanFront? signed cs = some (.blank rest)) :
    scanFrom? (fuel + 1) signed depths cs = scanFrom? fuel signed depths rest := by
  have hne : cs ≠ [] := by
    rintro rfl
    cases h
  rw [scanFrom?.eq_3 _ _ _ _ hne, h]
  rfl

theorem scanFrom?_token {fuel : Nat} {signed : Bool} {depths : List Nat} {cs rest : List Char}
    {t : Token} (h : scanFront? signed cs = some (.token t rest)) (ht : t.isLevel = true) :
    scanFrom? (fuel + 1) signed depths cs
      = (scanFrom? fuel t.precedesSign depths rest).map (t :: ·) := by
  have hne : cs ≠ [] := by
    rintro rfl
    cases h
  rw [scanFrom?.eq_3 _ _ _ _ hne, h, Option.bind_some]
  cases t with
  | opened text => cases ht
  | symbol s =>
    simp only [Token.isLevel] at ht
    simp at ht
    simp [ht]
  | _ => rfl

/-- A single text is an expression. -/
theorem readExpr_str (text : List Char) :
    readExpr 24 0 [.str text] = some (.str (String.ofList text), []) := by
  simp [readExpr, readUnary, readPrimary, readPostfix, readOperators, maxLevel]

/-- A literal by itself is an expression: the text. -/
theorem ofChars?_literal {text : List Char} (htext : '\n' ∉ text) :
    Expr.ofChars? (literal '"' text) = some (.str (String.ofList text)) := by
  have hfront : scanFront? true (literal '"' text) = some (.token (.str text) []) := by
    have h := @scanFront?_literal text [] htext nofun true
    rwa [List.append_nil] at h
  have htokens : scan? (literal '"' text) = some [.str text] := by
    rw [scan?, scanFrom?_token hfront rfl, scanFrom?]
    rfl
  have hfuel : 12 * [Token.str text].length + 12 = 24 := rfl
  rw [Expr.ofChars?, htokens, Option.bind_some, hfuel, readExpr_str]

/-! ### Conditions as they are written -/

/-- The datum of an expression as it is written. -/
def evalWritten (helpers : Helpers) (vars : Namespace) (cs : List Char) : Result Datum :=
  match Expr.ofChars? cs with
  | some e => (evalExpr (envAt helpers callDepth) e (scopeOf vars)).map Prod.fst
  | none => .error .unreadable

/-- What a condition says when its expression has come to something. -/
def answer (expression : String) : Result Datum → Except Fault Bool
  | .ok (.bool b) => .ok b
  | .ok d => .error (.definition ("requires return type must be bool, got " ++ d.typeName))
  | .error failure =>
    .error (.evaluation
      ("unable to evaluate " ++ Text.quoted expression ++ ": " ++ failure.message))

/-- A condition says what its expression comes to when it is requoted. -/
theorem evaluate_eq_answer (helpers : Helpers) (expression : String) (vars : Namespace) :
    evaluate helpers expression vars
      = answer expression (evalWritten helpers vars (doubleQuoted expression.toList)) := by
  have hchars : evalChars helpers vars expression.toList
      = evalWritten helpers vars (doubleQuoted expression.toList) := rfl
  rw [evaluate, hchars]
  cases evalWritten helpers vars (doubleQuoted expression.toList) with
  | error failure => rfl
  | ok d => cases d <;> rfl

/-! ### Comparisons -/

/-- A name that a condition may use for a variable. -/
structure IsVariable (name : List Char) : Prop where
  identifier : isIdentifier name = true
  word : isWord name = true
  plain : isPlainName (String.ofList name) = true

theorem IsVariable.isIdentChar {name : List Char} (h : IsVariable name) {c : Char}
    (hc : c ∈ name) : isIdentChar c = true := by
  have hidentifier := h.identifier
  cases name with
  | nil => cases hc
  | cons d name =>
    obtain ⟨hstart, hall⟩ := Bool.and_eq_true_iff.1 hidentifier
    rcases List.mem_cons.1 hc with rfl | hc
    · rcases Bool.or_eq_true_iff.1 hstart with hc | hc
      · simp [Text.isIdentChar, Char.isAlphanum, hc]
      · simp [Text.isIdentChar, hc]
    · exact List.all_eq_true.1 hall c hc

/-- The numbers of the characters that start a name. -/
theorem toNat_of_isIdentStart {c : Char} (h : isIdentStart c = true) :
    65 ≤ c.toNat ∧ c.toNat ≤ 122 := by
  rcases Bool.or_eq_true_iff.1 h with h | h
  · unfold Char.isAlpha Char.isUpper Char.isLower at h
    simp only [Bool.or_eq_true, Bool.and_eq_true, decide_eq_true_eq, UInt32.le_iff_toNat_le,
      ge_iff_le] at h
    change (65 ≤ c.toNat ∧ c.toNat ≤ 90) ∨ (97 ≤ c.toNat ∧ c.toNat ≤ 122) at h
    omega
  · rw [beq_iff_eq.1 h]
    decide

theorem isBlank_of_isIdentStart {c : Char} (h : isIdentStart c = true) : isBlank c = false := by
  have hcode := toNat_of_isIdentStart h
  exact isBlank_of_visible (by omega) (by omega)

theorem isDigit_of_isIdentStart {c : Char} (h : isIdentStart c = true) : c.isDigit = false := by
  have hcode := toNat_of_isIdentStart h
  unfold Char.isDigit
  simp only [Bool.and_eq_false_iff, decide_eq_false_iff_not, UInt32.le_iff_toNat_le, ge_iff_le]
  right
  change ¬c.toNat ≤ 57
  omega

/-- A scanner in front of a character that starts a name reads a word. -/
theorem scanFront?_of_isIdentStart {c : Char} (hc : isIdentStart c = true) (signed : Bool)
    (rest : List Char) :
    scanFront? signed (c :: rest)
      = if isWord ((c :: rest).takeWhile isIdentChar) then
          some (.token (.word ((c :: rest).takeWhile isIdentChar))
            ((c :: rest).dropWhile isIdentChar))
        else none := by
  have hne : ∀ d : Char, isIdentStart d = false → c ≠ d := by
    intro d hd heq
    rw [heq, hd] at hc
    cases hc
  have hslash := hne '/' rfl
  have hdouble := hne '"' rfl
  have hsingle := hne '\'' rfl
  have hverbatim := hne '\x60' rfl
  have hminus := hne '-' rfl
  simp only [scanFront?, isBlank_of_isIdentStart hc, isDigit_of_isIdentStart hc, hc, hslash,
    hdouble, hsingle, hverbatim, hminus, false_and, Bool.false_eq_true, if_false, if_true]

/-- It reads a whole name behind which no name goes on. -/
theorem scanFront?_variable {name rest : List Char} (h : IsVariable name)
    (hrest : rest.head?.any isIdentChar = false) (signed : Bool) :
    scanFront? signed (name ++ rest) = some (.token (.word name) rest) := by
  cases name with
  | nil => cases h.identifier
  | cons c name =>
    have hstart : isIdentStart c = true := (Bool.and_eq_true_iff.1 h.identifier).1
    have hname : ∀ d ∈ c :: name, isIdentChar d = true := fun d hd => h.isIdentChar hd
    have hstop : rest.takeWhile isIdentChar = [] ∧ rest.dropWhile isIdentChar = rest := by
      cases rest with
      | nil => exact ⟨rfl, rfl⟩
      | cons d rest =>
        have hd : isIdentChar d = false := hrest
        simp [hd]
    have htake : (c :: (name ++ rest)).takeWhile isIdentChar = c :: name := by
      rw [← List.cons_append, List.takeWhile_append_of_pos hname, hstop.1, List.append_nil]
    have hdrop : (c :: (name ++ rest)).dropWhile isIdentChar = rest := by
      rw [← List.cons_append, List.dropWhile_append_of_pos hname, hstop.2]
    rw [List.cons_append, scanFront?_of_isIdentStart hstart, htake, hdrop, if_pos h.word]

/-- A comparison of a variable with a text. -/
def comparison (name : List Char) (quote : Char) (text : List Char) : List Char :=
  name ++ ' ' :: '=' :: '=' :: ' ' :: literal quote text

/-- The tokens of a comparison. -/
theorem scan?_comparison {name text : List Char} (hname : IsVariable name)
    (htext : '\n' ∉ text) :
    scan? (comparison name '"' text) = some [.word name, .symbol "==", .str text] := by
  have hblank : ∀ signed rest, scanFront? signed (' ' :: rest) = some (.blank rest) :=
    fun _ _ => rfl
  have hequals : ∀ signed rest, scanFront? signed ('=' :: '=' :: ' ' :: rest)
      = some (.token (.symbol "==") (' ' :: rest)) := by
    intro signed rest
    cases signed <;> rfl
  have hliteral : ∀ signed, scanFront? signed (literal '"' text)
      = some (.token (.str text) []) := by
    intro signed
    have h := @scanFront?_literal text [] htext nofun signed
    rwa [List.append_nil] at h
  obtain ⟨fuel, hfuel⟩ : ∃ fuel, (comparison name '"' text).length + 1 = fuel + 5 := by
    refine ⟨name.length + (literal '"' text).length, ?_⟩
    simp only [comparison, List.length_append, List.length_cons]
    omega
  rw [scan?, hfuel, comparison, scanFrom?_token (scanFront?_variable hname rfl true) rfl,
    scanFrom?_blank (hblank _ _), scanFrom?_token (hequals _ _) rfl,
    scanFrom?_blank (hblank _ _), scanFrom?_token (hliteral _) rfl, scanFrom?]
  rfl

/-- A word that is neither called nor qualified is a variable. -/
theorem readNamed_of_plain {name : String} (h : isPlainName name = true) (fuel level : Nat)
    {s : String} (hs : s ∉ ["()", "(", "::"]) (rest : List Token) :
    readNamed (fuel + 1) level name (.symbol s :: rest)
      = some (.name name, .symbol s :: rest) := by
  have hne : ∀ word : String, isPlainName word = false → name ≠ word := by
    intro word hword heq
    rw [heq, hword] at h
    cases h
  have htrue := hne "true" (by decide)
  have hfalse := hne "false" (by decide)
  have hif := hne "if" (by decide)
  have hswitch := hne "switch" (by decide)
  simp only [List.mem_cons, List.not_mem_nil, or_false, not_or] at hs
  obtain ⟨hunit, hcall, hpath⟩ := hs
  simp [readNamed, htrue, hfalse, hif, hswitch, h, hunit, hcall, hpath]

theorem readExpr_comparison {name : List Char} (hname : IsVariable name) (text : List Char) :
    readExpr 48 0 [.word name, .symbol "==", .str text]
      = some (.binary .eq (.name (String.ofList name)) (.str (String.ofList text)), []) := by
  have hnamed := fun fuel level =>
    readNamed_of_plain hname.plain fuel level (s := "==") (by decide) [.str text]
  simp [readExpr, readUnary, readPrimary, readPostfix, readOperators, maxLevel, hnamed, infixOf?,
    nextPrecedence, Infix.groupsRight, Infix.join?]

/-- The tokens of a comparison are read as what it says. -/
theorem ofChars?_of_comparison {cs name text : List Char} (hname : IsVariable name)
    (htokens : scan? cs = some [.word name, .symbol "==", .str text]) :
    Expr.ofChars? cs
      = some (.binary .eq (.name (String.ofList name)) (.str (String.ofList text))) := by
  have hfuel : 12 * [Token.word name, .symbol "==", .str text].length + 12 = 48 := rfl
  rw [Expr.ofChars?, htokens, Option.bind_some, hfuel, readExpr_comparison hname]

/-- A comparison with a text between single quotes becomes the same comparison with a text between
double quotes. -/
theorem doubleQuoted_comparison {name : List Char} (hname : IsVariable name) (text : List Char) :
    doubleQuoted (comparison name '\'' text) = comparison name '"' text := by
  have hunmarked : ∀ c ∈ name, c ∉ marks := by
    intro c hc hmark
    have hchar := hname.isIdentChar hc
    have hnone : ∀ d ∈ marks, isIdentChar d = false := by simp [marks, Text.isIdentChar]
    rw [hnone c hmark] at hchar
    cases hchar
  have hliteral := requote_literal text []
  rw [requote, List.append_nil, List.append_nil] at hliteral
  rw [doubleQuoted, comparison, requote_append_of_unmarked hunmarked]
  iterate 4 rw [requote_of_unmarked (by decide)]
  rw [hliteral, comparison]

/-- Two texts are compared by their characters. -/
theorem textOp_eq (a b : String) : textOp .eq a b = .ok (.bool (a == b)) := by
  unfold textOp compareTexts compareBy?
  by_cases hlt : a < b
  · have hne : a ≠ b := by
      rintro rfl
      exact absurd hlt (String.lt_irrefl a)
    simp [hlt, hne]
  · by_cases heq : a = b
    · subst heq
      simp
    · simp [hlt, heq]

/-- A comparison of a text variable with a text comes to whether they are the same text. -/
theorem evalWritten_comparison {cs name text : List Char} (hname : IsVariable name)
    (htokens : scan? cs = some [.word name, .symbol "==", .str text]) (helpers : Helpers)
    {vars : Namespace} {value : String}
    (hvalue : vars.get? (String.ofList name) = some (.str value)) :
    evalWritten helpers vars cs = .ok (.bool (value == String.ofList text)) := by
  have hfind : (scopeOf vars).find (String.ofList name) = .ok (.str value) := by
    rw [Scope.find, lookup_scopeOf, hvalue]
    rfl
  rw [evalWritten, ofChars?_of_comparison hname htokens]
  simp only [evalExpr, hfind]
  show Except.map Prod.fst (do
    let d ← textOp .eq value (String.ofList text)
    pure (d, scopeOf vars)) = _
  rw [textOp_eq]
  rfl

theorem evaluate_comparison {name text : List Char} (hname : IsVariable name)
    (htext : '\n' ∉ text) (helpers : Helpers) {vars : Namespace} {value : String}
    (hvalue : vars.get? (String.ofList name) = some (.str value)) :
    evaluate helpers (String.ofList (comparison name '\'' text)) vars
      = .ok (decide (value = String.ofList text)) := by
  rw [evaluate_eq_answer, String.toList_ofList, doubleQuoted_comparison hname,
    evalWritten_comparison hname (scan?_comparison hname htext) helpers hvalue, beq_eq_decide,
    answer]

/-- **A text between single quotes in its place.**  Behind characters that leave no quotation mark
open, and in front of anything but another quotation mark:

* what stands around it is requoted by itself, and it becomes a literal between double quotes;
* a scanner in front of that literal reads the text and goes on with what stands behind it, and the
  literal by itself is an expression, the text;
* a comparison with it holds of that very text, and of no other one. -/
theorem doubleQuoted_literal {text front back : List Char} (htext : '\n' ∉ text)
    (hfront : openAfter none front = none) (hback : ∀ c ∈ back.head?, c ∉ marks) :
    doubleQuoted (front ++ literal '\'' text ++ back)
      = doubleQuoted front ++ literal '"' text ++ doubleQuoted back ∧
    (∀ signed, scanFront? signed (literal '"' text ++ doubleQuoted back)
      = some (.token (.str text) (doubleQuoted back))) ∧
    Expr.ofChars? (literal '"' text) = some (.str (String.ofList text)) ∧
    ∀ (helpers : Helpers) (vars : Namespace) (name : List Char) (value : String),
      IsVariable name → vars.get? (String.ofList name) = some (.str value) →
      evaluate helpers (String.ofList (comparison name '\'' text)) vars
        = .ok (decide (value = String.ofList text)) := by
  have hnext : (doubleQuoted back).head? ≠ some '"' := by
    cases back with
    | nil => nofun
    | cons c back =>
      have hc : c ∉ marks := hback c rfl
      rw [doubleQuoted, requote_of_unmarked hc]
      intro heq
      exact hc (Option.some.inj heq ▸ by decide)
  refine ⟨?_, scanFront?_literal htext hnext, ofChars?_literal htext,
    fun helpers vars name value hname => evaluate_comparison hname htext helpers⟩
  rw [List.append_assoc, doubleQuoted, requote_append hfront, requote_literal, doubleQuoted,
    doubleQuoted, List.append_assoc]

/-- A text with both quotes, and with backslashes in front of a quote and at its end. -/
def nasty : List Char := "it's \\' \"C:\\\"\\".toList

/-- It stands behind a comparison with a text between backticks that holds a single quote. -/
theorem doubleQuoted_nasty :
    '\n' ∉ nasty ∧ openAfter none "y != `'` && x == ".toList = none ∧
    (∀ c ∈ (" || z".toList).head?, c ∉ marks) ∧ IsVariable ['x'] ∧
    doubleQuoted ("y != `'` && x == ".toList ++ literal '\'' nasty ++ " || z".toList)
      = "y != `'` && x == \"it's \\\\' \\\"C:\\\\\\\"\\\\\" || z".toList ∧
    evaluate [] (String.ofList (comparison ['x'] '\'' nasty)) [("x", .str (String.ofList nasty))]
      = .ok true ∧
    evaluate [] (String.ofList (comparison ['x'] '\'' nasty)) [("x", .str "it's")]
      = .ok false := by
  have htext : '\n' ∉ nasty := by decide
  have hfront : openAfter none "y != `'` && x == ".toList = none := by decide
  have hback : ∀ c ∈ (" || z".toList).head?, c ∉ marks := by
    intro c hc
    cases hc
    decide
  have hname : IsVariable ['x'] := ⟨rfl, rfl, by decide⟩
  obtain ⟨hplace, -, -, hcomparison⟩ := doubleQuoted_literal htext hfront hback
  refine ⟨htext, hfront, hback, hname, ?_, ?_, ?_⟩
  · rw [hplace]
    decide
  · rw [hcomparison [] _ ['x'] (String.ofList nasty) hname rfl, decide_eq_true rfl]
  · rw [hcomparison [] _ ['x'] "it's" hname rfl, decide_eq_false (by decide)]

end Runbook.Condition
