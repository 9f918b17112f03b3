import Runbook.Proofs.Template.Lexeme
/-!
# How references with subscripts are read

The path of a reference is read up to the first bracket, and each subscript with the parts behind
dots that follow it.  A subscript holds a quoted string or a path, which ends at its own bracket.

* `readSubscript_key` — what stands in a subscript is read up to its bracket;
* `readSubscripts_append` — the subscripts of a reference are read to the last one;
* `readPath_of_skip` — a reference is read as far as it goes.

A subscript takes two units of fuel, one for itself and one for the parts behind it, and fewer
characters than that are in no subscript.
-/

namespace Runbook.Template.Action

open Runbook.Text

/-! ### Subscripts -/

theorem readSubscripts_of_tail {allowed R : List Char} (h : Tail allowed R) (fuel : Nat) :
    readSubscripts fuel R = ([], R) := by
  cases fuel with
  | zero => rfl
  | succ fuel => cases h <;> rfl

theorem readSubscripts_closed (fuel : Nat) (rest : List Char) :
    readSubscripts fuel (']' :: rest) = ([], ']' :: rest) := by
  cases fuel with
  | zero => rfl
  | succ fuel => rfl

theorem readInt_of_not_numeral {c : Char} (hc : ¬(c = '-' ∨ c.isDigit = true))
    (rest : List Char) : readInt (c :: rest) = none := by
  rw [readInt, readSigned_of_not_numeral hc]
  rfl

theorem consumed_append (key rest : List Char) : consumed (key ++ rest) rest = key := by
  rw [consumed, List.length_append, Nat.add_sub_cancel, List.take_left]

/-- What stands in a subscript is read up to its bracket. -/
theorem readSubscript_key {key : List Char} (hkey : IsKey key) (fuel : Nat) (rest : List Char) :
    readSubscript (fuel + 2) (key ++ ']' :: rest) = some (key, rest) := by
  rcases hkey with hpath | ⟨q, hq, text, htext, rfl⟩
  · obtain ⟨c, more, hhead, hc⟩ := (IsReference.of_isPath hpath).head
    have hnot : ¬(c = '-' ∨ c.isDigit = true) := by
      intro hnum
      rw [isIdentStart_of_numeral hnum] at hc
      cases hc
    have hint : readInt (key ++ ']' :: rest) = none := by
      rw [hhead]
      exact readInt_of_not_numeral hnot _
    have hstring : readString (key ++ ']' :: rest) = none := by
      rw [hhead]
      refine if_neg fun hquote => not_mem_quotes_of_isIdentStart hc ?_
      simpa [quotes] using hquote
    have href : readRef (fuel + 1) (key ++ ']' :: rest) = some (key, ']' :: rest) := by
      rw [readRef, readDotted_append hpath (endsName_bracket (by decide) rest), Option.map_some]
      dsimp only
      rw [readSubscripts_closed, List.append_nil]
    rw [readSubscript, hint, hstring, href]
    show some (consumed (key ++ ']' :: rest) (']' :: rest), rest) = some (key, rest)
    rw [consumed_append]
  · have hquotes : ∀ q ∈ quotes, isSpace q = false ∧ ¬(q = '-' ∨ q.isDigit = true) := by decide
    have hint : readInt (q :: (text ++ [q]) ++ ']' :: rest) = none :=
      readInt_of_not_numeral (hquotes q hq).2 _
    have hskip : skip (q :: (text ++ [q]) ++ ']' :: rest) = q :: (text ++ [q]) ++ ']' :: rest :=
      skip_cons (hquotes q hq).1 _
    have hstring : readString (q :: (text ++ [q]) ++ ']' :: rest) = some (text, ']' :: rest) := by
      have hquoted := readString_of_skip hq htext hskip
      rwa [hskip] at hquoted
    rw [readSubscript, hint, hstring]
    show some (consumed (q :: (text ++ [q]) ++ ']' :: rest) (']' :: rest), rest) = _
    rw [consumed_append]

/-- Subscripts have more characters than they take fuel. -/
theorem length_le_subscripts (keys : List (List Char × List (List Char))) :
    2 * keys.length ≤ (subscripts keys).length := by
  induction keys with
  | nil => exact Nat.le_refl _
  | cons entry keys ih =>
    simp only [subscripts, List.flatMap_cons, List.length_append, List.length_cons] at ih ⊢
    omega

theorem endsName_subscripts {allowed R : List Char} (h : Tail allowed R)
    (keys : List (List Char × List (List Char))) : EndsName (subscripts keys ++ R) := by
  cases keys with
  | nil => exact h.endsName
  | cons entry keys => exact endsName_bracket (by decide) _

/-- Parts behind dots are read in front of the subscripts that follow them. -/
theorem readSubscripts_dotted {parts : List (List Char)} {cs : List Char} (hcs : EndsName cs)
    (hparts : ∀ part ∈ parts, isPathPart part = true) {fuel : Nat} {found : List Char × List Char}
    (h : ∀ more ≤ 1, readSubscripts (fuel + more) cs = found) :
    readSubscripts (fuel + 1) (parts.flatMap (fun part => '.' :: part) ++ cs)
      = ((parts.flatMap fun part => '.' :: part) ++ found.1, found.2) := by
  cases parts with
  | nil => exact h 1 (Nat.le_refl 1)
  | cons part parts =>
    have hdots := readDots_append hcs hparts (length_le_dotted _ cs)
    unfold readSubscripts
    rw [hdots, List.flatMap_cons, List.cons_append]
    dsimp only
    rw [show readSubscripts fuel cs = found from h 0 (Nat.zero_le 1)]

/-- The subscripts of a reference are read to the last one. -/
theorem readSubscripts_append {allowed R : List Char} (h : Tail allowed R)
    {keys : List (List Char × List (List Char))}
    (hkeys : ∀ entry ∈ keys, IsKey entry.1 ∧ ∀ part ∈ entry.2, isPathPart part = true)
    {fuel : Nat} (hfuel : 2 * keys.length + 1 ≤ fuel) :
    readSubscripts fuel (subscripts keys ++ R) = (subscripts keys, R) := by
  induction keys generalizing fuel with
  | nil => exact readSubscripts_of_tail h fuel
  | cons entry keys ih =>
    obtain ⟨key, parts⟩ := entry
    obtain ⟨hkey, hparts⟩ := hkeys (key, parts) List.mem_cons_self
    rw [List.length_cons] at hfuel
    obtain ⟨fuel, rfl⟩ : ∃ more, fuel = more + 3 := ⟨fuel - 3, by omega⟩
    have htext : subscripts ((key, parts) :: keys) ++ R
        = '[' :: (key ++ ']' :: (parts.flatMap (fun part => '.' :: part)
          ++ (subscripts keys ++ R))) := by
      simp [subscripts, List.append_assoc]
    have hbehind : readSubscripts (fuel + 2)
        (parts.flatMap (fun part => '.' :: part) ++ (subscripts keys ++ R))
          = ((parts.flatMap fun part => '.' :: part) ++ subscripts keys, R) :=
      readSubscripts_dotted (endsName_subscripts h keys) hparts fun more hmore =>
        ih (fun entry hmem => hkeys entry (List.mem_cons_of_mem _ hmem)) (by omega)
    have hbracket : ∀ (cs : List Char) (n : Nat), readDots n ('[' :: cs) = ([], '[' :: cs) :=
      fun cs n => (endsName_bracket (by decide) cs).dots n
    rw [htext, readSubscripts, hbracket]
    dsimp only
    rw [readSubscript_key hkey]
    dsimp only
    rw [hbehind]
    simp [subscripts]

/-! ### References -/

/-- A reference is read as far as it goes. -/
theorem readPath_of_skip {allowed cs path R : List Char} (hpath : IsReference path)
    (hcs : skip cs = path ++ R) (h : Tail allowed R) : readPath cs = some (path, R) := by
  obtain ⟨base, keys, rfl, hbase, hkeys⟩ := hpath
  obtain ⟨c, more, hhead, -⟩ := (IsReference.of_isPath hbase).head
  have hlength := length_le_subscripts keys
  unfold readPath
  rw [hcs, List.append_assoc]
  dsimp only
  rw [readRef, readDotted_append hbase (endsName_subscripts h keys), Option.map_some]
  dsimp only
  rw [readSubscripts_append h hkeys]
  rw [hhead]
  simp only [List.length_append, List.length_cons]
  omega

end Runbook.Template.Action
