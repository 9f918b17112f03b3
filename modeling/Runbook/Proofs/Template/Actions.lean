import Runbook.Proofs.Template.Sources
/-!
# Actions keep their grouping

Wherever an action stands in a template, it is evaluated with the grouping it is written with.

* `KeepsGrouping` — what is shown, assigned, decided or looped over by a tag is what the tree of its
  action comes to when every group is evaluated as a unit;
* `Scope.actions_keep_grouping` — so it is for every tag of a template whose tree is `Form.Kept`;
* `Scope.actions_lose_grouping` — a group with a bar in its text is read without its parentheses,
  and a group that is a negation loses it in them.

A tag that the template language refuses shows nothing, and neither does one whose value has no
form there; nothing is said about these.
-/

namespace Runbook.Template.Action

open Runbook.Text

/-- The text of a tag keeps the grouping of a tree: whatever it is read as, it is read to its end,
and rendering goes by what the tree comes to. -/
structure KeepsGrouping (f : Form) (text : List Char) : Prop where
  shown : f.negatesCompared = false → ∀ rest node rest',
    readDisplay (text ++ rest) = some (node, rest') → rest' = rest ∧ ShownAs f node
  assigned : f.negatesCompared = false → ∀ rest node rest',
    readAssign "set" false (text ++ rest) = some (node, rest') →
      rest' = rest ∧ ∃ name, AssignedAs f name node
  decided : f.filtersLiteral = false → ∀ word ∈ ["if", "elif"],
    ∀ fuel place rest trim e parts rest',
      readBranch (fuel + 1) place word (text ++ rest) = some ((trim, e, parts), rest') →
        (parts, rest') = readNodes fuel place rest ∧ DecidedBy f trim e parts
  looped : ∀ fuel rest node rest', readLoop (fuel + 1) (text ++ rest) = some (node, rest') →
    LoopsOver f (readNodes fuel .loopBody rest).1 node

/-- A comment is read as nothing that has an action. -/
theorem keepsGrouping_comment (f : Form) (inner : List Char) :
    KeepsGrouping f ('{' :: '#' :: inner) where
  shown _ rest node rest' h := by
    rw [List.cons_append, List.cons_append, readDisplay_of_ne (by decide)] at h
    cases h
  assigned _ rest node rest' h := by
    obtain ⟨pair, hword, -⟩ := Option.bind_eq_some_iff.1 h
    cases hword
  decided _ word _ fuel place rest trim e parts rest' h := by
    rw [readBranch] at h
    obtain ⟨pair, hword, -⟩ := Option.bind_eq_some_iff.1 h
    cases hword
  looped fuel rest node rest' h := by
    rw [readLoop] at h
    obtain ⟨pair, hword, -⟩ := Option.bind_eq_some_iff.1 h
    cases hword

/-- A statement is not shown. -/
theorem readDisplay_of_statement (left right : Bool) (inner rest : List Char) :
    readDisplay ((TagBody.statement inner).text left right ++ rest) = none := by
  rw [statement_append]
  cases left with
  | true => exact readDisplay_of_ne (by decide) _
  | false => exact readDisplay_of_ne (by decide) _

/-- What a tag becomes keeps the grouping of its action. -/
theorem Scope.BodyOf.keepsGrouping {s : Scope} {tokens : List Token} {body : TagBody}
    (hbody : s.BodyOf tokens body) {f : Form} (hkept : f.Kept = true) (hprinted : f.Printed)
    (hform : ∀ inner, s.actionText? tokens = some inner → inner = f.text) (left right : Bool) :
    KeepsGrouping f (body.text left right) where
  shown hnegates rest node rest' h := by
    cases body with
    | statement inner =>
      rw [readDisplay_of_statement] at h
      cases h
    | expression inner =>
      cases hbody with
      | shown hinner =>
        obtain rfl := hform inner hinner
        exact readDisplay_of_expression hkept hprinted hnegates h
  assigned hnegates _ _ _ h := readAssign_of_body hbody hkept hprinted hform hnegates h
  decided hliteral _ hword _ _ _ _ _ _ _ h :=
    readBranch_of_body hbody hkept hprinted hform hliteral hword h
  looped _ _ _ _ h := readLoop_of_body hbody hkept hprinted hform h

namespace Scope

/-- **Actions keep their grouping.**  Whatever the tag of an action is read as, rendering goes by
what the action comes to when each of its calls is evaluated on what its arguments come to, each
group in parentheses as a unit. -/
theorem actions_keep_grouping {filters : List (List Char)} {s s' : Scope} (hs : Reached filters s)
    {tag text : List Char} {f : Form} (htag : s.tag? tag = some (text, s'))
    (hform : s.actionForm? tag = some f) (hkept : f.Kept = true) : KeepsGrouping f text := by
  rcases tag?_cases htag with ⟨inner, rfl⟩ | ⟨tokens, body, left, right, htokens, hbody, rfl⟩
  · exact keepsGrouping_comment f inner
  · exact hbody.keepsGrouping hkept (printed_of_actionForm? hs hform)
      (fun _ => actionText?_of_form htokens hform) left right

/-- A group in parentheses and a group behind a bar: `or (and .b .c) (eq (len .a) 1)`. -/
def groupedAction : List Char := "\x7b\x7b or (and .b .c) (eq (len .a) 1) \x7d\x7d".toList

/-- A condition with such groups: `if and (or .b .c) (ne (len .a) 2)`. -/
def groupedCondition : List Char :=
  "\x7b\x7b if and (or .b .c) (ne (len .a) 2) \x7d\x7d".toList

/-- An `or` in parentheses with a call that is printed with a bar: `and (or (len .a) .b) .c`. -/
def bareAction : List Char := "\x7b\x7b and (or (len .a) .b) .c \x7d\x7d".toList

/-- A negation in parentheses: `and (eq .env "prod") (not .dry)`. -/
def negatedAction : List Char := "\x7b\x7b and (eq .env \"prod\") (not .dry) \x7d\x7d".toList

/-- A production run that is not dry, with a list of one item. -/
def productionContext : Context where
  vars := [("a", .arr [.null]), ("b", .bool true), ("c", .bool false), ("dry", .bool false),
    ("env", .str "prod")]
  filter? := Filter.builtin?

/-- The first tag of a template with its text and the tree of its action. -/
def firstTag? (tag : List Char) : Option (List Char × Form) :=
  (({ filters := [] } : Scope).tag? tag).bind fun (text, _) =>
    (({ filters := [] } : Scope).actionForm? tag).map fun f => (text, f)

theorem firstTag?_eq_some {tag text : List Char} {f : Form} (h : firstTag? tag = some (text, f)) :
    ∃ s', ({ filters := [] } : Scope).tag? tag = some (text, s') ∧
      ({ filters := [] } : Scope).actionForm? tag = some f := by
  obtain ⟨⟨text, s'⟩, htag, h⟩ := Option.bind_eq_some_iff.1 h
  obtain ⟨f, hform, he⟩ := Option.map_eq_some_iff.1 h
  cases he
  exact ⟨s', htag, hform⟩

/-- What is shown for a text. -/
def shown? (c : Context) (text : List Char) : Rendered :=
  (readDisplay (text ++ [])).bind fun (node, _) => renderNode c node [{}]

/-- What is rendered for a branch with the word `yes` behind it. -/
def branch? (c : Context) (text : List Char) : Rendered :=
  (readBranch 3 .top "if" (text ++ "yes".toList)).bind fun ((trim, e, parts), _) =>
    renderBranches c (.cons trim e parts .nil) (some ([], [{}], .next)) [{}]

/-- What a tag renders to, if its tree fulfils a condition. -/
def rendered? (render? : List Char → Rendered) (allowed : Form → Bool) (tag : List Char) :
    Option (List Char) :=
  (firstTag? tag).bind fun (text, f) =>
    if allowed f then (render? text).map (·.1) else none

theorem rendered?_eq_some {render? : List Char → Rendered} {allowed : Form → Bool}
    {tag shown : List Char} (h : rendered? render? allowed tag = some shown) :
    ∃ text f out, firstTag? tag = some (text, f) ∧ allowed f = true ∧ render? text = some out ∧
      out.1 = shown := by
  obtain ⟨⟨text, f⟩, hfirst, h⟩ := Option.bind_eq_some_iff.1 h
  dsimp only at h
  split at h
  · next hallowed =>
    obtain ⟨out, hout, hshown⟩ := Option.map_eq_some_iff.1 h
    exact ⟨text, f, out, hfirst, hallowed, hout, hshown⟩
  · cases h

/-- A shown action and a condition keep their groups, those in parentheses and those bare behind a
bar. -/
theorem actions_keep_groupedActions :
    (∃ text f out, firstTag? groupedAction = some (text, f) ∧ f.Kept = true ∧
      shown? productionContext text = some out ∧ out.1 = "true".toList ∧
      ∃ v, f.outcome productionContext [{}] = .value v ∧ out = (v.shown.toList, [{}], .next)) ∧
    (∃ text f out, firstTag? groupedCondition = some (text, f) ∧ f.Kept = true ∧
      branch? productionContext text = some out ∧ out.1 = "yes".toList ∧
      (f.outcome productionContext [{}]).truth = true) := by
  constructor
  · have hrun : rendered? (shown? productionContext) (fun f => f.Kept && !f.negatesCompared)
        groupedAction = some "true".toList := by decide +kernel
    obtain ⟨text, f, out, hfirst, hallowed, hout, htrue⟩ := rendered?_eq_some hrun
    obtain ⟨hkept, hnot⟩ := Bool.and_eq_true_iff.1 hallowed
    have hnegates : f.negatesCompared = false := Bool.not_eq_true' _ ▸ hnot
    obtain ⟨s', htag, hform⟩ := firstTag?_eq_some hfirst
    obtain ⟨⟨node, rest'⟩, hread, hrender⟩ := Option.bind_eq_some_iff.1 hout
    obtain ⟨-, hshown⟩ :=
      (actions_keep_grouping .start htag hform hkept).shown hnegates [] node rest' hread
    exact ⟨text, f, out, hfirst, hkept, hout, htrue, hshown _ _ _ hrender⟩
  · have hrun : rendered? (branch? productionContext) (fun f => f.Kept && !f.filtersLiteral)
        groupedCondition = some "yes".toList := by decide +kernel
    obtain ⟨text, f, out, hfirst, hallowed, hout, hyes⟩ := rendered?_eq_some hrun
    obtain ⟨hkept, hnot⟩ := Bool.and_eq_true_iff.1 hallowed
    have hliteral : f.filtersLiteral = false := Bool.not_eq_true' _ ▸ hnot
    obtain ⟨s', htag, hform⟩ := firstTag?_eq_some hfirst
    obtain ⟨⟨⟨trim, e, parts⟩, rest'⟩, hread, hrender⟩ := Option.bind_eq_some_iff.1 hout
    obtain ⟨-, hdecided⟩ := (actions_keep_grouping .start htag hform hkept).decided hliteral "if"
      List.mem_cons_self 2 .top "yes".toList trim e parts rest' hread
    refine ⟨text, f, out, hfirst, hkept, hout, hyes, ?_⟩
    have hbranch := hdecided _ _ _ _ _ hrender
    split at hbranch
    · assumption
    · -- without the branch nothing is rendered
      cases hbranch
      cases hyes

/-- A tag is shown as one text where its action comes to another one. -/
def ShownInstead (c : Context) (tag : List Char) (shown came : String) : Prop :=
  ∃ text f out v, firstTag? tag = some (text, f) ∧ shown? c text = some out ∧
    out.1 = shown.toList ∧ f.outcome c [{}] = .value v ∧ v.shown = came

theorem shownInstead_of_rendered? {c : Context} {tag : List Char} {shown came : String}
    (h : rendered? (shown? c) (fun f => (f.outcome c [{}]).value?.any fun v => v.shown == came)
      tag = some shown.toList) : ShownInstead c tag shown came := by
  obtain ⟨text, f, out, hfirst, hcomes, hout, hshown⟩ := rendered?_eq_some h
  obtain ⟨v, hv, hcame⟩ := (Option.any_eq_true _ _).1 hcomes
  exact ⟨text, f, out, v, hfirst, hout, hshown, Outcome.eq_of_value? hv, beq_iff_eq.1 hcame⟩

/-- A group that holds a bar is printed bare, so that its `or` is read behind the `and` around it;
and a group that is a negation loses it, since parentheses replace its mark. -/
theorem actions_lose_grouping :
    ShownInstead productionContext bareAction "true" "false" ∧
    ShownInstead productionContext negatedAction "false" "true" := by
  constructor
  · exact shownInstead_of_rendered? (by decide +kernel)
  · exact shownInstead_of_rendered? (by decide +kernel)

end Scope

end Runbook.Template.Action
