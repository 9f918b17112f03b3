import Mathlib.Data.List.Infix
import Runbook.Proofs.Run.Documents
import Runbook.Proofs.Run.Footprint
import Runbook.Proofs.Run.Loading
import Runbook.Proofs.Text.Encoding
/-!
# The flags that a run leaves

Every step has a flag, which tells whether it was skipped.  A document whose steps run no other
steps leaves one flag for each step that it reaches, and no others: no two steps share a flag, and
nothing else that such a step writes is a flag.

* `IsFlagKey` — the keys that are kept for flags;
* `Body.RunsAlone`, `Setup.Leaf` — steps that run no other steps and no hook, and whose own names
  and variables are no flags;
* `Setup.get?_runStep_of_ne`, `Setup.get?_flag_of_runStep` — what one step does to the flags, and
  `Setup.get?_runSteps` — what a run leaves alone;
* `names_apart` — the steps of a document that give different names have different names;
* `Setup.Flagged` — a namespace holds the flags of some steps of a run, each with what was decided
  about its step;
* `Engine.document_leaves_flags` — a run that succeeds leaves the flags of all its steps, and one
  that fails leaves those of the steps whose condition it could decide.
-/

namespace Runbook

/-! ### Keys of flags -/

/-- A key that is kept for flags. -/
def IsFlagKey (key : String) : Prop :=
  "__step:".toList <+: key.toList

/-- A name that a step may be given: it does not start as the names and flags do that steps get of
themselves. -/
def IsOwnName (name : String) : Prop :=
  ¬"__step".toList <+: name.toList

/-- The flag of a step in an engine that adds `suffix` to names. -/
def Step.flag (suffix : String) (step : Step) : String :=
  skipKey (step.name ++ suffix)

theorem isFlagKey_skipKey (name : String) : IsFlagKey (skipKey name) := by
  rw [IsFlagKey, skipKey, String.toList_append, String.toList_append, List.append_assoc]
  exact List.prefix_append _ _

/-- The flag of a step tells its name. -/
theorem skipKey_inj {name other suffix : String}
    (h : skipKey (name ++ suffix) = skipKey (other ++ suffix)) : name = other := by
  have hinner : name ++ suffix = other ++ suffix :=
    (String.append_right_inj _).1 ((String.append_left_inj _).1 h)
  exact (String.append_left_inj _).1 hinner

theorem not_isFlagKey_of_isOwnName {name : String} (h : IsOwnName name) : ¬IsFlagKey name :=
  fun hflag => h ((show "__step".toList <+: "__step:".toList by decide).trans hflag)

/-- The status of a step with a name of its own is no flag: what is added to the name does not
complete a part of the opening of flags. -/
theorem not_isFlagKey_statusKey {name : String} (h : IsOwnName name) :
    ¬IsFlagKey (statusKey name) := by
  rintro ⟨rest, hrest⟩
  rw [statusKey, String.toList_append, List.append_eq_append_iff] at hrest
  rcases hrest with ⟨more, hname, -⟩ | ⟨missing, hopening, hstatus⟩
  · exact not_isFlagKey_of_isOwnName h ⟨more, hname.symm⟩
  · have hends : ∀ missing ∈ "__step:".toList.tails,
        missing <+: "_exit_status".toList → missing = [] := by decide
    have hmissing : missing ∈ "__step:".toList.tails :=
      (List.mem_tails _ _).2 ⟨name.toList, hopening.symm⟩
    have hnil : missing = [] := hends missing hmissing ⟨rest, hstatus.symm⟩
    rw [hnil, List.append_nil] at hopening
    exact not_isFlagKey_of_isOwnName h ⟨[], by rw [hopening, List.append_nil]⟩

/-- What starts with the name of a step by its place is no flag. -/
theorem not_isFlagKey_placeName (id : Nat) (behind : String) :
    ¬IsFlagKey (Step.placeName id ++ behind) := by
  rw [IsFlagKey, Step.placeName, String.toList_append, String.toList_append]
  simp

theorem placeName_inj {id other : Nat} (h : Step.placeName id = Step.placeName other) :
    id = other := by
  rw [Step.placeName, Step.placeName, String.append_right_inj] at h
  exact Text.padNat_inj h

/-! ### Names of steps -/

section Names

variable {step : Step}

/-- The name of a step is the one it was given, or by its place when it was given none. -/
theorem name_cases (step : Step) :
    step.name = step.givenName ∨ ∃ id, step.givenName = "" ∧ step.name = Step.placeName id := by
  unfold Step.name
  split
  · split
    · next h => exact .inr ⟨_, h.1, rfl⟩
    · exact .inl rfl
  · exact .inl rfl

theorem name_of_given (h : step.givenName ≠ "") : step.name = step.givenName :=
  (name_cases step).resolve_right fun ⟨_, hempty, _⟩ => h hempty

/-- The name of a step that was given none, at its place in a document. -/
theorem name_of_place {id : Nat} (hid : 0 < id) (hplace : step.origin.map Origin.id = some id)
    (h : step.givenName = "") : step.name = Step.placeName id := by
  obtain ⟨origin, horigin, rfl⟩ := Option.map_eq_some_iff.1 hplace
  rw [Step.name, horigin]
  exact if_pos ⟨h, hid⟩

theorem isOwnName_empty : IsOwnName "" := by
  rw [IsOwnName]
  decide

/-- Neither the name of a step nor its status is a flag. -/
theorem not_isFlagKey_name (h : step.givenName ≠ "" → IsOwnName step.givenName) :
    ¬IsFlagKey step.name ∧ ¬IsFlagKey (statusKey step.name) := by
  rcases name_cases step with hname | ⟨id, -, hname⟩
  · have hown : IsOwnName step.name := by
      by_cases hempty : step.givenName = ""
      · rw [hname, hempty]
        exact isOwnName_empty
      · rw [hname]
        exact h hempty
    exact ⟨not_isFlagKey_of_isOwnName hown, not_isFlagKey_statusKey hown⟩
  · rw [hname]
    refine ⟨?_, not_isFlagKey_placeName id _⟩
    have hplace := not_isFlagKey_placeName id ""
    rwa [String.append_empty] at hplace

/-- No name that a step may be given is the name of a place. -/
theorem ne_placeName {name : String} (h : IsOwnName name) (id : Nat) :
    name ≠ Step.placeName id := by
  rintro rfl
  refine h ?_
  rw [Step.placeName, String.toList_append]
  exact (show "__step".toList <+: "__step_no_".toList by decide).trans (List.prefix_append _ _)

/-- **Steps at different places have different names**, if the names that they are given differ. -/
theorem names_apart {steps : List Step}
    (hplaces : ∀ (i : Nat) (h : i < steps.length), steps[i].origin.map Origin.id = some (i + 1))
    (hown : ∀ step ∈ steps, step.givenName ≠ "" → IsOwnName step.givenName)
    (hapart : steps.Pairwise fun a b => a.givenName ≠ "" → a.givenName ≠ b.givenName) :
    steps.Pairwise fun a b => a.name ≠ b.name := by
  rw [List.pairwise_iff_getElem] at hapart ⊢
  intro i j hi hj hlt
  have hplace : ∀ (k : Nat) (h : k < steps.length), steps[k].givenName = "" →
      steps[k].name = Step.placeName (k + 1) :=
    fun k h hempty => name_of_place (Nat.succ_pos k) (hplaces k h) hempty
  by_cases hfirst : steps[i].givenName = "" <;> by_cases hsecond : steps[j].givenName = ""
  · rw [hplace i hi hfirst, hplace j hj hsecond]
    intro heq
    have hsame := placeName_inj heq
    omega
  · rw [hplace i hi hfirst, name_of_given hsecond]
    exact (ne_placeName (hown _ (List.getElem_mem hj) hsecond) _).symm
  · rw [name_of_given hfirst, hplace j hj hsecond]
    exact ne_placeName (hown _ (List.getElem_mem hi) hfirst) _
  · rw [name_of_given hfirst, name_of_given hsecond]
    exact hapart i j hi hj hlt hfirst

end Names

/-! ### Steps that run no other steps -/

/-- What a step does runs no other steps: it is no list, loop or inclusion, and has no steps for
failures. -/
def Body.RunsAlone : Body → Prop
  | .foreach _ => False
  | .commands _ => False
  | .includeFile _ => False
  | .exec program =>
    program.retry.onEachFailure = none ∧ program.retry.onFinalFailure = none
  | .remoteExec program =>
    program.retry.onEachFailure = none ∧ program.retry.onFinalFailure = none
  | _ => True

namespace Setup

/-- A step that runs no other steps and no hook, under a name of its own if it was given one, and
that writes to no flag. -/
structure Leaf (setup : Setup) (step : Step) : Prop where
  alone : step.body.RunsAlone
  hookless : setup.hook? step = none
  named : step.givenName ≠ "" → IsOwnName step.givenName
  target : ¬IsFlagKey step.body.target

variable {setup : Setup} {limit : Nat} {suffix : String} {observed : Bool} {step : Step}
  {steps : List Step} {s t u : State}

/-- A policy without steps for failures runs none. -/
theorem not_runsForFailure {policy : RetryPolicy} {ctx : Context} {stepName : String}
    {action : Nat → Action} (heach : policy.onEachFailure = none)
    (hfinal : policy.onFinalFailure = none) {left number : Nat} {records : List Value} :
    ¬policy.RunsForFailure ctx stepName action left number s records u := by
  intro hruns
  induction hruns with
  | each _ hsome =>
    rw [heach] at hsome
    cases hsome
  | final _ _ hsome =>
    rw [hfinal] at hsome
    cases hsome
  | again _ _ _ _ ih => exact ih

/-- A step that runs no other steps starts no run. -/
theorem not_shares_of_runsAlone (h : step.body.RunsAlone) {inner : List Step} {added : String}
    {start : State} : ¬setup.Shares limit step s inner added start := by
  rintro (⟨hopens⟩ | ⟨hpolicy, _, hruns, _⟩)
  · cases hopens with
    | list hbody => rw [hbody] at h; exact h
    | merged hbody => rw [hbody] at h; exact h
  · have hnone : ∀ policy, step.body.policy? = some policy →
        policy.onEachFailure = none ∧ policy.onFinalFailure = none := by
      intro policy hpolicy
      cases hbody : step.body with
      | exec program =>
        rw [hbody] at hpolicy h
        cases hpolicy
        exact h
      | remoteExec program =>
        rw [hbody] at hpolicy h
        cases hpolicy
        exact h
      | _ =>
        rw [hbody] at hpolicy
        cases hpolicy
    obtain ⟨heach, hfinal⟩ := hnone _ hpolicy
    exact not_runsForFailure heach hfinal hruns

/-- The action of such a step changes no flag. -/
theorem Leaf.get?_perform (h : setup.Leaf step) {key : String} (hkey : IsFlagKey key) :
    Fields.get? key (step.perform (setup.lends limit) s).2.vars = Fields.get? key s.vars := by
  have hbody : ∀ inclusion, step.body ≠ .includeFile inclusion := by
    intro inclusion hbody
    have halone := h.alone
    rw [hbody] at halone
    exact halone
  have hwithin : Within (fun key => ¬IsFlagKey key) s.vars
      (step.perform (setup.lends limit) s).2.vars :=
    within_perform (fun _ => h.target) (fun _ _ _ => (not_isFlagKey_name h.named).2)
      (fun inclusion hinclusion => absurd hinclusion (hbody inclusion))
      (fun inclusion hinclusion => absurd hinclusion (hbody inclusion))
      (fun _ _ _ hshares => absurd hshares (not_shares_of_runsAlone h.alone))
  exact hwithin.others key fun hnot => hnot hkey

/-! ### One step -/

/-- A step that acts ends with its own action, when no hook follows. -/
theorem vars_runStep_of_acts (h : setup.Leaf step)
    (hacts : setup.checkRequires step u = .ok false) :
    (setup.runStep (setup.lends limit) suffix step u).2.vars
      = (step.perform (setup.lends limit) (starting suffix step u)).2.vars := by
  rw [runStep_of_acts (acts_of_checkRequires hacts)]
  rcases step.perform (setup.lends limit) (starting suffix step u) with ⟨e | _, v⟩
  · rfl
  · dsimp only
    rw [runHook_eq, h.hookless]

/-- **One step leaves all other flags alone.** -/
theorem get?_runStep_of_ne (h : setup.Leaf step) {key : String} (hkey : IsFlagKey key)
    (hne : key ≠ step.flag suffix) :
    Fields.get? key (setup.runStep (setup.lends limit) suffix step u).2.vars
      = Fields.get? key u.vars := by
  rcases hcheck : setup.checkRequires step u with e | skips
  · rw [runStep_of_refusal hcheck]
  · cases skips with
    | true =>
      have hname : key ≠ step.name := by
        rintro rfl
        exact (not_isFlagKey_name h.named).1 hkey
      rw [runStep_of_skip hcheck]
      exact (State.get?_set_of_ne _ _ hne).trans (State.get?_set_of_ne _ _ hname)
    | false =>
      rw [vars_runStep_of_acts h hcheck, h.get?_perform hkey, vars_starting]
      exact Fields.get?_insert_of_ne _ _ hne

/-- **A step whose condition is decided sets its own flag to the decision.** -/
theorem get?_flag_of_runStep (h : setup.Leaf step) {skips : Bool}
    (hcheck : setup.checkRequires step u = .ok skips) :
    Fields.get? (step.flag suffix) (setup.runStep (setup.lends limit) suffix step u).2.vars
      = some (.bool skips) := by
  cases skips with
  | true =>
    rw [runStep_of_skip hcheck]
    exact State.get?_set_self _ _ _
  | false =>
    have hkey : IsFlagKey (step.flag suffix) := isFlagKey_skipKey _
    rw [vars_runStep_of_acts h hcheck, h.get?_perform hkey, vars_starting]
    exact Fields.get?_insert_self _ _ _

/-! ### Whole runs -/

/-- **A run leaves the flags alone that belong to none of its steps.** -/
theorem get?_runSteps (h : ∀ step ∈ steps, setup.Leaf step) {key : String} (hkey : IsFlagKey key)
    (hne : key ∉ steps.map (Step.flag suffix)) :
    Fields.get? key (setup.runSteps (setup.lends limit) suffix observed steps s).2.vars
      = Fields.get? key s.vars := by
  induction steps generalizing s with
  | nil => rfl
  | cons step rest ih =>
    rw [List.map_cons, List.mem_cons, not_or] at hne
    have hstep : Fields.get? key
        (setup.runStep (setup.lends limit) suffix step (observe observed step s)).2.vars
          = Fields.get? key (observe observed step s).vars :=
      get?_runStep_of_ne (h step List.mem_cons_self) hkey hne.1
    rw [vars_observe] at hstep
    rw [runSteps]
    rcases hran : setup.runStep (setup.lends limit) suffix step (observe observed step s)
      with ⟨e | _, t⟩
    all_goals rw [hran] at hstep
    · exact hstep
    · exact (ih (fun later hlater => h later (List.mem_cons_of_mem _ hlater)) hne.2).trans hstep

/-- The flag of a step that a run has reached and decided, in the end of the run. -/
theorem get?_flag_of_reached {front rest : List Step} (h : ∀ later ∈ rest, setup.Leaf later)
    (hleaf : setup.Leaf step) (hapart : step.flag suffix ∉ rest.map (Step.flag suffix))
    (hfront : setup.runSteps (setup.lends limit) suffix observed front s = (.ok (), u))
    {skips : Bool} (hcheck : setup.checkRequires step (observe observed step u) = .ok skips) :
    Fields.get? (step.flag suffix)
        (setup.runSteps (setup.lends limit) suffix observed (front ++ step :: rest) s).2.vars
      = some (.bool skips) := by
  have hown : Fields.get? (step.flag suffix)
      (setup.runStep (setup.lends limit) suffix step (observe observed step u)).2.vars
        = some (.bool skips) := get?_flag_of_runStep hleaf hcheck
  rw [runSteps_append, hfront]
  dsimp only
  rw [runSteps]
  rcases hran : setup.runStep (setup.lends limit) suffix step (observe observed step u)
    with ⟨e | _, t⟩
  all_goals rw [hran] at hown
  · exact hown
  · exact (get?_runSteps h (isFlagKey_skipKey _) hapart).trans hown

/-- A step that is found in the state `u` is skipped: it has a condition, which is false. -/
def Skips (setup : Setup) (step : Step) (u : State) : Prop :=
  step.requires ≠ "" ∧ setup.condition step u = .ok false

/-- Whether a step that is found in the state `u` is skipped can be decided: it has no condition, or
one that is evaluated without a fault. -/
def Decides (setup : Setup) (step : Step) (u : State) : Prop :=
  step.requires = "" ∨ ∃ met, setup.condition step u = .ok met

theorem checkRequires_of_decides (h : setup.Decides step u) :
    ∃ skips, setup.checkRequires step u = .ok skips ∧ (skips = true ↔ setup.Skips step u) := by
  by_cases hempty : step.requires = ""
  · refine ⟨false, checkRequires_eq_false (.inl hempty), ?_⟩
    exact iff_of_false Bool.false_ne_true fun hskips => hskips.1 hempty
  · obtain ⟨met, hcondition⟩ := h.resolve_left hempty
    refine ⟨!met, ?_, ?_⟩
    · rw [checkRequires_of_requires hempty, hcondition]
    · rw [Skips, hcondition]
      cases met with
      | true => exact iff_of_false Bool.false_ne_true fun hskips => nomatch hskips.2
      | false => exact iff_of_true rfl ⟨hempty, rfl⟩

theorem checkRequires_of_not_decides (h : ¬setup.Decides step u) :
    ∃ e, setup.checkRequires step u = .error e := by
  rw [Decides, not_or] at h
  rw [checkRequires_of_requires h.1]
  rcases hcondition : setup.condition step u with fault | met
  · exact ⟨_, rfl⟩
  · exact absurd ⟨met, hcondition⟩ h.2

/-- The namespace `vars` holds the flags of these steps of a run that starts in `s`, one for each of
them and no others, and the flag of a step tells whether it was skipped where the run found it. -/
structure Flagged (setup : Setup) (limit : Nat) (observed : Bool) (suffix : String) (s : State)
    (steps : List Step) (vars : Namespace) : Prop where
  apart : (steps.map (Step.flag suffix)).Nodup
  keys : ∀ key, IsFlagKey key →
    (Fields.has key vars = true ↔ key ∈ steps.map (Step.flag suffix))
  values : ∀ n step, steps[n]? = some step → ∃ u skipped,
    setup.run limit observed (steps.take n) suffix s = (.ok (), u) ∧
      Fields.get? (step.flag suffix) vars = some (.bool skipped) ∧
      (skipped = true ↔ setup.Skips step (observe observed step u))

/-- A step at a place of a list, between those in front of it and those behind it. -/
theorem split_at_place {n : Nat} (h : steps[n]? = some step) :
    steps = steps.take n ++ step :: steps.drop (n + 1) := by
  obtain ⟨hn, rfl⟩ := List.getElem?_eq_some_iff.1 h
  rw [← List.drop_eq_getElem_cons hn, List.take_append_drop]

/-- What a run leaves that has reached all of its steps and decided their conditions. -/
theorem flagged_of_decided (hleaf : ∀ step ∈ steps, setup.Leaf step)
    (hnames : steps.Pairwise fun a b => a.name ≠ b.name)
    (hfree : ∀ key, IsFlagKey key → Fields.has key s.vars = false)
    (hdecided : ∀ n step, steps[n]? = some step → ∃ u,
      setup.run limit observed (steps.take n) suffix s = (.ok (), u) ∧
        setup.Decides step (observe observed step u)) :
    setup.Flagged limit observed suffix s steps
      (setup.run limit observed steps suffix s).2.vars := by
  have hapart : steps.Pairwise fun a b => a.flag suffix ≠ b.flag suffix :=
    hnames.imp fun hne hsame => hne (skipKey_inj hsame)
  have hvalues : ∀ n step, steps[n]? = some step → ∃ u skipped,
      setup.run limit observed (steps.take n) suffix s = (.ok (), u) ∧
        Fields.get? (step.flag suffix) (setup.run limit observed steps suffix s).2.vars
          = some (.bool skipped) ∧
        (skipped = true ↔ setup.Skips step (observe observed step u)) := by
    intro n step hstep
    obtain ⟨u, hfront, hdecides⟩ := hdecided n step hstep
    obtain ⟨skipped, hcheck, hskipped⟩ := checkRequires_of_decides hdecides
    have hsplit : steps = steps.take n ++ step :: steps.drop (n + 1) := split_at_place hstep
    have hlater : step.flag suffix ∉ (steps.drop (n + 1)).map (Step.flag suffix) := by
      rw [hsplit, List.pairwise_append, List.pairwise_cons] at hapart
      intro hmem
      obtain ⟨later, hmem, hsame⟩ := List.mem_map.1 hmem
      exact hapart.2.1.1 later hmem hsame.symm
    refine ⟨u, skipped, hfront, ?_, hskipped⟩
    rw [run_eq_runSteps] at hfront ⊢
    conv => lhs; rw [hsplit]
    exact get?_flag_of_reached
      (fun later hmem => hleaf later (List.mem_of_mem_drop hmem))
      (hleaf step (List.mem_of_getElem? hstep)) hlater hfront hcheck
  refine ⟨List.pairwise_map.2 hapart, fun key hkey => ⟨fun hhas => ?_, fun hmem => ?_⟩, hvalues⟩
  · -- a key that belongs to no step is bound as before, so it is not bound
    by_contra hnone
    rw [run_eq_runSteps, Fields.has, get?_runSteps hleaf hkey hnone] at hhas
    have hbefore := hfree key hkey
    rw [Fields.has, hhas] at hbefore
    cases hbefore
  · obtain ⟨step, hstep, rfl⟩ := List.mem_map.1 hmem
    obtain ⟨n, hn, rfl⟩ := List.mem_iff_getElem.1 hstep
    obtain ⟨u, skipped, -, hflag, -⟩ := hvalues n _ (List.getElem?_eq_getElem hn)
    rw [Fields.has, hflag]
    rfl

/-- A run that has passed has decided every condition. -/
theorem decided_of_passed (h : setup.run limit observed steps suffix s = (.ok (), t)) (n : Nat)
    (step : Step) (hstep : steps[n]? = some step) : ∃ u,
      setup.run limit observed (steps.take n) suffix s = (.ok (), u) ∧
        setup.Decides step (observe observed step u) := by
  rw [split_at_place hstep, run_eq_runSteps, runSteps_append] at h
  rw [run_eq_runSteps]
  rcases hfront : setup.runSteps (setup.lends limit) suffix observed (steps.take n) s
    with ⟨e | _, u⟩
  · rw [hfront] at h
    cases h
  · refine ⟨u, rfl, ?_⟩
    rw [hfront] at h
    by_contra hnot
    obtain ⟨e, hrefused⟩ := checkRequires_of_not_decides hnot
    dsimp only at h
    rw [runSteps, runStep_of_refusal hrefused] at h
    cases h

/-- One more step, behind a run that has passed. -/
theorem decided_snoc (h : setup.run limit observed steps suffix s = (.ok (), u))
    (hdecides : setup.Decides step (observe observed step u)) (n : Nat) (reached : Step)
    (hstep : (steps ++ [step])[n]? = some reached) : ∃ v,
      setup.run limit observed ((steps ++ [step]).take n) suffix s = (.ok (), v) ∧
        setup.Decides reached (observe observed reached v) := by
  rcases Nat.lt_trichotomy n steps.length with hlt | rfl | hgt
  · rw [List.getElem?_append_left hlt] at hstep
    rw [List.take_append_of_le_length (Nat.le_of_lt hlt)]
    exact decided_of_passed h n reached hstep
  · rw [List.getElem?_concat_length, Option.some.injEq] at hstep
    subst hstep
    rw [List.take_left]
    exact ⟨u, h, hdecides⟩
  · rw [List.getElem?_eq_none (by rw [List.length_append]; exact hgt)] at hstep
    cases hstep

end Setup

/-! ### Documents -/

namespace Engine

/-- The steps of a document are numbered from one. -/
theorem origin_of_appendText {engine loaded : Engine} {text : String} (hempty : engine.steps = [])
    (hload : engine.appendText text = .ok loaded) (i : Nat) (hi : i < loaded.steps.length) :
    loaded.steps[i].origin.map Origin.id = some (i + 1) := by
  have hcall : engine.load (.document text) = .ok loaded := hload
  rw [load_eq] at hcall
  rcases hrecords : (Loading.document text).records? with e | records
  · rw [hrecords] at hcall
    cases hcall
  · rw [hrecords] at hcall
    change (engine.setup.registry.stepsFrom 1 records).map _ = _ at hcall
    rcases engine.setup.registry.stepsFrom_cases 1 records with
      ⟨steps, hsteps, hlength, hbuilds⟩ | ⟨e, hsteps, -⟩
    · rw [hsteps] at hcall
      cases hcall
      simp only [hempty, List.nil_append] at hi ⊢
      have hbuild := hbuilds i (hlength ▸ hi) hi
      generalize steps[i] = step at hbuild ⊢
      cases hbuild with
      | intro => rw [Option.map_some, Nat.add_comm]
    · rw [hsteps] at hcall
      cases hcall

/-- **The flags that a document leaves**, when it is loaded once and none of its steps runs others
or has a hook, and when the names that its steps are given differ, and no flag is set at the start.

A run that succeeds leaves the flags of all steps, one for each and no others.  A run that fails
leaves those of the steps in front of the one that failed, and its own if its condition was decided.
Each flag tells whether its step was skipped where the run found it. -/
theorem document_leaves_flags {engine loaded : Engine} {text : String}
    (hempty : engine.steps = []) (hload : engine.appendText text = .ok loaded)
    (hleaf : ∀ step ∈ loaded.steps, loaded.setup.Leaf step)
    (hapart : loaded.steps.Pairwise fun a b => a.givenName ≠ "" → a.givenName ≠ b.givenName)
    (s : State) (hfree : ∀ key, IsFlagKey key → Fields.has key s.vars = false) :
    (∀ t, loaded.execute s = (.ok (), t) →
      loaded.setup.Flagged Setup.defaultLimit loaded.observed loaded.suffix s loaded.steps t.vars) ∧
    (∀ f t, loaded.execute s = (.error f, t) → ∃ n step u, loaded.steps[n]? = some step ∧
      loaded.setup.run Setup.defaultLimit loaded.observed (loaded.steps.take n) loaded.suffix s
        = (.ok (), u) ∧
      loaded.setup.runStep (loaded.setup.lends Setup.defaultLimit) loaded.suffix step
        (Setup.observe loaded.observed step u) = (.error f, t) ∧
      (loaded.setup.Decides step (Setup.observe loaded.observed step u) →
        loaded.setup.Flagged Setup.defaultLimit loaded.observed loaded.suffix s
          (loaded.steps.take (n + 1)) t.vars) ∧
      (¬loaded.setup.Decides step (Setup.observe loaded.observed step u) →
        loaded.setup.Flagged Setup.defaultLimit loaded.observed loaded.suffix s
          (loaded.steps.take n) t.vars)) := by
  have hnames : loaded.steps.Pairwise fun a b => a.name ≠ b.name :=
    names_apart (origin_of_appendText hempty hload) (fun step hstep => (hleaf step hstep).named)
      hapart
  constructor
  · intro t hran
    have hflagged := Setup.flagged_of_decided hleaf hnames hfree (Setup.decided_of_passed hran)
    rwa [show loaded.setup.run _ _ loaded.steps _ s = _ from hran] at hflagged
  · intro f t hran
    rw [execute, executeIn, Setup.run_eq_runSteps] at hran
    obtain ⟨front, step, rest, u, hsteps, hfront, hstep⟩ := Setup.runSteps_error hran
    rw [← Setup.run_eq_runSteps] at hfront
    rw [hsteps] at hleaf hnames ⊢
    have hleafFront : ∀ earlier ∈ front, loaded.setup.Leaf earlier :=
      fun earlier hmem => hleaf earlier (List.mem_append_left _ hmem)
    have htake : (front ++ step :: rest).take (front.length + 1) = front ++ [step] := by
      rw [List.take_append, List.take_of_length_le (Nat.le_succ _), Nat.add_sub_cancel_left]
      rfl
    refine ⟨front.length, step, u, ?_, ?_, hstep, fun hdecides => ?_, fun hfault => ?_⟩
    · rw [List.getElem?_append_right (Nat.le_refl _), Nat.sub_self]
      rfl
    · rw [List.take_left]
      exact hfront
    · -- the step was reached and decided, so it has left its flag
      have hnamesFirst : (front ++ [step]).Pairwise fun a b => a.name ≠ b.name := by
        rw [← htake]
        exact hnames.sublist (List.take_sublist _ _)
      have hleafFirst : ∀ earlier ∈ front ++ [step], loaded.setup.Leaf earlier := by
        rw [← htake]
        exact fun earlier hmem => hleaf earlier (List.mem_of_mem_take hmem)
      have hflagged := Setup.flagged_of_decided hleafFirst hnamesFirst hfree
        (Setup.decided_snoc hfront hdecides)
      rw [Setup.run_of_runStep_error hfront hstep []] at hflagged
      rw [htake]
      exact hflagged
    · -- the step was refused, so it has left the variables as they were
      have hflagged := Setup.flagged_of_decided hleafFront (List.pairwise_append.1 hnames).1 hfree
        (Setup.decided_of_passed hfront)
      obtain ⟨e, hrefused⟩ := Setup.checkRequires_of_not_decides hfault
      rw [Setup.runStep_of_refusal hrefused] at hstep
      cases hstep
      rw [hfront] at hflagged
      rw [List.take_left, Setup.vars_observe]
      exact hflagged

/-- A document with two messages, of which the second is skipped. -/
def greetings : List Value :=
  [.obj [("stepName", .str "greet"), ("type", .str "message")],
    .obj [("requires", .str "false"), ("type", .str "message")]]

/-- An engine that has loaded it. -/
def greeter : Engine :=
  { steps :=
      [{ givenName := "greet", body := .message,
         origin := some
          { id := 1, contents := "\x7b\"stepName\":\"greet\",\"type\":\"message\"\x7d" } },
        { requires := "false", body := .message,
          origin :=
            some { id := 2, contents := "\x7b\"requires\":\"false\",\"type\":\"message\"\x7d" } }] }

theorem appendText_greetings :
    ({} : Engine).appendText (Scenario.document greetings) = .ok greeter := by
  have hintegral : ∀ record ∈ greetings, record.Integral (Value.maxDepth - 3) := by
    intro record hrecord
    simp only [greetings, List.mem_cons, List.not_mem_nil, or_false] at hrecord
    rcases hrecord with rfl | rfl
    all_goals
      refine .obj (by unfold Fields.Ordered; decide +kernel) fun entry hentry => ?_
      simp only [List.mem_cons, List.not_mem_nil, or_false] at hentry
      rcases hentry with rfl | rfl <;> exact .str _
  rw [appendText, Scenario.ofText_document hintegral]
  rfl

theorem leaf_greeter : ∀ step ∈ greeter.steps, greeter.setup.Leaf step := by
  intro step hstep
  simp only [greeter, List.mem_cons, List.not_mem_nil, or_false] at hstep
  rcases hstep with rfl | rfl
  · refine ⟨trivial, rfl, fun _ => ?_, ?_⟩
    · rw [IsOwnName]
      decide
    · rw [IsFlagKey]
      decide
  · refine ⟨trivial, rfl, fun h => absurd rfl h, ?_⟩
    rw [IsFlagKey]
    decide

/-- The two flags that are left when the second of two messages is skipped. -/
theorem document_leaves_flags_of_greetings :
    ∃ t, greeter.execute { vars := [], world := {} } = (.ok (), t) ∧
      greeter.setup.Flagged Setup.defaultLimit false "" { vars := [], world := {} }
        greeter.steps t.vars := by
  have hpasses : (greeter.execute { vars := [], world := {} }).1.toBool = true := by
    decide +kernel
  have hapart : greeter.steps.Pairwise fun a b =>
      a.givenName ≠ "" → a.givenName ≠ b.givenName := by
    simp [greeter]
  rcases hran : greeter.execute { vars := [], world := {} } with ⟨e | _, t⟩
  · rw [hran] at hpasses
    cases hpasses
  · exact ⟨t, rfl, (document_leaves_flags rfl appendText_greetings leaf_greeter hapart _
      fun _ _ => rfl).1 t hran⟩

end Engine

end Runbook
