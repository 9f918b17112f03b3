import Runbook.Proofs.Run.Attempts
import Runbook.Proofs.Run.Blame
/-!
# What a run changes

A run works on one namespace, and so do some of the runs inside it: those of lists of steps, of
merged inclusions and of the steps for failures.  Loops and inclusions with variables of their own
work on others.  This file says which keys of its namespace a run can change: those that are named
by a step that is reached on this namespace, at any depth, and no others; and a key that is bound
stays bound, however the run ends.

* `Within` — two namespaces, the second of which binds all keys of the first and differs only at
  keys with a property;
* `RetryPolicy.RunsForFailure`, `RetryPolicy.within_tryFrom` — the lists that a policy runs for
  failures, and what attempts under it change;
* `Setup.Shares`, `Setup.within_perform` — the runs that an action starts on the variables of its
  step, and what the action changes;
* `Setup.Reaches` — the steps that a run reaches on its namespace;
* `Setup.Names` — the keys that one step names;
* `Setup.run_changes_named_keys` — a run without hooks changes keys that are named so.

Hooks are functions of whoever sets an engine up, and change what they like; so a run on whose
namespace a hook is run is left out.
-/

namespace Runbook

/-! ### Namespaces that differ at some keys -/

/-- The namespace `after` binds every key of `before`, and differs from it only at keys with the
property `named`. -/
structure Within (named : String → Prop) (before after : Namespace) : Prop where
  bound : ∀ key, Fields.has key before = true → Fields.has key after = true
  others : ∀ key, ¬named key → Fields.get? key after = Fields.get? key before

namespace Within

variable {named : String → Prop}

theorem refl (vars : Namespace) : Within named vars vars :=
  ⟨fun _ h => h, fun _ _ => rfl⟩

theorem trans {first second third : Namespace} (h : Within named first second)
    (h' : Within named second third) : Within named first third :=
  ⟨fun key hkey => h'.bound key (h.bound key hkey),
    fun key hkey => (h'.others key hkey).trans (h.others key hkey)⟩

theorem mono {named' : String → Prop} {before after : Namespace} (h : Within named before after)
    (himp : ∀ key, named key → named' key) : Within named' before after :=
  ⟨h.bound, fun key hkey => h.others key fun hnamed => hkey (himp key hnamed)⟩

/-- Binding a key that is named. -/
theorem insert {key : String} (h : named key) (value : Value) (vars : Namespace) :
    Within named vars (vars.insert key value) := by
  constructor
  · intro other hother
    by_cases hsame : other = key
    · rw [hsame, Fields.has, Fields.get?_insert_self]
      rfl
    · rw [Fields.has, Fields.get?_insert_of_ne _ _ hsame]
      exact hother
  · intro other hother
    refine Fields.get?_insert_of_ne value vars ?_
    rintro rfl
    exact hother h

/-- Binding keys all of which are named. -/
theorem insertAll {entries : Fields} (h : ∀ key, Fields.has key entries = true → named key)
    (vars : Namespace) : Within named vars (vars.insertAll entries) := by
  induction entries generalizing vars with
  | nil => exact refl vars
  | cons entry entries ih =>
    obtain ⟨key, value⟩ := entry
    have hkey : named key := h key (by simp [Fields.has, Fields.get?])
    have hrest : ∀ other, Fields.has other entries = true → named other := by
      intro other hother
      refine h other ?_
      rw [Fields.has, Fields.get?]
      split
      · rfl
      · exact hother
    exact (insert hkey value vars).trans (ih hrest _)

end Within

section Actions

variable {named : String → Prop}

/-! ### Actions on this host and on others -/

theorem within_assign {target : String} (h : target ≠ "" → named target) (value : Value)
    (s : State) : Within named s.vars (assignAction target value s).2.vars := by
  rw [assignAction]
  split
  · exact .refl _
  · next htarget => exact .insert (h htarget) _ _

theorem within_password {p : Password} (h : p.target ≠ "" → named p.target) (s : State) :
    Within named s.vars (passwordAction p s).2.vars := by
  rw [passwordAction]
  split
  · exact .refl _
  · next htarget =>
    dsimp only
    split <;> exact .insert (h htarget) _ _

theorem within_writeFile (ctx : Context) (stepName file contents : String) (s : State) :
    Within named s.vars (writeFileAction ctx stepName file contents s).2.vars := by
  rw [writeFileAction]
  split
  · exact .refl _
  · dsimp only
    split <;> exact .refl _

/-- The output of a process goes into the variable for it, if there is one. -/
theorem within_receive {target : String} (h : target ≠ "" → named target) (chunks : List Chunk)
    {before : Namespace} {s : State} (hs : s.vars = before) :
    Within named before (s.receive target chunks).vars := by
  subst hs
  rw [State.receive]
  split
  · exact .refl _
  · next htarget => exact .insert (h htarget) _ _

theorem within_attempt {exec : Exec} (h : exec.target ≠ "" → named exec.target)
    (givenName : String) (s : State) : Within named s.vars (exec.attempt givenName s).2.vars := by
  rw [Exec.attempt]
  split
  · exact .refl _
  · dsimp only
    split
    · exact .refl _
    · split <;> exact within_receive h _ rfl

theorem within_runInSession {exec : RemoteExec} (h : exec.target ≠ "" → named exec.target)
    (command : String) (session : Remote.Session) {before : Namespace} {s : State}
    (hs : s.vars = before) :
    Within named before (runInSession exec command session s).2.2.vars := by
  rw [runInSession]
  split
  · exact hs ▸ .refl _
  · split
    · exact hs ▸ .refl _
    · exact within_receive h _ hs

theorem within_remoteAttempt {exec : RemoteExec} (h : exec.target ≠ "" → named exec.target)
    (givenName : String) (connection : Remote.Connection) (s : State) :
    Within named s.vars (exec.attempt givenName connection s).2.vars := by
  rw [RemoteExec.attempt]
  dsimp only
  split
  · exact .refl _
  · split
    · exact .refl _
    · exact within_runInSession h _ _ (by rfl)

@[simp] theorem vars_await (file : RemoteFile) (bytes : List UInt8) (session : Remote.Session)
    (s : State) : (file.await bytes session s).vars = s.vars := by
  rw [RemoteFile.await]
  split <;> rfl

theorem vars_send (file : RemoteFile) (copier : Copier) (path : String) (bytes : List UInt8)
    (connection : Remote.Connection) (s : State) :
    (file.send copier path bytes connection s).2.vars = s.vars := by
  rw [RemoteFile.send]
  split
  · rfl
  · dsimp only
    split <;> exact vars_await file bytes _ s

/-- A file that is written on another host is nothing to the variables. -/
theorem vars_remoteFile (ctx : Context) (stepName : String) (file : RemoteFile) (s : State) :
    (remoteFileAction ctx stepName file s).2.vars = s.vars := by
  rw [remoteFileAction, RemoteFile.write]
  split
  · rfl
  · split
    · rfl
    · split
      · rfl
      · dsimp only
        split
        · rfl
        · exact vars_send file _ _ _ _ s

end Actions

/-! ### Attempts under a policy -/

namespace RetryPolicy

/-- The lists that a policy runs for failures, and the states in which it runs them, when `left`
attempts are left in the state `s`: one for every attempt that fails, and another one when no
attempt is left. -/
inductive RunsForFailure (policy : RetryPolicy) (ctx : Context) (stepName : String)
    (action : Nat → Action) : (left number : Nat) → State → List Value → State → Prop
  | each {left number s e t records} :
      policy.trial stepName action number s = (.error e, t) →
      policy.onEachFailure = some records →
      RunsForFailure policy ctx stepName action left number s records
        (t.log .info (failureNotice left))
  | final {left number s e t records} :
      policy.trial stepName action number s = (.error e, t) →
      left ≤ 1 →
      policy.onFinalFailure = some records →
      RunsForFailure policy ctx stepName action left number s records
        (policy.effect ctx stepName action (.eachFailure left) t)
  | again {left number s e t records u} :
      policy.trial stepName action number s = (.error e, t) →
      ¬left ≤ 1 →
      e.isExit = true →
      RunsForFailure policy ctx stepName action (left - 1) (number + 1)
        (policy.pause (left - 1) (policy.effect ctx stepName action (.eachFailure left) t))
        records u →
      RunsForFailure policy ctx stepName action left number s records u

variable {named : String → Prop} {policy : RetryPolicy} {ctx : Context} {stepName : String}
  {action : Nat → Action}

/-- An attempt changes what its action changes, and the status of the step. -/
theorem within_trial (haction : ∀ number s, Within named s.vars (action number s).2.vars)
    (hstatus : policy.allowFail = true → named (statusKey stepName)) (number : Nat) (s : State) :
    Within named s.vars (policy.trial stepName action number s).2.vars := by
  rw [trial_eq]
  refine (haction number s).trans ?_
  dsimp only
  rw [noteStatus]
  split
  · next hallow => exact .insert (hstatus hallow) _ _
  · exact .refl _

/-- Steps for a failure, when there are any. -/
theorem within_runFailureStepsIf {label : String} {commands : Option (List Value)} {s : State}
    (h : ∀ records, commands = some records →
      Within named s.vars (runFailureSteps ctx label records s).vars) :
    Within named s.vars (runFailureStepsIf ctx label commands s).vars := by
  cases commands with
  | none => exact .refl _
  | some records => exact h records rfl

/-- Attempts change what their actions change, the status of the step, and what the steps for
failures change. -/
theorem within_tryFrom (haction : ∀ number s, Within named s.vars (action number s).2.vars)
    (hstatus : policy.allowFail = true → named (statusKey stepName)) (left number : Nat) (s : State)
    (hfailure : ∀ label records u,
      policy.RunsForFailure ctx stepName action left number s records u →
      Within named u.vars (runFailureSteps ctx label records u).vars) :
    Within named s.vars (policy.tryFrom ctx stepName action left number s).2.vars := by
  induction left using Nat.strongRecOn generalizing number s with
  | ind left ih =>
    have htrial := within_trial haction hstatus number s
    rw [tryFrom_eq]
    rcases htried : policy.trial stepName action number s with ⟨e | _, t⟩
    all_goals rw [htried] at htrial
    · have heach : Within named t.vars
          (policy.effect ctx stepName action (.eachFailure left) t).vars :=
        within_runFailureStepsIf fun records hsome => hfailure _ _ _ (.each htried hsome)
      refine (htrial.trans heach).trans ?_
      dsimp only
      by_cases hlast : left ≤ 1
      · rw [if_pos hlast]
        exact within_runFailureStepsIf fun records hsome =>
          hfailure _ _ _ (.final htried hlast hsome)
      · rw [if_neg hlast]
        split
        · next hexit =>
          -- the pause between two attempts changes no variable
          exact ih (left - 1) (by omega) (number + 1) _ fun label records u hruns =>
            hfailure label records u (.again htried hlast hexit hruns)
        · exact .refl _
    · exact htrial

end RetryPolicy

/-! ### Actions of steps -/

/-- The variable that a step puts what it makes into; the empty name stands for none. -/
def Body.target : Body → String
  | .assign target _ => target
  | .password p => p.target
  | .exec p => p.target
  | .remoteExec p => p.target
  | _ => ""

/-- The policy of a step that starts a program, here or on another host. -/
def Body.policy? : Body → Option RetryPolicy
  | .exec p => some p.retry
  | .remoteExec p => some p.retry
  | _ => none

/-- What a step tries under its policy, by the number of the attempt. -/
def Step.trial? (step : Step) (start : State) : Option (Nat → Action) :=
  match step.body, start.world.connection with
  | .exec exec, _ => some fun _ => exec.attempt step.givenName
  | .remoteExec exec, some first =>
    some fun _ s => exec.attempt step.givenName (s.world.connection.getD first) s
  | _, _ => none

namespace Setup

/-- A run that the action of a step starts on the variables of the step itself: one that it opens,
or one of the steps for a failure. -/
inductive Shares (setup : Setup) (limit : Nat) (step : Step) (start : State) :
    List Step → (suffix : String) → State → Prop
  | opened {steps suffix inner} :
      setup.Opens limit step start true steps suffix inner →
      Shares setup limit step start steps suffix inner
  | failure {policy action records steps u} :
      step.body.policy? = some policy →
      step.trial? start = some action →
      policy.RunsForFailure (setup.lends limit) step.name action policy.attempts 1 start records u →
      (setup.nested limit).loadText (Scenario.document records) = .ok steps →
      Shares setup limit step start steps "" (loaded steps u)

variable {named : String → Prop} {setup : Setup} {limit : Nat} {step : Step} {s : State}

/-- The steps for a failure change what their run changes. -/
theorem within_runFailureSteps {records : List Value} {u : State}
    (hrun : ∀ steps, (setup.nested limit).loadText (Scenario.document records) = .ok steps →
      Within named u.vars (setup.lentRun limit steps "" (loaded steps u)).2.vars)
    (label : String) :
    Within named u.vars (runFailureSteps (setup.lends limit) label records u).vars := by
  rcases hload : (setup.nested limit).loadText (Scenario.document records) with e | steps
  · rw [runFailureSteps, engine?_lends]
    dsimp only
    rw [hload]
    exact .refl _
  · have hsteps := hrun steps hload
    rw [runFailureSteps_of_loadText hload]
    rcases hran : setup.lentRun limit steps "" (loaded steps u) with ⟨e | _, t⟩
    all_goals rw [hran] at hsteps; exact hsteps

/-- A step that tries something changes its variable, its status, and what its steps for failures
change. -/
theorem within_run {policy : RetryPolicy} {action : Nat → Action}
    (hpolicy : step.body.policy? = some policy) (htrial : step.trial? s = some action)
    (haction : ∀ number u, Within named u.vars (action number u).2.vars)
    (hstatus : policy.allowFail = true → named (statusKey step.name))
    (hshared : ∀ steps suffix inner, setup.Shares limit step s steps suffix inner →
      Within named inner.vars (setup.lentRun limit steps suffix inner).2.vars) :
    Within named s.vars (policy.run (setup.lends limit) step.name action s).2.vars :=
  RetryPolicy.within_tryFrom haction hstatus policy.attempts 1 s fun label _ _ hruns =>
    within_runFailureSteps (fun steps hload =>
      hshared steps "" _ (.failure hpolicy htrial hruns hload)) label

theorem within_runCommands {records : List Value}
    (hrun : ∀ steps, (setup.nested limit).loadText (Scenario.document records) = .ok steps →
      Within named s.vars (setup.lentRun limit steps "" (loaded steps s)).2.vars) :
    Within named s.vars (runCommands (setup.lends limit) records s).2.vars := by
  rcases hload : (setup.nested limit).loadText (Scenario.document records) with e | steps
  · rw [runCommands, engine?_lends]
    dsimp only
    rw [hload]
    exact .refl _
  · rw [runCommands_of_loadText hload]
    exact hrun steps hload

/-- A loop leaves the variables around it alone. -/
theorem vars_runEntries (nested : Nested) (loop : Foreach) (steps : List Step)
    (entries : List (Value × Value)) (s : State) :
    (runEntries nested loop steps entries s).2.vars = s.vars := by
  induction entries generalizing s with
  | nil => rfl
  | cons entry entries ih =>
    rw [runEntries_cons]
    rcases nested.run steps (keySuffix entry.1) _ with ⟨e | _, t⟩
    · rfl
    · exact ih _

theorem vars_foreach (ctx : Context) (loop : Foreach) (s : State) :
    (foreachAction ctx loop s).2.vars = s.vars := by
  rw [foreachAction]
  split
  · rfl
  · split
    · rfl
    · split
      · rfl
      · exact vars_runEntries _ _ _ _ _

/-- An inclusion changes the variable that keeps its own, or the declared ones and what its run
changes. -/
theorem within_include {inclusion : Include} (hbody : step.body = .includeFile inclusion)
    (hkept : inclusion.isolated = true → named (variablesKey step.name))
    (hdeclared : inclusion.isolated = false →
      ∀ key, Fields.has key inclusion.declared = true → named key)
    (hshared : ∀ steps suffix inner, setup.Shares limit step s steps suffix inner →
      Within named inner.vars (setup.lentRun limit steps suffix inner).2.vars) :
    Within named s.vars (includeAction (setup.lends limit) step.name inclusion s).2.vars := by
  by_cases hfile : included inclusion s.vars = ""
  · rw [includeAction_of_nameless hfile]
    exact .refl _
  · rw [includeAction_of_ne hfile]
    rcases hload : inclusion.load step.name (noticed inclusion s).world.files
      (included inclusion s.vars) with e | records
    · dsimp only
      rw [vars_noticed]
      exact .refl _
    · dsimp only
      split
      · next hisolated =>
        rw [runIsolated_eq, vars_noticed]
        exact .insert (hkept hisolated) _ _
      · next hmerged =>
        have hmerged : inclusion.isolated = false := Bool.eq_false_iff.2 hmerged
        rw [runMerged, vars_noticed]
        refine (Within.insertAll (hdeclared hmerged) s.vars).trans ?_
        refine within_runCommands (s := State.mk _ _) fun steps hsteps => ?_
        exact hshared steps "" _ (.opened (.merged hbody hmerged hfile hload hsteps))

/-- **What an action changes.**  All of it is named: by the step, or in a run that the action starts
on the variables of the step. -/
theorem within_perform (htarget : step.body.target ≠ "" → named step.body.target)
    (hstatus : ∀ policy, step.body.policy? = some policy → policy.allowFail = true →
      named (statusKey step.name))
    (hkept : ∀ inclusion, step.body = .includeFile inclusion → inclusion.isolated = true →
      named (variablesKey step.name))
    (hdeclared : ∀ inclusion, step.body = .includeFile inclusion → inclusion.isolated = false →
      ∀ key, Fields.has key inclusion.declared = true → named key)
    (hshared : ∀ steps suffix inner, setup.Shares limit step s steps suffix inner →
      Within named inner.vars (setup.lentRun limit steps suffix inner).2.vars) :
    Within named s.vars (step.perform (setup.lends limit) s).2.vars := by
  rw [Step.perform]
  cases hbody : step.body with
  | message => exact .refl _
  | sleep seconds => exact .refl _
  | assign target value =>
    rw [hbody] at htarget
    exact within_assign htarget value s
  | password p =>
    rw [hbody] at htarget
    exact within_password htarget s
  | writeFile file contents => exact within_writeFile _ _ file contents s
  | remoteFile file =>
    dsimp only
    rw [vars_remoteFile]
    exact .refl _
  | exec exec =>
    rw [hbody] at htarget
    have hpolicy : step.body.policy? = some exec.retry := by rw [hbody]; rfl
    have htrial : step.trial? s = some fun _ => exec.attempt step.givenName := by
      rw [Step.trial?, hbody]
    exact within_run hpolicy htrial (fun _ => within_attempt htarget step.givenName)
      (hstatus exec.retry hpolicy) hshared
  | remoteExec exec =>
    rw [hbody] at htarget
    have hpolicy : step.body.policy? = some exec.retry := by rw [hbody]; rfl
    dsimp only
    rw [remoteExecAction, engine?_lends]
    rcases hconnection : s.world.connection with _ | first
    · exact .refl _
    · have htrial : step.trial? s = some fun _ u =>
          exec.attempt step.givenName (u.world.connection.getD first) u := by
        rw [Step.trial?, hbody, hconnection]
      exact within_run hpolicy htrial (fun _ u => within_remoteAttempt htarget step.givenName _ u)
        (hstatus exec.retry hpolicy) hshared
  | commands records =>
    exact within_runCommands fun steps hload => hshared steps "" _ (.opened (.list hbody hload))
  | foreach loop =>
    dsimp only
    rw [vars_foreach]
    exact .refl _
  | includeFile inclusion =>
    exact within_include hbody (hkept inclusion hbody) (hdeclared inclusion hbody) hshared

/-! ### One step -/

/-- The keys that a step names which an engine finds in the state `u`: its flag, unless its
condition cannot be decided; its name, when it is skipped; and when it acts, its variable, its
status if failures are allowed, and for an inclusion the variable that keeps its own variables or
all those that it declares. -/
inductive Names (setup : Setup) (suffix : String) (step : Step) (u : State) : String → Prop
  | flag {skips} :
      setup.checkRequires step u = .ok skips →
      Names setup suffix step u (skipKey (step.name ++ suffix))
  | skipped :
      setup.checkRequires step u = .ok true →
      Names setup suffix step u step.name
  | target :
      setup.Acts step u →
      step.body.target ≠ "" →
      Names setup suffix step u step.body.target
  | status {policy} :
      setup.Acts step u →
      step.body.policy? = some policy →
      policy.allowFail = true →
      Names setup suffix step u (statusKey step.name)
  | kept {inclusion} :
      setup.Acts step u →
      step.body = .includeFile inclusion →
      inclusion.isolated = true →
      Names setup suffix step u (variablesKey step.name)
  | declared {inclusion key} :
      setup.Acts step u →
      step.body = .includeFile inclusion →
      inclusion.isolated = false →
      Fields.has key inclusion.declared = true →
      Names setup suffix step u key

theorem vars_starting (suffix : String) (step : Step) (u : State) :
    (starting suffix step u).vars
      = u.vars.insert (skipKey (step.name ++ suffix)) (.bool false) := by
  rw [starting, announce]
  split <;> rfl

/-- **What one step changes.**  When no hook follows it, all of it is named: by the step, or in a
run that its action starts on the same variables. -/
theorem within_runStep {suffix : String} {u : State}
    (hnames : ∀ key, setup.Names suffix step u key → named key)
    (hshared : setup.Acts step u → ∀ steps added inner,
      setup.Shares limit step (starting suffix step u) steps added inner →
      Within named inner.vars (setup.lentRun limit steps added inner).2.vars)
    (hhook : setup.Acts step u → ∀ t,
      step.perform (setup.lends limit) (starting suffix step u) = (.ok (), t) →
      setup.hook? step = none) :
    Within named u.vars (setup.runStep (setup.lends limit) suffix step u).2.vars := by
  rcases hcheck : setup.checkRequires step u with e | skips
  · rw [runStep_of_refusal hcheck]
    exact .refl _
  · have hflag : named (skipKey (step.name ++ suffix)) := hnames _ (.flag hcheck)
    cases skips with
    | true =>
      rw [runStep_of_skip hcheck]
      exact (Within.insert (hnames _ (.skipped hcheck)) _ _).trans (.insert hflag _ _)
    | false =>
      have hacts : setup.Acts step u := acts_of_checkRequires hcheck
      have hstart : Within named u.vars (starting suffix step u).vars := by
        rw [vars_starting]
        exact .insert hflag _ _
      have hperform := hstart.trans (within_perform
        (fun htarget => hnames _ (.target hacts htarget))
        (fun _ hpolicy hallow => hnames _ (.status hacts hpolicy hallow))
        (fun _ hbody hisolated => hnames _ (.kept hacts hbody hisolated))
        (fun _ hbody hmerged _ hkey => hnames _ (.declared hacts hbody hmerged hkey))
        (hshared hacts))
      rw [runStep_of_acts hacts]
      rcases hdone : step.perform (setup.lends limit) (starting suffix step u) with ⟨e | _, t⟩
      all_goals rw [hdone] at hperform
      · exact hperform
      · dsimp only
        rw [runHook_eq, hhook hacts t hdone]
        exact hperform

/-! ### Whole runs -/

/-- A step that a run reaches on its own namespace, the engine in which it does, and the state in
which it finds the step: the run comes to the step behind others that passed, or a step that acts
starts a run on its variables that reaches it.  `room` is how many engines may stand inside that
engine, and `added` what the engine adds to names. -/
inductive Reaches (setup : Setup) : (limit : Nat) → (observed : Bool) → List Step →
    (suffix : String) → State → (room : Nat) → (added : String) → Step → State → Prop
  | own {limit observed front step rest suffix s u} :
      setup.run limit observed front suffix s = (.ok (), u) →
      Reaches setup limit observed (front ++ step :: rest) suffix s limit suffix step
        (observe observed step u)
  | inner {limit observed front step rest suffix s u steps added start room suffix' step' u'} :
      setup.run (limit + 1) observed front suffix s = (.ok (), u) →
      setup.Acts step (observe observed step u) →
      setup.Shares (limit + 1) step (starting suffix step (observe observed step u)) steps added
        start →
      Reaches setup limit false steps added start room suffix' step' u' →
      Reaches setup (limit + 1) observed (front ++ step :: rest) suffix s room suffix' step' u'

/-- What is reached behind a step that passed is reached by the whole run. -/
theorem Reaches.cons {observed : Bool} {rest : List Step} {suffix added : String} {s t u : State}
    {room : Nat} {found : Step}
    (hstep : setup.runStep (setup.lends limit) suffix step (observe observed step s)
      = (.ok (), t))
    (h : setup.Reaches limit observed rest suffix t room added found u) :
    setup.Reaches limit observed (step :: rest) suffix s room added found u := by
  have hcons : ∀ {front : List Step} {v : State},
      setup.run limit observed front suffix t = (.ok (), v) →
      setup.run limit observed (step :: front) suffix s = (.ok (), v) := by
    intro front v hfront
    rw [run_eq_runSteps] at hfront ⊢
    rw [runSteps, hstep]
    exact hfront
  cases h with
  | own hfront => exact .own (hcons hfront)
  | inner hfront hacts hshares hinner => exact .inner (hcons hfront) hacts hshares hinner

/-- No hook is run on the namespace of a run: a step that is reached on it and succeeds names no
hook that there is. -/
def Hookless (setup : Setup) (limit : Nat) (observed : Bool) (steps : List Step) (suffix : String)
    (s : State) : Prop :=
  ∀ room added step u t, setup.Reaches limit observed steps suffix s room added step u →
    setup.Acts step u →
    step.perform (setup.lends room) (starting added step u) = (.ok (), t) →
    setup.hook? step = none

/-- A key that is named by a step that a run reaches on its namespace. -/
def Named (setup : Setup) (limit : Nat) (observed : Bool) (steps : List Step) (suffix : String)
    (s : State) (key : String) : Prop :=
  ∃ room added step u, setup.Reaches limit observed steps suffix s room added step u ∧
    setup.Names added step u key

theorem vars_observe (observed : Bool) (step : Step) (s : State) :
    (observe observed step s).vars = s.vars := by
  rw [observe]
  split <;> rfl

/-- The first step of a run is reached. -/
theorem reaches_head (setup : Setup) (limit : Nat) (observed : Bool) (step : Step)
    (rest : List Step) (suffix : String) (s : State) :
    setup.Reaches limit observed (step :: rest) suffix s limit suffix step
      (observe observed step s) := by
  have hfront : setup.run limit observed [] suffix s = (.ok (), s) := by
    rw [run_eq_runSteps]
    rfl
  exact .own hfront

/-- What the first step of a run starts on its variables is part of the run. -/
theorem Reaches.of_head {n : Nat} {observed : Bool} {rest steps : List Step}
    {suffix added suffix' : String} {s start u : State} {room : Nat} {found : Step}
    (hacts : setup.Acts step (observe observed step s))
    (hshares : setup.Shares (n + 1) step (starting suffix step (observe observed step s)) steps
      added start)
    (h : setup.Reaches n false steps added start room suffix' found u) :
    setup.Reaches (n + 1) observed (step :: rest) suffix s room suffix' found u := by
  have hfront : setup.run (n + 1) observed [] suffix s = (.ok (), s) := by
    rw [run_eq_runSteps]
    rfl
  exact .inner hfront hacts hshares h

/-- A run changes named keys only, when the runs inside it do. -/
theorem within_run_of_inner
    (hinner : ∀ n, limit = n + 1 → ∀ steps added start,
      setup.Hookless n false steps added start →
      Within (setup.Named n false steps added start) start.vars
        (setup.run n false steps added start).2.vars)
    {observed : Bool} {steps : List Step} {suffix : String} {s : State}
    (hhookless : setup.Hookless limit observed steps suffix s) :
    Within (setup.Named limit observed steps suffix s) s.vars
      (setup.run limit observed steps suffix s).2.vars := by
  induction steps generalizing s with
  | nil =>
    rw [run_eq_runSteps]
    exact .refl _
  | cons step rest ih =>
    have hhead := setup.reaches_head limit observed step rest suffix s
    have hstep : Within (setup.Named limit observed (step :: rest) suffix s) s.vars
        (setup.runStep (setup.lends limit) suffix step (observe observed step s)).2.vars := by
      rw [← vars_observe observed step s]
      refine within_runStep (fun key hnames => ⟨_, _, _, _, hhead, hnames⟩) ?_
        fun hacts t => hhookless _ _ _ _ t hhead hacts
      intro hacts steps added start hshares
      cases limit with
      | zero => exact .refl _
      | succ n =>
        have hsilent : setup.Hookless n false steps added start :=
          fun room added' found u t hreaches =>
            hhookless room added' found u t (.of_head hacts hshares hreaches)
        refine (hinner n rfl steps added start hsilent).mono ?_
        rintro key ⟨room, added', found, u, hreaches, hnames⟩
        exact ⟨room, added', found, u, .of_head hacts hshares hreaches, hnames⟩
    rw [run_eq_runSteps, runSteps]
    rcases hran : setup.runStep (setup.lends limit) suffix step (observe observed step s)
      with ⟨e | _, t⟩
    all_goals rw [hran] at hstep
    · exact hstep
    · -- the rest of the run starts where the step has ended
      have hrest : setup.Hookless limit observed rest suffix t :=
        fun room added found u v hreaches => hhookless room added found u v (hreaches.cons hran)
      refine hstep.trans ?_
      dsimp only
      rw [← run_eq_runSteps]
      refine (ih hrest).mono ?_
      rintro key ⟨room, added, found, u, hreaches, hnames⟩
      exact ⟨room, added, found, u, hreaches.cons hran, hnames⟩

/-- **What a run changes.**  However it ends, every key that was bound is bound, and every key that
is bound otherwise than before is named by a step that the run has reached on its namespace.  What
loops and inclusions with variables of their own do inside is not among this. -/
theorem run_changes_named_keys (setup : Setup) (limit : Nat) (observed : Bool) (steps : List Step)
    (suffix : String) (s : State) (hhookless : setup.Hookless limit observed steps suffix s) :
    Within (setup.Named limit observed steps suffix s) s.vars
      (setup.run limit observed steps suffix s).2.vars := by
  induction limit generalizing observed steps suffix s with
  | zero =>
    refine within_run_of_inner ?_ hhookless
    intro n hn
    cases hn
  | succ limit ih =>
    refine within_run_of_inner ?_ hhookless
    intro n hn inner added start hsilent
    cases hn
    exact ih false inner added start hsilent

/-- An engine without hooks runs none. -/
theorem hookless_of_hooks {setup : Setup} (h : setup.hooks = []) (limit : Nat) (observed : Bool)
    (steps : List Step) (suffix : String) (s : State) :
    setup.Hookless limit observed steps suffix s := by
  intro room added step u t _ _ _
  rw [hook?, h]
  split <;> rfl

/-- A step that draws a secret into a variable. -/
def drawing : Step :=
  { givenName := "draw", body := .password { target := "secret" } }

/-- It changes no other variable. -/
theorem run_changes_named_keys_of_drawing :
    ({} : Setup).Hookless 1 false [drawing] "" { vars := [("n", .null)], world := {} } ∧
    ¬({} : Setup).Named 1 false [drawing] "" { vars := [("n", .null)], world := {} } "n" ∧
    Fields.get? "n" (({} : Setup).run 1 false [drawing] ""
      { vars := [("n", .null)], world := {} }).2.vars = some .null := by
  have hsilent : ({} : Setup).Hookless 1 false [drawing] ""
      { vars := [("n", .null)], world := {} } :=
    hookless_of_hooks rfl 1 false [drawing] "" _
  have hfree : ¬({} : Setup).Named 1 false [drawing] ""
      { vars := [("n", .null)], world := {} } "n" := by
    rintro ⟨room, added, step, u, hreaches, hnames⟩
    have hsole : ∀ {front rest : List Step} {step : Step}, [drawing] = front ++ step :: rest →
        step = drawing :=
      fun h => List.mem_singleton.1 (h ▸ List.mem_append_right _ List.mem_cons_self)
    generalize hsteps : [drawing] = steps at hreaches
    generalize hkey : "n" = key at hnames
    cases hreaches with
    | @own _ _ front step rest _ _ u hfront =>
      obtain rfl : step = drawing := hsole hsteps
      cases hnames with
      | flag => exact absurd hkey (by decide)
      | skipped => exact absurd hkey (by decide)
      | target => exact absurd hkey (by decide)
      | status _ hpolicy => cases hpolicy
      | kept _ hbody => cases hbody
      | declared _ hbody => cases hbody
    | @inner _ _ front step rest _ _ u steps added start _ _ _ _ _ _ hshares _ =>
      obtain rfl : step = drawing := hsole hsteps
      cases hshares with
      | opened hopens =>
        cases hopens with
        | list hbody => cases hbody
        | merged hbody => cases hbody
      | failure hpolicy => cases hpolicy
  refine ⟨hsilent, hfree, ?_⟩
  rw [(run_changes_named_keys {} 1 false [drawing] "" _ hsilent).others "n" hfree]
  rfl

end Setup

end Runbook
