import Mathlib.Data.List.Basic
import Runbook.Proofs.Run.Lending
/-!
# Attempts under a policy

A policy tries an action, and again after a failure that is worth it, with a pause before every
further attempt and with lists of steps for failures.  This file says in which order these things
are done, how often each of them is, and what comes out, for actions that depend on the variables
and on the number of the attempt, and for lists of steps that do whatever they like.

* `RetryPolicy.settle_eq` — what an attempt is settled to, and the status that it keeps;
* `Deed` — what can be done under a policy;
* `RunsOnFailure`, `RetryPolicy.Does`, `RetryPolicy.Performs` — what steps for a failure, one deed
  and several deeds make of a state, said without the functions that do it;
* `RetryPolicy.perform`, `RetryPolicy.performs_perform` — the same by these functions;
* `RetryPolicy.rounds`, `RetryPolicy.deeds` — the deeds of attempts that are all followed by another
  one, and those of a whole run;
* `RetryPolicy.tryFrom_of_stops`, `RetryPolicy.tryFrom_of_not_stops` — one attempt, which is the
  last one or is followed by another;
* `RetryPolicy.run_eq_deeds` — every run is the deeds of some number of rounds and an ending;
* `RetryPolicy.InOrder`, `RetryPolicy.run_in_order` — what this says of the order and the number of
  the deeds, of the result, and of the status that is kept when failures are allowed.

An action that remembers what it has done is one that differs from attempt to attempt: in one run,
what it remembers is settled by the number of the attempt.
-/

namespace Runbook

/-! ### What an attempt is settled to -/

/-- The status that is kept of an attempt. -/
def keptStatus : Except StepError Unit → Int
  | .ok () => 0
  | .error e => e.exitStatus?.getD 0

/-- An attempt ended with a process that ran and failed. -/
def ExitFailure (result : Except StepError Unit) : Prop :=
  ∃ e, result = .error e ∧ e.isExit = true

namespace RetryPolicy

/-- The result of an attempt when failures are allowed or not. -/
def settled (policy : RetryPolicy) : Except StepError Unit → Except StepError Unit
  | .ok () => .ok ()
  | .error e => if policy.allowFail ∧ e.isExit then .ok () else .error e

/-- The state behind an attempt, with its status if failures are allowed. -/
def noteStatus (policy : RetryPolicy) (stepName : String) (result : Except StepError Unit)
    (s : State) : State :=
  if policy.allowFail then s.set (statusKey stepName) (.int (keptStatus result)) else s

/-- What an attempt is settled to. -/
theorem settle_eq (policy : RetryPolicy) (stepName : String) (result : Except StepError Unit)
    (s : State) :
    policy.settle stepName result s
      = (policy.settled result, policy.noteStatus stepName result s) := by
  unfold settle
  by_cases hallow : policy.allowFail = true
  · rcases result with e | _
    · cases hstatus : e.exitStatus? <;>
        simp [hallow, settled, noteStatus, keptStatus, StepError.isExit, hstatus]
    · simp [hallow, settled, noteStatus, keptStatus]
  · rcases result with e | _ <;> simp [hallow, settled, noteStatus]

/-- A success is that of the attempt, or it is a failure that was allowed. -/
theorem settled_eq_ok {policy : RetryPolicy} {result : Except StepError Unit} :
    policy.settled result = .ok () ↔
      result = .ok () ∨ policy.allowFail = true ∧ ExitFailure result := by
  rcases result with e | _
  · by_cases h : policy.allowFail = true ∧ e.isExit = true <;> simp [settled, ExitFailure, h]
  · simp [settled]

/-- A failure is that of the attempt. -/
theorem settled_eq_error {policy : RetryPolicy} {result : Except StepError Unit} {e : StepError}
    (h : policy.settled result = .error e) :
    result = .error e ∧ ¬(policy.allowFail = true ∧ e.isExit = true) := by
  rcases result with e' | _
  · by_cases habsorbed : policy.allowFail = true ∧ e'.isExit = true
    · simp [settled, habsorbed] at h
    · simp only [settled, if_neg habsorbed, Except.error.injEq] at h
      subst h
      exact ⟨rfl, habsorbed⟩
  · cases h

/-- An attempt that is worth another one was not allowed to fail. -/
theorem exitFailure_of_settled {policy : RetryPolicy} {result : Except StepError Unit}
    (h : ExitFailure (policy.settled result)) :
    ExitFailure result ∧ ¬policy.allowFail = true := by
  obtain ⟨e, he, hexit⟩ := h
  obtain ⟨hown, hrefused⟩ := settled_eq_error he
  exact ⟨⟨e, hown, hexit⟩, fun hallow => hrefused ⟨hallow, hexit⟩⟩

end RetryPolicy

/-! ### Deeds -/

/-- One thing that is done under a policy; `left` is the number of attempts left where it is
logged. -/
inductive Deed where
  | attempt (number : Nat)
  | eachFailure (left : Nat)
  | pause (left : Nat)
  | finalFailure
deriving DecidableEq, Repr

namespace Deed

/-- An attempt. -/
def isAttempt : Deed → Bool
  | attempt _ => true
  | _ => false

/-- A pause. -/
def isPause : Deed → Bool
  | pause _ => true
  | _ => false

/-- A run of the steps for a failure. -/
def isEachFailure : Deed → Bool
  | eachFailure _ => true
  | _ => false

/-- A run of the steps for the last failure. -/
def isFinalFailure : Deed → Bool
  | finalFailure => true
  | _ => false

end Deed

/-! ### What deeds do -/

/-- What steps for a failure make of a state.  They are loaded as a document and run, on this state
and in an engine inside the one that is lent; whatever goes wrong with them is a line of the log and
nothing else. -/
inductive RunsOnFailure (engine : Option Nested) (label : String) :
    Option (List Value) → State → State → Prop
  | absent {s} : RunsOnFailure engine label none s s
  | engineless {records s} :
      engine = none →
      RunsOnFailure engine label (some records) s
        (s.log .error ("Got an error when running " ++ label ++ ": " ++ engineNeeded.message))
  | unloaded {nested records e s} :
      engine = some nested →
      nested.Loads records (.error e) →
      RunsOnFailure engine label (some records) s
        (s.log .error ("Got an error when running " ++ label ++ ": " ++ e.message))
  | passed {nested records steps s t} :
      engine = some nested →
      nested.Loads records (.ok steps) →
      nested.run steps "" (s.log .debug (loadedNotice steps)) = (.ok (), t) →
      RunsOnFailure engine label (some records) s t
  | failed {nested records steps e s t} :
      engine = some nested →
      nested.Loads records (.ok steps) →
      nested.run steps "" (s.log .debug (loadedNotice steps)) = (.error e, t) →
      RunsOnFailure engine label (some records) s
        (t.log .error ("Got an error when running " ++ label ++ ": " ++ e.message))

theorem runsOnFailure_runFailureStepsIf (ctx : Context) (label : String)
    (commands : Option (List Value)) (s : State) :
    RunsOnFailure ctx.nested label commands s (runFailureStepsIf ctx label commands s) := by
  cases commands with
  | none => exact .absent
  | some records =>
    show RunsOnFailure ctx.nested label (some records) s (runFailureSteps ctx label records s)
    unfold runFailureSteps
    cases hengine : ctx.nested with
    | none =>
      rw [Context.engine?_of_none hengine]
      exact .engineless rfl
    | some nested =>
      rw [Context.engine?_of_some hengine]
      have hloads := nested.loads_loadText records
      dsimp only
      rcases hload : nested.loadText (Scenario.document records) with e | steps
      · rw [hload] at hloads
        exact .unloaded rfl hloads
      · rw [hload] at hloads
        dsimp only
        rcases hran : nested.run steps "" (s.log .debug (loadedNotice steps)) with ⟨e | _, t⟩
        · exact .failed rfl hloads hran
        · exact .passed rfl hloads hran

namespace RetryPolicy

section Relations

variable (policy : RetryPolicy) (engine : Option Nested) (stepName : String)
  (action : Nat → Action)

/-- What one deed makes of a state.  An attempt is the action with its number, and its status is
kept when failures are allowed; a pause is that of the policy; the steps for a failure run behind a
line of the log. -/
inductive Does : Deed → State → State → Prop
  | attempt {number s result t} :
      action number s = (result, t) →
      Does (.attempt number) s (policy.noteStatus stepName result t)
  | eachFailure {left s t} :
      RunsOnFailure engine "OnEachFailure" policy.onEachFailure
        (s.log .info ("Got an error and attempts = " ++ Text.natText left)) t →
      Does (.eachFailure left) s t
  | pause {left s} :
      Does (.pause left) s
        ((s.log .info ("Got execution failure, will retry (attempts left "
          ++ Text.natText left ++ ")")).record (.sleep policy.delay))
  | finalFailure {s t} :
      RunsOnFailure engine "OnFinalFailure" policy.onFinalFailure s t →
      Does .finalFailure s t

/-- What deeds make of a state, one after the other. -/
inductive Performs : List Deed → State → State → Prop
  | nil {s} : Performs [] s s
  | cons {deed deeds s t u} :
      policy.Does engine stepName action deed s t →
      Performs deeds t u →
      Performs (deed :: deeds) s u

end Relations

section Deeds

variable (policy : RetryPolicy) (ctx : Context) (stepName : String) (action : Nat → Action)

/-- An attempt by its number: the action, and what its result is settled to. -/
def trial (number : Nat) : Action := fun s =>
  policy.settle stepName (action number s).1 (action number s).2

/-- What a deed makes of a state. -/
def effect : Deed → State → State
  | .attempt number, s => (policy.trial stepName action number s).2
  | .eachFailure left, s =>
    runFailureStepsIf ctx "OnEachFailure" policy.onEachFailure (s.log .info (failureNotice left))
  | .pause left, s => policy.pause left s
  | .finalFailure, s => runFailureStepsIf ctx "OnFinalFailure" policy.onFinalFailure s

/-- What deeds make of a state, one after the other. -/
def perform (deeds : List Deed) (s : State) : State :=
  deeds.foldl (fun s deed => policy.effect ctx stepName action deed s) s

/-- The attempt behind `i` others, when it is followed by another one. -/
def round (i : Nat) : List Deed :=
  [.attempt (i + 1), .eachFailure (policy.attempts - i), .pause (policy.attempts - (i + 1))]

/-- The first attempts, when all of them are followed by another one. -/
def rounds (count : Nat) : List Deed :=
  (List.range count).flatMap policy.round

/-- What follows the last attempt, which is the one behind `i` others. -/
def ending (i : Nat) : Except StepError Unit → List Deed
  | .ok () => []
  | .error _ =>
    .eachFailure (policy.attempts - i) ::
      if policy.attempts ≤ i + 1 then [.finalFailure] else []

/-- The deeds of a run whose last attempt is the one behind `i` others and has this result. -/
def deeds (i : Nat) (result : Except StepError Unit) : List Deed :=
  policy.rounds i ++ .attempt (i + 1) :: policy.ending i result

/-- The state in which the attempt behind `i` others starts. -/
def before (s : State) (i : Nat) : State :=
  policy.perform ctx stepName action (policy.rounds i) s

/-- What the action comes to in the attempt behind `i` others. -/
def outcome (s : State) (i : Nat) : Except StepError Unit :=
  (action (i + 1) (policy.before ctx stepName action s i)).1

end Deeds

variable {policy : RetryPolicy} {ctx : Context} {stepName : String} {action : Nat → Action}

theorem perform_append (deeds more : List Deed) (s : State) :
    policy.perform ctx stepName action (deeds ++ more) s
      = policy.perform ctx stepName action more (policy.perform ctx stepName action deeds s) :=
  List.foldl_append

theorem rounds_succ (policy : RetryPolicy) (i : Nat) :
    policy.rounds (i + 1) = policy.rounds i ++ policy.round i := by
  simp [rounds, List.range_succ]

/-- One more round. -/
theorem before_succ (s : State) (i : Nat) :
    policy.before ctx stepName action s (i + 1)
      = policy.perform ctx stepName action (policy.round i)
          (policy.before ctx stepName action s i) := by
  rw [before, rounds_succ, perform_append, before]

theorem perform_round (i : Nat) (s : State) :
    policy.perform ctx stepName action (policy.round i) s
      = policy.pause (policy.attempts - (i + 1))
          (policy.effect ctx stepName action (.eachFailure (policy.attempts - i))
            (policy.trial stepName action (i + 1) s).2) := rfl

/-- The last attempt and what follows it stand behind the rounds. -/
theorem perform_deeds (i : Nat) (result : Except StepError Unit) (s : State) :
    policy.perform ctx stepName action (policy.deeds i result) s
      = policy.perform ctx stepName action (.attempt (i + 1) :: policy.ending i result)
          (policy.before ctx stepName action s i) := by
  rw [deeds, perform_append, before]

/-! ### Single attempts -/

theorem trial_eq (policy : RetryPolicy) (stepName : String) (action : Nat → Action) (number : Nat)
    (s : State) :
    policy.trial stepName action number s
      = (policy.settled (action number s).1,
          policy.noteStatus stepName (action number s).1 (action number s).2) :=
  settle_eq policy stepName _ _

/-- The functions do what the deeds are. -/
theorem does_effect (policy : RetryPolicy) (ctx : Context) (stepName : String)
    (action : Nat → Action) (deed : Deed) (s : State) :
    policy.Does ctx.nested stepName action deed s (policy.effect ctx stepName action deed s) := by
  cases deed with
  | attempt number =>
    rw [effect, trial_eq]
    exact .attempt rfl
  | eachFailure left => exact .eachFailure (runsOnFailure_runFailureStepsIf _ _ _ _)
  | pause left => exact .pause
  | finalFailure => exact .finalFailure (runsOnFailure_runFailureStepsIf _ _ _ _)

theorem performs_perform (policy : RetryPolicy) (ctx : Context) (stepName : String)
    (action : Nat → Action) (deeds : List Deed) (s : State) :
    policy.Performs ctx.nested stepName action deeds s
      (policy.perform ctx stepName action deeds s) := by
  induction deeds generalizing s with
  | nil => exact .nil
  | cons deed deeds ih => exact .cons (policy.does_effect ctx stepName action deed s) (ih _)

/-- What the attempt behind `i` others is settled to. -/
theorem trial_before (policy : RetryPolicy) (ctx : Context) (stepName : String)
    (action : Nat → Action) (s : State) (i : Nat) :
    (policy.trial stepName action (i + 1) (policy.before ctx stepName action s i)).1
      = policy.settled (policy.outcome ctx stepName action s i) := by
  rw [trial_eq, outcome]

theorem attempt_eq (left number : Nat) (s : State) :
    policy.attempt ctx stepName action left number s
      = match policy.trial stepName action number s with
        | (.ok (), t) => (.ok (), t)
        | (.error e, t) =>
          (.error e, policy.effect ctx stepName action (.eachFailure left) t) := rfl

/-- Attempts from one on: a success ends them, and so does a failure with no attempt left, or one
that is not worth another attempt. -/
theorem tryFrom_eq (left number : Nat) (s : State) :
    policy.tryFrom ctx stepName action left number s
      = match policy.trial stepName action number s with
        | (.ok (), t) => (.ok (), t)
        | (.error e, t) =>
          let u := policy.effect ctx stepName action (.eachFailure left) t
          if left ≤ 1 then (.error e, policy.effect ctx stepName action .finalFailure u)
          else if e.isExit then
            policy.tryFrom ctx stepName action (left - 1) (number + 1) (policy.pause (left - 1) u)
          else (.error e, u) := by
  cases left with
  | zero =>
    rw [tryFrom]
    dsimp only
    rw [attempt_eq]
    rcases policy.trial stepName action number s with ⟨e | _, t⟩ <;> rfl
  | succ left =>
    rw [tryFrom]
    dsimp only
    rw [attempt_eq]
    rcases policy.trial stepName action number s with ⟨e | _, t⟩
    · by_cases hleft : left = 0
      · simp [hleft, giveUp, effect]
      · simp [hleft]
    · rfl

/-- An attempt with this result is the last one. -/
def Stops (policy : RetryPolicy) (i : Nat) (result : Except StepError Unit) : Prop :=
  ExitFailure result → policy.attempts ≤ i + 1

/-- The last attempt. -/
theorem tryFrom_of_stops {i : Nat} {s : State}
    (hstops : policy.Stops i (policy.trial stepName action (i + 1) s).1) :
    policy.tryFrom ctx stepName action (policy.attempts - i) (i + 1) s
      = ((policy.trial stepName action (i + 1) s).1,
          policy.perform ctx stepName action (.attempt (i + 1) ::
            policy.ending i (policy.trial stepName action (i + 1) s).1) s) := by
  rw [tryFrom_eq]
  show _ = (_, policy.perform ctx stepName action _ (policy.trial stepName action (i + 1) s).2)
  generalize policy.trial stepName action (i + 1) s = tried at hstops
  obtain ⟨e | _, t⟩ := tried
  · by_cases hlast : policy.attempts ≤ i + 1
    · have hleft : policy.attempts - i ≤ 1 := by omega
      simp [hleft, ending, hlast, perform]
    · have hleft : ¬policy.attempts - i ≤ 1 := by omega
      have hexit : ¬e.isExit = true := fun h => hlast (hstops ⟨e, rfl, h⟩)
      simp [hleft, hexit, ending, hlast, perform]
  · rfl

/-- An attempt that is followed by another one. -/
theorem tryFrom_of_not_stops {i : Nat} {s : State}
    (hmore : ¬policy.Stops i (policy.settled (policy.outcome ctx stepName action s i))) :
    policy.tryFrom ctx stepName action (policy.attempts - i) (i + 1)
        (policy.before ctx stepName action s i)
      = policy.tryFrom ctx stepName action (policy.attempts - (i + 1)) (i + 2)
          (policy.before ctx stepName action s (i + 1)) := by
  obtain ⟨⟨e, he, hworth⟩, hlast⟩ := Classical.not_imp.1 hmore
  have hleft : ¬policy.attempts - i ≤ 1 := by omega
  have htried := policy.trial_before ctx stepName action s i
  rw [he] at htried
  rw [tryFrom_eq, before_succ, perform_round]
  generalize policy.trial stepName action (i + 1) (policy.before ctx stepName action s i) = tried
    at htried
  obtain ⟨result, t⟩ := tried
  obtain rfl : result = .error e := htried
  dsimp only
  rw [if_neg hleft, if_pos hworth, Nat.sub_sub]

/-! ### Whole runs -/

/-- The attempts from one on come to a last one, and all attempts before it are worth another. -/
theorem tryFrom_eq_deeds (policy : RetryPolicy) (ctx : Context) (stepName : String)
    (action : Nat → Action) (s : State) (i : Nat) (hi : i < max 1 policy.attempts) :
    ∃ retries, i ≤ retries ∧ retries < max 1 policy.attempts ∧
      (∀ j, i ≤ j → j < retries →
        ExitFailure (policy.settled (policy.outcome ctx stepName action s j))) ∧
      let result := policy.settled (policy.outcome ctx stepName action s retries)
      policy.Stops retries result ∧
      policy.tryFrom ctx stepName action (policy.attempts - i) (i + 1)
          (policy.before ctx stepName action s i)
        = (result, policy.perform ctx stepName action (policy.deeds retries result) s) := by
  by_cases hstops : policy.Stops i (policy.settled (policy.outcome ctx stepName action s i))
  · refine ⟨i, Nat.le_refl i, hi, fun j hj hji => absurd hji (by omega), hstops, ?_⟩
    have htried := policy.trial_before ctx stepName action s i
    rw [tryFrom_of_stops (by rwa [htried]), htried, perform_deeds]
  · -- one attempt fewer is left for the rest
    obtain ⟨hexit, hmore⟩ := Classical.not_imp.1 hstops
    obtain ⟨retries, hle, hlt, hretried, hlast, hrun⟩ :=
      tryFrom_eq_deeds policy ctx stepName action s (i + 1) (by omega)
    refine ⟨retries, by omega, hlt, ?_, hlast, ?_⟩
    · intro j hij hj
      rcases Nat.eq_or_lt_of_le hij with rfl | hij
      · exact hexit
      · exact hretried j hij hj
    · rw [tryFrom_of_not_stops hstops, hrun]
termination_by policy.attempts - i

/-- **A run is deeds in a row.**  It has some number of attempts that are followed by another one,
because they ended in failures of processes that ran, and one attempt that is not. -/
theorem run_eq_deeds (policy : RetryPolicy) (ctx : Context) (stepName : String)
    (action : Nat → Action) (s : State) :
    ∃ retries, retries < max 1 policy.attempts ∧
      (∀ i < retries, ExitFailure (policy.settled (policy.outcome ctx stepName action s i))) ∧
      let result := policy.settled (policy.outcome ctx stepName action s retries)
      policy.Stops retries result ∧
      policy.run ctx stepName action s
        = (result, policy.perform ctx stepName action (policy.deeds retries result) s) := by
  obtain ⟨retries, -, hlt, hretried, hstops, hrun⟩ :=
    tryFrom_eq_deeds policy ctx stepName action s 0
      (Nat.lt_of_lt_of_le Nat.zero_lt_one (Nat.le_max_left 1 policy.attempts))
  exact ⟨retries, hlt, fun i hi => hretried i (Nat.zero_le i) hi, hstops, hrun⟩

/-! ### How often deeds are done -/

/-- Deeds of which there are equally many in every round. -/
theorem countP_rounds {p : Deed → Bool} {count : Nat}
    (h : ∀ i, (policy.round i).countP p = count) (i : Nat) :
    (policy.rounds i).countP p = i * count := by
  induction i with
  | zero => simp [rounds]
  | succ i ih => rw [rounds_succ, List.countP_append, ih, h, Nat.add_one_mul]

theorem countP_ending (policy : RetryPolicy) (p : Deed → Bool) (i : Nat)
    (result : Except StepError Unit) :
    (policy.ending i result).countP p
      = if result.isOk then 0
        else [Deed.eachFailure (policy.attempts - i)].countP p
          + if policy.attempts ≤ i + 1 then [Deed.finalFailure].countP p else 0 := by
  rcases result with e | _
  · by_cases hlast : policy.attempts ≤ i + 1 <;>
      simp [ending, hlast, Except.isOk, Except.toBool, List.countP_cons, Nat.add_comm]
  · rfl

theorem countP_deeds {p : Deed → Bool} {count : Nat}
    (h : ∀ i, (policy.round i).countP p = count) (i : Nat) (result : Except StepError Unit) :
    (policy.deeds i result).countP p
      = i * count + ([Deed.attempt (i + 1)].countP p + (policy.ending i result).countP p) := by
  rw [deeds, List.countP_append, countP_rounds h, ← List.singleton_append, List.countP_append]

/-- How many attempts there are when `i` of them are followed by another one. -/
theorem countP_deeds_isAttempt (policy : RetryPolicy) (i : Nat) (result : Except StepError Unit) :
    (policy.deeds i result).countP Deed.isAttempt = i + 1 := by
  rw [countP_deeds fun _ => rfl, countP_ending]
  simp [Deed.isAttempt]

/-- There is a pause between any two attempts, and no other. -/
theorem countP_deeds_isPause (policy : RetryPolicy) (i : Nat) (result : Except StepError Unit) :
    (policy.deeds i result).countP Deed.isPause = i := by
  rw [countP_deeds fun _ => rfl, countP_ending]
  simp [Deed.isPause]

/-- The steps for a failure run once for every attempt that failed. -/
theorem countP_deeds_isEachFailure (policy : RetryPolicy) (i : Nat)
    (result : Except StepError Unit) :
    (policy.deeds i result).countP Deed.isEachFailure = i + if result.isOk then 0 else 1 := by
  rw [countP_deeds fun _ => rfl, countP_ending]
  simp [Deed.isEachFailure]

/-- The steps for the last failure run once, when the last attempt failed and none was left. -/
theorem countP_deeds_isFinalFailure (policy : RetryPolicy) (i : Nat)
    (result : Except StepError Unit) :
    (policy.deeds i result).countP Deed.isFinalFailure
      = if result.isOk = false ∧ policy.attempts ≤ i + 1 then 1 else 0 := by
  rw [countP_deeds fun _ => rfl, countP_ending]
  cases hok : result.isOk <;> simp [Deed.isFinalFailure]

/-! ### The variable of the status -/

/-- The steps for failures leave a variable alone. -/
def Spares (policy : RetryPolicy) (engine : Option Nested) (key : String) : Prop :=
  ∀ label records s t,
    policy.onEachFailure = some records ∨ policy.onFinalFailure = some records →
    RunsOnFailure engine label (some records) s t → Fields.get? key t.vars = Fields.get? key s.vars

/-- A list of steps that leaves a variable alone when it is there at all. -/
theorem get?_runFailureStepsIf {key label : String} {commands : Option (List Value)}
    (hspares : policy.Spares ctx.nested key)
    (h : commands = policy.onEachFailure ∨ commands = policy.onFinalFailure) (s : State) :
    Fields.get? key (runFailureStepsIf ctx label commands s).vars = Fields.get? key s.vars := by
  cases commands with
  | none => rfl
  | some records =>
    exact hspares label records s _ (h.imp Eq.symm Eq.symm)
      (runsOnFailure_runFailureStepsIf ctx label (some records) s)

/-- What follows the last attempt leaves a variable alone when the steps for failures do. -/
theorem get?_perform_ending {key : String} {result : Except StepError Unit}
    (h : result = .ok () ∨ policy.Spares ctx.nested key) (i : Nat) (s : State) :
    Fields.get? key (policy.perform ctx stepName action (policy.ending i result) s).vars
      = Fields.get? key s.vars := by
  rcases result with e | _
  · have hspares : policy.Spares ctx.nested key := h.resolve_left nofun
    have heach : ∀ t, Fields.get? key (policy.effect ctx stepName action
        (.eachFailure (policy.attempts - i)) t).vars = Fields.get? key t.vars := fun t =>
      get?_runFailureStepsIf hspares (.inl rfl) _
    have hfinal : ∀ t, Fields.get? key (policy.effect ctx stepName action .finalFailure t).vars
        = Fields.get? key t.vars := fun t => get?_runFailureStepsIf hspares (.inr rfl) t
    by_cases hlast : policy.attempts ≤ i + 1
    · simp only [ending, hlast, if_true, perform, List.foldl_cons, List.foldl_nil, hfinal, heach]
    · simp only [ending, hlast, if_false, perform, List.foldl_cons, List.foldl_nil, heach]
  · rfl

/-- The status of an attempt is kept when failures are allowed. -/
theorem get?_statusKey_attempt (hallow : policy.allowFail = true) (number : Nat) (s : State) :
    Fields.get? (statusKey stepName)
        (policy.effect ctx stepName action (.attempt number) s).vars
      = some (.int (keptStatus (action number s).1)) := by
  rw [effect, trial_eq, noteStatus, if_pos hallow, State.get?_set_self]

/-! ### The order of a run -/

/-- What a run under a policy is that began in `s`, had `retries` attempts that were followed by
another one, and came to `ran`; the attempt behind `i` others starts in `starts i`.

* The run is the deeds of so many rounds, of one more attempt and of what follows this attempt.
* The attempts before the last one are failures of processes that ran.
* The result is settled by the last attempt alone: a success is its own, or is a failure of it that
  was allowed, and a failure is its own.
* A failure that is worth another attempt is returned only when none is left.
* When failures are allowed there is one attempt, and its status is kept before anything else is
  done; it is there in the end, unless steps for a failure have touched it. -/
structure InOrder (policy : RetryPolicy) (engine : Option Nested) (stepName : String)
    (action : Nat → Action) (s : State) (retries : Nat) (starts : Nat → State)
    (ran : Except StepError Unit × State) : Prop where
  bounded : retries + 1 ≤ max 1 policy.attempts
  begins : starts 0 = s
  rounds : ∀ i < retries,
    policy.Performs engine stepName action (policy.round i) (starts i) (starts (i + 1))
  ends : policy.Performs engine stepName action
    (.attempt (retries + 1) :: policy.ending retries ran.1) (starts retries) ran.2
  done : policy.Performs engine stepName action (policy.deeds retries ran.1) s ran.2
  attempts : (policy.deeds retries ran.1).countP Deed.isAttempt = retries + 1
  pauses : (policy.deeds retries ran.1).countP Deed.isPause = retries
  eachFailures : (policy.deeds retries ran.1).countP Deed.isEachFailure
    = retries + if ran.1.isOk then 0 else 1
  finalFailures : (policy.deeds retries ran.1).countP Deed.isFinalFailure
    = if ran.1.isOk = false ∧ policy.attempts ≤ retries + 1 then 1 else 0
  retried : ∀ i < retries, ExitFailure (action (i + 1) (starts i)).1
  succeeds : ran.1 = .ok () ↔ (action (retries + 1) (starts retries)).1 = .ok () ∨
    policy.allowFail = true ∧ ExitFailure (action (retries + 1) (starts retries)).1
  fails : ∀ e, ran.1 = .error e → (action (retries + 1) (starts retries)).1 = .error e
  exhausted : ExitFailure ran.1 → policy.attempts ≤ retries + 1
  allowed : policy.allowFail = true → retries = 0 ∧
    ∃ t, policy.Does engine stepName action (.attempt 1) s t ∧
      policy.Performs engine stepName action (policy.ending 0 ran.1) t ran.2 ∧
      Fields.get? (statusKey stepName) t.vars = some (.int (keptStatus (action 1 s).1))
  keeps : policy.allowFail = true →
    ran.1 = .ok () ∨ policy.Spares engine (statusKey stepName) →
    Fields.get? (statusKey stepName) ran.2.vars = some (.int (keptStatus (action 1 s).1))

/-- **The order of attempts under a policy.**  Every run has at least one attempt and at most as
many as the policy has; what is done between them, what is done after them, and what comes out, is
as `InOrder` says.  In an engine, the steps for failures run in engines of the same setup. -/
theorem run_in_order (policy : RetryPolicy) (ctx : Context) (stepName : String)
    (action : Nat → Action) (s : State) :
    (∃ retries starts, policy.InOrder ctx.nested stepName action s retries starts
      (policy.run ctx stepName action s)) ∧
    ∀ (setup : Setup) limit, ctx = setup.lends limit → ctx.nested = some (setup.nested limit) := by
  obtain ⟨retries, hlt, hretried, hstops, hrun⟩ := run_eq_deeds policy ctx stepName action s
  refine ⟨⟨retries, policy.before ctx stepName action s, ?_⟩, ?_⟩
  · rw [hrun]
    generalize hresult : policy.settled (policy.outcome ctx stepName action s retries) = result
      at hstops
    have honce : policy.allowFail = true → retries = 0 := by
      intro hallow
      by_contra hmore
      exact (exitFailure_of_settled (hretried 0 (Nat.pos_of_ne_zero hmore))).2 hallow
    exact
      { bounded := hlt
        begins := rfl
        rounds := fun i _ => by
          rw [before_succ]
          exact policy.performs_perform ctx stepName action _ _
        ends := by
          rw [perform_deeds]
          exact policy.performs_perform ctx stepName action _ _
        done := policy.performs_perform ctx stepName action _ _
        attempts := countP_deeds_isAttempt policy _ _
        pauses := countP_deeds_isPause policy _ _
        eachFailures := countP_deeds_isEachFailure policy _ _
        finalFailures := countP_deeds_isFinalFailure policy _ _
        retried := fun i hi => (exitFailure_of_settled (hretried i hi)).1
        succeeds := by
          rw [← hresult]
          exact settled_eq_ok
        fails := by
          rw [← hresult]
          exact fun e he => (settled_eq_error he).1
        exhausted := hstops
        allowed := by
          intro hallow
          obtain rfl := honce hallow
          exact ⟨rfl, _, policy.does_effect ctx stepName action (.attempt 1) s,
            policy.performs_perform ctx stepName action _ _, get?_statusKey_attempt hallow 1 s⟩
        keeps := by
          intro hallow huntouched
          obtain rfl := honce hallow
          rw [perform_deeds]
          exact (get?_perform_ending huntouched 0 _).trans (get?_statusKey_attempt hallow 1 s) }
  · rintro setup limit rfl
    exact setup.nested_lends limit

/-- A process that fails once is run twice, with a pause in between. -/
example :
    (({ attempts := 3, delay := 2 } : RetryPolicy).run {} "probe"
      (fun number s => (if number = 1 then .error (.exit 7) else .ok (), s.record (.mark number)))
      { vars := [], world := {} }).2.world.events
      = [.mark 1, .log .info "Got an error and attempts = 3",
          .log .info "Got execution failure, will retry (attempts left 2)", .sleep 2,
          .mark 2] := by
  rfl

end RetryPolicy

end Runbook
