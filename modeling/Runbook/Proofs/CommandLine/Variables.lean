import Mathlib.Data.List.Basic
import Runbook.CommandLine.Run
import Runbook.Proofs.Text.Cutting
import Runbook.Proofs.Value.Order
/-!
# Variables of a command line

Variables come from files and from the arguments, and both may be given many times, in any order and
between other arguments.  This file says what a run starts with.

* `Argument` — what a command line is made of: an option with its value, or the scenario;
* `Spells` — the words of a command line, and the arguments that they are;
* `parse_eq_run_iff` — what is accepted is what is spelled by arguments with one scenario among
  them, and every option is taken;
* `Spells.unique` — no words are spelled in two ways, so the last assignment to a key is the last
  one that is read;
* `get?_loadVariableFiles`, `get?_collectVariables` — files in their order, and assignments over
  them;
* `start_variables` — all of this as one statement.

A value is what stands behind the first equals sign: it may hold more of them, be empty or look like
an option.
-/

namespace Runbook

/-! ### Records that are read -/

/-- A literal is no record. -/
theorem Value.readLiteral?_ne_obj {cs rest : List Char} {fields : Fields} :
    Value.readLiteral? cs ≠ some (.obj fields, rest) := by
  intro h
  obtain ⟨⟨name, v⟩, hmem, hv⟩ := List.exists_of_findSome?_eq_some h
  dsimp only at hv
  split at hv
  · simp only [Option.some.injEq, Prod.mk.injEq] at hv
    obtain ⟨rfl, -⟩ := hv
    simp [Value.literals] at hmem
  · cases hv

theorem Value.ordered_of_readValue {fuel depth : Nat} {cs rest : List Char} {fields : Fields}
    (h : Value.readValue fuel depth cs = some (.obj fields, rest)) : fields.Ordered := by
  cases fuel with
  | zero => cases h
  | succ fuel =>
    rw [Value.readValue] at h
    split at h
    · simp at h
    · split at h
      · cases h
      · split at h
        · simp at h
        · simp at h
    · split at h
      · cases h
      · split at h
        · cases h
          exact List.Pairwise.nil
        · obtain ⟨⟨entries, left⟩, -, he⟩ := Option.map_eq_some_iff.1 h
          simp only [Prod.mk.injEq, Value.obj.injEq] at he
          exact he.1 ▸ Fields.ordered_ofList entries
    · simp at h
    · split at h
      · simp at h
      · exact absurd h Value.readLiteral?_ne_obj
    · cases h

theorem Value.ordered_of_ofChars? {cs : List Char} {fields : Fields}
    (h : Value.ofChars? cs = some (.obj fields)) : fields.Ordered := by
  obtain ⟨⟨v, rest⟩, hread, hv⟩ := Option.bind_eq_some_iff.1 h
  dsimp only at hv
  split at hv
  · cases hv
    exact Value.ordered_of_readValue hread
  · cases hv

/-- A number is no record, in or out of range. -/
theorem Yaml.integerValue?_ne_obj {i : Int} {fields : Fields} :
    Yaml.integerValue? i ≠ some (.obj fields) := by
  rw [Yaml.integerValue?]
  split <;> nofun

theorem Yaml.doubleValue_ne_obj {d : Double} {fields : Fields} :
    Yaml.doubleValue d ≠ .obj fields := by
  rw [Yaml.doubleValue]
  split <;> nofun

/-- A scalar is no record. -/
theorem Yaml.plainValue?_ne_obj {cs : List Char} {fields : Fields} :
    Yaml.plainValue? cs ≠ some (.obj fields) := by
  intro h
  unfold Yaml.plainValue? at h
  split at h
  · cases h
  · split at h
    · cases h
    · split at h
      · exact Yaml.integerValue?_ne_obj h
      · split at h
        · exact Yaml.doubleValue_ne_obj (Option.some.inj h)
        · cases h

theorem Yaml.scalarValue?_ne_obj {tag : Option (List Char)} {style : Yaml.Style} {cs : List Char}
    {fields : Fields} : Yaml.scalarValue? tag style cs ≠ some (.obj fields) := by
  intro h
  unfold Yaml.scalarValue? at h
  split at h
  · split at h
    · cases h
    · split at h
      · obtain ⟨b, -, hb⟩ := Option.map_eq_some_iff.1 h
        cases hb
      · split at h
        · obtain ⟨i, -, hi⟩ := Option.bind_eq_some_iff.1 h
          exact Yaml.integerValue?_ne_obj hi
        · split at h
          · obtain ⟨d, -, hd⟩ := Option.map_eq_some_iff.1 h
            exact Yaml.doubleValue_ne_obj hd
          · split at h
            · split at h <;> cases h
            · cases h
  · split at h
    · exact Yaml.plainValue?_ne_obj h
    · cases h

/-- Only a mapping is a record. -/
theorem Yaml.ordered_of_value? {r : Yaml.References} {depth used left : Nat} {node : Yaml.Node}
    {fields : Fields} (h : node.value? r depth used = some (.obj fields, left)) :
    fields.Ordered := by
  have hscalar : ∀ {tag style text used},
      (Yaml.scalarValue? tag style text).map (fun v => (v, used)) ≠ some (Value.obj fields, left) := by
    intro tag style text used hv
    obtain ⟨v, hscalar, he⟩ := Option.map_eq_some_iff.1 hv
    simp only [Prod.mk.injEq] at he
    exact Yaml.scalarValue?_ne_obj (he.1 ▸ hscalar)
  cases depth with
  | zero =>
    delta Yaml.Node.value? at h
    change (r.follow? used node).bind _ = _ at h
    obtain ⟨⟨found, used⟩, -, hv⟩ := Option.bind_eq_some_iff.1 h
    cases found with
    | scalar tag style text => exact absurd hv hscalar
    | _ => cases hv
  | succ depth =>
    delta Yaml.Node.value? at h
    change (r.follow? used node).bind _ = _ at h
    obtain ⟨⟨found, used⟩, -, hv⟩ := Option.bind_eq_some_iff.1 h
    cases found with
    | scalar tag style text => exact absurd hv hscalar
    | sequence tag nodes =>
      dsimp only at hv
      split at hv
      · cases hv
      · obtain ⟨_, -, he⟩ := Option.map_eq_some_iff.1 hv
        cases he
    | mapping tag pairs =>
      dsimp only at hv
      split at hv
      · cases hv
      · obtain ⟨⟨entries, more⟩, -, he⟩ := Option.map_eq_some_iff.1 hv
        simp only [Prod.mk.injEq, Value.obj.injEq] at he
        exact he.1 ▸ Fields.ordered_ofList entries
    | _ => cases hv

theorem Yaml.ordered_of_ofYaml? {cs : List Char} {fields : Fields}
    (h : Value.ofYaml? cs = some (.obj fields)) : fields.Ordered := by
  obtain ⟨d, -, hd⟩ := Option.bind_eq_some_iff.1 h
  rw [Yaml.Document.value?] at hd
  split at hd
  · cases hd
  · obtain ⟨⟨v, used⟩, hv, rfl⟩ := Option.map_eq_some_iff.1 hd
    exact Yaml.ordered_of_value? hv

/-- **Variables that are loaded are in order**, so a key is bound once. -/
theorem Namespace.ordered_of_ofText {text : String} {vars : Namespace}
    (h : Namespace.ofText text = .ok vars) : Fields.Ordered vars := by
  rw [Namespace.ofText] at h
  split at h
  · cases h
    exact List.Pairwise.nil
  · split at h
    · next fields hvalue =>
      cases h
      rw [Document.value] at hvalue
      split at hvalue
      · split at hvalue
        · next v hread =>
          cases hvalue
          obtain ⟨cs, -, hcs⟩ := Option.bind_eq_some_iff.1 hread
          exact Value.ordered_of_ofChars? hcs
        · cases hvalue
      · split at hvalue
        · next v hread =>
          cases hvalue
          obtain ⟨cs, -, hcs⟩ := Option.bind_eq_some_iff.1 hread
          exact Yaml.ordered_of_ofYaml? hcs
        · cases hvalue
    · cases h
      exact List.Pairwise.nil
    · cases h
    · cases h

theorem Namespace.ordered_of_load {disk : Disk} {path : String} {vars : Namespace}
    (h : Namespace.load disk path = .ok vars) : Fields.Ordered vars := by
  rw [Namespace.load] at h
  cases htext : disk.readText path with
  | error e =>
    rw [htext] at h
    cases h
  | ok text =>
    rw [htext] at h
    exact Namespace.ordered_of_ofText h

namespace CommandLine

/-! ### Arguments -/

/-- A part of a command line that a run may be asked for with. -/
inductive Argument where
  | verbose (short : Bool)
  | printVariables
  | assign (key value : String)
  | variableFile (path : String)
  | includeDirectory (path : String)
  | scenario (path : String)
deriving DecidableEq, Repr

namespace Argument

/-- The words that an argument is given as. -/
def words : Argument → List String
  | verbose false => ["--verbose"]
  | verbose true => ["-v"]
  | printVariables => ["--print-vars"]
  | assign key value => ["--var", key ++ "=" ++ value]
  | variableFile path => ["--vars-file", path]
  | includeDirectory path => ["--include-dir", path]
  | scenario path => [path]

/-- A key is not empty and ends at the first equals sign; the path of a scenario does not look like
an option. -/
def WellFormed : Argument → Prop
  | assign key _ => key ≠ "" ∧ '=' ∉ key.toList
  | scenario path => path.toList.head? ≠ some '-'
  | _ => True

end Argument

/-- The assignments among arguments, in their order. -/
def assignments (line : List Argument) : List (String × String) :=
  line.filterMap fun
    | .assign key value => some (key, value)
    | _ => none

/-- The variable files among arguments, in their order. -/
def variableFiles (line : List Argument) : List String :=
  line.filterMap fun
    | .variableFile path => some path
    | _ => none

/-- The scenarios among arguments. -/
def scenarios (line : List Argument) : List String :=
  line.filterMap fun
    | .scenario path => some path
    | _ => none

/-- Options with one argument more. -/
def Options.take (options : Options) : Argument → Options
  | .verbose _ => { options with verbose := true }
  | .printVariables => { options with printVariables := true }
  | .assign key value => { options with assignments := options.assignments ++ [(key, value)] }
  | .variableFile path => { options with variableFiles := options.variableFiles ++ [path] }
  | .includeDirectory path => { options with includeDirectory := some path }
  | .scenario path => { options with scenarioPath := some path }

/-- What arguments ask for. -/
def settings (line : List Argument) : Options :=
  line.foldl Options.take {}

/-- The words of a command line are those of well-formed arguments, one of which is a scenario. -/
structure Spells (line : List Argument) (path : String) (words : List String) : Prop where
  wellFormed : ∀ argument ∈ line, argument.WellFormed
  words_eq : line.flatMap Argument.words = words
  scenario : scenarios line = [path]

/-! ### Reading arguments -/

theorem assignment?_append {key : String} (hne : key ≠ "") (hkey : '=' ∉ key.toList)
    (value : String) : assignment? (key ++ "=" ++ value) = some (key, value) := by
  have hchars : (key ++ "=" ++ value).toList = key.toList ++ '=' :: value.toList := by
    simp
  have hfree : ∀ c ∈ key.toList, (c == '=') = false := by
    intro c hc
    simpa using fun he : c = '=' => hkey (he ▸ hc)
  rw [assignment?, hchars, Text.splitAtFirst?_append_cons hfree rfl]
  cases hlist : key.toList with
  | nil => exact absurd (String.toList_eq_nil_iff.1 hlist) hne
  | cons c rest =>
    dsimp only
    rw [← hlist, String.ofList_toList, String.ofList_toList]

theorem eq_of_assignment? {text key value : String} (h : assignment? text = some (key, value)) :
    key ≠ "" ∧ '=' ∉ key.toList ∧ text = key ++ "=" ++ value := by
  rw [assignment?] at h
  split at h
  · next c front behind hcut =>
    simp only [Option.some.injEq, Prod.mk.injEq] at h
    obtain ⟨rfl, rfl⟩ := h
    obtain ⟨cut, hcut', htext⟩ := Text.eq_of_splitAtFirst? hcut
    have hfree := Text.front_of_splitAtFirst? hcut
    have hequals : cut = '=' := beq_iff_eq.1 hcut'
    subst hequals
    refine ⟨by simp, fun hmem => ?_, ?_⟩
    · rw [String.toList_ofList] at hmem
      exact absurd (hfree _ hmem) (by simp)
    · apply String.toList_injective
      simp [htext]
  · cases h

/-! ### Accepted command lines -/

/-- A word that is no option is read as the scenario. -/
theorem parse_scenario {path : String} (h : path.toList.head? ≠ some '-') {options : Options}
    (hnone : options.scenarioPath = none) (rest : List String) :
    options.parse (path :: rest) = (options.take (.scenario path)).parse rest := by
  have hoption : ∀ option : String, option.toList.head? = some '-' → path ≠ option :=
    fun option hdash heq => h (heq ▸ hdash)
  have hpositional : options.positional path = .ok (options.take (.scenario path)) := by
    rw [Options.positional, if_neg h, hnone]
    rfl
  rw [Options.parse]
  · rw [hpositional]
  -- the word is none of the options that are tried before
  all_goals
    intros
    exact hoption _ rfl (by assumption)

/-- **An argument is taken**, and the words behind it are read on. -/
theorem parse_words {argument : Argument} (h : argument.WellFormed) {options : Options}
    (hscenario : (options.scenarioPath.toList ++ scenarios [argument]).length ≤ 1)
    (rest : List String) :
    options.parse (argument.words ++ rest) = (options.take argument).parse rest := by
  cases argument with
  | verbose short => cases short <;> rfl
  | printVariables => rfl
  | assign key value =>
    show options.parse ("--var" :: (key ++ "=" ++ value) :: rest) = _
    rw [Options.parse, assignment?_append h.1 h.2]
    rfl
  | variableFile path => rfl
  | includeDirectory path => rfl
  | scenario path =>
    refine parse_scenario h ?_ rest
    cases hgiven : options.scenarioPath with
    | none => rfl
    | some given =>
      rw [hgiven] at hscenario
      simp [scenarios] at hscenario

theorem scenarios_cons (argument : Argument) (line : List Argument) :
    scenarios (argument :: line) = scenarios [argument] ++ scenarios line := by
  rw [scenarios, scenarios, scenarios, ← List.filterMap_append, List.singleton_append]

/-- A scenario that is taken is the one of the options. -/
theorem scenarioPath_take {options : Options} {argument : Argument}
    (h : (options.scenarioPath.toList ++ scenarios [argument]).length ≤ 1) :
    (options.take argument).scenarioPath.toList
      = options.scenarioPath.toList ++ scenarios [argument] := by
  cases argument with
  | scenario path =>
    cases hgiven : options.scenarioPath with
    | none => rfl
    | some given =>
      rw [hgiven] at h
      simp [scenarios] at h
  | _ => simp [Options.take, scenarios]

/-- Arguments with one scenario among them are accepted, and all of them are taken. -/
theorem parse_line {line : List Argument} (h : ∀ argument ∈ line, argument.WellFormed)
    {options : Options} {path : String}
    (hscenario : options.scenarioPath.toList ++ scenarios line = [path]) :
    options.parse (line.flatMap Argument.words) = .run (line.foldl Options.take options) path := by
  induction line generalizing options with
  | nil =>
    cases hgiven : options.scenarioPath with
    | none =>
      rw [hgiven] at hscenario
      cases hscenario
    | some given =>
      rw [hgiven] at hscenario
      cases hscenario
      rw [List.flatMap_nil, Options.parse, hgiven]
      rfl
  | cons argument line ih =>
    rw [scenarios_cons, ← List.append_assoc] at hscenario
    have hfew : (options.scenarioPath.toList ++ scenarios [argument]).length ≤ 1 := by
      have hlength := congrArg List.length hscenario
      rw [List.length_append, List.length_singleton] at hlength
      omega
    rw [List.flatMap_cons, parse_words (h argument List.mem_cons_self) hfew, List.foldl_cons]
    exact ih (fun other hother => h other (List.mem_cons_of_mem _ hother))
      (by rw [scenarioPath_take hfew, hscenario])

/-- The words behind options are spelled by arguments that are taken. -/
def Spelled (options taken : Options) (words : List String) (path : String) : Prop :=
  ∃ line, (∀ argument ∈ line, argument.WellFormed) ∧ line.flatMap Argument.words = words ∧
    options.scenarioPath.toList ++ scenarios line = [path] ∧
    taken = line.foldl Options.take options

theorem Spelled.cons (argument : Argument) (h : argument.WellFormed) {options taken : Options}
    (hfew : (options.scenarioPath.toList ++ scenarios [argument]).length ≤ 1)
    {rest : List String} {path : String} (hrest : Spelled (options.take argument) taken rest path) :
    Spelled options taken (argument.words ++ rest) path := by
  obtain ⟨line, hline, rfl, hscenario, rfl⟩ := hrest
  refine ⟨argument :: line, fun other hother => ?_, List.flatMap_cons, ?_, rfl⟩
  · rcases List.mem_cons.1 hother with rfl | hin
    · exact h
    · exact hline other hin
  · rw [scenarios_cons, ← List.append_assoc, ← scenarioPath_take hfew, hscenario]

/-- An argument that is no scenario may stand anywhere. -/
theorem Spelled.option (argument : Argument) (h : argument.WellFormed)
    (hno : scenarios [argument] = []) {options taken : Options} {rest : List String}
    {path : String} (hrest : Spelled (options.take argument) taken rest path) :
    Spelled options taken (argument.words ++ rest) path := by
  refine Spelled.cons argument h ?_ hrest
  rw [hno, List.append_nil]
  cases options.scenarioPath <;> simp

/-- What is accepted behind options is spelled by arguments. -/
theorem spelled_of_parse {options taken : Options} {words : List String} {path : String}
    (h : options.parse words = .run taken path) : Spelled options taken words path := by
  fun_induction Options.parse options words with
  | case1 options given hgiven =>
    cases h
    exact ⟨[], by simp, rfl, by rw [hgiven]; rfl, rfl⟩
  | case7 options rest ih => exact Spelled.option (.verbose false) trivial rfl (ih h)
  | case8 options rest ih => exact Spelled.option (.verbose true) trivial rfl (ih h)
  | case9 options rest ih => exact Spelled.option .printVariables trivial rfl (ih h)
  | case11 options pair rest entry hentry ih =>
    obtain ⟨key, value⟩ := entry
    obtain ⟨hne, hkey, rfl⟩ := eq_of_assignment? hentry
    exact Spelled.option (.assign key value) ⟨hne, hkey⟩ rfl (ih h)
  | case14 options file rest ih =>
    exact Spelled.option (.variableFile file) trivial rfl (ih h)
  | case16 options directory rest ih =>
    exact Spelled.option (.includeDirectory directory) trivial rfl (ih h)
  | case17 options arg rest _ _ _ _ _ _ _ _ _ _ _ _ _ more hmore ih =>
    rw [Options.positional] at hmore
    split at hmore
    · cases hmore
    · next hdash =>
      split at hmore
      · cases hmore
      · next hnone =>
        cases hmore
        refine Spelled.cons (.scenario arg) hdash ?_ (ih h)
        rw [Option.not_isSome_iff_eq_none.1 hnone]
        exact Nat.le_refl 1
  | _ => cases h

/-- **What is accepted**: well-formed arguments with one scenario among them; all of them are taken,
in their order. -/
theorem parse_eq_run_iff {words : List String} {options : Options} {path : String} :
    parse words = .run options path ↔ ∃ line, Spells line path words ∧ options = settings line := by
  constructor
  · intro h
    obtain ⟨line, hline, hwords, hscenario, htaken⟩ := spelled_of_parse h
    exact ⟨line, ⟨hline, hwords, hscenario⟩, htaken⟩
  · rintro ⟨line, ⟨hline, rfl, hscenario⟩, rfl⟩
    exact parse_line hline hscenario

/-! ### One reading -/

/-- The first word tells one argument from another one. -/
theorem words_append_inj {a b : Argument} (ha : a.WellFormed) (hb : b.WellFormed)
    {rest more : List String} (h : a.words ++ rest = b.words ++ more) : a = b ∧ rest = more := by
  have hscenario : ∀ {path option : String}, path.toList.head? ≠ some '-' →
      option.toList.head? = some '-' → path ≠ option :=
    fun hpath hdash heq => hpath (heq ▸ hdash)
  cases a with
  | assign key value =>
    cases b with
    | assign key' value' =>
      obtain ⟨hpair, hrest⟩ := List.cons.inj (List.cons.inj h).2
      have hsame := congrArg assignment? hpair
      rw [assignment?_append ha.1 ha.2, assignment?_append hb.1 hb.2] at hsame
      cases hsame
      exact ⟨rfl, hrest⟩
    | verbose short => cases short <;> simp [Argument.words] at h
    | scenario path => exact absurd (List.cons.inj h).1.symm (hscenario hb rfl)
    | _ => simp [Argument.words] at h
  | scenario path =>
    cases b with
    | verbose short => cases short <;> exact absurd (List.cons.inj h).1 (hscenario ha rfl)
    | scenario path' =>
      cases h
      exact ⟨rfl, rfl⟩
    | _ => exact absurd (List.cons.inj h).1 (hscenario ha rfl)
  | verbose short =>
    cases b with
    | verbose short' => cases short <;> cases short' <;> simp_all [Argument.words]
    | scenario path =>
      cases short <;> exact absurd (List.cons.inj h).1.symm (hscenario hb rfl)
    | _ => cases short <;> simp [Argument.words] at h
  | _ =>
    cases b with
    | verbose short => cases short <;> simp [Argument.words] at h
    | scenario path => exact absurd (List.cons.inj h).1.symm (hscenario hb rfl)
    | _ => simp_all [Argument.words]

/-- **No words are spelled in two ways.** -/
theorem Spells.unique {line other : List Argument} {path path' : String} {words : List String}
    (h : Spells line path words) (h' : Spells other path' words) : line = other := by
  obtain ⟨hline, rfl, -⟩ := h
  obtain ⟨hother, hwords, -⟩ := h'
  have hne : ∀ argument : Argument, argument.words ≠ [] := by
    intro argument
    cases argument with
    | verbose short => cases short <;> simp [Argument.words]
    | _ => simp [Argument.words]
  induction line generalizing other with
  | nil =>
    cases other with
    | nil => rfl
    | cons b other => exact absurd (List.append_eq_nil_iff.1 hwords).1 (hne b)
  | cons a line ih =>
    cases other with
    | nil => exact absurd (List.append_eq_nil_iff.1 hwords.symm).1 (hne a)
    | cons b other =>
      rw [List.flatMap_cons, List.flatMap_cons] at hwords
      obtain ⟨rfl, hrest⟩ := words_append_inj (hother b List.mem_cons_self)
        (hline a List.mem_cons_self) hwords
      rw [ih (fun x hx => hline x (List.mem_cons_of_mem _ hx))
        (fun x hx => hother x (List.mem_cons_of_mem _ hx)) hrest]

/-! ### What is collected -/

theorem assignments_foldl (line : List Argument) (options : Options) :
    (line.foldl Options.take options).assignments = options.assignments ++ assignments line := by
  induction line generalizing options with
  | nil => exact (List.append_nil _).symm
  | cons argument line ih =>
    rw [List.foldl_cons, ih]
    cases argument with
    | assign key value => exact List.append_assoc _ _ _
    | _ => rfl

theorem variableFiles_foldl (line : List Argument) (options : Options) :
    (line.foldl Options.take options).variableFiles
      = options.variableFiles ++ variableFiles line := by
  induction line generalizing options with
  | nil => exact (List.append_nil _).symm
  | cons argument line ih =>
    rw [List.foldl_cons, ih]
    cases argument with
    | variableFile path => exact List.append_assoc _ _ _
    | _ => rfl

theorem assignments_settings (line : List Argument) :
    (settings line).assignments = assignments line :=
  assignments_foldl line {}

theorem variableFiles_settings (line : List Argument) :
    (settings line).variableFiles = variableFiles line :=
  variableFiles_foldl line {}

/-- The value of a key in the last of some files that has the key. -/
def lastDefined? (disk : Disk) (key : String) (paths : List String) : Option Value :=
  paths.findSomeRev? fun path =>
    match Namespace.load disk path with
    | .ok vars => Fields.get? key vars
    | .error _ => none

theorem lastDefined?_cons {disk : Disk} {path : String} {vars : Namespace}
    (h : Namespace.load disk path = .ok vars) (key : String) (paths : List String) :
    lastDefined? disk key (path :: paths)
      = (lastDefined? disk key paths).or (Fields.get? key vars) := by
  unfold lastDefined?
  rw [List.findSomeRev?, h]
  split
  · next hlast => rw [hlast, Option.some_or]
  · next hnone => rw [hnone, Option.none_or]

/-- Each file is loaded over those before it. -/
theorem get?_loadVariableFiles {paths : List String} {w : World}
    (h : ∀ path ∈ paths, ∃ vars, Namespace.load w.files.disk path = .ok vars)
    (vars : Namespace) :
    ∃ loaded left, loadVariableFiles paths vars w = (.ok loaded, left) ∧ left.files = w.files ∧
      ∀ key, Fields.get? key loaded
        = (lastDefined? w.files.disk key paths).or (Fields.get? key vars) := by
  induction paths generalizing vars w with
  | nil => exact ⟨vars, w, rfl, rfl, fun _ => rfl⟩
  | cons path paths ih =>
    have hfiles := World.files_log .info ("Loading variables: " ++ path) w
    obtain ⟨more, hmore⟩ := h path List.mem_cons_self
    have hlater : ∀ p ∈ paths, ∃ vars, Namespace.load
        (w.log .info ("Loading variables: " ++ path)).files.disk p = .ok vars := by
      rw [hfiles]
      exact fun p hp => h p (List.mem_cons_of_mem _ hp)
    obtain ⟨loaded, left, hloaded, hleft, hkeys⟩ := ih hlater (vars.insertAll more)
    refine ⟨loaded, left, ?_, hleft.trans hfiles, fun key => ?_⟩
    · rw [loadVariableFiles, hfiles, hmore]
      exact hloaded
    · rw [hkeys, hfiles, lastDefined?_cons hmore, Fields.get?_insertAll,
        Fields.lastUnder_of_ordered (Namespace.ordered_of_load hmore), Option.or_assoc]

/-- **Assignments stand over files**, and the last one to a key counts. -/
theorem get?_collectVariables {line : List Argument} {w : World}
    (h : ∀ path ∈ variableFiles line, ∃ vars, Namespace.load w.files.disk path = .ok vars) :
    ∃ vars left, collectVariables (settings line) w = (.ok vars, left) ∧ left.files = w.files ∧
      ∀ key, Fields.get? key vars = ((Fields.lastUnder key (assignments line)).map Value.str).or
        (lastDefined? w.files.disk key (variableFiles line)) := by
  obtain ⟨loaded, left, hloaded, hfiles, hkeys⟩ := get?_loadVariableFiles h []
  refine ⟨loaded.insertAll ((assignments line).map fun entry => (entry.1, .str entry.2)), left, ?_,
    hfiles, fun key => ?_⟩
  · rw [collectVariables, variableFiles_settings, hloaded, assignments_settings]
    rfl
  · rw [Fields.get?_insertAll, Fields.lastUnder_map, hkeys, Fields.get?_nil, Option.or_none]

/-- What is collected depends on the assignments and on the variable files alone. -/
theorem collectVariables_congr {line other : List Argument}
    (hassignments : assignments line = assignments other)
    (hfiles : variableFiles line = variableFiles other) (w : World) :
    collectVariables (settings line) w = collectVariables (settings other) w := by
  simp only [collectVariables, variableFiles_settings, assignments_settings, hassignments, hfiles]

/-- The world in which a run with options starts. -/
def shownWorld (options : Options) (w : World) : World :=
  { w with shown := some options.shownLevel }

/-- A scenario runs on the variables that were collected. -/
theorem run_collected {words : List String} {options : Options} {path : String} {w left : World}
    {vars : Namespace} {scenario : Scenario} (hwords : parse words = .run options path)
    (hvars : collectVariables options (shownWorld options w) = (.ok vars, left))
    (hscenario : Scenario.load left.files.disk path = .ok scenario) :
    run words w = runScenario options path scenario
      { vars, world := left.log .info ("Loading scenario: " ++ path) } := by
  have hfiles := World.files_log .info ("Loading scenario: " ++ path) left
  rw [run, hwords]
  dsimp only
  rw [start, ← shownWorld, hvars]
  dsimp only
  rw [hfiles, hscenario]

/-- **What a run starts with.**  A command line is accepted exactly if it is spelled by well-formed
arguments with one scenario among them, and then by no others; all of them are taken.  If the
variable files can be read, the scenario runs on variables that bind a key to the value of the last
assignment to it, or else to its value in the last file that has it, or else not at all.  Arguments
with the same assignments and the same variable files in the same order give the same variables,
whatever stands between them. -/
theorem start_variables :
    (∀ words options path, parse words = .run options path ↔
      ∃ line, Spells line path words ∧ options = settings line) ∧
    (∀ line other path path' words, Spells line path words → Spells other path' words →
      line = other) ∧
    (∀ line path words w, Spells line path words →
      (∀ file ∈ variableFiles line, ∃ vars, Namespace.load w.files.disk file = .ok vars) →
      ∃ vars left,
        collectVariables (settings line) (shownWorld (settings line) w) = (.ok vars, left) ∧
        (∀ key, Fields.get? key vars = ((Fields.lastUnder key (assignments line)).map Value.str).or
          (lastDefined? w.files.disk key (variableFiles line))) ∧
        ∀ scenario, Scenario.load w.files.disk path = .ok scenario →
          run words w = runScenario (settings line) path scenario
            { vars, world := left.log .info ("Loading scenario: " ++ path) }) ∧
    (∀ line other w, assignments line = assignments other →
      variableFiles line = variableFiles other →
      collectVariables (settings line) w = collectVariables (settings other) w) := by
  refine ⟨fun _ _ _ => parse_eq_run_iff, fun _ _ _ _ _ h h' => h.unique h',
    fun line path words w hspells hfiles => ?_, fun _ _ w h h' => collectVariables_congr h h' w⟩
  obtain ⟨vars, left, hvars, hleft, hkeys⟩ :=
    get?_collectVariables (w := shownWorld (settings line) w) hfiles
  refine ⟨vars, left, hvars, hkeys, fun scenario hscenario => ?_⟩
  have hdisk : left.files.disk = w.files.disk := congrArg Files.disk hleft
  exact run_collected (parse_eq_run_iff.2 ⟨line, hspells, rfl⟩) hvars (hdisk ▸ hscenario)

/-- Two files of variables, with a key in common. -/
def twoFiles : World :=
  { files :=
      { disk :=
          { entries :=
              [(["one.json"], .file (Text.Utf8.ofString "\x7b\"b\":\"one\",\"c\":\"one\"\x7d")),
                (["two.json"], .file (Text.Utf8.ofString "\x7b\"c\":\"two\"\x7d"))] } } }

/-- Arguments around a scenario, with a key and a value that look like options. -/
def mixedLine : List Argument :=
  [.assign "d" "first", .variableFile "one.json", .scenario "deploy.yaml",
    .assign "--verbose" "a=b", .verbose true, .variableFile "two.json", .assign "d" "--var"]

/-- The same assignments and files, sorted. -/
def sortedLine : List Argument :=
  [.variableFile "one.json", .variableFile "two.json", .assign "d" "first",
    .assign "--verbose" "a=b", .assign "d" "--var", .scenario "other.yaml"]

theorem spells_mixedLine :
    Spells mixedLine "deploy.yaml" ["--var", "d=first", "--vars-file", "one.json", "deploy.yaml",
      "--var", "--verbose=a=b", "-v", "--vars-file", "two.json", "--var", "d=--var"] where
  wellFormed := by
    intro argument hmem
    simp only [mixedLine, List.mem_cons, List.not_mem_nil, or_false] at hmem
    rcases hmem with rfl | rfl | rfl | rfl | rfl | rfl | rfl
    all_goals simp only [Argument.WellFormed] <;> decide
  words_eq := by decide
  scenario := rfl

/-- Text that is found is a string. -/
theorem eq_str_of_bind {v : Option Value} {text : String} (h : v.bind Value.str? = some text) :
    v = some (.str text) := by
  cases v with
  | none => cases h
  | some v =>
    cases v with
    | str s =>
      cases h
      rfl
    | _ => cases h

/-- The last assignment and the last file count, wherever they stand. -/
theorem start_variables_mixed :
    ∃ vars left, collectVariables (settings mixedLine) (shownWorld (settings mixedLine) twoFiles)
        = (.ok vars, left) ∧
      Fields.get? "d" vars = some (.str "--var") ∧
      Fields.get? "--verbose" vars = some (.str "a=b") ∧
      Fields.get? "b" vars = some (.str "one") ∧
      Fields.get? "c" vars = some (.str "two") ∧
      Fields.get? "e" vars = none ∧
      collectVariables (settings sortedLine) (shownWorld (settings mixedLine) twoFiles)
        = (.ok vars, left) := by
  have hfiles : ∀ file ∈ variableFiles mixedLine,
      ∃ vars, Namespace.load twoFiles.files.disk file = .ok vars := by
    intro file hmem
    have hok : (Namespace.load twoFiles.files.disk file).isOk = true := by
      simp only [mixedLine, variableFiles, List.filterMap, List.mem_cons, List.not_mem_nil,
        or_false] at hmem
      rcases hmem with rfl | rfl <;> decide +kernel
    cases hload : Namespace.load twoFiles.files.disk file with
    | ok vars => exact ⟨vars, rfl⟩
    | error e =>
      rw [hload] at hok
      cases hok
  obtain ⟨-, -, hstart, hcongr⟩ := start_variables
  obtain ⟨vars, left, hvars, hkeys, -⟩ := hstart _ _ _ twoFiles spells_mixedLine hfiles
  have hsorted := hcongr sortedLine mixedLine (shownWorld (settings mixedLine) twoFiles)
    (by decide) (by decide)
  refine ⟨vars, left, hvars, ?_, ?_, ?_, ?_, ?_, hsorted.trans hvars⟩
  · exact (hkeys "d").trans (eq_str_of_bind (by decide +kernel))
  · exact (hkeys "--verbose").trans (eq_str_of_bind (by decide +kernel))
  · exact (hkeys "b").trans (eq_str_of_bind (by decide +kernel))
  · exact (hkeys "c").trans (eq_str_of_bind (by decide +kernel))
  · exact (hkeys "e").trans (Option.isNone_iff_eq_none.1 (by decide +kernel))

end CommandLine

end Runbook
