import Mathlib.Data.List.Basic
import Mathlib.Data.List.Induction
import Mathlib.Logic.Function.Iterate
import Runbook.Proofs.Run.Inclusions
/-!
# Where the paths under a directory lead

A path under a directory is put behind the directory's own.  This file follows both by their text
alone, in which `.` stays and `..` goes up, and says which paths end in the directory or below it.

* `Route` — so many times up, and then along names, from the top or from where a path starts;
* `Route.of`, `Route.inner` — the route of a path, and of the path without its leading slashes;
* `Route.of_resolve` — a path under a directory follows the directory's route first;
* `Route.below_follow` — which routes end in a directory or below it;
* `Disk.locate_eq_ok`, `Disk.read_eq_ok`, `Disk.write_eq_ok` — what is found, read and written on a
  disk stands where the route of its path leads;
* `FileSystem.directory_reaches` — all of this, for every directory and every path.

A disk has no links here, so the place that a path names is that of its text.
-/

namespace Runbook

/-! ### Routes -/

/-- Where a path leads by its text: from the top or from where it starts, so many times up, and then
along names. -/
structure Route where
  absolute : Bool := false
  ups : Nat := 0
  names : List String := []
deriving DecidableEq, Repr

namespace Route

/-- One time up; the top has nothing above it. -/
def up (r : Route) : Route :=
  if r.names ≠ [] then { r with names := r.names.dropLast }
  else if r.absolute then r
  else { r with ups := r.ups + 1 }

/-- Along one component. -/
def step (r : Route) (part : String) : Route :=
  if part = "" ∨ part = "." then r
  else if part = ".." then r.up
  else { r with names := r.names ++ [part] }

/-- Along several components. -/
def along (r : Route) (parts : List String) : Route :=
  parts.foldl step r

/-- The components of a path. -/
def parts (cs : List Char) : List String :=
  (Text.splitBy (· == '/') cs).map String.ofList

/-- The route of a path. -/
def of (path : String) : Route :=
  along { absolute := path.toList.head? = some '/' } (parts path.toList)

/-- The route of a path without its leading slashes. -/
def inner (path : String) : Route :=
  along {} (parts (path.toList.dropWhile (· == '/')))

/-- One route behind another. -/
def follow (r q : Route) : Route :=
  { up^[q.ups] r with names := (up^[q.ups] r).names ++ q.names }

/-- The route `r` ends where `root` ends or below it. -/
structure Below (root r : Route) : Prop where
  absolute : r.absolute = root.absolute
  ups : r.ups = root.ups
  names : root.names <+: r.names

/-- The place where a route leads from a working directory. -/
def place (r : Route) (here : Place) : Place :=
  (if r.absolute then [] else here.take (here.length - r.ups)) ++ r.names

/-! ### Going up -/

@[simp] theorem absolute_up (r : Route) : r.up.absolute = r.absolute := by
  unfold up
  split
  · rfl
  · split <;> rfl

theorem up_of_ne {r : Route} (hnames : r.names ≠ []) :
    r.up = { r with names := r.names.dropLast } :=
  if_pos hnames

@[simp] theorem names_up (r : Route) : r.up.names = r.names.dropLast := by
  unfold up
  split
  · rfl
  · next hnames =>
    rw [not_not] at hnames
    split <;> simp [hnames]

theorem ups_up (r : Route) :
    r.up.ups = if r.absolute = true ∨ r.names ≠ [] then r.ups else r.ups + 1 := by
  unfold up
  by_cases hnames : r.names = []
  · cases r.absolute <;> simp [hnames]
  · simp [hnames]

@[simp] theorem absolute_climb (r : Route) (n : Nat) : (up^[n] r).absolute = r.absolute := by
  induction n with
  | zero => rfl
  | succ n ih => rw [Function.iterate_succ_apply', absolute_up, ih]

theorem names_climb (r : Route) (n : Nat) :
    (up^[n] r).names = r.names.take (r.names.length - n) := by
  induction n with
  | zero => exact (List.take_length).symm
  | succ n ih =>
    rw [Function.iterate_succ_apply', names_up, ih, List.dropLast_eq_take, List.take_take,
      List.length_take]
    congr 1
    omega

theorem ups_climb (r : Route) (n : Nat) :
    (up^[n] r).ups = if r.absolute = true then r.ups else r.ups + (n - r.names.length) := by
  induction n with
  | zero => simp
  | succ n ih =>
    rw [Function.iterate_succ_apply', ups_up, ih, absolute_climb, names_climb]
    have hlength : r.names.take (r.names.length - n) ≠ [] ↔ n < r.names.length := by
      rw [← List.length_pos_iff, List.length_take]
      omega
    simp only [hlength]
    cases r.absolute with
    | true => rfl
    | false =>
      simp only [Bool.false_eq_true, false_or, if_false]
      split <;> omega

/-! ### One route behind another -/

theorem follow_start (r : Route) : r.follow {} = r := by
  unfold follow
  simp

theorem absolute_step (r : Route) (part : String) : (r.step part).absolute = r.absolute := by
  unfold step
  split
  · rfl
  · split
    · exact absolute_up r
    · rfl

/-- A component behind a route that does not start at the top. -/
theorem step_follow (r : Route) {q : Route} (hrelative : q.absolute = false) (part : String) :
    (r.follow q).step part = r.follow (q.step part) := by
  unfold step
  split
  · rfl
  · split
    · by_cases hnames : q.names = []
      · -- there is no name of its own to drop, so it goes up in what lies before it
        have hup : q.up = { q with ups := q.ups + 1 } := by
          unfold up
          simp [hnames, hrelative]
        have hbefore : r.follow q = up^[q.ups] r := by
          unfold follow
          rw [hnames, List.append_nil]
        rw [hbefore, hup, follow]
        dsimp only
        rw [hnames, List.append_nil, Function.iterate_succ_apply']
      · have hbehind : (r.follow q).names ≠ [] :=
          List.append_ne_nil_of_right_ne_nil _ hnames
        rw [up_of_ne hbehind, up_of_ne hnames]
        unfold follow
        dsimp only
        rw [List.dropLast_append_of_ne_nil hnames]
    · unfold follow
      dsimp only
      rw [List.append_assoc]

theorem along_follow (r : Route) {q : Route} (hrelative : q.absolute = false)
    (ps : List String) : (r.follow q).along ps = r.follow (q.along ps) := by
  induction ps generalizing q with
  | nil => rfl
  | cons part ps ih =>
    show ((r.follow q).step part).along ps = r.follow ((q.step part).along ps)
    rw [step_follow r hrelative, ih ((absolute_step q part).trans hrelative)]

/-- Components are followed as a route of their own is. -/
theorem along_eq_follow (r : Route) (ps : List String) : r.along ps = r.follow (along {} ps) := by
  have h := r.along_follow (q := {}) rfl ps
  rwa [follow_start] at h

/-- **Below a directory.**  A route behind that of a directory ends in the directory or below it
exactly when it goes up no further than the directory lies below its start, and then along the names
that it has left. -/
theorem below_follow (r q : Route) : r.Below (r.follow q) ↔
    (r.absolute = true ∨ q.ups ≤ r.names.length) ∧
      r.names.drop (r.names.length - q.ups) <+: q.names := by
  have hnames : r.names <+: (r.follow q).names ↔
      r.names.drop (r.names.length - q.ups) <+: q.names := by
    unfold follow
    dsimp only
    rw [names_climb]
    generalize r.names.length - q.ups = kept
    calc r.names <+: r.names.take kept ++ q.names
        ↔ r.names.take kept ++ r.names.drop kept <+: r.names.take kept ++ q.names := by
          rw [List.take_append_drop]
      _ ↔ r.names.drop kept <+: q.names := List.prefix_append_right_inj _
  have hups : (r.follow q).ups = r.ups ↔ r.absolute = true ∨ q.ups ≤ r.names.length := by
    show (up^[q.ups] r).ups = r.ups ↔ _
    rw [ups_climb]
    cases r.absolute with
    | true => simp
    | false => simp only [Bool.false_eq_true, if_false, false_or]; omega
  rw [← hnames, ← hups]
  exact ⟨fun h => ⟨h.ups, h.names⟩, fun h => ⟨absolute_climb r q.ups, h.1, h.2⟩⟩

/-! ### Paths under a directory -/

theorem parts_append (cs rest : List Char) : parts (cs ++ '/' :: rest) = parts cs ++ parts rest := by
  unfold parts
  rw [Text.splitBy_append_cons rfl, List.map_append]

theorem along_append (r : Route) (ps qs : List String) :
    r.along (ps ++ qs) = (r.along ps).along qs :=
  List.foldl_append

theorem along_empty (r : Route) : r.along [""] = r := rfl

theorem head?_dropWhile_ne {cs : List Char} :
    (cs.dropWhile (· == '/')).head? ≠ some '/' := by
  intro h
  have := List.head?_dropWhile_not (· == '/') cs
  rw [h] at this
  simp at this

/-- A path under a directory follows the route of the directory first. -/
theorem of_resolve (root path : String) :
    of (FileSystem.resolve root path) = (of root).follow (inner path) := by
  rw [inner, ← along_eq_follow]
  unfold FileSystem.resolve
  dsimp only
  split
  · next hempty =>
    rw [String.isEmpty_iff] at hempty
    rw [hempty, of, of, String.toList_ofList, decide_eq_false head?_dropWhile_ne]
    rfl
  · next hroot =>
    have hne : root.toList ≠ [] := by
      simpa [String.isEmpty_iff] using hroot
    split
    · next hlast =>
      obtain ⟨before, hbefore⟩ := List.getLast?_eq_some_iff.1 hlast
      unfold of
      rw [String.toList_append, String.toList_ofList, hbefore, List.append_assoc]
      rw [List.singleton_append, parts_append, parts_append, along_append, along_append]
      rw [show parts [] = [""] from rfl, along_empty]
      cases before <;> rfl
    · have hslash : ("/" : String).toList = ['/'] := rfl
      unfold of
      rw [String.toList_append, String.toList_append, hslash, String.toList_ofList,
        List.append_assoc, List.singleton_append, parts_append, along_append,
        List.head?_append_of_ne_nil _ hne]

/-! ### Places on a disk -/

/-- A component leads from a place as it leads along a route. -/
theorem place_up (r : Route) (here : Place) : r.up.place here = (r.place here).dropLast := by
  by_cases hnames : r.names = []
  · cases habsolute : r.absolute with
    | true => simp [up, place, hnames, habsolute]
    | false =>
      simp only [up, place, hnames, habsolute, ne_eq, not_true_eq_false, Bool.false_eq_true,
        if_false, List.append_nil, List.dropLast_eq_take, List.take_take, List.length_take]
      congr 1
      omega
  · rw [up_of_ne hnames]
    unfold place
    exact (List.dropLast_append_of_ne_nil hnames).symm

theorem place_names (r : Route) (here : Place) (name : String) :
    ({ r with names := r.names ++ [name] } : Route).place here = r.place here ++ [name] :=
  (List.append_assoc _ _ _).symm

/-- What lies below a directory by its route lies below its place. -/
theorem Below.place_prefix {root r : Route} (h : root.Below r) (here : Place) :
    root.place here <+: r.place here := by
  unfold place
  rw [h.absolute, h.ups]
  exact (List.prefix_append_right_inj _).2 h.names

end Route

namespace Disk

variable {d : Disk}

/-- Components that can be followed lead where they lead along a route. -/
theorem walk_eq_ok {r : Route} {here : Place} {parts : List String} {target : Place}
    (h : d.walk (r.place here) parts = .ok target) : target = (r.along parts).place here := by
  induction parts generalizing r with
  | nil =>
    cases h
    rfl
  | cons part parts ih =>
    show target = ((r.step part).along parts).place here
    rw [walk] at h
    split at h
    · cases h
    · cases h
    · unfold Route.step
      split at h
      · next hstays =>
        rw [if_pos hstays]
        exact ih h
      · next hmoves =>
        rw [if_neg hmoves]
        split at h
        · next hup =>
          rw [← Route.place_up] at h
          rw [if_pos hup]
          exact ih h
        · next hname =>
          rw [if_neg hname]
          split at h
          · cases h
          · split at h
            · rw [← Route.place_names] at h
              exact ih h
            · cases h

/-- The route on which a path starts. -/
theorem start_eq (d : Disk) (path : String) :
    d.start path = (({ absolute := path.toList.head? = some '/' } : Route).place d.here,
      Route.parts path.toList) := by
  unfold start Route.place
  by_cases hslash : path.toList.head? = some '/' <;> simp [hslash, Route.parts]

/-- What a path names stands where its route leads. -/
theorem locate_eq_ok {path : String} {target : Place} (h : d.locate path = .ok target) :
    target = (Route.of path).place d.here := by
  unfold locate at h
  cases hguard : guardPath path with
  | error e => rw [hguard] at h; cases h
  | ok _ =>
    rw [hguard, start_eq] at h
    exact walk_eq_ok h

theorem read_eq_ok {path : String} {bytes : List UInt8} (h : d.read path = .ok bytes) :
    d.entry? ((Route.of path).place d.here) = some (.file bytes) := by
  unfold read at h
  cases hlocate : d.locate path with
  | error e => rw [hlocate] at h; cases h
  | ok target =>
    rw [hlocate] at h
    rw [← locate_eq_ok hlocate]
    dsimp only [bind, Except.bind] at h
    split at h
    · next hentry =>
      cases h
      exact hentry
    · cases h
    · cases h

theorem lookup_put (target other : Place) (e : Entry) (entries : List (Place × Entry)) :
    (put target e entries).lookup other
      = if other = target then some e else entries.lookup other := by
  induction entries with
  | nil =>
    unfold put
    split
    · next hsame => simp [hsame]
    · next hother => simp [List.lookup_cons, beq_eq_false_iff_ne.2 hother]
  | cons entry rest ih =>
    obtain ⟨p, f⟩ := entry
    unfold put
    by_cases hp : p = target
    · subst hp
      by_cases hsame : other = p
      · simp [hsame]
      · simp [List.lookup_cons, hsame, beq_eq_false_iff_ne.2 hsame]
    · rw [if_neg hp]
      by_cases hfound : other = p
      · subst hfound
        simp [hp]
      · simp only [List.lookup_cons, beq_eq_false_iff_ne.2 hfound]
        exact ih

theorem entry?_put {target : Place} (htop : target ≠ []) (d : Disk) (e : Entry) (other : Place) :
    Disk.entry? { d with entries := put target e d.entries } other
      = if other = target then some e else d.entry? other := by
  unfold entry?
  by_cases hother : other = []
  · rw [if_pos hother, if_pos hother, if_neg (hother ▸ htop.symm)]
  · rw [if_neg hother, if_neg hother]
    exact lookup_put target other e d.entries

/-- The components that a file is created by: without the empty ones behind its name, which do not
lead anywhere. -/
theorem along_dropTrailing (r : Route) (parts : List String) :
    r.along (dropTrailing parts).1 = r.along parts := by
  unfold dropTrailing
  dsimp only
  induction parts using List.reverseRecOn with
  | nil => rfl
  | append_singleton parts part ih =>
    rw [List.reverse_append, List.reverse_singleton, List.singleton_append, List.dropWhile_cons]
    split
    · next hempty =>
      rw [beq_iff_eq.1 hempty, ih, Route.along_append, Route.along_empty]
    · rw [← List.singleton_append, List.reverse_append, List.reverse_reverse, List.reverse_singleton]

theorem ne_empty_of_getLast? {parts : List String} {name : String}
    (h : (dropTrailing parts).1.getLast? = some name) : name ≠ "" := by
  unfold dropTrailing at h
  dsimp only at h
  rw [List.getLast?_reverse] at h
  have hkept := List.head?_dropWhile_not (· == "") parts.reverse
  rw [h] at hkept
  simpa using hkept

/-- The last name on the way to a file, behind the place of its directory. -/
theorem place_of_getLast? {r : Route} {here parent : Place} {parts : List String} {name : String}
    (hlast : (dropTrailing parts).1.getLast? = some name) (hname : ¬(name = "." ∨ name = ".."))
    (hparent : parent = (r.along (dropTrailing parts).1.dropLast).place here) :
    parent ++ [name] = (r.along parts).place here := by
  have hempty := ne_empty_of_getLast? hlast
  have hkept : (dropTrailing parts).1 = (dropTrailing parts).1.dropLast ++ [name] :=
    (List.dropLast_append_getLast? name hlast).symm
  rw [not_or] at hname
  rw [← along_dropTrailing, hkept, Route.along_append, hparent, ← Route.place_names]
  show _ = (Route.step _ name).place here
  unfold Route.step
  rw [if_neg (not_or.2 ⟨hempty, hname.1⟩), if_neg hname.2]

/-- A file is written where the route of its path leads, and nothing else changes. -/
theorem write_eq_ok {path : String} {bytes : List UInt8} {d' : Disk}
    (h : d.write path bytes = .ok d') : d'.here = d.here ∧ ∀ other,
      d'.entry? other = if other = (Route.of path).place d.here then some (.file bytes)
        else d.entry? other := by
  unfold write at h
  cases hguard : guardPath path with
  | error e => rw [hguard] at h; cases h
  | ok _ =>
    rw [hguard, start_eq] at h
    dsimp only [bind, Except.bind] at h
    cases hlast : (dropTrailing (Route.parts path.toList)).1.getLast? with
    | none => rw [hlast] at h; cases h
    | some name =>
      rw [hlast] at h
      dsimp only at h
      split at h
      · cases h
      · next parent hparent =>
        have hplace := fun hname => place_of_getLast? hlast hname (walk_eq_ok hparent)
        split at h
        · split at h
          · cases h
          · next hname =>
            rw [Route.of, ← hplace hname]
            have htop : parent ++ [name] ≠ [] := List.append_ne_nil_of_right_ne_nil _ nofun
            split at h
            · cases h
            · split at h
              · cases h
              all_goals
                split at h <;> cases h
                exact ⟨rfl, entry?_put htop d _⟩
        · cases h
        · cases h

end Disk

/-! ### Directories -/

namespace FileSystem

/-- A path behind so many slashes. -/
def slashes (n : Nat) (path : String) : String :=
  String.ofList (List.replicate n '/') ++ path

/-- Slashes in front of a path make no difference. -/
theorem resolve_slashes (root path : String) (n : Nat) :
    resolve root (slashes n path) = resolve root path := by
  have hdropped : (slashes n path).toList.dropWhile (· == '/')
      = path.toList.dropWhile (· == '/') := by
    unfold slashes
    rw [String.toList_append, String.toList_ofList]
    induction n with
    | zero => rfl
    | succ n ih => exact ih
  unfold resolve
  rw [hdropped]

/-- The place on a disk where the route of a path under a directory leads. -/
def target (root path : String) (d : Disk) : Place :=
  (Route.of (resolve root path)).place d.here

/-- The ways to files under a directory all lead to the target of the path. -/
structure Reaches (root path : String) (files : Files) : Prop where
  exists? : (directory root).exists? files path = .ok true →
    files.disk.locate (resolve root path) = .ok (target root path files.disk)
  read : ∀ bytes, (directory root).read files path = .ok bytes →
    files.disk.entry? (target root path files.disk) = some (.file bytes)
  write : ∀ bytes files', (directory root).write files path bytes = .ok files' →
    files'.memory = files.memory ∧ files'.disk.here = files.disk.here ∧
      ∀ other, files'.disk.entry? other
        = if other = target root path files.disk then some (.file bytes)
          else files.disk.entry? other

theorem reaches (root path : String) (files : Files) : Reaches root path files where
  exists? h := by
    change files.disk.exists? (resolve root path) = .ok true at h
    unfold Disk.exists? at h
    split at h
    · next place hlocate => rw [hlocate, Disk.locate_eq_ok hlocate, target]
    · split at h <;> cases h
  read bytes h := Disk.read_eq_ok h
  write bytes files' h := by
    change (files.disk.write (resolve root path) bytes).map _ = .ok files' at h
    cases hwrite : files.disk.write (resolve root path) bytes with
    | error e => rw [hwrite] at h; cases h
    | ok disk =>
      rw [hwrite] at h
      cases h
      exact ⟨rfl, Disk.write_eq_ok hwrite⟩

/-- **Paths under a directory.**

* The path ends in the directory or below it, by its text, exactly when it goes up no further than
  the directory lies below its start, and then along the names that it has left.
* So does every path that never goes up beyond its own start.
* Slashes in front of the path make no difference.
* What ends there by its text stands there on every disk.
* Whether a file exists, what is read and what is written is that of the place where the path leads,
  and so are the records of a step that includes the file, whatever its name was filled in with. -/
theorem directory_reaches (root path : String) :
    ((Route.of root).Below (Route.of (resolve root path)) ↔
      ((Route.of root).absolute = true ∨
          (Route.inner path).ups ≤ (Route.of root).names.length) ∧
        (Route.of root).names.drop ((Route.of root).names.length - (Route.inner path).ups)
          <+: (Route.inner path).names) ∧
    ((Route.inner path).ups = 0 → (Route.of root).Below (Route.of (resolve root path))) ∧
    (∀ m n, resolve root (slashes m path) = resolve root (slashes n path)) ∧
    (∀ d : Disk, (Route.of root).Below (Route.of (resolve root path)) →
      (Route.of root).place d.here <+: target root path d) ∧
    (∀ files, Reaches root path files) ∧
    (∀ (inclusion : Include) (stepName : String) (s : State) (records : List Value),
      inclusion.storage = some (.directory root) → inclusion.path s.vars = path →
      inclusion.load stepName s.world.files (Setup.included inclusion s.vars) = .ok records →
      ∃ bytes, s.world.files.disk.entry? (target root path s.world.files.disk)
          = some (.file bytes) ∧
        Scenario.ofText (Text.Utf8.toStringLossy bytes) = .ok ⟨records⟩) := by
  have hbelow := (Route.of root).below_follow (Route.inner path)
  rw [← Route.of_resolve] at hbelow
  refine ⟨hbelow, ?_, ?_, fun d h => h.place_prefix d.here, reaches root path, ?_⟩
  · intro hups
    rw [hbelow, hups]
    refine ⟨.inr (Nat.zero_le _), ?_⟩
    rw [Nat.sub_zero, List.drop_length]
    exact List.nil_prefix
  · exact fun m n => (resolve_slashes root path m).trans (resolve_slashes root path n).symm
  · intro inclusion stepName s records hstorage hpath hload
    unfold Include.load at hload
    dsimp only at hload
    rw [hstorage, ← Include.path, hpath] at hload
    dsimp only at hload
    split at hload
    · cases hload
    · next bytes hread =>
      split at hload
      · cases hload
      · next scenario hparse =>
        cases hload
        exact ⟨bytes, (reaches root path s.world.files).read bytes hread, hparse⟩

/-- A directory with a file, and a file beside it; both are empty. -/
def shelf : Files :=
  { disk := { entries := [(["inc"], .directory), (["inc", "a"], .file []),
      (["secret"], .file [])] } }

/-- A step that includes the file by a path that leaves the directory and comes back. -/
def roundabout : Include :=
  { file := "/../inc/a", storage := some (.directory "inc") }

/-- Such a path leads to the file in the directory. -/
theorem directory_reaches_roundabout :
    (Route.of "inc").Below (Route.of (resolve "inc" "/../inc/a")) ∧
    (Route.inner "./b/../a").ups = 0 ∧
    (Route.of "inc").Below (Route.of (resolve "inc" "./b/../a")) ∧
    (directory "inc").read shelf "/../inc/a" = .ok [] ∧
    shelf.disk.entry? (target "inc" "/../inc/a" shelf.disk) = some (.file []) ∧
    (Route.of "inc").place shelf.disk.here <+: target "inc" "/../inc/a" shelf.disk ∧
    roundabout.storage = some (.directory "inc") ∧
    roundabout.path [] = "/../inc/a" ∧
    roundabout.load "in" shelf (Setup.included roundabout []) = .ok [] ∧
    ∃ bytes, shelf.disk.entry? (target "inc" "/../inc/a" shelf.disk) = some (.file bytes) ∧
      Scenario.ofText (Text.Utf8.toStringLossy bytes) = .ok ⟨[]⟩ := by
  obtain ⟨hiff, -, -, hplace, hreaches, hinclude⟩ := directory_reaches "inc" "/../inc/a"
  obtain ⟨-, hstays, -⟩ := directory_reaches "inc" "./b/../a"
  have hbelow := hiff.2 (by decide +kernel)
  have hread : (directory "inc").read shelf "/../inc/a" = .ok [] := by rfl
  have hpath : roundabout.path [] = "/../inc/a" := by decide +kernel
  have hload : roundabout.load "in" shelf (Setup.included roundabout []) = .ok [] := by rfl
  have hups : (Route.inner "./b/../a").ups = 0 := by decide +kernel
  exact ⟨hbelow, hups, hstays hups, hread, (hreaches shelf).read [] hread,
    hplace shelf.disk hbelow, rfl, hpath, hload,
    hinclude roundabout "in" { vars := [], world := { files := shelf } } [] rfl hpath hload⟩

/-- A path that goes up leaves the directory: what lies beside it is found, read, included and
written. -/
theorem directory_is_left :
    ¬(Route.of "inc").Below (Route.of (resolve "inc" "../secret")) ∧
    ¬(Route.of "inc").place shelf.disk.here <+: target "inc" "../secret" shelf.disk ∧
    (directory "inc").exists? shelf "../secret" = .ok true ∧
    (directory "inc").read shelf "../secret" = .ok [] ∧
    { roundabout with file := "../secret" }.load "in" shelf "../secret" = .ok [] ∧
    ∃ files, (directory "inc").write shelf "../secret" [1] = .ok files ∧
      files.disk.entry? ["secret"] = some (.file [1]) := by
  refine ⟨?_, by decide +kernel, rfl, rfl, rfl, _, rfl, rfl⟩
  exact fun h => absurd h.names (by decide +kernel)

end FileSystem

end Runbook
