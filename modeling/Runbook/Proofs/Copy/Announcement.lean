import Runbook.Proofs.Copy.Delivery
/-!
# How an announcement is read

A receiver reads an announcement up to its newline and takes it apart at its first two spaces.
This file says which name a file is announced under, that all a sender writes starts with the whole
announcement, and what such a receiver makes of it.

* `pathParts`, `baseName_eq` — the parts of a path, and the last one as its name;
* `Announced`, `Announced.read?` — what a receiver reads, and the bytes behind it;
* `Announced.read?_append` — an announcement of one line is read as what it was made of;
* `Exchange.run_written` — an exchange starts with the announcement, whatever the receiver does;
* `announcement_read` — all of this for a copy, by where the first newline of the name stands;
* `announcement_of_two_lines` — a name with a newline makes the receiver take a part of it for the
  contents.
-/

namespace Runbook.Copy

open Response (newline)

/-! ### Names of paths -/

/-- The parts of a path between its slashes that are not empty. -/
def pathParts (cs : List Char) : List (List Char) :=
  (cs.splitOn '/').filter fun part => !part.isEmpty

theorem pathParts_nil : pathParts [] = [] := by
  rw [pathParts, List.splitOn_nil]
  rfl

theorem pathParts_append (front back : List Char) :
    pathParts (front ++ '/' :: back) = pathParts front ++ pathParts back := by
  rw [pathParts, List.splitOn_append_cons_self, List.filter_append, pathParts, pathParts]

/-- Slashes at the end add no part. -/
theorem pathParts_append_slashes (front : List Char) {slashes : List Char}
    (h : ∀ c ∈ slashes, c = '/') : pathParts (front ++ slashes) = pathParts front := by
  induction slashes generalizing front with
  | nil => rw [List.append_nil]
  | cons c slashes ih =>
    obtain ⟨rfl, hslashes⟩ := List.forall_mem_cons.1 h
    have hmore := ih [] hslashes
    rw [List.nil_append, pathParts_nil] at hmore
    rw [pathParts_append, hmore, List.append_nil]

/-- What holds no slash is one part. -/
theorem pathParts_single {name : List Char} (hslash : '/' ∉ name) (hname : name ≠ []) :
    pathParts name = [name] := by
  have hsplit : name.splitOn '/' = [name] := List.splitOn_eq_singleton hslash
  rw [pathParts, hsplit]
  simp [hname]

/-- Of what ends in no slash, the last part is all behind the last slash. -/
theorem getLast?_pathParts_reverse {c : Char} {kept : List Char} (hc : c ≠ '/') :
    (pathParts (c :: kept).reverse).getLast?
      = some ((c :: kept).takeWhile (· != '/')).reverse := by
  have hhead : (c :: kept).takeWhile (· != '/') ≠ [] := by simp [hc]
  have hname : pathParts ((c :: kept).takeWhile (· != '/')).reverse
      = [((c :: kept).takeWhile (· != '/')).reverse] := by
    refine pathParts_single (fun hslash => ?_) (List.reverse_eq_nil_iff.not.2 hhead)
    have hother := List.all_eq_true.1 List.all_takeWhile _ (List.mem_reverse.1 hslash)
    exact absurd hother (by decide)
  have hparts := @List.takeWhile_append_dropWhile _ (· != '/') (c :: kept)
  rw [← hparts, List.reverse_append, hparts]
  cases hrest : (c :: kept).dropWhile (· != '/') with
  | nil => rw [List.reverse_nil, List.nil_append, hname, List.getLast?_singleton]
  | cons d rest =>
    have hd : d = '/' := by
      have hstop := List.head?_dropWhile_not (· != '/') (c :: kept)
      rw [hrest] at hstop
      simpa using hstop
    rw [hd, List.reverse_cons, List.append_assoc, List.singleton_append, pathParts_append, hname,
      List.getLast?_concat]

/-- **The name of a path is its last part.** -/
theorem baseName_eq (path : String) :
    baseName path = if path = "" then "."
      else ((pathParts path.toList).getLast?.map String.ofList).getD "/" := by
  have hslashes : ∀ c ∈ (path.toList.reverse.takeWhile (· == '/')).reverse, c = '/' := fun c hc =>
    beq_iff_eq.1 (List.all_eq_true.1 List.all_takeWhile c (List.mem_reverse.1 hc))
  have hpath : path.toList = (path.toList.reverse.dropWhile (· == '/')).reverse
      ++ (path.toList.reverse.takeWhile (· == '/')).reverse := by
    rw [← List.reverse_append, List.takeWhile_append_dropWhile, List.reverse_reverse]
  rw [hpath, pathParts_append_slashes _ hslashes, baseName]
  cases hkept : path.toList.reverse.dropWhile (· == '/') with
  | nil =>
    rw [List.reverse_nil, pathParts_nil]
    by_cases hempty : path = ""
    · subst hempty
      rfl
    · simp [hempty]
  | cons c kept =>
    have hc : c ≠ '/' := by
      have hstop := List.head?_dropWhile_not (· == '/') path.toList.reverse
      rw [hkept] at hstop
      simpa using hstop
    have hne : path ≠ "" := by
      rintro rfl
      cases hkept
    rw [getLast?_pathParts_reverse hc, if_neg hne]
    rfl

/-! ### Reading an announcement -/

/-- The byte between the parts of an announcement. -/
def space : UInt8 := 32

/-- The bytes in front of a byte and those behind it. -/
def cutAt? (mark : UInt8) : List UInt8 → Option (List UInt8 × List UInt8)
  | [] => none
  | b :: rest =>
    if b = mark then some ([], rest)
    else (cutAt? mark rest).map fun (front, rest) => (b :: front, rest)

theorem cutAt?_append {mark : UInt8} {front : List UInt8} (h : mark ∉ front)
    (rest : List UInt8) : cutAt? mark (front ++ mark :: rest) = some (front, rest) := by
  induction front with
  | nil => simp [cutAt?]
  | cons b front ih =>
    obtain ⟨hb, hfront⟩ := not_or.1 (List.mem_cons.not.1 h)
    rw [List.cons_append, cutAt?, if_neg (Ne.symm hb), ih hfront]
    rfl

/-- What a receiver reads of an announcement: the letter with the permissions, the size and the
name. -/
structure Announced where
  kind : List UInt8
  size : List UInt8
  name : List UInt8
deriving DecidableEq, Repr

namespace Announced

/-- A line taken apart at its first two spaces. -/
def ofLine? (line : List UInt8) : Option Announced :=
  (cutAt? space line).bind fun (kind, rest) =>
    (cutAt? space rest).map fun (size, name) => { kind, size, name }

/-- Read one line; the second component is what is left of the stream. -/
def read? (bytes : List UInt8) : Option (Announced × List UInt8) :=
  (Response.splitLine? bytes).bind fun (line, rest) =>
    (ofLine? line).map fun announced => (announced, rest)

/-- The bytes of an announcement without its newline. -/
def bytes (a : Announced) : List UInt8 :=
  a.kind ++ space :: (a.size ++ space :: a.name)

/-- An announcement that can be read back: a name may hold spaces, and no part a newline. -/
structure IsLine (a : Announced) : Prop where
  kind : space ∉ a.kind ∧ newline ∉ a.kind
  size : space ∉ a.size ∧ newline ∉ a.size
  name : newline ∉ a.name

/-- **An announcement of one line is read as what it was made of**, and nothing of it is left. -/
theorem read?_append {a : Announced} (h : a.IsLine) (rest : List UInt8) :
    read? (a.bytes ++ newline :: rest) = some (a, rest) := by
  have hspace : newline ≠ space := by decide
  have hline : newline ∉ a.bytes := by
    simp only [bytes, List.mem_append, List.mem_cons, not_or]
    exact ⟨h.kind.2, hspace, h.size.2, hspace, h.name⟩
  rw [read?, Response.splitLine?_append hline, Option.bind_some]
  dsimp only
  rw [ofLine?, bytes, cutAt?_append h.kind.1, Option.bind_some]
  dsimp only
  rw [cutAt?_append h.size.1]
  rfl

end Announced

/-! ### Announcements of files -/

/-- The announcement of a file under a name that may be cut short. -/
def announced (permissions : String) (size : Nat) (name : List Char) : Announced where
  kind := Text.Utf8.encode ('C' :: permissions.toList)
  size := Text.Utf8.encode (Text.natText size).toList
  name := Text.Utf8.encode name

/-- The bytes in front of the contents of a file. -/
def header (permissions : String) (size : Nat) (path : String) : List UInt8 :=
  Text.Utf8.ofString (fileHeader permissions size (baseName path))

theorem bytes_announced (permissions : String) (size : Nat) (name : List Char) :
    (announced permissions size name).bytes
      = Text.Utf8.encode
          ('C' :: permissions.toList ++ ' ' :: ((Text.natText size).toList ++ ' ' :: name)) := by
  have hspace : ∀ cs, Text.Utf8.encode (' ' :: cs) = space :: Text.Utf8.encode cs :=
    fun _ => rfl
  rw [Announced.bytes, announced, Text.Utf8.encode_append, hspace, Text.Utf8.encode_append, hspace]

/-- The permissions that a copy can be given. -/
def IsOctal (permissions : String) : Prop :=
  ∀ c ∈ permissions.toList, c ∈ "01234567".toList

/-- A name without a newline makes an announcement of one line. -/
theorem isLine_announced {permissions : String} (hpermissions : IsOctal permissions) (size : Nat)
    {name : List Char} (hname : '\n' ∉ name) : (announced permissions size name).IsLine := by
  have hencoded : ∀ {cs : List Char} {b : UInt8}, b.toNat < 128 → Char.ofNat b.toNat ∉ cs →
      b ∉ Text.Utf8.encode cs := fun hb hcs hmem => hcs (Text.Utf8.mem_encode_ascii hb hmem)
  have hkind : ∀ c ∈ 'C' :: permissions.toList, c ≠ ' ' ∧ c ≠ '\n' := by
    intro c hc
    rcases List.mem_cons.1 hc with rfl | hc
    · decide
    · have hdigits : ∀ d ∈ "01234567".toList, d ≠ ' ' ∧ d ≠ '\n' := by simp
      exact hdigits c (hpermissions c hc)
  have hsize : ∀ c ∈ (Text.natText size).toList, c ≠ ' ' ∧ c ≠ '\n' := by
    intro c hc
    rw [Text.toList_natText] at hc
    have hdigit := Nat.isDigit_of_mem_toDigits (by decide) (by decide) hc
    constructor <;> rintro rfl <;> cases hdigit
  exact
    { kind := ⟨hencoded (by decide) fun h => (hkind _ h).1 rfl,
        hencoded (by decide) fun h => (hkind _ h).2 rfl⟩
      size := ⟨hencoded (by decide) fun h => (hsize _ h).1 rfl,
        hencoded (by decide) fun h => (hsize _ h).2 rfl⟩
      name := hencoded (by decide) hname }

theorem header_eq (permissions : String) (size : Nat) (path : String) :
    header permissions size path
      = (announced permissions size (baseName path).toList).bytes ++ [newline] := by
  rw [header, Client.fileHeader_eq, Client.announcement, Text.Utf8.ofString_eq_encode,
    bytes_announced]
  simp [String.toList_append]

/-- A newline in the name ends the line in the middle of it. -/
theorem header_of_newline (permissions : String) (size : Nat) {path : String}
    {front more : List Char} (hname : (baseName path).toList = front ++ '\n' :: more) :
    header permissions size path
      = (announced permissions size front).bytes
          ++ newline :: (Text.Utf8.encode more ++ [newline]) := by
  have hnewline : Text.Utf8.encode ('\n' :: more) = newline :: Text.Utf8.encode more := rfl
  rw [header_eq, hname]
  simp only [Announced.bytes, announced, Text.Utf8.encode_append, hnewline, List.append_assoc,
    List.cons_append]

/-! ### What an exchange writes -/

namespace Exchange

variable {s : Sending} {script : Remote.Script} {x : Exchange}

/-- What was written is the announcement, and perhaps contents and the mark behind it. -/
def Announces (s : Sending) (x : Exchange) : Prop :=
  s.header <+: x.written ∧ x.written <+: s.header ++ s.contents ++ [endMarker]

theorem Announces.senderTurn (h : Announces s x) (late : Bool) :
    Announces s (x.senderTurn s late) := by
  unfold Exchange.senderTurn
  split
  · exact h
  · refine ⟨s.header_prefix_progress ?_ _, (s.keeps_progress _ _).inOrder⟩
    split
    · exact decide_eq_true h.1.length_le
    · rfl

theorem Announces.receiverTurn (h : Announces s x) : Announces s (x.receiverTurn script) := by
  unfold Exchange.receiverTurn
  split <;> exact h

theorem Announces.settle (h : Announces s x) (rounds : Nat) :
    Announces s (settle s script rounds x) := by
  induction rounds generalizing x with
  | zero => exact h
  | succ rounds ih => exact ih (h.receiverTurn.senderTurn false)

/-- **An exchange starts with the whole announcement**, whatever the receiver does. -/
theorem run_written (s : Sending) (script : Remote.Script) (timeout : Nat) :
    ∃ more, (Exchange.run s script timeout).written = s.header ++ more ∧
      more <+: s.contents ++ [endMarker] := by
  have hstart : Announces s (Exchange.senderTurn s false {}) := by
    rw [senderTurn_start]
    exact ⟨List.prefix_refl _, (List.prefix_append _ _).trans (List.prefix_append _ _)⟩
  have hrun : Announces s (Exchange.run s script timeout) := by
    unfold Exchange.run
    dsimp only
    split
    · exact (hstart.settle _).senderTurn true
    · exact hstart.settle _
  obtain ⟨⟨more, hmore⟩, hwhole⟩ := hrun
  rw [← hmore, List.append_assoc, List.prefix_append_right_inj] at hwhole
  exact ⟨more, hmore.symm, hwhole⟩

end Exchange

/-! ### What the far end makes of a copy -/

/-- **How an announcement is read.**  Permissions are octal digits; sizes and paths are any.

* A file is announced under the last part of its path, or under a slash or a dot if it has none.
* A copy over open pipes writes the announcement first, and all of it, whatever the receiver does.
* A receiver that reads to the first newline and takes the line apart at its first two spaces gets
  the permissions, the size and the name up to its first newline.
* So the announcement is one line exactly if there is no newline in the name; what is left of any
  other name runs into the contents. -/
theorem announcement_read {permissions : String} (hpermissions : IsOctal permissions) (size : Nat)
    (path : String) :
    (baseName path = if path = "" then "."
      else ((pathParts path.toList).getLast?.map String.ofList).getD "/") ∧
    (∀ (client : Client) (source : Source) (session : Remote.Session)
      (connection : Remote.Connection), session.script.inputError = none →
      session.script.outputError = none →
      client.copy source path permissions size session connection
        = client.transfer { header := header permissions size path, source, size } path session
            connection ∧
      ∃ more, (Exchange.run { header := header permissions size path, source, size }
          session.script client.timeout).written = header permissions size path ++ more ∧
        more <+: source.bytes.take size ++ [endMarker]) ∧
    (∀ behind, '\n' ∉ (baseName path).toList →
      Announced.read? (header permissions size path ++ behind)
        = some (announced permissions size (baseName path).toList, behind)) ∧
    (∀ behind front more, (baseName path).toList = front ++ '\n' :: more → '\n' ∉ front →
      Announced.read? (header permissions size path ++ behind)
        = some (announced permissions size front,
            Text.Utf8.encode more ++ newline :: behind)) ∧
    ((∃ a, Announced.read? (header permissions size path) = some (a, []))
      ↔ '\n' ∉ (baseName path).toList) := by
  have hwhole : ∀ behind, '\n' ∉ (baseName path).toList →
      Announced.read? (header permissions size path ++ behind)
        = some (announced permissions size (baseName path).toList, behind) := by
    intro behind hname
    rw [header_eq, List.append_assoc, List.singleton_append]
    exact Announced.read?_append (isLine_announced hpermissions size hname) behind
  have hcut : ∀ behind front more, (baseName path).toList = front ++ '\n' :: more →
      '\n' ∉ front → Announced.read? (header permissions size path ++ behind)
        = some (announced permissions size front,
            Text.Utf8.encode more ++ newline :: behind) := by
    intro behind front more hname hfront
    rw [header_of_newline permissions size hname, List.append_assoc, List.cons_append,
      List.append_assoc, List.singleton_append]
    exact Announced.read?_append (isLine_announced hpermissions size hfront) _
  refine ⟨baseName_eq path, ?_, hwhole, hcut, ?_⟩
  · intro client source session connection hinput houtput
    refine ⟨?_, Exchange.run_written _ _ _⟩
    rw [Client.copy, Client.copyIn, hinput, houtput]
    rfl
  · constructor
    · rintro ⟨a, ha⟩ hnewline
      obtain ⟨front, more, hname, hfront⟩ := List.eq_append_cons_of_mem hnewline
      have hleft := hcut [] front more hname hfront
      rw [List.append_nil, ha] at hleft
      simp at hleft
    · intro hname
      have hread := hwhole [] hname
      rw [List.append_nil] at hread
      exact ⟨_, hread⟩

/-- A path with spaces, an empty part and a slash at its end. -/
theorem announcement_read_spaces :
    IsOctal "0644" ∧ baseName "/srv//my file/" = "my file" ∧
    Announced.read? (header "0644" 3 "/srv//my file/" ++ [97, 98, 99, 0])
      = some (announced "0644" 3 "my file".toList, [97, 98, 99, 0]) := by
  have hpermissions : IsOctal "0644" := by simp [IsOctal]
  have hname : baseName "/srv//my file/" = "my file" := by decide
  have hread := (announcement_read hpermissions 3 "/srv//my file/").2.2.1 [97, 98, 99, 0]
  rw [hname] at hread
  exact ⟨hpermissions, hname, hread (by decide)⟩

/-- A session whose receiver takes three bytes. -/
def receiver : Remote.Session :=
  { script := { steps := accepting 3 } }

/-- **A newline in a name puts the announcement on two lines**: a receiver of three bytes reads the
rest of the name in the place of the contents, and both sides report a success. -/
theorem announcement_of_two_lines :
    IsOctal "0644" ∧ baseName "/tmp/a\nb" = "a\nb" ∧
    Announced.read? (header "0644" 3 "/tmp/a\nb")
      = some (announced "0644" 3 ['a'], [98, newline]) ∧
    (({} : Client).copy { bytes := [97, 98, 99] } "/tmp/a\nb" "0644" 3 receiver {}).result
      = .ok () ∧
    (({} : Client).copy { bytes := [97, 98, 99] } "/tmp/a\nb" "0644" 3 receiver {}).session.received
      = (announced "0644" 3 ['a']).bytes ++ [newline] ++ [98, newline, 97] ++ [98] := by
  have hpermissions : IsOctal "0644" := by simp [IsOctal]
  have hok : ∀ r : Report, r.isOk = true → r = .ok () := by
    intro r hr
    cases r with
    | ok _ => rfl
    | error e => cases hr
  exact ⟨hpermissions, by decide, by decide +kernel, hok _ (by decide +kernel),
    by decide +kernel⟩

end Runbook.Copy
