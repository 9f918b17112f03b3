import Mathlib.Data.String.Basic
import Runbook.Value.Basic
/-!
# Records in the order of their keys

A record keeps its entries in ascending order of the keys, with one entry under a key.  Every record
that is built from entries is kept so, and so is one in which a key is bound.

* `Fields.Ordered` — the keys ascend;
* `Fields.ordered_insert` — binding a key;
* `Fields.ordered_ofList`, `Fields.ofList_of_ordered` — records that are built from entries, and a
  record that is built from its own;
* `Fields.length_insert` — a key that is bound for the first time is one more entry;
* `Fields.get?_insertAll` — of entries that are bound one after the other the last one counts.
-/

namespace Runbook

namespace Fields

/-- The keys ascend, so that none of them occurs twice. -/
def Ordered (fields : Fields) : Prop :=
  fields.Pairwise fun a b => a.1 < b.1

/-- Binding a key brings in no other entry than its own. -/
theorem mem_insert_subset {key : String} {value : Value} {fields : Fields}
    {entry : String × Value} (h : entry ∈ insert key value fields) :
    entry = (key, value) ∨ entry ∈ fields := by
  induction fields with
  | nil => exact .inl (List.mem_singleton.1 h)
  | cons first rest ih =>
    obtain ⟨k, v⟩ := first
    rw [insert] at h
    split at h
    · exact (List.mem_cons.1 h).imp_right (List.mem_cons_of_mem _)
    · split at h
      · exact List.mem_cons.1 h
      · rcases List.mem_cons.1 h with rfl | hrest
        · exact .inr List.mem_cons_self
        · exact (ih hrest).imp_right (List.mem_cons_of_mem _)

theorem ordered_insert {fields : Fields} (h : fields.Ordered) (key : String) (value : Value) :
    (fields.insert key value).Ordered := by
  induction fields with
  | nil => exact List.pairwise_singleton _ _
  | cons first rest ih =>
    obtain ⟨k, v⟩ := first
    obtain ⟨hfirst, hrest⟩ := List.pairwise_cons.1 h
    by_cases hsame : k = key
    · subst hsame
      rw [insert, if_pos rfl]
      exact List.pairwise_cons.2 ⟨hfirst, hrest⟩
    · by_cases hbefore : key < k
      · rw [insert, if_neg hsame, if_pos hbefore]
        refine List.pairwise_cons.2 ⟨fun entry hentry => ?_, h⟩
        rcases List.mem_cons.1 hentry with rfl | hin
        · exact hbefore
        · exact lt_trans hbefore (hfirst entry hin)
      · have hafter : k < key := lt_of_le_of_ne (not_lt.1 hbefore) hsame
        rw [insert, if_neg hsame, if_neg hbefore]
        refine List.pairwise_cons.2 ⟨fun entry hentry => ?_, ih hrest⟩
        rcases mem_insert_subset hentry with rfl | hin
        · exact hafter
        · exact hfirst entry hin

theorem ordered_insertAll {fields : Fields} (h : fields.Ordered)
    (entries : List (String × Value)) : (fields.insertAll entries).Ordered := by
  induction entries generalizing fields with
  | nil => exact h
  | cons entry entries ih => exact ih (ordered_insert h entry.1 entry.2)

theorem ordered_ofList (entries : List (String × Value)) : (ofList entries).Ordered :=
  ordered_insertAll List.Pairwise.nil entries

/-- A key behind all others is bound at the end. -/
theorem insert_of_forall_lt {key : String} {fields : Fields}
    (h : ∀ entry ∈ fields, entry.1 < key) (value : Value) :
    insert key value fields = fields ++ [(key, value)] := by
  induction fields with
  | nil => rfl
  | cons first rest ih =>
    obtain ⟨k, v⟩ := first
    have hlt : k < key := h (k, v) List.mem_cons_self
    rw [insert, if_neg hlt.ne, if_neg hlt.asymm,
      ih fun entry hentry => h entry (List.mem_cons_of_mem _ hentry)]
    rfl

/-- Entries that go on in the order of the keys are bound at the end. -/
theorem insertAll_of_ordered {fields : Fields} {entries : List (String × Value)}
    (h : Ordered (fields ++ entries)) : insertAll entries fields = fields ++ entries := by
  induction entries generalizing fields with
  | nil => rw [List.append_nil]; rfl
  | cons entry entries ih =>
    obtain ⟨-, -, hbefore⟩ := List.pairwise_append.1 h
    have hinsert : insert entry.1 entry.2 fields = fields ++ [entry] :=
      insert_of_forall_lt (fun other hother => hbefore other hother entry List.mem_cons_self) _
    have hsplit : fields ++ entry :: entries = (fields ++ [entry]) ++ entries := by
      rw [List.append_assoc, List.singleton_append]
    rw [hsplit] at h ⊢
    rw [← ih h, ← hinsert]
    rfl

/-- A record that is in order is built from its own entries. -/
theorem ofList_of_ordered {fields : Fields} (h : fields.Ordered) : ofList fields = fields :=
  insertAll_of_ordered h

/-- A key that was not bound is one more entry. -/
theorem length_insert {key : String} {fields : Fields} (h : get? key fields = none)
    (value : Value) : (fields.insert key value).length = fields.length + 1 := by
  induction fields with
  | nil => rfl
  | cons first rest ih =>
    obtain ⟨k, v⟩ := first
    by_cases hsame : k = key
    · simp [get?, hsame] at h
    · rw [get?, if_neg hsame] at h
      by_cases hbefore : key < k
      · simp [insert, hsame, hbefore]
      · simp [insert, hsame, hbefore, ih h]

/-! ### Entries that are bound one after the other -/

/-- What the last entry with a key holds. -/
def lastUnder {α : Type} (key : String) (entries : List (String × α)) : Option α :=
  entries.findSomeRev? fun (k, v) => if k = key then some v else none

theorem lastUnder_cons {α : Type} (key k : String) (v : α) (entries : List (String × α)) :
    lastUnder key ((k, v) :: entries)
      = (lastUnder key entries).or (if k = key then some v else none) := by
  unfold lastUnder
  rw [List.findSomeRev?]
  split
  · next hlast => rw [hlast, Option.some_or]
  · next hnone => rw [hnone, Option.none_or]

theorem lastUnder_map {α β : Type} (f : α → β) (key : String) (entries : List (String × α)) :
    lastUnder key (entries.map fun (k, v) => (k, f v)) = (lastUnder key entries).map f := by
  induction entries with
  | nil => rfl
  | cons entry entries ih =>
    obtain ⟨k, v⟩ := entry
    rw [List.map_cons, lastUnder_cons, lastUnder_cons, ih]
    cases lastUnder key entries with
    | some last => rfl
    | none =>
      rw [Option.map_none, Option.none_or, Option.none_or]
      split <;> rfl

theorem get?_insert (key k : String) (v : Value) (fields : Fields) :
    get? key (insert k v fields) = (if k = key then some v else none).or (get? key fields) := by
  by_cases h : k = key
  · rw [if_pos h, h, get?_insert_self, Option.some_or]
  · rw [if_neg h, get?_insert_of_ne v fields (Ne.symm h), Option.none_or]

theorem get?_insertAll (key : String) (entries : List (String × Value)) (fields : Fields) :
    get? key (insertAll entries fields) = (lastUnder key entries).or (get? key fields) := by
  induction entries generalizing fields with
  | nil => rfl
  | cons entry entries ih =>
    obtain ⟨k, v⟩ := entry
    have hstep : insertAll ((k, v) :: entries) fields = insertAll entries (insert k v fields) := rfl
    rw [hstep, ih, get?_insert, lastUnder_cons, Option.or_assoc]

/-- A key of a record is not repeated behind its entry. -/
theorem lastUnder_eq_none {α : Type} {key : String} {entries : List (String × α)}
    (h : ∀ entry ∈ entries, entry.1 ≠ key) : lastUnder key entries = none := by
  induction entries with
  | nil => rfl
  | cons entry entries ih =>
    obtain ⟨k, v⟩ := entry
    have hfirst : k ≠ key := h (k, v) List.mem_cons_self
    rw [lastUnder_cons, ih fun other hother => h other (List.mem_cons_of_mem _ hother),
      if_neg hfirst]
    rfl

theorem lastUnder_of_ordered {fields : Fields} (h : fields.Ordered) (key : String) :
    lastUnder key fields = get? key fields := by
  induction fields with
  | nil => rfl
  | cons entry rest ih =>
    obtain ⟨k, v⟩ := entry
    obtain ⟨hfirst, hrest⟩ := List.pairwise_cons.1 h
    rw [lastUnder_cons, get?]
    by_cases hk : k = key
    · subst hk
      rw [if_pos rfl, if_pos rfl, lastUnder_eq_none fun entry hentry => (hfirst entry hentry).ne']
      rfl
    · rw [if_neg hk, if_neg hk, ih hrest, Option.or_none]

end Fields

end Runbook
