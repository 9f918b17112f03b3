import Runbook.Decimal.Double
/-!
# Values

The data that documents hold and that steps read and write:

* `Number` — integers of 64 bits, signed or not, and doubles;
* `Value` — null, truth values, numbers, strings, lists and records;
* `Fields` — the entries of a record, kept in the order of their keys, with `get?`, `insert` and
  `erase`;
* `Namespace` — the record a run reads its variables from and writes them to.
-/

namespace Runbook

/-- A number: an integer in the range of signed or unsigned 64-bit words, or a double. -/
inductive Number where
  | int (value : Int)
  | double (value : Double)
deriving DecidableEq, Repr

/-- The least integer a number holds exactly. -/
def Number.minInt : Int := -(Int.pow 2 63)

/-- One more than the largest signed word. -/
def Number.signedBound : Int := Int.pow 2 63

/-- One more than the largest integer a number holds exactly. -/
def Number.unsignedBound : Int := Int.pow 2 64

/-- An integer as a number: exact in the range of 64-bit words, the nearest double outside it. -/
def Number.ofInt (i : Int) : Number :=
  if Number.minInt ≤ i ∧ i < Number.unsignedBound then .int i else .double (Double.ofInt i)

/-- The double nearest to a number. -/
def Number.toDouble : Number → Double
  | .int i => Double.ofInt i
  | .double d => d

/-- The integer of a number in the range of signed words. -/
def Number.signed? : Number → Option Int
  | .int i => if i < Number.signedBound then some i else none
  | .double _ => none

/-- The integer of a number that is not negative. -/
def Number.nat? : Number → Option Nat
  | .int i => if 0 ≤ i then some i.toNat else none
  | .double _ => none

/-- A datum of a document or a namespace. -/
inductive Value where
  | null
  | bool (value : Bool)
  | num (value : Number)
  | str (value : String)
  | arr (items : List Value)
  | obj (fields : List (String × Value))
deriving Repr

/-- The entries of a record in the order of their keys. -/
abbrev Fields := List (String × Value)

/-- The variables of a run. -/
abbrev Namespace := Fields

instance : Inhabited Value := ⟨.null⟩

namespace Value

mutual

/-- Structural equality. -/
def same : Value → Value → Bool
  | .null, .null => true
  | .bool a, .bool b => a == b
  | .num a, .num b => a == b
  | .str a, .str b => a == b
  | .arr a, .arr b => sameItems a b
  | .obj a, .obj b => sameFields a b
  | _, _ => false
termination_by structural v => v

/-- Structural equality of lists. -/
def sameItems : List Value → List Value → Bool
  | [], [] => true
  | a :: as, b :: bs => same a b && sameItems as bs
  | _, _ => false
termination_by structural v => v

/-- Structural equality of entry lists. -/
def sameFields : List (String × Value) → List (String × Value) → Bool
  | [], [] => true
  | a :: as, b :: bs => sameEntry a b && sameFields as bs
  | _, _ => false
termination_by structural v => v

/-- Structural equality of entries. -/
def sameEntry : String × Value → String × Value → Bool
  | (k, a), (l, b) => k == l && same a b
termination_by structural v => v

end

instance : BEq Value := ⟨same⟩

/-- An integer as a value. -/
def int (i : Int) : Value := .num (.ofInt i)

/-- A natural number as a value. -/
def nat (n : Nat) : Value := int n

/-- The string of a string value. -/
def str? : Value → Option String
  | .str s => some s
  | _ => none

/-- The entries of a record value. -/
def fields? : Value → Option Fields
  | .obj fields => some fields
  | _ => none

/-- The items of a list value. -/
def items? : Value → Option (List Value)
  | .arr items => some items
  | _ => none

end Value

namespace Fields

/-- The value under a key. -/
def get? (key : String) : Fields → Option Value
  | [] => none
  | (k, v) :: rest => if k = key then some v else get? key rest

/-- Whether a key is bound. -/
def has (key : String) (fields : Fields) : Bool :=
  (get? key fields).isSome

/-- Bind a key, in the order of keys; an entry under the same key is replaced. -/
def insert (key : String) (value : Value) : Fields → Fields
  | [] => [(key, value)]
  | (k, v) :: rest =>
    if k = key then (key, value) :: rest
    else if key < k then (key, value) :: (k, v) :: rest
    else (k, v) :: insert key value rest

/-- Drop a key. -/
def erase (key : String) : Fields → Fields
  | [] => []
  | (k, v) :: rest => if k = key then erase key rest else (k, v) :: erase key rest

/-- Bind the entries one after the other, so that the last one under a key stays. -/
def insertAll (entries : List (String × Value)) (fields : Fields) : Fields :=
  entries.foldl (fun acc kv => acc.insert kv.1 kv.2) fields

/-- The record with these entries; the last one under a key stays. -/
def ofList (entries : List (String × Value)) : Fields :=
  insertAll entries []

/-- The keys in order. -/
def keys (fields : Fields) : List String :=
  fields.map Prod.fst

@[simp] theorem get?_nil (key : String) : get? key [] = none := rfl

theorem get?_insert_self (key : String) (value : Value) (fields : Fields) :
    get? key (insert key value fields) = some value := by
  induction fields with
  | nil => simp [insert, get?]
  | cons entry rest ih =>
    obtain ⟨k, v⟩ := entry
    by_cases h : k = key
    · simp [insert, get?, h]
    · by_cases hlt : key < k
      · simp [insert, get?, h, hlt]
      · simp [insert, get?, h, hlt, ih]

theorem get?_insert_of_ne {key other : String} (value : Value) (fields : Fields)
    (h : other ≠ key) : get? other (insert key value fields) = get? other fields := by
  induction fields with
  | nil => simp [insert, get?, Ne.symm h]
  | cons entry rest ih =>
    obtain ⟨k, v⟩ := entry
    by_cases hk : k = key
    · subst hk
      simp [insert, get?, Ne.symm h]
    · by_cases hlt : key < k
      · simp [insert, get?, hk, hlt, Ne.symm h]
      · by_cases ho : k = other
        · subst ho
          simp [insert, get?, hk, hlt]
        · simp [insert, get?, hk, hlt, ho, ih]

@[simp] theorem get?_erase_self (key : String) (fields : Fields) :
    get? key (erase key fields) = none := by
  induction fields with
  | nil => rfl
  | cons entry rest ih =>
    obtain ⟨k, v⟩ := entry
    by_cases h : k = key
    · simp [erase, h, ih]
    · simp [erase, get?, h, ih]

theorem get?_erase_of_ne {key other : String} (fields : Fields) (h : other ≠ key) :
    get? other (erase key fields) = get? other fields := by
  induction fields with
  | nil => rfl
  | cons entry rest ih =>
    obtain ⟨k, v⟩ := entry
    by_cases hk : k = key
    · subst hk
      simp [erase, get?, Ne.symm h, ih]
    · by_cases ho : k = other
      · subst ho
        simp [erase, get?, hk]
      · simp [erase, get?, hk, ho, ih]

end Fields

end Runbook
