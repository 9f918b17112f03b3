import Mathlib.Data.List.Basic
import Runbook.Proofs.Text.Encoding
/-!
# Characters and their bytes

The bytes of a text are well-formed, and they are decoded as the characters that they were made of.

* `Utf8.scan_one` to `Utf8.scan_four` — sequences of each length, whatever stands behind them;
* `Utf8.scan_encodeChar` — the bytes of one character;
* `Utf8.scan_encode`, `Utf8.decode?_ofString` — those of a whole text;
* `Utf8.toStringLossy_ofString` — the text that they show.
-/

namespace Runbook.Text.Utf8

/-! ### Bytes -/

/-- A number that a byte holds. -/
theorem toNat_byte {n : Nat} (h : n < 256) : (UInt8.ofNat n).toNat = n :=
  UInt8.toNat_ofNat_of_lt' h

/-- A number between those of two bytes. -/
theorem within_ofNat {low high : UInt8} {n : Nat} (hlow : low.toNat ≤ n) (hhigh : n ≤ high.toNat) :
    (low ≤ UInt8.ofNat n && UInt8.ofNat n ≤ high) = true := by
  rw [Bool.and_eq_true, decide_eq_true_iff, decide_eq_true_iff, UInt8.le_iff_toNat_le,
    UInt8.le_iff_toNat_le, toNat_byte (Nat.lt_of_le_of_lt hhigh high.toNat_lt)]
  exact ⟨hlow, hhigh⟩

theorem isTail_ofNat (n : Nat) : isTail (UInt8.ofNat (n % 64 + 128)) = true :=
  within_ofNat (Nat.le_add_left 128 _) (show n % 64 + 128 ≤ 191 by omega)

/-- Behind the first byte of a sequence of three stands no overlong form and no surrogate. -/
theorem isSecondOfThree_ofNat {v : Nat} (hlong : 0x800 ≤ v) (hshort : v < 0x10000)
    (hvalid : v < 0xD800 ∨ 0xDFFF < v) :
    isSecondOfThree (UInt8.ofNat (v / 4096 % 16 + 224)) (UInt8.ofNat (v / 64 % 64 + 128))
      = true := by
  have hfirst : (UInt8.ofNat (v / 4096 % 16 + 224)).toNat = v / 4096 % 16 + 224 :=
    toNat_byte (by omega)
  rw [isSecondOfThree]
  split
  · next h =>
    rw [beq_iff_eq.1 h] at hfirst
    change 224 = _ at hfirst
    exact within_ofNat (show 160 ≤ _ by omega) (show _ ≤ 191 by omega)
  · split
    · next h =>
      rw [beq_iff_eq.1 h] at hfirst
      change 237 = _ at hfirst
      exact within_ofNat (show 128 ≤ _ by omega) (show _ ≤ 159 by omega)
    · exact isTail_ofNat (v / 64)

/-- Behind the first byte of a sequence of four stands no overlong form and nothing beyond the code
points. -/
theorem isSecondOfFour_ofNat {v : Nat} (hlong : 0x10000 ≤ v) (hvalid : v < 0x110000) :
    isSecondOfFour (UInt8.ofNat (v / 262144 % 8 + 240)) (UInt8.ofNat (v / 4096 % 64 + 128))
      = true := by
  have hfirst : (UInt8.ofNat (v / 262144 % 8 + 240)).toNat = v / 262144 % 8 + 240 :=
    toNat_byte (by omega)
  rw [isSecondOfFour]
  split
  · next h =>
    rw [beq_iff_eq.1 h] at hfirst
    change 240 = _ at hfirst
    exact within_ofNat (show 144 ≤ _ by omega) (show _ ≤ 191 by omega)
  · split
    · next h =>
      rw [beq_iff_eq.1 h] at hfirst
      change 244 = _ at hfirst
      exact within_ofNat (show 128 ≤ _ by omega) (show _ ≤ 143 by omega)
    · exact isTail_ofNat (v / 4096)

/-! ### Sequences -/

theorem scan_one {a : UInt8} (ha : a < 0x80) (rest : List UInt8) :
    scan (a :: rest) = some (Char.ofNat a.toNat) :: scan rest := by
  rw [scan.eq_def]
  exact if_pos ha

theorem scan_two {a b : UInt8} (ha : (0xC2 ≤ a && a ≤ 0xDF) = true) (hb : isTail b = true)
    (rest : List UInt8) : scan (a :: b :: rest) = some (two a b) :: scan rest := by
  have hone : ¬a < 0x80 := by grind
  rw [scan.eq_def]
  dsimp only
  rw [if_neg hone, if_pos ha]
  exact if_pos hb

theorem scan_three {a b c : UInt8} (ha : (0xE0 ≤ a && a ≤ 0xEF) = true)
    (hb : isSecondOfThree a b = true) (hc : isTail c = true) (rest : List UInt8) :
    scan (a :: b :: c :: rest) = some (three a b c) :: scan rest := by
  have hone : ¬a < 0x80 := by grind
  have htwo : ¬(0xC2 ≤ a && a ≤ 0xDF) = true := by grind
  rw [scan.eq_def]
  dsimp only
  rw [if_neg hone, if_neg htwo, if_pos ha, if_pos hb]
  exact if_pos hc

theorem scan_four {a b c d : UInt8} (ha : (0xF0 ≤ a && a ≤ 0xF4) = true)
    (hb : isSecondOfFour a b = true) (hc : isTail c = true) (hd : isTail d = true)
    (rest : List UInt8) :
    scan (a :: b :: c :: d :: rest) = some (four a b c d) :: scan rest := by
  have hone : ¬a < 0x80 := by grind
  have htwo : ¬(0xC2 ≤ a && a ≤ 0xDF) = true := by grind
  have hthree : ¬(0xE0 ≤ a && a ≤ 0xEF) = true := by grind
  rw [scan.eq_def]
  dsimp only
  rw [if_neg hone, if_neg htwo, if_neg hthree, if_pos ha, if_pos hb, if_pos hc]
  exact if_pos hd

/-! ### Characters and texts -/

theorem two_ofNat {v : Nat} (h : v < 0x800) :
    two (UInt8.ofNat (v / 64 % 32 + 192)) (UInt8.ofNat (v % 64 + 128)) = Char.ofNat v := by
  rw [two, toNat_byte (by omega), toNat_byte (by omega)]
  exact congrArg Char.ofNat (by omega)

theorem three_ofNat {v : Nat} (h : v < 0x10000) :
    three (UInt8.ofNat (v / 4096 % 16 + 224)) (UInt8.ofNat (v / 64 % 64 + 128))
      (UInt8.ofNat (v % 64 + 128)) = Char.ofNat v := by
  rw [three, toNat_byte (by omega), toNat_byte (by omega), toNat_byte (by omega)]
  exact congrArg Char.ofNat (by omega)

theorem four_ofNat {v : Nat} (h : v < 0x110000) :
    four (UInt8.ofNat (v / 262144 % 8 + 240)) (UInt8.ofNat (v / 4096 % 64 + 128))
      (UInt8.ofNat (v / 64 % 64 + 128)) (UInt8.ofNat (v % 64 + 128)) = Char.ofNat v := by
  rw [four, toNat_byte (by omega), toNat_byte (by omega), toNat_byte (by omega),
    toNat_byte (by omega)]
  exact congrArg Char.ofNat (by omega)

/-- **The bytes of a character.** -/
theorem scan_encodeChar (c : Char) (rest : List UInt8) :
    scan (String.utf8EncodeChar c ++ rest) = some c :: scan rest := by
  have hvalid : c.val.toNat < 0xD800 ∨ 0xDFFF < c.val.toNat ∧ c.val.toNat < 0x110000 := c.valid
  have hchar : Char.ofNat c.val.toNat = c := Char.ofNat_toNat c
  unfold String.utf8EncodeChar
  dsimp only
  generalize c.val.toNat = v at hvalid hchar
  subst hchar
  split
  · have hbyte := toNat_byte (show v < 256 by omega)
    have hone : UInt8.ofNat v < 0x80 := by
      rw [UInt8.lt_iff_toNat_lt, hbyte]
      show v < 128
      omega
    rw [List.singleton_append, scan_one hone, hbyte]
  · split
    · have hfirst : (0xC2 ≤ UInt8.ofNat (v / 64 % 32 + 192)
          && UInt8.ofNat (v / 64 % 32 + 192) ≤ 0xDF) = true :=
        within_ofNat (show 194 ≤ _ by omega) (show _ ≤ 223 by omega)
      rw [List.cons_append, List.singleton_append, scan_two hfirst (isTail_ofNat v),
        two_ofNat (by omega)]
    · split
      · have hfirst : (0xE0 ≤ UInt8.ofNat (v / 4096 % 16 + 224)
            && UInt8.ofNat (v / 4096 % 16 + 224) ≤ 0xEF) = true :=
          within_ofNat (show 224 ≤ _ by omega) (show _ ≤ 239 by omega)
        have hsecond := isSecondOfThree_ofNat (v := v) (by omega) (by omega)
          (hvalid.imp_right And.left)
        rw [List.cons_append, List.cons_append, List.singleton_append,
          scan_three hfirst hsecond (isTail_ofNat v), three_ofNat (by omega)]
      · have hfirst : (0xF0 ≤ UInt8.ofNat (v / 262144 % 8 + 240)
            && UInt8.ofNat (v / 262144 % 8 + 240) ≤ 0xF4) = true :=
          within_ofNat (show 240 ≤ _ by omega) (show _ ≤ 244 by omega)
        have hsecond := isSecondOfFour_ofNat (v := v) (by omega) (by omega)
        rw [List.cons_append, List.cons_append, List.cons_append, List.singleton_append,
          scan_four hfirst hsecond (isTail_ofNat (v / 64)) (isTail_ofNat v), four_ofNat (by omega)]

theorem scan_encode (cs : List Char) : scan (encode cs) = cs.map some := by
  induction cs with
  | nil => rfl
  | cons c cs ih =>
    rw [encode, List.flatMap_cons, scan_encodeChar]
    exact congrArg (some c :: ·) ih

theorem allSome_map_some (cs : List Char) : allSome (cs.map some) = some cs := by
  induction cs with
  | nil => rfl
  | cons c cs ih => rw [List.map_cons, allSome, ih, Option.map_some]

theorem decode?_encode (cs : List Char) : decode? (encode cs) = some cs := by
  rw [decode?, scan_encode, allSome_map_some]

/-- **The bytes of a text are those of its characters and no other ones.** -/
theorem decode?_ofString (s : String) : decode? (ofString s) = some s.toList := by
  rw [ofString_eq_encode, decode?_encode]

/-- Nothing of a text is lost when its bytes are decoded. -/
theorem toStringLossy_ofString (s : String) : toStringLossy (ofString s) = s := by
  rw [toStringLossy, decodeLossy, ofString_eq_encode, scan_encode, List.map_map]
  have hsome : ((fun found : Option Char => found.getD '\ufffd') ∘ some) = id := rfl
  rw [hsome, List.map_id, String.ofList_toList]

end Runbook.Text.Utf8
