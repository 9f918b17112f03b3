import Mathlib.Data.List.Basic
import Runbook.Text.Blank
import Runbook.Text.Utf8
/-!
# The bytes of texts

* `Utf8.ofString_eq_encode`, `Utf8.ofString_append` — the bytes of a string are those of its
  characters, one behind the other;
* `Utf8.mem_encode_ascii` — an ASCII byte stands for the character with its number, and never occurs
  in the bytes of another one;
* `head?_toDigits_ne`, `newline_not_mem_natText` — the digits of a number start with no zero, except
  for zero, and are no newlines;
* `toDigits_ofDigitChars` — digits without a zero in front are those of the number they stand for;
* `natText_inj`, `padNat_inj` — different numbers have different digits, padded or not.
-/

namespace Runbook.Text

namespace Utf8

/-! ### Strings and their characters -/

/-- Reading on from a place: what was read comes first. -/
theorem toList_loop (bytes : ByteArray) (i : Nat) (front : List UInt8) :
    ByteArray.toList.loop bytes i front = front.reverse ++ bytes.data.toList.drop i := by
  by_cases h : i < bytes.size
  · have hlt : i < bytes.data.toList.length := h
    rw [ByteArray.toList.loop, if_pos h, toList_loop bytes (i + 1), List.drop_eq_getElem_cons hlt,
      List.reverse_cons, List.append_assoc]
    have hbyte : bytes.get! i = bytes.data.toList[i] := by
      show bytes.data[i]! = _
      rw [getElem!_pos bytes.data i h]
      rfl
    rw [hbyte]
    rfl
  · have hle : bytes.data.toList.length ≤ i := Nat.le_of_not_lt h
    rw [ByteArray.toList.loop, if_neg h, List.drop_eq_nil_of_le hle, List.append_nil]
termination_by bytes.size - i

theorem ofString_eq_encode (s : String) : ofString s = encode s.toList := by
  have hbytes : s.toUTF8 = (encode s.toList).toByteArray := String.utf8Encode_toList.symm
  rw [ofString, ByteArray.toList, toList_loop, hbytes, List.toList_data_toByteArray]
  rfl

theorem encode_append (cs more : List Char) : encode (cs ++ more) = encode cs ++ encode more :=
  List.flatMap_append

@[simp] theorem ofString_append (s t : String) : ofString (s ++ t) = ofString s ++ ofString t := by
  simp only [ofString_eq_encode, String.toList_append, encode_append]

/-! ### ASCII bytes -/

/-- A byte below 128 is the whole of one character. -/
theorem eq_of_mem_utf8EncodeChar {c : Char} {b : UInt8} (hb : b.toNat < 128)
    (h : b ∈ String.utf8EncodeChar c) : c.toNat = b.toNat := by
  have hlead : ∀ n : Nat, 128 ≤ n → n < 256 → b ≠ UInt8.ofNat n := by
    intro n hlow hhigh heq
    rw [heq, UInt8.toNat_ofNat_of_lt' hhigh] at hb
    omega
  unfold String.utf8EncodeChar at h
  dsimp only at h
  split at h
  · have hsmall : c.val.toNat < UInt8.size := by
      show c.val.toNat < 256
      omega
    rw [List.mem_singleton.1 h, UInt8.toNat_ofNat_of_lt' hsmall]
    rfl
  · -- every byte of a longer sequence is at least 128
    exfalso
    split at h
    · simp only [List.mem_cons, List.not_mem_nil, or_false] at h
      rcases h with h | h <;> exact hlead _ (by omega) (by omega) h
    · split at h
      · simp only [List.mem_cons, List.not_mem_nil, or_false] at h
        rcases h with h | h | h <;> exact hlead _ (by omega) (by omega) h
      · simp only [List.mem_cons, List.not_mem_nil, or_false] at h
        rcases h with h | h | h | h <;> exact hlead _ (by omega) (by omega) h

theorem mem_encode_ascii {cs : List Char} {b : UInt8} (hb : b.toNat < 128) (h : b ∈ encode cs) :
    Char.ofNat b.toNat ∈ cs := by
  obtain ⟨c, hc, hmem⟩ := List.mem_flatMap.1 h
  rw [← eq_of_mem_utf8EncodeChar hb hmem, Char.ofNat_toNat]
  exact hc

/-- Text without a newline has no newline among its bytes. -/
theorem newline_not_mem_ofString {s : String} (h : '\n' ∉ s.toList) :
    (10 : UInt8) ∉ ofString s := by
  intro hmem
  rw [ofString_eq_encode] at hmem
  exact h (mem_encode_ascii (by decide) hmem)

end Utf8

/-! ### Numbers -/

theorem toList_natText (n : Nat) : (natText n).toList = Nat.toDigits 10 n :=
  String.toList_ofList

/-- The digits of a number do not start with a zero, unless it is zero. -/
theorem head?_toDigits_ne {n : Nat} (h : n ≠ 0) : (Nat.toDigits 10 n).head? ≠ some '0' := by
  induction n using Nat.strongRecOn with
  | _ n ih =>
    by_cases hsmall : n < 10
    · rw [Nat.toDigits_of_lt_base hsmall, List.head?_cons]
      intro hzero
      exact h (Nat.digitChar_eq_zero.1 (Option.some.inj hzero))
    · have hless : n / 10 < n := Nat.div_lt_self (Nat.pos_of_ne_zero h) (by decide)
      have hrest := ih (n / 10) hless (by omega)
      rw [Nat.toDigits_of_base_le (by decide) (by omega),
        List.head?_append_of_ne_nil _ Nat.toDigits_ne_nil]
      exact hrest

/-- A digit is the only one of the number it stands for. -/
theorem toDigits_isDigit {c : Char} (h : c.isDigit = true) :
    c.toNat - '0'.toNat < 10 ∧ Nat.toDigits 10 (c.toNat - '0'.toNat) = [c] := by
  have hrange := Char.isDigit_iff_toNat.1 h
  change 48 ≤ c.toNat ∧ c.toNat ≤ 57 at hrange
  have hvalue : c.toNat - '0'.toNat < 10 := by
    show c.toNat - 48 < 10
    omega
  refine ⟨hvalue, ?_⟩
  rw [Nat.toDigits_of_lt_base hvalue, List.cons.injEq]
  refine ⟨Char.toNat_inj.1 ?_, rfl⟩
  rw [Nat.toNat_digitChar_of_lt_ten hvalue]
  show 48 + (c.toNat - 48) = c.toNat
  omega

/-- Digits behind those of a number are part of the digits of a larger one. -/
theorem toDigits_append_digits {digits : List Char} (hdigits : ∀ c ∈ digits, c.isDigit = true)
    {n : Nat} (hn : 0 < n) :
    Nat.toDigits 10 n ++ digits = Nat.toDigits 10 (Nat.ofDigitChars 10 digits n) := by
  induction digits generalizing n with
  | nil => exact List.append_nil _
  | cons c digits ih =>
    obtain ⟨hvalue, hdigit⟩ := toDigits_isDigit (hdigits c List.mem_cons_self)
    have hmore := ih (fun d hd => hdigits d (List.mem_cons_of_mem _ hd))
      (show 0 < 10 * n + (c.toNat - '0'.toNat) by omega)
    calc
      Nat.toDigits 10 n ++ c :: digits
          = Nat.toDigits 10 n ++ Nat.toDigits 10 (c.toNat - '0'.toNat) ++ digits := by
        rw [hdigit, List.append_assoc, List.singleton_append]
      _ = Nat.toDigits 10 (10 * n + (c.toNat - '0'.toNat)) ++ digits := by
        rw [Nat.toDigits_append_toDigits (by decide) hn hvalue]
      _ = Nat.toDigits 10 (Nat.ofDigitChars 10 (c :: digits) n) := by
        rw [hmore, Nat.ofDigitChars_cons]

/-- Digits that do not start with a zero are those of the number they stand for. -/
theorem toDigits_ofDigitChars {c : Char} {digits : List Char}
    (hdigits : ∀ d ∈ c :: digits, d.isDigit = true) (hfirst : c ≠ '0') :
    Nat.toDigits 10 (Nat.ofDigitChars 10 (c :: digits) 0) = c :: digits := by
  have hc := hdigits c List.mem_cons_self
  have hpos : 0 < c.toNat - '0'.toNat := by
    have hrange := Char.isDigit_iff_toNat.1 hc
    change 48 ≤ c.toNat ∧ c.toNat ≤ 57 at hrange
    have hzero : c.toNat ≠ 48 := fun he => hfirst (Char.toNat_inj.1 he)
    show 0 < c.toNat - 48
    omega
  have happend := toDigits_append_digits
    (fun d hd => hdigits d (List.mem_cons_of_mem _ hd)) hpos
  rw [(toDigits_isDigit hc).2, List.singleton_append] at happend
  rw [Nat.ofDigitChars_cons, Nat.mul_zero, Nat.zero_add, ← happend]

theorem newline_not_mem_natText (n : Nat) : '\n' ∉ (natText n).toList := by
  intro h
  rw [toList_natText] at h
  have hdigit := Nat.isDigit_of_mem_toDigits (by decide) (by decide) h
  exact absurd hdigit (by decide)

/-- The digits of a number, read as a number. -/
theorem ofDigitChars_natText (n : Nat) : Nat.ofDigitChars 10 (natText n).toList 0 = n := by
  rw [toList_natText]
  exact Nat.ofDigitChars_toDigits (by decide) (by decide)

theorem natText_inj {m n : Nat} (h : natText m = natText n) : m = n := by
  rw [← ofDigitChars_natText m, h, ofDigitChars_natText]

/-- Zeros in front of the digits of a number do not change it. -/
theorem ofDigitChars_padNat (width n : Nat) :
    Nat.ofDigitChars 10 (padNat width n).toList 0 = n := by
  rw [padNat, String.toList_append, String.toList_ofList, Nat.ofDigitChars_append,
    Nat.ofDigitChars_replicate_zero, Nat.mul_zero, ofDigitChars_natText]

theorem padNat_inj {width m n : Nat} (h : padNat width m = padNat width n) : m = n := by
  rw [← ofDigitChars_padNat width m, h, ofDigitChars_padNat]

end Runbook.Text
