import Mathlib.Data.List.TakeWhile
import Mathlib.Tactic.Ring

/-!
# Numerals in C text

Byte strings as the C library reads and prints them.

* `ascii`, `cstr` — a literal's bytes, and the C string that starts a byte string;
* `strtoul` — the number read and what is left of the text;
* `numeral` — the number that a whole text spells, whatever its size;
* `strtoul_of_numeral`, `strtoul_of_hex_numeral` — numerals of 64 bits are read as their value;
* `hexField` — `printf`'s `%0*x`, a field as wide as its number;
* `strtoul_hexField` — a hexadecimal field reads as the number printed.
-/

namespace UsrLinuxEmu.CText

/-! ### Byte strings -/

abbrev ByteString := List UInt8

/-- The bytes of a literal. -/
def ascii (s : String) : ByteString := s.toList.map fun c => UInt8.ofNat c.toNat

/-- What `c_str()` shows: the bytes before the first null. -/
def cstr (s : ByteString) : ByteString := s.takeWhile fun b => b != 0

theorem cstr_eq_self {s : ByteString} (h : ∀ b ∈ s, b ≠ 0) : cstr s = s :=
  List.takeWhile_eq_self_iff.mpr fun b hb => bne_iff_ne.mpr (h b hb)

theorem ne_zero_of_mem_cstr {s : ByteString} {b : UInt8} (h : b ∈ cstr s) : b ≠ 0 :=
  bne_iff_ne.mp (List.mem_takeWhile_imp (p := fun b => b != 0) h)

/-! ### Reading -/

def isSpace (b : UInt8) : Bool := b == 0x20 || (0x09 ≤ b && b ≤ 0x0D)

/-- The digits of all bases. -/
def digitVal (b : UInt8) : Option ℕ :=
  if 0x30 ≤ b ∧ b ≤ 0x39 then some (b.toNat - 0x30)
  else if 0x61 ≤ b ∧ b ≤ 0x7A then some (b.toNat - 0x61 + 10)
  else if 0x41 ≤ b ∧ b ≤ 0x5A then some (b.toNat - 0x41 + 10)
  else none

def isDigitOf (base : ℕ) (b : UInt8) : Bool := (digitVal b).any fun d => d < base

/-- The digits at the front of the text, read onto an accumulator, and the text after them. -/
def readDigits (base : ℕ) : ℕ → ByteString → ℕ × ByteString
  | acc, [] => (acc, [])
  | acc, b :: rest =>
    match digitVal b with
    | some d => if d < base then readDigits base (acc * base + d) rest else (acc, b :: rest)
    | none => (acc, b :: rest)

/-- An optional sign: whether it is a minus, and the text after it. -/
def readSign : ByteString → Bool × ByteString
  | b :: rest =>
    if b = 0x2D then (true, rest) else if b = 0x2B then (false, rest) else (false, b :: rest)
  | [] => (false, [])

/-- The base of the numeral and its digits: `0x` before a hexadecimal digit is a prefix, and without
a base a leading zero means octal. -/
def readBase (base : ℕ) (s : ByteString) : ℕ × ByteString :=
  match s with
  | b :: x :: d :: rest =>
    if (base = 0 ∨ base = 16) ∧ b = 0x30 ∧ (x = 0x78 ∨ x = 0x58) ∧ isDigitOf 16 d = true then
      (16, d :: rest)
    else if base = 0 then (if b = 0x30 then 8 else 10, s) else (base, s)
  | b :: _ => if base = 0 then (if b = 0x30 then 8 else 10, s) else (base, s)
  | [] => (base, s)

/-- The value, clamped to 64 bits, and the text from `endptr` on: all of it without a numeral. -/
def strtoul (s : ByteString) (base : ℕ) : UInt64 × ByteString :=
  let (negative, unsigned) := readSign (s.dropWhile isSpace)
  let (base, digits) := readBase base unsigned
  match digits with
  | b :: _ =>
    if isDigitOf base b then
      let (value, rest) := readDigits base 0 digits
      let clamped := if value < 2 ^ 64 then UInt64.ofNat value else 0xFFFFFFFFFFFFFFFF
      (if negative ∧ value < 2 ^ 64 then -clamped else clamped, rest)
    else (0, s)
  | [] => (0, s)

/-! ### The number that a text spells -/

/-- The number that the whole text spells: C's signs and prefixes, and no limit. -/
def numeral (s : ByteString) : Option ℤ :=
  let (negative, unsigned) := readSign (s.dropWhile isSpace)
  let (base, digits) := readBase 0 unsigned
  if digits.isEmpty then none
  else
    let (value, rest) := readDigits base 0 digits
    if rest.isEmpty then some (if negative then -(value : ℤ) else value) else none

/-- What holds of the 256 bytes holds of each. -/
theorem forall_byte {p : UInt8 → Prop} (h : ∀ n < 256, p (UInt8.ofNat n)) (b : UInt8) : p b := by
  have hb := h b.toNat b.toNat_lt
  rwa [UInt8.ofNat_toNat] at hb

/-- Digits are neither spaces, signs nor nulls. -/
theorem digitVal_some {b : UInt8} {d : ℕ} (h : digitVal b = some d) :
    isSpace b = false ∧ b ≠ 0x2D ∧ b ≠ 0x2B ∧ b ≠ 0 := by
  have hall := forall_byte (p := fun b => (digitVal b).isSome = true →
    isSpace b = false ∧ b ≠ 0x2D ∧ b ≠ 0x2B ∧ b ≠ 0) (by decide +kernel)
  apply hall
  rw [h]
  rfl

/-- What is read to its end starts with a digit. -/
theorem readDigits_cons {base acc value : ℕ} {b : UInt8} {rest : ByteString}
    (h : readDigits base acc (b :: rest) = (value, [])) :
    ∃ d, digitVal b = some d ∧ d < base ∧ readDigits base (acc * base + d) rest = (value, []) := by
  rw [readDigits] at h
  cases hd : digitVal b with
  | none =>
    simp only [hd] at h
    cases h
  | some d =>
    simp only [hd] at h
    split_ifs at h with hlt
    · exact ⟨d, rfl, hlt, h⟩
    · cases h

theorem ne_zero_of_readDigits {base acc value : ℕ} {s : ByteString}
    (h : readDigits base acc s = (value, [])) : ∀ b ∈ s, b ≠ 0 := by
  induction s generalizing acc with
  | nil => exact fun b hb => absurd hb List.not_mem_nil
  | cons b s ih =>
    obtain ⟨d, hd, -, hrest⟩ := readDigits_cons h
    exact List.forall_mem_cons.mpr ⟨(digitVal_some hd).2.2.2, ih hrest⟩

/-- A prefix, where there is one, and the digits. -/
theorem readBase_split (base : ℕ) (s : ByteString) :
    ∃ p : ByteString, (∀ b ∈ p, b ≠ 0) ∧ s = p ++ (readBase base s).2 := by
  have hself : ∀ base' : ℕ, ∃ p : ByteString, (∀ b ∈ p, b ≠ 0) ∧ s = p ++ (base', s).2 :=
    fun base' => ⟨[], fun b hb => absurd hb List.not_mem_nil, rfl⟩
  unfold readBase
  split
  · split_ifs with hprefix
    · obtain ⟨-, rfl, hx, -⟩ := hprefix
      refine ⟨[0x30, _], ?_, rfl⟩
      rcases hx with rfl | rfl
      · simp
      · simp
    · exact hself _
    · exact hself _
    · exact hself _
  · split_ifs
    · exact hself _
    · exact hself _
    · exact hself _
  · exact hself _

theorem readSign_split (s : ByteString) :
    ∃ p : ByteString, (∀ b ∈ p, b ≠ 0) ∧ s = p ++ (readSign s).2 := by
  cases s with
  | nil => exact ⟨[], fun b hb => absurd hb List.not_mem_nil, rfl⟩
  | cons b rest =>
    rw [readSign]
    split_ifs with hminus hplus
    · exact ⟨[b], by simp [hminus], rfl⟩
    · exact ⟨[b], by simp [hplus], rfl⟩
    · exact ⟨[], fun b hb => absurd hb List.not_mem_nil, rfl⟩

/-- The parts of a numeral. -/
theorem numeral_some {s : ByteString} {i : ℤ} (h : numeral s = some i) :
    ∃ negative unsigned base b rest value, readSign (s.dropWhile isSpace) = (negative, unsigned) ∧
      readBase 0 unsigned = (base, b :: rest) ∧ readDigits base 0 (b :: rest) = (value, []) ∧
        i = if negative then -(value : ℤ) else value := by
  unfold numeral at h
  cases hsign : readSign (s.dropWhile isSpace) with
  | mk negative unsigned =>
    cases hbase : readBase 0 unsigned with
    | mk base digits =>
      cases digits with
      | nil =>
        simp only [hsign, hbase] at h
        cases h
      | cons b rest =>
        cases hread : readDigits base 0 (b :: rest) with
        | mk value left =>
          simp only [hsign, hbase, hread, List.isEmpty_cons, Bool.false_eq_true, if_false] at h
          split_ifs at h with hempty hnegative
          · cases h
            rw [List.isEmpty_iff.mp hempty] at hread
            exact ⟨negative, unsigned, base, b, rest, value, rfl, hbase, hread,
              (if_pos hnegative).symm⟩
          · cases h
            rw [List.isEmpty_iff.mp hempty] at hread
            exact ⟨negative, unsigned, base, b, rest, value, rfl, hbase, hread,
              (if_neg hnegative).symm⟩

/-- A numeral holds no null. -/
theorem cstr_of_numeral {s : ByteString} {i : ℤ} (h : numeral s = some i) : cstr s = s := by
  obtain ⟨negative, unsigned, base, b, rest, value, hsign, hbase, hread, -⟩ := numeral_some h
  apply cstr_eq_self
  intro c hc
  rw [← List.takeWhile_append_dropWhile (p := isSpace) (l := s)] at hc
  rcases List.mem_append.mp hc with hc | hc
  · have hspace := List.mem_takeWhile_imp hc
    rintro rfl
    exact absurd hspace (by decide)
  obtain ⟨sign, hsignByte, hsignSplit⟩ := readSign_split (s.dropWhile isSpace)
  rw [hsignSplit, hsign] at hc
  rcases List.mem_append.mp hc with hc | hc
  · exact hsignByte c hc
  obtain ⟨pre, hpre, hbaseSplit⟩ := readBase_split 0 unsigned
  rw [hbaseSplit, hbase] at hc
  rcases List.mem_append.mp hc with hc | hc
  · exact hpre c hc
  · exact ne_zero_of_readDigits hread c hc

/-- **Numerals without a limit.**  A numeral whose value fits in 64 bits is read as its value. -/
theorem strtoul_of_numeral {s : ByteString} {n : ℕ} (h : numeral s = some (n : ℤ))
    (hword : n < 2 ^ 64) : strtoul s 0 = (UInt64.ofNat n, []) := by
  obtain ⟨negative, unsigned, base, b, rest, value, hsign, hbase, hread, hvalue⟩ := numeral_some h
  obtain ⟨d, hd, hlt, -⟩ := readDigits_cons hread
  have hdigit : isDigitOf base b = true := by
    rw [isDigitOf, hd, Option.any_some, decide_eq_true hlt]
  unfold strtoul
  simp only [hsign, hbase, hdigit, if_true, hread]
  cases negative with
  | false =>
    obtain rfl : n = value := Int.ofNat_inj.mp hvalue
    simp only [Bool.false_eq_true, false_and, if_false, if_pos hword]
  | true =>
    -- Only zero is spelled with a minus and not negative.
    have hneg : (n : ℤ) = -(value : ℤ) := hvalue
    obtain ⟨rfl, rfl⟩ : n = 0 ∧ value = 0 := by omega
    rfl

/-- The letter of the prefix is a digit of larger bases only. -/
theorem base_of_letter {base acc value : ℕ} {b x : UInt8} {rest : ByteString}
    (hx : x = 0x78 ∨ x = 0x58) (h : readDigits base acc (b :: x :: rest) = (value, [])) :
    33 < base := by
  obtain ⟨_, -, -, hrest⟩ := readDigits_cons h
  obtain ⟨d, hd, hlt, -⟩ := readDigits_cons hrest
  rcases hx with rfl | rfl
  · cases hd
    exact hlt
  · cases hd
    exact hlt

/-- Digits that are read to their end have no prefix. -/
theorem readBase_of_readDigits {acc value : ℕ} {s : ByteString}
    (h : readDigits 16 acc s = (value, [])) : readBase 16 s = (16, s) := by
  unfold readBase
  split
  · rw [if_neg, if_neg (by decide)]
    rintro ⟨-, -, hx, -⟩
    exact absurd (base_of_letter hx h) (by decide)
  · exact if_neg (by decide)
  · rfl

/-- A hexadecimal numeral is read without its prefix too. -/
theorem strtoul_of_hex_numeral {x c : UInt8} {digits : ByteString} {n : ℕ}
    (hx : x = 0x78 ∨ x = 0x58) (h : numeral (0x30 :: x :: c :: digits) = some (n : ℤ))
    (hword : n < 2 ^ 64) : strtoul (c :: digits) 16 = (UInt64.ofNat n, []) := by
  obtain ⟨negative, unsigned, base, b, rest, value, hsign, hbase, hread, hvalue⟩ := numeral_some h
  cases hsign
  obtain rfl : n = value := Int.ofNat_inj.mp hvalue
  have hprefixed : isDigitOf 16 c = true := by
    by_contra hno
    rw [readBase, if_neg fun hall => hno hall.2.2.2, if_pos rfl, if_pos rfl] at hbase
    cases hbase
    exact absurd (base_of_letter hx hread) (by decide)
  rw [readBase, if_pos ⟨.inl rfl, rfl, hx, hprefixed⟩] at hbase
  cases hbase
  obtain ⟨d, hd, hlt, -⟩ := readDigits_cons hread
  obtain ⟨hspace, hminus, hplus, -⟩ := digitVal_some hd
  have hskip : (c :: digits).dropWhile isSpace = c :: digits :=
    List.dropWhile_cons_of_neg (by rw [hspace]; exact Bool.false_ne_true)
  have hplain : readSign (c :: digits) = (false, c :: digits) := by
    rw [readSign, if_neg hminus, if_neg hplus]
  unfold strtoul
  simp only [hskip, hplain, readBase_of_readDigits hread, hprefixed, if_true, hread,
    Bool.false_eq_true, false_and, if_false, if_pos hword]

/-! ### Printing -/

/-- A hexadecimal digit, with the letters from `alpha` on. -/
def hexDigit (alpha : UInt8) (d : ℕ) : UInt8 :=
  if d < 10 then UInt8.ofNat (0x30 + d) else UInt8.ofNat (alpha.toNat + (d - 10))

/-- The low `width` hexadecimal digits, the highest first. -/
def hexField (alpha : UInt8) : ℕ → ℕ → ByteString
  | 0, _ => []
  | width + 1, n => hexDigit alpha (n / 16 ^ width % 16) :: hexField alpha width n

/-- `%x` and `%X`. -/
def lowerAlpha : UInt8 := 0x61
def upperAlpha : UInt8 := 0x41

theorem length_hexField (alpha : UInt8) (width n : ℕ) :
    (hexField alpha width n).length = width := by
  induction width with
  | zero => rfl
  | succ width ih => rw [hexField, List.length_cons, ih]

/-! ### What is printed reads back -/

/-- One of the two alphabets. -/
def IsAlpha (alpha : UInt8) : Prop := alpha = lowerAlpha ∨ alpha = upperAlpha

theorem digitVal_hexDigit {alpha : UInt8} (h : IsAlpha alpha) {d : ℕ} (hd : d < 16) :
    digitVal (hexDigit alpha d) = some d := by
  rcases h with rfl | rfl
  · revert d
    decide
  · revert d
    decide

theorem hexDigit_ne {alpha : UInt8} (h : IsAlpha alpha) {d : ℕ} (hd : d < 16) :
    isSpace (hexDigit alpha d) = false ∧ hexDigit alpha d ≠ 0x2D ∧ hexDigit alpha d ≠ 0x2B ∧
      hexDigit alpha d ≠ 0x78 ∧ hexDigit alpha d ≠ 0x58 ∧ hexDigit alpha d < 0x80 ∧
      hexDigit alpha d ≠ 0 := by
  rcases h with rfl | rfl
  · revert d
    decide
  · revert d
    decide

theorem hexField_ascii {alpha : UInt8} (h : IsAlpha alpha) {width n : ℕ} {b : UInt8}
    (hb : b ∈ hexField alpha width n) : b < 0x80 ∧ b ≠ 0 := by
  induction width with
  | zero => cases hb
  | succ width ih =>
    rcases List.mem_cons.mp hb with rfl | hb
    · obtain ⟨-, -, -, -, -, hascii⟩ := hexDigit_ne h (Nat.mod_lt (n / 16 ^ width) (by decide))
      exact hascii
    · exact ih hb

theorem readDigits_hexField {alpha : UInt8} (h : IsAlpha alpha) (width n acc : ℕ) :
    readDigits 16 acc (hexField alpha width n) = (acc * 16 ^ width + n % 16 ^ width, []) := by
  induction width generalizing acc with
  | zero => simp [hexField, readDigits, Nat.mod_one]
  | succ width ih =>
    have hd : n / 16 ^ width % 16 < 16 := Nat.mod_lt _ (by decide)
    rw [hexField, readDigits, digitVal_hexDigit h hd]
    simp only [if_pos hd, ih]
    have hsplit : n % 16 ^ (width + 1) = n % 16 ^ width + 16 ^ width * (n / 16 ^ width % 16) := by
      rw [pow_succ, Nat.mod_mul]
    rw [hsplit, pow_succ]
    refine Prod.ext ?_ rfl
    ring

/-- A field of hexadecimal digits has no prefix. -/
theorem readBase_hexField {alpha : UInt8} (h : IsAlpha alpha) (width n : ℕ) :
    readBase 16 (hexField alpha width n) = (16, hexField alpha width n) := by
  match width with
  | 0 => rfl
  | 1 => simp [hexField, readBase]
  | 2 => simp [hexField, readBase]
  | width + 3 =>
    have hd : n / 16 ^ (width + 1) % 16 < 16 := Nat.mod_lt _ (by decide)
    obtain ⟨-, -, -, hlower, hupper, -⟩ := hexDigit_ne h hd
    simp only [hexField, readBase, hlower, hupper, or_self, false_and, and_false, if_false]
    rfl

/-- **Hexadecimal numerals.**  A field printed for a number that fits reads as the number. -/
theorem strtoul_hexField {alpha : UInt8} (h : IsAlpha alpha) {width n : ℕ} (hpos : 0 < width)
    (hfits : n < 16 ^ width) (hword : n < 2 ^ 64) :
    strtoul (hexField alpha width n) 16 = (UInt64.ofNat n, []) := by
  obtain ⟨width, rfl⟩ := Nat.exists_eq_add_one_of_ne_zero hpos.ne'
  have hd : n / 16 ^ width % 16 < 16 := Nat.mod_lt _ (by decide)
  obtain ⟨hspace, hminus, hplus, -⟩ := hexDigit_ne h hd
  have hskip : (hexField alpha (width + 1) n).dropWhile isSpace = hexField alpha (width + 1) n := by
    rw [hexField, List.dropWhile_cons_of_neg (by rw [hspace]; exact Bool.false_ne_true)]
  have hsign : readSign (hexField alpha (width + 1) n) = (false, hexField alpha (width + 1) n) := by
    rw [hexField, readSign, if_neg hminus, if_neg hplus]
  have hdigit : isDigitOf 16 (hexDigit alpha (n / 16 ^ width % 16)) = true := by
    rw [isDigitOf, digitVal_hexDigit h hd, Option.any_some, decide_eq_true hd]
  have hread := readDigits_hexField h (width + 1) n 0
  rw [Nat.zero_mul, Nat.zero_add, Nat.mod_eq_of_lt hfits] at hread
  unfold strtoul
  simp only [hskip, hsign, readBase_hexField h, hread]
  rw [hexField]
  simp only [hdigit, if_true, hword, Bool.false_eq_true, false_and, if_false]

end UsrLinuxEmu.CText
