import Factbase.Decimal.Style
import Factbase.Proofs.Binary64

/-!
# Factbase.Proofs.Decimal

Numerals and the doubles they are read as. Zeros at the end of the digits may be moved into the
power of ten, and the shortest numeral of a finite number reads back as that number.
-/

namespace Factbase.Decimal

/-! ### Digits -/

theorem ofDigits_append (cs ds : List Char) :
    ofDigits (cs ++ ds) = ofDigits cs * 10 ^ ds.length + ofDigits ds := by
  show Nat.ofDigitChars 10 (cs ++ ds) 0 = Nat.ofDigitChars 10 cs 0 * _ + Nat.ofDigitChars 10 ds 0
  rw [Nat.ofDigitChars_append, Nat.ofDigitChars_eq_ofDigitChars_zero, Nat.mul_comm]

theorem ofDigits_replicate_zero (n : Nat) : ofDigits (List.replicate n '0') = 0 :=
  Nat.ofDigitChars_replicate_zero.trans (Nat.mul_zero _)

theorem ofDigits_digitsOf (n : Nat) : ofDigits (digitsOf n) = n :=
  Nat.ofDigitChars_ten_toDigits

theorem digitsOf_ne_nil (n : Nat) : digitsOf n ≠ [] := Nat.toDigits_ne_nil

theorem isDigit_of_mem_digitsOf {n : Nat} {c : Char} (member : c ∈ digitsOf n) :
    c.isDigit = true :=
  Nat.isDigit_of_mem_toDigits (by decide) (by decide) member

theorem digitCount_le_iff {n k : Nat} (pos : 0 < k) : digitCount n ≤ k ↔ n < 10 ^ k :=
  Nat.length_toDigits_le_iff (by decide) pos

theorem digitCount_pos (n : Nat) : 0 < digitCount n := Nat.length_toDigits_pos

theorem lt_pow_digitCount (n : Nat) : n < 10 ^ digitCount n :=
  (digitCount_le_iff (digitCount_pos n)).mp (Nat.le_refl _)

theorem digitCount_mul_pow {m : Nat} (nonzero : m ≠ 0) (j : Nat) :
    digitCount (m * 10 ^ j) = digitCount m + j := by
  have pow_pos : 0 < 10 ^ j := Nat.pow_pos (by decide)
  apply Nat.le_antisymm
  · rw [digitCount_le_iff (Nat.add_pos_left (digitCount_pos m) j), Nat.pow_add]
    exact Nat.mul_lt_mul_of_pos_right (lt_pow_digitCount m) pow_pos
  · -- fewer digits would leave room for none of `m`, or for fewer than it has
    by_contra fewer
    have bound := lt_pow_digitCount (m * 10 ^ j)
    by_cases short : digitCount (m * 10 ^ j) ≤ j
    · have below : 10 ^ digitCount (m * 10 ^ j) ≤ 1 * 10 ^ j := by
        rw [Nat.one_mul]
        exact Nat.pow_le_pow_right (by decide) short
      have := Nat.lt_of_mul_lt_mul_right (Nat.lt_of_lt_of_le bound below)
      omega
    · obtain ⟨k, count⟩ := Nat.exists_eq_add_of_lt (Nat.lt_of_not_le short)
      have split_pow : 10 ^ digitCount (m * 10 ^ j) = 10 ^ (k + 1) * 10 ^ j := by
        rw [count, ← Nat.pow_add]
        congr 1
        omega
      rw [split_pow] at bound
      have := (digitCount_le_iff (Nat.succ_pos k)).mpr (Nat.lt_of_mul_lt_mul_right bound)
      omega

/-! ### Reading -/

/-- One quotient covers powers of ten of either sign. -/
theorem toBinary64_eq (negative : Bool) (d : Decimal) :
    d.toBinary64 negative =
      if d.digits = 0 then Binary64.zero negative
      else if 310 < digitCount d.digits + d.exponent then Binary64.infinity negative
      else if digitCount d.digits + d.exponent < -330 then Binary64.zero negative
      else Binary64.ofRatio negative (d.digits * 10 ^ d.exponent.toNat)
        (10 ^ (-d.exponent).toNat) := by
  simp only [toBinary64]
  by_cases sign : 0 ≤ d.exponent
  · have none_below : (-d.exponent).toNat = 0 := by omega
    rw [if_pos sign, none_below, Nat.pow_zero]
    rfl
  · have none_above : d.exponent.toNat = 0 := by omega
    rw [if_neg sign, none_above, Nat.pow_zero, Nat.mul_one]
    rfl

/-- Zeros at the end of the digits count as a power of ten. -/
theorem toBinary64_mul_pow (negative : Bool) (m j : Nat) (e : Int) :
    (Decimal.mk (m * 10 ^ j) e).toBinary64 negative =
      (Decimal.mk m (e + j)).toBinary64 negative := by
  by_cases zero : m = 0
  · subst zero
    simp [toBinary64]
  · have scaled : m * 10 ^ j ≠ 0 := by positivity
    have top : ((digitCount m + j : Nat) : Int) + e = digitCount m + (e + j) := by omega
    -- the two quotients are equal, whichever of the powers stand above the line
    have same : Binary64.ofRatio negative (m * 10 ^ j * 10 ^ e.toNat) (10 ^ (-e).toNat) =
        Binary64.ofRatio negative (m * 10 ^ (e + j).toNat) (10 ^ (-(e + j)).toNat) := by
      apply Binary64.ofRatio_congr (by positivity) (by positivity)
      have exponents : j + e.toNat + (-(e + j)).toNat = (e + j).toNat + (-e).toNat := by omega
      calc m * 10 ^ j * 10 ^ e.toNat * 10 ^ (-(e + j)).toNat
          = m * 10 ^ (j + e.toNat + (-(e + j)).toNat) := by ring
        _ = m * 10 ^ (e + j).toNat * 10 ^ (-e).toNat := by rw [exponents]; ring
    simp only [toBinary64_eq, scaled, zero, if_false, digitCount_mul_pow zero, top, same]

theorem isNaN_toBinary64 (negative : Bool) (d : Decimal) :
    (d.toBinary64 negative).isNaN = false := by
  rw [toBinary64_eq]
  split_ifs
  · exact Binary64.isNaN_ofMagnitude (Nat.zero_le _)
  · exact Binary64.isNaN_ofMagnitude (Nat.le_refl _)
  · exact Binary64.isNaN_ofMagnitude (Nat.zero_le _)
  · exact Binary64.isNaN_ofMagnitude (Nat.min_le_right ..)

/-! ### Shortest numerals -/

theorem units_lt {x : Binary64} (finite : x.isFinite = true) : x.units < 2 ^ 2098 := by
  have last : Binary64.unitsAt Binary64.infiniteMagnitude = 2 ^ 2098 := by decide +kernel
  rw [Binary64.units_eq, ← last]
  exact Binary64.unitsAt_strictMono (of_decide_eq_true finite)

/-- The units of a finite number, times the decimal `p * 10 ^ -1074` that one unit is. -/
theorem toBinary64_units {x : Binary64} {p : Nat} (finite : x.isFinite = true)
    (nonzero : x.units ≠ 0) (unit : p * Binary64.unitsPerOne = 10 ^ 1074) (low : 10 ^ 743 ≤ p)
    (high : 2 ^ 2098 * p ≤ 10 ^ 1384) :
    (Decimal.mk (x.units * p) (-1074)).toBinary64 x.isNegative = x := by
  have pos : 0 < p := Nat.lt_of_lt_of_le (Nat.pow_pos (by decide)) low
  -- neither bound on the leading digit's place is met
  have long : ¬digitCount (x.units * p) ≤ 743 := by
    rw [digitCount_le_iff (by decide), Nat.not_lt]
    calc 10 ^ 743 ≤ p := low
      _ ≤ x.units * p := Nat.le_mul_of_pos_left p (Nat.pos_of_ne_zero nonzero)
  have short : digitCount (x.units * p) ≤ 1384 := by
    rw [digitCount_le_iff (by decide)]
    calc x.units * p < 2 ^ 2098 * p := Nat.mul_lt_mul_of_pos_right (units_lt finite) pos
      _ ≤ 10 ^ 1384 := high
  have some_digits : x.units * p ≠ 0 := Nat.mul_ne_zero nonzero pos.ne'
  have above : (-1074 : Int).toNat = 0 := rfl
  have below : (-(-1074) : Int).toNat = 1074 := rfl
  have quotient : Binary64.ofRatio x.isNegative (x.units * p) (10 ^ 1074) =
      Binary64.ofRatio x.isNegative x.units Binary64.unitsPerOne := by
    apply Binary64.ofRatio_congr (Nat.pow_pos (by decide)) Binary64.unitsPerOne_pos
    rw [Nat.mul_assoc, unit]
  rw [toBinary64_eq]
  dsimp only
  rw [if_neg some_digits, if_neg (by omega), if_neg (by omega), above, below, Nat.pow_zero,
    Nat.mul_one, quotient, Binary64.ofRatio_units finite]

theorem toBinary64_exact {x : Binary64} (finite : x.isFinite = true) (nonzero : x.units ≠ 0) :
    (exact x).toBinary64 x.isNegative = x :=
  toBinary64_units finite nonzero (by decide +kernel) (by decide +kernel) (by decide +kernel)

theorem toBinary64_onGrid {x : Binary64} {k : Int} {d : Decimal} (found : onGrid? x k = some d) :
    d.toBinary64 x.isNegative = x := by
  simp only [onGrid?] at found
  -- whichever neighbour is taken, it has been read back
  split_ifs at found
  all_goals
    obtain rfl := Option.some.inj found
    exact eq_of_beq ‹_›

theorem toBinary64_shortest {x : Binary64} (finite : x.isFinite = true) (nonzero : x.units ≠ 0) :
    (shortest x).toBinary64 x.isNegative = x := by
  cases found : (List.range 17).findSome? fun (i : Nat) => onGrid? x (pointOf x - 1 - i) with
  | none =>
    rw [shortest, found]
    exact toBinary64_exact finite nonzero
  | some d =>
    rw [shortest, found]
    obtain ⟨i, _, grid⟩ := List.exists_of_findSome?_eq_some found
    exact toBinary64_onGrid grid

/-- A numeral of a number other than zero has digits. -/
theorem digits_ne_zero {x : Binary64} {d : Decimal} (reads : d.toBinary64 x.isNegative = x)
    (nonzero : x.units ≠ 0) : d.digits ≠ 0 := by
  intro none_left
  apply nonzero
  rw [← reads, toBinary64_eq, if_pos none_left, Binary64.units_eq, Binary64.zero,
    (Binary64.ofMagnitude_spec _ (by decide)).2]
  rfl

/-! ### Layout -/

/-- The layout of a numeral leaves zeros out at the end of its digits and counts them in the place
of the point. -/
theorem exists_layout (d : Decimal) :
    ∃ zeros, digitsOf d.digits = d.layout.1 ++ List.replicate zeros '0' ∧
      d.layout.2 = d.layout.1.length + zeros + d.exponent := by
  have trimmed : digitsOf d.digits = d.layout.1 ++
      ((digitsOf d.digits).reverse.takeWhile (· == '0')).reverse := by
    rw [layout, ← List.reverse_append, List.takeWhile_append_dropWhile, List.reverse_reverse]
  have zeros : ((digitsOf d.digits).reverse.takeWhile (· == '0')).reverse =
      List.replicate ((digitsOf d.digits).reverse.takeWhile (· == '0')).reverse.length '0' := by
    rw [List.eq_replicate_iff]
    refine ⟨rfl, fun c member => ?_⟩
    simpa using List.mem_takeWhile_imp (List.mem_reverse.mp member)
  refine ⟨_, trimmed.trans (congrArg _ zeros), ?_⟩
  -- the zeros left out are what the digits are longer than the layout
  have length := congrArg List.length trimmed
  rw [List.length_append] at length
  show ((digitsOf d.digits).length : Int) + d.exponent = _
  omega

theorem isDigit_of_mem_layout {d : Decimal} {c : Char} (member : c ∈ d.layout.1) :
    c.isDigit = true := by
  obtain ⟨zeros, spelled, -⟩ := exists_layout d
  apply isDigit_of_mem_digitsOf (n := d.digits)
  rw [spelled]
  exact List.mem_append_left _ member

/-- A numeral is read as its layout is, with the last digit of the layout in its place. -/
theorem toBinary64_layout (negative : Bool) (d : Decimal) :
    (Decimal.mk (ofDigits d.layout.1) (d.layout.2 - d.layout.1.length)).toBinary64 negative =
      d.toBinary64 negative := by
  obtain ⟨zeros, spelled, point⟩ := exists_layout d
  have digits : d.digits = ofDigits d.layout.1 * 10 ^ zeros := by
    rw [← ofDigits_digitsOf d.digits, spelled, ofDigits_append, ofDigits_replicate_zero,
      List.length_replicate, Nat.add_zero]
  have exponent : d.layout.2 - d.layout.1.length = d.exponent + zeros := by omega
  rw [exponent, ← toBinary64_mul_pow, ← digits]

theorem layout_ne_nil {d : Decimal} (nonzero : d.digits ≠ 0) : d.layout.1 ≠ [] := by
  obtain ⟨zeros, spelled, -⟩ := exists_layout d
  intro none_left
  apply nonzero
  rw [← ofDigits_digitsOf d.digits, spelled, none_left, List.nil_append, ofDigits_replicate_zero]

end Factbase.Decimal
