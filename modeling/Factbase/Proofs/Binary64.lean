import Mathlib
import Factbase.Binary64

/-!
# Factbase.Proofs.Binary64

Doubles by their value. The units of a double grow strictly with its magnitude, so a number is told
by its value alone, but for the two zeros. Rounding a quotient depends on its value only, and the
units of a finite number are rounded to the number itself.
-/

namespace Factbase.Binary64

def unitsAt (magnitude : Nat) : Nat :=
  if magnitude / 2 ^ 52 = 0 then magnitude % 2 ^ 52
  else (2 ^ 52 + magnitude % 2 ^ 52) * 2 ^ (magnitude / 2 ^ 52 - 1)

/-- One step further within an exponent adds to the fraction; the step into the next exponent
doubles the scale and starts the fraction again. -/
theorem unitsAt_lt_succ (m : Nat) : unitsAt m < unitsAt (m + 1) := by
  -- either the fraction is full and carries into the exponent, or it has room
  by_cases carry : m % 2 ^ 52 + 1 = 2 ^ 52
  · have exponent : (m + 1) / 2 ^ 52 = m / 2 ^ 52 + 1 := by omega
    have fraction : (m + 1) % 2 ^ 52 = 0 := by omega
    have next : unitsAt (m + 1) = 2 ^ 52 * 2 ^ (m / 2 ^ 52) := by
      rw [unitsAt, exponent, fraction, if_neg (Nat.succ_ne_zero _)]
      rfl
    rw [next, unitsAt]
    split
    next zero => rw [zero]; omega
    next nonzero =>
      obtain ⟨e, he⟩ := Nat.exists_eq_succ_of_ne_zero nonzero
      rw [he, Nat.succ_sub_one, Nat.pow_succ]
      have scale : 0 < 2 ^ e := Nat.two_pow_pos e
      calc (2 ^ 52 + m % 2 ^ 52) * 2 ^ e < (2 ^ 52 * 2) * 2 ^ e :=
            Nat.mul_lt_mul_of_pos_right (by omega) scale
        _ = 2 ^ 52 * (2 ^ e * 2) := by ring
  · have exponent : (m + 1) / 2 ^ 52 = m / 2 ^ 52 := by omega
    have fraction : (m + 1) % 2 ^ 52 = m % 2 ^ 52 + 1 := by omega
    rw [unitsAt, unitsAt, exponent, fraction]
    split
    · exact Nat.lt_succ_self _
    · exact Nat.mul_lt_mul_of_pos_right (by omega) (Nat.two_pow_pos _)

theorem unitsAt_strictMono : StrictMono unitsAt :=
  strictMono_nat_of_lt_succ unitsAt_lt_succ

theorem units_eq (x : Binary64) : x.units = unitsAt x.magnitude := by
  simp only [units, unitsAt, Nat.shiftRight_eq_div_pow, Nat.shiftLeft_eq, one_mul]

theorem unitsPerOne_pos : 0 < unitsPerOne := by
  rw [unitsPerOne, Nat.shiftLeft_eq]
  positivity

theorem ext_sign_magnitude {x y : Binary64} (sign : x.isNegative = y.isNegative)
    (magnitude : x.magnitude = y.magnitude) : x = y := by
  obtain ⟨xs⟩ := x
  obtain ⟨ys⟩ := y
  have hx := xs.toNat_lt
  have hy := ys.toNat_lt
  simp only [isNegative, decide_eq_decide, Binary64.magnitude, Nat.reduceShiftLeft]
    at sign magnitude
  have bits : xs.toNat = ys.toNat := by omega
  rw [UInt64.toNat_inj.mp bits]

/-- The only negative double without magnitude is the negative zero. -/
theorem magnitude_pos {x : Binary64} (negative : x.isNegative = true)
    (nonzero : x ≠ zero true) : 0 < x.magnitude := by
  apply Nat.pos_of_ne_zero
  intro none_left
  apply nonzero
  apply ext_sign_magnitude
  · rw [negative]; rfl
  · rw [none_left]; rfl

theorem units_pos {x : Binary64} (negative : x.isNegative = true) (nonzero : x ≠ zero true) :
    0 < x.units := by
  rw [units_eq]
  exact Nat.lt_of_le_of_lt (Nat.zero_le _) (unitsAt_strictMono (magnitude_pos negative nonzero))

/-- Apart from the negative zero, doubles of one value are the same double. -/
theorem signedUnits_inj {x y : Binary64} (hx : x ≠ zero true) (hy : y ≠ zero true) :
    x.signedUnits = y.signedUnits ↔ x = y := by
  constructor
  · intro same
    -- a negative double lies below zero, the others do not
    have sign : x.isNegative = y.isNegative := by
      cases sx : x.isNegative <;> cases sy : y.isNegative
      · rfl
      · have pos := units_pos sy hy
        simp only [signedUnits, sx, sy, if_true, Bool.false_eq_true, if_false] at same
        omega
      · have pos := units_pos sx hx
        simp only [signedUnits, sx, sy, if_true, Bool.false_eq_true, if_false] at same
        omega
      · rfl
    have units : x.units = y.units := by
      simp only [signedUnits, sign] at same
      split at same <;> omega
    rw [units_eq, units_eq] at units
    exact ext_sign_magnitude sign (unitsAt_strictMono.injective units)
  · intro same
    rw [same]

/-! ### Bits -/

theorem magnitude_lt (x : Binary64) : x.magnitude < 2 ^ 63 :=
  Nat.mod_lt _ (by decide)

theorem ofMagnitude_spec (negative : Bool) {m : Nat} (small : m < 2 ^ 63) :
    (ofMagnitude negative m).isNegative = negative ∧ (ofMagnitude negative m).magnitude = m := by
  have bits : (ofMagnitude negative m).bits.toNat = (if negative then 2 ^ 63 else 0) + m := by
    cases negative
    · simp only [ofMagnitude, Bool.false_eq_true, if_false, UInt64.toNat_ofNat']
      omega
    · simp only [ofMagnitude, if_true, UInt64.toNat_ofNat', Nat.reduceShiftLeft]
      omega
  constructor
  · rw [isNegative, bits]
    cases negative
    · simpa using small
    · simp
  · rw [magnitude, bits, Nat.shiftLeft_eq, Nat.one_mul]
    cases negative <;> simp <;> omega

/-! ### Quotients -/

theorem roundQuotient_scale {num den k : Nat} (pos : 0 < k) :
    roundQuotient (num * k) (den * k) = roundQuotient num den := by
  have below : num * k / (den * k) = num / den := Nat.mul_div_mul_right _ _ pos
  have rest : num * k % (den * k) = num % den * k := Nat.mul_mod_mul_right ..
  have less : 2 * (num % den * k) < den * k ↔ 2 * (num % den) < den := by
    rw [← Nat.mul_assoc, Nat.mul_lt_mul_right pos]
  have more : den * k < 2 * (num % den * k) ↔ den < 2 * (num % den) := by
    rw [← Nat.mul_assoc, Nat.mul_lt_mul_right pos]
  simp only [roundQuotient, below, rest, less, more]

theorem roundQuotient_mul {n den : Nat} (pos : 0 < den) : roundQuotient (n * den) den = n := by
  have scaled : roundQuotient (n * den) (1 * den) = roundQuotient n 1 := roundQuotient_scale pos
  rw [Nat.one_mul] at scaled
  rw [scaled]
  simp [roundQuotient, Nat.mod_one]

theorem ofRatio_scale {negative : Bool} {num den k : Nat} (pos : 0 < k) :
    ofRatio negative (num * k) (den * k) = ofRatio negative num den := by
  have scaled : num * k * unitsPerOne = num * unitsPerOne * k := Nat.mul_right_comm ..
  have quotient : num * unitsPerOne * k / (den * k) = num * unitsPerOne / den :=
    Nat.mul_div_mul_right _ _ pos
  have shifted : ∀ e, (den * k) <<< e = den <<< e * k := by
    intro e
    rw [Nat.shiftLeft_eq, Nat.shiftLeft_eq, Nat.mul_right_comm]
  simp only [ofRatio, scaled, quotient, shifted, roundQuotient_scale pos]

/-- Equal quotients are rounded to the same number. -/
theorem ofRatio_congr {negative : Bool} {num den num' den' : Nat} (pos : 0 < den) (pos' : 0 < den')
    (equal : num * den' = num' * den) : ofRatio negative num den = ofRatio negative num' den' := by
  calc ofRatio negative num den = ofRatio negative (num * den') (den * den') :=
        (ofRatio_scale pos').symm
    _ = ofRatio negative (num' * den) (den' * den) := by rw [equal, Nat.mul_comm den]
    _ = ofRatio negative num' den' := ofRatio_scale pos

/-- The magnitude that units are rounded to, unless it is beyond an infinity. -/
def roundedAt (units : Nat) : Nat :=
  (units.log2 - 52) * 2 ^ 52 + roundQuotient units (2 ^ (units.log2 - 52))

/-- A magnitude is made of the exponent and the significand that its units are rounded to. -/
theorem roundedAt_unitsAt (m : Nat) : roundedAt (unitsAt m) = m := by
  rw [roundedAt]
  cases exponent : m / 2 ^ 52 with
  | zero =>
    -- the units of a subnormal number are its magnitude
    have units : unitsAt m = m := by
      rw [unitsAt, if_pos exponent]
      omega
    have unscaled : m.log2 - 52 = 0 := by
      have small : m < 2 ^ 52 := by omega
      by_cases zero : m = 0
      · subst zero; rfl
      · have := (Nat.log2_lt zero).mpr small
        omega
    rw [units, unscaled, Nat.pow_zero]
    have whole := roundQuotient_mul (n := m) Nat.one_pos
    rw [Nat.mul_one] at whole
    rw [whole, Nat.zero_mul, Nat.zero_add]
  | succ k =>
    -- the leading digit stands for one more step of the exponent
    have units : unitsAt m = (2 ^ 52 + m % 2 ^ 52) * 2 ^ k := by
      rw [unitsAt, exponent, if_neg (Nat.succ_ne_zero k), Nat.succ_sub_one]
    have scale : 0 < 2 ^ k := Nat.two_pow_pos k
    have log : (unitsAt m).log2 = 52 + k := by
      have bounds : 2 ^ 52 ≤ 2 ^ 52 + m % 2 ^ 52 ∧ 2 ^ 52 + m % 2 ^ 52 < 2 ^ 53 := by omega
      rw [units, Nat.log2_eq_iff (by positivity)]
      constructor
      · rw [Nat.pow_add]
        exact Nat.mul_le_mul_right _ bounds.1
      · rw [Nat.add_right_comm, Nat.pow_add]
        exact Nat.mul_lt_mul_of_pos_right bounds.2 scale
    rw [log, Nat.add_sub_cancel_left, units, roundQuotient_mul scale]
    omega

/-- Rounding gives a finite number back. -/
theorem ofRatio_units {x : Binary64} (finite : x.isFinite = true) :
    ofRatio x.isNegative x.units unitsPerOne = x := by
  have pos := unitsPerOne_pos
  have units : x.units * unitsPerOne / unitsPerOne = x.units := Nat.mul_div_cancel _ pos
  have significand : ∀ e, roundQuotient (x.units * unitsPerOne) (unitsPerOne * 2 ^ e) =
      roundQuotient x.units (2 ^ e) := by
    intro e
    rw [Nat.mul_comm unitsPerOne, roundQuotient_scale pos]
  have within : x.magnitude ≤ infiniteMagnitude := Nat.le_of_lt (of_decide_eq_true finite)
  have rounded : ofRatio x.isNegative x.units unitsPerOne =
      ofMagnitude x.isNegative x.magnitude := by
    simp only [ofRatio, units, Nat.shiftLeft_eq, significand]
    rw [← roundedAt, units_eq, roundedAt_unitsAt, Nat.min_eq_left within]
  obtain ⟨sign, magnitude⟩ := ofMagnitude_spec x.isNegative x.magnitude_lt
  rw [rounded]
  exact ext_sign_magnitude sign magnitude

/-- Rounding makes a number. -/
theorem isNaN_ofMagnitude {negative : Bool} {m : Nat} (within : m ≤ infiniteMagnitude) :
    (ofMagnitude negative m).isNaN = false := by
  have small : infiniteMagnitude < 2 ^ 63 := by decide
  rw [isNaN, (ofMagnitude_spec _ (Nat.lt_of_le_of_lt within small)).2, decide_eq_false_iff_not]
  omega

/-! ### Order -/

theorem roundQuotient_cases (num den : Nat) :
    (2 * (num % den) < den ∧ roundQuotient num den = num / den) ∨
      (den < 2 * (num % den) ∧ roundQuotient num den = num / den + 1) ∨
      (2 * (num % den) = den ∧ roundQuotient num den = num / den + num / den % 2) := by
  unfold roundQuotient
  dsimp only
  split
  · omega
  · split <;> omega

theorem roundQuotient_mono {m n den : Nat} (le : m ≤ n) :
    roundQuotient m den ≤ roundQuotient n den := by
  have lower := roundQuotient_cases m den
  have upper := roundQuotient_cases n den
  rcases Nat.lt_or_eq_of_le (Nat.div_le_div_right (c := den) le) with less | same
  · omega
  · -- within one quotient the remainders decide
    have rests : m % den ≤ n % den := by
      have parts := Nat.div_add_mod m den
      have parts' := Nat.div_add_mod n den
      rw [same] at parts
      omega
    rw [same] at lower
    omega

/-- Rounding reaches the start of the next exponent at most. -/
theorem roundedAt_le (units : Nat) : roundedAt units ≤ (units.log2 - 52 + 2) * 2 ^ 52 := by
  have below : units ≤ 2 ^ 53 * 2 ^ (units.log2 - 52) := by
    have digits : units.log2 + 1 ≤ 53 + (units.log2 - 52) := by omega
    rw [← Nat.pow_add]
    exact Nat.le_of_lt
      (Nat.lt_of_lt_of_le Nat.lt_log2_self (Nat.pow_le_pow_right (by decide) digits))
  have rounded : roundQuotient units (2 ^ (units.log2 - 52)) ≤ 2 ^ 53 := by
    calc roundQuotient units (2 ^ (units.log2 - 52))
        ≤ roundQuotient (2 ^ 53 * 2 ^ (units.log2 - 52)) (2 ^ (units.log2 - 52)) :=
          roundQuotient_mono below
      _ = 2 ^ 53 := roundQuotient_mul (Nat.two_pow_pos _)
  rw [roundedAt]
  omega

/-- Beyond the subnormal numbers, rounding does not fall behind the start of the exponent. -/
theorem le_roundedAt {units : Nat} (normal : 52 < units.log2) :
    (units.log2 - 52 + 1) * 2 ^ 52 ≤ roundedAt units := by
  have above : 2 ^ 52 * 2 ^ (units.log2 - 52) ≤ units := by
    rw [← Nat.pow_add, Nat.add_sub_of_le (Nat.le_of_lt normal)]
    refine Nat.log2_self_le ?_
    rintro rfl
    exact absurd normal (by decide)
  have rounded : 2 ^ 52 ≤ roundQuotient units (2 ^ (units.log2 - 52)) := by
    calc 2 ^ 52 = roundQuotient (2 ^ 52 * 2 ^ (units.log2 - 52)) (2 ^ (units.log2 - 52)) :=
          (roundQuotient_mul (Nat.two_pow_pos _)).symm
      _ ≤ roundQuotient units (2 ^ (units.log2 - 52)) := roundQuotient_mono above
  rw [roundedAt]
  omega

theorem roundedAt_mono : Monotone roundedAt := by
  intro m n le
  have logs : m.log2 ≤ n.log2 := by
    rw [Nat.log2_eq_log_two, Nat.log2_eq_log_two]
    exact Nat.log_mono_right le
  rcases Nat.eq_or_lt_of_le (Nat.sub_le_sub_right logs 52) with same | less
  · rw [roundedAt, roundedAt, same]
    exact Nat.add_le_add_left (roundQuotient_mono le) _
  · -- the smaller exponent ends where the greater one has begun
    have normal : 52 < n.log2 := by omega
    have ends := roundedAt_le m
    have starts := le_roundedAt normal
    omega

/-- The magnitude of the number nearest to some units. -/
def nearestMagnitude (units : Nat) : Nat := min (roundedAt units) infiniteMagnitude

theorem nearestMagnitude_mono : Monotone nearestMagnitude := fun _ _ le =>
  min_le_min_right infiniteMagnitude (roundedAt_mono le)

theorem nearestMagnitude_units {x : Binary64} (number : x.isNaN = false) :
    nearestMagnitude x.units = x.magnitude := by
  have within : x.magnitude ≤ infiniteMagnitude := by
    rw [isNaN, decide_eq_false_iff_not] at number
    omega
  rw [nearestMagnitude, units_eq, roundedAt_unitsAt, Nat.min_eq_left within]

/-- The place of the number nearest to some units in the order of all bit patterns. -/
def nearestKey (units : Int) : Int :=
  if units < 0 then -(nearestMagnitude units.natAbs : Int) - 1 else nearestMagnitude units.natAbs

theorem nearestKey_mono : Monotone nearestKey := by
  intro m n le
  unfold nearestKey
  split
  next negative =>
    -- the magnitude of a negative number falls while the number grows
    have falls : n < 0 → nearestMagnitude n.natAbs ≤ nearestMagnitude m.natAbs := fun _ =>
      nearestMagnitude_mono (by omega)
    split
    next negative' =>
      have := falls negative'
      omega
    next => omega
  next nonneg =>
    have grows : nearestMagnitude m.natAbs ≤ nearestMagnitude n.natAbs :=
      nearestMagnitude_mono (by omega)
    rw [if_neg (by omega)]
    omega

/-- An integer becomes the double nearest to its units. -/
theorem ofInt_spec (n : Int) : (ofInt n).isNegative = decide (n < 0) ∧
    (ofInt n).magnitude = nearestMagnitude (n.natAbs * unitsPerOne) := by
  have rounded : ofInt n =
      ofMagnitude (decide (n < 0)) (nearestMagnitude (n.natAbs * unitsPerOne)) := by
    simp only [ofInt, ofRatio, Nat.div_one, Nat.shiftLeft_eq, Nat.one_mul, nearestMagnitude,
      roundedAt]
  have within : nearestMagnitude (n.natAbs * unitsPerOne) < 2 ^ 63 :=
    Nat.lt_of_le_of_lt (Nat.min_le_right ..) (by decide)
  rw [rounded]
  exact ofMagnitude_spec _ within

theorem orderKey_ofInt (n : Int) : (ofInt n).orderKey = nearestKey (n * unitsPerOne) := by
  have sign : n * unitsPerOne < 0 ↔ n < 0 := by
    have scale : (0 : Int) < unitsPerOne := Int.natCast_pos.mpr unitsPerOne_pos
    rw [← mul_lt_mul_iff_of_pos_right (b := n) (c := 0) scale, Int.zero_mul]
  obtain ⟨sign_bit, magnitude⟩ := ofInt_spec n
  rw [orderKey, sign_bit, magnitude, nearestKey, Int.natAbs_mul, Int.natAbs_natCast]
  simp only [sign, decide_eq_true_eq]

/-- Numbers other than the negative zero stand where their value does. -/
theorem orderKey_eq {x : Binary64} (number : x.isNaN = false) (nonzero : x ≠ zero true) :
    x.orderKey = nearestKey x.signedUnits := by
  have magnitude := nearestMagnitude_units number
  cases sign : x.isNegative with
  | false =>
    have units : x.signedUnits = x.units := by rw [signedUnits, sign]; rfl
    have nonneg : ¬ (x.units : Int) < 0 := by omega
    simp only [orderKey, sign, nearestKey, units, nonneg, Int.natAbs_natCast, magnitude, if_false,
      Bool.false_eq_true]
  | true =>
    have pos : 0 < x.units := units_pos sign nonzero
    have units : x.signedUnits = -(x.units : Int) := by rw [signedUnits, sign]; rfl
    have negative : -(x.units : Int) < 0 := by omega
    simp only [orderKey, sign, nearestKey, units, negative, Int.natAbs_neg, Int.natAbs_natCast,
      magnitude, if_true]

theorem orderKey_neg_iff {x : Binary64} : x.orderKey < 0 ↔ x.isNegative = true := by
  cases sign : x.isNegative with
  | false => simp [orderKey, sign]
  | true =>
    simp only [orderKey, sign, if_true, iff_true]
    omega

theorem orderKey_inj {x y : Binary64} : x.orderKey = y.orderKey ↔ x = y := by
  constructor
  · intro same
    have sign : x.isNegative = y.isNegative := by
      rw [Bool.eq_iff_iff, ← orderKey_neg_iff, ← orderKey_neg_iff, same]
    have magnitude : x.magnitude = y.magnitude := by
      simp only [orderKey, sign] at same
      split at same <;> omega
    exact ext_sign_magnitude sign magnitude
  · rintro rfl
    rfl

/-! ### Exact integers -/

/-- An exponent and a fraction, both in range, make up the units of a finite magnitude. -/
theorem exists_magnitude {k fraction : Nat} (exponent : k ≤ 53) (room : fraction < 2 ^ 52) :
    ∃ m ≤ infiniteMagnitude, unitsAt m = (2 ^ 52 + fraction) * 2 ^ (k + 1022) := by
  refine ⟨(k + 1023) * 2 ^ 52 + fraction, by rw [infiniteMagnitude, Nat.shiftLeft_eq]; omega, ?_⟩
  have high : ((k + 1023) * 2 ^ 52 + fraction) / 2 ^ 52 = k + 1023 := by omega
  have low : ((k + 1023) * 2 ^ 52 + fraction) % 2 ^ 52 = fraction := by omega
  rw [unitsAt, high, low, if_neg (by omega)]
  rfl

/-- The digits of a number that is not too large can be moved up until they fill a significand. -/
theorem shifted_bounds {n : Nat} (zero : n ≠ 0) (less : n < 2 ^ 53) : n.log2 ≤ 52 ∧
    2 ^ 52 ≤ n * 2 ^ (52 - n.log2) ∧ n * 2 ^ (52 - n.log2) < 2 ^ 53 := by
  have digits : n.log2 ≤ 52 := Nat.le_of_lt_succ ((Nat.log2_lt zero).mpr less)
  refine ⟨digits, ?_, ?_⟩
  · calc 2 ^ 52 = 2 ^ n.log2 * 2 ^ (52 - n.log2) := by
          rw [← Nat.pow_add, Nat.add_sub_of_le digits]
      _ ≤ n * 2 ^ (52 - n.log2) := Nat.mul_le_mul_right _ (Nat.log2_self_le zero)
  · calc n * 2 ^ (52 - n.log2) < 2 ^ (n.log2 + 1) * 2 ^ (52 - n.log2) :=
          Nat.mul_lt_mul_of_pos_right Nat.lt_log2_self (Nat.two_pow_pos _)
      _ = 2 ^ 53 := by rw [← Nat.pow_add, Nat.add_right_comm, Nat.add_sub_of_le digits]

theorem exists_unitsAt {n : Nat} (small : n ≤ 2 ^ 53) :
    ∃ m ≤ infiniteMagnitude, unitsAt m = n * unitsPerOne := by
  -- the exponent of one is kept as a variable, so that its power is not computed
  obtain ⟨p, place, one⟩ : ∃ p, p = 1074 ∧ unitsPerOne = 2 ^ p := by
    rw [unitsPerOne]
    generalize 1074 = p
    exact ⟨p, rfl, Nat.one_shiftLeft p⟩
  rw [one]
  by_cases zero : n = 0
  · exact ⟨0, Nat.zero_le _, by rw [zero, Nat.zero_mul]; rfl⟩
  rcases Nat.lt_or_eq_of_le small with less | rfl
  · obtain ⟨digits, leading, within⟩ := shifted_bounds zero less
    have room : n * 2 ^ (52 - n.log2) - 2 ^ 52 < 2 ^ 52 := by omega
    obtain ⟨m, finite, units⟩ := exists_magnitude (Nat.le_succ_of_le digits) room
    refine ⟨m, finite, ?_⟩
    rw [units, Nat.add_sub_of_le leading, Nat.mul_assoc, ← Nat.pow_add,
      show 52 - n.log2 + (n.log2 + 1022) = p by omega]
  · obtain ⟨m, finite, units⟩ := exists_magnitude (Nat.le_refl 53) (Nat.two_pow_pos 52)
    refine ⟨m, finite, ?_⟩
    rw [units, show 53 + 1022 = 1 + p by omega, Nat.pow_add, ← Nat.mul_assoc]
    rfl

/-- Integers up to `2 ^ 53` lose nothing when they become doubles. -/
theorem signedUnits_ofInt {n : Int} (small : n.natAbs ≤ 2 ^ 53) :
    (ofInt n).signedUnits = n * unitsPerOne := by
  obtain ⟨sign, magnitude⟩ := ofInt_spec n
  obtain ⟨m, finite, exact⟩ := exists_unitsAt small
  have units : (ofInt n).units = n.natAbs * unitsPerOne := by
    rw [units_eq, magnitude, ← exact, nearestMagnitude, roundedAt_unitsAt, Nat.min_eq_left finite]
  rw [signedUnits, sign, units]
  by_cases negative : n < 0
  · rw [if_pos (decide_eq_true negative), Int.natCast_mul, ← Int.neg_mul]
    congr 1
    omega
  · rw [if_neg (by simpa using negative), Int.natCast_mul]
    congr 1
    omega

end Factbase.Binary64
