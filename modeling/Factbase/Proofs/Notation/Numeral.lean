import Factbase.Proofs.Decimal
import Factbase.Proofs.Notation.Word

/-!
# Factbase.Proofs.Notation.Numeral

The texts of numbers are numerals of the grammar. Every integer is written as a literal of itself,
and so is every finite double, whichever way its digits are laid out.
-/

namespace Factbase.Notation

/-! ### Integers -/

theorem isDigits_digitsOf (n : Nat) : isDigits (Decimal.digitsOf n) = true :=
  isDigits_iff.mpr ⟨Decimal.digitsOf_ne_nil n, fun _ => Decimal.isDigit_of_mem_digitsOf⟩

theorem toList_repr (n : Nat) : n.repr.toList = Decimal.digitsOf n := by
  rw [Nat.repr_eq_ofList_toDigits, String.toList_ofList, Decimal.digitsOf]

theorem integerLiteral_toString (n : Int) : IntegerLiteral (toString n).toList n := by
  rw [Int.toString_eq_repr, Int.repr_eq_if]
  split
  next nonnegative =>
    have literal := IntegerLiteral.intro .absent (isDigits_digitsOf n.toNat)
    rw [Decimal.ofDigits_digitsOf, if_neg Bool.false_ne_true, List.nil_append,
      Int.toNat_of_nonneg nonnegative] at literal
    rwa [toList_repr]
  next negative =>
    have literal := IntegerLiteral.intro .minus (isDigits_digitsOf (-n).toNat)
    have value : -((-n).toNat : Int) = n := by omega
    rw [Decimal.ofDigits_digitsOf, if_pos rfl, value] at literal
    rwa [String.toList_append, toList_repr]

/-! ### Layouts -/

section Layouts

variable {ds : List Char} {point : Int}

theorem isDigits_append {cs : List Char} (some_digits : cs ++ ds ≠ [])
    (hcs : ∀ c ∈ cs, c.isDigit = true) (hds : ∀ c ∈ ds, c.isDigit = true) :
    isDigits (cs ++ ds) = true := by
  refine isDigits_iff.mpr ⟨some_digits, fun c member => ?_⟩
  rcases List.mem_append.mp member with member | member
  · exact hcs c member
  · exact hds c member

theorem isDigit_of_mem_zeros {n : Nat} : ∀ c ∈ List.replicate n '0', c.isDigit = true := by
  intro c member
  rw [List.eq_of_mem_replicate member]
  decide

/-- Digits that start after the point. -/
theorem mantissa_below (digits : isDigits ds = true) (low : point ≤ 0) :
    Mantissa (Decimal.positional (ds, point)) ⟨Decimal.ofDigits ds, point - ds.length⟩ := by
  obtain ⟨nonempty, all⟩ := isDigits_iff.mp digits
  have fraction : isDigits (List.replicate (-point).toNat '0' ++ ds) = true :=
    isDigits_append (by simp [nonempty]) isDigit_of_mem_zeros all
  have whole : isDigits ['0'] = true := rfl
  have mantissa := Mantissa.fraction whole fraction
  have value : Decimal.ofParts ['0'] (List.replicate (-point).toNat '0' ++ ds) 0 =
      ⟨Decimal.ofDigits ds, point - ds.length⟩ := by
    -- the zero before the point joins those after it
    have zeros : ['0'] ++ (List.replicate (-point).toNat '0' ++ ds) =
        List.replicate ((-point).toNat + 1) '0' ++ ds := rfl
    rw [Decimal.ofParts, zeros, Decimal.ofDigits_append, Decimal.ofDigits_replicate_zero,
      Nat.zero_mul, Nat.zero_add, List.length_append, List.length_replicate]
    congr 1
    omega
  rw [value] at mantissa
  rwa [Decimal.positional, if_pos low]

/-- Digits on both sides of the point. -/
theorem mantissa_within (digits : isDigits ds = true) (low : 0 < point)
    (high : point < ds.length) :
    Mantissa (Decimal.positional (ds, point)) ⟨Decimal.ofDigits ds, point - ds.length⟩ := by
  obtain ⟨nonempty, all⟩ := isDigits_iff.mp digits
  have whole : isDigits (ds.take point.toNat) = true := by
    refine isDigits_iff.mpr ⟨?_, fun c member => all c (List.mem_of_mem_take member)⟩
    rw [← List.length_pos_iff, List.length_take]
    omega
  have fraction : isDigits (ds.drop point.toNat) = true := by
    refine isDigits_iff.mpr ⟨?_, fun c member => all c (List.mem_of_mem_drop member)⟩
    rw [← List.length_pos_iff, List.length_drop]
    omega
  have mantissa := Mantissa.fraction whole fraction
  have value : Decimal.ofParts (ds.take point.toNat) (ds.drop point.toNat) 0 =
      ⟨Decimal.ofDigits ds, point - ds.length⟩ := by
    rw [Decimal.ofParts, List.take_append_drop, List.length_drop]
    congr 1
    omega
  rw [value] at mantissa
  rwa [Decimal.positional, if_neg (by omega), if_neg (by omega)]

/-- Digits that end before the point. -/
theorem mantissa_above (digits : isDigits ds = true) (high : (ds.length : Int) ≤ point) :
    Mantissa (Decimal.positional (ds, point) ++ ".0".toList)
      ⟨Decimal.ofDigits ds * 10 ^ (point.toNat - ds.length + 1), -1⟩ := by
  obtain ⟨nonempty, all⟩ := isDigits_iff.mp digits
  have some_digits : 0 < ds.length := List.length_pos_iff.mpr nonempty
  have whole : isDigits (ds ++ List.replicate (point.toNat - ds.length) '0') = true :=
    isDigits_append (by simp [nonempty]) all isDigit_of_mem_zeros
  have fraction : isDigits ['0'] = true := rfl
  have mantissa := Mantissa.fraction whole fraction
  have value : Decimal.ofParts (ds ++ List.replicate (point.toNat - ds.length) '0') ['0'] 0 =
      ⟨Decimal.ofDigits ds * 10 ^ (point.toNat - ds.length + 1), -1⟩ := by
    have zeros : ds ++ List.replicate (point.toNat - ds.length) '0' ++ ['0'] =
        ds ++ List.replicate (point.toNat - ds.length + 1) '0' := by
      rw [List.append_assoc, List.replicate_succ']
    rw [Decimal.ofParts, zeros, Decimal.ofDigits_append, Decimal.ofDigits_replicate_zero,
      List.length_replicate]
    rfl
  rw [value] at mantissa
  rwa [Decimal.positional, if_neg (by omega), if_pos high]

theorem mantissa_scientific (digits : isDigits ds = true) :
    Mantissa (Decimal.scientific (ds, point)) ⟨Decimal.ofDigits ds, point - ds.length⟩ := by
  obtain ⟨nonempty, all⟩ := isDigits_iff.mp digits
  obtain ⟨d, tail, rfl⟩ := List.exists_cons_of_ne_nil nonempty
  have whole : isDigits [d] = true :=
    isDigits_iff.mpr ⟨nofun, fun c member =>
      List.mem_singleton.mp member ▸ all d (List.mem_cons_self ..)⟩
  have power : Exponent ('e' :: (toString (point - 1)).toList) (point - 1) :=
    .intro (.inl rfl) (integerLiteral_toString _)
  have value : Decimal.ofParts [d] tail (point - 1) =
      ⟨Decimal.ofDigits (d :: tail), point - (d :: tail).length⟩ := by
    rw [Decimal.ofParts, List.singleton_append, List.length_cons]
    congr 1
    omega
  rw [← value]
  -- a single digit has no fraction
  by_cases alone : tail = []
  · subst alone
    exact .scaled whole power
  · have fraction : isDigits tail = true :=
      isDigits_iff.mpr ⟨alone, fun c member => all c (List.mem_cons_of_mem _ member)⟩
    have spelled : Decimal.scientific (d :: tail, point) =
        [d] ++ '.' :: (tail ++ 'e' :: (toString (point - 1)).toList) := by
      simp [Decimal.scientific, alone]
    rw [spelled]
    exact .scaledFraction whole fraction power

/-- Digits with the point in its place, or with a point added where it does not show. -/
theorem mantissa_positional (point : Int) (digits : isDigits ds = true) :
    ∃ zeros : Nat, Mantissa
      (if !(Decimal.positional (ds, point)).contains '.' then
        Decimal.positional (ds, point) ++ ".0".toList
      else Decimal.positional (ds, point))
      ⟨Decimal.ofDigits ds * 10 ^ zeros, point - ds.length - zeros⟩ := by
  -- only digits that end before the point are written without it
  by_cases low : point ≤ 0
  · have shows : (Decimal.positional (ds, point)).contains '.' = true := by
      simp [Decimal.positional, low]
    refine ⟨0, ?_⟩
    rw [shows]
    simpa using mantissa_below digits low
  by_cases high : (ds.length : Int) ≤ point
  · have hidden : (Decimal.positional (ds, point)).contains '.' = false := by
      rw [Bool.eq_false_iff, ne_eq, List.contains_iff_mem, Decimal.positional, if_neg low,
        if_pos high]
      intro member
      have all := (isDigits_iff.mp digits).2
      rcases List.mem_append.mp member with digit | zero
      · exact absurd (all _ digit) (by decide)
      · exact absurd (isDigit_of_mem_zeros _ zero) (by decide)
    refine ⟨point.toNat - ds.length + 1, ?_⟩
    have last : point - ds.length - (point.toNat - ds.length + 1 : Nat) = -1 := by omega
    rw [hidden, last]
    exact mantissa_above digits high
  · have shows : (Decimal.positional (ds, point)).contains '.' = true := by
      simp [Decimal.positional, low, high]
    refine ⟨0, ?_⟩
    rw [shows]
    simpa using mantissa_within digits (Int.not_le.mp low) (Int.not_le.mp high)

end Layouts

/-! ### Doubles -/

theorem mantissa_magnitudeChars {x : Binary64} (finite : x.isFinite = true)
    (nonzero : x.units ≠ 0) :
    ∃ d, Mantissa (NumberStyle.marked.magnitudeChars x) d ∧ d.toBinary64 x.isNegative = x := by
  have reads := Decimal.toBinary64_shortest finite nonzero
  have digits : isDigits (Decimal.shortest x).layout.1 = true :=
    isDigits_iff.mpr ⟨Decimal.layout_ne_nil (Decimal.digits_ne_zero reads nonzero),
      fun _ => Decimal.isDigit_of_mem_layout⟩
  have laid := Decimal.toBinary64_layout x.isNegative (Decimal.shortest x)
  have keeps : NumberStyle.marked.keepsPoint = true := rfl
  simp only [NumberStyle.magnitudeChars, nonzero, if_false, keeps, Bool.true_and]
  split
  · obtain ⟨zeros, mantissa⟩ := mantissa_positional (Decimal.shortest x).layout.2 digits
    refine ⟨_, mantissa, ?_⟩
    rw [Decimal.toBinary64_mul_pow, Int.sub_add_cancel, laid, reads]
  · exact ⟨_, mantissa_scientific digits, laid.trans reads⟩

/-- A zero of either sign is written `0.0`. -/
theorem mantissa_zero {x : Binary64} (zero : x.units = 0) :
    ∃ d, Mantissa (NumberStyle.marked.magnitudeChars x) d ∧ d.toBinary64 x.isNegative = x := by
  have none_left : x.magnitude = 0 := by
    rw [Binary64.units_eq] at zero
    exact Binary64.unitsAt_strictMono.injective (zero.trans rfl)
  obtain ⟨sign, magnitude⟩ := Binary64.ofMagnitude_spec x.isNegative (m := 0) (by decide)
  refine ⟨Decimal.ofParts ['0'] ['0'] 0, ?_, ?_⟩
  · have spelled : NumberStyle.marked.magnitudeChars x = ['0'] ++ '.' :: ['0'] := by
      rw [NumberStyle.magnitudeChars, if_pos zero]
      rfl
    rw [spelled]
    exact .fraction rfl rfl
  · exact Binary64.ext_sign_magnitude sign (magnitude.trans none_left.symm)

theorem floatLiteral_render {x : Binary64} (finite : x.isFinite = true) :
    FloatLiteral (NumberStyle.marked.render x).toList x := by
  have number : x.isNaN = false ∧ x.isInfinite = false := by
    simp only [Binary64.isFinite, decide_eq_true_eq] at finite
    simp only [Binary64.isNaN, Binary64.isInfinite, decide_eq_false_iff_not, beq_eq_false_iff_ne]
    omega
  have mantissa : ∃ d, Mantissa (NumberStyle.marked.magnitudeChars x) d ∧
      d.toBinary64 x.isNegative = x := by
    by_cases zero : x.units = 0
    · exact mantissa_zero zero
    · exact mantissa_magnitudeChars finite zero
  obtain ⟨d, mantissa, reads⟩ := mantissa
  have sign : Sign (if x.isNegative then ['-'] else []) x.isNegative := by
    cases x.isNegative
    · exact .absent
    · exact .minus
  have literal := FloatLiteral.intro sign mantissa
  have spelled : (NumberStyle.marked.render x).toList =
      (if x.isNegative then ['-'] else []) ++ NumberStyle.marked.magnitudeChars x := by
    simp only [NumberStyle.render, number.1, number.2, Bool.false_eq_true, if_false,
      String.toList_ofList]
    cases x.isNegative <;> rfl
  rwa [reads, ← spelled] at literal

end Factbase.Notation
