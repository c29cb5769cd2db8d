import Factbase.Proofs.Notation.Grammar

/-!
# Factbase.Proofs.Notation.Word

Words are classified as the grammar has it. A numeral is told from a symbol by its whole spelling,
and no word is a float and an integer at once.
-/

namespace Factbase.Notation

/-! ### Runs of characters -/

theorem exists_run (p : Char → Bool) (cs : List Char) :
    ∃ run rest, cs = run ++ rest ∧ (∀ c ∈ run, p c = true) ∧ ∀ c ∈ rest.head?, p c = false := by
  refine ⟨cs.takeWhile p, cs.dropWhile p, List.takeWhile_append_dropWhile.symm, ?_, ?_⟩
  · exact fun c hc => List.mem_takeWhile_imp hc
  · intro c hc
    simpa [Option.mem_def.mp hc] using List.head?_dropWhile_not p cs

/-- A run that cannot go on is what the search for the longest run finds. -/
theorem span_run {p : Char → Bool} {run rest : List Char} (all : ∀ c ∈ run, p c = true)
    (stops : ∀ c ∈ rest.head?, p c = false) :
    (run ++ rest).takeWhile p = run ∧ (run ++ rest).dropWhile p = rest := by
  rw [List.takeWhile_append_of_pos all, List.dropWhile_append_of_pos all]
  cases rest with
  | nil => simp
  | cons c rest => simp [stops c rfl]

theorem isDigits_iff {cs : List Char} :
    isDigits cs = true ↔ cs ≠ [] ∧ ∀ c ∈ cs, c.isDigit = true := by
  simp [isDigits]

theorem isDigits_head {cs : List Char} (digits : isDigits cs = true) :
    ∀ c ∈ cs.head?, c.isDigit = true :=
  fun c first => (isDigits_iff.mp digits).2 c (List.mem_of_mem_head? first)

theorem isDigits_starts {cs : List Char} (digits : isDigits cs = true) (rest : List Char) :
    ∀ c ∈ (cs ++ rest).head?, c.isDigit = true := by
  cases cs with
  | nil => exact absurd rfl (isDigits_iff.mp digits).1
  | cons c cs => exact fun d first => isDigits_head digits d first

/-! ### Integers -/

theorem sign_unsign (cs : List Char) :
    ∃ sign, Sign sign (unsign cs).1 ∧ cs = sign ++ (unsign cs).2 := by
  unfold unsign
  split
  · exact ⟨_, .minus, rfl⟩
  · exact ⟨_, .plus, rfl⟩
  · exact ⟨_, .absent, rfl⟩

theorem Sign.unsign_append {sign cs : List Char} {negative : Bool} (signs : Sign sign negative)
    (starts : ∀ c ∈ cs.head?, c.isDigit = true) : unsign (sign ++ cs) = (negative, cs) := by
  cases signs with
  | plus => rfl
  | minus => rfl
  | absent =>
    -- a digit is no sign
    rw [List.nil_append]
    unfold unsign
    split
    · exact absurd (starts '-' rfl) (by decide)
    · exact absurd (starts '+' rfl) (by decide)
    · rfl

theorem signed_eq_some {cs : List Char} {n : Int} :
    signed cs = some n ↔ IntegerLiteral cs n := by
  constructor
  · intro denoted
    obtain ⟨sign, signs, spelled⟩ := sign_unsign cs
    simp only [signed] at denoted
    split at denoted
    next digits =>
      cases denoted
      have literal := IntegerLiteral.intro signs digits
      rwa [← spelled] at literal
    next => cases denoted
  · rintro ⟨signs, digits⟩
    have starts := isDigits_head digits
    simp only [signed, signs.unsign_append starts, digits, if_true]

/-! ### Floats -/

theorem exponent?_eq_some {cs : List Char} {n : Int} :
    exponent? cs = some n ↔ (cs = [] ∧ n = 0) ∨ Exponent cs n := by
  have marks : ∀ {c : Char}, isExponentMark c = true ↔ c = 'e' ∨ c = 'E' := by
    intro c
    rw [isExponentMark, Bool.or_eq_true, beq_iff_eq, beq_iff_eq]
  constructor
  · intro denoted
    cases cs with
    | nil => exact .inl ⟨rfl, (Option.some.inj denoted).symm⟩
    | cons c rest =>
      simp only [exponent?] at denoted
      split at denoted
      next mark => exact .inr (.intro (marks.mp mark) (signed_eq_some.mp denoted))
      next => cases denoted
  · rintro (⟨rfl, rfl⟩ | ⟨mark, power⟩)
    · rfl
    · simp only [exponent?, marks.mpr mark, if_true, signed_eq_some.mpr power]

/-- An exponent starts with a mark, which is neither a digit nor a point. -/
theorem Exponent.starts {cs : List Char} {n : Int} (exponent : Exponent cs n) :
    ∃ mark rest, cs = mark :: rest ∧ mark.isDigit = false ∧ mark ≠ '.' := by
  obtain ⟨rfl | rfl, _⟩ := exponent
  · exact ⟨'e', _, rfl, by decide, by decide⟩
  · exact ⟨'E', _, rfl, by decide, by decide⟩

theorem exponent?_not_digit {cs : List Char} {n : Int} (denoted : exponent? cs = some n) :
    ∀ c ∈ cs.head?, c.isDigit = false := by
  rcases exponent?_eq_some.mp denoted with ⟨rfl, -⟩ | exponent
  · simp
  · obtain ⟨mark, rest, rfl, notDigit, -⟩ := exponent.starts
    simpa using notDigit

/-- A fraction with or without a power of ten. -/
theorem mantissa_fraction {whole fraction exponent : List Char} {n : Int}
    (wholes : isDigits whole = true) (fractions : isDigits fraction = true)
    (power : exponent? exponent = some n) :
    Mantissa (whole ++ '.' :: (fraction ++ exponent)) (Decimal.ofParts whole fraction n) := by
  rcases exponent?_eq_some.mp power with ⟨rfl, rfl⟩ | exponent
  · rw [List.append_nil]
    exact .fraction wholes fractions
  · exact .scaledFraction wholes fractions exponent

theorem unsignedFloat?_fraction {whole fraction exponent : List Char} {n : Int}
    (wholes : isDigits whole = true) (fractions : isDigits fraction = true)
    (power : exponent? exponent = some n) :
    unsignedFloat? (whole ++ '.' :: (fraction ++ exponent)) =
      some (Decimal.ofParts whole fraction n) := by
  obtain ⟨nonempty, all⟩ := isDigits_iff.mp wholes
  obtain ⟨nonempty', all'⟩ := isDigits_iff.mp fractions
  have point : ∀ c ∈ ('.' :: (fraction ++ exponent)).head?, c.isDigit = false := by simp
  have outer := span_run all point
  have inner := span_run all' (exponent?_not_digit power)
  simp only [unsignedFloat?, outer, inner, List.isEmpty_iff, nonempty, nonempty', if_false, power,
    Option.map_some]

theorem unsignedFloat?_scaled {whole exponent : List Char} {n : Int}
    (wholes : isDigits whole = true) (power : Exponent exponent n) :
    unsignedFloat? (whole ++ exponent) = some (Decimal.ofParts whole [] n) := by
  obtain ⟨nonempty, all⟩ := isDigits_iff.mp wholes
  have found := exponent?_eq_some.mpr (.inr power)
  have outer := span_run all (exponent?_not_digit found)
  simp only [unsignedFloat?, outer, List.isEmpty_iff, nonempty, if_false]
  obtain ⟨mark, rest, rfl, -, no_point⟩ := power.starts
  -- the mark leads to the last of the three cases
  split
  next none_left => cases none_left
  next point => exact absurd (List.cons.inj point).1 no_point
  next => rw [found, Option.map_some]

theorem unsignedFloat?_eq_some {cs : List Char} {d : Decimal} :
    unsignedFloat? cs = some d ↔ Mantissa cs d := by
  constructor
  · intro denoted
    obtain ⟨whole, rest, rfl, all, stops⟩ := exists_run Char.isDigit cs
    simp only [unsignedFloat?, span_run all stops] at denoted
    split at denoted
    next => cases denoted
    next some_digits =>
      -- what follows the digits: nothing, a point, or something else
      have wholes : isDigits whole = true := isDigits_iff.mpr ⟨by simpa using some_digits, all⟩
      split at denoted
      next => cases denoted
      next rest =>
        -- after a point the digits of the fraction end where the exponent starts
        obtain ⟨fraction, exponent, rfl, all', stops'⟩ := exists_run Char.isDigit rest
        simp only [span_run all' stops'] at denoted
        split at denoted
        next => cases denoted
        next some_fraction =>
          have fractions : isDigits fraction = true :=
            isDigits_iff.mpr ⟨by simpa using some_fraction, all'⟩
          obtain ⟨n, power, rfl⟩ := Option.map_eq_some_iff.mp denoted
          exact mantissa_fraction wholes fractions power
      next some_left no_point =>
        obtain ⟨n, power, rfl⟩ := Option.map_eq_some_iff.mp denoted
        rcases exponent?_eq_some.mp power with ⟨none_left, -⟩ | exponent
        · exact absurd none_left some_left
        · exact .scaled wholes exponent
  · intro mantissa
    cases mantissa with
    | fraction wholes fractions =>
      have no_power : exponent? [] = some 0 := rfl
      simpa using unsignedFloat?_fraction wholes fractions no_power
    | scaledFraction wholes fractions exponent =>
      exact unsignedFloat?_fraction wholes fractions (exponent?_eq_some.mpr (.inr exponent))
    | scaled wholes exponent => exact unsignedFloat?_scaled wholes exponent

theorem Mantissa.starts {cs : List Char} {d : Decimal} (mantissa : Mantissa cs d) :
    ∀ c ∈ cs.head?, c.isDigit = true := by
  cases mantissa with
  | fraction wholes => exact isDigits_starts wholes _
  | scaledFraction wholes => exact isDigits_starts wholes _
  | scaled wholes => exact isDigits_starts wholes _

theorem float?_eq_some {cs : List Char} {x : Binary64} :
    float? cs = some x ↔ FloatLiteral cs x := by
  constructor
  · intro denoted
    obtain ⟨sign, signs, spelled⟩ := sign_unsign cs
    obtain ⟨d, mantissa, rfl⟩ := Option.map_eq_some_iff.mp denoted
    have literal : FloatLiteral (sign ++ (unsign cs).2) (d.toBinary64 (unsign cs).1) :=
      .intro signs (unsignedFloat?_eq_some.mp mantissa)
    rwa [← spelled] at literal
  · rintro ⟨signs, mantissa⟩
    simp only [float?, signs.unsign_append mantissa.starts, unsignedFloat?_eq_some.mpr mantissa,
      Option.map_some]

/-- Digits alone are no float. -/
theorem IntegerLiteral.float?_eq_none {cs : List Char} {n : Int} (literal : IntegerLiteral cs n) :
    float? cs = none := by
  obtain ⟨signs, digits⟩ := literal
  have starts := isDigits_head digits
  obtain ⟨nonempty, all⟩ := isDigits_iff.mp digits
  have ends : ∀ c ∈ ([] : List Char).head?, c.isDigit = false := nofun
  have whole := span_run all ends
  rw [List.append_nil] at whole
  simp only [float?, signs.unsign_append starts, unsignedFloat?, whole, List.isEmpty_iff, nonempty,
    if_false, Option.map_none]

/-! ### Words -/

/-- Numerals are not among the constants. -/
theorem classify_numeral {w : List Char} (numeral : (float? w).isSome ∨ (signed w).isSome) :
    classify w = ((float? w).map fun x => Word.form (.float x)).getD
      ((integer? w).getD (name w)) := by
  -- no constant reads as a numeral
  have apart : ∀ constant : List Char, (float? constant).isSome = false →
      (signed constant).isSome = false → w ≠ constant := by
    rintro _ no_float no_integer rfl
    simp [no_float, no_integer] at numeral
  rw [classify, if_neg (apart _ rfl rfl), if_neg (apart _ rfl rfl), if_neg (apart _ rfl rfl)]
  cases float? w <;> rfl

theorem IntegerLiteral.classify_eq {w : List Char} {n : Int} (literal : IntegerLiteral w n) :
    classify w =
      if fitsInt64 n then .form (.int (Int64.ofInt n)) else .oversized (String.ofList w) := by
  have found := signed_eq_some.mpr literal
  rw [classify_numeral (.inr (by rw [found]; rfl)), literal.float?_eq_none, integer?, found]
  rfl

theorem reserved_iff {w : List Char} :
    Reserved w ↔ w = "nil".toList ∨ w = "true".toList ∨ w = "false".toList ∨
      (float? w).isSome ∨ (signed w).isSome := by
  simp only [Reserved, ← float?_eq_some, ← signed_eq_some, Option.isSome_iff_exists]

theorem classify_of_free {w : List Char} (free : ¬Reserved w) : classify w = name w := by
  simp only [reserved_iff, not_or, Bool.not_eq_true, Option.isSome_eq_false_iff,
    Option.isNone_iff_eq_none] at free
  obtain ⟨not_nil, not_true, not_false, no_float, no_integer⟩ := free
  rw [classify, if_neg not_nil, if_neg not_true, if_neg not_false, no_float, integer?, no_integer]
  rfl

theorem keyword_free {rest : List Char} : ¬Reserved (':' :: rest) := by
  rw [reserved_iff]
  rintro (constant | constant | constant | numeral | numeral)
  · cases constant
  · cases constant
  · cases constant
  · cases numeral
  · cases numeral

theorem name_keyword {rest : List Char} (nonempty : rest ≠ []) :
    name (':' :: rest) = .form (.keyword (String.ofList rest)) := by
  rw [name, if_neg (by simpa using nonempty)]
  simp [Form.ofName]

theorem name_symbol {c : Char} {rest : List Char} (starts : startsSymbol c = true) :
    name (c :: rest) = .form (.symbol (String.ofList (c :: rest))) := by
  unfold name
  split
  next first =>
    cases first
    exact absurd starts (by decide)
  next first =>
    cases first
    rw [if_pos starts]
  next none_left => cases none_left

theorem name_of_not_starts {c : Char} {rest : List Char} (not_colon : c ≠ ':')
    (starts : ¬startsSymbol c = true) : name (c :: rest) = .none := by
  unfold name
  split
  next first => exact absurd (List.cons.inj first).1 not_colon
  next first =>
    cases first
    rw [if_neg starts]
  next => rfl

theorem classify_of_denotes {w : List Char} {word : Word} (denotes : Denotes w word) :
    classify w = word := by
  cases denotes with
  | nil => rfl
  | true => rfl
  | false => rfl
  | float literal =>
    have found := float?_eq_some.mpr literal
    rw [classify_numeral (.inl (by rw [found]; rfl)), found]
    rfl
  | integer literal fits => rw [literal.classify_eq, if_pos fits]
  | oversized literal misfit => rw [literal.classify_eq, if_neg misfit]
  | keyword nonempty => rw [classify_of_free keyword_free, name_keyword nonempty]
  | symbol starts _ free => rw [classify_of_free free, name_symbol starts]

theorem denotes_classify {w : List Char} (nonempty : w ≠ []) (run : IsRun w)
    (some_word : classify w ≠ .none) : Denotes w (classify w) := by
  by_cases reserved : Reserved w
  · rcases reserved with rfl | rfl | rfl | ⟨x, literal⟩ | ⟨n, literal⟩
    · exact .nil
    · exact .true
    · exact .false
    · rw [classify_of_denotes (.float literal)]
      exact .float literal
    · rw [literal.classify_eq]
      split
      next fits => exact .integer literal fits
      next misfit => exact .oversized literal misfit
  · -- every other word is a name, unless it starts as none does
    rw [classify_of_free reserved] at some_word ⊢
    obtain ⟨c, rest, rfl⟩ := List.exists_cons_of_ne_nil nonempty
    have run' : IsRun rest := fun d hd => run d (List.mem_cons_of_mem _ hd)
    by_cases colon : c = ':'
    · subst colon
      by_cases alone : rest = []
      · subst alone
        exact absurd rfl some_word
      · rw [name_keyword alone]
        exact .keyword alone run'
    · by_cases starts : startsSymbol c = true
      · rw [name_symbol starts]
        exact .symbol starts run' reserved
      · exact absurd (name_of_not_starts colon starts) some_word

/-- Digits with a point after them are no word at all. -/
example : classify "1.".toList = .none := rfl

/-! ### Spelling -/

theorem isSymbolChar_of_isDigit {c : Char} (digit : c.isDigit = true) : isSymbolChar c = true := by
  simp [isSymbolChar, digit]

theorem isSymbolChar_of_starts {c : Char} (starts : startsSymbol c = true) :
    isSymbolChar c = true := by
  simp [isSymbolChar, starts]

theorem IsRun.append {cs ds : List Char} (hcs : IsRun cs) (hds : IsRun ds) : IsRun (cs ++ ds) := by
  intro c hc
  rcases List.mem_append.mp hc with hc | hc
  · exact hcs c hc
  · exact hds c hc

theorem IsRun.cons {c : Char} {cs : List Char} (hc : isSymbolChar c = true) (hcs : IsRun cs) :
    IsRun (c :: cs) := by
  simpa [IsRun, hc] using hcs

theorem isRun_of_isDigits {cs : List Char} (digits : isDigits cs = true) : IsRun cs :=
  fun c hc => isSymbolChar_of_isDigit ((isDigits_iff.mp digits).2 c hc)

theorem Sign.isRun {sign : List Char} {negative : Bool} (signs : Sign sign negative) :
    IsRun sign := by
  cases signs <;> simp [IsRun] <;> decide

theorem IntegerLiteral.isRun {cs : List Char} {n : Int} (literal : IntegerLiteral cs n) :
    IsRun cs := by
  obtain ⟨signs, digits⟩ := literal
  exact signs.isRun.append (isRun_of_isDigits digits)

theorem Exponent.isRun {cs : List Char} {n : Int} (exponent : Exponent cs n) : IsRun cs := by
  obtain ⟨mark, power⟩ := exponent
  refine power.isRun.cons ?_
  rcases mark with rfl | rfl <;> decide

theorem Mantissa.isRun {cs : List Char} {d : Decimal} (mantissa : Mantissa cs d) : IsRun cs := by
  have point : isSymbolChar '.' = true := by decide
  cases mantissa with
  | fraction wholes fractions =>
    exact (isRun_of_isDigits wholes).append ((isRun_of_isDigits fractions).cons point)
  | scaledFraction wholes fractions exponent =>
    exact (isRun_of_isDigits wholes).append
      (((isRun_of_isDigits fractions).append exponent.isRun).cons point)
  | scaled wholes exponent => exact (isRun_of_isDigits wholes).append exponent.isRun

theorem Denotes.isRun {w : List Char} {word : Word} (denotes : Denotes w word) : IsRun w := by
  cases denotes with
  | nil => decide
  | true => decide
  | false => decide
  | float literal =>
    obtain ⟨signs, mantissa⟩ := literal
    exact signs.isRun.append mantissa.isRun
  | integer literal => exact literal.isRun
  | oversized literal => exact literal.isRun
  | keyword _ run => exact IsRun.cons (by decide) run
  | symbol starts run => exact IsRun.cons (isSymbolChar_of_starts starts) run

theorem Denotes.nonempty {w : List Char} {word : Word} (denotes : Denotes w word) : w ≠ [] := by
  rintro rfl
  -- the empty word is classified as no word at all
  have none_left : classify [] = .none := rfl
  rw [← classify_of_denotes denotes, none_left] at denotes
  cases denotes

end Factbase.Notation
