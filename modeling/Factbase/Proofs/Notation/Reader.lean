import Factbase.Proofs.Notation.Interruption

/-!
# Factbase.Proofs.Notation.Reader

The reader accepts the texts of the grammar and no others. A text that is read to its end spells the
form that is read, and a text that spells a form is read so, but for integers that do not fit.
-/

namespace Factbase.Notation

/-! ### Whole texts -/

/-- A text that is read to its end spells the form that is read. -/
theorem exists_forms_single {cs : List Char} {f : Form}
    (reads : read cs.length (tokens cs) [] = .ok (f, [])) :
    ∃ body rest ms, cs = body ++ rest ∧ Forms 0 body [f] ms ∧ Ending rest := by
  rcases read_outside (Nat.zero_add cs.length) with
    ⟨body, rest, g, ms, ts, spelled, forms, ends, -, reads'⟩ | ⟨before, after, -, -, -, fails⟩
  · cases reads.symm.trans reads'
    exact ⟨body, rest, ms, spelled, forms, ends rfl⟩
  · cases reads.symm.trans fails

theorem Forms.misfits_eq {cs rest : List Char} {fs : List Form} {ms : List (Nat × String)}
    (forms : Forms 0 cs fs ms) (ends : Ending rest) : misfits (tokens (cs ++ rest)) = ms := by
  have gathered := forms.misfits_append ends.delimited
  rw [ends.tokensAt_eq] at gathered
  exact gathered.trans (List.append_nil ms)

theorem spells_iff {cs : List Char} {f : Form} {ms : List (Nat × String)} :
    Spells cs f ms ↔
      read cs.length (tokens cs) [] = .ok (f, []) ∧ misfits (tokens cs) = ms := by
  constructor
  · rintro ⟨body, rest, rfl, forms, ends⟩
    exact ⟨forms.read_single ends, forms.misfits_eq ends⟩
  · rintro ⟨reads, rfl⟩
    obtain ⟨body, rest, ms, rfl, forms, ends⟩ := exists_forms_single reads
    exact ⟨body, rest, rfl, forms.misfits_eq ends ▸ forms, ends⟩

theorem parse_of_spells {s : String} {f : Form} {ms : List (Nat × String)}
    (spells : Spells s.toList f ms) :
    parse s = ms.head?.elim (.ok f) fun misfit =>
      .error ⟨.oversized misfit.2, Position.ofOffset s.toList misfit.1⟩ := by
  obtain ⟨reads, rfl⟩ := spells_iff.mp spells
  simp only [parse, parseChars, reads, firstOversized?_eq]
  cases (misfits (tokens s.toList)).head? <;> rfl

theorem parse_of_not_spells {s : String} (shapeless : ∀ f ms, ¬Spells s.toList f ms) :
    ∃ e, parse s = .error e ∧ ∀ digits, e.problem ≠ .oversized digits := by
  cases reads : read s.toList.length (tokens s.toList) [] with
  | error offset =>
    simp only [parse, parseChars, reads]
    refine ⟨_, rfl, fun digits => ?_⟩
    -- wherever the text fails, the fault is one of syntax
    show (if offset = 0 then Problem.noText else Problem.noForm) ≠ .oversized digits
    split <;> nofun
  | ok result =>
    obtain ⟨f, rest⟩ := result
    cases rest with
    | nil => exact absurd (spells_iff.mpr ⟨reads, rfl⟩) (shapeless f _)
    | cons t rest =>
      simp only [parse, parseChars, reads]
      exact ⟨_, rfl, nofun⟩

theorem spells_or_not (s : String) :
    (∃ f ms, Spells s.toList f ms) ∨ ∀ f ms, ¬Spells s.toList f ms := by
  by_cases shaped : ∃ f ms, Spells s.toList f ms
  · exact .inl shaped
  · exact .inr fun f ms spells => shaped ⟨f, ms, spells⟩

theorem parse_eq_ok {s : String} {f : Form} : parse s = .ok f ↔ Spells s.toList f [] := by
  refine ⟨fun parsed => ?_, parse_of_spells⟩
  rcases spells_or_not s with ⟨g, ms, spells⟩ | shapeless
  · rw [parse_of_spells spells] at parsed
    cases ms with
    | nil =>
      cases parsed
      exact spells
    | cons => cases parsed
  · obtain ⟨e, failed, _⟩ := parse_of_not_spells shapeless
    rw [failed] at parsed
    cases parsed

theorem parse_eq_oversized {s digits : String} {position : Position} :
    parse s = .error ⟨.oversized digits, position⟩ ↔
      ∃ f offset others, Spells s.toList f ((offset, digits) :: others) ∧
        position = Position.ofOffset s.toList offset := by
  constructor
  · intro parsed
    rcases spells_or_not s with ⟨g, ms, spells⟩ | shapeless
    · rw [parse_of_spells spells] at parsed
      cases ms with
      | nil => cases parsed
      | cons misfit others =>
        cases parsed
        exact ⟨g, misfit.1, others, spells, rfl⟩
    · obtain ⟨e, failed, syntactic⟩ := parse_of_not_spells shapeless
      rw [failed] at parsed
      cases parsed
      exact absurd rfl (syntactic digits)
  · rintro ⟨f, offset, others, spells, rfl⟩
    exact parse_of_spells spells

/-- A text is read exactly when it spells a form and has no misfit, and as the form it spells. A
text that spells a form and has misfits is faulted for the first of them, and every other text for
its syntax. -/
theorem parse_iff_spells (s : String) :
    (∀ f, parse s = .ok f ↔ Spells s.toList f []) ∧
      (∀ digits position, parse s = .error ⟨.oversized digits, position⟩ ↔
        ∃ f offset others, Spells s.toList f ((offset, digits) :: others) ∧
          position = Position.ofOffset s.toList offset) ∧
      ((∃ e, parse s = .error e ∧ ∀ digits, e.problem ≠ .oversized digits) ↔
        ∀ f ms, ¬Spells s.toList f ms) := by
  refine ⟨fun _ => parse_eq_ok, fun _ _ => parse_eq_oversized, ?_, parse_of_not_spells⟩
  rintro ⟨e, failed, syntactic⟩ f ms spells
  rw [parse_of_spells spells] at failed
  cases ms with
  | nil => cases failed
  | cons misfit others =>
    cases failed
    exact syntactic misfit.2 rfl

end Factbase.Notation
