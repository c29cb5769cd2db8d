import Factbase.Proofs.Notation.Reader

/-!
# Factbase.Proofs.Notation.FirstFault

Where a syntax error points. What stands before the position of the error can be completed to a text
of the grammar, whichever brackets are open there, and no form stands at it: the position is the
first at which something is wrong. An error that asks for the end of the text points behind a text
of the grammar.
-/

namespace Factbase.Notation

/-- The characters are a text of the grammar, though an integer in it may not fit. -/
def Accepted (cs : List Char) : Prop := ∃ f misfits, Spells cs f misfits

/-! ### Positions -/

namespace Position

/-- The position counts the line feeds before it and, on its own line, the characters before it. -/
def Marks (p : Position) (before : List Char) : Prop :=
  p.line = before.count '\n' + 1 ∧ p.column = (before.reverse.takeWhile (· ≠ '\n')).length + 1

instance (p : Position) (before : List Char) : Decidable (p.Marks before) :=
  inferInstanceAs (Decidable (_ ∧ _))

theorem marks_foldl (before : List Char) : (before.foldl advance start).Marks before := by
  induction before using List.reverseRecOn with
  | nil => exact ⟨rfl, rfl⟩
  | append_singleton before c ih =>
    obtain ⟨line, column⟩ := ih
    rw [List.foldl_append]
    by_cases feed : c = '\n'
    · subst feed
      simp [Marks, advance, line]
    · simp [Marks, advance, feed, line, column]

theorem ofOffset_append (before after : List Char) :
    ofOffset (before ++ after) before.length = before.foldl advance start := by
  rw [ofOffset, List.take_left']
  rfl

variable {p : Position} {before gap text : List Char}

theorem Marks.nothing_between (here : p.Marks before) (there : p.Marks (before ++ gap)) :
    gap = [] := by
  have no_feeds : gap.count '\n' = 0 := by
    have lines := here.1.symm.trans there.1
    rw [List.count_append] at lines
    omega
  -- without a line feed the characters between stand on one line, and would be counted there
  have on_line : ∀ c ∈ gap.reverse, decide (c ≠ '\n') = true := by
    intro c member
    rw [decide_eq_true_iff]
    rintro rfl
    exact List.count_eq_zero.mp no_feeds (List.mem_reverse.mp member)
  have columns := here.2.symm.trans there.2
  rw [List.reverse_append, List.takeWhile_append_of_pos on_line, List.length_append,
    List.length_reverse] at columns
  exact List.length_eq_zero_iff.mp (by omega)

/-- A position addresses one place of a text. -/
theorem Marks.unique {before' : List Char} (here : p.Marks before) (there : p.Marks before')
    (starts : before <+: text) (starts' : before' <+: text) : before = before' := by
  rcases List.prefix_or_prefix_of_prefix starts starts' with ⟨gap, rfl⟩ | ⟨gap, rfl⟩
  · rw [here.nothing_between there, List.append_nil]
  · rw [there.nothing_between here, List.append_nil]

end Position

/-! ### Faults -/

theorem Completable.accepted {before : List Char} (begun : Completable 0 Single before) :
    ∃ more, Accepted (before ++ more) := by
  obtain ⟨more, fs, ms, _, forms, f, rfl⟩ := begun
  exact ⟨more, f, ms, before ++ more, [], (List.append_nil _).symm, forms, .nothing⟩

/-- A fault of syntax is found at a place of the text. What stands before it can be completed, and
no form stands there unless the end of the text should. -/
theorem exists_before_fault {cs : List Char} {problem : Problem} {offset : Nat}
    (failed : parseChars cs = .error (problem, offset))
    (syntactic : ∀ digits, problem ≠ .oversized digits) :
    ∃ before after, cs = before ++ after ∧ offset = before.length ∧
      (∃ more, Accepted (before ++ more)) ∧ (problem = .trailing → Accepted before) ∧
      (problem ≠ .trailing → Formless after) := by
  rcases read_outside (Nat.zero_add cs.length) with
    ⟨body, rest, f, ms, ts, spelled, forms, -, next, reads⟩ |
      ⟨before, after, spelled, begun, stuck, fails⟩
  · have accepted : Accepted body := ⟨f, ms, body, [], (List.append_nil _).symm, forms, .nothing⟩
    rw [tokensAt, ← tokens] at reads
    cases ts with
    | nil =>
      -- a text that is read to its end can only be faulted for its integers
      simp only [parseChars, reads] at failed
      split at failed
      next misfit => exact absurd (congrArg Prod.fst (Except.error.inj failed)).symm (syntactic _)
      next => cases failed
    | cons t ts =>
      have place := next t rfl
      simp only [parseChars, reads] at failed
      cases failed
      refine ⟨body, rest, spelled, ?_, ⟨[], ?_⟩, fun _ => accepted, fun other => absurd rfl other⟩
      · rw [place, Nat.zero_add]
      · rwa [List.append_nil]
  · rw [tokensAt, ← tokens] at fails
    simp only [parseChars, fails] at failed
    cases failed
    refine ⟨before, after, spelled, Nat.zero_add _, begun.accepted, fun trailing => ?_,
      fun _ => stuck⟩
    split at trailing <;> cases trailing

theorem message_eq_iff {problem : Problem} (syntactic : ∀ digits, problem ≠ .oversized digits) :
    problem.message = "expected EOI" ↔ problem = .trailing := by
  cases problem with
  | oversized digits => exact absurd rfl (syntactic digits)
  | _ => decide

/-- A fault of syntax addresses a place of the text, or its end. The text before that place is the
beginning of a text of the grammar, and no form stands there. Where the end of the text was expected
the text before it is a text of the grammar itself. -/
theorem parse_fault_position {s : String} {e : SyntaxError} (failed : parse s = .error e)
    (syntactic : ∀ digits, e.problem ≠ .oversized digits) :
    (∃ before after, s.toList = before ++ after ∧ e.position.Marks before) ∧
      ∀ before after, s.toList = before ++ after → e.position.Marks before →
        (∃ more, Accepted (before ++ more)) ∧
          (e.problem.message = "expected EOI" → Accepted before) ∧
          (e.problem.message ≠ "expected EOI" → Formless after) := by
  cases outcome : parseChars s.toList with
  | ok f =>
    rw [parse, outcome] at failed
    cases failed
  | error fault =>
    obtain ⟨problem, offset⟩ := fault
    rw [parse, outcome] at failed
    cases failed
    obtain ⟨before, after, spelled, rfl, completed, ended, stuck⟩ :=
      exists_before_fault outcome syntactic
    have marks : (Position.ofOffset s.toList before.length).Marks before := by
      rw [spelled, Position.ofOffset_append]
      exact Position.marks_foldl before
    refine ⟨⟨before, after, spelled, marks⟩, fun before' after' spelled' marks' => ?_⟩
    have same : before' = before :=
      marks'.unique marks ⟨after', spelled'.symm⟩ ⟨after, spelled.symm⟩
    subst same
    rw [List.append_cancel_left (spelled'.symm.trans spelled), Ne, message_eq_iff syntactic]
    exact ⟨completed, ended, stuck⟩

/-- A map in a list is closed before the value of its last name, and a list is closed that was never
opened. -/
theorem parse_fault_position_closings :
    (parse "[a\n \x7bb\x7d]" = .error ⟨.noForm, ⟨2, 4⟩⟩ ∧
      (∃ more, Accepted ("[a\n \x7bb".toList ++ more)) ∧ Formless "\x7d]".toList) ∧
    parse "a ;\n]" = .error ⟨.trailing, ⟨2, 1⟩⟩ ∧ Accepted "a ;\n".toList := by
  have odd : parse "[a\n \x7bb\x7d]" = .error ⟨.noForm, ⟨2, 4⟩⟩ := rfl
  have trailing : parse "a ;\n]" = .error ⟨.trailing, ⟨2, 1⟩⟩ := rfl
  obtain ⟨completed, -, stuck⟩ := (parse_fault_position odd nofun).2
    "[a\n \x7bb".toList "\x7d]".toList (by decide) (by decide)
  obtain ⟨-, accepted, -⟩ := (parse_fault_position trailing nofun).2
    "a ;\n".toList "]".toList (by decide) (by decide)
  exact ⟨⟨odd, completed, stuck (by decide)⟩, trailing, accepted rfl⟩

end Factbase.Notation
