import Factbase.Proofs.Notation.Reading

/-!
# Factbase.Proofs.Notation.Interruption

What becomes of a reading. Inside a bracket it meets the closing bracket behind forms, and outside
every bracket it reads a form. Otherwise it stops at a place where no form stands, and what it has
read by then can be completed, whichever brackets are open.
-/

namespace Factbase.Notation

variable {ending offset : Nat} {ts : List Token} {frames outer : List Frame}

/-! ### Beginnings that can be completed -/

/-- The characters can be completed so that they spell forms that make a whole. -/
def Completable (offset : Nat) (Whole : List Form → Prop) (before : List Char) : Prop :=
  ∃ more fs ms, Delimited more ∧ Forms offset (before ++ more) fs ms ∧ Whole fs

/-- After the items that are there already, the forms make a sequence. -/
def Fills (b : Bracket) (items fs : List Form) : Prop := ∃ f, Encloses b (items ++ fs) f

def Single (fs : List Form) : Prop := ∃ f, fs = [f]

variable {Whole : List Form → Prop}

theorem fills_cons (b : Bracket) (items : List Form) (f : Form) :
    (fun fs => Fills b items (f :: fs)) = Fills b (items ++ [f]) := by
  funext fs
  simp [Fills]

theorem pairUp_padded (items : List Form) :
    (∃ entries, pairUp items = some entries) ∨
      ∃ entries, pairUp (items ++ [.nil]) = some entries := by
  induction items using pairUp.induct with
  | case1 => exact .inl ⟨[], rfl⟩
  | case2 key => exact .inr ⟨[(key, .nil)], rfl⟩
  | case3 key value rest ih =>
    rcases ih with ⟨entries, paired⟩ | ⟨entries, paired⟩
    · exact .inl ⟨(key, value) :: entries, by simp [pairUp, paired]⟩
    · exact .inr ⟨(key, value) :: entries, by simp [pairUp, paired]⟩

/-- A sequence can end anywhere, for a key without a value can be given one. -/
theorem fills_padded (b : Bracket) (items : List Form) :
    Fills b items [] ∨ Fills b items [.nil] := by
  cases b with
  | square => exact .inl ⟨_, .square⟩
  | round => exact .inl ⟨_, .round⟩
  | curly =>
    rcases pairUp_padded items with ⟨entries, paired⟩ | ⟨entries, paired⟩
    · refine .inl ⟨.map entries, enclose_eq_some.mp ?_⟩
      rw [List.append_nil, enclose, paired]
      rfl
    · refine .inr ⟨.map entries, enclose_eq_some.mp ?_⟩
      rw [enclose, paired]
      rfl

theorem completable_nil (padded : Whole [] ∨ Whole [.nil]) : Completable offset Whole [] := by
  rcases padded with whole | whole
  · exact ⟨[], [], [], nofun, .nil, whole⟩
  · -- a blank keeps the word apart from one that ends here
    have blank : Separator [' '] := .blank rfl
    have word : Leaf "nil".toList [] (.form .nil) := .word .nil nofun
    have forms : Forms offset ([' '] ++ ("nil".toList ++ [])) [.nil] [] :=
      .gap blank (.leaf word .nil)
    refine ⟨_, [.nil], [], ?_, forms, whole⟩
    rintro c ⟨⟩
    rfl

theorem Completable.gap {gap before : List Char} (separator : Separator gap)
    (begun : Completable (offset + gap.length) Whole before) :
    Completable offset Whole (gap ++ before) := by
  obtain ⟨more, fs, ms, next, forms, whole⟩ := begun
  refine ⟨more, fs, ms, next, ?_, whole⟩
  rw [List.append_assoc]
  exact .gap separator forms

theorem Completable.leaf {first before : List Char} {word : Word} (leaf : Leaf first before word)
    (begun : Completable (offset + first.length) (fun fs => Whole (word.toForm :: fs)) before) :
    Completable offset Whole (first ++ before) := by
  obtain ⟨more, fs, ms, next, forms, whole⟩ := begun
  refine ⟨more, word.toForm :: fs, word.misfits offset ++ ms, next, ?_, whole⟩
  rw [List.append_assoc]
  exact .leaf (leaf.append next) forms

theorem Completable.enclosed {b : Bracket} {inside before : List Char} {items : List Form}
    {f : Form} {ms : List (Nat × String)} (forms : Forms (offset + 1) inside items ms)
    (encloses : Encloses b items f)
    (begun : Completable (offset + inside.length + 2) (fun fs => Whole (f :: fs)) before) :
    Completable offset Whole (b.opens :: (inside ++ b.closes :: before)) := by
  obtain ⟨more, fs, ms', next, forms', whole⟩ := begun
  refine ⟨more, f :: fs, ms ++ ms', next, ?_, whole⟩
  rw [enclosed_append]
  exact .enclosed forms encloses forms'

/-- A sequence that is still open is completed first, and then what it stands in. -/
theorem Completable.opened {b : Bracket} {before : List Char}
    (begun : Completable (offset + 1) (Fills b []) before)
    (padded : ∀ f, Whole [f] ∨ Whole [f, .nil]) :
    Completable offset Whole (b.opens :: before) := by
  obtain ⟨more, items, ms, next, forms, f, encloses⟩ := begun
  have closed : Completable offset Whole (b.opens :: ((before ++ more) ++ b.closes :: [])) :=
    .enclosed forms encloses (completable_nil (padded f))
  obtain ⟨more', fs, ms', _, forms', whole⟩ := closed
  refine ⟨more ++ b.closes :: more', fs, ms', next.append (delimited_closes b more'), ?_, whole⟩
  simpa using forms'

theorem Ending.completable {before : List Char} (ends : Ending before)
    (padded : Whole [] ∨ Whole [.nil]) : Completable offset Whole before := by
  cases ends with
  | nothing => exact completable_nil padded
  | @comment body open_line =>
    -- the comment needs the end of its line
    have separator : Separator (';' :: (body ++ ['\n'])) :=
      .comment open_line (List.mem_cons_self ..)
    have ended : Completable offset Whole (';' :: (body ++ ['\n']) ++ []) :=
      .gap separator (completable_nil padded)
    obtain ⟨more, fs, ms, _, forms, whole⟩ := ended
    refine ⟨'\n' :: more, fs, ms, ?_, ?_, whole⟩
    · rintro c ⟨⟩
      rfl
    · simpa using forms

/-! ### What is read is made of forms -/

/-- Separators are passed over up to the next token, or to the end of the text. -/
theorem exists_separators (offset : Nat) (cs : List Char) :
    ∃ gap rest, cs = gap ++ rest ∧ Forms offset gap [] [] ∧
      (tokensAt offset cs = [] → Ending rest) ∧
      ∀ t ∈ (tokensAt offset cs).head?, t.offset = offset + gap.length := by
  induction length : cs.length using Nat.strong_induction_on generalizing offset cs with
  | _ n ih =>
    subst length
    cases begins cs with
    | ending ends =>
      rw [ends.tokensAt_eq]
      exact ⟨[], cs, rfl, .nil, fun _ => ends, nofun⟩
    | @gap first rest separator =>
      have shorter : rest.length < (first ++ rest).length := by
        simpa using separator.length_pos
      rw [separator.tokensAt_append]
      obtain ⟨gap, last, rfl, forms, ends, next⟩ := ih _ shorter (offset + first.length) rest rfl
      rw [Nat.add_assoc, ← List.length_append] at next
      exact ⟨first ++ gap, last, (List.append_assoc ..).symm, .gap separator forms, ends, next⟩
    | leaf leaf =>
      rw [leaf.tokensAt_append]
      exact ⟨[], _, rfl, .nil, nofun, fun t first => by cases first; rfl⟩
    | opening b rest =>
      rw [tokensAt_opening]
      exact ⟨[], _, rfl, .nil, nofun, fun t first => by cases first; rfl⟩
    | closing b rest =>
      rw [tokensAt_closing]
      exact ⟨[], _, rfl, .nil, nofun, fun t first => by cases first; rfl⟩
    | stray stray =>
      obtain ⟨ts, here⟩ := stray offset
      rw [here]
      exact ⟨[], cs, rfl, .nil, nofun, fun t first => by cases first; rfl⟩

/-- Neither a form nor a separator begins the characters. -/
structure Formless (cs : List Char) : Prop where
  no_leaf : ∀ first rest word, cs = first ++ rest → ¬Leaf first rest word
  no_separator : ∀ gap rest, cs = gap ++ rest → ¬Separator gap
  no_sequence : ∀ b rest, cs ≠ Bracket.opens b :: rest

theorem formless_nil : Formless [] where
  no_leaf first rest word spelled leaf := by
    have nonempty := leaf.length_pos
    simp_all
  no_separator gap rest spelled separator := by
    have nonempty := separator.length_pos
    simp_all
  no_sequence := nofun

/-- A token that reading stops at stands where no form is. -/
theorem formless_of_tokensAt {cs : List Char} {lexeme : Lexeme}
    (first_token : tokensAt offset cs = ⟨offset, lexeme⟩ :: ts)
    (stops : lexeme = .stray ∨ ∃ b, lexeme = .closing b) : Formless cs where
  no_leaf first rest word spelled leaf := by
    rw [spelled, leaf.tokensAt_append] at first_token
    cases first_token
    cases word with
    | form f => simp [Word.lexeme] at stops
    | oversized digits => simp [Word.lexeme] at stops
    | none => exact leaf.ne_none rfl
  no_separator gap rest spelled separator := by
    -- behind a separator the token would stand further on
    obtain ⟨gap', _, -, -, -, next⟩ := exists_separators (offset + gap.length) rest
    rw [spelled, separator.tokensAt_append] at first_token
    have further := next _ (by rw [first_token]; rfl)
    have nonempty := separator.length_pos
    simp only at further
    omega
  no_sequence b rest spelled := by
    rw [spelled, tokensAt_opening] at first_token
    cases first_token
    simp at stops

/-! ### Where reading fails -/

/-- A reading fails at a place where no form stands, and what stands before it can be completed. -/
def Stuck (ending offset : Nat) (cs : List Char) (frames : List Frame)
    (Whole : List Form → Prop) : Prop :=
  ∃ before after, cs = before ++ after ∧ Completable offset Whole before ∧ Formless after ∧
    read ending (tokensAt offset cs) frames = .error (offset + before.length)

theorem stuck_here {cs : List Char} (stuck : Formless cs) (padded : Whole [] ∨ Whole [.nil])
    (fails : read ending (tokensAt offset cs) frames = .error offset) :
    Stuck ending offset cs frames Whole :=
  ⟨[], cs, rfl, completable_nil padded, stuck, fails⟩

theorem stuck_stray {cs : List Char} (stray : ∃ ts, tokensAt offset cs = ⟨offset, .stray⟩ :: ts)
    (padded : Whole [] ∨ Whole [.nil]) : Stuck ending offset cs frames Whole := by
  obtain ⟨ts, first⟩ := stray
  refine stuck_here (formless_of_tokensAt first (.inl rfl)) padded ?_
  rw [first, read_stray]

theorem stuck_ending {cs : List Char} (ends : Ending cs) (ends_at : offset + cs.length = ending)
    (padded : Whole [] ∨ Whole [.nil]) : Stuck ending offset cs frames Whole := by
  refine ⟨cs, [], (List.append_nil cs).symm, ends.completable padded, formless_nil, ?_⟩
  rw [ends.tokensAt_eq, ends_at]
  rfl

theorem Stuck.gap {gap cs : List Char} (separator : Separator gap)
    (stuck : Stuck ending (offset + gap.length) cs frames Whole) :
    Stuck ending offset (gap ++ cs) frames Whole := by
  obtain ⟨before, after, rfl, begun, formless, fails⟩ := stuck
  refine ⟨gap ++ before, after, (List.append_assoc ..).symm, .gap separator begun, formless, ?_⟩
  rw [separator.tokensAt_append, fails, List.length_append, ← Nat.add_assoc]

theorem Stuck.opened {b : Bracket} {cs : List Char}
    (stuck : Stuck ending (offset + 1) cs (⟨b, []⟩ :: frames) (Fills b []))
    (padded : ∀ f, Whole [f] ∨ Whole [f, .nil]) :
    Stuck ending offset (b.opens :: cs) frames Whole := by
  obtain ⟨before, after, rfl, begun, formless, fails⟩ := stuck
  refine ⟨b.opens :: before, after, rfl, .opened begun padded, formless, ?_⟩
  rw [read_opening, fails, List.length_cons, Nat.add_comm before.length, ← Nat.add_assoc]

theorem Stuck.leaf {first cs : List Char} {word : Word} {b : Bracket} {items : List Form}
    (leaf : Leaf first cs word)
    (stuck : Stuck ending (offset + first.length) cs (⟨b, word.toForm :: items⟩ :: outer)
      (Fills b (word.toForm :: items).reverse)) :
    Stuck ending offset (first ++ cs) (⟨b, items⟩ :: outer) (Fills b items.reverse) := by
  obtain ⟨before, after, rfl, begun, formless, fails⟩ := stuck
  rw [List.reverse_cons, ← fills_cons] at begun
  refine ⟨first ++ before, after, (List.append_assoc ..).symm, .leaf leaf.of_append begun,
    formless, ?_⟩
  rw [leaf.tokensAt_append, read_leaf leaf, resume, fails, List.length_append, ← Nat.add_assoc]

/-- A reading inside a bracket goes on after the closing bracket and the forms before it. -/
def Closed (ending offset : Nat) (cs : List Char) (b : Bracket) (items : List Form)
    (outer : List Frame) : Prop :=
  ∃ inside rest fs ms f, cs = inside ++ b.closes :: rest ∧ Forms offset inside fs ms ∧
    Encloses b (items.reverse ++ fs) f ∧
    read ending (tokensAt offset cs) (⟨b, items⟩ :: outer) =
      resume ending (tokensAt (offset + inside.length + 1) rest) f outer

theorem Closed.gap {gap cs : List Char} {b : Bracket} {items : List Form}
    (separator : Separator gap) (closed : Closed ending (offset + gap.length) cs b items outer) :
    Closed ending offset (gap ++ cs) b items outer := by
  obtain ⟨inside, rest, fs, ms, f, rfl, forms, encloses, reads⟩ := closed
  refine ⟨gap ++ inside, rest, fs, ms, f, (List.append_assoc ..).symm, .gap separator forms,
    encloses, ?_⟩
  rw [separator.tokensAt_append, reads, List.length_append, ← Nat.add_assoc]

theorem Closed.leaf {first cs : List Char} {word : Word} {b : Bracket} {items : List Form}
    (leaf : Leaf first cs word)
    (closed : Closed ending (offset + first.length) cs b (word.toForm :: items) outer) :
    Closed ending offset (first ++ cs) b items outer := by
  obtain ⟨inside, rest, fs, ms, f, rfl, forms, encloses, reads⟩ := closed
  rw [List.reverse_cons, List.append_assoc, List.singleton_append] at encloses
  refine ⟨first ++ inside, rest, word.toForm :: fs, word.misfits offset ++ ms, f,
    (List.append_assoc ..).symm, .leaf leaf.of_append forms, encloses, ?_⟩
  rw [leaf.tokensAt_append, read_leaf leaf, resume, reads, List.length_append, ← Nat.add_assoc]

/-- A closing bracket ends the innermost sequence, or it stands where a form should. -/
theorem closed_or_stuck (c b : Bracket) (items : List Form) (outer : List Frame)
    (rest : List Char) :
    Closed ending offset (c.closes :: rest) b items outer ∨
      Stuck ending offset (c.closes :: rest) (⟨b, items⟩ :: outer) (Fills b items.reverse) := by
  have formless : Formless (c.closes :: rest) :=
    formless_of_tokensAt (tokensAt_closing c rest offset) (.inr ⟨c, rfl⟩)
  have reads : read ending (tokensAt offset (c.closes :: rest)) (⟨b, items⟩ :: outer) =
      if c = b then
        (enclose b items.reverse).elim (.error offset) fun f =>
          resume ending (tokensAt (offset + 1) rest) f outer
      else .error offset := by
    rw [tokensAt_closing, read_closing_eq]
  by_cases same : c = b
  · subst same
    rw [if_pos rfl] at reads
    cases enclosed : enclose c items.reverse with
    | none =>
      rw [enclosed] at reads
      exact .inr (stuck_here formless (fills_padded ..) reads)
    | some f =>
      rw [enclosed] at reads
      refine .inl ⟨[], rest, [], [], f, rfl, .nil, ?_, reads⟩
      rw [List.append_nil]
      exact enclose_eq_some.mp enclosed
  · rw [if_neg same] at reads
    exact .inr (stuck_here formless (fills_padded ..) reads)

section

variable {b c : Bracket} {items gs : List Form} {inside after : List Char} {g : Form}
  {ms : List (Nat × String)} (forms : Forms (offset + 1) inside gs ms) (encloses : Encloses b gs g)
  (reads : read ending (tokensAt (offset + 1) (inside ++ b.closes :: after))
      (⟨b, []⟩ :: ⟨c, items⟩ :: outer) =
    resume ending (tokensAt (offset + 1 + inside.length + 1) after) g (⟨c, items⟩ :: outer))

include reads

theorem read_sequence :
    read ending (tokensAt offset (b.opens :: (inside ++ b.closes :: after))) (⟨c, items⟩ :: outer) =
      read ending (tokensAt (offset + inside.length + 2) after) (⟨c, g :: items⟩ :: outer) := by
  have middle : offset + 1 + inside.length + 1 = offset + inside.length + 2 := by omega
  rw [read_opening, reads, resume, middle]

include forms encloses

theorem Closed.enclosed
    (closed : Closed ending (offset + inside.length + 2) after c (g :: items) outer) :
    Closed ending offset (b.opens :: (inside ++ b.closes :: after)) c items outer := by
  obtain ⟨others, rest, fs, ms', f, rfl, forms', encloses', reads'⟩ := closed
  rw [List.reverse_cons, List.append_assoc, List.singleton_append] at encloses'
  refine ⟨b.opens :: (inside ++ b.closes :: others), rest, g :: fs, ms ++ ms', f,
    (enclosed_append ..).symm, .enclosed forms encloses forms', encloses', ?_⟩
  rw [read_sequence reads, reads', enclosed_length]

theorem Stuck.enclosed
    (stuck : Stuck ending (offset + inside.length + 2) after (⟨c, g :: items⟩ :: outer)
      (Fills c (g :: items).reverse)) :
    Stuck ending offset (b.opens :: (inside ++ b.closes :: after)) (⟨c, items⟩ :: outer)
      (Fills c items.reverse) := by
  obtain ⟨before, rest, rfl, begun, formless, fails⟩ := stuck
  rw [List.reverse_cons, ← fills_cons] at begun
  refine ⟨b.opens :: (inside ++ b.closes :: before), rest, (enclosed_append ..).symm,
    .enclosed forms encloses begun, formless, ?_⟩
  rw [read_sequence reads, fails, enclosed_length]

end

/-- A reading inside a bracket goes on after the closing bracket, or it fails where no form stands
and what stands before can be completed. -/
theorem read_inside {cs : List Char} (b : Bracket) (items : List Form) (outer : List Frame)
    (ends_at : offset + cs.length = ending) :
    Closed ending offset cs b items outer ∨
      Stuck ending offset cs (⟨b, items⟩ :: outer) (Fills b items.reverse) := by
  -- by the number of characters left, for brackets opened on the way are closed first
  induction length : cs.length using Nat.strong_induction_on
    generalizing offset cs b items outer with
  | _ n ih =>
    subst length
    cases begins cs with
    | ending ends => exact .inr (stuck_ending ends ends_at (fills_padded ..))
    | @gap gap rest separator =>
      have shorter : rest.length < (gap ++ rest).length := by
        simpa using separator.length_pos
      rw [List.length_append, ← Nat.add_assoc] at ends_at
      exact (ih _ shorter b items outer ends_at rfl).imp (.gap separator) (.gap separator)
    | @leaf first rest word leaf =>
      have shorter : rest.length < (first ++ rest).length := by
        simpa using leaf.length_pos
      rw [List.length_append, ← Nat.add_assoc] at ends_at
      exact (ih _ shorter b (word.toForm :: items) outer ends_at rfl).imp (.leaf leaf) (.leaf leaf)
    | opening b' rest =>
      rw [List.length_cons, Nat.add_comm rest.length, ← Nat.add_assoc] at ends_at
      -- the sequence that opens here is read to its end, and then the rest of the outer one
      rcases ih _ (Nat.lt_succ_self _) b' [] (⟨b, items⟩ :: outer) ends_at rfl with
        ⟨inside, after, gs, ms, g, rfl, forms, encloses, reads⟩ | stuck
      · have shorter : after.length < (b'.opens :: (inside ++ b'.closes :: after)).length := by
          simp only [List.length_cons, List.length_append]
          omega
        have ends_after : offset + inside.length + 2 + after.length = ending := by
          rw [← ends_at, List.length_append, List.length_cons]
          omega
        exact (ih _ shorter b (g :: items) outer ends_after rfl).imp
          (.enclosed forms encloses reads) (.enclosed forms encloses reads)
      · refine .inr (stuck.opened fun g => ?_)
        simpa [Fills] using fills_padded b (items.reverse ++ [g])
    | closing c rest => exact closed_or_stuck c b items outer rest
    | stray stray => exact .inr (stuck_stray (stray offset) (fills_padded ..))

/-- A reading outside every bracket reads a form and the separators after it, or it fails where no
form stands and what stands before can be completed to spell one. -/
theorem read_outside {cs : List Char} (ends_at : offset + cs.length = ending) :
    (∃ body rest f ms ts, cs = body ++ rest ∧ Forms offset body [f] ms ∧
      (ts = [] → Ending rest) ∧ (∀ t ∈ ts.head?, t.offset = offset + body.length) ∧
      read ending (tokensAt offset cs) [] = .ok (f, ts)) ∨
    Stuck ending offset cs [] Single := by
  have padded : Single [] ∨ Single [.nil] := .inr ⟨.nil, rfl⟩
  induction length : cs.length using Nat.strong_induction_on generalizing offset cs with
  | _ n ih =>
    subst length
    cases begins cs with
    | ending ends => exact .inr (stuck_ending ends ends_at padded)
    | @gap gap rest separator =>
      have shorter : rest.length < (gap ++ rest).length := by
        simpa using separator.length_pos
      rw [List.length_append, ← Nat.add_assoc] at ends_at
      rcases ih _ shorter ends_at rfl with
        ⟨body, last, f, ms, ts, rfl, forms, ends, next, reads⟩ | stuck
      · rw [Nat.add_assoc, ← List.length_append] at next
        rw [separator.tokensAt_append]
        exact .inl ⟨gap ++ body, last, f, ms, ts, (List.append_assoc ..).symm,
          .gap separator forms, ends, next, reads⟩
      · exact .inr (stuck.gap separator)
    | @leaf first rest word leaf =>
      obtain ⟨gap, last, rfl, forms, ends, next⟩ :=
        exists_separators (offset + first.length) rest
      rw [Nat.add_assoc, ← List.length_append] at next
      refine .inl ⟨first ++ gap, last, word.toForm, _, _, (List.append_assoc ..).symm,
        .leaf leaf.of_append forms, ends, next, ?_⟩
      rw [leaf.tokensAt_append, read_leaf leaf, resume]
    | opening b rest =>
      rw [List.length_cons, Nat.add_comm rest.length, ← Nat.add_assoc] at ends_at
      rcases read_inside b [] [] ends_at with
        ⟨inside, after, items, ms, f, rfl, forms, encloses, reads⟩ | stuck
      · have middle : offset + 1 + inside.length + 1 = offset + inside.length + 2 := by omega
        rw [middle] at reads
        obtain ⟨gap, last, rfl, forms', ends, next⟩ :=
          exists_separators (offset + inside.length + 2) after
        rw [← enclosed_length] at next
        rw [read_opening]
        exact .inl ⟨b.opens :: (inside ++ b.closes :: gap), last, f, _, _,
          (enclosed_append ..).symm, .enclosed forms encloses forms', ends, next, reads⟩
      · exact .inr (stuck.opened fun f => .inl ⟨f, rfl⟩)
    | closing b rest =>
      have formless : Formless (b.closes :: rest) :=
        formless_of_tokensAt (tokensAt_closing b rest offset) (.inr ⟨b, rfl⟩)
      refine .inr (stuck_here formless padded ?_)
      rw [tokensAt_closing]
      rfl
    | stray stray => exact .inr (stuck_stray (stray offset) padded)

end Factbase.Notation
