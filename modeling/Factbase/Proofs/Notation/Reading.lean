import Factbase.Proofs.Notation.Scan

/-!
# Factbase.Proofs.Notation.Reading

Reading the pieces of the grammar. Inside a bracket they are gathered as the forms they spell, and a
single form outside every bracket is read as the whole.
-/

namespace Factbase.Notation

/-! ### Pieces -/

theorem Delimited.append {cs rest : List Char} (here : Delimited cs) (next : Delimited rest) :
    Delimited (cs ++ rest) := by
  cases cs with
  | nil => exact next
  | cons c cs => exact here

theorem Delimited.of_append {cs rest : List Char} (delimited : Delimited (cs ++ rest)) :
    Delimited cs := by
  cases cs with
  | nil => nofun
  | cons c cs => exact delimited

theorem delimited_closes (b : Bracket) (rest : List Char) : Delimited (b.closes :: rest) := by
  rintro c ⟨⟩
  cases b <;> rfl

theorem Ending.delimited {ending : List Char} (ends : Ending ending) : Delimited ending := by
  cases ends with
  | nothing => nofun
  | comment =>
    rintro c ⟨⟩
    rfl

theorem Leaf.append {first cs rest : List Char} {word : Word} (leaf : Leaf first cs word)
    (next : Delimited rest) : Leaf first (cs ++ rest) word := by
  cases leaf with
  | word denotes delimited => exact .word denotes (delimited.append next)
  | text quoted => exact .text quoted

theorem Leaf.of_append {first cs rest : List Char} {word : Word}
    (leaf : Leaf first (cs ++ rest) word) : Leaf first cs word := by
  cases leaf with
  | word denotes delimited => exact .word denotes delimited.of_append
  | text quoted => exact .text quoted

theorem Leaf.ne_none {first cs : List Char} {word : Word} (leaf : Leaf first cs word) :
    word ≠ .none := by
  rintro rfl
  cases leaf with
  | word denotes => cases denotes

theorem Leaf.length_pos {first cs : List Char} {word : Word} (leaf : Leaf first cs word) :
    0 < first.length := by
  cases leaf with
  | word denotes => exact List.length_pos_iff.mpr denotes.nonempty
  | text => exact Nat.succ_pos _

theorem Separator.length_pos {gap : List Char} (separator : Separator gap) : 0 < gap.length := by
  cases separator <;> exact Nat.succ_pos _

theorem enclosed_append (b : Bracket) (inside cs rest : List Char) :
    b.opens :: (inside ++ b.closes :: cs) ++ rest =
      b.opens :: (inside ++ b.closes :: (cs ++ rest)) := by
  simp

theorem enclosed_length (offset : Nat) (b : Bracket) (inside cs : List Char) :
    offset + (b.opens :: (inside ++ b.closes :: cs)).length =
      offset + inside.length + 2 + cs.length := by
  simp only [List.length_cons, List.length_append]
  omega

/-! ### Misfits -/

/-- The integers among some tokens that do not fit, with their offsets. -/
def misfits (ts : List Token) : List (Nat × String) :=
  ts.filterMap fun t =>
    match t.lexeme with
    | .oversized digits => some (t.offset, digits)
    | _ => none

theorem firstOversized?_eq (ts : List Token) : firstOversized? ts = (misfits ts).head? := by
  rw [misfits, List.head?_filterMap]
  rfl

theorem misfits_leaf (offset : Nat) (word : Word) (ts : List Token) :
    misfits (⟨offset, word.lexeme⟩ :: ts) = word.misfits offset ++ misfits ts := by
  cases word <;> rfl

theorem Forms.misfits_append {offset : Nat} {cs rest : List Char} {fs : List Form}
    {ms : List (Nat × String)} (forms : Forms offset cs fs ms) (next : Delimited rest) :
    misfits (tokensAt offset (cs ++ rest)) =
      ms ++ misfits (tokensAt (offset + cs.length) rest) := by
  induction forms generalizing rest with
  | nil => rfl
  | gap separator _ ih =>
    rw [List.append_assoc, separator.tokensAt_append, ih next, List.length_append, Nat.add_assoc]
  | leaf leaf _ ih =>
    rw [List.append_assoc, (leaf.append next).tokensAt_append, misfits_leaf, ih next,
      List.length_append, Nat.add_assoc, List.append_assoc]
  | @enclosed offset b inside cs _ _ _ ms ms' _ _ _ ih ih' =>
    -- the closing bracket is what the first hypothesis reads up to
    have after : offset + 1 + inside.length + 1 = offset + inside.length + 2 := by omega
    have inner := ih (delimited_closes b (cs ++ rest))
    rw [tokensAt_closing, after] at inner
    rw [enclosed_append, tokensAt_opening, enclosed_length, List.append_assoc, ← ih' next]
    exact inner

/-! ### Brackets -/

theorem pairUp_eq_some {fs : List Form} {entries : List (Form × Form)} :
    pairUp fs = some entries ↔ fs = entries.flatMap fun entry => [entry.1, entry.2] := by
  constructor
  · intro paired
    induction fs using pairUp.induct generalizing entries with
    | case1 => cases paired; rfl
    | case2 => cases paired
    | case3 key value rest ih =>
      obtain ⟨others, rest_paired, rfl⟩ := Option.map_eq_some_iff.mp paired
      rw [ih rest_paired]
      rfl
  · rintro rfl
    induction entries with
    | nil => rfl
    | cons entry entries ih =>
      rw [List.flatMap_cons, List.cons_append, List.cons_append, List.nil_append, pairUp, ih]
      rfl

theorem enclose_eq_some {b : Bracket} {items : List Form} {f : Form} :
    enclose b items = some f ↔ Encloses b items f := by
  constructor
  · intro enclosed
    cases b with
    | square => cases enclosed; exact .square
    | round => cases enclosed; exact .round
    | curly =>
      obtain ⟨entries, paired, rfl⟩ := Option.map_eq_some_iff.mp enclosed
      rw [pairUp_eq_some.mp paired]
      exact .curly
  · rintro ⟨⟩
    · rfl
    · rfl
    · rw [enclose, pairUp_eq_some.mpr rfl]
      rfl

/-! ### Reading on -/

/-- Reading on after a form: it is the whole, or it joins the forms of the innermost bracket. -/
def resume (ending : Nat) (ts : List Token) (f : Form) :
    List Frame → Except Nat (Form × List Token)
  | [] => .ok (f, ts)
  | ⟨b, items⟩ :: outer => read ending ts (⟨b, f :: items⟩ :: outer)

variable {ending offset : Nat} {ts : List Token} {frames outer : List Frame}

theorem read_leaf {first cs : List Char} {word : Word} (leaf : Leaf first cs word) :
    read ending (⟨offset, word.lexeme⟩ :: ts) frames = resume ending ts word.toForm frames := by
  cases word with
  | form f => cases frames <;> rfl
  | oversized digits => cases frames <;> rfl
  | none => exact absurd rfl leaf.ne_none

theorem read_stray : read ending (⟨offset, .stray⟩ :: ts) frames = .error offset := by
  cases frames <;> rfl

theorem read_opening {b : Bracket} {cs : List Char} :
    read ending (tokensAt offset (b.opens :: cs)) frames =
      read ending (tokensAt (offset + 1) cs) (⟨b, []⟩ :: frames) := by
  rw [tokensAt_opening]
  cases frames <;> rfl

theorem read_closing_eq (b c : Bracket) (items : List Form) :
    read ending (⟨offset, .closing c⟩ :: ts) (⟨b, items⟩ :: outer) =
      if c = b then
        (enclose b items.reverse).elim (.error offset) fun f => resume ending ts f outer
      else .error offset := by
  cases enclosed : enclose b items.reverse <;> cases outer <;> simp [read, resume, enclosed]

theorem read_closing {b : Bracket} {items : List Form} {f : Form}
    (encloses : Encloses b items.reverse f) :
    read ending (⟨offset, .closing b⟩ :: ts) (⟨b, items⟩ :: outer) = resume ending ts f outer := by
  rw [read_closing_eq, if_pos rfl, enclose_eq_some.mpr encloses, Option.elim_some]

/-! ### Forms are read -/

theorem read_enclosed {b : Bracket} {inside rest : List Char} {items : List Form} {f : Form}
    (reads : read ending (tokensAt (offset + 1) (inside ++ b.closes :: rest)) (⟨b, []⟩ :: frames) =
      read ending (tokensAt (offset + 1 + inside.length) (b.closes :: rest))
        (⟨b, items.reverse ++ []⟩ :: frames))
    (encloses : Encloses b items f) :
    read ending (tokensAt offset (b.opens :: (inside ++ b.closes :: rest))) frames =
      resume ending (tokensAt (offset + inside.length + 2) rest) f frames := by
  have after : offset + 1 + inside.length + 1 = offset + inside.length + 2 := by omega
  rw [read_opening, reads, tokensAt_closing, after, read_closing]
  rwa [List.append_nil, List.reverse_reverse]

/-- Reading the characters of some forms inside a bracket gathers the forms. -/
theorem Forms.read_append {cs rest : List Char} {fs items : List Form} {ms : List (Nat × String)}
    {b : Bracket} (forms : Forms offset cs fs ms) (next : Delimited rest) :
    read ending (tokensAt offset (cs ++ rest)) (⟨b, items⟩ :: outer) =
      read ending (tokensAt (offset + cs.length) rest) (⟨b, fs.reverse ++ items⟩ :: outer) := by
  induction forms generalizing rest items b outer with
  | nil => rfl
  | gap separator _ ih =>
    rw [List.append_assoc, separator.tokensAt_append, ih next, List.length_append, Nat.add_assoc]
  | leaf leaf _ ih =>
    -- a word must not run into what follows the last form
    rw [List.append_assoc, (leaf.append next).tokensAt_append, read_leaf leaf, resume, ih next]
    simp [Nat.add_assoc]
  | @enclosed _ inner _ _ _ _ _ _ _ _ encloses _ ih ih' =>
    rw [enclosed_append, read_enclosed (ih (delimited_closes inner _)) encloses, resume, ih' next,
      enclosed_length]
    simp

/-- Characters without a form make no tokens. -/
theorem Forms.tokens_eq_nil {cs rest : List Char} {ms : List (Nat × String)}
    (forms : Forms offset cs [] ms) (ends : Ending rest) : tokensAt offset (cs ++ rest) = [] := by
  generalize none_left : [] = fs at forms
  induction forms with
  | nil => exact ends.tokensAt_eq _
  | gap separator _ ih => rw [List.append_assoc, separator.tokensAt_append, ih none_left]
  | leaf => cases none_left
  | enclosed => cases none_left

/-- A single form is read as the whole. -/
theorem Forms.read_single {cs rest : List Char} {f : Form} {ms : List (Nat × String)}
    (forms : Forms offset cs [f] ms) (ends : Ending rest) :
    read ending (tokensAt offset (cs ++ rest)) [] = .ok (f, []) := by
  generalize single : [f] = fs at forms
  -- only separators may stand before the form, so the induction ends where it starts
  induction forms with
  | nil => cases single
  | gap separator _ ih => rw [List.append_assoc, separator.tokensAt_append, ih single]
  | leaf leaf others =>
    cases single
    rw [List.append_assoc, (leaf.append ends.delimited).tokensAt_append, read_leaf leaf,
      others.tokens_eq_nil ends, resume]
  | enclosed inner encloses others =>
    cases single
    rw [enclosed_append, read_enclosed (inner.read_append (delimited_closes _ _)) encloses,
      others.tokens_eq_nil ends, resume]

end Factbase.Notation
