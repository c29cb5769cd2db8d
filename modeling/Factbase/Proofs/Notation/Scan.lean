import Factbase.Proofs.Notation.Word

/-!
# Factbase.Proofs.Notation.Scan

What the scanner makes of each piece of the grammar, whatever follows it. Every text begins with a
piece or with a stray token.
-/

namespace Factbase.Notation

/-- The tokens of a text that starts at the given offset. -/
def tokensAt (offset : Nat) (cs : List Char) : List Token := scan cs offset .between

/-! ### Separators -/

theorem scan_comment {body rest : List Char} {offset : Nat}
    (open_line : ∀ c ∈ body, endsLine c = false) :
    scan (body ++ rest) offset .comment = scan rest (offset + body.length) .comment := by
  induction body generalizing offset with
  | nil => rfl
  | cons c body ih =>
    have here := open_line c (List.mem_cons_self ..)
    rw [List.cons_append, scan, here]
    rw [if_neg Bool.false_ne_true, ih fun d hd => open_line d (List.mem_cons_of_mem _ hd)]
    rw [List.length_cons, Nat.add_right_comm, Nat.add_assoc]

theorem tokensAt_blank {c : Char} {cs : List Char} {offset : Nat} (blank : isBlank c = true) :
    tokensAt offset (c :: cs) = tokensAt (offset + 1) cs := by
  simp only [tokensAt, scan, start, blank, if_true, Option.toList_none, List.nil_append]

theorem tokensAt_semicolon {cs : List Char} {offset : Nat} :
    tokensAt offset (';' :: cs) = scan cs (offset + 1) .comment := rfl

theorem Separator.tokensAt_append {gap : List Char} (separator : Separator gap) (cs : List Char)
    (offset : Nat) : tokensAt offset (gap ++ cs) = tokensAt (offset + gap.length) cs := by
  cases separator with
  | blank blank => exact tokensAt_blank blank
  | @comment body lineEnd open_line ends =>
    rw [List.cons_append, List.append_assoc, tokensAt_semicolon, scan_comment open_line]
    simp only [List.mem_cons, List.not_mem_nil, or_false] at ends
    -- the line feed of a CR LF is scanned as a blank
    rcases ends with rfl | rfl | rfl
    all_goals
      rw [List.length_cons, List.length_append]
      show tokensAt _ cs = tokensAt _ cs
      congr 1
      simp only [List.length_cons, List.length_nil]
      omega

theorem Ending.tokensAt_eq {ending : List Char} (ends : Ending ending) (offset : Nat) :
    tokensAt offset ending = [] := by
  cases ends with
  | nothing => rfl
  | @comment body open_line =>
    rw [tokensAt_semicolon, ← List.append_nil body, scan_comment open_line]
    rfl

/-! ### Words -/

theorem symbolChar_apart {c : Char} (symbol : isSymbolChar c = true) :
    isBlank c = false ∧ c ≠ ';' ∧ c ≠ '"' := by
  refine ⟨?_, ?_, ?_⟩
  · by_contra blank
    simp only [isBlank, Bool.not_eq_false, Bool.or_eq_true, beq_iff_eq] at blank
    rcases blank with (((rfl | rfl) | rfl) | rfl) | rfl
    all_goals exact absurd symbol (by decide)
  · rintro rfl
    exact absurd symbol (by decide)
  · rintro rfl
    exact absurd symbol (by decide)

theorem scan_word {w rest read : List Char} {begin offset : Nat} (run : IsRun w)
    (delimited : Delimited rest) :
    scan (w ++ rest) offset (.word begin read) =
      wordToken begin (w.reverse ++ read) :: tokensAt (offset + w.length) rest := by
  induction w generalizing offset read with
  | nil =>
    -- what ends a word is scanned again as the start of something else
    cases rest with
    | nil => rfl
    | cons c rest =>
      have ends : isSymbolChar c = false := delimited c rfl
      rw [List.nil_append, scan, ends, if_neg Bool.false_ne_true]
      rfl
  | cons c w ih =>
    have symbol := run c (List.mem_cons_self ..)
    rw [List.cons_append, scan, if_pos symbol, ih fun d hd => run d (List.mem_cons_of_mem _ hd)]
    rw [List.reverse_cons, List.append_assoc, List.singleton_append, List.length_cons,
      Nat.add_right_comm, Nat.add_assoc]

theorem tokensAt_run {w rest : List Char} {offset : Nat} (run : IsRun w) (nonempty : w ≠ [])
    (delimited : Delimited rest) :
    tokensAt offset (w ++ rest) =
      wordToken offset w.reverse :: tokensAt (offset + w.length) rest := by
  obtain ⟨c, w, rfl⟩ := List.exists_cons_of_ne_nil nonempty
  have symbol := run c (List.mem_cons_self ..)
  obtain ⟨not_blank, not_comment, not_quote⟩ := symbolChar_apart symbol
  have begun : tokensAt offset (c :: (w ++ rest)) =
      scan (w ++ rest) (offset + 1) (.word offset [c]) := by
    simp only [tokensAt, scan, start, not_blank, not_comment, not_quote, symbol, if_true,
      Bool.false_eq_true, if_false, Option.toList_none, List.nil_append]
  rw [List.cons_append, begun, scan_word (fun d hd => run d (List.mem_cons_of_mem _ hd)) delimited]
  rw [List.reverse_cons, List.length_cons, Nat.add_right_comm, Nat.add_assoc]

/-- What a word becomes. -/
def Word.lexeme : Word → Lexeme
  | .form f => .form f
  | .oversized digits => .oversized digits
  | .none => .stray

theorem wordToken_eq (offset : Nat) (w : List Char) :
    wordToken offset w.reverse = ⟨offset, (classify w).lexeme⟩ := by
  rw [wordToken, List.reverse_reverse]
  cases classify w <;> rfl

/-! ### Texts -/

theorem Quoted.unescape_eq {raw chars : List Char} (quoted : Quoted raw chars) :
    Text.unescape raw = chars := by
  induction quoted with
  | nil => rfl
  | plain _ not_escape _ ih =>
    unfold Text.unescape
    split
    next none_left => cases none_left
    next first => exact absurd (List.cons.inj first).1 not_escape
    next first => exact absurd (List.cons.inj first).1 not_escape
    next first => rw [(List.cons.inj first).1, ← (List.cons.inj first).2, ih]
  | escape _ ih => rw [Text.unescape, ih]

theorem scan_text {raw chars rest read : List Char} {begin offset : Nat}
    (quoted : Quoted raw chars) :
    scan (raw ++ '"' :: rest) offset (.text begin read false) =
      textToken begin (raw.reverse ++ read) :: tokensAt (offset + raw.length + 1) rest := by
  induction quoted generalizing offset read with
  | nil => rfl
  | plain not_quote not_escape _ ih =>
    rw [List.cons_append, scan, if_neg Bool.false_ne_true, if_neg not_escape, if_neg not_quote, ih]
    rw [List.reverse_cons, List.append_assoc, List.singleton_append, List.length_cons]
    congr 2
    omega
  | escape _ ih =>
    rw [List.cons_append, List.cons_append, scan, if_neg Bool.false_ne_true, if_pos rfl, scan,
      if_pos rfl, ih]
    simp only [List.reverse_cons, List.append_assoc, List.singleton_append, List.length_cons]
    congr 2
    omega

theorem Leaf.tokensAt_append {first rest : List Char} {word : Word} (leaf : Leaf first rest word)
    (offset : Nat) :
    tokensAt offset (first ++ rest) =
      ⟨offset, word.lexeme⟩ :: tokensAt (offset + first.length) rest := by
  cases leaf with
  | word denotes delimited =>
    rw [tokensAt_run denotes.isRun denotes.nonempty delimited, wordToken_eq,
      classify_of_denotes denotes]
  | @text raw chars _ quoted =>
    have begun : tokensAt offset ('"' :: (raw ++ ['"']) ++ rest) =
        scan (raw ++ '"' :: rest) (offset + 1) (.text offset [] false) := by
      rw [List.cons_append, List.append_assoc]
      rfl
    rw [begun, scan_text quoted, textToken, List.append_nil, List.reverse_reverse,
      quoted.unescape_eq, List.length_cons, List.length_append, Word.lexeme]
    congr 2
    simp only [List.length_cons, List.length_nil]
    omega

/-- A text that is not closed makes a stray token. -/
theorem exists_quoted (cs : List Char) :
    (∃ raw chars rest, cs = raw ++ '"' :: rest ∧ Quoted raw chars) ∨
      ∀ begin offset read, scan cs offset (.text begin read false) = [⟨begin, .stray⟩] := by
  induction cs using Text.unescape.induct with
  | case1 => exact .inr fun _ _ _ => rfl
  | case2 => exact .inr fun _ _ _ => rfl
  | case3 c rest ih =>
    -- an escaped quote does not close the text
    rcases ih with ⟨raw, chars, rest, rfl, quoted⟩ | stray
    · exact .inl ⟨'\\' :: c :: raw, _, rest, rfl, .escape quoted⟩
    · exact .inr fun begin offset read => stray begin (offset + 2) (c :: '\\' :: read)
  | case4 c rest last more ih =>
    have not_escape : c ≠ '\\' := by
      intro escape
      cases rest with
      | nil => exact last escape rfl
      | cons d rest => exact more d rest escape rfl
    by_cases quote : c = '"'
    · subst quote
      exact .inl ⟨[], [], rest, rfl, .nil⟩
    · rcases ih with ⟨raw, chars, rest, rfl, quoted⟩ | stray
      · exact .inl ⟨c :: raw, _, rest, rfl, .plain quote not_escape quoted⟩
      · refine .inr fun begin offset read => ?_
        rw [scan, if_neg Bool.false_ne_true, if_neg not_escape, if_neg quote, stray]

/-! ### Brackets -/

theorem tokensAt_opening (b : Bracket) (cs : List Char) (offset : Nat) :
    tokensAt offset (b.opens :: cs) = ⟨offset, .opening b⟩ :: tokensAt (offset + 1) cs := by
  cases b <;> rfl

theorem tokensAt_closing (b : Bracket) (cs : List Char) (offset : Nat) :
    tokensAt offset (b.closes :: cs) = ⟨offset, .closing b⟩ :: tokensAt (offset + 1) cs := by
  cases b <;> rfl

theorem opening?_eq_some {c : Char} {b : Bracket} (found : opening? c = some b) :
    c = b.opens := by
  simp only [opening?] at found
  split_ifs at found with square round curly
  · cases found; exact square
  · cases found; exact round
  · cases found; exact curly

theorem closing?_eq_some {c : Char} {b : Bracket} (found : closing? c = some b) :
    c = b.closes := by
  simp only [closing?] at found
  split_ifs at found with square round curly
  · cases found; exact square
  · cases found; exact round
  · cases found; exact curly

/-! ### Beginnings -/

/-- What a text begins with. -/
inductive Begins : List Char → Prop
  | ending {cs : List Char} : Ending cs → Begins cs
  | gap {gap rest : List Char} : Separator gap → Begins (gap ++ rest)
  | leaf {first rest : List Char} {word : Word} : Leaf first rest word → Begins (first ++ rest)
  | opening (b : Bracket) (rest : List Char) : Begins (b.opens :: rest)
  | closing (b : Bracket) (rest : List Char) : Begins (b.closes :: rest)
  | stray {cs : List Char} :
      (∀ offset, ∃ ts, tokensAt offset cs = ⟨offset, .stray⟩ :: ts) → Begins cs

theorem begins_comment (cs : List Char) : Begins (';' :: cs) := by
  -- the comment runs to the first end of a line, if there is one
  obtain ⟨body, rest, rfl, open_line, stops⟩ := exists_run (fun c => !endsLine c) cs
  simp only [Bool.not_eq_true', Bool.not_eq_false'] at open_line stops
  cases rest with
  | nil =>
    rw [List.append_nil]
    exact .ending (.comment open_line)
  | cons c rest =>
    have ends : endsLine c = true := stops c rfl
    have line_end : [c] ∈ [['\n'], ['\r', '\n'], ['\r']] := by
      simpa [endsLine] using ends
    have split_line : ';' :: (body ++ c :: rest) = (';' :: (body ++ [c])) ++ rest := by simp
    rw [split_line]
    exact .gap (.comment open_line line_end)

theorem begins_word {c : Char} {cs : List Char} (symbol : isSymbolChar c = true) :
    Begins (c :: cs) := by
  obtain ⟨w, rest, spelled, run, stops⟩ := exists_run isSymbolChar (c :: cs)
  have nonempty : w ≠ [] := by
    rintro rfl
    rw [List.nil_append] at spelled
    have other := stops c (by rw [← spelled]; rfl)
    rw [symbol] at other
    cases other
  rw [spelled]
  -- a run that denotes nothing is a stray token
  by_cases some_word : classify w = .none
  · refine .stray fun offset => ⟨tokensAt (offset + w.length) rest, ?_⟩
    rw [tokensAt_run run nonempty stops, wordToken_eq, some_word]
    rfl
  · exact .leaf (.word (denotes_classify nonempty run some_word) stops)

theorem begins_text (cs : List Char) : Begins ('"' :: cs) := by
  rcases exists_quoted cs with ⟨raw, chars, rest, rfl, quoted⟩ | stray
  · have spelled : '"' :: (raw ++ '"' :: rest) = '"' :: (raw ++ ['"']) ++ rest := by simp
    rw [spelled]
    exact .leaf (.text quoted)
  · exact .stray fun offset => ⟨[], stray offset (offset + 1) []⟩

theorem begins (cs : List Char) : Begins cs := by
  cases cs with
  | nil => exact .ending .nothing
  | cons c cs =>
    by_cases blank : isBlank c = true
    · have separator : Separator [c] := .blank blank
      exact .gap separator
    by_cases comment : c = ';'
    · subst comment
      exact begins_comment cs
    by_cases quote : c = '"'
    · subst quote
      exact begins_text cs
    by_cases symbol : isSymbolChar c = true
    · exact begins_word symbol
    cases opens : opening? c with
    | some b =>
      rw [opening?_eq_some opens]
      exact .opening b cs
    | none =>
      cases closes : closing? c with
      | some b =>
        rw [closing?_eq_some closes]
        exact .closing b cs
      | none =>
        refine .stray fun offset => ⟨[], ?_⟩
        simp only [tokensAt, scan, start, blank, comment, quote, symbol, opens, closes, if_false,
          Bool.false_eq_true, Option.toList_some]

end Factbase.Notation
