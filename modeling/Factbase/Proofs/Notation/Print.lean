import Factbase.Proofs.Draft
import Factbase.Proofs.Notation.Numeral
import Factbase.Proofs.Notation.Reader

/-!
# Factbase.Proofs.Notation.Print

A form that was read is printed as a text that is read as the same form. What can be read is told
by the words that denote it, so no symbol is printed that reads as a constant or a numeral.
-/

namespace Factbase.Notation

/-! ### Forms that are spelled -/

/-- The forms that a text can spell. -/
inductive Spelled : Form → Prop
  | word {w : List Char} {f : Form} : Denotes w (.form f) → Spelled f
  | text {t : String} : Spelled (.text t)
  | list {items : List Form} : (∀ item ∈ items, Spelled item) → Spelled (.list items)
  | map {entries : List (Form × Form)} :
      (∀ item ∈ entries.flatMap fun entry => [entry.1, entry.2], Spelled item) →
      Spelled (.map entries)

theorem Leaf.spelled {first cs : List Char} {word : Word} (leaf : Leaf first cs word) :
    Spelled word.toForm := by
  cases leaf with
  | text => exact .text
  | @word _ _ word denotes =>
    cases word with
    | form f => exact .word denotes
    | oversized digits => exact .word .nil
    | none => cases denotes

theorem Encloses.spelled {b : Bracket} {items : List Form} {f : Form}
    (encloses : Encloses b items f) (inside : ∀ item ∈ items, Spelled item) : Spelled f := by
  cases encloses with
  | square => exact .list inside
  | round => exact .list inside
  | curly => exact .map inside

theorem Forms.spelled {offset : Nat} {cs : List Char} {fs : List Form} {ms : List (Nat × String)}
    (forms : Forms offset cs fs ms) : ∀ f ∈ fs, Spelled f := by
  induction forms with
  | nil => nofun
  | gap _ _ ih => exact ih
  | leaf leaf _ ih => exact List.forall_mem_cons.mpr ⟨leaf.spelled, ih⟩
  | enclosed _ encloses _ ih ih' => exact List.forall_mem_cons.mpr ⟨encloses.spelled ih, ih'⟩

/-! ### Words -/

theorem FloatLiteral.isFinite {w : List Char} {x : Binary64} (literal : FloatLiteral w x)
    (finite : x.isInfinite = false) : x.isFinite = true := by
  have number : x.isNaN = false := by
    obtain ⟨_, _⟩ := literal
    exact Decimal.isNaN_toBinary64 _ _
  simp only [Binary64.isNaN, Binary64.isInfinite, decide_eq_false_iff_not, beq_eq_false_iff_ne]
    at number finite
  rw [Binary64.isFinite, decide_eq_true_eq]
  omega

/-- What a word denotes is denoted by the text of that form too. -/
theorem denotes_render {w : List Char} {f : Form} (denotes : Denotes w (.form f))
    (finite : ∀ x, f = .float x → x.isInfinite = false) : Denotes f.render.toList (.form f) := by
  cases denotes with
  | nil => exact .nil
  | true => exact .true
  | false => exact .false
  | float literal => exact .float (floatLiteral_render (literal.isFinite (finite _ rfl)))
  | @integer _ n _ fits =>
    have fits' : fitsInt64 (Int64.ofInt n).toInt = true := by
      rw [fitsInt64, Bool.and_eq_true, decide_eq_true_eq, decide_eq_true_eq]
      exact ⟨Int64.minValue_le_toInt _, Int64.toInt_le _⟩
    have denoted := Denotes.integer (integerLiteral_toString _) fits'
    rwa [Int64.ofInt_toInt] at denoted
  | @keyword name nonempty run =>
    have spelled : (Form.keyword (String.ofList name)).render.toList = ':' :: name := by
      simp [Form.render]
    rw [spelled]
    exact .keyword nonempty run
  | @symbol c rest starts run free =>
    have spelled : (Form.symbol (String.ofList (c :: rest))).render.toList = c :: rest := by
      simp [Form.render]
    rw [spelled]
    exact .symbol starts run free

/-! ### Texts -/

/-- A character that stands between quotes as it is, or with an escape that is read back. -/
def Shown (c : Char) : Prop :=
  Text.escape c = [c] ∨
    Text.escape c ∈ [['\\', '"'], ['\\', '\\'], ['\\', 'n'], ['\\', 't'], ['\\', 'r']]

/-- An escape of two characters is read back, but for the one of the null character. -/
theorem escaped_of_escape {c d : Char} (spelled : Text.escape c = ['\\', d]) :
    d = '0' ∨ Text.escaped d = c := by
  unfold Text.escape at spelled
  split_ifs at spelled with null tab carriage feed quote backslash
  · cases spelled
    exact .inl rfl
  · cases spelled
    exact .inr tab.symm
  · cases spelled
    exact .inr carriage.symm
  · cases spelled
    exact .inr feed.symm
  · cases spelled
    exact .inr quote.symm
  · cases spelled
    exact .inr backslash.symm
  · have long := congrArg List.length spelled
    simp at long
  · cases spelled

theorem Shown.quoted {c : Char} (shown : Shown c) : Quoted (Text.escape c) [c] := by
  rcases shown with plain | escaped
  · -- quotes and backslashes are never shown as they are
    rw [plain]
    refine .plain ?_ ?_ .nil
    · rintro rfl
      exact absurd plain (by decide)
    · rintro rfl
      exact absurd plain (by decide)
  · obtain ⟨d, spelled, not_null⟩ : ∃ d, Text.escape c = ['\\', d] ∧ d ≠ '0' := by
      simp only [List.mem_cons, List.not_mem_nil, or_false] at escaped
      rcases escaped with spelled | spelled | spelled | spelled | spelled
      all_goals exact ⟨_, spelled, by decide⟩
    have back := (escaped_of_escape spelled).resolve_left not_null
    rw [spelled, ← back]
    exact .escape .nil

theorem Quoted.append {raw raw' cs cs' : List Char} (first : Quoted raw cs)
    (next : Quoted raw' cs') : Quoted (raw ++ raw') (cs ++ cs') := by
  induction first with
  | nil => exact next
  | plain not_quote not_escape _ ih => exact .plain not_quote not_escape ih
  | escape _ ih => exact .escape ih

theorem quoted_flatMap {cs : List Char} (shown : ∀ c ∈ cs, Shown c) :
    Quoted (cs.flatMap Text.escape) cs := by
  induction cs with
  | nil => exact .nil
  | cons c cs ih =>
    obtain ⟨here, others⟩ := List.forall_mem_cons.mp shown
    exact here.quoted.append (ih others)

/-! ### Sequences -/

/-- A form whose text spells it before everything that ends a word. -/
def Prints (f : Form) : Prop :=
  ∀ offset cs fs ms, Delimited cs → Forms (offset + f.render.toList.length) cs fs ms →
    Forms offset (f.render.toList ++ cs) (f :: fs) ms

theorem prints_leaf {f : Form}
    (leaf : ∀ after, Delimited after → Leaf f.render.toList after (.form f)) : Prints f :=
  fun _ cs _ _ delimited forms => .leaf (leaf cs delimited) forms

theorem prints_text {t : String} (shown : ∀ c ∈ t.toList, Shown c) : Prints (.text t) := by
  refine prints_leaf fun after _ => ?_
  have spelled : (Form.text t).render.toList =
      '"' :: (t.toList.flatMap Text.escape ++ ['"']) := by
    simp [Form.render, Text.quote, Text.quotedChars]
  have leaf : Leaf _ after _ := .text (quoted_flatMap shown)
  rwa [String.ofList_toList, ← spelled] at leaf

theorem forms_renderItems {items : List Form} (prints : ∀ item ∈ items, Prints item)
    (offset : Nat) : Forms offset (Form.renderItems items).toList items [] := by
  induction items generalizing offset with
  | nil => exact .nil
  | cons item rest ih =>
    obtain ⟨here, others⟩ := List.forall_mem_cons.mp prints
    cases rest with
    | nil =>
      have alone := here offset [] [] [] nofun .nil
      rwa [List.append_nil] at alone
    | cons next rest =>
      -- the blank between two items ends a word and is skipped
      have spelled : (Form.renderItems (item :: next :: rest)).toList =
          item.render.toList ++ ([' '] ++ (Form.renderItems (next :: rest)).toList) := by
        simp [Form.renderItems]
      rw [spelled]
      refine here offset _ _ _ (by rintro c ⟨⟩; rfl) ?_
      have blank : Separator [' '] := .blank rfl
      exact .gap blank (ih others _)

/-- Keys and values are written like the items of a list. -/
theorem renderEntries_eq (entries : List (Form × Form)) :
    Form.renderEntries entries =
      Form.renderItems (entries.flatMap fun entry => [entry.1, entry.2]) := by
  induction entries with
  | nil => rfl
  | cons entry rest ih =>
    cases rest with
    | nil => simp [Form.renderEntries, Form.renderItems]
    | cons next rest =>
      simp only [Form.renderEntries, ih, List.flatMap_cons, List.cons_append, List.nil_append,
        Form.renderItems, String.append_assoc]

theorem prints_enclosed {b : Bracket} {items : List Form} {f : Form}
    (prints : ∀ item ∈ items, Prints item) (encloses : Encloses b items f)
    (spelled : f.render.toList = b.opens :: ((Form.renderItems items).toList ++ [b.closes])) :
    Prints f := by
  intro offset cs fs ms _ forms
  have split_text : f.render.toList ++ cs =
      b.opens :: ((Form.renderItems items).toList ++ b.closes :: cs) := by
    rw [spelled]
    simp
  have length : offset + f.render.toList.length =
      offset + (Form.renderItems items).toList.length + 2 := by
    rw [spelled, List.length_cons, List.length_append]
    rfl
  rw [split_text]
  rw [length] at forms
  exact .enclosed (forms_renderItems prints (offset + 1)) encloses forms

/-! ### Forms -/

theorem Spelled.prints {f : Form} (spelled : Spelled f)
    (finite : ∀ x, f.Part (.float x) → x.isInfinite = false)
    (shown : ∀ t, f.Part (.text t) → ∀ c ∈ t.toList, Shown c) : Prints f := by
  -- the parts of an item are parts of the whole, so both conditions pass down
  induction spelled with
  | word denotes =>
    have denoted := denotes_render denotes fun x same => finite x (same ▸ .whole)
    exact prints_leaf fun after delimited => .word denoted delimited
  | text => exact prints_text (shown _ .whole)
  | @list items _ ih =>
    refine prints_enclosed (fun item member => ?_) .square ?_
    · have part : (Form.list items).Part item := .item .whole member
      exact ih item member (fun x inner => finite x (part.trans inner))
        fun t inner => shown t (part.trans inner)
    · simp [Form.render, Bracket.opens, Bracket.closes]
  | @map entries _ ih =>
    refine prints_enclosed (fun item member => ?_) .curly ?_
    · have part := Form.Part.of_entries member
      exact ih item member (fun x inner => finite x (part.trans inner))
        fun t inner => shown t (part.trans inner)
    · simp [Form.render, renderEntries_eq, Bracket.opens, Bracket.closes, Text.openBrace,
        Text.closeBrace]

/-- What was read prints as a text that is read as the same form, unless it holds an infinite
number or a character whose escape is not read back. -/
theorem parse_render {s : String} {f : Form} (parsed : parse s = .ok f)
    (finite : ∀ x, f.Part (.float x) → x.isInfinite = false)
    (shown : ∀ t, f.Part (.text t) → ∀ c ∈ t.toList, Shown c) : parse f.render = .ok f := by
  obtain ⟨body, ending, -, forms, -⟩ := parse_eq_ok.mp parsed
  have prints := (forms.spelled f (List.mem_singleton_self f)).prints finite shown
  have whole := prints 0 [] [] [] nofun .nil
  exact parse_eq_ok.mpr ⟨f.render.toList ++ [], [], by simp, whole, .nothing⟩

/-- Entries keep their order, a text its escape and a symbol its sign. -/
theorem parse_render_entries :
    let f : Form := .map [(.text "\n", .float ((Decimal.ofParts ['1'] ['5'] 0).toBinary64 false)),
      (.keyword "a", .symbol "-5x")]
    parse "\x7b\"\\n\" 1.5, :a -5x\x7d" = .ok f ∧ parse f.render = .ok f := by
  intro f
  have parts : ∀ g, f.Part g → g = f ∨
      g ∈ [Form.text "\n", .float ((Decimal.ofParts ['1'] ['5'] 0).toBinary64 false),
        .keyword "a", .symbol "-5x"] := by
    intro g part
    induction part with
    | whole => exact .inl rfl
    | item _ _ ih => simp [f] at ih
    | key _ member ih =>
      obtain rfl : _ = _ := by simpa [f] using ih
      rcases List.mem_pair.mp member with rfl | rfl <;> simp
    | value _ member ih =>
      obtain rfl : _ = _ := by simpa [f] using ih
      rcases List.mem_pair.mp member with rfl | rfl <;> simp
  have parsed : parse "\x7b\"\\n\" 1.5, :a -5x\x7d" = .ok f := rfl
  -- the one number is finite, and the one character of the text has an escape
  refine ⟨parsed, parse_render parsed (fun x part => ?_) fun t part c member => ?_⟩
  · have float := parts _ part
    simp only [f, List.mem_cons, List.not_mem_nil, Form.float.injEq, reduceCtorEq, false_or,
      or_false] at float
    rw [float]
    decide +kernel
  · have text := parts _ part
    simp only [f, List.mem_cons, List.not_mem_nil, Form.text.injEq, reduceCtorEq, false_or,
      or_false] at text
    subst text
    obtain rfl : c = '\n' := by simpa using member
    exact .inr (by decide)

end Factbase.Notation
