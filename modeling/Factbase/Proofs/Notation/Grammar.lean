import Factbase.Notation.Reader
import Factbase.Proofs.Decimal

/-!
# Factbase.Proofs.Notation.Grammar

The grammar of the notation, apart from how a text is scanned and read. A form is a word, a quoted
text or a sequence in brackets, with separators wherever two forms or brackets meet.

An integer that does not fit 64 bits is a word of the grammar too, though it denotes nothing. It
stands in its place as `nil`, and is listed as a misfit with the offset at which it is written.
-/

namespace Factbase.Notation

/-! ### Numerals -/

/-- What may stand before the digits of a numeral, and whether it makes the numeral negative. -/
inductive Sign : List Char → Bool → Prop
  | absent : Sign [] false
  | plus : Sign ['+'] false
  | minus : Sign ['-'] true

/-- A sign and digits, and the number they denote. What digits denote goes by their places
(`Decimal.ofDigits_append`), and each number is denoted by the digits it is written with
(`Decimal.ofDigits_digitsOf`). -/
inductive IntegerLiteral : List Char → Int → Prop
  | intro {sign digits : List Char} {negative : Bool} :
      Sign sign negative → isDigits digits →
      IntegerLiteral (sign ++ digits)
        (if negative then -(Decimal.ofDigits digits : Int) else Decimal.ofDigits digits)

/-- A mark and the power of ten that it announces. -/
inductive Exponent : List Char → Int → Prop
  | intro {mark : Char} {power : List Char} {n : Int} :
      mark = 'e' ∨ mark = 'E' → IntegerLiteral power n → Exponent (mark :: power) n

/-- The part of a float after its sign, and the decimal it denotes. -/
inductive Mantissa : List Char → Decimal → Prop
  | fraction {whole fraction : List Char} :
      isDigits whole → isDigits fraction →
      Mantissa (whole ++ '.' :: fraction) (Decimal.ofParts whole fraction 0)
  | scaledFraction {whole fraction exponent : List Char} {n : Int} :
      isDigits whole → isDigits fraction → Exponent exponent n →
      Mantissa (whole ++ '.' :: (fraction ++ exponent)) (Decimal.ofParts whole fraction n)
  | scaled {whole exponent : List Char} {n : Int} :
      isDigits whole → Exponent exponent n →
      Mantissa (whole ++ exponent) (Decimal.ofParts whole [] n)

/-- A sign and a fraction or a power of ten, or both. It denotes the nearest double. -/
inductive FloatLiteral : List Char → Binary64 → Prop
  | intro {sign rest : List Char} {negative : Bool} {d : Decimal} :
      Sign sign negative → Mantissa rest d →
      FloatLiteral (sign ++ rest) (d.toBinary64 negative)

/-! ### Words -/

/-- Some characters that a word can be made of. -/
def IsRun (cs : List Char) : Prop := ∀ c ∈ cs, isSymbolChar c

instance (cs : List Char) : Decidable (IsRun cs) :=
  decidable_of_iff (cs.all isSymbolChar = true) List.all_eq_true

/-- The words that denote something other than the symbol they spell. -/
def Reserved (w : List Char) : Prop :=
  w = "nil".toList ∨ w = "true".toList ∨ w = "false".toList ∨
    (∃ x, FloatLiteral w x) ∨ ∃ n, IntegerLiteral w n

/-- What a word denotes. -/
inductive Denotes : List Char → Word → Prop
  | nil : Denotes "nil".toList (.form .nil)
  | true : Denotes "true".toList (.form (.bool true))
  | false : Denotes "false".toList (.form (.bool false))
  | float {w : List Char} {x : Binary64} : FloatLiteral w x → Denotes w (.form (.float x))
  | integer {w : List Char} {n : Int} :
      IntegerLiteral w n → fitsInt64 n → Denotes w (.form (.int (Int64.ofInt n)))
  | oversized {w : List Char} {n : Int} :
      IntegerLiteral w n → ¬fitsInt64 n → Denotes w (.oversized (String.ofList w))
  /-- Only the first of two colons is left out of the name. -/
  | keyword {name : List Char} :
      name ≠ [] → IsRun name →
      Denotes (':' :: name) (.form (.keyword (String.ofList name)))
  | symbol {c : Char} {rest : List Char} :
      startsSymbol c → IsRun rest → ¬Reserved (c :: rest) →
      Denotes (c :: rest) (.form (.symbol (String.ofList (c :: rest))))

/-! ### Texts -/

/-- What stands between the quotes of a text, and the characters of the text. -/
inductive Quoted : List Char → List Char → Prop
  | nil : Quoted [] []
  | plain {c : Char} {raw cs : List Char} :
      c ≠ '"' → c ≠ '\\' → Quoted raw cs → Quoted (c :: raw) (c :: cs)
  | escape {c : Char} {raw cs : List Char} :
      Quoted raw cs → Quoted ('\\' :: c :: raw) (Text.escaped c :: cs)

/-! ### Leaves -/

/-- Whether a word can end before these characters. -/
def Delimited (after : List Char) : Prop := ∀ c ∈ after.head?, isSymbolChar c = false

/-- A word or a quoted text, what follows it, and what it denotes. -/
inductive Leaf : List Char → List Char → Word → Prop
  | word {w after : List Char} {word : Word} : Denotes w word → Delimited after → Leaf w after word
  | text {raw chars after : List Char} :
      Quoted raw chars →
      Leaf ('"' :: (raw ++ ['"'])) after (.form (.text (String.ofList chars)))

namespace Word

def toForm : Word → Form
  | form f => f
  | _ => .nil

def misfits (offset : Nat) : Word → List (Nat × String)
  | oversized digits => [(offset, digits)]
  | _ => []

end Word

/-! ### Separators -/

/-- A blank, or a comment with the end of its line. -/
inductive Separator : List Char → Prop
  | blank {c : Char} : isBlank c → Separator [c]
  | comment {body lineEnd : List Char} :
      (∀ c ∈ body, endsLine c = false) → lineEnd ∈ [['\n'], ['\r', '\n'], ['\r']] →
      Separator (';' :: (body ++ lineEnd))

/-- What may stand at the end of a whole text: a comment whose line does not end. -/
inductive Ending : List Char → Prop
  | nothing : Ending []
  | comment {body : List Char} : (∀ c ∈ body, endsLine c = false) → Ending (';' :: body)

/-! ### Forms -/

namespace Bracket

def opens : Bracket → Char
  | square => '['
  | round => '('
  | curly => Text.openBrace

def closes : Bracket → Char
  | square => ']'
  | round => ')'
  | curly => Text.closeBrace

end Bracket

/-- What brackets make of the forms inside. Curly ones take keys and values in turn. -/
inductive Encloses : Bracket → List Form → Form → Prop
  | square {items : List Form} : Encloses .square items (.list items)
  | round {items : List Form} : Encloses .round items (.list items)
  | curly {entries : List (Form × Form)} :
      Encloses .curly (entries.flatMap fun entry => [entry.1, entry.2]) (.map entries)

/-- The forms that some characters spell, and the misfits among them. The first character has the
given offset. Inside a sequence the characters end where the closing bracket stands, which ends a
word too. -/
inductive Forms : Nat → List Char → List Form → List (Nat × String) → Prop
  | nil {offset : Nat} : Forms offset [] [] []
  | gap {offset : Nat} {gap cs : List Char} {fs : List Form} {misfits : List (Nat × String)} :
      Separator gap → Forms (offset + gap.length) cs fs misfits →
      Forms offset (gap ++ cs) fs misfits
  | leaf {offset : Nat} {first cs : List Char} {word : Word} {fs : List Form}
      {misfits : List (Nat × String)} :
      Leaf first cs word → Forms (offset + first.length) cs fs misfits →
      Forms offset (first ++ cs) (word.toForm :: fs) (word.misfits offset ++ misfits)
  | enclosed {offset : Nat} {b : Bracket} {inside cs : List Char} {items fs : List Form} {f : Form}
      {misfits misfits' : List (Nat × String)} :
      Forms (offset + 1) inside items misfits → Encloses b items f →
      Forms (offset + inside.length + 2) cs fs misfits' →
      Forms offset (b.opens :: (inside ++ b.closes :: cs)) (f :: fs) (misfits ++ misfits')

/-- Some characters spell a single form, with separators around it. -/
def Spells (cs : List Char) (f : Form) (misfits : List (Nat × String)) : Prop :=
  ∃ body ending, cs = body ++ ending ∧ Forms 0 body [f] misfits ∧ Ending ending

end Factbase.Notation
