import LoxFrontEnd.Text.Printable

/-!
# Quoted text

Text between quotation marks, so written that no character of it is lost and none breaks the line. The
single mark is used unless it occurs in the text and the double one does not. Which characters stand
for themselves is a parameter; the marks, the backslash, tab, newline and carriage return are escaped
whatever it says.
-/

namespace LoxFrontEnd.Quoted

/-- The last `width` digits of a number in base sixteen, in lower case. -/
def hex : (width : Nat) → Nat → List Char
  | 0, _ => []
  | width + 1, n => hex width (n / 16) ++ [Nat.digitChar (n % 16)]

theorem hex_length (width n : Nat) : (hex width n).length = width := by
  induction width generalizing n with
  | zero => rfl
  | succ width ih => simp [hex, ih]

/-- An escape by number, as short as the number allows. -/
def escapeByNumber (n : Nat) : List Char :=
  if n < 0x100 then ['\\', 'x'] ++ hex 2 n
  else if n < 0x10000 then ['\\', 'u'] ++ hex 4 n
  else ['\\', 'U'] ++ hex 8 n

/-- One character of a text between two `mark`s. -/
def escape (printable : Char → Bool) (mark c : Char) : List Char :=
  if c = mark ∨ c = '\\' then ['\\', c]
  else if c = '\t' then ['\\', 't']
  else if c = '\n' then ['\\', 'n']
  else if c = '\r' then ['\\', 'r']
  else if printable c then [c]
  else escapeByNumber c.toNat

def mark (text : List Char) : Char :=
  if '\'' ∈ text ∧ '"' ∉ text then '"' else '\''

def quote (printable : Char → Bool) (text : List Char) : List Char :=
  mark text :: (text.flatMap (escape printable (mark text)) ++ [mark text])

theorem mark_eq (text : List Char) : mark text = '"' ∨ mark text = '\'' := by
  unfold mark
  split
  · exact Or.inl rfl
  · exact Or.inr rfl

end LoxFrontEnd.Quoted

namespace LoxFrontEnd

/-- A string in quotes; the printable characters stand for themselves. -/
def quoted (text : String) : String := String.ofList (Quoted.quote isPrintable text.toList)

end LoxFrontEnd
