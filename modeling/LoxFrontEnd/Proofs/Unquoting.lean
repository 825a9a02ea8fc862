import Mathlib.Tactic.SplitIfs
import LoxFrontEnd.Text.Quoted

/-!
# Reading quoted text

Quoted text is read back character by character: a backslash begins an escape, and the character after
it says what kind of escape it is. Whatever characters are printable, reading undoes quoting, and what
is quoted has no tab and no line end in it.
-/

namespace LoxFrontEnd

/-! ### Text within one field of a line -/

def isSeparator (c : Char) : Bool := c == '\t' || c == '\n' || c == '\r'

def Inline (text : List Char) : Prop := ∀ c ∈ text, isSeparator c = false

instance (text : List Char) : Decidable (Inline text) := List.decidableBAll _ text

theorem inline_append {text more : List Char} : Inline (text ++ more) ↔ Inline text ∧ Inline more :=
  List.forall_mem_append

theorem Inline.notMem {text : List Char} {c : Char} (h : Inline text) (hc : isSeparator c = true) :
    c ∉ text := by
  intro hm
  rw [h c hm] at hc
  cases hc

namespace Quoted

/-! ### Digits in base sixteen -/

def digitValue (c : Char) : Nat :=
  if c.isDigit then c.toNat - '0'.toNat else c.toNat - 'a'.toNat + 10

def hexValue (digits : List Char) : Nat := digits.foldl (fun n c => 16 * n + digitValue c) 0

theorem digitValue_digitChar : ∀ d < 16, digitValue (Nat.digitChar d) = d := by decide

theorem isSeparator_digitChar : ∀ d < 16, isSeparator (Nat.digitChar d) = false := by decide

theorem hexValue_hex (width n : Nat) : hexValue (hex width n) = n % Nat.pow 16 width := by
  rw [Nat.pow_eq]
  induction width generalizing n with
  | zero => rw [Nat.pow_zero, Nat.mod_one, hex, hexValue, List.foldl_nil]
  | succ width ih =>
    have hd : digitValue (Nat.digitChar (n % 16)) = n % 16 :=
      digitValue_digitChar _ (Nat.mod_lt n (by omega))
    have hn := ih (n / 16)
    rw [hexValue] at hn
    rw [hex, hexValue, List.foldl_append, hn, List.foldl_cons, List.foldl_nil, hd, Nat.pow_succ',
      Nat.mod_mul]
    omega

theorem inline_hex (width n : Nat) : Inline (hex width n) := by
  induction width generalizing n with
  | zero =>
    intro c hc
    cases hc
  | succ width ih =>
    rw [hex, inline_append]
    refine ⟨ih (n / 16), fun c hc => ?_⟩
    rw [List.mem_singleton.1 hc]
    exact isSeparator_digitChar _ (Nat.mod_lt n (by omega))

/-! ### Reading one character -/

/-- The character whose number the next digits write, and what follows them. -/
def readNumber (width : Nat) (rest : List Char) : Char × List Char :=
  (Char.ofNat (hexValue (rest.take width)), rest.drop width)

/-- What an escape stands for whose first character after the backslash is known. -/
def readEscape (c : Char) (rest : List Char) : Char × List Char :=
  if c = 't' then ('\t', rest)
  else if c = 'n' then ('\n', rest)
  else if c = 'r' then ('\r', rest)
  else if c = 'x' then readNumber 2 rest
  else if c = 'u' then readNumber 4 rest
  else if c = 'U' then readNumber 8 rest
  else (c, rest)

/-- The first character that a text between marks stands for, and what follows. -/
def readChar? : List Char → Option (Char × List Char)
  | [] => none
  | c :: rest =>
    if c = '\\' then rest.head?.map fun d => readEscape d rest.tail else some (c, rest)

theorem readNumber_hex (width : Nat) {c : Char} (h : c.toNat < Nat.pow 16 width) (rest : List Char) :
    readNumber width (hex width c.toNat ++ rest) = (c, rest) := by
  have hl := hex_length width c.toNat
  rw [readNumber, List.take_left' hl, List.drop_left' hl, hexValue_hex, Nat.mod_eq_of_lt h,
    Char.ofNat_toNat]

theorem readChar?_of_ne {c : Char} (h : c ≠ '\\') (rest : List Char) :
    readChar? (c :: rest) = some (c, rest) := if_neg h

theorem readChar?_escapeByNumber (c : Char) (rest : List Char) :
    readChar? (escapeByNumber c.toNat ++ rest) = some (c, rest) := by
  have hc : c.toNat < 0x110000 := by
    have hv := c.valid
    simp only [UInt32.isValidChar, Nat.isValidChar] at hv
    simp only [Char.toNat]
    omega
  rw [escapeByNumber]
  split
  · exact congrArg some (readNumber_hex 2 (by omega) rest)
  · split
    · exact congrArg some (readNumber_hex 4 (by omega) rest)
    · have hwide : 0x110000 ≤ Nat.pow 16 8 := by decide
      exact congrArg some (readNumber_hex 8 (Nat.lt_of_lt_of_le hc hwide) rest)

/-- What stands for a character: an escape by letter, the character itself, or an escape by number. The
mark and the backslash never stand for themselves, since either would end the text or begin an escape. -/
theorem escape_cases (printable : Char → Bool) {mark : Char} (hmark : mark = '"' ∨ mark = '\'')
    (c : Char) :
    (∃ d, escape printable mark c = ['\\', d] ∧ isSeparator d = false ∧
      ∀ rest, readEscape d rest = (c, rest)) ∨
    (escape printable mark c = [c] ∧ isSeparator c = false ∧ c ≠ '\\') ∨
    escape printable mark c = escapeByNumber c.toNat := by
  by_cases hself : c = mark ∨ c = '\\'
  · refine .inl ⟨c, if_pos hself, ?_⟩
    rcases hself with rfl | rfl
    · rcases hmark with rfl | rfl
      · exact ⟨rfl, fun _ => rfl⟩
      · exact ⟨rfl, fun _ => rfl⟩
    · exact ⟨rfl, fun _ => rfl⟩
  rw [escape, if_neg hself]
  by_cases htab : c = '\t'
  · exact .inl ⟨'t', if_pos htab, rfl, fun _ => htab ▸ rfl⟩
  by_cases hnewline : c = '\n'
  · rw [if_neg htab]
    exact .inl ⟨'n', if_pos hnewline, rfl, fun _ => hnewline ▸ rfl⟩
  by_cases hreturn : c = '\r'
  · rw [if_neg htab, if_neg hnewline]
    exact .inl ⟨'r', if_pos hreturn, rfl, fun _ => hreturn ▸ rfl⟩
  rw [if_neg htab, if_neg hnewline, if_neg hreturn]
  by_cases hp : printable c = true
  · have hsep : isSeparator c = false := by simp [isSeparator, htab, hnewline, hreturn]
    exact .inr (.inl ⟨if_pos hp, hsep, fun he => hself (.inr he)⟩)
  · exact .inr (.inr (if_neg hp))

theorem readChar?_escape (printable : Char → Bool) {mark : Char} (hmark : mark = '"' ∨ mark = '\'')
    (c : Char) (rest : List Char) :
    readChar? (escape printable mark c ++ rest) = some (c, rest) := by
  rcases escape_cases printable hmark c with ⟨d, he, -, hd⟩ | ⟨he, -, hc⟩ | he
  · rw [he]
    exact congrArg some (hd rest)
  · rw [he]
    exact readChar?_of_ne hc rest
  · rw [he]
    exact readChar?_escapeByNumber c rest

theorem length_readEscape_le (c : Char) (rest : List Char) :
    (readEscape c rest).2.length ≤ rest.length := by
  have hn (width : Nat) : (readNumber width rest).2.length ≤ rest.length := by
    rw [readNumber, List.length_drop]
    omega
  rw [readEscape]
  split_ifs
  · exact Nat.le_refl _
  · exact Nat.le_refl _
  · exact Nat.le_refl _
  · exact hn 2
  · exact hn 4
  · exact hn 8
  · exact Nat.le_refl _

theorem length_readChar? {text rest : List Char} {c : Char} (h : readChar? text = some (c, rest)) :
    rest.length < text.length := by
  cases text with
  | nil => cases h
  | cons d more =>
    rw [List.length_cons]
    by_cases hd : d = '\\'
    · rw [readChar?, if_pos hd] at h
      obtain ⟨e, -, he⟩ := Option.map_eq_some_iff.1 h
      have hl := length_readEscape_le e more.tail
      simp only [he, List.length_tail] at hl
      omega
    · rw [readChar?_of_ne hd] at h
      cases h
      omega

/-! ### Reading a text -/

def unescape (text : List Char) : List Char :=
  match _h : readChar? text with
  | none => []
  | some (c, rest) => c :: unescape rest
termination_by text.length
decreasing_by exact length_readChar? _h

def unquote (text : List Char) : List Char := unescape text.tail.dropLast

theorem unescape_of_readChar? {text rest : List Char} {c : Char}
    (h : readChar? text = some (c, rest)) : unescape text = c :: unescape rest := by
  rw [unescape]
  split
  · rename_i hnone
    rw [h] at hnone
    cases hnone
  · rename_i d more hsome
    rw [h] at hsome
    cases hsome
    rfl

theorem unescape_flatMap_escape (printable : Char → Bool) {mark : Char}
    (hmark : mark = '"' ∨ mark = '\'') (text : List Char) :
    unescape (text.flatMap (escape printable mark)) = text := by
  induction text with
  | nil => rw [List.flatMap_nil, unescape, readChar?]
  | cons c text ih =>
    rw [List.flatMap_cons, unescape_of_readChar? (readChar?_escape printable hmark c _), ih]

/-- Quoting loses nothing, whatever is printable. -/
theorem unquote_quote (printable : Char → Bool) (text : List Char) :
    unquote (quote printable text) = text := by
  rw [unquote, quote, List.tail_cons, List.dropLast_concat]
  exact unescape_flatMap_escape printable (mark_eq text) text

/-! ### Quoted text stays in its field -/

theorem inline_escapeByNumber (n : Nat) : Inline (escapeByNumber n) := by
  rw [escapeByNumber]
  split_ifs
  · exact inline_append.2 ⟨by decide, inline_hex 2 n⟩
  · exact inline_append.2 ⟨by decide, inline_hex 4 n⟩
  · exact inline_append.2 ⟨by decide, inline_hex 8 n⟩

theorem inline_escape (printable : Char → Bool) {mark : Char} (hmark : mark = '"' ∨ mark = '\'')
    (c : Char) : Inline (escape printable mark c) := by
  rcases escape_cases printable hmark c with ⟨d, he, hd, -⟩ | ⟨he, hc, -⟩ | he
  · rw [he, Inline, List.forall_mem_cons, List.forall_mem_singleton]
    exact ⟨rfl, hd⟩
  · rw [he, Inline, List.forall_mem_singleton]
    exact hc
  · rw [he]
    exact inline_escapeByNumber c.toNat

theorem inline_quote (printable : Char → Bool) (text : List Char) :
    Inline (quote printable text) := by
  have hmark : isSeparator (mark text) = false := by
    rcases mark_eq text with h | h
    · rw [h]
      rfl
    · rw [h]
      rfl
  have hbody : Inline (text.flatMap (escape printable (mark text))) := by
    intro c hc
    obtain ⟨d, -, hd⟩ := List.mem_flatMap.1 hc
    exact inline_escape printable (mark_eq text) d c hd
  rw [quote, Inline, List.forall_mem_cons, List.forall_mem_append, List.forall_mem_singleton]
  exact ⟨hmark, hbody, hmark⟩

end Quoted

end LoxFrontEnd
