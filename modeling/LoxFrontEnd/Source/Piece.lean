import LoxFrontEnd.Source.Lead

/-!
# Pieces of source text

Source text falls into pieces, each as long as it can be: tokens, trivia, and faults, which are the
characters that begin nothing and whatever is left open at the end. Cutting off the first piece leaves
a shorter text, and the pieces put together are the text again.
-/

namespace LoxFrontEnd

/-! ### Pieces -/

inductive LexicalFault where
  | unexpected (c : Char)
  | unterminatedString
  | unterminatedComment
deriving DecidableEq

inductive Element where
  | token (kind : Kind)
  | trivia
  | fault (fault : LexicalFault)
deriving DecidableEq

structure Piece where
  element : Element
  text : List Char
deriving DecidableEq

/-- The first piece of a text, and the text after it. -/
structure Cut where
  piece : Piece
  rest : List Char
deriving DecidableEq

def Cut.source (cut : Cut) : List Char := cut.piece.text ++ cut.rest

/-! ### Comments -/

/-- The text up to the end of a block comment in which `depth` further comments are open, and the text
after it. -/
def closeComment? (depth : Nat) : List Char → Option (List Char × List Char)
  | [] => none
  | [_] => none
  | c :: d :: rest =>
    if c = '/' ∧ d = '*' then
      (closeComment? (depth + 1) rest).map fun r => (c :: d :: r.1, r.2)
    else if c = '*' ∧ d = '/' then
      match depth with
      | 0 => some ([c, d], rest)
      | depth + 1 => (closeComment? depth rest).map fun r => (c :: d :: r.1, r.2)
    else (closeComment? depth (d :: rest)).map fun r => (c :: r.1, r.2)

theorem closeComment?_append {depth : Nat} {text inside after : List Char}
    (h : closeComment? depth text = some (inside, after)) : inside ++ after = text := by
  fun_induction closeComment? depth text generalizing inside after with
  | case1 => contradiction
  | case2 => contradiction
  | case3 depth c d rest _ ih =>
    obtain ⟨r, hr, he⟩ := Option.map_eq_some_iff.1 h
    cases he
    simp [ih hr]
  | case4 c d rest _ _ => cases h; rfl
  | case5 c d rest _ _ depth ih =>
    obtain ⟨r, hr, he⟩ := Option.map_eq_some_iff.1 h
    cases he
    simp [ih hr]
  | case6 depth c d rest _ _ ih =>
    obtain ⟨r, hr, he⟩ := Option.map_eq_some_iff.1 h
    cases he
    simp [ih hr]

/-! ### Cutting off the first piece -/

/-- The longest stretch of characters of a class, and what follows it. -/
def stretch (p : Char → Bool) (text : List Char) : List Char × List Char :=
  (text.takeWhile p, text.dropWhile p)

theorem stretch_append (p : Char → Bool) (text : List Char) :
    (stretch p text).1 ++ (stretch p text).2 = text :=
  List.takeWhile_append_dropWhile

def fractionPart : List Char → List Char × List Char
  | [] => ([], [])
  | c :: rest =>
    if c = '.' ∧ (stretch Char.isDigit rest).1 ≠ [] then
      (c :: (stretch Char.isDigit rest).1, (stretch Char.isDigit rest).2)
    else ([], c :: rest)

theorem fractionPart_append (text : List Char) :
    (fractionPart text).1 ++ (fractionPart text).2 = text := by
  cases text with
  | nil => rfl
  | cons c rest =>
    simp only [fractionPart]
    split
    · simp [stretch_append]
    · rfl

namespace Cut

def token (kind : Kind) (text rest : List Char) : Cut := ⟨⟨.token kind, text⟩, rest⟩

def trivia (text rest : List Char) : Cut := ⟨⟨.trivia, text⟩, rest⟩

def fault (fault : LexicalFault) (text rest : List Char) : Cut := ⟨⟨.fault fault, text⟩, rest⟩

/-- A mark that takes an equal sign if one follows. -/
def equalSuffixed (plain withEqual : Kind) (c : Char) : List Char → Cut
  | [] => token plain [c] []
  | d :: rest => if d = '=' then token withEqual [c, d] rest else token plain [c] (d :: rest)

/-- A division sign or a comment, after its slash. A line comment ends before its newline; a block
comment that is never closed takes all that is left. -/
def slash (c : Char) : List Char → Cut
  | [] => token .slash [c] []
  | d :: rest =>
    if d = '/' then
      let (comment, after) := stretch (· != '\n') rest
      trivia (c :: d :: comment) after
    else if d = '*' then
      match closeComment? 0 rest with
      | some (inside, after) => trivia (c :: d :: inside) after
      | none => fault .unterminatedComment (c :: d :: rest) []
    else token .slash [c] (d :: rest)

/-- A string, after its opening quote. One that is never closed takes all that is left. -/
def string (c : Char) (text : List Char) : Cut :=
  match stretch (· != '"') text with
  | (inside, []) => fault .unterminatedString (c :: inside) []
  | (inside, closing :: after) => token .string (c :: (inside ++ [closing])) after

/-- A number: digits, and a point with digits after it. A point without them is no part of it. -/
def number (c : Char) (text : List Char) : Cut :=
  let (whole, rest) := stretch Char.isDigit text
  let (fraction, after) := fractionPart rest
  token .number (c :: (whole ++ fraction)) after

def word (c : Char) (text : List Char) : Cut :=
  let (more, after) := stretch isWordPart text
  token (.ofWord (String.ofList (c :: more))) (c :: more) after

/-- Cut off the first piece of a text that begins with `c`. -/
def first (c : Char) (rest : List Char) : Cut :=
  match Lead.of c with
  | .single kind => token kind [c] rest
  | .equalSuffixed plain withEqual => equalSuffixed plain withEqual c rest
  | .slash => slash c rest
  | .blank => trivia [c] rest
  | .quote => string c rest
  | .digit => number c rest
  | .word => word c rest
  | .nothing => fault (.unexpected c) [c] rest

/-! ### Nothing is lost -/

/-- The piece starts with the first character and, with what follows it, is the text. -/
theorem first_text (c : Char) (rest : List Char) :
    ∃ more, (first c rest).piece.text = c :: more ∧ more ++ (first c rest).rest = rest := by
  unfold first
  split
  · exact ⟨[], rfl, rfl⟩
  · cases rest with
    | nil => exact ⟨[], rfl, rfl⟩
    | cons d rest =>
      simp only [equalSuffixed]
      split
      · exact ⟨[d], rfl, rfl⟩
      · exact ⟨[], rfl, rfl⟩
  · cases rest with
    | nil => exact ⟨[], rfl, rfl⟩
    | cons d rest =>
      simp only [slash]
      split
      · exact ⟨d :: (stretch (· != '\n') rest).1, rfl, by simp [trivia, stretch_append]⟩
      · split
        · split
          · next inside after h =>
            exact ⟨d :: inside, rfl, by simp [trivia, closeComment?_append h]⟩
          · exact ⟨d :: rest, rfl, by simp [fault]⟩
        · exact ⟨[], rfl, rfl⟩
  · exact ⟨[], rfl, rfl⟩
  · have hs := stretch_append (· != '"') rest
    simp only [string]
    split
    · next inside h =>
      rw [h] at hs
      exact ⟨inside, rfl, hs⟩
    · next inside closing after h =>
      rw [h] at hs
      exact ⟨inside ++ [closing], rfl, by simpa [token] using hs⟩
  · refine ⟨(stretch Char.isDigit rest).1 ++ (fractionPart (stretch Char.isDigit rest).2).1, rfl, ?_⟩
    simp [number, token, fractionPart_append, stretch_append]
  · exact ⟨(stretch isWordPart rest).1, rfl, stretch_append isWordPart rest⟩
  · exact ⟨[], rfl, rfl⟩

theorem first_source (c : Char) (rest : List Char) : (first c rest).source = c :: rest := by
  obtain ⟨more, ht, hr⟩ := first_text c rest
  simp [source, ht, hr]

theorem first_text_ne_nil (c : Char) (rest : List Char) : (first c rest).piece.text ≠ [] := by
  obtain ⟨more, ht, -⟩ := first_text c rest
  simp [ht]

theorem first_rest_length_le (c : Char) (rest : List Char) :
    (first c rest).rest.length ≤ rest.length := by
  obtain ⟨more, -, hr⟩ := first_text c rest
  have := congrArg List.length hr
  simp only [List.length_append] at this
  omega

end Cut

/-! ### All pieces -/

def pieces : List Char → List Piece
  | [] => []
  | c :: rest => (Cut.first c rest).piece :: pieces (Cut.first c rest).rest
termination_by text => text.length
decreasing_by
  have := Cut.first_rest_length_le c rest
  simp only [List.length_cons]
  omega

theorem pieces_nil : pieces [] = [] := by rw [pieces]

theorem pieces_cons (c : Char) (rest : List Char) :
    pieces (c :: rest) = (Cut.first c rest).piece :: pieces (Cut.first c rest).rest := by
  rw [pieces]

theorem flatMap_text_pieces (text : List Char) : (pieces text).flatMap Piece.text = text := by
  fun_induction pieces text with
  | case1 => rfl
  | case2 c rest ih =>
    rw [List.flatMap_cons, ih]
    exact Cut.first_source c rest

theorem text_ne_nil_of_mem_pieces {text : List Char} {p : Piece} (h : p ∈ pieces text) :
    p.text ≠ [] := by
  fun_induction pieces text with
  | case1 => cases h
  | case2 c rest ih =>
    rcases List.mem_cons.1 h with rfl | h
    · exact Cut.first_text_ne_nil c rest
    · exact ih h

end LoxFrontEnd
