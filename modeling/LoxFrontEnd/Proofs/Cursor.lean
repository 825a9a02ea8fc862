import LoxFrontEnd.Diagnostic.Basic
import LoxFrontEnd.Proofs.LongestMatch

/-!
# Reading with a cursor

A scan made by a cursor that looks at one index of the source at a time, one round of a loop after
another. Indexing and the reading of numerals are partial: outside the source, and for a text that is
no numeral, they trap. Lookahead at the end of the source finds a null character, so that no lookahead
traps. Reports go to a sink of any kind.
-/

namespace LoxFrontEnd

/-! ### Partial operations -/

inductive Trap where
  | outside (index : Nat)
  | notNumeral (text : List Char)
deriving DecidableEq

def charAt (source : List Char) (index : Nat) : Except Trap Char :=
  match source[index]? with
  | some c => .ok c
  | none => .error (.outside index)

theorem charAt_ok_iff {source : List Char} {index : Nat} :
    (∃ c, charAt source index = .ok c) ↔ index < source.length := by
  rw [charAt]
  constructor
  · rintro ⟨c, h⟩
    refine Nat.lt_of_not_le fun hle => ?_
    rw [List.getElem?_eq_none hle] at h
    contradiction
  · intro h
    exact ⟨source[index], by rw [List.getElem?_eq_getElem h]⟩

def isNumeral (text : List Char) : Bool :=
  let d := Decimal.ofText text
  !d.whole.isEmpty &&
    (text == d.whole || !d.fraction.isEmpty && text == d.whole ++ '.' :: d.fraction)

def readNumeral (text : List Char) : Except Trap Binary64 :=
  if isNumeral text then .ok (Decimal.ofText text).toBinary64 else .error (.notNumeral text)

theorem Lexeme.isNumeral {text : List Char} (h : Lexeme .number text) : isNumeral text = true := by
  cases h with
  | single hm => simp [Kind.singles] at hm
  | plain hm => simp [Kind.equalSuffixed] at hm
  | withEqual hm => simp [Kind.equalSuffixed] at hm
  | word _ _ hk => exact hk.elim
  | whole hc hmore =>
    have hw := Decimal.ofText_whole (List.forall_mem_cons.2 ⟨hc, hmore⟩)
    simp [LoxFrontEnd.isNumeral, hw]
  | @decimal c d more fraction hc hmore hd hf =>
    have hw := Decimal.ofText_decimal (List.forall_mem_cons.2 ⟨hc, hmore⟩)
      (List.forall_mem_cons.2 ⟨hd, hf⟩)
    rw [List.cons_append] at hw
    simp [LoxFrontEnd.isNumeral, hw]

theorem Decimal.ofText_isDigit (text : List Char) :
    (∀ d ∈ (ofText text).whole, d.isDigit = true) ∧
      ∀ d ∈ (ofText text).fraction, d.isDigit = true := by
  refine ⟨fun d => of_mem_stretch, ?_⟩
  unfold ofText
  dsimp only
  split
  · exact fun d => of_mem_stretch
  · simp

theorem lexeme_of_isNumeral {text : List Char} (h : isNumeral text = true) :
    Lexeme .number text := by
  obtain ⟨hw, hf⟩ := Decimal.ofText_isDigit text
  simp only [isNumeral, Bool.and_eq_true, Bool.or_eq_true, beq_iff_eq, Bool.not_eq_true',
    List.isEmpty_eq_false_iff] at h
  obtain ⟨hne, htext⟩ := h
  obtain ⟨c, more, hwhole⟩ := List.exists_cons_of_ne_nil hne
  rw [hwhole] at hw htext
  obtain ⟨hc, hmore⟩ := List.forall_mem_cons.1 hw
  rcases htext with htext | ⟨hne, htext⟩
  · rw [htext]
    exact .whole hc hmore
  · obtain ⟨d, fraction, hfraction⟩ := List.exists_cons_of_ne_nil hne
    rw [hfraction] at hf htext
    obtain ⟨hd, hf⟩ := List.forall_mem_cons.1 hf
    rw [htext, List.cons_append]
    exact .decimal hc hmore hd hf

theorem readNumeral_ok_iff {text : List Char} :
    (∃ x, readNumeral text = .ok x) ↔ Lexeme .number text := by
  rw [readNumeral]
  constructor
  · rintro ⟨x, h⟩
    split at h
    · next hn =>
      exact lexeme_of_isNumeral hn
    · contradiction
  · intro h
    rw [if_pos h.isNumeral]
    exact ⟨_, rfl⟩

def slice (source : List Char) (first last : Nat) : List Char :=
  (source.drop first).take (last - first)

/-! ### Cursors -/

/-- The loops of a reading; of a block comment, `depth` levels are open. -/
inductive Cursor.Loop where
  | main
  | lineComment
  | blockComment (depth : Nat)
  | string
  | whole
  | fraction
  | word
deriving DecidableEq

structure Cursor (σ : Type) where
  start : Nat := 0
  current : Nat := 0
  line : Int := 1
  startLine : Int := 1
  loop : Cursor.Loop := .main
  tokens : List Token := []
  sink : σ

namespace Cursor

section

variable {σ : Type} (source : List Char) (emit : σ → Int → String → σ)

def atEnd (cur : Cursor σ) : Bool := decide (source.length ≤ cur.current)

def forward (cur : Cursor σ) : Cursor σ := { cur with current := cur.current + 1 }

/-- Take a character. There is no test for the end here. -/
def advance (cur : Cursor σ) : Except Trap (Char × Cursor σ) :=
  (charAt source cur.current).map fun c => (c, cur.forward)

def peek (cur : Cursor σ) : Except Trap Char :=
  if cur.atEnd source then .ok '\x00' else charAt source cur.current

def peekNext (cur : Cursor σ) : Except Trap Char :=
  if source.length ≤ cur.current + 1 then .ok '\x00' else charAt source (cur.current + 1)

def accept (expected : Char) (cur : Cursor σ) : Except Trap (Bool × Cursor σ) :=
  if cur.atEnd source then .ok (false, cur)
  else (charAt source cur.current).map fun c =>
    if c = expected then (true, cur.forward) else (false, cur)

def lexeme (cur : Cursor σ) : List Char := slice source cur.start cur.current

def addToken (kind : Kind) (literal : Option Literal) (cur : Cursor σ) : Cursor σ :=
  let token : Token :=
    { kind
      lexeme := String.ofList (cur.lexeme source)
      literal
      line := cur.startLine
      offset := cur.start }
  { cur with loop := .main, tokens := cur.tokens ++ [token] }

def addNumber (cur : Cursor σ) : Except Trap (Cursor σ) :=
  (readNumeral (cur.lexeme source)).map fun x => cur.addToken source .number (some (.number x))

def complain (fault : LexicalFault) (cur : Cursor σ) : Cursor σ :=
  { cur with loop := .main, sink := emit cur.sink cur.line fault.message }

def countLine (c : Char) (cur : Cursor σ) : Cursor σ :=
  { cur with line := if c = '\n' then cur.line + 1 else cur.line }

/-- What the first character of a piece asks for. The search for it in the tables has a default. -/
def dispatch (c : Char) (cur : Cursor σ) : Except Trap (Cursor σ) :=
  match Lead.of c with
  | .single kind => .ok (cur.addToken source kind none)
  | .equalSuffixed plain withEqual => do
    let (found, cur) ← cur.accept source '='
    return cur.addToken source (if found then withEqual else plain) none
  | .slash => do
    let (line, cur) ← cur.accept source '/'
    if line then return { cur with loop := .lineComment }
    else
      let (block, cur) ← cur.accept source '*'
      if block then return { cur with loop := .blockComment 1 }
      else return cur.addToken source .slash none
  | .blank => .ok (cur.countLine c)
  | .quote => .ok { cur with loop := .string }
  | .digit => .ok { cur with loop := .whole }
  | .word => .ok { cur with loop := .word }
  | .nothing => .ok (cur.complain emit (.unexpected c))

/-- One round of the loop that the cursor is in, unless the main loop is over. -/
def step (cur : Cursor σ) : Except Trap (Option (Cursor σ)) :=
  match cur.loop with
  | .main => do
    if cur.atEnd source then return none
    else
      let (c, cur) ← { cur with start := cur.current, startLine := cur.line }.advance source
      return some (← cur.dispatch source emit c)
  | .lineComment => do
    let c ← cur.peek source
    if c ≠ '\n' ∧ cur.atEnd source = false then
      let (_, cur) ← cur.advance source
      return some cur
    else return some { cur with loop := .main }
  | .blockComment 0 => .ok (some { cur with loop := .main })
  | .blockComment (depth + 1) => do
    if cur.atEnd source then return some (cur.complain emit .unterminatedComment)
    else
      let c ← cur.peek source
      let d ← cur.peekNext source
      if c = '/' ∧ d = '*' then
        let (_, cur) ← cur.advance source
        let (_, cur) ← cur.advance source
        return some { cur with loop := .blockComment (depth + 2) }
      else if c = '*' ∧ d = '/' then
        let (_, cur) ← cur.advance source
        let (_, cur) ← cur.advance source
        return some { cur with loop := .blockComment depth }
      else
        let (c, cur) ← cur.advance source
        return some (cur.countLine c)
  | .string => do
    let c ← cur.peek source
    if c ≠ '"' ∧ cur.atEnd source = false then
      let (_, cur) ← (cur.countLine c).advance source
      return some cur
    else if cur.atEnd source then return some (cur.complain emit .unterminatedString)
    else
      let (_, cur) ← cur.advance source
      let value := slice source (cur.start + 1) (cur.current - 1)
      return some (cur.addToken source .string (some (.text (String.ofList value))))
  | .whole => do
    let c ← cur.peek source
    if c.isDigit then
      let (_, cur) ← cur.advance source
      return some cur
    else
      let d ← cur.peekNext source
      if c = '.' ∧ d.isDigit then
        let (_, cur) ← cur.advance source
        return some { cur with loop := .fraction }
      else return some (← cur.addNumber source)
  | .fraction => do
    let c ← cur.peek source
    if c.isDigit then
      let (_, cur) ← cur.advance source
      return some cur
    else return some (← cur.addNumber source)
  | .word => do
    let c ← cur.peek source
    if isWordPart c then
      let (_, cur) ← cur.advance source
      return some cur
    else
      return some (cur.addToken source (.ofWord (String.ofList (cur.lexeme source))) none)

end

/-! ### What a cursor sees -/

section

variable {σ : Type} {source rest : List Char} {cur : Cursor σ} {c : Char}

theorem charAt_of_drop {n : Nat} (h : source.drop n = c :: rest) : charAt source n = .ok c := by
  have hget : source[n]? = some c := by
    have hhead := congrArg List.head? h
    rwa [List.head?_drop, List.head?_cons] at hhead
  rw [charAt, hget]

theorem advance_cons (h : source.drop cur.current = c :: rest) :
    cur.advance source = .ok (c, cur.forward) := by
  rw [advance, charAt_of_drop h]
  rfl

theorem atEnd_nil (h : source.drop cur.current = []) : cur.atEnd source = true :=
  decide_eq_true (List.drop_eq_nil_iff.1 h)

theorem atEnd_cons (h : source.drop cur.current = c :: rest) : cur.atEnd source = false := by
  refine decide_eq_false fun hle => ?_
  rw [List.drop_eq_nil_iff.2 hle] at h
  contradiction

/-- Lookahead finds the next character, or a null character at the end. -/
theorem peek_eq (h : source.drop cur.current = rest) :
    cur.peek source = .ok (rest.headD '\x00') := by
  cases rest with
  | nil => rw [peek, if_pos (atEnd_nil h), List.headD_nil]
  | cons c rest =>
    rw [peek, atEnd_cons h, if_neg Bool.false_ne_true, charAt_of_drop h, List.headD_cons]

theorem peekNext_eq (h : source.drop cur.current = rest) :
    cur.peekNext source = .ok (rest.tail.headD '\x00') := by
  have hnext : source.drop (cur.current + 1) = rest.tail := by
    rw [← h, List.tail_drop]
  rw [peekNext]
  cases htail : rest.tail with
  | nil =>
    rw [htail] at hnext
    rw [if_pos (List.drop_eq_nil_iff.1 hnext), List.headD_nil]
  | cons d more =>
    rw [htail] at hnext
    have hlt : ¬source.length ≤ cur.current + 1 := by
      intro hle
      rw [List.drop_eq_nil_iff.2 hle] at hnext
      contradiction
    rw [if_neg hlt, charAt_of_drop hnext, List.headD_cons]

/-- A class that the null character is not in ends at the end of the source by itself. -/
theorem apply_headD {p : Char → Bool} (hp : p '\x00' = false) (text : List Char) :
    p (text.headD '\x00') = leads p text := by
  cases text with
  | nil => exact hp
  | cons c text => rfl

theorem accept_cons {expected : Char} (h : source.drop cur.current = expected :: rest) :
    cur.accept source expected = .ok (true, cur.forward) := by
  rw [accept, atEnd_cons h, if_neg Bool.false_ne_true, charAt_of_drop h]
  exact congrArg Except.ok (if_pos rfl)

theorem accept_of_not_leads {expected : Char} (h : source.drop cur.current = rest)
    (hr : leads (· == expected) rest = false) : cur.accept source expected = .ok (false, cur) := by
  cases rest with
  | nil => rw [accept, if_pos (atEnd_nil h)]
  | cons c rest =>
    rw [leads_cons, beq_eq_false_iff_ne] at hr
    rw [accept, atEnd_cons h, if_neg Bool.false_ne_true, charAt_of_drop h]
    exact congrArg Except.ok (if_neg hr)

end

end Cursor

end LoxFrontEnd
