import LoxFrontEnd.Proofs.Comment
import LoxFrontEnd.Proofs.LongestMatch

/-!
# Characters that begin nothing

A scan tells characters apart only if one of them begins an element. All others are alike: to put one of
them for another, throughout a source, changes nothing but the places where they are quoted. The null
character is one of them, so it is never taken for the end of the source.
-/

namespace LoxFrontEnd

/-! ### Renamings -/

/-- Characters that begin an element stay, and no other character becomes one of them. -/
structure Renaming (f : Char → Char) : Prop where
  fixes : ∀ c, Lead.of c ≠ .nothing → f c = c
  keeps : ∀ c, Lead.of c = .nothing → Lead.of (f c) = .nothing

/-- A class that tells no two characters apart that begin nothing. -/
def Blind (p : Char → Bool) : Prop :=
  ∀ c d, Lead.of c = .nothing → Lead.of d = .nothing → p c = p d

theorem Blind.of_begins {p : Char → Bool} (h : ∀ c, p c = true → Lead.of c ≠ .nothing) : Blind p := by
  have hfalse : ∀ c, Lead.of c = .nothing → p c = false := by
    intro c hc
    rw [← Bool.not_eq_true]
    exact fun hp => h c hp hc
  intro c d hc hd
  rw [hfalse c hc, hfalse d hd]

theorem Blind.not {p : Char → Bool} (h : Blind p) : Blind fun c => !p c :=
  fun c d hc hd => congrArg Bool.not (h c d hc hd)

theorem blind_isDigit : Blind Char.isDigit :=
  .of_begins fun c hc => by simp [Lead.of_digit hc]

theorem Lead.ne_nothing_of_isWordPart {c : Char} (h : isWordPart c = true) : of c ≠ .nothing := by
  rw [of_wordPart h]
  split
  · simp
  · simp

theorem blind_isWordPart : Blind isWordPart := .of_begins fun _ => Lead.ne_nothing_of_isWordPart

theorem blind_beq {m : Char} (h : Lead.of m ≠ .nothing) : Blind (· == m) :=
  .of_begins fun c hc => by rwa [eq_of_beq hc]

theorem blind_bne {m : Char} (h : Lead.of m ≠ .nothing) : Blind (· != m) := (blind_beq h).not

namespace Renaming

variable {f : Char → Char}

theorem lead_eq (hf : Renaming f) (c : Char) : Lead.of (f c) = Lead.of c := by
  by_cases hc : Lead.of c = .nothing
  · rw [hf.keeps c hc, hc]
  · rw [hf.fixes c hc]

theorem class_eq (hf : Renaming f) {p : Char → Bool} (hp : Blind p) (c : Char) : p (f c) = p c := by
  by_cases hc : Lead.of c = .nothing
  · exact hp _ _ (hf.keeps c hc) hc
  · rw [hf.fixes c hc]

theorem eq_iff (hf : Renaming f) {m : Char} (hm : Lead.of m ≠ .nothing) (c : Char) :
    f c = m ↔ c = m := by
  have h := hf.class_eq (blind_beq hm) c
  rw [← beq_iff_eq, h, beq_iff_eq]

theorem map_eq_self (hf : Renaming f) {text : List Char} (h : ∀ c ∈ text, Lead.of c ≠ .nothing) :
    text.map f = text :=
  (List.map_congr_left fun c hc => hf.fixes c (h c hc)).trans (List.map_id text)

/-! ### Stretches and comments -/

theorem stretch_map (hf : Renaming f) {p : Char → Bool} (hp : Blind p) (text : List Char) :
    stretch p (text.map f) = ((stretch p text).1.map f, (stretch p text).2.map f) := by
  have hcomp : p ∘ f = p := funext (hf.class_eq hp)
  simp only [stretch, List.takeWhile_map, List.dropWhile_map, hcomp]

theorem fractionPart_map (hf : Renaming f) (text : List Char) :
    fractionPart (text.map f) = ((fractionPart text).1.map f, (fractionPart text).2.map f) := by
  cases text with
  | nil => rfl
  | cons c rest =>
    have hpoint := hf.eq_iff (m := '.') (by decide) c
    simp only [List.map_cons, fractionPart, hf.stretch_map blind_isDigit, hpoint, ne_eq,
      List.map_eq_nil_iff]
    split
    · rfl
    · rfl

theorem closeComment?_map (hf : Renaming f) (depth : Nat) (text : List Char) :
    closeComment? depth (text.map f) =
      (closeComment? depth text).map fun r => (r.1.map f, r.2.map f) := by
  have hslash : f '/' = '/' := hf.fixes _ (by decide)
  have hstar : f '*' = '*' := hf.fixes _ (by decide)
  fun_induction closeComment? depth text with
  | case1 => rfl
  | case2 c => rfl
  | case3 depth c d rest hc ih =>
    obtain ⟨rfl, rfl⟩ := hc
    simp only [List.map_cons, hslash, hstar, closeComment?_opening, ih, Option.map_map,
      Function.comp_def]
  | case4 c d rest _ hc =>
    obtain ⟨rfl, rfl⟩ := hc
    simp only [List.map_cons, hslash, hstar, closeComment?_closing, Option.map_some, List.map_nil]
  | case5 c d rest _ hc depth ih =>
    obtain ⟨rfl, rfl⟩ := hc
    simp only [List.map_cons, hslash, hstar, closeComment?_closing, ih, Option.map_map,
      Function.comp_def]
  | case6 depth c d rest ho hc ih =>
    have hmark : beginsMark (f c :: f d :: rest.map f) = false := by
      rw [← Bool.not_eq_true, beginsMark_cons_cons, hf.eq_iff (by decide), hf.eq_iff (by decide),
        hf.eq_iff (by decide), hf.eq_iff (by decide)]
      exact not_or.2 ⟨ho, hc⟩
    have hstep := closeComment?_char depth (List.cons_ne_nil (f d) (rest.map f)) hmark
    rw [List.map_cons] at ih
    simp only [List.map_cons, hstep, ih, Option.map_map, Function.comp_def]

end Renaming

/-! ### Renamed cuts -/

def LexicalFault.renamed (f : Char → Char) : LexicalFault → LexicalFault
  | .unexpected c => .unexpected (f c)
  | .unterminatedString => .unterminatedString
  | .unterminatedComment => .unterminatedComment

def Element.renamed (f : Char → Char) : Element → Element
  | .fault cause => .fault (cause.renamed f)
  | .token kind => .token kind
  | .trivia => .trivia

def Piece.renamed (f : Char → Char) (piece : Piece) : Piece :=
  ⟨piece.element.renamed f, piece.text.map f⟩

def Cut.renamed (f : Char → Char) (cut : Cut) : Cut := ⟨cut.piece.renamed f, cut.rest.map f⟩

namespace Cut

variable {f : Char → Char}

theorem equalSuffixed_map (hf : Renaming f) (plain withEqual : Kind) (c : Char) (rest : List Char) :
    equalSuffixed plain withEqual (f c) (rest.map f) =
      (equalSuffixed plain withEqual c rest).renamed f := by
  cases rest with
  | nil => rfl
  | cons d rest =>
    simp only [List.map_cons, equalSuffixed, hf.eq_iff (m := '=') (by decide)]
    split
    · rfl
    · rfl

theorem slash_map (hf : Renaming f) (c : Char) (rest : List Char) :
    slash (f c) (rest.map f) = (slash c rest).renamed f := by
  cases rest with
  | nil => rfl
  | cons d rest =>
    have hline := hf.stretch_map (blind_bne (m := '\n') (by decide)) rest
    simp only [List.map_cons, slash, hf.eq_iff (m := '/') (by decide),
      hf.eq_iff (m := '*') (by decide), hline, hf.closeComment?_map]
    split
    · rfl
    · split
      · cases closeComment? 0 rest with
        | none => rfl
        | some r => rfl
      · rfl

theorem string_map (hf : Renaming f) (c : Char) (text : List Char) :
    string (f c) (text.map f) = (string c text).renamed f := by
  have hinside := hf.stretch_map (blind_bne (m := '"') (by decide)) text
  simp only [string, hinside]
  rcases stretch (· != '"') text with ⟨inside, _ | ⟨closing, after⟩⟩
  · rfl
  · simp [renamed, token, Piece.renamed, Element.renamed]

theorem number_map (hf : Renaming f) (c : Char) (text : List Char) :
    number (f c) (text.map f) = (number c text).renamed f := by
  simp only [number, hf.stretch_map blind_isDigit, hf.fractionPart_map, ← List.map_append]
  rfl

theorem word_map (hf : Renaming f) {c : Char} (hc : isWordStart c = true) (text : List Char) :
    word (f c) (text.map f) = (word c text).renamed f := by
  have hword : ∀ d ∈ c :: (stretch isWordPart text).1, Lead.of d ≠ .nothing := by
    refine List.forall_mem_cons.2 ⟨by simp [Lead.of_word hc], fun d hd => ?_⟩
    exact Lead.ne_nothing_of_isWordPart (of_mem_stretch hd)
  have hfix := hf.map_eq_self hword
  rw [List.map_cons] at hfix
  simp only [word, hf.stretch_map blind_isWordPart, hfix, renamed, token, Piece.renamed, List.map_cons, Element.renamed]

theorem first_map (hf : Renaming f) (c : Char) (rest : List Char) :
    first (f c) (rest.map f) = (first c rest).renamed f := by
  have hfits := Lead.fits_of c
  unfold first
  rw [hf.lead_eq c]
  split
  · rfl
  · exact equalSuffixed_map hf _ _ c rest
  · exact slash_map hf c rest
  · rfl
  · exact string_map hf c rest
  · exact number_map hf c rest
  · next hlead =>
    rw [hlead] at hfits
    exact word_map hf hfits rest
  · rfl

end Cut

theorem pieces_map {f : Char → Char} (hf : Renaming f) (text : List Char) :
    pieces (text.map f) = (pieces text).map (Piece.renamed f) := by
  fun_induction pieces text with
  | case1 => exact pieces_nil
  | case2 c rest ih =>
    rw [List.map_cons, pieces_cons, Cut.first_map hf, List.map_cons, ← ih]
    rfl

/-! ### Renamed scans -/

def Literal.renamed (f : Char → Char) : Literal → Literal
  | .text value => .text (value.map f)
  | .number value => .number value

def Token.renamed (f : Char → Char) (t : Token) : Token :=
  { t with lexeme := t.lexeme.map f, literal := t.literal.map (Literal.renamed f) }

def Report.renamed (f : Char → Char) (r : Report) : Report := { r with fault := r.fault.renamed f }

theorem map_ofList (f : Char → Char) (text : List Char) :
    (String.ofList text).map f = String.ofList (text.map f) := by
  rw [← String.toList_inj, String.toList_map, String.toList_ofList, String.toList_ofList]

section

variable {f : Char → Char} (hf : Renaming f)

include hf

theorem Position.after_map (p : Position) (text : List Char) : p.after (text.map f) = p.after text := by
  have hcount : (text.map f).count '\n' = text.count '\n' := by
    have hcomp : (fun c => c == '\n') ∘ f = fun c => c == '\n' :=
      funext (hf.class_eq (blind_beq (by decide)))
    rw [List.count_eq_countP, List.countP_map, hcomp, List.count_eq_countP]
  rw [after, after, hcount, List.length_map]

theorem Literal.ofLexeme?_map {kind : Kind} {text : List Char} (h : Lexeme kind text) :
    ofLexeme? kind (text.map f) = (ofLexeme? kind text).map (renamed f) := by
  by_cases hk : kind = .string
  · subst hk
    simp only [ofLexeme?, Option.map_some, renamed, map_ofList, List.map_dropLast,
      List.map_drop]
  · rw [hf.map_eq_self fun c hc => (h.lead_of_mem hk c hc).1]
    exact (map_ofLexeme? (fun x => rfl) hk text).symm

theorem Piece.token?_renamed {piece : Piece}
    (h : ∀ kind, piece.element = .token kind → Lexeme kind piece.text) (p : Position) :
    (piece.renamed f).token? p = (piece.token? p).map (Token.renamed f) := by
  obtain ⟨element, text⟩ := piece
  cases element with
  | token kind =>
    have hliteral := Literal.ofLexeme?_map hf (h kind rfl)
    simp only [token?, renamed, Element.renamed, hliteral, Option.map_some, Token.renamed,
      map_ofList]
  | trivia => rfl
  | fault fault => rfl

theorem Piece.report?_renamed (piece : Piece) (p : Position) :
    (piece.renamed f).report? p = (piece.report? p).map (Report.renamed f) := by
  obtain ⟨element, text⟩ := piece
  cases element with
  | token kind => rfl
  | trivia => rfl
  | fault fault =>
    simp only [report?, renamed, Element.renamed, Position.after_map hf, Option.map_some,
      Report.renamed]

theorem tokensFrom_renamed {ps : List Piece}
    (h : ∀ piece ∈ ps, ∀ kind, piece.element = .token kind → Lexeme kind piece.text) (p : Position) :
    tokensFrom p (ps.map (Piece.renamed f)) = (tokensFrom p ps).map (Token.renamed f) := by
  induction ps generalizing p with
  | nil => rfl
  | cons piece more ih =>
    obtain ⟨hpiece, hmore⟩ := List.forall_mem_cons.1 h
    have hafter : p.after (piece.renamed f).text = p.after piece.text := p.after_map hf piece.text
    rw [List.map_cons, tokensFrom, tokensFrom, Piece.token?_renamed hf hpiece, hafter, ih hmore,
      List.map_append, Option.toList_map]

theorem reportsFrom_renamed (ps : List Piece) (p : Position) :
    reportsFrom p (ps.map (Piece.renamed f)) = (reportsFrom p ps).map (Report.renamed f) := by
  induction ps generalizing p with
  | nil => rfl
  | cons piece more ih =>
    have hafter : p.after (piece.renamed f).text = p.after piece.text := p.after_map hf piece.text
    rw [List.map_cons, reportsFrom, reportsFrom, Piece.report?_renamed hf, hafter, ih,
      List.map_append, Option.toList_map]

end

theorem toNat_le_of_isAlpha {c : Char} (h : c.isAlpha = true) : c.toNat ≤ 122 := by
  rcases Bool.or_eq_true_iff.1 h with hupper | hlower
  · have hz : c.toNat ≤ 90 := UInt32.le_iff_toNat_le.1 (of_decide_eq_true hupper).2
    omega
  · exact UInt32.le_iff_toNat_le.1 (of_decide_eq_true (Bool.and_eq_true_iff.1 hlower).2)

theorem Lead.toNat_lt {c : Char} (h : of c ≠ .nothing) : c.toNat < 128 := by
  have hfits := fits_of c
  cases hc : of c with
  | single kind =>
    have hall : ∀ p ∈ Kind.singles, p.1.toNat < 128 := by decide
    rw [hc] at hfits
    exact hall _ hfits
  | equalSuffixed plain withEqual =>
    have hall : ∀ p ∈ Kind.equalSuffixed, p.1.toNat < 128 := by decide
    rw [hc] at hfits
    exact hall _ hfits
  | slash =>
    rw [hc] at hfits
    cases hfits
    decide
  | blank =>
    rw [hc] at hfits
    rcases isBlank_iff.1 hfits with rfl | rfl | rfl | rfl <;> decide
  | quote =>
    rw [hc] at hfits
    cases hfits
    decide
  | digit =>
    rw [hc] at hfits
    have h9 : c.toNat ≤ 57 := (Char.isDigit_iff_toNat.1 hfits).2
    omega
  | word =>
    rw [hc] at hfits
    rcases Bool.or_eq_true_iff.1 hfits with halpha | hunderscore
    · have hz := toNat_le_of_isAlpha halpha
      omega
    · rw [eq_of_beq hunderscore]
      decide
  | nothing => exact absurd hc h

/-- Nothing outside ASCII begins an element, nor does the null character. -/
theorem Lead.of_eq_nothing {c : Char} (h : c = '\x00' ∨ 128 ≤ c.toNat) : of c = .nothing := by
  rcases h with rfl | h
  · decide
  · refine Decidable.byContradiction fun hc => ?_
    have hlt := toNat_lt hc
    omega

theorem Token.renamed_endOfInput (f : Char → Char) (p : Position) :
    (endOfInput p).renamed f = endOfInput p := by
  have hempty : String.map f "" = "" := map_ofList f []
  simp only [renamed, endOfInput, hempty, Option.map_none]

/-- To rename characters that begin nothing throughout a source renames them where tokens and reports
quote them, and has no other effect: kinds, places, numbers and the end of the source stay. The null
character and all that is not ASCII are among these characters. -/
theorem scan_renaming :
    (∀ c : Char, c = '\x00' ∨ 128 ≤ c.toNat → Lead.of c = .nothing) ∧
    ∀ {f : Char → Char}, Renaming f → ∀ source : String,
      (scan (source.map f)).tokens = (scan source).tokens.map (Token.renamed f) ∧
      (scan (source.map f)).reports = (scan source).reports.map (Report.renamed f) := by
  refine ⟨fun c => Lead.of_eq_nothing, fun {f} hf source => ?_⟩
  have hpieces := pieces_map hf source.toList
  have hlexemes : ∀ piece ∈ pieces source.toList, ∀ kind, piece.element = .token kind →
      Lexeme kind piece.text := fun piece hp kind => lexeme_of_mem_pieces hp
  constructor
  · rw [Scan.tokens, Scan.tokens, List.map_append, List.map_singleton, Token.renamed_endOfInput, scan,
      scan, String.toList_map, hpieces, tokensFrom_renamed hf hlexemes, Position.after_map hf]
  · rw [scan, scan, String.toList_map, hpieces, reportsFrom_renamed hf]

/-- A null character on its own, in a comment and in a string, with an accented letter in its place. -/
theorem scan_renaming_null :
    let f : Char → Char := fun c => if c = '\x00' then 'é' else c
    let source := "a\x00//\x00\n\"\x00\""
    Renaming f ∧ source.map f = "aé//é\n\"é\"" ∧ Lead.of '\x00' = .nothing ∧
    (scan (source.map f)).tokens.map (fun t => (t.lexeme, t.line, t.offset)) =
      [("a", 1, 0), ("\"é\"", 2, 6), ("", 2, 9)] ∧
    (scan (source.map f)).reports = [⟨1, .unexpected 'é'⟩] := by
  intro f source
  have hnull : Lead.of '\x00' = .nothing := scan_renaming.1 _ (.inl rfl)
  have hf : Renaming f := by
    refine ⟨fun c hc => if_neg ?_, fun c hc => ?_⟩
    · rintro rfl
      exact hc hnull
    · simp only [f]
      split
      · exact scan_renaming.1 _ (.inr (by decide))
      · exact hc
  obtain ⟨htokens, hreports⟩ := scan_renaming.2 hf source
  refine ⟨hf, by decide +kernel, hnull, ?_, ?_⟩
  · rw [htokens]
    decide +kernel
  · rw [hreports]
    decide +kernel

end LoxFrontEnd
