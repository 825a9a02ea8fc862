import LoxFrontEnd.Proofs.Agreement
import LoxFrontEnd.Proofs.Content
import LoxFrontEnd.Proofs.Decoding
import LoxFrontEnd.Proofs.Dump
import LoxFrontEnd.Proofs.LineEnds
import LoxFrontEnd.Proofs.Lines

/-!
# Files as texts

What a strict reading makes of the bytes in a file. Bytes that encode a text are read as that text with
its line ends unified, so no carriage return is left and every line end of the file counts once. Other
bytes are refused as a whole, at the place where the longest text in them ends.
-/

namespace LoxFrontEnd

open Newline (Becomes Unifies linesEnded)

/-! ### Lines of a unified text -/

theorem lineAt_of_becomes {source unified : List Char} (h : Unifies source unified) {m k : Nat}
    (hb : Becomes source unified m k) : lineAt unified k = 1 + linesEnded source m := by
  rw [lineAt, Newline.count_take_of_becomes h hb]

theorem return_notMem_of_unifies {source unified : List Char} (h : Unifies source unified) :
    '\r' ∉ unified := by
  rw [Newline.unifies_iff.1 h]
  exact Newline.return_notMem_normalise source

/-! ### Tokens -/

/-- A token of a unified text keeps no carriage return, and its line is counted in the source. -/
structure Token.CountedIn (t : Token) (source unified : List Char) : Prop where
  lexeme : '\r' ∉ t.lexeme.toList
  literal : ∀ value, t.literal = some (.text value) → '\r' ∉ value.toList
  place : ∃ m k : Nat, t.offset = k ∧ Becomes source unified m k ∧
    t.line = 1 + linesEnded source m

theorem notMem_text_of_ofLexeme? {c : Char} {kind : Kind} {lexeme : List Char} {value : String}
    (hc : c ∉ lexeme) (h : Literal.ofLexeme? kind lexeme = some (.text value)) :
    c ∉ value.toList := by
  unfold Literal.ofLexeme? at h
  split at h
  · cases h
    rw [String.toList_ofList]
    exact fun hm => hc (List.mem_of_mem_drop ((List.dropLast_subset _) hm))
  · cases h
  · cases h

theorem lexeme_subset_of_mem_tokensFrom {text : List Char} {p : Position} {t : Token}
    (h : t ∈ tokensFrom p (pieces text)) : ∀ c ∈ t.lexeme.toList, c ∈ text := by
  intro c hc
  have hcontent : t.content ∈ (pieces text).filterMap Piece.content? := by
    rw [← map_content_tokensFrom p]
    exact List.mem_map_of_mem h
  have hchars : c ∈ lexemeChars ((pieces text).filterMap Piece.content?) :=
    List.mem_flatMap.2 ⟨t.content, hcontent, hc⟩
  have hcount := count_lexemeChars_le c text
  have hpos := List.count_pos_iff.2 hchars
  exact List.count_pos_iff.1 (by omega)

theorem countedIn_of_mem_tokens {source : List Char} {unified : String}
    (h : Unifies source unified.toList) {t : Token} (ht : t ∈ (scan unified).tokens) :
    t.CountedIn source unified.toList := by
  have hreturn := return_notMem_of_unifies h
  rw [Scan.tokens, List.mem_append, List.mem_singleton] at ht
  rcases ht with ht | rfl
  · have hlexeme : '\r' ∉ t.lexeme.toList := fun hm =>
      hreturn (lexeme_subset_of_mem_tokensFrom ht _ hm)
    refine ⟨hlexeme, fun value hv => ?_, ?_⟩
    · rw [(exists_lexeme_of_mem_tokensFrom ht).2] at hv
      exact notMem_text_of_ofLexeme? hlexeme hv
    · rw [scan, ← Position.within_zero unified.toList] at ht
      obtain ⟨k, hoffset, hline⟩ := line_of_mem_tokensFrom (List.drop_zero ..) ht
      obtain ⟨m, hb⟩ := Newline.exists_becomes h k
      exact ⟨m, k, hoffset, hb, hline.trans (lineAt_of_becomes h hb)⟩
  · obtain ⟨m, hb⟩ := Newline.exists_becomes h unified.toList.length
    refine ⟨by simp [Token.endOfInput], by simp [Token.endOfInput],
      ⟨m, unified.toList.length, ?_, hb, ?_⟩⟩
    · exact Int.zero_add _
    · rw [← lineAt_of_becomes h hb, lineAt, List.take_length]
      rfl

/-! ### Errors -/

/-- Where a fault is noticed that begins after `start` characters: a bad character where it stands, and
what stays open at the end of the text. -/
def LexicalFault.place (fault : LexicalFault) (text : List Char) (start : Nat) : Nat :=
  match fault with
  | .unexpected _ => start
  | _ => text.length

def firstFault (text : List Char) : Option (Nat × Piece) :=
  (placedFrom 0 (pieces text)).find? fun q => q.2.isFaulty

/-- An error keeps no carriage return, and its line is counted in the source up to the place where the
first fault of the unified text is noticed. -/
structure LexicalError.CountedIn (e : LexicalError) (source unified : List Char) : Prop where
  diagnostic : '\r' ∉ e.diagnostic.message.toList
  message : '\r' ∉ e.message.toList
  place : ∃ start piece fault m, firstFault unified = some (start, piece) ∧
    piece.element = .fault fault ∧ e.diagnostic.message = fault.message ∧
    Becomes source unified m (fault.place unified start) ∧ e.line = 1 + linesEnded source m

theorem Report.OnLineOf.exists_fault {r : Report} {source : List Char} {start : Nat} {piece : Piece}
    (h : r.OnLineOf source start piece) :
    piece.element = .fault r.fault ∧ r.line = lineAt source (r.fault.place source start) ∧
      ∀ c, r.fault = .unexpected c → c ∈ source := by
  have hend : (1 : Int) + source.count '\n' = lineAt source source.length := by
    rw [lineAt, List.take_length]
  unfold OnLineOf at h
  split at h
  · rename_i c he
    obtain ⟨hf, hc, hline⟩ := h
    rw [hf]
    refine ⟨he, hline, fun d hd => ?_⟩
    cases hd
    exact List.mem_of_getElem? hc
  · rename_i fault hne he
    obtain ⟨hf, hline⟩ := h
    rw [hf]
    cases fault with
    | unexpected c => exact absurd rfl (hne c)
    | unterminatedString => exact ⟨he, hline.trans hend, by simp⟩
    | unterminatedComment => exact ⟨he, hline.trans hend, by simp⟩
  · contradiction

theorem DiagnosticCode.notMem_help {code : DiagnosticCode} {help : String} (h : code.help? = some help) :
    '\r' ∉ help.toList := by
  cases code with
  | unexpectedCharacter => cases h
  | unterminatedString =>
    obtain rfl := Option.some.inj h
    decide
  | unterminatedComment =>
    obtain rfl := Option.some.inj h
    decide

theorem Diagnostic.notMem_render {d : Diagnostic} (hseverity : '\r' ∉ (capitalised d.severity).toList)
    (hmessage : '\r' ∉ d.message.toList) (hhelp : ∀ help, d.help = some help → '\r' ∉ help.toList) :
    '\r' ∉ d.render.toList := by
  have hline : '\r' ∉ (toString d.line).toList := (inline_toString_int d.line).notMem rfl
  have hhead : '\r' ∉
      ("[line " ++ toString d.line ++ "] " ++ capitalised d.severity ++ ": " ++ d.message).toList := by
    simp only [String.toList_append, List.mem_append, not_or]
    exact ⟨⟨⟨⟨⟨by decide, hline⟩, by decide⟩, hseverity⟩, by decide⟩, hmessage⟩
  cases hd : d.help with
  | none =>
    simp only [render, hd]
    exact hhead
  | some help =>
    simp only [render, hd]
    split
    · exact hhead
    · rw [String.toList_append, String.toList_append, List.mem_append, List.mem_append, not_or, not_or]
      exact ⟨⟨hhead, by decide⟩, hhelp help hd⟩

theorem Diagnostic.help_ofReport (r : Report) :
    (ofReport r).help = (DiagnosticCode.ofFault r.fault).help? := by
  have hcode : DiagnosticCode.ofMessage? r.message = some (.ofFault r.fault) :=
    DiagnosticCode.ofMessage?_message r.fault
  simp only [ofReport, ofMessage, hcode, Option.bind_some]

theorem countedIn_of_reports {source : List Char} {unified : String}
    (h : Unifies source unified.toList) {r : Report} {more : List Report}
    (hr : (scan unified).reports = r :: more) :
    LexicalError.CountedIn ⟨.ofReport r⟩ source unified.toList := by
  have hlines := forall₂_reports_lines (List.drop_zero (l := unified.toList))
  have hreports : reportsFrom (.within unified.toList 0) (pieces unified.toList) = r :: more := by
    rw [Position.within_zero]
    exact hr
  rw [hreports] at hlines
  obtain ⟨⟨start, piece⟩, qs, hon, -, hfaulty⟩ := List.forall₂_cons_right_iff.1 hlines
  obtain ⟨hpiece, hline, hmem⟩ := hon.exists_fault
  have hfirst : firstFault unified.toList = some (start, piece) := by
    rw [firstFault, ← List.head?_filter, hfaulty, List.head?_cons]
  have hreturn := return_notMem_of_unifies h
  have hmessage : '\r' ∉ r.message.toList :=
    LexicalFault.notMem_message rfl fun c hc he => hreturn (he ▸ hmem c hc)
  obtain ⟨m, hb⟩ := Newline.exists_becomes h (r.fault.place unified.toList start)
  have hseverity : '\r' ∉ (capitalised "error").toList := by decide +kernel
  refine ⟨hmessage, Diagnostic.notMem_render hseverity hmessage fun help hhelp => ?_, ?_⟩
  · rw [Diagnostic.help_ofReport] at hhelp
    exact DiagnosticCode.notMem_help hhelp
  · exact ⟨start, piece, r.fault, m, hfirst, hpiece, rfl, hb, hline.trans (lineAt_of_becomes h hb)⟩

theorem countedIn_of_readStrictly {source : List Char} {unified : String}
    (h : Unifies source unified.toList) {filename : String} {e : LexicalError}
    (he : readStrictly unified filename = .error e) : e.CountedIn source unified.toList := by
  cases hr : (scan unified).reports with
  | nil =>
    rw [readStrictly_of_reports_nil hr] at he
    cases he
  | cons r more =>
    rw [readStrictly_of_reports_cons hr] at he
    cases he
    exact countedIn_of_reports h hr

/-! ### Files -/

section

variable {d : Directory} {path : String} {bytes : List UInt8}

theorem readText_of_encode (hfile : d.lookup path = some (.file bytes)) {text : List Char}
    (h : Utf8.encode text = bytes) :
    d.readText path = .ok (String.ofList (Newline.normalise text)) := by
  have hdecode := Utf8.decode_eq_ok_iff.2 h
  rw [Directory.readText_of_lookup hfile, decodeText, hdecode]
  rfl

theorem readText_of_fault (hfile : d.lookup path = some (.file bytes)) {fault : Utf8.Fault}
    (h : Utf8.decode bytes = .error fault) : d.readText path = .error (.undecodable fault) := by
  rw [Directory.readText_of_lookup hfile, decodeText, h]
  rfl

theorem readFileStrictly_of_fault (hfile : d.lookup path = some (.file bytes)) {fault : Utf8.Fault}
    (h : Utf8.decode bytes = .error fault) :
    readFileStrictly d path = .error (.unreadable path (.undecodable fault)) := by
  rw [readFileStrictly, readText_of_fault hfile h]

theorem countedIn_of_readFileStrictly {source : List Char} {unified : String}
    (h : Unifies source unified.toList) (hread : d.readText path = .ok unified) :
    (∀ ts, readFileStrictly d path = .ok ts → ∀ t ∈ ts, t.CountedIn source unified.toList) ∧
      ∀ e, readFileStrictly d path = .error e →
        ∃ failure, e = .lexical failure ∧ failure.CountedIn source unified.toList := by
  rw [readFileStrictly_of_readText hread path]
  cases hstrict : readStrictly unified path with
  | ok ts =>
    obtain ⟨-, rfl⟩ := readStrictly_eq_ok_iff.1 hstrict
    refine ⟨fun ts hts t ht => ?_, fun e he => ?_⟩
    · cases hts
      exact countedIn_of_mem_tokens h ht
    · cases he
  | error failure =>
    refine ⟨fun ts hts => ?_, fun e he => ?_⟩
    · cases hts
    · cases he
      exact ⟨failure, rfl, countedIn_of_readStrictly h hstrict⟩

/-- A file that holds the bytes of a text is read as that text with each of its line ends turned into
one line feed, and its line ends count once each. A file that holds other bytes gives no tokens: it is
refused at the place where the longest text at its head ends. -/
theorem readFileStrictly_bytes (hfile : d.lookup path = some (.file bytes)) :
    (∀ source : String, source.toUTF8.data.toList = bytes →
      (∀ other : String, other.toUTF8.data.toList = bytes → other = source) ∧
      ∃ unified : String,
        (∀ out, Unifies source.toList out ↔ out = unified.toList) ∧
        (∀ filename, readFileStrictly d path = (readStrictly unified filename).mapError .lexical) ∧
        (∀ ts, readFileStrictly d path = .ok ts →
          ∀ t ∈ ts, t.CountedIn source.toList unified.toList) ∧
        (∀ e, readFileStrictly d path = .error e →
          ∃ failure, e = .lexical failure ∧ failure.CountedIn source.toList unified.toList)) ∧
    ((∀ source : String, source.toUTF8.data.toList ≠ bytes) →
      ∃ fault, readFileStrictly d path = .error (.unreadable path (.undecodable fault)) ∧
        bytes[fault.position]? = some fault.start ∧
        (∃ source : String, source.toUTF8.data.toList = bytes.take fault.position) ∧
        (∀ (source : String) (n : Nat), source.toUTF8.data.toList = bytes.take n →
          n ≤ bytes.length → n ≤ fault.position) ∧
        ∃ lead trail,
          fault.message = lead ++ "in position " ++ toString fault.position ++ trail ∧
          (trail.toList.head? = some ':' ∨ trail.toList.head? = some '-')) := by
  constructor
  · intro source hsource
    rw [Utf8.toUTF8_eq_encode] at hsource
    have hread := readText_of_encode hfile hsource
    have hunified : Unifies source.toList (String.ofList (Newline.normalise source.toList)).toList := by
      rw [String.toList_ofList]
      exact Newline.unifies_normalise source.toList
    refine ⟨fun other hother => ?_, String.ofList (Newline.normalise source.toList), fun out => ?_,
      readFileStrictly_of_readText hread, countedIn_of_readFileStrictly hunified hread⟩
    · rw [Utf8.toUTF8_eq_encode, ← hsource] at hother
      exact String.toList_inj.1 (Utf8.encode_injective hother)
    · rw [String.toList_ofList, Newline.unifies_iff]
  · intro hnone
    cases hdecode : Utf8.decode bytes with
    | ok text =>
      refine absurd ?_ (hnone (String.ofList text))
      rw [Utf8.toUTF8_eq_encode, String.toList_ofList]
      exact Utf8.decode_eq_ok_iff.1 hdecode
    | error fault =>
      obtain ⟨hstart, ⟨text, htext⟩, hlongest⟩ := Utf8.longest_of_decode hdecode
      refine ⟨fault, readFileStrictly_of_fault hfile hdecode, hstart, ⟨String.ofList text, ?_⟩,
        fun source n hsource hn => ?_, fault.message_position⟩
      · rw [Utf8.toUTF8_eq_encode, String.toList_ofList, htext]
      · rw [Utf8.toUTF8_eq_encode] at hsource
        exact hlongest source.toList n hsource hn

end

/-- A file with two kinds of line ends, and one with a stray character before the fault that refuses it. -/
theorem readFileStrictly_bytes_mixed :
    let source := "a\r\n\"b\rc\""
    let d : Directory :=
      [({ text := "a.lox" }, .file source.toUTF8.data.toList),
        ({ text := "b.lox" }, .file [0x40, 0x0D, 0xE2, 0x82])]
    (readFileStrictly d "a.lox" = (readStrictly "a\n\"b\nc\"" "a.lox").mapError .lexical) ∧
      (∀ ts, readFileStrictly d "a.lox" = .ok ts →
        ∀ t ∈ ts, t.CountedIn source.toList "a\n\"b\nc\"".toList) ∧
      linesEnded source.toList 7 = 2 ∧
      (∀ other : String, other.toUTF8.data.toList ≠ [0x40, 0x0D, 0xE2, 0x82]) ∧
      ∃ fault, readFileStrictly d "b.lox" = .error (.unreadable "b.lox" (.undecodable fault)) ∧
        fault.position = 2 ∧
        fault.message = "'utf-8' codec can't decode bytes in position 2-3: unexpected end of data" := by
  intro source d
  have hdecode : Utf8.decode [0x40, 0x0D, 0xE2, 0x82] = .error ⟨2, 0xE2, 1, .endOfData⟩ := by
    decide +kernel
  have hnone : ∀ other : String, other.toUTF8.data.toList ≠ [0x40, 0x0D, 0xE2, 0x82] := by
    intro other he
    rw [Utf8.toUTF8_eq_encode, ← Utf8.decode_eq_ok_iff, hdecode] at he
    cases he
  have hunifies : Unifies source.toList "a\n\"b\nc\"".toList := Newline.unifies_iff.2 (by decide)
  have ha : d.lookup "a.lox" = some (.file source.toUTF8.data.toList) := rfl
  have hb : d.lookup "b.lox" = some (.file [0x40, 0x0D, 0xE2, 0x82]) := rfl
  obtain ⟨-, unified, honly, hsame, htokens, -⟩ := (readFileStrictly_bytes ha).1 source rfl
  obtain rfl : "a\n\"b\nc\"" = unified := String.toList_inj.1 ((honly _).1 hunifies)
  obtain ⟨fault, hfault, -⟩ := (readFileStrictly_bytes hb).2 hnone
  obtain rfl : fault = ⟨2, 0xE2, 1, .endOfData⟩ := by
    have he := hfault.symm.trans (readFileStrictly_of_fault hb hdecode)
    cases he
    rfl
  exact ⟨hsame "a.lox", htokens, by decide, hnone, _, hfault, rfl, by decide⟩

end LoxFrontEnd
