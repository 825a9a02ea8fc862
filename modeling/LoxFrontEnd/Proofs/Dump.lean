import LoxFrontEnd.Proofs.Agreement
import LoxFrontEnd.Proofs.Content
import LoxFrontEnd.Proofs.Numeral

/-!
# Dumps are lossless

What the command prints for a file can be read back. Every line of a dump has four fields, of which the
first two give kind and lexeme, hence the value, and the last the line; every line of the second stream
gives line and message. No field or message breaks its line, so lines are parted at newlines.
-/

namespace LoxFrontEnd

/-! ### Fields of a line -/

/-- Without tabs in the fields, a line has one tab fewer than fields. -/
theorem count_tab_intercalate {fields : List (List Char)} (h : ∀ field ∈ fields, Inline field) :
    (['\t'].intercalate fields).count '\t' = fields.length - 1 := by
  induction fields with
  | nil => rfl
  | cons field more ih =>
    obtain ⟨hfield, hmore⟩ := List.forall_mem_cons.1 h
    have hzero : field.count '\t' = 0 := List.count_eq_zero.2 (hfield.notMem rfl)
    cases more with
    | nil => rw [List.intercalate_singleton, hzero, List.length_singleton]
    | cons next more =>
      rw [List.intercalate_cons_cons, List.count_append, List.count_append, ih hmore, hzero,
        List.count_singleton_self, List.length_cons]
      simp only [List.length_cons]
      omega

theorem notMem_intercalate_tab {fields : List (List Char)} {c : Char} (hc : c ≠ '\t')
    (hsep : isSeparator c = true) (h : ∀ field ∈ fields, Inline field) :
    c ∉ ['\t'].intercalate fields := by
  induction fields with
  | nil => exact List.not_mem_nil
  | cons field more ih =>
    obtain ⟨hfield, hmore⟩ := List.forall_mem_cons.1 h
    cases more with
    | nil =>
      rw [List.intercalate_singleton]
      exact hfield.notMem hsep
    | cons next more =>
      rw [List.intercalate_cons_cons, List.mem_append, List.mem_append, List.mem_singleton]
      rintro ((hm | hm) | hm)
      · exact hfield.notMem hsep hm
      · exact hc hm
      · exact ih hmore hm

/-! ### Lines of tokens

The same lines as in a dump, for any choice of the printable characters.
-/

def quotedBy (printable : Char → Bool) (text : String) : String :=
  String.ofList (Quoted.quote printable text.toList)

def Literal.renderBy (printable : Char → Bool) : Literal → String
  | .text s => quotedBy printable s
  | .number x => String.ofList x.render

namespace Token

def literalField (printable : Char → Bool) (t : Token) : String :=
  match t.literal with
  | none => ""
  | some l => l.renderBy printable

def dumpLineBy (printable : Char → Bool) (t : Token) : String :=
  t.kind.name ++ "\t" ++ quotedBy printable t.lexeme ++ "\t" ++ t.literalField printable ++
    "\t(line " ++ toString t.line ++ ")"

theorem dumpLineBy_isPrintable (t : Token) : t.dumpLineBy isPrintable = t.dumpLine := by
  obtain ⟨kind, lexeme, literal, line, offset⟩ := t
  cases literal with
  | none => rfl
  | some l =>
    cases l with
    | text s => rfl
    | number x => rfl

def dumpFields (printable : Char → Bool) (t : Token) : List (List Char) :=
  [t.kind.name.toList, (quotedBy printable t.lexeme).toList, (t.literalField printable).toList,
    "(line ".toList ++ ((toString t.line).toList ++ [')'])]

theorem toList_dumpLineBy (printable : Char → Bool) (t : Token) :
    (t.dumpLineBy printable).toList = ['\t'].intercalate (t.dumpFields printable) := by
  simp only [dumpLineBy, dumpFields, String.toList_append, List.intercalate_cons_cons,
    List.intercalate_singleton, List.append_assoc]
  rfl

theorem inline_name (k : Kind) : Inline k.name.toList := by
  cases k with
  | keyword word => cases word <;> decide
  | _ => decide

theorem inline_quotedBy (printable : Char → Bool) (text : String) :
    Inline (quotedBy printable text).toList := by
  rw [quotedBy, String.toList_ofList]
  exact Quoted.inline_quote printable text.toList

theorem inline_literalField (printable : Char → Bool) (t : Token) :
    Inline (t.literalField printable).toList := by
  rw [literalField]
  split
  · decide
  · rename_i l hl
    cases l with
    | text s => exact inline_quotedBy printable s
    | number x =>
      rw [Literal.renderBy, String.toList_ofList]
      exact x.inline_render

theorem inline_dumpFields (printable : Char → Bool) (t : Token) :
    ∀ field ∈ t.dumpFields printable, Inline field := by
  have hline : Inline ("(line ".toList ++ ((toString t.line).toList ++ [')'])) :=
    inline_append.2 ⟨by decide, inline_append.2 ⟨inline_toString_int t.line, by decide⟩⟩
  simp only [dumpFields, List.forall_mem_cons]
  exact ⟨inline_name t.kind, inline_quotedBy printable t.lexeme, inline_literalField printable t,
    hline, fun _ h => absurd h List.not_mem_nil⟩

def visible (t : Token) : Kind × String × Option Literal × Int :=
  (t.kind, t.lexeme, t.literal, t.line)

end Token

/-- The token that a line of a dump shows. The value is found again from kind and lexeme. -/
def readDumpLine? (text : List Char) : Option (Kind × String × Option Literal × Int) :=
  match text.splitOn '\t' with
  | [name, lexeme, _, line] =>
    (Kind.ofName? (String.ofList name)).map fun kind =>
      (kind, String.ofList (Quoted.unquote lexeme),
        Literal.ofLexeme? kind (Quoted.unquote lexeme),
        readInteger (line.drop "(line ".toList.length).dropLast)
  | _ => none

theorem readDumpLine?_dumpLineBy (printable : Char → Bool) {t : Token}
    (h : t.literal = Literal.ofLexeme? t.kind t.lexeme.toList) :
    readDumpLine? (t.dumpLineBy printable).toList = some t.visible := by
  have hfields : (t.dumpLineBy printable).toList.splitOn '\t' = t.dumpFields printable := by
    rw [t.toList_dumpLineBy]
    exact List.splitOn_intercalate '\t'
      (fun field hm => (t.inline_dumpFields printable field hm).notMem rfl) (List.cons_ne_nil _ _)
  have hlexeme : Quoted.unquote (quotedBy printable t.lexeme).toList = t.lexeme.toList := by
    rw [quotedBy, String.toList_ofList, Quoted.unquote_quote]
  have hline : readInteger (("(line ".toList ++ ((toString t.line).toList ++ [')'])).drop
      "(line ".toList.length).dropLast = t.line := by
    rw [List.drop_left, List.dropLast_concat, readInteger_toString]
  rw [readDumpLine?, hfields]
  simp only [Token.dumpFields, hlexeme, hline, String.ofList_toList, Kind.ofName?_name,
    Option.map_some]
  rw [← h, Token.visible]

/-! ### Lines of reports -/

/-- Line and message that a line of the second stream shows. -/
def readReport (text : List Char) : Int × String :=
  let rest := text.drop "[line ".toList.length
  (readInteger (rest.takeWhile (· != ']')),
    String.ofList ((rest.dropWhile (· != ']')).drop "] Error: ".toList.length))

theorem readReport_render (r : Report) : readReport r.render.toList = (r.line, r.message) := by
  have hnumber : ∀ c ∈ (toString r.line).toList, (c != ']') = true := by
    intro c hc
    rcases isDigit_or_minus_of_mem hc with hd | rfl
    · exact bne_iff_ne.2 fun he => absurd (he ▸ hd) (by decide)
    · rfl
  have htext : r.render.toList =
      "[line ".toList ++ ((toString r.line).toList ++ ("] Error: ".toList ++ r.message.toList)) := by
    simp only [Report.render, String.toList_append, List.append_assoc]
  have htake : ((toString r.line).toList ++ ("] Error: ".toList ++ r.message.toList)).takeWhile
      (· != ']') = (toString r.line).toList := by
    rw [List.takeWhile_append_of_pos hnumber]
    exact List.append_nil _
  have hrest : ((toString r.line).toList ++ ("] Error: ".toList ++ r.message.toList)).dropWhile
      (· != ']') = "] Error: ".toList ++ r.message.toList := by
    rw [List.dropWhile_append_of_pos hnumber]
    rfl
  simp only [readReport, htext, List.drop_left, htake, hrest, readInteger_toString,
    String.ofList_toList]

theorem exists_piece_of_mem_reportsFrom {p : Position} {ps : List Piece} {r : Report}
    (h : r ∈ reportsFrom p ps) : ∃ piece ∈ ps, piece.element = .fault r.fault := by
  induction ps generalizing p with
  | nil => cases h
  | cons piece more ih =>
    rw [reportsFrom, List.mem_append, Option.mem_toList] at h
    rcases h with h | h
    · refine ⟨piece, List.mem_cons_self, ?_⟩
      rw [Piece.report?] at h
      split at h
      · rename_i fault he
        cases h
        exact he
      · cases h
    · obtain ⟨q, hq, he⟩ := ih h
      exact ⟨q, List.mem_cons_of_mem piece hq, he⟩

/-- A message has a separator in it only where it quotes one. -/
theorem LexicalFault.notMem_message {fault : LexicalFault} {m : Char} (hm : isSeparator m = true)
    (h : ∀ c, fault = .unexpected c → c ≠ m) : m ∉ fault.message.toList := by
  cases fault with
  | unexpected c =>
    have hhead : Inline (unexpectedCharacter ++ ": '").toList := by decide
    have htail : Inline "'.".toList := by decide
    simp only [message, unexpectedMessage, String.toList_append, String.toList_ofList,
      List.mem_append, List.mem_singleton, not_or]
    rw [String.toList_append] at hhead
    obtain ⟨hwords, hquote⟩ := inline_append.1 hhead
    exact ⟨⟨⟨hwords.notMem hm, hquote.notMem hm⟩, (h c rfl).symm⟩, htail.notMem hm⟩
  | unterminatedString =>
    have hmessage : Inline unterminatedString.message.toList := by decide
    exact hmessage.notMem hm
  | unterminatedComment =>
    have hmessage : Inline unterminatedComment.message.toList := by decide
    exact hmessage.notMem hm

/-- A newline is blank, so no message quotes it. -/
theorem newline_notMem_render {source : String} {r : Report} (h : r ∈ (scan source).reports) :
    '\n' ∉ r.render.toList := by
  have hmessage : '\n' ∉ r.message.toList := by
    obtain ⟨piece, hp, he⟩ := exists_piece_of_mem_reportsFrom h
    refine LexicalFault.notMem_message rfl fun c hf => ?_
    rintro rfl
    rw [hf] at he
    obtain ⟨-, hlead⟩ := text_of_mem_pieces_unexpected hp he
    rw [Lead.of_newline] at hlead
    cases hlead
  have hline : '\n' ∉ (toString r.line).toList := (inline_toString_int r.line).notMem rfl
  simp only [Report.render, String.toList_append, List.mem_append, not_or]
  exact ⟨⟨⟨by decide, hline⟩, by decide⟩, hmessage⟩

/-! ### Lines of a stream -/

theorem toList_lines_cons (text : String) (more : List String) :
    (Command.lines (text :: more)).toList = text.toList ++ '\n' :: (Command.lines more).toList := by
  simp [Command.lines, String.toList_join]

theorem splitOn_lines {texts : List String} (h : ∀ text ∈ texts, '\n' ∉ text.toList) :
    (Command.lines texts).toList.splitOn '\n' = texts.map String.toList ++ [[]] := by
  induction texts with
  | nil => rfl
  | cons text more ih =>
    obtain ⟨htext, hmore⟩ := List.forall_mem_cons.1 h
    rw [toList_lines_cons, List.splitOn_append_cons_self_of_not_mem htext, ih hmore, List.map_cons,
      List.cons_append]

/-- What is written stays on one line, and a reader of that line finds what is to be seen of it. -/
structure ReadBack {α γ : Type} (write : α → String) (read : List Char → γ) (view : α → γ)
    (x : α) : Prop where
  oneLine : '\n' ∉ (write x).toList
  read_eq : read (write x).toList = view x

section

variable {α γ : Type} {write : α → String} {read : List Char → γ} {view : α → γ} {xs ys : List α}

theorem splitOn_lines_map (hx : ∀ x ∈ xs, ReadBack write read view x) :
    (Command.lines (xs.map write)).toList.splitOn '\n' =
      xs.map (fun x => (write x).toList) ++ [[]] := by
  rw [splitOn_lines (List.forall_mem_map.2 fun x hm => (hx x hm).oneLine), List.map_map]
  rfl

theorem map_read_eq (hx : ∀ x ∈ xs, ReadBack write read view x) :
    (xs.map fun x => (write x).toList).map read = xs.map view := by
  rw [List.map_map]
  exact List.map_congr_left fun x hm => (hx x hm).read_eq

theorem map_view_eq_of_lines_eq (hx : ∀ x ∈ xs, ReadBack write read view x)
    (hy : ∀ y ∈ ys, ReadBack write read view y)
    (h : Command.lines (xs.map write) = Command.lines (ys.map write)) : xs.map view = ys.map view := by
  have hsplit : xs.map (fun x => (write x).toList) ++ [[]] =
      ys.map (fun y => (write y).toList) ++ [[]] := by
    rw [← splitOn_lines_map hx, ← splitOn_lines_map hy, h]
  rw [← map_read_eq hx, ← map_read_eq hy, List.append_cancel_right hsplit]

end

/-! ### What the command prints for a file -/

theorem readBack_dumpLineBy (printable : Char → Bool) (source : String) :
    ∀ t ∈ (scan source).tokens,
      ReadBack (Token.dumpLineBy printable) readDumpLine? (fun t => some t.visible) t := by
  intro t ht
  refine ⟨?_, readDumpLine?_dumpLineBy printable (literal_of_mem_tokens ht)⟩
  rw [t.toList_dumpLineBy]
  exact notMem_intercalate_tab (by decide) rfl (t.inline_dumpFields printable)

theorem readBack_render (source : String) :
    ∀ r ∈ (scan source).reports,
      ReadBack Report.render readReport (fun r => (r.line, r.message)) r :=
  fun r hr => ⟨newline_notMem_render hr, readReport_render r⟩

def Command.dumpBy (printable : Char → Bool) (s : Scan) : String :=
  lines (s.tokens.map (Token.dumpLineBy printable))

theorem Command.dumpBy_isPrintable (s : Scan) :
    dumpBy isPrintable s = lines (s.tokens.map Token.dumpLine) :=
  congrArg lines (List.map_congr_left fun t _ => t.dumpLineBy_isPrintable)

/-- Dumps are lossless, whatever characters are printable. A dump is one line for each token, with three
tabs and no other separator in it, and the line shows the token; so texts with equal dumps have the same
tokens up to offsets. The second stream is one line for each report, and likewise shows the reports.
These are the two streams that the command prints for any file that can be read. -/
theorem dump_lossless (printable : Char → Bool) :
    (∀ source : String,
      (Command.dumpBy printable (scan source)).toList.splitOn '\n' =
          (scan source).tokens.map (fun t => (t.dumpLineBy printable).toList) ++ [[]] ∧
        ∀ t ∈ (scan source).tokens,
          (t.dumpLineBy printable).toList.count '\t' = 3 ∧
          '\n' ∉ (t.dumpLineBy printable).toList ∧ '\r' ∉ (t.dumpLineBy printable).toList ∧
          readDumpLine? (t.dumpLineBy printable).toList =
            some (t.kind, t.lexeme, t.literal, t.line)) ∧
    (∀ first second : String,
      Command.dumpBy printable (scan first) = Command.dumpBy printable (scan second) →
      (scan first).tokens.map (fun t => (t.kind, t.lexeme, t.literal, t.line)) =
        (scan second).tokens.map (fun t => (t.kind, t.lexeme, t.literal, t.line))) ∧
    (∀ source : String,
      (Command.lines ((scan source).reports.map Report.render)).toList.splitOn '\n' =
          (scan source).reports.map (fun r => r.render.toList) ++ [[]] ∧
        ∀ r ∈ (scan source).reports, readReport r.render.toList = (r.line, r.message)) ∧
    (∀ first second : String,
      Command.lines ((scan first).reports.map Report.render) =
        Command.lines ((scan second).reports.map Report.render) →
      (scan first).reports.map (fun r => (r.line, r.message)) =
        (scan second).reports.map (fun r => (r.line, r.message))) ∧
    ∀ (d : Directory) (path source : String) (arguments : List String) (input : String),
      d.readText path = .ok source →
      Invocation.parse arguments = .run false (some path) → path ≠ "" →
      (Command.run arguments d input).stdout = Command.dumpBy isPrintable (scan source) ∧
      (Command.run arguments d input).stderr =
        Command.lines ((scan source).reports.map Report.render) := by
  refine ⟨fun source => ⟨?_, fun t ht => ?token⟩, fun first second h => ?_,
    fun source => ⟨?_, fun r _ => readReport_render r⟩, fun first second h => ?_,
    fun d path source arguments input htext hparse hpath => ?command⟩
  · exact splitOn_lines_map (readBack_dumpLineBy printable source)
  case token =>
    -- three tabs part the four fields, and no field has a separator in it
    have hfields := t.inline_dumpFields printable
    have htabs := count_tab_intercalate hfields
    have hreturn := notMem_intercalate_tab (c := '\r') (by decide) rfl hfields
    rw [← t.toList_dumpLineBy] at htabs hreturn
    obtain ⟨hnewline, hread⟩ := readBack_dumpLineBy printable source t ht
    exact ⟨htabs, hnewline, hreturn, hread⟩
  · have hviews := map_view_eq_of_lines_eq (readBack_dumpLineBy printable first)
      (readBack_dumpLineBy printable second) h
    refine (List.map_inj_right fun _ _ => Option.some.inj).1 ?_
    rw [List.map_map, List.map_map]
    exact hviews
  · exact splitOn_lines_map (readBack_render source)
  · exact map_view_eq_of_lines_eq (readBack_render first) (readBack_render second) h
  case command =>
    -- the command prints with its own table of printable characters
    rw [Command.run_script hparse hpath, htext, Command.runFile_ok, Command.dumpBy_isPrintable]
    exact ⟨rfl, rfl⟩

/-- A string over two lines with a tab, a backslash and a mark in it, and a stray character. -/
theorem dump_lossless_string :
    let source := "\"a\tb\\\n'\" @"
    let d : Directory := [({ text := "a.lox" }, .file source.toUTF8.data.toList)]
    d.readText "a.lox" = .ok source ∧
      Invocation.parse ["a.lox"] = .run false (some "a.lox") ∧
      (Command.run ["a.lox"] d "").stdout.toList.splitOn '\n' =
        [("STRING\t'\"a\\tb\\\\\\n\\'\"'\t\"a\\tb\\\\\\n'\"\t(line 1)").toList,
          "EOF\t''\t\t(line 2)".toList, []] ∧
      (Command.run ["a.lox"] d "").stderr.toList.splitOn '\n' =
        ["[line 2] Error: Unexpected character: '@'.".toList, []] ∧
      Command.dumpBy isPrintable (scan "a") = Command.dumpBy isPrintable (scan " a") ∧
      (scan "a").tokens.map (fun t => (t.kind, t.lexeme, t.literal, t.line)) =
        (scan " a").tokens.map (fun t => (t.kind, t.lexeme, t.literal, t.line)) := by
  intro source d
  have htext : d.readText "a.lox" = .ok source := readText_encoded (by decide) rfl
  have hparse : Invocation.parse ["a.lox"] = .run false (some "a.lox") := by decide
  have hsame : Command.dumpBy isPrintable (scan "a") = Command.dumpBy isPrintable (scan " a") := by
    decide +kernel
  obtain ⟨hdump, hequal, hreports, -, hrun⟩ := dump_lossless isPrintable
  obtain ⟨hstdout, hstderr⟩ := hrun d "a.lox" source ["a.lox"] "" htext hparse (by decide)
  refine ⟨htext, hparse, ?_, ?_, hsame, hequal _ _ hsame⟩
  · rw [hstdout, (hdump source).1]
    decide +kernel
  · rw [hstderr, (hreports source).1]
    decide +kernel

end LoxFrontEnd
