import LoxFrontEnd.Proofs.FileText

/-!
# How a run with a script ends

A path is no name at all when it holds a null character. A script at a name is missing or a directory,
or refused by the system, or a file that holds a text, or one that holds none. The command exits with a
status of its own for a script that cannot be opened, and with one of two for a text. What is no name,
and a file of bytes that are no text, cut it short instead, with nothing printed.
-/

namespace LoxFrontEnd

/-! ### States of a script -/

/-- The path is a name, and the system has nothing to open there. -/
def Directory.Unopened (d : Directory) (path : String) : Prop :=
  '\x00' ∉ path.toList ∧
    (d.lookup path = none ∨ d.lookup path = some .directory ∨
      ∃ e, d.lookup path = some (.refused e))

def Directory.HoldsText (d : Directory) (path source : String) : Prop :=
  d.lookup path = some (.file source.toUTF8.data.toList)

/-- There is a file at the path, and its bytes are those of no text. -/
def Directory.HoldsNoText (d : Directory) (path : String) : Prop :=
  ∃ bytes, d.lookup path = some (.file bytes) ∧ ∀ source : String, source.toUTF8.data.toList ≠ bytes

theorem Directory.states (d : Directory) (path : String) :
    '\x00' ∈ path.toList ∨ d.Unopened path ∨ (∃ source, d.HoldsText path source) ∨
      d.HoldsNoText path := by
  by_cases hnull : '\x00' ∈ path.toList
  · exact .inl hnull
  · cases hlookup : d.lookup path with
    | none => exact .inr (.inl ⟨hnull, .inl hlookup⟩)
    | some entry =>
      cases entry with
      | directory => exact .inr (.inl ⟨hnull, .inr (.inl hlookup)⟩)
      | refused e => exact .inr (.inl ⟨hnull, .inr (.inr ⟨e, hlookup⟩)⟩)
      | file bytes =>
        -- a file holds a text or none, whatever the reading of it finds
        by_cases htext : ∃ source : String, source.toUTF8.data.toList = bytes
        · obtain ⟨source, rfl⟩ := htext
          exact .inr (.inr (.inl ⟨source, hlookup⟩))
        · exact .inr (.inr (.inr ⟨bytes, hlookup, not_exists.1 htext⟩))

theorem Directory.Unopened.exists_error {d : Directory} {path : String} (h : d.Unopened path) :
    ∃ e, d.readText path = .error (.system e) := by
  obtain ⟨hnull, h | h | ⟨e, h⟩⟩ := h
  · exact ⟨d.absence path, by rw [readText, if_neg hnull, h]⟩
  · exact ⟨.isDirectory, by rw [readText, if_neg hnull, h]⟩
  · exact ⟨e, by rw [readText, if_neg hnull, h]⟩

/-! ### Endings -/

def SystemError.line (path : String) (e : SystemError) : String :=
  "error: cannot read " ++ path ++ ": " ++ e.reason ++ "\n"

theorem ExitStatus.code_of_reports (reports : List Report) :
    let status : ExitStatus := if reports = [] then .ok else .dataError
    (status.code = 65 ↔ reports ≠ []) ∧ (status.code = 0 ↔ reports = []) := by
  cases reports <;> simp [code]

namespace Command

section

variable {path : String} {d : Directory}

theorem runFile_of_null (h : '\x00' ∈ path.toList) :
    runFile false path (d.readText path) = { ending := .interrupted .nullInName } := by
  rw [Directory.readText, if_pos h]
  exact runFile_interrupted path (by simp)

theorem runFile_of_unopened (h : d.Unopened path) :
    ∃ e, d.readText path = .error (.system e) ∧
      runFile false path (d.readText path) = { stderr := e.line path, ending := .exited .noInput } := by
  obtain ⟨e, hread⟩ := h.exists_error
  refine ⟨e, hread, ?_⟩
  rw [hread]
  exact runFile_system path e

theorem runFile_of_holdsText {source : String} (h : d.HoldsText path source) :
    (runFile false path (d.readText path)).ending =
      .exited (if (scan (String.ofList (Newline.normalise source.toList))).reports = [] then .ok
        else .dataError) := by
  rw [Directory.HoldsText, Utf8.toUTF8_eq_encode] at h
  rw [readText_of_encode h rfl, runFile_ok]

theorem runFile_of_holdsNoText (h : d.HoldsNoText path) :
    ∃ fault, runFile false path (d.readText path) =
      { ending := .interrupted (.undecodable fault) } := by
  obtain ⟨bytes, hlookup, hnone⟩ := h
  obtain ⟨fault, hfault⟩ := Utf8.exists_fault_iff.2 hnone
  refine ⟨fault, ?_⟩
  rw [readText_of_fault hlookup hfault]
  exact runFile_interrupted path (by simp)

theorem runFile_exited_iff :
    (∃ status, (runFile false path (d.readText path)).ending = .exited status ∧
        (status.code = 0 ∨ status.code = 65 ∨ status.code = 66)) ↔
      '\x00' ∉ path.toList ∧ ¬d.HoldsNoText path := by
  constructor
  · rintro ⟨status, hstatus, -⟩
    refine ⟨fun h => ?_, fun h => ?_⟩
    · rw [runFile_of_null h] at hstatus
      cases hstatus
    · obtain ⟨fault, hrun⟩ := runFile_of_holdsNoText h
      rw [hrun] at hstatus
      cases hstatus
  · rintro ⟨hname, hsome⟩
    rcases d.states path with h | h | ⟨source, h⟩ | h
    · exact absurd h hname
    · obtain ⟨e, -, hrun⟩ := runFile_of_unopened h
      exact ⟨.noInput, by rw [hrun], .inr (.inr rfl)⟩
    · refine ⟨_, runFile_of_holdsText h, ?_⟩
      split
      · exact .inl rfl
      · exact .inr (.inl rfl)
    · exact absurd h hsome

theorem runFile_noInput_iff :
    (∃ status, (runFile false path (d.readText path)).ending = .exited status ∧ status.code = 66) ↔
      d.Unopened path := by
  constructor
  · rintro ⟨status, hstatus, hcode⟩
    -- any other state of the script ends in another way
    rcases d.states path with h | h | ⟨source, h⟩ | h
    · rw [runFile_of_null h] at hstatus
      cases hstatus
    · exact h
    · rw [runFile_of_holdsText h] at hstatus
      cases hstatus
      split at hcode <;> cases hcode
    · obtain ⟨fault, hrun⟩ := runFile_of_holdsNoText h
      rw [hrun] at hstatus
      cases hstatus
  · intro h
    obtain ⟨e, -, hrun⟩ := runFile_of_unopened h
    exact ⟨.noInput, by rw [hrun], rfl⟩

end

end Command

/-- With a script alone, the command exits unless the script has a null character in its name or is a
file of bytes that are no text; then it is cut short and has printed nothing. It exits with 66 exactly
when the script has a name and cannot be opened, and all that is printed is the reason; for a text the
status tells whether the scan reported anything. -/
theorem script_endings {path : String} (hparse : Invocation.parse [path] = .run false (some path))
    (hpath : path ≠ "") (d : Directory) (input : String) :
    let out := Command.run [path] d input
    ((∃ status, out.ending = .exited status ∧
        (status.code = 0 ∨ status.code = 65 ∨ status.code = 66)) ↔
      '\x00' ∉ path.toList ∧ ¬d.HoldsNoText path) ∧
    ((∃ status, out.ending = .exited status ∧ status.code = 66) ↔ d.Unopened path) ∧
    (d.Unopened path →
      out.stdout = "" ∧ ∃ e, d.readText path = .error (.system e) ∧ out.stderr = e.line path) ∧
    ('\x00' ∈ path.toList → out = { ending := .interrupted .nullInName }) ∧
    (d.HoldsNoText path → ∃ fault, out = { ending := .interrupted (.undecodable fault) }) ∧
    ∀ source, d.HoldsText path source →
      ∃ status, out.ending = .exited status ∧
        let reports := (scan (String.ofList (Newline.normalise source.toList))).reports
        (status.code = 65 ↔ reports ≠ []) ∧ (status.code = 0 ↔ reports = []) := by
  intro out
  have hout : out = Command.runFile false path (d.readText path) :=
    Command.run_script hparse hpath d input
  clear_value out
  subst hout
  refine ⟨Command.runFile_exited_iff, Command.runFile_noInput_iff, fun h => ?reason,
    Command.runFile_of_null, Command.runFile_of_holdsNoText, fun source h => ?text⟩
  case reason =>
    obtain ⟨e, hread, hrun⟩ := Command.runFile_of_unopened h
    rw [hrun]
    exact ⟨rfl, e, hread, rfl⟩
  case text => exact ⟨_, Command.runFile_of_holdsText h, ExitStatus.code_of_reports _⟩

/-- The states of a script: missing, a directory, refused, a text with a stray character, one byte that
begins no character, and a name that is none. -/
theorem script_endings_states :
    let d : Directory :=
      [({ text := "b" }, .directory), ({ text := "c" }, .file "a @\r\n".toUTF8.data.toList),
        ({ text := "d" }, .file [0xFF]), ({ text := "e" }, .refused ⟨13, "Permission denied"⟩)]
    (∃ status, (Command.run ["a"] d "").ending = .exited status ∧ status.code = 66) ∧
    (∃ e : SystemError, (Command.run ["b"] d "").stderr = e.line "b") ∧
    (∃ status, (Command.run ["c"] d "").ending = .exited status ∧ status.code = 65) ∧
    (∃ fault, Command.run ["d"] d "" = { ending := .interrupted (.undecodable fault) }) ∧
    (∃ status, (Command.run ["e"] d "").ending = .exited status ∧ status.code = 66) ∧
    Command.run ["a\x00b"] d "" = { ending := .interrupted .nullInName } := by
  intro d
  have hparse : ∀ path ∈ ["a", "b", "c", "d", "e", "a\x00b"],
      Invocation.parse [path] = .run false (some path) ∧ path ≠ "" := by
    decide
  have hfault : Utf8.decode [0xFF] = .error ⟨0, 0xFF, 0, .invalidStart⟩ := by decide +kernel
  have hnone : d.HoldsNoText "d" := ⟨[0xFF], rfl, Utf8.exists_fault_iff.1 ⟨_, hfault⟩⟩
  obtain ⟨-, ha, -⟩ := script_endings (hparse "a" (by decide)).1 (by decide) d ""
  obtain ⟨-, -, hb, -⟩ := script_endings (hparse "b" (by decide)).1 (by decide) d ""
  obtain ⟨-, -, -, -, -, hc⟩ := script_endings (hparse "c" (by decide)).1 (by decide) d ""
  obtain ⟨-, -, -, -, hd, -⟩ := script_endings (hparse "d" (by decide)).1 (by decide) d ""
  obtain ⟨-, he, -⟩ := script_endings (hparse "e" (by decide)).1 (by decide) d ""
  obtain ⟨-, -, -, hnull, -⟩ := script_endings (hparse "a\x00b" (by decide)).1 (by decide) d ""
  obtain ⟨status, hstatus, hcode, -⟩ := hc "a @\r\n" rfl
  obtain ⟨-, e, -, hreason⟩ := hb ⟨by decide, .inr (.inl rfl)⟩
  refine ⟨ha.2 ⟨by decide, .inl rfl⟩, ⟨e, hreason⟩, ⟨status, hstatus, hcode.2 ?_⟩, hd hnone,
    he.2 ⟨by decide, .inr (.inr ⟨_, rfl⟩)⟩, hnull (by decide)⟩
  decide +kernel

/-- It is not so that the command exits whatever the script is: one byte that begins no character is
enough, and so is one null character in the name. -/
theorem not_forall_script_exits :
    (¬∀ (path : String) (d : Directory) (input : String),
      Invocation.parse [path] = .run false (some path) → path ≠ "" →
        ∃ status, (Command.run [path] d input).ending = .exited status) ∧
    (Command.run ["a.lox"] [({ text := "a.lox" }, .file [0xFF])] "").ending =
      .interrupted (.undecodable ⟨0, 0xFF, 0, .invalidStart⟩) ∧
    (Command.run ["a\x00b"] [] "").ending = .interrupted .nullInName := by
  have hcut : (Command.run ["a.lox"] [({ text := "a.lox" }, .file [0xFF])] "").ending =
      .interrupted (.undecodable ⟨0, 0xFF, 0, .invalidStart⟩) := by
    decide +kernel
  refine ⟨fun h => ?_, hcut, by decide +kernel⟩
  obtain ⟨status, hstatus⟩ := h "a.lox" _ "" (by decide) (by decide)
  rw [hcut] at hstatus
  cases hstatus

end LoxFrontEnd
