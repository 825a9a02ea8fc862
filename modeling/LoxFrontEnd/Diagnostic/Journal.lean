import LoxFrontEnd.Diagnostic.Basic

/-!
# Journals of diagnostics

A journal keeps, in order, everything reported to it, scanned into it or added to it since it was last
cleared.
-/

namespace LoxFrontEnd

structure Journal where
  entries : List Diagnostic := []
deriving DecidableEq

namespace Journal

def add (j : Journal) (d : Diagnostic) : Journal := ⟨j.entries ++ [d]⟩

def report (j : Journal) (line : Int) (message : String) : Journal :=
  j.add (.ofMessage line message)

def record (j : Journal) (s : Scan) : Journal := ⟨j.entries ++ s.reports.map .ofReport⟩

def errors (j : Journal) : List Diagnostic := j.entries.filter Diagnostic.isError

def hasErrors (j : Journal) : Bool := j.entries.any Diagnostic.isError

def format (j : Journal) : String := String.intercalate "\n" (j.entries.map Diagnostic.summary)

theorem hasErrors_eq (j : Journal) : j.hasErrors = !j.errors.isEmpty := by
  obtain ⟨entries⟩ := j
  induction entries with
  | nil => rfl
  | cons d more ih =>
    simp only [hasErrors, errors] at ih
    cases hd : d.isError <;> simp [hasErrors, errors, hd, ih]

theorem errors_record (j : Journal) (s : Scan) :
    (j.record s).errors = j.errors ++ s.reports.map .ofReport := by
  have hall : (s.reports.map Diagnostic.ofReport).filter Diagnostic.isError =
      s.reports.map .ofReport := by
    refine List.filter_eq_self.2 fun d hd => ?_
    obtain ⟨r, -, rfl⟩ := List.mem_map.1 hd
    rfl
  simp [record, errors, hall]

/-- To record a scan is to report its faults one by one. -/
theorem foldl_report (j : Journal) (reports : List Report) :
    reports.foldl (fun j r => j.report r.line r.message) j =
      ⟨j.entries ++ reports.map .ofReport⟩ := by
  induction reports generalizing j with
  | nil => rw [List.foldl_nil, List.map_nil, List.append_nil]
  | cons r more ih =>
    rw [List.foldl_cons, ih, List.map_cons, List.append_cons]
    rfl

/-! ### Requests -/

inductive Request where
  | report (line : Int) (message : String)
  | scan (source : String)
  | add (d : Diagnostic)
  | reset
deriving DecidableEq

def after (j : Journal) : Request → Journal
  | .report line message => j.report line message
  | .scan source => j.record (LoxFrontEnd.scan source)
  | .add d => j.add d
  | .reset => {}

end Journal

end LoxFrontEnd
