import LoxFrontEnd.Proofs.Memory
import LoxFrontEnd.Session

/-!
# Lists that a session hands out

In memory the journal of a session is one list for good: reports are appended to it and scans clear it,
all of it where it stands. Whoever asks for diagnostics or for errors is handed a new list, and may keep
the place of it. Main statements: read at their places, the lists are those of the session that works on
values, and a list that was handed out is the same at any later time.
-/

namespace LoxFrontEnd

structure SessionStore where
  memory : Memory Diagnostic
  source : String
  filename : String
  place : Nat
  tokens : List Token := []
  kept : List Nat := []

namespace SessionStore

def new (source filename : String) : SessionStore :=
  { memory := [[]], source, filename, place := 0 }

/-! ### The journal in place -/

def journal (s : SessionStore) : Journal := ⟨s.memory.read s.place⟩

def add (s : SessionStore) (d : Diagnostic) : SessionStore :=
  { s with memory := s.memory.push s.place d }

def report (s : SessionStore) (line : Int) (message : String) : SessionStore :=
  s.add (.ofMessage line message)

def reset (s : SessionStore) : SessionStore := { s with memory := s.memory.clear s.place }

def tokenize (s : SessionStore) : SessionStore :=
  let scanned := scan s.source
  let reported := scanned.reports.foldl (fun s r => s.report r.line r.message) s.reset
  { reported with tokens := scanned.tokens }

/-! ### New lists -/

/-- A list is written behind all others, and its place is handed out. -/
def handOut (s : SessionStore) (list : List Diagnostic) : SessionStore × Nat :=
  ({ s with memory := s.memory ++ [list] }, s.memory.length)

def diagnostics (s : SessionStore) : SessionStore × Nat := s.handOut s.journal.entries

def errors (s : SessionStore) : SessionStore × Nat := s.handOut s.journal.errors

def keep (s : SessionStore) (place : Nat) : SessionStore := { s with kept := s.kept ++ [place] }

/-! ### Requests -/

/-- The replies of a session, with a list told by its place. -/
inductive Reply where
  | nothing
  | tokens (tokens : List Token)
  | list (place : Nat)
  | answer (yes : Bool)

structure Response where
  store : SessionStore
  reply : Reply := .nothing
  log : List LogEvent := []

def respond (s : SessionStore) : Session.Request → Response
  | .tokenize =>
    let scanned := scan s.source
    let next := s.tokenize
    let trailer : List LogEvent :=
      if next.journal.hasErrors then [.faulty s.filename next.journal.errors.length] else []
    { store := next
      reply := .tokens scanned.tokens
      log := scanned.events s.source ++ trailer }
  | .setSource source => { store := { s with source } }
  | .setFilename filename => { store := { s with filename } }
  | .errors => { store := s.errors.1, reply := .list s.errors.2 }
  | .diagnostics => { store := s.diagnostics.1, reply := .list s.diagnostics.2 }
  | .keep => { store := s.diagnostics.1.keep s.diagnostics.2 }
  | .kept index => { store := s, reply := ((s.kept[index]?).map .list).getD .nothing }
  | .report line message => { store := s.report line message, log := [.reported line message] }
  | .add d => { store := s.add d }
  | .keyword word => { store := s, reply := .answer (isKeyword word) }

def after (s : SessionStore) (requests : List Session.Request) : SessionStore :=
  requests.foldl (fun s r => (s.respond r).store) s

/-! ### What is read at the places -/

def session (s : SessionStore) : Session where
  source := s.source
  filename := s.filename
  journal := s.journal
  tokens := s.tokens
  kept := s.kept.map s.memory.read

def Reply.told (m : Memory Diagnostic) : Reply → Session.Reply
  | .nothing => .nothing
  | .tokens ts => .tokens ts
  | .list place => .diagnostics (m.read place)
  | .answer yes => .answer yes

def Response.told (r : Response) : Session.Response :=
  ⟨r.store.session, r.reply.told r.store.memory, r.log⟩

/-! ### Lists aside from the journal -/

variable {s s' s'' : SessionStore} {p : Nat}

structure Aside (s : SessionStore) (p : Nat) : Prop where
  lt : p < s.memory.length
  ne : p ≠ s.place

/-- The journal stays where it is, and no other list changes. -/
structure Spares (s s' : SessionStore) : Prop where
  place_eq : s'.place = s.place
  length_le : s.memory.length ≤ s'.memory.length
  read_eq : ∀ p, s.Aside p → s'.memory.read p = s.memory.read p

theorem Aside.of_spares (h : s.Aside p) (hs : s.Spares s') : s'.Aside p :=
  ⟨Nat.lt_of_lt_of_le h.lt hs.length_le, hs.place_eq ▸ h.ne⟩

theorem Spares.refl (s : SessionStore) : s.Spares s := ⟨rfl, Nat.le_refl _, fun _ _ => rfl⟩

theorem Spares.trans (h : s.Spares s') (h' : s'.Spares s'') : s.Spares s'' where
  place_eq := h'.place_eq.trans h.place_eq
  length_le := Nat.le_trans h.length_le h'.length_le
  read_eq p hp := (h'.read_eq p (hp.of_spares h)).trans (h.read_eq p hp)

theorem spares_add (s : SessionStore) (d : Diagnostic) : s.Spares (s.add d) where
  place_eq := rfl
  length_le := Nat.le_of_eq (Memory.length_push s.memory s.place d).symm
  read_eq _ hp := Memory.read_push_ne hp.ne d

theorem spares_reset (s : SessionStore) : s.Spares s.reset where
  place_eq := rfl
  length_le := Nat.le_of_eq (Memory.length_clear s.memory s.place).symm
  read_eq _ hp := Memory.read_clear_ne hp.ne

theorem spares_handOut (s : SessionStore) (list : List Diagnostic) : s.Spares (s.handOut list).1 where
  place_eq := rfl
  length_le := by simp [handOut]
  read_eq _ hp := Memory.read_append_of_lt hp.lt [list]

theorem spares_reports (s : SessionStore) (reports : List Report) :
    s.Spares (reports.foldl (fun s r => s.report r.line r.message) s) := by
  induction reports generalizing s with
  | nil => exact .refl s
  | cons r more ih => exact (s.spares_add _).trans (ih _)

theorem spares_tokenize (s : SessionStore) : s.Spares s.tokenize := by
  obtain ⟨hplace, hlength, hread⟩ := s.spares_reset.trans (spares_reports _ (scan s.source).reports)
  exact ⟨hplace, hlength, hread⟩

theorem spares_respond (s : SessionStore) (r : Session.Request) : s.Spares (s.respond r).store := by
  cases r with
  | tokenize => exact s.spares_tokenize
  | errors => exact s.spares_handOut _
  | diagnostics => exact s.spares_handOut _
  | keep =>
    obtain ⟨hplace, hlength, hread⟩ := s.spares_handOut s.journal.entries
    exact ⟨hplace, hlength, hread⟩
  | report line message => exact s.spares_add _
  | add d => exact s.spares_add d
  | _ => exact ⟨rfl, Nat.le_refl _, fun _ _ => rfl⟩

theorem spares_after (s : SessionStore) (rs : List Session.Request) : s.Spares (s.after rs) := by
  induction rs generalizing s with
  | nil => exact .refl s
  | cons r rs ih => exact (s.spares_respond r).trans (ih _)

/-! ### Sessions in memory -/

structure Separate (s : SessionStore) : Prop where
  place_lt : s.place < s.memory.length
  kept : ∀ p ∈ s.kept, s.Aside p

theorem separate_new (source filename : String) : (new source filename).Separate :=
  ⟨Nat.zero_lt_one, fun _ hp => absurd hp List.not_mem_nil⟩

theorem Separate.of_spares (h : s.Separate) (hs : s.Spares s') (hkept : s'.kept = s.kept) :
    s'.Separate where
  place_lt := hs.place_eq ▸ Nat.lt_of_lt_of_le h.place_lt hs.length_le
  kept p hp := (h.kept p (hkept ▸ hp)).of_spares hs

theorem Separate.kept_eq (h : s.Separate) (hs : s.Spares s') :
    s.kept.map s'.memory.read = s.kept.map s.memory.read :=
  List.map_congr_left fun p hp => hs.read_eq p (h.kept p hp)

theorem Separate.aside_handOut (h : s.Separate) (list : List Diagnostic) :
    (s.handOut list).1.Aside (s.handOut list).2 where
  lt := by simp [handOut]
  ne := Nat.ne_of_gt h.place_lt

theorem Separate.session_add (h : s.Separate) (d : Diagnostic) :
    (s.add d).session = { s.session with journal := s.session.journal.add d } := by
  have hjournal : (s.add d).journal = s.journal.add d :=
    congrArg Journal.mk (Memory.read_push_self h.place_lt d)
  have hkept := h.kept_eq (s.spares_add d)
  simp only [session, hjournal]
  exact congrArg _ hkept

theorem Separate.session_reset (h : s.Separate) :
    s.reset.session = { s.session with journal := {} } := by
  have hjournal : s.reset.journal = {} := congrArg Journal.mk (Memory.read_clear_self _ _)
  have hkept := h.kept_eq s.spares_reset
  simp only [session, hjournal]
  exact congrArg _ hkept

theorem Separate.session_handOut (h : s.Separate) (list : List Diagnostic) :
    (s.handOut list).1.session = s.session := by
  have hjournal : (s.handOut list).1.journal = s.journal :=
    congrArg Journal.mk (Memory.read_append_of_lt h.place_lt [list])
  have hkept := h.kept_eq (s.spares_handOut list)
  simp only [session, hjournal]
  exact congrArg _ hkept

theorem Separate.session_keep (h : s.Separate) (list : List Diagnostic) :
    ((s.handOut list).1.keep (s.handOut list).2).session =
      { s.session with kept := s.session.kept ++ [list] } := by
  have hsession := h.session_handOut list
  have hread : (s.handOut list).1.memory.read (s.handOut list).2 = list :=
    Memory.read_concat_length s.memory list
  have hkept : (s.kept ++ [(s.handOut list).2]).map (s.handOut list).1.memory.read =
      s.session.kept ++ [list] := by
    rw [List.map_append, h.kept_eq (s.spares_handOut list), List.map_singleton, hread]
    rfl
  rw [← hkept, ← hsession]
  rfl

theorem Separate.session_reports (h : s.Separate) (reports : List Report) :
    (reports.foldl (fun s r => s.report r.line r.message) s).session =
      { s.session with
        journal := reports.foldl (fun j r => j.report r.line r.message) s.session.journal } := by
  induction reports generalizing s with
  | nil => rfl
  | cons r more ih =>
    have hreport := h.session_add (.ofMessage r.line r.message)
    have hmore := ih (h.of_spares (s.spares_add (.ofMessage r.line r.message)) rfl)
    rw [List.foldl_cons, List.foldl_cons]
    exact hmore.trans (by rw [hreport]; rfl)

theorem Separate.session_tokenize (h : s.Separate) :
    s.tokenize.session = s.session.tokenize.session := by
  have hreset : s.reset.Separate := h.of_spares s.spares_reset rfl
  have hreports := hreset.session_reports (scan s.source).reports
  rw [h.session_reset, Journal.foldl_report] at hreports
  exact congrArg (fun t : Session => { t with tokens := (scan s.source).tokens }) hreports

theorem Separate.reports (h : s.Separate) (reports : List Report) :
    (reports.foldl (fun s r => s.report r.line r.message) s).Separate := by
  induction reports generalizing s with
  | nil => exact h
  | cons r more ih => exact ih (h.of_spares (s.spares_add _) rfl)

theorem Separate.store_respond (h : s.Separate) (r : Session.Request) :
    (s.respond r).store.Separate := by
  have hspares := s.spares_respond r
  cases r with
  | tokenize =>
    obtain ⟨hplace, hkept⟩ := (h.of_spares s.spares_reset rfl).reports (scan s.source).reports
    exact ⟨hplace, fun p hp => ⟨(hkept p hp).lt, (hkept p hp).ne⟩⟩
  | keep =>
    refine ⟨hspares.place_eq ▸ Nat.lt_of_lt_of_le h.place_lt hspares.length_le, fun p hp => ?_⟩
    rcases List.mem_append.1 hp with hp | hp
    · exact (h.kept p hp).of_spares hspares
    · obtain rfl := List.mem_singleton.1 hp
      obtain ⟨hlt, hne⟩ := h.aside_handOut s.journal.entries
      exact ⟨hlt, hne⟩
  | _ => exact h.of_spares hspares rfl

/-- A request to the session in memory is one to the session that is read from it. -/
theorem Separate.told_respond (h : s.Separate) (r : Session.Request) :
    (s.respond r).told = s.session.respond r := by
  have hlist (list : List Diagnostic) :
      (⟨(s.handOut list).1, .list (s.handOut list).2, []⟩ : Response).told =
        ⟨s.session, .diagnostics list, []⟩ := by
    rw [Response.told, h.session_handOut]
    exact congrArg (fun ds => (⟨s.session, .diagnostics ds, []⟩ : Session.Response))
      (Memory.read_concat_length _ _)
  cases r with
  | tokenize =>
    have hsession := h.session_tokenize
    have hjournal : s.tokenize.journal = s.session.tokenize.session.journal :=
      congrArg Session.journal hsession
    simp only [respond, Response.told, hsession, hjournal]
    rfl
  | errors => exact hlist s.journal.errors
  | diagnostics => exact hlist s.journal.entries
  | keep =>
    exact congrArg (fun t => (⟨t, .nothing, []⟩ : Session.Response))
      (h.session_keep s.journal.entries)
  | kept index =>
    cases hp : s.kept[index]? with
    | none => simp [respond, Response.told, Reply.told, hp, Session.respond, session]
    | some p => simp [respond, Response.told, Reply.told, hp, Session.respond, session]
  | report line message =>
    exact congrArg (fun t => (⟨t, .nothing, [.reported line message]⟩ : Session.Response))
      (h.session_add _)
  | add d => exact congrArg (fun t => (⟨t, .nothing, []⟩ : Session.Response)) (h.session_add d)
  | _ => rfl

theorem Separate.after (h : s.Separate) (rs : List Session.Request) :
    (s.after rs).Separate ∧ (s.after rs).session = s.session.after rs := by
  induction rs generalizing s with
  | nil => exact ⟨h, rfl⟩
  | cons r rs ih =>
    obtain ⟨hseparate, hsession⟩ := ih (h.store_respond r)
    have hstep : (s.respond r).store.session = (s.session.respond r).session :=
      congrArg Session.Response.session (h.told_respond r)
    rw [hstep] at hsession
    exact ⟨hseparate, hsession⟩

/-- A list that was handed out is told as it was then, whatever is asked later. -/
theorem Separate.read_handOut (h : s.Separate) (list : List Diagnostic) (rs : List Session.Request) :
    ((s.handOut list).1.after rs).memory.read (s.handOut list).2 = list := by
  have haside := h.aside_handOut list
  rw [((s.handOut list).1.spares_after rs).read_eq _ haside]
  exact Memory.read_concat_length _ _

end SessionStore

end LoxFrontEnd
