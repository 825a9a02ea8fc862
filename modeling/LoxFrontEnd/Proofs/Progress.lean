import LoxFrontEnd.Proofs.Rounds
import Mathlib.Logic.Relation

/-!
# Readings come to their end

A cursor never traps, never leaves the source, and comes to its end with the tokens and the reports of
the scan. Every round takes a character or goes back to the main loop, so a reading has at most two
rounds for each character of the source.
-/

namespace LoxFrontEnd

open Relation

namespace Cursor

section

variable {σ : Type} {source : List Char} {emit : σ → Int → String → σ} {goal : List Token × σ}
  {cur next : Cursor σ}

/-! ### Runs -/

def Next (source : List Char) (emit : σ → Int → String → σ) (cur next : Cursor σ) : Prop :=
  cur.step source emit = .ok (some next)

/-- Twice the characters that are left, and one more within an inner loop. -/
def rank (source : List Char) (cur : Cursor σ) : Nat :=
  2 * (source.length - cur.current) + if cur.loop = .main then 0 else 1

theorem Moves.current_le (h : Moves cur next) : cur.current ≤ next.current := by
  rcases h with hlt | ⟨-, -, heq⟩
  · exact Nat.le_of_lt hlt
  · exact Nat.le_of_eq heq.symm

theorem Moves.current_lt (h : Moves cur next) (hloop : cur.loop = .main) :
    cur.current < next.current := by
  rcases h with hlt | ⟨hne, -, -⟩
  · exact hlt
  · exact absurd hloop hne

theorem Moves.rank_lt (h : Moves cur next) (hle : next.current ≤ source.length) :
    next.rank source < cur.rank source := by
  unfold rank
  rcases h with hlt | ⟨hne, hmain, heq⟩
  · split <;> split <;> omega
  · rw [if_neg hne, if_pos hmain, heq]
    omega

theorem Sound.of_next (h : Sound source emit goal cur) (hn : Next source emit cur next) :
    Sound source emit goal next ∧ Moves cur next := by
  unfold Next at hn
  rcases h.goesOn_or_done with ⟨other, hstep, hsound, hmoves⟩ | ⟨hstep, -⟩
  · rw [hstep, Except.ok.injEq, Option.some.injEq] at hn
    rw [← hn]
    exact ⟨hsound, hmoves⟩
  · rw [hstep] at hn
    cases hn

theorem Sound.reach (h : Sound source emit goal cur) (hr : ReflTransGen (Next source emit) cur next) :
    Sound source emit goal next := by
  induction hr with
  | refl => exact h
  | tail _ hn ih => exact (ih.of_next hn).1

theorem Sound.current_le_of_reach (h : Sound source emit goal cur)
    (hr : ReflTransGen (Next source emit) cur next) : cur.current ≤ next.current := by
  induction hr with
  | refl => exact Nat.le_refl _
  | tail hr hn ih => exact Nat.le_trans ih ((h.reach hr).of_next hn).2.current_le

/-- From one round of the main loop to any later round, the cursor has moved forward. -/
theorem Sound.current_lt_of_reach (h : Sound source emit goal cur) (hloop : cur.loop = .main)
    (hr : TransGen (Next source emit) cur next) : cur.current < next.current := by
  obtain ⟨first, hn, hr⟩ := TransGen.head'_iff.1 hr
  obtain ⟨hsound, hmoves⟩ := h.of_next hn
  exact Nat.lt_of_lt_of_le (hmoves.current_lt hloop) (hsound.current_le_of_reach hr)

theorem Sound.length_le_rank {run : List (Cursor σ)} (h : Sound source emit goal cur)
    (hrun : List.IsChain (Next source emit) (cur :: run)) : run.length ≤ cur.rank source := by
  induction run generalizing cur with
  | nil => exact Nat.zero_le _
  | cons next run ih =>
    obtain ⟨hn, hrun⟩ := List.isChain_cons_cons.1 hrun
    obtain ⟨hsound, hmoves⟩ := h.of_next hn
    have hrank := hmoves.rank_lt hsound.bounds.2
    have hlength := ih hsound hrun
    rw [List.length_cons]
    omega

structure Done (source : List Char) (emit : σ → Int → String → σ) (goal : List Token × σ)
    (last : Cursor σ) : Prop where
  step_eq : last.step source emit = .ok none
  loop_eq : last.loop = .main
  current_eq : last.current = source.length
  found_eq : (last.tokens ++ [Token.endOfInput last.here], last.sink) = goal

theorem Sound.exists_done (h : Sound source emit goal cur) :
    ∃ last, ReflTransGen (Next source emit) cur last ∧ Done source emit goal last := by
  induction hr : cur.rank source using Nat.strongRecOn generalizing cur with
  | ind rank ih =>
    rcases h.goesOn_or_done with ⟨next, hstep, hsound, hmoves⟩ | ⟨hstep, hloop, hcurrent, hfound⟩
    · have hlt := hmoves.rank_lt hsound.bounds.2
      rw [hr] at hlt
      obtain ⟨last, hreach, hdone⟩ := ih _ hlt hsound rfl
      exact ⟨last, .head hstep hreach, hdone⟩
    · exact ⟨cur, .refl, hstep, hloop, hcurrent, hfound⟩

end

/-! ### Readings of a source -/

section

variable {σ : Type} (source : String) (emit : σ → Int → String → σ) (sink : σ)

def scanned : List Token × σ :=
  ((scan source).tokens,
    (scan source).reports.foldl (fun s r => emit s r.line r.message) sink)

theorem sound_start :
    Sound source.toList emit (scanned source emit sink) ({ sink } : Cursor σ) :=
  .between rfl (Nat.le_refl _) (Nat.zero_le _) rfl

/-- A reading that starts with `sink` is over with these tokens and the sink in this state. -/
def EndsWith (tokens : List Token) (state : σ) : Prop :=
  ∃ last : Cursor σ, ReflTransGen (Next source.toList emit) { sink } last ∧
    last.step source.toList emit = .ok none ∧
    last.tokens ++ [Token.endOfInput last.here] = tokens ∧ last.sink = state

/-- Every reading is over at some time, and in one way. -/
theorem endsWith_iff {tokens : List Token} {state : σ} :
    EndsWith source emit sink tokens state ↔ (tokens, state) = scanned source emit sink := by
  have hstart := sound_start source emit sink
  constructor
  · rintro ⟨last, hreach, hstep, rfl, rfl⟩
    rcases (hstart.reach hreach).goesOn_or_done with ⟨next, hnext, -⟩ | ⟨-, -, -, hfound⟩
    · rw [hstep] at hnext
      cases hnext
    · exact hfound
  · intro h
    obtain ⟨last, hreach, hdone⟩ := hstart.exists_done
    have hfound := hdone.found_eq.trans h.symm
    exact ⟨last, hreach, hdone.step_eq, congrArg Prod.fst hfound, congrArg Prod.snd hfound⟩

end

end Cursor

/-! ### How many tokens and reports there are -/

theorem length_pieces_le (text : List Char) : (pieces text).length ≤ text.length := by
  fun_induction pieces text with
  | case1 => exact Nat.le_refl _
  | case2 c rest ih =>
    have hrest := Cut.first_rest_length_le c rest
    simp only [List.length_cons]
    omega

theorem length_found_le (p : Position) (ps : List Piece) :
    (tokensFrom p ps).length + (reportsFrom p ps).length ≤ ps.length := by
  induction ps generalizing p with
  | nil => exact Nat.le_refl _
  | cons piece more ih =>
    have hone : (piece.token? p).toList.length + (piece.report? p).toList.length ≤ 1 := by
      unfold Piece.token? Piece.report?
      cases piece.element <;> simp
    have hmore := ih (p.after piece.text)
    simp only [tokensFrom, reportsFrom, List.length_append, List.length_cons]
    omega

/-- Readings never trap, and they come to their end. Indexing and the reading of numerals are partial,
yet no cursor that comes up in a reading is ever refused by them; it stays in the source, each round of
the main loop brings it forward, and wherever it is, it goes on to the end of the source, with the tokens
and the reports of the scan. There are at most two rounds for each character, and at most one token or
report. -/
theorem reading_progress {σ : Type} (source : String) (emit : σ → Int → String → σ) (sink : σ) :
    (∀ i, (∃ c, charAt source.toList i = .ok c) ↔ i < source.length) ∧
    (∀ text, (∃ x, readNumeral text = .ok x) ↔ Lexeme .number text) ∧
    (∀ cur : Cursor σ, ReflTransGen (Cursor.Next source.toList emit) { sink } cur →
      (∀ trap, cur.step source.toList emit ≠ .error trap) ∧
      cur.start ≤ cur.current ∧ cur.current ≤ source.length ∧
      (cur.loop = .main → ∀ later, TransGen (Cursor.Next source.toList emit) cur later →
        cur.current < later.current) ∧
      ∃ last, ReflTransGen (Cursor.Next source.toList emit) cur last ∧
        last.step source.toList emit = .ok none ∧ last.loop = .main ∧
        last.current = source.length ∧
        last.tokens ++ [Token.endOfInput ⟨last.line, last.current⟩] = (scan source).tokens ∧
        last.sink = (scan source).reports.foldl (fun s r => emit s r.line r.message) sink) ∧
    (∀ run, List.IsChain (Cursor.Next source.toList emit) (({ sink } : Cursor σ) :: run) →
      run.length ≤ 2 * source.length) ∧
    (scan source).body.length + (scan source).reports.length ≤ source.length := by
  have hlength : source.toList.length = source.length := String.length_toList
  have hstart := Cursor.sound_start source emit sink
  refine ⟨fun i => ?_, fun text => readNumeral_ok_iff, fun cur hreach => ?_, fun run hrun => ?_, ?_⟩
  · rw [charAt_ok_iff, hlength]
  · have hsound := hstart.reach hreach
    obtain ⟨hle, hbound⟩ := hsound.bounds
    refine ⟨fun trap htrap => ?_, hle, hlength ▸ hbound,
      fun hloop later hlater => hsound.current_lt_of_reach hloop hlater, ?_⟩
    · rcases hsound.goesOn_or_done with ⟨next, hnext, -⟩ | ⟨hdone, -⟩
      · rw [hnext] at htrap
        contradiction
      · rw [hdone] at htrap
        contradiction
    · obtain ⟨last, hlast, hdone⟩ := hsound.exists_done
      have hfound := hdone.found_eq
      exact ⟨last, hlast, hdone.step_eq, hdone.loop_eq, hlength ▸ hdone.current_eq,
        congrArg Prod.fst hfound, congrArg Prod.snd hfound⟩
  · have hrank := hstart.length_le_rank hrun
    rw [Cursor.rank, if_pos rfl, hlength] at hrank
    exact hrank
  · have hfound := length_found_le {} (pieces source.toList)
    have hpieces := length_pieces_le source.toList
    rw [hlength] at hpieces
    exact Nat.le_trans hfound hpieces

/-- A comment that is never closed, after a line of its own. The cursor that has just entered it is still
on its way, and gets to the end with the report. -/
theorem reading_progress_open :
    let emit : List (Int × String) → Int → String → List (Int × String) :=
      fun s line message => s ++ [(line, message)]
    let inside : Cursor (List (Int × String)) :=
      { start := 1, current := 3, line := 2, startLine := 2, loop := .blockComment 1, sink := [] }
    ReflTransGen (Cursor.Next "\n/*".toList emit) { sink := [] } inside ∧
      (∀ trap, inside.step "\n/*".toList emit ≠ .error trap) ∧
      ∃ last, ReflTransGen (Cursor.Next "\n/*".toList emit) inside last ∧ last.current = 3 ∧
        last.sink = [(2, "Unterminated comment.")] := by
  intro emit inside
  have hreports : (scan "\n/*").reports = [⟨2, .unterminatedComment⟩] := by decide +kernel
  have hnewline : Cursor.Next "\n/*".toList emit { sink := [] }
      { start := 0, current := 1, line := 2, sink := [] } := rfl
  have hopening : Cursor.Next "\n/*".toList emit
      { start := 0, current := 1, line := 2, sink := [] } inside := rfl
  have hreach : ReflTransGen (Cursor.Next "\n/*".toList emit) { sink := [] } inside :=
    .head hnewline (.single hopening)
  obtain ⟨-, -, hreading, -⟩ := reading_progress "\n/*" emit []
  obtain ⟨htrap, -, -, -, last, hlast, -, -, hcurrent, -, hsink⟩ := hreading inside hreach
  rw [hreports] at hsink
  exact ⟨hreach, htrap, last, hlast, hcurrent, hsink⟩

end LoxFrontEnd
