import LoxFrontEnd.Proofs.Content
import LoxFrontEnd.Proofs.LexemeLead

/-!
# Layout

Lexemes written one after the other, with blanks or nothing between them, are read back as the same
tokens exactly when no two neighbours touch that belong together: two words, two numbers, a mark and the
equal sign that it takes, a slash that begins a comment, and a point between two numbers of which the
first has none.
-/

namespace LoxFrontEnd

/-! ### Written tokens -/

structure ScannedToken where
  token : Token
  source : String
  mem_body : token ∈ (scan source).body

structure Gap where
  text : List Char
  blank : ∀ c ∈ text, isBlank c = true

structure Laid where
  gap : Gap
  scanned : ScannedToken

namespace Laid

def token (i : Laid) : Token := i.scanned.token

def kind (i : Laid) : Kind := i.token.kind

def lexeme (i : Laid) : List Char := i.token.lexeme.toList

def Touches (i : Laid) : Prop := i.gap.text = []

end Laid

def layout (items : List Laid) : List Char := items.flatMap fun i => i.gap.text ++ i.lexeme

/-- Two kinds of tokens that cannot touch in this order. -/
def Kind.Fuses (k l : Kind) : Prop :=
  (k.isWord = true ∧ (l.isWord = true ∨ l = .number)) ∨
  (k = .number ∧ l = .number) ∨
  ((k = .bang ∨ k = .equal ∨ k = .less ∨ k = .greater) ∧ (l = .equal ∨ l = .equalEqual)) ∨
  (k = .slash ∧ (l = .slash ∨ l = .star))

/-- Two neighbours fuse, or three that a point makes one number. -/
def Clash (items : List Laid) : Prop :=
  (∃ t u : Laid, [t, u] <:+: items ∧ u.Touches ∧ t.kind.Fuses u.kind) ∨
  (∃ t u v : Laid, [t, u, v] <:+: items ∧ u.Touches ∧ v.Touches ∧
    t.kind = .number ∧ '.' ∉ t.lexeme ∧ u.kind = .dot ∧ v.kind = .number)

/-! ### What a layout begins with -/

theorem Laid.isLexeme (i : Laid) : Lexeme i.kind i.lexeme :=
  (exists_lexeme_of_mem_tokensFrom i.scanned.mem_body).1

theorem layout_cons (i : Laid) (items : List Laid) :
    layout (i :: items) = i.gap.text ++ (i.lexeme ++ layout items) := by
  rw [layout, List.flatMap_cons, List.append_assoc]
  rfl

theorem Picks.leads_layout {p : Char → Bool} {q : Kind → Bool} (h : Picks p q) (items : List Laid) :
    leads p (layout items) = true ↔
      ∃ u more, items = u :: more ∧ u.Touches ∧ q u.kind = true := by
  cases items with
  | nil =>
    constructor
    · intro hl
      contradiction
    · intro hu
      obtain ⟨u, more, he, -⟩ := hu
      contradiction
  | cons i items =>
    rw [layout_cons]
    cases hg : i.gap.text with
    | nil =>
      rw [List.nil_append, h.lexeme _ _ i.isLexeme]
      constructor
      · intro hq
        exact ⟨i, items, rfl, hg, hq⟩
      · intro hu
        obtain ⟨u, more, he, -, hq⟩ := hu
        cases he
        exact hq
    | cons c gap =>
      have hc : isBlank c = true := i.gap.blank c (by rw [hg]; exact List.mem_cons_self)
      rw [List.cons_append, leads_cons, h.blank c hc]
      constructor
      · intro hl
        contradiction
      · intro hu
        obtain ⟨u, more, he, htouches, -⟩ := hu
        cases he
        rw [Laid.Touches, hg] at htouches
        contradiction

/-! ### Fusing -/

/-- The token fuses with the next one, or with the next two. -/
def Laid.FusesWith (i : Laid) (items : List Laid) : Prop :=
  (∃ u more, items = u :: more ∧ u.Touches ∧ i.kind.Fuses u.kind) ∨
  (∃ u v more, items = u :: v :: more ∧ u.Touches ∧ v.Touches ∧
    i.kind = .number ∧ '.' ∉ i.lexeme ∧ u.kind = .dot ∧ v.kind = .number)

theorem clash_cons (i : Laid) (items : List Laid) :
    Clash (i :: items) ↔ i.FusesWith items ∨ Clash items := by
  simp only [Clash, List.infix_cons_iff, List.cons_prefix_cons]
  constructor
  · intro h
    rcases h with ⟨t, u, ⟨rfl, more, rfl⟩ | h, hu, hf⟩ | ⟨t, u, v, ⟨rfl, more, rfl⟩ | h, hf⟩
    · exact .inl (.inl ⟨u, more, rfl, hu, hf⟩)
    · exact .inr (.inl ⟨t, u, h, hu, hf⟩)
    · exact .inl (.inr ⟨u, v, more, rfl, hf⟩)
    · exact .inr (.inr ⟨t, u, v, h, hf⟩)
  · intro h
    rcases h with (⟨u, more, rfl, hu, hf⟩ | ⟨u, v, more, rfl, hf⟩) | ⟨t, u, h, hf⟩ | ⟨t, u, v, h, hf⟩
    · exact .inl ⟨i, u, .inl ⟨rfl, more, rfl⟩, hu, hf⟩
    · exact .inr ⟨i, u, v, .inl ⟨rfl, more, rfl⟩, hf⟩
    · exact .inl ⟨t, u, .inr h, hf⟩
    · exact .inr ⟨t, u, v, .inr h, hf⟩

theorem not_clash_nil : ¬Clash [] := by
  intro h
  rcases h with ⟨t, u, hi, -⟩ | ⟨t, u, v, hi, -⟩
  · exact absurd hi.length_le (by simp)
  · exact absurd hi.length_le (by simp)

theorem Laid.lexeme_of_dot {i : Laid} (h : i.kind = .dot) : i.lexeme = ['.'] :=
  i.isLexeme.eq_mark (by rw [h]; decide) (by rw [h]; decide) (by rw [h]; decide) (by rw [h]; decide)
    (by rw [h]; decide)

theorem Laid.lexeme_of_slash {i : Laid} (h : i.kind = .slash) : i.lexeme = ['/'] :=
  i.isLexeme.eq_mark (by rw [h]; decide) (by rw [h]; decide) (by rw [h]; decide) (by rw [h]; decide)
    (by rw [h]; decide)

theorem tail_layout_of_dot {u : Laid} (hu : u.Touches) (hk : u.kind = .dot) (more : List Laid) :
    (layout (u :: more)).tail = layout more := by
  rw [layout_cons, u.lexeme_of_dot hk, hu]
  rfl

theorem leads_point_digit_layout (items : List Laid) :
    (leads (· == '.') (layout items) && leads Char.isDigit (layout items).tail) = true ↔
      ∃ u v more, items = u :: v :: more ∧ u.Touches ∧ v.Touches ∧
        u.kind = .dot ∧ v.kind = .number := by
  rw [Bool.and_eq_true, picks_point.leads_layout]
  constructor
  · intro h
    obtain ⟨⟨u, more, he, hu, hpoint⟩, hdigit⟩ := h
    have hk := beq_iff_eq.1 hpoint
    rw [he, tail_layout_of_dot hu hk, picks_digit.leads_layout] at hdigit
    obtain ⟨v, rest, hv, htouches, hnumber⟩ := hdigit
    subst hv
    exact ⟨u, v, rest, he, hu, htouches, hk, beq_iff_eq.1 hnumber⟩
  · intro h
    obtain ⟨u, v, more, he, hu, hv, hk, hnumber⟩ := h
    refine ⟨⟨u, v :: more, he, hu, beq_iff_eq.2 hk⟩, ?_⟩
    rw [he, tail_layout_of_dot hu hk, picks_digit.leads_layout]
    exact ⟨v, more, rfl, hv, beq_iff_eq.2 hnumber⟩

namespace Kind

theorem fuses_of_not_isWord {k : Kind} (h : k.isWord = false) (l : Kind) :
    k.Fuses l ↔ (k = .number ∧ l = .number) ∨
      ((k = .bang ∨ k = .equal ∨ k = .less ∨ k = .greater) ∧ (l = .equal ∨ l = .equalEqual)) ∨
      (k = .slash ∧ (l = .slash ∨ l = .star)) := by
  simp [Fuses, h]

theorem fuses_word {k : Kind} (h : k.isWord = true) (l : Kind) :
    k.Fuses l ↔ (l.isWord || l == .number) = true := by
  have hne : ∀ m : Kind, m.isWord = false → k ≠ m := fun m => ne_of_class h
  simp [Fuses, h, hne .number rfl, hne .bang rfl, hne .equal rfl, hne .less rfl, hne .greater rfl,
    hne .slash rfl]

theorem fuses_number (l : Kind) : number.Fuses l ↔ l = .number := by
  rw [fuses_of_not_isWord rfl]
  simp

theorem fuses_slash (l : Kind) : slash.Fuses l ↔ (l == .slash || l == .star) = true := by
  rw [fuses_of_not_isWord rfl]
  simp

theorem fuses_suffixed {k : Kind} (h : k = .bang ∨ k = .equal ∨ k = .less ∨ k = .greater) (l : Kind) :
    k.Fuses l ↔ (l == .equal || l == .equalEqual) = true := by
  have hw : k.isWord = false := by
    rcases h with rfl | rfl | rfl | rfl <;> rfl
  have hnumber : k ≠ .number := by
    rcases h with rfl | rfl | rfl | rfl <;> decide
  have hslash : k ≠ .slash := by
    rcases h with rfl | rfl | rfl | rfl <;> decide
  rw [fuses_of_not_isWord hw]
  simp [h, hnumber, hslash]

end Kind

theorem Laid.fusesWith_iff {i : Laid} (h : i.kind ≠ .number) (items : List Laid) :
    i.FusesWith items ↔ ∃ u more, items = u :: more ∧ u.Touches ∧ i.kind.Fuses u.kind := by
  constructor
  · intro hf
    cases hf with
    | inl hnext => exact hnext
    | inr hpoint =>
      obtain ⟨u, v, more, he, hu, hv, hnumber, hrest⟩ := hpoint
      contradiction
  · exact .inl

theorem Laid.fusesWith_number {i : Laid} (h : i.kind = .number) (items : List Laid) :
    i.FusesWith items ↔
      (∃ u more, items = u :: more ∧ u.Touches ∧ u.kind = .number) ∨
      ('.' ∉ i.lexeme ∧ ∃ u v more, items = u :: v :: more ∧ u.Touches ∧ v.Touches ∧
        u.kind = .dot ∧ v.kind = .number) := by
  simp only [Laid.FusesWith, Kind.fuses_number, h, true_and]
  refine or_congr_right ?_
  constructor
  · intro hf
    obtain ⟨u, v, more, he, hu, hv, hp, hk⟩ := hf
    exact ⟨hp, u, v, more, he, hu, hv, hk⟩
  · intro hf
    obtain ⟨hp, u, v, more, he, hu, hv, hk⟩ := hf
    exact ⟨u, v, more, he, hu, hv, hp, hk⟩

theorem Picks.leads_layout_iff_fuses {p : Char → Bool} {q : Kind → Bool} (h : Picks p q) {i : Laid}
    (hn : i.kind ≠ .number) (hq : ∀ l : Kind, i.kind.Fuses l ↔ q l = true) (items : List Laid) :
    leads p (layout items) = true ↔ i.FusesWith items := by
  rw [h.leads_layout, Laid.fusesWith_iff hn]
  simp only [hq]

/-- What runs on from a token in a layout are the tokens that it fuses with. -/
theorem runsOn_layout (i : Laid) (items : List Laid) :
    i.kind.runsOn i.lexeme (layout items) = true ↔ i.FusesWith items := by
  have hsuffixed : ∀ k : Kind, k = .bang ∨ k = .equal ∨ k = .less ∨ k = .greater → i.kind = k →
      (leads (· == '=') (layout items) = true ↔ i.FusesWith items) := by
    intro k hk he
    rw [← he] at hk
    have hn : i.kind ≠ .number := by
      rcases hk with h | h | h | h <;> rw [h] <;> decide
    exact picks_equalSign.leads_layout_iff_fuses hn (Kind.fuses_suffixed hk) items
  have hword : i.kind.isWord = true →
      (leads isWordPart (layout items) = true ↔ i.FusesWith items) := by
    intro hw
    exact picks_wordPart.leads_layout_iff_fuses (ne_of_class hw rfl) (Kind.fuses_word hw) items
  unfold Kind.runsOn
  split
  · next hk =>
    have hn : i.kind ≠ .number := by
      rw [hk]
      decide
    apply (picks_slash.or picks_star).leads_layout_iff_fuses hn
    rw [hk]
    exact Kind.fuses_slash
  · next hk => exact hsuffixed _ (by simp) hk
  · next hk => exact hsuffixed _ (by simp) hk
  · next hk => exact hsuffixed _ (by simp) hk
  · next hk => exact hsuffixed _ (by simp) hk
  · next hk => exact hword (by rw [hk]; rfl)
  · next hk => exact hword (by rw [hk]; rfl)
  · next hk =>
    rw [Laid.fusesWith_number hk, Bool.or_eq_true, picks_digit.leads_layout, Bool.and_assoc,
      Bool.and_eq_true, leads_point_digit_layout]
    simp
  · next hslash hbang hequal hless hgreater hidentifier hkeyword hnumber =>
    -- any other kind fuses with nothing
    have hw : i.kind.isWord = false := by
      rw [← Bool.not_eq_true, Kind.isWord_iff]
      intro h
      cases h with
      | inl h => exact hidentifier h
      | inr h =>
        obtain ⟨w, h⟩ := h
        exact hkeyword w h
    have hnone : ∀ l : Kind, ¬i.kind.Fuses l := by
      intro l h
      rw [Kind.fuses_of_not_isWord hw] at h
      rcases h with ⟨h, -⟩ | ⟨h | h | h | h, -⟩ | ⟨h, -⟩
      · exact hnumber h
      · exact hbang h
      · exact hequal h
      · exact hless h
      · exact hgreater h
      · exact hslash h
    rw [Laid.fusesWith_iff hnumber]
    simp [hnone]

/-! ### Reading back -/

def written (items : List Laid) : List (Kind × String × Option Literal) :=
  items.map fun i => i.token.content

/-- No piece of a text is faulty, and its contents are those that were to be written. -/
structure ReadsAs (text : List Char) (contents : List (Kind × String × Option Literal)) : Prop where
  faultless : ∀ piece ∈ pieces text, piece.isFaulty = false
  contents_eq : (pieces text).filterMap Piece.content? = contents

theorem readsAs_append {text rest : List Char} {ps : List Piece}
    {contents more : List (Kind × String × Option Literal)} (hp : pieces text = ps ++ pieces rest)
    (hf : ∀ piece ∈ ps, piece.isFaulty = false) (hc : ps.filterMap Piece.content? = contents) :
    ReadsAs text (contents ++ more) ↔ ReadsAs rest more := by
  constructor
  · intro h
    have hfault := h.faultless
    have hcontents := h.contents_eq
    rw [hp] at hfault hcontents
    rw [List.filterMap_append, hc, List.append_cancel_left_eq] at hcontents
    exact ⟨fun piece hm => hfault piece (List.mem_append_right _ hm), hcontents⟩
  · intro h
    constructor
    · intro piece hm
      rw [hp, List.mem_append] at hm
      cases hm with
      | inl hm => exact hf piece hm
      | inr hm => exact h.faultless piece hm
    · rw [hp, List.filterMap_append, hc, h.contents_eq]

theorem readsAs_gap (gap : Gap) (text : List Char) (contents : List (Kind × String × Option Literal)) :
    ReadsAs (gap.text ++ text) contents ↔ ReadsAs text contents :=
  readsAs_append (pieces_blanks_append gap.blank text) (fun _ => isFaulty_of_mem_blanks)
    (filterMap_content_blanks gap.text)

theorem Laid.content? (i : Laid) :
    Piece.content? ⟨.token i.kind, i.lexeme⟩ = some i.token.content := by
  have hv := (exists_lexeme_of_mem_tokensFrom i.scanned.mem_body).2
  simp only [Piece.content?, Token.content, Laid.lexeme, Laid.kind, Laid.token,
    String.ofList_toList, hv]

theorem readsAs_layout_cons {i : Laid} {items : List Laid} (h : ¬i.FusesWith items) :
    ReadsAs (layout (i :: items)) (written (i :: items)) ↔ ReadsAs (layout items) (written items) := by
  have hr : i.kind.runsOn i.lexeme (layout items) = false := by
    rw [← Bool.not_eq_true, runsOn_layout]
    exact h
  have hp : pieces (i.lexeme ++ layout items) =
      [⟨.token i.kind, i.lexeme⟩] ++ pieces (layout items) :=
    pieces_of_cut (i.isLexeme.cut_eq hr)
  have hf : ∀ piece ∈ [Piece.mk (.token i.kind) i.lexeme], piece.isFaulty = false :=
    List.forall_mem_singleton.2 rfl
  have hc : [Piece.mk (.token i.kind) i.lexeme].filterMap Piece.content? = [i.token.content] := by
    rw [List.filterMap_cons_some i.content?, List.filterMap_nil]
  rw [layout_cons, readsAs_gap]
  exact readsAs_append hp hf hc

theorem count_layout {c : Char} (hc : isBlank c = false) (items : List Laid) :
    (layout items).count c = (lexemeChars (written items)).count c := by
  induction items with
  | nil => rfl
  | cons i items ih =>
    have hgap : i.gap.text.count c = 0 := by
      rw [List.count_eq_zero]
      intro hm
      rw [i.gap.blank c hm] at hc
      contradiction
    have hw : lexemeChars (written (i :: items)) = i.lexeme ++ lexemeChars (written items) := rfl
    rw [layout_cons, hw, List.count_append, List.count_append, List.count_append, hgap, ih]
    omega

theorem slash_contents_ne {i : Laid} {items : List Laid} {cut : Cut} (hk : i.kind = .slash)
    (hcut : Cut.of? (i.lexeme ++ layout items) = some cut) (hlt : 0 < cut.piece.text.length) :
    (pieces cut.rest).filterMap Piece.content? ≠ written (i :: items) := by
  intro hcontents
  -- the first slash is spent, and the lexemes to be read have it and all that the layout has
  have hle := count_lexemeChars_le '/' cut.rest
  rw [hcontents] at hle
  have hwritten : lexemeChars (written (i :: items)) = '/' :: lexemeChars (written items) := by
    rw [written, List.map_cons, lexemeChars, List.flatMap_cons]
    exact congrArg (· ++ lexemeChars (written items)) (Laid.lexeme_of_slash hk)
  have hsource := Cut.source_of_of? hcut
  rw [Laid.lexeme_of_slash hk] at hsource
  cases ht : cut.piece.text with
  | nil =>
    rw [ht] at hlt
    contradiction
  | cons c more =>
    rw [ht] at hsource
    have hmore : more ++ cut.rest = layout items := (List.cons.inj hsource).2
    have hcount := congrArg (List.count '/') hmore
    rw [List.count_append, count_layout (by decide)] at hcount
    rw [hwritten, List.count_cons_self] at hle
    omega

theorem not_readsAs_of_fusesWith {i : Laid} {items : List Laid} (h : i.FusesWith items) :
    ¬ReadsAs (layout (i :: items)) (written (i :: items)) := by
  rw [layout_cons, readsAs_gap]
  intro hread
  have hfault := hread.faultless
  have hcontents := hread.contents_eq
  obtain ⟨cut, hcut, hlt, hkind⟩ := i.isLexeme.longer_cut ((runsOn_layout i items).2 h)
  rw [pieces_of_cut hcut] at hfault hcontents
  have hfirst := hfault cut.piece List.mem_cons_self
  -- the first piece is longer than the lexeme, so it is another token or a comment
  cases he : cut.piece.element with
  | fault fault =>
    simp only [Piece.isFaulty, he] at hfirst
    contradiction
  | token k =>
    have hc : cut.piece.content? =
        some (k, String.ofList cut.piece.text, Literal.ofLexeme? k cut.piece.text) := by
      simp only [Piece.content?, he]
    rw [List.filterMap_cons_some hc] at hcontents
    have hlexeme : String.ofList cut.piece.text = i.token.lexeme :=
      congrArg (fun x => x.2.1) (List.cons.inj hcontents).1
    rw [Laid.lexeme, ← hlexeme, String.toList_ofList] at hlt
    omega
  | trivia =>
    have hc : cut.piece.content? = none := by
      simp only [Piece.content?, he]
    rw [List.filterMap_cons_none hc] at hcontents
    rcases hkind with hk | ⟨k, hk⟩
    · exact slash_contents_ne hk hcut (by omega) hcontents
    · rw [he] at hk
      contradiction

theorem readsAs_layout_iff (items : List Laid) :
    ReadsAs (layout items) (written items) ↔ ¬Clash items := by
  induction items with
  | nil =>
    refine iff_of_true ⟨?_, ?_⟩ not_clash_nil
    · intro piece hm
      rw [layout, List.flatMap_nil, pieces_nil] at hm
      contradiction
    · rw [layout, List.flatMap_nil, pieces_nil]
      rfl
  | cons i items ih =>
    rw [clash_cons]
    by_cases h : i.FusesWith items
    · exact iff_of_false (not_readsAs_of_fusesWith h) fun hn => hn (.inl h)
    · rw [readsAs_layout_cons h, ih, or_iff_right h]

theorem scan_readsAs (text : List Char) (contents : List (Kind × String × Option Literal)) :
    ((scan (String.ofList text)).reports = [] ∧
      (scan (String.ofList text)).tokens.map Token.content = contents ++ [(.endOfInput, "", none)]) ↔
    ReadsAs text contents := by
  have htokens : (scan (String.ofList text)).tokens.map Token.content =
      (pieces text).filterMap Piece.content? ++ [(.endOfInput, "", none)] := by
    rw [Scan.tokens, List.map_append, scan, map_content_tokensFrom, String.toList_ofList]
    rfl
  have hreports : (scan (String.ofList text)).reports = [] ↔
      ∀ piece ∈ pieces text, piece.isFaulty = false := by
    rw [scan, reportsFrom_eq_nil_iff, String.toList_ofList]
  rw [htokens, hreports, List.append_left_inj]
  exact ⟨fun h => ⟨h.1, h.2⟩, fun h => ⟨h.1, h.2⟩⟩

/-! ### Spacing out -/

/-- What stands before the token at an index: nothing before the first one, a newline or a space before
any other. -/
def Gap.single (newline : Nat → Bool) : Nat → Gap
  | 0 => ⟨[], List.forall_mem_nil _⟩
  | n + 1 =>
    if newline n then ⟨['\n'], List.forall_mem_singleton.2 rfl⟩
    else ⟨[' '], List.forall_mem_singleton.2 rfl⟩

/-- The tokens of a scan with one blank between each two. -/
def spacedOut (newline : Nat → Bool) (source : String) : List Laid :=
  (scan source).body.attach.mapIdx fun n t => ⟨.single newline n, ⟨t.1, source, t.2⟩⟩

theorem written_spacedOut (newline : Nat → Bool) (source : String) :
    written (spacedOut newline source) = (scan source).body.map Token.content := by
  have hattach : (scan source).body.map Token.content =
      (scan source).body.attach.map fun t => t.1.content :=
    List.attach_map_val.symm
  rw [hattach]
  apply List.ext_getElem?
  intro n
  simp only [written, spacedOut, List.getElem?_map, List.getElem?_mapIdx, Option.map_map]
  rfl

theorem mem_tail_of_neighbours {t u : Laid} {items more : List Laid} (h : t :: u :: more <:+: items) :
    u ∈ items.tail := by
  obtain ⟨before, after, rfl⟩ := h
  cases before with
  | nil => simp
  | cons i before => simp

theorem not_clash_of_gaps {items : List Laid} (h : ∀ i ∈ items.tail, ¬i.Touches) : ¬Clash items := by
  intro hc
  rcases hc with ⟨t, u, hi, hu, -⟩ | ⟨t, u, v, hi, hu, -⟩
  · exact h u (mem_tail_of_neighbours hi) hu
  · exact h u (mem_tail_of_neighbours hi) hu

theorem Gap.single_ne_nil (newline : Nat → Bool) (n : Nat) : (single newline (n + 1)).text ≠ [] := by
  rw [single]
  split
  · exact List.cons_ne_nil _ _
  · exact List.cons_ne_nil _ _

theorem not_clash_spacedOut (newline : Nat → Bool) (source : String) :
    ¬Clash (spacedOut newline source) := by
  refine not_clash_of_gaps fun i hi htouches => ?_
  obtain ⟨n, hn⟩ := List.mem_iff_getElem?.1 hi
  rw [List.getElem?_tail, spacedOut, List.getElem?_mapIdx, Option.map_eq_some_iff] at hn
  obtain ⟨t, -, rfl⟩ := hn
  exact Gap.single_ne_nil newline n htouches

/-- The law of layout: lexemes are read back, each as the token that it was and nothing else, exactly if
none of them clash; and the tokens of a scan, spaced out, are read back whatever the scan reported. -/
theorem scan_layout :
    (∀ items : List Laid,
      ((scan (String.ofList (layout items))).reports = [] ∧
        (scan (String.ofList (layout items))).tokens.map Token.content =
          items.map (fun i => i.token.content) ++ [(.endOfInput, "", none)]) ↔
      ¬Clash items) ∧
    ∀ (newline : Nat → Bool) (source : String),
      (scan (String.ofList (layout (spacedOut newline source)))).reports = [] ∧
        (scan (String.ofList (layout (spacedOut newline source)))).tokens.map Token.content =
          (scan source).tokens.map Token.content := by
  constructor
  · intro items
    rw [scan_readsAs]
    exact readsAs_layout_iff items
  · intro newline source
    have htokens : (scan source).tokens.map Token.content =
        written (spacedOut newline source) ++ [(.endOfInput, "", none)] := by
      rw [written_spacedOut, Scan.tokens, List.map_append]
      rfl
    rw [htokens, scan_readsAs, readsAs_layout_iff]
    exact not_clash_spacedOut newline source

end LoxFrontEnd
