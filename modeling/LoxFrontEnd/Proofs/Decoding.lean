import LoxFrontEnd.Proofs.Encoding

/-!
# Decoding

The converse of reading an encoded text back. What is read as a text is the encoding of that text, and
where no text can be read, the bytes before the fault are the longest prefix that encodes one. So the
ranges of the continuation bytes leave out all that no character is encoded as.
-/

namespace LoxFrontEnd.Utf8

/-! ### Characters of sequences -/

theorem toNat_ofNat {v : Nat} (h : v.isValidChar) : (Char.ofNat v).val.toNat = v := by
  rw [Char.ofNat, dif_pos h]
  exact UInt32.toNat_ofNatLT ..

theorem eq_of_toNat {b : UInt8} {n : Nat} (h : b.toNat = n) : UInt8.ofNat n = b := by
  rw [← h]
  exact UInt8.ofNat_toNat

theorem tail_eq {b : UInt8} {v : Nat} (hlow : 0x80 ≤ b.toNat) (hhigh : b.toNat ≤ 0xBF)
    (hv : v % 64 = b.toNat % 64) : UInt8.ofNat (v % 64 + 0x80) = b :=
  eq_of_toNat (by omega)

section

variable {b x y z : UInt8}

/-- However its range is narrowed, a continuation byte is one. -/
theorem continuation_range {p q : Prop} [Decidable p] [Decidable q] {low high n : Nat}
    (hlow : 0x80 ≤ low) (hhigh : high ≤ 0xBF)
    (h : (if p then low else 0x80) ≤ n ∧ n ≤ (if q then high else 0xBF)) : 0x80 ≤ n ∧ n ≤ 0xBF := by
  obtain ⟨hl, hh⟩ := h
  constructor
  · split at hl <;> omega
  · split at hh <;> omega

theorem utf8EncodeChar_one (hb : b.toNat < 0x80) :
    String.utf8EncodeChar (Char.ofNat b.toNat) = [b] := by
  have hv : (Char.ofNat b.toNat).val.toNat = b.toNat := toNat_ofNat (.inl (by omega))
  rw [String.utf8EncodeChar]
  simp only [hv]
  rw [if_pos (by omega), UInt8.ofNat_toNat]

theorem utf8EncodeChar_two (hlow : 0xC2 ≤ b.toNat) (hhigh : b.toNat < 0xE0)
    (hx : 0x80 ≤ x.toNat ∧ x.toNat ≤ 0xBF) :
    String.utf8EncodeChar (Char.ofNat (codePoint (b.toNat - 0xC0) [x])) = [b, x] := by
  have hp : codePoint (b.toNat - 0xC0) [x] = (b.toNat - 0xC0) * 64 + x.toNat % 64 := rfl
  generalize codePoint (b.toNat - 0xC0) [x] = v at hp
  have hv : (Char.ofNat v).val.toNat = v := toNat_ofNat (.inl (by omega))
  rw [String.utf8EncodeChar]
  simp only [hv]
  rw [if_neg (by omega), if_pos (by omega), eq_of_toNat (b := b) (by omega),
    tail_eq hx.1 hx.2 (by omega)]

/-- The narrowed ranges keep three bytes above what two can hold, and out of the surrogates. -/
theorem utf8EncodeChar_three (hlow : 0xE0 ≤ b.toNat) (hhigh : b.toNat < 0xF0)
    (hx : (if b.toNat = 0xE0 then 0xA0 else 0x80) ≤ x.toNat ∧
      x.toNat ≤ (if b.toNat = 0xED then 0x9F else 0xBF))
    (hy : 0x80 ≤ y.toNat ∧ y.toNat ≤ 0xBF) :
    String.utf8EncodeChar (Char.ofNat (codePoint (b.toNat - 0xE0) [x, y])) = [b, x, y] := by
  have hp : codePoint (b.toNat - 0xE0) [x, y] =
      ((b.toNat - 0xE0) * 64 + x.toNat % 64) * 64 + y.toNat % 64 := rfl
  generalize codePoint (b.toNat - 0xE0) [x, y] = v at hp
  have hx' := continuation_range (by decide) (by decide) hx
  have hleast : 0x800 ≤ v := by
    obtain ⟨h1, -⟩ := hx
    split at h1 <;> omega
  have hscalar : v < 0xD800 ∨ 0xDFFF < v := by
    obtain ⟨-, h2⟩ := hx
    split at h2 <;> omega
  have hv : (Char.ofNat v).val.toNat = v := by
    apply toNat_ofNat
    rw [Nat.isValidChar]
    omega
  rw [String.utf8EncodeChar]
  simp only [hv]
  rw [if_neg (by omega), if_neg (by omega), if_pos (by omega), eq_of_toNat (b := b) (by omega),
    tail_eq hx'.1 hx'.2 (by omega), tail_eq hy.1 hy.2 (by omega)]

/-- The narrowed ranges keep four bytes above what three can hold, and up to the last code point. -/
theorem utf8EncodeChar_four (hlow : 0xF0 ≤ b.toNat) (hhigh : b.toNat ≤ 0xF4)
    (hx : (if b.toNat = 0xF0 then 0x90 else 0x80) ≤ x.toNat ∧
      x.toNat ≤ (if b.toNat = 0xF4 then 0x8F else 0xBF))
    (hy : 0x80 ≤ y.toNat ∧ y.toNat ≤ 0xBF) (hz : 0x80 ≤ z.toNat ∧ z.toNat ≤ 0xBF) :
    String.utf8EncodeChar (Char.ofNat (codePoint (b.toNat - 0xF0) [x, y, z])) = [b, x, y, z] := by
  have hp : codePoint (b.toNat - 0xF0) [x, y, z] =
      (((b.toNat - 0xF0) * 64 + x.toNat % 64) * 64 + y.toNat % 64) * 64 + z.toNat % 64 := rfl
  generalize codePoint (b.toNat - 0xF0) [x, y, z] = v at hp
  have hx' := continuation_range (by decide) (by decide) hx
  have hleast : 0x10000 ≤ v := by
    obtain ⟨h1, -⟩ := hx
    split at h1 <;> omega
  have hlast : v < 0x110000 := by
    obtain ⟨-, h2⟩ := hx
    split at h2 <;> omega
  have hv : (Char.ofNat v).val.toNat = v := by
    apply toNat_ofNat
    rw [Nat.isValidChar]
    omega
  rw [String.utf8EncodeChar]
  simp only [hv]
  rw [if_neg (by omega), if_neg (by omega), if_neg (by omega), eq_of_toNat (b := b) (by omega),
    tail_eq hx'.1 hx'.2 (by omega), tail_eq hy.1 hy.2 (by omega), tail_eq hz.1 hz.2 (by omega)]

end

/-! ### Sequences -/

theorem start?_eq_none {b : UInt8} (h : 0x80 ≤ b.toNat ∧ b.toNat < 0xC2 ∨ 0xF4 < b.toNat) :
    start? b = none := by
  rcases h with ⟨hlow, hhigh⟩ | h
  · simp only [start?, if_neg (Nat.not_lt.2 hlow), if_pos hhigh]
  · simp (disch := omega) only [start?, if_neg]

theorem continuation_full {more : Nat} {low high : UInt8} {bytes : List UInt8}
    (h : (continuation (more + 1) low high bytes).length = more + 1) :
    ∃ b rest, bytes = b :: rest ∧ (low.toNat ≤ b.toNat ∧ b.toNat ≤ high.toNat) ∧
      continuation (more + 1) low high bytes = b :: continuation more 0x80 0xBF rest ∧
      (continuation more 0x80 0xBF rest).length = more := by
  cases bytes with
  | nil => simp [continuation] at h
  | cons b rest =>
    rw [continuation] at h ⊢
    split at h
    · rename_i hb
      rw [if_pos hb]
      exact ⟨b, rest, rfl, ⟨UInt8.le_iff_toNat_le.1 hb.1, UInt8.le_iff_toNat_le.1 hb.2⟩, rfl,
        Nat.succ.inj h⟩
    · cases h

/-- A start byte with all the continuation bytes that it calls for is the encoding of a character. -/
theorem utf8EncodeChar_sequence {b : UInt8} {s : Start} {bytes : List UInt8} (hs : start? b = some s)
    (hl : (continuation s.more s.low s.high bytes).length = s.more) :
    String.utf8EncodeChar (Char.ofNat (codePoint s.bits (continuation s.more s.low s.high bytes))) =
      b :: continuation s.more s.low s.high bytes := by
  by_cases h1 : b.toNat < 0x80
  · rw [start?_of_lt h1] at hs
    obtain rfl := Option.some.inj hs
    exact utf8EncodeChar_one h1
  by_cases h2 : b.toNat < 0xC2
  · rw [start?_eq_none (.inl ⟨by omega, h2⟩)] at hs
    cases hs
  by_cases h3 : b.toNat < 0xE0
  · rw [start?_two (by omega) h3] at hs
    obtain rfl := Option.some.inj hs
    obtain ⟨x, bytes, rfl, hx, he, -⟩ := continuation_full hl
    rw [he]
    exact utf8EncodeChar_two (by omega) h3 hx
  by_cases h4 : b.toNat < 0xF0
  · obtain ⟨low, high, hthree, hlow, hhigh⟩ := start?_three (b := b) (by omega) h4
    rw [hthree] at hs
    obtain rfl := Option.some.inj hs
    obtain ⟨x, bytes, rfl, hx, he, hl⟩ := continuation_full hl
    obtain ⟨y, bytes, rfl, hy, hf, -⟩ := continuation_full hl
    rw [he, hf]
    rw [hlow, hhigh] at hx
    exact utf8EncodeChar_three (by omega) h4 hx hy
  by_cases h5 : b.toNat ≤ 0xF4
  · obtain ⟨low, high, hfour, hlow, hhigh⟩ := start?_four (b := b) (by omega) h5
    rw [hfour] at hs
    obtain rfl := Option.some.inj hs
    obtain ⟨x, bytes, rfl, hx, he, hl⟩ := continuation_full hl
    obtain ⟨y, bytes, rfl, hy, hf, hl⟩ := continuation_full hl
    obtain ⟨z, bytes, rfl, hz, hg, -⟩ := continuation_full hl
    rw [he, hf, hg]
    rw [hlow, hhigh] at hx
    exact utf8EncodeChar_four (by omega) h5 hx hy hz
  · rw [start?_eq_none (.inr (by omega))] at hs
    cases hs

theorem sequence_append_drop {b : UInt8} {s : Start} {bytes : List UInt8} (hs : start? b = some s)
    (hl : (continuation s.more s.low s.high bytes).length = s.more) :
    String.utf8EncodeChar (Char.ofNat (codePoint s.bits (continuation s.more s.low s.high bytes))) ++
      bytes.drop s.more = b :: bytes := by
  have htake := List.prefix_iff_eq_take.1 (continuation_isPrefix s.more s.low s.high bytes)
  rw [hl] at htake
  rw [utf8EncodeChar_sequence hs hl, List.cons_append, htake, List.take_append_drop]

/-! ### Texts -/

theorem exists_of_map_ok {α β : Type} {f : α → β} {x : Except Fault α} {y : β}
    (h : x.map f = .ok y) : ∃ a, x = .ok a ∧ f a = y := by
  cases x with
  | error fault => cases h
  | ok a => exact ⟨a, rfl, Except.ok.inj h⟩

theorem error_of_map {α β : Type} {f : α → β} {x : Except Fault α} {fault : Fault}
    (h : x.map f = .error fault) : x = .error fault := by
  cases x with
  | error fault => exact congrArg Except.error (Except.error.inj h)
  | ok a => cases h

theorem encode_of_decodeFrom (position : Nat) (bytes : List UInt8) :
    ∀ text, decodeFrom position bytes = .ok text → encode text = bytes := by
  fun_induction decodeFrom position bytes with
  | case1 =>
    intro text h
    cases h
    rfl
  | case2 =>
    intro text h
    cases h
  | case3 position b bytes s hs following hl ih =>
    intro text h
    obtain ⟨more, hrest, rfl⟩ := exists_of_map_ok h
    rw [encode_cons, ih more hrest]
    exact sequence_append_drop hs hl
  | case4 =>
    intro text h
    cases h
  | case5 =>
    intro text h
    cases h

theorem decode_eq_ok_iff {bytes : List UInt8} {text : List Char} :
    decode bytes = .ok text ↔ encode text = bytes := by
  constructor
  · exact encode_of_decodeFrom 0 bytes text
  · rintro rfl
    exact decodeFrom_encode text 0

theorem encode_injective : Function.Injective encode := by
  intro text other h
  have htext := decode_eq_ok_iff.2 h
  rw [decode_eq_ok_iff.2 rfl] at htext
  cases htext
  rfl

/-! ### Faults -/

theorem exists_fault_iff {bytes : List UInt8} :
    (∃ fault, decode bytes = .error fault) ↔ ∀ source : String, source.toUTF8.data.toList ≠ bytes := by
  constructor
  · rintro ⟨fault, hfault⟩ source hsource
    rw [toUTF8_eq_encode, ← decode_eq_ok_iff, hfault] at hsource
    cases hsource
  · intro hnone
    cases hdecode : decode bytes with
    | ok text =>
      refine absurd ?_ (hnone (String.ofList text))
      rw [toUTF8_eq_encode, String.toList_ofList]
      exact decode_eq_ok_iff.1 hdecode
    | error fault => exact ⟨fault, rfl⟩

theorem le_position_of_decodeFrom {position : Nat} {bytes : List UInt8} {fault : Fault}
    (h : decodeFrom position bytes = .error fault) : position ≤ fault.position := by
  fun_induction decodeFrom position bytes with
  | case1 => cases h
  | case2 =>
    cases h
    exact Nat.le_refl _
  | case3 position b bytes s hs following hl ih =>
    have hle := ih (error_of_map h)
    omega
  | case4 =>
    cases h
    exact Nat.le_refl _
  | case5 =>
    cases h
    exact Nat.le_refl _

/-- A fault lies where its first byte is, and what comes before it is text. -/
theorem exists_encode_of_decodeFrom {position : Nat} {bytes : List UInt8} {fault : Fault}
    (h : decodeFrom position bytes = .error fault) :
    ∃ text rest, bytes = encode text ++ fault.start :: rest ∧
      fault.position = position + (encode text).length := by
  fun_induction decodeFrom position bytes with
  | case1 => cases h
  | case2 position b bytes =>
    cases h
    exact ⟨[], bytes, rfl, rfl⟩
  | case3 position b bytes s hs following hl ih =>
    obtain ⟨text, rest, hbytes, hposition⟩ := ih (error_of_map h)
    have hsplit := sequence_append_drop hs hl
    have hlength : (b :: following).length = 1 + s.more := by
      rw [List.length_cons, hl, Nat.add_comm]
    refine ⟨Char.ofNat (codePoint s.bits following) :: text, rest, ?_, ?_⟩
    · rw [encode_cons, List.append_assoc, ← hbytes, hsplit]
    · rw [encode_cons, List.length_append, utf8EncodeChar_sequence hs hl, hlength, hposition]
      omega
  | case4 position b bytes =>
    cases h
    exact ⟨[], bytes, rfl, rfl⟩
  | case5 position b bytes =>
    cases h
    exact ⟨[], bytes, rfl, rfl⟩

/-- The first fault ends the longest prefix that is a text. -/
theorem longest_of_decode {bytes : List UInt8} {fault : Fault} (h : decode bytes = .error fault) :
    bytes[fault.position]? = some fault.start ∧
      (∃ text, encode text = bytes.take fault.position) ∧
      ∀ text n, encode text = bytes.take n → n ≤ bytes.length → n ≤ fault.position := by
  obtain ⟨text, rest, hbytes, hposition⟩ := exists_encode_of_decodeFrom h
  rw [Nat.zero_add] at hposition
  refine ⟨?_, ⟨text, ?_⟩, ?_⟩
  · rw [hbytes, hposition, List.getElem?_append_right (Nat.le_refl _), Nat.sub_self,
      List.getElem?_cons_zero]
  · rw [hbytes, hposition, List.take_left]
  · intro other n hother hn
    have hlater := decodeFrom_encode_append other 0 (bytes.drop n)
    rw [hother, List.take_append_drop, List.length_take, Nat.min_eq_left hn, Nat.zero_add] at hlater
    rw [decode, hlater] at h
    exact le_position_of_decodeFrom (error_of_map h)

theorem head?_toList_append {first : String} {c : Char} (h : first.toList.head? = some c)
    (more : String) : (first ++ more).toList.head? = some c := by
  rw [String.toList_append, List.head?_append, h, Option.some_or]

theorem Fault.message_eq (fault : Fault) :
    fault.message =
      "'utf-8' codec can't decode " ++
        (if fault.fitting = 0 then
          "byte " ++ byteText fault.start ++ " in position " ++ toString fault.position
        else
          "bytes in position " ++ toString fault.position ++ "-" ++
            toString (fault.position + fault.fitting)) ++
        ": " ++ fault.reason.text := rfl

/-- A fault is named by its place, which a colon or a last place follows. -/
theorem Fault.message_position (fault : Fault) :
    ∃ lead trail, fault.message = lead ++ "in position " ++ toString fault.position ++ trail ∧
      (trail.toList.head? = some ':' ∨ trail.toList.head? = some '-') := by
  by_cases hf : fault.fitting = 0
  · have hplace : " in position " = " " ++ "in position " := by decide
    refine ⟨"'utf-8' codec can't decode " ++ ("byte " ++ byteText fault.start ++ " "),
      ": " ++ fault.reason.text, ?_, .inl (head?_toList_append (by decide) _)⟩
    rw [message_eq, if_pos hf, hplace]
    simp only [String.append_assoc]
  · have hplace : "bytes in position " = "bytes " ++ "in position " := by decide
    refine ⟨"'utf-8' codec can't decode " ++ "bytes ",
      "-" ++ (toString (fault.position + fault.fitting) ++ ": " ++ fault.reason.text), ?_,
      .inr (head?_toList_append (by decide) _)⟩
    rw [message_eq, if_neg hf, hplace]
    simp only [String.append_assoc]

end LoxFrontEnd.Utf8
