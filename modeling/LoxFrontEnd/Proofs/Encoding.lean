import LoxFrontEnd.Source.Directory

/-!
# Encoded text

A text that is written in UTF-8 is read back as it was. The encoding is that of the standard library:
one to four bytes for a character, by the range of its code point.
-/

namespace LoxFrontEnd.Utf8

/-! ### Start bytes -/

theorem start?_of_lt {b : UInt8} (h : b.toNat < 0x80) :
    start? b = some { bits := b.toNat, more := 0 } := by
  simp only [start?, if_pos h]

theorem start?_two {b : UInt8} (hlow : 0xC2 ≤ b.toNat) (hhigh : b.toNat < 0xE0) :
    start? b = some { bits := b.toNat - 0xC0, more := 1 } := by
  have h1 : ¬b.toNat < 0x80 := by omega
  have h2 : ¬b.toNat < 0xC2 := by omega
  simp only [start?, if_neg h1, if_neg h2, if_pos hhigh]

/-- The first byte of three; the least and the one before the surrogates narrow the range of the next. -/
theorem start?_three {b : UInt8} (hlow : 0xE0 ≤ b.toNat) (hhigh : b.toNat < 0xF0) :
    ∃ low high, start? b = some { bits := b.toNat - 0xE0, more := 2, low, high } ∧
      low.toNat = (if b.toNat = 0xE0 then 0xA0 else 0x80) ∧
      high.toNat = (if b.toNat = 0xED then 0x9F else 0xBF) := by
  have h1 : ¬b.toNat < 0x80 := by omega
  have h2 : ¬b.toNat < 0xC2 := by omega
  have h3 : ¬b.toNat < 0xE0 := by omega
  by_cases hfirst : b.toNat = 0xE0
  · exact ⟨0xA0, 0xBF, by simp [start?, hfirst], by simp [hfirst], by simp [hfirst]⟩
  · by_cases hsurrogate : b.toNat = 0xED
    · exact ⟨0x80, 0x9F, by simp [start?, hsurrogate], by simp [hsurrogate], by simp [hsurrogate]⟩
    · refine ⟨0x80, 0xBF, ?_, by simp [hfirst], by simp [hsurrogate]⟩
      simp only [start?, if_neg h1, if_neg h2, if_neg h3, if_neg hfirst, if_neg hsurrogate,
        if_pos hhigh]

/-- The first byte of four; the least and the last narrow the range of the next. -/
theorem start?_four {b : UInt8} (hlow : 0xF0 ≤ b.toNat) (hhigh : b.toNat ≤ 0xF4) :
    ∃ low high, start? b = some { bits := b.toNat - 0xF0, more := 3, low, high } ∧
      low.toNat = (if b.toNat = 0xF0 then 0x90 else 0x80) ∧
      high.toNat = (if b.toNat = 0xF4 then 0x8F else 0xBF) := by
  have h1 : ¬b.toNat < 0x80 := by omega
  have h2 : ¬b.toNat < 0xC2 := by omega
  have h3 : ¬b.toNat < 0xE0 := by omega
  have h4 : ¬b.toNat < 0xF0 := by omega
  by_cases hfirst : b.toNat = 0xF0
  · exact ⟨0x90, 0xBF, by simp [start?, hfirst], by simp [hfirst], by simp [hfirst]⟩
  · by_cases hlast : b.toNat = 0xF4
    · exact ⟨0x80, 0x8F, by simp [start?, hlast], by simp [hlast], by simp [hlast]⟩
    · have h5 : b.toNat < 0xF4 := by omega
      have h6 : b.toNat ≠ 0xE0 := by omega
      have h7 : b.toNat ≠ 0xED := by omega
      refine ⟨0x80, 0xBF, ?_, by simp [hfirst], by simp [hlast]⟩
      simp only [start?, if_neg h1, if_neg h2, if_neg h3, if_neg h4, if_neg h6, if_neg h7,
        if_neg hfirst, if_pos h5]

/-! ### Continuation bytes -/

def tail (n : Nat) : UInt8 := UInt8.ofNat (n % 64 + 0x80)

theorem tail_toNat (n : Nat) : (tail n).toNat = n % 64 + 0x80 := by
  rw [tail, UInt8.toNat_ofNat']
  omega

theorem continuation_cons {more : Nat} {low high b : UInt8} (bytes : List UInt8)
    (hlow : low.toNat ≤ b.toNat) (hhigh : b.toNat ≤ high.toNat) :
    continuation (more + 1) low high (b :: bytes) = b :: continuation more 0x80 0xBF bytes := by
  have hrange : low ≤ b ∧ b ≤ high :=
    ⟨UInt8.le_iff_toNat_le.2 hlow, UInt8.le_iff_toNat_le.2 hhigh⟩
  rw [continuation, if_pos hrange]

theorem continuation_tail (more n : Nat) (bytes : List UInt8) :
    continuation (more + 1) 0x80 0xBF (tail n :: bytes) =
      tail n :: continuation more 0x80 0xBF bytes := by
  have hn := tail_toNat n
  have hlow : (0x80 : UInt8).toNat ≤ (tail n).toNat := by
    rw [hn]
    exact Nat.le_add_left _ _
  have hhigh : (tail n).toNat ≤ (0xBF : UInt8).toNat := by
    have hlt : n % 64 < 64 := Nat.mod_lt n (by decide)
    have he : (0xBF : UInt8).toNat = 0xBF := rfl
    omega
  exact continuation_cons bytes hlow hhigh

theorem codePoint_tail (bits n : Nat) (following : List UInt8) :
    codePoint bits (tail n :: following) = codePoint (bits * 64 + n % 64) following := by
  have h : (tail n).toNat % 64 = n % 64 := by
    rw [tail_toNat]
    omega
  rw [codePoint, List.foldl_cons, h]
  rfl

/-! ### Sequences -/

/-- A start byte with all the continuation bytes that it calls for is one character. -/
theorem decodeFrom_sequence {b : UInt8} {s : Start} {following rest : List UInt8}
    (hs : start? b = some s) (hc : continuation s.more s.low s.high (following ++ rest) = following)
    (hl : following.length = s.more) (position : Nat) :
    decodeFrom position (b :: (following ++ rest)) =
      (decodeFrom (position + 1 + s.more) rest).map
        (Char.ofNat (codePoint s.bits following) :: ·) := by
  have hrest : (following ++ rest).drop s.more = rest := by
    rw [← hl, List.drop_left]
  rw [decodeFrom]
  simp only [hs, hc, if_pos hl, hrest]

theorem codePoint_nil (bits : Nat) : codePoint bits [] = bits := rfl

theorem ofNat_toNat {n : Nat} (h : n < 256) : (UInt8.ofNat n).toNat = n := by
  rw [UInt8.toNat_ofNat']
  exact Nat.mod_eq_of_lt h

theorem decodeFrom_one {v : Nat} (h : v ≤ 0x7F) (position : Nat) (rest : List UInt8) :
    decodeFrom position (UInt8.ofNat v :: rest) =
      (decodeFrom (position + 1) rest).map (Char.ofNat v :: ·) := by
  have hb : (UInt8.ofNat v).toNat = v := ofNat_toNat (by omega)
  have hs := start?_of_lt (b := UInt8.ofNat v) (by omega)
  rw [hb] at hs
  have hc : continuation 0 0 0 ([] ++ rest) = [] := rfl
  exact decodeFrom_sequence hs hc rfl position

theorem decodeFrom_two {v : Nat} (hlow : 0x80 ≤ v) (hhigh : v ≤ 0x7FF) (position : Nat)
    (rest : List UInt8) :
    decodeFrom position (UInt8.ofNat (v / 64 % 32 + 0xC0) :: tail v :: rest) =
      (decodeFrom (position + 2) rest).map (Char.ofNat v :: ·) := by
  have hb : (UInt8.ofNat (v / 64 % 32 + 0xC0)).toNat = v / 64 + 0xC0 := by
    rw [ofNat_toNat (by omega)]
    omega
  have hs := start?_two (b := UInt8.ofNat (v / 64 % 32 + 0xC0)) (by omega) (by omega)
  have hc : continuation 1 0x80 0xBF ([tail v] ++ rest) = [tail v] := continuation_tail 0 v rest
  have hv : codePoint (v / 64 + 0xC0 - 0xC0) [tail v] = v := by
    rw [codePoint_tail, codePoint_nil]
    omega
  have hd := decodeFrom_sequence hs hc rfl position
  rw [hb, hv] at hd
  exact hd

theorem decodeFrom_three {v : Nat} (hlow : 0x800 ≤ v) (hhigh : v ≤ 0xFFFF)
    (hscalar : v < 0xD800 ∨ 0xDFFF < v) (position : Nat) (rest : List UInt8) :
    decodeFrom position
        (UInt8.ofNat (v / 4096 % 16 + 0xE0) :: tail (v / 64) :: tail v :: rest) =
      (decodeFrom (position + 3) rest).map (Char.ofNat v :: ·) := by
  have hb : (UInt8.ofNat (v / 4096 % 16 + 0xE0)).toNat = v / 4096 + 0xE0 := by
    rw [ofNat_toNat (by omega)]
    omega
  obtain ⟨low, high, hs, hl, hh⟩ :=
    start?_three (b := UInt8.ofNat (v / 4096 % 16 + 0xE0)) (by omega) (by omega)
  have hsecond := tail_toNat (v / 64)
  -- the narrowed ranges leave out what two bytes can hold and the surrogates
  have hfits : low.toNat ≤ (tail (v / 64)).toNat ∧ (tail (v / 64)).toNat ≤ high.toNat := by
    rw [hl, hh, hb, hsecond]
    constructor
    · split <;> omega
    · split <;> omega
  have hc : continuation 2 low high ([tail (v / 64), tail v] ++ rest) = [tail (v / 64), tail v] := by
    rw [List.cons_append, continuation_cons _ hfits.1 hfits.2]
    exact congrArg _ (continuation_tail 0 v rest)
  have hv : codePoint (v / 4096 + 0xE0 - 0xE0) [tail (v / 64), tail v] = v := by
    rw [codePoint_tail, codePoint_tail, codePoint_nil]
    omega
  have hd := decodeFrom_sequence hs hc rfl position
  rw [hb, hv] at hd
  exact hd

theorem decodeFrom_four {v : Nat} (hlow : 0x10000 ≤ v) (hhigh : v < 0x110000) (position : Nat)
    (rest : List UInt8) :
    decodeFrom position
        (UInt8.ofNat (v / 262144 % 8 + 0xF0) :: tail (v / 4096) :: tail (v / 64) :: tail v :: rest) =
      (decodeFrom (position + 4) rest).map (Char.ofNat v :: ·) := by
  have hb : (UInt8.ofNat (v / 262144 % 8 + 0xF0)).toNat = v / 262144 + 0xF0 := by
    rw [ofNat_toNat (by omega)]
    omega
  obtain ⟨low, high, hs, hl, hh⟩ :=
    start?_four (b := UInt8.ofNat (v / 262144 % 8 + 0xF0)) (by omega) (by omega)
  have hsecond := tail_toNat (v / 4096)
  -- the narrowed ranges leave out what three bytes can hold and all past the last code point
  have hfits : low.toNat ≤ (tail (v / 4096)).toNat ∧ (tail (v / 4096)).toNat ≤ high.toNat := by
    rw [hl, hh, hb, hsecond]
    constructor
    · split <;> omega
    · split <;> omega
  have hc : continuation 3 low high ([tail (v / 4096), tail (v / 64), tail v] ++ rest) =
      [tail (v / 4096), tail (v / 64), tail v] := by
    rw [List.cons_append, continuation_cons _ hfits.1 hfits.2, List.cons_append,
      continuation_tail 1]
    exact congrArg (fun bytes => _ :: _ :: bytes) (continuation_tail 0 v rest)
  have hv : codePoint (v / 262144 + 0xF0 - 0xF0) [tail (v / 4096), tail (v / 64), tail v] = v := by
    rw [codePoint_tail, codePoint_tail, codePoint_tail, codePoint_nil]
    omega
  have hd := decodeFrom_sequence hs hc rfl position
  rw [hb, hv] at hd
  exact hd

/-! ### Texts -/

/-- The bytes of one character are read as that character, whatever comes after them. -/
theorem decodeFrom_utf8EncodeChar (c : Char) (position : Nat) (rest : List UInt8) :
    decodeFrom position (String.utf8EncodeChar c ++ rest) =
      (decodeFrom (position + (String.utf8EncodeChar c).length) rest).map (c :: ·) := by
  have hscalar : c.toNat < 0xD800 ∨ 0xDFFF < c.toNat ∧ c.toNat < 0x110000 := c.valid
  have hc : Char.ofNat c.toNat = c := Char.ofNat_toNat c
  by_cases h1 : c.toNat ≤ 0x7F
  · have he : String.utf8EncodeChar c = [UInt8.ofNat c.toNat] := if_pos h1
    have hd := decodeFrom_one h1 position rest
    rw [hc] at hd
    rw [he]
    exact hd
  · by_cases h2 : c.toNat ≤ 0x7FF
    · have he : String.utf8EncodeChar c = [UInt8.ofNat (c.toNat / 64 % 32 + 0xC0), tail c.toNat] :=
        (if_neg h1).trans (if_pos h2)
      have hd := decodeFrom_two (by omega) h2 position rest
      rw [hc] at hd
      rw [he]
      exact hd
    · by_cases h3 : c.toNat ≤ 0xFFFF
      · have he : String.utf8EncodeChar c =
            [UInt8.ofNat (c.toNat / 4096 % 16 + 0xE0), tail (c.toNat / 64), tail c.toNat] :=
          (if_neg h1).trans ((if_neg h2).trans (if_pos h3))
        have hd := decodeFrom_three (by omega) h3 (by omega) position rest
        rw [hc] at hd
        rw [he]
        exact hd
      · have he : String.utf8EncodeChar c =
            [UInt8.ofNat (c.toNat / 262144 % 8 + 0xF0), tail (c.toNat / 4096), tail (c.toNat / 64),
              tail c.toNat] :=
          (if_neg h1).trans ((if_neg h2).trans (if_neg h3))
        have hlow : 0x10000 ≤ c.toNat := by omega
        have hhigh : c.toNat < 0x110000 := by omega
        have hd := decodeFrom_four hlow hhigh position rest
        rw [hc] at hd
        rw [he]
        exact hd

def encode (text : List Char) : List UInt8 := text.flatMap String.utf8EncodeChar

theorem encode_nil : encode [] = [] := rfl

theorem encode_cons (c : Char) (text : List Char) :
    encode (c :: text) = String.utf8EncodeChar c ++ encode text := rfl

theorem toUTF8_eq_encode (source : String) : source.toUTF8.data.toList = encode source.toList := by
  rw [String.toUTF8_eq_toByteArray, ← String.utf8Encode_toList, List.utf8Encode,
    List.data_toByteArray, encode]

theorem decodeFrom_encode_append (text : List Char) (position : Nat) (rest : List UInt8) :
    decodeFrom position (encode text ++ rest) =
      (decodeFrom (position + (encode text).length) rest).map (text ++ ·) := by
  induction text generalizing position with
  | nil =>
    rw [encode_nil, List.nil_append, List.length_nil, Nat.add_zero]
    cases decodeFrom position rest <;> rfl
  | cons c text ih =>
    rw [encode_cons, List.append_assoc, decodeFrom_utf8EncodeChar, ih, List.length_append,
      Nat.add_assoc]
    cases decodeFrom (position + ((String.utf8EncodeChar c).length + (encode text).length)) rest <;> rfl

theorem decodeFrom_encode (text : List Char) (position : Nat) :
    decodeFrom position (encode text) = .ok text := by
  have h := decodeFrom_encode_append text position []
  rw [List.append_nil, decodeFrom, Except.map, List.append_nil] at h
  exact h

theorem decode_encode (source : String) : decode source.toUTF8.data.toList = .ok source.toList := by
  rw [decode, toUTF8_eq_encode, decodeFrom_encode]

end LoxFrontEnd.Utf8
