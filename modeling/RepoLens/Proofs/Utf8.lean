import Mathlib.Tactic
import RepoLens.Text.Utf8
/-!
Text that is written as UTF-8 and read again. The bytes of one character are read one by one, the lead byte fixing how
many follow and what the next one may be; after the last of them the reader stands between two characters again, with
the character read and the bytes after it untouched.

Results:
- `decodeFrom_encodeChar`: the bytes of one character, with any bytes behind them, are read as that character;
- `decode_encode`: what was written as UTF-8 is read as it was.
-/
namespace RepoLens.Text.Utf8

/-! ## Lead bytes -/

theorem lead_one {n : Nat} (h : n < 0x80) : lead n = ([Char.ofNat n], none) := by
  simp [lead, h]

theorem lead_two {m : Nat} (h1 : 2 ≤ m) (h2 : m < 32) : lead (0xC0 + m) = ([], some ⟨1, 0x80, 0xBF, m⟩) := by
  have h : ¬ (0xC0 + m < 0x80) := by omega
  have h' : (0xC2 ≤ 0xC0 + m && 0xC0 + m ≤ 0xDF) = true := by simp; omega
  simp only [lead, h, h', if_false, if_true, Nat.add_sub_cancel_left]

/-- the first byte of three, and the bounds of the second: they keep out characters that are too small and halves of
pairs -/
theorem lead_three {m k : Nat} (hm : m < 16) (hk : k < 64) (hsmall : m = 0 → 32 ≤ k) (hpair : m = 13 → k < 32) :
    ∃ low high, lead (0xE0 + m) = ([], some ⟨2, low, high, m⟩) ∧ low ≤ 0x80 + k ∧ 0x80 + k ≤ high := by
  by_cases h0 : m = 0
  · subst h0
    exact ⟨0xA0, 0xBF, rfl, by have := hsmall rfl; omega, by omega⟩
  by_cases h13 : m = 13
  · subst h13
    exact ⟨0x80, 0x9F, rfl, by omega, by have := hpair rfl; omega⟩
  · refine ⟨0x80, 0xBF, ?_, by omega, by omega⟩
    interval_cases m <;> first | rfl | contradiction

/-- the first byte of four, and the bounds of the second: they keep out characters that are too small or too large -/
theorem lead_four {m k : Nat} (hm : m < 5) (hk : k < 64) (hsmall : m = 0 → 16 ≤ k) (hlarge : m = 4 → k < 16) :
    ∃ low high, lead (0xF0 + m) = ([], some ⟨3, low, high, m⟩) ∧ low ≤ 0x80 + k ∧ 0x80 + k ≤ high := by
  by_cases h0 : m = 0
  · subst h0
    exact ⟨0x90, 0xBF, rfl, by have := hsmall rfl; omega, by omega⟩
  by_cases h4 : m = 4
  · subst h4
    exact ⟨0x80, 0x8F, rfl, by omega, by have := hlarge rfl; omega⟩
  · refine ⟨0x80, 0xBF, ?_, by omega, by omega⟩
    interval_cases m <;> first | rfl | contradiction

/-! ## Reading on -/

theorem toNat_ofNat_byte {n : Nat} (h : n < 256) : (UInt8.ofNat n).toNat = n := by
  simp [Nat.mod_eq_of_lt h]

/-- a byte between two characters -/
theorem decodeFrom_lead {n : Nat} (h : n < 256) (rest : List UInt8) :
    decodeFrom none (UInt8.ofNat n :: rest) = (lead n).1 ++ decodeFrom (lead n).2 rest := by
  rw [decodeFrom, toNat_ofNat_byte h]
  rfl

/-- a byte inside a character, with more to come -/
theorem decodeFrom_inner {need low high value k : Nat} (hneed : 1 < need) (hk : k < 64) (hlow : low ≤ 0x80 + k)
    (hhigh : 0x80 + k ≤ high) (rest : List UInt8) :
    decodeFrom (some ⟨need, low, high, value⟩) (UInt8.ofNat (0x80 + k) :: rest) =
      decodeFrom (some ⟨need - 1, 0x80, 0xBF, value * 64 + k⟩) rest := by
  rw [decodeFrom, toNat_ofNat_byte (by omega)]
  simp [step, hlow, hhigh, Nat.not_le.2 hneed]

/-- the last byte of a character -/
theorem decodeFrom_last {low high value k : Nat} (hk : k < 64) (hlow : low ≤ 0x80 + k) (hhigh : 0x80 + k ≤ high)
    (rest : List UInt8) :
    decodeFrom (some ⟨1, low, high, value⟩) (UInt8.ofNat (0x80 + k) :: rest) =
      Char.ofNat (value * 64 + k) :: decodeFrom none rest := by
  rw [decodeFrom, toNat_ofNat_byte (by omega)]
  simp [step, hlow, hhigh]

/-! ## Characters -/

theorem toNat_bounds (c : Char) : c.toNat < 0x110000 ∧ (c.toNat < 0xD800 ∨ 0xDFFF < c.toNat) := by
  rcases c.valid with h | ⟨h, h'⟩
  · have hlt : c.toNat < 0xD800 := h
    omega
  · have hgt : 0xDFFF < c.toNat := h
    have hlt : c.toNat < 0x110000 := h'
    omega

/-- **The bytes of one character** are read as that character, whatever follows. The cases are the numbers of bytes. -/
theorem decodeFrom_encodeChar (c : Char) (rest : List UInt8) :
    decodeFrom none (encodeChar c ++ rest) = c :: decodeFrom none rest := by
  obtain ⟨hmax, hpair⟩ := toNat_bounds c
  have hc : Char.ofNat c.toNat = c := Char.ofNat_toNat c
  unfold encodeChar
  generalize c.toNat = n at *
  simp only
  split_ifs with h1 h2 h3
  · rw [List.singleton_append, decodeFrom_lead (by omega), lead_one h1, hc]
    rfl
  · have hvalue : n / 64 * 64 + n / 1 % 64 = n := by omega
    simp only [List.cons_append, List.nil_append]
    rw [decodeFrom_lead (by omega), lead_two (by omega) (by omega), List.nil_append,
      decodeFrom_last (by omega) (by omega) (by omega), hvalue, hc]
  · obtain ⟨low, high, hlead, hlow, hhigh⟩ :=
      @lead_three (n / 4096) (n / 64 % 64) (by omega) (by omega) (by omega) (by omega)
    have hvalue : (n / 4096 * 64 + n / 64 % 64) * 64 + n / 1 % 64 = n := by omega
    simp only [List.cons_append, List.nil_append]
    rw [decodeFrom_lead (by omega), hlead, List.nil_append, decodeFrom_inner (by omega) (by omega) hlow hhigh,
      decodeFrom_last (by omega) (by omega) (by omega), hvalue, hc]
  · obtain ⟨low, high, hlead, hlow, hhigh⟩ :=
      @lead_four (n / 262144) (n / 4096 % 64) (by omega) (by omega) (by omega) (by omega)
    have hvalue : ((n / 262144 * 64 + n / 4096 % 64) * 64 + n / 64 % 64) * 64 + n / 1 % 64 = n := by omega
    simp only [List.cons_append, List.nil_append]
    rw [decodeFrom_lead (by omega), hlead, List.nil_append, decodeFrom_inner (by omega) (by omega) hlow hhigh,
      decodeFrom_inner (by omega) (by omega) (by omega) (by omega), decodeFrom_last (by omega) (by omega) (by omega),
      hvalue, hc]

theorem decode_encode (t : Text) : decode (encode t) = t := by
  induction t with
  | nil => rfl
  | cons c t ih =>
    rw [encode, List.flatMap_cons, decode, decodeFrom_encodeChar]
    exact congrArg (c :: ·) ih

end RepoLens.Text.Utf8
