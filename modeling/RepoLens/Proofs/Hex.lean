import Mathlib.Tactic
import RepoLens.Text
/-!
Hexadecimal digits. A number that is written with digits to a width reads back as itself, digit by digit.

Results:
- `hexAfter_hex`: the digits of a number are worth the number;
- `length_hex`: a number that has room takes the whole width;
- `hexAfter_upper`: so are its digits in upper case.
-/
namespace RepoLens.Text

/-- a number with hexadecimal digits put after its own -/
def hexAfter (n : Nat) (t : Text) : Option Nat := t.foldlM (fun n c => (hexValue? c).map (16 * n + ·)) n

theorem hexValue_digitChar {d : Nat} (h : d < 16) : hexValue? (Nat.digitChar d) = some d := by
  interval_cases d <;> rfl

theorem hexAfter_toDigits (n : Nat) : hexAfter 0 (Nat.toDigits 16 n) = some n := by
  induction n using Nat.strong_induction_on with
  | _ n ih =>
    by_cases hlt : n < 16
    · rw [Nat.toDigits_of_lt_base hlt]
      simp [hexAfter, hexValue_digitChar hlt]
    · have hrest := ih (n / 16) (by omega)
      rw [hexAfter] at hrest
      rw [Nat.toDigits_of_base_le (by omega) (by omega), hexAfter, List.foldlM_append, hrest]
      simp only [Option.bind_eq_bind, Option.bind_some, List.foldlM_cons, List.foldlM_nil,
        hexValue_digitChar (Nat.mod_lt n (by omega : 16 > 0)), Option.map_some]
      exact congrArg some (Nat.div_add_mod n 16)

theorem hexAfter_hex (width n : Nat) : hexAfter 0 (hex width n) = some n := by
  have hzeros : ∀ k, hexAfter 0 (List.replicate k '0') = some 0 := by
    intro k
    induction k with
    | zero => rfl
    | succ k ih => rw [List.replicate_succ, hexAfter, List.foldlM_cons]; exact ih
  have hdigits := hexAfter_toDigits n
  have hz := hzeros (width - (Nat.toDigits 16 n).length)
  rw [hexAfter] at hz
  rw [hex, hexAfter, List.foldlM_append, hz]
  exact hdigits

theorem length_hex {width n : Nat} (hwidth : 0 < width) (h : n < 16 ^ width) : (hex width n).length = width := by
  have hle : (Nat.toDigits 16 n).length ≤ width := (Nat.length_toDigits_le_iff (by omega) hwidth).2 h
  rw [hex, List.length_append, List.length_replicate]
  omega

theorem toDigits_digitChar (n : Nat) : ∀ c ∈ Nat.toDigits 16 n, ∃ d < 16, c = Nat.digitChar d := by
  induction n using Nat.strong_induction_on with
  | _ n ih =>
    by_cases hlt : n < 16
    · rw [Nat.toDigits_of_lt_base hlt]
      intro c hc
      exact ⟨n, hlt, List.mem_singleton.1 hc⟩
    · rw [Nat.toDigits_of_base_le (by omega) (by omega)]
      intro c hc
      rcases List.mem_append.1 hc with hc | hc
      · exact ih (n / 16) (by omega) c hc
      · exact ⟨n % 16, Nat.mod_lt n (by omega), List.mem_singleton.1 hc⟩

theorem mem_hex {width n : Nat} {c : Char} (h : c ∈ hex width n) : ∃ d < 16, c = Nat.digitChar d := by
  rcases List.mem_append.1 h with h | h
  · exact ⟨0, by omega, (List.mem_replicate.1 h).2⟩
  · exact toDigits_digitChar n c h

theorem hexAfter_upper {t : Text} (h : ∀ c ∈ t, ∃ d < 16, c = Nat.digitChar d) (n : Nat) :
    hexAfter n (t.map Char.toUpper) = hexAfter n t := by
  have hupper : ∀ d < 16, hexValue? (Nat.digitChar d).toUpper = hexValue? (Nat.digitChar d) := by decide
  induction t generalizing n with
  | nil => rfl
  | cons c t ih =>
    obtain ⟨d, hd, rfl⟩ := h c List.mem_cons_self
    have hrest : ∀ m, hexAfter m (t.map Char.toUpper) = hexAfter m t := ih fun e he => h e (List.mem_cons_of_mem _ he)
    simp only [hexAfter] at hrest ⊢
    rw [List.map_cons, List.foldlM_cons, List.foldlM_cons, hupper d hd]
    simp only [hrest]

/-- the digits one by one, and what they are worth together -/
theorem mapM_hexValue {t : Text} {n m : Nat} (h : hexAfter n t = some m) :
    ∃ values, t.mapM hexValue? = some values ∧ values.foldl (fun n d => 16 * n + d) n = m := by
  induction t generalizing n with
  | nil => exact ⟨[], rfl, by simpa [hexAfter] using h⟩
  | cons c t ih =>
    rw [hexAfter, List.foldlM_cons] at h
    obtain ⟨k, hk, hrest⟩ := Option.bind_eq_some_iff.1 h
    obtain ⟨d, hd, rfl⟩ := Option.map_eq_some_iff.1 hk
    obtain ⟨values, hvalues, hfold⟩ := ih hrest
    exact ⟨d :: values, by simp [List.mapM_cons, hd, hvalues], hfold⟩

end RepoLens.Text
