import Mathlib.Tactic
import RepoLens.Console.Markup
/-!
Text without codes. Between the two colons of a code there is no blank, so text in which a blank stands between any two colons
shows on every screen as it is.

Results:
- `Uncoded.pictures_eq`: such text has no pictures;
- `Uncoded.append`, `Uncoded.inside`, `Uncoded.unescapeBrackets`: what keeps a text without codes.
-/
namespace RepoLens.Console

open Screen (toColon)

variable {s t u : Text} {c : Char}

/-! ## Up to the next colon -/

theorem toColon_append (hs : toColon s = none) (hu : toColon u = none) : toColon (s ++ u) = none := by
  induction s with
  | nil => exact hu
  | cons c r ih =>
    simp only [toColon, List.cons_append] at hs ⊢
    split_ifs at hs ⊢
    · rfl
    · rw [Option.map_eq_none_iff] at hs ⊢
      exact ih hs

/-- a colon that is reached stays in reach when more text comes -/
theorem toColon_of_append (h : toColon (s ++ u) = none) : toColon s = none := by
  induction s with
  | nil => rfl
  | cons c r ih =>
    simp only [toColon, List.cons_append] at h ⊢
    split_ifs at h ⊢
    · rfl
    · rw [Option.map_eq_none_iff] at h ⊢
      exact ih h

theorem toColon_unescapeBrackets (h : toColon t = none) : toColon (Markup.unescapeBrackets t) = none := by
  fun_induction Markup.unescapeBrackets t with
  | case1 => rfl
  | case2 r ih =>
    have hblank : Text.isBlank '\\' = false ∧ Text.isBlank '[' = false := by decide
    simp only [toColon, hblank.1, hblank.2] at h ⊢
    simpa using ih (by simpa using h)
  | case3 c r _ ih =>
    simp only [toColon] at h ⊢
    split_ifs at h ⊢
    · rfl
    · rw [Option.map_eq_none_iff] at h ⊢
      exact ih h

/-! ## Text without codes -/

/-- no colon is followed by another before a blank -/
def Uncoded (t : Text) : Prop := ∀ r, ':' :: r <:+ t → toColon r = none

theorem uncoded_cons : Uncoded (c :: t) ↔ (c = ':' → toColon t = none) ∧ Uncoded t := by
  constructor
  · intro h
    refine ⟨fun hc => h t (by rw [hc]), fun r hr => h r (hr.trans (List.suffix_cons c t))⟩
  · rintro ⟨hfirst, hrest⟩ r hr
    rcases List.suffix_cons_iff.1 hr with heq | hr
    · obtain ⟨rfl, rfl⟩ := List.cons.inj heq
      exact hfirst rfl
    · exact hrest r hr

theorem uncoded_colonless (h : ':' ∉ t) : Uncoded t := fun _ hr => absurd (hr.subset List.mem_cons_self) h

theorem Uncoded.append (hs : Uncoded s) (hu : Uncoded u) (hnext : toColon u = none) : Uncoded (s ++ u) := by
  induction s with
  | nil => exact hu
  | cons c r ih =>
    obtain ⟨hc, hr⟩ := uncoded_cons.1 hs
    exact uncoded_cons.2 ⟨fun hcolon => toColon_append (hc hcolon) hnext, ih hr⟩

theorem Uncoded.inside (ht : Uncoded t) (h : s <:+: t) : Uncoded s := by
  obtain ⟨a, b, rfl⟩ := h
  intro r hr
  obtain ⟨x, rfl⟩ := hr
  refine toColon_of_append (u := b) (ht (r ++ b) ⟨a ++ x, ?_⟩)
  simp only [List.append_assoc, List.cons_append]

theorem Uncoded.unescapeBrackets (h : Uncoded t) : Uncoded (Markup.unescapeBrackets t) := by
  fun_induction Markup.unescapeBrackets t with
  | case1 => exact h
  | case2 r ih =>
    exact uncoded_cons.2 ⟨fun hc => absurd hc (by decide), ih (uncoded_cons.1 (uncoded_cons.1 h).2).2⟩
  | case3 c r _ ih =>
    obtain ⟨hc, hr⟩ := uncoded_cons.1 h
    exact uncoded_cons.2 ⟨fun hcolon => toColon_unescapeBrackets (hc hcolon), ih hr⟩

/-- **Text without codes has no pictures**, on any screen. -/
theorem Uncoded.pictures_eq (h : Uncoded t) (screen : Screen) : screen.pictures t = t := by
  rw [Screen.pictures]
  induction t with
  | nil => rfl
  | cons c r ih =>
    obtain ⟨hc, hr⟩ := uncoded_cons.1 h
    have hnone : (if c = ':' then toColon r else none) = none := by
      split_ifs with hcolon
      · exact hc hcolon
      · rfl
    rw [Screen.picturesFrom, if_neg (Nat.lt_irrefl 0), hnone]
    exact congrArg (c :: ·) (ih hr)

end RepoLens.Console
