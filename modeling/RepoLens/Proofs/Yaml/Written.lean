import Mathlib.Tactic
import RepoLens.Proofs.Yaml.Double
/-!
Scalars as they are written: plain, in single quotes or in double quotes. Whatever the quotes, nothing but newlines and
printable ASCII is written, and the first character opens neither a comment nor another kind of token. Keys are written on one
line, so that a reader still knows where they started when it comes to their colon.

Results:
- `rereadText`: a text as it is read, whichever quotes it is written in;
- `ordinary_scalarText`, `opens_scalarText`: what is written of a scalar;
- `IsName`: the texts that can be keys, and what is written of them.
-/
namespace RepoLens.Yaml

open Text

/-! ## Scalars -/

theorem canBeSingle_printable {t : Text} (h : Printable t) : canBeSingle t = true := by
  have hspecial : t.any isSpecial = false := by
    refine List.any_eq_false.2 fun c hc => ?_
    have hprint := h c hc
    simp only [isSpecial, Bool.and_eq_true, decide_eq_true_eq, Bool.not_eq_true', not_and, Bool.not_eq_false]
    exact fun _ => by omega
  have hbreaks : spaceThenBreak t = false ∧ breakThenSpace t = false := by
    clear hspecial
    induction t with
    | nil => exact ⟨rfl, rfl⟩
    | cons c r ih =>
      have hrest := ih fun d hd => h d (List.mem_cons_of_mem c hd)
      cases r with
      | nil => exact ⟨rfl, rfl⟩
      | cons d r =>
        have hc := isBreak_printable (h c List.mem_cons_self)
        have hd := isBreak_printable (h d (by simp))
        simp [spaceThenBreak, breakThenSpace, hc, hd, hrest]
  simp [canBeSingle, hspecial, hbreaks]

def rereadText (indent : Nat) (t : Text) : Text := if canBeSingle t then t else rereadDouble indent t

/-- a text is read as it was exactly if it needs no double quotes, or lines have room, or no space comes after an escape -/
theorem rereadText_eq_self (indent : Nat) (t : Text) :
    rereadText indent t = t ↔ canBeSingle t = true ∨ indent < bestWidth ∨ spaceAfterEscape false t.tail = false := by
  unfold rereadText
  split_ifs with hsingle
  · simp [hsingle]
  · simp [hsingle, rereadDouble_eq_self]

theorem rereadText_plain {t : Text} (h : canBePlain t = true) (indent : Nat) : rereadText indent t = t :=
  if_pos (canBeSingle_printable (isPlain_of_canBePlain h).printable)

/-- a text is written without quotes only if it can be -/
def IsReadable (plain : Bool) (t : Text) : Prop := plain = true → canBePlain t = true

/-- a text is folded wherever it can be, if it is written in double quotes where lines have no room -/
def IsFolding (split : Bool) (indent column : Nat) (t : Text) : Prop :=
  canBeSingle t = true ∨ Folding split indent (column + 1)

theorem plainText_cons {c : Char} (hc : c ≠ ' ') (split : Bool) (indent column : Nat) (r : Text) :
    plainText split indent column false (c :: r) = c :: plainText split indent (column + 1) false r := by
  simp [plainText, hc]

theorem ordinary_plainText {t : Text} (h : Printable t) (split : Bool) (indent column : Nat) (spaced : Bool) :
    Ordinary (plainText split indent column spaced t) := by
  fun_induction plainText split indent column spaced t with
  | case1 => exact .nil
  | case2 column spaced c r hfold ih =>
    exact (ordinary_foldAt indent).append (ih fun d hd => h d (List.mem_cons_of_mem c hd))
  | case3 column spaced c r hfold ih =>
    exact (ih fun d hd => h d (List.mem_cons_of_mem c hd)).cons (.inr (h c List.mem_cons_self))

theorem ordinary_quoted {quote : Char} {raw : Text} (hquote : 0x20 ≤ quote.toNat ∧ quote.toNat < 0x7F)
    (h : Ordinary raw) : Ordinary (quote :: (raw ++ [quote])) :=
  (h.append (Ordinary.nil.cons (.inr hquote))).cons (.inr hquote)

theorem ordinary_scalarText {split plain : Bool} {indent column : Nat} {t : Text} (hindent : 0 < indent)
    (h : IsReadable plain t) (hfolding : IsFolding split indent column t) :
    Ordinary (scalarText split indent column plain t) := by
  unfold scalarText
  split_ifs with hplain hsingle
  · exact ordinary_plainText (isPlain_of_canBePlain (h hplain)).printable split indent column false
  · exact ordinary_quoted (by decide) (singly_singleText split _ true hindent (isSingle_of_canBeSingle hsingle) (.word t)).ordinary
  · have hdouble := doubly_doubleText hindent (hfolding.resolve_left hsingle) true true t
    exact ordinary_quoted (by decide) (hdouble.reads (.within []) (.inl ⟨[], rfl⟩)).ordinary

/-- a character that starts plain text before another one -/
structure Signless (c : Char) (next : Option Char) : Prop where
  no_sign : c ∉ startSigns
  inner : endsWord (some c) = false
  goes : c = '?' ∨ c = ':' ∨ c = '-' → endsWord next = false

theorem Signless.ne {c x : Char} {next : Option Char} (h : Signless c next) (hx : x ∈ startSigns) : c ≠ x :=
  fun heq => h.no_sign (heq ▸ hx)

theorem Signless.opens {c : Char} {next : Option Char} (h : Signless c next) (r : Text) : Opens (c :: r) :=
  ⟨h.inner, h.ne (by decide)⟩

theorem signless_plainText {t : Text} (h : IsPlain t) (split : Bool) (indent column : Nat) (x : Text) :
    ∃ c u, plainText split indent column false t = c :: u ∧ Signless c (u ++ x).head? := by
  obtain ⟨c, r, rfl, hc⟩ := h.worded.head
  have hspace : c ≠ ' ' := by
    rintro rfl
    simp [endsWord] at hc
  have hstart := h.start
  simp only [startsWithSign, Bool.or_eq_false_iff, Bool.and_eq_false_iff, List.contains_eq_mem,
    decide_eq_false_iff_not] at hstart
  refine ⟨c, _, plainText_cons hspace .., hstart.1, hc, fun hsign => ?_⟩
  have hends : endsWord r.head? = false := by
    refine hstart.2.resolve_left fun hnone => ?_
    rcases hsign with rfl | rfl | rfl <;> simp at hnone
  cases r with
  | nil => simp [endsWord] at hends
  | cons d r =>
    have hd : d ≠ ' ' := by
      rintro rfl
      simp [endsWord] at hends
    rw [plainText_cons hd]
    exact hends

theorem opens_scalarText {plain : Bool} {t : Text} (h : IsReadable plain t) (split : Bool) (indent column : Nat) (x : Text) :
    Opens (scalarText split indent column plain t ++ x) := by
  unfold scalarText
  split_ifs with hplain hsingle
  · obtain ⟨d, u, hu, hd⟩ := signless_plainText (isPlain_of_canBePlain (h hplain)) split indent column x
    rw [hu]
    exact hd.opens (u ++ x)
  · exact ⟨by decide, by decide⟩
  · exact ⟨by decide, by decide⟩

/-! ## Keys -/

/-- a text that can stand before a colon -/
structure IsName (plain : Bool) (t : Text) : Prop where
  printable : Printable t
  nonempty : t ≠ []
  short : t.length < 123
  readable : IsReadable plain t

theorem singleText_line {t : Text} (h : '\n' ∉ t) (indent column : Nat) (first spaced : Bool) :
    singleText false indent column first spaced false t = t.flatMap fun c => if c = '\'' then ['\'', '\''] else [c] := by
  induction t generalizing column first spaced with
  | nil => rfl
  | cons c r ih =>
    simp only [List.mem_cons, not_or] at h
    by_cases hquote : c = '\''
    · subst hquote
      simp [singleText, ih h.2]
    · simp [singleText, Ne.symm h.1, hquote, ih h.2]

/-- three signs in front of a colon are no marker -/
theorem startsWithMarker_colon {c : Char} {t : Text} (hc : c ≠ ':') (h : [c, c, c].isPrefixOf t = false) (x : Text) :
    startsWithMarker c (t ++ ':' :: x) = false := by
  unfold startsWithMarker
  match t with
  | [] => rcases x with _ | ⟨y, _ | ⟨z, x⟩⟩ <;> simp [hc.symm]
  | [_] => rcases x with _ | ⟨y, x⟩ <;> simp [hc.symm]
  | [_, _] => simp [hc.symm]
  | a :: b :: d :: r =>
    simp only [List.isPrefixOf, Bool.and_true, Bool.and_eq_false_iff, beq_eq_false_iff_ne] at h
    simp only [List.cons_append, Bool.and_eq_false_iff, decide_eq_false_iff_not]
    tauto

namespace IsName

variable {plain : Bool} {t : Text}

theorem newline_not_mem (h : IsName plain t) : '\n' ∉ t := fun hmem => absurd (h.printable _ hmem).1 (by decide)

theorem canBeSingle (h : IsName plain t) : canBeSingle t = true := canBeSingle_printable h.printable

/-- a name is written on one line, at most twice as long -/
theorem written (h : IsName plain t) (indent column : Nat) :
    '\n' ∉ scalarText false indent column plain t ∧ (scalarText false indent column plain t).length ≤ 2 * t.length + 2 := by
  have hline := h.newline_not_mem
  cases plain with
  | true =>
    simp only [scalarText, if_true, plainText_whole]
    exact ⟨hline, by omega⟩
  | false =>
    have hlength : (t.flatMap fun c => if c = '\'' then ['\'', '\''] else [c]).length ≤ 2 * t.length := by
      clear h hline
      induction t with
      | nil => simp
      | cons c r ih =>
        rw [List.flatMap_cons, List.length_append, List.length_cons]
        split_ifs <;> simp only [List.length_cons, List.length_nil] <;> omega
    simp only [scalarText, Bool.false_eq_true, if_false, h.canBeSingle, if_true, singleText_line hline, List.mem_cons,
      List.mem_append, List.mem_flatMap, List.length_cons, List.length_append, List.length_nil]
    refine ⟨?_, by omega⟩
    rintro (hquote | ⟨c, hc, hmem⟩ | hquote)
    · simp at hquote
    · split_ifs at hmem
      · simp at hmem
      · obtain rfl := List.mem_singleton.1 hmem
        exact hline hc
    · simp at hquote

theorem not_separator (h : IsName plain t) (indent column : Nat) (x : Text) :
    startsWithSeparator (scalarText false indent column plain t ++ ':' :: x) = false := by
  cases plain with
  | true =>
    simp only [scalarText, if_true, plainText_whole]
    have hnone := (isPlain_of_canBePlain (h.readable rfl)).separator
    simp only [startsLikeSeparator, Bool.or_eq_false_iff] at hnone
    have hdashes := startsWithMarker_colon (c := '-') (t := t) (by decide) hnone.1 x
    have hdots := startsWithMarker_colon (c := '.') (t := t) (by decide) hnone.2 x
    rw [startsWithSeparator, hdashes, hdots, Bool.or_self]
  | false =>
    simp only [scalarText, Bool.false_eq_true, if_false, h.canBeSingle, if_true]
    exact startsWithSeparator_cons (by decide) (by decide) _

theorem isSimpleKey (h : IsName plain t) : isSimpleKey (.scalar .none plain t) = true := by
  have hline : isMultiline t = false := by
    refine List.any_eq_false.2 fun c hc => ?_
    simp [isBreak_printable (h.printable c hc)]
  simp [Yaml.isSimpleKey, h.short, h.nonempty, hline]

end IsName

end RepoLens.Yaml
