import Mathlib.Tactic
import RepoLens.Proofs.Yaml.Plain
/-!
Text in single quotes, written and read. A quote is written twice, a run of newlines as one newline more, and a single space
may become a line break; the lines after the first are indented. What is held back while reading (blanks, or line breaks and
the indentation after them) is settled by the next character.

Results:
- `Singly`: a written text that reads as a text, after something that is held back, with one lemma for each way to write on;
- `singly_singleText`: what is written of a text in single quotes reads as the text.
-/
namespace RepoLens.Yaml

open Text

/-! ## Pieces of a text in single quotes -/

theorem untilSingle_append {w : Text} (hw : '\'' ∉ w) (r : Text) :
    untilSingle (w ++ r) = (untilSingle r).map fun p => (w ++ p.1, p.2) := by
  induction w with
  | nil => simp
  | cons c w ih =>
    simp only [List.mem_cons, not_or] at hw
    have hc : c ≠ '\'' := Ne.symm hw.1
    have hcons : untilSingle (c :: (w ++ r)) = (untilSingle (w ++ r)).map fun p => (c :: p.1, p.2) := by
      rw [untilSingle.eq_def]
      split
      · simp_all
      · simp_all
      · rename_i heq
        simp only [List.cons.injEq] at heq
        rw [← heq.1, ← heq.2, if_neg hc]
    rw [List.cons_append, hcons, ih hw.2, Option.map_map]
    rfl

theorem untilSingle_twice (r : Text) :
    untilSingle ('\'' :: '\'' :: r) = (untilSingle r).map fun p => ('\'' :: '\'' :: p.1, p.2) := rfl

theorem untilSingle_close {rest : Text} (h : rest.head? ≠ some '\'') : untilSingle ('\'' :: rest) = some ([], rest) := by
  rw [untilSingle.eq_def]
  split
  · simp_all
  · simp_all
  · rename_i heq
    simp only [List.cons.injEq] at heq
    rw [← heq.1, ← heq.2, if_pos rfl]

theorem singlePieces_append {w : Text} (hw : '\'' ∉ w) (r : Text) :
    singlePieces (w ++ r) = w.map pieceOf ++ singlePieces r := by
  induction w with
  | nil => rfl
  | cons c w ih =>
    simp only [List.mem_cons, not_or] at hw
    have hcons : singlePieces (c :: (w ++ r)) = pieceOf c :: singlePieces (w ++ r) := by
      rw [singlePieces.eq_def]
      split
      · simp_all
      · simp_all
      · rename_i heq
        simp only [List.cons.injEq] at heq
        rw [← heq.1, ← heq.2]
    rw [List.cons_append, hcons, ih hw.2]
    rfl

theorem pieceOf_printable {c : Char} (hc : 0x20 ≤ c.toNat ∧ c.toNat < 0x7F) (hspace : c ≠ ' ') : pieceOf c = .char c := by
  have hword := endsWord_printable hc hspace
  simp only [endsWord, Bool.or_eq_false_iff, decide_eq_false_iff_not] at hword
  simp [pieceOf, hword.1.1, hword.1.2, hword.2]

theorem holdsSeparator_cons {c : Char} (hc : isBreak c = false) (r : Text) : holdsSeparator (c :: r) = holdsSeparator r := by
  rw [holdsSeparator, hc]
  rfl

theorem holdsSeparator_append {w : Text} (hw : ∀ c ∈ w, isBreak c = false) (r : Text) :
    holdsSeparator (w ++ r) = holdsSeparator r := by
  induction w with
  | nil => rfl
  | cons c w ih =>
    rw [List.cons_append, holdsSeparator_cons (hw c List.mem_cons_self), ih fun d hd => hw d (List.mem_cons_of_mem c hd)]

theorem holdsSeparator_line {r : Text} (h : startsWithSeparator r = false) :
    holdsSeparator ('\n' :: r) = holdsSeparator r := by
  simp [holdsSeparator, h]

theorem isBreak_spaces (n : Nat) : ∀ c ∈ spaces n, isBreak c = false := fun _ hc => mem_spaces hc ▸ rfl

/-- blanks after a line break are indentation -/
theorem foldPieces_indentation {s : FoldState} (hs : ∀ held, s ≠ .within held) (n : Nat) (ps : List Piece) :
    foldPieces s ((spaces n).map pieceOf ++ ps) = foldPieces s ps := by
  induction n with
  | zero => rfl
  | succ n ih =>
    have hblank : pieceOf ' ' = .blank ' ' := rfl
    rw [spaces_succ, List.map_cons, hblank, List.cons_append]
    cases s with
    | within held => exact absurd rfl (hs held)
    | broken first more => exact ih
    | joined more => exact ih

/-! ## Texts that read back -/

/-- a text that stands in single quotes and reads as another one, after what is held back -/
structure Singly (s : FoldState) (t raw : Text) : Prop where
  closes : ∀ rest : Text, rest.head? ≠ some '\'' → untilSingle (raw ++ '\'' :: rest) = some (raw, rest)
  safe : holdsSeparator raw = false
  folds : foldPieces s (singlePieces raw) = s.flush ++ t
  ordinary : Ordinary raw

namespace Singly

variable {s : FoldState} {t raw : Text}

theorem nil (s : FoldState) : Singly s [] [] :=
  ⟨fun _ h => untilSingle_close h, rfl, by simp [singlePieces, foldPieces], .nil⟩

/-- a text without quotes and line breaks in front of another one -/
theorem closes_append {w : Text} (hw : '\'' ∉ w) (h : Singly s t raw) (rest : Text) (hrest : rest.head? ≠ some '\'') :
    untilSingle (w ++ raw ++ '\'' :: rest) = some (w ++ raw, rest) := by
  rw [List.append_assoc, untilSingle_append hw, h.closes rest hrest]
  rfl

theorem char {c : Char} (hc : 0x20 ≤ c.toNat ∧ c.toNat < 0x7F) (hspace : c ≠ ' ') (hquote : c ≠ '\'')
    (h : Singly (.within []) t raw) (s : FoldState) : Singly s (c :: t) (c :: raw) := by
  have hw : '\'' ∉ [c] := by simpa using Ne.symm hquote
  refine ⟨h.closes_append hw, ?_, ?_, h.ordinary.cons (.inr hc)⟩
  · exact (holdsSeparator_cons (isBreak_printable hc) raw).trans h.safe
  · have hpieces := singlePieces_append hw raw
    rw [List.singleton_append] at hpieces
    rw [hpieces, List.map_singleton, pieceOf_printable hc hspace, List.singleton_append]
    cases s <;> simp [foldPieces, h.folds, FoldState.flush]

theorem quote (h : Singly (.within []) t raw) (s : FoldState) : Singly s ('\'' :: t) ('\'' :: '\'' :: raw) := by
  refine ⟨fun rest hrest => ?_, ?_, ?_, (h.ordinary.cons (.inr (by decide))).cons (.inr (by decide))⟩
  · rw [List.cons_append, List.cons_append, untilSingle_twice, h.closes rest hrest]
    rfl
  · rw [holdsSeparator_cons rfl, holdsSeparator_cons rfl, h.safe]
  · rw [singlePieces]
    cases s <;> simp [foldPieces, h.folds, FoldState.flush]

/-- a space is held back until it is known what follows -/
theorem space {held : Text} (h : Singly (.within (held ++ [' '])) t raw) :
    Singly (.within held) (' ' :: t) (' ' :: raw) := by
  refine ⟨h.closes_append (w := [' ']) (by simp), ?_, ?_, h.ordinary.cons (.inr (by decide))⟩
  · exact (holdsSeparator_cons rfl raw).trans h.safe
  · have hpieces : singlePieces (' ' :: raw) = .blank ' ' :: singlePieces raw := singlePieces_append (w := [' ']) (by simp) raw
    rw [hpieces, foldPieces, h.folds]
    simp [FoldState.flush]

theorem indentation {first : Char} {more : Text} (h : Singly (.broken first more) t raw) (n : Nat) :
    Singly (.broken first more) t (spaces n ++ raw) := by
  have hquote : '\'' ∉ spaces n := fun hmem => absurd (mem_spaces hmem) (by decide)
  refine ⟨h.closes_append hquote, ?_, ?_, (ordinary_spaces n).append h.ordinary⟩
  · rw [holdsSeparator_append (isBreak_spaces n), h.safe]
  · rw [singlePieces_append hquote, foldPieces_indentation (fun _ => by simp), h.folds]

theorem closes_line (h : Singly s t raw) (rest : Text) (hrest : rest.head? ≠ some '\'') :
    untilSingle ('\n' :: raw ++ '\'' :: rest) = some ('\n' :: raw, rest) :=
  h.closes_append (w := ['\n']) (by simp) rest hrest

theorem singlePieces_line (raw : Text) : singlePieces ('\n' :: raw) = .lineBreak '\n' :: singlePieces raw :=
  singlePieces_append (w := ['\n']) (by simp) raw

/-- a line break for a space -/
theorem folded (h : Singly (.broken '\n' []) t raw) (hsep : startsWithSeparator raw = false) :
    Singly (.within []) (' ' :: t) ('\n' :: raw) := by
  refine ⟨h.closes_line, ?_, ?_, h.ordinary.cons (.inl rfl)⟩
  · rw [holdsSeparator_line hsep, h.safe]
  · rw [singlePieces_line, foldPieces, h.folds]
    rfl

/-- the first newline of a run is written twice -/
theorem newline (h : Singly (.broken '\n' ['\n']) t raw) (hsep : startsWithSeparator raw = false) :
    Singly (.within []) ('\n' :: t) ('\n' :: '\n' :: raw) := by
  refine ⟨?_, ?_, ?_, (h.ordinary.cons (.inl rfl)).cons (.inl rfl)⟩
  · exact fun rest hrest => h.closes_append (w := ['\n', '\n']) (by simp) rest hrest
  · rw [holdsSeparator_line (startsWithSeparator_cons (by decide) (by decide) raw), holdsSeparator_line hsep, h.safe]
  · rw [singlePieces_line, singlePieces_line, foldPieces, foldPieces, List.nil_append, h.folds]
    rfl

/-- and the others once -/
theorem newlines {more : Text} (hmore : more ≠ []) (h : Singly (.broken '\n' (more ++ ['\n'])) t raw)
    (hsep : startsWithSeparator raw = false) : Singly (.broken '\n' more) ('\n' :: t) ('\n' :: raw) := by
  refine ⟨h.closes_line, ?_, ?_, h.ordinary.cons (.inl rfl)⟩
  · rw [holdsSeparator_line hsep, h.safe]
  · rw [singlePieces_line, foldPieces, h.folds]
    simp [FoldState.flush, foldBreaks, hmore]

end Singly

/-! ## Writing -/

/-- what the writer knows of what the reader holds back, before a text -/
inductive Held : FoldState → Bool → Bool → Text → Prop where
  | word (t : Text) : Held (.within []) false false t
  | spaces (held : Text) {t : Text} (h : t.head? ≠ some '\n') : Held (.within held) true false t
  | folded {t : Text} (hspace : t.head? ≠ some ' ') (hline : t.head? ≠ some '\n') : Held (.broken '\n' []) true false t
  | lines {more t : Text} (hmore : more ≠ []) (h : t.head? ≠ some ' ') : Held (.broken '\n' more) false true t

/-- a text that can stand in single quotes: ordinary, and with no space next to a newline -/
structure IsSingle (t : Text) : Prop where
  ordinary : Ordinary t
  space_break : spaceThenBreak t = false
  break_space : breakThenSpace t = false

theorem isSingle_of_canBeSingle {t : Text} (h : canBeSingle t = true) : IsSingle t := by
  simp only [canBeSingle, Bool.and_eq_true, Bool.not_eq_true'] at h
  refine ⟨fun c hc => ?_, h.1.2, h.2⟩
  have hspecial : isSpecial c = false := by simpa using List.any_eq_false.1 h.1.1 c hc
  simp only [isSpecial, Bool.and_eq_false_iff, decide_eq_false_iff_not, ne_eq, not_not, Bool.not_eq_false',
    Bool.and_eq_true, decide_eq_true_eq] at hspecial
  rcases hspecial with rfl | hspecial
  · exact .inl rfl
  · exact .inr (by omega)

theorem IsSingle.tail {c : Char} {t : Text} (h : IsSingle (c :: t)) : IsSingle t := by
  refine ⟨fun d hd => h.ordinary d (List.mem_cons_of_mem c hd), ?_, ?_⟩
  · cases t with
    | nil => rfl
    | cons d r =>
      have := h.space_break
      simp only [spaceThenBreak, Bool.or_eq_false_iff] at this
      exact this.2
  · cases t with
    | nil => rfl
    | cons d r =>
      have := h.break_space
      simp only [breakThenSpace, Bool.or_eq_false_iff] at this
      exact this.2

theorem IsSingle.after_space {t : Text} (h : IsSingle (' ' :: t)) : t.head? ≠ some '\n' := by
  rintro hhead
  cases t with
  | nil => simp at hhead
  | cons d r =>
    simp only [List.head?_cons, Option.some.injEq] at hhead
    subst hhead
    have := h.space_break
    simp [spaceThenBreak, isBreak] at this

theorem IsSingle.after_newline {t : Text} (h : IsSingle ('\n' :: t)) : t.head? ≠ some ' ' := by
  rintro hhead
  cases t with
  | nil => simp at hhead
  | cons d r =>
    simp only [List.head?_cons, Option.some.injEq] at hhead
    subst hhead
    have := h.break_space
    simp [breakThenSpace, isBreak] at this

/-- after a newline another one is written, or indentation -/
theorem startsWithSeparator_singleText {indent : Nat} (hindent : 0 < indent) (split : Bool) (column : Nat)
    (first spaced : Bool) (t : Text) : startsWithSeparator (singleText split indent column first spaced true t) = false := by
  cases t with
  | nil =>
    have h := startsWithSeparator_indented hindent []
    rwa [List.append_nil] at h
  | cons c r =>
    simp only [singleText, if_true]
    split_ifs
    · exact startsWithSeparator_cons (by decide) (by decide) _
    · exact startsWithSeparator_indented hindent _
    · exact startsWithSeparator_indented hindent _
    · exact startsWithSeparator_indented hindent _

/-- a character that is no space and no newline settles what is held back -/
theorem Singly.settle {s : FoldState} {spaced broken : Bool} {c : Char} {t u raw : Text} (hs : Held s spaced broken t)
    (h : ∀ s, Singly s u (c :: raw)) (indent : Nat) :
    Singly s u ((if broken then spaces indent else []) ++ c :: raw) := by
  cases hs with
  | lines => exact (h _).indentation indent
  | _ => exact h _

/-- **What is written in single quotes reads as the text.** The induction follows the writer; what the reader holds back is
known from what the writer remembers. -/
theorem singly_singleText (split : Bool) {indent : Nat} (column : Nat) (first : Bool) {spaced broken : Bool} {t : Text}
    (hindent : 0 < indent) (ht : IsSingle t) {s : FoldState} (hs : Held s spaced broken t) :
    Singly s t (singleText split indent column first spaced broken t) := by
  fun_induction singleText split indent column first spaced broken t generalizing s with
  | case1 =>
    cases hs with
    | lines hmore _ => simpa using (Singly.nil _).indentation indent
  | case2 => exact .nil s
  | case3 column first spaced r ih =>
    cases hs with
    | @lines more _ hmore _ =>
      have hlines : more ++ ['\n'] ≠ [] := by simp
      have hnext := ih ht.tail (.lines hlines ht.after_newline)
      exact hnext.newlines hmore (startsWithSeparator_singleText hindent ..)
  | case4 column first spaced broken r hbroken ih =>
    have hlines : ['\n'] ≠ [] := by simp
    have hnext := ih ht.tail (.lines hlines ht.after_newline)
    cases hs with
    | word => exact hnext.newline (startsWithSeparator_singleText hindent ..)
    | spaces held h => simp at h
    | folded _ h => simp at h
    | lines _ _ => simp at hbroken
  | case5 column first spaced broken c r hline lead column' hfold =>
    rename_i ih
    simp only [Bool.and_eq_true, decide_eq_true_eq, Bool.not_eq_true'] at hfold
    obtain ⟨⟨⟨⟨⟨⟨rfl, -⟩, hspaced⟩, -⟩, hnext⟩, -⟩, -⟩ := hfold
    have hrest := ih ht.tail (.folded hnext ht.after_space)
    cases hs with
    | word => exact (hrest.indentation indent).folded (startsWithSeparator_indented hindent _)
    | spaces held h => simp at hspaced
    | folded h _ => simp at hspaced
    | lines _ h => simp at h
  | case6 column first spaced broken r lead column' hline hfold =>
    rename_i ih
    exact Singly.settle hs (fun s => (ih ht.tail (.word _)).quote s) indent
  | case7 column first spaced broken c r hline lead column' hfold hquote =>
    rename_i ih
    by_cases hspace : c = ' '
    · subst hspace
      have hrest : ∀ held, Singly (.within held) r (singleText split indent (column' + 1) false true false r) :=
        fun held => ih ht.tail (.spaces held ht.after_space)
      cases hs with
      | word => exact (hrest _).space
      | spaces held h => exact (hrest _).space
      | folded h _ => simp at h
      | lines _ h => simp at h
    · have hc : 0x20 ≤ c.toNat ∧ c.toNat < 0x7F := (ht.ordinary c List.mem_cons_self).resolve_left hline
      have hspaced : decide (c = ' ') = false := decide_eq_false hspace
      rw [hspaced] at ih ⊢
      exact Singly.settle hs (fun s => (ih ht.tail (.word _)).char hc hspace hquote s) indent

/-- **A text in single quotes reads as it was**, whatever comes after but another quote. -/
theorem singleQuoted_singleText {t : Text} (h : canBeSingle t = true) {indent : Nat} (hindent : 0 < indent) (split : Bool)
    (column : Nat) {rest : Text} (hrest : rest.head? ≠ some '\'') :
    singleQuoted (singleText split indent column true false false t ++ '\'' :: rest) = .ok (t, rest) := by
  have hall := singly_singleText split column true hindent (isSingle_of_canBeSingle h) (.word t)
  rw [singleQuoted, hall.closes rest hrest]
  simp only [hall.safe, hall.folds]
  rfl

end RepoLens.Yaml
