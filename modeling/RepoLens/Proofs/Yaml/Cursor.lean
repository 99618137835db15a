import Mathlib.Tactic
import RepoLens.Yaml.Token
import RepoLens.Proofs.Yaml.Single
/-!
Where a scanner stands. Moving over ordinary text counts its characters, its lines, and the columns of its last line; between
two tokens the scanner moves over spaces, or over a line end and the indentation of the next line.

Results:
- `moveTo_append`: the place after some text;
- `toToken_spaces`, `toToken_line`: the place of the next token;
- `approach_length`: going to the next token never adds text.
-/
namespace RepoLens.Yaml

open Text

/-! ## Places -/

theorem newline_not_mem_spaces (n : Nat) : '\n' ∉ spaces n := fun h => absurd (mem_spaces h) (by decide)

def columnAfter (column : Nat) : Text → Nat
  | [] => column
  | c :: r => columnAfter (if c = '\n' then 0 else column + 1) r

theorem columnAfter_flat {w : Text} (h : '\n' ∉ w) (column : Nat) : columnAfter column w = column + w.length := by
  induction w generalizing column with
  | nil => rfl
  | cons c r ih =>
    simp only [List.mem_cons, not_or] at h
    rw [columnAfter, if_neg (Ne.symm h.1), ih h.2, List.length_cons]
    omega

theorem columnAfter_line (u v : Text) (column : Nat) : columnAfter column (u ++ '\n' :: v) = columnAfter 0 v := by
  induction u generalizing column with
  | nil => rfl
  | cons c r ih => exact ih _

namespace Cursor

theorem next_ordinary {x : Char} (hx : x = '\n' ∨ 0x20 ≤ x.toNat ∧ x.toNat < 0x7F) (r : Text) (i l c : Nat) :
    (⟨x :: r, i, l, c⟩ : Cursor).next =
      ⟨r, i + 1, if x = '\n' then l + 1 else l, if x = '\n' then 0 else c + 1⟩ := by
  rcases hx with rfl | hx
  · rfl
  · have hline : x ≠ '\n' := by rintro rfl; revert hx; decide
    have hmark : isByteOrderMark x = false := by
      simp only [isByteOrderMark, decide_eq_false_iff_not]
      omega
    simp [next, isBreak_printable hx, hmark, hline]

theorem skip_append {w : Text} (hw : Ordinary w) (r : Text) (i l c : Nat) :
    (⟨w ++ r, i, l, c⟩ : Cursor).skip w.length = ⟨r, i + w.length, l + w.count '\n', columnAfter c w⟩ := by
  induction w generalizing i l c with
  | nil => rfl
  | cons x w ih =>
    rw [List.length_cons, skip, List.cons_append, next_ordinary (hw x List.mem_cons_self),
      ih fun d hd => hw d (List.mem_cons_of_mem x hd), columnAfter, List.count_cons]
    by_cases hx : x = '\n' <;> simp [hx] <;> omega

/-- **The place after some text**: its characters are counted, its lines, and the columns of its last line. -/
theorem moveTo_append {w : Text} (hw : Ordinary w) (r : Text) (i l c : Nat) :
    (⟨w ++ r, i, l, c⟩ : Cursor).moveTo r = ⟨r, i + w.length, l + w.count '\n', columnAfter c w⟩ := by
  have hlength : (w ++ r).length - r.length = w.length := by
    rw [List.length_append]
    omega
  rw [moveTo, hlength, skip_append hw]

theorem rest_next (c : Cursor) : c.next.rest = c.rest.drop 1 := by
  obtain ⟨rest, i, l, col⟩ := c
  cases rest with
  | nil => rfl
  | cons x r =>
    simp only [next, List.drop_succ_cons, List.drop_zero]
    split_ifs <;> rfl

theorem rest_skip (c : Cursor) (n : Nat) : (c.skip n).rest = c.rest.drop n := by
  induction n generalizing c with
  | zero => rfl
  | succ n ih => rw [skip, ih, rest_next, List.drop_drop, Nat.add_comm]

end Cursor

/-! ## The next token -/

namespace Scanner

theorem gap_spaces {body : Text} (h : Opens body) (k : Nat) : gap false (spaces k ++ body) = (body, false) := by
  induction k with
  | zero =>
    cases body with
    | nil => rfl
    | cons c r =>
      obtain ⟨hspace, hbreak⟩ := h.not_break
      simp [spaces, gap, hbreak, hspace, h.2]
  | succ k ih =>
    rw [spaces_succ, List.cons_append, gap]
    exact ih

theorem toToken_spaces {body : Text} (h : Opens body) (k i l c : Nat) (ts : List Token) (indents : List Nat)
    (keys : List (Option KeyStart)) (b : Bool) :
    toToken ⟨⟨spaces k ++ body, i, l, c⟩, ts, indents, keys, b⟩ = ⟨⟨body, i + k, l, c + k⟩, ts, indents, keys, b⟩ := by
  have hplace := Cursor.moveTo_append (ordinary_spaces k) body i l c
  rw [columnAfter_flat (newline_not_mem_spaces k), List.count_eq_zero_of_not_mem (newline_not_mem_spaces k),
    length_spaces, Nat.add_zero] at hplace
  simp only [toToken, gap_spaces h, moveTo, allow, hplace, Bool.false_and, Bool.or_false]

theorem toToken_here {body : Text} (h : Opens body) (i l c : Nat) (ts : List Token) (indents : List Nat)
    (keys : List (Option KeyStart)) (b : Bool) :
    toToken ⟨⟨body, i, l, c⟩, ts, indents, keys, b⟩ = ⟨⟨body, i, l, c⟩, ts, indents, keys, b⟩ :=
  toToken_spaces h 0 i l c ts indents keys b

theorem toToken_line {body : Text} (h : Opens body) (m i l c : Nat) (ts : List Token) (indents : List Nat)
    (key : Option KeyStart) (b : Bool) :
    toToken ⟨⟨'\n' :: (spaces m ++ body), i, l, c⟩, ts, indents, [key], b⟩ =
      ⟨⟨body, i + (m + 1), l + 1, m⟩, ts, indents, [key], true⟩ := by
  have hgap : gap false ('\n' :: (spaces m ++ body)) = (body, true) := by
    rw [gap, show isBreak '\n' = true from rfl, if_pos rfl, gap_spaces h]
  have hplace := Cursor.moveTo_append (ordinary_foldAt m) body i l c
  rw [foldAt, columnAfter, if_pos rfl, columnAfter_flat (newline_not_mem_spaces m), List.count_cons_self,
    List.count_eq_zero_of_not_mem (newline_not_mem_spaces m), List.length_cons, length_spaces, List.cons_append,
    Nat.zero_add, Nat.zero_add] at hplace
  simp only [toToken, hgap, moveTo, allow, hplace, inFlow]
  simp

theorem unwindTo_cursor (column : Nat) (s : Scanner) : (unwindTo column s).cursor = s.cursor := by
  unfold unwindTo
  split_ifs <;> rfl

theorem dropStale_cursor {s t : Scanner} (h : s.dropStale = .ok t) : t.cursor = s.cursor := by
  unfold dropStale at h
  split_ifs at h
  · cases h
    rfl

theorem approach_length {s near : Scanner} (h : s.approach = .ok near) :
    near.cursor.rest.length ≤ s.cursor.rest.length := by
  unfold approach at h
  cases ht : s.toToken.dropStale with
  | error e => simp [ht, bind, Except.bind] at h
  | ok t =>
    simp only [ht, bind, Except.bind, pure, Except.pure, Except.ok.injEq] at h
    rw [← h, unwindTo_cursor, dropStale_cursor ht]
    simp only [toToken, moveTo, allow, Cursor.moveTo, Cursor.rest_skip, List.length_drop]
    omega

end Scanner

end RepoLens.Yaml
