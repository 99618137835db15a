import Mathlib.Tactic
import RepoLens.Proofs.Lines
import RepoLens.Proofs.Shown
import RepoLens.Proofs.Unmarked
/-!
Wrapping, seen by its ink. A line of printable characters that fits its column stays as it is. A line that does not is
broken, folded and cut, and then spaces and newlines come and go; but no ink is made, and what is left keeps its order.

Results:
- `wrap_fits`: a text all of whose lines fit is printed line by line as it is;
- `inked_wrap`: the ink of what is printed is found in the text, in order;
- `print_unmarked`, `print_ink`: the same of printing markup.
-/
namespace RepoLens

open scoped List

namespace Text

/-! ## Characters of one cell -/

/-- printable characters of ASCII, each of which takes one cell -/
def Printable (t : Text) : Prop := ∀ c ∈ t, 0x20 ≤ c.toNat ∧ c.toNat < 0x7F

instance : DecidablePred Printable := List.decidableBAll fun c : Char => 0x20 ≤ c.toNat ∧ c.toNat < 0x7F

theorem Printable.sublist {s t : Text} (ht : Printable t) (h : s <+ t) : Printable s := fun c hc => ht c (h.subset hc)

/-- a character that takes one cell of its own: it joins nothing, widens nothing and clings to nothing -/
structure IsNarrow (c : Char) : Prop where
  no_joiner : isJoiner c = false
  no_selector : isSelector c = false
  one_cell : charCells c = 1

def Narrow (t : Text) : Prop := ∀ c ∈ t, IsNarrow c

theorem Printable.narrow {t : Text} (h : Printable t) : Narrow t := by
  intro c hc
  obtain ⟨hlow, hhigh⟩ := h c hc
  refine ⟨?_, ?_, by simp [charCells, hlow, hhigh]⟩
  · simp only [isJoiner, decide_eq_false_iff_not]
    omega
  · simp only [isSelector, decide_eq_false_iff_not]
    omega

theorem cellsAfter_narrow {t : Text} (h : Narrow t) (last : Option Char) : cellsAfter last t = t.length := by
  induction t generalizing last with
  | nil => rfl
  | cons c r ih =>
    obtain ⟨hc, hr⟩ := List.forall_mem_cons.1 h
    unfold cellsAfter
    simp [hc.no_joiner, hc.no_selector, hc.one_cell, ih hr (some c), Nat.add_comm]

theorem cells_narrow {t : Text} (h : Narrow t) : t.cells = t.length := cellsAfter_narrow h none

theorem cells_printable {t : Text} (h : Printable t) : t.cells = t.length := cells_narrow h.narrow

theorem trimRight_sublist (t : Text) : t.trimRight <+ t := by
  have hdrop : t.reverse.dropWhile isBlank <+ t.reverse := List.dropWhile_sublist _
  simpa [trimRight] using hdrop.reverse

theorem expandTabs_printable {t : Text} (h : Printable t) : t.expandTabs = t := by
  have hcut : ∀ {u : Text}, Printable u → cutAt (· == '\t') u = [u] := by
    intro u hu
    induction u with
    | nil => rfl
    | cons c r ih =>
      have hc : c ≠ '\t' := by
        rintro rfl
        exact absurd (hu '\t' List.mem_cons_self).1 (by decide)
      simp [cutAt, hc, ih fun d hd => hu d (List.mem_cons_of_mem c hd), consHead]
  rw [expandTabs, tabFields, hcut h]
  rfl

/-! ## Cutting keeps the order of the ink -/

theorem flatten_clustersFrom (current : Cluster) (last : Option Char) (t : Text) :
    (clustersFrom current last t).flatMap Cluster.chars = current.chars ++ t := by
  fun_induction clustersFrom current last t <;> simp_all

theorem flatten_clusters (t : Text) : (clusters t).flatMap Cluster.chars = t := by
  cases t with
  | nil => rfl
  | cons c r =>
    rw [clusters]
    split_ifs <;> simp [flatten_clustersFrom]

theorem inked_spaces (n : Nat) : inked (spaces n) = [] := by
  simp [inked, spaces, isInk]

theorem inked_takeClusters (n : Nat) (cs : List Cluster) : inked (takeClusters n cs) <+ inked (cs.flatMap Cluster.chars) := by
  induction cs generalizing n with
  | nil => simp [takeClusters]
  | cons c r ih =>
    rw [takeClusters, List.flatMap_cons, inked_append]
    split_ifs
    · exact List.nil_sublist _
    · rw [inked_append]
      exact (List.Sublist.refl _).append (ih _)
    · exact List.nil_sublist _

theorem inked_fit (n : Nat) (t : Text) : inked (t.fit n) <+ inked t := by
  rw [fit]
  split_ifs
  · rw [inked_append, inked_spaces, List.append_nil]
  · have htake := inked_takeClusters n (clusters t)
    rwa [flatten_clusters] at htake

theorem flatten_chopFrom (width used : Nat) (piece : Text) (cs : List Cluster) :
    (chopFrom width used piece cs).flatten <+ piece ++ cs.flatMap Cluster.chars := by
  induction cs generalizing used piece with
  | nil =>
    rw [chopFrom]
    split_ifs <;> simp
  | cons c r ih =>
    rw [chopFrom]
    split_ifs
    · exact (List.Sublist.refl piece).append (ih _ _)
    · simpa using ih (used + c.width) (piece ++ c.chars)

theorem flatten_chop (width : Nat) (t : Text) : (t.chop width).flatten <+ t := by
  have hchop := flatten_chopFrom width 0 [] (clusters t)
  rwa [flatten_clusters] at hchop

end Text

namespace Console

open Text

/-! ## Words -/

theorem flatten_runs (t : Text) : (runs t).flatten = t := by
  induction t with
  | nil => rfl
  | cons c r ih =>
    rw [runs]
    cases hr : runs r with
    | nil =>
      rw [hr] at ih
      rw [← ih]
      rfl
    | cons p ps =>
      rw [hr] at ih
      dsimp only
      split_ifs <;> simpa using ih

/-- the words of a line that has any make up the line -/
theorem flatten_words {t : Text} (h : words t ≠ []) : (words t).flatten = t := by
  have hruns := flatten_runs t
  rw [words] at h ⊢
  split at h
  · exact absurd rfl h
  · rename_i w hw
    rw [hw] at hruns
    split_ifs at h ⊢ with hblank
    · exact absurd rfl h
    · exact hruns
  · rename_i b w ws hw
    rw [hw] at hruns
    split_ifs
    · simpa using hruns
    · exact hruns

/-! ## Filling -/

namespace Filling

theorem flatten_append (f : Filling) (t : Text) : (f.append t).lines.flatten = f.lines.flatten ++ t := by
  simp [append, lines]

theorem flatten_breakBefore (f : Filling) (t : Text) : (f.breakBefore t).lines.flatten = f.lines.flatten ++ t := by
  rw [breakBefore]
  split_ifs with hstarted
  · simp [lines]
  · simp only [started, Bool.or_eq_true, Bool.not_eq_true', List.isEmpty_eq_false_iff, not_or, not_not] at hstarted
    simp [lines, hstarted.1, hstarted.2]

theorem flatten_foldl_breakBefore (f : Filling) (ts : List Text) :
    (ts.foldl breakBefore f).lines.flatten = f.lines.flatten ++ ts.flatten := by
  induction ts generalizing f with
  | nil => simp
  | cons t ts ih => rw [List.foldl_cons, ih, flatten_breakBefore]; simp

theorem flatten_place (width : Nat) (overflow : Overflow) (f : Filling) (word : Text) :
    (f.place width overflow word).lines.flatten <+ f.lines.flatten ++ word := by
  unfold place
  split_ifs
  · rw [flatten_append]
  · rw [flatten_breakBefore]
  · cases overflow with
    | fold =>
      rw [flatten_foldl_breakBefore]
      exact (List.Sublist.refl _).append (flatten_chop width word)
    | ellipsis => rw [flatten_breakBefore]

theorem flatten_fill (width : Nat) (overflow : Overflow) (f : Filling) (ws : List Text) :
    (ws.foldl (place width overflow) f).lines.flatten <+ f.lines.flatten ++ ws.flatten := by
  induction ws generalizing f with
  | nil => simp
  | cons w ws ih =>
    rw [List.foldl_cons, List.flatten_cons, ← List.append_assoc]
    exact (ih _).trans ((flatten_place width overflow f w).append (List.Sublist.refl _))

/-- printable words that fit on one line are put there one after the other -/
theorem fill_fits {width : Nat} {overflow : Overflow} {ws : List Text} {l : Text} (hws : Printable ws.flatten)
    (hfits : l.length + ws.flatten.length ≤ width) :
    ws.foldl (place width overflow) ⟨[], l, l.length⟩ = ⟨[], l ++ ws.flatten, (l ++ ws.flatten).length⟩ := by
  induction ws generalizing l with
  | nil => simp
  | cons w ws ih =>
    have hw : Printable w := hws.sublist (List.sublist_append_left _ _)
    have hrest : Printable ws.flatten := hws.sublist (List.sublist_append_right _ _)
    have htrim : w.trimRight.cells ≤ w.length := by
      rw [cells_printable (hw.sublist (trimRight_sublist w))]
      exact (trimRight_sublist w).length_le
    rw [List.flatten_cons, List.length_append] at hfits
    have hplace : place width overflow ⟨[], l, l.length⟩ w = ⟨[], l ++ w, (l ++ w).length⟩ := by
      unfold place
      rw [if_pos (by show _ + l.length ≤ _; omega), append, cells_printable hw, List.length_append]
    rw [List.foldl_cons, hplace, ih hrest (by rw [List.length_append]; omega), List.flatten_cons, List.append_assoc]

end Filling

/-! ## One line -/

variable {width : Nat} {line : Text}

theorem flatten_breakLine (width : Nat) (overflow : Overflow) (line : Text) :
    (breakLine width overflow line).flatten <+ line := by
  rw [breakLine]
  split
  · simp
  · rename_i hne
    have hfill := Filling.flatten_fill width overflow ⟨[], [], 0⟩ (words line)
    rw [flatten_words hne] at hfill
    exact hfill

theorem breakLine_fits {overflow : Overflow} (h : Printable line) (hfits : line.length ≤ width) :
    breakLine width overflow line = [line] := by
  rw [breakLine]
  split
  · rfl
  · rename_i hne
    have hwords := flatten_words hne
    rw [← hwords] at h hfits
    have hfill : (words line).foldl (Filling.place width overflow) ⟨[], [], 0⟩ = _ :=
      Filling.fill_fits (l := []) h (by simpa using hfits)
    rw [hwords] at hfill
    exact congrArg Filling.lines hfill

theorem dropOverhang_fits (hfits : line.length ≤ width) : dropOverhang width line = line := by
  have hnone : line.length - width = 0 := by omega
  simp [dropOverhang, hnone]

theorem dropOverhang_sublist (width : Nat) (line : Text) : dropOverhang width line <+ line := List.take_sublist _ _

theorem inked_truncate (width : Nat) (line : Text) : inked (truncate width .fold line) <+ inked line := by
  rw [truncate]
  split_ifs
  · exact List.Sublist.refl _
  · exact inked_fit width line

/-! ## All lines -/

theorem inked_block (lines : List Text) : inked (block lines) = inked lines.flatten := by
  induction lines with
  | nil => rfl
  | cons l lines ih =>
    have hnewline : inked ['\n'] = [] := rfl
    rw [block, List.flatMap_cons, inked_append, inked_append, hnewline, List.append_nil]
    rw [block] at ih
    rw [ih, List.flatten_cons, inked_append]

/-- the lines of a text, each with its newline, are the text with one newline more -/
theorem block_cutAt (t : Text) : block (cutAt (· = '\n') t) = t ++ ['\n'] := by
  induction t with
  | nil => rfl
  | cons c r ih =>
    rw [cutAt]
    split_ifs with hc
    · have hc : c = '\n' := by simpa using hc
      rw [hc]
      exact congrArg ('\n' :: ·) ih
    · cases hcut : cutAt (· = '\n') r with
      | nil => exact absurd hcut (cutAt_ne_nil _ r)
      | cons l ls =>
        rw [hcut] at ih
        exact congrArg (c :: ·) ih

theorem inked_flatMap {f : Text → List Text} {lines : List Text} (h : ∀ l ∈ lines, inked (f l).flatten <+ inked l) :
    inked (lines.flatMap f).flatten <+ inked lines.flatten := by
  induction lines with
  | nil => exact List.Sublist.refl _
  | cons l lines ih =>
    rw [List.flatMap_cons, List.flatten_append, List.flatten_cons, inked_append, inked_append]
    exact (h l List.mem_cons_self).append (ih fun k hk => h k (List.mem_cons_of_mem l hk))

theorem inked_map {f : Text → Text} (h : ∀ l, inked (f l) <+ inked l) (lines : List Text) :
    inked (lines.map f).flatten <+ inked lines.flatten := by
  induction lines with
  | nil => exact List.Sublist.refl _
  | cons l lines ih =>
    rw [List.map_cons, List.flatten_cons, List.flatten_cons, inked_append, inked_append]
    exact (h l).append ih

/-- the lines of ordinary text are printable -/
theorem printable_lines {t : Text} (h : Ordinary t) : ∀ l ∈ cutAt (· = '\n') t, Printable l := by
  induction t with
  | nil => simp [cutAt, Printable]
  | cons c r ih =>
    have hr := ih fun d hd => h d (List.mem_cons_of_mem c hd)
    rw [cutAt]
    split_ifs with hc
    · intro l hl
      rcases List.mem_cons.1 hl with rfl | hl
      · simp [Printable]
      · exact hr l hl
    · have hc : 0x20 ≤ c.toNat ∧ c.toNat < 0x7F := (h c List.mem_cons_self).resolve_left (by simpa using hc)
      cases hcut : cutAt (· = '\n') r with
      | nil => exact absurd hcut (cutAt_ne_nil _ r)
      | cons first ls =>
        rw [hcut] at hr
        intro l hl
        rcases List.mem_cons.1 hl with rfl | hl
        · intro d hd
          rcases List.mem_cons.1 hd with rfl | hd
          · exact hc
          · exact hr first List.mem_cons_self d hd
        · exact hr l (List.mem_cons_of_mem _ hl)

/-- every line of a text takes at most so many characters -/
def Fits (width : Nat) (t : Text) : Prop := ∀ l ∈ cutAt (· = '\n') t, l.length ≤ width

instance (width : Nat) (t : Text) : Decidable (Fits width t) :=
  inferInstanceAs (Decidable (∀ l ∈ cutAt (· = '\n') t, l.length ≤ width))

/-- no ink fits on a console without columns -/
theorem Fits.width_ne_zero {t : Text} (h : Fits width t) (hink : ink t ≠ 0) : width ≠ 0 := by
  rintro rfl
  have hempty : (cutAt (· = '\n') t).flatten = [] :=
    List.flatten_eq_nil_iff.2 fun l hl => List.length_eq_zero_iff.1 (Nat.le_zero.1 (h l hl))
  have hlines := congrArg inked (block_cutAt t)
  rw [inked_block, hempty, inked_append] at hlines
  have hnil : inked t = [] := (List.append_eq_nil_iff.1 hlines.symm).1
  exact hink (congrArg List.length hnil)

theorem flatMap_singleton_self {f : Text → List Text} {lines : List Text} (h : ∀ l ∈ lines, f l = [l]) :
    lines.flatMap f = lines := by
  induction lines with
  | nil => rfl
  | cons l lines ih =>
    rw [List.flatMap_cons, h l List.mem_cons_self, ih fun k hk => h k (List.mem_cons_of_mem l hk)]
    rfl

theorem wrap_fits {t : Text} (h : Ordinary t) (hfits : Fits width t) : wrap width .fold .asIs t = cutAt (· = '\n') t := by
  refine flatMap_singleton_self fun line hline => ?_
  have hprintable := printable_lines h line hline
  have hcells : line.cells ≤ width := by
    rw [cells_printable hprintable]
    exact hfits line hline
  rw [expandTabs_printable hprintable, breakLine_fits hprintable (hfits line hline), List.map_singleton,
    dropOverhang_fits (hfits line hline), justify, truncate, if_pos hcells]

theorem inked_wrap {t : Text} (h : Ordinary t) (width : Nat) : inked (wrap width .fold .asIs t).flatten <+ inked t := by
  have hlines := congrArg inked (block_cutAt t)
  rw [inked_block, inked_append, show inked ['\n'] = [] from rfl, List.append_nil] at hlines
  rw [← hlines]
  refine inked_flatMap fun line hline => ?_
  rw [expandTabs_printable (printable_lines h line hline)]
  refine (inked_map (fun piece => ?_) _).trans (inked_sublist (flatten_breakLine width .fold line))
  exact (inked_truncate width _).trans (inked_sublist (dropOverhang_sublist width piece))

/-! ## Printing -/

variable {screen : Screen} {t u : Text}

/-- what markup shows is printed as it is if it fits -/
theorem shownOn_fits (ho : Ordinary u) (hwidth : screen.width ≠ 0) (hfits : Fits screen.width u) :
    shownOn screen u = u ++ ['\n'] := by
  rw [shownOn, if_neg hwidth, wrap_fits ho hfits, block_cutAt]

/-- **Unmarked text that fits is printed as it is**, unless a code of it shows as a picture. -/
theorem print_unmarked (h : Markup.Unmarked t) (ho : Ordinary t) (hcodes : Markup.Codeless screen t) (hwidth : screen.width ≠ 0)
    (hfits : Fits screen.width t) : print screen t = .ok (t ++ ['\n']) := by
  rw [print_of_read (Markup.read_unmarked h ho hcodes) (Shown.readable_plain t), shownOn_fits ho hwidth hfits]

/-- **What is printed has the ink of the markup**, in order, on a screen of any width; and if it has all of it, the text was
unmarked. -/
theorem print_ink (ho : Ordinary t) (hcodes : Markup.Codeless screen t) (h : print screen t = .ok u) :
    inked u <+ inked t ∧ (ink u = ink t → Markup.Unmarked t) := by
  obtain ⟨s, hread, rfl⟩ := print_eq_ok h
  obtain ⟨hsub, hunmarked⟩ := Markup.read_ink hcodes hread
  have hprinted : inked (shownOn screen s.text) <+ inked s.text := by
    rw [shownOn]
    split_ifs
    · exact List.nil_sublist _
    · rw [inked_block]
      exact inked_wrap (ho.of_inked hsub) screen.width
  refine ⟨hprinted.trans hsub, fun hink => hunmarked ?_⟩
  have hle := hprinted.length_le
  have hle' := hsub.length_le
  unfold ink at hink ⊢
  omega

end Console

end RepoLens
