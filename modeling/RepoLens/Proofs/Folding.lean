import Mathlib.Tactic
import RepoLens.Proofs.Fields
import RepoLens.Proofs.Wrap
/-!
A word in a column. A text of characters that take one cell each is cut at cells as at characters, and no cut falls into one of
them. So a printable word that is folded comes out in pieces that put together are the word, whatever the width of the column, and
each piece is filled up with spaces to that width. A line that is cut at its end keeps what stands in front of the cut.

Results:
- `chop_narrow`: the pieces of a narrow text, put together, are the text;
- `wrap_word`, `wrap_short`: a word in a column, and a short text in it;
- `fit_narrow_append`: cutting a line keeps a narrow part at its start;
- `newline_not_mem_wrap`: no line of a paragraph holds a newline.
-/
namespace RepoLens

open scoped List

namespace Text

/-! ## Narrow text in clusters -/

/-- a narrow character as a cluster of its own -/
def single (c : Char) : Cluster := ⟨[c], 1⟩

variable {c d : Char} {p t : Text} {width : Nat}

theorem clusters_narrow_cons (hc : IsNarrow c) (r : Text) : clusters (c :: r) = clustersFrom (single c) (some c) r := by
  simp [clusters, hc.no_joiner, hc.no_selector, hc.one_cell, single]

/-- a narrow character ends the cluster in front of it -/
theorem clustersFrom_narrow (hd : IsNarrow d) (current : Cluster) (last : Option Char) (r : Text) :
    clustersFrom current last (d :: r) = current :: clustersFrom (single d) (some d) r := by
  conv_lhs => unfold clustersFrom
  simp [hd.no_joiner, hd.no_selector, hd.one_cell, single]

theorem clusters_narrow_two (hc : IsNarrow c) (hd : IsNarrow d) (r : Text) :
    clusters (c :: d :: r) = single c :: clusters (d :: r) := by
  rw [clusters_narrow_cons hc, clusters_narrow_cons hd, clustersFrom_narrow hd]

theorem clusters_narrow_append (hp : Narrow p) (hd : IsNarrow d) (r : Text) :
    clusters (p ++ d :: r) = p.map single ++ clusters (d :: r) := by
  induction p with
  | nil => rfl
  | cons c p ih =>
    obtain ⟨hc, hrest⟩ := List.forall_mem_cons.1 hp
    have hnext := ih hrest
    cases p with
    | nil => exact clusters_narrow_two hc hd r
    | cons e p =>
      rw [List.cons_append, List.cons_append, clusters_narrow_two hc (hrest e List.mem_cons_self)]
      exact congrArg (single c :: ·) hnext

theorem clusters_narrow (ht : Narrow t) : clusters t = t.map single := by
  cases ht' : t.reverse with
  | nil =>
    rw [List.reverse_eq_nil_iff.1 ht']
    rfl
  | cons c r =>
    obtain rfl : t = r.reverse ++ [c] := by rw [← List.reverse_reverse t, ht', List.reverse_cons]
    obtain ⟨hr, hc⟩ := List.forall_mem_append.1 ht
    have hlast : IsNarrow c := hc c (List.mem_singleton_self c)
    rw [clusters_narrow_append hr hlast, clusters_narrow_cons hlast, List.map_append]
    rfl

/-! ## Cutting narrow text -/

/-- pieces of narrow text: nothing is lost, and every piece fits -/
theorem chopFrom_narrow (hwidth : 0 < width) (t : Text) {piece : Text} (hpiece : piece.length ≤ width) :
    (chopFrom width piece.length piece (t.map single)).flatten = piece ++ t ∧
      ∀ l ∈ chopFrom width piece.length piece (t.map single), l.length ≤ width := by
  induction t generalizing piece with
  | nil =>
    rw [List.map_nil, chopFrom]
    split_ifs with hempty
    · simp [List.length_eq_zero_iff.1 hempty]
    · simpa using hpiece
  | cons c t ih =>
    rw [List.map_cons, chopFrom]
    split_ifs with hfull
    · obtain ⟨hflat, hfits⟩ := ih (show [c].length ≤ width from hwidth)
      refine ⟨congrArg (piece ++ ·) hflat, List.forall_mem_cons.2 ⟨hpiece, hfits⟩⟩
    · have hroom : (piece ++ [c]).length ≤ width := by
        rw [List.length_append]
        exact Nat.le_of_not_lt hfull
      obtain ⟨hflat, hfits⟩ := ih hroom
      rw [List.length_append] at hflat hfits
      exact ⟨by simpa [single] using hflat, by simpa [single] using hfits⟩

theorem chop_narrow (hwidth : 0 < width) (ht : Narrow t) :
    (t.chop width).flatten = t ∧ ∀ l ∈ t.chop width, l.length ≤ width := by
  have hpieces := chopFrom_narrow hwidth t (show ([] : Text).length ≤ width from Nat.zero_le _)
  rw [List.nil_append] at hpieces
  rw [chop, clusters_narrow ht]
  exact hpieces

theorem takeClusters_narrow_append {n : Nat} (hp : p.length ≤ n) (cs : List Cluster) :
    takeClusters n (p.map single ++ cs) = p ++ takeClusters (n - p.length) cs := by
  induction p generalizing n with
  | nil => rfl
  | cons c p ih =>
    rw [List.length_cons] at hp
    have hn : n ≠ 0 := by omega
    have hone : (single c).width ≤ n := Nat.one_le_iff_ne_zero.2 hn
    have hrest := ih (n := n - 1) (by omega)
    rw [List.map_cons, List.cons_append, takeClusters, if_neg hn, if_pos hone, List.length_cons,
      show n - (single c).width = n - 1 from rfl, hrest, Nat.sub_sub, Nat.add_comm 1]
    rfl

/-- a line that is made to fit keeps the narrow part at its start -/
theorem fit_narrow_append {n : Nat} (hp : Narrow p) (hd : IsNarrow d) (hn : p.length ≤ n) (r : Text) :
    ∃ s, (p ++ d :: r).fit n = p ++ s := by
  rw [fit]
  split_ifs
  · exact ⟨_, List.append_assoc _ _ _⟩
  · rw [clusters_narrow_append hp hd, takeClusters_narrow_append hn]
    exact ⟨_, rfl⟩

/-! ## Characters of a line -/

theorem mem_takeClusters {n : Nat} {cs : List Cluster} (h : c ∈ takeClusters n cs) :
    c ∈ cs.flatMap Cluster.chars ∨ c = ' ' := by
  fun_induction takeClusters n cs with
  | case1 => exact absurd h List.not_mem_nil
  | case2 => exact absurd h List.not_mem_nil
  | case3 n c' r hn hfits ih =>
    rw [List.flatMap_cons, List.mem_append]
    rcases List.mem_append.1 h with h | h
    · exact Or.inl (Or.inl h)
    · exact (ih h).imp_left Or.inr
  | case4 => exact Or.inr (List.mem_singleton.1 h)

theorem mem_fit {n : Nat} (h : c ∈ t.fit n) : c ∈ t ∨ c = ' ' := by
  rw [fit] at h
  split_ifs at h
  · exact (List.mem_append.1 h).imp_right List.eq_of_mem_replicate
  · have hcluster := mem_takeClusters h
    rwa [flatten_clusters] at hcluster

theorem mem_expandPieces {position : Nat} {pieces : List Text} (h : c ∈ expandPieces position pieces) :
    c ∈ pieces.flatten ∨ c = ' ' := by
  fun_induction expandPieces position pieces with
  | case1 => exact absurd h List.not_mem_nil
  | case2 position piece => exact Or.inl (by simpa using h)
  | case3 position piece next rest reached fill ih =>
    rw [List.flatten_cons, List.mem_append]
    rcases List.mem_append.1 h with h | h
    · exact Or.inl (Or.inl h)
    rcases List.mem_cons.1 h with h | h
    · exact Or.inr h
    rcases List.mem_append.1 h with h | h
    · exact Or.inr (List.eq_of_mem_replicate h)
    · exact (ih h).imp_left Or.inr

theorem flatten_cutAt_sublist (q : Char → Bool) (t : Text) : (cutAt q t).flatten <+ t := by
  induction t with
  | nil => exact List.Sublist.refl _
  | cons c r ih =>
    rw [cutAt]
    split_ifs
    · exact ih.cons c
    · cases hcut : cutAt q r with
      | nil => exact absurd hcut (cutAt_ne_nil q r)
      | cons w ws =>
        rw [hcut] at ih
        exact ih.cons_cons c

theorem mem_expandTabs (h : c ∈ t.expandTabs) : c ∈ t ∨ c = ' ' :=
  (mem_expandPieces h).imp_left fun hpieces => (flatten_cutAt_sublist _ t).subset hpieces

end Text

namespace Console

open Text

variable {width : Nat} {t line piece : Text} {overflow : Overflow}

/-! ## One word -/

theorem runs_of_no_blank (h : ∀ c ∈ t, isBlank c = false) (hne : t ≠ []) : runs t = [t] := by
  induction t with
  | nil => exact absurd rfl hne
  | cons c r ih =>
    obtain ⟨hc, hr⟩ := List.forall_mem_cons.1 h
    rw [runs]
    cases r with
    | nil => rfl
    | cons d r =>
      rw [ih hr (List.cons_ne_nil d r)]
      simp [hc]

theorem words_word (hw : IsWord t) : words t = [t] := by
  have hblank : t.allBlank = false := by
    obtain ⟨c, r, rfl⟩ := List.exists_cons_of_ne_nil hw.1
    rw [allBlank, List.all_cons, hw.2 c List.mem_cons_self, Bool.false_and]
  rw [words, runs_of_no_blank hw.2 hw.1]
  simp [hblank]

theorem mem_foldl_breakBefore {f : Filling} {ts : List Text} (h : line ∈ (ts.foldl Filling.breakBefore f).lines) :
    line ∈ f.lines ∨ line ∈ ts := by
  induction ts generalizing f with
  | nil => exact Or.inl h
  | cons t ts ih =>
    rw [List.mem_cons]
    rcases ih h with h | h
    · rw [Filling.breakBefore, Filling.lines] at h
      split_ifs at h
      · rcases List.mem_append.1 h with h | h
        · exact Or.inl h
        · exact Or.inr (Or.inl (List.mem_singleton.1 h))
      · exact Or.inr (Or.inl (by simpa using h))
    · exact Or.inr (Or.inr h)

/-- the lines of a word, put together, are the word, and each of them fits -/
theorem breakLine_word (hwidth : 0 < width) (hblank : ∀ c ∈ t, isBlank c = false) (ht : Narrow t) :
    (breakLine width .fold t).flatten = t ∧ ∀ l ∈ breakLine width .fold t, l.length ≤ width := by
  by_cases hne : t = []
  · subst hne
    exact ⟨rfl, by simp [breakLine, words, runs]⟩
  have htrim : t.trimRight = t := by
    rw [trimRight, dropWhile_open, List.reverse_reverse]
    exact fun c hc => hblank c (List.mem_reverse.1 (List.mem_of_head? hc))
  rw [breakLine, words_word ⟨hne, hblank⟩]
  simp only [List.foldl_cons, List.foldl_nil, Filling.place, htrim, cells_narrow ht]
  split_ifs with hfits hfits'
  · have hlines : (Filling.append ⟨[], [], 0⟩ t).lines = [t] := rfl
    rw [hlines]
    exact ⟨by simp, by simpa using hfits⟩
  · exact absurd hfits' (by simpa using hfits)
  · obtain ⟨hflat, hpieces⟩ := chop_narrow hwidth ht
    refine ⟨?_, fun l hl => ?_⟩
    · rw [Filling.flatten_foldl_breakBefore, hflat]
      rfl
    · rcases mem_foldl_breakBefore hl with hl | hl
      · rw [List.mem_singleton.1 hl]
        exact Nat.zero_le _
      · exact hpieces l hl

theorem breakLine_ne_nil (width : Nat) (overflow : Overflow) (line : Text) : breakLine width overflow line ≠ [] := by
  rw [breakLine]
  split <;> simp [Filling.lines]

/-! ## In a column -/

def filled (width : Nat) (t : Text) : Text := t ++ spaces (width - t.length)

theorem length_filled (hfits : t.length ≤ width) : (filled width t).length = width := by
  rw [filled, List.length_append, spaces, List.length_replicate]
  omega

theorem justify_left_fits (overflow : Overflow) (ht : Printable t) (hfits : t.length ≤ width) :
    justify width overflow .left (dropOverhang width t) = filled width t := by
  have hcells := cells_printable ht
  simp only [dropOverhang_fits hfits, justify, truncate, hcells, if_pos hfits]
  rfl

theorem cutAt_newline_printable (ht : Printable t) : cutAt (· = '\n') t = [t] := by
  refine cutAt_of_none fun c hc => decide_eq_false ?_
  rintro rfl
  exact absurd (ht '\n' hc).1 (by decide)

/-- **A word in a column** comes out in pieces that put together are the word, each filled up to the width. -/
theorem wrap_word (hwidth : 0 < width) (ht : Printable t) (hblank : ∀ c ∈ t, isBlank c = false) :
    ∃ pieces : List Text, pieces ≠ [] ∧ pieces.flatten = t ∧ (∀ l ∈ pieces, l.length ≤ width) ∧
      wrap width .fold .left t = pieces.map (filled width) := by
  obtain ⟨hflat, hfits⟩ := breakLine_word hwidth hblank ht.narrow
  refine ⟨_, breakLine_ne_nil width .fold t, hflat, hfits, ?_⟩
  rw [wrap, cutAt_newline_printable ht, List.flatMap_singleton, expandTabs_printable ht]
  refine List.map_congr_left fun l hl => justify_left_fits .fold (ht.sublist ?_) (hfits l hl)
  have hsub := List.sublist_flatten_of_mem hl
  rwa [hflat] at hsub

/-- a short text in a column is one line -/
theorem wrap_short (overflow : Overflow) (ht : Printable t) (hfits : t.length ≤ width) :
    wrap width overflow .left t = [filled width t] := by
  rw [wrap, cutAt_newline_printable ht, List.flatMap_singleton, expandTabs_printable ht, breakLine_fits ht hfits,
    List.map_singleton, justify_left_fits overflow ht hfits]

/-! ## No newlines -/

theorem newline_not_mem_truncate (h : '\n' ∉ line) : '\n' ∉ truncate width overflow line := by
  unfold truncate
  split_ifs
  · exact h
  · cases overflow with
    | fold => exact fun hmem => (mem_fit hmem).elim h (by decide)
    | ellipsis =>
      intro hmem
      rcases List.mem_append.1 hmem with hmem | hmem
      · exact (mem_fit hmem).elim h (by decide)
      · exact absurd hmem (by decide)

theorem newline_not_mem_spaces (n : Nat) : '\n' ∉ spaces n :=
  fun h => absurd (List.eq_of_mem_replicate h) (by decide)

theorem newline_not_mem_justify (how : Justify) (h : '\n' ∉ line) : '\n' ∉ justify width overflow how line := by
  cases how with
  | asIs => exact newline_not_mem_truncate h
  | left =>
    simp only [justify, List.mem_append, not_or]
    exact ⟨newline_not_mem_truncate h, newline_not_mem_spaces _⟩
  | centre =>
    have htrim : '\n' ∉ line.trimRight := fun hmem => h ((trimRight_sublist line).subset hmem)
    simp only [justify, List.mem_append, not_or]
    exact ⟨newline_not_mem_spaces _, newline_not_mem_truncate htrim, newline_not_mem_spaces _⟩

/-- no line of a paragraph holds a newline: the text is cut at them, and nothing that comes later makes one -/
theorem newline_not_mem_wrap {how : Justify} (h : line ∈ wrap width overflow how t) : '\n' ∉ line := by
  obtain ⟨source, hsource, hline⟩ := List.mem_flatMap.1 h
  obtain ⟨piece, hpiece, rfl⟩ := List.mem_map.1 hline
  have hbroken : '\n' ∉ source.expandTabs := by
    intro hmem
    rcases mem_expandTabs hmem with hmem | heq
    · exact absurd (of_mem_cutAt hsource '\n' hmem) (by decide)
    · exact absurd heq (by decide)
  refine newline_not_mem_justify how fun hmem => hbroken ?_
  have hin := (dropOverhang_sublist width piece).subset hmem
  exact (flatten_breakLine width overflow _).subset (List.mem_flatten.2 ⟨piece, hpiece, hin⟩)

end Console

end RepoLens
