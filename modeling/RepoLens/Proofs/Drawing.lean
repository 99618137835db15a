import Mathlib.Tactic
import RepoLens.Console.Table
import RepoLens.Proofs.ColumnWidths
import RepoLens.Proofs.Folding
import RepoLens.Proofs.Shown
/-!
Tables as they are printed. A drawn table is a list of lines without newlines, so what is printed can be cut into these lines
again. A line that is wider than the console is made to fit; what is narrow at its start is kept then, and nothing but blanks can
be new.

Results:
- `draw_eq_ok`: what a table with a header is drawn of;
- `print_lines`: the lines of what is printed are the drawn ones, each made to fit;
- `mem_clip`, `clip_narrow_append`: what is left of a line that is made to fit.
-/
namespace RepoLens.Console.Table

open Text

variable {t : Table} {screen : Screen} {width : Nat} {lines : List Text}

/-! ## Markup in a column -/

/-- markup that shows in a column so wide: its tags can be read, and so can every style that is left when it is laid out -/
def ShowableIn (screen : Screen) (width : Nat) (overflow : Overflow) (how : Justify) (markup : Text) : Prop :=
  ∃ s lines, Markup.read screen markup = .ok s ∧ s.wrap width overflow how = .ok lines

theorem ShowableIn.legible {overflow : Overflow} {how : Justify} {m : Text} (h : ShowableIn screen width overflow how m) :
    Legible screen m := by
  obtain ⟨s, -, hread, -⟩ := h
  exact ⟨s, hread⟩

theorem showableIn_of_read {s : Shown} {m : Text} (h : Markup.read screen m = .ok s) (hs : s.Readable) (width : Nat)
    (overflow : Overflow) (how : Justify) : ShowableIn screen width overflow how m :=
  ⟨s, _, h, Shown.wrap_of_readable hs width overflow how⟩

/-- unmarked text shows in every column -/
theorem showableIn_unmarked {m : Text} (h : Markup.Unmarked m) (screen : Screen) (width : Nat) (overflow : Overflow)
    (how : Justify) : ShowableIn screen width overflow how m :=
  showableIn_of_read (Markup.read_unmarked_shown h screen) (Shown.readable_plain _) width overflow how

/-! ## Parts of a table -/

/-- the lines of a table with a header -/
def linesOf (widths : List Nat) (title header : List Text) (rows : List (List Text)) : List Text :=
  title ++ headTop.draw widths :: (header ++ headBottom.draw widths :: (rows.flatten ++ [bottom.draw widths]))

/-- a table with a header is drawn from its widths, its title, its header and its rows, in this order -/
theorem draw_eq (hheaded : t.headed = true) (screen : Screen) :
    t.draw screen = t.columnWidths screen (screen.width - (t.columns.length + 1)) >>= fun widths =>
      titleLines screen (total widths + (t.columns.length + 1)) t.title >>= fun title =>
        rowLines screen true (t.columns.zip widths) (t.columns.map Column.header) >>= fun header =>
          t.rows.mapM (rowLines screen false (t.columns.zip widths)) >>= fun rows =>
            pure (linesOf widths title header rows) := by
  unfold draw linesOf
  simp only [hheaded, if_true]
  refine bind_congr fun widths => bind_congr fun title => ?_
  simp

/-- the parts of a table with a header, all of which can be drawn -/
structure Drawn (screen : Screen) (t : Table) (ws : List Nat) (title header : List Text) (rows : List (List Text)) : Prop where
  widths : t.columnWidths screen (screen.width - (t.columns.length + 1)) = .ok ws
  title : titleLines screen (total ws + (t.columns.length + 1)) t.title = .ok title
  header : rowLines screen true (t.columns.zip ws) (t.columns.map Column.header) = .ok header
  rows : t.rows.mapM (rowLines screen false (t.columns.zip ws)) = .ok rows

theorem draw_eq_ok (hheaded : t.headed = true) :
    t.draw screen = .ok lines ↔
      ∃ ws title header rows, Drawn screen t ws title header rows ∧ lines = linesOf ws title header rows := by
  rw [draw_eq hheaded]
  simp only [bind_eq_ok]
  constructor
  · rintro ⟨ws, hws, title, htitle, header, hheader, rows, hrows, hlines⟩
    exact ⟨ws, title, header, rows, ⟨hws, htitle, hheader, hrows⟩, (Except.ok.inj hlines).symm⟩
  · rintro ⟨ws, title, header, rows, h, rfl⟩
    exact ⟨ws, h.widths, title, h.title, header, h.header, rows, h.rows, rfl⟩

theorem exists_titleLines (screen : Screen) (full : Nat) (title : Text) :
    (∃ ls, titleLines screen full title = .ok ls) ↔ ShowableIn screen full .fold .centre title := by
  unfold titleLines
  split_ifs with hempty
  · rw [List.isEmpty_iff.1 hempty]
    exact ⟨fun _ => showableIn_unmarked (Markup.unmarked_bracketless List.not_mem_nil) screen full .fold .centre,
      fun _ => ⟨_, rfl⟩⟩
  · simp only [bind_eq_ok, Listing.mapError_eq_ok]
    exact ⟨fun ⟨ls, s, hread, hwrap⟩ => ⟨s, ls, hread, hwrap⟩, fun ⟨s, ls, hread, hwrap⟩ => ⟨ls, s, hread, hwrap⟩⟩

/-! ## Lines of a row -/

variable {overflow : Overflow} {m : Text} {ls : List Text}

theorem cellLines_eq_ok (hwidth : 3 ≤ width) :
    cellLines screen width overflow m = .ok ls ↔ ∃ s lines, Markup.read screen m = .ok s ∧
      s.wrap (width - 2) overflow .left = .ok lines ∧ ls = lines.map fun line => ' ' :: (line ++ [' ']) := by
  rw [cellLines, if_neg (by omega)]
  simp only [bind_eq_ok, Listing.mapError_eq_ok, pure_eq_ok]
  exact ⟨fun ⟨s, hread, lines, hwrap, hls⟩ => ⟨s, lines, hread, hwrap, hls⟩,
    fun ⟨s, lines, hread, hwrap, hls⟩ => ⟨s, hread, lines, hwrap, hls⟩⟩

theorem exists_cellLines (hwidth : 3 ≤ width) :
    (∃ ls, cellLines screen width overflow m = .ok ls) ↔ ShowableIn screen (width - 2) overflow .left m := by
  simp only [cellLines_eq_ok hwidth]
  exact ⟨fun ⟨_, s, lines, hread, hwrap, _⟩ => ⟨s, lines, hread, hwrap⟩,
    fun ⟨s, lines, hread, hwrap⟩ => ⟨_, s, lines, hread, hwrap, rfl⟩⟩

/-- the lines of a cell that shows some text are those of its characters -/
theorem cellLines_of_read (hwidth : 3 ≤ width) {s : Shown} (hread : Markup.read screen m = .ok s)
    (h : cellLines screen width overflow m = .ok ls) :
    ls = (wrap (width - 2) overflow .left s.text).map fun line => ' ' :: (line ++ [' ']) := by
  obtain ⟨s', lines, hread', hwrap, rfl⟩ := (cellLines_eq_ok hwidth).1 h
  obtain rfl : s = s' := Except.ok.inj (hread.symm.trans hread')
  rw [Shown.wrap_eq_ok hwrap]

/-- the lines of a row whose cells have been cut into lines -/
def rowOf (header : Bool) (columns : List (Column × Nat)) (cells : List (List Text)) : List Text :=
  let height := max 1 ((cells.map List.length).foldl max 0)
  let filled := (columns.zip cells).map fun (c, lines) =>
    let blank := List.replicate (height - lines.length) (Text.spaces c.2)
    if header then blank ++ lines else lines ++ blank
  (List.range height).map fun i => rowLine (if header then '┃' else '│') (filled.map fun lines => lines[i]?.getD [])

theorem rowLines_eq_ok {header : Bool} {columns : List (Column × Nat)} {row : List Text} :
    rowLines screen header columns row = .ok lines ↔
      ∃ cells, (columns.zip row).mapM (fun (c, m) => cellLines screen c.2 c.1.overflow m) = .ok cells ∧
        lines = rowOf header columns cells := by
  rw [rowLines, bind_eq_ok]
  exact exists_congr fun cells => and_congr_right fun _ => pure_eq_ok

/-- a row can be drawn if each of its cells can be shown in its column -/
theorem exists_rowLines {header : Bool} {columns : List (Column × Nat)} {row : List Text}
    (hwidths : ∀ c ∈ columns, 3 ≤ c.2) :
    (∃ lines, rowLines screen header columns row = .ok lines) ↔
      ∀ x ∈ columns.zip row, ShowableIn screen (x.1.2 - 2) x.1.1.overflow .left x.2 := by
  have hcells : ∀ x ∈ columns.zip row, ((∃ ls, cellLines screen x.1.2 x.1.1.overflow x.2 = .ok ls) ↔
      ShowableIn screen (x.1.2 - 2) x.1.1.overflow .left x.2) :=
    fun x hx => exists_cellLines (hwidths _ (List.of_mem_zip hx).1)
  simp only [rowLines_eq_ok]
  rw [← forall₂_congr hcells, ← Listing.exists_mapM_iff]
  exact ⟨fun ⟨_, cells, h, _⟩ => ⟨cells, h⟩, fun ⟨cells, h⟩ => ⟨_, cells, h, rfl⟩⟩

/-- a line of a cell: a piece of its text between two blanks, filled up to the width of the column -/
def cellLine (width : Nat) (piece : Text) : Text := ' ' :: (filled (width - 2) piece ++ [' '])

theorem printable_cellLine {piece : Text} (h : Printable piece) : Printable (cellLine width piece) := by
  have hspace : 0x20 ≤ ' '.toNat ∧ ' '.toNat < 0x7F := by decide
  intro c hc
  simp only [cellLine, filled, spaces, List.mem_cons, List.mem_append, List.mem_replicate, List.not_mem_nil, or_false] at hc
  rcases hc with rfl | (hc | ⟨-, rfl⟩) | rfl
  · exact hspace
  · exact h c hc
  · exact hspace
  · exact hspace

theorem length_cellLine (hwidth : 3 ≤ width) {piece : Text} (hfits : piece.length ≤ width - 2) :
    (cellLine width piece).length = width := by
  rw [cellLine, List.length_cons, List.length_append, length_filled hfits, List.length_singleton]
  omega

theorem trim_cellLine {piece : Text} (hblank : ∀ c ∈ piece, isBlank c = false) : (cellLine width piece).trim = piece := by
  have hspaces : ∀ c ∈ spaces (width - 2 - piece.length) ++ [' '], isBlank c = true := by
    simp only [spaces, List.forall_mem_append, List.forall_mem_singleton]
    exact ⟨fun c hc => List.eq_of_mem_replicate hc ▸ by decide, by decide⟩
  have hfront : ∀ c ∈ [' '], isBlank c = true := List.forall_mem_singleton.2 (by decide)
  rw [cellLine, filled, List.append_assoc]
  exact trim_between hfront hblank hspaces

/-- a cell that shows a short text is one line -/
theorem cellLines_short (hwidth : 3 ≤ width) {s : Shown} (hread : Markup.read screen m = .ok s) (hs : Printable s.text)
    (hfits : s.text.length ≤ width - 2) (h : cellLines screen width overflow m = .ok ls) : ls = [cellLine width s.text] := by
  rw [cellLines_of_read hwidth hread h, wrap_short overflow hs hfits]
  rfl

/-- a cell that shows a word and is folded has pieces of it as its lines -/
theorem cellLines_word (hwidth : 3 ≤ width) {s : Shown} (hread : Markup.read screen m = .ok s) (hs : Printable s.text)
    (hblank : ∀ c ∈ s.text, isBlank c = false) (h : cellLines screen width .fold m = .ok ls) :
    ∃ pieces : List Text, pieces.flatten = s.text ∧ (∀ l ∈ pieces, l.length ≤ width - 2) ∧ ls = pieces.map (cellLine width) := by
  obtain ⟨pieces, -, hflat, hfits, hwrap⟩ := wrap_word (by omega : 0 < width - 2) hs hblank
  refine ⟨pieces, hflat, hfits, ?_⟩
  rw [cellLines_of_read hwidth hread h, hwrap, List.map_map]
  rfl

/-- every line of a cell begins with a blank -/
theorem head_cellLines (hwidth : 3 ≤ width) (h : cellLines screen width overflow m = .ok ls) :
    ∀ l ∈ ls, l.head? = some ' ' := by
  obtain ⟨s, lines, -, -, rfl⟩ := (cellLines_eq_ok hwidth).1 h
  intro l hl
  obtain ⟨line, -, rfl⟩ := List.mem_map.1 hl
  rfl

/-! ## No newlines -/

theorem newline_not_mem_cellLines (h : cellLines screen width overflow m = .ok ls) : ∀ l ∈ ls, '\n' ∉ l := by
  by_cases hwidth : 3 ≤ width
  · obtain ⟨s, lines, -, hwrap, rfl⟩ := (cellLines_eq_ok hwidth).1 h
    rw [Shown.wrap_eq_ok hwrap]
    intro l hl
    obtain ⟨line, hline, rfl⟩ := List.mem_map.1 hl
    simpa using newline_not_mem_wrap hline
  · rw [cellLines, if_pos (by omega)] at h
    rw [← Except.ok.inj h]
    simp

theorem newline_not_mem_rowLine {border : Char} (hborder : border ≠ '\n') {cells : List Text}
    (h : ∀ c ∈ cells, '\n' ∉ c) :
    '\n' ∉ rowLine border cells := by
  have hjoined : ∀ c ∈ joinWith [border] cells, c ≠ '\n' := by
    refine forall_mem_joinWith ?_ fun cell hcell c hc hnewline => h cell hcell (hnewline ▸ hc)
    exact fun c hc => List.mem_singleton.1 hc ▸ hborder
  rw [rowLine, List.mem_cons, List.mem_append, List.mem_singleton]
  rintro (heq | hmem | heq)
  · exact hborder heq.symm
  · exact hjoined _ hmem rfl
  · exact hborder heq.symm

theorem newline_not_mem_rowLines {header : Bool} {columns : List (Column × Nat)} {row : List Text}
    (h : rowLines screen header columns row = .ok lines) : ∀ l ∈ lines, '\n' ∉ l := by
  obtain ⟨cells, hcells, rfl⟩ := rowLines_eq_ok.1 h
  have hcell : ∀ ls ∈ cells, ∀ l ∈ ls, '\n' ∉ l := by
    intro ls hls
    obtain ⟨x, -, hx⟩ := Listing.mem_of_forall₂ (Listing.mapM_eq_ok.1 hcells) hls
    exact newline_not_mem_cellLines hx
  intro l hl
  obtain ⟨i, -, rfl⟩ := List.mem_map.1 hl
  refine newline_not_mem_rowLine (by cases header <;> decide) fun cell hmem => ?_
  obtain ⟨filled, hfilled, rfl⟩ := List.mem_map.1 hmem
  obtain ⟨⟨c, ls⟩, hzip, rfl⟩ := List.mem_map.1 hfilled
  have hls := hcell ls (List.of_mem_zip hzip).2
  have hblank : ∀ n, ∀ l ∈ List.replicate n (spaces c.2), '\n' ∉ l := fun n l hl =>
    List.eq_of_mem_replicate hl ▸ newline_not_mem_spaces _
  cases hget : (if header then _ else _ : List Text)[i]? with
  | none => simp
  | some l =>
    have hin := List.mem_of_getElem? hget
    split_ifs at hin
    · exact (List.mem_append.1 hin).elim (hblank _ l) (hls l)
    · exact (List.mem_append.1 hin).elim (hls l) (hblank _ l)

/-- a border is drawn with its own characters -/
theorem mem_draw {r : Rule} {c : Char} {ws : List Nat} (h : c ∈ r.draw ws) : c ∈ [r.left, r.line, r.crossing, r.right] := by
  have hjoined : ∀ c ∈ joinWith [r.crossing] (ws.map fun w => List.replicate w r.line), c ∈ [r.line, r.crossing] := by
    refine forall_mem_joinWith (by simp) fun piece hpiece c hc => ?_
    obtain ⟨w, -, rfl⟩ := List.mem_map.1 hpiece
    simp [List.eq_of_mem_replicate hc]
  rw [Rule.draw, List.mem_cons, List.mem_append, List.mem_singleton] at h
  rcases h with rfl | h | rfl
  · simp
  · have hline := hjoined c h
    simp only [List.mem_cons, List.not_mem_nil, or_false] at hline ⊢
    exact hline.elim (fun h => Or.inr (Or.inl h)) fun h => Or.inr (Or.inr (Or.inl h))
  · simp

variable {ws : List Nat} {title header : List Text} {rows : List (List Text)}

theorem Drawn.no_newline (h : Drawn screen t ws title header rows) : ∀ l ∈ linesOf ws title header rows, '\n' ∉ l := by
  have hborder : ∀ r ∈ [headTop, headBottom, bottom], '\n' ∉ r.draw ws := by
    have hchars : ∀ r ∈ [headTop, headBottom, bottom], '\n' ∉ [r.left, r.line, r.crossing, r.right] := by decide
    exact fun r hr hmem => hchars r hr (mem_draw hmem)
  have htitle : ∀ l ∈ title, '\n' ∉ l := by
    have hlines := h.title
    unfold titleLines at hlines
    split_ifs at hlines
    · rw [← Except.ok.inj hlines]
      exact fun l hl => absurd hl List.not_mem_nil
    · obtain ⟨s, -, hwrap⟩ := bind_eq_ok.1 hlines
      rw [Shown.wrap_eq_ok (Listing.mapError_eq_ok.1 hwrap)]
      exact fun l hl => newline_not_mem_wrap hl
  have hrows : ∀ l ∈ rows.flatten, '\n' ∉ l := by
    intro l hl
    obtain ⟨row, hrow, hline⟩ := List.mem_flatten.1 hl
    obtain ⟨cells, -, hcells⟩ := Listing.mem_of_forall₂ (Listing.mapM_eq_ok.1 h.rows) hrow
    exact newline_not_mem_rowLines hcells l hline
  simp only [linesOf, List.forall_mem_append, List.forall_mem_cons]
  exact ⟨htitle, hborder headTop (by simp), newline_not_mem_rowLines h.header, hborder headBottom (by simp), hrows,
    hborder bottom (by simp), List.forall_mem_nil _⟩

/-! ## What is printed -/

/-- a line as it is printed: made to fit if it is too wide -/
def clip (width : Nat) (line : Text) : Text := if line.cells ≤ width then line else line.fit width

/-- nothing but blanks is new in a line that is made to fit -/
theorem mem_clip {c : Char} {line : Text} (h : c ∈ clip width line) : c ∈ line ∨ c = ' ' := by
  rw [clip] at h
  split_ifs at h
  · exact Or.inl h
  · exact mem_fit h

/-- what is narrow at the start of a line is kept if there is room for it -/
theorem clip_narrow_append {p : Text} {d : Char} (hp : Narrow p) (hd : IsNarrow d) (hwidth : p.length ≤ width) (r : Text) :
    ∃ s, clip width (p ++ d :: r) = p ++ s := by
  rw [clip]
  split_ifs
  · exact ⟨_, rfl⟩
  · exact fit_narrow_append hp hd hwidth r

/-- a block is cut at its newlines into its lines, with nothing behind the last newline -/
theorem cutAt_block {ls : List Text} (h : ∀ l ∈ ls, '\n' ∉ l) : cutAt (· = '\n') (block ls) = ls ++ [[]] := by
  induction ls with
  | nil => rfl
  | cons l ls ih =>
    obtain ⟨hl, hrest⟩ := List.forall_mem_cons.1 h
    have hblock : block (l :: ls) = l ++ '\n' :: block ls := by simp [block]
    have hone : cutAt (· = '\n') l = [l] := cutAt_of_none fun c hc => decide_eq_false fun hnewline => hl (hnewline ▸ hc)
    rw [hblock, cutAt_append (by decide), hone, ih hrest]
    rfl

theorem print_eq_ok (hwidth : screen.width ≠ 0) {out : Text} :
    t.print screen = .ok out ↔ ∃ lines, t.draw screen = .ok lines ∧ out = block (lines.map (clip screen.width)) := by
  rw [print, if_neg hwidth, bind_eq_ok]
  exact exists_congr fun lines => and_congr_right fun _ => pure_eq_ok

/-- **What is printed of a table with a header** has the lines that are drawn, each made to fit. -/
theorem print_lines (hheaded : t.headed = true) (hwidth : screen.width ≠ 0) {out : Text} (hout : t.print screen = .ok out) :
    ∃ ws title header rows, Drawn screen t ws title header rows ∧
      cutAt (· = '\n') out = (linesOf ws title header rows).map (clip screen.width) ++ [[]] := by
  obtain ⟨lines, hlines, rfl⟩ := (print_eq_ok hwidth).1 hout
  obtain ⟨ws, title, header, rows, hdrawn, rfl⟩ := (draw_eq_ok hheaded).1 hlines
  refine ⟨ws, title, header, rows, hdrawn, cutAt_block fun l hl => ?_⟩
  obtain ⟨line, hline, rfl⟩ := List.mem_map.1 hl
  exact fun hmem => (mem_clip hmem).elim (hdrawn.no_newline line hline) (by decide)

end RepoLens.Console.Table
