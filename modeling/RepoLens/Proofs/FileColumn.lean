import Mathlib.Data.List.DropRight
import Mathlib.Data.List.SplitBy
import Mathlib.Tactic
import RepoLens.Proofs.BaseCommit
import RepoLens.Proofs.Drawing
/-!
The names in a printed table of changed files. The rows of a table are not parted by borders, but only the first line of a row
has a change in it, and a name that is too long for its column goes on in the lines below. So the names can be read from what is
printed: row by row, the pieces in the second column put together. What is read is what each name shows as markup, and not always
the name.

Results:
- `read_row`: reading the lines of one row;
- `shownNames_eq`: reading a whole table;
- `names_in_table`: when a table of files can be printed, and when the names that are read from it are those of the files;
- `names_lost_in_table`: a name of which a part is lost, and a name that cannot be printed.
-/
namespace RepoLens.Display

open Console Console.Table Text

/-! ## Reading a printed table -/

/-- the lines of the rows begin with a light border, those of the header with a heavy one -/
def isRowLine (line : Text) : Bool := line.head? = some '│'

/-- the lines of the rows: the last ones that begin with a light border -/
def bodyLines (out : Text) : List Text := ((cutAt (· = '\n') out).rdropWhile fun l => !isRowLine l).rtakeWhile isRowLine

/-- what stands in the first two columns of a line -/
def leadingCells (line : Text) : Text × Text :=
  let cells := cutAt (· = '│') line
  (cells[1]?.getD [], cells[2]?.getD [])

/-- the rows, each with its lines: a row goes on as long as there is nothing in its first column -/
def bodyRows (out : Text) : List (List (Text × Text)) :=
  ((bodyLines out).map leadingCells).splitBy fun _ next => next.1.allBlank

/-- the text of a row in the second column, put together from its pieces -/
def secondText (row : List (Text × Text)) : Text := row.flatMap fun cells => cells.2.trim

/-- the names in a printed table of files -/
def shownNames (out : Text) : List Text := (bodyRows out).map secondText

/-! ## Files with names -/

/-- characters of ASCII that leave a mark; a colon, which may begin the name of a picture, is not among them -/
def IsNameChar (c : Char) : Prop := (0x21 ≤ c.toNat ∧ c.toNat < 0x7F) ∧ c ≠ ':'

instance : DecidablePred IsNameChar := fun c => inferInstanceAs (Decidable ((0x21 ≤ c.toNat ∧ c.toNat < 0x7F) ∧ c ≠ ':'))

def FileName (name : Text) : Prop := name ≠ [] ∧ ∀ c ∈ name, IsNameChar c

-- one character of the name after the other, and not every character there is
instance (name : Text) : Decidable (FileName name) :=
  @instDecidableAnd _ _ inferInstance (List.decidableBAll IsNameChar name)

/-- a changed file with a name, and a commit that may own it -/
structure NamedFile where
  name : Text
  action : Action
  owner : Option Text
  isName : FileName name

namespace NamedFile

def toFile (f : NamedFile) : File := ⟨.text f.name, f.action, f.owner.elim .null .text⟩

/-- what stands for the owner in a table -/
def ownerCell (f : NamedFile) : Text := f.owner.elim [] shortText

def row (f : NamedFile) : List Text := [f.action.label, f.name, f.ownerCell]

theorem fileRow_toFile (f : NamedFile) : fileRow f.toFile = .ok f.row := by
  obtain ⟨name, action, owner, -⟩ := f
  cases owner with
  | none => rfl
  | some id =>
    rw [fileRow, toFile, Option.elim_some, shortId_text]
    rfl

end NamedFile

variable {screen : Screen} {width : Nat} {title : Text} {files : List NamedFile}

theorem fileTable_named (files : List NamedFile) (title : Text) :
    fileTable (files.map NamedFile.toFile) title = .ok (changeTable title (files.map NamedFile.row)) := by
  rw [fileTable, Listing.mapM_written fun f _ => f.fileRow_toFile]
  rfl

/-- showing files with names as a table is printing the table -/
theorem files_table (hfiles : files ≠ []) :
    Display.files screen (files.map NamedFile.toFile) title .table =
      ((changeTable title (files.map NamedFile.row)).print screen).mapError .markup := by
  have hnonempty : (files.map NamedFile.toFile).isEmpty = false := by simpa using hfiles
  rw [Display.files, hnonempty, if_neg Bool.false_ne_true, fileTable_named]
  rfl

/-! ## What a name shows -/

theorem FileName.printable {name : Text} (h : FileName name) : Printable name :=
  fun c hc => ⟨Nat.le_of_lt (h.2 c hc).1.1, (h.2 c hc).1.2⟩

theorem FileName.no_blank {name : Text} (h : FileName name) : ∀ c ∈ name, isBlank c = false := by
  intro c hc
  have hrange : inRanges [(0x21, 0x7E)] c = true := by
    simpa [inRanges] using ⟨(h.2 c hc).1.1, Nat.le_of_lt_succ (h.2 c hc).1.2⟩
  exact inRanges_disjoint (by decide) hrange

/-- there are no codes without a colon -/
theorem FileName.codeless {name : Text} (h : FileName name) (screen : Screen) : Markup.Codeless screen name :=
  Markup.Codeless.of_uncoded (uncoded_colonless fun hcolon => (h.2 ':' hcolon).2 rfl) screen

/-- a name shows as itself if it is unmarked; else some of it is lost -/
theorem FileName.render_self {name : Text} (h : FileName name) :
    Markup.render screen name = .ok name ↔ Markup.Unmarked name := by
  constructor
  · intro hshow
    obtain ⟨s, hread, htext⟩ := Markup.render_eq_ok.1 hshow
    exact (Markup.read_ink (h.codeless screen) hread).2 (by rw [htext])
  · intro hunmarked
    exact Markup.render_eq_ok.2
      ⟨_, Markup.read_unmarked hunmarked (fun c hc => Or.inr (h.printable c hc)) (h.codeless screen), rfl⟩

/-! ## One line -/

variable {x y z : Text}

/-- what a line begins with: its first two cells and the borders around them -/
def front (x y : Text) : Text := '│' :: (x ++ '│' :: (y ++ ['│']))

theorem narrow_front (hx : Printable x) (hy : Printable y) : Narrow (front x y) := by
  have hborder : IsNarrow '│' := ⟨by decide, by decide, by decide +kernel⟩
  simp only [front, Narrow, List.forall_mem_cons, List.forall_mem_append]
  exact ⟨hborder, hx.narrow, hborder, hy.narrow, hborder, List.forall_mem_nil _⟩

theorem length_front (x y : Text) : (front x y).length = x.length + y.length + 3 := by
  simp only [front, List.length_cons, List.length_append, List.length_nil]
  omega

/-- no border is taken for one that stands in a printable cell -/
theorem leadingCells_front (hx : Printable x) (hy : Printable y) (s : Text) : leadingCells (front x y ++ s) = (x, y) := by
  have hcut : ∀ {t : Text}, Printable t → cutAt (· = '│') t = [t] := fun ht =>
    cutAt_of_none fun c hc => decide_eq_false fun heq => absurd (ht c hc).2 (by rw [heq]; decide)
  have hline : front x y ++ s = [] ++ '│' :: (x ++ '│' :: (y ++ '│' :: s)) := by simp [front]
  have hcells : cutAt (· = '│') (front x y ++ s) = [] :: x :: y :: cutAt (· = '│') s := by
    rw [hline, cutAt_append (by decide), cutAt_append (by decide), cutAt_append (by decide), hcut hx, hcut hy]
    rfl
  rw [leadingCells, hcells]
  rfl

/-- a line whose first two cells are printable: both are read from what is printed of it, whatever stands behind them -/
theorem read_rowLine (hx : Printable x) (hy : Printable y) (hz : z.head? = some ' ') (hfit : x.length + y.length + 3 ≤ width) :
    isRowLine (clip width (rowLine '│' [x, y, z])) = true ∧ leadingCells (clip width (rowLine '│' [x, y, z])) = (x, y) := by
  obtain ⟨rest, rfl⟩ : ∃ rest, z = ' ' :: rest := by
    cases z with
    | nil => cases hz
    | cons c rest => exact ⟨rest, by rw [Option.some.inj hz]⟩
  have hline : rowLine '│' [x, y, ' ' :: rest] = front x y ++ ' ' :: (rest ++ ['│']) := by simp [rowLine, joinWith, front]
  have hspace : IsNarrow ' ' := ⟨by decide, by decide, by decide⟩
  obtain ⟨s, hs⟩ := clip_narrow_append (narrow_front hx hy) hspace ((length_front x y).trans_le hfit) (rest ++ ['│'])
  rw [hline, hs]
  exact ⟨rfl, leadingCells_front hx hy s⟩

/-! ## One row -/

/-- the lines of a cell, with blank ones below them as far as the row goes -/
def padded (height width : Nat) (ls : List Text) : List Text := ls ++ List.replicate (height - ls.length) (spaces width)

/-- printable lines that are exactly as wide as their column -/
def Fills (width : Nat) (ls : List Text) : Prop := ∀ l ∈ ls, Printable l ∧ l.length = width

variable {a n o height : Nat} {ls actions names owners lines : List Text} {shown : Text}

theorem length_padded (h : ls.length ≤ height) : (padded height width ls).length = height := by
  rw [padded, List.length_append, List.length_replicate]
  omega

theorem Fills.padded (h : Fills width ls) : Fills width (padded height width ls) := by
  refine List.forall_mem_append.2 ⟨h, fun l hl => ?_⟩
  obtain rfl := List.eq_of_mem_replicate hl
  refine ⟨fun c hc => ?_, List.length_replicate⟩
  rw [List.eq_of_mem_replicate hc]
  decide

theorem fills_cellLine {pieces : List Text} (hwidth : 3 ≤ width) (hprint : ∀ l ∈ pieces, Printable l)
    (hfits : ∀ l ∈ pieces, l.length ≤ width - 2) : Fills width (pieces.map (cellLine width)) := by
  intro l hl
  obtain ⟨piece, hpiece, rfl⟩ := List.mem_map.1 hl
  exact ⟨printable_cellLine (hprint piece hpiece), length_cellLine hwidth (hfits piece hpiece)⟩

def columnsOf (a n o : Nat) : List (Column × Nat) := [(actionColumn, a), (fileColumn, n), (commitColumn, o)]

/-- the lines of a row: those of its cells side by side, all of them padded to the height of the row -/
theorem exists_rowOf (a n o : Nat) (actions names owners : List Text) :
    ∃ height, 0 < height ∧ actions.length ≤ height ∧ names.length ≤ height ∧ owners.length ≤ height ∧
      rowOf false (columnsOf a n o) [actions, names, owners] =
        ((padded height a actions).zip ((padded height n names).zip (padded height o owners))).map
          fun cells => rowLine '│' [cells.1, cells.2.1, cells.2.2] := by
  obtain ⟨height, hheight⟩ : ∃ height, height = max 1 (([actions, names, owners].map List.length).foldl max 0) :=
    ⟨_, rfl⟩
  have hrow : rowOf false (columnsOf a n o) [actions, names, owners] = (List.range height).map fun i =>
      rowLine '│' [(padded height a actions)[i]?.getD [], (padded height n names)[i]?.getD [],
        (padded height o owners)[i]?.getD []] := by
    rw [hheight]
    rfl
  simp only [List.map_cons, List.map_nil, List.foldl_cons, List.foldl_nil] at hheight
  have hactions : (padded height a actions).length = height := length_padded (by omega)
  have hnames : (padded height n names).length = height := length_padded (by omega)
  have howners : (padded height o owners).length = height := length_padded (by omega)
  refine ⟨height, by omega, by omega, by omega, by omega, hrow.trans ?_⟩
  refine List.ext_getElem (by simp [hactions, hnames, howners]) fun i hi _ => ?_
  rw [List.length_map, List.length_range] at hi
  simp [hactions, hnames, howners, hi]

/-- what is read from the printed lines of a row are the lines of its first two cells -/
theorem read_rowOf (hactions : Fills a actions) (hnames : Fills n names) (howners : ∀ l ∈ owners, l.head? = some ' ')
    (ho : 0 < o) (hfit : a + n + 3 ≤ width) :
    ∃ height, 0 < height ∧ actions.length ≤ height ∧ names.length ≤ height ∧
      (∀ l ∈ rowOf false (columnsOf a n o) [actions, names, owners], isRowLine (clip width l) = true) ∧
      (rowOf false (columnsOf a n o) [actions, names, owners]).map (leadingCells ∘ clip width) =
        (padded height a actions).zip (padded height n names) := by
  obtain ⟨height, hpos, ha, hn, hrest, hrow⟩ := exists_rowOf a n o actions names owners
  have hblank : ∀ l ∈ padded height o owners, l.head? = some ' ' := by
    refine List.forall_mem_append.2 ⟨howners, fun l hl => ?_⟩
    rw [List.eq_of_mem_replicate hl, spaces, List.head?_replicate, if_neg (by omega)]
  have hread : ∀ cells ∈ (padded height a actions).zip ((padded height n names).zip (padded height o owners)),
      isRowLine (clip width (rowLine '│' [cells.1, cells.2.1, cells.2.2])) = true ∧
        leadingCells (clip width (rowLine '│' [cells.1, cells.2.1, cells.2.2])) = (cells.1, cells.2.1) := by
    rintro ⟨x, y, z⟩ hcells
    obtain ⟨hx, hyz⟩ := List.of_mem_zip hcells
    obtain ⟨hy, hz⟩ := List.of_mem_zip hyz
    obtain ⟨hxprint, hxlen⟩ := hactions.padded x hx
    obtain ⟨hyprint, hylen⟩ := hnames.padded y hy
    have hroom : x.length + y.length + 3 ≤ width := by omega
    exact read_rowLine hxprint hyprint (hblank z hz) hroom
  refine ⟨height, hpos, ha, hn, ?_, ?_⟩
  · rw [hrow]
    intro l hl
    obtain ⟨cells, hcells, rfl⟩ := List.mem_map.1 hl
    exact (hread cells hcells).1
  · have hlen : (padded height n names).length ≤ (padded height o owners).length := by
      rw [length_padded hn, length_padded hrest]
    have hleading : ((padded height a actions).zip ((padded height n names).zip (padded height o owners))).map
        (Prod.map id Prod.fst) = (padded height a actions).zip (padded height n names) := by
      rw [← List.zip_map_right, List.map_fst_zip hlen]
    rw [hrow, List.map_map, ← hleading]
    exact List.map_congr_left fun cells hcells => (hread cells hcells).2

/-- lines that show a name: a change stands in the first one, and the pieces of the name make up the name -/
structure ShowsName (shown : Text) (row : List (Text × Text)) : Prop where
  begins : ∃ first rest, row = first :: rest ∧ first.1.allBlank = false ∧ ∀ cells ∈ rest, cells.1.allBlank = true
  name : secondText row = shown

theorem styleWord_colour (action : Action) : Markup.StyleWord action.colour := by cases action <;> decide +kernel

/-- what the label of a change shows is its name -/
theorem styledAs_label (screen : Screen) (action : Action) :
    Markup.StyledAs screen action.colour action.label action.name := by
  have hparts : ∃ q, Markup.parts action.label =
      .tag 0 0 action.colour :: ([.chars action.name] ++ [.tag q 0 ('/' :: action.colour)]) := by
    cases action <;> exact ⟨_, rfl⟩
  obtain ⟨q, hq⟩ := hparts
  have hinert : ∀ part ∈ [Markup.Part.chars action.name], part.Inert := List.forall_mem_singleton.2 trivial
  have hcolon : ':' ∉ action.name := by cases action <;> decide
  have hshown : Markup.shown (Markup.unescapeBrackets action.name) = action.name := by cases action <;> rfl
  have htext : Markup.Part.text screen (.chars action.name) = action.name := by
    rw [Markup.Part.text, (uncoded_colonless hcolon).unescapeBrackets.pictures_eq, hshown]
  have hread : Markup.StyledAs screen action.colour action.label _ := Markup.read_closed (styleWord_colour action) hinert hq
  have hclosing : Markup.closing action.colour 0 = [] := rfl
  rwa [List.flatMap_singleton, htext, hclosing, List.append_nil] at hread

/-- it is a short word -/
theorem isWord_label (action : Action) : IsWord action.name ∧ Printable action.name ∧ action.name.length ≤ 8 := by
  cases action <;> exact ⟨by decide, by decide, by decide⟩

theorem allBlank_cellLine {piece : Text} (h : IsWord piece) : (cellLine width piece).allBlank = false := by
  rw [← allBlank_trim, trim_cellLine h.2]
  obtain ⟨c, r, rfl⟩ := List.exists_cons_of_ne_nil h.1
  rw [allBlank, List.all_cons, h.2 c List.mem_cons_self, Bool.false_and]

theorem allBlank_spaces (k : Nat) : (spaces k).allBlank = true := by
  rw [allBlank, List.all_eq_true]
  exact fun c hc => List.eq_of_mem_replicate hc ▸ by decide

/-- the lines of a change and those of a name, side by side, show the name -/
theorem showsName_zip {label : Text} {pieces : List Text} (hlabel : IsWord label)
    (hblank : ∀ piece ∈ pieces, ∀ c ∈ piece, isBlank c = false) (hpos : 0 < height) (hheight : pieces.length ≤ height) :
    ShowsName pieces.flatten ((padded height a [cellLine a label]).zip (padded height n (pieces.map (cellLine n)))) := by
  have hnames : (padded height n (pieces.map (cellLine n))).length = height := length_padded (by simpa using hheight)
  have hactions : (padded height a [cellLine a label]).length = height := length_padded hpos
  constructor
  · obtain ⟨first, rest, hnames'⟩ := List.exists_cons_of_length_pos (hnames.symm ▸ hpos)
    rw [hnames']
    refine ⟨(cellLine a label, first), _, rfl, allBlank_cellLine hlabel, fun cells hcells => ?_⟩
    have hspaces := List.eq_of_mem_replicate (List.of_mem_zip hcells).1
    rw [hspaces]
    exact allBlank_spaces a
  · have hpieces : (pieces.map (cellLine n)).map trim = pieces := by
      rw [List.map_map]
      exact (List.map_congr_left fun piece hpiece => trim_cellLine (hblank piece hpiece)).trans (List.map_id pieces)
    have hempty : (spaces n).trim = [] := trim_eq_nil.2 (allBlank_spaces n)
    have hsecond : ∀ row : List (Text × Text), secondText row = ((row.map Prod.snd).map trim).flatten := by
      intro row
      rw [List.map_map]
      exact List.flatMap_def
    rw [hsecond, List.map_snd_zip (by rw [hnames, hactions]), padded, List.map_append, hpieces, List.map_replicate, hempty,
      List.flatten_append]
    simp

/-- a row that can be drawn has three cells that can be cut into lines -/
theorem rowLines_files {x y z : Text} (h : rowLines screen false (columnsOf a n o) [x, y, z] = .ok lines) :
    ∃ actions names owners, cellLines screen a .ellipsis x = .ok actions ∧ cellLines screen n .fold y = .ok names ∧
      cellLines screen o .ellipsis z = .ok owners ∧ lines = rowOf false (columnsOf a n o) [actions, names, owners] := by
  obtain ⟨cells, hcells, rfl⟩ := rowLines_eq_ok.1 h
  obtain ⟨actions, behind, hactions, hbehind, rfl⟩ := List.forall₂_cons_left_iff.1 (Listing.mapM_eq_ok.1 hcells)
  obtain ⟨names, last, hnames, hlast, rfl⟩ := List.forall₂_cons_left_iff.1 hbehind
  obtain ⟨owners, none, howners, hnone, rfl⟩ := List.forall₂_cons_left_iff.1 hlast
  obtain rfl := List.forall₂_nil_left_iff.1 hnone
  exact ⟨actions, names, owners, hactions, hnames, howners, rfl⟩

/-- **Reading a row.** All of its lines are lines of rows, and they show what the name shows as markup. -/
theorem read_row {f : NamedFile} (ha : 10 ≤ a) (hn : 6 ≤ n) (ho : 12 ≤ o) (hfit : a + n + 3 ≤ width)
    (h : rowLines screen false (columnsOf a n o) f.row = .ok lines) :
    ∃ shown, Markup.render screen f.name = .ok shown ∧ (∀ l ∈ lines, isRowLine (clip width l) = true) ∧
      ShowsName shown (lines.map (leadingCells ∘ clip width)) := by
  obtain ⟨actions, names, owners, hactions, hnames, howners, rfl⟩ := rowLines_files h
  obtain ⟨hword, hlabelPrint, hshort⟩ := isWord_label f.action
  obtain rfl : actions = [cellLine a f.action.name] :=
    cellLines_short (by omega) (styledAs_label screen f.action) hlabelPrint (by show f.action.name.length ≤ a - 2; omega) hactions
  obtain ⟨s, hread⟩ := ((exists_cellLines (by omega : 3 ≤ n)).1 ⟨names, hnames⟩).legible
  -- the name shows some of its own characters, so it is a word, and folding it only cuts it
  have hsub := Markup.read_sublist (f.isName.codeless screen) hread
  have hprint : Printable s.text := f.isName.printable.sublist hsub
  have hblank : ∀ c ∈ s.text, isBlank c = false := fun c hc => f.isName.no_blank c (hsub.subset hc)
  obtain ⟨pieces, hflat, hfits, rfl⟩ := cellLines_word (by omega : 3 ≤ n) hread hprint hblank hnames
  rw [← hflat] at hprint hblank
  have hactionFills : Fills a [cellLine a f.action.name] :=
    fills_cellLine (by omega) (List.forall_mem_singleton.2 hlabelPrint) (List.forall_mem_singleton.2 (by omega))
  have hnameFills : Fills n (pieces.map (cellLine n)) :=
    fills_cellLine (by omega : 3 ≤ n) (fun piece hpiece => hprint.sublist (List.sublist_flatten_of_mem hpiece)) hfits
  obtain ⟨height, hpos, -, hheight, hlines, hcells⟩ :=
    read_rowOf hactionFills hnameFills (head_cellLines (by omega : 3 ≤ o) howners) (by omega : 0 < o) hfit
  rw [List.length_map] at hheight
  refine ⟨pieces.flatten, Markup.render_eq_ok.2 ⟨s, hread, hflat.symm⟩, hlines, ?_⟩
  rw [hcells]
  exact showsName_zip hword (fun piece hpiece c hc => hblank c (List.mem_flatten.2 ⟨piece, hpiece, hc⟩)) hpos hheight

/-! ## A whole table -/

/-- the lines of the rows are found in front of the last border -/
theorem bodyLines_eq {out : Text} {front body back : List Text} {border : Text}
    (hout : cutAt (· = '\n') out = front ++ border :: (body ++ back)) (hborder : isRowLine border = false) (hne : body ≠ [])
    (hbody : ∀ l ∈ body, isRowLine l = true) (hback : ∀ l ∈ back, isRowLine l = false) : bodyLines out = body := by
  obtain ⟨l, ls, hreverse⟩ := List.exists_cons_of_ne_nil (List.reverse_ne_nil_iff.2 hne)
  have hlast : isRowLine l = true := hbody l (List.mem_reverse.1 (hreverse ▸ List.mem_cons_self))
  have hdrop : (cutAt (· = '\n') out).rdropWhile (fun l => !isRowLine l) = front ++ border :: body := by
    have hskip : ∀ l ∈ back.reverse, (!isRowLine l) = true := fun l hl => by rw [hback l (List.mem_reverse.1 hl)]; rfl
    have hparts : (cutAt (· = '\n') out).reverse = back.reverse ++ (l :: ls ++ border :: front.reverse) := by
      rw [hout, ← hreverse]
      simp
    rw [List.rdropWhile, hparts, List.dropWhile_append_of_pos hskip, List.cons_append,
      List.dropWhile_cons_of_neg (by simp [hlast]), ← List.cons_append, ← hreverse]
    simp
  have hall : ∀ l ∈ body.reverse, isRowLine l = true := fun l hl => hbody l (List.mem_reverse.1 hl)
  rw [bodyLines, hdrop, List.rtakeWhile, List.reverse_append, List.reverse_cons, List.append_assoc,
    List.takeWhile_append_of_pos hall]
  simp [hborder]

theorem isRowLine_border {r : Rule} (h : '│' ∉ [r.left, r.line, r.crossing, r.right]) (ws : List Nat) :
    isRowLine (clip width (r.draw ws)) = false := by
  refine decide_eq_false fun hhead => ?_
  rcases mem_clip (List.mem_of_head? hhead) with hmem | hspace
  · exact h (mem_draw hmem)
  · exact absurd hspace (by decide)

/-- the lines of the rows of a table with a header are found in what is printed of it -/
theorem bodyLines_print {out : Text} {ws : List Nat} {heading header : List Text} {rows : List (List Text)}
    (hout : cutAt (· = '\n') out = (linesOf ws heading header rows).map (clip width) ++ [[]]) (hne : rows.flatten ≠ [])
    (hrows : ∀ l ∈ rows.flatten, isRowLine (clip width l) = true) : bodyLines out = rows.flatten.map (clip width) := by
  have hparts : cutAt (· = '\n') out = (heading ++ headTop.draw ws :: header).map (clip width) ++
      clip width (headBottom.draw ws) :: (rows.flatten.map (clip width) ++ [clip width (bottom.draw ws), []]) := by
    rw [hout, linesOf]
    simp
  have hback : ∀ l ∈ [clip width (bottom.draw ws), []], isRowLine l = false := by
    simp only [List.forall_mem_cons]
    exact ⟨isRowLine_border (by decide) ws, rfl, List.forall_mem_nil _⟩
  exact bodyLines_eq hparts (isRowLine_border (by decide) ws) (by simpa using hne) (List.forall_mem_map.2 hrows) hback

/-- rows that show names, one after the other, are parted again -/
theorem splitBy_rows {rows : List (List (Text × Text))} (h : ∀ row ∈ rows, ∃ shown, ShowsName shown row) :
    rows.flatten.splitBy (fun _ next => next.1.allBlank) = rows := by
  have hbegins : ∀ row ∈ rows, ∃ first rest, row = first :: rest ∧ first.1.allBlank = false ∧
      ∀ cells ∈ rest, cells.1.allBlank = true := fun row hrow => (h row hrow).elim fun _ hshows => hshows.begins
  refine List.splitBy_flatten ?_ ?_ ?_
  · intro hnil
    obtain ⟨first, rest, hrow, -⟩ := hbegins [] hnil
    cases hrow
  · intro row hrow
    obtain ⟨first, rest, rfl, -, hrest⟩ := hbegins row hrow
    exact (List.pairwise_cons.2 ⟨hrest, List.pairwise_of_forall_mem_list fun _ _ cells hcells => hrest cells hcells⟩).isChain
  · refine (List.pairwise_of_forall_mem_list fun row hrow next hnext => ?_).isChain
    obtain ⟨first, rest, rfl, -, -⟩ := hbegins row hrow
    obtain ⟨first', rest', rfl, hfirst, -⟩ := hbegins next hnext
    exact ⟨List.cons_ne_nil _ _, List.cons_ne_nil _ _, hfirst⟩

/-- a file can be shown in a table with columns of these widths -/
structure Showable (screen : Screen) (n o : Nat) (f : NamedFile) : Prop where
  name : ShowableIn screen (n - 2) .fold .left f.name
  owner : ShowableIn screen (o - 2) .ellipsis .left f.ownerCell

/-- the cells of a row of a file can be shown if its name and its owner can -/
theorem showable_row (f : NamedFile) :
    (∀ x ∈ (columnsOf a n o).zip f.row, ShowableIn screen (x.1.2 - 2) x.1.1.overflow .left x.2) ↔ Showable screen n o f := by
  have hlabel : ShowableIn screen (a - 2) .ellipsis .left f.action.label :=
    showableIn_of_read (styledAs_label screen f.action)
      (List.forall_mem_singleton.2 (styleWord_colour f.action).readable) (a - 2) .ellipsis .left
  simp only [columnsOf, NamedFile.row, List.zip_cons_cons, List.zip_nil_right, List.forall_mem_cons]
  exact ⟨fun ⟨_, hname, howner, _⟩ => ⟨hname, howner⟩, fun h => ⟨hlabel, h.name, h.owner, List.forall_mem_nil _⟩⟩

theorem wide_columnsOf (ha : 10 ≤ a) (hn : 6 ≤ n) (ho : 12 ≤ o) : ∀ c ∈ columnsOf a n o, 3 ≤ c.2 := by
  simp only [columnsOf, List.forall_mem_cons]
  exact ⟨by omega, by omega, by omega, List.forall_mem_nil _⟩

theorem exists_rows (ha : 10 ≤ a) (hn : 6 ≤ n) (ho : 12 ≤ o) :
    (∃ rows, (files.map NamedFile.row).mapM (rowLines screen false (columnsOf a n o)) = .ok rows) ↔
      ∀ f ∈ files, Showable screen n o f := by
  rw [Listing.exists_mapM_iff, List.forall_mem_map]
  exact forall₂_congr fun f _ => (exists_rowLines (wide_columnsOf ha hn ho)).trans (showable_row f)

def tableOf (title : Text) (files : List NamedFile) : Table := changeTable title (files.map NamedFile.row)

/-- **When a table of files can be printed.** The tags of its names have to be such that the columns have widths, and title, names
and what stands for the owners have to be markup that can be shown in them. -/
theorem exists_print (hwidth : 40 ≤ screen.width) :
    (∃ out, (tableOf title files).print screen = .ok out) ↔
      ∃ a n o, (tableOf title files).columnWidths screen (screen.width - 4) = .ok [a, n, o] ∧
        ShowableIn screen (a + n + o + 4) .fold .centre title ∧ ∀ f ∈ files, Showable screen n o f := by
  have hroom : 36 ≤ screen.width - 4 := by omega
  have htotal : ∀ a n o, total [a, n, o] + 4 = a + n + o + 4 := by
    intro a n o
    simp only [total, List.foldr_cons, List.foldr_nil]
    omega
  constructor
  · rintro ⟨out, hout⟩
    obtain ⟨ws, ls, header, rows, hdrawn, -⟩ := print_lines rfl (by omega) hout
    obtain ⟨a, n, o, rfl, ha, hn, ho, -⟩ := columnWidths_bounds hroom hdrawn.widths
    refine ⟨a, n, o, hdrawn.widths, ?_, (exists_rows ha hn ho).1 ⟨rows, hdrawn.rows⟩⟩
    rw [← htotal]
    exact (exists_titleLines screen _ title).1 ⟨ls, hdrawn.title⟩
  · rintro ⟨a, n, o, hws, htitle, hfiles⟩
    obtain ⟨a', n', o', hall, ha, hn, ho, -⟩ := columnWidths_bounds hroom hws
    obtain ⟨rfl, rfl, rfl⟩ : a = a' ∧ n = n' ∧ o = o' := by simpa using hall
    rw [← htotal] at htitle
    obtain ⟨ls, hls⟩ := (exists_titleLines screen (total [a, n, o] + 4) title).2 htitle
    obtain ⟨rows, hrows⟩ := (exists_rows ha hn ho).2 hfiles
    have hheader : ∀ x ∈ (columnsOf a n o).zip ["Action".toList, "File".toList, "Commit".toList],
        ShowableIn screen (x.1.2 - 2) x.1.1.overflow .left x.2 := by
      have hbare : ∀ t ∈ ["Action".toList, "File".toList, "Commit".toList], '[' ∉ t := by decide
      exact fun x hx => showableIn_unmarked (Markup.unmarked_bracketless (hbare _ (List.of_mem_zip hx).2)) _ _ _ _
    obtain ⟨header, hheader⟩ : ∃ header, rowLines screen true (columnsOf a n o) ["Action", "File", "Commit"] = .ok header :=
      (exists_rowLines (wide_columnsOf ha hn ho)).2 hheader
    have hdrawn : Drawn screen (tableOf title files) [a, n, o] ls header rows := ⟨hws, hls, hheader, hrows⟩
    exact ⟨_, (Table.print_eq_ok (by omega)).2 ⟨_, (draw_eq_ok rfl).2 ⟨_, _, _, _, hdrawn, rfl⟩, rfl⟩⟩

/-- **Reading a table of files** gives what each name shows as markup, in their order. -/
theorem shownNames_eq (hwidth : 40 ≤ screen.width) (hfiles : files ≠ []) {out : Text}
    (hout : (tableOf title files).print screen = .ok out) :
    (files.map NamedFile.name).mapM (Markup.render screen) = .ok (shownNames out) := by
  obtain ⟨ws, ls, header, rows, hdrawn, hcut⟩ := print_lines rfl (by omega) hout
  obtain ⟨a, n, o, rfl, ha, hn, ho, hfit⟩ := columnWidths_bounds (by show 36 ≤ screen.width - 4; omega) hdrawn.widths
  have hfit' : a + n + 3 ≤ screen.width := by
    have hroom : a + n + o ≤ screen.width - 4 := hfit
    omega
  have hread : List.Forall₂ (fun (f : NamedFile) lines => ∃ shown, Markup.render screen f.name = .ok shown ∧
      (∀ l ∈ lines, isRowLine (clip screen.width l) = true) ∧
      ShowsName shown (lines.map (leadingCells ∘ clip screen.width))) files rows :=
    (List.forall₂_map_left_iff.1 (Listing.mapM_eq_ok.1 hdrawn.rows)).imp fun f lines h => read_row ha hn ho hfit' h
  have hrow : ∀ lines ∈ rows, (∀ l ∈ lines, isRowLine (clip screen.width l) = true) ∧
      ∃ shown, ShowsName shown (lines.map (leadingCells ∘ clip screen.width)) := by
    intro lines hlines
    obtain ⟨f, -, shown, -, hbody, hshows⟩ := Listing.mem_of_forall₂ hread hlines
    exact ⟨hbody, shown, hshows⟩
  have hne : rows.flatten ≠ [] := by
    obtain ⟨f, files, rfl⟩ := List.exists_cons_of_ne_nil hfiles
    obtain ⟨lines, rest, ⟨shown, -, -, hshows⟩, -, rfl⟩ := List.forall₂_cons_left_iff.1 hread
    obtain ⟨first, more, hlines, -⟩ := hshows.begins
    intro hnil
    rw [(List.append_eq_nil_iff.1 hnil).1] at hlines
    cases hlines
  have hbody : bodyLines out = rows.flatten.map (clip screen.width) := by
    refine bodyLines_print hcut hne fun l hl => ?_
    obtain ⟨lines, hlines, hmem⟩ := List.mem_flatten.1 hl
    exact (hrow lines hlines).1 l hmem
  have hrows : bodyRows out = rows.map (List.map (leadingCells ∘ clip screen.width)) := by
    rw [bodyRows, hbody, List.map_map, List.map_flatten]
    exact splitBy_rows (List.forall_mem_map.2 fun lines hlines => (hrow lines hlines).2)
  rw [Listing.mapM_eq_ok, List.forall₂_map_left_iff, shownNames, hrows, List.map_map, List.forall₂_map_right_iff]
  refine hread.imp fun f lines h => ?_
  obtain ⟨shown, hshown, -, hshows⟩ := h
  rw [hshown, Function.comp_apply, hshows.name]

/-- **A table of changed files** is printed if the tags of its names leave the columns their widths, and if its title, the names
and what stands for their owners are markup that can be shown in these; only a fault in this markup keeps it from being printed.
It has one row for each file, in their order, from which one reads what the name shows as markup; and the names are read as they
are only if none of them holds markup. So names without markup lose nothing, wherever they are folded, and are always printed
next to a title and owners without markup. -/
theorem names_in_table (hwidth : 40 ≤ screen.width) (hfiles : files ≠ []) (title : Text) :
    ((∃ out, Display.files screen (files.map NamedFile.toFile) title .table = .ok out) ↔
        ∃ a n o, (tableOf title files).columnWidths screen (screen.width - 4) = .ok [a, n, o] ∧
          ShowableIn screen (a + n + o + 4) .fold .centre title ∧ ∀ f ∈ files, Showable screen n o f) ∧
      (∀ e, Display.files screen (files.map NamedFile.toFile) title .table = .error e → ∃ fault, e = .markup fault) ∧
      (∀ out, Display.files screen (files.map NamedFile.toFile) title .table = .ok out →
        (files.map NamedFile.name).mapM (Markup.render screen) = .ok (shownNames out) ∧
          (shownNames out = files.map NamedFile.name ↔ ∀ f ∈ files, Markup.Unmarked f.name)) ∧
      (Markup.Unmarked title → (∀ f ∈ files, Markup.Unmarked f.name ∧ Markup.Unmarked f.ownerCell) →
        ∃ out, Display.files screen (files.map NamedFile.toFile) title .table = .ok out ∧
          shownNames out = files.map NamedFile.name) := by
  rw [files_table hfiles]
  simp only [Listing.mapError_eq_ok, Listing.mapError_eq_error]
  have hread : ∀ out, (tableOf title files).print screen = .ok out →
      (files.map NamedFile.name).mapM (Markup.render screen) = .ok (shownNames out) ∧
        (shownNames out = files.map NamedFile.name ↔ ∀ f ∈ files, Markup.Unmarked f.name) := by
    intro out hout
    have hshown := shownNames_eq hwidth hfiles hout
    refine ⟨hshown, ?_⟩
    calc shownNames out = files.map NamedFile.name
        ↔ (files.map NamedFile.name).mapM (Markup.render screen) = .ok (files.map NamedFile.name) := by
          rw [hshown, Except.ok.injEq]
      _ ↔ ∀ f ∈ files, Markup.render screen f.name = .ok f.name := by
          rw [Listing.mapM_eq_ok, List.forall₂_same, List.forall_mem_map]
      _ ↔ ∀ f ∈ files, Markup.Unmarked f.name := forall₂_congr fun f _ => f.isName.render_self
  refine ⟨exists_print hwidth, fun _ ⟨fault, _, he⟩ => ⟨fault, he⟩, hread, fun htitle hnames => ?_⟩
  have hroom : 36 ≤ screen.width - 4 := by omega
  have hlegible : ∀ row ∈ files.map NamedFile.row, Legible screen (nameCell row) :=
    List.forall_mem_map.2 fun f hf => (showableIn_unmarked (hnames f hf).1 screen 0 .fold .left).legible
  obtain ⟨ws, hws⟩ : ∃ ws, (tableOf title files).columnWidths screen (screen.width - 4) = .ok ws :=
    (exists_columnWidths hroom).2 hlegible
  obtain ⟨a, n, o, rfl, -⟩ := columnWidths_bounds hroom hws
  obtain ⟨out, hout⟩ := (exists_print hwidth).2 ⟨a, n, o, hws, showableIn_unmarked htitle _ _ _ _, fun f hf =>
    ⟨showableIn_unmarked (hnames f hf).1 _ _ _ _, showableIn_unmarked (hnames f hf).2 _ _ _ _⟩⟩
  exact ⟨out, hout, (hread out hout).2.2 fun f hf => (hnames f hf).1⟩

/-- a name that is folded into three pieces -/
theorem names_in_table_folded :
    let f : NamedFile := ⟨"src/components/navigation/menu.tsx", .modify, some "0123456789abcdef", by decide⟩
    40 ≤ (Screen.plain 40).width ∧ [f] ≠ [] ∧
      ∃ out, Display.files (.plain 40) [f.toFile] "Changes" .table = .ok out ∧ shownNames out = [f.name] := by
  intro f
  have hunmarked : ∀ g ∈ [f], Markup.Unmarked g.name ∧ Markup.Unmarked g.ownerCell :=
    List.forall_mem_singleton.2 ⟨Markup.unmarked_bracketless (by decide), Markup.unmarked_bracketless (by decide)⟩
  have hwidth : 40 ≤ (Screen.plain 40).width := le_rfl
  exact ⟨hwidth, List.cons_ne_nil f [],
    (names_in_table hwidth (List.cons_ne_nil f []) "Changes").2.2.2
      (Markup.unmarked_bracketless (by decide)) hunmarked⟩

/-- a part of a name that looks like a tag is lost, and a name that looks like the end of one cannot be printed, nor one that
names a colour without numbers -/
theorem names_lost_in_table :
    let f : Text → File := fun name => ⟨.text name, .modify, .null⟩
    FileName "pages/[id].tsx" ∧ FileName "[/x]" ∧ FileName "[rgb(,,)]" ∧
      (∃ out, Display.files (.plain 80) [f "pages/[id].tsx"] "Changes" .table = .ok out ∧ shownNames out = ["pages/.tsx"]) ∧
      Display.files (.plain 80) [f "[/x]"] "Changes" .table = .error (.markup (.unmatched "[/x]" 0)) ∧
      Display.files (.plain 80) [f "[rgb(,,)]"] "Changes" .table = .error (.markup (.style .noDigits)) := by
  intro f
  have hlost : (Display.files (.plain 80) [f "pages/[id].tsx"] "Changes" .table).toOption.map shownNames =
      some ["pages/.tsx".toList] := by
    decide +kernel
  obtain ⟨out, hout, hnames⟩ := Option.map_eq_some_iff.1 hlost
  have hprint : ∀ name : Text, Display.files (.plain 80) [f name] "Changes" .table =
      ((changeTable "Changes" [[Action.modify.label, name, []]]).print (.plain 80)).mapError .markup := fun _ => rfl
  have hclosing : (changeTable "Changes" [[Action.modify.label, "[/x]", []]]).print (.plain 80) =
      .error (.unmatched "[/x]" 0) := by decide +kernel
  have hcolour : (changeTable "Changes" [[Action.modify.label, "[rgb(,,)]", []]]).print (.plain 80) =
      .error (.style .noDigits) := by decide +kernel
  exact ⟨by decide, by decide, by decide, ⟨out, ok_of_toOption hout, hnames⟩, by rw [hprint, hclosing]; rfl,
    by rw [hprint, hcolour]; rfl⟩

end RepoLens.Display
