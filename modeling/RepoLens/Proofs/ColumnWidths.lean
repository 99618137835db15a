import Mathlib.Tactic
import RepoLens.Display
import RepoLens.Proofs.Listing
import RepoLens.Proofs.Unmarked
/-!
The widths of the columns in a table of changed files. The columns of the change and of the commit ask for what is set for them,
the one of the file name for its longest line. If that is too much, the one of the file name alone gives way; if there is room
left, it is shared out, and the last share takes what is left over by rounding. So the widths never go beyond the console, and
every column keeps room for its text. Asking for the widths reads every file name once, and fails if its tags cannot be read.

Results:
- `total_shareOut`, `le_shareOut`: sharing out takes up exactly the room, and makes no column narrower;
- `exists_columnWidths`, `columnWidths_bounds`: when the columns of a table of files have widths, and what these are.
-/
namespace RepoLens.Console

/-- markup whose tags can be read -/
def Legible (screen : Screen) (markup : Text) : Prop := ∃ s, Markup.read screen markup = .ok s

theorem legible_bracketless {t : Text} (h : '[' ∉ t) (screen : Screen) : Legible screen t :=
  ⟨_, Markup.read_bracketless h screen⟩

namespace Table

/-! ## Sharing out -/

/-- a share of room is never more than the room -/
theorem share_le (room : Nat) {w weight : Nat} (h : w ≤ weight) : (w * room + weight - 1) / weight ≤ room := by
  rcases Nat.eq_zero_or_pos weight with rfl | hpos
  · simp
  · refine Nat.le_of_lt_succ (Nat.div_lt_of_lt_mul ?_)
    have hmul : w * room ≤ weight * room := Nat.mul_le_mul_right room h
    rw [Nat.mul_succ]
    omega

/-- the last one gets all that is left -/
theorem share_all {w room : Nat} (hw : 0 < w) : (w * room + w - 1) / w = room := by
  refine le_antisymm (share_le room le_rfl) ((Nat.le_div_iff_mul_le hw).2 ?_)
  rw [Nat.mul_comm]
  omega

/-- **Sharing out takes up the room**, to the last cell. -/
theorem total_shareOut (room : Nat) {ws : List Nat} (hne : ws ≠ []) :
    total (shareOut room (total ws) ws) = total ws + room := by
  induction ws generalizing room with
  | nil => exact absurd rfl hne
  | cons w ws ih =>
    have htotal : total (w :: ws) = w + total ws := rfl
    rw [shareOut, htotal, Nat.add_sub_cancel_left]
    cases ws with
    | nil =>
      have hnil : total [] = 0 := rfl
      rw [shareOut, hnil, Nat.add_zero]
      split_ifs with hzero
      · rfl
      · rw [share_all (Nat.pos_of_ne_zero hzero)]
        rfl
    | cons v ws =>
      split_ifs with hzero
      · rw [Nat.sub_self]
        show w + room + total _ = _
        rw [ih 0 (List.cons_ne_nil v ws)]
        omega
      · have hshare := share_le room (Nat.le_add_right w (total (v :: ws)))
        show w + _ + total _ = _
        rw [ih _ (List.cons_ne_nil v ws)]
        omega

theorem le_shareOut (room weight : Nat) (ws : List Nat) : List.Forall₂ (· ≤ ·) ws (shareOut room weight ws) := by
  induction ws generalizing room weight with
  | nil => exact .nil
  | cons w ws ih => exact .cons (Nat.le_add_right _ _) (ih _ _)

/-- where there is nothing to take, nothing is taken -/
theorem reduceEvenly_zero (count : Nat) (ws : List Nat) : reduceEvenly 0 count ws = ws := by
  have hround : ∀ n, roundHalfEven 0 n = 0 := by
    intro n
    simp [roundHalfEven]
  induction ws generalizing count with
  | nil => rfl
  | cons w ws ih =>
    simp [reduceEvenly, hround, ih]

/-! ## What a column asks for -/

theorem le_foldl_max {ws : List Nat} {w : Nat} (h : w ∈ ws) (least : Nat) : w ≤ ws.foldl max least := by
  have hleast : ∀ (ws : List Nat) (least : Nat), least ≤ ws.foldl max least := by
    intro ws
    induction ws with
    | nil => exact fun _ => le_rfl
    | cons v ws ih => exact fun least => (le_max_left least v).trans (ih _)
  induction ws generalizing least with
  | nil => exact absurd h List.not_mem_nil
  | cons v ws ih =>
    rcases List.mem_cons.1 h with rfl | h
    · exact (le_max_right least w).trans (hleast ws _)
    · exact ih h _

variable {screen : Screen}

theorem legible_iff_longestLine {m : Text} : Legible screen m ↔ ∃ n, longestLine screen m = .ok n := by
  unfold Legible longestLine Markup.render
  cases Markup.read screen m with
  | error e => simp [bind, Except.bind, Functor.map, Except.map]
  | ok s => simp [bind, Except.bind, Functor.map, Except.map, pure, Except.pure]

variable {room : Nat} {column : Column} {cells : List Text}

theorem cellWidth_eq_ok (hroom : 3 ≤ room) {m : Text} {w : Nat} :
    cellWidth screen room m = .ok w ↔ ∃ n, longestLine screen m = .ok n ∧ w = min room (n + 2) := by
  rw [cellWidth, if_neg (by omega), bind_eq_ok]
  exact exists_congr fun n => and_congr_right fun _ => pure_eq_ok

/-- a column with a set width asks for that, whatever its cells are -/
theorem columnWidth_set (hroom : 0 < room) {w : Nat} (hc : column.width = some w) :
    columnWidth screen room column cells = .ok (min room (w + 2)) := by
  rw [columnWidth, if_neg (by omega), hc]
  rfl

theorem columnWidth_free (hroom : 3 ≤ room) (hc : column.width = none) (hcells : cells ≠ []) {w : Nat} :
    columnWidth screen room column cells = .ok w ↔
      ∃ ws, List.Forall₂ (fun m v => cellWidth screen room m = .ok v) cells ws ∧ w = min room (ws.foldl max 0) := by
  rw [columnWidth, if_neg (by omega), hc]
  simp only [bind_eq_ok, Listing.mapM_eq_ok]
  refine exists_congr fun ws => and_congr_right fun hws => ?_
  have hne : ws.isEmpty = false := by
    rw [List.isEmpty_eq_false_iff, ← List.length_pos_iff, ← hws.length_eq, List.length_pos_iff]
    exact hcells
  rw [hne]
  exact pure_eq_ok

/-- any other column has a width if all of its cells can be shown -/
theorem exists_columnWidth_free (hroom : 3 ≤ room) (hc : column.width = none) (hcells : cells ≠ []) :
    (∃ w, columnWidth screen room column cells = .ok w) ↔ ∀ m ∈ cells, Legible screen m := by
  have hwidths : ∀ m, (∃ w, cellWidth screen room m = .ok w) ↔ Legible screen m := by
    intro m
    simp only [cellWidth_eq_ok hroom, legible_iff_longestLine]
    exact ⟨fun ⟨_, n, hn, _⟩ => ⟨n, hn⟩, fun ⟨n, hn⟩ => ⟨_, n, hn, rfl⟩⟩
  simp only [columnWidth_free hroom hc hcells, ← Listing.mapM_eq_ok, ← hwidths]
  rw [← Listing.exists_mapM_iff]
  exact ⟨fun ⟨_, ws, hws, _⟩ => ⟨ws, hws⟩, fun ⟨ws, hws⟩ => ⟨_, ws, hws, rfl⟩⟩

/-- it has room for each of its cells if there is enough, and never more than there is -/
theorem columnWidth_free_bounds (hroom : 3 ≤ room) (hc : column.width = none) {w : Nat} {m : Text} {n : Nat}
    (h : columnWidth screen room column cells = .ok w) (hm : m ∈ cells) (hn : longestLine screen m = .ok n) :
    min room (n + 2) ≤ w ∧ w ≤ room := by
  obtain ⟨ws, hws, rfl⟩ := (columnWidth_free hroom hc (List.ne_nil_of_mem hm)).1 h
  obtain ⟨v, hv, hcell⟩ := Listing.mem_of_forall₂ hws.flip hm
  obtain ⟨n', hn', rfl⟩ := (cellWidth_eq_ok hroom).1 hcell
  obtain rfl : n = n' := Except.ok.inj (hn.symm.trans hn')
  exact ⟨le_min (min_le_left _ _) (le_foldl_max hv 0), min_le_left _ _⟩

end Table

end RepoLens.Console

namespace RepoLens.Display

open Console Console.Table

/-! ## The table of files -/

/-- a table of changed files with some rows: the change, the file, the commit -/
def changeTable (title : Text) (rows : List (List Text)) : Table :=
  ⟨title, [actionColumn, fileColumn, commitColumn], rows, true, true⟩

def nameCell (row : List Text) : Text := row[1]?.getD []

variable {screen : Screen} {title : Text} {rows : List (List Text)} {room : Nat}

/-- the cells of the file names, with their header -/
def nameCells (rows : List (List Text)) : List Text := "File".toList :: rows.map nameCell

theorem legible_nameCells : (∀ m ∈ nameCells rows, Legible screen m) ↔ ∀ row ∈ rows, Legible screen (nameCell row) := by
  have hheader : Legible screen "File" := legible_bracketless (by decide) screen
  rw [nameCells, List.forall_mem_cons, List.forall_mem_map, and_iff_right hheader]

/-- the width that the file names ask for -/
def nameWidth (screen : Screen) (rows : List (List Text)) (room : Nat) : Except MarkupFault Nat :=
  columnWidth screen room fileColumn (nameCells rows)

theorem exists_nameWidth (hroom : 3 ≤ room) :
    (∃ w, nameWidth screen rows room = .ok w) ↔ ∀ row ∈ rows, Legible screen (nameCell row) := by
  rw [← legible_nameCells]
  exact exists_columnWidth_free hroom rfl (List.cons_ne_nil _ _)

/-- there is always room for the header -/
theorem nameWidth_bounds (hroom : 3 ≤ room) {w : Nat} (h : nameWidth screen rows room = .ok w) : min room 6 ≤ w ∧ w ≤ room :=
  columnWidth_free_bounds (m := "File") (n := 4) hroom rfl h List.mem_cons_self rfl

/-- three widths, for a change, a file name and a commit: each column has room for its text, and together they fit -/
structure Widths (room : Nat) (ws : List Nat) (a n o : Nat) : Prop where
  all : ws = [a, n, o]
  action : 10 ≤ a
  name : 6 ≤ n
  owner : 12 ≤ o
  fit : a + n + o ≤ room

/-- room that is left is shared out -/
theorem widths_shareOut {w : Nat} (hw : 6 ≤ w) (hfit : 22 + w ≤ room) :
    ∃ a n o, Widths room (shareOut (room - (22 + w)) (total [10, w, 12]) [10, w, 12]) a n o := by
  have hsum := total_shareOut (room - (22 + w)) (List.cons_ne_nil 10 [w, 12])
  have hle := le_shareOut (room - (22 + w)) (total [10, w, 12]) [10, w, 12]
  generalize shareOut (room - (22 + w)) (total [10, w, 12]) [10, w, 12] = ws at hsum hle ⊢
  obtain ⟨a, ws, ha, hrest, rfl⟩ := List.forall₂_cons_left_iff.1 hle
  obtain ⟨n, ws, hn, hlast, rfl⟩ := List.forall₂_cons_left_iff.1 hrest
  obtain ⟨o, ws, ho, hnil, rfl⟩ := List.forall₂_cons_left_iff.1 hlast
  obtain rfl := List.forall₂_nil_left_iff.1 hnil
  simp only [total, List.foldr_cons, List.foldr_nil, Nat.add_zero] at hsum
  exact ⟨a, n, o, rfl, ha, hw.trans hn, ho, by omega⟩

/-- if too much is asked for, the file names give way as far as they have to -/
theorem reduceFree_names {w : Nat} (hroom : 36 ≤ room) (hmost : w ≤ room) (hmuch : room < 22 + w) :
    reduceFree (22 + w - room) [(10, false), (w, true), (12, false)] = [10, room - 22, 12] := by
  have hleft : w - min w (22 + w - room) = room - 22 := by omega
  simp [reduceFree, hleft]

/-- the widths by the width that the file names ask for: if it is too much they ask once more, and else room that is left is
shared out -/
theorem columnWidths_changeTable (hroom : 36 ≤ room) :
    (changeTable title rows).columnWidths screen room = nameWidth screen rows room >>= fun w =>
      if room < 22 + w then (nameWidth screen rows (room - 22)).map fun v => [10, v, 12]
      else .ok (if 22 + w < room then shareOut (room - (22 + w)) (total [10, w, 12]) [10, w, 12] else [10, w, 12]) := by
  obtain ⟨actions, owners, hcells⟩ : ∃ actions owners, (changeTable title rows).cellsOf =
      [(actionColumn, actions), (fileColumn, nameCells rows), (commitColumn, owners)] := ⟨_, _, rfl⟩
  have haction : ∀ room, 10 ≤ room → columnWidth screen room actionColumn actions = .ok 10 := by
    intro room h
    rw [columnWidth_set (by omega) rfl, Nat.min_eq_right h]
  have howner : ∀ room, 12 ≤ room → columnWidth screen room commitColumn owners = .ok 12 := by
    intro room h
    rw [columnWidth_set (by omega) rfl, Nat.min_eq_right h]
  have hasked : ∀ room, columnWidth screen room fileColumn (nameCells rows) = nameWidth screen rows room := fun _ => rfl
  have hfree : (changeTable title rows).columns.map (fun c => c.width.isNone) = [false, true, false] := rfl
  have hexpand : (changeTable title rows).expand = true := rfl
  rw [columnWidths, hcells, hfree, hexpand]
  simp only [List.mapM_cons, List.mapM_nil, haction room (by omega), howner room (by omega), hasked]
  cases hname : nameWidth screen rows room with
  | error e => rfl
  | ok w =>
    obtain ⟨hleast, hmost⟩ := nameWidth_bounds (by omega) hname
    have htotal : ∀ v, total [10, v, 12] = 22 + v := by
      intro v
      simp only [total, List.foldr_cons, List.foldr_nil]
      omega
    have hmax : [max 1 10, max 1 w, max 1 12] = [10, w, 12] := by
      rw [Nat.max_eq_right (by omega : 1 ≤ w)]
      rfl
    have hzip : [10, w, 12].zip [false, true, false] = [(10, false), (w, true), (12, false)] := rfl
    simp only [bind, Except.bind, pure, Except.pure, hmax, htotal, hzip]
    by_cases hmuch : room < 22 + w
    · have hnone : 22 + (room - 22) - room = 0 := by omega
      have hfull : ¬ 22 + (room - 22) < room := by omega
      simp only [if_pos hmuch, reduceFree_names hroom hmost hmuch, htotal, hnone, reduceEvenly_zero, hfull, decide_false,
        Bool.false_and, Bool.false_eq_true, if_false, List.zip_cons_cons, List.zip_nil_right, List.mapM_cons, List.mapM_nil,
        haction 10 le_rfl, howner 12 le_rfl, hasked, bind, Except.bind, pure, Except.pure]
      cases nameWidth screen rows (room - 22) <;> rfl
    · simp only [if_neg hmuch, Bool.and_true, decide_eq_true_eq]

/-- **The columns have widths** if the tags of every file name can be read. -/
theorem exists_columnWidths (hroom : 36 ≤ room) :
    (∃ ws, (changeTable title rows).columnWidths screen room = .ok ws) ↔ ∀ row ∈ rows, Legible screen (nameCell row) := by
  rw [columnWidths_changeTable hroom, ← exists_nameWidth (by omega : 3 ≤ room)]
  constructor
  · rintro ⟨ws, hws⟩
    obtain ⟨w, hw, -⟩ := bind_eq_ok.1 hws
    exact ⟨w, hw⟩
  · rintro ⟨w, hw⟩
    obtain ⟨v, hv⟩ := (exists_nameWidth (by omega : 3 ≤ room - 22)).2 ((exists_nameWidth (by omega)).1 ⟨w, hw⟩)
    simp only [hw, hv, bind, Except.bind, Except.map]
    split_ifs <;> exact ⟨_, rfl⟩

/-- **What the widths are.** Each column has room for its text, and together they fit into the console. -/
theorem columnWidths_bounds (hroom : 36 ≤ room) {ws : List Nat} (h : (changeTable title rows).columnWidths screen room = .ok ws) :
    ∃ a n o, Widths room ws a n o := by
  rw [columnWidths_changeTable hroom] at h
  obtain ⟨w, hw, h⟩ := bind_eq_ok.1 h
  obtain ⟨hleast, hmost⟩ := nameWidth_bounds (by omega) hw
  split_ifs at h with hmuch hleft
  · cases hagain : nameWidth screen rows (room - 22) with
    | error e =>
      rw [hagain] at h
      cases h
    | ok v =>
      obtain ⟨hleast', hmost'⟩ := nameWidth_bounds (by omega) hagain
      rw [hagain] at h
      exact ⟨10, v, 12, (Except.ok.inj h).symm, le_rfl, by omega, le_rfl, by omega⟩
  · rw [← Except.ok.inj h]
    exact widths_shareOut (by omega) (by omega)
  · exact ⟨10, w, 12, (Except.ok.inj h).symm, le_rfl, by omega, le_rfl, by omega⟩

end RepoLens.Display
