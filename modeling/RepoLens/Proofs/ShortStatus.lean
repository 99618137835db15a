import Mathlib.Tactic
import RepoLens.Console
import RepoLens.Proofs.SameChanges
/-!
The listing of the working tree, written and read back. An entry has two columns, a space, and one path or two with an arrow
between them. A letter may stand in either column, so there may be a blank in front of it or two blanks behind it; the reading
goes by fields and sees no difference.

Results:
- `StatusEntry.line_fields`: the fields of an entry are its letters and what stands behind them, whichever column holds a letter;
- `StatusEntry.codeTable_letters`: the action of an entry is what the table says of its letters;
- `short_status_reads_back`: any listing of such entries is read as what was written.
-/
namespace RepoLens.Listing

open Text

/-! ## Entries -/

/-- the two columns: what is staged, and what is only in the working tree -/
inductive Column where
  | staged
  | unstaged

/-- a letter in one of the columns, the other one blank -/
def Column.write (letter : Char) : Column → Text
  | staged => [letter, ' ']
  | unstaged => [' ', letter]

/-- an entry of the listing of the working tree, its paths without blanks -/
inductive StatusEntry where
  | added (column : Column) (path : PathWord)
  | deleted (column : Column) (path : PathWord)
  | modified (column : Column) (path : PathWord)
  | addedModified (path : PathWord)
  | untracked (path : PathWord)
  | renamed (column : Column) (old new : PathWord)
  | renamedModified (old new : PathWord)

namespace StatusEntry

def letters : StatusEntry → Text
  | added .. => "A"
  | deleted .. => "D"
  | modified .. => "M"
  | addedModified _ => "AM"
  | untracked _ => "??"
  | renamed .. => "R"
  | renamedModified .. => "RM"

def columns : StatusEntry → Text
  | added column _ => column.write 'A'
  | deleted column _ => column.write 'D'
  | modified column _ => column.write 'M'
  | addedModified _ => "AM"
  | untracked _ => "??"
  | renamed column _ _ => column.write 'R'
  | renamedModified _ _ => "RM"

def paths : StatusEntry → List Text
  | added _ path | deleted _ path | modified _ path | addedModified path | untracked path => [path.text]
  | renamed _ old new | renamedModified old new => [old.text, new.text]

def line (e : StatusEntry) : Text := e.columns ++ ' ' :: joinWith " -> " e.paths

def action : StatusEntry → Action
  | added .. | untracked _ => .add
  | deleted .. => .delete
  | modified .. => .modify
  | addedModified _ => .copy
  | renamed .. | renamedModified .. => .rename

/-- the path it has happened to, of a rename the new one -/
def path : StatusEntry → Text
  | added _ path | deleted _ path | modified _ path | addedModified path | untracked path => path.text
  | renamed _ _ new | renamedModified _ new => new.text

/-- what becomes of an entry; no commit owns it -/
def file (e : StatusEntry) : File := ⟨.text e.path, e.action, .null⟩

/-! ## One entry -/

/-- the action of an entry is what the table of codes says of its letters -/
theorem codeTable_letters (e : StatusEntry) : codeTable.lookup e.letters = some e.action := by
  cases e <;> rfl

theorem columns_fields (e : StatusEntry) : e.columns.fields = [e.letters] := by
  cases e with
  | added column path | deleted column path | modified column path | renamed column old new => cases column <;> rfl
  | addedModified path | untracked path | renamedModified old new => rfl

/-- an entry is read as its letters and what stands behind the columns -/
theorem line_fields (e : StatusEntry) : statusFields e.line = e.letters :: (joinWith " -> " e.paths).fields := by
  have hspace : isBlank ' ' = true := by decide
  rw [statusFields_eq, line, fields_eq_pieces, pieces_append hspace, ← fields_eq_pieces, ← fields_eq_pieces, columns_fields,
    List.singleton_append]

theorem line_one {e : StatusEntry} {path : PathWord} (hpaths : e.paths = [path.text]) :
    statusFields e.line = [e.letters, path.text] := by
  rw [line_fields, hpaths, joinWith, fields_word path.isWord]

theorem line_two {e : StatusEntry} {old new : PathWord} (hpaths : e.paths = [old.text, new.text]) :
    statusFields e.line = [e.letters, old.text, "->", new.text] := by
  rw [line_fields, hpaths, fields_arrow]

/-- **One entry.** The second field is its path, or the fourth one for a rename. -/
theorem statusFile_line (e : StatusEntry) : statusFile e.line = .ok e.file := by
  cases e with
  | added column path => exact statusFile_of_fields (a := .add) (line_one rfl) rfl (by decide)
  | deleted column path => exact statusFile_of_fields (a := .delete) (line_one rfl) rfl (by decide)
  | modified column path => exact statusFile_of_fields (a := .modify) (line_one rfl) rfl (by decide)
  | addedModified path => exact statusFile_of_fields (a := .copy) (line_one rfl) rfl (by decide)
  | untracked path => exact statusFile_of_fields (a := .add) (line_one rfl) rfl (by decide)
  | renamed column old new => exact statusFile_of_rename (line_two rfl) rfl
  | renamedModified old new => exact statusFile_of_rename (line_two rfl) rfl

theorem columns_not_end (e : StatusEntry) : ∀ c ∈ e.columns, isEnd c = false := by
  have hall : e.columns.all (fun c => !isEnd c) = true := by
    cases e with
    | added column path | deleted column path | modified column path | renamed column old new => cases column <;> rfl
    | addedModified path | untracked path | renamedModified old new => rfl
  simpa using hall

theorem paths_words (e : StatusEntry) : ∀ t ∈ e.paths, IsWord t := by
  cases e <;> simp [paths, PathWord.isWord]

theorem line_isLine (e : StatusEntry) : IsLine e.line := by
  refine ⟨by simp [line], ?_⟩
  intro c hc
  rcases List.mem_append.1 hc with hc | hc
  · exact e.columns_not_end c hc
  · rcases List.mem_cons.1 hc with rfl | hc
    · rfl
    · exact arrows_not_end e.paths_words c hc

end StatusEntry

/-! ## Whole listings -/

/-- **The listing of the working tree reads back.** Any list of entries, each closed by a newline, is read without a fault: one
file for each entry, in order, with its path (of a rename the new one) as it was written, with the action that the table of codes
gives for its letters, whichever column holds a single letter, and owned by no commit. -/
theorem short_status_reads_back (es : List StatusEntry) :
    statusFiles (Console.block (es.map StatusEntry.line)) = .ok (es.map StatusEntry.file) ∧
      ∀ e ∈ es, codeTable.lookup e.letters = some e.file.action := by
  refine ⟨?_, fun e _ => e.codeTable_letters⟩
  have hlines : ∀ l ∈ es.map StatusEntry.line, IsLine l := List.forall_mem_map.2 fun e _ => e.line_isLine
  rw [statusFiles, nonEmptyLines_block hlines]
  exact mapM_written fun e _ => e.statusFile_line

/-- a modified file in either column, and a rename -/
example : statusFiles "M  a.txt\n M a.txt\nRM a.txt -> b.txt\n" =
    .ok [⟨.text "a.txt", .modify, .null⟩, ⟨.text "a.txt", .modify, .null⟩, ⟨.text "b.txt", .rename, .null⟩] := by
  rfl

end RepoLens.Listing
