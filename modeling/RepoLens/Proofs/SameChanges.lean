import Mathlib.Tactic
import RepoLens.Proofs.Fields
import RepoLens.Proofs.Listing
import RepoLens.Console
/-!
Two listings of the same changes. The files of a commit come as a code and paths with tabs between them, and the last path
counts; the files of the working tree come as a code and fields, and the second field counts except for a rename. Where the paths
are words, both readings give one file for each change, in order and with the same action. They name the same path except for a
copy: there the first gives the path copied to, and the second the path copied from.

Results:
- `committedFile_change`, `statusFile_change`: one change, in either listing;
- `same_changes`: all changes, in both listings, and when the two name the same paths;
- `copy_named_apart`: a copy whose two paths differ is named differently.
-/
namespace RepoLens.Listing

open Text

/-! ## Changes -/

structure PathWord where
  text : Text
  isWord : IsWord text

/-- how similar two files are, in decimal digits -/
structure Score where
  digits : Text
  nonempty : digits ≠ []
  all_digits : digits.all isDigit = true

/-- a score is taken for one -/
theorem isScore_digits (score : Score) : isScore score.digits = true := by
  have hdigits := List.all_eq_true.1 score.all_digits
  have hword : IsWord score.digits := ⟨score.nonempty, fun d hd => not_blank_of_digit (hdigits d hd)⟩
  rw [isScore, chopNewline_word hword]
  simpa using ⟨score.nonempty, hdigits⟩

theorem changeOfCode_rename (score : Score) : changeOfCode ('R' :: score.digits) = .ok .rename := by
  rw [changeOfCode, dropScore, if_pos (isScore_digits score)]
  rfl

theorem changeOfCode_copy (score : Score) : changeOfCode ('C' :: score.digits) = .ok .copy := by
  rw [changeOfCode, dropScore, if_pos (isScore_digits score)]
  rfl

/-- a letter with digits behind it is a word -/
theorem isWord_code {letter : Char} (hletter : isBlank letter = false) {digits : Text}
    (hdigits : ∀ d ∈ digits, isDigit d = true) : IsWord (letter :: digits) := by
  refine ⟨List.cons_ne_nil _ _, ?_⟩
  intro d hd
  rcases List.mem_cons.1 hd with rfl | hd
  · exact hletter
  · exact not_blank_of_digit (hdigits d hd)

/-- two paths with an arrow between them are three fields -/
theorem fields_arrow (source destination : PathWord) :
    fields (joinWith " -> " [source.text, destination.text]) = [source.text, "->", destination.text] := by
  have harrow : IsWord "->" := by decide
  have hjoin : joinWith " -> " [source.text, destination.text] = source.text ++ ' ' :: ("->" ++ ' ' :: destination.text) := rfl
  rw [hjoin, fields_word_append source.isWord (by decide), fields_word_append harrow (by decide), fields_word destination.isWord]

/-- words with arrows between them stand in one line -/
theorem arrows_not_end {words : List Text} (hwords : ∀ t ∈ words, IsWord t) : ∀ c ∈ joinWith " -> " words, isEnd c = false :=
  forall_mem_joinWith (by decide : IsLine " -> ").2 fun t ht _ hc => (hwords t ht).not_end hc

/-- a change of one file, or of two for a rename and a copy -/
inductive Change where
  | add (path : PathWord)
  | delete (path : PathWord)
  | modify (path : PathWord)
  | rename (score : Score) (source destination : PathWord)
  | copy (score : Score) (source destination : PathWord)

namespace Change

def action : Change → Action
  | add _ => .add
  | delete _ => .delete
  | modify _ => .modify
  | rename .. => .rename
  | copy .. => .copy

def letter : Change → Char
  | add _ => 'A'
  | delete _ => 'D'
  | modify _ => 'M'
  | rename .. => 'R'
  | copy .. => 'C'

def score : Change → Text
  | rename score _ _ => score.digits
  | copy score _ _ => score.digits
  | _ => []

/-- the code of a change in the listing of a commit -/
def code (c : Change) : Text := c.letter :: c.score

/-- the paths of a change, the source first -/
def paths : Change → List Text
  | add path => [path.text]
  | delete path => [path.text]
  | modify path => [path.text]
  | rename _ source destination => [source.text, destination.text]
  | copy _ source destination => [source.text, destination.text]

def destination : Change → Text
  | add path => path.text
  | delete path => path.text
  | modify path => path.text
  | rename _ _ destination => destination.text
  | copy _ _ destination => destination.text

/-- the path that the listing of the working tree names: of a copy it is the source -/
def named : Change → Text
  | copy _ source _ => source.text
  | c => c.destination

/-- a change in the listing of a commit -/
def nameStatus (c : Change) : Text := joinWith ['\t'] (c.code :: c.paths)

/-- a change in the listing of the working tree -/
def shortStatus (c : Change) : Text := c.letter :: ' ' :: ' ' :: joinWith " -> " c.paths

/-- what becomes of a change in the listing of a commit -/
def committed (commitId : Text) (c : Change) : File := ⟨.text c.destination, c.action, .text commitId⟩

/-- what becomes of a change in the listing of the working tree -/
def uncommitted (c : Change) : File := ⟨.text c.named, c.action, .null⟩

/-! ## Codes -/

theorem letter_not_blank (c : Change) : isBlank c.letter = false := by
  cases c <;> rfl

theorem score_digits (c : Change) : ∀ d ∈ c.score, isDigit d = true := by
  cases c with
  | rename score source destination => exact List.all_eq_true.1 score.all_digits
  | copy score source destination => exact List.all_eq_true.1 score.all_digits
  | _ => simp [score]

theorem code_isWord (c : Change) : IsWord c.code := isWord_code c.letter_not_blank c.score_digits

/-- the score of a code makes no difference -/
theorem changeOfCode_code (c : Change) : changeOfCode c.code = .ok c.action := by
  cases c with
  | add path => rfl
  | delete path => rfl
  | modify path => rfl
  | rename score source destination => exact changeOfCode_rename score
  | copy score source destination => exact changeOfCode_copy score

/-! ## Lines -/

theorem paths_words (c : Change) : ∀ t ∈ c.paths, IsWord t := by
  cases c <;> simp [paths, PathWord.isWord]

theorem destination_word (c : Change) : IsWord c.destination := by
  cases c <;> exact PathWord.isWord _

/-- a change in the listing of a commit is read as the code and the paths -/
theorem nameStatus_fields (c : Change) : c.nameStatus.tabFields = c.code :: c.paths := by
  refine cutAt_joinWith (e := '\t') (by rfl) (List.cons_ne_nil _ _) ?_
  intro t ht d hd
  have hword : IsWord t := by
    rcases List.mem_cons.1 ht with rfl | ht
    · exact c.code_isWord
    · exact c.paths_words t ht
  exact beq_eq_false_iff_ne.2 (hword.ne_blank hd (by decide))

/-- a change in the listing of the working tree is read as the letter and the words after it -/
theorem shortStatus_fields (c : Change) :
    statusFields c.shortStatus = [c.letter] :: fields (joinWith " -> " c.paths) := by
  have hword : IsWord [c.letter] := isWord_code c.letter_not_blank (by simp)
  have hspace : isBlank ' ' = true := by decide
  have hline : c.shortStatus = [c.letter] ++ ' ' :: ' ' :: joinWith " -> " c.paths := rfl
  rw [statusFields_eq, hline, fields_word_append hword hspace, fields_eq_pieces, pieces_cut hspace, ← fields_eq_pieces]

/-- **One change in the listing of a commit.** The last path counts. -/
theorem committedFile_change (commitId : Text) (c : Change) : committedFile commitId c.nameStatus = .ok (c.committed commitId) := by
  obtain ⟨path, more, hpaths, hlast⟩ : ∃ path more, c.paths = path :: more ∧ (path :: more).getLastD path = c.destination := by
    cases c <;> exact ⟨_, _, rfl, rfl⟩
  have hcode : changeOfCode (trim c.code) = .ok c.action := by rw [trim_word c.code_isWord, changeOfCode_code]
  have hfields : c.nameStatus.tabFields = c.code :: path :: more := by rw [nameStatus_fields, hpaths]
  rw [committedFile_of_fields commitId hfields hcode, hlast, trim_word c.destination_word]
  rfl

theorem shortStatus_one {c : Change} {path : PathWord} (hpaths : c.paths = [path.text]) :
    statusFields c.shortStatus = [[c.letter], path.text] := by
  rw [shortStatus_fields, hpaths, joinWith, fields_word path.isWord]

theorem shortStatus_two {c : Change} {source destination : PathWord} (hpaths : c.paths = [source.text, destination.text]) :
    statusFields c.shortStatus = [[c.letter], source.text, "->", destination.text] := by
  rw [shortStatus_fields, hpaths, fields_arrow]

/-- **One change in the listing of the working tree.** The second field counts, except for a rename. -/
theorem statusFile_change (c : Change) : statusFile c.shortStatus = .ok c.uncommitted := by
  cases c with
  | add path => exact statusFile_of_fields (a := .add) (shortStatus_one rfl) rfl (by decide)
  | delete path => exact statusFile_of_fields (a := .delete) (shortStatus_one rfl) rfl (by decide)
  | modify path => exact statusFile_of_fields (a := .modify) (shortStatus_one rfl) rfl (by decide)
  | rename score source destination => exact statusFile_of_rename (shortStatus_two rfl) rfl
  | copy score source destination => exact statusFile_of_fields (a := .copy) (shortStatus_two rfl) rfl (by decide)

/-! ## Whole listings -/

theorem nameStatus_isLine (c : Change) : IsLine c.nameStatus := by
  refine ⟨?_, ?_⟩
  · intro hnil
    have hfields := c.nameStatus_fields
    rw [hnil] at hfields
    cases hfields
  · refine forall_mem_joinWith (by decide : IsLine ['\t']).2 ?_
    intro t ht d hd
    rcases List.mem_cons.1 ht with rfl | ht
    · exact c.code_isWord.not_end hd
    · exact (c.paths_words t ht).not_end hd

theorem shortStatus_isLine (c : Change) : IsLine c.shortStatus := by
  refine ⟨List.cons_ne_nil _ _, ?_⟩
  intro d hd
  rcases List.mem_cons.1 hd with rfl | hd
  · cases c <;> rfl
  · simp only [List.mem_cons] at hd
    rcases hd with rfl | rfl | hd
    · rfl
    · rfl
    · exact arrows_not_end c.paths_words d hd

end Change

/-- what a file says apart from who owns it -/
def essence (f : File) : Value × Action := (f.filename, f.action)

theorem committedFiles_changes (commitId : Text) (cs : List Change) :
    committedFiles (Console.block (cs.map Change.nameStatus)) commitId = .ok (cs.map (Change.committed commitId)) := by
  have hlines : ∀ l ∈ cs.map Change.nameStatus, IsLine l := List.forall_mem_map.2 fun c _ => c.nameStatus_isLine
  rw [committedFiles, nonEmptyLines_block hlines]
  exact mapM_written fun c _ => Change.committedFile_change commitId c

theorem statusFiles_changes (cs : List Change) :
    statusFiles (Console.block (cs.map Change.shortStatus)) = .ok (cs.map Change.uncommitted) := by
  have hlines : ∀ l ∈ cs.map Change.shortStatus, IsLine l := List.forall_mem_map.2 fun c _ => c.shortStatus_isLine
  rw [statusFiles, nonEmptyLines_block hlines]
  exact mapM_written fun c _ => Change.statusFile_change c

/-- **Two listings of the same changes.** Both can be read, with one file for each change, in order, and the same action. The
listing of a commit names the path after the change, and every file is owned by the commit; the listing of the working tree names
the path after the change too, but of a copy the path that was copied, and no file is owned. So the two agree in names and
actions exactly if every copy is one to its own path. -/
theorem same_changes (commitId : Text) (cs : List Change) :
    committedFiles (Console.block (cs.map Change.nameStatus)) commitId = .ok (cs.map (Change.committed commitId)) ∧
    statusFiles (Console.block (cs.map Change.shortStatus)) = .ok (cs.map Change.uncommitted) ∧
    ((cs.map (Change.committed commitId)).map essence = (cs.map Change.uncommitted).map essence ↔
      ∀ score source destination, .copy score source destination ∈ cs → source.text = destination.text) := by
  refine ⟨committedFiles_changes commitId cs, statusFiles_changes cs, ?_⟩
  rw [List.map_map, List.map_map, List.map_inj_left]
  constructor
  · intro hsame score source destination hmem
    have hcopy : (Value.text destination.text, Action.copy) = (Value.text source.text, Action.copy) := hsame _ hmem
    exact (Value.text.inj (Prod.mk.inj hcopy).1).symm
  · intro hcopies c hc
    cases c with
    | copy score source destination =>
      have hpath := hcopies score source destination hc
      show (Value.text destination.text, Action.copy) = (Value.text source.text, Action.copy)
      rw [hpath]
    | _ => rfl

/-- a copy of one file to another: one listing names the new file, the other one the old -/
theorem copy_named_apart :
    let c : Change := .copy ⟨"100", by decide, by decide⟩ ⟨"a.txt", by decide⟩ ⟨"b.txt", by decide⟩
    committedFiles (Console.block [c.nameStatus]) "abc" = .ok [⟨.text "b.txt", .copy, .text "abc"⟩] ∧
      statusFiles (Console.block [c.shortStatus]) = .ok [⟨.text "a.txt", .copy, .null⟩] ∧
      c.named ≠ c.destination := by
  intro c
  exact ⟨by rfl, by rfl, by decide⟩

end RepoLens.Listing
