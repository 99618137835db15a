import Mathlib.Tactic
import RepoLens.Proofs.SameChanges
/-!
The listing of a commit, written and read back. An entry has a code and then, each behind a tab, the path before the change where
there is one and the path after it. Only tabs part the paths, so they may hold blanks; the last one is trimmed, and so must not
start or end in blanks if it is to come back.

Results:
- `CommittedEntry.line_fields`: an entry is cut into its code and its paths;
- `CommittedEntry.committedFile_line`: one entry is read as what was written;
- `name_status_reads_back`: so is any listing of such entries, whichever line end each of them has.
-/
namespace RepoLens.Listing

open Text

/-! ## Entries -/

/-- a path that may stand between tabs -/
structure TabPath where
  text : Text
  nonempty : text ≠ []
  no_tab : '\t' ∉ text
  no_newline : '\n' ∉ text

/-- a path that may stand at the end of a line: no blank at its start, and none at its end -/
structure EndPath extends TabPath where
  first_not_blank : ∀ c, text.head? = some c → isBlank c = false
  last_not_blank : ∀ c, text.getLast? = some c → isBlank c = false

/-- what has happened to a file, with the path before it where there is one -/
inductive Origin where
  | add
  | delete
  | modify
  | rename (score : Score) (source : TabPath)
  | copy (score : Score) (source : TabPath)

namespace Origin

def action : Origin → Action
  | add => .add
  | delete => .delete
  | modify => .modify
  | rename .. => .rename
  | copy .. => .copy

/-- the letter for it, with the score if there is one -/
def code : Origin → Text
  | add => "A"
  | delete => "D"
  | modify => "M"
  | rename score _ => 'R' :: score.digits
  | copy score _ => 'C' :: score.digits

def sources : Origin → List TabPath
  | rename _ source | copy _ source => [source]
  | _ => []

theorem code_isWord (o : Origin) : IsWord o.code := by
  cases o with
  | add | delete | modify => exact isWord_code (by decide) (by simp)
  | rename score source => exact isWord_code (by decide) (List.all_eq_true.1 score.all_digits)
  | copy score source => exact isWord_code (by decide) (List.all_eq_true.1 score.all_digits)

/-- the score makes no difference -/
theorem changeOfCode_code (o : Origin) : changeOfCode o.code = .ok o.action := by
  cases o with
  | add | delete | modify => rfl
  | rename score source => exact changeOfCode_rename score
  | copy score source => exact changeOfCode_copy score

end Origin

/-- an entry of the listing of a commit -/
structure CommittedEntry where
  origin : Origin
  destination : EndPath
  lineEnd : LineEnd

namespace CommittedEntry

def fields (e : CommittedEntry) : List Text :=
  e.origin.code :: (e.origin.sources.map TabPath.text ++ [e.destination.text])

def line (e : CommittedEntry) : Text := joinWith ['\t'] e.fields

def file (commitId : Text) (e : CommittedEntry) : File := ⟨.text e.destination.text, e.origin.action, .text commitId⟩

/-! ## One entry -/

/-- what holds of a code, and of a path between tabs, holds of whatever stands between the tabs -/
theorem forall_fields {P : Text → Prop} (e : CommittedEntry) (hcode : P e.origin.code) (hpath : ∀ path : TabPath, P path.text) :
    ∀ t ∈ e.fields, P t := by
  intro t ht
  rcases List.mem_cons.1 ht with rfl | ht
  · exact hcode
  rcases List.mem_append.1 ht with ht | ht
  · obtain ⟨source, -, rfl⟩ := List.mem_map.1 ht
    exact hpath source
  · rw [List.mem_singleton.1 ht]
    exact hpath e.destination.toTabPath

theorem line_fields (e : CommittedEntry) : e.line.tabFields = e.fields := by
  refine cutAt_joinWith (e := '\t') (by rfl) (List.cons_ne_nil _ _) (e.forall_fields ?_ ?_)
  · exact fun c hc => beq_eq_false_iff_ne.2 (e.origin.code_isWord.ne_blank hc (by decide))
  · exact fun path c hc => beq_eq_false_iff_ne.2 fun hctab => path.no_tab (hctab ▸ hc)

/-- **One entry.** Whatever stands before the last tab, the path is what stands behind it. -/
theorem committedFile_line (commitId : Text) (e : CommittedEntry) : committedFile commitId e.line = .ok (e.file commitId) := by
  obtain ⟨path, more, hpaths, hlast⟩ : ∃ path more,
      e.origin.sources.map TabPath.text ++ [e.destination.text] = path :: more ∧
        (path :: more).getLastD path = e.destination.text := by
    cases e.origin <;> exact ⟨_, _, rfl, rfl⟩
  have hfields : e.line.tabFields = e.origin.code :: path :: more := by rw [line_fields, fields, hpaths]
  have hcode : changeOfCode e.origin.code.trim = .ok e.origin.action := by
    rw [trim_word e.origin.code_isWord, e.origin.changeOfCode_code]
  have hpath : e.destination.text.trim = e.destination.text :=
    trim_closed e.destination.first_not_blank e.destination.last_not_blank
  rw [committedFile_of_fields commitId hfields hcode, hlast, hpath]
  rfl

theorem destination_closable (e : CommittedEntry) : Closable e.destination.text where
  nonempty := e.destination.nonempty
  no_newline := e.destination.no_newline
  no_cr hcr := absurd (e.destination.last_not_blank _ hcr) (by decide)

/-- an entry is something, a tab and its last path -/
theorem line_eq (e : CommittedEntry) :
    e.line = joinWith ['\t'] (e.origin.code :: e.origin.sources.map TabPath.text) ++ '\t' :: e.destination.text := by
  rw [line, fields, ← List.cons_append, joinWith_concat _ (List.cons_ne_nil _ _)]
  rfl

theorem line_closable (e : CommittedEntry) : Closable e.line := by
  have htab : ∀ c ∈ ['\t'], c ≠ '\n' := by simp
  have hparts : ∀ t ∈ e.origin.code :: e.origin.sources.map TabPath.text, ∀ c ∈ t, c ≠ '\n' := by
    intro t ht
    refine e.forall_fields (P := fun t => ∀ c ∈ t, c ≠ '\n') ?_ ?_ t ?_
    · exact fun c hc => e.origin.code_isWord.ne_blank hc (by decide)
    · exact fun path c hc hnewline => path.no_newline (hnewline ▸ hc)
    · exact List.mem_append_left [e.destination.text] ht
  have hlast : Closable ('\t' :: e.destination.text) := e.destination_closable.behind (by simp : '\n' ∉ ['\t'])
  rw [line_eq]
  exact hlast.behind fun hmem => forall_mem_joinWith htab hparts _ hmem rfl

end CommittedEntry

/-! ## Whole listings -/

/-- **The listing of a commit reads back.** Any list of entries, each closed by a newline or by CR and newline, is read without a
fault: one file for each entry, in order, with the path after the change as it was written, with the action that the letter of the
code stands for, whatever its score, and owned by the given commit. -/
theorem name_status_reads_back (commitId : Text) (es : List CommittedEntry) :
    committedFiles (es.flatMap fun e => e.line ++ e.lineEnd.text) commitId = .ok (es.map (CommittedEntry.file commitId)) := by
  have hlines : nonEmptyLines (es.flatMap fun e => e.line ++ e.lineEnd.text) = es.map CommittedEntry.line :=
    nonEmptyLines_written CommittedEntry.line CommittedEntry.lineEnd es fun e _ => e.line_closable
  rw [committedFiles, hlines]
  exact mapM_written fun e _ => e.committedFile_line commitId

/-- a rename from a path with blanks and a CR at its ends to one that looks like a rename, and a deletion -/
example : committedFiles "R097\t old\r\ta -> b c\r\nD\tx\n" "abc" =
    .ok [⟨.text "a -> b c", .rename, .text "abc"⟩, ⟨.text "x", .delete, .text "abc"⟩] := by
  rfl

end RepoLens.Listing
