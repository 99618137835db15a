import Mathlib.Data.List.DropRight
import Mathlib.Tactic
import RepoLens.Proofs.Fields
import RepoLens.Proofs.Parts
/-!
The lines of the listing of a commit. A line can be read if it has a tab and, in front of its first tab, a code that is known. The
first line that cannot be read is a fault, told together with the commit; without one there is a file for each line. Its name is
what stands behind the last tab, trimmed. That may be nothing: a line with a tab and no path behind it is read like any other.

Results:
- `tabFields_of_tab`: the first and the last of the texts between tabs;
- `committedFile_readable`, `committedFile_unreadable`: one line, by what stands in front of its first tab and behind its last;
- `committed_line_by_line`: any listing, and when all of its files have names;
- `blank_path_read`: a line without a path that becomes a file without a name.
-/
namespace RepoLens.Listing

open Text

/-! ## Between tabs -/

/-- the code of a line: what stands in front of its first tab, trimmed -/
def codeOf (line : Text) : Text := trim (line.takeWhile (· ≠ '\t'))

def behindLastTab (line : Text) : Text := line.rtakeWhile (· ≠ '\t')

theorem tabFields_append (a b : Text) : tabFields (a ++ '\t' :: b) = tabFields a ++ tabFields b :=
  cutAt_append (by rfl) a b

theorem tabFields_of_no_tab {t : Text} (h : '\t' ∉ t) : tabFields t = [t] :=
  cutAt_of_none fun _ hc => beq_eq_false_iff_ne.2 fun htab => h (htab ▸ hc)

theorem takeWhile_to_tab {a b : Text} (ha : '\t' ∉ a) : (a ++ '\t' :: b).takeWhile (· ≠ '\t') = a := by
  rw [List.takeWhile_append_of_pos]
  · simp
  · intro c hc
    exact decide_eq_true fun htab => ha (htab ▸ hc)

/-- the last tab of a line, and what stands behind it -/
theorem exists_last_tab {line : Text} (h : '\t' ∈ line) :
    ∃ before, line = before ++ '\t' :: behindLastTab line ∧ '\t' ∉ behindLastTab line := by
  obtain ⟨a, b, hline, ha⟩ := List.eq_append_cons_of_mem (List.mem_reverse.2 h)
  have hbehind : behindLastTab line = a.reverse := by
    rw [behindLastTab, List.rtakeWhile, hline, takeWhile_to_tab ha]
  refine ⟨b.reverse, ?_, ?_⟩
  · rw [hbehind, ← List.reverse_reverse line, hline]
    simp
  · rwa [hbehind, List.mem_reverse]

/-- the texts between tabs: the first is what stands in front of the first tab, the last what stands behind the last tab -/
theorem tabFields_of_tab {line : Text} (h : '\t' ∈ line) :
    ∃ path more, tabFields line = line.takeWhile (· ≠ '\t') :: path :: more ∧
      (path :: more).getLastD path = behindLastTab line := by
  obtain ⟨a, b, hline, ha⟩ := List.eq_append_cons_of_mem h
  have hfields : tabFields line = a :: tabFields b := by
    rw [hline, tabFields_append, tabFields_of_no_tab ha, List.singleton_append]
  obtain ⟨before, hlast, hbehind⟩ := exists_last_tab h
  have hparts : tabFields line = tabFields before ++ [behindLastTab line] := by
    conv_lhs => rw [hlast]
    rw [tabFields_append, tabFields_of_no_tab hbehind]
  have hend : (tabFields line).getLast? = some (behindLastTab line) := by
    rw [hparts, List.getLast?_concat]
  cases hb : tabFields b with
  | nil => exact absurd hb (cutAt_ne_nil _ b)
  | cons path more =>
    rw [hb] at hfields
    refine ⟨path, more, ?_, ?_⟩
    · rw [hfields, hline, takeWhile_to_tab ha]
    · rw [hfields, List.getLast?_cons_cons] at hend
      rw [List.getLastD_eq_getLast?, hend]
      rfl

/-! ## One line -/

/-- a line that can be read: it has a tab, and its code is known -/
def Readable (line : Text) : Prop := '\t' ∈ line ∧ ∃ a, changeOfCode (codeOf line) = .ok a

instance decidableReadable (line : Text) : Decidable (Readable line) :=
  decidable_of_iff ('\t' ∈ line ∧ (changeOfCode (codeOf line)).isOk = true) <| and_congr_right fun _ => isOk_iff

/-- the fault of a line that cannot be read: a code that is not known, or no tab -/
def faultOf (line : Text) : ListingFault :=
  if '\t' ∈ line then .unknownCode (codeOf line) else .malformed .committed line

/-- what becomes of a line that can be read -/
structure FileOfLine (commitId line : Text) (f : File) : Prop where
  filename : f.filename = .text (behindLastTab line).trim
  action : changeOfCode (codeOf line) = .ok f.action
  commitId : f.commitId = .text commitId

/-- a file with a name that is not blank -/
def HasName (f : File) : Prop := ∃ name, f.filename = .text name ∧ name.trim ≠ []

theorem committedFile_readable {commitId line : Text} (h : Readable line) :
    ∃ f, committedFile commitId line = .ok f ∧ FileOfLine commitId line f := by
  obtain ⟨htab, a, hcode⟩ := h
  obtain ⟨path, more, hfields, hlast⟩ := tabFields_of_tab htab
  refine ⟨_, committedFile_of_fields commitId hfields hcode, ?_, hcode, rfl⟩
  rw [hlast]

/-- a code that is not known is the fault, in its own words -/
theorem changeOfCode_unknown {code : Text} (h : ¬ ∃ a, changeOfCode code = .ok a) :
    changeOfCode code = .error (.unknownCode code) := by
  unfold changeOfCode at h ⊢
  split
  · rename_i a ha
    rw [ha] at h
    exact absurd ⟨a, rfl⟩ h
  · rfl

theorem committedFile_unreadable {commitId line : Text} (h : ¬ Readable line) :
    committedFile commitId line = .error (faultOf line) := by
  by_cases htab : '\t' ∈ line
  · have hcode : ¬ ∃ a, changeOfCode (codeOf line) = .ok a := fun hknown => h ⟨htab, hknown⟩
    obtain ⟨path, more, hfields, -⟩ := tabFields_of_tab htab
    rw [committedFile, hfields, faultOf, if_pos htab]
    exact congrArg (· >>= _) (changeOfCode_unknown hcode)
  · rw [committedFile, tabFields_of_no_tab htab, faultOf, if_neg htab]
    rfl

/-- a file has a name exactly if there is more than blanks behind the last tab of its line -/
theorem FileOfLine.hasName_iff {commitId line : Text} {f : File} (h : FileOfLine commitId line f) :
    HasName f ↔ allBlank (behindLastTab line) = false := by
  have hname : (behindLastTab line).trim.trim ≠ [] ↔ allBlank (behindLastTab line) = false := by
    rw [Ne, trim_eq_nil, allBlank_trim, Bool.not_eq_true]
  rw [← hname, HasName, h.filename]
  constructor
  · rintro ⟨name, heq, hne⟩
    rwa [Value.text.inj heq]
  · intro hne
    exact ⟨_, rfl, hne⟩

/-! ## Main result -/

/-- **A commit is read line by line.** For any text and commit: if some line has no tab, or a code that is not known, then the
first such line is the fault, told with the commit. Else there is a file for each line, in order, owned by the commit, with the
action of the code and the name that stands behind the last tab, trimmed. And all of these have names exactly if no line has
only blanks behind its last tab; such a line is no fault. -/
theorem committed_line_by_line (t commitId : Text) :
    ((∃ line ∈ t.nonEmptyLines, ¬ Readable line) →
      ∃ before line after, t.nonEmptyLines = before ++ line :: after ∧ (∀ l ∈ before, Readable l) ∧ ¬ Readable line ∧
        filesOf commitId t = .error (.commitListing commitId (faultOf line))) ∧
    ((∀ line ∈ t.nonEmptyLines, Readable line) →
      ∃ files, filesOf commitId t = .ok files ∧ List.Forall₂ (FileOfLine commitId) t.nonEmptyLines files ∧
        ((∀ f ∈ files, HasName f) ↔ ∀ line ∈ t.nonEmptyLines, allBlank (behindLastTab line) = false)) := by
  constructor
  · rintro ⟨bad, hbad, hunreadable⟩
    have hsome : (t.nonEmptyLines.find? fun l => decide (¬ Readable l)).isSome :=
      List.find?_isSome.2 ⟨bad, hbad, decide_eq_true hunreadable⟩
    obtain ⟨line, hfind⟩ := Option.isSome_iff_exists.1 hsome
    obtain ⟨hline, before, after, hlines, hbefore⟩ := List.find?_eq_some_iff_append.1 hfind
    have hline : ¬ Readable line := of_decide_eq_true hline
    have hbefore : ∀ l ∈ before, Readable l := fun l hl => by simpa using hbefore l hl
    refine ⟨before, line, after, hlines, hbefore, hline, ?_⟩
    have hfault : committedFiles t commitId = .error (faultOf line) := by
      rw [committedFiles, mapM_eq_error]
      refine ⟨before, line, after, hlines, fun l hl => ?_, committedFile_unreadable hline⟩
      obtain ⟨f, hf, -⟩ := committedFile_readable (hbefore l hl)
      exact ⟨f, hf⟩
    rw [filesOf, hfault]
    rfl
  · intro hreadable
    obtain ⟨files, hfiles, hshape⟩ := exists_mapM_ok fun line hline => committedFile_readable (hreadable line hline)
    refine ⟨files, mapError_eq_ok.2 hfiles, hshape, ?_⟩
    constructor
    · intro hnamed line hline
      obtain ⟨f, hf, hshaped⟩ := mem_of_forall₂ hshape.flip hline
      exact hshaped.hasName_iff.1 (hnamed f hf)
    · intro hbehind f hf
      obtain ⟨line, hline, hshaped⟩ := mem_of_forall₂ hshape hf
      exact hshaped.hasName_iff.2 (hbehind line hline)

/-- a copy between blank lines, and a line whose code nobody knows behind one that can be read -/
theorem committed_line_by_line_copied :
    let t : Text := "\nC075\told\t new path \r\n M \ty"
    let u : Text := "M\ty\n \tz\nx"
    (∀ line ∈ t.nonEmptyLines, Readable line) ∧ (∃ line ∈ u.nonEmptyLines, ¬ Readable line) ∧
      (∃ files, filesOf "abc" t = .ok files ∧ files.length = 2 ∧ ∀ f ∈ files, HasName f) ∧
      ∃ line ∈ u.nonEmptyLines, filesOf "abc" u = .error (.commitListing "abc" (faultOf line)) := by
  intro t u
  have hreadable : ∀ line ∈ t.nonEmptyLines, Readable line := by decide
  have hunreadable : ∃ line ∈ u.nonEmptyLines, ¬ Readable line := ⟨" \tz", by decide, by decide⟩
  obtain ⟨-, hread⟩ := committed_line_by_line t "abc"
  obtain ⟨hfault, -⟩ := committed_line_by_line u "abc"
  obtain ⟨files, hfiles, hshape, hnamed⟩ := hread hreadable
  obtain ⟨before, line, after, hlines, -, -, hfirst⟩ := hfault hunreadable
  refine ⟨hreadable, hunreadable, ⟨files, hfiles, hshape.length_eq.symm, hnamed.2 (by decide)⟩, line, ?_, hfirst⟩
  rw [hlines]
  exact List.mem_append_right _ List.mem_cons_self

/-- a line with a tab and nothing behind it: a file is read that has no name -/
theorem blank_path_read :
    let f : File := ⟨.text "", .add, .text "abc"⟩
    filesOf "abc" "A\t\n" = .ok [f] ∧ FileOfLine "abc" "A\t" f ∧ ¬ HasName f := by
  intro f
  have hf : FileOfLine "abc" "A\t" f := ⟨by rfl, by rfl, by rfl⟩
  refine ⟨by rfl, hf, fun hnamed => ?_⟩
  exact absurd (hf.hasName_iff.1 hnamed) (by decide)

end RepoLens.Listing
