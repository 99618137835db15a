import Mathlib.Tactic
import RepoLens.Fault
import RepoLens.Proofs.Lines
import RepoLens.Proofs.Listing
/-!
Listings in parts. Every listing is read line by line, and a line says nothing about the lines around it. So a listing of two
parts with a newline between them comes to what its parts come to: the fault of the first part if that has one, else the fault
of the second part, else the items of both in order. The first part must not end in a CR, which the newline would take into its
line end.

Results:
- `Linewise.composes`: a reading that goes line by line can be cut between any two lines;
- `listings_compose`: commit identifiers, names, branches, tags, the files of the working tree and those of a commit.
-/
namespace RepoLens.Listing

variable {ε α : Type}

/-! ## Readings -/

/-- how a listing follows from what each line that holds something comes to by itself: one item for each line, in order; or
the fault of the first line that has one -/
structure Linewise (read : Text → Except ε (List α)) (line : Text → Except ε α) : Prop where
  ok_iff : ∀ t xs, read t = .ok xs ↔ List.Forall₂ (fun l x => line l = .ok x) t.nonEmptyLines xs
  error_iff : ∀ t e, read t = .error e ↔
    ∃ before l after, t.nonEmptyLines = before ++ l :: after ∧ (∀ l' ∈ before, ∃ x, line l' = .ok x) ∧ line l = .error e

/-- what a listing of two parts comes to: the fault of the first part; else that of the second part; else the items of both -/
structure Composes (read : Text → Except ε (List α)) (a b : Text) : Prop where
  first : ∀ e, read a = .error e → read (a ++ '\n' :: b) = .error e
  second : ∀ xs e, read a = .ok xs → read b = .error e → read (a ++ '\n' :: b) = .error e
  both : ∀ xs ys, read a = .ok xs → read b = .ok ys → read (a ++ '\n' :: b) = .ok (xs ++ ys)

theorem linewise_mapM (line : Text → Except ε α) : Linewise (fun t => t.nonEmptyLines.mapM line) line where
  ok_iff _ _ := mapM_eq_ok
  error_iff _ _ := mapM_eq_error

theorem linewise_names (width : Int) : Linewise (names width) (nameOfLine width) := linewise_mapM _

theorem linewise_statusFiles : Linewise statusFiles statusFile := linewise_mapM _

/-- the files of a commit, or the fault together with the commit -/
def filesOf (commitId t : Text) : Except GitFault (List File) := (committedFiles t commitId).mapError (.commitListing commitId)

/-- one line of the files of a commit, or the fault together with the commit -/
def fileOf (commitId line : Text) : Except GitFault File := (committedFile commitId line).mapError (.commitListing commitId)

theorem linewise_filesOf (commitId : Text) : Linewise (filesOf commitId) (fileOf commitId) := by
  have hread : filesOf commitId = fun t => t.nonEmptyLines.mapM (fileOf commitId) :=
    funext fun t => mapM_mapError (committedFile commitId) (GitFault.commitListing commitId) t.nonEmptyLines
  rw [hread]
  exact linewise_mapM _

/-- **A reading that goes line by line composes.** -/
theorem Linewise.composes {read : Text → Except ε (List α)} {line : Text → Except ε α} (h : Linewise read line) {a : Text}
    (ha : a.getLast? ≠ some '\r') (b : Text) : Composes read a b where
  first e hfirst := by
    obtain ⟨before, l, after, hlines, hbefore, hl⟩ := (h.error_iff a e).1 hfirst
    refine (h.error_iff _ e).2 ⟨before, l, after ++ b.nonEmptyLines, ?_, hbefore, hl⟩
    rw [Text.nonEmptyLines_append_newline ha, hlines, List.append_assoc, List.cons_append]
  second xs e hfirst hsecond := by
    have hitems := (h.ok_iff a xs).1 hfirst
    obtain ⟨before, l, after, hlines, hbefore, hl⟩ := (h.error_iff b e).1 hsecond
    refine (h.error_iff _ e).2 ⟨a.nonEmptyLines ++ before, l, after, ?_, ?_, hl⟩
    · rw [Text.nonEmptyLines_append_newline ha, hlines, List.append_assoc]
    · intro l' hl'
      rcases List.mem_append.1 hl' with hl' | hl'
      · obtain ⟨x, -, hx⟩ := mem_of_forall₂ hitems.flip hl'
        exact ⟨x, hx⟩
      · exact hbefore l' hl'
  both xs ys hfirst hsecond := by
    rw [h.ok_iff, Text.nonEmptyLines_append_newline ha]
    exact List.rel_append ((h.ok_iff a xs).1 hfirst) ((h.ok_iff b ys).1 hsecond)

/-! ## Main result -/

/-- **Listings compose.** For any two texts with a newline between them, the first of which does not end in a CR, the lines are
those of the first and then those of the second, and commit identifiers come the other way round. Names after a marker of any
width, branches, tags, the files of the working tree and the files of a commit come to what the two parts come to; and in any
text each line that holds something is read by itself, and the fault is that of the first line that has one. -/
theorem listings_compose {a : Text} (ha : a.getLast? ≠ some '\r') (b : Text) :
    (a ++ '\n' :: b).nonEmptyLines = a.nonEmptyLines ++ b.nonEmptyLines ∧
    commitIds (a ++ '\n' :: b) = commitIds b ++ commitIds a ∧
    (∀ width, Composes (names width) a b ∧ Linewise (names width) (nameOfLine width)) ∧
    (Composes branches a b ∧ Linewise branches (nameOfLine markerWidth)) ∧
    (Composes tags a b ∧ Linewise tags (nameOfLine 0)) ∧
    (Composes statusFiles a b ∧ Linewise statusFiles statusFile) ∧
    (∀ commitId, Composes (filesOf commitId) a b ∧ Linewise (filesOf commitId) (fileOf commitId)) := by
  have hlines := Text.nonEmptyLines_append_newline ha b
  have parted : ∀ {δ β : Type} {read : Text → Except δ (List β)} {line : Text → Except δ β},
      Linewise read line → Composes read a b ∧ Linewise read line := fun h => ⟨h.composes ha b, h⟩
  refine ⟨hlines, ?_, fun width => parted (linewise_names width), parted (linewise_names markerWidth),
    parted (linewise_names 0), parted linewise_statusFiles, fun commitId => parted (linewise_filesOf commitId)⟩
  rw [commitIds, hlines, List.reverse_append]
  rfl

/-- a commit whose files come in two parts, the second with a code that nobody knows: the files of the first part are lost -/
theorem listings_compose_unknown :
    let a : Text := "A\tx\r\nM\ty"
    let b : Text := "Z\tz\r"
    a.getLast? ≠ some '\r' ∧ filesOf "abc" a = .ok [⟨.text "x", .add, .text "abc"⟩, ⟨.text "y", .modify, .text "abc"⟩] ∧
      filesOf "abc" b = .error (.commitListing "abc" (.unknownCode "Z")) ∧
      filesOf "abc" (a ++ '\n' :: b) = .error (.commitListing "abc" (.unknownCode "Z")) := by
  intro a b
  have ha : a.getLast? ≠ some '\r' := by decide
  have hfirst : filesOf "abc" a = .ok [⟨.text "x", .add, .text "abc"⟩, ⟨.text "y", .modify, .text "abc"⟩] := by rfl
  have hsecond : filesOf "abc" b = .error (.commitListing "abc" (.unknownCode "Z")) := by rfl
  obtain ⟨-, -, -, -, -, -, hfiles⟩ := listings_compose ha b
  exact ⟨ha, hfirst, hsecond, (hfiles "abc").1.second _ _ hfirst hsecond⟩

end RepoLens.Listing
