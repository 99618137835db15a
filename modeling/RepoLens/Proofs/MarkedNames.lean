import Mathlib.Tactic
import RepoLens.Proofs.Listing
import RepoLens.Proofs.Terminators
/-!
Branch names behind their markers. A branch is listed as two characters, which say where it is checked out, and its name. The
reading drops two characters of every line, whichever they are, and takes the rest as it is. So the names come out as they went
in, wherever the marks stand, and a branch is merged exactly if its whole name is listed. A line without a name behind its marker
is a fault, and never a name that is empty.

Results:
- `branches_of_named`, `branches_of_nameless`: all names, or the first line without one;
- `branches_come_to`: what the two operations on branches send, and what they make of a reply;
- `marked_names_read`: any branches, however marked and written, are read as their names; these and no others are merged.
-/
namespace RepoLens

open Text

namespace Listing

/-! ## Lines -/

/-- the two characters in front of a name -/
structure Marker where
  first : Char
  second : Char
  not_end : isEnd first = false ∧ isEnd second = false

/-- the name of a branch: in one line, and not blank -/
structure BranchName where
  text : Text
  not_end : text.any isEnd = false
  not_blank : text.allBlank = false

structure Branch where
  marker : Marker
  name : BranchName
  lineEnd : LineEnd

namespace Branch

def line (b : Branch) : Text := b.marker.first :: b.marker.second :: b.name.text

theorem line_isLine (b : Branch) : IsLine b.line := by
  refine ⟨List.cons_ne_nil _ _, ?_⟩
  intro c hc
  simp only [line, List.mem_cons] at hc
  rcases hc with rfl | rfl | hc
  · exact b.marker.not_end.1
  · exact b.marker.not_end.2
  · exact Bool.eq_false_iff.2 (List.any_eq_false.1 b.name.not_end c hc)

end Branch

def namesOf (bs : List Branch) : List Text := bs.map fun b => b.name.text

def nameless (line : Text) : Bool := allBlank (line.drop 2)

theorem line_named (b : Branch) : nameless b.line = false := b.name.not_blank

theorem lines_isLine (bs : List Branch) : ∀ l ∈ bs.map Branch.line, IsLine l :=
  List.forall_mem_map.2 fun b _ => b.line_isLine

/-! ## Reading -/

theorem nameOfLine_named {line : Text} (h : nameless line = false) : nameOfLine markerWidth line = .ok (line.drop 2) :=
  if_neg (Bool.eq_false_iff.1 h)

theorem nameOfLine_nameless {line : Text} (h : nameless line = true) :
    nameOfLine markerWidth line = .error (.malformed .name line) :=
  if_pos h

/-- every line has a name behind its marker -/
theorem branches_of_named {t : Text} (h : ∀ line ∈ t.nonEmptyLines, nameless line = false) :
    branches t = .ok (t.nonEmptyLines.map fun line => line.drop 2) := by
  rw [branches, names, mapM_eq_ok, List.forall₂_map_right_iff]
  exact List.forall₂_same.2 fun line hline => nameOfLine_named (h line hline)

/-- some line has none, and the first of these is the fault -/
theorem branches_of_nameless {t : Text} (h : ∃ line ∈ t.nonEmptyLines, nameless line = true) :
    ∃ line, t.nonEmptyLines.find? nameless = some line ∧ branches t = .error (.malformed .name line) := by
  obtain ⟨line, hfind⟩ := Option.isSome_iff_exists.1 (List.find?_isSome.2 h)
  obtain ⟨hline, before, after, hlines, hbefore⟩ := List.find?_eq_some_iff_append.1 hfind
  refine ⟨line, hfind, ?_⟩
  rw [branches, names, mapM_eq_error]
  refine ⟨before, line, after, hlines, ?_, nameOfLine_nameless hline⟩
  intro named hnamed
  exact ⟨named.drop 2, nameOfLine_named (by simpa using hbefore named hnamed)⟩

/-- any text with these branches as its lines -/
theorem branches_of_lines {t : Text} {bs : List Branch} (h : t.nonEmptyLines = bs.map Branch.line) :
    branches t = .ok (namesOf bs) := by
  have hnamed : ∀ line ∈ t.nonEmptyLines, nameless line = false := by
    rw [h]
    exact List.forall_mem_map.2 fun b _ => line_named b
  rw [branches_of_named hnamed, h, List.map_map]
  rfl

end Listing

/-! ## Operations on branches -/

/-- the names in some output -/
def readBranches (t : Text) : Except Fault Answer := ((Listing.branches t).mapError (.git ∘ .listing)).map .texts

/-- whether a branch is among the names in some output -/
def readMerged (branch t : Text) : Except Fault Answer :=
  ((Listing.branches t).mapError (.git ∘ .listing)).map fun names => .flag (names.contains branch)

/-- what the two operations on branches come to when git answers their command quietly: for one of them the names are the answer,
for the other one whether a branch is among them -/
structure BranchesComeTo (s : Session) (out : List UInt8) (code : Int) (rest : List Reply)
    (outcome : Except Fault (List Text)) : Prop where
  list_sent : (s.trace (.output out [] code :: rest) (.op .branches)).sent = [s.handle.argv ["branch"]]
  list_result : (s.trace (.output out [] code :: rest) (.op .branches)).result = outcome.map .texts
  merged_sent : ∀ branch, (s.trace (.output out [] code :: rest) (.op (.isMerged branch))).sent =
    [s.handle.argv ["branch", "--merged", s.handle.mainline]]
  merged_result : ∀ branch, (s.trace (.output out [] code :: rest) (.op (.isMerged branch))).result =
    outcome.map fun names => .flag (decide (branch ∈ names))

/-- both go by the names that are read from the output -/
theorem branches_come_to (s : Session) (out : List UInt8) (code : Int) (rest : List Reply) :
    BranchesComeTo s out code rest ((Listing.branches (Record.captured out)).mapError (.git ∘ .listing)) := by
  have hlist := trace_asked readBranches (branches_script s.handle) out code rest
  have hmerged := fun branch => trace_asked (readMerged branch) (isMerged_script s.handle branch) out code rest
  have hmember : ∀ branch : Text, (fun names : List Text => Answer.flag (names.contains branch)) =
      fun names => .flag (decide (branch ∈ names)) := fun branch => funext fun names => by rw [List.contains_eq_mem]
  refine ⟨hlist.1, hlist.2, fun branch => (hmerged branch).1, fun branch => ?_⟩
  rw [(hmerged branch).2, readMerged, hmember]

/-! ## Main result -/

namespace Listing

/-- **Markers make no difference.** Any list of branches, with any two characters in front of each name, is read as its names, in
order: written with either line end behind each line, or with newlines between the lines. Printed by git, with whatever ends its
lines, it is listed so too, and a branch is merged exactly if it is one of the names. And if any output has a line that is blank
behind its first two characters, then there is no answer, to neither question, but the fault that quotes the first such line. -/
theorem marked_names_read (bs : List Branch) :
    branches (bs.flatMap fun b => b.line ++ b.lineEnd.text) = .ok (namesOf bs) ∧
    branches (joinWith ['\n'] (bs.map Branch.line)) = .ok (namesOf bs) ∧
    (∀ s t code rest, Rendering (bs.map Branch.line) t → BranchesComeTo s (Utf8.encode t) code rest (.ok (namesOf bs))) ∧
    (∀ t : Text, (∃ line ∈ t.nonEmptyLines, nameless line = true) →
      ∃ line, t.nonEmptyLines.find? nameless = some line ∧ branches t = .error (.malformed .name line) ∧
        (ListingFault.malformed .name line).message = "Expected a name, got " ++ line.quoted) ∧
    ∀ s out code rest, (∃ line ∈ (Record.captured out).nonEmptyLines, nameless line = true) →
      ∃ line, (Record.captured out).nonEmptyLines.find? nameless = some line ∧
        BranchesComeTo s out code rest (.error (.git (.listing (.malformed .name line)))) := by
  refine ⟨?_, ?_, ?_, ?_, ?_⟩
  · exact branches_of_lines (nonEmptyLines_written Branch.line Branch.lineEnd bs fun b _ => b.line_isLine.closable)
  · exact branches_of_lines (nonEmptyLines_joined (lines_isLine bs))
  · intro s t code rest ht
    have hread : branches (Record.captured (Utf8.encode t)) = .ok (namesOf bs) :=
      branches_of_lines (nonEmptyLines_rendering (lines_isLine bs) ht)
    have hcome := branches_come_to s (Utf8.encode t) code rest
    rwa [hread] at hcome
  · intro t hnameless
    obtain ⟨line, hfirst, hfault⟩ := branches_of_nameless hnameless
    exact ⟨line, hfirst, hfault, rfl⟩
  · intro s out code rest hnameless
    obtain ⟨line, hfirst, hfault⟩ := branches_of_nameless hnameless
    have hcome := branches_come_to s out code rest
    rw [hfault] at hcome
    exact ⟨line, hfirst, hcome⟩

/-- the same names, one with a blank at its end, with the mark at the first or at the second; and an output with two lines that
hold no name, the first of which is quoted -/
theorem marked_names_read_moved :
    let s : Session := ⟨⟨⟨.here, ["repo"]⟩, "main", "origin", "git", false⟩, .plain 80, []⟩
    let bs : List Branch := [⟨⟨'*', ' ', by decide⟩, ⟨"main", by decide, by decide⟩, .newline⟩,
      ⟨⟨' ', ' ', by decide⟩, ⟨"fix ", by decide, by decide⟩, .newline⟩]
    let cs : List Branch := [⟨⟨' ', ' ', by decide⟩, ⟨"main", by decide, by decide⟩, .newline⟩,
      ⟨⟨'+', ' ', by decide⟩, ⟨"fix ", by decide, by decide⟩, .crlf⟩]
    let t : Text := "  main\r\n+ fix "
    let out : List UInt8 := Utf8.encode "* main\n  \t\n*\n"
    branches (bs.flatMap fun b => b.line ++ b.lineEnd.text) = .ok ["main", "fix "] ∧ Rendering (cs.map Branch.line) t ∧
      BranchesComeTo s (Utf8.encode t) 0 [] (.ok ["main", "fix "]) ∧
      (∃ line ∈ (Record.captured out).nonEmptyLines, nameless line = true) ∧
      BranchesComeTo s out 0 [] (.error (.git (.listing (.malformed .name "  \t")))) := by
  intro s bs cs t out
  have ht : Rendering (cs.map Branch.line) t :=
    .closed "  main" (e := '\r') rfl <| .extra (e := '\n') rfl <| .unclosed "+ fix "
  have hlines : (Record.captured out).nonEmptyLines = ["* main", "  \t", "*"] := by rfl
  have hnameless : ∃ line ∈ (Record.captured out).nonEmptyLines, nameless line = true := by
    rw [hlines]
    exact ⟨"*", by decide, by decide⟩
  obtain ⟨hread, -, -, -, -⟩ := marked_names_read bs
  obtain ⟨-, -, hprinted, -, hfaulty⟩ := marked_names_read cs
  obtain ⟨line, hfirst, hfault⟩ := hfaulty s out 0 [] hnameless
  have hline : some line = some "  \t" := by
    rw [← hfirst, hlines]
    rfl
  cases hline
  exact ⟨hread, ht, hprinted s t 0 [] ht, hnameless, hfault⟩

end Listing

end RepoLens
