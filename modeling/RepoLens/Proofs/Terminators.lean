import Mathlib.Tactic
import RepoLens.Proofs.Lines
import RepoLens.Proofs.Run
import RepoLens.Session
/-!
Operations that read one listing: commit identifiers, the files of a commit, the files of the working tree, branches,
tags, and whether a branch is merged. Each sends one command, and what it comes to is decided by the lines that git
printed, not by what ends them.

Results:
- `listing_script`: such an operation is one command and then a reading of the lines that hold something;
- `trace_asked`: what one command and a reading of its output come to;
- `listing_ignores_terminators`: two outputs that write the same lines lead to the same value or the same fault.
-/
namespace RepoLens

open Script

/-- the operations that read one listing -/
def Op.ReadsListing : Op → Prop
  | commitIds _ | filesIn _ | uncommitted | branches | tags | isMerged _ => True
  | _ => False

/-- a value that is known already, and something made of it -/
theorem bind_ofExcept {ε α β : Type} (cause : ε → Fault) (e : Except ε α) (f : α → β) :
    ((ofExcept cause e).bind fun a => done (f a)) = ofExcept id ((e.mapError cause).map f) := by
  cases e <;> rfl

/-- the branches: one command, and its names -/
theorem branches_script (h : Handle) : Op.branches.script h = git (.list ["branch"]) false fun r =>
    ofExcept id (((Listing.branches r.stdout).mapError (.git ∘ .listing)).map .texts) :=
  congrArg (git _ false) (funext fun _ => bind_ofExcept _ _ Answer.texts)

/-- whether a branch is merged: one command, and whether the branch is among its names -/
theorem isMerged_script (h : Handle) (branch : Text) :
    (Op.isMerged branch).script h = git (.list ["branch", "--merged", h.mainline]) false fun r =>
      ofExcept id (((Listing.branches r.stdout).mapError (.git ∘ .listing)).map
        fun names => .flag (names.contains branch)) := by
  refine congrArg (git _ false) (funext fun r => ?_)
  have hsplit := bind_assoc (ofExcept (.git ∘ .listing) (Listing.branches r.stdout))
    (fun names => done (names.contains branch)) fun b => done (Answer.flag b)
  exact hsplit.trans (bind_ofExcept _ _ fun names : List Text => Answer.flag (names.contains branch))

theorem listing_script {o : Op} (ho : o.ReadsListing) (h : Handle) :
    ∃ words, ∃ read : List Text → Except Fault Answer,
      o.script h = git (.list words) false fun r => ofExcept id (read r.stdout.nonEmptyLines) := by
  cases o with
  | commitIds branch => exact ⟨["log", "--pretty=%H", branch], fun ls => .ok (.texts ls.reverse), rfl⟩
  | filesIn commitId =>
    refine ⟨["diff-tree", "--no-commit-id", "--name-status", "-r", commitId], fun ls =>
      ((ls.mapM (Listing.committedFile commitId)).mapError (.git ∘ .commitListing commitId)).map .files, ?_⟩
    exact congrArg (git _ false) (funext fun r => bind_ofExcept _ _ Answer.files)
  | uncommitted =>
    refine ⟨["status", "--short"], fun ls =>
      ((ls.mapM Listing.statusFile).mapError (.git ∘ .listing)).map .files, ?_⟩
    exact congrArg (git _ false) (funext fun r => bind_ofExcept _ _ Answer.files)
  | branches =>
    exact ⟨["branch"], fun ls =>
      ((ls.mapM (Listing.nameOfLine Listing.markerWidth)).mapError (.git ∘ .listing)).map .texts, branches_script h⟩
  | tags =>
    refine ⟨["tag"], fun ls => ((ls.mapM (Listing.nameOfLine 0)).mapError (.git ∘ .tagListing)).map .texts, ?_⟩
    exact congrArg (git _ false) (funext fun r => bind_ofExcept _ _ Answer.texts)
  | isMerged branch =>
    exact ⟨["branch", "--merged", h.mainline], fun ls =>
      ((ls.mapM (Listing.nameOfLine Listing.markerWidth)).mapError (.git ∘ .listing)).map
        fun names => .flag (names.contains branch), isMerged_script h branch⟩
  | _ => exact absurd ho id

theorem run_ofExcept {α : Type} {h : Handle} {screen : Console.Screen} {past : List Record} {replies : List Reply}
    (e : Except Fault α) : (ofExcept id e).run h screen past replies = .ended e := by
  cases e <;> rfl

/-- one command that is answered quietly, and what is read from its output -/
theorem trace_asked {s : Session} {o : Op} {words : List Text} (read : Text → Except Fault Answer)
    (hscript : o.script s.handle = git (.list words) false fun r => ofExcept id (read r.stdout))
    (out : List UInt8) (code : Int) (rest : List Reply) :
    (s.trace (.output out [] code :: rest) (.op o)).sent = [s.handle.argv words] ∧
      (s.trace (.output out [] code :: rest) (.op o)).result = read (Record.captured out) := by
  have hreply : Reply.nth (.output out [] code :: rest) 0 = .output out [] code := rfl
  rw [Session.trace, hscript, run_git_quiet hreply, run_ofExcept]
  exact ⟨rfl, rfl⟩

/-- a listing that is answered quietly comes to what its lines say -/
theorem trace_listing {o : Op} (ho : o.ReadsListing) (s : Session) :
    ∃ read : List Text → Except Fault Answer, ∀ (out : List UInt8) (code : Int) (rest : List Reply),
      (s.trace (.output out [] code :: rest) (.op o)).result = read (Record.captured out).nonEmptyLines := by
  obtain ⟨words, read, hscript⟩ := listing_script ho s.handle
  exact ⟨read, fun out code rest => (trace_asked (fun t => read t.nonEmptyLines) hscript out code rest).2⟩

/-! ## Main result -/

/-- **What a listing comes to depends on its lines alone.** For every handle with any past, every operation that reads one
listing, and any two outputs that write the same lines, each closed by whatever line ends, the operation gives the same
value or ends with the same fault; and the lines that it reads are the lines that were written. -/
theorem listing_ignores_terminators (s : Session) {o : Op} (ho : o.ReadsListing) {ls : List Text}
    (hls : ∀ l ∈ ls, Text.IsLine l) {t u : Text} (ht : Text.Rendering ls t) (hu : Text.Rendering ls u)
    (code code' : Int) (rest rest' : List Reply) :
    (s.trace (.output (Text.Utf8.encode t) [] code :: rest) (.op o)).result =
        (s.trace (.output (Text.Utf8.encode u) [] code' :: rest') (.op o)).result ∧
      (Record.captured (Text.Utf8.encode t)).nonEmptyLines = ls := by
  obtain ⟨read, hread⟩ := trace_listing ho s
  have hlines : (Record.captured (Text.Utf8.encode t)).nonEmptyLines = ls := Text.nonEmptyLines_rendering hls ht
  have hlines' : (Record.captured (Text.Utf8.encode u)).nonEmptyLines = ls := Text.nonEmptyLines_rendering hls hu
  rw [hread, hread, hlines, hlines']
  exact ⟨rfl, rfl⟩

/-- two branches, one of them with a line separator in its name: once with a newline between the lines and none after the
last, once with other line ends before, between and after them -/
theorem listing_ignores_terminators_branches :
    let s : Session := ⟨⟨⟨.here, ["repo"]⟩, "main", "origin", "git", false⟩, .plain 80, []⟩
    let ls : List Text := ["* main", "  b\u2028c"]
    let t : Text := "* main\n  b\u2028c"
    let u : Text := "\r\n* main\r\r\n  b\u2028c\r"
    (∀ l ∈ ls, Text.IsLine l) ∧ Text.Rendering ls t ∧ Text.Rendering ls u ∧
      (s.trace [.output (Text.Utf8.encode t) [] 0] (.op .branches)).result =
        (s.trace [.output (Text.Utf8.encode u) [] 1] (.op .branches)).result ∧
      (Record.captured (Text.Utf8.encode u)).nonEmptyLines = ls := by
  intro s ls t u
  have hls : ∀ l ∈ ls, Text.IsLine l := by
    intro l hl
    rcases List.mem_pair.1 hl with rfl | rfl
    · decide
    · decide
  have ht : Text.Rendering ls t := .closed "* main" (e := '\n') rfl (.unclosed "  b\u2028c")
  have hu : Text.Rendering ls u :=
    .extra (e := '\r') rfl <| .extra (e := '\n') rfl <| .closed "* main" (e := '\r') rfl <| .extra (e := '\r') rfl <|
      .extra (e := '\n') rfl <| .closed "  b\u2028c" (e := '\r') rfl .nil
  obtain ⟨hsame, -⟩ := listing_ignores_terminators s (o := .branches) trivial hls ht hu 0 1 [] []
  obtain ⟨-, hlines⟩ := listing_ignores_terminators s (o := .branches) trivial hls hu ht 1 0 [] []
  exact ⟨hls, ht, hu, hsame, hlines⟩

end RepoLens
