import Mathlib.Tactic
import RepoLens.Proofs.Listing
/-!
The listing of the working tree goes by fields. Before a line is cut into fields, its first two neighbouring blanks become one
space, and the line is trimmed; neither makes a difference to the fields, so neither makes a difference to the reading. What is
read depends on the fields of the lines alone: the blanks around and between them may be any, and only a fault shows them, in the
line that it quotes.

The other side of it is that a blank in a path ends the path. Of an entry with one path, the reading keeps what stands in front of
the first blank, so two paths that agree so far are one file, quotes or not.

Results:
- `statusFiles_eq`, `statusFiles_fieldFault`: the reading is one of fields, up to the line that a fault quotes;
- `collapse_harmless`: collapsing and trimming change nothing, and lines with the same fields are read alike;
- `path_up_to_blank`: an entry with one path is read, and its file has the path up to its first blank;
- `quoted_paths_collide`: two quoted paths that are read as one file.
-/
namespace RepoLens.Listing

open Text

/-! ## What the fields come to -/

/-- why the fields of a line are no entry -/
inductive FieldFault where
  | unknownCode (code : Text)
  | malformed (form : LineForm)
  deriving DecidableEq, Repr

/-- such a fault, with the line that it is told of -/
def FieldFault.inLine (line : Text) : FieldFault → ListingFault
  | unknownCode code => .unknownCode code
  | malformed form => .malformed form line

/-- a fault apart from the line that it quotes -/
def fieldFault : ListingFault → FieldFault
  | .unknownCode code => .unknownCode code
  | .malformed form _ => .malformed form

/-- the file of some fields: a code and a path, and for a rename an arrow and the new path after these -/
def fileOfFields : List Text → Except FieldFault File
  | code :: path :: more => do
    let action ← (changeOfCode code).mapError fieldFault
    if action = .rename then
      match more with
      | _ :: new :: _ => pure ⟨.text new, action, .null⟩
      | _ => throw (.malformed .statusRename)
    else pure ⟨.text path, action, .null⟩
  | _ => throw (.malformed .status)

/-- the files of the working tree, the fields of a line taken in some way -/
def statusFilesBy (fieldsOf : Text → List Text) (t : Text) : Except ListingFault (List File) :=
  t.nonEmptyLines.mapM fun line => (fileOfFields (fieldsOf line)).mapError (FieldFault.inLine line)

/-- a code that is not known is all that can be wrong with a code -/
theorem inLine_changeOfCode {code : Text} {e : ListingFault} (h : changeOfCode code = .error e) (line : Text) :
    (fieldFault e).inLine line = e := by
  unfold changeOfCode at h
  split at h
  · cases h
  · cases h
    rfl

theorem statusFile_eq (line : Text) :
    statusFile line = (fileOfFields (statusFields line)).mapError (FieldFault.inLine line) := by
  unfold statusFile
  rcases statusFields line with _ | ⟨code, _ | ⟨path, more⟩⟩
  · rfl
  · rfl
  · simp only [fileOfFields]
    cases hcode : changeOfCode code with
    | error e => exact congrArg Except.error (inLine_changeOfCode hcode line).symm
    | ok a =>
      by_cases ha : a = .rename
      · subst ha
        rcases more with _ | ⟨arrow, _ | ⟨new, more⟩⟩
        · rfl
        · rfl
        · rfl
      · simp only [bind, Except.bind, Except.mapError, if_neg ha]
        rfl

theorem statusFiles_eq (t : Text) : statusFiles t = statusFilesBy statusFields t :=
  congrArg (fun f => t.nonEmptyLines.mapM f) (funext statusFile_eq)

theorem fieldFault_inLine (line : Text) (x : Except FieldFault File) :
    (x.mapError (FieldFault.inLine line)).mapError fieldFault = x := by
  cases x with
  | ok f => rfl
  | error e => cases e <;> rfl

/-- up to the line that a fault quotes, the fields of the lines are all that counts -/
theorem statusFiles_fieldFault (t : Text) :
    (statusFiles t).mapError fieldFault = (t.nonEmptyLines.map fields).mapM fileOfFields := by
  have hline : ∀ line, (statusFile line).mapError fieldFault = fileOfFields line.fields := by
    intro line
    rw [statusFile_eq, fieldFault_inLine, statusFields_eq]
  rw [statusFiles, mapM_mapError, List.mapM_map, funext hline]
  rfl

/-- **Collapsing is harmless.** In any line, making one space of the first two neighbouring blanks and trimming leave the fields
as they are. So every listing of the working tree is read as it would be without collapsing, and without trimming, to the same
files or the same fault. And two listings whose lines have the same fields, line by line, are read alike, whatever the blanks:
both to the same files, or both to the same fault but for the line that it quotes. An empty line is no line of a listing. -/
theorem collapse_harmless :
    (∀ line : Text, Collapsed line line.collapseFirst ∧ line.collapseFirst.trim.fields = line.fields) ∧
    (∀ t, statusFiles t = statusFilesBy (fun line => line.trim.fields) t ∧ statusFiles t = statusFilesBy fields t) ∧
    ∀ t u : Text, t.nonEmptyLines.map fields = u.nonEmptyLines.map fields →
      (∀ files, statusFiles t = .ok files ↔ statusFiles u = .ok files) ∧
      (statusFiles t).mapError fieldFault = (statusFiles u).mapError fieldFault := by
  refine ⟨fun line => ⟨collapsed_collapseFirst line, statusFields_eq line⟩, ?_, ?_⟩
  · intro t
    have hplain : statusFields = fields := funext statusFields_eq
    have htrim : (fun line : Text => line.trim.fields) = fields := funext fields_trim
    rw [statusFiles_eq, hplain, htrim]
    exact ⟨rfl, rfl⟩
  · intro t u hsame
    have halike : (statusFiles t).mapError fieldFault = (statusFiles u).mapError fieldFault := by
      rw [statusFiles_fieldFault, statusFiles_fieldFault, hsame]
    refine ⟨fun files => ?_, halike⟩
    rw [← mapError_eq_ok, halike, mapError_eq_ok]

/-- two listings of the same fields, one with ideographic spaces, tabs and a line separator, one with CR in its line ends -/
theorem collapse_harmless_rename :
    let t : Text := "R\u3000\told -> new\nAM \u2028 x y"
    let u : Text := " R old\u00a0->  new \r\n\r\nAM x\ty\u3000\r\n"
    t.nonEmptyLines.map fields = u.nonEmptyLines.map fields ∧
      statusFiles t = .ok [⟨.text "new", .rename, .null⟩, ⟨.text "x", .copy, .null⟩] ∧
      statusFiles u = .ok [⟨.text "new", .rename, .null⟩, ⟨.text "x", .copy, .null⟩] := by
  intro t u
  have hsame : t.nonEmptyLines.map fields = u.nonEmptyLines.map fields := by decide
  have hfirst : statusFiles t = .ok [⟨.text "new", .rename, .null⟩, ⟨.text "x", .copy, .null⟩] := by rfl
  obtain ⟨-, -, hfields⟩ := collapse_harmless
  obtain ⟨halike, -⟩ := hfields t u hsame
  exact ⟨hsame, hfirst, (halike _).1 hfirst⟩

/-! ## Paths with blanks -/

/-- a path as it stands at the end of a line: no blank at its start, none at its end, and all of it in one line -/
structure ShownPath where
  text : Text
  nonempty : text ≠ []
  no_newline : '\n' ∉ text
  first_not_blank : text.head?.any isBlank = false
  last_not_blank : text.getLast?.any isBlank = false

theorem ShownPath.first (path : ShownPath) : ∀ c, path.text.head? = some c → isBlank c = false := by
  intro c hc
  have hfirst := path.first_not_blank
  rwa [hc] at hfirst

theorem ShownPath.closable (path : ShownPath) : Closable path.text where
  nonempty := path.nonempty
  no_newline := path.no_newline
  no_cr hcr := by
    have hblank := path.last_not_blank
    rw [hcr] at hblank
    exact absurd hblank (by decide)

/-- the two columns in front of one path -/
def onePathColumns : List Text := ["A ", " A", "D ", " D", "M ", " M", "AM", "??"]

/-- an entry with one path -/
def onePathEntry (columns : Text) (path : ShownPath) : Text := columns ++ ' ' :: path.text

/-- a listing of one line, whose end is there or not -/
def oneLine (line : Text) : Option LineEnd → Text
  | none => line
  | some e => line ++ e.text

theorem nonEmptyLines_oneLine {line : Text} (h : Closable line) (e : Option LineEnd) :
    nonEmptyLines (oneLine line e) = [line] := by
  cases e with
  | none => exact h.nonEmptyLines_alone
  | some e =>
    have hclosed := h.nonEmptyLines_closed e []
    rwa [List.append_nil] at hclosed

/-- the columns hold one code, and it is none of a rename -/
theorem onePathColumns_code {columns : Text} (h : columns ∈ onePathColumns) :
    columns.fields = [columns.trim] ∧
      ∃ a, codeTable.lookup columns.trim = some a ∧ changeOfCode columns.trim = .ok a ∧ a ≠ .rename := by
  simp only [onePathColumns, List.mem_cons, List.not_mem_nil, or_false] at h
  rcases h with rfl | rfl | rfl | rfl | rfl | rfl | rfl | rfl
  all_goals exact ⟨by rfl, _, rfl, rfl, by decide⟩

theorem onePathColumns_no_newline : ∀ columns ∈ onePathColumns, '\n' ∉ columns := by decide

theorem onePathEntry_closable {columns : Text} (h : columns ∈ onePathColumns) (path : ShownPath) :
    Closable (onePathEntry columns path) := by
  have hspaced : Closable (' ' :: path.text) := path.closable.behind (by simp : '\n' ∉ [' '])
  exact hspaced.behind (onePathColumns_no_newline columns h)

/-- the fields of an entry are its code, the path up to its first blank, and whatever is left of the path -/
theorem onePathEntry_fields {columns : Text} (h : columns ∈ onePathColumns) (path : ShownPath) :
    ∃ more, statusFields (onePathEntry columns path) = columns.trim :: upToBlank path.text :: more := by
  obtain ⟨more, hmore⟩ := fields_upToBlank path.nonempty path.first
  have hspace : isBlank ' ' = true := by decide
  refine ⟨more, ?_⟩
  rw [statusFields_eq, onePathEntry, fields_eq_pieces, pieces_append hspace, ← fields_eq_pieces, ← fields_eq_pieces,
    (onePathColumns_code h).1, hmore, List.singleton_append]

theorem statusFiles_onePath {columns : Text} (h : columns ∈ onePathColumns) {a : Action}
    (ha : codeTable.lookup columns.trim = some a) (path : ShownPath) (e : Option LineEnd) :
    statusFiles (oneLine (onePathEntry columns path) e) = .ok [⟨.text (upToBlank path.text), a, .null⟩] := by
  obtain ⟨-, b, hb, hcode, hrename⟩ := onePathColumns_code h
  obtain rfl : a = b := Option.some.inj (ha.symm.trans hb)
  obtain ⟨more, hfields⟩ := onePathEntry_fields h path
  rw [statusFiles, nonEmptyLines_oneLine (onePathEntry_closable h path), mapM_eq_ok]
  exact .cons (statusFile_of_fields hfields hcode hrename) .nil

/-- **A blank ends the path.** Any entry with one path is read, to one file with the action of its code and no owner, whose name
is the path up to its first blank: the whole path exactly if there is no blank in it. So two paths behind the same columns give
the same file exactly if they agree up to their first blanks. -/
theorem path_up_to_blank {columns : Text} (h : columns ∈ onePathColumns) (p q : ShownPath) (e e' : Option LineEnd) :
    (∃ a, codeTable.lookup columns.trim = some a ∧
      statusFiles (oneLine (onePathEntry columns p) e) = .ok [⟨.text (upToBlank p.text), a, .null⟩]) ∧
    (upToBlank p.text = p.text ↔ ∀ c ∈ p.text, isBlank c = false) ∧
    (statusFiles (oneLine (onePathEntry columns p) e) = statusFiles (oneLine (onePathEntry columns q) e') ↔
      upToBlank p.text = upToBlank q.text) := by
  obtain ⟨-, a, ha, -, -⟩ := onePathColumns_code h
  refine ⟨⟨a, ha, statusFiles_onePath h ha p e⟩, upToBlank_eq_self, ?_⟩
  rw [statusFiles_onePath h ha p e, statusFiles_onePath h ha q e']
  simp

/-- an untracked path with a no-break space in it, and one that ends there -/
theorem path_up_to_blank_untracked :
    let p : ShownPath := ⟨"a\u00a0b", by decide, by decide, by decide, by decide⟩
    let q : ShownPath := ⟨"a", by decide, by decide, by decide, by decide⟩
    "??".toList ∈ onePathColumns ∧
      statusFiles (oneLine (onePathEntry "??" p) none) = statusFiles (oneLine (onePathEntry "??" q) (some .crlf)) := by
  intro p q
  have hcolumns : "??".toList ∈ onePathColumns := by decide
  obtain ⟨-, -, hsame⟩ := path_up_to_blank hcolumns p q none (some .crlf)
  exact ⟨hcolumns, hsame.2 (by decide)⟩

/-- two files with a space in their names, as git quotes them: both are read as one that there is not -/
theorem quoted_paths_collide :
    let p : ShownPath := ⟨"\"my notes.txt\"", by decide, by decide, by decide, by decide⟩
    let q : ShownPath := ⟨"\"my plan.txt\"", by decide, by decide, by decide, by decide⟩
    p.text ≠ q.text ∧
      statusFiles (oneLine (onePathEntry "??" p) (some .newline)) = .ok [⟨.text "\"my", .add, .null⟩] ∧
      statusFiles (oneLine (onePathEntry "??" q) (some .newline)) = .ok [⟨.text "\"my", .add, .null⟩] := by
  intro p q
  exact ⟨by decide, by rfl, by rfl⟩

end RepoLens.Listing
