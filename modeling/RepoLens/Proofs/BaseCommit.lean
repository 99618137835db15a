import Mathlib.Tactic
import RepoLens.Proofs.BranchLog
import RepoLens.Display
/-!
The label of the base commit. The commits of a branch come with the oldest first, and the oldest without its files; a table
labels a commit as the base of the branch if it has no files. A later commit whose diff lists nothing has no files either, and
is labelled like the base.

Results:
- `commitTable_ok`: the rows of commits whose texts are texts; of the rows of one commit only the first can be a label;
- `commits_ok`: what the commits of a branch are, each with the reply that its files were read from;
- `base_label_rows`: the table of the commits of a branch, and which of its rows are labels;
- `empty_commit_labelled`: a later commit that is labelled as the base.
-/
namespace RepoLens

/-! ## Rows -/

namespace Display

/-- a row that labels its commit as the base of the branch -/
def isBaseRow (row : List Text) : Bool := row.drop 1 = [[], baseLabel]

def Named (f : File) : Prop := ∃ name action owner, f = ⟨.text name, action, owner⟩

/-- the rows of a commit: the identifier stands in the first one, which alone can be a label, and is one under a condition -/
def CommitRows (id : Text) (labelled : Prop) (rows : List (List Text)) : Prop :=
  ∃ first rest, rows = first :: rest ∧ first.head? = some (shortText id) ∧ (isBaseRow first = true ↔ labelled) ∧
    ∀ row ∈ rest, row.head? = some [] ∧ isBaseRow row = false

variable {id : Text} {files : List File} {rows : List (List Text)} {cs : List Commit} {blocks : List (List (List Text))}

theorem shortId_text (id : Text) : shortId (.text id) = .ok (.text (shortText id)) := by
  cases id with
  | nil => rfl
  | cons c r => rfl

/-- a label with its identifier -/
theorem baseRow_eq {row : List Text} (hhead : row.head? = some id) (hlabel : isBaseRow row = true) : row = [id, [], baseLabel] := by
  cases row with
  | nil => cases hhead
  | cons c r =>
    obtain rfl := Option.some.inj hhead
    rw [isBaseRow, decide_eq_true_eq, List.drop_succ_cons, List.drop_zero] at hlabel
    rw [hlabel]

/-- the row of a file is no label: its change stands in it -/
theorem isBaseRow_change (id name : Text) (a : Action) : isBaseRow [id, a.label, name] = false := by
  simp [isBaseRow, Action.label]

theorem changeRow_text (id name : Text) (a : Action) (owner : Value) :
    changeRow id ⟨.text name, a, owner⟩ = .ok [id, a.label, name] := rfl

/-- the rows of named files: each starts with the same cell, and none of them is a label -/
theorem changeRows_ok (id : Text) (hfiles : ∀ f ∈ files, Named f) :
    ∃ rows, files.mapM (changeRow id) = .ok rows ∧ ∀ row ∈ rows, row.head? = some id ∧ isBaseRow row = false := by
  have hrow : ∀ f ∈ files, ∃ row, changeRow id f = .ok row ∧ row.head? = some id ∧ isBaseRow row = false := by
    intro f hf
    obtain ⟨name, action, owner, rfl⟩ := hfiles f hf
    exact ⟨_, changeRow_text id name action owner, rfl, isBaseRow_change id name action⟩
  obtain ⟨rows, hrows, hshape⟩ := Listing.exists_mapM_ok (R := fun _ row => row.head? = some id ∧ isBaseRow row = false) hrow
  refine ⟨rows, hrows, fun row hrow => ?_⟩
  obtain ⟨f, -, hrow⟩ := Listing.mem_of_forall₂ hshape hrow
  exact hrow

theorem commitRows_ok (id : Text) (hfiles : ∀ f ∈ files, Named f) :
    ∃ rows, commitRows ⟨.text id, files⟩ = .ok rows ∧ CommitRows id (files = []) rows := by
  have hid : (⟨.text id, files⟩ : Commit).shortId = .ok (.text (shortText id)) := shortId_text id
  have hcell : cell (.text (shortText id)) = .ok (shortText id) := rfl
  simp only [commitRows, hid, hcell, bind, Except.bind]
  cases files with
  | nil => exact ⟨[[shortText id, [], baseLabel]], rfl, _, [], rfl, rfl, by simp [isBaseRow], by simp⟩
  | cons f files =>
    obtain ⟨name, action, owner, rfl⟩ := hfiles f List.mem_cons_self
    obtain ⟨rest, hrest, hshape⟩ := changeRows_ok [] fun g hg => hfiles g (List.mem_cons_of_mem _ hg)
    simp only [changeRow_text, hrest]
    exact ⟨[shortText id, action.label, name] :: rest, rfl, _, rest, rfl, rfl, by simp [isBaseRow_change], hshape⟩

/-- the table of commits whose identifiers and file names are texts, one block of rows for each commit -/
theorem commitTable_ok (hcs : ∀ c ∈ cs, ∃ id, c.id = .text id ∧ ∀ f ∈ c.files, Named f) (title : Text) :
    ∃ blocks : List (List (List Text)),
      commitTable cs title = .ok ⟨title, [commitColumn, actionColumn, fileColumn], blocks.flatten, true, true⟩ ∧
      List.Forall₂ (fun c rows => ∃ id, c.id = .text id ∧ CommitRows id (c.files = []) rows) cs blocks := by
  have hrows : ∀ c ∈ cs, ∃ rows, commitRows c = .ok rows ∧ ∃ id, c.id = .text id ∧ CommitRows id (c.files = []) rows := by
    intro c hc
    obtain ⟨id, hid, hfiles⟩ := hcs c hc
    obtain ⟨rows, hrows, hshape⟩ := commitRows_ok id hfiles
    exact ⟨rows, by rw [← hrows, ← hid], id, hid, hshape⟩
  obtain ⟨blocks, hblocks, hshape⟩ := Listing.exists_mapM_ok hrows
  exact ⟨blocks, by rw [commitTable, hblocks]; rfl, hshape⟩

/-- a block of rows has one label or none -/
theorem CommitRows.count {labelled : Prop} [Decidable labelled] (h : CommitRows id labelled rows) :
    rows.countP isBaseRow = if labelled then 1 else 0 := by
  obtain ⟨first, rest, rfl, -, hfirst, hrest⟩ := h
  have hnone : rest.countP isBaseRow = 0 := by
    rw [List.countP_eq_zero]
    intro row hrow
    simp [(hrest row hrow).2]
  by_cases hl : labelled
  · rw [List.countP_cons_of_pos (hfirst.2 hl), hnone, if_pos hl]
  · rw [List.countP_cons_of_neg (fun h => hl (hfirst.1 h)), hnone, if_neg hl]

/-- as many rows are labels as there are commits without files -/
theorem count_labels (h : List.Forall₂ (fun c rows => ∃ id, c.id = .text id ∧ CommitRows id (c.files = []) rows) cs blocks) :
    blocks.flatten.countP isBaseRow = cs.countP fun c => c.files.isEmpty := by
  induction h with
  | nil => rfl
  | @cons c rows cs blocks hc _ ih =>
    obtain ⟨id, -, hrows⟩ := hc
    have hcount : rows.countP isBaseRow = if c.files.isEmpty then 1 else 0 := by
      rw [hrows.count]
      simp [List.isEmpty_iff]
    rw [List.flatten_cons, List.countP_append, List.countP_cons, ih, hcount, Nat.add_comm]

end Display

namespace Repository

open Script

variable {h : Handle} {screen : Console.Screen} {past : List Record} {replies : List Reply} {branch : Text} {cs : List Commit}

/-- commits come only if every diff can be read: the first one that cannot would end the run -/
theorem diffs_read {base : Text} {later : List Text} (hok : ((commitsOf (base :: later)).run h screen past replies).result = .ok cs) :
    ∀ k id, later[k]? = some id → ∃ files, DiffGives id (Reply.nth replies k) files := by
  by_contra hnot
  have hunread : ∃ k, ∃ id, later[k]? = some id ∧ ¬ ∃ files, DiffGives id (Reply.nth replies k) files := by
    push Not at hnot
    obtain ⟨k, id, hk, hd⟩ := hnot
    exact ⟨k, id, hk, by simpa using hd⟩
  classical
  obtain ⟨id, hk, hd⟩ := Nat.find_spec hunread
  have hread : ∀ j id', j < Nat.find hunread → later[j]? = some id' → ∃ files, DiffGives id' (Reply.nth replies j) files := by
    intro j id' hj hid
    by_contra hd'
    exact Nat.find_min hunread hj ⟨id', hid, hd'⟩
  obtain ⟨-, f, hf, -⟩ := @run_commitsOf_unread h screen past replies base id later _ hk hread hd
  rw [hok] at hf
  cases hf

/-- **What the commits of a branch are.** The oldest has no files, each later one has those that the reply in its place lists. -/
theorem commits_ok (hok : ((commits branch).run h screen past replies).result = .ok cs) :
    let ids := Listing.commitIds (Reply.nth replies 0).stdout
    cs.length = ids.length ∧ ∀ k id, ids[k]? = some id → ∃ files, cs[k]? = some ⟨.text id, files⟩ ∧
      (k = 0 ∧ files = [] ∨ k ≠ 0 ∧ DiffGives id (Reply.nth replies k) files) := by
  intro ids
  rw [commits_eq] at hok
  obtain ⟨out, code, hlog, hrest⟩ := run_git_ok hok
  have hids : ids = Listing.commitIds (Record.captured out) := by
    simp only [ids, hlog]
    rfl
  rw [← hids] at hrest
  cases hcases : ids with
  | nil =>
    rw [hcases] at hrest
    obtain rfl : [] = cs := Except.ok.inj hrest
    simp
  | cons base later =>
    rw [hcases] at hrest
    obtain ⟨cs', hres, hlen, hcs⟩ := @run_commitsOf_read h screen _ replies.tail base later (diffs_read hrest)
    rw [hres] at hrest
    obtain rfl := Except.ok.inj hrest
    refine ⟨by simp [hlen], fun k id hk => ?_⟩
    cases k with
    | zero =>
      obtain rfl : base = id := by simpa using hk
      exact ⟨[], rfl, Or.inl ⟨rfl, rfl⟩⟩
    | succ k =>
      obtain ⟨files, hd, hc⟩ := hcs k id (by simpa using hk)
      rw [Reply.nth_tail] at hd
      exact ⟨files, by simpa using hc, Or.inr ⟨k.succ_ne_zero, hd⟩⟩

/-- a commit of a branch: its texts are texts, and it has no files if it is the oldest or its diff lists nothing -/
theorem commits_entry (hok : ((commits branch).run h screen past replies).result = .ok cs) {k : Nat} {c : Commit}
    (hk : cs[k]? = some c) :
    ∃ id, (Listing.commitIds (Reply.nth replies 0).stdout)[k]? = some id ∧ c.id = .text id ∧
      (c.files = [] ↔ k = 0 ∨ (Reply.nth replies k).stdout.nonEmptyLines = []) ∧ ∀ f ∈ c.files, Display.Named f := by
  obtain ⟨hlen, hcs⟩ := commits_ok hok
  have hlt : k < (Listing.commitIds (Reply.nth replies 0).stdout).length := hlen ▸ (List.getElem?_eq_some_iff.1 hk).1
  obtain ⟨files, hfiles, hcases⟩ := hcs k _ (List.getElem?_eq_getElem hlt)
  obtain rfl := Option.some.inj (hk.symm.trans hfiles)
  refine ⟨_, List.getElem?_eq_getElem hlt, rfl, ?_, ?_⟩
  · rcases hcases with ⟨rfl, rfl⟩ | ⟨hne, hd⟩
    · simp
    · rw [Listing.committedFiles_eq_nil hd.2, or_iff_right hne]
  · intro f hf
    rcases hcases with ⟨-, rfl⟩ | ⟨-, hd⟩
    · cases hf
    · obtain ⟨name, action, rfl⟩ := Listing.committedFiles_shape hd.2 f hf
      exact ⟨name, action, _, rfl⟩

/-- the oldest commit alone has no files exactly if every later diff lists something -/
theorem count_empty (hok : ((commits branch).run h screen past replies).result = .ok cs) (hne : cs ≠ []) :
    (cs.countP fun c => c.files.isEmpty) = 1 ↔
      ∀ k, 0 < k → k < cs.length → (Reply.nth replies k).stdout.nonEmptyLines ≠ [] := by
  obtain ⟨base, later, rfl⟩ := List.exists_cons_of_ne_nil hne
  have hentry : ∀ k c, (base :: later)[k]? = some c →
      (c.files.isEmpty = true ↔ k = 0 ∨ (Reply.nth replies k).stdout.nonEmptyLines = []) := by
    intro k c hk
    obtain ⟨id, -, -, hfiles, -⟩ := commits_entry hok hk
    rw [List.isEmpty_iff, hfiles]
  have hbase : base.files.isEmpty = true := (hentry 0 base rfl).2 (Or.inl rfl)
  rw [List.countP_cons, if_pos hbase, Nat.add_eq_right, List.countP_eq_zero]
  constructor
  · intro hnone k hpos hk hun
    obtain ⟨j, rfl⟩ := Nat.exists_eq_succ_of_ne_zero hpos.ne'
    have hj : j < later.length := by simpa using hk
    exact hnone _ (List.getElem_mem hj) ((hentry (j + 1) later[j] (by simp [hj])).2 (Or.inr hun))
  · intro hlisted c hc hempty
    obtain ⟨j, hj⟩ := List.mem_iff_getElem?.1 hc
    have hlt : j + 1 < (base :: later).length := by simpa using (List.getElem?_eq_some_iff.1 hj).1
    rcases (hentry (j + 1) c (by simpa using hj)).1 hempty with hzero | hun
    · exact absurd hzero j.succ_ne_zero
    · exact hlisted (j + 1) j.succ_pos hlt hun

/-- **Which rows are labelled as the base.** The table of the commits of a branch has a block of rows for each commit, the oldest
first, with its short identifier in the first row. The first row of all is the label of the oldest commit. Another row is a
label only if it is the first of a commit whose diff lists nothing, and then it is one; so the label of the oldest commit is the
only one exactly if every later diff lists something. -/
theorem base_label_rows (h : Handle) (screen : Console.Screen) (past : List Record) (replies : List Reply) (branch title : Text)
    (cs : List Commit) (hok : ((commits branch).run h screen past replies).result = .ok cs) (hne : cs ≠ []) :
    let ids := Listing.commitIds (Reply.nth replies 0).stdout
    let unlisted := fun k => (Reply.nth replies k).stdout.nonEmptyLines = []
    ∃ blocks : List (List (List Text)),
      Display.commitTable cs title =
        .ok ⟨title, [Display.commitColumn, Display.actionColumn, Display.fileColumn], blocks.flatten, true, true⟩ ∧
      ids.length = cs.length ∧ blocks.length = cs.length ∧
      (∀ k id, ids[k]? = some id → ∃ rows, blocks[k]? = some rows ∧ Display.CommitRows id (k = 0 ∨ unlisted k) rows) ∧
      (∃ base, ids.head? = some base ∧ blocks.flatten.head? = some [shortText base, [], Display.baseLabel]) ∧
      (blocks.flatten.countP Display.isBaseRow = 1 ↔ ∀ k, 0 < k → k < cs.length → ¬ unlisted k) := by
  intro ids unlisted
  have hlen : ids.length = cs.length := (commits_ok hok).1.symm
  have hnamed : ∀ c ∈ cs, ∃ id, c.id = .text id ∧ ∀ f ∈ c.files, Display.Named f := by
    intro c hc
    obtain ⟨k, hk⟩ := List.mem_iff_getElem?.1 hc
    obtain ⟨id, -, hid, -, hnamed⟩ := commits_entry hok hk
    exact ⟨id, hid, hnamed⟩
  obtain ⟨blocks, htable, hshape⟩ := Display.commitTable_ok hnamed title
  have hblocks : ∀ k id, ids[k]? = some id →
      ∃ rows, blocks[k]? = some rows ∧ Display.CommitRows id (k = 0 ∨ unlisted k) rows := by
    intro k id hk
    have hlt : k < cs.length := hlen ▸ (List.getElem?_eq_some_iff.1 hk).1
    obtain ⟨id', hk', hid, hfiles, -⟩ := commits_entry hok (List.getElem?_eq_getElem hlt)
    obtain ⟨rows, hrows, id'', hid', hshape⟩ := Listing.getElem?_of_forall₂ hshape (List.getElem?_eq_getElem hlt)
    obtain rfl : id = id' := Option.some.inj (hk.symm.trans hk')
    obtain rfl : id = id'' := Value.text.inj (hid.symm.trans hid')
    exact ⟨rows, hrows, by simpa only [hfiles] using hshape⟩
  refine ⟨blocks, htable, hlen, hshape.length_eq.symm, hblocks, ?_, ?_⟩
  · obtain ⟨base, rest, hids⟩ : ∃ base rest, ids = base :: rest := by
      apply List.exists_cons_of_ne_nil
      intro hnil
      exact hne (List.length_eq_zero_iff.1 (by rw [← hlen, hnil]; rfl))
    obtain ⟨rows, hrows, first, others, rfl, hhead, hlabel, -⟩ := hblocks 0 base (by rw [hids]; rfl)
    obtain ⟨more, rfl⟩ : ∃ more, blocks = (first :: others) :: more := by
      cases blocks with
      | nil => cases hrows
      | cons b more => exact ⟨more, by rw [Option.some.inj hrows]⟩
    refine ⟨base, by rw [hids]; rfl, ?_⟩
    rw [Display.baseRow_eq hhead (hlabel.2 (Or.inl rfl))]
    rfl
  · rw [Display.count_labels hshape]
    exact count_empty hok hne

/-- a branch with two commits, of which the later one changes a file -/
theorem base_label_rows_listed :
    let h : Handle := ⟨⟨.here, ["repo"]⟩, "main", "origin", "git", false⟩
    let replies : List Reply := [.output (Text.Utf8.encode "b\na\n") [] 0, .output (Text.Utf8.encode "M\tx\n") [] 0]
    let cs : List Commit := [⟨.text "a", []⟩, ⟨.text "b", [⟨.text "x", .modify, .text "b"⟩]⟩]
    ((commits "main").run h (.plain 80) [] replies).result = .ok cs ∧ cs ≠ [] ∧
      ∃ t, Display.commitTable cs "main" = .ok t ∧ t.rows.countP Display.isBaseRow = 1 := by
  intro h replies cs
  have hok : ((commits "main").run h (.plain 80) [] replies).result = .ok cs := by rfl
  have hne : cs ≠ [] := by simp [cs]
  obtain ⟨blocks, htable, -, -, -, -, hcount⟩ := base_label_rows h (.plain 80) [] replies "main" "main" cs hok hne
  refine ⟨hok, hne, _, htable, hcount.2 fun k hpos hk => ?_⟩
  obtain rfl : k = 1 := by
    have hlt : k < 2 := hk
    omega
  decide

/-- a branch with two commits, of which the later one changes nothing: both are labelled as the base -/
theorem empty_commit_labelled :
    let h : Handle := ⟨⟨.here, ["repo"]⟩, "main", "origin", "git", false⟩
    let replies : List Reply := [.output (Text.Utf8.encode "b\na\n") [] 0, .output [] [] 0]
    let cs : List Commit := [⟨.text "a", []⟩, ⟨.text "b", []⟩]
    ((commits "main").run h (.plain 80) [] replies).result = .ok cs ∧
      ∃ t, Display.commitTable cs "main" = .ok t ∧
        t.rows = ([[['a'], [], Display.baseLabel], [['b'], [], Display.baseLabel]] : List (List Text)) ∧ t.rows.countP Display.isBaseRow = 2 := by
  intro h replies cs
  refine ⟨by rfl, _, rfl, rfl, by decide⟩

end Repository

end RepoLens
