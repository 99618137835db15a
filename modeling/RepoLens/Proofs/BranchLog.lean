import Mathlib.Tactic
import RepoLens.Proofs.Listing
import RepoLens.Proofs.Plan
import RepoLens.Repository
/-!
The commits of a branch: one log, which lists the identifiers from the newest to the oldest, and then one diff for each
commit but the oldest, from the oldest on. The diff of a commit is the reply one place after the commit's own place, and
the first diff that fails or cannot be read is the last one asked for.

Results:
- `commitsOf_follows`: after the log, the operation keeps to the plan of diffs;
- `run_each_read`: as long as the diffs can be read, the commits come out in order, each with its own files;
- `commits_of_branch`: what is sent, what the caller gets when every diff can be read, and where and how it ends when
  one cannot.
-/
namespace RepoLens.Repository

open Script

/-! ## The plan -/

/-- the command that lists the commits of a branch -/
def logWords (branch : Text) : List Text := ["log", "--pretty=%H", branch]

/-- the command that lists the files of a commit -/
def diffWords (id : Text) : List Text := ["diff-tree", "--no-commit-id", "--name-status", "-r", id]

/-- the commits of some identifiers, oldest first, by one diff for each but the first -/
def commitsOf : List Text → Script (List Commit)
  | [] => done []
  | base :: later => (each commitWithFiles later).bind fun rest => done (⟨.text base, []⟩ :: rest)

/-- git answers quietly, with a diff that gives these files of a commit -/
def DiffGives (id : Text) (reply : Reply) (files : List File) : Prop :=
  reply.Quiet ∧ Listing.committedFiles reply.stdout id = .ok files

/-- the fault of a diff that fails, or cannot be read -/
def DiffFault (h : Handle) (past : List Record) (id : Text) (reply : Reply) (f : Fault) : Prop :=
  reply.fault? h.binary past (h.argv (diffWords id)) = some f ∨
    ∃ cause, reply.Quiet ∧ Listing.committedFiles reply.stdout id = .error cause ∧ f = .git (.commitListing id cause)

theorem commits_eq (branch : Text) :
    commits branch = git (.list (logWords branch)) false fun r => commitsOf (Listing.commitIds r.stdout) := by
  have hmatch : (fun ids => match ids with
      | [] => done []
      | base :: later => (each commitWithFiles later).bind fun rest => done (⟨.text base, []⟩ :: rest)) = commitsOf := by
    funext ids
    cases ids <;> rfl
  rw [← hmatch]
  rfl

theorem commitWithFiles_eq (id : Text) :
    commitWithFiles id = git (.list (diffWords id)) false fun r =>
      (Script.ofExcept (.git ∘ .commitListing id) (Listing.committedFiles r.stdout id)).bind fun files =>
        done ⟨.text id, files⟩ := rfl

theorem commitWithFiles_follows (id : Text) : (commitWithFiles id).Follows [diffWords id] := by
  rw [commitWithFiles_eq]
  refine ⟨rfl, _, _, rfl, rfl, fun r => ?_⟩
  rw [← List.nil_append []]
  exact follows_bind (follows_ofExcept _ _) fun files => rfl

theorem commitsOf_follows (ids : List Text) : (commitsOf ids).Follows (ids.tail.map diffWords) := by
  cases ids with
  | nil => rfl
  | cons base later =>
    have heach := follows_each fun id (_ : id ∈ later) => commitWithFiles_follows id
    rw [← List.map_eq_flatMap] at heach
    rw [List.tail_cons, ← List.append_nil (later.map diffWords)]
    exact follows_bind heach fun rest => rfl

variable {h : Handle} {screen : Console.Screen} {past : List Record} {replies : List Reply}

/-! ## One diff -/

theorem run_diff_read {γ : Type} {id : Text} {files : List File} (next : Commit → Script γ)
    (hd : DiffGives id (Reply.nth replies 0) files) :
    ∃ console r, ((commitWithFiles id).bind next).run h screen past replies =
      ((next ⟨.text id, files⟩).run h screen (past ++ [r]) replies.tail).after [h.argv (diffWords id)] console [r] := by
  obtain ⟨⟨out, code, hr⟩, hfiles⟩ := hd
  rw [hr] at hfiles
  have hread : Listing.committedFiles (Record.captured out) id = .ok files := hfiles
  rw [commitWithFiles_eq, Script.bind, run_git_quiet hr]
  simp only [hread]
  exact ⟨_, _, rfl⟩

/-- a diff that fails, or cannot be read, ends the operation -/
theorem run_diff_unread {γ : Type} {id : Text} (next : Commit → Script γ)
    (hd : ¬ ∃ files, DiffGives id (Reply.nth replies 0) files) :
    ∃ f console added, ((commitWithFiles id).bind next).run h screen past replies =
        ⟨.error f, [h.argv (diffWords id)], console, added⟩ ∧
      DiffFault h (past ++ added) id (Reply.nth replies 0) f := by
  rw [commitWithFiles_eq, Script.bind]
  by_cases hq : (Reply.nth replies 0).Quiet
  · obtain ⟨out, code, hr⟩ := hq
    cases hread : Listing.committedFiles (Record.captured out) id with
    | ok files => exact absurd ⟨files, ⟨out, code, hr⟩, by rw [hr]; exact hread⟩ hd
    | error cause =>
      rw [run_git_quiet hr]
      simp only [hread]
      exact ⟨_, _, _, rfl, Or.inr ⟨cause, ⟨out, code, hr⟩, by rw [hr]; exact hread, rfl⟩⟩
  · obtain ⟨f, hf⟩ := Reply.fault_of_not_quiet hq h.binary past (h.argv (diffWords id))
    rw [run_git_fault hf]
    exact ⟨f, _, [], rfl, Or.inl (by rwa [List.append_nil])⟩

/-! ## All diffs -/

/-- **As long as the diffs can be read** the commits come out in the order of the identifiers, each with the files that
its own reply gives, and what is left to do runs with the replies that are left. The induction is on the identifiers
whose diffs can be read. -/
theorem run_each_read {γ : Type} {read : List Text} (unread : List Text) (next : List Commit → Script γ)
    (hr : ∀ k id, read[k]? = some id → ∃ files, DiffGives id (Reply.nth replies k) files) :
    ∃ cs console added, cs.length = read.length ∧
      (∀ k id, read[k]? = some id → ∃ files, DiffGives id (Reply.nth replies k) files ∧
        cs[k]? = some ⟨.text id, files⟩) ∧
      ((each commitWithFiles (read ++ unread)).bind next).run h screen past replies =
        (((each commitWithFiles unread).bind fun more => next (cs ++ more)).run h screen (past ++ added)
          (replies.drop read.length)).after ((read.map diffWords).map h.argv) console added := by
  induction read generalizing past replies next with
  | nil => exact ⟨[], [], [], rfl, by simp, by simp [Trace.after]⟩
  | cons id read ih =>
    obtain ⟨files, hd⟩ := hr 0 id rfl
    have hrest : ∀ k id', read[k]? = some id' → ∃ files, DiffGives id' (Reply.nth replies.tail k) files := by
      intro k id' hk
      obtain ⟨files', hd'⟩ := hr (k + 1) id' (by simpa using hk)
      exact ⟨files', by rwa [Reply.nth_tail]⟩
    have hsplit : (each commitWithFiles (id :: read ++ unread)).bind next =
        (commitWithFiles id).bind fun c => (each commitWithFiles (read ++ unread)).bind fun more => next (c :: more) := by
      simp only [List.cons_append, each, bind_assoc]
      rfl
    obtain ⟨console, r, hone⟩ := @run_diff_read h screen past replies _ _ _
      (fun c => (each commitWithFiles (read ++ unread)).bind fun more => next (c :: more)) hd
    obtain ⟨cs, console', added, hlen, hcs, hrun⟩ :=
      @ih (past ++ [r]) replies.tail (fun more => next (⟨.text id, files⟩ :: more)) hrest
    refine ⟨⟨.text id, files⟩ :: cs, console ++ console', r :: added, by simp [hlen], ?_, ?_⟩
    · intro k id' hk
      cases k with
      | zero =>
        simp only [List.getElem?_cons_zero, Option.some.injEq] at hk
        subst hk
        exact ⟨files, hd, rfl⟩
      | succ k =>
        obtain ⟨files', hd', hc'⟩ := hcs k id' (by simpa using hk)
        exact ⟨files', by rwa [← Reply.nth_tail], by simpa using hc'⟩
    · rw [hsplit, hone, hrun, Trace.after_after]
      simp [List.append_assoc]

theorem run_commitsOf_read {base : Text} {later : List Text}
    (hr : ∀ k id, later[k]? = some id → ∃ files, DiffGives id (Reply.nth replies k) files) :
    ∃ cs, ((commitsOf (base :: later)).run h screen past replies).result = .ok (⟨.text base, []⟩ :: cs) ∧
      cs.length = later.length ∧
      ∀ k id, later[k]? = some id → ∃ files, DiffGives id (Reply.nth replies k) files ∧
        cs[k]? = some ⟨.text id, files⟩ := by
  obtain ⟨cs, console, added, hlen, hcs, hrun⟩ := @run_each_read h screen past replies _ _ []
    (fun rest => done (⟨.text base, []⟩ :: rest)) hr
  rw [List.append_nil] at hrun
  refine ⟨cs, ?_, hlen, hcs⟩
  rw [commitsOf, hrun]
  simp [each, Script.bind]

/-- the first diff that fails or cannot be read is the last one asked for -/
theorem run_commitsOf_unread {base id : Text} {later : List Text} {k : Nat} (hk : later[k]? = some id)
    (hr : ∀ j id', j < k → later[j]? = some id' → ∃ files, DiffGives id' (Reply.nth replies j) files)
    (hd : ¬ ∃ files, DiffGives id (Reply.nth replies k) files) :
    let t := (commitsOf (base :: later)).run h screen past replies
    t.sent = ((later.take (k + 1)).map diffWords).map h.argv ∧
      ∃ f, t.result = .error f ∧ DiffFault h (past ++ t.added) id (Reply.nth replies k) f := by
  obtain ⟨hlt, hid⟩ := List.getElem?_eq_some_iff.1 hk
  have hsplit : later = later.take k ++ id :: later.drop (k + 1) := by
    rw [← hid, List.getElem_cons_drop, List.take_append_drop]
  have htake : (later.take k).length = k := List.length_take_of_le hlt.le
  have hread : ∀ j id', (later.take k)[j]? = some id' → ∃ files, DiffGives id' (Reply.nth replies j) files := by
    intro j id' hj
    have hjk : j < k := by rw [← htake]; exact (List.getElem?_eq_some_iff.1 hj).1
    exact hr j id' hjk (by rwa [List.getElem?_take_of_lt hjk] at hj)
  obtain ⟨cs, console, added, -, -, hrun⟩ := @run_each_read h screen past replies _ _ (id :: later.drop (k + 1))
    (fun rest => done (⟨.text base, []⟩ :: rest)) hread
  rw [← hsplit, each, bind_assoc, htake] at hrun
  rw [← Nat.add_zero k, ← Reply.nth_drop] at hd
  obtain ⟨f, console', added', hstop, hfault⟩ := @run_diff_unread h screen (past ++ added) (replies.drop k) _ id
    (fun c => ((each commitWithFiles (later.drop (k + 1))).bind fun bs => done (c :: bs)).bind fun more =>
      done (⟨.text base, []⟩ :: (cs ++ more))) hd
  rw [hstop] at hrun
  rw [Reply.nth_drop, Nat.add_zero, List.append_assoc] at hfault
  intro t
  have ht : t = _ := hrun
  rw [ht]
  refine ⟨?_, f, rfl, hfault⟩
  rw [List.take_add_one, hk]
  simp

/-! ## Main result -/

/-- **The commits of a branch.** Let git answer the log quietly, and let `ids` be the lines of its output that hold
something, in reverse. The run sends the log and then one diff for each identifier but the first, in order. If every
diff can be read, the caller gets one commit for each identifier, in order: the first without files, each later one
with the files that the reply in its own place gives, all owned by it. If some diff fails or cannot be read, the first
such diff is the last command, and the outcome is its fault: that of the command, or the fault of a listing, with the
identifier of the commit. -/
theorem commits_of_branch (h : Handle) (screen : Console.Screen) (past : List Record) (replies : List Reply) (branch : Text)
    (out : List UInt8) (code : Int) (hlog : Reply.nth replies 0 = .output out [] code) :
    let t := (commits branch).run h screen past replies
    let ids := (Record.captured out).nonEmptyLines.reverse
    let plan := logWords branch :: ids.tail.map diffWords
    t.sent <+: plan.map h.argv ∧
    ((∀ k id, ids[k + 1]? = some id → ∃ files, DiffGives id (Reply.nth replies (k + 1)) files) →
      t.sent = plan.map h.argv ∧ ∃ cs, t.result = .ok cs ∧ cs.length = ids.length ∧
        (∀ id, ids[0]? = some id → cs[0]? = some ⟨.text id, []⟩) ∧
        ∀ k id, ids[k + 1]? = some id → ∃ files, DiffGives id (Reply.nth replies (k + 1)) files ∧
          (∀ f ∈ files, f.commitId = .text id) ∧ cs[k + 1]? = some ⟨.text id, files⟩) ∧
    ∀ k id, ids[k + 1]? = some id →
      (∀ j id', j < k → ids[j + 1]? = some id' → ∃ files, DiffGives id' (Reply.nth replies (j + 1)) files) →
      (¬ ∃ files, DiffGives id (Reply.nth replies (k + 1)) files) →
      t.sent = (plan.take (k + 2)).map h.argv ∧
        ∃ f, t.result = .error f ∧ DiffFault h (past ++ t.added) id (Reply.nth replies (k + 1)) f := by
  intro t ids plan
  obtain ⟨r, console, ht⟩ : ∃ r console, t =
      ((commitsOf ids).run h screen (past ++ [r]) replies.tail).after [h.argv (logWords branch)] console [r] := by
    simp only [t, commits_eq]
    exact ⟨_, _, run_git_quiet hlog⟩
  have hfollows : t.Follows h past replies plan := by
    rw [ht]
    exact Trace.Follows.cons ⟨out, code, hlog⟩ (run_follows (commitsOf_follows ids))
  refine ⟨hfollows.sent, ?_, ?_⟩
  · intro hr
    suffices hok : ∃ cs, t.result = .ok cs ∧ cs.length = ids.length ∧
        (∀ id, ids[0]? = some id → cs[0]? = some ⟨.text id, []⟩) ∧
        ∀ k id, ids[k + 1]? = some id → ∃ files, DiffGives id (Reply.nth replies (k + 1)) files ∧
          (∀ f ∈ files, f.commitId = .text id) ∧ cs[k + 1]? = some ⟨.text id, files⟩ by
      obtain ⟨cs, hres, hcs⟩ := hok
      exact ⟨hfollows.all_sent cs hres, cs, hres, hcs⟩
    rw [ht]
    cases hids : ids with
    | nil => exact ⟨[], rfl, rfl, by simp, by simp⟩
    | cons base later =>
      simp only [hids, List.getElem?_cons_succ, ← Reply.nth_tail] at hr
      obtain ⟨cs, hres, hlen, hcs⟩ := @run_commitsOf_read h screen (past ++ [r]) replies.tail base later hr
      refine ⟨_, hres, by simp [hlen], by simp, ?_⟩
      intro k id hk
      obtain ⟨files, hd, hc⟩ := hcs k id hk
      rw [Reply.nth_tail] at hd
      exact ⟨files, hd, Listing.committedFiles_owned hd.2, hc⟩
  · intro k id hk hr hd
    cases hids : ids with
    | nil => rw [hids] at hk; simp at hk
    | cons base later =>
      simp only [hids, List.getElem?_cons_succ, ← Reply.nth_tail] at hk hr hd
      obtain ⟨hsent, f, hres, hfault⟩ := @run_commitsOf_unread h screen (past ++ [r]) replies.tail base id later k hk hr hd
      rw [ht, hids]
      refine ⟨?_, f, hres, ?_⟩
      · simp [plan, hids, hsent]
      · rw [Reply.nth_tail, List.append_assoc] at hfault
        exact hfault

/-- a branch with two commits, `b` on top of `a`, where `b` adds one file `x`; and the same with a change code that does
not exist -/
theorem commits_of_branch_two :
    let h : Handle := ⟨⟨.here, ["repo"]⟩, "main", "origin", "git", false⟩
    let good : List Reply := [.output [98, 10, 97, 10] [] 0, .output [65, 9, 120, 10] [] 0]
    let bad : List Reply := [.output [98, 10, 97, 10] [] 0, .output [90, 9, 120, 10] [] 0]
    (∃ cs, ((commits "main").run h (.plain 80) [] good).result = .ok cs ∧ cs.length = 2 ∧ cs[0]? = some ⟨.text "a", []⟩ ∧
      cs[1]? = some ⟨.text "b", [⟨.text "x", .add, .text "b"⟩]⟩) ∧
    ((commits "main").run h (.plain 80) [] bad).result = .error (.git (.commitListing "b" (.unknownCode "Z"))) := by
  intro h good bad
  have hids : (Record.captured [98, 10, 97, 10]).nonEmptyLines.reverse = (["a", "b"] : List Text) := rfl
  have hread : Listing.committedFiles (Reply.nth good 1).stdout "b" = .ok [⟨.text "x", .add, .text "b"⟩] := rfl
  have hunread : Listing.committedFiles (Reply.nth bad 1).stdout "b" = .error (.unknownCode "Z") := rfl
  constructor
  · obtain ⟨-, hgood, -⟩ := commits_of_branch h (.plain 80) [] good "main" [98, 10, 97, 10] 0 rfl
    rw [hids] at hgood
    obtain ⟨-, cs, hres, hlen, hbase, hrest⟩ := hgood fun k id hk => by
      cases k with
      | zero =>
        simp only [List.getElem?_cons_succ, List.getElem?_cons_zero, Option.some.injEq] at hk
        exact hk ▸ ⟨_, ⟨_, _, rfl⟩, hread⟩
      | succ k => simp at hk
    obtain ⟨files, hd, -, hc⟩ := hrest 0 "b" rfl
    have hfiles : files = [⟨.text "x", .add, .text "b"⟩] := Except.ok.inj (hd.2.symm.trans hread)
    exact ⟨cs, hres, hlen, hbase "a" rfl, by rw [hc, hfiles]⟩
  · obtain ⟨-, -, hbad⟩ := commits_of_branch h (.plain 80) [] bad "main" [98, 10, 97, 10] 0 rfl
    rw [hids] at hbad
    obtain ⟨-, f, hres, hfault⟩ := hbad 0 "b" rfl (by simp) fun ⟨files, hd⟩ => by
      have := hunread.symm.trans hd.2
      simp at this
    rw [hres]
    rcases hfault with hfault | ⟨cause, -, hcause, hf⟩
    · have hquiet : (Reply.nth bad 1).Quiet := ⟨_, _, rfl⟩
      rw [Reply.fault_eq_none.2 hquiet] at hfault
      simp at hfault
    · rw [hf, Except.error.inj (hunread.symm.trans hcause)]

end RepoLens.Repository
