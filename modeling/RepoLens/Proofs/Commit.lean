import Mathlib.Tactic
import RepoLens.Proofs.Plan
import RepoLens.Repository
/-!
Recording changes: every file is staged in order, then one commit is made with the message as one word, then the
identifier of the head is asked for. The first command that git does not answer quietly is the last one, so nothing is
committed unless everything was staged.

Results:
- `commit_follows`: the operation keeps to its plan, for any files and any message;
- `run_staged`: what comes after the staging comes to a value only if every file has a text as its name and was staged
  quietly;
- `commit_all_or_nothing`: what is sent, where it stops, what the caller gets, and that the caller gets it.
-/
namespace RepoLens.Repository

open Script

/-! ## The plan -/

def addWords (name : Text) : List Text := ["add", name]

/-- the commands that stage some files, and what follows them; a file whose name is no text cannot be staged, and
nothing is sent in its place or after it -/
def stagePlan (after : List (List Text)) : List File → List (List Text)
  | [] => after
  | f :: rest =>
    match f.filename with
    | .text name => addWords name :: stagePlan after rest
    | _ => []

/-- the command that makes a commit; the message is one word, whatever it holds -/
def commitWords (message : Text) : List Text := ["commit", "-m", message]

def headWords : List Text := ["rev-parse", "HEAD"]

def recordPlan (files : List File) (message : Text) : List (List Text) :=
  stagePlan [commitWords message, headWords] files

theorem stagePlan_names {after : List (List Text)} {files : List File} {names : List Text}
    (hn : files.map File.filename = names.map Value.text) :
    stagePlan after files = names.map addWords ++ after := by
  induction files generalizing names with
  | nil => simp [stagePlan, List.map_eq_nil_iff.1 hn.symm]
  | cons f files ih =>
    obtain ⟨name, rest, rfl, hf, hrest⟩ := List.map_eq_cons_iff.1 hn.symm
    simp [stagePlan, ← hf, ih hrest.symm]

/-- a command that stages nothing comes after all files -/
theorem stagePlan_getElem {after : List (List Text)} {files : List File} {k : Nat} {words : List Text}
    (hk : (stagePlan after files)[k]? = some words) (hw : ∀ name, words ≠ addWords name) : files.length ≤ k := by
  induction files generalizing k with
  | nil => exact Nat.zero_le k
  | cons f files ih =>
    simp only [stagePlan] at hk
    split at hk
    · cases k with
      | zero =>
        simp only [List.getElem?_cons_zero, Option.some.injEq] at hk
        exact absurd hk.symm (hw _)
      | succ k => exact Nat.succ_le_succ (ih (by simpa using hk))
    · simp at hk

/-! ## Staging -/

theorem add_text (name : Text) : add (.text name) = git (.list (addWords name)) false fun _ => done () := rfl

theorem add_other {v : Value} (hv : ∀ name, v ≠ .text name) : ∃ f, add v = fail f := by
  cases v with
  | text name => exact absurd rfl (hv name)
  | _ => exact ⟨_, rfl⟩

/-- staging the first of some files, and then the others -/
theorem each_add_cons {γ : Type} (f : File) (files : List File) (next : Script γ) :
    ((each (fun f => add f.filename) (f :: files)).bind fun _ => next) =
      (add f.filename).bind fun _ => (each (fun f => add f.filename) files).bind fun _ => next := by
  simp only [each, bind_assoc]
  rfl

theorem staged_follows {γ : Type} (files : List File) {next : Script γ} {after : List (List Text)}
    (hn : next.Follows after) :
    ((each (fun f => add f.filename) files).bind fun _ => next).Follows (stagePlan after files) := by
  induction files with
  | nil => exact hn
  | cons f files ih =>
    rw [each_add_cons]
    by_cases hv : ∃ name, f.filename = .text name
    · obtain ⟨name, hname⟩ := hv
      rw [stagePlan, hname, add_text]
      exact ⟨rfl, _, _, rfl, rfl, fun _ => ih⟩
    · obtain ⟨e, he⟩ := add_other fun name hname => hv ⟨name, hname⟩
      rw [he]
      trivial

theorem commit_follows (files : List File) (message : Text) :
    (commit files message).Follows (recordPlan files message) :=
  staged_follows files ⟨rfl, _, _, rfl, rfl, fun _ => ⟨rfl, _, _, rfl, rfl, fun _ => rfl⟩⟩

variable {h : Handle} {screen : Console.Screen} {past : List Record} {replies : List Reply}

/-- what comes after the staging comes to a value only if every file has a text as its name; it then runs with the
replies that the staging has left -/
theorem run_staged {γ : Type} {files : List File} {next : Script γ} {c : γ}
    (hc : (((each (fun f => add f.filename) files).bind fun _ => next).run h screen past replies).result = .ok c) :
    (∀ f ∈ files, ∃ name, f.filename = .text name) ∧
      ∃ past', (next.run h screen past' (replies.drop files.length)).result = .ok c := by
  induction files generalizing past replies with
  | nil => exact ⟨by simp, past, hc⟩
  | cons f files ih =>
    rw [each_add_cons] at hc
    by_cases hv : ∃ name, f.filename = .text name
    · obtain ⟨name, hname⟩ := hv
      rw [hname, add_text] at hc
      obtain ⟨out, code, -, hrest⟩ := run_git_ok hc
      obtain ⟨hnames, past', hnext⟩ := ih hrest
      refine ⟨fun g hg => ?_, past', ?_⟩
      · rcases List.mem_cons.1 hg with rfl | hg
        · exact ⟨name, hname⟩
        · exact hnames g hg
      · rwa [← List.drop_one, List.drop_drop, Nat.add_comm] at hnext
    · obtain ⟨e, he⟩ := add_other fun name hname => hv ⟨name, hname⟩
      rw [he] at hc
      exact absurd hc (by simp [Script.bind])

theorem commit_ownFaults {files : List File} (hf : ∀ f ∈ files, ∃ name, f.filename = .text name) (message : Text) :
    (commit files message).OwnFaults fun _ => False := by
  refine ownFaults_bind (ownFaults_each fun f hmem => ?_) fun _ => fun _ _ => trivial
  obtain ⟨name, hname⟩ := hf f hmem
  rw [hname, add_text]
  exact fun _ => trivial

/-- the commit that the caller gets -/
theorem commit_ok {files : List File} {message : Text} {c : Commit}
    (hc : ((commit files message).run h screen past replies).result = .ok c) :
    (∀ f ∈ files, ∃ name, f.filename = .text name) ∧
      c = ⟨.text ((Reply.nth replies (files.length + 1)).stdout.filter (· ≠ '\n')),
        files.map fun f => f.withCommitId (.text ((Reply.nth replies (files.length + 1)).stdout.filter (· ≠ '\n')))⟩ := by
  obtain ⟨hnames, past', hrest⟩ := run_staged hc
  obtain ⟨out, code, -, hhead⟩ := run_git_ok hrest
  obtain ⟨out', code', hreply, hdone⟩ := run_git_ok hhead
  have hlast : Reply.nth replies (files.length + 1) = .output out' [] code' := by
    rw [← hreply, Reply.nth_tail, Reply.nth_drop]
  refine ⟨hnames, ?_⟩
  rw [hlast]
  exact (Except.ok.inj hdone).symm

/-! ## Main result -/

/-- **Staging order, and all or nothing.** For any files, message and replies: what is sent is a start of the plan; the
first command that is not answered quietly is the last one and its fault is the outcome; the commit is sent only if
every file was staged quietly; and the caller gets a commit exactly if every name is a text and every command was
answered quietly. Its identifier is what the last command printed, without newlines, and its files are the given ones
in order, each changed only in being owned by it. -/
theorem commit_all_or_nothing (h : Handle) (screen : Console.Screen) (past : List Record) (replies : List Reply)
    (files : List File) (message : Text) :
    let t := (commit files message).run h screen past replies
    let plan := recordPlan files message
    (∀ names : List Text, files.map File.filename = names.map Value.text →
      plan = names.map addWords ++ [commitWords message, headWords]) ∧
    t.sent <+: plan.map h.argv ∧
    (∀ k words f, t.sent[k]? = some words →
      (Reply.nth replies k).fault? h.binary (past ++ t.added) words = some f →
        t.sent.length = k + 1 ∧ t.result = .error f) ∧
    (h.argv (commitWords message) ∈ t.sent → ∀ k < files.length, (Reply.nth replies k).Quiet) ∧
    ((∃ c, t.result = .ok c) ↔
      (∀ f ∈ files, ∃ name, f.filename = .text name) ∧ ∀ k < plan.length, (Reply.nth replies k).Quiet) ∧
    ∀ c, t.result = .ok c → t.sent = plan.map h.argv ∧
      ∃ id, id = (Reply.nth replies (files.length + 1)).stdout.filter (· ≠ '\n') ∧ c.id = .text id ∧
        c.files = files.map fun f => ⟨f.filename, f.action, .text id⟩ := by
  intro t plan
  have hfollows : t.Follows h past replies plan := run_follows (commit_follows files message)
  refine ⟨fun names hn => stagePlan_names hn, hfollows.sent, hfollows.fault, fun hmem k hk => ?_, ⟨?_, ?_⟩, ?_⟩
  · -- the place of the commit in what was sent is behind all files
    obtain ⟨n, words, hlt, hwords, heq⟩ := Trace.place_of_sent hfollows.sent hmem
    have hge : files.length ≤ n := stagePlan_getElem hwords fun name => by
      rw [argv_injective h heq]
      simp [commitWords, addWords]
    exact hfollows.quiet (by omega)
  · rintro ⟨c, hc⟩
    exact ⟨(commit_ok hc).1, fun k hk => hfollows.all_quiet hc hk⟩
  · rintro ⟨hnames, hquiet⟩
    cases hres : t.result with
    | ok c => exact ⟨c, rfl⟩
    | error f =>
      rcases run_error (commit_ownFaults hnames message) hres with hno | ⟨k, words, hk, -, hfault⟩
      · exact absurd hno id
      · have hlt : k < plan.length := by
          have hle := hfollows.sent.length_le
          have hk' := (List.getElem?_eq_some_iff.1 hk).1
          rw [List.length_map] at hle
          exact lt_of_lt_of_le hk' hle
        rw [Reply.fault_eq_none.2 (hquiet k hlt)] at hfault
        exact absurd hfault (by simp)
  · intro c hc
    refine ⟨hfollows.all_sent c hc, _, rfl, ?_, ?_⟩
    · rw [(commit_ok hc).2]
    · rw [(commit_ok hc).2]
      rfl

end RepoLens.Repository
