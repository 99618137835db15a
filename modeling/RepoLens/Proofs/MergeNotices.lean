import Mathlib.Tactic
import RepoLens.Proofs.Merge
import RepoLens.Proofs.Scope
import RepoLens.Proofs.Styled
/-!
What a merge says on its way, and how it ends. Two notices stand before a switch to the mainline branch, one after a merge that
is not clean. They hold the name of the mainline branch and the command of the merge as they are, between the tags of a style,
so a name with brackets is read as markup. Where it closes a tag that is not open, or names a style with a part that is no
number, the notice cannot be shown, and this ends the merge in place of its answer.

Results:
- `merge_or_cause`: a merge ends with an answer, with the fault of a command, or with a notice that cannot be shown;
- `verdict`: what the reply to the merge command decides;
- `unfinished_merge_reported`: both together, and that names without an opening bracket can always be shown;
- `refused_merge_escapes`: a name that closes a tag turns the answer on a refused merge into a fault of the console.
-/
namespace RepoLens.Repository

open Script Console

/-! ## Notices -/

/-- what a merge says on its way -/
inductive Notice where
  /-- another branch than the mainline branch is checked out -/
  | away
  | switching
  /-- the merge did not come to an end -/
  | unclean
  deriving DecidableEq

namespace Notice

def name (h : Handle) (branch : Text) (m : Manner) : Notice → Text
  | away => h.mainline
  | switching => h.mainline
  | unclean => commandLine (Stage.merge.argv h branch m)

/-- a notice around a name, with its style -/
def around (name : Text) : Notice → Text
  | away => "[yellow]You are not on the " ++ (name ++ " branch[/yellow]")
  | switching => "[yellow]Switching to the " ++ (name ++ " branch...[/yellow]")
  | unclean => "[red]Merge did not complete cleanly: " ++ (name ++ "[/red]")

/-- a notice as a merge prints it -/
def markup (h : Handle) (branch : Text) (m : Manner) (n : Notice) : Text := n.around (n.name h branch m)

def Shows (screen : Screen) (h : Handle) (branch : Text) (m : Manner) (n : Notice) : Prop :=
  ∃ t, print screen (n.markup h branch m) = .ok t

/-- a notice around a name without an opening bracket can be shown -/
theorem print_around {name : Text} (hname : '[' ∉ name) (screen : Screen) (n : Notice) :
    ∃ t, print screen (n.around name) = .ok t := by
  have hyellow : Markup.StyleWord "yellow" := by decide +kernel
  have hred : Markup.StyleWord "red" := by decide +kernel
  cases n with
  | away =>
    have hplain : '[' ∉ name ++ " branch" := by simp [hname]
    have hprint := Markup.print_between hyellow (by decide : Markup.Bare "You are not on the ") rfl rfl hplain screen
    rwa [List.append_assoc] at hprint
  | switching =>
    have hplain : '[' ∉ name ++ " branch..." := by simp [hname]
    have hprint := Markup.print_between hyellow (by decide : Markup.Bare "Switching to the ") rfl rfl hplain screen
    rwa [List.append_assoc] at hprint
  | unclean =>
    exact Markup.print_between hred (by decide : Markup.Bare "Merge did not complete cleanly: ") rfl rfl hname screen

theorem shows_bracketless {h : Handle} {branch : Text} {m : Manner} {n : Notice} (hname : '[' ∉ n.name h branch m)
    (screen : Screen) : n.Shows screen h branch m := print_around hname screen n

end Notice

variable {h : Handle} {screen : Screen} {branch : Text} {m : Manner} {past : List Record} {replies : List Reply}

/-! ## Before the merge -/

/-- the fetch, if a merge is from the remote -/
def Manner.fetching (h : Handle) (branch : Text) (m : Manner) : Script Unit :=
  if m = .remote then
    git (.list (Stage.fetch.words h branch m)) true fun r =>
      if r.failed then fail (.git (.fetch branch r.stderr)) else done ()
  else done ()

def Manner.before (h : Handle) (branch : Text) (m : Manner) : Script Unit := (toMainline h).bind fun _ => m.fetching h branch

/-- the command of the merge, and what is said about the reply -/
def Manner.conclude (h : Handle) (branch : Text) (m : Manner) : Script Bool :=
  git (.list (Stage.merge.words h branch m)) true judge

theorem Manner.rest_eq (h : Handle) (branch : Text) (m : Manner) :
    m.rest h branch = (m.fetching h branch).bind fun _ => m.conclude h branch := by
  by_cases hm : m = .remote
  · simp only [Manner.rest, Manner.fetching, hm, if_true, Script.bind]
    congr 1
    funext r
    split <;> rfl
  · simp only [Manner.rest, Manner.fetching, hm, if_false]
    rfl

theorem Manner.script_eq_before (h : Handle) (branch : Text) (m : Manner) :
    m.script h branch = (m.before h branch).bind fun _ => m.conclude h branch := by
  simp only [Manner.script_eq, Manner.rest_eq, Manner.before, bind_assoc]

/-- the commands before the merge, of which only the fetch may fail; the notices of a switch; the fault of a fetch -/
def beforeScope (h : Handle) (branch : Text) (m : Manner) : Scope where
  command args allow := ∃ s : Stage, s ≠ .merge ∧ args = .list (s.words h branch m) ∧ (allow = false → s ≠ .fetch)
  line t := ∃ n : Notice, n ≠ .unclean ∧ t = n.markup h branch m
  fault f := m = .remote ∧ ∃ stderr, stderr ≠ [] ∧ f = .git (.fetch branch stderr)

theorem Manner.fetching_within (h : Handle) (branch : Text) (m : Manner) :
    (m.fetching h branch).Within (beforeScope h branch m) := by
  by_cases hm : m = .remote
  · rw [Manner.fetching, if_pos hm]
    refine ⟨⟨.fetch, by decide, rfl, by simp⟩, fun r => ?_⟩
    show Within _ (if r.failed then fail (.git (.fetch branch r.stderr)) else done ())
    split_ifs with hfailed
    · exact ⟨hm, r.stderr, by simpa [Record.failed] using hfailed, rfl⟩
    · trivial
  · rw [Manner.fetching, if_neg hm]
    trivial

theorem Manner.before_within (h : Handle) (branch : Text) (m : Manner) :
    (m.before h branch).Within (beforeScope h branch m) := by
  have hfetching := m.fetching_within h branch
  rw [Manner.before, toMainline_bind h branch m]
  refine ⟨⟨.current, by decide, rfl, by simp⟩, fun r => ?_⟩
  by_cases hmain : r.stdout.trim = h.mainline
  · simpa only [hmain, if_true] using hfetching
  · simp only [hmain, if_false]
    exact ⟨⟨.away, by decide, rfl⟩, ⟨.switching, by decide, rfl⟩, ⟨.switch, by decide, rfl, by simp⟩, fun _ => hfetching⟩

/-! ## The merge -/

/-- what the reply to the merge command decides -/
def verdict (screen : Screen) (h : Handle) (branch : Text) (m : Manner) : Reply → Except Fault Bool
  | .output _ err code => answer screen (err = [] ∧ code = 0) (Notice.unclean.markup h branch m)
  | .missing => .error (.git (.noExecutable h.binary))
  | .denied => .error (.denied h.binary)

theorem run_conclude :
    let t := (m.conclude h branch).run h screen past replies
    t.sent = [Stage.merge.argv h branch m] ∧ t.result = verdict screen h branch m (Reply.nth replies 0) := by
  intro t
  simp only [t, Manner.conclude]
  cases hreply : Reply.nth replies 0 with
  | missing => rw [run_git, hreply]; exact ⟨rfl, rfl⟩
  | denied => rw [run_git, hreply]; exact ⟨rfl, rfl⟩
  | output out err code =>
    let r : Record := ⟨commandLine (Stage.merge.argv h branch m), Record.captured out, Record.captured err, code⟩
    obtain ⟨past', console, added, hrun⟩ : ∃ past' console added,
        (git (.list (Stage.merge.words h branch m)) true judge).run h screen past replies =
          ((judge r).run h screen past' replies.tail).after [Stage.merge.argv h branch m] console added :=
      run_git_started hreply
    obtain ⟨hsent, hresult⟩ := @run_judge h screen past' replies.tail r
    rw [hrun]
    refine ⟨congrArg _ hsent, hresult.trans ?_⟩
    simp only [verdict, r, Record.captured_eq_nil]
    rfl

/-! ## The end -/

inductive MergeEnd (screen : Screen) (h : Handle) (branch : Text) (m : Manner) (replies : List Reply) (t : Trace Bool) : Prop where
  | answered (b : Bool) (hres : t.result = .ok b)
  /-- asking for the current branch failed, or switching -/
  | command {s : Stage} (hs : s = .current ∨ s = .switch) (hlast : t.sent.getLast? = some (s.argv h branch m))
    {record : Record} {history : List Record} (hres : t.result = .error (.git (.command record history)))
  | fetch (hm : m = .remote) {stderr : Text} (herr : stderr ≠ []) (hres : t.result = .error (.git (.fetch branch stderr)))
  /-- git did not start for the last command -/
  | unstarted {k : Nat} (hlen : t.sent.length = k + 1) (hno : ¬ (Reply.nth replies k).Starts)
    (hres : t.result = .error (.git (.noExecutable h.binary)) ∨ t.result = .error (.denied h.binary))
  /-- a notice cannot be shown -/
  | unshown (n : Notice) {e : MarkupFault} (hprint : print screen (n.markup h branch m) = .error e)
    (hres : t.result = .error (.markup e))

/-- what ends the part before the merge ends the merge -/
theorem MergeEnd.of_before {f : Fault} (hf : ((m.before h branch).run h screen past replies).result = .error f)
    {t : Trace Bool} (hres : t.result = .error f) (hsent : t.sent = ((m.before h branch).run h screen past replies).sent) :
    MergeEnd screen h branch m replies t := by
  cases run_within_error (m.before_within h branch) hf with
  | own hown =>
    obtain ⟨hm, stderr, herr, rfl⟩ := hown
    exact .fetch hm herr hres
  | line hline hprint hmarkup =>
    obtain ⟨n, -, rfl⟩ := hline
    exact .unshown n hprint (hmarkup ▸ hres)
  | @command args allow k hargs hlen hk hfault hallow =>
    rw [← hsent] at hlen hk
    by_cases hstarts : (Reply.nth replies k).Starts
    · obtain ⟨s, hmerge, rfl, hfetch⟩ := hargs
      -- the fetch may fail, so once git starts it does not end the run
      have hne : s ≠ .fetch := hfetch (by simpa using fun hallowed => hallow hallowed hstarts)
      have hs : s = .current ∨ s = .switch := by
        cases s with
        | current => exact Or.inl rfl
        | switch => exact Or.inr rfl
        | fetch => exact absurd rfl hne
        | merge => exact absurd rfl hmerge
      have hlast : t.sent.getLast? = some (s.argv h branch m) := by
        rw [List.getLast?_eq_getElem?, hlen]
        exact hk
      obtain ⟨record, rfl⟩ := Reply.fault_of_starts hstarts hfault
      exact .command hs hlast hres
    · refine .unstarted hlen hstarts ?_
      rcases Reply.fault_of_not_starts hstarts hfault with rfl | rfl
      · exact Or.inl hres
      · exact Or.inr hres

/-- the commands before the merge are no merge -/
theorem merge_not_before : Stage.merge.argv h branch m ∉ ((m.before h branch).run h screen past replies).sent := by
  intro hmem
  obtain ⟨args, allow, ⟨s, hs, rfl, -⟩, hargv⟩ := run_within_sent (m.before_within h branch) _ hmem
  have hsame : s = .merge := Stage.argv_injective hargv.symm
  exact hs hsame

/-- a merge whose first part comes to its end: the merge command is sent, and its reply decides -/
theorem run_before_ok (hok : ((m.before h branch).run h screen past replies).result = .ok ()) :
    let sent := ((m.before h branch).run h screen past replies).sent
    ((m.script h branch).run h screen past replies).sent = sent ++ [Stage.merge.argv h branch m] ∧
      ((m.script h branch).run h screen past replies).result = verdict screen h branch m (Reply.nth replies sent.length) := by
  intro sent
  rw [Manner.script_eq_before, run_bind, Trace.andThen_ok _ hok]
  obtain ⟨hsent, hresult⟩ := @run_conclude h screen branch m (past ++ ((m.before h branch).run h screen past replies).added)
    (replies.drop sent.length)
  exact ⟨by rw [Trace.after_sent, hsent], by simpa using hresult⟩

theorem run_before_error {f : Fault} (hf : ((m.before h branch).run h screen past replies).result = .error f) :
    ((m.script h branch).run h screen past replies).result = .error f ∧
      ((m.script h branch).run h screen past replies).sent = ((m.before h branch).run h screen past replies).sent := by
  rw [Manner.script_eq_before, run_bind, Trace.andThen_error _ hf]
  exact ⟨rfl, rfl⟩

/-- an answer, or a fault of git for the last command, or a notice that cannot be shown -/
theorem MergeEnd.of_verdict {t : Trace Bool} {k : Nat} (hlen : t.sent.length = k + 1)
    (hres : t.result = verdict screen h branch m (Reply.nth replies k)) : MergeEnd screen h branch m replies t := by
  cases hreply : Reply.nth replies k with
  | missing =>
    rw [hreply] at hres
    exact .unstarted hlen (by rw [hreply]; exact Reply.not_starts_missing) (Or.inl hres)
  | denied =>
    rw [hreply] at hres
    exact .unstarted hlen (by rw [hreply]; exact Reply.not_starts_denied) (Or.inr hres)
  | output out err code =>
    rw [hreply, verdict, answer] at hres
    split_ifs at hres with hclean
    · exact .answered true hres
    · cases hprint : print screen (Notice.unclean.markup h branch m) with
      | ok shown => exact .answered false (by rw [hres, hprint])
      | error e => exact .unshown .unclean hprint (by rw [hres, hprint])

/-- **Every end of a merge.** It is an answer, the fault of a command, or a notice that cannot be shown. -/
theorem merge_or_cause (h : Handle) (screen : Screen) (past : List Record) (replies : List Reply) (branch : Text) (m : Manner) :
    MergeEnd screen h branch m replies ((m.script h branch).run h screen past replies) := by
  cases hbefore : ((m.before h branch).run h screen past replies).result with
  | ok u =>
    obtain ⟨hsent, hres⟩ := run_before_ok hbefore
    exact .of_verdict (by rw [hsent, List.length_append, List.length_singleton]) hres
  | error f =>
    obtain ⟨hres, hsent⟩ := run_before_error hbefore
    exact .of_before hbefore hres hsent

/-- once the merge command is sent, the reply to it decides -/
theorem merge_decided (hmem : Stage.merge.argv h branch m ∈ ((m.script h branch).run h screen past replies).sent) :
    ∃ k, ((m.script h branch).run h screen past replies).sent.length = k + 1 ∧
      ((m.script h branch).run h screen past replies).result = verdict screen h branch m (Reply.nth replies k) := by
  cases hbefore : ((m.before h branch).run h screen past replies).result with
  | ok u =>
    obtain ⟨hsent, hres⟩ := run_before_ok hbefore
    exact ⟨_, by rw [hsent, List.length_append, List.length_singleton], hres⟩
  | error f =>
    rw [(run_before_error hbefore).2] at hmem
    exact absurd hmem merge_not_before

/-- a merge that was not clean is answered with no if the notice can be shown -/
theorem verdict_unclean {r : Reply} (hstarts : r.Starts) (hclean : ¬ Clean r) (hshows : Notice.unclean.Shows screen h branch m) :
    verdict screen h branch m r = .ok false := by
  obtain ⟨out, err, code, rfl⟩ := hstarts
  obtain ⟨t, ht⟩ := hshows
  rw [clean_output] at hclean
  rw [verdict, answer, if_neg hclean, ht]

/-- **How a merge that does not complete is reported.** For every way of merging and any replies, it ends with an answer, with
the fault of the command that asks for the current branch, switches or fetches, with a git that does not start, or with a notice
that cannot be shown. If git starts and the notices can be shown, only answers and faults of git are left. Once the merge
command is sent the reply to it decides, and a merge that is not clean is answered with no if the notice can be shown. A notice
can be shown if the name of the mainline branch and the command have no opening bracket. -/
theorem unfinished_merge_reported (h : Handle) (screen : Screen) (past : List Record) (replies : List Reply) (branch : Text)
    (m : Manner) :
    let t := (m.script h branch).run h screen past replies
    MergeEnd screen h branch m replies t ∧
    ((∀ k, (Reply.nth replies k).Starts) → (∀ n : Notice, n.Shows screen h branch m) →
      (∃ b, t.result = .ok b) ∨ (∃ record history, t.result = .error (.git (.command record history))) ∨
        ∃ stderr, t.result = .error (.git (.fetch branch stderr))) ∧
    (Stage.merge.argv h branch m ∈ t.sent → ∃ k, t.sent.length = k + 1 ∧
      t.result = verdict screen h branch m (Reply.nth replies k) ∧
      ((Reply.nth replies k).Starts → ¬ Clean (Reply.nth replies k) → Notice.unclean.Shows screen h branch m →
        t.result = .ok false)) ∧
    ('[' ∉ h.mainline → '[' ∉ commandLine (Stage.merge.argv h branch m) → ∀ n : Notice, n.Shows screen h branch m) := by
  intro t
  refine ⟨merge_or_cause h screen past replies branch m, ?_, ?_, ?_⟩
  · intro hstarts hshows
    cases merge_or_cause h screen past replies branch m with
    | answered b hres => exact Or.inl ⟨b, hres⟩
    | command _ _ hres => exact Or.inr (Or.inl ⟨_, _, hres⟩)
    | fetch _ _ hres => exact Or.inr (Or.inr ⟨_, hres⟩)
    | @unstarted k _ hno _ => exact absurd (hstarts k) hno
    | unshown n hprint _ =>
      obtain ⟨shown, hshown⟩ := hshows n
      rw [hshown] at hprint
      cases hprint
  · intro hmem
    obtain ⟨k, hlen, hres⟩ := merge_decided hmem
    exact ⟨k, hlen, hres, fun hstarts hclean hshows => hres.trans (verdict_unclean hstarts hclean hshows)⟩
  · intro hmainline hcommand n
    apply Notice.shows_bracketless
    cases n with
    | away => exact hmainline
    | switching => exact hmainline
    | unclean => exact hcommand

/-- a name that closes a tag, of a branch that git does not know: git starts and refuses the merge, and the run ends with a
fault of the console -/
theorem refused_merge_escapes :
    let h : Handle := ⟨⟨.top, ["r"]⟩, "master", "origin", "git", false⟩
    let refusal : Reply := .output [] (Text.Utf8.encode "merge: [/x] - not something we can merge\n") 1
    let replies : List Reply := [.output (Text.Utf8.encode "master\n") [] 0, refusal]
    let t := (merge h "[/x]" false).run h (.plain 80) [] replies
    (∀ r ∈ replies, r.Starts) ∧ Stage.merge.argv h "[/x]" .direct ∈ t.sent ∧
      t.result = .error (.markup (.unmatched "[/x]" 80)) := by
  intro h refusal replies t
  have hprint : print (.plain 80) (Notice.unclean.markup h "[/x]" .direct) = .error (.unmatched "[/x]" 80) := by decide +kernel
  have hbefore : ((Manner.direct.before h "[/x]").run h (.plain 80) [] replies).result = .ok () := by rfl
  have hfirst : ((Manner.direct.before h "[/x]").run h (.plain 80) [] replies).sent = [Stage.current.argv h "[/x]" .direct] := by rfl
  obtain ⟨hsent, hres⟩ := run_before_ok hbefore
  rw [hfirst] at hsent hres
  refine ⟨by simp [replies, refusal, Reply.Starts], ?_, ?_⟩
  · show Stage.merge.argv h "[/x]" .direct ∈ ((Manner.direct.script h "[/x]").run h (.plain 80) [] replies).sent
    rw [hsent]
    exact List.mem_append_right _ (List.mem_singleton_self _)
  · calc t.result = verdict (.plain 80) h "[/x]" .direct (Reply.nth replies 1) := hres
      _ = answer (.plain 80) False (Notice.unclean.markup h "[/x]" .direct) := by simp [verdict, replies, refusal, Reply.nth]
      _ = .error (.markup (.unmatched "[/x]" 80)) := by rw [answer, if_neg not_false, hprint]

end RepoLens.Repository
