import Mathlib.Tactic
import RepoLens.Proofs.History
/-!
Exit codes. Two sessions that make the same calls and get replies that differ in nothing but their exit codes are compared
call by call. Everything that holds an exit code has a bare form, in which the code is zero; two things are the same up to
exit codes if their bare forms are equal.

Results:
- `Script.Alike`: two scripts that take the same steps as long as the records they get are the same up to exit codes, with
  one clause for each way to build a script;
- `Alike.run`: such scripts have the same run, up to exit codes;
- `alike_script`: every operation but a merge is alike itself;
- `close_verdict`: the exit code of a merge decides whether it reports success, and nothing else does;
- `exit_codes_decide_merges_only`: two sessions with the same calls, and replies that differ in their exit codes only.
-/
namespace RepoLens

variable {α β : Type}

/-! ## Bare forms -/

/-- a record without its exit code -/
def Record.bare (r : Record) : Record := { r with returncode := 0 }

def Reply.bare : Reply → Reply
  | output out err _ => .output out err 0
  | missing => .missing
  | denied => .denied

def Fault.bare : Fault → Fault
  | git (.command r past) => .git (.command r.bare (past.map Record.bare))
  | f => f

def Answer.bare : Answer → Answer
  | record r => .record r.bare
  | records rs => .records (rs.map Record.bare)
  | a => a

def Call.bare (c : Call × List Reply) : Call × List Reply := (c.1, c.2.map Reply.bare)

namespace Record

variable {r r' : Record} {past past' : List Record}

theorem bare_eq_iff : r.bare = r'.bare ↔ r.command = r'.command ∧ r.stdout = r'.stdout ∧ r.stderr = r'.stderr := by
  simp [bare]

theorem failed_eq (h : r.bare = r'.bare) : r.failed = r'.failed := by
  rw [failed, failed, (bare_eq_iff.1 h).2.2]

theorem flatMap_block_bare (past : List Record) : (past.map bare).flatMap block = past.flatMap block := by
  rw [List.flatMap_map]
  rfl

theorem earlier_bare (past : List Record) : earlier (past.map bare) = earlier past := by
  cases past with
  | nil => rfl
  | cons r past =>
    have hblocks := flatMap_block_bare (r :: past).reverse
    rw [List.map_reverse] at hblocks
    exact congrArg ("Previous git commands (most recent is on top):\n".toList ++ ·) hblocks

/-- a diagnostic says nothing about exit codes -/
theorem diagnostic_bare (r : Record) (past : List Record) : r.bare.diagnostic (past.map bare) = r.diagnostic past := by
  rw [diagnostic, diagnostic, earlier_bare]
  rfl

end Record

theorem Fault.message_bare (f : Fault) : f.bare.message = f.message := by
  cases f with
  | git cause =>
    cases cause with
    | command r past => exact Record.diagnostic_bare r past
    | _ => rfl
  | _ => rfl

theorem Reply.nth_bare {replies replies' : List Reply} (h : replies.map bare = replies'.map bare) (k : Nat) :
    (nth replies k).bare = (nth replies' k).bare := by
  have hget : (replies.map bare)[k]? = (replies'.map bare)[k]? := by rw [h]
  simp only [List.getElem?_map] at hget
  unfold nth
  cases hr : replies[k]? <;> cases hr' : replies'[k]? <;> simp_all

/-! ## Alike runs -/

/-- outcomes that are the same up to exit codes; values are compared by a relation of their own -/
inductive Outcome (R : α → β → Prop) : Except Fault α → Except Fault β → Prop where
  | value {a : α} {b : β} (h : R a b) : Outcome R (.ok a) (.ok b)
  | fault {f f' : Fault} (h : f.bare = f'.bare) (hm : f.message = f'.message) : Outcome R (.error f) (.error f')

theorem Outcome.of_bare {R : α → β → Prop} {f f' : Fault} (h : f.bare = f'.bare) : Outcome R (.error f) (.error f') :=
  .fault h (by rw [← f.message_bare, h, f'.message_bare])

/-- runs that cannot be told apart but by exit codes -/
structure Trace.Alike (R : α → β → Prop) (t : Trace α) (t' : Trace β) : Prop where
  result : Outcome R t.result t'.result
  sent : t.sent = t'.sent
  console : t.console = t'.console
  added : t.added.map Record.bare = t'.added.map Record.bare

namespace Trace.Alike

variable {R : α → β → Prop} {t : Trace α} {t' : Trace β}

theorem ended {e : Except Fault α} {e' : Except Fault β} (h : Outcome R e e') : Alike R (.ended e) (.ended e') :=
  ⟨h, rfl, rfl, rfl⟩

theorem after (h : Alike R t t') (sent : List (List Text)) (console : Text) {added added' : List Record}
    (hadded : added.map Record.bare = added'.map Record.bare) :
    Alike R (t.after sent console added) (t'.after sent console added') :=
  ⟨h.result, by simp [h.sent], by simp [h.console], by simp [hadded, h.added]⟩

end Trace.Alike

/-! ## Alike scripts -/

namespace Script

/-- scripts that take the same steps as long as the records they get are the same up to exit codes -/
inductive Alike (R : α → α → Prop) : Script α → Script α → Prop where
  | done {a b : α} (h : R a b) : Alike R (.done a) (.done b)
  | fail (f : Fault) : Alike R (.fail f) (.fail f)
  | say (markup : Text) {s s' : Script α} (h : Alike R s s') : Alike R (.say markup s) (.say markup s')
  | git (args : Words) (allow : Bool) {next next' : Record → Script α}
    (h : ∀ r r', r.bare = r'.bare → Alike R (next r) (next' r')) : Alike R (.git args allow next) (.git args allow next')

/-- records that are the same up to exit codes -/
def SameRecord (r r' : Record) : Prop := r.bare = r'.bare

def SameAnswer (a b : Answer) : Prop := a.bare = b.bare

namespace Alike

theorem bind {R : α → α → Prop} {Q : β → β → Prop} {s s' : Script α} {f f' : α → Script β} (hs : Alike R s s')
    (hf : ∀ a b, R a b → Alike Q (f a) (f' b)) : Alike Q (s.bind f) (s'.bind f') := by
  induction hs with
  | done h => exact hf _ _ h
  | fail e => exact .fail e
  | say markup _ ih => exact .say markup ih
  | git args allow _ ih => exact .git args allow ih

theorem ask (words : List Text) : Alike SameRecord (Repository.ask words) (Repository.ask words) :=
  .git _ _ fun _ _ h => .done h

theorem attempt (words : List Text) : Alike SameRecord (Repository.attempt words) (Repository.attempt words) :=
  .git _ _ fun _ _ h => .done h

/-- a command of which only the output is used -/
theorem read {Q : β → β → Prop} (words : List Text) {f : Text → Script β} (hf : ∀ t, Alike Q (f t) (f t)) :
    Alike Q ((Repository.ask words).bind fun r => f r.stdout) ((Repository.ask words).bind fun r => f r.stdout) := by
  refine (ask words).bind fun r r' h => ?_
  rw [(Record.bare_eq_iff.1 h).2.1]
  exact hf _

theorem tell (words : List Text) : Alike Eq (Repository.tell words) (Repository.tell words) :=
  read words fun _ => .done rfl

theorem ofExcept {ε : Type} (cause : ε → Fault) (e : Except ε α) :
    Alike Eq (Script.ofExcept cause e) (Script.ofExcept cause e) := by
  cases e with
  | ok a => exact .done rfl
  | error f => exact .fail _

/-- a script that is alike itself, and then one for each of its values -/
theorem andThen {Q : β → β → Prop} {s : Script α} {f : α → Script β} (hs : Alike Eq s s) (hf : ∀ a, Alike Q (f a) (f a)) :
    Alike Q (s.bind f) (s.bind f) := by
  refine hs.bind fun a b hab => ?_
  subst hab
  exact hf a

theorem each {f : α → Script β} (hf : ∀ a, Alike Eq (f a) (f a)) (items : List α) :
    Alike Eq (Script.each f items) (Script.each f items) := by
  induction items with
  | nil => exact .done rfl
  | cons a items ih => exact (hf a).andThen fun b => ih.andThen fun bs => .done rfl

/-- **One run for both.** Alike scripts, run after histories and with replies that are the same up to exit codes, send the
same commands, print the same text, add the same records up to exit codes, and come to the same outcome up to exit codes. -/
theorem run {R : α → α → Prop} {s s' : Script α} (hs : Alike R s s') (h : Handle) (screen : Console.Screen)
    {past past' : List Record} {replies replies' : List Reply} (hpast : past.map Record.bare = past'.map Record.bare)
    (hreplies : replies.map Reply.bare = replies'.map Reply.bare) :
    Trace.Alike R (s.run h screen past replies) (s'.run h screen past' replies') := by
  induction hs generalizing past past' replies replies' with
  | done hab => exact .ended (.value hab)
  | fail f => exact .ended (.of_bare rfl)
  | say markup _ ih =>
    rw [run_say, run_say]
    cases Console.print screen markup with
    | error e => exact .ended (.of_bare rfl)
    | ok t => exact (ih hpast hreplies).after [] t rfl
  | @git args allow next next' _ ih =>
    have htail : replies.tail.map Reply.bare = replies'.tail.map Reply.bare := by
      rw [List.map_tail, List.map_tail, hreplies]
    have hreply := Reply.nth_bare hreplies 0
    rw [run_git, run_git]
    cases hr : Reply.nth replies 0 with
    | missing =>
      cases hr' : Reply.nth replies' 0 with
      | missing => exact (Trace.Alike.ended (.of_bare rfl)).after _ _ rfl
      | _ => simp [hr, hr', Reply.bare] at hreply
    | denied =>
      cases hr' : Reply.nth replies' 0 with
      | denied => exact (Trace.Alike.ended (.of_bare rfl)).after _ _ rfl
      | _ => simp [hr, hr', Reply.bare] at hreply
    | output out err code =>
      cases hr' : Reply.nth replies' 0 with
      | output out' err' code' =>
        simp only [hr, hr', Reply.bare, Reply.output.injEq, and_true] at hreply
        obtain ⟨rfl, rfl⟩ := hreply
        have hrecord : ∀ line, (Record.mk line (Record.captured out) (Record.captured err) code).bare =
            (Record.mk line (Record.captured out) (Record.captured err) code').bare := fun _ => rfl
        have hadded : ((Reply.output out err code).record? (h.command args)).toList.map Record.bare =
            ((Reply.output out err code').record? (h.command args)).toList.map Record.bare := by
          cases err <;> rfl
        refine Trace.Alike.after ?_ _ _ hadded
        by_cases herr : err = []
        · simp only [if_pos herr]
          exact ih _ _ (hrecord _) (by simp [hpast, Record.bare]) htail
        · simp only [if_neg herr]
          cases allow with
          | true => exact ih _ _ (hrecord _) hpast htail
          | false =>
            refine .ended (.of_bare ?_)
            simp only [Fault.bare, hpast]
            rfl
      | _ => simp [hr, hr', Reply.bare] at hreply

end Alike

end Script

/-! ## Operations -/

namespace Repository

open Script

theorem alike_currentBranch : Script.Alike Eq currentBranch currentBranch := .read _ fun _ => .done rfl

theorem alike_head : Script.Alike Eq head head := .read _ fun _ => .done rfl

theorem alike_filesIn (commitId : Text) : Script.Alike Eq (filesIn commitId) (filesIn commitId) :=
  Alike.read (f := fun t => Script.ofExcept (.git ∘ .commitListing commitId) (Listing.committedFiles t commitId)) _
    fun _ => .ofExcept _ _

theorem alike_commits (branch : Text) : Script.Alike Eq (commits branch) (commits branch) := by
  refine Alike.andThen (s := commitIds branch) (.read _ fun _ => .done rfl) fun ids => ?_
  cases ids with
  | nil => exact .done rfl
  | cons base later =>
    have hfiles : ∀ id, Script.Alike Eq (commitWithFiles id) (commitWithFiles id) := fun id =>
      (alike_filesIn id).andThen fun _ => .done rfl
    exact (Alike.each hfiles later).andThen fun _ => .done rfl

theorem alike_add (path : Value) : Script.Alike Eq (add path) (add path) := by
  cases path with
  | text t => exact .tell _
  | _ => exact .fail _

theorem alike_commit (files : List File) (message : Text) :
    Script.Alike Eq (commit files message) (commit files message) :=
  (Alike.each (fun _ => alike_add _) files).andThen fun _ => (Alike.tell _).andThen fun _ =>
    alike_head.andThen fun _ => .done rfl

theorem alike_isMerged (h : Handle) (branch : Text) : Script.Alike Eq (isMerged h branch) (isMerged h branch) :=
  Alike.read (f := fun t => (Script.ofExcept (.git ∘ .listing) (Listing.branches t)).bind fun names =>
    .done (names.contains branch)) _ fun _ => (Alike.ofExcept _ _).andThen fun _ => .done rfl

theorem alike_toMainline (h : Handle) : Script.Alike Eq (toMainline h) (toMainline h) := by
  refine alike_currentBranch.andThen fun current => ?_
  split_ifs
  · exact .done rfl
  · exact .say _ (.say _ (.tell _))

/-! ## Merges -/

/-- a merge up to the record that is judged -/
def merging (h : Handle) (branch : Text) (remote : Bool) : Script Record :=
  (toMainline h).bind fun _ =>
    if remote then
      (attempt ["fetch", "--quiet", h.remote, branch]).bind fun fetched =>
        if fetched.failed then .fail (.git (.fetch branch fetched.stderr))
        else
          let source := h.remote ++ ('/' :: branch)
          attempt ["merge", source, "-m", "Merge remote-tracking branch '" ++ (source ++ "'")]
    else attempt ["merge", branch]

/-- a merge in which its side wins, up to the record that is judged -/
def mergingTheirs (h : Handle) (branch : Text) : Script Record :=
  (toMainline h).bind fun _ => attempt ["merge", branch, "-s", "recursive", "-Xtheirs"]

theorem merge_eq (h : Handle) (branch : Text) (remote : Bool) :
    merge h branch remote = (merging h branch remote).bind judge := by
  rw [merging, bind_assoc]
  refine congrArg (toMainline h).bind (funext fun _ => ?_)
  cases remote with
  | false => rfl
  | true =>
    simp only [if_true]
    rw [bind_assoc]
    refine congrArg (attempt _).bind (funext fun fetched => ?_)
    cases hfailed : fetched.failed <;> rfl

theorem mergeTheirs_eq (h : Handle) (branch : Text) : mergeTheirs h branch = (mergingTheirs h branch).bind judge := by
  rw [mergingTheirs, bind_assoc]
  rfl

/-- a fetch has failed by what it wrote, not by its exit code -/
theorem alike_merging (h : Handle) (branch : Text) (remote : Bool) :
    Script.Alike SameRecord (merging h branch remote) (merging h branch remote) := by
  refine (alike_toMainline h).andThen fun _ => ?_
  cases remote with
  | false => exact .attempt _
  | true =>
    refine (Alike.attempt _).bind fun r r' hr => ?_
    rw [(Record.bare_eq_iff.1 hr).2.2, Record.failed_eq hr]
    cases r'.failed with
    | true => exact .fail _
    | false => exact .attempt _

theorem alike_mergingTheirs (h : Handle) (branch : Text) :
    Script.Alike SameRecord (mergingTheirs h branch) (mergingTheirs h branch) :=
  (alike_toMainline h).andThen fun _ => .attempt _

end Repository

/-- an operation whose answer is a verdict on an exit code -/
def Op.IsMerge : Op → Prop
  | merge .. | mergeTheirs _ => True
  | _ => False

namespace Script

/-- something made of what an alike script comes to -/
theorem Alike.map {s : Script α} (hs : Alike Eq s s) (f : α → Answer) : Alike SameAnswer (f <$> s) (f <$> s) :=
  hs.andThen fun _ => .done rfl

/-- **Every operation but a merge is alike itself**: no exit code decides which command is sent next, what is printed, or how
it ends. -/
theorem alike_script {o : Op} (ho : ¬ o.IsMerge) (h : Handle) : Alike SameAnswer (o.script h) (o.script h) := by
  cases o with
  | init => exact (Alike.tell _).map _
  | setUser email name => exact ((Alike.tell _).andThen fun _ => Alike.tell _).map _
  | switchBranch branch => exact (Alike.tell _).map _
  | removeBranch branch => exact (Alike.tell _).map _
  | branches =>
    exact (Alike.read (f := fun t => ofExcept (.git ∘ .listing) (Listing.branches t)) _ fun _ => .ofExcept _ _).map _
  | currentBranch => exact Repository.alike_currentBranch.map _
  | tagHead name => exact (Alike.tell _).map _
  | tags =>
    exact (Alike.read (f := fun t => ofExcept (.git ∘ .tagListing) (Listing.tags t)) _ fun _ => .ofExcept _ _).map _
  | head => exact Repository.alike_head.map _
  | commitIds branch => exact (Alike.read (f := fun t => .done (Listing.commitIds t)) _ fun _ => .done rfl).map _
  | commits branch => exact (Repository.alike_commits branch).map _
  | filesIn commitId => exact (Repository.alike_filesIn commitId).map _
  | uncommitted =>
    exact (Alike.read (f := fun t => ofExcept (.git ∘ .listing) (Listing.statusFiles t)) _ fun _ => .ofExcept _ _).map _
  | contents commitId path => exact (Alike.read (f := fun t => .done t.chopNewline) _ fun _ => .done rfl).map _
  | add path => exact (Repository.alike_add path).map _
  | commit files message =>
    exact (Alike.ofExcept _ _).andThen fun files => (Repository.alike_commit files message).map _
  | reset ref hard => exact (Alike.tell _).map _
  | pushAll => exact (Alike.tell _).map _
  | pull => exact (Alike.tell _).map _
  | merge branch remote => exact absurd trivial ho
  | mergeTheirs branch => exact absurd trivial ho
  | isMerged branch => exact (Repository.alike_isMerged h branch).map _
  | run args allow => exact .git _ _ fun r r' hr => .done (congrArg Answer.record hr)

end Script

/-! ## Verdicts -/

namespace Trace

/-- the first run reports success; the second does not: it says that the merge is not clean, if that can be said -/
def OnlyFirst (t t' : Trace Answer) : Prop :=
  t.result = .ok (.flag true) ∧ (t'.result = .ok (.flag false) ∨ ∃ e, t'.result = .error (.markup e))

/-- runs that cannot be told apart but by exit codes, save that one of them may report success alone -/
structure Close (t t' : Trace Answer) : Prop where
  sent : t.sent = t'.sent
  added : t.added.map Record.bare = t'.added.map Record.bare
  verdict : (Outcome Script.SameAnswer t.result t'.result ∧ t.console = t'.console) ∨ OnlyFirst t t' ∨ OnlyFirst t' t

variable {t t' : Trace Answer}

theorem Alike.close (h : Alike Script.SameAnswer t t') : Close t t' := ⟨h.sent, h.added, .inl ⟨h.result, h.console⟩⟩

theorem Close.after (h : Close t t') (sent : List (List Text)) (console : Text) {added added' : List Record}
    (hadded : added.map Record.bare = added'.map Record.bare) :
    Close (t.after sent console added) (t'.after sent console added') := by
  refine ⟨by simp [h.sent], by simp [hadded, h.added], ?_⟩
  rcases h.verdict with ⟨hresult, hconsole⟩ | hfirst | hsecond
  · exact .inl ⟨hresult, by simp [hconsole]⟩
  · exact .inr (.inl hfirst)
  · exact .inr (.inr hsecond)

end Trace

namespace Script

variable {h : Handle} {screen : Console.Screen} {past past' : List Record} {replies replies' : List Reply} {r r' : Record}

def verdict (r : Record) : Script Answer := (Repository.judge r).bind fun b => .done (.flag b)

theorem run_verdict_clean (hr : (r.failed || r.returncode ≠ 0) = false) :
    (verdict r).run h screen past replies = .ended (.ok (.flag true)) := by
  rw [verdict, Repository.judge, hr]
  rfl

/-- a merge that is not clean is never reported as a success, and what is said about it is the same for every exit code -/
theorem run_verdict_unclean (hr : (r.failed || r.returncode ≠ 0) = true) :
    (verdict r).run h screen past replies =
      match Console.print screen ("[red]Merge did not complete cleanly: " ++ (r.command ++ "[/red]")) with
      | .error e => .ended (.error (.markup e))
      | .ok t => ⟨.ok (.flag false), [], t, []⟩ := by
  rw [verdict, Repository.judge, hr]
  simp only [if_true, pure_eq, Script.bind, run_say]
  cases Console.print screen ("[red]Merge did not complete cleanly: " ++ (r.command ++ "[/red]")) with
  | error e => rfl
  | ok t => simp [Trace.after, Trace.ended]

theorem onlyFirst_verdict (hr : (r.failed || r.returncode ≠ 0) = false) (hr' : (r'.failed || r'.returncode ≠ 0) = true) :
    Trace.OnlyFirst ((verdict r).run h screen past replies) ((verdict r').run h screen past' replies') := by
  rw [run_verdict_clean hr, run_verdict_unclean hr']
  refine ⟨rfl, ?_⟩
  cases Console.print screen ("[red]Merge did not complete cleanly: " ++ (r'.command ++ "[/red]")) with
  | error e => exact .inr ⟨e, rfl⟩
  | ok t => exact .inl rfl

theorem verdict_silent : ((verdict r).run h screen past replies).sent = [] ∧
    ((verdict r).run h screen past replies).added = [] := by
  cases hr : r.failed || r.returncode ≠ 0 with
  | false => rw [run_verdict_clean hr]; exact ⟨rfl, rfl⟩
  | true =>
    rw [run_verdict_unclean hr]
    cases Console.print screen ("[red]Merge did not complete cleanly: " ++ (r.command ++ "[/red]")) <;> exact ⟨rfl, rfl⟩

/-- **The exit code of a merge** decides whether it reports success, and nothing else does. -/
theorem close_verdict (hr : SameRecord r r') :
    Trace.Close ((verdict r).run h screen past replies) ((verdict r').run h screen past' replies') := by
  refine ⟨by rw [verdict_silent.1, verdict_silent.1], by rw [verdict_silent.2, verdict_silent.2], ?_⟩
  cases hclean : r.failed || r.returncode ≠ 0 with
  | false =>
    cases hclean' : r'.failed || r'.returncode ≠ 0 with
    | false =>
      rw [run_verdict_clean hclean, run_verdict_clean hclean']
      exact .inl ⟨.value rfl, rfl⟩
    | true => exact .inr (.inl (onlyFirst_verdict hclean hclean'))
  | true =>
    cases hclean' : r'.failed || r'.returncode ≠ 0 with
    | false => exact .inr (.inr (onlyFirst_verdict hclean' hclean))
    | true =>
      rw [run_verdict_unclean hclean, run_verdict_unclean hclean', (Record.bare_eq_iff.1 hr).1]
      cases Console.print screen ("[red]Merge did not complete cleanly: " ++ (r'.command ++ "[/red]")) with
      | error e => exact .inl ⟨.of_bare rfl, rfl⟩
      | ok t => exact .inl ⟨.value rfl, rfl⟩

theorem close_merging {s : Script Record} (hs : Alike SameRecord s s) (hpast : past.map Record.bare = past'.map Record.bare)
    (hreplies : replies.map Reply.bare = replies'.map Reply.bare) :
    Trace.Close ((s.bind verdict).run h screen past replies) ((s.bind verdict).run h screen past' replies') := by
  have hrun := hs.run h screen hpast hreplies
  rw [run_bind, run_bind]
  generalize s.run h screen past replies = t at hrun ⊢
  generalize s.run h screen past' replies' = t' at hrun ⊢
  obtain ⟨hresult, hsent, hconsole, hadded⟩ := hrun
  generalize ht : t.result = e at hresult
  generalize ht' : t'.result = e' at hresult
  cases hresult with
  | value hr =>
    rw [Trace.andThen_ok _ ht, Trace.andThen_ok _ ht', hsent, hconsole]
    exact (close_verdict hr).after _ _ hadded
  | fault hf hm =>
    rw [Trace.andThen_error _ ht, Trace.andThen_error _ ht']
    exact ⟨hsent, hadded, .inl ⟨.fault hf hm, hconsole⟩⟩

end Script

/-! ## Sessions -/

def Call.IsMerge : Call → Prop
  | .op o => o.IsMerge
  | _ => False

namespace Session

open Script

/-- sessions on one handle whose histories are the same up to exit codes -/
structure Same (s s' : Session) : Prop where
  handle : s.handle = s'.handle
  screen : s.screen = s'.screen
  history : s.history.map Record.bare = s'.history.map Record.bare

variable {s s' : Session} {replies replies' : List Reply} {c : Call}

theorem Same.alike (hs : Same s s') (hreplies : replies.map Reply.bare = replies'.map Reply.bare) (hc : ¬ c.IsMerge) :
    Trace.Alike SameAnswer (s.trace replies c) (s'.trace replies' c) := by
  cases c with
  | op o =>
    rw [trace, trace, ← hs.handle, ← hs.screen]
    exact (alike_script hc s.handle).run s.handle s.screen hs.history hreplies
  | history => exact .ended (.value (congrArg Answer.records hs.history))
  | command args => exact .ended (.value (by rw [hs.handle]; rfl))

theorem Same.close (hs : Same s s') (hreplies : replies.map Reply.bare = replies'.map Reply.bare) (c : Call) :
    Trace.Close (s.trace replies c) (s'.trace replies' c) := by
  by_cases hc : c.IsMerge
  · rcases c with o | _ | _
    · rw [trace, trace, ← hs.handle, ← hs.screen]
      cases o with
      | merge branch remote =>
        have hscript : (Op.merge branch remote).script s.handle =
            (Repository.merging s.handle branch remote).bind verdict := by
          rw [Op.script, Repository.merge_eq]
          exact bind_assoc _ _ _
        rw [hscript]
        exact close_merging (Repository.alike_merging s.handle branch remote) hs.history hreplies
      | mergeTheirs branch =>
        have hscript : (Op.mergeTheirs branch).script s.handle =
            (Repository.mergingTheirs s.handle branch).bind verdict := by
          rw [Op.script, Repository.mergeTheirs_eq]
          exact bind_assoc _ _ _
        rw [hscript]
        exact close_merging (Repository.alike_mergingTheirs s.handle branch) hs.history hreplies
      | _ => exact absurd hc id
    · exact absurd hc id
    · exact absurd hc id
  · exact (hs.alike hreplies hc).close

/-- one call keeps the sessions the same, merges included -/
theorem Same.extend (hs : Same s s') (hreplies : replies.map Reply.bare = replies'.map Reply.bare) (c : Call) :
    Same (s.extend (s.trace replies c)) (s'.extend (s'.trace replies' c)) :=
  ⟨hs.handle, hs.screen, by simp [Session.extend, hs.history, (hs.close hreplies c).added]⟩

/-- so do many calls -/
theorem Same.run (hs : Same s s') {calls calls' : List (Call × List Reply)}
    (hcalls : calls.map Call.bare = calls'.map Call.bare) : Same (s.run calls) (s'.run calls') := by
  induction calls generalizing s s' calls' with
  | nil =>
    rw [List.map_eq_nil_iff.1 hcalls.symm]
    exact hs
  | cons c calls ih =>
    cases calls' with
    | nil => simp at hcalls
    | cons c' calls' =>
      simp only [List.map_cons, List.cons.injEq, Call.bare, Prod.mk.injEq] at hcalls
      obtain ⟨⟨hcall, hreplies⟩, hrest⟩ := hcalls
      rw [run_cons, run_cons]
      refine ih ?_ hrest
      rw [step, step, ← hcall]
      exact hs.extend hreplies c.1

/-! ## Main result -/

/-- the two ways in which a command that failed is reported -/
inductive Failure where
  | command
  | fetch
  deriving DecidableEq

/-- how an outcome reports that a command failed, with the message -/
def failure? : Except Fault Answer → Option (Failure × Text)
  | .error (.git (.command r past)) => some (.command, (GitFault.command r past).message)
  | .error (.git (.fetch branch stderr)) => some (.fetch, (GitFault.fetch branch stderr).message)
  | _ => none

theorem failure_bare (f : Fault) : failure? (.error f.bare) = failure? (.error f) := by
  cases f with
  | git cause =>
    cases cause with
    | command r past => exact congrArg (fun m => some (Failure.command, m)) (Record.diagnostic_bare r past)
    | _ => rfl
  | _ => rfl

/-- a verdict is no failure, so a close run fails with a command just if the other does -/
theorem failure_of_close {t t' : Trace Answer} (h : Trace.Close t t') : failure? t.result = failure? t'.result := by
  have honly : ∀ {u u' : Trace Answer}, u.OnlyFirst u' → failure? u.result = none ∧ failure? u'.result = none := by
    rintro u u' ⟨hu, hu' | ⟨e, hu'⟩⟩
    · rw [hu, hu']
      exact ⟨rfl, rfl⟩
    · rw [hu, hu']
      exact ⟨rfl, rfl⟩
  rcases h.verdict with ⟨hresult, -⟩ | hfirst | hsecond
  · generalize t.result = e at hresult
    generalize t'.result = e' at hresult
    cases hresult with
    | value h => rfl
    | @fault f f' h hm => rw [← failure_bare f, h, failure_bare f']
  · rw [(honly hfirst).1, (honly hfirst).2]
  · rw [(honly hsecond).1, (honly hsecond).2]

/-- **Exit codes decide nothing but the verdict of a merge.** Two sessions on one handle make the same calls, and git's
replies differ in their exit codes only. Whatever the calls so far, the next call sends the same commands in both sessions,
and after it the histories have the same length and the same records up to exit codes. Any call but a merge has the same
outcome up to exit codes (the same value, or the same fault with the same message) and prints the same text. No call at all
reports a failed command or a failed fetch in one session without reporting it in the other with the same message. A merge
has the same outcome and prints the same too, unless it reports success in just one of the sessions; then what it does in the
other is to answer that it was not clean, if that can be said. -/
theorem exit_codes_decide_merges_only (h : Handle) (screen : Console.Screen) {calls calls' : List (Call × List Reply)}
    (hcalls : calls.map Call.bare = calls'.map Call.bare) (c : Call) {replies replies' : List Reply}
    (hreplies : replies.map Reply.bare = replies'.map Reply.bare) :
    let s := (opened h screen).run calls
    let s' := (opened h screen).run calls'
    let t := s.trace replies c
    let t' := s'.trace replies' c
    t.sent = t'.sent ∧
      (s.extend t).history.length = (s'.extend t').history.length ∧
      (s.extend t).history.map Record.bare = (s'.extend t').history.map Record.bare ∧
      (¬ c.IsMerge → Outcome SameAnswer t.result t'.result ∧ t.console = t'.console) ∧
      failure? t.result = failure? t'.result ∧
      ((Outcome SameAnswer t.result t'.result ∧ t.console = t'.console) ∨ t.OnlyFirst t' ∨ t'.OnlyFirst t) := by
  intro s s' t t'
  have hsame : Same s s' := Same.run ⟨rfl, rfl, rfl⟩ hcalls
  have hclose : Trace.Close t t' := hsame.close hreplies c
  have hhistory := (hsame.extend hreplies c).history
  refine ⟨hclose.sent, ?_, hhistory, fun hc => ?_, failure_of_close hclose, hclose.verdict⟩
  · simpa using congrArg List.length hhistory
  · have halike := hsame.alike hreplies hc
    exact ⟨halike.result, halike.console⟩

/-- a command and then a merge, once with zero as every exit code and once with others: the first merge reports success, so the
second reports no failed command -/
theorem exit_codes_decide_merges_only_branch :
    let h : Handle := ⟨⟨.top, ["repo"]⟩, "main", "origin", "git", false⟩
    let calls : List (Call × List Reply) := [(.op (.run (.line "status") false), [.output [] [] 0])]
    let calls' : List (Call × List Reply) := [(.op (.run (.line "status") false), [.output [] [] 3])]
    let replies : List Reply := [.output (Text.Utf8.encode "main\n") [] 0, .output [] [] 0]
    let replies' : List Reply := [.output (Text.Utf8.encode "main\n") [] 1, .output [] [] 1]
    let t := ((opened h (.plain 80)).run calls).trace replies (.op (.merge "x" false))
    let t' := ((opened h (.plain 80)).run calls').trace replies' (.op (.merge "x" false))
    calls.map Call.bare = calls'.map Call.bare ∧ replies.map Reply.bare = replies'.map Reply.bare ∧
      t.sent = t'.sent ∧ t.result = .ok (.flag true) ∧ failure? t'.result = none := by
  intro h calls calls' replies replies' t t'
  have hcalls : calls.map Call.bare = calls'.map Call.bare := rfl
  have hreplies : replies.map Reply.bare = replies'.map Reply.bare := rfl
  have hall := exit_codes_decide_merges_only h (.plain 80) hcalls (.op (.merge "x" false)) hreplies
  have hresult : t.result = .ok (.flag true) := rfl
  have hfailure : failure? t.result = failure? t'.result := hall.2.2.2.2.1
  rw [hresult] at hfailure
  exact ⟨hcalls, hreplies, hall.1, hresult, hfailure.symm⟩

end Session

end RepoLens
