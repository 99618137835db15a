import Mathlib.Tactic
import RepoLens.Proofs.History
import RepoLens.Proofs.Plan
/-!
The diagnostic of a failed command. A fault of this kind comes from git alone: no operation makes one up. So it is about
the last command that was sent, and it lists what the history of the session holds at that moment.

Results:
- `ownFaults_script`: no operation ends with a failed command by itself;
- `diagnostic_eq`: the text of a diagnostic, with one block for each earlier command, newest first;
- `failed_command_told`: a call that ends with a failed command tells which one, and what went well before it.
-/
namespace RepoLens

variable {α β : Type}

/-! ## Text -/

/-- the head of the list of earlier commands -/
def Record.heading : Text := "Previous git commands (most recent is on top):\n"

/-- **A diagnostic, piece by piece**: a newline, the command, a newline and its error output; then, if there are earlier
commands, a heading and a block for each of them, the newest first. -/
theorem Record.diagnostic_eq (r : Record) (past : List Record) :
    r.diagnostic past =
      ['\n'] ++ r.command ++ ['\n'] ++ r.stderr ++
        if past = [] then []
        else heading ++ (past.reverse.map fun q =>
          ['\n'] ++ q.command ++ "\nstdout: ".toList ++ q.stdout ++ "\nstderr: ".toList ++ q.stderr).flatten := by
  have hblock : (fun q : Record => ['\n'] ++ q.command ++ "\nstdout: ".toList ++ q.stdout ++ "\nstderr: ".toList ++
      q.stderr) = block := by
    funext q
    simp only [block, List.append_assoc, List.cons_append, List.nil_append]
  rw [hblock, ← List.flatMap_def]
  simp only [diagnostic, List.append_assoc, List.cons_append, List.nil_append]
  cases past with
  | nil => rfl
  | cons q past => rfl

/-! ## Where the fault comes from -/

/-- a fault that is no failed command -/
def Fault.Other (f : Fault) : Prop := ∀ r past, f ≠ .git (.command r past)

namespace Script

theorem other_done (a : α) : (done a).OwnFaults Fault.Other := trivial

theorem other_tell (words : List Text) : (Repository.tell words).OwnFaults Fault.Other := fun _ => trivial

theorem other_ask (words : List Text) : (Repository.ask words).OwnFaults Fault.Other := fun _ => trivial

theorem other_attempt (words : List Text) : (Repository.attempt words).OwnFaults Fault.Other := fun _ => trivial

theorem other_ofExcept {ε : Type} {cause : ε → Fault} (hcause : ∀ e, (cause e).Other) (e : Except ε α) :
    (ofExcept cause e).OwnFaults Fault.Other := by
  cases e with
  | ok a => trivial
  | error e => exact hcause e

theorem other_say {next : Script α} (hn : next.OwnFaults Fault.Other) (markup : Text) :
    (say markup next).OwnFaults Fault.Other := ⟨fun _ _ _ => by simp, hn⟩

theorem other_map {s : Script α} (hs : s.OwnFaults Fault.Other) (f : α → β) : (f <$> s).OwnFaults Fault.Other :=
  ownFaults_bind hs fun _ => trivial

end Script

namespace Repository

open Script

theorem other_toMainline (h : Handle) : (toMainline h).OwnFaults Fault.Other := by
  refine ownFaults_bind (ownFaults_bind (other_ask _) fun _ => trivial) fun current => ?_
  split_ifs
  · trivial
  · exact other_say (other_say (other_tell _) _) _

theorem other_judge (r : Record) : (judge r).OwnFaults Fault.Other := by
  unfold judge
  split_ifs
  · exact other_say (other_done _) _
  · trivial

theorem other_merge (h : Handle) (branch : Text) (remote : Bool) : (merge h branch remote).OwnFaults Fault.Other := by
  refine ownFaults_bind (other_toMainline h) fun _ => ?_
  cases remote with
  | false => exact ownFaults_bind (other_attempt _) other_judge
  | true =>
    refine ownFaults_bind (other_attempt _) fun fetched => ?_
    split_ifs
    · exact fun _ _ => by simp
    · exact ownFaults_bind (other_attempt _) other_judge

theorem other_filesIn (commitId : Text) : (filesIn commitId).OwnFaults Fault.Other :=
  ownFaults_bind (other_ask _) fun _ => other_ofExcept (fun _ _ _ => by simp) _

theorem other_commits (branch : Text) : (commits branch).OwnFaults Fault.Other := by
  refine ownFaults_bind (ownFaults_bind (other_ask _) fun _ => trivial) fun ids => ?_
  cases ids with
  | nil => trivial
  | cons base later =>
    refine ownFaults_bind (ownFaults_each fun id _ => ?_) fun _ => trivial
    exact ownFaults_bind (other_filesIn id) fun _ => trivial

theorem other_add (path : Value) : (add path).OwnFaults Fault.Other := by
  cases path with
  | text t => exact other_tell _
  | _ => exact fun _ _ => by simp

theorem other_commit (files : List File) (message : Text) : (commit files message).OwnFaults Fault.Other :=
  ownFaults_bind (ownFaults_each fun f _ => other_add f.filename) fun _ =>
    ownFaults_bind (other_tell _) fun _ => ownFaults_bind (ownFaults_bind (other_ask _) fun _ => trivial) fun _ => trivial

theorem other_isMerged (h : Handle) (branch : Text) : (isMerged h branch).OwnFaults Fault.Other :=
  ownFaults_bind (other_ask _) fun _ => ownFaults_bind (other_ofExcept (fun _ _ _ => by simp) _) fun _ => trivial

end Repository

open Script in
/-- **No operation makes up a failed command.** -/
theorem Op.ownFaults_script (o : Op) (h : Handle) : (o.script h).OwnFaults Fault.Other := by
  have hread : ∀ {β : Type} {words : List Text} {f : Record → Script β}, (∀ r, (f r).OwnFaults Fault.Other) →
      ((Repository.ask words).bind f).OwnFaults Fault.Other := fun hf => ownFaults_bind (other_ask _) hf
  cases o with
  | init => exact other_map (other_tell _) _
  | setUser email name => exact other_map (ownFaults_bind (other_tell _) fun _ => other_tell _) _
  | switchBranch branch => exact other_map (other_tell _) _
  | removeBranch branch => exact other_map (other_tell _) _
  | branches => exact other_map (hread fun _ => other_ofExcept (fun _ _ _ => by simp) _) _
  | currentBranch => exact other_map (hread fun _ => other_done _) _
  | tagHead name => exact other_map (other_tell _) _
  | tags => exact other_map (hread fun _ => other_ofExcept (fun _ _ _ => by simp) _) _
  | head => exact other_map (hread fun _ => other_done _) _
  | commitIds branch => exact other_map (hread fun _ => other_done _) _
  | commits branch => exact other_map (Repository.other_commits branch) _
  | filesIn commitId => exact other_map (Repository.other_filesIn commitId) _
  | uncommitted => exact other_map (hread fun _ => other_ofExcept (fun _ _ _ => by simp) _) _
  | contents commitId path => exact other_map (hread fun _ => other_done _) _
  | add path => exact other_map (Repository.other_add path) _
  | commit files message =>
    refine ownFaults_bind (other_ofExcept (fun _ _ _ => by simp) _) fun files => ?_
    exact other_map (Repository.other_commit files message) _
  | reset ref hard => exact other_map (other_tell _) _
  | pushAll => exact other_map (other_tell _) _
  | pull => exact other_map (other_tell _) _
  | merge branch remote => exact other_map (Repository.other_merge h branch remote) _
  | mergeTheirs branch =>
    refine other_map (ownFaults_bind (Repository.other_toMainline h) fun _ => ?_) _
    exact ownFaults_bind (other_attempt _) Repository.other_judge
  | isMerged branch => exact other_map (Repository.other_isMerged h branch) _
  | run args allow => exact fun _ => trivial

/-- only a reply with error output is the fault of a failed command -/
theorem Reply.fault_command {reply : Reply} {binary : Text} {past past' : List Record} {words : List Text} {r : Record}
    (h : reply.fault? binary past words = some (.git (.command r past'))) :
    ∃ out err code, reply = .output out err code ∧ err ≠ [] ∧
      r = ⟨commandLine words, Record.captured out, Record.captured err, code⟩ ∧ past' = past := by
  cases reply with
  | missing => simp [fault?] at h
  | denied => simp [fault?] at h
  | output out err code =>
    cases err with
    | nil => simp [fault?] at h
    | cons b err =>
      simp only [fault?, Option.some.injEq, Fault.git.injEq, GitFault.command.injEq] at h
      exact ⟨out, b :: err, code, rfl, by simp, h.1.symm, h.2.symm⟩

theorem Reply.pair_append (sent sent' : List (List Text)) (replies : List Reply) :
    pair (sent ++ sent') replies = pair sent replies ++ pair sent' (replies.drop sent.length) := by
  induction sent generalizing replies with
  | nil => rfl
  | cons words sent ih => simp [pair, ih, ← List.drop_one, List.drop_drop, Nat.add_comm]

/-! ## Sessions -/

namespace Session

variable {s : Session} {replies : List Reply} {c : Call} {r : Record} {past : List Record}

/-- a call that ends with a failed command ends with the one that it sent last; the past is the history of the session and
what this call has added to it -/
theorem trace_command_fault (hf : (s.trace replies c).result = .error (.git (.command r past))) :
    ∃ before words out err code, (s.trace replies c).sent = before ++ [words] ∧
      Reply.nth replies before.length = .output out err code ∧ err ≠ [] ∧
      r = ⟨commandLine words, Record.captured out, Record.captured err, code⟩ ∧
      past = s.history ++ (s.trace replies c).added := by
  cases c with
  | op o =>
    rcases Script.run_error (o.ownFaults_script s.handle) hf with hother | ⟨k, words, hk, hlen, hfault⟩
    · exact absurd rfl (hother r past)
    · obtain ⟨out, err, code, hreply, herr, hr, hpast⟩ := Reply.fault_command hfault
      have hsent : (s.trace replies (.op o)).sent ≠ [] := fun h => by
        simp only [trace] at h
        simp [h] at hlen
      have hlast : (s.trace replies (.op o)).sent.getLast hsent = words := by
        have hget := List.getLast_eq_getElem hsent
        obtain ⟨hlt, hword⟩ := List.getElem?_eq_some_iff.1 hk
        rw [hget, ← hword]
        congr 1
        exact Nat.sub_eq_of_eq_add hlen
      refine ⟨(s.trace replies (.op o)).sent.dropLast, words, out, err, code, ?_, ?_, herr, hr, hpast⟩
      · rw [← hlast, List.dropLast_append_getLast]
      · rw [List.length_dropLast, ← hreply]
        exact congrArg _ (Nat.sub_eq_of_eq_add hlen)
  | history => simp [trace] at hf
  | command args => simp [trace] at hf

/-- the command that failed adds no record, so those of the call are of the commands before it -/
theorem added_before_fault {before : List (List Text)} {words : List Text} {out err : List UInt8} {code : Int}
    (hsent : (s.trace replies c).sent = before ++ [words]) (hreply : Reply.nth replies before.length = .output out err code)
    (herr : err ≠ []) : (s.trace replies c).added = recordsOf (Reply.pair before replies) := by
  have hnone : recordsOf (Reply.pair [words] (replies.drop before.length)) = [] := by
    simp [Reply.pair, recordsOf, hreply, Reply.record_failed herr]
  rw [trace_added, hsent, Reply.pair_append, recordsOf, List.filterMap_append]
  exact (congrArg (_ ++ ·) hnone).trans (List.append_nil _)

/-- **A failed command is told with what went well before it.** After any calls, let a call end with a failed command. The
fault holds the record of the command that this call sent last, and lists the records of all commands of the session that
were sent before it and answered quietly, in this call and the earlier ones, the oldest first. Its message is the command
and its error output, followed, if and only if something is listed, by a heading and one block for each listed record, the
newest first. The history is then just what the fault lists, and whatever is called later is put behind that. -/
theorem failed_command_told (h : Handle) (screen : Console.Screen) (calls : List (Call × List Reply)) (c : Call) (replies : List Reply)
    (r : Record) (past : List Record) :
    let s := (opened h screen).run calls
    let t := s.trace replies c
    t.result = .error (.git (.command r past)) →
      (∃ before words out err code, t.sent = before ++ [words] ∧ Reply.nth replies before.length = .output out err code ∧
        err ≠ [] ∧ r = ⟨commandLine words, Record.captured out, Record.captured err, code⟩ ∧
        past = recordsOf ((opened h screen).exchanges calls ++ Reply.pair before replies)) ∧
      (GitFault.command r past).message =
        ['\n'] ++ r.command ++ ['\n'] ++ r.stderr ++
          (if past = [] then []
          else Record.heading ++ (past.reverse.map fun q =>
            ['\n'] ++ q.command ++ "\nstdout: ".toList ++ q.stdout ++ "\nstderr: ".toList ++ q.stderr).flatten) ∧
      (s.extend t).history = past ∧
      ∀ later, ((s.extend t).run later).history = past ++ recordsOf ((s.extend t).exchanges later) := by
  intro s t hfault
  obtain ⟨before, words, out, err, code, hsent, hreply, herr, hr, hpast⟩ := trace_command_fault hfault
  have hadded : t.added = recordsOf (Reply.pair before replies) := added_before_fault hsent hreply herr
  have hhistory : s.history = recordsOf ((opened h screen).exchanges calls) := run_history (opened h screen) calls
  have hafter : (s.extend t).history = past := hpast.symm
  refine ⟨⟨before, words, out, err, code, hsent, hreply, herr, hr, ?_⟩, Record.diagnostic_eq r past, hafter, ?_⟩
  · rw [hpast, hadded, hhistory, recordsOf, recordsOf, recordsOf, List.filterMap_append]
  · intro later
    rw [run_history, hafter]

/-- a commit of a file that is staged, after a look at the status: the commit itself fails -/
theorem failed_command_told_commit :
    let h : Handle := ⟨⟨.top, ["repo"]⟩, "main", "origin", "git", false⟩
    let calls : List (Call × List Reply) := [(.op (.run (.line "status") false), [.output [] [] 0])]
    let replies : List Reply := [.output [] [] 0, .output [] (Text.Utf8.encode "no name") 1]
    let file : Value := (⟨.text "a", .add, .null⟩ : File).toValue
    let s := (opened h (.plain 80)).run calls
    let t := s.trace replies (.op (.commit [file] "first"))
    ∃ r past, t.result = .error (.git (.command r past)) ∧ past.length = 2 ∧ r.stderr = "no name\n" ∧
      (s.extend t).history = past := by
  intro h calls replies file s t
  obtain ⟨r, past, hfault, hlength, hstderr⟩ :
      ∃ r past, t.result = .error (.git (.command r past)) ∧ past.length = 2 ∧ r.stderr = "no name\n" :=
    ⟨_, _, rfl, rfl, rfl⟩
  exact ⟨r, past, hfault, hlength, hstderr, (failed_command_told h (.plain 80) calls _ replies r past hfault).2.2.1⟩

end Session

end RepoLens
