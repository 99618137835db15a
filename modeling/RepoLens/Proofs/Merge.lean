import Mathlib.Tactic
import RepoLens.Proofs.Run
import RepoLens.Repository
/-!
Merging. A merge goes through at most four stages: it asks for the current branch, switches to the mainline branch if
that is another one, fetches if it merges from the remote, and merges. Each stage sends one command. Where the first two
fail, the fault of the command ends the merge; a fetch that writes to the error output has a fault of its own; and a
merge that does so, or has another exit code than zero, is an answer and no fault.

Results:
- `Merges.cons`, `Merges.stop`: one stage, by the reply to its command;
- `Merges.merge_sent`: the merge is sent only after all other stages, and then nothing is left to do;
- `merge_stage_by_stage`: what a merge sends, where and how it ends, and what it answers, for every way of merging.
-/
namespace RepoLens.Repository

open Script

/-! ## Stages -/

/-- the ways to merge a branch -/
inductive Manner where
  | direct
  /-- the branch of the remote, which is fetched first -/
  | remote
  /-- the side of the branch wins every conflict -/
  | theirs
  deriving DecidableEq

def Manner.script (h : Handle) (branch : Text) : Manner → Script Bool
  | direct => merge h branch false
  | remote => merge h branch true
  | theirs => mergeTheirs h branch

/-- what a merge does, one command at a time -/
inductive Stage where
  | current
  | switch
  | fetch
  | merge
  deriving DecidableEq

def Stage.words (h : Handle) (branch : Text) (m : Manner) : Stage → List Text
  | current => ["rev-parse", "--abbrev-ref", "HEAD"]
  | switch => ["checkout", "--quiet", h.mainline]
  | fetch => ["fetch", "--quiet", h.remote, branch]
  | merge =>
    match m with
    | .direct => ["merge", branch]
    | .remote =>
      let source := h.remote ++ ('/' :: branch)
      ["merge", source, "-m", "Merge remote-tracking branch '" ++ (source ++ "'")]
    | .theirs => ["merge", branch, "-s", "recursive", "-Xtheirs"]

def Stage.argv (h : Handle) (branch : Text) (m : Manner) (s : Stage) : List Text := h.argv (s.words h branch m)

/-- the stages of a merge when some branch is checked out -/
def stages (h : Handle) (m : Manner) (checkedOut : Text) : List Stage :=
  .current :: ((if checkedOut = h.mainline then [] else [.switch]) ++ ((if m = .remote then [.fetch] else []) ++ [.merge]))

/-- why a stage ends the merge; a merge that writes to the error output is no fault -/
def Stage.fault? (h : Handle) (branch : Text) (m : Manner) (past : List Record) : Stage → Reply → Option Fault
  | .fetch, .output _ err _ => if err = [] then none else some (.git (.fetch branch (Record.captured err)))
  | .merge, .output _ _ _ => none
  | s, r => r.fault? h.binary past (s.argv h branch m)

/-- a merge that came to an end: no error output, and zero as exit code -/
def Clean (r : Reply) : Prop := ∃ out, r = .output out [] 0

variable {h : Handle} {screen : Console.Screen} {branch : Text} {m : Manner} {past : List Record} {replies : List Reply}

theorem Clean.quiet {r : Reply} (hr : Clean r) : r.Quiet := by
  obtain ⟨out, rfl⟩ := hr
  exact ⟨out, 0, rfl⟩

theorem clean_output {out err : List UInt8} {code : Int} : Clean (.output out err code) ↔ err = [] ∧ code = 0 := by
  simp [Clean]

theorem Stage.fault_quiet {s : Stage} {r : Reply} (hr : r.Quiet) : s.fault? h branch m past r = none := by
  obtain ⟨out, code, rfl⟩ := hr
  cases s <;> rfl

/-! ## The command of a stage tells the stage -/

/-- what the command of a stage starts with, after the words of the handle -/
def Stage.verb : Stage → Text
  | current => "rev-parse"
  | switch => "checkout"
  | fetch => "fetch"
  | merge => "merge"

theorem Stage.words_head (s : Stage) : (s.words h branch m).head? = some s.verb := by
  cases s <;> cases m <;> rfl

theorem Stage.argv_injective : Function.Injective (Stage.argv h branch m) := by
  intro a b heq
  have hwords : a.words h branch m = b.words h branch m := RepoLens.argv_injective h heq
  have hverb : a.verb = b.verb := by
    rw [← Option.some.injEq, ← a.words_head, ← b.words_head, hwords]
  cases a <;> cases b <;> first | rfl | exact absurd hverb (by decide)

/-- the merge is the last stage, and nothing but the last stage -/
theorem stages_merge {checkedOut : Text} {k : Nat} :
    (stages h m checkedOut)[k]? = some .merge ↔ (stages h m checkedOut).length = k + 1 := by
  by_cases hc : checkedOut = h.mainline <;> by_cases hm : m = .remote <;>
    rcases k with _ | _ | _ | _ | k <;> simp [stages, hc, hm]

/-! ## Runs through stages -/

/-- a run that goes through some stages, each of them only after the one before was answered quietly -/
structure Merges (t : Trace Bool) (h : Handle) (branch : Text) (m : Manner) (past : List Record) (replies : List Reply)
    (plan : List Stage) : Prop where
  sent : t.sent <+: plan.map (Stage.argv h branch m)
  early_quiet : ∀ k, k + 1 < t.sent.length → (Reply.nth replies k).Quiet
  /-- a stage that fails is the last one, and its fault is the outcome -/
  fault : ∀ k s f, k < t.sent.length → plan[k]? = some s →
    s.fault? h branch m (past ++ t.added) (Reply.nth replies k) = some f → t.sent.length = k + 1 ∧ t.result = .error f
  /-- a fault is that of the last stage, or it is in the lines that are shown before a switch and after a merge that is
  not clean -/
  error : ∀ f, t.result = .error f →
    (∃ k s, t.sent.length = k + 1 ∧ plan[k]? = some s ∧
      s.fault? h branch m (past ++ t.added) (Reply.nth replies k) = some f) ∨
    ∃ e, f = .markup e ∧ (plan[t.sent.length]? = some .switch ∨
      ∃ k, t.sent.length = k + 1 ∧ plan[k]? = some .merge ∧ ¬ Clean (Reply.nth replies k))
  /-- an answer comes after the last stage, and it is yes if the merge was clean -/
  answer : ∀ b, t.result = .ok b → t.sent = plan.map (Stage.argv h branch m) ∧
    ∃ k, plan.length = k + 1 ∧ (∃ out err code, Reply.nth replies k = .output out err code) ∧
      (b = true ↔ Clean (Reply.nth replies k))

namespace Merges

variable {t : Trace Bool} {plan : List Stage} {s : Stage}

/-- a line that is shown before the rest of the run -/
theorem shown {console : Text} (ht : Merges t h branch m past replies plan) :
    Merges (t.after [] console []) h branch m past replies plan :=
  ⟨by simpa using ht.sent, by simpa using ht.early_quiet, by simpa using ht.fault, by simpa using ht.error,
    by simpa using ht.answer⟩

/-- a line before a switch that cannot be shown -/
theorem unshown (e : Console.MarkupFault) :
    Merges (.ended (.error (.markup e))) h branch m past replies (.switch :: plan) where
  sent := by simp
  early_quiet := by simp
  fault := by simp
  error := by
    rintro f hf
    exact Or.inr ⟨e, (Except.error.inj hf).symm, Or.inl rfl⟩
  answer := by simp

/-- a stage that fails -/
theorem stop {f : Fault} {console : Text} (hf : s.fault? h branch m past (Reply.nth replies 0) = some f) :
    Merges ⟨.error f, [s.argv h branch m], console, []⟩ h branch m past replies (s :: plan) where
  sent := by simp
  early_quiet := by simp
  fault := by
    intro k s' f' hk hs hf'
    have hk0 : k = 0 := by simpa using hk
    subst hk0
    simp only [List.getElem?_cons_zero, Option.some.injEq] at hs
    subst hs
    rw [List.append_nil, hf, Option.some.injEq] at hf'
    exact ⟨rfl, by rw [hf']⟩
  error := by
    intro f' hf'
    rw [← Except.error.inj hf']
    exact Or.inl ⟨0, s, rfl, rfl, by rwa [List.append_nil]⟩
  answer := by simp

/-- a stage that is answered quietly, and the stages after it -/
theorem cons {console : Text} {r : Record} (hq : (Reply.nth replies 0).Quiet)
    (ht : Merges t h branch m (past ++ [r]) replies.tail plan) :
    Merges (t.after [s.argv h branch m] console [r]) h branch m past replies (s :: plan) where
  sent := by simpa using ht.sent
  early_quiet := by
    intro k hk
    cases k with
    | zero => exact hq
    | succ k =>
      rw [← Reply.nth_tail]
      exact ht.early_quiet k (by simpa using hk)
  fault := by
    intro k s' f hk hs hf
    cases k with
    | zero =>
      rw [Stage.fault_quiet hq] at hf
      exact absurd hf (by simp)
    | succ k =>
      rw [Trace.after_added, ← List.append_assoc, ← Reply.nth_tail] at hf
      obtain ⟨hlen, hres⟩ := ht.fault k s' f (by simpa using hk) (by simpa using hs) hf
      exact ⟨by simp [hlen], hres⟩
  error := by
    intro f hf
    rcases ht.error f hf with ⟨k, s', hlen, hs, hfault⟩ | ⟨e, rfl, hnext | ⟨k, hlen, hs, hc⟩⟩
    · refine Or.inl ⟨k + 1, s', by simp [hlen], by simpa using hs, ?_⟩
      rwa [Trace.after_added, ← List.append_assoc, ← Reply.nth_tail]
    · exact Or.inr ⟨e, rfl, Or.inl (by simpa [Nat.add_comm] using hnext)⟩
    · exact Or.inr ⟨e, rfl, Or.inr ⟨k + 1, by simp [hlen], by simpa using hs, by rwa [← Reply.nth_tail]⟩⟩
  answer := by
    intro b hb
    obtain ⟨hsent, k, hlen, hreply, hclean⟩ := ht.answer b hb
    rw [Reply.nth_tail] at hreply hclean
    exact ⟨by simp [hsent], k + 1, by simp [hlen], hreply, hclean⟩

end Merges

/-! ## The stages of a merge -/

/-- what comes after the mainline branch is checked out -/
def Manner.rest (h : Handle) (branch : Text) (m : Manner) : Script Bool :=
  let finish : Script Bool := git (.list (Stage.merge.words h branch m)) true judge
  if m = .remote then
    git (.list (Stage.fetch.words h branch m)) true fun r =>
      if r.failed then fail (.git (.fetch branch r.stderr)) else finish
  else finish

theorem Manner.script_eq (h : Handle) (branch : Text) (m : Manner) :
    m.script h branch = (toMainline h).bind fun _ => m.rest h branch := by
  cases m <;> rfl

/-- something after the mainline branch is checked out -/
theorem toMainline_bind {γ : Type} (h : Handle) (branch : Text) (m : Manner) (next : Script γ) :
    ((toMainline h).bind fun _ => next) = git (.list (Stage.current.words h branch m)) false fun r =>
      if r.stdout.trim = h.mainline then next
      else
        say ("[yellow]You are not on the " ++ (h.mainline ++ " branch[/yellow]"))
          (say ("[yellow]Switching to the " ++ (h.mainline ++ " branch...[/yellow]"))
            (git (.list (Stage.switch.words h branch m)) false fun _ => next)) := by
  have hswitch : ∀ current : Text,
      ((if current = h.mainline then done () else
        say ("[yellow]You are not on the " ++ (h.mainline ++ " branch[/yellow]"))
          (say ("[yellow]Switching to the " ++ (h.mainline ++ " branch...[/yellow]"))
            (tell ["checkout", "--quiet", h.mainline]))).bind fun _ => next) =
      if current = h.mainline then next
      else
        say ("[yellow]You are not on the " ++ (h.mainline ++ " branch[/yellow]"))
          (say ("[yellow]Switching to the " ++ (h.mainline ++ " branch...[/yellow]"))
            (git (.list (Stage.switch.words h branch m)) false fun _ => next)) := by
    intro current
    split <;> rfl
  exact congrArg (git _ false) (funext fun r => hswitch r.stdout.trim)

/-! ## Runs of a merge -/

/-- the answer on a merge, or why it cannot be given: if the merge was not clean, a line is shown first -/
def answer (screen : Console.Screen) (clean : Prop) [Decidable clean] (line : Text) : Except Fault Bool :=
  if clean then .ok true
  else
    match Console.print screen line with
    | .ok _ => .ok false
    | .error e => .error (.markup e)

theorem answer_ok {clean : Prop} [Decidable clean] {line : Text} {b : Bool} (h : answer screen clean line = .ok b) :
    b = true ↔ clean := by
  unfold answer at h
  split_ifs at h with hclean
  · cases h
    simp [hclean]
  · split at h
    · cases h
      simp [hclean]
    · cases h

theorem answer_error {clean : Prop} [Decidable clean] {line : Text} {f : Fault} (h : answer screen clean line = .error f) :
    ¬ clean ∧ ∃ e, f = .markup e := by
  unfold answer at h
  split_ifs at h with hclean
  split at h
  · cases h
  · cases h
    exact ⟨hclean, _, rfl⟩

theorem run_judge (r : Record) :
    ((judge r).run h screen past replies).sent = [] ∧
      ((judge r).run h screen past replies).result = answer screen (r.stderr = [] ∧ r.returncode = 0)
        ("[red]Merge did not complete cleanly: " ++ (r.command ++ "[/red]")) := by
  by_cases hclean : r.stderr = [] ∧ r.returncode = 0
  · have hjudge : judge r = done true := by simp [judge, Record.failed, hclean.1, hclean.2]
    rw [hjudge, answer, if_pos hclean]
    exact ⟨rfl, rfl⟩
  · have hfailed : (r.failed || r.returncode ≠ 0) = true := by
      rw [not_and_or] at hclean
      simpa [Record.failed] using hclean
    rw [judge, if_pos hfailed, answer, if_neg hclean, run_say]
    cases Console.print screen ("[red]Merge did not complete cleanly: " ++ (r.command ++ "[/red]")) with
    | ok t => exact ⟨rfl, rfl⟩
    | error e => exact ⟨rfl, rfl⟩

theorem Merges.unstarted {plan : List Stage} {s : Stage} {allow : Bool} {next : Record → Script Bool}
    (hno : ∀ out err code, Reply.nth replies 0 ≠ .output out err code) :
    Merges ((git (.list (s.words h branch m)) allow next).run h screen past replies) h branch m past replies
      (s :: plan) := by
  rw [run_git]
  cases hreply : Reply.nth replies 0 with
  | missing =>
    refine Merges.stop ?_
    rw [hreply]
    cases s <;> rfl
  | denied =>
    refine Merges.stop ?_
    rw [hreply]
    cases s <;> rfl
  | output out err code => exact absurd hreply (hno out err code)

/-- the first two stages: a command that must not fail, and what comes after it -/
theorem Merges.asked {plan : List Stage} {s : Stage} {next : Record → Script Bool} (hs : s = .current ∨ s = .switch)
    (hn : ∀ r : Record, r.stdout = (Reply.nth replies 0).stdout →
      Merges ((next r).run h screen (past ++ [r]) replies.tail) h branch m (past ++ [r]) replies.tail plan) :
    Merges ((git (.list (s.words h branch m)) false next).run h screen past replies) h branch m past replies
      (s :: plan) := by
  by_cases hq : (Reply.nth replies 0).Quiet
  · obtain ⟨out, code, hreply⟩ := hq
    rw [run_git_quiet hreply]
    exact Merges.cons ⟨out, code, hreply⟩ (hn _ (by rw [hreply]; rfl))
  · obtain ⟨f, hf⟩ := Reply.fault_of_not_quiet hq h.binary past (s.argv h branch m)
    have hstage : s.fault? h branch m past (Reply.nth replies 0) = some f := by
      rcases hs with rfl | rfl <;> exact hf
    rw [run_git_fault hf]
    exact Merges.stop hstage

theorem run_finish :
    Merges ((git (.list (Stage.merge.words h branch m)) true judge).run h screen past replies) h branch m past replies
      [.merge] := by
  by_cases hout : ∃ out err code, Reply.nth replies 0 = .output out err code
  · obtain ⟨out, err, code, hreply⟩ := hout
    let r : Record :=
      ⟨commandLine (Stage.merge.argv h branch m), Record.captured out, Record.captured err, code⟩
    have hclean : (r.stderr = [] ∧ r.returncode = 0) ↔ Clean (Reply.nth replies 0) := by
      rw [hreply, clean_output, ← Record.captured_eq_nil]
    obtain ⟨past', console, added, hrun⟩ : ∃ past' console added,
        (git (.list (Stage.merge.words h branch m)) true judge).run h screen past replies =
          ((judge r).run h screen past' replies.tail).after [Stage.merge.argv h branch m] console added :=
      run_git_started hreply
    obtain ⟨hsent, hresult⟩ := @run_judge h screen past' replies.tail r
    rw [hrun]
    refine ⟨by simp [hsent], by simp [hsent], ?_, ?_, ?_⟩
    · intro k s f hk hs hf
      have hk0 : k = 0 := by simpa [hsent] using hk
      subst hk0
      simp only [List.getElem?_cons_zero, Option.some.injEq] at hs
      rw [← hs, hreply] at hf
      exact absurd hf (by simp [Stage.fault?])
    · intro f hf
      obtain ⟨hnot, e, rfl⟩ := answer_error (hresult.symm.trans hf)
      exact Or.inr ⟨e, rfl, Or.inr ⟨0, by simp [hsent], rfl, fun hc => hnot (hclean.2 hc)⟩⟩
    · intro b hb
      exact ⟨by simp [hsent], 0, rfl, ⟨out, err, code, hreply⟩, (answer_ok (hresult.symm.trans hb)).trans hclean⟩
  · exact Merges.unstarted fun out err code hreply => hout ⟨out, err, code, hreply⟩

theorem run_rest :
    Merges ((m.rest h branch).run h screen past replies) h branch m past replies
      ((if m = .remote then [.fetch] else []) ++ [.merge]) := by
  by_cases hm : m = .remote
  · simp only [Manner.rest, hm, if_true, List.singleton_append]
    by_cases hout : ∃ out err code, Reply.nth replies 0 = .output out err code
    · obtain ⟨out, err, code, hreply⟩ := hout
      by_cases herr : err = []
      · subst herr
        rw [run_git_quiet hreply]
        exact Merges.cons ⟨out, code, hreply⟩ run_finish
      · have hcap : Record.captured err ≠ [] := fun hnil => herr (Record.captured_eq_nil.1 hnil)
        have hf : Stage.fetch.fault? h branch .remote past (Reply.nth replies 0) =
            some (.git (.fetch branch (Record.captured err))) := by
          rw [hreply]
          simp [Stage.fault?, herr]
        rw [run_git_allowed hreply herr]
        rw [if_pos (Record.failed_captured.2 herr)]
        exact Merges.stop hf
    · exact Merges.unstarted fun out err code hreply => hout ⟨out, err, code, hreply⟩
  · simp only [Manner.rest, hm, if_false, List.nil_append]
    exact run_finish

/-- the lines that are shown before a switch, the switch, and what comes after it -/
theorem run_switch {markup markup' : Text} {next : Script Bool} {plan : List Stage}
    (hn : ∀ {past replies}, Merges (next.run h screen past replies) h branch m past replies plan) :
    Merges ((say markup (say markup' (git (.list (Stage.switch.words h branch m)) false fun _ => next))).run h screen past
      replies) h branch m past replies (.switch :: plan) := by
  have hgit : Merges ((git (.list (Stage.switch.words h branch m)) false fun _ => next).run h screen past replies)
      h branch m past replies (.switch :: plan) :=
    Merges.asked (Or.inr rfl) fun _ _ => hn
  have hsay : Merges ((say markup' (git (.list (Stage.switch.words h branch m)) false fun _ => next)).run h screen past
      replies) h branch m past replies (.switch :: plan) := by
    rw [run_say]
    split
    · exact Merges.unshown _
    · exact hgit.shown
  rw [run_say]
  split
  · exact Merges.unshown _
  · exact hsay.shown

theorem run_merges :
    Merges ((m.script h branch).run h screen past replies) h branch m past replies
      (stages h m (Reply.nth replies 0).stdout.trim) := by
  simp only [Manner.script_eq, toMainline_bind h branch m]
  refine Merges.asked (Or.inl rfl) fun r hr => ?_
  by_cases hmain : (Reply.nth replies 0).stdout.trim = h.mainline
  · simp only [hr, hmain, if_true, List.nil_append]
    exact run_rest
  · simp only [hr, hmain, if_false, List.singleton_append]
    exact run_switch run_rest

/-! ## What the stages say about the end -/

namespace Merges

variable {t : Trace Bool} {checkedOut : Text}

/-- once the merge is sent nothing is left to do, and its error output is no fault -/
theorem merge_sent (ht : Merges t h branch m past replies (stages h m checkedOut))
    (hmem : Stage.merge.argv h branch m ∈ t.sent) :
    t.sent = (stages h m checkedOut).map (Stage.argv h branch m) ∧
      (∀ k, k + 1 < (stages h m checkedOut).length → (Reply.nth replies k).Quiet) ∧
      ∀ r records, t.result ≠ .error (.git (.command r records)) := by
  obtain ⟨n, s, hlt, hs, heq⟩ := Trace.place_of_sent ht.sent hmem
  have hplan : (stages h m checkedOut)[n]? = some .merge := by rw [hs, Stage.argv_injective heq]
  have hlen : (stages h m checkedOut).length = n + 1 := stages_merge.1 hplan
  have hall : t.sent = (stages h m checkedOut).map (Stage.argv h branch m) :=
    ht.sent.eq_of_length_le (by rw [List.length_map]; omega)
  refine ⟨hall, fun k hk => ht.early_quiet k (by rw [hall, List.length_map]; exact hk), ?_⟩
  intro r records hres
  rcases ht.error _ hres with ⟨k, s, hk, hs, hfault⟩ | ⟨e, he, -⟩
  · have hkn : k = n := by
      rw [hall, List.length_map] at hk
      omega
    rw [hkn, hplan, Option.some.injEq] at hs
    rw [← hs] at hfault
    cases hreply : Reply.nth replies k <;> simp [hreply, Stage.fault?, Reply.fault?] at hfault
  · simp at he

/-- without a switch nothing can be in the way of a clean merge -/
theorem result_clean (ht : Merges t h branch m past replies (stages h m checkedOut)) (hmain : checkedOut = h.mainline)
    (hquiet : ∀ k, k + 1 < (stages h m checkedOut).length → (Reply.nth replies k).Quiet)
    (hclean : ∀ k, (stages h m checkedOut).length = k + 1 → Clean (Reply.nth replies k)) : t.result = .ok true := by
  cases hres : t.result with
  | ok b =>
    obtain ⟨-, k, hlen, -, hb⟩ := ht.answer b hres
    rw [hb.2 (hclean k hlen)]
  | error f =>
    exfalso
    rcases ht.error f hres with ⟨k, s, -, hs, hfault⟩ | ⟨e, -, hnext | ⟨k, -, hs, hnot⟩⟩
    · have hk : k < (stages h m checkedOut).length := (List.getElem?_eq_some_iff.1 hs).1
      have hq : (Reply.nth replies k).Quiet := by
        rcases Nat.lt_or_ge (k + 1) (stages h m checkedOut).length with hlt | hge
        · exact hquiet k hlt
        · exact (hclean k (by omega)).quiet
      rw [Stage.fault_quiet hq] at hfault
      simp at hfault
    · have hswitch : Stage.switch ∈ stages h m checkedOut := List.mem_of_getElem? hnext
      simp [stages, hmain] at hswitch
    · exact hnot (hclean k (stages_merge.1 hs))

end Merges

/-! ## Main result -/

/-- **A merge, stage by stage.** For every way of merging and any replies: the commands of its stages are sent in order,
each only after the one before was answered quietly; asking for the current branch is always the first. A stage that
fails is the last one and its fault is the outcome, where a fetch that writes to the error output has a fault of its own
and a merge that does so has none. The merge command comes last, after all other stages, and after all of them were
answered quietly. An answer comes only from the merge, and it is yes exactly if the merge was clean. On the mainline
branch, stages that are all answered quietly and a clean merge give that answer. -/
theorem merge_stage_by_stage (h : Handle) (screen : Console.Screen) (past : List Record) (replies : List Reply) (branch : Text)
    (m : Manner) :
    let t := (m.script h branch).run h screen past replies
    let plan := stages h m (Reply.nth replies 0).stdout.trim
    Merges t h branch m past replies plan ∧
    t.sent[0]? = some (Stage.current.argv h branch m) ∧
    (Stage.merge.argv h branch m ∈ t.sent →
      t.sent = plan.map (Stage.argv h branch m) ∧ (∀ k, k + 1 < plan.length → (Reply.nth replies k).Quiet) ∧
        ∀ r records, t.result ≠ .error (.git (.command r records))) ∧
    ((Reply.nth replies 0).stdout.trim = h.mainline → (∀ k, k + 1 < plan.length → (Reply.nth replies k).Quiet) →
      (∀ k, plan.length = k + 1 → Clean (Reply.nth replies k)) → t.result = .ok true) := by
  intro t plan
  have ht : Merges t h branch m past replies plan := run_merges
  refine ⟨ht, ?_, ht.merge_sent, ht.result_clean⟩
  simp only [t, Manner.script_eq, toMainline_bind h branch m, run_git]
  rfl

end RepoLens.Repository
