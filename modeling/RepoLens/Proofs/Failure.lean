import Mathlib.Tactic
import RepoLens.Proofs.Opening
import RepoLens.Proofs.Reading
import RepoLens.Proofs.Run
import RepoLens.Proofs.Styled
/-!
Git failures on the command line. The commands that ask git run their script to its end before anything is shown, and their
scripts print nothing themselves; so where git fails, the report of the failure is all that is printed. The report is markup with
the message escaped between the tags of a style, which always shows. It shows as the escaped message does by itself, unless the
message ends in more than one backslash: then the closing tag takes half of them, or shows as text.

Results:
- `Silent.console_eq`: a script that prints nothing leaves the console of a quiet handle empty;
- `run_failed`: a request whose script fails in git ends with the report;
- `report_shown`: what the report shows;
- `git_failure_reported`: a failure of git, on the command line;
- `report_shows_closing_tag`: a status that cannot be read because of a line with backslashes.
-/
namespace RepoLens

open Console (Screen)

/-! ## Scripts that print nothing -/

namespace Script

variable {α : Type}

/-- a script that prints nothing itself -/
def Silent : Script α → Prop
  | done _ => True
  | fail _ => True
  | say _ _ => False
  | git _ _ next => ∀ r, (next r).Silent

/-- operations that only read print nothing -/
theorem silent_of_reading {s : Script α} (hs : s.Within readingScope) : s.Silent := by
  induction s with
  | done a => trivial
  | fail f => trivial
  | say markup next => exact hs.1
  | git args allow next ih => exact fun r => ih r (hs.2 r)

/-- a script that prints nothing, on a handle that does not show its commands, leaves the console empty -/
theorem Silent.console_eq {s : Script α} (hs : s.Silent) {g : Handle} (hg : g.verbose = false) (screen : Screen)
    (past : List Record) (replies : List Reply) : (s.run g screen past replies).console = [] := by
  induction s generalizing past replies with
  | done a => rfl
  | fail f => rfl
  | say markup next => exact hs.elim
  | git args allow next ih =>
    rw [run_git, Trace.after_console, Handle.shown_of_quiet hg, List.nil_append]
    cases Reply.nth replies 0 with
    | missing => rfl
    | denied => rfl
    | output out err code =>
      dsimp only
      split_ifs
      · exact ih _ (hs _) _ _
      · exact ih _ (hs _) _ _
      · rfl

end Script

namespace Cli

open Job Script

/-! ## Requests that ask git -/

def ends {α : Type} (g : Handle) (screen : Screen) (replies : List Reply) (script : Script α) : Except Fault Unit :=
  (script.run g screen [] replies).result.map fun _ => ()

/-- how the part of a request ends that asks git -/
def asked (g : Handle) (screen : Screen) (replies : List Reply) : Request → Except Fault Unit
  | .log branch _ => ends g screen replies (Repository.commits branch)
  | .files id _ => ends g screen replies (Repository.filesIn id)
  | .status _ => ends g screen replies Repository.uncommitted
  | .branches _ => ends g screen replies branchesAndCurrent
  | .tags _ => ends g screen replies Repository.tags
  | .contents id path _ => ends g screen replies (Repository.contents id path)
  | .head _ => ends g screen replies Repository.head
  | .currentBranch _ => ends g screen replies Repository.currentBranch
  | .setRepo _ | .setMainline _ | .showSettings _ | .version => .ok ()

variable {p : Place} {o : Options} {d d₁ : Desk} {g : Handle} {r : Request} {replies : List Reply} {f : GitFault}

/-- a script that prints nothing and fails in git: the commands are sent, and what is left is the report -/
theorem runOn_query_failed {α : Type} {script : Script α} (hopen : (openRepository p o).runOn d = (.ok g, d₁))
    (hquiet : g.verbose = false) (hsilent : script.Silent)
    (hfail : ends g p.screen replies script = .error (.git f)) :
    ∃ sent, (query p o replies script).runOn d = (report p f : Job α).runOn { d₁ with sent := sent } := by
  have hresult : (script.run g p.screen [] replies).result = .error (.git f) := by
    unfold ends at hfail
    cases h : (script.run g p.screen [] replies).result with
    | ok a => rw [h] at hfail; cases hfail
    | error e =>
      rw [h] at hfail
      cases hfail
      rfl
  refine ⟨d₁.sent ++ (script.run g p.screen [] replies).sent, ?_⟩
  rw [query, runOn_bind_ok hopen, perform, runOn_bind_ok (runOn_modify _ d₁), hresult,
    hsilent.console_eq hquiet, List.append_nil]

/-- a report that can be shown is printed, and the program ends with status one -/
theorem runOn_report {α : Type} {t : Text} (ht : Console.print p.screen (failureMarkup f) = .ok t) (d : Desk) :
    (report p f : Job α).runOn d = (.error (.exit 1), { d with output := d.output ++ t }) := by
  have hsay : (say p (failureMarkup f)).runOn d = (.ok (), { d with output := d.output ++ t }) := by rw [runOn_say, ht]
  rw [report, runOn_bind_ok hsay]
  rfl

/-- the part of a request that asks git, and whatever would come after it -/
theorem runOn_query_then {α : Type} {script : Script α} {t : Text} (shows : α → Job Unit)
    (hopen : (openRepository p o).runOn d = (.ok g, d₁)) (hquiet : g.verbose = false) (hsilent : script.Silent)
    (hfail : ends g p.screen replies script = .error (.git f)) (ht : Console.print p.screen (failureMarkup f) = .ok t) :
    ∃ sent, (query p o replies script >>= shows).runOn d =
      (.error (.exit 1), { d₁ with output := d₁.output ++ t, sent := sent }) := by
  obtain ⟨sent, hquery⟩ := runOn_query_failed hopen hquiet hsilent hfail
  rw [runOn_report ht] at hquery
  exact ⟨sent, runOn_bind_error hquery⟩

/-- **A request whose script fails in git** prints the report and nothing else, and ends with status one. -/
theorem run_failed {t : Text} (hopen : (openRepository p o).runOn d = (.ok g, d₁)) (hquiet : g.verbose = false)
    (hoptions : r.options? = some o) (hfail : asked g p.screen replies r = .error (.git f))
    (ht : Console.print p.screen (failureMarkup f) = .ok t) :
    ∃ sent, (run p replies r).runOn d =
      (.error (.exit 1), { d₁ with output := d₁.output ++ t, sent := sent }) := by
  cases r with
  | log branch o' =>
    obtain rfl := Option.some.inj hoptions
    exact runOn_query_then _ hopen hquiet (silent_of_reading (Repository.reads_commits branch)) hfail ht
  | files id o' =>
    obtain rfl := Option.some.inj hoptions
    exact runOn_query_then _ hopen hquiet (silent_of_reading (Repository.reads_filesIn id)) hfail ht
  | status o' =>
    obtain rfl := Option.some.inj hoptions
    exact runOn_query_then _ hopen hquiet (silent_of_reading Repository.reads_uncommitted) hfail ht
  | branches o' =>
    obtain rfl := Option.some.inj hoptions
    exact runOn_query_then _ hopen hquiet (silent_of_reading reads_branchesAndCurrent) hfail ht
  | tags o' =>
    obtain rfl := Option.some.inj hoptions
    exact runOn_query_then _ hopen hquiet (silent_of_reading Repository.reads_tags) hfail ht
  | contents id path o' =>
    obtain rfl := Option.some.inj hoptions
    exact runOn_query_then _ hopen hquiet (silent_of_reading (Repository.reads_contents id path)) hfail ht
  | head o' =>
    obtain rfl := Option.some.inj hoptions
    exact runOn_query_then _ hopen hquiet (silent_of_reading Repository.reads_head) hfail ht
  | currentBranch o' =>
    obtain rfl := Option.some.inj hoptions
    exact runOn_query_then _ hopen hquiet (silent_of_reading Repository.reads_currentBranch) hfail ht
  | _ => cases hoptions

end Cli

/-! ## What the report shows -/

namespace Cli

open Job Console

theorem styleWord_red : Markup.StyleWord "red" := by decide +kernel

/-- **What a report shows**: the escaped message as it shows by itself, up to the backslashes at its end -/
theorem report_shown {f : GitFault} {t : Text} {k : Nat} (ht : Markup.Unslashed t)
    (hmessage : f.message = t ++ List.replicate k '\\') (screen : Screen) :
    ∃ u, Markup.read screen ("Error: " ++ Markup.escape t) = .ok ⟨u, []⟩ ∧
      print screen (failureMarkup f) = .ok (shownOn screen (u ++ Markup.closing "red" (Markup.writtenSlashes k))) := by
  have hplain : Markup.Bare "Error: " := by decide
  have hopen : "[red]Error: ".toList = '[' :: ("red".toList ++ (']' :: "Error: ".toList)) := by decide
  have hclose : "[/red]".toList = '[' :: '/' :: ("red".toList ++ [']']) := by decide
  have hshape : ∀ a b s e x : Text, a = '[' :: (s ++ (']' :: b)) → a ++ (x ++ e) = '[' :: (s ++ (']' :: (b ++ (x ++ e)))) := by
    rintro _ b s e x rfl
    simp only [List.append_assoc, List.cons_append]
  obtain ⟨u, halone, hshown⟩ : ∃ u, Markup.read screen _ = .ok ⟨u, []⟩ ∧ Markup.StyledAs screen "red" _ _ :=
    Markup.read_styled styleWord_red hplain ht k
  rw [← hclose, ← hshape _ _ _ _ _ hopen, ← hmessage] at hshown
  exact ⟨u, halone, print_styled styleWord_red hshown⟩

/-- a working directory that is a repository, with nothing set -/
theorem opens_bare :
    Opens (.plain "/home/a" "/r" ["/r/.git"] 80) ⟨none, none, false, false⟩ (.fresh none) ⟨.top, ["r"]⟩ := by
  have husable : Settings.Usable (.plain "/home/a" "/r" ["/r/.git"] 80) (.fresh none)
      (.map none
        [(.text "repo_path", .null), (.text "mainline_branch", .text Settings.mainlineDefault),
         (.text "remote", .text Settings.remoteDefault), (.text "git_binary", .text Settings.binaryDefault)]) "git" :=
    ⟨⟨Settings.initial, rfl, rfl⟩, rfl⟩
  exact ⟨⟨_, _, husable⟩, ⟨"/r", rfl, by decide⟩, by decide⟩

theorem openRepository_bare :
    (openRepository (.plain "/home/a" "/r" ["/r/.git"] 80) ⟨none, none, false, false⟩).runOn (.fresh none) =
      (.ok ⟨⟨.top, ["r"]⟩, "master", "origin", "git", false⟩, (Desk.fresh none).made) := by rfl

/-- **A failure of git, on the command line.** With settings that can be used and a repository that is there, and without
verbosity, every request whose script fails in git ends with status one; no fault escapes, the settings stay, and the report is
all that is printed. A message that does not end in a backslash shows as it does by itself, escaped; of the backslashes at the
end of another the report shows what `closing` says. -/
theorem git_failure_reported (p : Place) (o : Options) (d : Desk) (place : Path) (h : Opens p o d place)
    (hquiet : o.verbose = false) :
    ∃ g, (openRepository p o).runOn d = (.ok g, d.made) ∧
      ∀ words r replies f, Request.ofWords words = some r → r.options? = some o →
        asked g p.screen replies r = .error (.git f) →
        ∃ t d', (runWords p replies words).runOn d = (.error (.exit 1), d') ∧ d'.settings = d.settings ∧
          d'.output = d.output ++ t ∧ print p.screen (failureMarkup f) = .ok t ∧
          (Markup.Unslashed f.message → print p.screen ("Error: " ++ Markup.escape f.message) = .ok t) ∧
          ∃ s k u, f.message = s ++ List.replicate k '\\' ∧ Markup.Unslashed s ∧
            Markup.render p.screen ("Error: " ++ Markup.escape s) = .ok u ∧
            t = shownOn p.screen (u ++ Markup.closing "red" (Markup.writtenSlashes k)) := by
  obtain ⟨g, hverbose, hopen⟩ := openRepository_ok h
  refine ⟨g, hopen, fun words r replies f hwords hoptions hfail => ?_⟩
  obtain ⟨s, k, hs, hmessage⟩ := Markup.exists_unslashed f.message
  obtain ⟨u, hu, hshown⟩ := report_shown hs hmessage p.screen
  obtain ⟨sent, hrun⟩ := run_failed hopen (hverbose.trans hquiet) hoptions hfail hshown
  have hwordsRun : runWords p replies words = run p replies r := by rw [runWords, hwords]
  rw [← hwordsRun] at hrun
  have hrendered : Markup.render p.screen ("Error: " ++ Markup.escape s) = .ok u := by rw [Markup.render, hu]; rfl
  refine ⟨_, _, hrun, rfl, rfl, hshown, fun hplain => ?_, s, k, u, hmessage, hs, hrendered, rfl⟩
  have hmessage' : f.message = f.message ++ List.replicate 0 '\\' := (List.append_nil _).symm
  obtain ⟨u', hu', hshown'⟩ := report_shown hplain hmessage' p.screen
  have hempty : Markup.closing "red" (Markup.writtenSlashes 0) = [] := rfl
  rw [hempty, List.append_nil, hshown] at hshown'
  rw [print_of_read hu' (Shown.readable_plain u'), hshown']

/-- tags that git cannot list, with brackets in what git says -/
theorem git_failure_reported_tags :
    let p : Place := .plain "/home/a" "/r" ["/r/.git"] 80
    let o : Options := ⟨none, none, false, false⟩
    let replies : List Reply := [.output [] (Text.Utf8.encode "fatal: [main]\n") 128]
    Opens p o (.fresh none) ⟨.top, ["r"]⟩ ∧ o.verbose = false ∧ Request.ofWords ["tags"] = some (.tags o) ∧
      ∃ t d', (runWords p replies ["tags"]).runOn (.fresh none) = (.error (.exit 1), d') ∧ d'.settings = none ∧
        d'.output = t ∧
        print (.plain 80) ("Error: " ++ Markup.escape "\ngit --git-dir=/r/.git --work-tree=/r tag\nfatal: [main]\n") = .ok t := by
  intro p o replies
  have hwords : Request.ofWords ["tags"] = some (.tags o) := by decide
  obtain ⟨g, hopen, hreport⟩ := git_failure_reported p o (.fresh none) ⟨.top, ["r"]⟩ opens_bare rfl
  obtain rfl : g = ⟨⟨.top, ["r"]⟩, "master", "origin", "git", false⟩ := by
    rw [openRepository_bare] at hopen
    cases hopen
    rfl
  obtain ⟨t, d', hrun, hsettings, hout, -, hplain, -⟩ := hreport ["tags"] (.tags o) replies _ hwords rfl rfl
  have hunslashed : Markup.Unslashed "\ngit --git-dir=/r/.git --work-tree=/r tag\nfatal: [main]\n" := by
    unfold Markup.Unslashed
    decide
  exact ⟨opens_bare, rfl, hwords, t, d', hrun, hsettings, hout, hplain hunslashed⟩

/-- a line that starts with three backslashes in what git says of the working tree: one of them is printed, and the closing tag
with them -/
theorem report_shows_closing_tag :
    let p : Place := .plain "/home/a" "/r" ["/r/.git"] 80
    let o : Options := ⟨none, none, false, false⟩
    let replies : List Reply := [.output (Text.Utf8.encode "\\\\\\ a.txt\n") [] 0]
    Opens p o (.fresh none) ⟨.top, ["r"]⟩ ∧ o.verbose = false ∧ Request.ofWords ["status"] = some (.status o) ∧
      asked ⟨⟨.top, ["r"]⟩, "master", "origin", "git", false⟩ (.plain 80) replies (.status o) =
        .error (.git (.listing (.unknownCode "\\\\\\"))) ∧
      ∃ d', (runWords p replies ["status"]).runOn (.fresh none) = (.error (.exit 1), d') ∧
        d'.output = "Error: Unknown change type \\[/red]\n".toList ∧
        print (.plain 80) ("Error: " ++ Markup.escape "Unknown change type \\\\\\") = .ok "Error: Unknown change type \\\\\\\n".toList := by
  intro p o replies
  have hwords : Request.ofWords ["status"] = some (.status o) := by decide
  have hasked : asked ⟨⟨.top, ["r"]⟩, "master", "origin", "git", false⟩ (.plain 80) replies (.status o) =
      .error (.git (.listing (.unknownCode "\\\\\\"))) := by rfl
  have hshown : print (.plain 80) (failureMarkup (.listing (.unknownCode "\\\\\\"))) =
      .ok "Error: Unknown change type \\[/red]\n".toList := by decide +kernel
  obtain ⟨sent, hrun⟩ := run_failed (r := .status o) openRepository_bare rfl rfl hasked hshown
  have hwordsRun : runWords p replies ["status"] = run p replies (.status o) := by rw [runWords, hwords]
  rw [← hwordsRun] at hrun
  refine ⟨opens_bare, rfl, hwords, hasked, _, hrun, rfl, ?_⟩
  decide +kernel

end Cli

end RepoLens
