import Mathlib.Tactic
import RepoLens.Proofs.History
/-!
The past of a session. The history is there to be read and to be listed when a command fails; nothing that a call does
depends on it. So two sessions on one handle, whatever was done in each before, are not told apart by a call.

Results:
- `SameButPast`: two outcomes that are the same, or list two pasts under the same failed command;
- `run_unswayed`: a script does the same after any two pasts;
- `past_sways_nothing`: any call but the one that reads the history does the same in any two sessions on one handle.
-/
namespace RepoLens

variable {α : Type}

/-- two outcomes after two pasts: the same one, or the fault of the same failed command, which lists each its own past and
then the records that both have added -/
inductive SameButPast (past past' added : List Record) : Except Fault α → Except Fault α → Prop where
  | same (e : Except Fault α) : SameButPast past past' added e e
  | failed (r : Record) :
    SameButPast past past' added (.error (.git (.command r (past ++ added)))) (.error (.git (.command r (past' ++ added))))

/-- records at the end of both pasts are records that both have added -/
theorem SameButPast.shift {past past' first added : List Record} {e e' : Except Fault α}
    (h : SameButPast (past ++ first) (past' ++ first) added e e') : SameButPast past past' (first ++ added) e e' := by
  cases h with
  | same e => exact .same e
  | failed r =>
    rw [List.append_assoc, List.append_assoc]
    exact .failed r

/-- runs after two pasts that do the same -/
structure Trace.Unswayed (past past' : List Record) (t t' : Trace α) : Prop where
  sent : t.sent = t'.sent
  console : t.console = t'.console
  added : t.added = t'.added
  result : SameButPast past past' t.added t.result t'.result

namespace Trace.Unswayed

variable {past past' : List Record} {t t' : Trace α}

theorem ended (e : Except Fault α) : Unswayed past past' (.ended e) (.ended e) := ⟨rfl, rfl, rfl, .same e⟩

theorem failed (r : Record) :
    Unswayed past past' (.ended (.error (.git (.command r past))) : Trace α)
      (.ended (.error (.git (.command r past')))) := by
  refine ⟨rfl, rfl, rfl, ?_⟩
  have h : SameButPast past past' [] (.error (.git (.command r (past ++ []))) : Except Fault α)
      (.error (.git (.command r (past' ++ [])))) := .failed r
  rwa [List.append_nil, List.append_nil] at h

theorem after {added : List Record} (h : Unswayed (past ++ added) (past' ++ added) t t') (sent : List (List Text))
    (console : Text) : Unswayed past past' (t.after sent console added) (t'.after sent console added) :=
  ⟨by simp [h.sent], by simp [h.console], by simp [h.added], h.result.shift⟩

theorem after_none (h : Unswayed past past' t t') (sent : List (List Text)) (console : Text) :
    Unswayed past past' (t.after sent console []) (t'.after sent console []) :=
  Unswayed.after (by rwa [List.append_nil, List.append_nil]) sent console

end Trace.Unswayed

/-- **One script after two pasts.** It sends, prints and adds the same; the induction is on the script, and a command that
goes well puts the same record at the end of both pasts. -/
theorem Script.run_unswayed (s : Script α) (h : Handle) (screen : Console.Screen) (past past' : List Record) (replies : List Reply) :
    Trace.Unswayed past past' (s.run h screen past replies) (s.run h screen past' replies) := by
  induction s generalizing past past' replies with
  | done a => exact .ended _
  | fail f => exact .ended _
  | say markup next ih =>
    rw [run_say, run_say]
    cases Console.print screen markup with
    | error e => exact .ended _
    | ok t => exact (ih past past' replies).after_none [] t
  | git args allow next ih =>
    rw [run_git, run_git]
    cases Reply.nth replies 0 with
    | missing => exact (Trace.Unswayed.ended _).after_none _ _
    | denied => exact (Trace.Unswayed.ended _).after_none _ _
    | output out err code =>
      by_cases herr : err = []
      · subst herr
        exact (ih _ _ _ _).after _ _
      · simp only [if_neg herr, Reply.record_failed herr, Option.toList_none]
        cases allow with
        | true => exact (ih _ _ _ _).after_none _ _
        | false => exact (Trace.Unswayed.failed _).after_none _ _

namespace Session

/-- **The past sways nothing.** Two sessions on one handle have made any calls, with any replies. The next call, unless it
reads the history, sends the same commands in both, prints the same text, and appends the same records to each history. It
ends with the same value or the same fault, but that the fault of a failed command lists the history of its own session,
with the records of this call at the end. -/
theorem past_sways_nothing (h : Handle) (screen : Console.Screen) (calls calls' : List (Call × List Reply)) {c : Call}
    (hc : c ≠ .history) (replies : List Reply) :
    let s := (opened h screen).run calls
    let s' := (opened h screen).run calls'
    let t := s.trace replies c
    let t' := s'.trace replies c
    t.sent = t'.sent ∧ t.console = t'.console ∧ (s.extend t).history = s.history ++ t.added ∧
      (s'.extend t').history = s'.history ++ t.added ∧ SameButPast s.history s'.history t.added t.result t'.result := by
  intro s s' t t'
  have hhandle : s.handle = s'.handle := by rw [run_handle, run_handle]
  have hwidth : s.screen = s'.screen := by rw [run_width, run_width]
  have hsame : Trace.Unswayed s.history s'.history t t' := by
    cases c with
    | op o =>
      simp only [t, t', trace, ← hhandle, ← hwidth]
      exact Script.run_unswayed _ _ _ _ _ _
    | history => exact absurd rfl hc
    | command args =>
      simp only [t, t', trace, ← hhandle]
      exact .ended _
  exact ⟨hsame.sent, hsame.console, rfl, by rw [hsame.added]; rfl, hsame.result⟩

/-- a tag that cannot be set, once in a new session and once after a look at the status -/
theorem past_sways_nothing_tag :
    let h : Handle := ⟨⟨.top, ["repo"]⟩, "main", "origin", "git", false⟩
    let calls' : List (Call × List Reply) := [(.op (.run (.line "status") false), [.output [] [] 0])]
    let s' := (opened h (.plain 80)).run calls'
    let replies : List Reply := [.output [] (Text.Utf8.encode "tag exists") 128]
    let t := (opened h (.plain 80)).trace replies (.op (.tagHead "v1"))
    let t' := s'.trace replies (.op (.tagHead "v1"))
    Call.op (.tagHead "v1") ≠ .history ∧ s'.history.length = 1 ∧ t.sent = t'.sent ∧
      SameButPast [] s'.history [] t.result t'.result := by
  intro h calls' s' replies t t'
  have hc : Call.op (.tagHead "v1") ≠ .history := by simp
  have hall := past_sways_nothing h (.plain 80) [] calls' hc replies
  exact ⟨hc, rfl, hall.1, hall.2.2.2.2⟩

end Session

end RepoLens
