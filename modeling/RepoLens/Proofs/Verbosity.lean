import Mathlib.Tactic
import RepoLens.Proofs.History
/-!
Verbosity. Two sessions make the same calls and get the same replies, one on a quiet handle and one on a loud handle that
is the same otherwise. The loud one shows every command before it is sent; showing it never fails, so the command is sent
all the same.

Results:
- `Echoed`: a text with the echo of some commands put in, in their order;
- `run_echoed`: a script runs the same on both handles, and the loud console is the quiet one with the echoes put in;
- `Apart.run`: sessions that differ in verbosity have the same history after any calls;
- `verbosity_only_echoes`: whatever the calls so far, the next call does the same in both sessions, but for the echoes.
-/
namespace RepoLens

variable {α : Type}

/-! ## Echoes -/

/-- `loud` is `quiet` with the echo of every command put in, in order; between them stands what both show -/
inductive Echoed (shown : List Text → Text) : List (List Text) → Text → Text → Prop where
  | none (t : Text) : Echoed shown [] t t
  | cons (words : List Text) {sent : List (List Text)} {quiet loud : Text} (before : Text)
    (h : Echoed shown sent quiet loud) :
    Echoed shown (words :: sent) (before ++ quiet) (before ++ (shown words ++ loud))

namespace Echoed

variable {shown : List Text → Text} {sent : List (List Text)} {quiet loud : Text}

theorem prepend (h : Echoed shown sent quiet loud) (before : Text) :
    Echoed shown sent (before ++ quiet) (before ++ loud) := by
  cases h with
  | none t => exact .none _
  | cons words t h =>
    rw [← List.append_assoc, ← List.append_assoc before t]
    exact .cons words _ h

theorem sent_first (h : Echoed shown sent quiet loud) (words : List Text) :
    Echoed shown (words :: sent) quiet (shown words ++ loud) := .cons words [] h

/-- nothing that the quiet console shows is lost on the loud one -/
theorem sublist (h : Echoed shown sent quiet loud) : quiet.Sublist loud := by
  induction h with
  | none t => exact List.Sublist.refl t
  | cons words t h ih => exact (ih.trans (List.sublist_append_right _ _)).append_left t

end Echoed

/-- two runs of one script, the second with echoes -/
structure Trace.Echoes (shown : List Text → Text) (t t' : Trace α) : Prop where
  result : t.result = t'.result
  sent : t.sent = t'.sent
  added : t.added = t'.added
  console : Echoed shown t.sent t.console t'.console

namespace Trace.Echoes

variable {shown : List Text → Text} {t t' : Trace α}

theorem ended (e : Except Fault α) : Echoes shown (.ended e) (.ended e) := ⟨rfl, rfl, rfl, .none []⟩

theorem printed (h : Echoes shown t t') (text : Text) : Echoes shown (t.after [] text []) (t'.after [] text []) :=
  ⟨h.result, by simp [h.sent], by simp [h.added], h.console.prepend text⟩

theorem sent_first (h : Echoes shown t t') (words : List Text) (added : List Record) :
    Echoes shown (t.after [words] [] added) (t'.after [words] (shown words) added) :=
  ⟨h.result, by simp [h.sent], by simp [h.added], h.console.sent_first words⟩

end Trace.Echoes

/-! ## One script on two handles -/

def Handle.quiet (h : Handle) : Handle := { h with verbose := false }

def Handle.loud (h : Handle) : Handle := { h with verbose := true }

theorem Handle.command_quiet (h : Handle) (args : Words) : h.quiet.command args = h.loud.command args := rfl

/-- **One script on both handles.** The loud run shows each command and does nothing else that the quiet run does not do. -/
theorem Script.run_echoed (s : Script α) (h : Handle) (screen : Console.Screen) (past : List Record) (replies : List Reply) :
    Trace.Echoes (h.loud.shown screen) (s.run h.quiet screen past replies) (s.run h.loud screen past replies) := by
  induction s generalizing past replies with
  | done a => exact .ended _
  | fail f => exact .ended _
  | say markup next ih =>
    rw [run_say, run_say]
    cases Console.print screen markup with
    | error e => exact .ended _
    | ok t => exact (ih past replies).printed t
  | git args allow next ih =>
    rw [run_git, run_git, Handle.command_quiet, Handle.shown_of_quiet rfl]
    refine Trace.Echoes.sent_first ?_ _ _
    cases Reply.nth replies 0 with
    | missing => exact .ended _
    | denied => exact .ended _
    | output out err code =>
      dsimp only
      split_ifs
      · exact ih _ _ _
      · exact ih _ _ _
      · exact .ended _

/-- no operation asks whether its handle is loud -/
theorem Op.script_quiet (o : Op) (h : Handle) : o.script h.quiet = o.script h.loud := by
  cases o <;> rfl

/-! ## Sessions -/

namespace Session

/-- sessions with the same history, on a quiet handle and on the loud one -/
structure Apart (h : Handle) (s s' : Session) : Prop where
  quiet : s.handle = h.quiet
  loud : s'.handle = h.loud
  screen : s.screen = s'.screen
  history : s.history = s'.history

variable {h : Handle} {s s' : Session}

theorem Apart.echoes (hs : Apart h s s') (replies : List Reply) (c : Call) :
    Trace.Echoes (h.loud.shown s.screen) (s.trace replies c) (s'.trace replies c) := by
  cases c with
  | op o =>
    rw [trace, trace, hs.quiet, hs.loud, ← hs.screen, ← hs.history, Op.script_quiet]
    exact Script.run_echoed _ _ _ _ _
  | history =>
    rw [trace, trace, hs.history]
    exact .ended _
  | command args =>
    rw [trace, trace, hs.quiet, hs.loud]
    exact .ended _

/-- one call keeps the sessions apart in verbosity only -/
theorem Apart.extend (hs : Apart h s s') (replies : List Reply) (c : Call) :
    Apart h (s.extend (s.trace replies c)) (s'.extend (s'.trace replies c)) :=
  ⟨hs.quiet, hs.loud, hs.screen, by simp [Session.extend, hs.history, (hs.echoes replies c).added]⟩

/-- so do many calls -/
theorem Apart.run (hs : Apart h s s') (calls : List (Call × List Reply)) : Apart h (s.run calls) (s'.run calls) := by
  induction calls generalizing s s' with
  | nil => exact hs
  | cons c calls ih =>
    rw [run_cons, run_cons]
    exact ih (hs.extend c.2 c.1)

/-! ## Main result -/

/-- **Verbosity only echoes.** Two sessions make the same calls with the same replies, one on a quiet handle, the other on
the loud handle that is the same otherwise. Whatever the calls so far, the next call sends the same commands in both, ends
with the same value or the same fault, and leaves the same history. Showing a command never fails, whatever its words; and
what the loud session prints is what the quiet one prints, with the echo of each command that was sent put in, in order. -/
theorem verbosity_only_echoes (h : Handle) (screen : Console.Screen) (calls : List (Call × List Reply)) (c : Call)
    (replies : List Reply) :
    let s := (opened h.quiet screen).run calls
    let s' := (opened h.loud screen).run calls
    let t := s.trace replies c
    let t' := s'.trace replies c
    t.sent = t'.sent ∧ t.result = t'.result ∧ (s.extend t).history = (s'.extend t').history ∧
      (∀ words, Console.print screen (Script.echo (commandLine words)) = .ok (h.loud.shown screen words)) ∧
      Echoed (h.loud.shown screen) t'.sent t.console t'.console ∧ t.console.Sublist t'.console := by
  intro s s' t t'
  have hopened : Apart h (opened h.quiet screen) (opened h.loud screen) := ⟨rfl, rfl, rfl, rfl⟩
  have hapart : Apart h s s' := hopened.run calls
  have hechoes : Trace.Echoes (h.loud.shown screen) t t' := by
    have := hapart.echoes replies c
    rwa [show s.screen = screen from run_width _ calls] at this
  refine ⟨hechoes.sent, hechoes.result, (hapart.extend replies c).history, fun words => ?_, ?_, hechoes.console.sublist⟩
  · exact announce_eq h.loud screen words
  · rw [← hechoes.sent]
    exact hechoes.console

end Session

end RepoLens
