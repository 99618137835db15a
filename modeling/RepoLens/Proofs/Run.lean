import Mathlib.Tactic
import RepoLens.Proofs.Reply
import RepoLens.Proofs.Shown
import RepoLens.Script
/-!
Runs of scripts. Showing a command before it runs never fails, so a script that sends a command comes to git, and what
happens next is decided by the reply alone: a quiet one leaves a record and the script goes on, any other one ends it
unless failure is allowed.

Results:
- `announce_ok`: the line of a command, escaped and put between the tags of its style, always shows;
- `run_git`: one command, by its reply;
- `run_bind`: one script after the other, the second with the history and the replies that the first one left;
- `run_added`: the records that a run adds are those of the commands it sent, in order, as the replies have them;
- `run_sent_base`: every command starts with the three words of its handle.
-/
namespace RepoLens

variable {α β : Type}

/-! ## Traces -/

namespace Trace

variable (sent : List (List Text)) (console : Text) (added : List Record) (t : Trace α) (e : Except Fault α)

@[simp] theorem after_result : (t.after sent console added).result = t.result := rfl
@[simp] theorem after_sent : (t.after sent console added).sent = sent ++ t.sent := rfl
@[simp] theorem after_console : (t.after sent console added).console = console ++ t.console := rfl
@[simp] theorem after_added : (t.after sent console added).added = added ++ t.added := rfl

@[simp] theorem ended_result : (ended e).result = e := rfl
@[simp] theorem ended_sent : (ended e).sent = [] := rfl
@[simp] theorem ended_console : (ended e).console = [] := rfl
@[simp] theorem ended_added : (ended e).added = [] := rfl

theorem after_after (sent' : List (List Text)) (console' : Text) (added' : List Record) :
    (t.after sent' console' added').after sent console added =
      t.after (sent ++ sent') (console ++ console') (added ++ added') := by
  simp [after, List.append_assoc]

/-- what was sent as a start of a plan has a place in the plan -/
theorem place_of_sent {σ : Type} {t : Trace α} {plan : List σ} {argv : σ → List Text} {words : List Text}
    (hp : t.sent <+: plan.map argv) (hmem : words ∈ t.sent) :
    ∃ k s, k < t.sent.length ∧ plan[k]? = some s ∧ argv s = words := by
  obtain ⟨k, hk⟩ := List.mem_iff_getElem?.1 hmem
  have hlt : k < t.sent.length := (List.getElem?_eq_some_iff.1 hk).1
  have hplan : (plan.map argv)[k]? = some words := by
    obtain ⟨rest, hrest⟩ := hp
    rw [← hrest, List.getElem?_append_left hlt, hk]
  rw [List.getElem?_map, Option.map_eq_some_iff] at hplan
  obtain ⟨s, hs, heq⟩ := hplan
  exact ⟨k, s, hlt, hs, heq⟩

/-- a trace, and if it came to a value a second one after it -/
def andThen (t : Trace α) (f : α → Trace β) : Trace β :=
  match t.result with
  | .ok a => (f a).after t.sent t.console t.added
  | .error e => ⟨.error e, t.sent, t.console, t.added⟩

theorem andThen_ok {a : α} (h : t.result = .ok a) (f : α → Trace β) :
    t.andThen f = (f a).after t.sent t.console t.added := by
  simp [andThen, h]

theorem andThen_error {e : Fault} (h : t.result = .error e) (f : α → Trace β) :
    t.andThen f = ⟨.error e, t.sent, t.console, t.added⟩ := by
  simp [andThen, h]

theorem after_andThen (f : α → Trace β) :
    (t.after sent console added).andThen f = (t.andThen f).after sent console added := by
  cases h : t.result with
  | ok a => rw [andThen_ok _ h, andThen_ok _ (by exact h), after_after]; rfl
  | error e => rw [andThen_error _ h, andThen_error _ (by exact h)]; rfl

end Trace

/-! ## Showing a command -/

theorem styleWord_dim : Console.Markup.StyleWord "dim" := by decide +kernel

/-- the echo of a command can be printed -/
theorem print_echo (screen : Console.Screen) (line : Text) : ∃ t, Console.print screen (Script.echo line) = .ok t := by
  have hp : Console.Markup.Bare "$ " := by
    intro c hc
    rcases List.mem_pair.1 hc with rfl | rfl <;> decide
  obtain ⟨u, hu⟩ : ∃ u, Console.Markup.StyledAs screen "dim" _ u :=
    Console.Markup.read_styled_escape styleWord_dim hp line
  exact ⟨_, Console.print_styled styleWord_dim hu⟩

theorem announce_ok (h : Handle) (screen : Console.Screen) (line : Text) : ∃ t, h.announce screen line = .ok t := by
  unfold Handle.announce
  split_ifs
  · exact print_echo screen line
  · exact ⟨[], rfl⟩

/-- what a handle shows before a command -/
def Handle.shown (h : Handle) (screen : Console.Screen) (words : List Text) : Text :=
  (h.announce screen (commandLine words)).toOption.getD []

theorem announce_eq (h : Handle) (screen : Console.Screen) (words : List Text) :
    h.announce screen (commandLine words) = .ok (h.shown screen words) := by
  obtain ⟨t, ht⟩ := announce_ok h screen (commandLine words)
  simp [Handle.shown, ht, Except.toOption]

/-- a handle that does not show its commands -/
theorem Handle.shown_of_quiet {g : Handle} (hg : g.verbose = false) (screen : Console.Screen) (words : List Text) :
    g.shown screen words = [] := by
  simp [Handle.shown, Handle.announce, hg, pure, Except.pure, Except.toOption]

def Handle.argv (h : Handle) (words : List Text) : List Text := h.command (.list words)

theorem argv_injective (h : Handle) : Function.Injective h.argv := by
  intro a b heq
  simpa [Handle.argv, Handle.command, Words.toList] using heq

namespace Script

variable (h : Handle) (screen : Console.Screen) (past : List Record) (replies : List Reply)

/-! ## One step -/

@[simp] theorem run_done (a : α) : (done a).run h screen past replies = .ended (.ok a) := rfl

@[simp] theorem run_fail (f : Fault) : (fail f : Script α).run h screen past replies = .ended (.error f) := rfl

theorem run_say (markup : Text) (next : Script α) :
    (say markup next).run h screen past replies =
      match Console.print screen markup with
      | .error f => .ended (.error (.markup f))
      | .ok t => (next.run h screen past replies).after [] t [] := rfl

/-- **One command.** The command is sent whatever the reply; a quiet reply adds its record and the script goes on, a
failure that is allowed adds none and the script goes on, and all else ends the script. -/
theorem run_git (args : Words) (allow : Bool) (next : Record → Script α) :
    (git args allow next).run h screen past replies =
      Trace.after [h.command args] (h.shown screen (h.command args)) ((Reply.nth replies 0).record? (h.command args)).toList
        (match Reply.nth replies 0 with
        | .missing => .ended (.error (.git (.noExecutable h.binary)))
        | .denied => .ended (.error (.denied h.binary))
        | .output out err code =>
          let r : Record := ⟨commandLine (h.command args), Record.captured out, Record.captured err, code⟩
          if err = [] then (next r).run h screen (past ++ [r]) replies.tail
          else if allow then (next r).run h screen past replies.tail
          else .ended (.error (.git (.command r past)))) := by
  rw [run, show Text.joinWith [' '] (h.command args) = commandLine (h.command args) from rfl, announce_eq,
    ← Reply.nth_zero]
  cases hreply : Reply.nth replies 0 with
  | missing => rfl
  | denied => rfl
  | output out err code =>
    by_cases herr : err = []
    · subst herr
      simp [Record.failed, Record.captured_eq_nil.2, Reply.record?]
    · cases allow <;> simp [Record.failed_captured, herr, Reply.record_failed herr]

variable {h screen past replies}

theorem run_git_quiet {args : Words} {allow : Bool} {next : Record → Script α} {out : List UInt8} {code : Int}
    (hr : Reply.nth replies 0 = .output out [] code) :
    (git args allow next).run h screen past replies =
      ((next ⟨commandLine (h.command args), Record.captured out, [], code⟩).run h screen
        (past ++ [⟨commandLine (h.command args), Record.captured out, [], code⟩]) replies.tail).after
        [h.command args] (h.shown screen (h.command args))
        [⟨commandLine (h.command args), Record.captured out, [], code⟩] := by
  have hcap : Record.captured [] = [] := rfl
  rw [run_git, hr]
  simp [hcap, Reply.record?]

/-- a command that may fail, and fails -/
theorem run_git_allowed {args : Words} {next : Record → Script α} {out err : List UInt8} {code : Int}
    (hr : Reply.nth replies 0 = .output out err code) (herr : err ≠ []) :
    (git args true next).run h screen past replies =
      ((next ⟨commandLine (h.command args), Record.captured out, Record.captured err, code⟩).run h screen past
        replies.tail).after [h.command args] (h.shown screen (h.command args)) [] := by
  rw [run_git, hr, Reply.record_failed herr]
  simp [herr]

/-- a command that may fail: once git starts, the script goes on -/
theorem run_git_started {args : Words} {next : Record → Script α} {out err : List UInt8} {code : Int}
    (hr : Reply.nth replies 0 = .output out err code) : ∃ past' console added,
      (git args true next).run h screen past replies =
        ((next ⟨commandLine (h.command args), Record.captured out, Record.captured err, code⟩).run h screen past'
          replies.tail).after [h.command args] console added := by
  cases err with
  | nil => exact ⟨_, _, _, run_git_quiet hr⟩
  | cons b err => exact ⟨_, _, _, run_git_allowed hr (List.cons_ne_nil b err)⟩

/-- a command that must not fail, and fails -/
theorem run_git_fault {args : Words} {next : Record → Script α} {f : Fault}
    (hf : (Reply.nth replies 0).fault? h.binary past (h.command args) = some f) :
    (git args false next).run h screen past replies =
      ⟨.error f, [h.command args], h.shown screen (h.command args), []⟩ := by
  rw [run_git]
  cases hreply : Reply.nth replies 0 with
  | missing =>
    rw [hreply] at hf
    simp only [Reply.fault?, Option.some.injEq] at hf
    simp [← hf, Reply.record?, Trace.after, Trace.ended]
  | denied =>
    rw [hreply] at hf
    simp only [Reply.fault?, Option.some.injEq] at hf
    simp [← hf, Reply.record?, Trace.after, Trace.ended]
  | output out err code =>
    rw [hreply] at hf
    cases err with
    | nil => simp [Reply.fault?] at hf
    | cons b err =>
      simp only [Reply.fault?, Option.some.injEq] at hf
      simp [← hf, Reply.record?, Trace.after, Trace.ended]

/-- a script that starts with a command that must not fail comes to a value only after a quiet reply -/
theorem run_git_ok {args : Words} {next : Record → Script α} {a : α}
    (ha : ((git args false next).run h screen past replies).result = .ok a) :
    ∃ out code, Reply.nth replies 0 = .output out [] code ∧
      ((next ⟨commandLine (h.command args), Record.captured out, [], code⟩).run h screen
        (past ++ [⟨commandLine (h.command args), Record.captured out, [], code⟩]) replies.tail).result = .ok a := by
  by_cases hq : (Reply.nth replies 0).Quiet
  · obtain ⟨out, code, hr⟩ := hq
    rw [run_git_quiet hr] at ha
    exact ⟨out, code, hr, ha⟩
  · obtain ⟨f, hf⟩ := Reply.fault_of_not_quiet hq h.binary past (h.command args)
    rw [run_git_fault hf] at ha
    exact absurd ha (by simp)

/-! ## Scripts in sequence -/

@[simp] theorem bind_eq (s : Script α) (f : α → Script β) : s >>= f = s.bind f := rfl
@[simp] theorem pure_eq (a : α) : (pure a : Script α) = done a := rfl

theorem bind_assoc {γ : Type} (s : Script α) (f : α → Script β) (g : β → Script γ) :
    (s.bind f).bind g = s.bind fun a => (f a).bind g := by
  induction s with
  | done a => rfl
  | fail e => rfl
  | say markup next ih => simp only [Script.bind, ih]
  | git args allow next ih => simp only [Script.bind, ih]

/-- **One script after the other.** The second runs with the records that the first one added to the history and with
the replies that it left. -/
theorem run_bind (s : Script α) (f : α → Script β) :
    (s.bind f).run h screen past replies =
      (s.run h screen past replies).andThen fun a =>
        (f a).run h screen (past ++ (s.run h screen past replies).added)
          (replies.drop (s.run h screen past replies).sent.length) := by
  induction s generalizing past replies with
  | done a => simp [Script.bind, Trace.andThen, Trace.after]
  | fail e => rfl
  | say markup next ih =>
    rw [Script.bind, run_say, run_say]
    cases Console.print screen markup with
    | error e => rw [Trace.andThen_error _ rfl]; rfl
    | ok t => simp only [ih, Trace.after_andThen, Trace.after_added, Trace.after_sent, List.nil_append]
  | git args allow next ih =>
    rw [Script.bind, run_git, run_git]
    rw [Trace.after_andThen]
    congr 1
    cases Reply.nth replies 0 with
    | missing => rw [Trace.andThen_error _ rfl]; rfl
    | denied => rw [Trace.andThen_error _ rfl]; rfl
    | output out err code =>
      have hdrop : ∀ n, (replies.tail).drop n = replies.drop (n + 1) := fun n => by
        rw [← List.drop_one, List.drop_drop, Nat.add_comm]
      by_cases herr : err = []
      · subst herr
        simp [ih, Reply.record?, hdrop, Nat.add_comm, Record.captured_eq_nil.2]
      · cases allow with
        | true => simp [ih, herr, Reply.record_failed herr, hdrop, Nat.add_comm]
        | false =>
          simp only [herr, if_false, Bool.false_eq_true]
          rw [Trace.andThen_error _ rfl]
          rfl

/-! ## What a run leaves behind -/

theorem recordsOf_cons (words : List Text) (r : Reply) (rest : List (List Text × Reply)) :
    recordsOf ((words, r) :: rest) = (r.record? words).toList ++ recordsOf rest := by
  cases hr : r.record? words <;> simp [recordsOf, hr]

/-- **A run adds the records of its quiet commands**, in the order in which it sent them, and nothing else. The
induction is on the script: each command uses up one reply, whatever the reply does to the script. -/
theorem run_added (s : Script α) :
    (s.run h screen past replies).added = recordsOf (Reply.pair (s.run h screen past replies).sent replies) := by
  induction s generalizing past replies with
  | done a => rfl
  | fail e => rfl
  | say markup next ih =>
    rw [run_say]
    cases Console.print screen markup with
    | error e => rfl
    | ok t => simpa using ih
  | git args allow next ih =>
    rw [run_git]
    simp only [Trace.after_added, Trace.after_sent, List.singleton_append, Reply.pair, recordsOf_cons]
    congr 1
    cases Reply.nth replies 0 with
    | missing => rfl
    | denied => rfl
    | output out err code =>
      by_cases herr : err = []
      · simpa [herr] using ih _
      · cases allow with
        | true => simpa [herr] using ih _
        | false => simp [herr, Reply.pair, recordsOf]

theorem run_sent_base (s : Script α) : ∀ words ∈ (s.run h screen past replies).sent, h.base <+: words := by
  induction s generalizing past replies with
  | done a => simp
  | fail e => simp
  | say markup next ih =>
    rw [run_say]
    cases Console.print screen markup with
    | error e => simp
    | ok t => simpa using ih
  | git args allow next ih =>
    rw [run_git]
    simp only [Trace.after_sent, List.singleton_append, List.mem_cons]
    rintro words (rfl | hw)
    · exact List.prefix_append _ _
    · cases hreply : Reply.nth replies 0 with
      | missing => simp [hreply] at hw
      | denied => simp [hreply] at hw
      | output out err code =>
        simp only [hreply] at hw
        split_ifs at hw
        · exact ih _ words hw
        · exact ih _ words hw
        · simp at hw

end Script

end RepoLens
