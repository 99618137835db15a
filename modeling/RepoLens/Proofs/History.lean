import Mathlib.Tactic
import RepoLens.Proofs.Run
import RepoLens.Session
/-!
The history of a session. Each call sends some commands and gets a reply to each; the history holds the records of the
commands that git answered quietly and of no others.

Results:
- `step_history`: one call appends the records of its quiet commands, however the call ends;
- `run_history`: so do all calls of a session, one after the other;
- `history_records_quiet_commands`: from the first call on, the history is exactly the list of those records, every
  command starts with the same three words, and what stands in the history stays there.
-/
namespace RepoLens.Session

/-- a session before its first call -/
def opened (h : Handle) (screen : Console.Screen) : Session := ⟨h, screen, []⟩

/-- the commands that one call sends, each with git's reply to it -/
def exchanged (s : Session) (c : Call × List Reply) : List (List Text × Reply) := Reply.pair (s.trace c.2 c.1).sent c.2

/-- the commands that some calls send, in the order of the calls -/
def exchanges (s : Session) : List (Call × List Reply) → List (List Text × Reply)
  | [] => []
  | c :: rest => s.exchanged c ++ (s.step c).exchanges rest

/-! ## One call -/

theorem trace_added (s : Session) (replies : List Reply) (c : Call) :
    (s.trace replies c).added = recordsOf (Reply.pair (s.trace replies c).sent replies) := by
  cases c with
  | op o => exact Script.run_added (o.script s.handle)
  | history => rfl
  | command args => rfl

theorem trace_sent_base (s : Session) (replies : List Reply) (c : Call) :
    ∀ words ∈ (s.trace replies c).sent, s.handle.base <+: words := by
  cases c with
  | op o => exact Script.run_sent_base (o.script s.handle)
  | history => simp [trace]
  | command args => simp [trace]

/-- one call appends the records of its quiet commands, however it ends -/
theorem step_history (s : Session) (c : Call × List Reply) :
    (s.step c).history = s.history ++ recordsOf (s.exchanged c) := by
  simp only [step, extend, exchanged, trace_added]

@[simp] theorem step_handle (s : Session) (c : Call × List Reply) : (s.step c).handle = s.handle := rfl

theorem exchanged_base (s : Session) (c : Call × List Reply) : ∀ e ∈ s.exchanged c, s.handle.base <+: e.1 := by
  intro e he
  have hmem : e.1 ∈ (Reply.pair (s.trace c.2 c.1).sent c.2).map Prod.fst := List.mem_map_of_mem he
  rw [Reply.pair_map_fst] at hmem
  exact trace_sent_base s c.2 c.1 e.1 hmem

/-- a command that is given as it is goes to git, whatever the reply and whether or not it may fail -/
theorem exchanged_run (s : Session) (args : Words) (allow : Bool) (replies : List Reply) :
    s.exchanged (.op (.run args allow), replies) = [(s.handle.command args, Reply.nth replies 0)] := by
  have hsent : (s.trace replies (.op (.run args allow))).sent = [s.handle.command args] := by
    simp only [trace, Op.script, Script.run_git, Trace.after_sent, List.singleton_append, List.cons.injEq, true_and]
    cases Reply.nth replies 0 with
    | missing => rfl
    | denied => rfl
    | output out err code =>
      dsimp only
      split_ifs <;> rfl
  rw [exchanged, hsent]
  rfl

/-! ## Many calls -/

theorem run_cons (s : Session) (c : Call × List Reply) (calls : List (Call × List Reply)) :
    s.run (c :: calls) = (s.step c).run calls := rfl

theorem run_handle (s : Session) (calls : List (Call × List Reply)) : (s.run calls).handle = s.handle := by
  induction calls generalizing s with
  | nil => rfl
  | cons c calls ih => rw [run_cons, ih, step_handle]

theorem run_width (s : Session) (calls : List (Call × List Reply)) : (s.run calls).screen = s.screen := by
  induction calls generalizing s with
  | nil => rfl
  | cons c calls ih =>
    rw [run_cons, ih]
    rfl

theorem run_history (s : Session) (calls : List (Call × List Reply)) :
    (s.run calls).history = s.history ++ recordsOf (s.exchanges calls) := by
  induction calls generalizing s with
  | nil => simp [run, exchanges, recordsOf]
  | cons c calls ih =>
    rw [run_cons, ih, step_history]
    simp [exchanges, recordsOf, List.filterMap_append]

theorem exchanges_base (s : Session) (calls : List (Call × List Reply)) :
    ∀ e ∈ s.exchanges calls, s.handle.base <+: e.1 := by
  induction calls generalizing s with
  | nil => simp [exchanges]
  | cons c calls ih =>
    intro e he
    rcases List.mem_append.1 he with he | he
    · exact exchanged_base s c e he
    · have hbase := ih (s.step c) e he
      rwa [step_handle] at hbase

/-! ## Main result -/

/-- **The history records the quiet commands.** After any calls on a handle, with any replies, the history is the list
of the records of the commands that were sent and answered quietly, in the order in which they were sent; every command
starts with the three words of the handle; a command given as it is goes to git; and further calls, however they end,
only append, each the records of its own quiet commands. -/
theorem history_records_quiet_commands (h : Handle) (screen : Console.Screen) (calls : List (Call × List Reply)) :
    let s := (opened h screen).run calls
    s.history = recordsOf ((opened h screen).exchanges calls) ∧
      (∀ e ∈ (opened h screen).exchanges calls, h.base <+: e.1) ∧ h.base.length = 3 ∧
      (∀ args allow replies, s.exchanged (.op (.run args allow), replies) = [(h.command args, Reply.nth replies 0)]) ∧
      (∀ c, (s.step c).history = s.history ++ recordsOf (s.exchanged c)) ∧
      ∀ later, s.history <+: (s.run later).history := by
  intro s
  refine ⟨?_, exchanges_base (opened h screen) calls, rfl, fun args allow replies => ?_, step_history s, fun later => ?_⟩
  · exact run_history (opened h screen) calls
  · rw [exchanged_run s args allow replies, run_handle]
    rfl
  · rw [run_history s later]
    exact List.prefix_append _ _

end RepoLens.Session
