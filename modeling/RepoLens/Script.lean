import RepoLens.Fault
import RepoLens.Console
/-!
Operations on a repository as scripts: git commands to send, lines to print, and an end, each step depending on what
came back. A script holds no state. Running it needs a handle, the commands that went well before, and git's replies;
it gives back a trace, which holds all that an outsider can see. When the replies run out, git answers with silence.
-/
namespace RepoLens

/-- an operation on a repository -/
inductive Script (α : Type) where
  | done (a : α)
  | fail (f : Fault)
  /-- send a command; unless failure is allowed, a failed one ends the script -/
  | git (args : Words) (allowFailure : Bool) (next : Record → Script α)
  /-- print some markup -/
  | say (markup : Text) (next : Script α)

namespace Script

def bind {α β : Type} : Script α → (α → Script β) → Script β
  | done a, f => f a
  | fail e, _ => fail e
  | git args allow next, f => git args allow fun r => (next r).bind f
  | say markup next, f => say markup (next.bind f)

instance : Monad Script where
  pure := done
  bind := bind

/-- one script per item, in order -/
def each {α β : Type} (f : α → Script β) : List α → Script (List β)
  | [] => done []
  | a :: r => (f a).bind fun b => (each f r).bind fun bs => done (b :: bs)

/-- an outcome that is known already -/
def ofExcept {ε α : Type} (cause : ε → Fault) : Except ε α → Script α
  | .ok a => done a
  | .error e => fail (cause e)

end Script

/-- what a run of a script leaves behind -/
structure Trace (α : Type) where
  result : Except Fault α
  /-- the commands that git received, also the ones that failed -/
  sent : List (List Text)
  console : Text
  /-- records of the commands that went well -/
  added : List Record

namespace Trace

def ended {α : Type} (result : Except Fault α) : Trace α := ⟨result, [], [], []⟩

/-- a run with more before it -/
def after {α : Type} (sent : List (List Text)) (console : Text) (added : List Record) (t : Trace α) : Trace α :=
  ⟨t.result, sent ++ t.sent, console ++ t.console, added ++ t.added⟩

end Trace

/-- how a command line is shown before it runs -/
def Script.echo (line : Text) : Text := "[dim]$ " ++ (Console.Markup.escape line ++ "[/dim]")

/-- what a command prints before it runs -/
def Handle.announce (h : Handle) (screen : Console.Screen) (line : Text) : Except Console.MarkupFault Text :=
  if h.verbose then Console.print screen (Script.echo line) else pure []

def Script.run {α : Type} (h : Handle) (screen : Console.Screen) : Script α → List Record → List Reply → Trace α
  | done a, _, _ => .ended (.ok a)
  | fail f, _, _ => .ended (.error f)
  | say markup next, past, replies =>
    match Console.print screen markup with
    | .error f => .ended (.error (.markup f))
    | .ok t => (next.run h screen past replies).after [] t []
  | git args allow next, past, replies =>
    let words := h.command args
    let line := Text.joinWith [' '] words
    match h.announce screen line with
    | .error f => .ended (.error (.markup f))
    | .ok t =>
      match replies.headD .silent with
      | .missing => (Trace.ended (.error (.git (.noExecutable h.binary)))).after [words] t []
      | .denied => (Trace.ended (.error (.denied h.binary))).after [words] t []
      | .output out err code =>
        let record : Record := ⟨line, Record.captured out, Record.captured err, code⟩
        if record.failed then
          if allow then (next record).run h screen past replies.tail |>.after [words] t []
          else (Trace.ended (.error (.git (.command record past)))).after [words] t []
        else (next record).run h screen (past ++ [record]) replies.tail |>.after [words] t [record]

end RepoLens
