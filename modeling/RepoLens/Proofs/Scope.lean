import Mathlib.Tactic
import RepoLens.Proofs.Run
/-!
The scope of a script: the commands it can send, the lines it can print, and the faults it can end with by itself, whatever git
replies. A scope is read off the script; what a run sends, and why it fails, follows from it.

Results:
- `within_bind`, `within_each`: scripts in sequence stay within a scope if each of them does;
- `run_within_sent`: a run sends nothing outside the scope;
- `run_within_error`: a run fails because of the script itself, of a line that cannot be shown, or of its last command.
-/
namespace RepoLens

variable {α β : Type}

/-- git started -/
def Reply.Starts (r : Reply) : Prop := ∃ out err code, r = .output out err code

theorem Reply.starts_output (out err : List UInt8) (code : Int) : (Reply.output out err code).Starts := ⟨out, err, code, rfl⟩

theorem Reply.not_starts_missing : ¬ Reply.missing.Starts := by
  rintro ⟨out, err, code, h⟩
  cases h

theorem Reply.not_starts_denied : ¬ Reply.denied.Starts := by
  rintro ⟨out, err, code, h⟩
  cases h

/-- why a command that must not fail does so once git has started -/
theorem Reply.fault_of_starts {r : Reply} (hr : r.Starts) {binary : Text} {past : List Record} {words : List Text} {f : Fault}
    (hf : r.fault? binary past words = some f) : ∃ record, f = .git (.command record past) := by
  obtain ⟨out, err, code, rfl⟩ := hr
  cases err with
  | nil => cases hf
  | cons b err => exact ⟨_, (Option.some.inj hf).symm⟩

/-- the faults of a git that does not start -/
theorem Reply.fault_of_not_starts {r : Reply} (hr : ¬ r.Starts) {binary : Text} {past : List Record} {words : List Text}
    {f : Fault} (hf : r.fault? binary past words = some f) : f = .git (.noExecutable binary) ∨ f = .denied binary := by
  cases r with
  | output out err code => exact absurd (Reply.starts_output out err code) hr
  | missing => exact Or.inl (Option.some.inj hf).symm
  | denied => exact Or.inr (Option.some.inj hf).symm

/-- what a script may do -/
structure Scope where
  /-- the commands, and whether they are allowed to fail -/
  command : Words → Bool → Prop
  line : Text → Prop
  fault : Fault → Prop

/-- why a run with some trace ends with a fault -/
inductive Scope.Cause (S : Scope) (h : Handle) (screen : Console.Screen) (past : List Record) (replies : List Reply) (t : Trace α)
    (f : Fault) : Prop where
  | own (hf : S.fault f)
  | line {markup : Text} {e : Console.MarkupFault} (hline : S.line markup) (hprint : Console.print screen markup = .error e)
    (hf : f = .markup e)
  /-- the last command; one that is allowed to fail does so only if git did not start -/
  | command {args : Words} {allow : Bool} {k : Nat} (hargs : S.command args allow) (hlen : t.sent.length = k + 1)
    (hk : t.sent[k]? = some (h.command args))
    (hf : (Reply.nth replies k).fault? h.binary (past ++ t.added) (h.command args) = some f)
    (hallow : allow = true → ¬ (Reply.nth replies k).Starts)

variable {S : Scope} {h : Handle} {screen : Console.Screen} {past : List Record} {replies : List Reply} {f : Fault}

/-- what ends the rest of a run ends the run, with a command and a line before it -/
theorem Scope.Cause.later {t : Trace α} {words : List Text} {console : Text} {added : List Record}
    (hcause : S.Cause h screen (past ++ added) replies.tail t f) :
    S.Cause h screen past replies (t.after [words] console added) f := by
  cases hcause with
  | own hf => exact .own hf
  | line hline hprint hf => exact .line hline hprint hf
  | command hargs hlen hk hf hallow =>
    rw [Reply.nth_tail] at hf hallow
    rw [List.append_assoc] at hf
    exact .command hargs (by simp [hlen]) (by simpa using hk) hf hallow

namespace Script

/-- a script that stays within a scope, whatever git replies -/
def Within (S : Scope) : Script α → Prop
  | done _ => True
  | fail f => S.fault f
  | say markup next => S.line markup ∧ next.Within S
  | git args allow next => S.command args allow ∧ ∀ r, (next r).Within S

theorem within_bind {s : Script α} {next : α → Script β} (hs : s.Within S) (hnext : ∀ a, (next a).Within S) :
    (s.bind next).Within S := by
  induction s with
  | done a => exact hnext a
  | fail e => exact hs
  | say markup rest ih => exact ⟨hs.1, ih hs.2⟩
  | git args allow rest ih => exact ⟨hs.1, fun r => ih r (hs.2 r)⟩

theorem within_each {next : α → Script β} (hnext : ∀ a, (next a).Within S) (as : List α) : (each next as).Within S := by
  induction as with
  | nil => trivial
  | cons a as ih => exact within_bind (hnext a) fun b => within_bind ih fun bs => trivial

theorem within_ofExcept {ε : Type} {cause : ε → Fault} (hcause : ∀ e, S.fault (cause e)) (x : Except ε α) :
    (ofExcept cause x).Within S := by
  cases x with
  | ok a => trivial
  | error e => exact hcause e

/-- **A run sends nothing outside the scope.** The induction is on the script; a reply leads to the rest of the script or ends
the run. -/
theorem run_within_sent {s : Script α} (hs : s.Within S) :
    ∀ words ∈ (s.run h screen past replies).sent, ∃ args allow, S.command args allow ∧ words = h.command args := by
  induction s generalizing past replies with
  | done a => simp
  | fail e => simp
  | say markup next ih =>
    rw [run_say]
    cases Console.print screen markup with
    | error e => simp
    | ok t => simpa using ih hs.2
  | git args allow next ih =>
    intro words hwords
    rw [run_git, Trace.after_sent, List.singleton_append] at hwords
    rcases List.mem_cons.1 hwords with rfl | hrest
    · exact ⟨args, allow, hs.1, rfl⟩
    · cases hreply : Reply.nth replies 0 with
      | missing => simp [hreply] at hrest
      | denied => simp [hreply] at hrest
      | output out err code =>
        simp only [hreply] at hrest
        split_ifs at hrest with hquiet hallowed
        · exact ih _ (hs.2 _) words hrest
        · exact ih _ (hs.2 _) words hrest
        · simp at hrest

/-- **Why a run fails.** The induction is on the script; the causes are where it can stop. -/
theorem run_within_error {s : Script α} (hs : s.Within S) (hf : (s.run h screen past replies).result = .error f) :
    S.Cause h screen past replies (s.run h screen past replies) f := by
  induction s generalizing past replies with
  | done a => simp at hf
  | fail e =>
    obtain rfl : e = f := Except.error.inj hf
    exact .own hs
  | say markup next ih =>
    rw [run_say] at hf ⊢
    cases hprint : Console.print screen markup with
    | error e =>
      rw [hprint] at hf
      exact .line hs.1 hprint (Except.error.inj hf).symm
    | ok t =>
      rw [hprint] at hf
      cases ih hs.2 hf with
      | own hown => exact .own hown
      | line hline hprint' hmarkup => exact .line hline hprint' hmarkup
      | command hargs hlen hk hfault hallow => exact .command hargs (by simpa using hlen) (by simpa using hk) hfault hallow
  | git args allow next ih =>
    -- a command that ends the run is its last one
    have last : ∀ (e : Fault) (console : Text), e = f → (Reply.nth replies 0).fault? h.binary past (h.command args) = some e →
        (allow = true → ¬ (Reply.nth replies 0).Starts) →
        S.Cause h screen past replies ((Trace.ended (.error e) : Trace α).after [h.command args] console []) f := by
      rintro e console rfl hfault hallow
      exact .command (k := 0) hs.1 rfl rfl (by simpa using hfault) hallow
    rw [run_git] at hf ⊢
    cases hreply : Reply.nth replies 0 with
    | missing =>
      simp only [hreply] at hf ⊢
      exact last _ _ (Except.error.inj hf) (by rw [hreply]; rfl) fun _ => by rw [hreply]; exact Reply.not_starts_missing
    | denied =>
      simp only [hreply] at hf ⊢
      exact last _ _ (Except.error.inj hf) (by rw [hreply]; rfl) fun _ => by rw [hreply]; exact Reply.not_starts_denied
    | output out err code =>
      simp only [hreply, Trace.after_result] at hf ⊢
      by_cases herr : err = []
      · subst herr
        simp only [if_true] at hf ⊢
        exact Scope.Cause.later (ih _ (hs.2 _) hf)
      · cases allow with
        | true =>
          simp only [herr, if_false, if_true, Reply.record_failed herr] at hf ⊢
          have hrest := ih _ (hs.2 _) hf
          rw [← List.append_nil past] at hrest
          simpa using Scope.Cause.later hrest
        | false =>
          simp only [herr, if_false, Bool.false_eq_true, Reply.record_failed herr] at hf ⊢
          refine last _ _ (Except.error.inj hf) ?_ (by simp)
          rw [hreply]
          cases err with
          | nil => exact absurd rfl herr
          | cons b err => rfl

end Script

end RepoLens
