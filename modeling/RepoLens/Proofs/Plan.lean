import Mathlib.Tactic
import RepoLens.Proofs.Scope
/-!
Plans. Many operations are a fixed list of commands that must not fail: what comes back decides only how far they get.
A run follows such a plan if it sends a start of it, ends with a command that was not answered quietly, with that
command's fault, and comes to a value only when all of the plan was sent.

Results:
- `run_follows`: a script that keeps to a plan runs so, whatever the replies;
- `follows_bind`, `follows_each`: scripts in sequence keep to their plans in sequence;
- `run_error`: a run that ends with a fault ends with the fault of its last command, or with one of the script's own.
-/
namespace RepoLens

variable {α β : Type}

/-- a run that sends the commands of a plan, in order, up to the first that is not answered quietly -/
structure Trace.Follows (t : Trace α) (h : Handle) (past : List Record) (replies : List Reply)
    (plan : List (List Text)) : Prop where
  sent : t.sent <+: plan.map h.argv
  /-- the first command that is not answered quietly is the last one, and its fault is the outcome -/
  fault : ∀ k words f, t.sent[k]? = some words →
    (Reply.nth replies k).fault? h.binary (past ++ t.added) words = some f → t.sent.length = k + 1 ∧ t.result = .error f
  all_sent : ∀ a, t.result = .ok a → t.sent = plan.map h.argv

namespace Trace

variable {h : Handle} {past : List Record} {replies : List Reply} {plan : List (List Text)}

theorem Follows.ended_error (f : Fault) : (ended (.error f) : Trace α).Follows h past replies plan :=
  ⟨List.nil_prefix, by simp, by simp⟩

/-- a first command that is answered quietly, and after it a run that follows the rest of the plan -/
theorem Follows.cons {t : Trace α} {words : List Text} {console : Text} {r : Record} (hq : (Reply.nth replies 0).Quiet)
    (ht : t.Follows h (past ++ [r]) replies.tail plan) :
    (t.after [h.argv words] console [r]).Follows h past replies (words :: plan) := by
  refine ⟨?_, ?_, ?_⟩
  · simpa using ht.sent
  · intro k w f hk hf
    cases k with
    | zero =>
      rw [Reply.fault_eq_none.2 hq] at hf
      exact absurd hf (by simp)
    | succ k =>
      simp only [after_sent, List.singleton_append, List.getElem?_cons_succ] at hk
      rw [after_added, ← List.append_assoc, ← Reply.nth_tail] at hf
      obtain ⟨hlen, hres⟩ := ht.fault k w f hk hf
      exact ⟨by simp [hlen], hres⟩
  · intro a ha
    simp [ht.all_sent a ha]

/-- a first command that is not answered quietly -/
theorem Follows.stop {words : List Text} {f : Fault} {console : Text}
    (hf : (Reply.nth replies 0).fault? h.binary past (h.argv words) = some f) :
    (⟨.error f, [h.argv words], console, []⟩ : Trace α).Follows h past replies (words :: plan) := by
  refine ⟨by simp, ?_, by simp⟩
  intro k w f' hk hf'
  cases k with
  | zero =>
    simp only [List.getElem?_cons_zero, Option.some.injEq] at hk
    subst hk
    rw [List.append_nil, hf, Option.some.injEq] at hf'
    exact ⟨rfl, by rw [hf']⟩
  | succ k => simp at hk

theorem Follows.quiet {t : Trace α} (ht : t.Follows h past replies plan) {k : Nat} (hk : k + 1 < t.sent.length) :
    (Reply.nth replies k).Quiet := by
  by_contra hq
  obtain ⟨f, hf⟩ := Reply.fault_of_not_quiet hq h.binary (past ++ t.added) t.sent[k]
  have := (ht.fault k _ f (List.getElem?_eq_getElem (by omega)) hf).1
  omega

/-- a value comes only when every command was answered quietly -/
theorem Follows.all_quiet {t : Trace α} (ht : t.Follows h past replies plan) {a : α} (ha : t.result = .ok a) {k : Nat}
    (hk : k < plan.length) : (Reply.nth replies k).Quiet := by
  have hlen : k < t.sent.length := by simpa [ht.all_sent a ha] using hk
  by_contra hq
  obtain ⟨f, hf⟩ := Reply.fault_of_not_quiet hq h.binary (past ++ t.added) t.sent[k]
  have hres := (ht.fault k _ f (List.getElem?_eq_getElem hlen) hf).2
  rw [ha] at hres
  exact absurd hres (by simp)

end Trace

namespace Script

/-! ## Scripts that keep to a plan -/

/-- a script that asks for the commands of a plan, in order, none of them allowed to fail; it may give up at any point
but come to a value only at the end of the plan -/
def Follows : Script α → List (List Text) → Prop
  | done _, plan => plan = []
  | fail _, _ => True
  | say _ next, plan => next.Follows plan
  | git args allow next, plan =>
    allow = false ∧ ∃ words rest, plan = words :: rest ∧ args = .list words ∧ ∀ r, (next r).Follows rest

theorem follows_bind {s : Script α} {f : α → Script β} {p q : List (List Text)} (hs : s.Follows p)
    (hf : ∀ a, (f a).Follows q) : (s.bind f).Follows (p ++ q) := by
  induction s generalizing p with
  | done a => rw [show p = [] from hs]; exact hf a
  | fail e => trivial
  | say markup next ih => exact ih hs
  | git args allow next ih =>
    obtain ⟨rfl, words, rest, rfl, rfl, hnext⟩ := hs
    exact ⟨rfl, words, rest ++ q, rfl, rfl, fun r => ih r (hnext r)⟩

theorem follows_each {f : α → Script β} {plan : α → List (List Text)} {as : List α}
    (hf : ∀ a ∈ as, (f a).Follows (plan a)) : (each f as).Follows (as.flatMap plan) := by
  induction as with
  | nil => rfl
  | cons a as ih =>
    have hrest := ih fun b hb => hf b (List.mem_cons_of_mem a hb)
    rw [List.flatMap_cons]
    refine follows_bind (hf a List.mem_cons_self) fun b => ?_
    rw [← List.append_nil (as.flatMap plan)]
    exact follows_bind hrest fun bs => rfl

theorem follows_ofExcept {ε : Type} (cause : ε → Fault) (e : Except ε α) : (ofExcept cause e).Follows [] := by
  cases e <;> trivial

variable {h : Handle} {screen : Console.Screen} {past : List Record} {replies : List Reply}

/-- **A script that keeps to a plan runs so.** The induction is on the script; a reply that is quiet leads to the rest
of the plan, any other one ends the run. -/
theorem run_follows {s : Script α} {plan : List (List Text)} (hs : s.Follows plan) :
    (s.run h screen past replies).Follows h past replies plan := by
  induction s generalizing past replies plan with
  | done a =>
    rw [show plan = [] from hs]
    exact ⟨by simp, by simp, by simp⟩
  | fail e => exact Trace.Follows.ended_error e
  | say markup next ih =>
    rw [run_say]
    cases Console.print screen markup with
    | error e => exact Trace.Follows.ended_error _
    | ok t =>
      have ht := @ih past replies plan hs
      exact ⟨by simpa using ht.sent, by simpa using ht.fault, by simpa using ht.all_sent⟩
  | git args allow next ih =>
    obtain ⟨rfl, words, rest, rfl, rfl, hnext⟩ := hs
    by_cases hq : (Reply.nth replies 0).Quiet
    · obtain ⟨out, code, hr⟩ := hq
      rw [run_git_quiet hr]
      exact Trace.Follows.cons ⟨out, code, hr⟩ (ih _ (hnext _))
    · obtain ⟨f, hf⟩ := Reply.fault_of_not_quiet hq h.binary past (h.argv words)
      rw [run_git_fault hf]
      exact Trace.Follows.stop hf

/-! ## Where a fault comes from -/

/-- the faults that a script can end with by itself, whatever git replies -/
def OwnFaults (P : Fault → Prop) : Script α → Prop
  | done _ => True
  | fail f => P f
  | say _ next => (∀ f, P (.markup f)) ∧ next.OwnFaults P
  | git _ _ next => ∀ r, (next r).OwnFaults P

theorem ownFaults_bind {P : Fault → Prop} {s : Script α} {f : α → Script β} (hs : s.OwnFaults P)
    (hf : ∀ a, (f a).OwnFaults P) : (s.bind f).OwnFaults P := by
  induction s with
  | done a => exact hf a
  | fail e => exact hs
  | say markup next ih => exact ⟨hs.1, ih hs.2⟩
  | git args allow next ih => exact fun r => ih r (hs r)

theorem ownFaults_each {P : Fault → Prop} {f : α → Script β} {as : List α} (hf : ∀ a ∈ as, (f a).OwnFaults P) :
    (each f as).OwnFaults P := by
  induction as with
  | nil => trivial
  | cons a as ih =>
    have hrest := ih fun b hb => hf b (List.mem_cons_of_mem a hb)
    exact ownFaults_bind (hf a List.mem_cons_self) fun b => ownFaults_bind hrest fun bs => trivial

/-- a scope of any commands and lines, with these faults and those of lines that cannot be shown -/
def ownScope (P : Fault → Prop) : Scope := ⟨fun _ _ => True, fun _ => ∀ e, P (.markup e), P⟩

theorem OwnFaults.within {P : Fault → Prop} {s : Script α} (hs : s.OwnFaults P) : s.Within (ownScope P) := by
  induction s with
  | done a => trivial
  | fail e => exact hs
  | say markup next ih => exact ⟨hs.1, ih hs.2⟩
  | git args allow next ih => exact ⟨trivial, fun r => ih r (hs r)⟩

/-- **Where a fault comes from.** A run that ends with a fault ends with one of the script's own, or with the fault of
its last command. -/
theorem run_error {P : Fault → Prop} {s : Script α} (hs : s.OwnFaults P) {f : Fault}
    (hf : (s.run h screen past replies).result = .error f) :
    P f ∨ ∃ k words, (s.run h screen past replies).sent[k]? = some words ∧
      (s.run h screen past replies).sent.length = k + 1 ∧
      (Reply.nth replies k).fault? h.binary (past ++ (s.run h screen past replies).added) words = some f := by
  cases run_within_error hs.within hf with
  | own hP => exact Or.inl hP
  | line hline _ hf => exact Or.inl (hf ▸ hline _)
  | command _ hlen hk hfault _ => exact Or.inr ⟨_, _, hk, hlen, hfault⟩

end Script

end RepoLens
