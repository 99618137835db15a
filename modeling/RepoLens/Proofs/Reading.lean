import Mathlib.Tactic
import RepoLens.Proofs.Scope
import RepoLens.Cli
/-!
Operations that only read. Their commands start with one of seven verbs, and the two of these that would change something with
arguments are sent without any. They print nothing themselves, and they may fail in any way.

Results:
- `Reads`: a command that only reads, and `Reads.not_changes`: it is none of those that change something;
- `reads_branches` and its like: the operations behind the command line only read.
-/
namespace RepoLens

open Script

def readingVerbs : List Text := ["log", "diff-tree", "status", "branch", "rev-parse", "tag", "show"]

/-- the verbs of these that change something if they have arguments -/
def bareVerbs : List Text := ["branch", "tag"]

def changingVerbs : List Text :=
  ["init", "config", "add", "commit", "checkout", "reset", "push", "pull", "fetch", "merge"]

/-- the words of a command that only reads -/
def Reads (words : List Text) : Prop :=
  ∃ verb args, words = verb :: args ∧ verb ∈ readingVerbs ∧ (verb ∈ bareVerbs → args = [])

theorem reads_of_verb {verb : Text} {args : List Text} (hverb : verb ∈ readingVerbs) (hbare : verb ∈ bareVerbs → args = []) :
    Reads (verb :: args) := ⟨verb, args, rfl, hverb, hbare⟩

theorem not_changing_of_reading : ∀ verb ∈ readingVerbs, verb ∉ changingVerbs := by decide

/-- commands that only read, no lines, and any fault -/
def readingScope : Scope := ⟨fun args _ => Reads args.toList, fun _ => False, fun _ => True⟩

namespace Repository

theorem reads_ask {words : List Text} (h : Reads words) : (ask words).Within readingScope := ⟨h, fun _ => trivial⟩

/-- a command that reads, and what is made of its reply -/
theorem reads_ask_bind {α : Type} {verb : Text} {args : List Text} {next : Record → Script α} (hverb : verb ∈ readingVerbs)
    (hbare : verb ∈ bareVerbs → args = []) (hnext : ∀ r, (next r).Within readingScope) :
    ((ask (verb :: args)).bind next).Within readingScope :=
  within_bind (reads_ask (reads_of_verb hverb hbare)) hnext

theorem reads_listing {ε α : Type} (cause : ε → Fault) (x : Except ε α) : (ofExcept cause x).Within readingScope :=
  within_ofExcept (fun _ => trivial) x

theorem reads_branches : branches.Within readingScope :=
  reads_ask_bind (by decide) (fun _ => rfl) fun _ => reads_listing _ _

theorem reads_tags : tags.Within readingScope :=
  reads_ask_bind (by decide) (fun _ => rfl) fun _ => reads_listing _ _

theorem reads_uncommitted : uncommitted.Within readingScope :=
  reads_ask_bind (by decide) (by decide) fun _ => reads_listing _ _

theorem reads_currentBranch : currentBranch.Within readingScope :=
  reads_ask_bind (by decide) (by decide) fun _ => trivial

theorem reads_head : head.Within readingScope :=
  reads_ask_bind (by decide) (by decide) fun _ => trivial

theorem reads_contents (commitId path : Text) : (contents commitId path).Within readingScope :=
  reads_ask_bind (by decide) (fun h => absurd h (by decide)) fun _ => trivial

theorem reads_filesIn (commitId : Text) : (filesIn commitId).Within readingScope :=
  reads_ask_bind (by decide) (fun h => absurd h (by decide)) fun _ => reads_listing _ _

theorem reads_commits (branch : Text) : (commits branch).Within readingScope := by
  have hids : (commitIds branch).Within readingScope :=
    reads_ask_bind (by decide) (fun h => absurd h (by decide)) fun _ => trivial
  refine within_bind hids fun ids => ?_
  cases ids with
  | nil => trivial
  | cons base later =>
    have hfiles : ∀ id, (commitWithFiles id).Within readingScope := fun id => within_bind (reads_filesIn id) fun _ => trivial
    exact within_bind (within_each hfiles later) fun _ => trivial

end Repository

theorem Cli.reads_branchesAndCurrent : branchesAndCurrent.Within readingScope :=
  within_bind Repository.reads_branches fun _ => within_bind Repository.reads_currentBranch fun _ => trivial

end RepoLens
