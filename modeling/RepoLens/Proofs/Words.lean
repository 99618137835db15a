import Mathlib.Tactic
import RepoLens.Command
import RepoLens.Proofs.Fields
/-!
The two forms of a command. Given as a list, the words of a command are what they are, whatever stands in them. Given as a line,
they are the fields of the line, so each of them is a word: not empty, and without blanks. A list that is written as a line, with
a space between neighbours, is therefore the same command only if all of it are words; any other text, such as a message with a
blank in it, has no form as a part of a line.

Results:
- `Words.toList_joined`: a list written as a line falls into the fields of its texts;
- `Handle.line_safe_for_words`: the line and the list are the same command exactly if the texts are words.
-/
namespace RepoLens

open Text

namespace Words

/-- the line in which a list of texts is written -/
def joined (args : List Text) : Words := .line (joinWith [' '] args)

theorem toList_joined (args : List Text) : (joined args).toList = args.flatMap fields := fields_joinWith args

/-- nothing but words comes out of a line -/
theorem isWord_of_line {t a : Text} (h : a ∈ (line t).toList) : IsWord a := isWord_of_mem_fields h

theorem toList_joined_eq_iff {args : List Text} : (joined args).toList = args ↔ ∀ a ∈ args, IsWord a := by
  constructor
  · intro heq a ha
    rw [← heq] at ha
    exact isWord_of_line ha
  · intro hwords
    rw [toList_joined]
    induction args with
    | nil => rfl
    | cons a args ih =>
      obtain ⟨ha, hargs⟩ := List.forall_mem_cons.1 hwords
      rw [List.flatMap_cons, fields_word ha, ih hargs, List.singleton_append]

end Words

namespace Handle

theorem command_inj {h : Handle} {a b : Words} : h.command a = h.command b ↔ a.toList = b.toList := List.append_right_inj h.base

/-- **A line is safe for words, and only for words.** Texts written in one line, with a space between neighbours, are the same
command as the list of them exactly if none of them is empty and none has a blank in it. As a list they follow the three words
that every command of the handle starts with, in order and unchanged, whatever they are. And in no line at all is there a text
that is empty or has a blank in it. -/
theorem line_safe_for_words (h : Handle) (args : List Text) :
    (h.command (.line (joinWith [' '] args)) = h.command (.list args) ↔ ∀ a ∈ args, a ≠ [] ∧ ∀ c ∈ a, isBlank c = false) ∧
    (h.command (.list args) = h.base ++ args ∧ h.base.length = 3) ∧
    ∀ t a, a ∈ (h.command (.line t)).drop h.base.length → a ≠ [] ∧ ∀ c ∈ a, isBlank c = false := by
  refine ⟨command_inj.trans Words.toList_joined_eq_iff, ⟨rfl, rfl⟩, fun t a ha => ?_⟩
  rw [command, List.drop_left] at ha
  exact Words.isWord_of_line ha

/-- faults that look as if they made up for each other: an empty text next to one with a blank, as many words as texts -/
example : let h : Handle := ⟨⟨.here, ["repo"]⟩, "main", "origin", "git", false⟩
    h.command (.line (joinWith [' '] ["commit -m", ""])) = h.base ++ ["commit".toList, "-m".toList] := by
  decide

end Handle

end RepoLens
