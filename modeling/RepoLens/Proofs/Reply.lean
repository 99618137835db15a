import Mathlib.Tactic
import RepoLens.Fault
/-!
Replies of git, and what a command leaves behind. The `k`-th command of a run gets the `k`-th reply, and silence once
the replies have run out. A reply is quiet if git started and wrote no byte to its error output; exactly then the
command has a record, and exactly then a command that must not fail has no fault.

Results:
- `captured_eq_nil`: captured bytes are the empty text only if there are no bytes. Whatever git writes to its error
  output, well formed or not, shows;
- `record_isSome`, `fault_eq_none`: both say that the reply is quiet.
-/
namespace RepoLens

/-! ## Captured bytes -/

namespace Text

theorem Utf8.lead_starts (b : Nat) : (Utf8.lead b).1 ≠ [] ∨ (Utf8.lead b).2.isSome := by
  unfold Utf8.lead
  split_ifs <;> simp

/-- a character that has been begun shows in the end, whole or as a replacement -/
theorem Utf8.decodeFrom_pending (p : Utf8.Pending) (bytes : List UInt8) : Utf8.decodeFrom (some p) bytes ≠ [] := by
  induction bytes generalizing p with
  | nil => simp [Utf8.decodeFrom]
  | cons b r ih =>
    simp only [Utf8.decodeFrom, Utf8.step]
    split_ifs
    · simp
    · simpa using ih _
    · simp

theorem Utf8.decode_eq_nil {bytes : List UInt8} : Utf8.decode bytes = [] ↔ bytes = [] := by
  cases bytes with
  | nil => simp [Utf8.decode, Utf8.decodeFrom]
  | cons b r =>
    simp only [Utf8.decode, Utf8.decodeFrom, Utf8.step, List.append_eq_nil_iff, reduceCtorEq, iff_false, not_and]
    intro hlead
    rcases Utf8.lead_starts b.toNat with h | h
    · exact absurd hlead h
    · obtain ⟨p, hp⟩ := Option.isSome_iff_exists.1 h
      rw [hp]
      exact Utf8.decodeFrom_pending p r

theorem unifyNewlines_eq_nil {t : Text} : unifyNewlines t = [] ↔ t = [] := by
  fun_cases unifyNewlines t <;> simp

theorem closeLines_eq_nil {t : Text} : closeLines t = [] ↔ t = [] := by
  unfold closeLines
  split
  · rename_i h
    simp [List.getLast?_eq_none_iff.1 h]
  · rename_i h
    have hne : t ≠ [] := by rintro rfl; simp at h
    split_ifs <;> simp [hne]

end Text

theorem Record.captured_eq_nil {bytes : List UInt8} : Record.captured bytes = [] ↔ bytes = [] := by
  rw [captured, Text.closeLines_eq_nil, Text.unifyNewlines_eq_nil, Text.Utf8.decode_eq_nil]

theorem Record.failed_captured {command out : Text} {err : List UInt8} {code : Int} :
    (⟨command, out, Record.captured err, code⟩ : Record).failed = true ↔ err ≠ [] := by
  simp [failed, captured_eq_nil]

/-- the text of one command, as records and diagnostics give it -/
def commandLine (words : List Text) : Text := Text.joinWith [' '] words

namespace Reply

/-! ## Which reply a command gets -/

def nth (replies : List Reply) (k : Nat) : Reply := replies.getD k .silent

theorem nth_zero (replies : List Reply) : nth replies 0 = replies.headD .silent := by
  cases replies <;> rfl

@[simp] theorem nth_tail (replies : List Reply) (k : Nat) : nth replies.tail k = nth replies (k + 1) := by
  cases replies <;> simp [nth]

@[simp] theorem nth_drop (replies : List Reply) (n k : Nat) : nth (replies.drop n) k = nth replies (n + k) := by
  simp [nth, List.getD_eq_getElem?_getD]

/-- some commands, each with the reply to it -/
def pair : List (List Text) → List Reply → List (List Text × Reply)
  | [], _ => []
  | words :: rest, replies => (words, nth replies 0) :: pair rest replies.tail

@[simp] theorem pair_map_fst (sent : List (List Text)) (replies : List Reply) :
    (pair sent replies).map Prod.fst = sent := by
  induction sent generalizing replies with
  | nil => rfl
  | cons words sent ih => simp [pair, ih]

/-! ## Quiet replies -/

/-- git started and wrote no byte to its error output -/
def Quiet (r : Reply) : Prop := ∃ out code, r = .output out [] code

def stdout : Reply → Text
  | .output out _ _ => Record.captured out
  | _ => []

/-- the record that a command leaves: it has one only if git wrote no byte to its error output -/
def record? (words : List Text) : Reply → Option Record
  | .output out [] code => some ⟨commandLine words, Record.captured out, [], code⟩
  | _ => none

/-- why a command that must not fail ends what it is part of; none if git did it without error output -/
def fault? (binary : Text) (past : List Record) (words : List Text) : Reply → Option Fault
  | .output _ [] _ => none
  | .output out err code =>
    some (.git (.command ⟨commandLine words, Record.captured out, Record.captured err, code⟩ past))
  | .missing => some (.git (.noExecutable binary))
  | .denied => some (.denied binary)

theorem quiet_output {out err : List UInt8} {code : Int} : (Reply.output out err code).Quiet ↔ err = [] := by
  simp [Quiet]

theorem record_isSome {words : List Text} {r : Reply} : (r.record? words).isSome ↔ r.Quiet := by
  fun_cases record? words r <;> simp_all [Quiet]

theorem record_eq_none {words : List Text} {r : Reply} : r.record? words = none ↔ ¬ r.Quiet := by
  rw [← @record_isSome words r, Option.not_isSome_iff_eq_none]

theorem record_failed {words : List Text} {out err : List UInt8} {code : Int} (herr : err ≠ []) :
    (Reply.output out err code).record? words = none :=
  record_eq_none.2 fun hq => herr (quiet_output.1 hq)

theorem fault_eq_none {binary : Text} {past : List Record} {words : List Text} {r : Reply} :
    r.fault? binary past words = none ↔ r.Quiet := by
  fun_cases fault? binary past words r <;> simp_all [Quiet]

theorem fault_of_not_quiet {r : Reply} (h : ¬ r.Quiet) (binary : Text) (past : List Record) (words : List Text) :
    ∃ f, r.fault? binary past words = some f := by
  cases hf : r.fault? binary past words with
  | none => exact absurd (fault_eq_none.1 hf) h
  | some f => exact ⟨f, rfl⟩

end Reply

def recordsOf (exchanges : List (List Text × Reply)) : List Record := exchanges.filterMap fun e => e.2.record? e.1

end RepoLens
