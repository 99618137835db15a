import Mathlib.Tactic
import RepoLens.Proofs.Lines
import RepoLens.Proofs.Opening
import RepoLens.Proofs.Yaml.Values
/-!
Settings that are saved and loaded again. The file is emptied before anything is written, so a save that fails leaves it empty;
it fails where the stack is not deep enough for the settings, or a number in them is too large, and numbers are none of the kinds
of settings looked at here. What is loaded is what was saved, up to the order of the keys, except in one place: where lines are
indented by eighty columns or more, a text is folded twice between a character that needs an escape and a space, and the two
backslashes that end and start a line read as one more character. Settings that are nested less than forty deep are never
indented that far.

Results:
- `clean_of_levels`: no text of settings that are nested less than forty deep is folded twice;
- `runOn_save`, `runOn_save_fault`: what is in the file after a save that goes well, and after one that fails;
- `saved_settings_load`: what is loaded after settings have been saved, and when it is equal to them;
- `deep_settings_change`: settings forty deep that are loaded with another text.
-/
namespace RepoLens

open Value (texts)

/-! ## How deep settings are nested -/

namespace Value

mutual

/-- how many collections stand inside each other -/
def levels : Value → Nat
  | .list _ items => 1 + levelsItems items
  | .map _ entries => 1 + levelsEntries entries
  | _ => 0

def levelsItems : List Value → Nat
  | [] => 0
  | v :: r => max (levels v) (levelsItems r)

def levelsEntries : List (Value × Value) → Nat
  | [] => 0
  | (_, v) :: r => max (levels v) (levelsEntries r)

end

theorem levels_le_items {vs : List Value} : ∀ v ∈ vs, v.levels ≤ levelsItems vs := by
  induction vs with
  | nil => exact fun v hv => absurd hv List.not_mem_nil
  | cons w vs ih =>
    intro v hv
    rw [levelsItems]
    rcases List.mem_cons.1 hv with rfl | hv
    · exact le_max_left _ _
    · exact (ih v hv).trans (le_max_right _ _)

theorem levels_le_entries {es : List (Value × Value)} : ∀ e ∈ es, e.2.levels ≤ levelsEntries es := by
  induction es with
  | nil => exact fun e he => absurd he List.not_mem_nil
  | cons f es ih =>
    intro e he
    rw [levelsEntries]
    rcases List.mem_cons.1 he with rfl | he
    · exact le_max_left _ _
    · exact (ih e he).trans (le_max_right _ _)

end Value

namespace Yaml

/-- **Lines have room for text** unless settings are nested too deep: each level takes two columns at most. -/
theorem clean_of_levels {v : Value} (h : IsSetting v) {compact : Bool} {indent : Nat}
    (hroom : indent + 2 * v.levels < bestWidth) : Clean compact indent v := by
  induction h generalizing compact indent with
  | null => exact .null
  | bool b => exact .bool b
  | text t => exact .text (.inr (.inl (by omega)))
  | list h ih =>
    refine .list fun v hv => ih v hv ?_
    have hle := Value.levels_le_items v hv
    rw [Value.levels] at hroom
    split_ifs <;> omega
  | @map es hkeys hvalues hnodup ih =>
    refine .map fun e he => ?_
    have hle := Value.levels_le_entries e he
    obtain ⟨k, v, hmem, rfl⟩ := Value.mem_texts he
    rw [Value.levels] at hroom
    simp only at hle ⊢
    exact ih (k, v) hmem (by simp only; omega)

end Yaml

/-! ## Saving and loading -/

namespace Settings

open Yaml Job

def saveAndLoad (p : Place) (c : Value) : Job Value := do
  save p c
  load p

/-- the desk once the file is emptied, before anything is written -/
def emptied (d : Desk) : Desk := { d.made with settings := some [] }

/-- the desk after settings have been saved -/
def saved (c : Value) (d : Desk) : Desk := { d.made with settings := some (Yaml.dump c) }

/-- settings that can be written: the stack is deep enough for them, and no number in them is too large -/
structure Writable (p : Place) (c : Value) : Prop where
  stack : p.runtime.writes c = true
  numbers : c.numbersFit = true

variable {p : Place} {c : Value}

/-- the settings file is emptied before it is known whether the settings can be written -/
theorem runOn_save_emptied (p : Place) (c : Value) (d : Desk) :
    (save p c).runOn d = (if p.runtime.writes c then do
      let t ← ofExcept .number (write c)
      modify fun d => { d with settings := some t }
    else throw .tooDeep : Job Unit).runOn (emptied d) := by
  have hfolder : (folder p).runOn d = (.ok p.folder.toText, d.made) := rfl
  have hempty : (modify fun d : Desk => { d with settings := some [] } : Job Unit).runOn d.made = (.ok (), emptied d) := rfl
  rw [save, runOn_bind_ok hfolder, runOn_bind_ok hempty]

theorem runOn_save (h : Writable p c) (d : Desk) : (save p c).runOn d = (.ok (), saved c d) := by
  have hwrite : (ofExcept .number (write c)).runOn (emptied d) = (.ok (Yaml.dump c), emptied d) := by
    rw [runOn_ofExcept, write, if_pos h.numbers]
    rfl
  rw [runOn_save_emptied, if_pos h.stack, runOn_bind_ok hwrite]
  rfl

/-- **A save that fails leaves an empty file** -/
theorem runOn_save_fault (h : ¬ Writable p c) (d : Desk) :
    ∃ f, (save p c).runOn d = (.error f, emptied d) ∧
      (p.runtime.writes c = false ∧ f = .tooDeep ∨ c.numbersFit = false ∧ f = .number .tooLarge) := by
  rw [runOn_save_emptied]
  by_cases hstack : p.runtime.writes c = true
  · have hnumbers : ¬ c.numbersFit = true := fun hnumbers => h ⟨hstack, hnumbers⟩
    have hwrite : (ofExcept .number (write c)).runOn (emptied d) = (.error (.number .tooLarge), emptied d) := by
      rw [runOn_ofExcept, write, if_neg hnumbers]
      rfl
    rw [if_pos hstack, runOn_bind_error hwrite]
    exact ⟨_, rfl, Or.inr ⟨Bool.eq_false_iff.2 hnumbers, rfl⟩⟩
  · rw [if_neg hstack]
    exact ⟨_, rfl, Or.inl ⟨Bool.eq_false_iff.2 hstack, rfl⟩⟩

/-- what is loaded is what the new file holds -/
theorem runOn_saveAndLoad (h : Writable p c) (d : Desk) :
    (saveAndLoad p c).runOn d = (held p (saved c d), saved c d) := by
  rw [saveAndLoad, runOn_bind_ok (runOn_save h d), runOn_load]
  rfl

theorem numbersFitItems_iff {vs : List Value} : Value.numbersFitItems vs = true ↔ ∀ v ∈ vs, v.numbersFit = true := by
  induction vs with
  | nil => exact ⟨fun _ v hv => absurd hv List.not_mem_nil, fun _ => rfl⟩
  | cons v vs ih => rw [Value.numbersFitItems, Bool.and_eq_true, ih, List.forall_mem_cons]

theorem numbersFitEntries_texts {es : List (Text × Value)} :
    Value.numbersFitEntries (texts es) = true ↔ ∀ e ∈ es, e.2.numbersFit = true := by
  induction es with
  | nil => exact ⟨fun _ e he => absurd he List.not_mem_nil, fun _ => rfl⟩
  | cons e es ih =>
    have hkey : (Value.text e.1).numbersFit = true := rfl
    rw [Value.texts_cons, Value.numbersFitEntries, Bool.and_eq_true, ih, List.forall_mem_cons, hkey, Bool.true_and]

/-- there are no numbers in settings of the kinds looked at here -/
theorem numbersFit_of_setting {v : Value} (h : IsSetting v) : v.numbersFit = true := by
  induction h with
  | null => rfl
  | bool b => rfl
  | text t => rfl
  | list _ ih => exact numbersFitItems_iff.2 ih
  | map _ _ _ ih => exact numbersFitEntries_texts.2 ih

/-- what a file with settings that were written is read as: they are in order, with each text as it is read where it stands -/
theorem held_saved {es : List (Text × Value)} (h : IsSetting (.map none (texts es))) (p : Place) (d : Desk) :
    held p (saved (.map none (texts es)) d) = if p.runtime.reads (dump (.map none (texts es))) = true then
      .ok (rereadValue false 0 (arranged (.map none (texts es)))) else .error .tooDeep := by
  obtain ⟨hordinary, hload⟩ := load_dump h
  have hcr : '\r' ∉ dump (.map none (texts es)) := fun hmem => by
    rcases hordinary _ hmem with heq | hprint
    · exact absurd heq (by decide)
    · exact absurd hprint.1 (by decide)
  obtain ⟨fs, hfs, -⟩ := arranged_map es
  simp only [held, saved, Text.unifyNewlines_of_no_cr hcr, hload, hfs]
  split_ifs
  · cases fs <;> rfl
  · rfl

/-- **Settings that are saved can be loaded.** The stack decides whether they can be written, and what was written be read; a
file that cannot be written is left empty. Each text is loaded as it is read in its place, and the keys in order; the whole is
equal to what was saved exactly if every text is read as it was, and that is so in all settings that are nested less than forty
deep. -/
theorem saved_settings_load {es : List (Text × Value)} (h : IsSetting (.map none (texts es))) :
    (∀ p d, (saveAndLoad p (.map none (texts es))).runOn d =
      if p.runtime.writes (.map none (texts es)) = true then
        (if p.runtime.reads (dump (.map none (texts es))) = true then
            .ok (rereadValue false 0 (arranged (.map none (texts es)))) else .error .tooDeep,
          saved (.map none (texts es)) d)
      else (.error .tooDeep, emptied d)) ∧
    ((rereadValue false 0 (arranged (.map none (texts es)))).same (.map none (texts es)) = true ↔
      Clean false 0 (.map none (texts es))) ∧
    ((Value.map none (texts es)).levels < 40 → Clean false 0 (.map none (texts es))) := by
  have hnumbers := numbersFit_of_setting h
  refine ⟨fun p d => ?_, same_reread h false 0, fun hlevels => clean_of_levels h ?_⟩
  · split_ifs with hstack
    · rw [runOn_saveAndLoad ⟨hstack, hnumbers⟩, held_saved h, if_pos ‹_›]
    · rw [runOn_saveAndLoad ⟨hstack, hnumbers⟩, held_saved h, if_neg ‹_›]
    · obtain ⟨f, hrun, ⟨-, rfl⟩ | ⟨hlarge, -⟩⟩ := runOn_save_fault (fun hw : Writable p _ => hstack hw.stack) d
      · exact runOn_bind_error hrun
      · rw [hnumbers] at hlarge
        cases hlarge
  · rw [bestWidth]
    omega

/-- a branch whose name reads as a boolean, in settings with a list, on a stack that is deep enough -/
theorem saved_settings_load_branch :
    let c : Value := .map none (texts
      [("default", .map none (texts [("mainline_branch", .text "on"), ("tags", .list none [.text "010", .null, .bool true])]))])
    ∀ home cwd paths width d, ∃ v, (saveAndLoad (.plain home cwd paths width) c).runOn d = (.ok v, saved c d) ∧ v.same c = true := by
  intro c home cwd paths width d
  have htags : IsSetting (.list none [.text "010", .null, .bool true]) := by
    refine .list fun v hv => ?_
    simp only [List.mem_cons, List.not_mem_nil, or_false] at hv
    rcases hv with rfl | rfl | rfl
    · exact .text _
    · exact .null
    · exact .bool true
  have hdefault : IsSetting (.map none (texts
      [("mainline_branch", .text "on"), ("tags", .list none [.text "010", .null, .bool true])])) := by
    refine .map (fun e he => ?_) (fun e he => ?_) (by decide)
    · simp only [List.mem_cons, List.not_mem_nil, or_false] at he
      rcases he with rfl | rfl
      · exact ⟨by decide, by decide, by decide⟩
      · exact ⟨by decide, by decide, by decide⟩
    · simp only [List.mem_cons, List.not_mem_nil, or_false] at he
      rcases he with rfl | rfl
      · exact .text _
      · exact htags
  have hsettings : IsSetting c := by
    refine .map (fun e he => ?_) (fun e he => ?_) (by decide)
    · rw [List.mem_singleton.1 he]
      exact ⟨by decide, by decide, by decide⟩
    · rw [List.mem_singleton.1 he]
      exact hdefault
  obtain ⟨hloads, hsame, hclean⟩ := saved_settings_load hsettings
  exact ⟨_, hloads (.plain home cwd paths width) d, hsame.2 (hclean (by decide))⟩

/-! ## Settings that change -/

/-- a value inside as many mappings as a number says -/
def nested (v : Value) : Nat → Value
  | 0 => v
  | n + 1 => .map none (texts [("a", nested v n)])

theorem isSetting_nested {v : Value} (h : IsSetting v) (n : Nat) : IsSetting (nested v n) := by
  induction n with
  | zero => exact h
  | succ n ih =>
    refine .map (fun e he => ?_) (fun e he => ?_) (by simp)
    · rw [List.mem_singleton.1 he]
      exact ⟨by simp, by simp, (by decide : Text.Printable "a")⟩
    · rw [List.mem_singleton.1 he]
      exact ih

theorem levels_nested (v : Value) (n : Nat) : (nested v n).levels = v.levels + n := by
  induction n with
  | zero => rfl
  | succ n ih =>
    have hstep : (nested v (n + 1)).levels = 1 + max (nested v n).levels 0 := rfl
    rw [hstep, ih]
    omega

theorem clean_nested {v : Value} {n indent : Nat} (h : Clean false indent (nested v n)) : Clean false (indent + 2 * n) v := by
  induction n generalizing indent with
  | zero => exact h
  | succ n ih =>
    cases h with
    | map hentries =>
      have hclean := ih (hentries (.text "a", nested v n) List.mem_cons_self)
      rwa [show indent + 2 * (n + 1) = indent + 2 + 2 * n by omega]

/-- the text that changes: a control character before a space -/
def controlled : Text := ['a', 'b', Char.ofNat 1, ' ', 'c', 'd']

theorem not_clean_controlled : ¬ Clean false bestWidth (.text controlled) := by
  intro h
  cases h with
  | text h => revert h; decide

/-- forty mappings deep, a text is loaded with one more character, on a stack that is deep enough -/
theorem deep_settings_change :
    let c := nested (.text controlled) 40
    IsSetting c ∧ c.levels = 40 ∧ ∀ home cwd paths width d, ∃ v,
      (saveAndLoad (.plain home cwd paths width) c).runOn d = (.ok v, saved c d) ∧ v.same c = false := by
  intro c
  have hsetting : IsSetting c := isSetting_nested (.text controlled) 40
  have hchanged := (same_reread hsetting false 0).not.2 fun hclean => not_clean_controlled (clean_nested hclean)
  refine ⟨hsetting, levels_nested _ 40, fun home cwd paths width d => ⟨_, ?_, Bool.eq_false_iff.2 hchanged⟩⟩
  rw [runOn_saveAndLoad ⟨rfl, numbersFit_of_setting hsetting⟩]
  exact congrArg (fun v => (v, saved c d)) (held_saved hsetting _ d)

end Settings

end RepoLens
