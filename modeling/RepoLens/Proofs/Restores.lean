import Mathlib.Tactic
import RepoLens.Proofs.Defaults
import RepoLens.Proofs.SetCommand
/-!
Settings that survive being saved. Ordinary settings (nulls, booleans, texts, lists and mappings with short names, not nested too
deep) are loaded as the same tree once they are saved, and they stay ordinary when an entry is set. So whatever commands run
where there was no settings file, all that they save can be loaded, if the stack is deep enough for what is ordinary.

Results:
- `restores_of_setting`: ordinary settings are loaded as the same tree;
- `levels_le_of_same`: the same tree is nested no deeper;
- `Plain.restored`: all that a run saves can be loaded, if the settings before it are ordinary;
- `restored_absent`: so it is where there was no settings file.
-/
namespace RepoLens.Settings

open Value Job Yaml

variable {p : Place} {d d' : Desk} {v w u : Value} {c : SetCommand} {cs : List SetCommand}

/-! ## What is saved can be loaded -/

/-- settings that are loaded at a place as the same tree once they are saved, and without aliases if they had none -/
def Restores (p : Place) (v : Value) : Prop :=
  ∀ d, ∃ w, (saveAndLoad p v).runOn d = (.ok w, saved v d) ∧ w.SameTree v ∧ (v.AliasFree → w.AliasFree)

theorem Restores.held (h : Restores p v) (d : Desk) :
    ∃ w, held p (saved v d) = .ok w ∧ w.SameTree v ∧ (v.AliasFree → w.AliasFree) := by
  obtain ⟨w, hrun, hsame, hfree⟩ := h d
  by_cases hwrite : Writable p v
  · rw [runOn_saveAndLoad hwrite] at hrun
    exact ⟨w, (Prod.mk.inj hrun).1, hsame, hfree⟩
  · obtain ⟨f, hfault, -⟩ := runOn_save_fault hwrite d
    rw [saveAndLoad, runOn_bind_error hfault] at hrun
    cases hrun

theorem isSetting_reread {compact : Bool} {indent : Nat} (h : IsSetting v) : IsSetting (rereadValue compact indent v) := by
  induction h generalizing compact indent with
  | null => exact .null
  | bool b => exact .bool b
  | text t => exact .text _
  | list _ ih =>
    rw [rereadValue, rereadListed_eq]
    refine .list fun w hw => ?_
    obtain ⟨v, hv, rfl⟩ := List.mem_map.1 hw
    exact ih v hv
  | map hkeys _ hnodup ih =>
    rw [rereadValue, rereadMapped_texts]
    refine .map (fun e he => ?_) (fun e he => ?_) (by rwa [List.map_map])
    · obtain ⟨f, hf, rfl⟩ := List.mem_map.1 he
      exact hkeys f hf
    · obtain ⟨f, hf, rfl⟩ := List.mem_map.1 he
      exact ih f hf

theorem marks_setting (h : IsSetting v) : v.marks = [] := by
  rw [List.eq_nil_iff_forall_not_mem]
  induction h with
  | null => exact fun n => List.not_mem_nil
  | bool b => exact fun n => List.not_mem_nil
  | text t => exact fun n => List.not_mem_nil
  | list _ ih =>
    intro n hn
    obtain ⟨v, hv, hmem⟩ := mem_marksItems.1 hn
    exact ih v hv n hmem
  | map _ _ _ ih =>
    intro n hn
    obtain ⟨e, he, hmem⟩ := mem_marksEntries.1 hn
    obtain ⟨k, v, hkv, rfl⟩ := mem_texts he
    exact ih (k, v) hkv n hmem

/-- settings all of whose texts are read as they were are read as the same tree -/
theorem sameTree_reread {compact : Bool} {indent : Nat} (h : IsSetting v) (hclean : Clean compact indent v) :
    (rereadValue compact indent (arranged v)).SameTree v := by
  induction h generalizing compact indent with
  | null => exact .refl _
  | bool b => exact .refl _
  | text t =>
    cases hclean with
    | text ht =>
      rw [arranged, rereadValue, (rereadText_eq_self indent t).2 ht]
      · exact .refl _
      all_goals simp
  | @list vs _ ih =>
    cases hclean with
    | list hitems =>
      rw [arranged, arrangedItems_eq, rereadValue, rereadListed_eq, List.map_map]
      refine .list ?_
      rw [List.forall₂_map_left_iff, List.forall₂_same]
      exact fun v hv => ih v hv (hitems v hv)
  | @map es _ _ _ ih =>
    cases hclean with
    | map hentries =>
      obtain ⟨fs, hfs, hperm⟩ := arranged_map es
      have hread := hperm.map fun e => (e.1, rereadValue false (indent + 2) e.2)
      rw [List.map_map] at hread
      rw [hfs, rereadValue, rereadMapped_texts]
      refine (SameTree.of_perm (n := none) (hread.map _)).trans (sameTree_map.2 ⟨texts es, ?_, List.Perm.refl _⟩)
      rw [texts, List.forall₂_map_left_iff, List.forall₂_map_left_iff, List.forall₂_map_right_iff, List.forall₂_same]
      exact fun e he => ⟨rfl, ih e he (hentries (.text e.1, e.2) (List.mem_map_of_mem he))⟩

/-- **Ordinary settings are loaded as the same tree** once they are saved, on a stack that is deep enough for them. -/
theorem restores_of_setting {es : List (Text × Value)} (h : IsSetting (.map none (texts es)))
    (hlevels : (Value.map none (texts es)).levels < 40) (hwrites : p.runtime.writes (.map none (texts es)) = true)
    (hreads : p.runtime.reads (dump (.map none (texts es))) = true) : Restores p (.map none (texts es)) := by
  intro d
  have hclean : Clean false 0 (.map none (texts es)) := clean_of_levels h (by rw [bestWidth]; omega)
  refine ⟨_, ?_, sameTree_reread h hclean, fun _ => ?_⟩
  · rw [runOn_saveAndLoad ⟨hwrites, numbersFit_of_setting h⟩, held_saved h, if_pos hreads]
  · rw [AliasFree, marks_setting (isSetting_reread (arranged_setting h))]
    exact List.nodup_nil

/-! ## Ordinary settings -/

theorem levelsItems_le {n : Nat} {vs : List Value} : levelsItems vs ≤ n ↔ ∀ v ∈ vs, v.levels ≤ n := by
  refine ⟨fun h v hv => (levels_le_items v hv).trans h, fun h => ?_⟩
  induction vs with
  | nil => exact Nat.zero_le n
  | cons v vs ih =>
    obtain ⟨hv, hvs⟩ := List.forall_mem_cons.1 h
    exact max_le hv (ih hvs)

theorem levelsEntries_le {n : Nat} {es : List (Value × Value)} : levelsEntries es ≤ n ↔ ∀ e ∈ es, e.2.levels ≤ n := by
  refine ⟨fun h e he => (levels_le_entries e he).trans h, fun h => ?_⟩
  induction es with
  | nil => exact Nat.zero_le n
  | cons e es ih =>
    obtain ⟨he, hes⟩ := List.forall_mem_cons.1 h
    exact max_le he (ih hes)

/-- the same tree is nested no deeper -/
theorem levels_le_of_same (h : v.SameTree w) : w.levels ≤ v.levels := by
  induction v using rec_tree generalizing w with
  | scalar v hv =>
    cases h with
    | scalar => exact le_refl _
    | _ => exact hv.elim
  | list mark vs ih =>
    cases h with
    | scalar h => exact h.elim
    | @list _ _ _ ws h =>
      rw [levels, levels]
      refine Nat.add_le_add_left (levelsItems_le.2 fun x hx => ?_) 1
      obtain ⟨y, hy, hyx⟩ := Listing.mem_of_forall₂ h hx
      exact (ih y hy hyx).trans (levels_le_items y hy)
  | map mark es ih =>
    cases h with
    | scalar h => exact h.elim
    | map hkeys hvalues hperm =>
      rw [levels, levels]
      refine Nat.add_le_add_left (levelsEntries_le.2 fun f hf => ?_) 1
      obtain ⟨e, he, hef⟩ := Listing.mem_of_forall₂ (sameEntry_iff.2 ⟨hkeys, hvalues⟩) (hperm.mem_iff.2 hf)
      exact (ih e he hef.2).trans (levels_le_entries e he)

/-- settings of the ordinary kind, whose entries can be set -/
structure Plain (v : Value) : Prop where
  setting : IsSetting v
  shallow : v.levels < 40
  sectioned : Sectioned v

theorem Plain.aliasFree (h : Plain v) : v.AliasFree := by
  rw [AliasFree, marks_setting h.setting]
  exact List.nodup_nil

/-- a place whose stack is deep enough to read ordinary settings -/
def DeepEnough (p : Place) : Prop := ∀ v, Plain v → p.runtime.reads (dump v) = true

theorem Plain.restores (h : Plain v) (hdeep : DeepEnough p) (hwrites : p.runtime.writes v = true) : Restores p v := by
  have hmap := h.sectioned.isMap
  have hshallow := h.shallow
  have hreads := hdeep v h
  cases h.setting with
  | map hkeys hvalues hnodup => exact restores_of_setting (.map hkeys hvalues hnodup) hshallow hwrites hreads
  | _ => exact hmap.elim

theorem assign_texts (key : Text) (x : Value) (es : List (Text × Value)) :
    ∃ fs, assign (.text key) x (texts es) = texts fs ∧ (fs.map Prod.fst = es.map Prod.fst ∨
      key ∉ es.map Prod.fst ∧ fs.map Prod.fst = es.map Prod.fst ++ [key]) ∧ ∀ f ∈ fs, f ∈ es ∨ f = (key, x) := by
  induction es with
  | nil => exact ⟨[(key, x)], rfl, Or.inr ⟨List.not_mem_nil, rfl⟩, fun f hf => Or.inr (List.mem_singleton.1 hf)⟩
  | cons e es ih =>
    rw [texts_cons, assign, same_text]
    by_cases hkey : e.1 = key
    · refine ⟨(key, x) :: es, by rw [if_pos (decide_eq_true hkey), hkey]; rfl, Or.inl (by rw [← hkey]; rfl), fun f hf => ?_⟩
      rcases List.mem_cons.1 hf with rfl | hf
      · exact Or.inr rfl
      · exact Or.inl (List.mem_cons_of_mem _ hf)
    · obtain ⟨fs, hfs, hnames, hmem⟩ := ih
      refine ⟨e :: fs, by rw [if_neg (by simpa using hkey), hfs]; rfl, ?_, fun f hf => ?_⟩
      · rcases hnames with hnames | ⟨hnew, hnames⟩
        · exact Or.inl (by rw [List.map_cons, hnames]; rfl)
        · exact Or.inr ⟨fun hmem => (List.mem_cons.1 hmem).elim (fun h => hkey h.symm) hnew,
            by rw [List.map_cons, hnames]; rfl⟩
      · rcases List.mem_cons.1 hf with rfl | hf
        · exact Or.inl List.mem_cons_self
        · exact (hmem f hf).imp_left (List.mem_cons_of_mem _)

/-- an entry of a mapping with short names is set -/
theorem isSetting_set {key : Text} (hv : IsSetting v) (hkey : IsKey key) (hw : IsSetting w) : IsSetting (v.set key w) := by
  cases hv with
  | @map es hkeys hvalues hnodup =>
    obtain ⟨fs, hfs, hnames, hmem⟩ := assign_texts key w es
    rw [Value.set, hfs]
    refine .map (fun f hf => ?_) (fun f hf => ?_) ?_
    · rcases hmem f hf with hf | rfl
      · exact hkeys f hf
      · exact hkey
    · rcases hmem f hf with hf | rfl
      · exact hvalues f hf
      · exact hw
    · rcases hnames with hnames | ⟨hnew, hnames⟩
      · rwa [hnames]
      · rw [hnames]
        refine List.nodup_append.2 ⟨hnodup, List.nodup_singleton _, fun a ha b hb hab => hnew ?_⟩
        rwa [← List.mem_singleton.1 hb, ← hab]
  | null => exact .null
  | bool b => exact .bool b
  | text t => exact .text t
  | list h => exact .list h

theorem isSetting_get? {key : Text} (hv : IsSetting v) (hget : v.get? key = some w) : IsSetting w := by
  cases hv with
  | map hkeys hvalues hnodup =>
    obtain ⟨k, x, hmem, heq⟩ := mem_texts (mem_of_lookup hget)
    obtain ⟨-, rfl⟩ := Prod.mk.inj heq
    exact hvalues _ hmem
  | _ => cases hget

theorem levels_set {key : Text} : (v.set key w).levels ≤ max v.levels (1 + w.levels) := by
  cases v with
  | map mark es =>
    rw [Value.set, levels, levels, Nat.add_max_add_left]
    refine Nat.add_le_add_left (levelsEntries_le.2 fun e he => ?_) 1
    rcases mem_assign he with he | he
    · exact (levels_le_entries e he).trans (le_max_left _ _)
    · rw [he]
      exact le_max_right _ _
  | _ => exact le_max_left _ _

theorem isSetting_defaultsOf (h : IsSetting v) : IsSetting (defaultsOf v) := by
  unfold defaultsOf
  cases hs : v.get? defaultSection with
  | none => exact @IsSetting.map [] (fun e he => absurd he List.not_mem_nil) (fun e he => absurd he List.not_mem_nil) List.nodup_nil
  | some s => exact isSetting_get? h hs

theorem levels_defaultsOf (h : v.IsMap) : (defaultsOf v).levels ≤ max 1 (v.levels - 1) := by
  cases v with
  | map mark es =>
    rw [defaultsOf, get?]
    cases hs : lookup defaultSection es with
    | none => exact le_max_left _ _
    | some s =>
      have hle := levels_le_entries _ (mem_of_lookup hs)
      rw [levels]
      simp only [Option.getD_some] at hle ⊢
      omega
  | _ => exact h.elim

/-- ordinary settings stay so when an entry is set -/
theorem Plain.put (h : Plain v) {key value : Text} (hkey : IsKey key) : Plain (put key value v) := by
  have hsection : IsKey defaultSection := ⟨by decide, by decide, by decide⟩
  refine ⟨isSetting_set h.setting hsection (isSetting_set (isSetting_defaultsOf h.setting) hkey (.text value)), ?_,
    h.sectioned.put⟩
  have hshallow := h.shallow
  have hdefaults := levels_defaultsOf h.sectioned.isMap
  have hinner : ((defaultsOf v).set key (.text value)).levels ≤ max (defaultsOf v).levels (1 + 0) := levels_set
  have houter : (Settings.put key value v).levels ≤ max v.levels (1 + ((defaultsOf v).set key (.text value)).levels) := levels_set
  omega

/-- ordinary settings stay so when they are saved and loaded -/
theorem Plain.reload (h : Plain u) (hsame : w.SameTree u) (hw : held p (saved u d) = .ok w) : Plain w := by
  have hmap := h.sectioned.isMap
  have hformed : u.Formed 0 := formed_setting h.setting
  refine ⟨?_, (levels_le_of_same hsame.symm).trans_lt h.shallow, sectioned_of_same hsame h.sectioned hformed.named⟩
  cases h.setting with
  | @map es hkeys hvalues hnodup =>
    have hsetting : IsSetting (.map none (texts es)) := .map hkeys hvalues hnodup
    rw [held_saved hsetting] at hw
    split_ifs at hw
    rw [← Except.ok.inj hw]
    exact isSetting_reread (arranged_setting hsetting)
  | _ => exact hmap.elim

/-! ## Runs -/

def runAll (p : Place) : List SetCommand → Job Unit
  | [] => pure ()
  | c :: cs => do
    c.job p
    runAll p cs

/-- settings that one of the commands of a run saves -/
inductive Saves (p : Place) : Desk → List SetCommand → Value → Prop where
  | here {d : Desk} {c : SetCommand} {cs : List SetCommand} {value : Text} {v u : Value} (hvalue : c.value? p = some value)
    (hheld : held p d = .ok v) (hset : withDefault c.key (.text value) v = .ok u) (hwrite : Writable p u) : Saves p d (c :: cs) u
  | later {d d' : Desk} {c : SetCommand} {cs : List SetCommand} {u : Value} (hrun : (c.job p).runOn d = (.ok (), d'))
    (h : Saves p d' cs u) : Saves p d (c :: cs) u

/-- all that is saved in a run can be loaded as the same tree -/
def Restored (p : Place) (d : Desk) (cs : List SetCommand) : Prop := ∀ u, Saves p d cs u → Restores p u

theorem isKey_key (c : SetCommand) : IsKey c.key := by
  cases c with
  | repo t => exact (⟨by decide, by decide, by decide⟩ : IsKey repoKey)
  | mainline branch => exact (⟨by decide, by decide, by decide⟩ : IsKey mainlineKey)

/-- **All that a run saves can be loaded**, if the settings before it are ordinary: by induction on the run, since each command
leaves ordinary settings behind. -/
theorem Plain.restored (h : Plain v) (hdeep : DeepEnough p) (hheld : held p d = .ok v) : Restored p d cs := by
  intro u hu
  induction hu generalizing v with
  | @here d c cs value v' u hvalue hheld' hset hwrite =>
    obtain rfl : v' = v := Except.ok.inj (hheld'.symm.trans hheld)
    have hput := withDefault_eq_put c.key value h.sectioned h.aliasFree
    obtain rfl : u = _ := Except.ok.inj (hset.symm.trans hput)
    exact (h.put (isKey_key c)).restores hdeep hwrite.stack
  | @later d d' c cs u hrun _ ih =>
    obtain ⟨value, v', u', t, -, -, hheld', hset, hwrite, rfl⟩ := SetCommand.run_ok hrun
    obtain rfl : v' = v := Except.ok.inj (hheld'.symm.trans hheld)
    have hput := withDefault_eq_put c.key value h.sectioned h.aliasFree
    obtain rfl : u' = _ := Except.ok.inj (hset.symm.trans hput)
    obtain ⟨w, hw, hsame, -⟩ := ((h.put (isKey_key c)).restores hdeep hwrite.stack).held d
    exact ih ((h.put (isKey_key c)).reload hsame hw) hw

theorem plain_initial : Plain initial := by
  refine ⟨isSetting_initial, by decide, trivial, fun s hs => ?_⟩
  have hfound : initial.get? defaultSection = some _ := rfl
  rw [hfound] at hs
  rw [← Option.some.inj hs]
  trivial

/-- **Where there was no settings file**, all that a run saves can be loaded. -/
theorem restored_absent (hdeep : DeepEnough p) (h : d.settings = none) : Restored p d cs :=
  plain_initial.restored hdeep (by rw [held, h])

end RepoLens.Settings
