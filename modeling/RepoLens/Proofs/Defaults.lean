import Mathlib.Tactic
import RepoLens.Proofs.Opening
import RepoLens.Proofs.Yaml.Formed
import RepoLens.Proofs.Yaml.Values
/-!
One entry of the section of defaults is set. The section is made where it is missing, and it is changed wherever it stands; in
settings without aliases that is one place. Loaded settings have each name once, so what stands under a name does not depend on
the order in which settings are written.

Results:
- `held_formed`: loaded settings have each name once;
- `withDefault_eq_put`: in settings without aliases, the entry is set in its section and nothing else changes;
- `withDefault_section`: with aliases too, the section is what it was with the entry set;
- `put_put`, `put_comm`, `sameTree_put`: an entry that is set twice, two that are set in another order, and one that is set in
  the same tree;
- `valueAt_put`, `sameTree_valueAt`: what can be read afterwards.
-/
namespace RepoLens.Settings

open Value

variable {v w u : Value} {key other value : Text} {p : Place} {d : Desk}

/-! ## Loaded settings -/

theorem namesOnce_texts {es : List (Text × Value)} (h : (es.map Prod.fst).Nodup) : NamesOnce (texts es) := by
  rw [NamesOnce, texts, List.map_map, List.pairwise_map]
  refine (List.pairwise_map.1 h).imp fun hne t ht ht' => hne ?_
  rw [Value.text.inj ht, Value.text.inj ht']

theorem formed_setting {least : Nat} (h : Yaml.IsSetting v) : v.Formed least := by
  induction h with
  | null => exact .scalar trivial
  | bool => exact .scalar trivial
  | text => exact .scalar trivial
  | list _ ih => exact .list (fun n hn => nomatch hn) ih
  | map _ _ hnodup ih =>
    refine .map (fun n hn => nomatch hn) (namesOnce_texts hnodup) fun e he => ?_
    obtain ⟨k, v, hmem, rfl⟩ := mem_texts he
    exact ih (k, v) hmem

theorem isSetting_initial : Yaml.IsSetting initial := by
  have hdefaults : Yaml.IsSetting (.map none (texts [("repo_path", .null), ("mainline_branch", .text mainlineDefault),
      ("remote", .text remoteDefault), ("git_binary", .text binaryDefault)])) := by
    refine .map ?_ ?_ (by decide)
    · simp only [List.forall_mem_cons, List.not_mem_nil, false_implies, implies_true, and_true]
      exact ⟨⟨by decide, by decide, by decide⟩, ⟨by decide, by decide, by decide⟩, ⟨by decide, by decide, by decide⟩,
        ⟨by decide, by decide, by decide⟩⟩
    · simp only [List.forall_mem_cons, List.not_mem_nil, false_implies, implies_true, and_true]
      exact ⟨.null, .text _, .text _, .text _⟩
  have hpreferences : Yaml.IsSetting (.map none (texts [("default_format", .text "table")])) := by
    refine .map ?_ ?_ (by decide)
    · simp only [List.forall_mem_cons, List.not_mem_nil, false_implies, implies_true, and_true]
      exact ⟨by decide, by decide, by decide⟩
    · simp only [List.forall_mem_cons, List.not_mem_nil, false_implies, implies_true, and_true]
      exact .text _
  refine @Yaml.IsSetting.map [(defaultSection, _), (preferenceSection, _)] ?_ ?_ (by decide)
  · simp only [List.forall_mem_cons, List.not_mem_nil, false_implies, implies_true, and_true]
    exact ⟨⟨by decide, by decide, by decide⟩, ⟨by decide, by decide, by decide⟩⟩
  · simp only [List.forall_mem_cons, List.not_mem_nil, false_implies, implies_true, and_true]
    exact ⟨hdefaults, hpreferences⟩

/-- loaded settings have each name once, and a mark that no value in them has -/
theorem held_formed (h : held p d = .ok v) : v.Formed 0 ∧ v.OwnMark := by
  unfold held at h
  split at h
  · obtain rfl := Except.ok.inj h
    exact ⟨formed_setting isSetting_initial, fun e he n hn hmark => nomatch hmark⟩
  · rename_i t _
    split_ifs at h
    cases hload : Yaml.load t.unifyNewlines with
    | error f => rw [hload] at h; cases h
    | ok x =>
      rw [hload] at h
      obtain rfl := Except.ok.inj h
      simp only
      split_ifs
      · exact ⟨.map (fun n hn => nomatch hn) List.Pairwise.nil fun e he => absurd he List.not_mem_nil,
          fun e he => absurd he List.not_mem_nil⟩
      · exact Yaml.load_formed hload

/-! ## Setting an entry -/

/-- the section of defaults; one that is not there is empty -/
def defaultsOf (v : Value) : Value := (v.get? defaultSection).getD (.map none [])

/-- settings with an entry of the section of defaults set, the section made where it is missing -/
def put (key value : Text) (v : Value) : Value := v.set defaultSection ((defaultsOf v).set key (.text value))

/-- settings whose entries can be set: a mapping in which the section of defaults, if it is there, is one too -/
structure Sectioned (v : Value) : Prop where
  isMap : v.IsMap
  defaults : ∀ s, v.get? defaultSection = some s → s.IsMap

theorem Sectioned.isMap_defaultsOf (h : Sectioned v) : (defaultsOf v).IsMap := by
  unfold defaultsOf
  cases hs : v.get? defaultSection with
  | none => trivial
  | some s => exact h.defaults s hs

theorem defaultsOf_put (h : Sectioned v) : defaultsOf (put key value v) = (defaultsOf v).set key (.text value) := by
  rw [defaultsOf, put, get?_set h.isMap, if_pos rfl]
  rfl

theorem Sectioned.put (h : Sectioned v) : Sectioned (put key value v) := by
  refine ⟨h.isMap.set, fun s hs => ?_⟩
  rw [Settings.put, get?_set h.isMap, if_pos rfl] at hs
  rw [← Option.some.inj hs]
  exact h.isMap_defaultsOf.set

theorem marks_put (v : Value) : (put key value v).marks.Sublist v.marks := by
  have hempty : (Value.text value).marks = [] := rfl
  refine marks_set ?_
  unfold defaultsOf
  cases v.get? defaultSection with
  | none => exact List.Sublist.refl []
  | some s => exact marks_set (hempty ▸ List.nil_sublist _)

/-- how an entry is set: in its own place, or at every place where the section of defaults stands -/
theorem withDefault_cases (key value : Text) (h : Sectioned v) (hown : v.OwnMark) :
    withDefault key (.text value) v = .ok (put key value v) ∨
      ∃ mark es n fs, v = .map mark es ∧ lookup defaultSection es = some (.map (some n) fs) ∧
        withDefault key (.text value) v =
          .ok (.map mark (replaceMarkedEntries n (.map (some n) (assign (.text key) (.text value) fs)) es)) := by
  cases v with
  | map mark es =>
    rw [withDefault, put, defaultsOf, get?, Value.set]
    cases hs : lookup defaultSection es with
    | none => exact Or.inl rfl
    | some s =>
      cases s with
      | map mark' fs =>
        cases mark' with
        | none => exact Or.inl rfl
        | some n =>
          have hne : mark ≠ some n := hown _ (mem_of_lookup hs) n rfl
          exact Or.inr ⟨mark, es, n, fs, rfl, hs, by simp only [replaceMarked, if_neg hne]; rfl⟩
      | _ => exact (h.defaults _ hs).elim
  | _ => exact h.isMap.elim

theorem mem_marks_of_mark? {n : Nat} (h : n ∈ v.mark?) : n ∈ v.marks := by
  cases v with
  | list mark => exact List.mem_append_left _ (Option.mem_toList.2 h)
  | map mark => exact List.mem_append_left _ (Option.mem_toList.2 h)
  | _ => cases h

theorem AliasFree.ownMark (h : v.AliasFree) : v.OwnMark := by
  cases v with
  | map mark es =>
    obtain ⟨-, -, hdisjoint⟩ := List.nodup_append.1 h
    intro e he n hn hmark
    have hmem : n ∈ marksEntries es := mem_marksEntries.2 ⟨e, he, mem_marks_of_mark? hn⟩
    exact hdisjoint n (by rw [hmark]; exact List.mem_cons_self) n hmem rfl
  | _ => trivial

/-- **In settings without aliases an entry is set in its own place**, and nothing else changes. -/
theorem withDefault_eq_put (key value : Text) (h : Sectioned v) (hfree : v.AliasFree) :
    withDefault key (.text value) v = .ok (put key value v) := by
  rcases withDefault_cases key value h (AliasFree.ownMark hfree) with heq | ⟨mark, es, n, fs, rfl, hs, heq⟩
  · exact heq
  · obtain ⟨-, hentries, -⟩ := List.nodup_append.1 hfree
    have hmark : n ∈ (Value.map (some n) fs).marks := mem_marks_of_mark? rfl
    have hnew : replaceMarked n (.map (some n) (assign (.text key) (.text value) fs)) (.map (some n) fs) =
        .map (some n) (assign (.text key) (.text value) fs) := if_pos rfl
    rw [heq, replaceMarkedEntries_assign hentries hs hmark hnew, put, defaultsOf, get?, hs]
    rfl

/-- **The section of defaults gets the entry**, also in settings with aliases. -/
theorem withDefault_section (key value : Text) (h : Sectioned v) (hown : v.OwnMark) :
    ∃ u, withDefault key (.text value) v = .ok u ∧ Sectioned u ∧ defaultsOf u = (defaultsOf v).set key (.text value) := by
  rcases withDefault_cases key value h hown with heq | ⟨mark, es, n, fs, rfl, hs, heq⟩
  · exact ⟨_, heq, h.put, defaultsOf_put h⟩
  · refine ⟨_, heq, ?_⟩
    have hlookup : (Value.map mark (replaceMarkedEntries n (.map (some n) (assign (.text key) (.text value) fs)) es)).get?
        defaultSection = some (.map (some n) (assign (.text key) (.text value) fs)) := by
      rw [get?, lookup_replaceMarkedEntries, hs]
      exact congrArg some (if_pos rfl)
    refine ⟨⟨trivial, fun s hs' => ?_⟩, ?_⟩
    · rw [hlookup] at hs'
      rw [← Option.some.inj hs']
      trivial
    · rw [defaultsOf, hlookup, defaultsOf, get?, hs]
      rfl

/-! ## Setting again, and in another order -/

/-- the later value of an entry counts -/
theorem put_put {before : Text} (h : Sectioned v) : put key value (put key before v) = put key value v := by
  rw [put, defaultsOf_put h, set_set, put, set_set, put]

theorem formed_defaultsOf {least : Nat} (h : v.Formed least) : (defaultsOf v).Formed least := by
  unfold defaultsOf
  cases hs : v.get? defaultSection with
  | none => exact .map (fun n hn => nomatch hn) List.Pairwise.nil fun e he => absurd he List.not_mem_nil
  | some s => exact h.get? hs

theorem formed_put {least : Nat} (h : v.Formed least) : (put key value v).Formed least :=
  h.set ((formed_defaultsOf h).set (.scalar trivial))

/-- entries under different names are set in either order -/
theorem put_comm {x y : Text} (h : Sectioned v) (hnamed : v.Named) (hne : key ≠ other) :
    (put key x (put other y v)).SameTree (put other y (put key x v)) := by
  rw [put, defaultsOf_put h, put, set_set, put, defaultsOf_put h, put, set_set]
  exact (SameTree.refl v).set hnamed (set_comm hne) defaultSection

theorem sameTree_getD {x y : Option Value} {z : Value} (h : Option.Rel SameTree x y) : (x.getD z).SameTree (y.getD z) := by
  cases h with
  | none => exact .refl z
  | some h => exact h

theorem sameTree_defaultsOf (h : v.SameTree w) (hw : w.Named) : (defaultsOf v).SameTree (defaultsOf w) :=
  sameTree_getD (h.get? hw defaultSection)

/-- an entry is set alike in the same tree -/
theorem sameTree_put {least : Nat} (h : v.SameTree w) (hw : w.Formed least) (key value : Text) :
    (put key value v).SameTree (put key value w) :=
  h.set hw.named ((sameTree_defaultsOf h hw.named).set (formed_defaultsOf hw).named (.refl _) key) defaultSection

theorem sectioned_of_same (h : v.SameTree w) (hw : Sectioned w) (hnamed : w.Named) : Sectioned v := by
  refine ⟨h.isMap hw.isMap, fun s hs => ?_⟩
  have hget := h.get? hnamed defaultSection
  rw [hs] at hget
  generalize hother : w.get? defaultSection = other at hget
  cases hget with
  | some hsame => exact hsame.isMap (hw.defaults _ hother)

/-! ## Reading an entry -/

/-- what stands under a name in a section, null if there is nothing -/
def valueAt (name key : Text) (v : Value) : Value := ((v.get? name).bind fun s => s.get? key).getD .null

/-- reading an entry gives what stands there -/
theorem runOn_entry (hheld : held p d = .ok v) (hv : v.IsMap) (name key : Text) :
    (entry p name key).runOn d = (.ok (valueAt name key v), d.made) := by
  cases v with
  | map mark es =>
    have hload : (load p).runOn d = (.ok (.map mark es), d.made) := by rw [runOn_load, hheld]
    rw [entry, Job.runOn_bind_ok hload, Job.runOn_bind, Job.runOn_ofExcept, part, valueAt, get?]
    cases lookup name es <;> rfl
  | _ => exact hv.elim

theorem valueAt_put (h : Sectioned v) (name k : Text) :
    valueAt name k (put key value v) = if name = defaultSection ∧ k = key then .text value else valueAt name k v := by
  rw [valueAt, put, get?_set h.isMap]
  by_cases hname : name = defaultSection
  · rw [if_pos hname, Option.bind_some, get?_set h.isMap_defaultsOf]
    by_cases hk : k = key
    · rw [if_pos hk, if_pos ⟨hname, hk⟩]
      rfl
    · rw [if_neg hk, if_neg fun hboth => hk hboth.2, valueAt, hname, defaultsOf]
      cases v.get? defaultSection <;> rfl
  · rw [if_neg hname, if_neg fun hboth => hname hboth.1, valueAt]

/-- what stands in a section is the same in the same tree -/
theorem sameTree_valueAt {least : Nat} (h : v.SameTree w) (hw : w.Formed least) (name key : Text) :
    (valueAt name key v).SameTree (valueAt name key w) := by
  refine sameTree_getD ?_
  have hget := h.get? hw.named name
  generalize hv' : v.get? name = x at hget
  generalize hw' : w.get? name = y at hget
  cases hget with
  | none => exact .none
  | some hsame => exact hsame.get? (hw.get? hw').named key

theorem sameTree_orElse (h : v.SameTree w) (t : Text) : (orElse v t).SameTree (orElse w t) := by
  rw [orElse, orElse, h.isNothing_eq]
  split_ifs
  · exact .refl _
  · exact h

end RepoLens.Settings
