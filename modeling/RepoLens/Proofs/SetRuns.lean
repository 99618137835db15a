import Mathlib.Tactic
import RepoLens.Proofs.Restores
/-!
Runs of commands that set something. Every command writes the settings anew from what it has read, so nothing that was there
may get lost on the way, however many commands run. It is taken for granted here that settings that are saved can be loaded as
the same tree; `restores_of_setting` gives that for settings of the ordinary kind.

Results:
- `Editable.step`: one command sets its entry in the settings as they were loaded before;
- `Editable.run`: a run does so with one command after the other;
- `applyAll_same`: of a run, only the last value of each entry counts;
- `set_commands_replace`: settings after a run are the ones before, with the last branch and the last repository in place.
-/
namespace RepoLens.Settings

open Value Job Yaml

variable {p : Place} {d d' : Desk} {v w : Value} {c : SetCommand} {cs : List SetCommand}

/-- a desk with settings that can be edited: no file, a document that counts as nothing, or a mapping without aliases in which
the section of defaults, if it is there, is a mapping too -/
structure Editable (p : Place) (d : Desk) (v : Value) : Prop where
  held_eq : held p d = .ok v
  aliasFree : v.AliasFree
  sectioned : Sectioned v

/-- where there is no file, the settings are the initial ones -/
theorem editable_absent (h : d.settings = none) : Editable p d initial :=
  ⟨by rw [held, h], plain_initial.aliasFree, plain_initial.sectioned⟩

/-- a document that counts as nothing stands for empty settings -/
theorem editable_nothing {t : Text} (h : d.settings = some t) (hload : Yaml.load t.unifyNewlines = .ok v)
    (hreads : p.runtime.reads t = true) (hv : v.isNothing = true) : Editable p d (.map none []) := by
  refine ⟨?_, List.nodup_nil, trivial, fun s hs => (nomatch hs)⟩
  simp only [held, h, hreads, hload, Except.mapError, Except.map, if_pos hv, if_true]

/-- a document without aliases whose section of defaults is a mapping, if it is there -/
theorem editable_document {t : Text} (h : d.settings = some t) (hload : Yaml.load t.unifyNewlines = .ok v)
    (hreads : p.runtime.reads t = true) (hv : v.isNothing = false) (hfree : v.AliasFree) (hs : Sectioned v) : Editable p d v := by
  refine ⟨?_, hfree, hs⟩
  simp only [held, h, hreads, hload, Except.mapError, Except.map, hv, if_true]
  rfl

/-- the settings after a command, as they should be -/
def SetCommand.apply (p : Place) (v : Value) (c : SetCommand) : Value :=
  match c.value? p with
  | some value => put c.key value v
  | none => v

def applyAll (p : Place) (cs : List SetCommand) (v : Value) : Value := cs.foldl (SetCommand.apply p) v

/-- **One command** sets its entry in the settings that it has loaded. -/
theorem Editable.step (h : Editable p d v) (hrestored : Restored p d (c :: cs)) (hrun : (c.job p).runOn d = (.ok (), d')) :
    ∃ w, Editable p d' w ∧ w.SameTree (c.apply p v) ∧ (c.value? p).isSome := by
  obtain ⟨value, v', u, t, hvalue, -, hheld, hset, hwrite, rfl⟩ := SetCommand.run_ok hrun
  obtain rfl : v' = v := Except.ok.inj (hheld.symm.trans h.held_eq)
  have hput := withDefault_eq_put c.key value h.sectioned h.aliasFree
  have hu : u = put c.key value v' := Except.ok.inj (hset.symm.trans hput)
  obtain ⟨w, hw, hsame, hfree⟩ := (hrestored u (.here hvalue hheld hset hwrite)).held d
  have hformed : (put c.key value v').Formed 0 := formed_put (held_formed h.held_eq).1
  rw [hu] at hsame hfree
  refine ⟨w, ⟨hw, hfree ?_, sectioned_of_same hsame h.sectioned.put hformed.named⟩, ?_, by rw [hvalue]; rfl⟩
  · exact (marks_put v').nodup h.aliasFree
  · rw [SetCommand.apply, hvalue]
    exact hsame

theorem formed_apply {least : Nat} (h : v.Formed least) (p : Place) (c : SetCommand) : (c.apply p v).Formed least := by
  unfold SetCommand.apply
  split
  · exact formed_put h
  · exact h

theorem sameTree_applyAll {least : Nat} (h : v.SameTree w) (hw : w.Formed least) (p : Place) (cs : List SetCommand) :
    (applyAll p cs v).SameTree (applyAll p cs w) := by
  induction cs generalizing v w with
  | nil => exact h
  | cons c cs ih =>
    refine ih ?_ (formed_apply hw p c)
    unfold SetCommand.apply
    split
    · exact sameTree_put h hw _ _
    · exact h

/-- **A run of commands** does to the settings what its commands do one after the other. -/
theorem Editable.run (h : Editable p d v) (hrestored : Restored p d cs) (hrun : (runAll p cs).runOn d = (.ok (), d')) :
    ∃ w, Editable p d' w ∧ w.SameTree (applyAll p cs v) ∧ ∀ c ∈ cs, (c.value? p).isSome := by
  induction cs generalizing d v with
  | nil =>
    obtain rfl := (Prod.mk.inj hrun).2
    exact ⟨v, h, .refl v, fun c hc => absurd hc List.not_mem_nil⟩
  | cons c cs ih =>
    obtain ⟨_, d₁, hfirst, hrest⟩ := runOn_bind_eq_ok hrun
    obtain ⟨w₁, h₁, hsame₁, hvalue⟩ := h.step hrestored hfirst
    obtain ⟨w, hw, hsame, hvalues⟩ := ih h₁ (fun u hu => hrestored u (.later hfirst hu)) hrest
    have hformed := formed_apply (held_formed h.held_eq).1 p c
    exact ⟨w, hw, hsame.trans (sameTree_applyAll hsame₁ hformed p cs), List.forall_mem_cons.2 ⟨hvalue, hvalues⟩⟩

/-! ## The last value -/

def last (p : Place) (key : Text) (cs : List SetCommand) : Option Text :=
  (cs.reverse.find? fun c => c.key = key).bind fun c => c.value? p

theorem last_append (p : Place) (key : Text) (cs : List SetCommand) (c : SetCommand) :
    last p key (cs ++ [c]) = if c.key = key then c.value? p else last p key cs := by
  rw [last, List.reverse_append, List.reverse_singleton, List.singleton_append, List.find?_cons]
  by_cases h : c.key = key
  · simp [h]
  · simp [h, last]

/-- commands that set different entries do so in either order -/
theorem last_comm {c₁ c₂ : SetCommand} (h : c₁.key ≠ c₂.key) (key : Text) (before : List SetCommand) :
    last p key (before ++ [c₁] ++ [c₂]) = last p key (before ++ [c₂] ++ [c₁]) := by
  simp only [last_append]
  split_ifs with h₁ h₂
  · exact absurd (h₂.trans h₁.symm) h
  · rfl
  · rfl
  · rfl

theorem last_repeat (key : Text) (before : List SetCommand) (c : SetCommand) :
    last p key (before ++ [c] ++ [c]) = last p key (before ++ [c]) := by
  simp only [last_append]
  split_ifs <;> rfl

/-- settings with an entry set, if there is a value for it -/
def putSome (key : Text) (value : Option Text) (v : Value) : Value :=
  match value with
  | some t => put key t v
  | none => v

/-- settings with another repository and another mainline branch, as far as there are any -/
def replaced (repo mainline : Option Text) (v : Value) : Value :=
  putSome repoKey repo (putSome mainlineKey mainline v)

section PutSome

variable {key other t : Text} {value : Option Text}

theorem formed_putSome {least : Nat} (h : v.Formed least) : (putSome key value v).Formed least := by
  cases value with
  | none => exact h
  | some t => exact formed_put h

theorem sectioned_putSome (h : Sectioned v) : Sectioned (putSome key value v) := by
  cases value with
  | none => exact h
  | some t => exact h.put

theorem put_putSome (h : Sectioned v) : put key t (putSome key value v) = put key t v := by
  cases value with
  | none => rfl
  | some before => exact put_put h

theorem put_putSome_comm (h : Sectioned v) (hnamed : v.Named) (hne : key ≠ other) :
    (put key t (putSome other value v)).SameTree (putSome other value (put key t v)) := by
  cases value with
  | none => exact .refl _
  | some x => exact put_comm h hnamed hne

theorem valueAt_putSome (h : Sectioned v) (name k : Text) : valueAt name k (putSome key value v) =
    if name = defaultSection ∧ k = key then (value.map Value.text).getD (valueAt name k v) else valueAt name k v := by
  cases value with
  | none => exact (ite_self _).symm
  | some t => exact valueAt_put h name k

end PutSome

theorem formed_replaced {least : Nat} {repo mainline : Option Text} (h : v.Formed least) :
    (replaced repo mainline v).Formed least := formed_putSome (formed_putSome h)

/-- **Of a run only the last value of each entry counts.** By induction on the run from its end: the command that comes last
takes the place of the value that its entry had, and changes places with the other entry. -/
theorem applyAll_same {least : Nat} (hs : Sectioned v) (hv : v.Formed least) (hvalues : ∀ c ∈ cs, (c.value? p).isSome) :
    (applyAll p cs v).SameTree (replaced (last p repoKey cs) (last p mainlineKey cs) v) := by
  induction cs using List.reverseRecOn with
  | nil => exact .refl v
  | append_singleton cs c ih =>
    have hbefore := ih fun c hc => hvalues c (List.mem_append_left _ hc)
    obtain ⟨value, hvalue⟩ := Option.isSome_iff_exists.1 (hvalues c (List.mem_append_right _ List.mem_cons_self))
    have happly : applyAll p (cs ++ [c]) v = put c.key value (applyAll p cs v) := by
      rw [applyAll, List.foldl_append, List.foldl_cons, List.foldl_nil, SetCommand.apply, hvalue]
      rfl
    rw [happly, last_append, last_append, hvalue]
    refine (sameTree_put hbefore (formed_replaced hv) c.key value).trans ?_
    cases c with
    | repo t =>
      rw [SetCommand.key, if_pos rfl, if_neg mainlineKey_ne.symm, replaced, replaced]
      exact (put_putSome (sectioned_putSome hs)) ▸ .refl _
    | mainline branch =>
      rw [SetCommand.key, if_neg mainlineKey_ne, if_pos rfl, replaced, replaced]
      have hswap : (put mainlineKey value (putSome repoKey (last p repoKey cs)
          (putSome mainlineKey (last p mainlineKey cs) v))).SameTree
          (putSome repoKey (last p repoKey cs) (put mainlineKey value (putSome mainlineKey (last p mainlineKey cs) v))) :=
        put_putSome_comm (sectioned_putSome hs) (formed_putSome hv).named mainlineKey_ne
      rw [put_putSome hs] at hswap
      exact hswap

/-! ## What is read after a run -/

/-- a job that gives the same tree on two desks -/
def Agree (job : Job Value) (d d' : Desk) : Prop :=
  ∃ x y, (job.runOn d).1 = .ok x ∧ (job.runOn d').1 = .ok y ∧ y.SameTree x

theorem runOn_orElse (hheld : held p d = .ok v) (hv : v.IsMap) (name key t : Text) :
    (do pure (orElse (← entry p name key) t) : Job Value).runOn d = (.ok (orElse (valueAt name key v) t), d.made) := by
  rw [runOn_bind_ok (runOn_entry hheld hv name key)]
  rfl

def textOf? : Value → Option Text
  | .text t => some t
  | _ => none

theorem textOf?_same (h : v.SameTree w) : textOf? v = textOf? w := by
  cases h <;> rfl

theorem runOn_repoPath (hheld : held p d = .ok v) (hv : v.IsMap) :
    (repoPath p).runOn d = (.ok (textOf? (valueAt defaultSection repoKey v)), d.made) := by
  have hentry : (entry p defaultSection "repo_path").runOn d = (.ok (valueAt defaultSection repoKey v), d.made) :=
    runOn_entry hheld hv defaultSection repoKey
  rw [repoPath, runOn_bind_ok hentry]
  cases valueAt defaultSection repoKey v <;> rfl

/-- settings after a run, in terms of the last values -/
theorem Editable.run_last (h : Editable p d v) (hrestored : Restored p d cs) (hrun : (runAll p cs).runOn d = (.ok (), d')) :
    ∃ w, Editable p d' w ∧ w.SameTree (replaced (last p repoKey cs) (last p mainlineKey cs) v) := by
  obtain ⟨w, hw, hsame, hvalues⟩ := h.run hrestored hrun
  exact ⟨w, hw, hsame.trans (applyAll_same h.sectioned (held_formed h.held_eq).1 hvalues)⟩

/-- runs that set the same values last end with the same settings -/
theorem runs_agree {cs' : List SetCommand} {d'' : Desk} (h : Editable p d v) (hrestored : Restored p d cs)
    (hrun : (runAll p cs).runOn d = (.ok (), d')) (hrestored' : Restored p d cs')
    (hrun' : (runAll p cs').runOn d = (.ok (), d'')) (hlast : ∀ key, last p key cs' = last p key cs) :
    Agree (load p) d' d'' := by
  obtain ⟨w, hw, hsame⟩ := h.run_last hrestored hrun
  obtain ⟨w', hw', hsame'⟩ := h.run_last hrestored' hrun'
  rw [hlast, hlast] at hsame'
  exact ⟨w, w', by rw [runOn_load, hw.held_eq], by rw [runOn_load, hw'.held_eq], hsame'.trans hsame.symm⟩

/-- what a run leaves at a place of the settings -/
theorem Editable.run_valueAt (h : Editable p d v) (hw : w.SameTree (replaced (last p repoKey cs) (last p mainlineKey cs) v))
    (name key : Text) : (valueAt name key w).SameTree
      (if name = defaultSection ∧ key = repoKey then ((last p repoKey cs).map Value.text).getD (valueAt name key v)
      else if name = defaultSection ∧ key = mainlineKey then
        ((last p mainlineKey cs).map Value.text).getD (valueAt name key v)
      else valueAt name key v) := by
  have hformed := (held_formed h.held_eq).1
  have hvalue := sameTree_valueAt hw (formed_replaced hformed) name key
  rw [replaced, valueAt_putSome (sectioned_putSome h.sectioned), valueAt_putSome h.sectioned] at hvalue
  by_cases hrepo : name = defaultSection ∧ key = repoKey
  · have hmainline : ¬ (name = defaultSection ∧ key = mainlineKey) := fun hboth =>
      mainlineKey_ne (hboth.2.symm.trans hrepo.2)
    rw [if_pos hrepo, if_neg hmainline] at hvalue
    rwa [if_pos hrepo]
  · rwa [if_neg hrepo] at hvalue ⊢

/-- **Settings over any run of commands.** After commands that all end well, the settings are the ones before with the last
branch and the last repository in place, each only if any was set, and everything else is as it was. So the branch that is read
is the last one, unless it is empty, the repository that is read is the last one, and remote, git binary and format are read as
before. Commands that set different entries can change places, and one that is repeated changes nothing. -/
theorem set_commands_replace (p : Place) (cs : List SetCommand) (d d' : Desk) (v : Value) (h : Editable p d v)
    (hrestored : Restored p d cs) (hrun : (runAll p cs).runOn d = (.ok (), d')) :
    (∃ w, ((load p).runOn d').1 = .ok w ∧ w.SameTree (replaced (last p repoKey cs) (last p mainlineKey cs) v)) ∧
    (∀ b, last p mainlineKey cs = some b → b ≠ [] → ((mainline p).runOn d').1 = .ok (.text b)) ∧
    (last p mainlineKey cs = none → Agree (mainline p) d d') ∧
    (∀ t, last p repoKey cs = some t → ((repoPath p).runOn d').1 = .ok (some t)) ∧
    (last p repoKey cs = none → ((repoPath p).runOn d').1 = ((repoPath p).runOn d).1) ∧
    Agree (remote p) d d' ∧ Agree (binary p) d d' ∧ Agree (format p) d d' ∧
    (∀ before c₁ c₂ d'', cs = before ++ [c₁] ++ [c₂] → c₁.key ≠ c₂.key → Restored p d (before ++ [c₂] ++ [c₁]) →
      (runAll p (before ++ [c₂] ++ [c₁])).runOn d = (.ok (), d'') → Agree (load p) d' d'') ∧
    (∀ before c d'', cs = before ++ [c] → Restored p d (before ++ [c] ++ [c]) →
      (runAll p (before ++ [c] ++ [c])).runOn d = (.ok (), d'') → Agree (load p) d' d'') := by
  obtain ⟨w, hw, hsame⟩ := h.run_last hrestored hrun
  have hvalue := h.run_valueAt hsame
  have hrepo := hvalue defaultSection repoKey
  rw [if_pos ⟨rfl, rfl⟩] at hrepo
  have hmainline := hvalue defaultSection mainlineKey
  rw [if_neg fun hboth => mainlineKey_ne hboth.2, if_pos ⟨rfl, rfl⟩] at hmainline
  have hreads : ∀ d v, held p d = .ok v → v.IsMap → ((mainline p).runOn d).1 =
      .ok (orElse (valueAt defaultSection mainlineKey v) mainlineDefault) := fun d v hheld hv =>
    congrArg Prod.fst (runOn_orElse hheld hv defaultSection mainlineKey mainlineDefault)
  -- the entries that no command sets
  have hother : ∀ name key t, ¬ (name = defaultSection ∧ key = repoKey) → ¬ (name = defaultSection ∧ key = mainlineKey) →
      Agree (do pure (orElse (← entry p name key) t)) d d' := by
    intro name key t hrepo hmainline
    have hvalue := hvalue name key
    rw [if_neg hrepo, if_neg hmainline] at hvalue
    exact ⟨_, _, by rw [runOn_orElse h.held_eq h.sectioned.isMap],
      by rw [runOn_orElse hw.held_eq hw.sectioned.isMap], sameTree_orElse hvalue t⟩
  refine ⟨⟨w, by rw [runOn_load, hw.held_eq], hsame⟩, ?_, ?_, ?_, ?_, ?_, ?_, ?_, ?_, ?_⟩
  · intro b hb hne
    rw [hb] at hmainline
    rw [hreads d' w hw.held_eq hw.sectioned.isMap, hmainline.eq_text, orElse, if_neg]
    rwa [isNothing, List.isEmpty_iff]
  · intro hnone
    rw [hnone] at hmainline
    exact ⟨_, _, hreads d v h.held_eq h.sectioned.isMap, hreads d' w hw.held_eq hw.sectioned.isMap, sameTree_orElse hmainline _⟩
  · intro t ht
    rw [ht] at hrepo
    rw [runOn_repoPath hw.held_eq hw.sectioned.isMap, hrepo.eq_text]
    rfl
  · intro hnone
    rw [hnone] at hrepo
    rw [runOn_repoPath hw.held_eq hw.sectioned.isMap, runOn_repoPath h.held_eq h.sectioned.isMap, textOf?_same hrepo]
    rfl
  · exact hother defaultSection "remote" remoteDefault (by decide) (by decide)
  · exact hother defaultSection "git_binary" binaryDefault (by decide) (by decide)
  · exact hother preferenceSection "default_format" "table" (by decide) (by decide)
  · rintro before c₁ c₂ d'' rfl hne hrestored' hrun'
    exact runs_agree h hrestored hrun hrestored' hrun' fun key => (last_comm hne key before).symm
  · rintro before c d'' rfl hrestored' hrun'
    exact runs_agree h hrestored hrun hrestored' hrun' fun key => last_repeat key before c

/-- a branch and the repository in the working directory, set where there was no file -/
theorem set_commands_replace_fresh :
    let p : Place := .plain "/home/user" "/work" ["/work/.git"] 80
    let cs := [SetCommand.mainline "main", .repo "."]
    ∃ d', (runAll p cs).runOn (Desk.fresh none) = (.ok (), d') ∧ ((mainline p).runOn d').1 = .ok (.text "main") ∧
      ((repoPath p).runOn d').1 = .ok (some "/work".toList) ∧ Agree (remote p) (Desk.fresh none) d' := by
  intro p cs
  have hwritable : ∀ {u}, Plain u → Writable p u := fun h => ⟨rfl, numbersFit_of_setting h.setting⟩
  have hput : Plain (put _ "main" initial) := plain_initial.put (isKey_key (.mainline "main"))
  obtain ⟨t₁, hfirst⟩ := SetCommand.run_bracketless (p := p) (c := .mainline "main") (d := Desk.fresh none) rfl trivial rfl
    (withDefault_eq_put _ _ plain_initial.sectioned plain_initial.aliasFree) (hwritable hput) (by decide)
  have hrestored : Restored p (Desk.fresh none) cs := restored_absent (fun _ _ => rfl) rfl
  obtain ⟨w, hw, hsame, -⟩ := (editable_absent rfl).step hrestored hfirst
  have hplain : Plain w := hput.reload (d := Desk.fresh none) hsame hw.held_eq
  obtain ⟨t₂, hsecond⟩ := SetCommand.run_bracketless (rfl : (SetCommand.repo ".").value? p = some "/work".toList)
    ⟨⟨.top, ["work".toList]⟩, rfl, rfl, rfl⟩ hw.held_eq (withDefault_eq_put _ _ hw.sectioned hw.aliasFree)
    (hwritable (hplain.put (isKey_key (.repo ".")))) (by decide)
  have hrun : (runAll p cs).runOn (Desk.fresh none) = (.ok (), _) :=
    (runOn_bind_ok hfirst).trans (runOn_bind_ok hsecond)
  obtain ⟨-, hmainline, -, hrepo, -, hremote, -⟩ :=
    set_commands_replace p cs _ _ initial (editable_absent rfl) hrestored hrun
  exact ⟨_, hrun, hmainline "main" rfl (by decide), hrepo "/work" rfl, hremote⟩

end RepoLens.Settings
