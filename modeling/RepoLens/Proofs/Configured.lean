import Mathlib.Tactic
import RepoLens.Proofs.Resolve
import RepoLens.Proofs.SetRuns
/-!
The repository of the settings. A text that names a repository is resolved when it is given on the command line, and it is
resolved before it is stored; the stored text is resolved once more when it is read. Both ways lead to the same place, because a
resolved path stays as it is, from every working directory.

Results:
- `runOn_openRepository`: what opening gives, by the place and the settings;
- `configured_repository_opens`: a repository that has been set is opened like the one that was named, with the same branch,
  remote and git binary, and from every working directory.
-/
namespace RepoLens.Cli

open Value Job Settings

variable {p p' : Place} {o : Options} {d d' d₁ : Desk} {v w : Value} {t : Text} {path : Path}

/-! ## Opening, by the settings -/

/-- what opening a repository at a place gives, with values for the branch, the remote and the git binary -/
def handleOf (path : Path) (mainline remote binary : Value) (verbose : Bool) : Except Fault Handle :=
  ((binaryText binary).mapError .mismatch).map fun b => ⟨path, mainline.shown, remote.shown, b, verbose⟩

/-- the value of a setting, or its default -/
def settingAt (key other : Text) (v : Value) : Value := orElse (valueAt defaultSection key v) other

/-- what opening a repository at a place gives, with some settings -/
def handleIn (path : Path) (v : Value) (verbose : Bool) : Except Fault Handle :=
  handleOf path (settingAt mainlineKey mainlineDefault v) (settingAt "remote" remoteDefault v)
    (settingAt "git_binary" binaryDefault v) verbose

/-- opening a repository that is there when it is looked at -/
theorem runOn_found (hheld : held p d₁ = .ok v) (hv : v.IsMap) (htarget : (target p o.repo).runOn d = (.ok t, d₁))
    (hplace : p.locate t = some path) (hgit : p.has d₁ (path.child ".git") = true) :
    (openRepository p o).runOn d = (handleIn path v o.verbose, d₁.made) := by
  have hfound : (locate p t).runOn d₁ = (.ok path, d₁) := by rw [locate, hplace]; rfl
  have hcheck : (checkRepository p path).runOn d₁ = (.ok (), d₁) := by
    rw [checkRepository, runOn_bind_ok (runOn_get d₁), if_pos hgit]
    rfl
  have hmainline : (Settings.mainline p).runOn d₁ = (.ok (settingAt mainlineKey mainlineDefault v), d₁.made) :=
    runOn_orElse hheld hv defaultSection mainlineKey mainlineDefault
  have hremote : (Settings.remote p).runOn d₁.made = (.ok (settingAt "remote" remoteDefault v), d₁.made) :=
    runOn_orElse hheld hv defaultSection "remote" remoteDefault
  have hbinary : (Settings.binary p).runOn d₁.made = (.ok (settingAt "git_binary" binaryDefault v), d₁.made) :=
    runOn_orElse hheld hv defaultSection "git_binary" binaryDefault
  rw [openRepository, runOn_bind_ok htarget, runOn_bind_ok hfound, runOn_bind_ok hcheck, runOn_bind_ok hmainline,
    runOn_bind_ok hremote, runOn_bind_ok hbinary, runOn_bind, runOn_ofExcept, handleIn, handleOf]
  cases binaryText (settingAt "git_binary" binaryDefault v) <;> rfl

/-- **Opening a repository**, by the text that names it and the settings -/
theorem runOn_openRepository (hheld : held p d = .ok v) (hv : v.IsMap) (htarget : (target p o.repo).runOn d = (.ok t, d₁))
    (hdesk : d₁ = d ∨ d₁ = d.made) (hplace : p.locate t = some path) (hgit : p.has d (path.child ".git") = true) :
    ((openRepository p o).runOn d).1 = handleIn path v o.verbose := by
  have hheld₁ : held p d₁ = .ok v := by rcases hdesk with rfl | rfl <;> exact hheld
  have hgit₁ : p.has d₁ (path.child ".git") = true := by
    rcases hdesk with rfl | rfl
    · exact hgit
    · exact has_made hgit
  rw [runOn_found hheld₁ hv htarget hplace hgit₁]

/-- a text that is given names the repository -/
theorem runOn_target_given (ht : t ≠ []) (d : Desk) : (target p (some t)).runOn d = (.ok t, d) := by
  cases t with
  | nil => exact absurd rfl ht
  | cons c r => rfl

/-- where none is given, the text of the settings does -/
theorem runOn_target_stored (hheld : held p d = .ok v) (hv : v.IsMap) (hstored : valueAt defaultSection repoKey v = .text t)
    (ht : t ≠ []) : (target p none).runOn d = (.ok t, d.made) := by
  have hpath : (repoPath p).runOn d = (.ok (some t), d.made) := by rw [runOn_repoPath hheld hv, hstored]; rfl
  simp only [target]
  rw [runOn_bind_ok hpath]
  cases t with
  | nil => exact absurd rfl ht
  | cons c r => rfl

/-! ## Other working directories -/

/-- another place in the same file system: the same home and runtime, and all that is there is there still -/
structure Elsewhere (p p' : Place) : Prop where
  home : p'.home = p.home
  runtime : p'.runtime = p.runtime
  there : ∀ d path, p.has d path = true → p'.has d path = true

/-- settings are read the same elsewhere -/
theorem Elsewhere.held_eq (h : Elsewhere p p') (d : Desk) : held p' d = held p d := by
  unfold held
  rw [h.runtime]

/-- a text that names a place whatever the working directory is -/
def Absolute (t : Text) : Prop := (Path.ofText t).root ≠ .here

instance : DecidablePred Absolute := fun t => inferInstanceAs (Decidable ((Path.ofText t).root ≠ .here))

theorem resolve_absolute (h : Absolute t) (cwd cwd' : Path) :
    Path.resolve cwd (Path.ofText t) = Path.resolve cwd' (Path.ofText t) := by
  rw [Path.resolve, Path.resolve, Path.join, Path.join, if_neg h, if_neg h]

/-- going to another working directory -/
theorem elsewhere_of_absolute (hhome : Absolute p.home) (hcwd : Absolute p.cwd) (hpaths : ∀ t ∈ p.paths, Absolute t)
    (cwd : Text) : Elsewhere p { p with cwd := cwd, paths := p.cwd :: p.paths } := by
  refine ⟨rfl, rfl, fun d path h => ?_⟩
  rw [Place.has, List.any_append, Bool.or_eq_true] at h ⊢
  refine h.imp_left fun h => ?_
  rw [List.any_map, List.any_eq_true] at h ⊢
  obtain ⟨t, ht, habove⟩ := h
  have hmem : t ∈ p.home :: cwd :: p.cwd :: p.paths ∧ Absolute t := by
    rcases List.mem_cons.1 ht with rfl | ht
    · exact ⟨by simp, hhome⟩
    rcases List.mem_cons.1 ht with rfl | ht
    · exact ⟨by simp, hcwd⟩
    · exact ⟨by simp [ht], hpaths t ht⟩
  refine ⟨t, hmem.1, ?_⟩
  simp only [Function.comp] at habove ⊢
  rwa [resolve_absolute hmem.2 _ (Path.ofText p.cwd)]

/-! ## The stored repository -/

theorem binaryText_same (h : v.SameTree w) : binaryText v = binaryText w := by
  cases h with
  | scalar => rfl
  | list => rfl
  | map => rfl

theorem shown_orElse (h : v.SameTree w) (hshown : v.shown = w.shown) (t : Text) :
    (orElse v t).shown = (orElse w t).shown := by
  rw [orElse, orElse, h.isNothing_eq]
  split_ifs
  · rfl
  · exact hshown

/-- opening fails alike with the same git binary -/
theorem handleOf_error {m m' r r' b b' : Value} {f : Fault} {verbose : Bool} (hb : b'.SameTree b)
    (h : handleOf path m r b verbose = .error f) : handleOf path m' r' b' verbose = .error f := by
  rw [handleOf, binaryText_same hb]
  rw [handleOf] at h
  cases hbinary : binaryText b with
  | error cause => rwa [hbinary] at h
  | ok t => rw [hbinary] at h; cases h

/-- handles at the same place with the same git binary send the same words to git -/
theorem handleOf_command {m m' r r' b b' : Value} {verbose : Bool} {g g' : Handle} (hb : b'.SameTree b)
    (h : handleOf path m r b verbose = .ok g) (h' : handleOf path m' r' b' verbose = .ok g') :
    g'.path = g.path ∧ g'.binary = g.binary ∧ ∀ args, g'.command args = g.command args := by
  rw [handleOf, binaryText_same hb] at h'
  rw [handleOf] at h
  cases hbinary : binaryText b with
  | error cause => rw [hbinary] at h; cases h
  | ok t =>
    rw [hbinary] at h h'
    cases h
    cases h'
    exact ⟨rfl, rfl, fun args => rfl⟩

theorem valueAt_default (key : Text) (v : Value) :
    valueAt defaultSection key v = ((defaultsOf v).get? key).getD .null := by
  rw [valueAt, defaultsOf]
  cases v.get? defaultSection <;> rfl

/-- the settings that are loaded after a repository has been set: the repository is stored by its resolved path, and what was
saved with it is as it was -/
theorem stored_settings (hheld : held p d = .ok v) (hs : Sectioned v) (hrestored : Restored p d [.repo t])
    (hrun : (setRepo p t).runOn d = (.ok (), d')) :
    ∃ path u w, p.locate t = some path ∧ p.has d (path.child ".git") = true ∧ p.has d' (path.child ".git") = true ∧
      Saves p d [.repo t] u ∧ held p (saved u d) = .ok w ∧ held p d' = .ok w ∧ w.SameTree u ∧ w.IsMap ∧
      valueAt defaultSection repoKey w = .text path.toText ∧
      ∀ key, key ≠ repoKey → valueAt defaultSection key u = valueAt defaultSection key v := by
  obtain ⟨value, v', u, out, hvalue, hready, hheld', hset, hwrite, rfl⟩ := SetCommand.run_ok (c := .repo t) hrun
  obtain rfl : v' = v := Except.ok.inj (hheld'.symm.trans hheld)
  obtain ⟨path, hplace, -, hgit⟩ := hready
  obtain rfl : path.toText = value := by
    rw [SetCommand.value?, hplace] at hvalue
    exact Option.some.inj hvalue
  have hsaves : Saves p d [.repo t] u := .here hvalue hheld hset hwrite
  obtain ⟨w, hw, hsame, -⟩ := (hrestored u hsaves).held d
  obtain ⟨u', hset', hsectioned, hdefaults⟩ := withDefault_section repoKey path.toText hs (held_formed hheld).2
  obtain rfl : u' = u := Except.ok.inj (hset'.symm.trans hset)
  have hkept : ∀ key, valueAt defaultSection key u' =
      if key = repoKey then .text path.toText else valueAt defaultSection key v' := by
    intro key
    rw [valueAt_default, valueAt_default, hdefaults, get?_set hs.isMap_defaultsOf]
    split_ifs <;> rfl
  have hrepo := sameTree_valueAt hsame.symm (held_formed hw).1 defaultSection repoKey
  rw [hkept, if_pos rfl] at hrepo
  exact ⟨path, u', w, hplace, hgit, has_mono (d := d) (fun _ => rfl) (fun _ => rfl) hgit, hsaves, hw, hw, hsame,
    hsame.isMap hsectioned.isMap, hrepo.symm.eq_text, fun key hkey => by rw [hkept, if_neg hkey]⟩

/-- the settings of a run are loaded with all their values written as they were saved -/
def WrittenAlike (p : Place) (d : Desk) (cs : List SetCommand) : Prop :=
  ∀ u w, Saves p d cs u → held p (saved u d) = .ok w → ∀ name key, (valueAt name key w).shown = (valueAt name key u).shown

/-- **The repository of the settings is the one that was set.** Where a text names a repository and setting it ends well, opening
it by that text before, and opening none in particular afterwards, gives handles with the same path, branch, remote and git
binary; so the words that git receives are the same. Branch and remote are the same trees, and written alike if they hold no
mapping, or if the settings are loaded with all values written as they were saved. From every other working directory the
stored repository is at the same path. -/
theorem configured_repository_opens (p : Place) (o : Options) (t : Text) (d d' : Desk) (v : Value) (hheld : held p d = .ok v)
    (hs : Sectioned v) (ht : t ≠ []) (hrestored : Restored p d [.repo t]) (hrun : (setRepo p t).runOn d = (.ok (), d')) :
    ∃ path w, p.locate t = some path ∧ held p d' = .ok w ∧
      ((openRepository p { o with repo := some t }).runOn d).1 = handleIn path v o.verbose ∧
      ((openRepository p { o with repo := none }).runOn d').1 = handleIn path w o.verbose ∧
      (∀ key other, key ≠ repoKey → (settingAt key other w).SameTree (settingAt key other v)) ∧
      (∀ f, handleIn path v o.verbose = .error f → handleIn path w o.verbose = .error f) ∧
      (∀ g g', handleIn path v o.verbose = .ok g → handleIn path w o.verbose = .ok g' →
        g'.path = g.path ∧ g'.binary = g.binary ∧ ∀ args, g'.command args = g.command args) ∧
      ((settingAt mainlineKey mainlineDefault v).MapFree → (settingAt "remote" remoteDefault v).MapFree →
        handleIn path w o.verbose = handleIn path v o.verbose) ∧
      (WrittenAlike p d [.repo t] → handleIn path w o.verbose = handleIn path v o.verbose) ∧
      (∀ p', Elsewhere p p' →
        ((openRepository p' { o with repo := none }).runOn d').1 = handleIn path w o.verbose) := by
  obtain ⟨path, u, w, hplace, hgit, hgit', hsaves, hw', hw, hsame, hmap, hrepo, hkept⟩ :=
    stored_settings hheld hs hrestored hrun
  have hresolved := Place.resolved_of_locate hplace
  have hvalue : ∀ key, key ≠ repoKey → (valueAt defaultSection key w).SameTree (valueAt defaultSection key v) := by
    intro key hkey
    rw [← hkept key hkey]
    exact (sameTree_valueAt hsame.symm (held_formed hw).1 defaultSection key).symm
  have hsetting : ∀ key other, key ≠ repoKey → (settingAt key other w).SameTree (settingAt key other v) :=
    fun key other hkey => sameTree_orElse (hvalue key hkey) other
  have hremote : "remote".toList ≠ repoKey := by decide
  have hbinary : "git_binary".toList ≠ repoKey := by decide
  have hb := hsetting "git_binary" binaryDefault hbinary
  -- handles are equal where the branch and the remote are written alike
  have halike : (settingAt mainlineKey mainlineDefault w).shown = (settingAt mainlineKey mainlineDefault v).shown →
      (settingAt "remote" remoteDefault w).shown = (settingAt "remote" remoteDefault v).shown →
      handleIn path w o.verbose = handleIn path v o.verbose := by
    intro hm hr
    rw [handleIn, handleIn, handleOf, handleOf, binaryText_same hb, hm, hr]
  refine ⟨path, w, hplace, hw,
    runOn_openRepository hheld hs.isMap (runOn_target_given ht d) (Or.inl rfl) hplace hgit,
    runOn_openRepository hw hmap (runOn_target_stored hw hmap hrepo hresolved.toText_ne_nil) (Or.inr rfl)
      (Place.locate_toText hresolved p) hgit', hsetting, fun f => handleOf_error hb, fun g g' => handleOf_command hb, ?_, ?_, ?_⟩
  · intro hm hr
    have hmainline := (hsetting mainlineKey _ mainlineKey_ne).symm.shown_eq hm
    exact halike hmainline.symm ((hsetting "remote" _ hremote).symm.shown_eq hr).symm
  · intro hwritten
    have hshown : ∀ key other, key ≠ repoKey → (settingAt key other w).shown = (settingAt key other v).shown :=
      fun key other hkey => shown_orElse (hvalue key hkey) (by rw [← hkept key hkey]; exact hwritten u w hsaves hw' _ _) other
    exact halike (hshown mainlineKey _ mainlineKey_ne) (hshown "remote" _ hremote)
  · intro p' helsewhere
    have hw' : held p' d' = .ok w := (helsewhere.held_eq d').trans hw
    exact runOn_openRepository hw' hmap (runOn_target_stored hw' hmap hrepo hresolved.toText_ne_nil) (Or.inr rfl)
      (Place.locate_toText hresolved p') (helsewhere.there d' _ hgit')

/-- a repository named by two dots, with the initial settings -/
theorem configured_repository_opens_parent :
    let p : Place := .plain "/home/user" "/work/src" ["/work/.git"] 80
    let o : Options := ⟨none, none, false, false⟩
    let g : Handle := ⟨⟨.top, ["work".toList]⟩, "master", "origin", "git", false⟩
    ∃ d', (setRepo p "..").runOn (Desk.fresh none) = (.ok (), d') ∧
      ((openRepository p { o with repo := some ".." }).runOn (Desk.fresh none)).1 = .ok g ∧
      ((openRepository p o).runOn d').1 = .ok g ∧
      ((openRepository { p with cwd := "/", paths := p.cwd :: p.paths } o).runOn d').1 = .ok g := by
  intro p o g
  have hput : Plain (put _ "/work" initial) := plain_initial.put (isKey_key (.repo ".."))
  obtain ⟨out, hrun⟩ := SetCommand.run_bracketless (d := Desk.fresh none)
    (rfl : (SetCommand.repo "..").value? p = some "/work".toList)
    ⟨⟨.top, ["work".toList]⟩, rfl, rfl, rfl⟩ rfl (withDefault_eq_put _ _ plain_initial.sectioned plain_initial.aliasFree)
    ⟨rfl, numbersFit_of_setting hput.setting⟩ (by decide)
  obtain ⟨path, w, hplace, -, hgiven, hstored, -, -, -, hequal, -, helsewhere⟩ := configured_repository_opens p o ".." _ _ initial
    rfl plain_initial.sectioned (by decide) (restored_absent (fun _ _ => rfl) rfl) hrun
  obtain rfl : path = ⟨.top, ["work".toList]⟩ := (Option.some.inj hplace).symm
  have hhandle : handleIn ⟨.top, ["work".toList]⟩ initial false = .ok g := rfl
  have hsame : handleIn ⟨.top, ["work".toList]⟩ w false = .ok g := (hequal (.scalar trivial) (.scalar trivial)).trans hhandle
  refine ⟨_, hrun, hgiven.trans hhandle, hstored.trans hsame, (helsewhere _ ?_).trans hsame⟩
  exact elsewhere_of_absolute (by decide) (by decide) (by decide) "/"

end RepoLens.Cli
