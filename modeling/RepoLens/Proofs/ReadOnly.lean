import Mathlib.Tactic
import RepoLens.Proofs.Configured
import RepoLens.Proofs.Reading
/-!
The program only reads. Whatever the words of a command line are, the git commands of a run belong to the one repository that was
opened for it, and each of them only reads; where no repository is found, git gets no command at all. The settings stay as they
are in every run but those of the two commands that set something, and so they do over any number of runs.

Results:
- `Job.Keeps`, `Job.Aside`: what a job leaves alone, for what can be seen of the desk beside the screen;
- `opened_of_ok`: what is known of a repository that was opened;
- `run_effect`: one request;
- `visit_reads`, `visits_settings`: one run, and any number of runs that set nothing;
- `runs_read_only`: one run after any number of others.
-/
namespace RepoLens

/-! ## What a job leaves alone -/

namespace Job

variable {α β γ : Type} {view : Desk → γ}

/-- a job that leaves alone what a view of the desk shows -/
def Keeps (view : Desk → γ) (job : Job α) : Prop := ∀ d, view (job.runOn d).2 = view d

/-- a view that shows neither the screen nor the directory of the settings -/
structure Aside (view : Desk → γ) : Prop where
  output : ∀ d t, view { d with output := t } = view d
  folder : ∀ d b, view { d with folder := b } = view d

theorem keeps_pure (a : α) : Keeps view (pure a : Job α) := fun _ => rfl

theorem keeps_throw (f : Fault) : Keeps view (throw f : Job α) := fun _ => rfl

theorem keeps_get : Keeps view (get : Job Desk) := fun _ => rfl

/-- what comes after a job and leaves a view alone makes no difference to it -/
theorem view_bind {job : Job α} {next : α → Job β} (hnext : ∀ a, Keeps view (next a)) (d : Desk) :
    view ((job >>= next).runOn d).2 = view (job.runOn d).2 := by
  rw [runOn_bind]
  cases job.runOn d with
  | mk r d' =>
    cases r with
    | ok a => exact hnext a d'
    | error f => rfl

theorem keeps_bind {job : Job α} {next : α → Job β} (hjob : Keeps view job) (hnext : ∀ a, Keeps view (next a)) :
    Keeps view (job >>= next) := by
  intro d
  rw [view_bind hnext, hjob d]

theorem keeps_ofExcept {ε : Type} (cause : ε → Fault) (x : Except ε α) : Keeps view (ofExcept cause x) := by
  intro d
  rw [runOn_ofExcept]

theorem keeps_put (h : Aside view) (t : Text) : Keeps view (put t) := fun d => h.output d _

theorem keeps_say (h : Aside view) (p : Place) (markup : Text) : Keeps view (say p markup) :=
  keeps_bind (keeps_ofExcept _ _) (keeps_put h)

end Job

/-! ## Reading the settings -/

namespace Settings

open Job

variable {α γ : Type} {view : Desk → γ}

theorem keeps_file (h : Aside view) (p : Place) : Keeps view (file p) := fun d => h.folder d true

theorem keeps_load (h : Aside view) (p : Place) : Keeps view (load p) := by
  intro d
  rw [runOn_load]
  exact h.folder d true

theorem keeps_entry (h : Aside view) (p : Place) (name key : Text) : Keeps view (entry p name key) :=
  keeps_bind (keeps_load h p) fun _ => keeps_bind (keeps_ofExcept _ _) fun _ => keeps_pure _

theorem keeps_repoPath (h : Aside view) (p : Place) : Keeps view (repoPath p) := by
  refine keeps_bind (keeps_entry h p _ _) fun v => ?_
  cases v <;> exact keeps_pure _

theorem keeps_orElse (h : Aside view) (p : Place) (name key other : Text) :
    Keeps view (do pure (orElse (← entry p name key) other) : Job Value) :=
  keeps_bind (keeps_entry h p name key) fun _ => keeps_pure _

theorem keeps_refuse (h : Aside view) (p : Place) (message : Text) : Keeps view (refuse p message : Job α) :=
  keeps_bind (keeps_say h p _) fun _ => keeps_throw _

theorem keeps_locate (p : Place) (t : Text) : Keeps view (locate p t) := by
  unfold locate
  split
  · exact keeps_pure _
  · exact keeps_throw _

theorem keeps_checkRepository (h : Aside view) (p : Place) (path : Path) : Keeps view (checkRepository p path) := by
  refine keeps_bind keeps_get fun d => ?_
  split_ifs
  · exact keeps_pure _
  · exact keeps_refuse h p _

theorem keeps_showJson (h : Aside view) (p : Place) (repo : Option Text) : Keeps view (showJson p repo) := by
  refine keeps_bind (keeps_orElse h p _ _ _) fun mainline => ?_
  refine keeps_bind (keeps_orElse h p _ _ _) fun remote => ?_
  refine keeps_bind (keeps_orElse h p _ _ _) fun binary => ?_
  refine keeps_bind (keeps_file h p) fun file => ?_
  exact keeps_bind (keeps_ofExcept _ _) fun _ => keeps_say h p _

theorem keeps_showLines (h : Aside view) (p : Place) (repo : Option Text) : Keeps view (showLines p repo) := by
  refine keeps_bind (keeps_say h p _) fun _ => ?_
  refine keeps_bind (keeps_say h p _) fun _ => ?_
  refine keeps_bind (keeps_orElse h p _ _ _) fun mainline => ?_
  refine keeps_bind (keeps_ofExcept _ _) fun _ => keeps_bind (keeps_say h p _) fun _ => ?_
  refine keeps_bind (keeps_orElse h p _ _ _) fun remote => ?_
  refine keeps_bind (keeps_ofExcept _ _) fun _ => keeps_bind (keeps_say h p _) fun _ => ?_
  refine keeps_bind (keeps_orElse h p _ _ _) fun binary => ?_
  refine keeps_bind (keeps_ofExcept _ _) fun _ => keeps_bind (keeps_say h p _) fun _ => ?_
  refine keeps_bind (keeps_file h p) fun file => keeps_bind (keeps_say h p _) fun _ => ?_
  split_ifs
  · exact keeps_say h p _
  · exact keeps_pure _

theorem keeps_showAll (h : Aside view) (p : Place) (format : Text) : Keeps view (showAll p format) := by
  refine keeps_bind (keeps_repoPath h p) fun repo => ?_
  split_ifs
  · exact keeps_showJson h p repo
  · exact keeps_showLines h p repo

/-! ## Setting something -/

/-- saving the settings sends nothing -/
theorem change_keeps_sent (p : Place) (key value : Text) : Keeps Desk.sent (change p key value) := by
  have haside : Aside Desk.sent := ⟨fun _ _ => rfl, fun _ _ => rfl⟩
  have hsave : ∀ v, Keeps Desk.sent (save p v) := by
    intro v d
    by_cases hwrite : Writable p v
    · rw [runOn_save hwrite]
      rfl
    · obtain ⟨f, hfault, -⟩ := runOn_save_fault hwrite d
      rw [hfault]
      rfl
  exact keeps_bind (keeps_load haside p) fun _ => keeps_bind (keeps_ofExcept _ _) hsave

theorem setMainline_keeps_sent (p : Place) (branch : Text) : Keeps Desk.sent (setMainline p branch) :=
  keeps_bind (change_keeps_sent p _ _) fun _ => keeps_say ⟨fun _ _ => rfl, fun _ _ => rfl⟩ p _

theorem setRepo_keeps_sent (p : Place) (t : Text) : Keeps Desk.sent (setRepo p t) := by
  have haside : Aside Desk.sent := ⟨fun _ _ => rfl, fun _ _ => rfl⟩
  refine keeps_bind (keeps_locate p t) fun path => keeps_bind keeps_get fun d => ?_
  have hrest : Keeps Desk.sent (checkRepository p path >>= fun _ => change p "repo_path" path.toText >>= fun _ =>
      confirm p ("Repository path set to: " ++ path.toText)) :=
    keeps_bind (keeps_checkRepository haside p path) fun _ =>
      keeps_bind (change_keeps_sent p _ _) fun _ => keeps_say haside p _
  split_ifs
  · exact hrest
  · exact keeps_bind (keeps_refuse haside p _) fun _ => hrest

end Settings

/-! ## Opening -/

namespace Cli

open Job Settings Script

variable {α γ : Type} {view : Desk → γ} {p : Place} {o : Options} {d d' : Desk} {g : Handle}

theorem keeps_target (h : Aside view) (p : Place) (repo : Option Text) : Keeps view (target p repo) := by
  unfold target
  split
  · exact keeps_pure _
  · refine keeps_bind (keeps_repoPath h p) fun configured => ?_
    split
    · exact keeps_pure _
    · exact keeps_pure _

theorem keeps_openRepository (h : Aside view) (p : Place) (o : Options) : Keeps view (openRepository p o) := by
  refine keeps_bind (keeps_target h p _) fun t => keeps_bind (keeps_locate p t) fun path => ?_
  refine keeps_bind (keeps_checkRepository h p path) fun _ => ?_
  refine keeps_bind (keeps_orElse h p _ _ _) fun mainline => keeps_bind (keeps_orElse h p _ _ _) fun remote => ?_
  exact keeps_bind (keeps_orElse h p _ _ _) fun binary => keeps_bind (keeps_ofExcept _ _) fun _ => keeps_pure _

/-- what is known of a repository that was opened -/
structure Opened (p : Place) (o : Options) (d : Desk) (g : Handle) : Prop where
  /-- the text that names it leads to its path, and there was a repository when it was looked at -/
  place : ∃ t d₁, (target p o.repo).runOn d = (.ok t, d₁) ∧ p.locate t = some g.path ∧
    p.has d₁ (g.path.child ".git") = true
  /-- all else is from the settings -/
  settings : ∃ v, held p d = .ok v ∧ settingAt "git_binary" binaryDefault v = .text g.binary ∧
    handleIn g.path v o.verbose = .ok g

/-- an entry can be read only from settings that are a mapping -/
theorem held_of_entry {name key : Text} {x : Value} (h : (entry p name key).runOn d = (.ok x, d')) :
    ∃ v, held p d = .ok v ∧ v.IsMap := by
  obtain ⟨v, d₁, hload, hrest⟩ := runOn_bind_eq_ok h
  rw [runOn_load] at hload
  obtain ⟨hheld, rfl⟩ := Prod.mk.inj hload
  refine ⟨v, hheld, ?_⟩
  obtain ⟨s, d₂, hpart, -⟩ := runOn_bind_eq_ok hrest
  rw [runOn_ofExcept] at hpart
  cases v with
  | map mark es => trivial
  | _ => cases hpart

/-- a handle has the path it was opened at, and the git binary of the settings -/
theorem handleIn_ok {path : Path} {v : Value} {verbose : Bool} (h : handleIn path v verbose = .ok g) :
    g.path = path ∧ settingAt "git_binary" binaryDefault v = .text g.binary := by
  rw [handleIn, handleOf] at h
  cases hbinary : settingAt "git_binary" binaryDefault v with
  | text t =>
    rw [hbinary] at h
    cases h
    exact ⟨rfl, rfl⟩
  | _ =>
    rw [hbinary] at h
    cases h

theorem locate_of_ok {t : Text} {path : Path} (h : (locate p t).runOn d = (.ok path, d')) : p.locate t = some path ∧ d' = d := by
  rw [locate] at h
  cases hplace : p.locate t with
  | none => rw [hplace] at h; cases h
  | some path' =>
    rw [hplace] at h
    cases h
    exact ⟨rfl, rfl⟩

theorem has_of_checked {path : Path} (h : (checkRepository p path).runOn d = (.ok (), d')) :
    p.has d (path.child ".git") = true ∧ d' = d := by
  rw [checkRepository, runOn_bind_ok (runOn_get d)] at h
  split_ifs at h with hgit
  · cases h
    exact ⟨hgit, rfl⟩
  · obtain ⟨f, d'', hrefuse, -⟩ := runOn_refuse p ("Not a git repository: " ++ path.toText) d
    rw [hrefuse] at h
    cases h

/-- **A repository that was opened** was found where the text that names it leads to, and is as the settings have it. -/
theorem opened_of_ok (h : (openRepository p o).runOn d = (.ok g, d')) : Opened p o d g := by
  obtain ⟨t, d₁, htarget, hafter⟩ := runOn_bind_eq_ok h
  obtain ⟨path, d₂, hlocate, hfound⟩ := runOn_bind_eq_ok hafter
  obtain ⟨hplace, rfl⟩ := locate_of_ok hlocate
  obtain ⟨_, d₃, hcheck, hrest⟩ := runOn_bind_eq_ok hfound
  obtain ⟨hgit, rfl⟩ := has_of_checked hcheck
  -- the first setting that is read shows that the settings are a mapping
  obtain ⟨mainline, d₄, hmainline, -⟩ := runOn_bind_eq_ok hrest
  obtain ⟨x, d₅, hentry, -⟩ := runOn_bind_eq_ok hmainline
  obtain ⟨v, hheld, hv⟩ := held_of_entry hentry
  have hhandle : handleIn path v o.verbose = .ok g := by
    have hrun := runOn_found hheld hv htarget hplace hgit
    rw [h] at hrun
    exact (Prod.mk.inj hrun).1.symm
  have hsame : held p d₃ = held p d := by
    have haside : Aside (held p) := ⟨fun _ _ => rfl, fun _ _ => rfl⟩
    have hkeeps := keeps_target haside p o.repo d
    rwa [htarget] at hkeeps
  obtain ⟨rfl, hbinary⟩ := handleIn_ok hhandle
  exact ⟨⟨t, d₃, htarget, hplace, hgit⟩, v, hsame ▸ hheld, hbinary, hhandle⟩

/-! ## Running -/

/-- what can be seen of a desk beside the screen: the settings, and the commands sent -/
def kept (d : Desk) : Option Text × List (List Text) := (d.settings, d.sent)

theorem aside_kept : Aside kept := ⟨fun _ _ => rfl, fun _ _ => rfl⟩

theorem keeps_report (p : Place) (f : GitFault) : Keeps kept (report p f : Job α) :=
  keeps_bind (keeps_say aside_kept p _) fun _ => keeps_throw _

theorem keeps_list (p : Place) (o : Options) (listing : Format → Except Fault Text) : Keeps kept (list p o listing) := by
  have hformat : Keeps kept (formatOf p o) := by
    unfold formatOf
    split
    · exact keeps_pure _
    · exact keeps_bind (keeps_orElse aside_kept p _ _ _) fun _ => keeps_pure _
  exact keeps_bind hformat fun _ => keeps_bind (keeps_ofExcept _ _) fun _ => keeps_put aside_kept _

theorem keeps_echo (t : Text) : Keeps kept (echo t) := keeps_put aside_kept _

/-- performing a script sends its commands and does nothing else beside the screen -/
theorem kept_perform (p : Place) (g : Handle) (replies : List Reply) (script : Script α) (d : Desk) :
    kept ((perform p g replies script).runOn d).2 = (d.settings, d.sent ++ (script.run g p.screen [] replies).sent) := by
  rw [perform, runOn_bind_ok (runOn_modify _ d)]
  split
  · rfl
  · exact keeps_report p _ _
  · rfl

/-- what a run with some options does beside the screen: it leaves the settings alone, and sends nothing, or commands of the
one repository that it opened, all of which only read -/
structure OnlyReads (p : Place) (o : Options) (d d' : Desk) : Prop where
  settings : d'.settings = d.settings
  sent : ∃ new, d'.sent = d.sent ++ new ∧
    (new = [] ∨ ∃ g, Opened p o d g ∧ ∀ words ∈ new, ∃ args, words = g.base ++ args ∧ Reads args)

/-- a script that only reads, and whatever is shown of what it came to -/
theorem query_only_reads {replies : List Reply} {script : Script α} {shows : α → Job Unit}
    (hscript : script.Within readingScope) (hshows : ∀ a, Keeps kept (shows a)) (d : Desk) :
    OnlyReads p o d ((query p o replies script >>= shows).runOn d).2 := by
  have hview : kept ((query p o replies script >>= shows).runOn d).2 = kept ((query p o replies script).runOn d).2 :=
    view_bind hshows d
  cases hopen : (openRepository p o).runOn d with
  | mk r d₁ =>
    have hkept : kept d₁ = kept d := by
      have hkeeps := keeps_openRepository aside_kept p o d
      rwa [hopen] at hkeeps
    obtain ⟨hsettings, hsent⟩ := Prod.mk.inj hkept
    cases r with
    | error f =>
      have hquery : (query p o replies script).runOn d = (.error f, d₁) := runOn_bind_error hopen
      rw [hquery, hkept] at hview
      obtain ⟨hsettings', hsent'⟩ := Prod.mk.inj hview
      exact ⟨hsettings', [], by rw [hsent', List.append_nil], Or.inl rfl⟩
    | ok g =>
      have hquery : (query p o replies script).runOn d = (perform p g replies script).runOn d₁ := runOn_bind_ok hopen
      rw [hquery, kept_perform, hsettings, hsent] at hview
      obtain ⟨hsettings', hsent'⟩ := Prod.mk.inj hview
      refine ⟨hsettings', _, hsent', Or.inr ⟨g, opened_of_ok hopen, ?_⟩⟩
      intro words hwords
      obtain ⟨args, allow, hreads, rfl⟩ := run_within_sent hscript words hwords
      exact ⟨args.toList, rfl, hreads⟩

def Sets : Request → Prop
  | .setRepo _ | .setMainline _ => True
  | _ => False

/-- what a request does to the desk beside the screen -/
inductive Effect (p : Place) (r : Request) (d d' : Desk) : Prop where
  | reads {o : Options} (hoptions : r.options? = some o) (hreads : OnlyReads p o d d')
  | sets (hsets : Sets r) (hsent : d'.sent = d.sent)
  | none (hkept : kept d' = kept d)

/-- **One request** with options only reads; one without sends nothing, and leaves the settings alone too unless it sets
something. -/
theorem run_effect (p : Place) (replies : List Reply) (r : Request) (d : Desk) :
    Effect p r d ((run p replies r).runOn d).2 := by
  cases r with
  | log branch o => exact .reads rfl (query_only_reads (Repository.reads_commits branch) (fun _ => keeps_list p o _) d)
  | files id o => exact .reads rfl (query_only_reads (Repository.reads_filesIn id) (fun _ => keeps_list p o _) d)
  | status o => exact .reads rfl (query_only_reads Repository.reads_uncommitted (fun _ => keeps_list p o _) d)
  | branches o => exact .reads rfl (query_only_reads reads_branchesAndCurrent (fun _ => keeps_list p o _) d)
  | tags o =>
    refine .reads rfl (query_only_reads Repository.reads_tags (fun names => ?_) d)
    split_ifs
    · exact keeps_bind (keeps_ofExcept _ _) fun _ => keeps_list p o _
    · exact keeps_list p o _
  | contents id path o => exact .reads rfl (query_only_reads (Repository.reads_contents id path) (fun _ => keeps_echo _) d)
  | head o => exact .reads rfl (query_only_reads Repository.reads_head (fun _ => keeps_echo _) d)
  | currentBranch o => exact .reads rfl (query_only_reads Repository.reads_currentBranch (fun _ => keeps_echo _) d)
  | setRepo t => exact .sets trivial (setRepo_keeps_sent p t d)
  | setMainline branch => exact .sets trivial (setMainline_keeps_sent p branch d)
  | showSettings format => exact .none (keeps_showAll aside_kept p format d)
  | version => exact .none (keeps_say aside_kept p _ d)

/-! ## Runs -/

/-- a command line, where it is run, and what git replies -/
structure Invocation where
  place : Place
  words : List Text
  replies : List Reply

def Invocation.Sets (i : Invocation) : Prop := ∃ r, Request.ofWords i.words = some r ∧ Cli.Sets r

/-- a desk before a run: nothing is printed yet, and nothing sent -/
def ready (d : Desk) : Desk := { d with output := [], sent := [] }

def visit (d : Desk) (i : Invocation) : Desk := ((runWords i.place i.replies i.words).runOn (ready d)).2

def visits (d : Desk) (is : List Invocation) : Desk := is.foldl visit d

/-- the commands of a run: none, or those of the one repository that it opened, all of which only read -/
def Invocation.SendsReads (i : Invocation) (before after : Desk) : Prop :=
  after.sent = [] ∨ ∃ r o g, Request.ofWords i.words = some r ∧ r.options? = some o ∧ Opened i.place o (ready before) g ∧
    ∀ words ∈ after.sent, ∃ args, words = g.base ++ args ∧ Reads args

/-- **One run** sends nothing but commands that read, and leaves the settings alone unless it sets something. -/
theorem visit_reads (d : Desk) (i : Invocation) :
    i.SendsReads d (visit d i) ∧ (¬ i.Sets → (visit d i).settings = d.settings) := by
  cases hwords : Request.ofWords i.words with
  | none =>
    have hvisit : visit d i = ready d := by
      rw [visit, runWords, hwords]
      rfl
    rw [hvisit]
    exact ⟨Or.inl rfl, fun _ => rfl⟩
  | some r =>
    have hvisit : visit d i = ((run i.place i.replies r).runOn (ready d)).2 := by rw [visit, runWords, hwords]
    rw [hvisit]
    cases run_effect i.place i.replies r (ready d) with
    | @reads o hoptions hreads =>
      refine ⟨?_, fun _ => hreads.settings⟩
      obtain ⟨new, hnew, hnone | ⟨g, hopened, hnewReads⟩⟩ := hreads.sent
      · exact Or.inl (hnew.trans hnone)
      · have hsent : ((run i.place i.replies r).runOn (ready d)).2.sent = new := hnew
        exact Or.inr ⟨r, o, g, hwords, hoptions, hopened, by rwa [hsent]⟩
    | sets hsets hsent => exact ⟨Or.inl hsent, fun hnot => absurd ⟨r, hwords, hsets⟩ hnot⟩
    | none hkept =>
      obtain ⟨hsettings, hsent⟩ := Prod.mk.inj hkept
      exact ⟨Or.inl hsent, fun _ => hsettings⟩

/-- **Any number of runs** that set nothing leave the settings alone. -/
theorem visits_settings {is : List Invocation} (h : ∀ i ∈ is, ¬ i.Sets) (d : Desk) : (visits d is).settings = d.settings := by
  induction is generalizing d with
  | nil => rfl
  | cons i is ih =>
    obtain ⟨hi, his⟩ := List.forall_mem_cons.1 h
    calc (visits d (i :: is)).settings = (visits (visit d i) is).settings := rfl
      _ = (visit d i).settings := ih his (visit d i)
      _ = d.settings := (visit_reads d i).2 hi

/-- **The program only reads.** Take any run after any number of others, from any desk. Either git gets no command, or the words
are a request on a repository that was opened for this run: the text that names it leads to its path, where there was a
repository when it was looked at, and the git binary is the one of the settings; every command then starts with the words of
this repository, goes on with a verb that reads, and has no arguments where these would change something. The settings after
the run differ from those before only if it is one of the two that set something; so runs that set nothing leave the settings as
they were at the start. -/
theorem runs_read_only (start : Desk) (earlier : List Invocation) (i : Invocation) :
    let before := visits start earlier
    let after := visit before i
    (after.sent = [] ∨ ∃ r o g, Request.ofWords i.words = some r ∧ r.options? = some o ∧ Opened i.place o (ready before) g ∧
      ∀ words ∈ after.sent, ∃ verb args, words = g.base ++ verb :: args ∧ verb ∈ readingVerbs ∧
        (verb ∈ bareVerbs → args = []) ∧ verb ∉ changingVerbs) ∧
    (after.settings ≠ before.settings → i.Sets) ∧
    ((∀ j ∈ earlier ++ [i], ¬ j.Sets) → after.settings = start.settings) := by
  intro before after
  obtain ⟨hsends, hsettings⟩ := visit_reads before i
  refine ⟨?_, ?_, ?_⟩
  · rcases hsends with hnone | ⟨r, o, g, hwords, hoptions, hopened, hreads⟩
    · exact Or.inl hnone
    · refine Or.inr ⟨r, o, g, hwords, hoptions, hopened, fun words hmem => ?_⟩
      obtain ⟨_, rfl, verb, args, rfl, hverb, hbare⟩ := hreads words hmem
      exact ⟨verb, args, rfl, hverb, hbare, not_changing_of_reading verb hverb⟩
  · intro hdiffer
    by_contra hnot
    exact hdiffer (hsettings hnot)
  · intro hnone
    have hall := visits_settings hnone start
    rwa [visits, List.foldl_append] at hall

/-- tags of a repository that is the working directory -/
example :
    (visit (.fresh none) ⟨(.plain "/home/a" "/r" ["/r/.git"] 80), ["tags"], []⟩).sent =
      ([["git", "--git-dir=/r/.git", "--work-tree=/r", "tag"].map String.toList] : List (List Text)) := by decide +kernel

end Cli

end RepoLens
