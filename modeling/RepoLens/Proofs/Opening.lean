import Mathlib.Tactic
import RepoLens.Cli
/-!
Jobs on a desk, and how a command line gets at its repository. A job is run step by step: a step that ends with a fault ends
the job with what is on the desk by then. Reading the settings makes their directory and does nothing else to the desk.

Results:
- `runOn_bind`: one job after the other;
- `runOn_say`: printing markup, which may fail;
- `runOn_load`: the settings are the ones that the desk holds;
- `openRepository_ok`: with settings that can be used, a repository that exists is opened, and the screen stays as it was.
-/
namespace RepoLens

variable {α β : Type}

namespace Job

@[simp] theorem runOn_pure (a : α) (d : Desk) : (pure a : Job α).runOn d = (.ok a, d) := rfl

theorem runOn_bind (job : Job α) (f : α → Job β) (d : Desk) :
    (job >>= f).runOn d = match job.runOn d with
      | (.ok a, d') => (f a).runOn d'
      | (.error e, d') => (.error e, d') := by
  simp only [runOn, ExceptT.run_bind, StateT.run_bind]
  cases hrun : StateT.run job.run d with
  | mk r d' => cases r <;> rfl

theorem runOn_bind_ok {job : Job α} {f : α → Job β} {d d' : Desk} {a : α} (h : job.runOn d = (.ok a, d')) :
    (job >>= f).runOn d = (f a).runOn d' := by
  rw [runOn_bind, h]

theorem runOn_bind_error {job : Job α} {f : α → Job β} {d d' : Desk} {cause : Fault} (h : job.runOn d = (.error cause, d')) :
    (job >>= f).runOn d = (.error cause, d') := by
  rw [runOn_bind, h]

theorem runOn_bind_congr {job job' : Job α} {d : Desk} (h : job.runOn d = job'.runOn d) (f : α → Job β) :
    (job >>= f).runOn d = (job' >>= f).runOn d := by
  rw [runOn_bind, h, runOn_bind]

theorem runOn_bind_eq_ok {job : Job α} {f : α → Job β} {d d' : Desk} {b : β} (h : (job >>= f).runOn d = (.ok b, d')) :
    ∃ a d₁, job.runOn d = (.ok a, d₁) ∧ (f a).runOn d₁ = (.ok b, d') := by
  rw [runOn_bind] at h
  split at h
  · rename_i a d₁ heq
    exact ⟨a, d₁, heq, h⟩
  · cases h

@[simp] theorem runOn_modify (g : Desk → Desk) (d : Desk) : (modify g : Job Unit).runOn d = (.ok (), g d) := rfl

@[simp] theorem runOn_get (d : Desk) : (get : Job Desk).runOn d = (.ok d, d) := rfl

@[simp] theorem runOn_put (t : Text) (d : Desk) : (put t).runOn d = (.ok (), { d with output := d.output ++ t }) := rfl

theorem runOn_ofExcept {ε : Type} (cause : ε → Fault) (e : Except ε α) (d : Desk) :
    (ofExcept cause e).runOn d = (e.mapError cause, d) := by
  cases e <;> rfl

theorem runOn_say (p : Place) (markup : Text) (d : Desk) :
    (say p markup).runOn d = match Console.print p.screen markup with
      | .ok t => (.ok (), { d with output := d.output ++ t })
      | .error f => (.error (.markup f), d) := by
  rw [say, runOn_bind, runOn_ofExcept]
  cases Console.print p.screen markup <;> rfl

end Job

/-- the desk once the directory of the settings is made -/
def Desk.made (d : Desk) : Desk := { d with folder := true }

/-! ## Reading the settings -/

namespace Settings

open Job

/-- the settings that a desk holds, as they are read at a place -/
def held (p : Place) (d : Desk) : Except Fault Value :=
  match d.settings with
  | none => .ok initial
  | some t =>
    if p.runtime.reads t then
      ((Yaml.load t.unifyNewlines).mapError readFault).map fun v => if v.isNothing then .map none [] else v
    else .error .tooDeep

theorem runOn_load (p : Place) (d : Desk) : (load p).runOn d = (held p d, d.made) := by
  have hfolder : (folder p).runOn d = (.ok p.folder.toText, d.made) := rfl
  rw [load, runOn_bind_ok hfolder, runOn_bind_ok (runOn_get d.made)]
  unfold held
  cases hs : d.settings with
  | none => simp [Desk.made, hs]
  | some t =>
    simp only [Desk.made, hs]
    split_ifs
    · rw [runOn_bind, runOn_ofExcept]
      cases Yaml.load t.unifyNewlines <;> rfl
    · rfl

/-- the settings are a mapping with these defaults, among which the binary is a text -/
structure Usable (p : Place) (d : Desk) (defaults : Value) (binary : Text) : Prop where
  document : ∃ v, held p d = .ok v ∧ part defaultSection v = .ok defaults
  binary_eq : orElse ((defaults.get? "git_binary").getD .null) binaryDefault = .text binary

variable {p : Place} {d : Desk} {defaults : Value} {binary : Text}

/-- the directory of the settings says nothing about them -/
theorem Usable.made (h : Usable p d defaults binary) : Usable p d.made defaults binary := ⟨h.document, h.binary_eq⟩

theorem Usable.runOn_entry (h : Usable p d defaults binary) (key : Text) :
    (entry p defaultSection key).runOn d = (.ok ((defaults.get? key).getD .null), d.made) := by
  obtain ⟨v, hheld, hpart⟩ := h.document
  have hload : (load p).runOn d = (.ok v, d.made) := by rw [runOn_load, hheld]
  rw [entry, runOn_bind_ok hload, runOn_bind, runOn_ofExcept, hpart]
  rfl

theorem Usable.runOn_orElse (h : Usable p d defaults binary) (key other : Text) :
    (do pure (orElse (← entry p defaultSection key) other) : Job Value).runOn d =
      (.ok (orElse ((defaults.get? key).getD .null) other), d.made) := by
  rw [runOn_bind_ok (h.runOn_entry key)]
  rfl

theorem Usable.runOn_repoPath (h : Usable p d defaults binary) : ∃ repo, (repoPath p).runOn d = (.ok repo, d.made) := by
  rw [repoPath, runOn_bind_ok (h.runOn_entry _)]
  split
  · exact ⟨_, rfl⟩
  · exact ⟨_, rfl⟩

end Settings

/-! ## Opening -/

namespace Cli

open Job Settings

variable {p : Place} {o : Options} {d : Desk} {defaults : Value} {binary : Text} {place : Path}

/-- a repository that is there: the settings can be used, and the place that the command line names, or the settings where it
names none, or else the working directory, holds one -/
structure Opens (p : Place) (o : Options) (d : Desk) (place : Path) : Prop where
  usable : ∃ defaults binary, Usable p d defaults binary
  named : ∃ t, ((target p o.repo).runOn d).1 = .ok t ∧ p.locate t = some place
  present : p.has d (place.child ".git") = true

/-- looking for the name of the repository makes the directory of the settings at most -/
theorem runOn_target (h : Usable p d defaults binary) (repo : Option Text) :
    ∃ t d', (target p repo).runOn d = (.ok t, d') ∧ (d' = d ∨ d' = d.made) := by
  obtain ⟨configured, hpath⟩ := h.runOn_repoPath
  unfold target
  split
  · exact ⟨_, d, rfl, Or.inl rfl⟩
  · rw [runOn_bind_ok hpath]
    split
    · exact ⟨_, d.made, rfl, Or.inr rfl⟩
    · exact ⟨_, d.made, rfl, Or.inr rfl⟩

/-- a place does not vanish when the directory of the settings, or the settings, are made -/
theorem has_mono {d' : Desk} {path : Path} (hfolder : d.folder = true → d'.folder = true)
    (hsettings : d.settings.isSome = true → d'.settings.isSome = true) (h : p.has d path = true) : p.has d' path = true := by
  simp only [Place.has, List.any_append, Bool.or_eq_true] at h ⊢
  rcases h with h | h | h
  · exact Or.inl h
  · split_ifs at h with hold
    · exact Or.inr (Or.inl (by rwa [if_pos (hfolder hold)]))
    · simp at h
  · split_ifs at h with hold
    · exact Or.inr (Or.inr (by rwa [if_pos (hsettings hold)]))
    · simp at h

theorem has_made {path : Path} (h : p.has d path = true) : p.has d.made path = true := has_mono (d := d) (fun _ => rfl) (fun h => h) h

/-- what is left of opening once the place is found -/
theorem runOn_handle (h : Usable p d defaults binary) (place : Path) (verbose : Bool) :
    ∃ g : Handle, g.verbose = verbose ∧
      (do
        let mainline ← Settings.mainline p
        let remote ← Settings.remote p
        let binary ← Job.ofExcept .mismatch (binaryText (← Settings.binary p))
        pure ⟨place, mainline.shown, remote.shown, binary, verbose⟩ : Job Handle).runOn d = (.ok g, d.made) := by
  have hmainline : (Settings.mainline p).runOn d = _ := h.runOn_orElse "mainline_branch" mainlineDefault
  have hremote : (Settings.remote p).runOn d.made = (_, d.made) := h.made.runOn_orElse "remote" remoteDefault
  have hbinary : (Settings.binary p).runOn d.made = (_, d.made) := h.made.runOn_orElse "git_binary" binaryDefault
  rw [h.binary_eq] at hbinary
  rw [runOn_bind_ok hmainline, runOn_bind_ok hremote, runOn_bind_ok hbinary]
  exact ⟨⟨place, _, _, binary, verbose⟩, rfl, rfl⟩

/-- **A repository that exists is opened**, and nothing is printed on the way. -/
theorem openRepository_ok (h : Opens p o d place) :
    ∃ g : Handle, g.verbose = o.verbose ∧ (openRepository p o).runOn d = (.ok g, d.made) := by
  obtain ⟨defaults, binary, husable⟩ := h.usable
  obtain ⟨t, hnamed, hlocate⟩ := h.named
  obtain ⟨t', d', htarget, hdesk⟩ := runOn_target husable o.repo
  obtain rfl : t' = t := by simpa [htarget] using hnamed
  have husable' : Usable p d' defaults binary := by
    rcases hdesk with rfl | rfl
    · exact husable
    · exact husable.made
  have hmade : d'.made = d.made := by rcases hdesk with rfl | rfl <;> rfl
  have hpresent : p.has d' (place.child ".git") = true := by
    rcases hdesk with rfl | rfl
    · exact h.present
    · exact has_made h.present
  have hfound : (locate p t').runOn d' = (.ok place, d') := by rw [locate, hlocate]; rfl
  have hcheck : (checkRepository p place).runOn d' = (.ok (), d') := by
    rw [checkRepository, runOn_bind_ok (runOn_get d'), if_pos hpresent]
    rfl
  obtain ⟨g, hverbose, hrun⟩ := runOn_handle husable' place o.verbose
  refine ⟨g, hverbose, ?_⟩
  rw [openRepository, runOn_bind_ok htarget, runOn_bind_ok hfound, runOn_bind_ok hcheck, hrun, hmade]

end Cli

end RepoLens
