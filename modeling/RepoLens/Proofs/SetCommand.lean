import Mathlib.Tactic
import RepoLens.Proofs.SavedSettings
import RepoLens.Proofs.Styled
/-!
One command that sets something, step by step. It looks at its argument, loads the settings, sets one entry, saves, and says so
on the screen. Everything that can go wrong before the settings are saved leaves them as they are. A save empties the file before
it writes, so settings that cannot be written are lost; what is left after a save that went well is the notice, which shows the
value as markup and fails where that is no markup.

Results:
- `SetCommand.run_cases`: a command is refused, or saves and says so;
- `failed_set_keeps_settings`: a command that fails leaves the settings alone, unless it is its save or its notice that fails;
- `notice_fails_after_save`: a branch whose name closes a tag is saved although the command fails.
-/
namespace RepoLens

namespace Settings

open Job Console

def repoKey : Text := "repo_path"

def mainlineKey : Text := "mainline_branch"

theorem mainlineKey_ne : mainlineKey ≠ repoKey := by decide

/-- a command that sets something -/
inductive SetCommand where
  | repo (t : Text)
  | mainline (branch : Text)
  deriving DecidableEq, Repr

namespace SetCommand

def job (p : Place) : SetCommand → Job Unit
  | repo t => setRepo p t
  | mainline branch => setMainline p branch

def key : SetCommand → Text
  | repo _ => repoKey
  | mainline _ => mainlineKey

/-- the value that a command sets: the place that a text names, or a branch -/
def value? (p : Place) : SetCommand → Option Text
  | repo t => (p.locate t).map Path.toText
  | mainline branch => some branch

def label : SetCommand → Text
  | repo _ => "Repository path set to: "
  | mainline _ => "Mainline branch set to: "

/-- what a command says when it has set a value -/
def notice (c : SetCommand) (value : Text) : Text := "[green]✅ " ++ ((c.label ++ value) ++ "[/green]")

/-- what a command asks of the file system: a repository at the place that it sets -/
def Ready (p : Place) (d : Desk) : SetCommand → Prop
  | repo t => ∃ path, p.locate t = some path ∧ p.has d path = true ∧ p.has d (path.child ".git") = true
  | mainline _ => True

end SetCommand

variable {p : Place} {c : SetCommand} {d d' : Desk} {f : Fault}

theorem runOn_change {key value : Text} {v u : Value} (hheld : held p d = .ok v)
    (hset : withDefault key (.text value) v = .ok u) : (change p key value).runOn d = (save p u).runOn d := by
  have hload : (load p).runOn d = (.ok v, d.made) := by rw [runOn_load, hheld]
  have hentry : (ofExcept .mismatch (withDefault key (.text value) v)).runOn d.made = (.ok u, d.made) := by
    rw [runOn_ofExcept, hset]
    rfl
  rw [change, runOn_bind_ok hload, runOn_bind_ok hentry]
  rfl

/-- setting an entry: either the settings cannot be changed and stay, or they are saved -/
theorem change_cases (p : Place) (key value : Text) (d : Desk) :
    (∃ f, (change p key value).runOn d = (.error f, d.made)) ∨
      ∃ v u, held p d = .ok v ∧ withDefault key (.text value) v = .ok u ∧
        (change p key value).runOn d = (save p u).runOn d := by
  cases hheld : held p d with
  | error f => exact Or.inl ⟨f, by rw [change, runOn_bind, runOn_load, hheld]⟩
  | ok v =>
    cases hset : withDefault key (.text value) v with
    | error cause =>
      refine Or.inl ⟨.mismatch cause, ?_⟩
      rw [change, runOn_bind, runOn_load, hheld]
      simp only [runOn_bind, runOn_ofExcept, hset]
      rfl
    | ok u => exact Or.inr ⟨v, u, rfl, hset, runOn_change hheld hset⟩

/-- refusing prints at most -/
theorem runOn_refuse (p : Place) (message : Text) (d : Desk) :
    ∃ f d', (refuse p message : Job Unit).runOn d = (.error f, d') ∧ d'.settings = d.settings := by
  rw [refuse, runOn_bind, runOn_say]
  cases print p.screen ("[red]Error: " ++ (message ++ "[/red]")) with
  | error f => exact ⟨_, d, rfl, rfl⟩
  | ok t => exact ⟨.exit 1, { d with output := d.output ++ t }, rfl, rfl⟩

/-- a repository is set where its place holds one -/
theorem setRepo_ready {t : Text} {path : Path} (hplace : p.locate t = some path) (hpath : p.has d path = true)
    (hgit : p.has d (path.child ".git") = true) : (setRepo p t).runOn d = (change p "repo_path" path.toText >>= fun _ =>
      confirm p ("Repository path set to: " ++ path.toText)).runOn d := by
  have hfound : (locate p t).runOn d = (.ok path, d) := by rw [locate, hplace]; rfl
  have hcheck : (checkRepository p path).runOn d = (.ok (), d) := by
    rw [checkRepository, runOn_bind_ok (runOn_get d), if_pos hgit]
    rfl
  rw [setRepo, runOn_bind_ok hfound, runOn_bind_ok (runOn_get d), if_pos hpath, runOn_bind_ok hcheck]

/-- a place that is not there, or holds no repository, is refused -/
theorem setRepo_refused {t : Text} {path : Path} (hplace : p.locate t = some path)
    (h : ¬ (p.has d path = true ∧ p.has d (path.child ".git") = true)) :
    ∃ f d', (setRepo p t).runOn d = (.error f, d') ∧ d'.settings = d.settings := by
  have hfound : (locate p t).runOn d = (.ok path, d) := by rw [locate, hplace]; rfl
  rw [setRepo, runOn_bind_ok hfound, runOn_bind_ok (runOn_get d)]
  by_cases hpath : p.has d path = true
  · have hgit : ¬ p.has d (path.child ".git") = true := fun hgit => h ⟨hpath, hgit⟩
    obtain ⟨f, d', hrefuse, hkept⟩ := runOn_refuse p ("Not a git repository: " ++ path.toText) d
    have hcheck : (checkRepository p path).runOn d = (.error f, d') := by
      rw [checkRepository, runOn_bind_ok (runOn_get d), if_neg hgit, hrefuse]
    exact ⟨f, d', by rw [if_pos hpath, runOn_bind_error hcheck], hkept⟩
  · obtain ⟨f, d', hrefuse, hkept⟩ := runOn_refuse p ("Path does not exist: " ++ path.toText) d
    exact ⟨f, d', by rw [if_neg hpath, runOn_bind_error hrefuse], hkept⟩

/-- a command that has what it needs saves the settings with its entry set; its notice is all that is left to do then -/
theorem SetCommand.run_ready {value : Text} {v u : Value} (hvalue : c.value? p = some value) (hready : c.Ready p d)
    (hheld : held p d = .ok v) (hset : withDefault c.key (.text value) v = .ok u) :
    (c.job p).runOn d = (save p u >>= fun _ => say p (c.notice value)).runOn d := by
  cases c with
  | mainline branch =>
    obtain rfl := Option.some.inj hvalue
    exact runOn_bind_congr (runOn_change hheld hset) _
  | repo t =>
    obtain ⟨path, hplace, hpath, hgit⟩ := hready
    obtain rfl : path.toText = value := by
      rw [value?, hplace] at hvalue
      exact Option.some.inj hvalue
    exact (setRepo_ready hplace hpath hgit).trans (runOn_bind_congr (runOn_change hheld hset) _)

/-- **How a command ends.** Either it is refused and the settings stay, or the settings are saved with one entry set, and the
notice is all that is left to do then. -/
theorem SetCommand.run_cases (p : Place) (c : SetCommand) (d : Desk) :
    (∃ f d', (c.job p).runOn d = (.error f, d') ∧ d'.settings = d.settings) ∨
      ∃ value v u, c.value? p = some value ∧ c.Ready p d ∧ held p d = .ok v ∧ withDefault c.key (.text value) v = .ok u ∧
        (c.job p).runOn d = (save p u >>= fun _ => say p (c.notice value)).runOn d := by
  cases c with
  | mainline branch =>
    rcases change_cases p "mainline_branch" branch d with ⟨f, hchange⟩ | ⟨v, u, hheld, hset, hchange⟩
    · exact Or.inl ⟨f, d.made, runOn_bind_error hchange, rfl⟩
    · exact Or.inr ⟨branch, v, u, rfl, trivial, hheld, hset, runOn_bind_congr hchange _⟩
  | repo t =>
    cases hplace : p.locate t with
    | none =>
      have hlost : (locate p t).runOn d = (.error .noHome, d) := by rw [locate, hplace]; rfl
      exact Or.inl ⟨.noHome, d, runOn_bind_error hlost, rfl⟩
    | some path =>
      by_cases hready : p.has d path = true ∧ p.has d (path.child ".git") = true
      · have hrun := setRepo_ready hplace hready.1 hready.2
        rcases change_cases p "repo_path" path.toText d with ⟨f, hchange⟩ | ⟨v, u, hheld, hset, hchange⟩
        · exact Or.inl ⟨f, d.made, hrun.trans (runOn_bind_error hchange), rfl⟩
        · exact Or.inr ⟨path.toText, v, u, by rw [value?, hplace]; rfl, ⟨path, hplace, hready.1, hready.2⟩, hheld, hset,
            hrun.trans (runOn_bind_congr hchange _)⟩
      · obtain ⟨f, d', hrun, hkept⟩ := setRepo_refused hplace hready
        exact Or.inl ⟨f, d', hrun, hkept⟩

/-- a command that ends well has saved the settings with its entry set, and printed its notice -/
theorem SetCommand.run_ok (hrun : (c.job p).runOn d = (.ok (), d')) :
    ∃ value v u t, c.value? p = some value ∧ c.Ready p d ∧ held p d = .ok v ∧ withDefault c.key (.text value) v = .ok u ∧
      Writable p u ∧ d' = { saved u d with output := d.output ++ t } := by
  rcases c.run_cases p d with ⟨f, d'', hfail, -⟩ | ⟨value, v, u, hvalue, hready, hheld, hset, hsaves⟩
  · rw [hfail] at hrun
    cases hrun
  · rw [hsaves] at hrun
    by_cases hwrite : Writable p u
    · rw [runOn_bind_ok (runOn_save hwrite d), runOn_say] at hrun
      cases hprint : print p.screen (c.notice value) with
      | error f => rw [hprint] at hrun; cases hrun
      | ok t =>
        rw [hprint] at hrun
        cases hrun
        exact ⟨value, v, u, t, hvalue, hready, hheld, hset, hwrite, rfl⟩
    · obtain ⟨f, hfault, -⟩ := runOn_save_fault hwrite d
      rw [runOn_bind_error hfault] at hrun
      cases hrun

/-! ## Commands that fail -/

theorem styleWord_green : Markup.StyleWord "green" := by decide +kernel

/-- a value without brackets can be shown -/
theorem notice_shows {value : Text} (c : SetCommand) (h : '[' ∉ value) (screen : Screen) :
    ∃ t, print screen (c.notice value) = .ok t := by
  have hlabel : '[' ∉ c.label := by
    cases c with
    | repo t => exact (by decide : '[' ∉ "Repository path set to: ".toList)
    | mainline branch => exact (by decide : '[' ∉ "Mainline branch set to: ".toList)
  have hplain : '[' ∉ c.label ++ value := by simp [hlabel, h]
  exact Markup.print_between styleWord_green (by decide : Markup.Bare "✅ ") rfl rfl hplain screen

/-- a command that has what it needs ends well if the settings can be written and its value has no brackets -/
theorem SetCommand.run_bracketless {value : Text} {v u : Value} (hvalue : c.value? p = some value) (hready : c.Ready p d)
    (hheld : held p d = .ok v) (hset : withDefault c.key (.text value) v = .ok u) (hwrite : Writable p u)
    (hplain : '[' ∉ value) : ∃ t, (c.job p).runOn d = (.ok (), { saved u d with output := d.output ++ t }) := by
  obtain ⟨t, ht⟩ := notice_shows c hplain p.screen
  refine ⟨t, ?_⟩
  rw [c.run_ready hvalue hready hheld hset, runOn_bind_ok (runOn_save hwrite d), runOn_say, ht]
  rfl

/-- where a command that fails has got to, if the settings are not as they were: it was to set an entry in the settings that
were there, and either they could not be written, which leaves an empty file, or they are saved and the notice failed -/
inductive Lost (p : Place) (c : SetCommand) (d d' : Desk) (f : Fault) : Prop where
  | save {value : Text} {v u : Value} (hvalue : c.value? p = some value) (hheld : held p d = .ok v)
    (hset : withDefault c.key (.text value) v = .ok u) (hwrite : ¬ Writable p u)
    (hfault : f = .tooDeep ∨ f = .number .tooLarge) (hdesk : d' = emptied d)
  | notice {value : Text} {v u : Value} {cause : MarkupFault} (hvalue : c.value? p = some value) (hheld : held p d = .ok v)
    (hset : withDefault c.key (.text value) v = .ok u) (hwrite : Writable p u)
    (hprint : print p.screen (c.notice value) = .error cause) (hfault : f = .markup cause) (hdesk : d' = saved u d)

/-- **A command that fails leaves the settings alone**, unless all went well until the new settings could not be written, or
until its notice could not be shown: the file is left empty then, or with the entry set. So the settings stay if the new ones can
be written and the value has no opening bracket, with which it can always be shown. -/
theorem failed_set_keeps_settings (p : Place) (c : SetCommand) (d d' : Desk) (f : Fault)
    (h : (c.job p).runOn d = (.error f, d')) :
    (d'.settings = d.settings ∨ Lost p c d d' f) ∧
    ((∀ value v u, c.value? p = some value → held p d = .ok v → withDefault c.key (.text value) v = .ok u →
      Writable p u ∧ '[' ∉ value) → d'.settings = d.settings) := by
  have hcases : d'.settings = d.settings ∨ Lost p c d d' f := by
    rcases c.run_cases p d with ⟨f', d'', hrun, hkept⟩ | ⟨value, v, u, hvalue, -, hheld, hset, hrun⟩
    · rw [hrun] at h
      exact Or.inl ((Prod.mk.inj h).2 ▸ hkept)
    · rw [hrun] at h
      by_cases hwrite : Writable p u
      · rw [runOn_bind_ok (runOn_save hwrite d), runOn_say] at h
        cases hprint : print p.screen (c.notice value) with
        | ok t => rw [hprint] at h; cases h
        | error cause =>
          rw [hprint] at h
          cases h
          exact Or.inr (.notice hvalue hheld hset hwrite hprint rfl rfl)
      · obtain ⟨f', hfault, hcause⟩ := runOn_save_fault hwrite d
        rw [runOn_bind_error hfault] at h
        cases h
        exact Or.inr (.save hvalue hheld hset hwrite (hcause.imp And.right And.right) rfl)
  refine ⟨hcases, fun hsafe => ?_⟩
  rcases hcases with hkept | @⟨value, v, u, hvalue, hheld, hset, hwrite, -, -⟩ | @⟨value, v, u, cause, hvalue, hheld, hset, -, hprint, -, -⟩
  · exact hkept
  · exact absurd (hsafe value v u hvalue hheld hset).1 hwrite
  · obtain ⟨t, ht⟩ := notice_shows c (hsafe value v u hvalue hheld hset).2 p.screen
    rw [ht] at hprint
    cases hprint

/-- a place that is not there, where nothing has been set -/
theorem failed_set_keeps_settings_nowhere :
    let p : Place := .plain "/home/user" "/home/user" [] 80
    let d := Desk.fresh none
    ∃ f d', ((SetCommand.repo "/nowhere").job p).runOn d = (.error f, d') ∧ d'.settings = d.settings := by
  intro p d
  have hplace : p.locate "/nowhere" = some ⟨.top, ["nowhere".toList]⟩ := by rfl
  obtain ⟨f, d', hrun, -⟩ := setRepo_refused (d := d) hplace fun hboth => absurd hboth.1 (by decide)
  refine ⟨f, d', hrun, (failed_set_keeps_settings p (.repo "/nowhere") d d' f hrun).2 fun value v u hvalue hheld hset => ?_⟩
  obtain rfl : initial = v := Except.ok.inj hheld
  obtain rfl : "/nowhere".toList = value := Option.some.inj hvalue
  rw [← Except.ok.inj hset]
  exact ⟨⟨rfl, rfl⟩, by decide⟩

/-- a branch whose name closes a tag is saved although the command fails -/
theorem notice_fails_after_save :
    let p : Place := .plain "/home/user" "/home/user" [] 80
    let d := Desk.fresh none
    ∃ d', ((SetCommand.mainline "[/x]").job p).runOn d = (.error (.markup (.unmatched "[/x]" 33)), d') ∧
      d.settings = none ∧ d'.settings ≠ none := by
  intro p d
  obtain ⟨u, hset, hwrite⟩ : ∃ u, withDefault mainlineKey (.text "[/x]") initial = .ok u ∧ Writable p u :=
    ⟨_, rfl, rfl, rfl⟩
  have hprint : print p.screen ((SetCommand.mainline "[/x]").notice "[/x]") = .error (.unmatched "[/x]" 33) := by
    decide +kernel
  refine ⟨saved u d, ?_, rfl, fun h => nomatch h⟩
  rw [SetCommand.run_ready (c := .mainline "[/x]") rfl trivial rfl hset, runOn_bind_ok (runOn_save hwrite d), runOn_say, hprint]

end Settings

end RepoLens
