import Mathlib.Tactic
import RepoLens.Job
import RepoLens.Proofs.Lines
/-!
Resolved paths. A path that has been resolved starts at the top and holds no dots; its text reads back as the same path, and
resolving it again, from wherever and with whatever home, leaves it as it is.

Results:
- `resolved_resolve`: resolving a path of names gives a resolved one;
- `Resolved.ofText_toText`: the text of a resolved path reads back as it;
- `Place.locate_toText`: the text of a resolved path names that path everywhere.
-/
namespace RepoLens

namespace Path

variable {path cwd p : Path} {names : List Text} {t n : Text}

/-! ## Names -/

/-- a name as paths hold them: not empty, no single dot, no slash in it -/
structure IsName (n : Text) : Prop where
  nonempty : n ≠ []
  no_dot : n ≠ ['.']
  no_slash : ∀ c ∈ n, c ≠ '/'

theorem isName_namesOf (h : n ∈ namesOf t) : IsName n := by
  rw [namesOf, List.mem_filter] at h
  obtain ⟨hmem, hname⟩ := h
  simp only [ne_eq, Bool.and_eq_true, decide_eq_true_eq] at hname
  exact ⟨hname.1, hname.2, fun c hc => by simpa using Text.of_mem_cutAt hmem c hc⟩

/-! ## Resolving -/

/-- a path from the top without dots -/
structure Resolved (path : Path) : Prop where
  root : path.root = .top
  names : ∀ n ∈ path.names, IsName n ∧ n ≠ ['.', '.']

/-- one name more leaves no dots -/
theorem walk_names (h : ∀ m ∈ names, IsName m ∧ m ≠ ['.', '.']) (hn : IsName n) :
    ∀ m ∈ walk names n, IsName m ∧ m ≠ ['.', '.'] := by
  intro m hm
  rw [walk] at hm
  split_ifs at hm with hdots
  · exact h m (List.mem_of_mem_dropLast hm)
  · rcases List.mem_append.1 hm with hm | hm
    · exact h m hm
    · rw [List.mem_singleton.1 hm]
      exact ⟨hn, hdots⟩

theorem foldl_walk_names {more : List Text} (h : ∀ m ∈ names, IsName m ∧ m ≠ ['.', '.']) (hmore : ∀ m ∈ more, IsName m) :
    ∀ m ∈ more.foldl walk names, IsName m ∧ m ≠ ['.', '.'] := by
  induction more generalizing names with
  | nil => exact h
  | cons n more ih =>
    obtain ⟨hn, hrest⟩ := List.forall_mem_cons.1 hmore
    exact ih (walk_names h hn) hrest

/-- **Resolving** a path of names, from a directory of names, gives a resolved path. -/
theorem resolved_resolve (hcwd : ∀ n ∈ cwd.names, IsName n) (hp : ∀ n ∈ p.names, IsName n) : Resolved (resolve cwd p) := by
  refine ⟨rfl, foldl_walk_names (fun n hn => absurd hn List.not_mem_nil) fun n hn => ?_⟩
  rw [join] at hn
  split_ifs at hn
  · rcases List.mem_append.1 hn with hn | hn
    · exact hcwd n hn
    · exact hp n hn
  · exact hp n hn

theorem foldl_walk_self {more : List Text} (h : ∀ n ∈ more, n ≠ ['.', '.']) : more.foldl walk names = names ++ more := by
  induction more generalizing names with
  | nil => exact (List.append_nil names).symm
  | cons n more ih =>
    obtain ⟨hn, hrest⟩ := List.forall_mem_cons.1 h
    rw [List.foldl_cons, walk, if_neg hn, ih hrest, List.append_assoc, List.singleton_append]

namespace Resolved

/-- a resolved path stays as it is, from wherever it is resolved -/
theorem resolve_eq (h : Resolved path) (cwd : Path) : resolve cwd path = path := by
  have hroot : ¬ path.root = .here := by rw [h.root]; decide
  rw [resolve, join, if_neg hroot, foldl_walk_self fun n hn => (h.names n hn).2, List.nil_append]
  obtain ⟨root, names⟩ := path
  rw [← h.root]

/-- a resolved path has no tilde to expand -/
theorem expandHome_eq (h : Resolved path) (home : Path) : path.expandHome home = some path := by
  obtain ⟨root, names⟩ := path
  obtain rfl : root = .top := h.root
  rfl

/-! ## Reading the text back -/

theorem toText_eq (h : Resolved path) : path.toText = '/' :: Text.joinWith ['/'] path.names := by
  rw [toText, h.root]
  rfl

/-- the text of a resolved path has one slash at its start -/
theorem leading_slash (h : Resolved path) : (path.toText.takeWhile (· = '/')).length = 1 := by
  rw [h.toText_eq]
  cases hnames : path.names with
  | nil => rfl
  | cons n names =>
    have hn := (h.names n (by rw [hnames]; exact List.mem_cons_self)).1
    cases n with
    | nil => exact absurd rfl hn.nonempty
    | cons c r =>
      have hc : c ≠ '/' := hn.no_slash c List.mem_cons_self
      cases names <;> simp [Text.joinWith, hc]

theorem ofText_toText (h : Resolved path) : ofText path.toText = path := by
  have hnames : namesOf path.toText = path.names := by
    have hkeep : path.names.filter (fun n => n ≠ [] && n ≠ ['.']) = path.names := List.filter_eq_self.2 fun n hn => by
      simpa using ⟨(h.names n hn).1.nonempty, (h.names n hn).1.no_dot⟩
    have hcut : Text.cutAt (· = '/') path.toText = [] :: Text.cutAt (· = '/') (Text.joinWith ['/'] path.names) := by
      rw [h.toText_eq]
      rfl
    rw [namesOf, hcut, List.filter_cons_of_neg (by simp)]
    by_cases hempty : path.names = []
    · rw [hempty]
      rfl
    · rw [Text.cutAt_joinWith (by rfl) hempty fun n hn c hc => decide_eq_false ((h.names n hn).1.no_slash c hc), hkeep]
  obtain ⟨root, names⟩ := path
  obtain rfl : root = .top := h.root
  rw [ofText, h.leading_slash, hnames]
  rfl

theorem toText_ne_nil (h : Resolved path) : path.toText ≠ [] := by
  rw [h.toText_eq]
  exact List.cons_ne_nil _ _

end Resolved

end Path

namespace Place

variable {path : Path} {t : Text}

/-- what a text names is a resolved path -/
theorem resolved_of_locate {p : Place} (h : p.locate t = some path) : path.Resolved := by
  rw [locate, Option.map_eq_some_iff] at h
  obtain ⟨q, hq, rfl⟩ := h
  have hnames : ∀ t, ∀ n ∈ (Path.ofText t).names, Path.IsName n := fun t n hn => Path.isName_namesOf hn
  refine Path.resolved_resolve (hnames p.cwd) fun n hn => ?_
  unfold Path.expandHome at hq
  split at hq
  · rename_i rest _ hrest
    obtain rfl := Option.some.inj hq
    rcases List.mem_append.1 hn with hn | hn
    · exact hnames p.home n hn
    · exact hnames t n (by rw [hrest]; exact List.mem_cons_of_mem _ hn)
  · cases hq
  · obtain rfl := Option.some.inj hq
    exact hnames t n hn

/-- **The text of a resolved path names that path**, whatever the home and the working directory are. -/
theorem locate_toText (h : path.Resolved) (p : Place) : p.locate path.toText = some path := by
  rw [locate, h.ofText_toText, h.expandHome_eq, Option.map_some, h.resolve_eq]

end Place

end RepoLens
