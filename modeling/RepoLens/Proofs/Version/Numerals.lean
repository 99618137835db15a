import Mathlib
import RepoLens.Proofs.Listing
import RepoLens.Version
/-!
Numerals that are too long. A version is found as it is written before any of its numerals becomes a number, so a name with a
numeral that is too long is the name of a version, but of one that cannot be read. Reading fails with the first such numeral and
with nothing else, because no numeral is missing where one has to stand.

Results:
- `DecidedBy.bind`, `DecidedBy.mapM`: one reading after the other;
- `find_complete`: a version that is found has all the numerals that it needs;
- `decidedBy_ofName`: when the version of a name can be read.
-/
namespace RepoLens.Version

open Text

variable {α β : Type} {ds es : List Text} {x : Except NumberFault α} {letters : Letters} {w : Written}

/-! ## Readings -/

/-- the first of some numerals that is too long -/
def firstLong (numerals : List Text) : Option Text := numerals.find? fun ds => digitLimit < ds.length

/-- a reading that fails with the first of some numerals that is too long, and goes well if none is -/
def DecidedBy (numerals : List Text) (x : Except NumberFault α) : Prop :=
  match firstLong numerals with
  | none => ∃ a, x = .ok a
  | some ds => x = .error (.tooLong ds.length)

theorem firstLong_append (ds es : List Text) : firstLong (ds ++ es) = (firstLong ds).or (firstLong es) := List.find?_append

theorem firstLong_eq_none : firstLong ds = none ↔ ∀ d ∈ ds, d.length ≤ digitLimit := by
  simp [firstLong, List.find?_eq_none]

theorem decidedBy_pure (a : α) : DecidedBy [] (pure a) := ⟨a, rfl⟩

theorem DecidedBy.bind {f : α → Except NumberFault β} (hx : DecidedBy ds x) (hf : ∀ a, DecidedBy es (f a)) :
    DecidedBy (ds ++ es) (x >>= f) := by
  unfold DecidedBy at hx ⊢
  rw [firstLong_append]
  cases hfirst : firstLong ds with
  | none =>
    rw [hfirst] at hx
    obtain ⟨a, rfl⟩ := hx
    exact hf a
  | some d =>
    rw [hfirst] at hx
    rw [show x = .error (.tooLong d.length) from hx]
    rfl

theorem DecidedBy.bind_pure {f : α → β} (hx : DecidedBy ds x) : DecidedBy ds (x >>= fun a => pure (f a)) := by
  have hbind := hx.bind fun a => decidedBy_pure (f a)
  rwa [List.append_nil] at hbind

theorem DecidedBy.mapM {f : α → Except NumberFault β} {numerals : α → List Text} {as : List α}
    (h : ∀ a ∈ as, DecidedBy (numerals a) (f a)) : DecidedBy (as.flatMap numerals) (as.mapM f) := by
  induction as with
  | nil => exact decidedBy_pure []
  | cons a as ih =>
    obtain ⟨ha, has⟩ := List.forall_mem_cons.1 h
    rw [List.flatMap_cons, List.mapM_cons]
    exact ha.bind fun b => (ih has).bind_pure

/-- a reading that goes well has no numeral that is too long -/
theorem DecidedBy.isOk_iff (h : DecidedBy ds x) : (∃ a, x = .ok a) ↔ ∀ d ∈ ds, d.length ≤ digitLimit := by
  rw [← firstLong_eq_none]
  unfold DecidedBy at h
  cases hfirst : firstLong ds with
  | none =>
    rw [hfirst] at h
    exact iff_of_true h rfl
  | some d =>
    rw [hfirst] at h
    rw [show x = .error (.tooLong d.length) from h]
    exact iff_of_false (fun ⟨_, ha⟩ => nomatch ha) (by simp)

/-- a reading fails with the first numeral that is too long -/
theorem DecidedBy.eq_error {before after : List Text} {long : Text} (h : DecidedBy ds x) (hds : ds = before ++ long :: after)
    (hbefore : ∀ d ∈ before, d.length ≤ digitLimit) (hlong : digitLimit < long.length) : x = .error (.tooLong long.length) := by
  have hfirst : firstLong ds = some long := by
    rw [hds, firstLong_append, firstLong_eq_none.2 hbefore, Option.none_or, firstLong, List.find?_cons_of_pos (by simpa using hlong)]
  unfold DecidedBy at h
  rwa [hfirst] at h

/-! ## The parts of a version -/

theorem decidedBy_number {d : Text} (h : d ≠ []) : DecidedBy [d] (number d) := by
  unfold DecidedBy
  by_cases hlong : digitLimit < d.length
  · have hfirst : firstLong [d] = some d := List.find?_cons_of_pos (by simpa using hlong)
    rw [hfirst, number, if_neg (by simpa using h), if_pos hlong]
    rfl
  · have hfirst : firstLong [d] = none := firstLong_eq_none.2 (List.forall_mem_singleton.2 (Nat.le_of_not_lt hlong))
    rw [hfirst, number, if_neg (by simpa using h), if_neg hlong]
    exact ⟨_, rfl⟩

theorem decidedBy_numeral (d : Text) : DecidedBy [d] (numeral d) := by
  by_cases hempty : d = []
  · rw [hempty]
    exact ⟨0, rfl⟩
  · rw [numeral, if_neg (by simpa using hempty)]
    exact decidedBy_number hempty

def markDigits (mark : Option (Text × Text)) : List Text := mark.toList.map Prod.snd

theorem decidedBy_readMark (mark : Option (Text × Text)) : DecidedBy (markDigits mark) (readMark mark) := by
  cases mark with
  | none => exact decidedBy_pure none
  | some m => exact (decidedBy_numeral m.2).bind_pure

/-- a segment that is a numeral -/
def segmentDigits (t : Text) : List Text := if t.all Char.isDigit then [t] else []

theorem decidedBy_readSegment {t : Text} (h : t ≠ []) : DecidedBy (segmentDigits t) (readSegment t) := by
  rw [segmentDigits, readSegment]
  split_ifs
  · rw [map_eq_pure_bind]
    exact (decidedBy_number h).bind_pure
  · exact decidedBy_pure _

/-- the segments of a local build that are numerals -/
def buildDigits (build : Option (List Text)) : List Text := (build.getD []).flatMap segmentDigits

theorem decidedBy_readBuild {build : Option (List Text)} (h : ∀ parts, build = some parts → ∀ p ∈ parts, p ≠ []) :
    DecidedBy (buildDigits build) (readBuild build) := by
  cases build with
  | none => exact decidedBy_pure none
  | some parts =>
    rw [readBuild, map_eq_pure_bind]
    exact (DecidedBy.mapM fun p hp => decidedBy_readSegment (h parts rfl p hp)).bind_pure

/-- the numerals of a version in the order in which they are read -/
def Written.numerals (w : Written) : List Text :=
  [w.epoch] ++ (w.release ++ (markDigits w.pre ++ (markDigits w.post ++ (markDigits w.dev ++ buildDigits w.build))))

/-- a version in which no numeral is missing where one has to stand -/
structure Written.Complete (w : Written) : Prop where
  release : ∀ ds ∈ w.release, ds ≠ []
  build : ∀ parts, w.build = some parts → ∀ p ∈ parts, p ≠ []

/-- **Reading a version** fails with its first numeral that is too long. -/
theorem Written.Complete.decidedBy_read (h : w.Complete) : DecidedBy w.numerals w.read := by
  have hrelease : DecidedBy w.release (w.release.mapM number) := by
    have hmapM := DecidedBy.mapM fun ds hds => decidedBy_number (h.release ds hds)
    rwa [List.flatMap_singleton'] at hmapM
  exact (decidedBy_numeral w.epoch).bind fun _ => hrelease.bind fun _ => (decidedBy_readMark w.pre).bind fun _ =>
    (decidedBy_readMark w.post).bind fun _ => (decidedBy_readMark w.dev).bind fun _ => (decidedBy_readBuild h.build).bind_pure

/-! ## Found versions -/

/-- behind its points a release has digits, and before the first one if it starts with a digit -/
theorem numerals_shape (t : Text) : ∃ first others, (numerals t).1 = first :: others ∧ (∀ ds ∈ others, ds ≠ []) ∧
    (t.head?.any Char.isDigit = true → first ≠ []) := by
  have hpoint : ¬ '.'.isDigit = true := by decide
  fun_induction numerals t with
  | case1 => exact ⟨[], [], rfl, List.forall_mem_nil _, fun h => nomatch h⟩
  | case2 d r hd ns rest hrest ih =>
    rw [hrest] at ih
    obtain ⟨first, others, hns, hothers, hfirst⟩ := ih
    exact ⟨[], first :: others, by rw [← hns], List.forall_mem_cons.2 ⟨hfirst hd, hothers⟩, fun h => absurd h hpoint⟩
  | case3 d r hd => exact ⟨[], [], rfl, List.forall_mem_nil _, fun h => absurd h hpoint⟩
  | case4 c r _ hc ns rest hrest ih =>
    rw [hrest] at ih
    obtain ⟨first, others, hns, hothers, -⟩ := ih
    refine ⟨c :: first, others, ?_, hothers, fun _ => List.cons_ne_nil c first⟩
    rw [show ns = first :: others from hns]
    rfl
  | case5 c r _ hc => exact ⟨[], [], rfl, List.forall_mem_nil _, fun h => absurd h hc⟩

theorem release_nonempty {t : Text} (h : t.head?.any Char.isDigit = true) : ∀ ds ∈ (numerals t).1, ds ≠ [] := by
  obtain ⟨first, others, hshape, hothers, hfirst⟩ := numerals_shape t
  rw [hshape]
  exact List.forall_mem_cons.2 ⟨hfirst h, hothers⟩

theorem segments_nonempty {t : Text} {parts : List Text} (h : segments letters t = some parts) : ∀ p ∈ parts, p ≠ [] := by
  unfold segments at h
  dsimp only at h
  split_ifs at h with hall
  obtain rfl := Option.some.inj h
  intro p hp
  have hpart := List.all_eq_true.1 hall p hp
  rw [Bool.and_eq_true, Bool.not_eq_true', List.isEmpty_eq_false_iff] at hpart
  exact hpart.1

theorem findBare_complete {t : Text} (h : findBare letters t = some w) : w.Complete := by
  unfold findBare at h
  dsimp only at h
  generalize (if t.head?.map letters.taken = some 'v' then t.drop 1 else t) = t₁ at h
  split_ifs at h with hdigit
  have hrelease := release_nonempty (t := (optional epochMark t₁).2) (by simpa using hdigit)
  split at h
  · obtain rfl := Option.some.inj h
    exact ⟨hrelease, fun parts hparts => nomatch hparts⟩
  · obtain ⟨build, hbuild, rfl⟩ := Option.map_eq_some_iff.1 h
    exact ⟨hrelease, fun parts hparts => Option.some.inj hparts ▸ segments_nonempty hbuild⟩
  · cases h

theorem find_complete {t : Text} (h : find letters t = some w) : w.Complete := findBare_complete h

/-- the numerals of a name, if it is the name of a version -/
def numeralsIn (letters : Letters) (name : Text) : List Text :=
  (find letters (name.dropWhile (· = 'v'))).elim [] Written.numerals

/-- **The version of a name** can be read unless one of its numerals is too long. -/
theorem decidedBy_ofName (letters : Letters) (name : Text) : DecidedBy (numeralsIn letters name) (ofName letters name) := by
  unfold numeralsIn ofName
  cases hfind : find letters (name.dropWhile (· = 'v')) with
  | none => exact decidedBy_pure none
  | some w =>
    dsimp only [Option.elim]
    rw [map_eq_pure_bind]
    exact (find_complete hfind).decidedBy_read.bind_pure

end RepoLens.Version
