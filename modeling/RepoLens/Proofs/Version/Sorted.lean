import Mathlib
import RepoLens.Proofs.Version.Numbers
/-!
Names in order. The names that are versions come first, by version and, where two names stand for one version, by code point; the
others come after them by code point. Two different names are never alike in this order, so the order of what comes in makes no
difference to what goes out. Every name is read before any is put in its place, so one numeral that is too long keeps all of them
from being sorted.

Results:
- `decidedBy_sortNames`: when names can be sorted;
- `nameOrder_isLE`: the order of version names is lexicographic, first in the ranks of the versions and then in code points;
- `sortNames_perm`, `sortNames_of_perm`: no name is lost or made twice, and only the names count, not their order;
- `before_dotted`: names made of numbers come in the order of their numbers;
- `names_sorted`: all of it;
- `long_name_unsorted`: a name made of numbers that keeps a list from being sorted.
-/
namespace RepoLens.Version

/-! ## Order -/

/-- the comparison of lists is the lexicographic order, if the comparison of their items is the order of these -/
theorem compare_lt_iff {α : Type} [Ord α] [LT α] [Std.LawfulEqOrd α] (h : ∀ a b : α, compare a b = .lt ↔ a < b)
    (as bs : List α) : compare as bs = .lt ↔ as < bs := by
  rw [List.compare_eq_compareLex]
  induction as generalizing bs with
  | nil => cases bs <;> simp [List.compareLex_nil_nil, List.compareLex_nil_cons]
  | cons a as ih =>
    cases bs with
    | nil => simp [List.compareLex_cons_nil]
    | cons b bs =>
      rw [List.compareLex_cons_cons, Ordering.then_eq_lt, List.cons_lt_cons_iff, h, ih, Std.LawfulEqOrd.compare_eq_iff_eq]

/-- version names by version, and names of one version by code point -/
def Before (p q : Version × Text) : Prop := p.1.rank < q.1.rank ∨ p.1.rank = q.1.rank ∧ p.2.points ≤ q.2.points

theorem compare_points_lt (ms ns : List Nat) : compare ms ns = .lt ↔ ms < ns :=
  compare_lt_iff (fun _ _ => Nat.compare_eq_lt) ms ns

theorem compare_ranks_lt (ms ns : List (List Nat)) : compare ms ns = .lt ↔ ms < ns :=
  compare_lt_iff compare_points_lt ms ns

theorem order_isLE (s t : Text) : (s.order t).isLE = true ↔ s.points ≤ t.points := by
  rw [Text.order, Ordering.isLE_iff_eq_lt_or_eq_eq, compare_points_lt, Std.LawfulEqOrd.compare_eq_iff_eq, le_iff_lt_or_eq]

theorem nameOrder_isLE (p q : Version × Text) : (nameOrder p q).isLE = true ↔ Before p q := by
  rw [nameOrder, Ordering.isLE_then_iff_or, compare_ranks_lt, Std.LawfulEqOrd.compare_eq_iff_eq, order_isLE, Before]

theorem before_trans {p q r : Version × Text} (hpq : Before p q) (hqr : Before q r) : Before p r := by
  rcases hpq with hpq | ⟨hpq, hpq'⟩
  · rcases hqr with hqr | ⟨hqr, -⟩
    · exact .inl (hpq.trans hqr)
    · exact .inl (hqr ▸ hpq)
  · rcases hqr with hqr | ⟨hqr, hqr'⟩
    · exact .inl (hpq ▸ hqr)
    · exact .inr ⟨hpq.trans hqr, hpq'.trans hqr'⟩

theorem before_total (p q : Version × Text) : Before p q ∨ Before q p := by
  rcases lt_trichotomy p.1.rank q.1.rank with hlt | heq | hgt
  · exact .inl (.inl hlt)
  · rcases le_total p.2.points q.2.points with hle | hle
    · exact .inl (.inr ⟨heq, hle⟩)
    · exact .inr (.inr ⟨heq.symm, hle⟩)
  · exact .inr (.inl hgt)

theorem points_injective {s t : Text} (h : s.points = t.points) : s = t :=
  List.map_injective_iff.2 (fun _ _ hc => Char.toNat_inj.1 hc) h

/-- names that come before each other are the same -/
theorem before_antisymm {p q : Version × Text} (hpq : Before p q) (hqp : Before q p) : p.2 = q.2 := by
  rcases hpq with hlt | ⟨heq, hle⟩
  · rcases hqp with hgt | ⟨heq, -⟩
    · exact absurd (hlt.trans hgt) (lt_irrefl _)
    · exact absurd heq hlt.ne'
  · rcases hqp with hgt | ⟨-, hge⟩
    · exact absurd heq hgt.ne'
    · exact points_injective (le_antisymm hle hge)

/-! ## Reading the names -/

variable {letters : Letters} {names sorted : List Text}

/-- the numerals of some names that are versions -/
def allNumerals (letters : Letters) (names : List Text) : List Text := names.flatMap (numeralsIn letters)

/-- **Names can be sorted** unless a numeral of one of them is too long. -/
theorem decidedBy_sortNames (letters : Letters) (names : List Text) :
    DecidedBy (allNumerals letters names) (sortNames letters names) :=
  (DecidedBy.mapM fun n _ => (decidedBy_ofName letters n).bind_pure).bind_pure

/-- the version of a name, if it can be read and is one -/
def versionOf (letters : Letters) (name : Text) : Option Version := (ofName letters name).toOption.join

/-! ## Sorting -/

/-- the names that are versions, with these -/
def versionNames (letters : Letters) (names : List Text) : List (Version × Text) :=
  names.filterMap fun n => (versionOf letters n).map fun v => (v, n)

/-- the names that are not -/
def otherNames (letters : Letters) (names : List Text) : List Text := names.filter fun n => (versionOf letters n).isNone

def sortedVersions (letters : Letters) (names : List Text) : List (Version × Text) :=
  (versionNames letters names).mergeSort fun p q => (nameOrder p q).isLE

def sortedOthers (letters : Letters) (names : List Text) : List Text :=
  (otherNames letters names).mergeSort fun m n => (m.order n).isLE

/-- reading the names puts each next to its version, if all can be read -/
theorem readNames_eq_ok {read : List (Option Version × Text)} :
    names.mapM (fun n => do pure (← ofName letters n, n)) = .ok read ↔
      (∀ n ∈ names, ∃ v, ofName letters n = .ok v) ∧ read = names.map fun n => (versionOf letters n, n) := by
  rw [Listing.mapM_eq_ok]
  induction names generalizing read with
  | nil =>
    rw [List.forall₂_nil_left_iff]
    exact (and_iff_right (List.forall_mem_nil _)).symm
  | cons n names ih =>
    rw [List.forall₂_cons_left_iff, List.forall_mem_cons]
    constructor
    · rintro ⟨r, rest, hr, hrest, rfl⟩
      obtain ⟨v, hv, rfl⟩ := bind_pure_eq_ok.1 hr
      obtain ⟨hnames, rfl⟩ := ih.1 hrest
      exact ⟨⟨⟨v, hv⟩, hnames⟩, by rw [List.map_cons, versionOf, hv]; rfl⟩
    · rintro ⟨⟨⟨v, hv⟩, hnames⟩, rfl⟩
      refine ⟨(versionOf letters n, n), _, ?_, ih.2 ⟨hnames, rfl⟩, rfl⟩
      rw [versionOf, hv]
      rfl

theorem versionNames_eq (letters : Letters) (names : List Text) :
    ((names.map fun n => (versionOf letters n, n)).filterMap fun r => r.1.map fun v => (v, r.2)) =
      versionNames letters names := by
  rw [List.filterMap_map]
  rfl

theorem otherNames_eq (letters : Letters) (names : List Text) :
    ((names.map fun n => (versionOf letters n, n)).filter fun r => r.1.isNone).map Prod.snd = otherNames letters names := by
  rw [List.filter_map, List.map_map]
  exact List.map_id' _

/-- names that have been sorted could all be read, and each is among the versions or among the others -/
theorem sortNames_eq_ok : sortNames letters names = .ok sorted ↔
    (∀ n ∈ names, ∃ v, ofName letters n = .ok v) ∧
      sorted = (sortedVersions letters names).map Prod.snd ++ sortedOthers letters names := by
  unfold sortNames
  rw [bind_eq_ok]
  simp only [readNames_eq_ok, pure_eq_ok]
  constructor
  · rintro ⟨_, ⟨hnames, rfl⟩, hsorted⟩
    rw [versionNames_eq, otherNames_eq] at hsorted
    exact ⟨hnames, hsorted⟩
  · rintro ⟨hnames, rfl⟩
    refine ⟨_, ⟨hnames, rfl⟩, ?_⟩
    rw [versionNames_eq, otherNames_eq]
    rfl

theorem version_of_mem {p : Version × Text} (hp : p ∈ versionNames letters names) : versionOf letters p.2 = some p.1 := by
  obtain ⟨n, -, hn⟩ := List.mem_filterMap.1 hp
  obtain ⟨v, hv, rfl⟩ := Option.map_eq_some_iff.1 hn
  exact hv

theorem none_of_mem {n : Text} (hn : n ∈ otherNames letters names) : versionOf letters n = none :=
  Option.isNone_iff_eq_none.1 (List.mem_filter.1 hn).2

theorem versionNames_snd (letters : Letters) (names : List Text) :
    (versionNames letters names).map Prod.snd = names.filter fun n => !(versionOf letters n).isNone := by
  induction names with
  | nil => rfl
  | cons n names ih =>
    cases hn : versionOf letters n with
    | none => simpa [versionNames, hn] using ih
    | some v => simpa [versionNames, hn] using ih

theorem sortedVersions_perm (letters : Letters) (names : List Text) : (sortedVersions letters names).Perm (versionNames letters names) :=
  List.mergeSort_perm _ _

theorem sortedOthers_perm (letters : Letters) (names : List Text) : (sortedOthers letters names).Perm (otherNames letters names) :=
  List.mergeSort_perm _ _

theorem sortedVersions_pairwise (letters : Letters) (names : List Text) : (sortedVersions letters names).Pairwise Before := by
  refine (List.pairwise_mergeSort ?_ ?_ (versionNames letters names)).imp fun h => (nameOrder_isLE _ _).1 h
  · intro p q r hpq hqr
    rw [nameOrder_isLE] at hpq hqr ⊢
    exact before_trans hpq hqr
  · intro p q
    rw [Bool.or_eq_true, nameOrder_isLE, nameOrder_isLE]
    exact before_total p q

theorem sortedOthers_pairwise (letters : Letters) (names : List Text) : (sortedOthers letters names).Pairwise fun m n => m.points ≤ n.points := by
  refine (List.pairwise_mergeSort ?_ ?_ (otherNames letters names)).imp fun h => (order_isLE _ _).1 h
  · intro l m n hlm hmn
    rw [order_isLE] at hlm hmn ⊢
    exact hlm.trans hmn
  · intro m n
    rw [Bool.or_eq_true, order_isLE, order_isLE]
    exact le_total m.points n.points

/-- a name that is among the versions is read as one -/
theorem ofName_of_version (h : ∀ n ∈ names, ∃ v, ofName letters n = .ok v) {p : Version × Text}
    (hp : p ∈ versionNames letters names) : ofName letters p.2 = .ok (some p.1) := by
  have hversion := version_of_mem hp
  obtain ⟨n, hn, hmap⟩ := List.mem_filterMap.1 hp
  obtain ⟨v, -, rfl⟩ := Option.map_eq_some_iff.1 hmap
  obtain ⟨u, hu⟩ := h n hn
  rw [versionOf, hu] at hversion
  rw [hu, show u = some v from hversion]

theorem ofName_of_other (h : ∀ n ∈ names, ∃ v, ofName letters n = .ok v) {n : Text} (hn : n ∈ otherNames letters names) :
    ofName letters n = .ok none := by
  have hother := none_of_mem hn
  obtain ⟨u, hu⟩ := h n (List.mem_filter.1 hn).1
  rw [versionOf, hu] at hother
  rw [hu, show u = none from hother]

/-- **No name is lost or made twice.** -/
theorem sortNames_perm (h : sortNames letters names = .ok sorted) : sorted.Perm names := by
  obtain ⟨-, rfl⟩ := sortNames_eq_ok.1 h
  have hversions := (sortedVersions_perm letters names).map Prod.snd
  rw [versionNames_snd] at hversions
  have hparted := List.filter_append_perm (fun n => (versionOf letters n).isNone) names
  exact (hversions.append (sortedOthers_perm letters names)).trans (List.perm_append_comm.trans hparted)

/-- **Only the names count**, not the order that they come in. -/
theorem sortNames_of_perm {names' : List Text} (hperm : names'.Perm names) (h : sortNames letters names = .ok sorted) :
    sortNames letters names' = .ok sorted := by
  obtain ⟨hnames, rfl⟩ := sortNames_eq_ok.1 h
  have hversions : sortedVersions letters names' = sortedVersions letters names := by
    refine List.Perm.eq_of_pairwise ?_ (sortedVersions_pairwise letters names') (sortedVersions_pairwise letters names) ?_
    · intro p q hp hq hpq hqp
      have hname := before_antisymm hpq hqp
      have hpv := version_of_mem ((sortedVersions_perm letters names').mem_iff.1 hp)
      have hqv := version_of_mem ((sortedVersions_perm letters names).mem_iff.1 hq)
      rw [hname, hqv] at hpv
      exact Prod.ext (Option.some.inj hpv.symm) hname
    · exact (sortedVersions_perm letters names').trans ((hperm.filterMap _).trans (sortedVersions_perm letters names).symm)
  have hothers : sortedOthers letters names' = sortedOthers letters names := by
    refine List.Perm.eq_of_pairwise ?_ (sortedOthers_pairwise letters names') (sortedOthers_pairwise letters names) ?_
    · intro m n _ _ hmn hnm
      exact points_injective (le_antisymm hmn hnm)
    · exact (sortedOthers_perm letters names').trans ((hperm.filter _).trans (sortedOthers_perm letters names).symm)
  exact sortNames_eq_ok.2 ⟨fun n hn => hnames n (hperm.mem_iff.1 hn), by rw [hversions, hothers]⟩

/-! ## Main result -/

/-- version names in order, then names that are not versions in order -/
def InOrder (letters : Letters) (names : List Text) : Prop :=
  ∃ (versions : List (Version × Text)) (others : List Text), names = versions.map Prod.snd ++ others ∧
    (∀ p ∈ versions, ofName letters p.2 = .ok (some p.1)) ∧ (∀ n ∈ others, ofName letters n = .ok none) ∧
    versions.Pairwise Before ∧ others.Pairwise fun m n => m.points ≤ n.points

theorem sortNames_inOrder (h : sortNames letters names = .ok sorted) : InOrder letters sorted := by
  obtain ⟨hnames, rfl⟩ := sortNames_eq_ok.1 h
  refine ⟨sortedVersions letters names, sortedOthers letters names, rfl, ?_, ?_, sortedVersions_pairwise letters names,
    sortedOthers_pairwise letters names⟩
  · intro p hp
    exact ofName_of_version hnames ((sortedVersions_perm letters names).mem_iff.1 hp)
  · intro n hn
    exact ofName_of_other hnames ((sortedOthers_perm letters names).mem_iff.1 hn)

theorem before_dotted {a b : DottedName} (ha : a.Short) (hb : b.Short) {v w : Version}
    (hv : ofName letters a.text = .ok (some v)) (hw : ofName letters b.text = .ok (some w)) :
    Before (v, a.text) (w, b.text) ↔ a.Before b := by
  rw [DottedName.ofName_text ha, Except.ok.injEq, Option.some.injEq] at hv
  rw [DottedName.ofName_text hb, Except.ok.injEq, Option.some.injEq] at hw
  subst hv hw
  have hlt := lt_trimZeros_iff a.numbers b.numbers
  have heq := trimZeros_eq_iff a.numbers b.numbers
  simp [Before, DottedName.Before, rank, preRank, postRank, devRank, List.cons_lt_cons_iff, hlt, heq]

/-- **Names are sorted** if none of their numerals is too long, and else the first that is too long is the fault. Then all of them
are kept, the versions first. Any order of the same names gives the same result, and so does sorting again. Names made of numbers
can be read exactly if none of these is too long, and then they are versions and come in the order of their numbers. -/
theorem names_sorted (letters : Letters) (names names' : List Text) (h : names'.Perm names) :
    ((∃ sorted, sortNames letters names = .ok sorted) ↔ ∀ ds ∈ allNumerals letters names, ds.length ≤ Text.digitLimit) ∧
    (∀ before ds after, allNumerals letters names = before ++ ds :: after → (∀ d ∈ before, d.length ≤ Text.digitLimit) →
      Text.digitLimit < ds.length → sortNames letters names = .error (.tooLong ds.length)) ∧
    (∀ sorted, sortNames letters names = .ok sorted → sorted.Perm names ∧ InOrder letters sorted ∧
      sortNames letters names' = .ok sorted ∧ sortNames letters sorted = .ok sorted) ∧
    (∀ a : DottedName, (∃ v, ofName letters a.text = .ok v) ↔ a.Short) ∧
    ∀ a b : DottedName, a.Short → b.Short → ∃ v w, ofName letters a.text = .ok (some v) ∧
      ofName letters b.text = .ok (some w) ∧ (Before (v, a.text) (w, b.text) ↔ a.Before b) := by
  have hdecided := decidedBy_sortNames letters names
  refine ⟨hdecided.isOk_iff, fun before ds after => hdecided.eq_error, fun sorted hsorted => ?_,
    fun a => a.readable_text letters, fun a b ha hb => ?_⟩
  · exact ⟨sortNames_perm hsorted, sortNames_inOrder hsorted, sortNames_of_perm h hsorted,
      sortNames_of_perm (sortNames_perm hsorted) hsorted⟩
  · have hv := DottedName.ofName_text ha letters
    have hw := DottedName.ofName_text hb letters
    exact ⟨_, _, hv, hw, before_dotted ha hb hv hw⟩

/-- one version under three names, and a number of two digits; the names come in from the last to the first -/
theorem names_sorted_tags :
    sortNames .unicode ["latest", "v1.10", "1.9", "v1.0", "1.0.0", "1.0"] =
      .ok (["1.0", "1.0.0", "v1.0", "1.9", "v1.10", "latest"] : List Text) := by
  obtain ⟨-, -, hsorted, -⟩ := names_sorted .unicode ["1.0", "1.0.0", "v1.0", "1.9", "v1.10", "latest"]
    ["latest", "v1.10", "1.9", "v1.0", "1.0.0", "1.0"] (by decide)
  exact (hsorted _ (by cbv)).2.2.1

/-- a name made of numbers cannot be sorted if its first run is too long -/
theorem sortNames_long (a : DottedName) (hlong : Text.digitLimit < a.first.text.length) (letters : Letters) :
    sortNames letters [a.text] = .error (.tooLong a.first.text.length) := by
  have hnumerals : allNumerals letters [a.text] = [[]] ++ a.first.text :: a.rest.map DigitRun.text := by
    rw [allNumerals, List.flatMap_singleton, a.numeralsIn_text]
    rfl
  have hepoch : ∀ d ∈ [([] : Text)], d.length ≤ Text.digitLimit := List.forall_mem_singleton.2 (Nat.zero_le _)
  exact (decidedBy_sortNames letters [a.text]).eq_error hnumerals hepoch hlong

/-- a name made of numbers whose only run is one digit too long -/
def longName : DottedName where
  leading := 1
  first := ⟨List.replicate (Text.digitLimit + 1) '9', List.cons_ne_nil _ _,
    List.all_eq_true.2 fun _ hc => List.eq_of_mem_replicate hc ▸ rfl⟩
  rest := []

/-- it cannot be sorted, not even alone -/
theorem long_name_unsorted : sortNames .unicode [longName.text] = .error (.tooLong (Text.digitLimit + 1)) := by
  have hnines : longName.first.text = List.replicate (Text.digitLimit + 1) '9' := rfl
  have hlength : longName.first.text.length = Text.digitLimit + 1 := by rw [hnines, List.length_replicate]
  rw [← hlength]
  exact sortNames_long longName (by rw [hlength]; exact Nat.lt_succ_self _) .unicode

end RepoLens.Version
