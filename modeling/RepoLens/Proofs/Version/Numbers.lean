import Mathlib
import RepoLens.Proofs.Fields
import RepoLens.Proofs.Version.Numerals
/-!
Names made of numbers. Such a name is any number of `v`, then runs of decimal digits with points between them; it is a version
whose release is these numbers. Releases are ranked without the zeros at their ends and then in lexicographic order, which is the
order by the first number in which they differ, where a number that is not there counts as zero.

Results:
- `lt_trimZeros_iff`, `trimZeros_eq_iff`: the order of two releases in terms of their numbers;
- `DottedName.find_bare`: a name made of numbers is a version that is written as these runs;
- `DottedName.ofName_text`: it is read as that release, if no run is too long.
-/
namespace RepoLens.Version

/-! ## Numbers that are not there -/

/-- the first number in which two releases differ is smaller in the first one; a number that is not there counts as zero -/
def Smaller (ms ns : List Nat) : Prop := ∃ k, (∀ j < k, ms.getD j 0 = ns.getD j 0) ∧ ms.getD k 0 < ns.getD k 0

/-- two releases have the same numbers; a number that is not there counts as zero -/
def SameNumbers (ms ns : List Nat) : Prop := ∀ k, ms.getD k 0 = ns.getD k 0

theorem getD_succ (ns : List Nat) (k : Nat) : ns.getD (k + 1) 0 = ns.tail.getD k 0 := by
  cases ns <;> rfl

/-- two releases by their first numbers and by the others -/
theorem smaller_iff (ms ns : List Nat) :
    Smaller ms ns ↔ ms.getD 0 0 < ns.getD 0 0 ∨ ms.getD 0 0 = ns.getD 0 0 ∧ Smaller ms.tail ns.tail := by
  constructor
  · rintro ⟨k, hbefore, hk⟩
    cases k with
    | zero => exact .inl hk
    | succ k =>
      refine .inr ⟨hbefore 0 (by omega), k, fun j hj => ?_, ?_⟩
      · rw [← getD_succ, ← getD_succ]
        exact hbefore (j + 1) (by omega)
      · rwa [← getD_succ, ← getD_succ]
  · rintro (hfirst | ⟨hfirst, k, hbefore, hk⟩)
    · exact ⟨0, fun j hj => absurd hj (Nat.not_lt_zero j), hfirst⟩
    · refine ⟨k + 1, fun j hj => ?_, by rwa [getD_succ, getD_succ]⟩
      cases j with
      | zero => exact hfirst
      | succ j =>
        rw [getD_succ, getD_succ]
        exact hbefore j (by omega)

theorem sameNumbers_iff (ms ns : List Nat) :
    SameNumbers ms ns ↔ ms.getD 0 0 = ns.getD 0 0 ∧ SameNumbers ms.tail ns.tail := by
  constructor
  · intro h
    refine ⟨h 0, fun k => ?_⟩
    rw [← getD_succ, ← getD_succ]
    exact h (k + 1)
  · rintro ⟨hfirst, hrest⟩ k
    cases k with
    | zero => exact hfirst
    | succ k =>
      rw [getD_succ, getD_succ]
      exact hrest k

/-! ## Releases without zeros at the end -/

theorem tail_getLast? {m : Nat} {ms : List Nat} (h : (m :: ms).getLast? ≠ some 0) : ms.getLast? ≠ some 0 := by
  intro hlast
  rw [List.getLast?_cons, hlast] at h
  exact h rfl

/-- a release that does not end in zero and has no number but zero is empty -/
theorem eq_nil_of_zeros {ns : List Nat} (hn : ns.getLast? ≠ some 0) (h : SameNumbers [] ns) : ns = [] := by
  induction ns with
  | nil => rfl
  | cons n ns ih =>
    obtain ⟨hfirst, hrest⟩ := (sameNumbers_iff _ _).1 h
    have hns : ns = [] := ih (tail_getLast? hn) hrest
    rw [hns] at hn
    exact absurd (congrArg some hfirst.symm) hn

theorem eq_of_sameNumbers {ms ns : List Nat} (hm : ms.getLast? ≠ some 0) (hn : ns.getLast? ≠ some 0)
    (h : SameNumbers ms ns) : ms = ns := by
  induction ms generalizing ns with
  | nil => exact (eq_nil_of_zeros hn h).symm
  | cons m ms ih =>
    cases ns with
    | nil => exact eq_nil_of_zeros hm fun k => (h k).symm
    | cons n ns =>
      obtain ⟨hfirst, hrest⟩ := (sameNumbers_iff _ _).1 h
      rw [ih (tail_getLast? hm) (tail_getLast? hn) hrest]
      exact congrArg (· :: ns) hfirst

/-- a release that is not empty and does not end in zero has a first number that is not zero -/
theorem smaller_nil {ns : List Nat} (hn : ns.getLast? ≠ some 0) : Smaller [] ns ↔ ns ≠ [] := by
  induction ns with
  | nil => simp [Smaller]
  | cons n ns ih =>
    refine iff_of_true ?_ (List.cons_ne_nil n ns)
    rw [smaller_iff]
    rcases Nat.eq_zero_or_pos n with hzero | hpos
    · refine .inr ⟨hzero.symm, (ih (tail_getLast? hn)).2 ?_⟩
      rintro rfl
      exact hn (congrArg some hzero)
    · exact .inl hpos

theorem not_smaller_nil (ms : List Nat) : ¬ Smaller ms [] := by
  rintro ⟨k, -, hk⟩
  simp at hk

theorem lt_iff_smaller {ms ns : List Nat} (hm : ms.getLast? ≠ some 0) (hn : ns.getLast? ≠ some 0) :
    ms < ns ↔ Smaller ms ns := by
  induction ms generalizing ns with
  | nil =>
    rw [smaller_nil hn]
    cases ns <;> simp
  | cons m ms ih =>
    cases ns with
    | nil => exact iff_of_false (List.not_lt_nil _) (not_smaller_nil _)
    | cons n ns =>
      rw [smaller_iff, List.cons_lt_cons_iff, ih (tail_getLast? hm) (tail_getLast? hn)]
      rfl

theorem trimZeros_getLast? (ns : List Nat) : (trimZeros ns).getLast? ≠ some 0 := by
  intro hlast
  have hne : ns.rdropWhile (· = 0) ≠ [] := by
    intro hnil
    rw [trimZeros, ← List.rdropWhile, hnil] at hlast
    cases hlast
  have hnonzero := List.rdropWhile_last_not (fun n : Nat => decide (n = 0)) ns hne
  rw [trimZeros, ← List.rdropWhile, List.getLast?_eq_some_getLast hne] at hlast
  exact hnonzero (decide_eq_true (Option.some.inj hlast))

theorem getD_zeros {zeros : List Nat} (h : ∀ n ∈ zeros, n = 0) (k : Nat) : zeros.getD k 0 = 0 := by
  rcases Nat.lt_or_ge k zeros.length with hk | hk
  · rw [List.getD_eq_getElem _ _ hk]
    exact h _ (List.getElem_mem hk)
  · rw [List.getD_eq_default _ _ hk]

theorem sameNumbers_append_zeros (ns : List Nat) {zeros : List Nat} (h : ∀ n ∈ zeros, n = 0) :
    SameNumbers ns (ns ++ zeros) := by
  intro k
  rcases Nat.lt_or_ge k ns.length with hk | hk
  · rw [List.getD_append _ _ _ _ hk]
  · rw [List.getD_append_right _ _ _ _ hk, getD_zeros h, List.getD_eq_default _ _ hk]

/-- what is left of a release without the zeros at its end has the same numbers -/
theorem sameNumbers_trimZeros (ns : List Nat) : SameNumbers (trimZeros ns) ns := by
  have hsplit : trimZeros ns ++ ns.rtakeWhile (· = 0) = ns := List.rdropWhile_append_rtakeWhile
  have hzeros : ∀ n ∈ ns.rtakeWhile (· = 0), n = 0 := by
    intro n hn
    simpa using List.mem_rtakeWhile_imp hn
  have hsame := sameNumbers_append_zeros (trimZeros ns) hzeros
  rwa [hsplit] at hsame

theorem lt_trimZeros_iff (ms ns : List Nat) : trimZeros ms < trimZeros ns ↔ Smaller ms ns := by
  rw [lt_iff_smaller (trimZeros_getLast? ms) (trimZeros_getLast? ns)]
  simp only [Smaller, sameNumbers_trimZeros ms _, sameNumbers_trimZeros ns _]

theorem trimZeros_eq_iff (ms ns : List Nat) : trimZeros ms = trimZeros ns ↔ SameNumbers ms ns := by
  constructor
  · intro h k
    rw [← sameNumbers_trimZeros ms k, h, sameNumbers_trimZeros ns k]
  · intro h
    refine eq_of_sameNumbers (trimZeros_getLast? ms) (trimZeros_getLast? ns) fun k => ?_
    rw [sameNumbers_trimZeros ms k, h k, sameNumbers_trimZeros ns k]

/-! ## Names made of numbers -/

/-- decimal digits, at least one -/
structure DigitRun where
  text : Text
  nonempty : text ≠ []
  all_digits : text.all Char.isDigit = true

def DigitRun.value (r : DigitRun) : Nat := r.text.foldl (fun n c => 10 * n + Text.digitValue c) 0

/-- any number of `v`, then runs of digits with points between them -/
structure DottedName where
  leading : Nat
  first : DigitRun
  rest : List DigitRun

namespace DottedName

/-- the name without the `v` -/
def bare (a : DottedName) : Text := a.first.text ++ a.rest.flatMap fun r => '.' :: r.text

def text (a : DottedName) : Text := List.replicate a.leading 'v' ++ a.bare

/-- the runs of digits as they are written -/
def runs (a : DottedName) : List Text := (a.first :: a.rest).map DigitRun.text

def numbers (a : DottedName) : List Nat := (a.first :: a.rest).map DigitRun.value

def Short (a : DottedName) : Prop := ∀ ds ∈ a.runs, ds.length ≤ Text.digitLimit

/-- a name made of numbers comes before another one: by the numbers, and by code point if these are the same -/
def Before (a b : DottedName) : Prop :=
  Smaller a.numbers b.numbers ∨ SameNumbers a.numbers b.numbers ∧ a.text.points ≤ b.text.points

end DottedName

/-! ## Finding them -/

/-- a digit is taken for itself, and is no letter -/
theorem taken_digit (letters : Letters) {c : Char} (hc : c.isDigit = true) : letters.taken c = c := by
  have hrange : 48 ≤ c.toNat ∧ c.toNat ≤ 57 := by
    simpa [Char.isDigit, UInt32.le_iff_toNat_le] using hc
  have hlower : c.toLower = c := by
    apply Char.toLower_eq_of_not_isUpper
    intro hupper
    simp only [Char.isUpper, decide_eq_true_eq, ge_iff_le, UInt32.le_iff_toNat_le] at hupper
    have hcapital : 65 ≤ c.toNat := hupper.1
    omega
  cases letters with
  | ascii => exact hlower
  | unicode =>
    have hapart : c.toNat ≠ 0x17F ∧ c.toNat ≠ 0x130 ∧ c.toNat ≠ 0x131 ∧ c.toNat ≠ 0x212A := by omega
    simp [Letters.taken, hapart, hlower]

theorem numerals_cons {d : Char} (hd : d.isDigit = true) (t : Text) :
    numerals (d :: t) = (Text.consHead d (numerals t).1, (numerals t).2) := by
  have hpoint : d ≠ '.' := by
    rintro rfl
    exact absurd hd (by decide)
  rw [numerals, if_pos hd]
  rintro d' r' rfl
  exact absurd rfl hpoint

/-- digits in front of a release belong to its first numeral -/
theorem numerals_digits {ds t first rest : Text} {others : List Text} (hds : ∀ c ∈ ds, c.isDigit = true)
    (h : numerals t = (first :: others, rest)) : numerals (ds ++ t) = ((ds ++ first) :: others, rest) := by
  induction ds with
  | nil => exact h
  | cons d ds ih =>
    obtain ⟨hd, hds⟩ := List.forall_mem_cons.1 hds
    rw [List.cons_append, numerals_cons hd, ih hds]
    rfl

/-- runs of digits, each behind its point, are the numerals behind a first one -/
theorem numerals_runs (rs : List DigitRun) :
    numerals (rs.flatMap fun r => '.' :: r.text) = ([] :: rs.map DigitRun.text, []) := by
  induction rs with
  | nil => rfl
  | cons r rs ih =>
    have hdigits := List.all_eq_true.1 r.all_digits
    have hrun := numerals_digits hdigits ih
    rw [List.append_nil] at hrun
    obtain ⟨d, ds, htext⟩ := List.exists_cons_of_ne_nil r.nonempty
    rw [htext] at hdigits hrun
    rw [List.flatMap_cons, htext, List.cons_append, List.cons_append, numerals, if_pos (List.forall_mem_cons.1 hdigits).1,
      ← List.cons_append, hrun, List.map_cons, htext]

namespace DottedName

/-- the name without the `v` starts with a digit -/
theorem head_bare (a : DottedName) : ∃ d r, a.bare = d :: r ∧ d.isDigit = true := by
  obtain ⟨d, ds, htext⟩ := List.exists_cons_of_ne_nil a.first.nonempty
  have hdigits := List.all_eq_true.1 a.first.all_digits
  refine ⟨d, ds ++ a.rest.flatMap fun r => '.' :: r.text, by rw [bare, htext, List.cons_append], hdigits d ?_⟩
  rw [htext]
  exact List.mem_cons_self

theorem numerals_bare (a : DottedName) : numerals a.bare = (a.runs, []) := by
  have hrun := numerals_digits (List.all_eq_true.1 a.first.all_digits) (numerals_runs a.rest)
  rwa [List.append_nil] at hrun

theorem mem_bare (a : DottedName) {c : Char} (hc : c ∈ a.bare) : c.isDigit = true ∨ c = '.' := by
  rcases List.mem_append.1 hc with hc | hc
  · exact .inl (List.all_eq_true.1 a.first.all_digits c hc)
  · obtain ⟨r, -, hc⟩ := List.mem_flatMap.1 hc
    rcases List.mem_cons.1 hc with hc | hc
    · exact .inr hc
    · exact .inl (List.all_eq_true.1 r.all_digits c hc)

theorem bare_isWord (a : DottedName) : Text.IsWord a.bare := by
  obtain ⟨d, r, hbare, -⟩ := a.head_bare
  refine ⟨by rw [hbare]; exact List.cons_ne_nil d r, fun c hc => ?_⟩
  rcases a.mem_bare hc with hdigit | rfl
  · exact Text.not_blank_of_digit (by rw [Text.isDigit, hdigit, Bool.true_or])
  · decide

theorem epochMark_bare (a : DottedName) : epochMark a.bare = none := by
  unfold epochMark digits
  dsimp only
  split
  · rename_i r hrest
    have hmem : '!' ∈ a.bare := by
      refine (List.dropWhile_suffix Char.isDigit).subset ?_
      rw [hrest]
      exact List.mem_cons_self
    rcases a.mem_bare hmem with hdigit | hpoint
    · exact absurd hdigit (by decide)
    · exact absurd hpoint (by decide)
  · rfl

/-- **A name made of numbers is a version** that is written as its runs of digits. -/
theorem find_bare (a : DottedName) (letters : Letters) : find letters a.bare = some ⟨[], a.runs, none, none, none, none⟩ := by
  obtain ⟨d, r, hbare, hd⟩ := a.head_bare
  have hv : ¬ a.bare.head?.map letters.taken = some 'v' := by
    rw [hbare, List.head?_cons, Option.map_some, taken_digit letters hd]
    intro hv
    rw [Option.some.inj hv] at hd
    exact absurd hd (by decide)
  have hepoch : optional epochMark a.bare = (none, a.bare) := by rw [optional, a.epochMark_bare]
  have hhead : a.bare.head?.any Char.isDigit = true := by rw [hbare]; exact hd
  rw [find, Text.trim_word a.bare_isWord, findBare, if_neg hv]
  simp only [hepoch, hhead, a.numerals_bare]
  rfl

theorem dropWhile_text (a : DottedName) : a.text.dropWhile (· = 'v') = a.bare := by
  obtain ⟨d, r, hbare, hd⟩ := a.head_bare
  have hv : d ≠ 'v' := by
    rintro rfl
    exact absurd hd (by decide)
  rw [text, List.dropWhile_append_of_pos (by simp), hbare, List.dropWhile_cons_of_neg (by simpa using hv)]

/-- what has to be read of it are its runs, behind an epoch that is not there -/
theorem numeralsIn_text (a : DottedName) (letters : Letters) : numeralsIn letters a.text = [] :: a.runs := by
  rw [numeralsIn, a.dropWhile_text, a.find_bare]
  simp [Written.numerals, markDigits, buildDigits]

theorem mapM_runs {a : DottedName} (h : a.Short) : a.runs.mapM Text.number = .ok a.numbers := by
  rw [runs, numbers]
  refine Listing.mapM_eq_ok.2 ?_
  rw [List.forall₂_map_left_iff, List.forall₂_map_right_iff, List.forall₂_same]
  intro r hr
  have hshort : r.text.length ≤ Text.digitLimit := h r.text (List.mem_map_of_mem hr)
  rw [Text.number, if_neg (by simpa using r.nonempty), if_neg (by omega)]
  rfl

/-- **It is read as the release with its numbers** if no run is too long. -/
theorem ofName_text {a : DottedName} (h : a.Short) (letters : Letters) :
    ofName letters a.text = .ok (some ⟨0, a.numbers, none, none, none, none⟩) := by
  rw [ofName, a.dropWhile_text, a.find_bare]
  simp only [Written.read, mapM_runs h]
  rfl

/-- it can be read only then -/
theorem readable_text (a : DottedName) (letters : Letters) : (∃ v, ofName letters a.text = .ok v) ↔ a.Short := by
  rw [(decidedBy_ofName letters a.text).isOk_iff, a.numeralsIn_text, List.forall_mem_cons]
  exact and_iff_right (Nat.zero_le _)

end DottedName

end RepoLens.Version
