import Mathlib.Data.List.TakeWhile
import Mathlib.Tactic
import RepoLens.Proofs.Lines
import RepoLens.Text.Blank
import RepoLens.Text.Digit
/-!
Words and fields. A word is a text with something in it and without blanks; the fields of a text are the words that blanks part,
whichever blanks and however many. So a word in front of a blank is the first field, and blanks at either end are nothing.

Results:
- `fields_word`, `fields_word_append`: a word is a field of its own;
- `isWord_of_mem_fields`, `fields_joinWith`: fields are words, and texts joined by spaces have the fields of each;
- `fields_trim`, `fields_collapseFirst`: trimming leaves the fields alone, and so does making one space of the first two
  neighbouring blanks;
- `fields_upToBlank`: the first field is what stands in front of the first blank;
- `fields_eq_nil`, `trim_eq_nil`: a text without fields is blank, and so is one of which trimming leaves nothing;
- `trim_closed`: a text without blanks at its ends is trimmed already;
- `trim_word`, `chopNewline_word`: so is a word, and it ends in no newline;
- `not_blank_of_digit`: a decimal digit of any script is no blank.
-/
namespace RepoLens.Text

/-! ## Cuts at the end -/

variable {p : Char → Bool}

theorem pieces_cuts {cuts : Text} (h : ∀ c ∈ cuts, p c = true) : pieces p cuts = [] := by
  induction cuts with
  | nil => rfl
  | cons c cuts ih =>
    obtain ⟨hc, hcuts⟩ := List.forall_mem_cons.1 h
    rw [pieces_cut hc, ih hcuts]

/-- cuts at the end are nothing -/
theorem pieces_append_cuts (t : Text) {cuts : Text} (h : ∀ c ∈ cuts, p c = true) : pieces p (t ++ cuts) = pieces p t := by
  cases cuts with
  | nil => rw [List.append_nil]
  | cons c cuts =>
    obtain ⟨hc, hcuts⟩ := List.forall_mem_cons.1 h
    rw [pieces_append hc, pieces_cuts hcuts, List.append_nil]

/-! ## Words -/

/-- something without blanks -/
def IsWord (t : Text) : Prop := t ≠ [] ∧ ∀ c ∈ t, isBlank c = false

-- one character of the text after the other, and not every character there is
instance : DecidablePred IsWord := fun t => @instDecidableAnd _ _ _ (List.decidableBAll (fun c => isBlank c = false) t)

variable {w : Text}

theorem fields_eq_pieces (t : Text) : fields t = pieces isBlank t := rfl

theorem fields_word (hw : IsWord w) : fields w = [w] := by
  rw [fields_eq_pieces, pieces_of_none hw.2]
  simp [hw.1]

theorem fields_word_append (hw : IsWord w) {c : Char} (hc : isBlank c = true) (t : Text) :
    fields (w ++ c :: t) = w :: fields t := by
  rw [fields_eq_pieces, pieces_append hc, ← fields_eq_pieces, fields_word hw]
  rfl

/-- every field is a word -/
theorem isWord_of_mem_fields {t : Text} (h : w ∈ fields t) : IsWord w := by
  obtain ⟨hpiece, hne⟩ := List.mem_filter.1 h
  exact ⟨of_decide_eq_true hne, of_mem_cutAt hpiece⟩

/-- texts with a space between them have the fields of each, one text after the other -/
theorem fields_joinWith (ts : List Text) : fields (joinWith [' '] ts) = ts.flatMap fields := by
  have hspace : isBlank ' ' = true := by decide
  fun_induction joinWith [' '] ts with
  | case1 => rfl
  | case2 t => simp
  | case3 t u rest ih =>
    rw [List.singleton_append, fields_eq_pieces, pieces_append hspace, ← fields_eq_pieces, ← fields_eq_pieces, ih]
    rfl

/-- no character of a word is a blank one -/
theorem IsWord.ne_blank (hw : IsWord w) {c d : Char} (hc : c ∈ w) (hd : isBlank d = true) : c ≠ d := by
  rintro rfl
  rw [hw.2 c hc] at hd
  cases hd

theorem IsWord.not_end (hw : IsWord w) {c : Char} (hc : c ∈ w) : isEnd c = false :=
  isEnd_eq_false.2 ⟨hw.ne_blank hc (by decide), hw.ne_blank hc (by decide)⟩

/-! ## Trimming -/

theorem fields_trimLeft (t : Text) : fields (trimLeft t) = fields t := by
  induction t with
  | nil => rfl
  | cons c t ih =>
    rw [trimLeft, List.dropWhile_cons]
    split_ifs with hc
    · exact ih.trans (pieces_cut hc t).symm
    · rfl

/-- a text is what is left of it without the blanks at its end, and these blanks -/
theorem trimRight_append (t : Text) : ∃ blanks, t = trimRight t ++ blanks ∧ ∀ c ∈ blanks, isBlank c = true := by
  refine ⟨(t.reverse.takeWhile isBlank).reverse, ?_, ?_⟩
  · rw [trimRight, ← List.reverse_append, List.takeWhile_append_dropWhile, List.reverse_reverse]
  · intro c hc
    exact List.mem_takeWhile_imp (List.mem_reverse.1 hc)

theorem fields_trimRight (t : Text) : fields (trimRight t) = fields t := by
  obtain ⟨blanks, ht, hblanks⟩ := trimRight_append t
  calc fields (trimRight t) = pieces isBlank (trimRight t ++ blanks) := (pieces_append_cuts _ hblanks).symm
    _ = fields t := by rw [← ht, fields_eq_pieces]

theorem fields_trim (t : Text) : fields (trim t) = fields t := by
  rw [trim, fields_trimRight, fields_trimLeft]

def NoTwoBlanks (t : Text) : Prop := t.IsChain fun a b => ¬ (isBlank a = true ∧ isBlank b = true)

/-- a text with its first two neighbouring blanks as one space, if it has any -/
inductive Collapsed : Text → Text → Prop where
  | none {t : Text} (ht : NoTwoBlanks t) : Collapsed t t
  | first {u v : Text} {a b : Char} (hu : NoTwoBlanks (u ++ [a])) (ha : isBlank a = true) (hb : isBlank b = true) :
    Collapsed (u ++ a :: b :: v) (u ++ ' ' :: v)

/-- a character in front, which makes no two blanks with what follows -/
theorem Collapsed.cons {t t' : Text} (h : Collapsed t t') {c : Char}
    (hc : ∀ d, t.head? = some d → ¬ (isBlank c = true ∧ isBlank d = true)) : Collapsed (c :: t) (c :: t') := by
  cases h with
  | none ht => exact .none (List.isChain_cons.2 ⟨fun d hd => hc d hd, ht⟩)
  | @first u v a b hu ha hb =>
    refine .first (u := c :: u) (List.isChain_cons.2 ⟨fun d hd => hc d ?_, hu⟩) ha hb
    cases u with
    | nil => exact hd
    | cons e u => exact hd

theorem collapsed_collapseFirst (t : Text) : Collapsed t (collapseFirst t) := by
  fun_induction collapseFirst t with
  | case1 a b r h =>
    obtain ⟨ha, hb⟩ := Bool.and_eq_true_iff.1 h
    exact .first (u := []) (.singleton a) ha hb
  | case2 a b r h ih =>
    refine ih.cons fun d hd hboth => h ?_
    cases hd
    exact Bool.and_eq_true_iff.2 hboth
  | case3 t hshort =>
    refine .none ?_
    cases t with
    | nil => exact .nil
    | cons a t =>
      cases t with
      | nil => exact .singleton a
      | cons b r => exact absurd rfl (hshort a b r)

theorem Collapsed.fields_eq {t t' : Text} (h : Collapsed t t') : fields t' = fields t := by
  cases h with
  | none ht => rfl
  | first hu ha hb =>
    have hspace : isBlank ' ' = true := by decide
    rw [fields_eq_pieces, fields_eq_pieces, pieces_append hspace, pieces_append ha, pieces_cut hb]

theorem fields_collapseFirst (t : Text) : fields (collapseFirst t) = fields t := (collapsed_collapseFirst t).fields_eq

theorem dropWhile_open {t : Text} (h : ∀ c, t.head? = some c → isBlank c = false) : t.dropWhile isBlank = t := by
  cases t with
  | nil => rfl
  | cons c t => rw [List.dropWhile_cons, h c rfl, if_neg Bool.false_ne_true]

/-- a text without blanks at its ends is trimmed already -/
theorem trim_closed {t : Text} (hfirst : ∀ c, t.head? = some c → isBlank c = false)
    (hlast : ∀ c, t.getLast? = some c → isBlank c = false) : t.trim = t := by
  have hreverse : ∀ c, t.reverse.head? = some c → isBlank c = false := by
    intro c hc
    rw [List.head?_reverse] at hc
    exact hlast c hc
  rw [trim, trimLeft, dropWhile_open hfirst, trimRight, dropWhile_open hreverse, List.reverse_reverse]

theorem trim_word (hw : IsWord w) : w.trim = w :=
  trim_closed (fun c hc => hw.2 c (List.mem_of_head? hc)) fun c hc => hw.2 c (List.mem_of_getLast? hc)

theorem chopNewline_word (hw : IsWord w) : w.chopNewline = w := by
  apply chopNewline_of_open
  intro hlast
  exact hw.ne_blank (List.mem_of_getLast? hlast) (by decide : isBlank '\n' = true) rfl

/-! ## The first field -/

def upToBlank (t : Text) : Text := t.takeWhile fun c => !isBlank c

theorem upToBlank_eq_self {t : Text} : upToBlank t = t ↔ ∀ c ∈ t, isBlank c = false := by
  simp [upToBlank, List.takeWhile_eq_self_iff]

theorem upToBlank_isWord {t : Text} (hne : t ≠ []) (hfirst : ∀ c, t.head? = some c → isBlank c = false) :
    IsWord (upToBlank t) := by
  constructor
  · cases t with
    | nil => exact absurd rfl hne
    | cons c t => simp [upToBlank, hfirst c rfl]
  · intro c hc
    simpa using List.mem_takeWhile_imp hc

/-- what stands in front of the first blank is the first field -/
theorem fields_upToBlank {t : Text} (hne : t ≠ []) (hfirst : ∀ c, t.head? = some c → isBlank c = false) :
    ∃ more, fields t = upToBlank t :: more := by
  have hword := upToBlank_isWord hne hfirst
  have hsplit : upToBlank t ++ t.dropWhile (fun c => !isBlank c) = t := List.takeWhile_append_dropWhile
  have hnext := List.head?_dropWhile_not (fun c => !isBlank c) t
  cases hrest : t.dropWhile fun c => !isBlank c with
  | nil =>
    rw [hrest, List.append_nil] at hsplit
    rw [hsplit] at hword ⊢
    exact ⟨[], fields_word hword⟩
  | cons b rest =>
    rw [hrest] at hsplit hnext
    have hb : isBlank b = true := by simpa using hnext
    refine ⟨fields rest, ?_⟩
    calc fields t = fields (upToBlank t ++ b :: rest) := by rw [hsplit]
      _ = upToBlank t :: fields rest := fields_word_append hword hb rest

/-- a text without fields is blank -/
theorem fields_eq_nil {t : Text} : fields t = [] ↔ t.allBlank = true := by
  rw [allBlank, List.all_eq_true]
  constructor
  · intro hnil
    have hfirst : ∀ c, (trimLeft t).head? = some c → isBlank c = false := by
      intro c hc
      have hnot := List.head?_dropWhile_not isBlank t
      rw [← trimLeft, hc] at hnot
      simpa using hnot
    have hleft : trimLeft t = [] := by
      by_contra hne
      obtain ⟨more, hmore⟩ := fields_upToBlank hne hfirst
      rw [fields_trimLeft, hnil] at hmore
      cases hmore
    exact List.dropWhile_eq_nil_iff.1 hleft
  · exact pieces_cuts

theorem trim_eq_nil {t : Text} : t.trim = [] ↔ t.allBlank = true := by
  constructor
  · intro hnil
    rw [← fields_eq_nil, ← fields_trim, hnil]
    rfl
  · intro hblank
    rw [allBlank, List.all_eq_true] at hblank
    rw [trim, trimLeft, List.dropWhile_eq_nil_iff.2 hblank]
    rfl

theorem allBlank_trim (t : Text) : t.trim.allBlank = t.allBlank := by
  rw [Bool.eq_iff_iff, ← fields_eq_nil, ← fields_eq_nil, fields_trim]

/-- trimming takes the blanks around a text without any -/
theorem trim_between {front t back : Text} (hfront : ∀ c ∈ front, isBlank c = true) (ht : ∀ c ∈ t, isBlank c = false)
    (hback : ∀ c ∈ back, isBlank c = true) : (front ++ (t ++ back)).trim = t := by
  have hleft : ∀ (blanks u : Text), (∀ c ∈ blanks, isBlank c = true) →
      (∀ c, u.head? = some c → isBlank c = false) → (blanks ++ u).dropWhile isBlank = u := by
    intro blanks u hblanks hu
    rw [List.dropWhile_append_of_pos hblanks, dropWhile_open hu]
  cases t with
  | nil =>
    refine trim_eq_nil.2 ?_
    rw [List.nil_append, allBlank, List.all_append, List.all_eq_true.2 hfront, List.all_eq_true.2 hback]
    rfl
  | cons c r =>
    have hfirst : ∀ d, (c :: r ++ back).head? = some d → isBlank d = false := fun d hd =>
      Option.some.inj (hd : some c = some d) ▸ ht c List.mem_cons_self
    have hlast : ∀ d, (c :: r).reverse.head? = some d → isBlank d = false := fun d hd =>
      ht d (List.mem_reverse.1 (List.mem_of_head? hd))
    rw [trim, trimLeft, hleft front _ hfront hfirst, trimRight, List.reverse_append,
      hleft _ _ (fun d hd => hback d (List.mem_reverse.1 hd)) hlast, List.reverse_reverse]

/-! ## Digits -/

/-- ranges that do not meet have no character in common -/
theorem inRanges_disjoint {rs ss : List (Nat × Nat)} (h : ∀ r ∈ rs, ∀ s ∈ ss, r.2 < s.1 ∨ s.2 < r.1) {c : Char}
    (hc : inRanges rs c = true) : inRanges ss c = false := by
  rw [inRanges, List.any_eq_true] at hc
  obtain ⟨r, hr, hin⟩ := hc
  rw [inRanges, List.any_eq_false]
  intro s hs
  have hapart := h r hr s hs
  simp only [Bool.and_eq_true, decide_eq_true_eq] at hin ⊢
  omega

theorem not_blank_of_digit {c : Char} (hc : isDigit c = true) : isBlank c = false := by
  rw [isDigit, Bool.or_eq_true] at hc
  rcases hc with hascii | hother
  · have hrange : inRanges [(48, 57)] c = true := by
      simpa [inRanges, Char.isDigit, UInt32.le_iff_toNat_le] using hascii
    exact inRanges_disjoint (by decide) hrange
  · exact inRanges_disjoint (by decide) hother

end RepoLens.Text
