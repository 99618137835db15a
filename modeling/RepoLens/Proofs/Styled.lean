import Mathlib.Tactic
import RepoLens.Proofs.Shown
import RepoLens.Proofs.Unmarked
/-!
What escaped text shows between the tags of a style. The closing tag stands right behind the text, so backslashes at the end of
the text are read as belonging to the tag. One is guarded against by escaping; of more than one, half are lost, and an odd one
makes the closing tag show as text.

Results:
- `partsFrom_closed`: written text and a tag behind it are read one after the other, if the text does not end in a backslash;
- `escape_append_slashes`: what escaping makes of backslashes at the end;
- `read_styled`: escaped text between the tags of a style shows as it does without them, except for backslashes at its end.
-/
namespace RepoLens.Console.Markup

variable {screen : Screen} {t plain style body : Text}

/-! ## The end of a text -/

/-- a text that does not end in a backslash -/
def Unslashed (t : Text) : Prop := t.getLast? ≠ some '\\'

theorem Unslashed.tail {c : Char} {r : Text} (h : Unslashed (c :: r)) : Unslashed r := by
  intro hr
  exact h (by rw [List.getLast?_cons, hr]; rfl)

theorem not_unslashed_slashes {n : Nat} (hn : n ≠ 0) : ¬ Unslashed (List.replicate n '\\') := by
  intro h
  exact h (by simp [List.getLast?_replicate, hn])

/-- the text before the backslashes at the end, and their number -/
theorem exists_unslashed (t : Text) : ∃ s k, Unslashed s ∧ t = s ++ List.replicate k '\\' := by
  induction t using List.reverseRecOn with
  | nil => exact ⟨[], 0, by simp [Unslashed], rfl⟩
  | append_singleton t c ih =>
    by_cases hc : c = '\\'
    · obtain ⟨s, k, hs, rfl⟩ := ih
      exact ⟨s, k + 1, hs, by rw [hc, List.append_assoc, ← List.replicate_succ']⟩
    · exact ⟨t ++ [c], 0, by simpa [Unslashed] using hc, by simp⟩

theorem getLast?_written (t : Text) : (written t).getLast? = t.getLast? := by
  induction reading t with
  | nil => rfl
  | char c r h _ ih => rw [written_char h, List.getLast?_cons, List.getLast?_cons, ih]
  | tag n body rest hb _ ih =>
    rw [written_tag hb]
    simp only [List.getLast?_append, List.getLast?_cons, ih, Option.some_or]

/-! ## Backslashes behind a text -/

theorem toBracket_append_slashes {r : Text} (h : toBracket r = none) (k : Nat) :
    toBracket (r ++ List.replicate k '\\') = none := by
  induction r with
  | nil =>
    induction k with
    | zero => rfl
    | succ k ih =>
      simp only [List.nil_append] at ih ⊢
      simp [List.replicate_succ, toBracket, ih]
  | cons c r ih =>
    simp only [toBracket, List.cons_append] at h ⊢
    split_ifs at h ⊢
    · rfl
    · rw [Option.map_eq_none_iff] at h ⊢
      exact ih h

theorem tagAfterBracket_append_slashes {r : Text} (h : tagAfterBracket r = none) (k : Nat) :
    tagAfterBracket (r ++ List.replicate k '\\') = none := by
  cases r with
  | nil =>
    cases k with
    | zero => rfl
    | succ k => rfl
  | cons c r =>
    simp only [tagAfterBracket, List.cons_append] at h ⊢
    split_ifs at h ⊢
    · rw [Option.map_eq_none_iff] at h ⊢
      exact toBracket_append_slashes h k
    · rfl

theorem leadingTag_append_slashes {r : Text} (h : leadingTag r = none) (k : Nat) :
    leadingTag (r ++ List.replicate k '\\') = none := by
  induction r with
  | nil =>
    induction k with
    | zero => rfl
    | succ k ih =>
      rw [List.nil_append] at ih ⊢
      rw [List.replicate_succ, leadingTag_slash, ih]
      rfl
  | cons c r ih =>
    rw [List.cons_append]
    by_cases hs : c = '\\'
    · rw [hs, leadingTag_slash, Option.map_eq_none_iff] at h ⊢
      exact ih h
    by_cases hb : c = '['
    · rw [hb, leadingTag_bracket, Option.map_eq_none_iff] at h ⊢
      exact tagAfterBracket_append_slashes h k
    · exact leadingTag_other hs hb _

theorem written_append_slashes (t : Text) (k : Nat) :
    written (t ++ List.replicate k '\\') = written t ++ List.replicate k '\\' := by
  induction reading t with
  | nil => exact written_slashes k
  | char c r h _ ih =>
    have hnone := leadingTag_append_slashes h k
    rw [List.cons_append] at hnone ⊢
    rw [written_char hnone, written_char h, ih, List.cons_append]
  | tag n body rest hb _ ih =>
    simp only [List.append_assoc, List.cons_append]
    rw [written_tag hb, written_tag hb, ih]
    simp only [List.append_assoc, List.cons_append]

theorem written_bare (hp : Bare plain) (t : Text) : written (plain ++ t) = plain ++ written t := by
  induction plain with
  | nil => rfl
  | cons c plain ih =>
    obtain ⟨hc, hplain⟩ := List.forall_mem_cons.1 hp
    rw [List.cons_append, written_char (leadingTag_other hc.1 hc.2 _), ih hplain, List.cons_append]

/-- how many backslashes are written where a text ends in some: a single one is doubled -/
def writtenSlashes (k : Nat) : Nat := if k = 1 then 2 else k

theorem escape_append_slashes (ht : Unslashed t) (k : Nat) :
    escape (t ++ List.replicate k '\\') = written t ++ List.replicate (writtenSlashes k) '\\' := by
  have hlast : (written t).getLast? ≠ some '\\' := by rwa [getLast?_written]
  have hwritten : escapeParts (parts (t ++ List.replicate k '\\')) = written t ++ List.replicate k '\\' :=
    written_append_slashes t k
  rw [escape]
  simp only [hwritten, writtenSlashes]
  -- one backslash gets another, more are left alone
  rcases k with _ | _ | k
  · simp [hlast]
  · simp [hlast]
  · have hdrop : (written t ++ List.replicate (k + 2) '\\').dropLast = written t ++ List.replicate (k + 1) '\\' := by
      rw [List.replicate_succ', ← List.append_assoc, List.dropLast_concat]
    have hdrop' : (written t ++ List.replicate (k + 1) '\\').getLast? = some '\\' := by
      rw [List.replicate_succ', ← List.append_assoc, List.getLast?_concat]
    rw [hdrop, hdrop']
    simp

theorem escape_unslashed (ht : Unslashed t) : escape t = written t := by
  simpa [writtenSlashes] using escape_append_slashes ht 0

/-! ## A tag behind a text -/

theorem consChar_append (c : Char) (ps : List Part) (q n : Nat) :
    consChar c (ps ++ [.tag q n body]) = consChar c ps ++ [.tag q n body] := by
  cases ps with
  | nil => rfl
  | cons p ps => cases p <;> rfl

/-- **A written text and a tag behind it are read one after the other**, unless the text ends in backslashes, which belong to
the tag. -/
theorem partsFrom_closed (hb : TagBody body) (j : Nat) (ht : Unslashed t) (p : Nat) :
    ∃ q, partsFrom p 0 (written t ++ (List.replicate j '\\' ++ '[' :: (body ++ [']']))) =
      partsFrom p 0 (written t) ++ [.tag q j body] := by
  induction reading t generalizing p with
  | nil =>
    obtain ⟨q, hq⟩ := partsFrom_tag hb j p []
    exact ⟨p, hq⟩
  | char c r hc _ ih =>
    have hend : ∀ x : Text, toBracket x = none → tagAfterBracket x = none → leadingTag (c :: (written r ++ x)) = none := by
      intro x hx hx'
      rcases leadingTag_written hc hx hx' with hnone | ⟨m, hm⟩
      · rwa [written_char hc] at hnone
      · rw [hm] at ht
        refine absurd ht (not_unslashed_slashes ?_)
        rintro rfl
        cases hm
    obtain ⟨q, hq⟩ := ih ht.tail (p + 1)
    have halone := hend [] rfl rfl
    rw [List.append_nil] at halone
    refine ⟨q, ?_⟩
    rw [written_char hc, List.cons_append, partsFrom_char (hend _ (toBracket_slashes j _) (tagAfterBracket_slashes j _)),
      partsFrom_char halone, hq, consChar_append]
  | tag n body' rest hb' _ ih =>
    have hrest : Unslashed rest := by
      intro hlast
      refine ht ?_
      simp only [List.getLast?_append, List.getLast?_cons, hlast]
      rfl
    rw [written_tag hb']
    simp only [List.append_assoc, List.cons_append]
    obtain ⟨q, hq⟩ := ih hrest (p + 1 + (2 * n + 1 + body'.length + 1))
    exact ⟨q, by rw [partsFrom_tag_at hb', partsFrom_tag_at hb', hq, List.cons_append]⟩

/-! ## What is shown -/

/-- a part that stands so many characters further on -/
def Part.moved (m : Nat) : Part → Part
  | .chars t => .chars t
  | .tag p n body => .tag (p + m) n body

theorem partsFrom_moved (t : Text) (p m : Nat) : partsFrom (p + m) 0 t = (partsFrom p 0 t).map (Part.moved m) := by
  induction reading t generalizing p with
  | nil => rfl
  | char c r h _ ih =>
    rw [partsFrom_char h, partsFrom_char h, Nat.add_right_comm, ih]
    cases partsFrom (p + 1) 0 r with
    | nil => rfl
    | cons part ps => cases part <;> rfl
  | tag n body rest hb _ ih =>
    rw [partsFrom_tag_at hb, partsFrom_tag_at hb, List.map_cons, Part.moved, ← ih]
    congr 2
    omega

theorem inert_moved {inner : List Part} (hi : ∀ part ∈ inner, part.Inert) (m : Nat) :
    ∀ part ∈ inner.map (Part.moved m), part.Inert := by
  intro part hpart
  obtain ⟨part, hmem, rfl⟩ := List.mem_map.1 hpart
  have hpart := hi part hmem
  cases part <;> exact hpart

/-- what inert parts show does not depend on where they stand -/
theorem text_moved (screen : Screen) (inner : List Part) (m : Nat) :
    (inner.map (Part.moved m)).flatMap (Part.text screen) = inner.flatMap (Part.text screen) := by
  induction inner with
  | nil => rfl
  | cons part inner ih =>
    rw [List.map_cons, List.flatMap_cons, List.flatMap_cons, ih]
    cases part <;> rfl

/-- text without opening brackets is written as it is -/
theorem written_bracketless (h : '[' ∉ t) : written t = t := by
  induction t with
  | nil => rfl
  | cons c r ih =>
    have hunmarked : Unmarked (c :: r) := unmarked_bracketless h
    rw [written_char (hunmarked.tagFree [] (c :: r) rfl), ih fun hr => h (List.mem_cons_of_mem _ hr)]

/-- text without opening brackets shows between the tags of a style -/
theorem read_styled_bracketless (hs : StyleWord style) (hp : Bare plain) (h : '[' ∉ t) :
    ∃ u, StyledAs screen style ('[' :: (style ++ (']' :: (plain ++ (t ++ ('[' :: '/' :: (style ++ [']']))))))) u := by
  have hshows : ∃ u, StyledAs screen style _ u := read_styled_written hs hp t 0
  rwa [written_bracketless h] at hshows

/-- the same for literals that open and close the style -/
theorem print_between {opening closing : Text} (hs : StyleWord style) (hp : Bare plain)
    (hopen : opening = '[' :: (style ++ (']' :: plain))) (hclose : closing = '[' :: '/' :: (style ++ [']'])) (h : '[' ∉ t)
    (screen : Screen) : ∃ u, print screen (opening ++ (t ++ closing)) = .ok u := by
  obtain ⟨u, hu⟩ : ∃ u, StyledAs screen style _ u := read_styled_bracketless hs hp h
  have hprint := print_styled hs hu
  rw [hopen, hclose]
  simp only [List.append_assoc, List.cons_append] at hprint ⊢
  exact ⟨_, hprint⟩

theorem inert_written (hb : TagBody body) (ht : Unslashed t) (p : Nat) : ∀ part ∈ partsFrom p 0 (written t), part.Inert := by
  obtain ⟨q, hq⟩ := partsFrom_closed hb 0 ht p
  obtain ⟨inner, q', n, hinner, hi⟩ := parts_written hb 0 t p
  rw [hq] at hinner
  rwa [List.append_inj_left' hinner rfl]

/-- text that is read as inert parts shows what they show, in no style -/
theorem read_inert (hi : ∀ part ∈ parts t, part.Inert) :
    read screen t = .ok ⟨(parts t).flatMap (Part.text screen), []⟩ := by
  by_cases hbracket : '[' ∈ t
  · have hparts : showParts screen 0 [] (parts t ++ []) = _ := showParts_append hi 0 [] []
    rw [List.append_nil] at hparts
    rw [read, if_pos (by simpa using hbracket), hparts]
    simp [Functor.map, Except.map, bind, Except.bind, pure, Except.pure, showParts, Shown.behind]
  · have hunmarked := unmarked_bracketless hbracket
    rw [read_bracketless hbracket]
    by_cases hne : t = []
    · rw [hne]
      rfl
    · rw [hunmarked.parts hne, List.flatMap_singleton, Part.text, hunmarked.unescapeBrackets]

/-- **Escaped text between the tags of a style shows as it does without them**, up to the backslashes at its end: a single one
stays, of more the closing tag takes half, and if their number is odd it shows as text. -/
theorem read_styled (hs : StyleWord style) (hp : Bare plain) (ht : Unslashed t) (k : Nat) :
    ∃ u, read screen (plain ++ escape t) = .ok ⟨u, []⟩ ∧
      StyledAs screen style ('[' :: (style ++ (']' :: (plain ++ (escape (t ++ List.replicate k '\\') ++
        ('[' :: '/' :: (style ++ [']']))))))) (u ++ closing style (writtenSlashes k)) := by
  have hplain : Unslashed (plain ++ t) := by
    rw [Unslashed, List.getLast?_append]
    cases hlast : t.getLast? with
    | some c => simpa [Unslashed, hlast] using ht
    | none =>
      rw [Option.none_or]
      exact fun h => (hp _ (List.mem_of_getLast? h)).1 rfl
  have halone : plain ++ escape t = written (plain ++ t) := by rw [escape_unslashed ht, written_bare hp]
  have hmarked : '[' :: (style ++ (']' :: (plain ++ (escape (t ++ List.replicate k '\\') ++ ('[' :: '/' :: (style ++ [']'])))))) =
      '[' :: (style ++ (']' :: (written (plain ++ t) ++
        (List.replicate (writtenSlashes k) '\\' ++ '[' :: ('/' :: style ++ [']']))))) := by
    rw [escape_append_slashes ht, written_bare hp]
    simp only [List.append_assoc, List.cons_append]
  have hinert : ∀ part ∈ parts (written (plain ++ t)), part.Inert := inert_written hs.closing hplain 0
  refine ⟨(parts (written (plain ++ t))).flatMap (Part.text screen), ?_, ?_⟩
  · rw [halone]
    exact read_inert hinert
  · -- behind the opening tag the same parts are read, only further on
    have hopen := partsFrom_tag_at hs.body 0 0
      (written (plain ++ t) ++ (List.replicate (writtenSlashes k) '\\' ++ '[' :: ('/' :: style ++ [']'])))
    obtain ⟨q, hclosed⟩ := partsFrom_closed hs.closing (writtenSlashes k) hplain (0 + (0 + 1 + (0 + style.length + 1)))
    rw [← Nat.zero_add (0 + 1 + _), hclosed, partsFrom_moved] at hopen
    rw [hmarked, ← text_moved screen (parts (written (plain ++ t)))]
    exact read_closed hs (inert_moved hinert _) hopen

end RepoLens.Console.Markup
