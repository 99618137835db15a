import Mathlib.Data.List.TakeWhile
import Mathlib.Tactic
import RepoLens.Proofs.Codes
/-!
Escaped text holds no live tag. A text is read from left to right as characters and tags (`Reading`); escaping keeps
the characters and gives every tag an odd number of backslashes (`written`), so reading what was written finds the same
tags and all of them inert, also when more text follows.

Results:
- `parts_written`: the written form of a text, closed by one more tag, has that tag as its only live one, whatever
  brackets and backslashes the text holds and even if it ends in backslashes that the closing tag swallows;
- `read_styled_escape`: escaped text between the tags of a style always shows. A closing tag can lose its effect
  this way, but it cannot meet a tag that was never opened.
-/
namespace RepoLens.Console.Markup

/-! ## Reading a tag -/

/-- what may stand between the brackets of a tag -/
def TagBody (body : Text) : Prop := ∃ c r, body = c :: r ∧ startsTag c = true ∧ '[' ∉ r ∧ ']' ∉ r

instance : DecidablePred TagBody
  | [] => isFalse fun ⟨_, _, h, _⟩ => nomatch h
  | c :: r => decidable_of_iff (startsTag c = true ∧ '[' ∉ r ∧ ']' ∉ r)
      ⟨fun h => ⟨c, r, rfl, h⟩, fun ⟨_, _, h, hbody⟩ => by cases h; exact hbody⟩

theorem toBracket_some {t inner rest : Text} (h : toBracket t = some (inner, rest)) :
    t = inner ++ ']' :: rest ∧ '[' ∉ inner ∧ ']' ∉ inner := by
  induction t generalizing inner with
  | nil => simp [toBracket] at h
  | cons c r ih =>
    simp only [toBracket] at h
    split_ifs at h with h1 h2
    · simp only [Option.some.injEq, Prod.mk.injEq] at h
      obtain ⟨rfl, rfl⟩ := h
      exact ⟨by rw [h1]; rfl, by simp, by simp⟩
    · simp only [Option.map_eq_some_iff, Prod.exists, Prod.mk.injEq] at h
      obtain ⟨u, v, hu, rfl, rfl⟩ := h
      obtain ⟨hr, ho, hc⟩ := ih hu
      exact ⟨by rw [hr]; rfl, by simp [ho, Ne.symm h2], by simp [hc, Ne.symm h1]⟩

theorem toBracket_append {inner : Text} (ho : '[' ∉ inner) (hc : ']' ∉ inner) (rest : Text) :
    toBracket (inner ++ ']' :: rest) = some (inner, rest) := by
  induction inner with
  | nil => simp [toBracket]
  | cons c r ih =>
    simp only [List.mem_cons, not_or] at ho hc
    simp [toBracket, Ne.symm ho.1, Ne.symm hc.1, ih ho.2 hc.2]

theorem tagAfterBracket_some {t body rest : Text} (h : tagAfterBracket t = some (body, rest)) :
    t = body ++ ']' :: rest ∧ TagBody body := by
  cases t with
  | nil => simp [tagAfterBracket] at h
  | cons c r =>
    simp only [tagAfterBracket] at h
    split_ifs at h with hs
    simp only [Option.map_eq_some_iff, Prod.exists, Prod.mk.injEq] at h
    obtain ⟨u, v, hu, rfl, rfl⟩ := h
    obtain ⟨hr, ho, hc⟩ := toBracket_some hu
    exact ⟨by rw [hr]; rfl, c, u, rfl, hs, ho, hc⟩

theorem tagAfterBracket_body {body : Text} (hb : TagBody body) (rest : Text) :
    tagAfterBracket (body ++ ']' :: rest) = some (body, rest) := by
  obtain ⟨c, r, rfl, hs, ho, hc⟩ := hb
  simp [tagAfterBracket, hs, toBracket_append ho hc]

theorem toBracket_slashes (n : Nat) (r : Text) : toBracket (List.replicate n '\\' ++ '[' :: r) = none := by
  induction n with
  | zero => rfl
  | succ n ih => simp [List.replicate_succ, toBracket, ih]

theorem tagAfterBracket_slashes (n : Nat) (r : Text) :
    tagAfterBracket (List.replicate n '\\' ++ '[' :: r) = none := by
  cases n with
  | zero => rfl
  | succ n => rfl

theorem leadingTag_bracket (r : Text) :
    leadingTag ('[' :: r) = (tagAfterBracket r).map fun (body, rest) => (0, body, rest) := rfl

theorem leadingTag_slash (r : Text) :
    leadingTag ('\\' :: r) = (leadingTag r).map fun (n, body, rest) => (n + 1, body, rest) := by
  have hn : backslashes ('\\' :: r) = backslashes r + 1 := rfl
  simp only [leadingTag, hn, List.drop_succ_cons]
  split
  · rename_i s _
    cases tagAfterBracket s <;> rfl
  · rfl

theorem leadingTag_other {c : Char} (hs : c ≠ '\\') (hb : c ≠ '[') (r : Text) : leadingTag (c :: r) = none := by
  have hn : backslashes (c :: r) = 0 := by simp [backslashes, hs]
  simp only [leadingTag, hn, List.drop_zero]
  split
  · rename_i heq
    simp only [List.cons.injEq] at heq
    exact absurd heq.1 hb
  · rfl

theorem leadingTag_slashes {body : Text} (hb : TagBody body) (n : Nat) (rest : Text) :
    leadingTag (List.replicate n '\\' ++ '[' :: (body ++ ']' :: rest)) = some (n, body, rest) := by
  induction n with
  | zero => simp [leadingTag_bracket, tagAfterBracket_body hb]
  | succ n ih => rw [List.replicate_succ, List.cons_append, leadingTag_slash, ih]; rfl

theorem leadingTag_some {t body rest : Text} {n : Nat} (h : leadingTag t = some (n, body, rest)) :
    t = List.replicate n '\\' ++ '[' :: (body ++ ']' :: rest) ∧ TagBody body := by
  induction t generalizing n with
  | nil => simp [leadingTag, backslashes] at h
  | cons c r ih =>
    by_cases hs : c = '\\'
    · subst hs
      rw [leadingTag_slash] at h
      simp only [Option.map_eq_some_iff, Prod.exists, Prod.mk.injEq] at h
      obtain ⟨m, u, v, hu, rfl, rfl, rfl⟩ := h
      obtain ⟨hr, hb⟩ := ih hu
      exact ⟨by rw [List.replicate_succ, List.cons_append, ← hr], hb⟩
    by_cases hb : c = '['
    · subst hb
      rw [leadingTag_bracket] at h
      simp only [Option.map_eq_some_iff, Prod.exists, Prod.mk.injEq] at h
      obtain ⟨u, v, hu, rfl, rfl, rfl⟩ := h
      obtain ⟨hr, hb⟩ := tagAfterBracket_some hu
      exact ⟨by rw [hr]; rfl, hb⟩
    · rw [leadingTag_other hs hb] at h
      exact absurd h (by simp)

/-! ## Reading a text -/

/-- a text read from left to right: characters that start no tag, and tags with the backslashes before them -/
inductive Reading : Text → Prop where
  | nil : Reading []
  | char (c : Char) (r : Text) (h : leadingTag (c :: r) = none) (hr : Reading r) : Reading (c :: r)
  | tag (n : Nat) (body rest : Text) (hb : TagBody body) (hr : Reading rest) :
    Reading (List.replicate n '\\' ++ '[' :: (body ++ ']' :: rest))

theorem reading (t : Text) : Reading t := by
  induction hn : t.length using Nat.strong_induction_on generalizing t with
  | _ n ih =>
    cases t with
    | nil => exact .nil
    | cons c r =>
      cases h : leadingTag (c :: r) with
      | none => exact .char c r h (ih r.length (by simp at hn; omega) r rfl)
      | some found =>
        obtain ⟨k, body, rest⟩ := found
        obtain ⟨heq, hb⟩ := leadingTag_some h
        have hlt : rest.length < n := by rw [← hn, heq]; simp; omega
        rw [heq]
        exact .tag k body rest hb (ih rest.length hlt rest rfl)

theorem partsFrom_skip (u r : Text) (p : Nat) : partsFrom p u.length (u ++ r) = partsFrom (p + u.length) 0 r := by
  induction u generalizing p with
  | nil => rfl
  | cons c u ih =>
    simp only [List.length_cons, List.cons_append, partsFrom, Nat.zero_lt_succ, if_true, Nat.add_sub_cancel]
    rw [ih, Nat.add_right_comm, Nat.add_assoc]

theorem partsFrom_char {c : Char} {r : Text} (h : leadingTag (c :: r) = none) (p : Nat) :
    partsFrom p 0 (c :: r) = consChar c (partsFrom (p + 1) 0 r) := by
  simp [partsFrom, h]

/-- the reader goes on right after a tag -/
theorem partsFrom_tag_at {body : Text} (hb : TagBody body) (n p : Nat) (rest : Text) :
    partsFrom p 0 (List.replicate n '\\' ++ '[' :: (body ++ ']' :: rest)) =
      .tag p n body :: partsFrom (p + 1 + (n + body.length + 1)) 0 rest := by
  have hlead := leadingTag_slashes hb n rest
  -- the tag without its first character is what the reader skips
  obtain ⟨c, u, hu, hlen⟩ : ∃ c u, List.replicate n '\\' ++ '[' :: (body ++ ']' :: rest) = c :: (u ++ rest) ∧
      u.length = n + body.length + 1 := by
    cases n with
    | zero => exact ⟨'[', body ++ [']'], by simp, by simp⟩
    | succ n =>
      refine ⟨'\\', List.replicate n '\\' ++ '[' :: (body ++ [']']), by simp [List.replicate_succ], ?_⟩
      simp only [List.length_append, List.length_replicate, List.length_cons, List.length_nil]
      omega
  rw [hu] at hlead ⊢
  simp only [partsFrom, Nat.lt_irrefl, if_false, hlead]
  rw [← hlen, partsFrom_skip]

theorem partsFrom_tag {body : Text} (hb : TagBody body) (n p : Nat) (rest : Text) :
    ∃ q, partsFrom p 0 (List.replicate n '\\' ++ '[' :: (body ++ ']' :: rest)) =
      .tag p n body :: partsFrom q 0 rest := ⟨_, partsFrom_tag_at hb n p rest⟩

/-! ## What escaping writes -/

/-- the parts of a text, written so that every tag shows as text -/
def written (t : Text) : Text := escapeParts (parts t)

theorem escapeParts_consChar (c : Char) (ps : List Part) : escapeParts (consChar c ps) = c :: escapeParts ps := by
  cases ps with
  | nil => rfl
  | cons p ps => cases p <;> rfl

theorem escapeParts_position (t : Text) (p q : Nat) : escapeParts (partsFrom p 0 t) = escapeParts (partsFrom q 0 t) := by
  induction reading t generalizing p q with
  | nil => rfl
  | char c r h _ ih =>
    rw [partsFrom_char h, partsFrom_char h, escapeParts_consChar, escapeParts_consChar, ih (p + 1) (q + 1)]
  | tag n body rest hb _ ih =>
    obtain ⟨p', hp⟩ := partsFrom_tag hb n p rest
    obtain ⟨q', hq⟩ := partsFrom_tag hb n q rest
    rw [hp, hq]
    simp only [escapeParts, ih p' q']

theorem written_char {c : Char} {r : Text} (h : leadingTag (c :: r) = none) : written (c :: r) = c :: written r := by
  rw [written, parts, partsFrom_char h, escapeParts_consChar, escapeParts_position r 1 0]
  rfl

theorem written_tag {body : Text} (hb : TagBody body) (n : Nat) (rest : Text) :
    written (List.replicate n '\\' ++ '[' :: (body ++ ']' :: rest)) =
      List.replicate (2 * n + 1) '\\' ++ '[' :: (body ++ ']' :: written rest) := by
  obtain ⟨q, hq⟩ := partsFrom_tag hb n 0 rest
  rw [written, parts, hq]
  simp only [escapeParts]
  rw [escapeParts_position rest q 0]
  rfl

/-- a text of backslashes only is written as it is -/
theorem written_slashes (n : Nat) : written (List.replicate n '\\') = List.replicate n '\\' := by
  have hnone : ∀ m, leadingTag (List.replicate m '\\') = none := by
    intro m
    induction m with
    | zero => rfl
    | succ m ih => rw [List.replicate_succ, leadingTag_slash, ih]; rfl
  induction n with
  | zero => rfl
  | succ n ih =>
    have h := hnone (n + 1)
    rw [List.replicate_succ] at h ⊢
    rw [written_char h, ih]

theorem escape_eq_written (t : Text) : ∃ j, escape t = written t ++ List.replicate j '\\' := by
  simp only [escape]
  split_ifs
  · exact ⟨1, rfl⟩
  · exact ⟨0, by simp [written]⟩

/-! ## Written text followed by more text -/

section Followed

variable {x : Text}

theorem toBracket_written {r : Text} (h : toBracket r = none) (hx : toBracket x = none) :
    toBracket (written r ++ x) = none := by
  induction reading r with
  | nil => exact hx
  | char c r hc _ ih =>
    rw [written_char hc]
    simp only [toBracket, List.cons_append] at h ⊢
    split_ifs at h ⊢ with h1 h2
    · rfl
    · rw [Option.map_eq_none_iff] at h ⊢
      exact ih h
  | tag n body rest hb _ _ =>
    rw [written_tag hb]
    simp only [List.append_assoc, List.cons_append]
    exact toBracket_slashes _ _

theorem tagAfterBracket_written {r : Text} (h : tagAfterBracket r = none) (hx : toBracket x = none)
    (hx' : tagAfterBracket x = none) : tagAfterBracket (written r ++ x) = none := by
  cases reading r with
  | nil => exact hx'
  | char c r hc _ =>
    rw [written_char hc]
    simp only [tagAfterBracket, List.cons_append] at h ⊢
    split_ifs at h ⊢ with hs
    · rw [Option.map_eq_none_iff] at h ⊢
      exact toBracket_written h hx
    · rfl
  | tag n body rest hb _ =>
    rw [written_tag hb]
    simp only [List.append_assoc, List.cons_append]
    exact tagAfterBracket_slashes _ _

/-- where no tag started, none starts in the written text; only a text of backslashes can reach into what follows -/
theorem leadingTag_written {r : Text} (h : leadingTag r = none) (hx : toBracket x = none)
    (hx' : tagAfterBracket x = none) :
    leadingTag (written r ++ x) = none ∨ ∃ m, r = List.replicate m '\\' := by
  induction reading r with
  | nil => exact Or.inr ⟨0, rfl⟩
  | char c r hc _ ih =>
    rw [written_char hc]
    by_cases hs : c = '\\'
    · subst hs
      rw [leadingTag_slash, Option.map_eq_none_iff] at hc
      rcases ih hc with hr | ⟨m, rfl⟩
      · left
        rw [List.cons_append, leadingTag_slash, hr]
        rfl
      · exact Or.inr ⟨m + 1, rfl⟩
    by_cases hb : c = '['
    · subst hb
      left
      rw [leadingTag_bracket, Option.map_eq_none_iff] at hc
      rw [List.cons_append, leadingTag_bracket, tagAfterBracket_written hc hx hx']
      rfl
    · exact Or.inl (leadingTag_other hs hb _)
  | tag n body rest hb _ _ =>
    rw [leadingTag_slashes hb] at h
    exact absurd h (by simp)

end Followed

/-- a part that opens and closes nothing -/
def Part.Inert : Part → Prop
  | .chars _ => True
  | .tag _ n _ => n % 2 = 1

/-- parts of which only the last, a tag, can be live -/
def ClosedBy (body : Text) (ps : List Part) : Prop :=
  ∃ inner q n, ps = inner ++ [.tag q n body] ∧ ∀ part ∈ inner, part.Inert

theorem ClosedBy.consChar {body : Text} {ps : List Part} (h : ClosedBy body ps) (c : Char) :
    ClosedBy body (consChar c ps) := by
  obtain ⟨inner, q, n, rfl, hi⟩ := h
  cases inner with
  | nil => exact ⟨[.chars [c]], q, n, rfl, by simp [Part.Inert]⟩
  | cons p inner =>
    cases p with
    | chars t =>
      refine ⟨.chars (c :: t) :: inner, q, n, rfl, fun part hpart => ?_⟩
      rcases List.mem_cons.1 hpart with rfl | hpart
      · trivial
      · exact hi part (List.mem_cons_of_mem _ hpart)
    | tag q' n' body' =>
      refine ⟨.chars [c] :: .tag q' n' body' :: inner, q, n, rfl, fun part hpart => ?_⟩
      rcases List.mem_cons.1 hpart with rfl | hpart
      · trivial
      · exact hi part hpart

theorem partsFrom_closing {body : Text} (hb : TagBody body) (j p : Nat) :
    ClosedBy body (partsFrom p 0 (List.replicate j '\\' ++ '[' :: (body ++ [']']))) := by
  obtain ⟨q, hq⟩ := partsFrom_tag hb j p []
  exact ⟨[], p, j, by rw [hq]; rfl, by simp⟩

/-- **Written text is inert.** Followed by backslashes and a tag, the written form of a text is read as parts of which
only that tag can be live. The induction follows the reading of the text; a character stays one unless it is the first
of a run of backslashes that reaches the closing tag. -/
theorem parts_written {body : Text} (hb : TagBody body) (j : Nat) (t : Text) (p : Nat) :
    ClosedBy body (partsFrom p 0 (written t ++ (List.replicate j '\\' ++ '[' :: (body ++ [']'])))) := by
  set x := List.replicate j '\\' ++ '[' :: (body ++ [']']) with hxdef
  have hx : toBracket x = none := toBracket_slashes j _
  have hx' : tagAfterBracket x = none := tagAfterBracket_slashes j _
  induction reading t generalizing p with
  | nil => exact partsFrom_closing hb j p
  | char c r hc _ ih =>
    rcases leadingTag_written hc hx hx' with hnone | ⟨m, hm⟩
    · rw [written_char hc, List.cons_append] at hnone ⊢
      rw [partsFrom_char hnone]
      exact (ih (p + 1)).consChar c
    · rw [hm, written_slashes, hxdef, ← List.append_assoc, List.replicate_append_replicate]
      exact partsFrom_closing hb (m + j) p
  | tag n body' rest hb' _ ih =>
    rw [written_tag hb']
    simp only [List.append_assoc, List.cons_append]
    obtain ⟨q, hq⟩ := partsFrom_tag hb' (2 * n + 1) p (written rest ++ x)
    rw [hq]
    obtain ⟨inner, q', n', heq, hi⟩ := ih q
    refine ⟨.tag p (2 * n + 1) body' :: inner, q', n', by rw [heq]; rfl, fun part hpart => ?_⟩
    rcases List.mem_cons.1 hpart with rfl | hpart
    · simp only [Part.Inert]; omega
    · exact hi part hpart

/-! ## Showing -/

variable {screen : Screen} {style plain : Text}

/-- the name of a style as it stands in a tag, where it opens and closes the same style -/
structure StyleWord (style : Text) : Prop where
  body : TagBody style
  closing : TagBody ('/' :: style)
  no_equals : '=' ∉ style
  no_colon : ':' ∉ style
  no_slash : style.head? ≠ some '/'
  no_at : style.head? ≠ some '@'
  trimmed : Text.trim style = style
  named : tagName style = .ok style

instance : DecidablePred StyleWord := fun style => decidable_of_iff
  (TagBody style ∧ TagBody ('/' :: style) ∧ '=' ∉ style ∧ ':' ∉ style ∧ style.head? ≠ some '/' ∧ style.head? ≠ some '@' ∧
    Text.trim style = style ∧ tagName style = .ok style)
  ⟨fun ⟨hbody, hclosing, heq, hcolon, hslash, hat, htrim, hname⟩ =>
      ⟨hbody, hclosing, heq, hcolon, hslash, hat, htrim, hname⟩,
    fun h => ⟨h.body, h.closing, h.no_equals, h.no_colon, h.no_slash, h.no_at, h.trimmed, h.named⟩⟩

/-- text that holds neither a bracket nor a backslash -/
def Bare (plain : Text) : Prop := ∀ c ∈ plain, c ≠ '\\' ∧ c ≠ '['

instance : DecidablePred Bare := fun plain => List.decidableBAll (fun c => c ≠ '\\' ∧ c ≠ '[') plain

theorem ClosedBy.bare {body r plain : Text} (hp : Bare plain) (h : ∀ p, ClosedBy body (partsFrom p 0 r)) (p : Nat) :
    ClosedBy body (partsFrom p 0 (plain ++ r)) := by
  induction plain generalizing p with
  | nil => exact h p
  | cons c plain ih =>
    obtain ⟨hs, hb⟩ := hp c List.mem_cons_self
    rw [List.cons_append, partsFrom_char (leadingTag_other hs hb _)]
    exact (ih (fun c hc => hp c (List.mem_cons_of_mem _ hc)) (p + 1)).consChar c

/-! ### Tags of a style -/

theorem nameIn_self (h : '=' ∉ style) : nameIn style = style := by
  apply List.takeWhile_eq_self_iff.2
  intro c hc
  simp only [ne_eq, decide_eq_true_eq]
  rintro rfl
  exact h hc

theorem parametersIn_none (h : '=' ∉ style) : parametersIn style = none := by
  have hnone : style.dropWhile (· ≠ '=') = [] := by
    refine List.dropWhile_eq_nil_iff.2 fun c hc => ?_
    simp only [ne_eq, decide_eq_true_eq]
    rintro rfl
    exact h hc
  rw [parametersIn, hnone]
  rfl

/-- a tag with a text for its style that was read when it was opened can be read again -/
theorem StyleWord.readable (hs : StyleWord style) : ∃ read, Style.read style = .ok read := by
  have hname := hs.named
  rw [tagName] at hname
  cases hread : Style.read style with
  | error f => rw [hread] at hname; cases hname
  | ok read => exact ⟨read, rfl⟩

theorem applyTag_open (hs : StyleWord style) (p length : Nat) (opened : List Opened) :
    applyTag screen p style length opened = .ok (⟨style, none, length⟩ :: opened, []) := by
  simp only [applyTag, nameIn_self hs.no_equals, parametersIn_none hs.no_equals]
  split
  · exact absurd rfl hs.no_slash
  · rw [hs.named]
    rfl

theorem applyTag_close (hs : StyleWord style) (p length start : Nat) (opened : List Opened) :
    applyTag screen p ('/' :: style) length (⟨style, none, start⟩ :: opened) =
      .ok (opened, [⟨start, length, style⟩]) := by
  have hname : nameIn ('/' :: style) = '/' :: style := nameIn_self (by simp [hs.no_equals])
  obtain ⟨c, r, hc, -⟩ := hs.body
  have hne : style.isEmpty = false := by rw [hc]; rfl
  have hclose : Opened.close screen ⟨style, none, start⟩ length = .ok [⟨start, length, style⟩] := by
    rw [Opened.close, if_neg hs.no_at]
    rfl
  simp only [applyTag, hname, hs.trimmed, hne, hs.named]
  simp only [popNamed, if_pos, Except.mapError, bind, Except.bind, pure, Except.pure, Bool.false_eq_true, if_false, hclose]

/-- what the closing tag of a style shows with so many backslashes before it: half of them, and itself if their number is odd -/
def closing (style : Text) (j : Nat) : Text :=
  List.replicate (j / 2) '\\' ++ if j % 2 = 1 then shown (writtenTag ('/' :: style)) else []

/-- the closing tag ends the style, or shows; and then the style ends behind it -/
theorem showParts_closing (hs : StyleWord style) (q j length start : Nat) :
    showParts screen length [⟨style, none, start⟩] [.tag q j ('/' :: style)] =
      .ok ⟨closing style j, [⟨start, length + (closing style j).length, style⟩]⟩ := by
  have hpictures : screen.pictures (writtenTag ('/' :: style)) = writtenTag ('/' :: style) := by
    refine (uncoded_colonless ?_).pictures_eq screen
    simpa [writtenTag] using hs.no_colon
  rw [showParts, closing, hpictures]
  split_ifs with hodd
  · simp [bind, Except.bind, pure, Except.pure, showParts, Shown.behind, Opened.stretch]
  · rw [applyTag_close hs]
    simp [bind, Except.bind, pure, Except.pure, showParts, Shown.behind]

/-! ### Inert parts -/

/-- what a part shows that opens and closes nothing -/
def Part.text (screen : Screen) : Part → Text
  | .chars t => shown (screen.pictures (unescapeBrackets t))
  | .tag _ n body => List.replicate (n / 2) '\\' ++ shown (screen.pictures (writtenTag body))

theorem behind_behind (t u : Text) (s : Shown) : (s.behind u []).behind t [] = s.behind (t ++ u) [] := by
  simp [Shown.behind]

/-- **Inert parts** show their text, whatever is open, and leave it open. -/
theorem showParts_append {inner : List Part} (hi : ∀ part ∈ inner, part.Inert) (length : Nat) (opened : List Opened)
    (ps : List Part) :
    showParts screen length opened (inner ++ ps) =
      (Shown.behind (inner.flatMap (Part.text screen)) []) <$>
        showParts screen (length + (inner.flatMap (Part.text screen)).length) opened ps := by
  induction inner generalizing length with
  | nil => exact (id_map _).symm
  | cons part inner ih =>
    have hrest := ih fun part hpart => hi part (List.mem_cons_of_mem _ hpart)
    have hpart := hi part List.mem_cons_self
    have hstep : showParts screen length opened (part :: (inner ++ ps)) =
        (Shown.behind (part.text screen) []) <$>
          showParts screen (length + (part.text screen).length) opened (inner ++ ps) := by
      cases part with
      | chars t =>
        rw [showParts]
        rfl
      | tag q n body =>
        rw [showParts, if_pos (show n % 2 = 1 from hpart)]
        rfl
    rw [List.cons_append, hstep, hrest, List.flatMap_cons, List.length_append, Nat.add_assoc]
    cases showParts screen (length + ((part.text screen).length + _)) opened ps with
    | error f => rfl
    | ok s => exact congrArg Except.ok (behind_behind _ _ s)

/-- markup that shows as a text all of which has one style -/
def StyledAs (screen : Screen) (style markup u : Text) : Prop := read screen markup = .ok ⟨u, [⟨0, u.length, style⟩]⟩

/-- parts of which only the last is live, and closes the style that was opened before them -/
theorem read_closed (hs : StyleWord style) {t : Text} {inner : List Part} {q n : Nat} (hi : ∀ part ∈ inner, part.Inert)
    (hparts : parts ('[' :: (style ++ ']' :: t)) = .tag 0 0 style :: (inner ++ [.tag q n ('/' :: style)])) :
    StyledAs screen style ('[' :: (style ++ ']' :: t)) (inner.flatMap (Part.text screen) ++ closing style n) := by
  rw [StyledAs, read, if_pos (by simp), hparts, showParts]
  simp only [Nat.zero_mod, Nat.zero_ne_one, if_false, applyTag_open hs, bind, Except.bind]
  rw [showParts_append hi, showParts_closing hs]
  simp [Functor.map, Except.map, pure, Except.pure, Shown.behind]

/-- written text shows between the tags of a style, with backslashes behind it or without -/
theorem read_styled_written (hs : StyleWord style) (hp : Bare plain) (t : Text) (j : Nat) :
    ∃ u, StyledAs screen style ('[' :: (style ++ (']' :: (plain ++ (written t ++ (List.replicate j '\\' ++
      ('[' :: '/' :: (style ++ [']'])))))))) u := by
  have hclosed : ∀ p, ClosedBy ('/' :: style)
      (partsFrom p 0 (plain ++ (written t ++ (List.replicate j '\\' ++ ('[' :: '/' :: (style ++ [']'])))))) :=
    ClosedBy.bare hp fun p => parts_written hs.closing j t p
  obtain ⟨p, hopen⟩ := partsFrom_tag hs.body 0 0
    (plain ++ (written t ++ (List.replicate j '\\' ++ ('[' :: '/' :: (style ++ [']'])))))
  obtain ⟨inner, q, n, heq, hi⟩ := hclosed p
  rw [heq] at hopen
  exact ⟨_, read_closed hs hi hopen⟩

/-- **Escaped text always shows.** Between the tags of a style, after some bare text, the escaped form of any text is
markup without a fault. -/
theorem read_styled_escape (hs : StyleWord style) (hp : Bare plain) (t : Text) :
    ∃ u, StyledAs screen style
      ('[' :: (style ++ (']' :: (plain ++ (escape t ++ ('[' :: '/' :: (style ++ [']']))))))) u := by
  obtain ⟨j, hj⟩ := escape_eq_written t
  rw [hj, List.append_assoc]
  exact read_styled_written hs hp t j

end RepoLens.Console.Markup
