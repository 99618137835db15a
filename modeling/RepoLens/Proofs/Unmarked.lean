import Mathlib.Tactic
import RepoLens.Proofs.Escape
import RepoLens.Proofs.Listing
/-!
Markup that shows as it is. Text without an opening bracket that starts a tag or follows a backslash shows unchanged, codes
apart. In all other text some ink is lost: a tag vanishes, or a backslash before a tag or a bracket does. Ink is every character
but spaces and newlines.

Results:
- `Codeless.of_uncoded`: text without codes has no pictures on any screen;
- `read_unmarked`: unmarked text of ordinary characters shows as itself, where none of its codes is a picture;
- `read_ink`: what is shown has the ink of the markup, in order; and if none of it is lost, the text was unmarked.
-/
namespace RepoLens

open scoped List

namespace Text

/-- whether a character leaves a mark on the screen, as spaces and newlines do not -/
def isInk (c : Char) : Bool := c ≠ ' ' && c ≠ '\n'

def inked (t : Text) : Text := t.filter isInk

/-- how much ink a text has -/
def ink (t : Text) : Nat := (inked t).length

@[simp] theorem inked_append (s t : Text) : inked (s ++ t) = inked s ++ inked t := List.filter_append ..

@[simp] theorem ink_append (s t : Text) : ink (s ++ t) = ink s + ink t := by simp [ink]

theorem ink_cons (c : Char) (t : Text) : ink (c :: t) = (if isInk c then 1 else 0) + ink t := by
  unfold ink inked
  rw [List.filter_cons]
  split_ifs <;> simp [Nat.add_comm]

theorem inked_sublist {s t : Text} (h : s <+ t) : inked s <+ inked t := h.filter isInk

/-- newlines and the printable characters of ASCII -/
def Ordinary (t : Text) : Prop := ∀ c ∈ t, c = '\n' ∨ 0x20 ≤ c.toNat ∧ c.toNat < 0x7F

-- one character of the text after the other, and not every character there is
instance : DecidablePred Ordinary := List.decidableBAll fun c => c = '\n' ∨ 0x20 ≤ c.toNat ∧ c.toNat < 0x7F

theorem Ordinary.nil : Ordinary [] := fun _ hc => absurd hc List.not_mem_nil

theorem Ordinary.cons {c : Char} {t : Text} (ht : Ordinary t) (hc : c = '\n' ∨ 0x20 ≤ c.toNat ∧ c.toNat < 0x7F) :
    Ordinary (c :: t) := List.forall_mem_cons.2 ⟨hc, ht⟩

theorem Ordinary.append {s t : Text} (hs : Ordinary s) (ht : Ordinary t) : Ordinary (s ++ t) := by
  intro c hc
  rcases List.mem_append.1 hc with hc | hc
  · exact hs c hc
  · exact ht c hc

/-- text whose ink comes from an ordinary text is ordinary -/
theorem Ordinary.of_inked {s t : Text} (ht : Ordinary t) (h : inked s <+ inked t) : Ordinary s := by
  intro c hc
  by_cases hink : isInk c = true
  · have hmem : c ∈ inked s := List.mem_filter.2 ⟨hc, hink⟩
    exact ht c (List.mem_of_mem_filter (h.subset hmem))
  · simp only [isInk, Bool.and_eq_true, decide_eq_true_eq, not_and, not_not] at hink
    by_cases hspace : c = ' '
    · right
      rw [hspace]
      decide
    · exact Or.inl (hink hspace)

end Text

namespace Console.Markup

open Text

/-- no opening bracket starts a tag, and none follows a backslash -/
def Unmarked (t : Text) : Prop :=
  ∀ a r, t = a ++ '[' :: r → (∀ body rest, TagBody body → r ≠ body ++ ']' :: rest) ∧ a.getLast? ≠ some '\\'

/-! ## What is written in parts -/

def Part.source : Part → Text
  | .chars t => t
  | .tag _ n body => List.replicate n '\\' ++ '[' :: (body ++ [']'])

theorem source_consChar (c : Char) (ps : List Part) : (consChar c ps).flatMap Part.source = c :: ps.flatMap Part.source := by
  cases ps with
  | nil => rfl
  | cons p ps => cases p <;> rfl

theorem source_partsFrom (t : Text) (p : Nat) : (partsFrom p 0 t).flatMap Part.source = t := by
  induction reading t generalizing p with
  | nil => rfl
  | char c r h _ ih => rw [partsFrom_char h, source_consChar, ih]
  | tag n body rest hb _ ih =>
    obtain ⟨q, hq⟩ := partsFrom_tag hb n p rest
    rw [hq, List.flatMap_cons, ih]
    simp [Part.source]

theorem source_of_mem {t : Text} {part : Part} (h : part ∈ parts t) : part.source <:+: t := by
  have hsource : (parts t).flatMap Part.source = t := source_partsFrom t 0
  have hinfix := List.infix_of_mem_flatten (List.mem_map_of_mem (f := Part.source) h)
  rwa [← List.flatMap_def, hsource] at hinfix

/-! ## Codes -/

/-- what of a part is looked through for codes -/
def Part.segment : Part → Text
  | .chars t => unescapeBrackets t
  | .tag _ _ body => writtenTag body

/-- no code of a text shows as a picture -/
def Codeless (screen : Screen) (t : Text) : Prop := ∀ part ∈ parts t, screen.pictures part.segment = part.segment

theorem Codeless.of_uncoded {t : Text} (h : Uncoded t) (screen : Screen) : Codeless screen t := by
  intro part hpart
  have hsource := h.inside (source_of_mem hpart)
  cases part with
  | chars u => exact hsource.unescapeBrackets.pictures_eq screen
  | tag p n body => exact (hsource.inside (List.suffix_append _ _).isInfix).pictures_eq screen

/-! ## Ink is never made -/

theorem unescapeBrackets_sublist (t : Text) : unescapeBrackets t <+ t := by
  fun_induction unescapeBrackets t with
  | case1 => exact List.Sublist.refl _
  | case2 r ih => exact (ih.cons_cons '[').cons '\\'
  | case3 c r _ ih => exact ih.cons_cons c

theorem shown_sublist (t : Text) : shown t <+ t := List.filter_sublist

section Showing

variable {screen : Screen} {length : Nat} {opened : List Opened} {ps : List Part} {s : Shown}

theorem showParts_chars {t : Text} (h : showParts screen length opened (.chars t :: ps) = .ok s) :
    ∃ length' v, showParts screen length' opened ps = .ok v ∧
      s.text = shown (screen.pictures (unescapeBrackets t)) ++ v.text := by
  rw [showParts] at h
  obtain ⟨v, hv, rfl⟩ := bind_pure_eq_ok.1 h
  exact ⟨_, v, hv, rfl⟩

/-- a tag halves the backslashes before it, and shows only if there is an odd one -/
theorem showParts_tag {p n : Nat} {body : Text} (h : showParts screen length opened (.tag p n body :: ps) = .ok s) :
    ∃ length' opened' w v, showParts screen length' opened' ps = .ok v ∧ s.text = List.replicate (n / 2) '\\' ++ (w ++ v.text) ∧
      (n % 2 = 1 ∧ w = shown (screen.pictures (writtenTag body)) ∨ n % 2 = 0 ∧ w = []) := by
  rw [showParts] at h
  split_ifs at h with hodd
  · obtain ⟨v, hv, rfl⟩ := bind_pure_eq_ok.1 h
    exact ⟨_, opened, _, v, hv, List.append_assoc _ _ _, Or.inl ⟨hodd, rfl⟩⟩
  · obtain ⟨after, -, h⟩ := bind_eq_ok.1 h
    obtain ⟨v, hv, rfl⟩ := bind_pure_eq_ok.1 h
    exact ⟨_, after.1, [], v, hv, rfl, Or.inr ⟨by omega, rfl⟩⟩

end Showing

/-- a tag that is shown has lost a backslash, and one that is not has lost its brackets -/
theorem tag_loses {n : Nat} {body w : Text} (h : n % 2 = 1 ∧ w = shown (writtenTag body) ∨ n % 2 = 0 ∧ w = []) :
    List.replicate (n / 2) '\\' ++ w <+ List.replicate n '\\' ++ '[' :: (body ++ [']']) ∧
      ink (List.replicate (n / 2) '\\' ++ w) < ink (List.replicate n '\\' ++ '[' :: (body ++ [']'])) := by
  have hslashes : ∀ k, ink (List.replicate k '\\') = k := fun k => by
    have hall : inked (List.replicate k '\\') = List.replicate k '\\' := by simp [inked, isInk]
    rw [ink, hall, List.length_replicate]
  rcases h with ⟨hodd, rfl⟩ | ⟨heven, rfl⟩
  · have htag : shown (writtenTag body) <+ '[' :: (body ++ [']']) := shown_sublist _
    refine ⟨((List.replicate_sublist_replicate _).2 (Nat.div_le_self n 2)).append htag, ?_⟩
    have hink := (inked_sublist htag).length_le
    rw [ink_append, ink_append, hslashes, hslashes]
    unfold ink
    omega
  · rw [List.append_nil]
    refine ⟨((List.replicate_sublist_replicate _).2 (Nat.div_le_self n 2)).trans (List.sublist_append_left _ _), ?_⟩
    have hbracket : ink ('[' :: (body ++ [']'])) = 1 + ink (body ++ [']']) := ink_cons _ _
    rw [ink_append, hslashes, hslashes, hbracket]
    omega

/-- **What parts show** comes from what was written, in order, and no ink is lost only if there was no tag. -/
theorem showParts_source {screen : Screen} {length : Nat} {opened : List Opened} {ps : List Part} {s : Shown}
    (hcodes : ∀ part ∈ ps, screen.pictures part.segment = part.segment) (h : showParts screen length opened ps = .ok s) :
    s.text <+ ps.flatMap Part.source ∧
      (ink s.text = ink (ps.flatMap Part.source) → ∀ part ∈ ps, ∃ t, part = .chars t) := by
  induction ps generalizing length opened s with
  | nil =>
    rw [← Except.ok.inj h]
    exact ⟨List.Sublist.refl _, fun _ part hpart => absurd hpart (List.not_mem_nil)⟩
  | cons part ps ih =>
    obtain ⟨hcode, hrest⟩ := List.forall_mem_cons.1 hcodes
    cases part with
    | chars t =>
      obtain ⟨length', v, hv, htext⟩ := showParts_chars h
      rw [show screen.pictures (unescapeBrackets t) = unescapeBrackets t from hcode] at htext
      obtain ⟨hsub, hlost⟩ := ih hrest hv
      have ht : shown (unescapeBrackets t) <+ t := (shown_sublist _).trans (unescapeBrackets_sublist t)
      rw [htext]
      refine ⟨ht.append hsub, fun hink part hpart => ?_⟩
      rcases List.mem_cons.1 hpart with rfl | hpart
      · exact ⟨t, rfl⟩
      · refine hlost ?_ part hpart
        have hle := (inked_sublist ht).length_le
        have hle' := (inked_sublist hsub).length_le
        simp only [List.flatMap_cons, Part.source, ink_append] at hink
        unfold ink at hink ⊢
        omega
    | tag p n body =>
      obtain ⟨length', opened', w, v, hv, htext, hw⟩ := showParts_tag h
      rw [show screen.pictures (writtenTag body) = writtenTag body from hcode] at hw
      obtain ⟨hsub, -⟩ := ih hrest hv
      obtain ⟨htag, hless⟩ := tag_loses hw
      rw [htext, ← List.append_assoc]
      refine ⟨htag.append hsub, fun hink => ?_⟩
      have hle := (inked_sublist hsub).length_le
      simp only [List.flatMap_cons, Part.source, ink_append] at hink hless
      unfold ink at hink hless
      omega

/-! ## Unmarked text -/

/-- no tag starts anywhere -/
def TagFree (t : Text) : Prop := ∀ a s, t = a ++ s → leadingTag s = none

theorem TagFree.tail {c : Char} {t : Text} (h : TagFree (c :: t)) : TagFree t :=
  fun a s ht => h (c :: a) s (by rw [ht]; rfl)

theorem TagFree.partsFrom {t : Text} (h : TagFree t) (hne : t ≠ []) (p : Nat) : partsFrom p 0 t = [.chars t] := by
  induction t generalizing p with
  | nil => exact absurd rfl hne
  | cons c r ih =>
    rw [partsFrom_char (h [] (c :: r) rfl)]
    cases r with
    | nil => rfl
    | cons d r => rw [ih h.tail (by simp)]; rfl

/-- text all of whose parts are characters -/
theorem tagFree_of_chars {t : Text} {p : Nat} (h : ∀ part ∈ Markup.partsFrom p 0 t, ∃ u, part = .chars u) : TagFree t := by
  induction reading t generalizing p with
  | nil =>
    intro a s hs
    rw [(List.append_eq_nil_iff.1 hs.symm).2]
    rfl
  | char c r hc _ ih =>
    rw [partsFrom_char hc] at h
    have hrest : ∀ part ∈ Markup.partsFrom (p + 1) 0 r, ∃ u, part = .chars u := by
      intro part hpart
      cases hps : Markup.partsFrom (p + 1) 0 r with
      | nil => rw [hps] at hpart; exact absurd hpart List.not_mem_nil
      | cons first ps =>
        rw [hps] at h hpart
        cases first with
        | chars u =>
          rcases List.mem_cons.1 hpart with rfl | hpart
          · exact ⟨u, rfl⟩
          · exact h part (List.mem_cons_of_mem _ hpart)
        | tag q n body => exact h part (List.mem_cons_of_mem _ hpart)
    intro a s hs
    cases a with
    | nil => rw [← List.nil_append s, ← hs]; exact hc
    | cons x a => exact ih hrest a s (List.cons.inj hs).2
  | tag n body rest hb _ _ =>
    obtain ⟨q, hq⟩ := partsFrom_tag hb n p rest
    rw [hq] at h
    obtain ⟨u, hu⟩ := h _ List.mem_cons_self
    exact absurd hu (by simp)

theorem Unmarked.tagFree {t : Text} (h : Unmarked t) : TagFree t := by
  intro a s ht
  cases hlead : leadingTag s with
  | none => rfl
  | some found =>
    obtain ⟨n, body, rest⟩ := found
    obtain ⟨hs, hb⟩ := leadingTag_some hlead
    rw [hs, ← List.append_assoc] at ht
    exact absurd rfl ((h _ _ ht).1 body rest hb)

theorem Unmarked.tail {c : Char} {t : Text} (h : Unmarked (c :: t)) : Unmarked t := by
  intro a r ht
  obtain ⟨htag, hslash⟩ := h (c :: a) r (by rw [ht]; rfl)
  refine ⟨htag, fun hlast => hslash ?_⟩
  rw [List.getLast?_cons, hlast]
  rfl

theorem Unmarked.unescapeBrackets {t : Text} (h : Unmarked t) : unescapeBrackets t = t := by
  fun_induction Markup.unescapeBrackets t with
  | case1 => rfl
  | case2 r ih => exact absurd rfl (h ['\\'] r rfl).2
  | case3 c r _ ih => rw [ih h.tail]

theorem shown_of_ordinary {t : Text} (h : Ordinary t) : shown t = t := by
  refine List.filter_eq_self.2 fun c hc => ?_
  have hkept : isDropped c = false := by
    rcases h c hc with rfl | hrange
    · rfl
    · simp only [isDropped, Bool.or_eq_false_iff, decide_eq_false_iff_not]
      omega
  rw [hkept]
  rfl

/-- text without opening brackets is unmarked -/
theorem unmarked_bracketless {t : Text} (h : '[' ∉ t) : Unmarked t := fun a r ht => absurd (by rw [ht]; simp) h

theorem Unmarked.parts {t : Text} (h : Unmarked t) (hne : t ≠ []) : Markup.parts t = [.chars t] := h.tagFree.partsFrom hne 0

/-- in unmarked text codes are looked for everywhere -/
theorem Unmarked.pictures_eq {t : Text} (h : Unmarked t) {screen : Screen} (hcodes : Codeless screen t) :
    screen.pictures t = t := by
  by_cases hne : t = []
  · rw [hne]
    rfl
  · have hpart := hcodes (.chars t) (by rw [h.parts hne]; exact List.mem_singleton_self _)
    rwa [Part.segment, h.unescapeBrackets] at hpart

theorem read_bracketless {t : Text} (h : '[' ∉ t) (screen : Screen) :
    read screen t = .ok ⟨shown (screen.pictures t), []⟩ := by
  rw [read, if_neg (by simpa using h)]
  rfl

/-- unmarked text shows as its codes do, all in no style -/
theorem read_unmarked_shown {t : Text} (h : Unmarked t) (screen : Screen) :
    read screen t = .ok ⟨shown (screen.pictures t), []⟩ := by
  by_cases hbracket : '[' ∈ t
  · have hne : t ≠ [] := by rintro rfl; simp at hbracket
    rw [read, if_pos (by simpa using hbracket), h.parts hne]
    simp only [showParts, h.unescapeBrackets]
    simp [bind, Except.bind, pure, Except.pure, Shown.behind]
  · exact read_bracketless hbracket screen

/-- **Unmarked text shows as it is**, in no style. -/
theorem read_unmarked {t : Text} (h : Unmarked t) (ho : Ordinary t) {screen : Screen} (hcodes : Codeless screen t) :
    read screen t = .ok ⟨t, []⟩ := by
  rw [read_unmarked_shown h, h.pictures_eq hcodes, shown_of_ordinary ho]

/-! ## Marked text -/

/-- an escaped bracket loses its backslash -/
theorem no_escaped_bracket {t : Text} (hink : ink (Markup.unescapeBrackets t) = ink t) {a r : Text}
    (ht : t = a ++ '[' :: r) : a.getLast? ≠ some '\\' := by
  fun_induction Markup.unescapeBrackets t generalizing a with
  | case1 => simp at ht
  | case2 s ih =>
    have hle := (inked_sublist (unescapeBrackets_sublist s)).length_le
    have hbracket : ∀ u, ink ('[' :: u) = 1 + ink u := fun u => ink_cons _ u
    have hslash : ∀ u, ink ('\\' :: u) = 1 + ink u := fun u => ink_cons _ u
    rw [hbracket, hslash, hbracket] at hink
    unfold ink at hink
    omega
  | case3 c s hno ih =>
    have hs : ink (Markup.unescapeBrackets s) = ink s := by
      rw [ink_cons, ink_cons] at hink
      omega
    cases a with
    | nil => simp
    | cons x a =>
      simp only [List.cons_append, List.cons.injEq] at ht
      obtain ⟨rfl, rfl⟩ := ht
      cases a with
      | nil =>
        intro hlast
        exact hno r (by simpa using hlast) rfl
      | cons y a =>
        rw [List.getLast?_cons_cons]
        exact ih hs rfl

/-- what is shown has been read from the parts, bracket or not -/
theorem showParts_of_read {screen : Screen} {t : Text} {s : Shown} (h : read screen t = .ok s) :
    ∃ v, showParts screen 0 [] (parts t) = .ok v ∧ v.text = s.text := by
  rw [read] at h
  split_ifs at h with hbracket
  · obtain ⟨v, hv, rfl⟩ := bind_pure_eq_ok.1 h
    exact ⟨v, hv, rfl⟩
  · have hunmarked : Unmarked t := unmarked_bracketless (by simpa using hbracket)
    rw [← Except.ok.inj h]
    by_cases hne : t = []
    · rw [hne]
      exact ⟨_, rfl, rfl⟩
    · refine ⟨⟨shown (screen.pictures t) ++ [], []⟩, ?_, by simp⟩
      rw [hunmarked.parts hne]
      simp only [showParts, hunmarked.unescapeBrackets]
      rfl

section Marked

variable {screen : Screen} {t : Text} {s : Shown}

/-- what is shown comes from the markup, in order -/
theorem read_sublist (hcodes : Codeless screen t) (h : read screen t = .ok s) : s.text <+ t := by
  obtain ⟨v, hv, hs⟩ := showParts_of_read h
  have hsub := (showParts_source hcodes hv).1
  rwa [hs, show (parts t).flatMap Part.source = t from source_partsFrom t 0] at hsub

/-- **What is shown has the ink of the markup**, in order; and if it has all of it, the text was unmarked. -/
theorem read_ink (hcodes : Codeless screen t) (h : read screen t = .ok s) :
    inked s.text <+ inked t ∧ (ink s.text = ink t → Unmarked t) := by
  refine ⟨inked_sublist (read_sublist hcodes h), fun hink a r ht => ?_⟩
  obtain ⟨v, hv, hs⟩ := showParts_of_read h
  have hchars := (showParts_source hcodes hv).2
  rw [hs, show (parts t).flatMap Part.source = t from source_partsFrom t 0] at hchars
  have hfree : TagFree t := tagFree_of_chars (hchars hink)
  have hne : t ≠ [] := by rw [ht]; simp
  have hparts : parts t = [.chars t] := hfree.partsFrom hne 0
  have hcode : screen.pictures (Markup.unescapeBrackets t) = Markup.unescapeBrackets t :=
    hcodes (.chars t) (by rw [hparts]; exact List.mem_singleton_self _)
  obtain ⟨_, w, hw, htext⟩ := showParts_chars (hparts ▸ hv)
  have hshown : s.text = shown (Markup.unescapeBrackets t) := by
    rw [← hs, htext, hcode, ← Except.ok.inj hw, List.append_nil]
  have hle := (inked_sublist (unescapeBrackets_sublist t)).length_le
  have hle' := (inked_sublist (shown_sublist (Markup.unescapeBrackets t))).length_le
  refine ⟨fun body rest hb hr => ?_, no_escaped_bracket ?_ ht⟩
  · have hlead := hfree a ('[' :: r) ht
    rw [leadingTag_bracket, hr, tagAfterBracket_body hb] at hlead
    exact absurd hlead (by simp)
  · rw [hshown] at hink
    unfold ink at hink ⊢
    omega

end Marked

end Console.Markup

end RepoLens
