import Mathlib.Tactic
import RepoLens.Yaml.Print
import RepoLens.Proofs.Wrap
/-!
Plain text, written and read. A text that can be plain is words with spaces between them. Writing keeps the words and may
put a line break for a single space; reading takes word after word and counts a lone line break as a space.

Results:
- `isPlain_of_canBePlain`: what can be plain is words with spaces between them;
- `plainFrom_worded`: such a text is read as it was, up to a colon or to a line that is not indented enough.
-/
namespace RepoLens.Yaml

open Text

/-! ## Characters and lines -/

theorem endsWord_printable {c : Char} (hc : 0x20 ≤ c.toNat ∧ c.toNat < 0x7F) (hspace : c ≠ ' ') :
    endsWord (some c) = false := by
  have htab : c ≠ '\t' := by rintro rfl; revert hc; decide
  have hline : c ≠ '\n' := by rintro rfl; revert hc; decide
  simp only [endsWord, isBreak, hspace, htab, hline, decide_false, Bool.false_or, Bool.or_eq_false_iff,
    decide_eq_false_iff_not]
  omega

theorem isBreak_printable {c : Char} (hc : 0x20 ≤ c.toNat ∧ c.toNat < 0x7F) : isBreak c = false := by
  have hline : c ≠ '\n' := by rintro rfl; revert hc; decide
  simp only [isBreak, hline, decide_false, Bool.false_or, Bool.or_eq_false_iff, decide_eq_false_iff_not]
  omega

/-- what may stand first on a line after its indentation: nothing, or a sign or text that is no comment -/
def Opens : Text → Prop
  | [] => True
  | c :: _ => endsWord (some c) = false ∧ c ≠ '#'

theorem Opens.not_space {t : Text} (h : Opens t) : t.head? ≠ some ' ' := by
  cases t with
  | nil => simp
  | cons c r =>
    rintro hc
    simp only [List.head?_cons, Option.some.injEq] at hc
    subst hc
    simp [Opens, endsWord] at h

theorem Opens.not_break {c : Char} {r : Text} (h : Opens (c :: r)) : c ≠ ' ' ∧ isBreak c = false := by
  simp only [Opens, endsWord, Bool.or_eq_false_iff, decide_eq_false_iff_not] at h
  exact ⟨h.1.1.1, h.1.2⟩

/-- a line of a document: its indentation, and what stands on it and after it -/
structure Line (m : Nat) (body : Text) : Prop where
  opens : Opens body
  no_separator : startsWithSeparator (spaces m ++ body) = false

theorem spaces_succ (m : Nat) : spaces (m + 1) = ' ' :: spaces m := rfl

@[simp] theorem length_spaces (n : Nat) : (spaces n).length = n := List.length_replicate

theorem mem_spaces {n : Nat} {c : Char} (h : c ∈ spaces n) : c = ' ' := (List.mem_replicate.1 h).2

theorem ordinary_spaces (n : Nat) : Ordinary (spaces n) := fun _ hc => mem_spaces hc ▸ .inr (by decide)

/-- a new line with its indentation -/
theorem ordinary_foldAt (n : Nat) : Ordinary (foldAt n) := (ordinary_spaces n).cons (.inl rfl)

/-- only a dash or a dot can start a document marker -/
theorem startsWithSeparator_cons {c : Char} (hdash : c ≠ '-') (hdot : c ≠ '.') (t : Text) :
    startsWithSeparator (c :: t) = false := by
  have h : ∀ x, c ≠ x → startsWithMarker x (c :: t) = false := by
    intro x hx
    unfold startsWithMarker
    split
    · rename_i heq
      simp only [List.cons.injEq] at heq
      simp [← heq.1, hx]
    · rfl
  simp [startsWithSeparator, h _ hdash, h _ hdot]

/-- a dash before a blank is no document marker -/
theorem startsWithSeparator_dash {r : Text} (h : endsWord r.head? = true) : startsWithSeparator ('-' :: r) = false := by
  cases r with
  | nil => rfl
  | cons d r =>
    have hdash : d ≠ '-' := by
      rintro rfl
      simp [endsWord, isBreak] at h
    cases r <;> simp [startsWithSeparator, startsWithMarker, hdash]

theorem startsWithSeparator_indented {m : Nat} (hm : 0 < m) (r : Text) : startsWithSeparator (spaces m ++ r) = false := by
  obtain ⟨n, rfl⟩ := Nat.exists_eq_add_one_of_ne_zero (Nat.pos_iff_ne_zero.1 hm)
  exact startsWithSeparator_cons (by decide) (by decide) _

theorem line_indented {m : Nat} {body : Text} (hm : 0 < m) (h : Opens body) : Line m body :=
  ⟨h, startsWithSeparator_indented hm body⟩

/-! ## Words -/

/-- a word of plain text: no blank, no line end, and no colon at its end -/
structure IsWord (w : Text) : Prop where
  nonempty : w ≠ []
  inner : ∀ c ∈ w, endsWord (some c) = false
  last : w.getLast? ≠ some ':'

/-- words with spaces between neighbours, none after the first with a number sign at its start -/
inductive Worded : Text → Prop where
  | word {w : Text} (hw : IsWord w) : Worded w
  | more {w t : Text} (k : Nat) (hw : IsWord w) (ht : Worded t) (hhash : t.head? ≠ some '#') :
    Worded (w ++ (spaces (k + 1) ++ t))

theorem IsWord.not_space {w : Text} (hw : IsWord w) : ∀ c ∈ w, c ≠ ' ' := by
  rintro c hc rfl
  simpa [endsWord] using hw.inner _ hc

theorem Worded.head {t : Text} (h : Worded t) : ∃ c r, t = c :: r ∧ endsWord (some c) = false := by
  cases h with
  | word hw =>
    obtain ⟨c, r, rfl⟩ := List.exists_cons_of_ne_nil hw.nonempty
    exact ⟨c, r, rfl, hw.inner c List.mem_cons_self⟩
  | more k hw ht hhash =>
    obtain ⟨c, r, rfl⟩ := List.exists_cons_of_ne_nil hw.nonempty
    exact ⟨c, _, rfl, hw.inner c List.mem_cons_self⟩

theorem Worded.opens {t : Text} (h : Worded t) (hhash : t.head? ≠ some '#') (x : Text) : Opens (t ++ x) := by
  obtain ⟨c, r, rfl, hc⟩ := h.head
  exact ⟨hc, by simpa using hhash⟩

theorem holdsSign_cons {c : Char} {r : Text} (h : holdsSign (c :: r) = false) : holdsSign r = false := by
  cases r with
  | nil => rfl
  | cons d r =>
    simp only [holdsSign, Bool.or_eq_false_iff] at h
    exact h.2

theorem holdsSign_colon {r : Text} (h : holdsSign (':' :: r) = false) : endsWord r.head? = false := by
  cases r with
  | nil => simp [holdsSign] at h
  | cons d r =>
    simp only [holdsSign, decide_true, Bool.true_and, Bool.or_eq_false_iff] at h
    exact h.1.1

theorem holdsSign_space {r : Text} (h : holdsSign (' ' :: r) = false) : r.head? ≠ some '#' := by
  cases r with
  | nil => simp
  | cons d r =>
    simp only [holdsSign, Bool.or_eq_false_iff, Bool.and_eq_false_iff, decide_eq_false_iff_not] at h
    rcases h.1.2 with hspace | hd
    · simp [endsWord] at hspace
    · simpa using hd

/-- a character in front of some words lengthens the first -/
theorem Worded.cons {c : Char} {t : Text} (h : Worded t) (hc : endsWord (some c) = false) : Worded (c :: t) := by
  have longer : ∀ {w : Text}, IsWord w → IsWord (c :: w) := by
    intro w hw
    refine ⟨by simp, ?_, ?_⟩
    · intro d hd
      rcases List.mem_cons.1 hd with rfl | hd
      · exact hc
      · exact hw.inner d hd
    · rw [List.getLast?_cons, List.getLast?_eq_some_getLast hw.nonempty, Option.getD_some,
        ← List.getLast?_eq_some_getLast hw.nonempty]
      exact hw.last
  cases h with
  | word hw => exact .word (longer hw)
  | more k hw ht hhash => exact .more k (longer hw) ht hhash

/-- **What holds no sign is words with spaces between them.** The induction is on the text, which may also start with
spaces; these end before a word that starts with no number sign. -/
theorem worded_of_signless {t : Text} (hchars : Printable t) (hne : t ≠ []) (hlast : t.getLast? ≠ some ' ')
    (hsign : holdsSign t = false) :
    (t.head? ≠ some ' ' → Worded t) ∧
      (t.head? = some ' ' → ∃ k u, t = spaces (k + 1) ++ u ∧ Worded u ∧ u.head? ≠ some '#') := by
  induction t with
  | nil => exact absurd rfl hne
  | cons c r ih =>
    have hc := hchars c List.mem_cons_self
    by_cases hr : r = []
    · subst hr
      have hspace : c ≠ ' ' := by simpa using hlast
      refine ⟨fun _ => .word ⟨by simp, ?_, ?_⟩, fun h => absurd (by simpa using h) hspace⟩
      · simpa using endsWord_printable hc hspace
      · rintro hcolon
        simp only [List.getLast?_singleton, Option.some.injEq] at hcolon
        subst hcolon
        simp [holdsSign] at hsign
    · have hrlast : r.getLast? ≠ some ' ' := by
        rwa [List.getLast?_cons, List.getLast?_eq_some_getLast hr, Option.getD_some,
          ← List.getLast?_eq_some_getLast hr] at hlast
      obtain ⟨hword, hspaces⟩ := ih (fun d hd => hchars d (List.mem_cons_of_mem c hd)) hr hrlast (holdsSign_cons hsign)
      constructor
      · intro hhead
        have hspace : c ≠ ' ' := by simpa using hhead
        have hblank := endsWord_printable hc hspace
        by_cases hnext : r.head? = some ' '
        · obtain ⟨k, u, rfl, hu, hhash⟩ := hspaces hnext
          refine .more (w := [c]) k ⟨by simp, by simpa using hblank, ?_⟩ hu hhash
          rintro hcolon
          simp only [List.getLast?_singleton, Option.some.injEq] at hcolon
          subst hcolon
          simpa [spaces_succ, endsWord] using holdsSign_colon hsign
        · exact (hword hnext).cons hblank
      · intro hhead
        have hspace : c = ' ' := by simpa using hhead
        subst hspace
        by_cases hnext : r.head? = some ' '
        · obtain ⟨k, u, rfl, hu, hhash⟩ := hspaces hnext
          exact ⟨k + 1, u, rfl, hu, hhash⟩
        · exact ⟨0, r, rfl, hword hnext, holdsSign_space hsign⟩

theorem printable_of_not_special {t : Text} (h : t.any isSpecial = false) (hline : '\n' ∉ t) : Printable t := by
  intro c hc
  have hspecial : isSpecial c = false := by simpa using List.any_eq_false.1 h c hc
  have hne : c ≠ '\n' := fun heq => hline (heq ▸ hc)
  simp only [isSpecial, hne, ne_eq, not_false_eq_true, decide_true, Bool.true_and, Bool.not_eq_false',
    Bool.and_eq_true, decide_eq_true_eq] at hspecial
  omega

/-- what a text that can be plain is made of -/
structure IsPlain (t : Text) : Prop where
  printable : Printable t
  worded : Worded t
  start : startsWithSign t = false
  separator : startsLikeSeparator t = false

theorem isPlain_of_canBePlain {t : Text} (h : canBePlain t = true) : IsPlain t := by
  simp only [canBePlain, Bool.and_eq_true, Bool.not_eq_true', List.isEmpty_eq_false_iff, decide_eq_true_eq, ne_eq] at h
  obtain ⟨⟨⟨⟨⟨⟨⟨hne, hfirst⟩, hlast⟩, hline⟩, hspecial⟩, hseparator⟩, hstart⟩, hsign⟩ := h
  have hnewline : '\n' ∉ t := fun hmem => by
    have := List.any_eq_false.1 hline '\n' hmem
    simp [isBreak] at this
  have hprint := printable_of_not_special hspecial hnewline
  exact ⟨hprint, (worded_of_signless hprint hne hlast hsign).1 hfirst, hstart, hseparator⟩

theorem IsPlain.not_hash {t : Text} (h : IsPlain t) : t.head? ≠ some '#' := by
  obtain ⟨c, r, rfl, -⟩ := h.worded.head
  rintro hc
  simp only [List.head?_cons, Option.some.injEq] at hc
  subst hc
  have := h.start
  simp [startsWithSign, startSigns] at this

/-! ## Writing words -/

theorem plainText_word {w : Text} (hw : ∀ c ∈ w, c ≠ ' ') (hne : w ≠ []) (split : Bool) (indent column : Nat)
    (spaced : Bool) (r : Text) :
    plainText split indent column spaced (w ++ r) = w ++ plainText split indent (column + w.length) false r := by
  induction w generalizing column spaced with
  | nil => exact absurd rfl hne
  | cons c w ih =>
    have hc : c ≠ ' ' := hw c List.mem_cons_self
    simp only [List.cons_append, plainText, hc, decide_false, Bool.false_and, Bool.false_eq_true, if_false]
    by_cases hw' : w = []
    · subst hw'
      rfl
    · rw [ih (fun d hd => hw d (List.mem_cons_of_mem c hd)) hw', List.length_cons, Nat.add_assoc, Nat.add_comm 1]

theorem plainText_spaces (split : Bool) (indent column k : Nat) (t : Text) :
    plainText split indent column true (spaces k ++ t) = spaces k ++ plainText split indent (column + k) true t := by
  induction k generalizing column with
  | zero => rfl
  | succ k ih =>
    simp only [spaces_succ, List.cons_append, plainText, Bool.not_true, Bool.and_false, Bool.false_and,
      Bool.false_eq_true, if_false, decide_true]
    rw [ih, Nat.add_assoc, Nat.add_comm 1]

/-- before a word it does not matter what stands before -/
theorem plainText_spaced {t : Text} (h : t.head? ≠ some ' ') (split : Bool) (indent column : Nat) (spaced : Bool) :
    plainText split indent column spaced t = plainText split indent column false t := by
  cases t with
  | nil => rfl
  | cons c r =>
    have hc : c ≠ ' ' := by simpa using h
    simp [plainText, hc]

/-- spaces stay as they are, or a single one becomes a line break -/
theorem plainText_gap {t : Text} (h : t.head? ≠ some ' ') (split : Bool) (indent column k : Nat) :
    ∃ gap column', (gap = spaces (k + 1) ∨ k = 0 ∧ gap = foldAt indent) ∧
      plainText split indent column false (spaces (k + 1) ++ t) = gap ++ plainText split indent column' false t := by
  rw [spaces_succ, List.cons_append, plainText]
  split_ifs with hfold
  · have hk : k = 0 := by
      cases k with
      | zero => rfl
      | succ k => simp [spaces_succ] at hfold
    subst hk
    refine ⟨foldAt indent, indent, .inr ⟨rfl, rfl⟩, ?_⟩
    rw [show spaces 0 ++ t = t from rfl, plainText_spaced h]
  · refine ⟨' ' :: spaces k, column + 1 + k, .inl rfl, ?_⟩
    rw [show decide (' ' = ' ') = true from rfl, plainText_spaces, plainText_spaced h, List.cons_append]

/-- text that is not folded is written as it is -/
theorem plainText_whole (indent column : Nat) (spaced : Bool) (t : Text) : plainText false indent column spaced t = t := by
  induction t generalizing column spaced with
  | nil => rfl
  | cons c r ih => simp [plainText, ih]

/-! ## Reading words -/

def EndsPlain : Text → Prop
  | [] => True
  | c :: r => endsPlain false c r = true

theorem plainWord_append {w x : Text} (hw : IsWord w) (hx : EndsPlain x) : plainWord false (w ++ x) = w := by
  have hgo : ∀ v : Text, (∀ c ∈ v, endsWord (some c) = false) → v.getLast? ≠ some ':' → plainWord false (v ++ x) = v := by
    intro v
    induction v with
    | nil =>
      intro _ _
      cases x with
      | nil => rfl
      | cons c r => simp only [List.nil_append, plainWord, show endsPlain false c r = true from hx, if_true]
    | cons c v ih =>
      intro hinner hlast
      have hc := hinner c List.mem_cons_self
      have hgoes : endsPlain false c (v ++ x) = false := by
        simp only [endsPlain, hc, Bool.false_and, Bool.false_or, Bool.or_false, Bool.and_eq_false_iff,
          decide_eq_false_iff_not]
        cases v with
        | nil => exact .inl (by simpa using hlast)
        | cons d v => exact .inr (hinner d (by simp))
      simp only [List.cons_append, plainWord, hgoes, Bool.false_eq_true, if_false, List.cons.injEq, true_and]
      refine ih (fun d hd => hinner d (List.mem_cons_of_mem c hd)) ?_
      cases v with
      | nil => simp
      | cons d v => simpa [List.getLast?_cons] using hlast
  exact hgo w hw.inner hw.last

theorem gapLines_line {m : Nat} {body : Text} (h : Opens body) (column : Nat) :
    gapLines column (spaces m ++ body) = (some [], body, column + m) := by
  induction m generalizing column with
  | zero =>
    cases body with
    | nil => rfl
    | cons c r =>
      obtain ⟨hspace, hbreak⟩ := h.not_break
      rw [show spaces 0 ++ c :: r = c :: r from rfl, gapLines]
      simp [hspace, hbreak]
  | succ m ih =>
    rw [spaces_succ, List.cons_append, gapLines, if_pos rfl, ih, Nat.add_assoc, Nat.add_comm 1]

theorem takeWhile_spaces (k : Nat) {t : Text} (h : t.head? ≠ some ' ') :
    (spaces k ++ t).takeWhile (· = ' ') = spaces k ∧ (spaces k ++ t).dropWhile (· = ' ') = t := by
  induction k with
  | zero =>
    cases t with
    | nil => exact ⟨rfl, rfl⟩
    | cons c r =>
      have hc : c ≠ ' ' := by simpa using h
      simp [spaces, hc]
  | succ k ih =>
    rw [spaces_succ, List.cons_append]
    simp only [List.takeWhile_cons, List.dropWhile_cons, decide_true, if_true, ih.1, ih.2, and_self]

theorem plainGap_spaces {c : Char} {r : Text} (h : Opens (c :: r)) (k : Nat) :
    plainGap (spaces k ++ c :: r) = ⟨spaces k, c :: r, none⟩ := by
  obtain ⟨htake, hdrop⟩ := takeWhile_spaces k h.not_space
  simp [plainGap, htake, hdrop, h.not_break.2]

theorem plainGap_line {m : Nat} {body : Text} (h : Line m body) :
    plainGap ('\n' :: (spaces m ++ body)) = ⟨[' '], body, some m⟩ := by
  have hbreak : isBreak '\n' = true := rfl
  have hvalue : foldBreaks (breakValue '\n') [] = [' '] := rfl
  simp only [plainGap, List.takeWhile_cons, List.dropWhile_cons, show ('\n' = ' ') = False by simp, decide_false,
    Bool.false_eq_true, if_false, hbreak, if_true, h.no_separator, gapLines_line h.opens, Nat.zero_add, hvalue]

/-- where plain text stops being read: at a text that ends a word and with which it does not go on -/
structure Stops (indent : Nat) (x rest : Text) (starts : Bool) : Prop where
  ends : EndsPlain x
  rest_eq : (plainGap x).rest = rest
  starts_eq : (plainGap x).column.isSome = starts
  stops : (plainGap x).value = [] ∨ ∃ column, (plainGap x).column = some column ∧ column < indent

theorem stops_colon (indent : Nat) {y : Text} (h : endsWord y.head? = true) : Stops indent (':' :: y) (':' :: y) false := by
  have hopens : Opens (':' :: y) := ⟨rfl, by decide⟩
  have hgap : plainGap (':' :: y) = ⟨[], ':' :: y, none⟩ := plainGap_spaces hopens 0
  exact ⟨by simp [EndsPlain, endsPlain, h], by rw [hgap], by rw [hgap]; rfl, .inl (by rw [hgap])⟩

theorem stops_line {indent m : Nat} {body : Text} (h : Line m body) (hm : m < indent) :
    Stops indent ('\n' :: (spaces m ++ body)) body true := by
  have hgap := plainGap_line h
  exact ⟨rfl, by rw [hgap], by rw [hgap]; rfl, .inr ⟨m, by rw [hgap], hm⟩⟩

/-- the last word -/
theorem plainFrom_last {w x rest : Text} {indent : Nat} {starts : Bool} (hw : IsWord w) (hhash : w.head? ≠ some '#')
    (hx : Stops indent x rest starts) (held : Text) :
    plainFrom false indent held (w ++ x) = (held ++ w, rest, starts) := by
  have hhead : (w ++ x).head? ≠ some '#' := by
    rwa [List.head?_append_of_ne_nil _ hw.nonempty]
  have hstays : (!(plainGap x).value.isEmpty && decide (rest.head? ≠ some '#') &&
      (false || (plainGap x).column.all (indent ≤ ·))) = false := by
    rcases hx.stops with hvalue | ⟨column, hcolumn, hlt⟩
    · simp [hvalue]
    · simp [hcolumn, hlt]
  rw [plainFrom]
  simp only [plainWord_append hw hx.ends, hhead, decide_false, List.isEmpty_eq_false_iff.2 hw.nonempty, Bool.or_false,
    Bool.false_eq_true, if_false, List.drop_left, hx.rest_eq, hx.starts_eq, hstays, dite_eq_ite, ite_self]

/-- a word with more words behind it -/
theorem plainFrom_more {w gap t x rest : Text} {indent : Nat} {value : Text} {column : Option Nat} {starts : Bool}
    (hw : IsWord w) (hhash : w.head? ≠ some '#') (hends : EndsPlain (gap ++ t))
    (hgap : plainGap (gap ++ t) = ⟨value, t, column⟩) (hvalue : value ≠ []) (hcolumn : column.all (indent ≤ ·) = true)
    (ht : t.head? ≠ some '#') (hx : x ≠ []) (hread : plainFrom false indent value t = (x, rest, starts)) (held : Text) :
    plainFrom false indent held (w ++ (gap ++ t)) = (held ++ (w ++ x), rest, starts) := by
  have hhead : (w ++ (gap ++ t)).head? ≠ some '#' := by
    rwa [List.head?_append_of_ne_nil _ hw.nonempty]
  have hlt : t.length < (w ++ (gap ++ t)).length := by
    have := List.length_pos_iff.2 hw.nonempty
    simp only [List.length_append]
    omega
  rw [plainFrom]
  simp only [plainWord_append hw hends, hhead, decide_false, List.isEmpty_eq_false_iff.2 hw.nonempty, Bool.or_false,
    Bool.false_eq_true, if_false, List.drop_left, hgap, dif_pos hlt, List.isEmpty_eq_false_iff.2 hvalue, Bool.not_false,
    Bool.false_or, hcolumn, Bool.and_true, ne_eq, ht, not_false_eq_true, decide_true, if_true, hread,
    List.isEmpty_eq_false_iff.2 hx, Bool.false_and]

/-- **Words are read as they were written**, with each line break that stands for a space read as one. -/
theorem plainFrom_worded {t : Text} (h : Worded t) (hhash : t.head? ≠ some '#') {least indent : Nat}
    (hleast : least ≤ indent) (hindent : 0 < indent) {x rest : Text} {starts : Bool} (hx : Stops least x rest starts)
    (split : Bool) (column : Nat) (held : Text) :
    plainFrom false least held (plainText split indent column false t ++ x) = (held ++ t, rest, starts) := by
  induction h generalizing column held with
  | @word w hw =>
    have hwritten : plainText split indent column false w = w := by
      have h := plainText_word hw.not_space hw.nonempty split indent column false []
      simpa [plainText] using h
    rw [hwritten]
    exact plainFrom_last hw hhash hx held
  | @more w t k hw ht hthash ih =>
    have hwhash : w.head? ≠ some '#' := by
      rwa [List.head?_append_of_ne_nil _ hw.nonempty] at hhash
    obtain ⟨c, r, rfl, hc⟩ := ht.head
    have hspace : (c :: r).head? ≠ some ' ' := by
      rintro heq
      simp only [List.head?_cons, Option.some.injEq] at heq
      subst heq
      simp [endsWord] at hc
    obtain ⟨gap, column', hgap, hwritten⟩ := plainText_gap hspace split indent (column + w.length) k
    -- what is written of the words behind starts with their first character
    obtain ⟨u, hu⟩ : ∃ u, plainText split indent column' false (c :: r) ++ x = c :: u := by
      have hne : c ≠ ' ' := by simpa using hspace
      simp [plainText, hne]
    have hopens : Opens (c :: u) := ⟨hc, by simpa using hthash⟩
    rw [plainText_word hw.not_space hw.nonempty, hwritten]
    simp only [List.append_assoc]
    rcases hgap with rfl | ⟨rfl, rfl⟩
    · have hgap := plainGap_spaces hopens (k + 1)
      rw [← hu] at hgap
      refine plainFrom_more hw hwhash ?_ hgap (by simp [spaces_succ]) rfl ?_ (by simp [spaces_succ]) (ih hthash column' _) held
      · rw [spaces_succ]
        rfl
      · rw [hu]
        simpa using hthash
    · have hgap := plainGap_line (line_indented hindent hopens)
      rw [← List.cons_append, ← foldAt, ← hu] at hgap
      refine plainFrom_more hw hwhash (by rfl) hgap (by simp) ?_ ?_ (by simp) (ih hthash column' _) held
      · simpa using hleast
      · rw [hu]
        simpa using hthash

end RepoLens.Yaml
