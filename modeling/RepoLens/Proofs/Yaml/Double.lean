import Mathlib.Tactic
import RepoLens.Proofs.Hex
import RepoLens.Proofs.Utf8
import RepoLens.Proofs.Yaml.Single
/-!
Text in double quotes, written and read. Everything outside printable ASCII is escaped, and so are quotes and backslashes; a
long line is folded with a backslash at its end, and the next line starts with another one if a space comes first. A reader
takes the two backslashes for one escape if the writer folds again at that very place. This happens only deep inside a
document, where the indentation alone is wider than a line may be.

Results:
- `escape_reads`: an escape reads as its character;
- `Doubly`: a written text that reads as a text, after something that is held back, with one lemma for each way to write on;
- `rereadDouble`: a text as it is read, and `rereadDouble_eq_self`: when that is the text that was written;
- `doubly_doubleText`: what is written of a text in double quotes reads so.
-/
namespace RepoLens.Yaml

open Text

/-! ## Escapes -/

theorem charOfHex_upperHex {width : Nat} (c : Char) : charOfHex? (upperHex width c.toNat) = some c := by
  have hdigits : ∀ d ∈ hex width c.toNat, ∃ n < 16, d = Nat.digitChar n := fun d hd => mem_hex hd
  have hupper := hexAfter_upper hdigits 0
  rw [hexAfter_hex] at hupper
  obtain ⟨values, hvalues, hfold⟩ := mapM_hexValue hupper
  have hvalid : c.toNat.isValidChar := c.valid
  rw [charOfHex?, upperHex]
  simp only [hvalues, Option.bind_eq_bind, Option.bind_some, hfold, hvalid, if_true, Char.ofNat_toNat]

/-- a character that is printed and has no part in an escape or at the end of a text -/
def IsDigitSign (c : Char) : Prop := (0x20 ≤ c.toNat ∧ c.toNat < 0x7F) ∧ c ≠ '\\' ∧ c ≠ '"'

theorem upperHex_digits {width n : Nat} : ∀ c ∈ upperHex width n, IsDigitSign c := by
  have hdigit : ∀ d < 16, (0x20 ≤ (Nat.digitChar d).toUpper.toNat ∧ (Nat.digitChar d).toUpper.toNat < 0x7F) ∧
      (Nat.digitChar d).toUpper ≠ '\\' ∧ (Nat.digitChar d).toUpper ≠ '"' := by decide
  intro c hc
  obtain ⟨x, hx, rfl⟩ := List.mem_map.1 hc
  obtain ⟨d, hd, rfl⟩ := mem_hex hx
  exact hdigit d hd

theorem length_upperHex {width n : Nat} (hwidth : 0 < width) (h : n < 16 ^ width) : (upperHex width n).length = width := by
  rw [upperHex, List.length_map, length_hex hwidth h]

theorem doublePieces_skip (w r : Text) : doublePieces w.length (w ++ r) = doublePieces 0 r := by
  induction w with
  | nil => rfl
  | cons c w ih => exact ih

theorem doublePieces_letter {l : Char} {n : Nat} (h : escapeTable.lookup l = some n) (r : Text) :
    doublePieces 0 ('\\' :: l :: r) = (doublePieces 0 r).map (.char (Char.ofNat n) :: ·) := by
  rw [doublePieces, h]

theorem doublePieces_code {l c : Char} {width : Nat} (hl : escapeTable.lookup l = none)
    (hcode : codeTable.lookup l = some width) (hwidth : 0 < width) (hc : c.toNat < 16 ^ width) (r : Text) :
    doublePieces 0 ('\\' :: l :: (upperHex width c.toNat ++ r)) = (doublePieces 0 r).map (.char c :: ·) := by
  have hlen := length_upperHex hwidth hc
  have hlong : ¬ (upperHex width c.toNat ++ r).length < width := by
    rw [List.length_append]
    omega
  have hskip := doublePieces_skip (upperHex width c.toNat) r
  rw [hlen] at hskip
  rw [doublePieces, hl, hcode]
  simp only [hlong, if_false, List.take_left' hlen, charOfHex_upperHex, hskip]

/-- **An escape reads as its character.** It is a backslash, a letter, and digits that are none of the signs of a text. -/
theorem escape_reads {c : Char} {e : Text} (h : escapeOf? c = some e) :
    ∃ l ds, e = '\\' :: l :: ds ∧ (0x20 ≤ l.toNat ∧ l.toNat < 0x7F) ∧ (∀ d ∈ ds, IsDigitSign d) ∧
      ∀ r, doublePieces 0 (e ++ r) = (doublePieces 0 r).map (.char c :: ·) := by
  unfold escapeOf? at h
  cases hletter : letterEscapes.lookup c.toNat with
  | some l =>
    simp only [hletter, Option.some.injEq] at h
    subst h
    have htable : ∀ p ∈ letterEscapes, escapeTable.lookup p.2 = some p.1 ∧ 0x20 ≤ p.2.toNat ∧ p.2.toNat < 0x7F := by decide
    obtain ⟨before, after, hsplit, -⟩ := List.lookup_eq_some_iff.1 hletter
    have hmem : (c.toNat, l) ∈ letterEscapes := by simp [hsplit]
    refine ⟨l, [], rfl, (htable _ hmem).2, by simp, fun r => ?_⟩
    rw [show ['\\', l] ++ r = '\\' :: l :: r from rfl, doublePieces_letter (htable _ hmem).1, Char.ofNat_toNat]
  | none =>
    simp only [hletter] at h
    have hsize : c.toNat < 0x110000 := (Utf8.toNat_bounds c).1
    split_ifs at h with hprint hbyte hplane
    · obtain rfl := Option.some.inj h
      exact ⟨'x', _, rfl, by decide, upperHex_digits, doublePieces_code rfl rfl (by omega) (by omega)⟩
    · obtain rfl := Option.some.inj h
      exact ⟨'u', _, rfl, by decide, upperHex_digits, doublePieces_code rfl rfl (by omega) (by omega)⟩
    · obtain rfl := Option.some.inj h
      exact ⟨'U', _, rfl, by decide, upperHex_digits, doublePieces_code rfl rfl (by omega) (by omega)⟩

theorem escapeOf_none {c : Char} (h : escapeOf? c = none) : (0x20 ≤ c.toNat ∧ c.toNat < 0x7F) ∧ c ≠ '\\' ∧ c ≠ '"' := by
  refine ⟨?_, ?_, ?_⟩
  · unfold escapeOf? at h
    split at h
    · simp at h
    · split_ifs at h with hprint
      simp only [Bool.and_eq_true, decide_eq_true_eq] at hprint
      omega
  · rintro rfl
    exact absurd h (by decide)
  · rintro rfl
    exact absurd h (by decide)

/-! ## Texts that read back -/

theorem untilDouble_append {w : Text} (hw : ∀ c ∈ w, c ≠ '\\' ∧ c ≠ '"') (r : Text) :
    untilDouble (w ++ r) = (untilDouble r).map fun p => (w ++ p.1, p.2) := by
  induction w with
  | nil => simp
  | cons c w ih =>
    obtain ⟨hescape, hquote⟩ := hw c List.mem_cons_self
    have hcons : untilDouble (c :: (w ++ r)) = (untilDouble (w ++ r)).map fun p => (c :: p.1, p.2) := by
      rw [untilDouble.eq_def]
      split
      · simp_all
      · simp_all
      · rename_i heq
        simp only [List.cons.injEq] at heq
        rw [← heq.1, ← heq.2, if_neg hquote]
    rw [List.cons_append, hcons, ih fun d hd => hw d (List.mem_cons_of_mem c hd), Option.map_map]
    rfl

theorem untilDouble_escape (c : Char) (r : Text) :
    untilDouble ('\\' :: c :: r) = (untilDouble r).map fun p => ('\\' :: c :: p.1, p.2) := rfl

theorem untilDouble_close (rest : Text) : untilDouble ('"' :: rest) = some ([], rest) := by
  rw [untilDouble.eq_def]
  split
  · simp_all
  · simp_all
  · rename_i heq
    simp only [List.cons.injEq] at heq
    rw [← heq.1, ← heq.2, if_pos rfl]

theorem doublePieces_append {w : Text} (hw : '\\' ∉ w) (r : Text) :
    doublePieces 0 (w ++ r) = (doublePieces 0 r).map (w.map pieceOf ++ ·) := by
  induction w with
  | nil => simp
  | cons c w ih =>
    simp only [List.mem_cons, not_or] at hw
    have hc : c ≠ '\\' := Ne.symm hw.1
    have hcons : doublePieces 0 (c :: (w ++ r)) = (doublePieces 0 (w ++ r)).map (pieceOf c :: ·) := by
      rw [doublePieces.eq_def]
      split
      · simp_all
      · simp_all
      · simp_all
      · rename_i heq
        simp only [List.cons.injEq] at heq
        rw [← heq.1, ← heq.2, if_neg hc]
    rw [List.cons_append, hcons, ih hw.2, Option.map_map]
    rfl

/-- a text that stands in double quotes and reads as another one, after what is held back -/
structure Doubly (s : FoldState) (t raw : Text) : Prop where
  closes : ∀ rest : Text, untilDouble (raw ++ '"' :: rest) = some (raw, rest)
  safe : holdsSeparator raw = false
  folds : ∃ ps, doublePieces 0 raw = some ps ∧ foldPieces s ps = s.flush ++ t
  ordinary : Ordinary raw

namespace Doubly

variable {s : FoldState} {t raw : Text}

theorem nil (s : FoldState) : Doubly s [] [] :=
  ⟨untilDouble_close, rfl, ⟨[], rfl, by simp [foldPieces]⟩, .nil⟩

theorem char {c : Char} (hc : (0x20 ≤ c.toNat ∧ c.toNat < 0x7F) ∧ c ≠ '\\' ∧ c ≠ '"') (hspace : c ≠ ' ')
    (h : Doubly (.within []) t raw) (s : FoldState) : Doubly s (c :: t) (c :: raw) := by
  obtain ⟨ps, hps, hfold⟩ := h.folds
  refine ⟨fun rest => ?_, ?_, ⟨.char c :: ps, ?_, ?_⟩, h.ordinary.cons (.inr hc.1)⟩
  · have happend := untilDouble_append (w := [c]) (by simpa using hc.2) (raw ++ '"' :: rest)
    rw [h.closes rest] at happend
    exact happend
  · exact (holdsSeparator_cons (isBreak_printable hc.1) raw).trans h.safe
  · have hpieces := doublePieces_append (w := [c]) (by simpa using Ne.symm hc.2.1) raw
    rw [hps, List.map_singleton, pieceOf_printable hc.1 hspace] at hpieces
    exact hpieces
  · cases s <;> simp [foldPieces, hfold, FoldState.flush]

/-- a space is held back until it is known what follows -/
theorem space {held : Text} (h : Doubly (.within (held ++ [' '])) t raw) :
    Doubly (.within held) (' ' :: t) (' ' :: raw) := by
  obtain ⟨ps, hps, hfold⟩ := h.folds
  refine ⟨fun rest => ?_, ?_, ⟨.blank ' ' :: ps, ?_, ?_⟩, h.ordinary.cons (.inr (by decide))⟩
  · have happend := untilDouble_append (w := [' ']) (by simp) (raw ++ '"' :: rest)
    rw [h.closes rest] at happend
    exact happend
  · exact (holdsSeparator_cons rfl raw).trans h.safe
  · have hpieces := doublePieces_append (w := [' ']) (by simp) raw
    rw [hps] at hpieces
    exact hpieces
  · rw [foldPieces, hfold]
    simp [FoldState.flush]

theorem escape {c : Char} {e : Text} (he : escapeOf? c = some e) (h : Doubly (.within []) t raw) (s : FoldState) :
    Doubly s (c :: t) (e ++ raw) := by
  obtain ⟨l, ds, rfl, hl, hds, hreads⟩ := escape_reads he
  obtain ⟨ps, hps, hfold⟩ := h.folds
  have hprint : ∀ d ∈ '\\' :: l :: ds, 0x20 ≤ d.toNat ∧ d.toNat < 0x7F := by
    intro d hd
    simp only [List.mem_cons] at hd
    rcases hd with rfl | rfl | hd
    · decide
    · exact hl
    · exact (hds d hd).1
  have hordinary : Ordinary ('\\' :: l :: ds) := fun d hd => .inr (hprint d hd)
  refine ⟨fun rest => ?_, ?_, ⟨.char c :: ps, ?_, ?_⟩, hordinary.append h.ordinary⟩
  · have happend := untilDouble_append (fun d hd => (hds d hd).2) (raw ++ '"' :: rest)
    rw [h.closes rest] at happend
    rw [List.append_assoc, List.cons_append, List.cons_append, untilDouble_escape, happend]
    rfl
  · rw [holdsSeparator_append fun d hd => isBreak_printable (hprint d hd)]
    exact h.safe
  · rw [hreads, hps]
    rfl
  · cases s <;> simp [foldPieces, hfold, FoldState.flush]

/-- a space behind a backslash counts as any other character -/
theorem guarded (h : Doubly (.within []) t raw) (s : FoldState) : Doubly s (' ' :: t) ('\\' :: ' ' :: raw) := by
  obtain ⟨ps, hps, hfold⟩ := h.folds
  refine ⟨fun rest => ?_, ?_, ⟨.char ' ' :: ps, ?_, ?_⟩, (h.ordinary.cons (.inr (by decide))).cons (.inr (by decide))⟩
  · rw [List.cons_append, List.cons_append, untilDouble_escape, h.closes rest]
    rfl
  · rw [holdsSeparator_cons rfl, holdsSeparator_cons rfl, h.safe]
  · rw [doublePieces_letter (n := 0x20) rfl, hps]
    rfl
  · cases s <;> simp [foldPieces, hfold, FoldState.flush]

theorem fold_signs (indent : Nat) : ∀ c ∈ foldAt indent, c ≠ '\\' ∧ c ≠ '"' := by
  intro c hc
  rcases List.mem_cons.1 hc with rfl | hc
  · decide
  · rw [mem_spaces hc]
    decide

theorem fold_safe {indent : Nat} (hindent : 0 < indent) (raw : Text) :
    holdsSeparator (foldAt indent ++ raw) = holdsSeparator raw := by
  rw [foldAt, List.cons_append, holdsSeparator_line (startsWithSeparator_indented hindent raw),
    holdsSeparator_append (isBreak_spaces indent)]

theorem doublePieces_spaces (indent : Nat) (raw : Text) :
    doublePieces 0 (spaces indent ++ raw) = (doublePieces 0 raw).map ((spaces indent).map pieceOf ++ ·) :=
  doublePieces_append (fun hmem => absurd (mem_spaces hmem) (by decide)) raw

/-- a line break after a backslash joins two lines, and indentation counts for nothing -/
theorem join {indent : Nat} (hindent : 0 < indent) (h : Doubly (.joined []) t raw) (s : FoldState) :
    Doubly s t ('\\' :: (foldAt indent ++ raw)) := by
  obtain ⟨ps, hps, hfold⟩ := h.folds
  refine ⟨fun rest => ?_, ?_, ⟨.joined :: ((spaces indent).map pieceOf ++ ps), ?_, ?_⟩,
    ((ordinary_foldAt indent).append h.ordinary).cons (.inr (by decide))⟩
  · have happend := untilDouble_append (w := spaces indent)
      (fun c hc => fold_signs indent c (List.mem_cons_of_mem _ hc)) (raw ++ '"' :: rest)
    rw [h.closes rest] at happend
    rw [foldAt, List.cons_append, List.cons_append, List.cons_append, untilDouble_escape, List.append_assoc, happend]
    rfl
  · rw [holdsSeparator_cons rfl, fold_safe hindent, h.safe]
  · have hjoin : ∀ r, doublePieces 0 ('\\' :: '\n' :: r) = (doublePieces 0 r).map (.joined :: ·) := fun _ => rfl
    rw [foldAt, List.cons_append, hjoin, doublePieces_spaces, hps]
    rfl
  · have hrest : foldPieces (.joined []) ((spaces indent).map pieceOf ++ ps) = t := by
      rw [foldPieces_indentation (fun _ => by simp), hfold]
      rfl
    cases s <;> simp [foldPieces, hrest]

/-- a line break alone counts as a space -/
theorem broken {indent : Nat} (hindent : 0 < indent) (h : Doubly (.broken '\n' []) t raw) :
    Doubly (.within []) (' ' :: t) (foldAt indent ++ raw) := by
  obtain ⟨ps, hps, hfold⟩ := h.folds
  refine ⟨fun rest => ?_, (fold_safe hindent raw).trans h.safe, ⟨.lineBreak '\n' :: ((spaces indent).map pieceOf ++ ps), ?_, ?_⟩,
    (ordinary_foldAt indent).append h.ordinary⟩
  · have happend := untilDouble_append (fold_signs indent) (raw ++ '"' :: rest)
    rw [h.closes rest] at happend
    rw [List.append_assoc]
    exact happend
  · have hline := doublePieces_append (w := ['\n']) (by simp) (spaces indent ++ raw)
    rw [doublePieces_spaces, hps] at hline
    exact hline
  · rw [foldPieces, foldPieces_indentation (fun _ => by simp), hfold]
    rfl

end Doubly

/-! ## What is read -/

/-- a text as it is read after its first character: where lines have no room, a space that is not the last character brings a
backslash and another space along if an escape stands before; `escaped` says whether one does -/
def reread (indent : Nat) (escaped : Bool) : Text → Text
  | [] => []
  | c :: r =>
    if escaped && c = ' ' && !r.isEmpty && bestWidth ≤ indent then '\\' :: ' ' :: ' ' :: reread indent false r
    else c :: reread indent (escapeOf? c).isSome r

/-- a text in double quotes as it is read -/
def rereadDouble (indent : Nat) : Text → Text
  | [] => []
  | c :: r => c :: reread indent false r

/-- whether a space that is not the last character comes after an escape -/
def spaceAfterEscape (escaped : Bool) : Text → Bool
  | [] => false
  | c :: r => (escaped && c = ' ' && !r.isEmpty) || spaceAfterEscape (escapeOf? c).isSome r

/-- where lines have room, a text is read as it is -/
theorem reread_roomy {indent : Nat} (h : indent < bestWidth) (escaped : Bool) (t : Text) : reread indent escaped t = t := by
  induction t generalizing escaped with
  | nil => rfl
  | cons c r ih => simp [reread, Nat.not_le.2 h, ih]

theorem reread_cons (indent : Nat) (c : Char) (r : Text) :
    reread indent false (c :: r) = c :: reread indent (escapeOf? c).isSome r := rfl

/-- it does not matter what stands before a word -/
theorem reread_word {t : Text} (h : t.head? ≠ some ' ') (indent : Nat) (escaped : Bool) :
    reread indent escaped t = reread indent false t := by
  cases t with
  | nil => rfl
  | cons c r =>
    have hc : c ≠ ' ' := by simpa using h
    simp [reread, hc]

theorem reread_eq_self {indent : Nat} (hnarrow : bestWidth ≤ indent) (escaped : Bool) (t : Text) :
    reread indent escaped t = t ↔ spaceAfterEscape escaped t = false := by
  have hlength : ∀ escaped t, t.length ≤ (reread indent escaped t).length := by
    intro escaped t
    induction t generalizing escaped with
    | nil => rfl
    | cons c r ih =>
      rw [reread]
      split_ifs
      · have := ih false
        simp only [List.length_cons]
        omega
      · exact Nat.succ_le_succ (ih _)
  induction t generalizing escaped with
  | nil => simp [reread, spaceAfterEscape]
  | cons c r ih =>
    rw [reread, spaceAfterEscape]
    by_cases hspace : (escaped && decide (c = ' ') && !r.isEmpty) = true
    · have hlonger := hlength false r
      rw [hspace, Bool.true_and, decide_eq_true hnarrow, if_pos rfl, Bool.true_or]
      refine iff_of_false (fun heq => ?_) (by simp)
      have := congrArg List.length heq
      simp only [List.length_cons] at this
      omega
    · rw [Bool.not_eq_true] at hspace
      rw [hspace, Bool.false_and, if_neg (by simp), Bool.false_or, List.cons.injEq]
      exact (and_iff_right rfl).trans (ih _)

/-- a text in double quotes as it is read, from its first character on or from a later one -/
def rereadFrom (first : Bool) (indent : Nat) (t : Text) : Text := if first then rereadDouble indent t else reread indent false t

theorem rereadFrom_later (indent : Nat) (t : Text) : rereadFrom false indent t = reread indent false t := rfl

/-- nothing is brought along behind the first character, where lines have room, before the end, or if no escape stands there -/
theorem rereadFrom_cons {first : Bool} {indent : Nat} {c : Char} {r : Text}
    (h : (escapeOf? c).isSome = true → first = true ∨ indent < bestWidth ∨ r = []) :
    rereadFrom first indent (c :: r) = c :: reread indent false r := by
  cases first with
  | true => rfl
  | false =>
    rw [rereadFrom_later, reread_cons]
    cases hescape : (escapeOf? c).isSome with
    | false => rfl
    | true =>
      rcases (h hescape).resolve_left (by simp) with hroom | rfl
      · rw [reread_roomy hroom, reread_roomy hroom]
      · rfl

/-- a text is read as it was exactly where lines have room or no space comes after an escape behind the first character -/
theorem rereadDouble_eq_self (indent : Nat) (t : Text) :
    rereadDouble indent t = t ↔ indent < bestWidth ∨ spaceAfterEscape false t.tail = false := by
  cases t with
  | nil => simp [rereadDouble, spaceAfterEscape]
  | cons c r =>
    rw [rereadDouble, List.cons.injEq, List.tail_cons]
    rcases Nat.lt_or_ge indent bestWidth with hroom | hnarrow
    · simp [reread_roomy hroom, hroom]
    · rw [reread_eq_self hnarrow]
      simp [Nat.not_lt.2 hnarrow]

/-! ## Writing -/

theorem foldJoined_space (indent : Nat) (raw : Text) :
    foldJoined indent (some ' ') ++ raw = '\\' :: (foldAt indent ++ '\\' :: raw) := by
  simp [foldJoined]

theorem foldJoined_word {indent : Nat} {next : Option Char} (h : next ≠ some ' ') (raw : Text) :
    foldJoined indent next ++ raw = '\\' :: (foldAt indent ++ raw) := by
  simp [foldJoined, h]

/-- where lines have no room, they are folded wherever they can be -/
def Folding (split : Bool) (indent column : Nat) : Prop := bestWidth ≤ indent → split = true ∧ indent ≤ column

theorem two_le_escape {c : Char} {e : Text} (h : escapeOf? c = some e) : 2 ≤ e.length := by
  obtain ⟨l, ds, rfl, -⟩ := escape_reads h
  simp

theorem le_columnAfterFold (indent : Nat) (next : Option Char) : indent ≤ columnAfterFold indent next := by
  unfold columnAfterFold
  split_ifs <;> omega

namespace Doubly

variable {s : FoldState} {c : Char} {t r raw : Text} {indent : Nat}

/-- a fold behind an escape; the backslash before a space stands on the next line -/
theorem escape_folded (hindent : 0 < indent) {e : Text} (he : escapeOf? c = some e)
    (hword : r.head? ≠ some ' ' → Doubly (.joined []) (reread indent false r) raw)
    (hspace : r.head? = some ' ' → Doubly (.joined []) (reread indent true r) ('\\' :: raw)) (s : FoldState) :
    Doubly s (c :: reread indent true r) (e ++ (foldJoined indent r.head? ++ raw)) := by
  refine .escape he ?_ s
  by_cases hnext : r.head? = some ' '
  · rw [hnext, foldJoined_space]
    exact .join hindent (hspace hnext) _
  · rw [foldJoined_word hnext, reread_word hnext]
    exact .join hindent (hword hnext) _

/-- a fold before a character that needs no escape -/
theorem folded (hindent : 0 < indent) (hc : escapeOf? c = none) (h : Doubly (.within []) t raw) (s : FoldState) :
    Doubly s (c :: t) (foldJoined indent (some c) ++ c :: raw) := by
  by_cases hspace : c = ' '
  · subst hspace
    rw [foldJoined_space]
    exact .join hindent (h.guarded _) s
  · rw [foldJoined_word (by simpa using hspace)]
    exact .join hindent (h.char (escapeOf_none hc) hspace _) s

/-- a fold before a space, right behind the backslash of another fold: the two backslashes read as one, the line end as a
space -/
theorem folded_twice (hindent : 0 < indent) (h : Doubly (.within []) t raw) (s : FoldState) :
    Doubly s ('\\' :: ' ' :: ' ' :: t) ('\\' :: (foldJoined indent (some ' ') ++ ' ' :: raw)) := by
  rw [foldJoined_space]
  exact (Doubly.broken hindent (h.guarded _)).escape (c := '\\') rfl s

/-- a character that needs no escape, where it is not folded -/
theorem kept (hc : escapeOf? c = none) (h : ∀ held, Doubly (.within held) t raw)
    (hs : (∃ held, s = .within held) ∨ c ≠ ' ') : Doubly s (c :: t) (c :: raw) := by
  by_cases hspace : c = ' '
  · subst hspace
    obtain ⟨held, rfl⟩ : ∃ held, s = .within held := hs.resolve_right (by simp)
    exact .space (h _)
  · exact .char (escapeOf_none hc) hspace (h []) s

end Doubly

/-- what is written of a text from a column on reads as the text. A space at the start is read as such where blanks are held
back; behind the backslash of a fold it is read as such unless the line is folded again right there. -/
structure ReadsDouble (split : Bool) (indent column : Nat) (first : Bool) (t raw : Text) : Prop where
  reads : ∀ s, (∃ held, s = .within held) ∨ t.head? ≠ some ' ' → Doubly s (rereadFrom first indent t) raw
  guarded : split = true → first = false → column = indent + 1 → t.head? = some ' ' →
    ∀ s, Doubly s (reread indent true t) ('\\' :: raw)

theorem ReadsDouble.within {split : Bool} {indent column : Nat} {t raw : Text} (h : ReadsDouble split indent column false t raw)
    (held : Text) : Doubly (.within held) (reread indent false t) raw := h.reads _ (.inl ⟨held, rfl⟩)

/-- **What is written in double quotes reads as the text**, but for the spaces after escapes where lines have no room. The
induction follows the writer. -/
theorem doubly_doubleText {split : Bool} {indent column : Nat} (hindent : 0 < indent) (hfolding : Folding split indent column)
    (first fresh : Bool) (t : Text) :
    ReadsDouble split indent column first t (doubleText split indent column first fresh t) := by
  have hplain : escapeOf? ' ' = none := rfl
  fun_induction doubleText split indent column first fresh t with
  | case1 column first fresh => exact ⟨fun s _ => by cases first <;> exact .nil s, fun _ _ _ hhead => by simp at hhead⟩
  | case2 column first fresh c r inside escape hescape column' hfold =>
    rename_i ih
    simp only [inside, Bool.and_eq_true, Bool.not_eq_true', decide_eq_true_eq] at hfold
    obtain ⟨⟨⟨hsplit, rfl⟩, -⟩, -⟩ := hfold
    have hrest := ih fun _ => ⟨hsplit, le_columnAfterFold ..⟩
    refine ⟨fun s _ => ?_, fun _ _ _ hhead => ?_⟩
    · rw [rereadFrom_later, reread_cons, hescape, Option.isSome_some]
      refine .escape_folded hindent hescape (fun hnext => hrest.reads _ (.inr hnext)) (fun hnext => ?_) s
      exact hrest.guarded hsplit rfl (by rw [hnext]; rfl) hnext _
    · obtain rfl : c = ' ' := by simpa using hhead
      simp [hplain] at hescape
  | case3 column first fresh c r inside escape hescape column' hfold =>
    rename_i ih
    have hlong := two_le_escape hescape
    have hrest := ih fun hnarrow => ⟨(hfolding hnarrow).1, by have := (hfolding hnarrow).2; omega⟩
    -- the line was not folded, so this is the first character, or there is room, or nothing comes after
    have hkept : first = true ∨ indent < bestWidth ∨ r = [] := by
      rcases Nat.lt_or_ge indent bestWidth with hroom | hnarrow
      · exact .inr (.inl hroom)
      · obtain ⟨hsplit, hcolumn⟩ := hfolding hnarrow
        have hwide : bestWidth + 1 < column' := by omega
        cases first with
        | true => exact .inl rfl
        | false => exact .inr (.inr (by simpa [inside, hsplit, hwide] using hfold))
    refine ⟨fun s _ => ?_, fun _ _ _ hhead => ?_⟩
    · rw [rereadFrom_cons fun _ => hkept]
      exact .escape hescape (hrest.within []) s
    · obtain rfl : c = ' ' := by simpa using hhead
      simp [hplain] at hescape
  | case4 column first fresh c r inside hescape hfold column' =>
    rename_i ih
    simp only [inside, Bool.and_eq_true, Bool.not_eq_true', decide_eq_true_eq] at hfold
    obtain ⟨⟨⟨⟨hsplit, rfl⟩, hmore⟩, -⟩, hwidth⟩ := hfold
    have hrest := ih fun _ => ⟨hsplit, (le_columnAfterFold ..).trans (Nat.le_succ _)⟩
    refine ⟨fun s _ => ?_, fun _ _ hcolumn hhead s => ?_⟩
    · rw [rereadFrom_later, reread_cons, hescape, Option.isSome_none]
      exact .folded hindent hescape (hrest.within []) s
    · obtain rfl : c = ' ' := by simpa using hhead
      have hnarrow : bestWidth ≤ indent := by omega
      have hreread : reread indent true (' ' :: r) = '\\' :: ' ' :: ' ' :: reread indent false r := by
        simp [reread, hmore, hnarrow]
      rw [hreread]
      exact .folded_twice hindent (hrest.within []) s
  | case5 column first fresh c r inside hescape hfold =>
    rename_i ih
    have hrest := ih fun hnarrow => ⟨(hfolding hnarrow).1, (hfolding hnarrow).2.trans (Nat.le_succ _)⟩
    refine ⟨fun s hs => ?_, fun hsplit hfirst hcolumn hhead s => ?_⟩
    · rw [rereadFrom_cons fun hc => by simp [hescape] at hc]
      exact .kept hescape hrest.within (hs.imp_right fun hc => by simpa using hc)
    · obtain rfl : c = ' ' := by simpa using hhead
      have hkept : (!r.isEmpty && decide (bestWidth ≤ indent)) = false := by
        subst hfirst hcolumn
        simpa [inside, hsplit, Nat.lt_succ_iff] using hfold
      have hreread : reread indent true (' ' :: r) = ' ' :: reread indent false r := by
        simp only [reread, Bool.true_and, decide_true, hkept, Bool.false_eq_true, if_false, hplain, Option.isSome_none]
      rw [hreread]
      exact .guarded (hrest.within []) s

/-- **A text in double quotes reads as it was**, but for the spaces after escapes where lines have no room. -/
theorem doubleQuoted_doubleText {split : Bool} {indent column : Nat} (hindent : 0 < indent)
    (hfolding : Folding split indent column) (t rest : Text) :
    doubleQuoted (doubleText split indent column true true t ++ '"' :: rest) = .ok (rereadDouble indent t, rest) := by
  have hraw := (doubly_doubleText hindent hfolding true true t).reads (.within []) (.inl ⟨[], rfl⟩)
  obtain ⟨ps, hps, hfold⟩ := hraw.folds
  rw [doubleQuoted, hraw.closes rest]
  simp only [hps, hraw.safe, hfold]
  rfl

end RepoLens.Yaml
