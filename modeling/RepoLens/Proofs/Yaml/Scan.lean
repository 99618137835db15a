import Mathlib.Tactic
import RepoLens.Proofs.Yaml.Cursor
import RepoLens.Proofs.Yaml.Written
/-!
Reading token by token. The first character of a token says which kind it is. A written scalar is one token; plain text takes
the line end and the indentation behind it along, and quoted text leaves them. What stands between two lines is told by
two notions: at a place the scanner knows of no key, and blocks that are deeper have been closed; while a line is due they are
still open.

Results:
- `readToken_scalar`: a written scalar is read as one token;
- `scan_step`: one token further;
- `At`, `Due`: where the scanner stands between two lines, with `Due.close` and `Due.at` from one to the other.
-/
namespace RepoLens.Yaml

open Text

namespace Scanner

/-! ## Kinds of tokens -/

variable {s : Scanner} {c : Char} {u : Text}

theorem not_marked (h : s.cursor.column = 0 → startsWithSeparator (c :: u) = false) :
    ¬ (s.cursor.column = 0 ∧ startsWithMarker '-' (c :: u) = true) ∧
      ¬ (s.cursor.column = 0 ∧ startsWithMarker '.' (c :: u) = true) := by
  constructor <;>
    rintro ⟨hcolumn, hmarker⟩ <;>
    simp [startsWithSeparator, hmarker] at h <;> exact h hcolumn

theorem startsPlain_signless {next : Option Char} (h : Signless c next) : startsPlain false c next = true := by
  have hsigns := h.no_sign
  simp only [startSigns, List.mem_cons, List.not_mem_nil, or_false, not_or] at hsigns
  have hback : c.toNat ≠ 0x60 := fun hn => h.ne (x := Char.ofNat 0x60) (by decide) (by rw [← hn, Char.ofNat_toNat])
  by_cases hsign : c = '?' ∨ c = ':' ∨ c = '-'
  · rcases hsign with rfl | rfl | rfl <;> simp [startsPlain, h.goes]
  · simp only [not_or] at hsign
    simp [startsPlain, h.inner, hsigns, hsign, hback]

theorem readToken_plain (hrest : s.cursor.rest = c :: u) (hflow : s.inFlow = false) (h : Signless c u.head?)
    (hstart : s.cursor.column = 0 → startsWithSeparator (c :: u) = false) : s.readToken c = s.plainScalar := by
  have hnext : s.cursor.peekNext = u.head? := by rw [Cursor.peekNext, hrest]; rfl
  have hsigns := h.no_sign
  simp only [startSigns, List.mem_cons, List.not_mem_nil, or_false, not_or] at hsigns
  have hdash : ¬ (c = '-' ∧ endsWord u.head? = true) := fun hc => by simp [h.goes (by simp [hc.1])] at hc
  have hquestion : ¬ (c = '?' ∧ endsWord u.head? = true) := fun hc => by simp [h.goes (by simp [hc.1])] at hc
  have hcolon : ¬ (c = ':' ∧ endsWord u.head? = true) := fun hc => by simp [h.goes (by simp [hc.1])] at hc
  unfold readToken
  simp [hrest, hflow, hnext, hsigns, hdash, hquestion, hcolon, not_marked hstart, startsPlain_signless h]

theorem readToken_single (hrest : s.cursor.rest = '\'' :: u) : s.readToken '\'' = s.quotedScalar singleQuoted := by
  obtain ⟨hdashes, hdots⟩ := not_marked (s := s) fun _ => startsWithSeparator_cons (c := '\'') (by decide) (by decide) u
  unfold readToken
  simp [*]

theorem readToken_double (hrest : s.cursor.rest = '"' :: u) : s.readToken '"' = s.quotedScalar doubleQuoted := by
  obtain ⟨hdashes, hdots⟩ := not_marked (s := s) fun _ => startsWithSeparator_cons (c := '"') (by decide) (by decide) u
  unfold readToken
  simp [*]

theorem readToken_dash (hrest : s.cursor.rest = '-' :: u) (hu : endsWord u.head? = true) : s.readToken '-' = s.dashSign := by
  have hnext : s.cursor.peekNext = u.head? := by rw [Cursor.peekNext, hrest]; rfl
  obtain ⟨hdashes, hdots⟩ := not_marked (s := s) fun _ => startsWithSeparator_dash hu
  unfold readToken
  simp [*]

theorem readToken_colon (hrest : s.cursor.rest = ':' :: u) (hu : endsWord u.head? = true) : s.readToken ':' = s.valueSign := by
  have hnext : s.cursor.peekNext = u.head? := by rw [Cursor.peekNext, hrest]; rfl
  obtain ⟨hdashes, hdots⟩ := not_marked (s := s) fun _ => startsWithSeparator_cons (c := ':') (by decide) (by decide) u
  unfold readToken
  simp [*]

/-- the brackets of a sequence and the braces of a mapping, with their tokens -/
inductive Brackets : Char → Char → Token → Token → Prop where
  | square : Brackets '[' ']' .flowSeqStart .flowSeqEnd
  | curly : Brackets '{' '}' .flowMapStart .flowMapEnd

namespace Brackets

variable {opening closing : Char} {start finish : Token}

theorem opens (h : Brackets opening closing start finish) (x : Text) : Opens (opening :: x) ∧ Opens (closing :: x) := by
  cases h <;> exact ⟨⟨by decide, by decide⟩, by decide, by decide⟩

theorem readToken_opening (h : Brackets opening closing start finish) (hrest : s.cursor.rest = opening :: u) :
    s.readToken opening = s.openFlow start := by
  have hfirst : opening ≠ '-' ∧ opening ≠ '.' := by cases h <;> decide
  obtain ⟨hdashes, hdots⟩ := not_marked (s := s) fun _ => startsWithSeparator_cons hfirst.1 hfirst.2 u
  unfold readToken
  cases h <;> simp [*]

theorem readToken_closing (h : Brackets opening closing start finish) (hrest : s.cursor.rest = closing :: u) :
    s.readToken closing = s.closeFlow finish := by
  have hfirst : closing ≠ '-' ∧ closing ≠ '.' := by cases h <;> decide
  obtain ⟨hdashes, hdots⟩ := not_marked (s := s) fun _ => startsWithSeparator_cons hfirst.1 hfirst.2 u
  unfold readToken
  cases h <;> simp [*]

end Brackets

/-! ## Scalars -/

/-- what is remembered of a place where a key may start -/
def keyAt (b : Bool) (ts : List Token) (indents : List Nat) (i l c : Nat) : Option KeyStart :=
  if b then some ⟨ts.length, decide (indents.head? = some c), i, l, c⟩ else none

theorem saveKey_none (r : Text) (i l c : Nat) (ts : List Token) (indents : List Nat) (b : Bool) :
    saveKey ⟨⟨r, i, l, c⟩, ts, indents, [none], b⟩ =
      .ok ⟨⟨r, i, l, c⟩, ts, indents, [keyAt b ts indents i l c], b⟩ := by
  cases b <;> rfl

/-- the least column of the lines of plain text -/
def leastColumn (indents : List Nat) : Nat :=
  match indents with
  | [] => 0
  | i :: _ => i + 1

theorem plainScalar_none (r : Text) (i l c : Nat) (ts : List Token) (indents : List Nat) (b : Bool) :
    plainScalar ⟨⟨r, i, l, c⟩, ts, indents, [none], b⟩ =
      match plainFrom false (leastColumn indents) [] r with
      | (value, rest, starts) =>
        .ok ⟨(⟨r, i, l, c⟩ : Cursor).moveTo rest, .scalar true value :: ts, indents, [keyAt b ts indents i l c], starts⟩ := by
  rw [plainScalar, saveKey_none]
  rfl

/-- **A written scalar is read as one token.** A plain one takes the line end and the indentation behind it along. -/
theorem readToken_scalar {split plain : Bool} {indent column : Nat} {t x rest : Text} {starts : Bool} {indents : List Nat}
    (hindent : 0 < indent) (h : IsReadable plain t) (hfolding : IsFolding split indent column t)
    (hleast : leastColumn indents ≤ indent) (hx : Stops (leastColumn indents) x rest starts) (hquote : x.head? ≠ some '\'')
    (i l c : Nat) (hmark : c = 0 → startsWithSeparator (scalarText split indent column plain t ++ x) = false)
    (ts : List Token) (b : Bool) :
    ∃ d u, scalarText split indent column plain t = d :: u ∧
      readToken ⟨⟨d :: (u ++ x), i, l, c⟩, ts, indents, [none], b⟩ d =
        .ok ⟨(⟨d :: (u ++ x), i, l, c⟩ : Cursor).moveTo (if plain then rest else x),
          .scalar plain (rereadText indent t) :: ts, indents, [keyAt b ts indents i l c], plain && starts⟩ := by
  unfold scalarText at hmark ⊢
  cases plain with
  | true =>
    have hplain := isPlain_of_canBePlain (h rfl)
    simp only [if_true] at hmark ⊢
    obtain ⟨d, u, hu, hd⟩ := signless_plainText hplain split indent column x
    have hread := plainFrom_worded hplain.worded hplain.not_hash hleast hindent hx split column []
    rw [hu, List.nil_append, List.cons_append] at hread
    rw [hu, List.cons_append] at hmark
    refine ⟨d, u, hu, ?_⟩
    rw [readToken_plain rfl rfl hd hmark, plainScalar_none, hread, rereadText_plain (h rfl)]
    rfl
  | false =>
    simp only [Bool.false_eq_true, if_false]
    split_ifs with hsingle
    · refine ⟨'\'', _, rfl, ?_⟩
      rw [readToken_single rfl, quotedScalar, saveKey_none, rereadText, if_pos hsingle]
      change (singleQuoted (singleText split indent (column + 1) true false false t ++ ['\''] ++ x) >>= _) = _
      rw [List.append_assoc, List.singleton_append, singleQuoted_singleText hsingle hindent split _ hquote]
      rfl
    · refine ⟨'"', _, rfl, ?_⟩
      rw [readToken_double rfl, quotedScalar, saveKey_none, rereadText, if_neg hsingle]
      change (doubleQuoted (doubleText split indent (column + 1) true true t ++ ['"'] ++ x) >>= _) = _
      rw [List.append_assoc, List.singleton_append, doubleQuoted_doubleText hindent (hfolding.resolve_left hsingle)]
      rfl

/-! ## From token to token -/

/-- one token further -/
theorem scan_step {near t : Scanner} (h : s.approach = .ok near) (hrest : near.cursor.rest = c :: u)
    (hread : near.readToken c = .ok t) (hlt : t.cursor.rest.length < s.cursor.rest.length) : s.scan = t.scan := by
  rw [scan, h]
  simp only [hrest, hread, dif_pos hlt]

theorem dropStale_none (place : Cursor) (ts : List Token) (indents : List Nat) (b : Bool) :
    dropStale ⟨place, ts, indents, [none], b⟩ = .ok ⟨place, ts, indents, [none], b⟩ := rfl

/-- a key on an earlier line is given up, unless one has to stand there -/
theorem dropStale_past {key : Option KeyStart} {place : Cursor}
    (h : ∀ k ∈ key, k.required = false ∧ k.line < place.line) (ts : List Token) (indents : List Nat) (b : Bool) :
    dropStale ⟨place, ts, indents, [key], b⟩ = .ok ⟨place, ts, indents, [none], b⟩ := by
  cases key with
  | none => rfl
  | some k =>
    obtain ⟨hrequired, hline⟩ := h k rfl
    have hstale : isStale place k = true := by
      simp [isStale, Nat.ne_of_lt hline]
    simp [dropStale, hrequired, hstale, pure, Except.pure]

/-- a key on the same line is kept for a while -/
theorem dropStale_kept {key : KeyStart} {place : Cursor} (hline : key.line = place.line)
    (hnear : place.index - key.index ≤ 1024) (ts : List Token) (indents : List Nat) (b : Bool) :
    dropStale ⟨place, ts, indents, [some key], b⟩ = .ok ⟨place, ts, indents, [some key], b⟩ := by
  have hfresh : isStale place key = false := by
    simp [isStale, hline, hnear]
  simp [dropStale, hfresh, pure, Except.pure]

theorem unwindTo_none {column : Nat} {indents : List Nat} (h : indents.head?.all (· ≤ column) = true) (place : Cursor)
    (ts : List Token) (keys : List (Option KeyStart)) (b : Bool) :
    unwindTo column ⟨place, ts, indents, keys, b⟩ = ⟨place, ts, indents, keys, b⟩ := by
  have hclosed : indents.takeWhile (fun i => decide (column < i)) = [] := by
    cases indents with
    | nil => rfl
    | cons i r =>
      simp only [List.head?_cons, Option.all_some, decide_eq_true_eq] at h
      simp [Nat.not_lt.2 h]
  simp [unwindTo, hclosed]

/-- the scanner comes to a place with no key in view: what is left and its column, the open columns and the tokens -/
def At (s : Scanner) (m : Nat) (body : Text) (indents : List Nat) (ts : List Token) : Prop :=
  ∃ i l, s.approach = .ok ⟨⟨body, i, l, m⟩, ts, indents, [none], true⟩

/-- the next line is due, while blocks deeper than a bound are open; once these are closed, there are these open columns and
these tokens -/
def Due (s : Scanner) (m : Nat) (body : Text) (bound : Nat) (indents : List Nat) (ts : List Token) : Prop :=
  ∃ i l deeper before, s.toToken.dropStale = .ok ⟨⟨body, i, l, m⟩, before, deeper ++ indents, [none], true⟩ ∧
    (∀ d ∈ deeper, bound < d) ∧ ts = List.replicate deeper.length .blockEnd ++ before

variable {m bound : Nat} {body : Text} {indents : List Nat} {ts : List Token}

/-- the innermost block that is left may be closed with the deeper ones -/
theorem Due.close {i bound' : Nat} (h : Due s m body bound (i :: indents) ts) (hle : bound' ≤ bound) (hlt : bound' < i) :
    Due s m body bound' indents (.blockEnd :: ts) := by
  obtain ⟨index, l, deeper, before, hdrop, hdeeper, rfl⟩ := h
  refine ⟨index, l, deeper ++ [i], before, by simpa using hdrop, ?_, by simp [List.replicate_succ]⟩
  intro d hd
  rcases List.mem_append.1 hd with hd | hd
  · exact hle.trans_lt (hdeeper d hd)
  · rw [List.mem_singleton.1 hd]
    exact hlt

/-- at the next line, all that is deeper is closed -/
theorem Due.at (h : Due s m body bound indents ts) (hm : m ≤ bound) (hopen : indents.head?.all (· ≤ m) = true) :
    At s m body indents ts := by
  obtain ⟨index, l, deeper, before, hdrop, hdeeper, rfl⟩ := h
  have hclosed : (deeper ++ indents).takeWhile (fun i => decide (m < i)) = deeper := by
    have hnone : indents.takeWhile (fun i => decide (m < i)) = [] := by
      cases indents with
      | nil => rfl
      | cons i r =>
        simp only [List.head?_cons, Option.all_some, decide_eq_true_eq] at hopen
        simp [Nat.not_lt.2 hopen]
    rw [List.takeWhile_append_of_pos fun d hd => decide_eq_true (hm.trans_lt (hdeeper d hd)), hnone, List.append_nil]
  refine ⟨index, l, ?_⟩
  simp [approach, hdrop, bind, Except.bind, pure, Except.pure, unwindTo, inFlow, hclosed]

end Scanner

end RepoLens.Yaml
