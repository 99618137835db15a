import Mathlib.Tactic
import RepoLens.Console
import RepoLens.Proofs.Reply
import RepoLens.Proofs.Utf8
/-!
Lines and what ends them. Captured output goes through three steps that deal with line ends: every end becomes a newline,
the last line is closed, and a listing is cut at its newlines and keeps the lines that hold something. Together they cut
the output at every CR and at every LF, and nowhere else; other characters that part lines elsewhere stay in their line.

Text that was not captured may hold a CR anywhere, and then only a newline, alone or with one CR in front of it, ends a line.

Results:
- `nonEmptyLines_captured`: the lines that are read are the longest pieces of the decoded output without CR and LF;
- `nonEmptyLines_rendering`: a list of lines, written with any ends, is read as it was;
- `lines_append`: a line end between two texts parts their lines, unless it takes a CR from the text in front of it;
- `nonEmptyLines_written`: lines without newlines that do not end in CR, each closed by either line end, are read as they were;
- `nonEmptyLines_block`, `nonEmptyLines_joined`: so are lines that are each closed by a newline, and lines with newlines between
  them.
-/
namespace RepoLens

namespace Text

/-! ## Cutting -/

variable {p : Char → Bool}

theorem consHead_eq_modifyHead {ws : List Text} (h : ws ≠ []) (c : Char) :
    consHead c ws = ws.modifyHead (List.cons c) := by
  cases ws with
  | nil => exact absurd rfl h
  | cons w ws => rfl

theorem cutAt_eq_splitOnP (t : Text) : cutAt p t = t.splitOnP p := by
  induction t with
  | nil => rfl
  | cons c t ih =>
    rw [cutAt, List.splitOnP_cons_eq_if_modifyHead, ih, consHead_eq_modifyHead (List.splitOnP_ne_nil p t)]

theorem cutAt_ne_nil (p : Char → Bool) (t : Text) : cutAt p t ≠ [] := by
  rw [cutAt_eq_splitOnP]
  exact List.splitOnP_ne_nil p t

/-- at a cut the pieces of both sides stand side by side -/
theorem cutAt_append {e : Char} (he : p e = true) (t u : Text) :
    cutAt p (t ++ e :: u) = cutAt p t ++ cutAt p u := by
  simp only [cutAt_eq_splitOnP, List.splitOnP_append_cons t u he]

/-- a text without a cut is one piece -/
theorem cutAt_of_none {t : Text} (h : ∀ c ∈ t, p c = false) : cutAt p t = [t] := by
  rw [cutAt_eq_splitOnP, List.splitOnP_eq_singleton h]

/-- no piece between cuts holds a character to cut at -/
theorem of_mem_cutAt {t n : Text} (h : n ∈ cutAt p t) : ∀ c ∈ n, p c = false := by
  induction t generalizing n with
  | nil =>
    rw [cutAt, List.mem_singleton] at h
    exact fun c hc => absurd (h ▸ hc) List.not_mem_nil
  | cons c r ih =>
    rw [cutAt] at h
    split_ifs at h with hp
    · rcases List.mem_cons.1 h with rfl | h
      · exact fun c hc => absurd hc List.not_mem_nil
      · exact ih h
    · cases hcut : cutAt p r with
      | nil =>
        rw [hcut, consHead, List.mem_singleton] at h
        intro d hd
        rw [h, List.mem_singleton] at hd
        simpa [hd] using hp
      | cons w ws =>
        rw [hcut] at h ih
        rcases List.mem_cons.1 h with rfl | h
        · intro d hd
          rcases List.mem_cons.1 hd with rfl | hd
          · simpa using hp
          · exact ih List.mem_cons_self d hd
        · exact ih (List.mem_cons_of_mem _ h)

/-- pieces without a cut, joined by one, are the pieces of what is joined -/
theorem cutAt_joinWith {e : Char} (he : p e = true) {ts : List Text} (hne : ts ≠ []) (h : ∀ t ∈ ts, ∀ c ∈ t, p c = false) :
    cutAt p (joinWith [e] ts) = ts := by
  induction ts with
  | nil => exact absurd rfl hne
  | cons t ts ih =>
    obtain ⟨ht, hrest⟩ := List.forall_mem_cons.1 h
    cases ts with
    | nil => exact cutAt_of_none ht
    | cons u ts =>
      rw [joinWith, List.singleton_append, cutAt_append he, cutAt_of_none ht, ih (by simp) hrest]
      rfl

/-- a joined text holds the characters of its parts and of the separator -/
theorem forall_mem_joinWith {P : Char → Prop} {sep : Text} {ts : List Text} (hsep : ∀ c ∈ sep, P c)
    (hts : ∀ t ∈ ts, ∀ c ∈ t, P c) : ∀ c ∈ joinWith sep ts, P c := by
  fun_induction joinWith sep ts with
  | case1 => simp
  | case2 t => exact hts t List.mem_cons_self
  | case3 t u rest ih =>
    obtain ⟨ht, hrest⟩ := List.forall_mem_cons.1 hts
    intro c hc
    rcases List.mem_append.1 hc with hc | hc
    · exact ht c hc
    rcases List.mem_append.1 hc with hc | hc
    · exact hsep c hc
    · exact ih hrest c hc

theorem joinWith_concat (sep : Text) {ts : List Text} (hne : ts ≠ []) (t : Text) :
    joinWith sep (ts ++ [t]) = joinWith sep ts ++ (sep ++ t) := by
  fun_induction joinWith sep ts with
  | case1 => exact absurd rfl hne
  | case2 u => rfl
  | case3 u v rest ih =>
    have hrest := ih (List.cons_ne_nil v rest)
    rw [List.cons_append, List.cons_append, joinWith, ← List.cons_append, hrest, List.append_assoc, List.append_assoc]

/-- the pieces between the cuts, empty ones left out -/
def pieces (p : Char → Bool) (t : Text) : List Text := (cutAt p t).filter (· ≠ [])

theorem pieces_of_none {t : Text} (h : ∀ c ∈ t, p c = false) : pieces p t = [t].filter (· ≠ []) := by
  rw [pieces, cutAt_of_none h]

theorem pieces_append {e : Char} (he : p e = true) (t u : Text) :
    pieces p (t ++ e :: u) = pieces p t ++ pieces p u := by
  simp only [pieces, cutAt_append he, List.filter_append]

theorem pieces_cut {e : Char} (he : p e = true) (t : Text) : pieces p (e :: t) = pieces p t :=
  pieces_append he [] t

/-! ## Line ends -/

/-- the characters that end a line -/
def isEnd (c : Char) : Bool := c = '\r' || c = '\n'

theorem isEnd_eq_false {c : Char} : isEnd c = false ↔ c ≠ '\r' ∧ c ≠ '\n' := by
  simp [isEnd]

/-- a piece without a line end that a line end closes -/
theorem pieces_closed {u r r' : Text} {e : Char} (hu : ∀ c ∈ u, isEnd c = false) (he : isEnd e = true)
    (hr : pieces (· = '\n') r' = pieces isEnd r) :
    pieces (· = '\n') (u ++ '\n' :: r') = pieces isEnd (u ++ e :: r) := by
  have hnewline : ∀ c ∈ u, decide (c = '\n') = false := fun c hc => decide_eq_false (isEnd_eq_false.1 (hu c hc)).2
  rw [pieces_append (by rfl), pieces_append he, pieces_of_none hu, pieces_of_none hnewline, hr]

/-- the pieces between newlines once every line end is one. The induction goes over the text behind a piece in hand that
holds no line end; a line end closes the piece, any other character joins it. -/
theorem pieces_unifyNewlines (t : Text) {u : Text} (hu : ∀ c ∈ u, isEnd c = false) :
    pieces (· = '\n') (u ++ unifyNewlines t) = pieces isEnd (u ++ t) := by
  have hempty : ∀ c ∈ ([] : Text), isEnd c = false := by simp
  fun_induction unifyNewlines t generalizing u with
  | case1 =>
    have hnewline : ∀ c ∈ u, decide (c = '\n') = false := fun c hc => decide_eq_false (isEnd_eq_false.1 (hu c hc)).2
    rw [List.append_nil, pieces_of_none hu, pieces_of_none hnewline]
  | case2 r ih =>
    have hcrlf : pieces isEnd ('\n' :: r) = pieces isEnd r := pieces_cut (by rfl) r
    exact pieces_closed hu (by rfl) ((ih hempty).trans hcrlf.symm)
  | case3 r _ ih => exact pieces_closed hu (by rfl) (ih hempty)
  | case4 c r _ hcr ih =>
    by_cases hc : c = '\n'
    · rw [hc]
      exact pieces_closed hu (by rfl) (ih hempty)
    · have hjoin : ∀ d ∈ u ++ [c], isEnd d = false := by
        intro d hd
        rcases List.mem_append.1 hd with hd | hd
        · exact hu d hd
        · rw [List.mem_singleton.1 hd]
          exact isEnd_eq_false.2 ⟨hcr, hc⟩
      simpa using ih hjoin

theorem cr_not_mem_unifyNewlines (t : Text) : '\r' ∉ unifyNewlines t := by
  fun_induction unifyNewlines t with
  | case1 => simp
  | case2 r ih => simpa using ih
  | case3 r _ ih => simpa using ih
  | case4 c r _ hcr ih => simpa using ⟨fun h => hcr h.symm, ih⟩

theorem unifyNewlines_of_no_cr {t : Text} (h : '\r' ∉ t) : unifyNewlines t = t := by
  fun_induction unifyNewlines t with
  | case1 => rfl
  | case2 r ih => simp at h
  | case3 r _ ih => simp at h
  | case4 c r _ _ ih => rw [ih fun hr => h (List.mem_cons_of_mem c hr)]

theorem closeLines_eq_or (t : Text) : closeLines t = t ∨ closeLines t = t ++ ['\n'] := by
  unfold closeLines
  split
  · rename_i h
    exact Or.inl (List.getLast?_eq_none_iff.1 h).symm
  · split_ifs
    · exact Or.inl rfl
    · exact Or.inr rfl

/-- a text without a final newline stays as it is -/
theorem chopNewline_of_open {t : Text} (h : t.getLast? ≠ some '\n') : chopNewline t = t := by
  unfold chopNewline
  split
  · rename_i hlast
    exact absurd hlast h
  · rfl

/-- without CR the lines are the pieces between newlines -/
theorem lines_of_no_cr {t : Text} (h : '\r' ∉ t) : lines t = cutAt (· = '\n') t := by
  fun_induction lines t with
  | case1 => rfl
  | case2 r ih => simp at h
  | case3 r _ ih =>
    have hr : '\r' ∉ r := fun hr => h (List.mem_cons_of_mem _ hr)
    simp [cutAt, ih hr]
  | case4 c r _ hc ih =>
    have hr : '\r' ∉ r := fun hr => h (List.mem_cons_of_mem _ hr)
    simp [cutAt, hc, ih hr]

/-- **The lines of captured output** are the longest pieces of it without CR and LF, whatever the bytes. -/
theorem nonEmptyLines_captured (bytes : List UInt8) :
    (Record.captured bytes).nonEmptyLines = pieces isEnd (Utf8.decode bytes) := by
  have hpieces := pieces_unifyNewlines (Utf8.decode bytes) (u := []) (by simp)
  have hcr := cr_not_mem_unifyNewlines (Utf8.decode bytes)
  rw [List.nil_append, List.nil_append] at hpieces
  rw [← hpieces, Record.captured, nonEmptyLines]
  rcases closeLines_eq_or (unifyNewlines (Utf8.decode bytes)) with h | h
  · rw [h, lines_of_no_cr hcr, pieces]
  · have hclosed : pieces (· = '\n') (unifyNewlines (Utf8.decode bytes) ++ ['\n']) =
        pieces (· = '\n') (unifyNewlines (Utf8.decode bytes)) := by
      rw [pieces_append (by rfl)]
      exact List.append_nil _
    rw [h, lines_of_no_cr (by simpa using hcr), ← hclosed, pieces]

/-! ## Renderings -/

/-- a line of a listing: it holds something, and no line end -/
def IsLine (l : Text) : Prop := l ≠ [] ∧ ∀ c ∈ l, isEnd c = false

-- one character of the line after the other, and not every character there is
instance : DecidablePred IsLine := fun l => @instDecidableAnd _ _ _ (List.decidableBAll (fun c => isEnd c = false) l)

/-- the ways to write some lines: each is closed by a line end, except that the last one may stand open, and there may be
further line ends before the first line and after any other -/
inductive Rendering : List Text → Text → Prop where
  | nil : Rendering [] []
  | unclosed (l : Text) : Rendering [l] l
  | closed {ls : List Text} {t : Text} (l : Text) {e : Char} (he : isEnd e = true) (ht : Rendering ls t) :
    Rendering (l :: ls) (l ++ e :: t)
  | extra {ls : List Text} {t : Text} {e : Char} (he : isEnd e = true) (ht : Rendering ls t) : Rendering ls (e :: t)

theorem pieces_rendering {ls : List Text} {t : Text} (hls : ∀ l ∈ ls, IsLine l) (ht : Rendering ls t) :
    pieces isEnd t = ls := by
  have one : ∀ {l : Text}, IsLine l → pieces isEnd l = [l] := fun {l} hl => by
    rw [pieces_of_none hl.2]
    simp [hl.1]
  induction ht with
  | nil => rfl
  | unclosed l => exact one (hls l List.mem_cons_self)
  | closed l he _ ih =>
    rw [pieces_append he, one (hls l List.mem_cons_self), ih fun l' hl' => hls l' (List.mem_cons_of_mem l hl')]
    rfl
  | extra he _ ih => rw [pieces_cut he, ih hls]

/-- **Any rendering of some lines is read as those lines.** -/
theorem nonEmptyLines_rendering {ls : List Text} {t : Text} (hls : ∀ l ∈ ls, IsLine l) (ht : Rendering ls t) :
    (Record.captured (Utf8.encode t)).nonEmptyLines = ls := by
  rw [nonEmptyLines_captured, Utf8.decode_encode, pieces_rendering hls ht]

/-! ## Lines of two parts -/

theorem lines_ne_nil (t : Text) : lines t ≠ [] := by
  fun_induction lines t with
  | case1 => exact List.cons_ne_nil _ _
  | case2 r ih => exact List.cons_ne_nil _ _
  | case3 r _ ih => exact List.cons_ne_nil _ _
  | case4 c r _ hc ih => cases lines r <;> exact List.cons_ne_nil _ _

theorem consHead_append (c : Char) {us : List Text} (hus : us ≠ []) (vs : List Text) :
    consHead c (us ++ vs) = consHead c us ++ vs := by
  cases us with
  | nil => exact absurd rfl hus
  | cons u us => rfl

theorem lines_newline (t : Text) : lines ('\n' :: t) = [] :: lines t := by
  simp [lines]

theorem lines_crlf (t : Text) : lines ('\r' :: '\n' :: t) = [] :: lines t := by
  rw [lines]

/-- a character that starts no line end is the first of its line -/
theorem lines_char {c : Char} {t : Text} (hc : c ≠ '\n') (ht : c = '\r' → t.head? ≠ some '\n') :
    lines (c :: t) = consHead c (lines t) := by
  rw [lines.eq_3, if_neg hc]
  rintro r rfl rfl
  exact ht rfl rfl

/-- The lines of a text with something behind it that starts with a line end. What can go wrong is a CR at the end of the text in
front of a newline. The induction goes over the text as it is cut into lines. -/
theorem lines_append {a b t : Text} (ht : lines t = [] :: lines b)
    (hcut : a.getLast? = some '\r' → t.head? ≠ some '\n') : lines (a ++ t) = lines a ++ lines b := by
  have later : ∀ {c : Char} {r : Text}, ((c :: r).getLast? = some '\r' → t.head? ≠ some '\n') →
      r.getLast? = some '\r' → t.head? ≠ some '\n' := by
    intro c r h hr
    apply h
    rw [List.getLast?_cons, hr]
    rfl
  fun_induction lines a with
  | case1 => exact ht
  | case2 r ih =>
    rw [List.cons_append, List.cons_append, lines_crlf, ih (later (later hcut)), List.cons_append]
  | case3 r _ ih => rw [List.cons_append, lines_newline, ih (later hcut), List.cons_append]
  | case4 c r hwhole hc ih =>
    have hnext : c = '\r' → (r ++ t).head? ≠ some '\n' := by
      rintro rfl
      cases r with
      | nil => exact hcut rfl
      | cons d r =>
        intro hd
        cases hd
        exact hwhole r rfl rfl
    rw [List.cons_append, lines_char hc hnext, ih (later hcut), consHead_append c (lines_ne_nil r)]

theorem nonEmptyLines_append {a b t : Text} (ht : lines t = [] :: lines b)
    (hcut : a.getLast? = some '\r' → t.head? ≠ some '\n') :
    nonEmptyLines (a ++ t) = nonEmptyLines a ++ nonEmptyLines b := by
  rw [nonEmptyLines, lines_append ht hcut, List.filter_append]
  rfl

theorem nonEmptyLines_append_newline {a : Text} (ha : a.getLast? ≠ some '\r') (b : Text) :
    nonEmptyLines (a ++ '\n' :: b) = nonEmptyLines a ++ nonEmptyLines b :=
  nonEmptyLines_append (lines_newline b) fun hcr => absurd hcr ha

/-- a CR at the end of the first text would belong to the line end -/
example : nonEmptyLines ("x\r" ++ '\n' :: "y") = ["x", "y"] ∧ nonEmptyLines "x\r" ++ nonEmptyLines "y" = ["x\r", "y"] := by
  decide

/-! ## Written lines -/

inductive LineEnd where
  | newline
  | crlf

def LineEnd.text : LineEnd → Text
  | newline => ['\n']
  | crlf => ['\r', '\n']

/-- something without newlines that does not end in CR, so that either line end closes it -/
structure Closable (l : Text) : Prop where
  nonempty : l ≠ []
  no_newline : '\n' ∉ l
  no_cr : l.getLast? ≠ some '\r'

theorem lines_of_no_newline {l : Text} (h : '\n' ∉ l) : lines l = [l] := by
  induction l with
  | nil => rfl
  | cons c l ih =>
    rw [List.mem_cons, not_or] at h
    obtain ⟨hc, hl⟩ := h
    have hnext : c = '\r' → l.head? ≠ some '\n' := fun _ hhead => hl (List.mem_of_head? hhead)
    rw [lines_char (Ne.symm hc) hnext, ih hl]
    rfl

/-- whatever stands in front of it, without newlines, it can still be closed -/
theorem Closable.behind {front last : Text} (hfront : '\n' ∉ front) (hlast : Closable last) : Closable (front ++ last) where
  nonempty := List.append_ne_nil_of_right_ne_nil _ hlast.nonempty
  no_newline hmem := (List.mem_append.1 hmem).elim hfront hlast.no_newline
  no_cr := by
    rw [List.getLast?_append_of_ne_nil _ hlast.nonempty]
    exact hlast.no_cr

theorem Closable.nonEmptyLines_alone {l : Text} (hl : Closable l) : nonEmptyLines l = [l] := by
  rw [nonEmptyLines, lines_of_no_newline hl.no_newline]
  simp [hl.nonempty]

theorem Closable.nonEmptyLines_closed {l : Text} (hl : Closable l) (e : LineEnd) (t : Text) :
    nonEmptyLines (l ++ (e.text ++ t)) = l :: nonEmptyLines t := by
  have hcut : nonEmptyLines (l ++ (e.text ++ t)) = nonEmptyLines l ++ nonEmptyLines t := by
    cases e with
    | newline => exact nonEmptyLines_append (lines_newline t) fun hcr => absurd hcr hl.no_cr
    | crlf => exact nonEmptyLines_append (lines_crlf t) fun _ => by simp [LineEnd.text]
  rw [hcut, hl.nonEmptyLines_alone, List.singleton_append]

/-- **Written lines are read as they were**, whichever end each of them has. -/
theorem nonEmptyLines_written {α : Type} (line : α → Text) (lineEnd : α → LineEnd) (xs : List α)
    (h : ∀ x ∈ xs, Closable (line x)) : nonEmptyLines (xs.flatMap fun x => line x ++ (lineEnd x).text) = xs.map line := by
  induction xs with
  | nil => rfl
  | cons x xs ih =>
    obtain ⟨hx, hxs⟩ := List.forall_mem_cons.1 h
    rw [List.flatMap_cons, List.append_assoc, hx.nonEmptyLines_closed, ih hxs, List.map_cons]

theorem IsLine.closable {l : Text} (hl : IsLine l) : Closable l where
  nonempty := hl.1
  no_newline hnewline := (isEnd_eq_false.1 (hl.2 _ hnewline)).2 rfl
  no_cr hcr := (isEnd_eq_false.1 (hl.2 _ (List.mem_of_getLast? hcr))).1 rfl

/-- lines that are each closed by a newline are read as they are -/
theorem nonEmptyLines_block {ls : List Text} (hls : ∀ l ∈ ls, IsLine l) : (Console.block ls).nonEmptyLines = ls := by
  have hread := nonEmptyLines_written id (fun _ => LineEnd.newline) ls fun l hl => (hls l hl).closable
  rwa [List.map_id] at hread

/-- and so are lines with newlines between them -/
theorem nonEmptyLines_joined {ls : List Text} (hls : ∀ l ∈ ls, IsLine l) : (joinWith ['\n'] ls).nonEmptyLines = ls := by
  have hclosed : ls.filter (· ≠ []) = ls := by
    simpa using fun l hl => (hls l hl).1
  cases ls with
  | nil => rfl
  | cons l ls =>
    have hcr : '\r' ∉ joinWith ['\n'] (l :: ls) := by
      refine fun hmem => forall_mem_joinWith (P := (· ≠ '\r')) (by simp) ?_ _ hmem rfl
      exact fun t ht c hc => (isEnd_eq_false.1 ((hls t ht).2 c hc)).1
    have hnewline : ∀ t ∈ l :: ls, ∀ c ∈ t, decide (c = '\n') = false :=
      fun t ht c hc => decide_eq_false (isEnd_eq_false.1 ((hls t ht).2 c hc)).2
    rw [nonEmptyLines, lines_of_no_cr hcr, cutAt_joinWith (by rfl) (List.cons_ne_nil l ls) hnewline, hclosed]

end Text

end RepoLens
