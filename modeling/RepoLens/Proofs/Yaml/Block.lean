import Mathlib.Tactic
import RepoLens.Proofs.Yaml.Scan
/-!
Reading block by block. Behind a dash or a colon stands a scalar, or brackets around nothing, or a block of its own on the lines
below. A dash or a key at the column of an open block goes on with it, and at a deeper column opens another.

Results:
- `scan_scalar`, `scan_nothing`: nodes that take no lines of their own;
- `scan_dash`, `scan_key`: what stands before a node.
-/
namespace RepoLens.Yaml

open Text

namespace Scanner

variable {s : Scanner} {m bound : Nat} {x body : Text} {indents : List Nat} {ts : List Token}

/-! ## Lines -/

/-- behind a sign and a space, in the line of a block or to the right of it -/
theorem approach_behind (h : Opens body) {indent c : Nat} (hc : indent ≤ c) (i l : Nat) (outer : List Nat) (ts : List Token)
    (b : Bool) :
    approach ⟨⟨' ' :: body, i, l, c⟩, ts, indent :: outer, [none], b⟩ =
      .ok ⟨⟨body, i + 1, l, c + 1⟩, ts, indent :: outer, [none], b⟩ := by
  have hopen : (indent :: outer).head?.all (· ≤ c + 1) = true := by
    simp only [List.head?_cons, Option.all_some, decide_eq_true_eq]
    omega
  rw [approach, show ' ' :: body = spaces 1 ++ body from rfl, toToken_spaces h, dropStale_none]
  exact congrArg Except.ok (unwindTo_none hopen _ _ _ _)

/-- after a line end the next line is due -/
theorem due_line (h : Opens body) {key : Option KeyStart} {i l c : Nat} (hkey : ∀ k ∈ key, k.required = false ∧ k.line ≤ l)
    (b : Bool) : Due ⟨⟨'\n' :: (spaces m ++ body), i, l, c⟩, ts, indents, [key], b⟩ m body bound indents ts := by
  refine ⟨i + (m + 1), l + 1, [], ts, ?_, by simp, by simp⟩
  rw [toToken_line h, dropStale_past fun k hk => ⟨(hkey k hk).1, Nat.lt_succ_of_le (hkey k hk).2⟩]
  rfl

/-- at the start of a line that line is due -/
theorem due_here (h : Opens body) {key : Option KeyStart} {i l : Nat} (hkey : ∀ k ∈ key, k.required = false ∧ k.line < l) :
    Due ⟨⟨body, i, l, m⟩, ts, indents, [key], true⟩ m body bound indents ts := by
  refine ⟨i, l, [], ts, ?_, by simp, by simp⟩
  rw [toToken_here h, dropStale_past hkey]
  rfl

/-- behind a space a block starts in the line of a dash -/
theorem at_inline (h : Opens body) (indent i l : Nat) (outer : List Nat) (ts : List Token) :
    At ⟨⟨' ' :: body, i, l, indent + 1⟩, ts, indent :: outer, [none], true⟩ (indent + 2) body (indent :: outer) ts :=
  ⟨i + 1, l, approach_behind h (Nat.le_succ indent) i l outer ts true⟩

/-- a block starts on the line below, in the column of the block outside or deeper -/
theorem at_line (h : Opens body) {indent : Nat} (hm : indent ≤ m) (i l c : Nat) (outer : List Nat) (ts : List Token) :
    At ⟨⟨'\n' :: (spaces m ++ body), i, l, c⟩, ts, indent :: outer, [none], false⟩ m body (indent :: outer) ts := by
  have hdue : Due ⟨⟨'\n' :: (spaces m ++ body), i, l, c⟩, ts, indent :: outer, [none], false⟩ m body m (indent :: outer) ts :=
    due_line h (by simp) false
  exact hdue.at le_rfl (by simpa using hm)

/-! ## Nodes without lines of their own -/

/-- where text may start behind a sign, no key has to stand -/
theorem keyAt_inline {indent c : Nat} (hc : indent < c) (b : Bool) (ts : List Token) (outer : List Nat) (i l : Nat) :
    ∀ k ∈ keyAt b ts (indent :: outer) i l c, k.required = false ∧ k.line = l ∧ k.index = i := by
  intro k hk
  cases b with
  | false => simp [keyAt] at hk
  | true =>
    obtain rfl : _ = k := by simpa [keyAt] using hk
    simp [Nat.ne_of_lt hc]

theorem Ordinary.line {w : Text} (hw : Ordinary w) (m : Nat) : Ordinary (w ++ '\n' :: spaces m) :=
  hw.append (ordinary_foldAt m)

/-- **A scalar behind a sign** is one token, and the next line is due. -/
theorem scan_scalar {indent column c : Nat} {plain : Bool} {t : Text} (h : IsReadable plain t) (hcolumn : indent < column)
    (hc : indent ≤ c) (hline : Line m body) (hm : m ≤ indent) (indents : List Nat) (ts : List Token) (bound i l : Nat)
    (b : Bool) :
    ∃ s', scan ⟨⟨' ' :: (scalarText true (indent + 2) column plain t ++ '\n' :: (spaces m ++ body)), i, l, c⟩, ts,
        indent :: indents, [none], b⟩ = s'.scan ∧
      Due s' m body bound (indent :: indents) (.scalar plain (rereadText (indent + 2) t) :: ts) := by
  have hfolding : IsFolding true (indent + 2) column t := .inr fun _ => ⟨rfl, by omega⟩
  have hleast : leastColumn (indent :: indents) ≤ indent + 2 := Nat.le_succ (indent + 1)
  obtain ⟨d, u, hu, hread⟩ := readToken_scalar (by omega) h hfolding hleast
    (stops_line hline (by simp only [leastColumn]; omega)) (by simp) (i + 1) l (c + 1) (by omega) ts b
  have hopens := opens_scalarText h true (indent + 2) column ('\n' :: (spaces m ++ body))
  rw [hu, List.cons_append] at hopens
  have hnear := approach_behind hopens hc i l indents ts b
  have hkey := keyAt_inline (Nat.lt_succ_of_le hc) b ts indents (i + 1) l
  have hw : Ordinary (d :: u) := hu ▸ ordinary_scalarText (by omega) h hfolding
  rw [hu]
  cases plain with
  | true =>
    have hplace := Cursor.moveTo_append (Ordinary.line hw m) body (i + 1) l (c + 1)
    rw [columnAfter_line, columnAfter_flat (newline_not_mem_spaces m), length_spaces, Nat.zero_add] at hplace
    simp only [List.append_assoc, List.cons_append, if_true, Bool.true_and] at hread hplace
    rw [hplace] at hread
    refine ⟨_, scan_step hnear rfl hread ?_, due_here hline.opens fun k hk => ?_⟩
    · simp only [List.length_cons, List.length_append]
      omega
    · obtain ⟨hrequired, hl, -⟩ := hkey k hk
      have hlines : 0 < (d :: (u ++ '\n' :: spaces m)).count '\n' := List.count_pos_iff.2 (by simp)
      refine ⟨hrequired, ?_⟩
      rw [hl]
      exact Nat.lt_add_of_pos_right hlines
  | false =>
    have hplace := Cursor.moveTo_append hw ('\n' :: (spaces m ++ body)) (i + 1) l (c + 1)
    simp only [List.cons_append, Bool.false_eq_true, if_false, Bool.false_and] at hread hplace
    rw [hplace] at hread
    refine ⟨_, scan_step hnear rfl hread ?_, due_line hline.opens (fun k hk => ?_) _⟩
    · simp only [List.length_cons, List.length_append]
      omega
    · obtain ⟨hrequired, hl, -⟩ := hkey k hk
      exact ⟨hrequired, by omega⟩

/-- an opening bracket, with what is remembered of its place -/
theorem scan_opening {opening closing : Char} {start finish : Token} {indent c : Nat}
    (hpair : Brackets opening closing start finish) (hc : indent ≤ c) (i l : Nat) (b : Bool) :
    scan ⟨⟨' ' :: opening :: x, i, l, c⟩, ts, indent :: indents, [none], b⟩ =
      scan ⟨⟨x, i + 2, l, c + 2⟩, start :: ts, indent :: indents, [none, keyAt b ts (indent :: indents) (i + 1) l (c + 1)],
        true⟩ := by
  have hnear := approach_behind (hpair.opens x).1 hc i l indents ts b
  have hread : readToken ⟨⟨opening :: x, i + 1, l, c + 1⟩, ts, indent :: indents, [none], b⟩ opening =
      .ok ⟨⟨x, i + 2, l, c + 2⟩, start :: ts, indent :: indents, [none, keyAt b ts (indent :: indents) (i + 1) l (c + 1)],
        true⟩ := by
    rw [hpair.readToken_opening rfl, openFlow, saveKey_none]
    cases hpair <;> rfl
  refine scan_step hnear rfl hread ?_
  simp only [List.length_cons]
  omega

/-- the closing bracket behind it, while what is remembered is in view -/
theorem scan_closing {opening closing : Char} {start finish : Token} {key : Option KeyStart} {i l : Nat}
    (hpair : Brackets opening closing start finish) (hkey : ∀ k ∈ key, k.line = l ∧ i - k.index ≤ 1024) (c : Nat) :
    scan ⟨⟨closing :: x, i, l, c⟩, ts, indents, [none, key], true⟩ =
      scan ⟨⟨x, i + 1, l, c + 1⟩, finish :: ts, indents, [key], false⟩ := by
  have hnear : approach ⟨⟨closing :: x, i, l, c⟩, ts, indents, [none, key], true⟩ =
      .ok ⟨⟨closing :: x, i, l, c⟩, ts, indents, [none, key], true⟩ := by
    rw [approach, toToken_here (hpair.opens x).2]
    cases key with
    | none => rfl
    | some k =>
      obtain ⟨hl, hi⟩ := hkey k rfl
      have hfresh : isStale ⟨closing :: x, i, l, c⟩ k = false := by
        simp [isStale, hl, hi]
      simp [dropStale, hfresh, bind, Except.bind, pure, Except.pure, unwindTo, inFlow]
  have hread : readToken ⟨⟨closing :: x, i, l, c⟩, ts, indents, [none, key], true⟩ closing =
      .ok ⟨⟨x, i + 1, l, c + 1⟩, finish :: ts, indents, [key], false⟩ := by
    rw [hpair.readToken_closing rfl]
    cases hpair <;> rfl
  refine scan_step hnear rfl hread ?_
  simp only [List.length_cons]
  omega

/-- **Brackets or braces around nothing** are two tokens, and the next line is due. -/
theorem scan_nothing {opening closing : Char} {start finish : Token} {indent c : Nat}
    (hpair : Brackets opening closing start finish) (hc : indent ≤ c) (hline : Line m body) (i l : Nat) (b : Bool) :
    ∃ s', scan ⟨⟨' ' :: opening :: closing :: '\n' :: (spaces m ++ body), i, l, c⟩, ts, indent :: indents, [none], b⟩ =
        s'.scan ∧
      Due s' m body bound (indent :: indents) (finish :: start :: ts) := by
  have hkey := keyAt_inline (Nat.lt_succ_of_le hc) b ts indents (i + 1) l
  refine ⟨_, (scan_opening hpair hc i l b).trans (scan_closing hpair (fun k hk => ?_) _), due_line hline.opens (fun k hk => ?_) _⟩
  · obtain ⟨-, hl, hi⟩ := hkey k hk
    exact ⟨hl, by omega⟩
  · obtain ⟨hrequired, hl, -⟩ := hkey k hk
    exact ⟨hrequired, hl.le⟩

/-! ## Signs -/

/-- a block at a column is opened with its token, or is open; then the columns outside it and the tokens are these -/
inductive Opened (t : Token) (m : Nat) : List Nat → List Token → List Nat → List Token → Prop where
  | new {indents : List Nat} {ts : List Token} (h : indents.head?.all (· < m) = true) :
    Opened t m indents ts indents (t :: ts)
  | already {outer : List Nat} {ts : List Token} : Opened t m (m :: outer) ts outer ts

variable {outer : List Nat} {ts' : List Token}

theorem Opened.head {t : Token} (h : Opened t m indents ts outer ts') : indents.head?.all (· ≤ m) = true := by
  cases h with
  | already => simp
  | new h =>
    cases indents with
    | nil => rfl
    | cons i r => simpa using Nat.le_of_lt (by simpa using h)

/-- **A dash** before an item opens the sequence, unless it is open. -/
theorem scan_dash (h : At s m ('-' :: x) indents ts) (hx : endsWord x.head? = true)
    (hopened : Opened .blockSeq m indents ts outer ts') :
    ∃ i l, s.scan = scan ⟨⟨x, i, l, m + 1⟩, .dash :: ts', m :: outer, [none], true⟩ := by
  obtain ⟨i, l, hnear⟩ := h
  have hlength := approach_length hnear
  have hsign : dashSign ⟨⟨'-' :: x, i, l, m⟩, ts, indents, [none], true⟩ =
      .ok ⟨⟨x, i + 1, l, m + 1⟩, .dash :: ts', m :: outer, [none], true⟩ := by
    cases hopened with
    | new h => simp [dashSign, openBlockWith, opensBlock, h]; rfl
    | already => simp [dashSign, openBlockWith, opensBlock]; rfl
  refine ⟨i + 1, l, scan_step hnear rfl ((readToken_dash rfl hx).trans hsign) ?_⟩
  simp only [List.length_cons] at hlength
  exact hlength

theorem Opened.least {t : Token} (h : Opened t m indents ts outer ts') : leastColumn indents ≤ m + 2 := by
  have hhead := h.head
  cases indents with
  | nil => simp [leastColumn]
  | cons i r =>
    simp only [List.head?_cons, Option.all_some, decide_eq_true_eq] at hhead
    simp only [leastColumn]
    omega

/-- a name is one token, and where it starts is remembered -/
theorem scan_name {plain : Bool} {t : Text} (hname : IsName plain t) (hleast : leastColumn indents ≤ m + 2)
    (h : At s m (scalarText false (m + 2) m plain t ++ ':' :: x) indents ts) (hx : endsWord x.head? = true) :
    ∃ i l k, 0 < k ∧ k ≤ 1024 ∧
      s.scan = scan ⟨⟨':' :: x, i + k, l, m + k⟩, .scalar plain t :: ts, indents, [keyAt true ts indents i l m], false⟩ := by
  obtain ⟨i, l, hnear⟩ := h
  obtain ⟨hflat, hlength⟩ := hname.written (m + 2) m
  have hshort := hname.short
  have hfolding : IsFolding false (m + 2) m t := .inl hname.canBeSingle
  obtain ⟨d, u, hu, hread⟩ := readToken_scalar (by omega) hname.readable hfolding hleast (stops_colon _ hx) (by simp) i l m
    (fun _ => hname.not_separator _ _ _) ts true
  rw [rereadText, if_pos hname.canBeSingle] at hread
  have hplace := Cursor.moveTo_append (ordinary_scalarText (by omega) hname.readable hfolding) (':' :: x) i l m
  have hbefore := approach_length hnear
  rw [hu] at hplace hflat hnear hlength hbefore
  rw [columnAfter_flat hflat, List.count_eq_zero_of_not_mem hflat] at hplace
  simp only [ite_self, Bool.and_false, List.cons_append] at hread hplace
  rw [hplace] at hread
  simp only [List.length_cons, List.length_append] at hbefore hlength
  exact ⟨i, l, (d :: u).length, by simp, by simp only [List.length_cons]; omega,
    scan_step hnear rfl hread (by simp only [List.length_cons]; omega)⟩

/-- a colon on the line of a name, while the name is in view -/
theorem scan_colon {name : Token} {i l k : Nat} (hk : 0 < k) (hview : k ≤ 1024) (hx : endsWord x.head? = true)
    (hopened : Opened .blockMap m indents ts outer ts') :
    scan ⟨⟨':' :: x, i + k, l, m + k⟩, name :: ts, indents, [keyAt true ts indents i l m], false⟩ =
      scan ⟨⟨x, i + k + 1, l, m + k + 1⟩, .value :: name :: .key :: ts', m :: outer, [none], false⟩ := by
  have hopens : Opens (':' :: x) := ⟨by decide, by decide⟩
  have hopen : indents.head?.all (· ≤ m + k) = true := by
    have hhead := hopened.head
    cases indents with
    | nil => rfl
    | cons j r =>
      simp only [List.head?_cons, Option.all_some, decide_eq_true_eq] at hhead ⊢
      omega
  have hnear : approach ⟨⟨':' :: x, i + k, l, m + k⟩, name :: ts, indents, [keyAt true ts indents i l m], false⟩ =
      .ok ⟨⟨':' :: x, i + k, l, m + k⟩, name :: ts, indents, [keyAt true ts indents i l m], false⟩ := by
    rw [approach, toToken_here hopens, keyAt, if_pos rfl, dropStale_kept rfl (by simp only; omega)]
    exact congrArg Except.ok (unwindTo_none hopen _ _ _ _)
  have hsign : valueSign ⟨⟨':' :: x, i + k, l, m + k⟩, name :: ts, indents, [keyAt true ts indents i l m], false⟩ =
      .ok ⟨⟨x, i + k + 1, l, m + k + 1⟩, .value :: name :: .key :: ts', m :: outer, [none], false⟩ := by
    cases hopened with
    | new h => simp [valueSign, key?, keyAt, setKey, inFlow, opensBlock, h, openBlock, insertAt]; rfl
    | already => simp [valueSign, key?, keyAt, setKey, inFlow, opensBlock, insertAt]; rfl
  exact scan_step hnear rfl ((readToken_colon rfl hx).trans hsign) (by simp)

/-- **A key** and its colon put the sign of a key before the key, and the sign of a mapping too unless it is open. -/
theorem scan_key {plain : Bool} {t : Text} (hname : IsName plain t)
    (h : At s m (scalarText false (m + 2) m plain t ++ ':' :: x) indents ts) (hx : endsWord x.head? = true)
    (hopened : Opened .blockMap m indents ts outer ts') :
    ∃ i l c, m < c ∧ s.scan = scan ⟨⟨x, i, l, c⟩, .value :: .scalar plain t :: .key :: ts', m :: outer, [none], false⟩ := by
  obtain ⟨i, l, k, hk, hview, hscan⟩ := scan_name hname hopened.least h hx
  exact ⟨i + k + 1, l, m + k + 1, by omega, hscan.trans (scan_colon hk hview hx hopened)⟩

end Scanner

end RepoLens.Yaml
