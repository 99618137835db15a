import Mathlib.Tactic
import RepoLens.Yaml.Load
import RepoLens.Proofs.Yaml.Block
/-!
A printed node is scanned as its tokens. Items and entries are read one after the other, each behind its sign; a node in a block
of its own goes two columns further in and closes the block at its end. The tokens hold each text as it is read in its place,
which is the text that was written except far to the right.

Results:
- `rereadNode`: a node as it is read where it stands;
- `scan_items`, `scan_entries`: a block of items or of entries, from what each of them reads as;
- `reads_of_legible`: what is written of a node behind a sign;
- `tokens_printNode`: a printed document.
-/
namespace RepoLens.Yaml

open Text Scanner

/-! ## Tokens -/

mutual

/-- the tokens of a node; a sequence under a key is bare: it opens no block -/
def nodeTokens (bare : Bool) : Node → List Token
  | .alias name => [.alias name]
  | .scalar _ plain t => [.scalar plain t]
  | .seq _ [] => [.flowSeqStart, .flowSeqEnd]
  | .map _ [] => [.flowMapStart, .flowMapEnd]
  | .seq _ (item :: items) =>
    if bare then itemTokens (item :: items) else .blockSeq :: (itemTokens (item :: items) ++ [.blockEnd])
  | .map _ (entry :: entries) => .blockMap :: (entryTokens (entry :: entries) ++ [.blockEnd])

def itemTokens : List Node → List Token
  | [] => []
  | item :: items => .dash :: (nodeTokens false item ++ itemTokens items)

def entryTokens : List (Node × Node) → List Token
  | [] => []
  | (key, value) :: entries => .key :: (nodeTokens false key ++ .value :: (nodeTokens true value ++ entryTokens entries))

end

/-! ## Nodes that read back -/

/-- a node that can stand before a colon -/
def IsKeyNode (n : Node) : Prop := ∃ plain t, n = .scalar .none plain t ∧ IsName plain t

/-- a node without anchors and aliases, whose texts are without quotes only if they can be -/
inductive Legible : Node → Prop where
  | scalar {plain : Bool} {t : Text} (h : IsReadable plain t) : Legible (.scalar .none plain t)
  | seq {items : List Node} (h : ∀ n ∈ items, Legible n) : Legible (.seq .none items)
  | map {entries : List (Node × Node)} (hkeys : ∀ e ∈ entries, IsKeyNode e.1) (h : ∀ e ∈ entries, Legible e.2) :
    Legible (.map .none entries)

mutual

/-- a node as it is read behind a dash (compact) or a colon at an indentation -/
def rereadNode (compact : Bool) (indent : Nat) : Node → Node
  | .alias name => .alias name
  | .scalar props plain t => .scalar props plain (rereadText (indent + 2) t)
  | .seq props items => .seq props (rereadItems (if compact then indent + 2 else indent) items)
  | .map props entries => .map props (rereadEntries (indent + 2) entries)

def rereadItems (indent : Nat) : List Node → List Node
  | [] => []
  | item :: items => rereadNode true indent item :: rereadItems indent items

def rereadEntries (indent : Nat) : List (Node × Node) → List (Node × Node)
  | [] => []
  | (key, value) :: entries => (key, rereadNode false indent value) :: rereadEntries indent entries

end

theorem mem_rereadItems {indent : Nat} {items : List Node} {n : Node} (h : n ∈ rereadItems indent items) :
    ∃ item ∈ items, n = rereadNode true indent item := by
  induction items with
  | nil => exact absurd h List.not_mem_nil
  | cons item items ih =>
    rcases List.mem_cons.1 h with rfl | h
    · exact ⟨item, List.mem_cons_self, rfl⟩
    · obtain ⟨item', hitem, rfl⟩ := ih h
      exact ⟨item', List.mem_cons_of_mem _ hitem, rfl⟩

theorem mem_rereadEntries {indent : Nat} {entries : List (Node × Node)} {e : Node × Node} (h : e ∈ rereadEntries indent entries) :
    ∃ entry ∈ entries, e = (entry.1, rereadNode false indent entry.2) := by
  induction entries with
  | nil => exact absurd h List.not_mem_nil
  | cons entry entries ih =>
    rcases List.mem_cons.1 h with rfl | h
    · exact ⟨entry, List.mem_cons_self, rfl⟩
    · obtain ⟨entry', hentry, rfl⟩ := ih h
      exact ⟨entry', List.mem_cons_of_mem _ hentry, rfl⟩

theorem isKeyNode_reread {entries : List (Node × Node)} (h : ∀ e ∈ entries, IsKeyNode e.1) (indent : Nat) :
    ∀ e ∈ rereadEntries indent entries, IsKeyNode e.1 := by
  intro e he
  obtain ⟨f, hf, rfl⟩ := mem_rereadEntries he
  exact h f hf

theorem legible_reread {n : Node} (h : Legible n) (compact : Bool) (indent : Nat) : Legible (rereadNode compact indent n) := by
  induction h generalizing compact indent with
  | @scalar plain t h => exact .scalar fun hplain => (rereadText_plain (h hplain) (indent + 2)).symm ▸ h hplain
  | @seq items h ih =>
    refine .seq fun n hn => ?_
    obtain ⟨item, hitem, rfl⟩ := mem_rereadItems hn
    exact ih item hitem true _
  | @map entries hkeys h ih =>
    refine .map (isKeyNode_reread hkeys _) fun e he => ?_
    obtain ⟨entry, hentry, rfl⟩ := mem_rereadEntries he
    exact ih entry hentry false _

theorem legible_rereadEntries {entries : List (Node × Node)} (h : ∀ e ∈ entries, Legible e.2) (indent : Nat) :
    ∀ e ∈ rereadEntries indent entries, Legible e.2 := by
  intro e he
  obtain ⟨f, hf, rfl⟩ := mem_rereadEntries he
  exact legible_reread (h f hf) false indent

/-! ## Lines of items and entries -/

theorem behind_head (compact : Bool) (indent column : Nat) (n : Node) (x : Text) :
    endsWord (behind compact indent column n ++ x).head? = true := by
  have hanchor : ∀ (props : Props) (c : Char) (y : Text), endsWord (some c) = true →
      endsWord (anchorText props ++ c :: y ++ x).head? = true := by
    intro props c y hc
    cases h : props.anchor with
    | none => simpa [anchorText, h] using hc
    | some name => simp [anchorText, h, endsWord]
  rcases n with name | ⟨props, plain, t⟩ | ⟨props, _ | ⟨item, items⟩⟩ | ⟨props, _ | ⟨entry, entries⟩⟩
  · rfl
  · rfl
  · exact hanchor props ' ' _ rfl
  · rw [behind]
    split_ifs
    · rfl
    · exact hanchor props '\n' _ rfl
    · exact hanchor props '\n' _ rfl
  · exact hanchor props ' ' _ rfl
  · rw [behind]
    split_ifs
    · rfl
    · exact hanchor props '\n' _ rfl

theorem printItems_lead (indent : Nat) (item : Node) (items : List Node) :
    printItems false indent (item :: items) = spaces indent ++ printItems true indent (item :: items) := by
  simp [printItems, lead]

theorem printEntries_lead (indent : Nat) (entry : Node × Node) (entries : List (Node × Node)) :
    printEntries false indent (entry :: entries) = spaces indent ++ printEntries true indent (entry :: entries) := by
  simp [printEntries, lead]

theorem printItems_item (indent : Nat) (item : Node) (items : List Node) (x : Text) :
    printItems true indent (item :: items) ++ x =
      '-' :: (behind true indent (indent + 1) item ++ (printItems false indent items ++ x)) := by
  simp [printItems, lead]

theorem line_items (indent : Nat) (item : Node) (items : List Node) (x : Text) :
    Line indent (printItems true indent (item :: items) ++ x) := by
  rw [printItems_item]
  have hopens : Opens ('-' :: (behind true indent (indent + 1) item ++ (printItems false indent items ++ x))) :=
    ⟨by decide, by decide⟩
  rcases Nat.eq_zero_or_pos indent with rfl | hindent
  · exact ⟨hopens, startsWithSeparator_dash (behind_head ..)⟩
  · exact line_indented hindent hopens

theorem printEntries_entry {plain : Bool} {t : Text} (h : IsName plain t) (indent : Nat) (value : Node)
    (entries : List (Node × Node)) (x : Text) :
    ∃ column, indent < column ∧ printEntries true indent ((.scalar .none plain t, value) :: entries) ++ x =
      scalarText false (indent + 2) indent plain t ++
        ':' :: (behind false indent column value ++ (printEntries false indent entries ++ x)) := by
  refine ⟨indent + (scalarText false (indent + 2) indent plain t).length + 1, by omega, ?_⟩
  simp [printEntries, lead, h.isSimpleKey, keyText]

theorem line_entries {entry : Node × Node} (h : IsKeyNode entry.1) (indent : Nat) (entries : List (Node × Node)) (x : Text) :
    Line indent (printEntries true indent (entry :: entries) ++ x) := by
  obtain ⟨_, value⟩ := entry
  obtain ⟨plain, t, rfl, hname⟩ := h
  obtain ⟨column, -, heq⟩ := printEntries_entry hname indent value entries x
  rw [heq]
  have hopens := opens_scalarText hname.readable false (indent + 2) indent
    (':' :: (behind false indent column value ++ (printEntries false indent entries ++ x)))
  rcases Nat.eq_zero_or_pos indent with rfl | hindent
  · exact ⟨hopens, hname.not_separator ..⟩
  · exact line_indented hindent hopens

/-! ## Scanning -/

/-- what is written of a node behind a sign is read as its tokens, and the next line is due -/
def Reads (compact : Bool) (indent : Nat) (n : Node) : Prop :=
  ∀ (outer : List Nat) (ts : List Token) (column i l c : Nat) {m : Nat} {body : Text}, Line m body → m ≤ indent →
    indent < column → indent < c → (compact = true → c = indent + 1) →
    ∃ s, scan ⟨⟨behind compact indent column n ++ (spaces m ++ body), i, l, c⟩, ts, indent :: outer, [none], compact⟩ =
        s.scan ∧
      Due s m body indent (indent :: outer) ((nodeTokens (!compact) (rereadNode compact indent n)).reverse ++ ts)

variable {s : Scanner} {indent m : Nat} {body : Text} {indents outer : List Nat} {ts ts' : List Token}

theorem scan_items {items : List Node} (hne : items ≠ []) (h : ∀ n ∈ items, Reads true indent n) (hline : Line m body)
    (hm : m ≤ indent) (hat : At s indent (printItems true indent items ++ (spaces m ++ body)) indents ts)
    (hopened : Opened .blockSeq indent indents ts outer ts') :
    ∃ s', s.scan = s'.scan ∧
      Due s' m body indent (indent :: outer) ((itemTokens (rereadItems indent items)).reverse ++ ts') := by
  induction items generalizing s indents ts outer ts' with
  | nil => exact absurd rfl hne
  | cons item items ih =>
    rw [printItems_item] at hat
    obtain ⟨i, l, hdash⟩ := scan_dash hat (behind_head ..) hopened
    cases items with
    | nil =>
      obtain ⟨s', hs', hdue⟩ := h item (by simp) outer (.dash :: ts') (indent + 1) i l (indent + 1) hline hm
        (Nat.lt_succ_self indent) (Nat.lt_succ_self indent) (fun _ => rfl)
      exact ⟨s', hdash.trans hs', by simpa [rereadItems, itemTokens] using hdue⟩
    | cons next items =>
      obtain ⟨s₁, hs₁, hdue⟩ := h item (by simp) outer (.dash :: ts') (indent + 1) i l (indent + 1)
        (line_items indent next items (spaces m ++ body)) le_rfl (Nat.lt_succ_self indent)
        (Nat.lt_succ_self indent) (fun _ => rfl)
      obtain ⟨s', hs', hdue'⟩ := ih (by simp) (fun n hn => h n (List.mem_cons_of_mem _ hn)) (hdue.at le_rfl (by simp)) .already
      rw [printItems_lead, List.append_assoc] at hdash
      exact ⟨s', (hdash.trans hs₁).trans hs', by simpa [rereadItems, itemTokens] using hdue'⟩

theorem scan_entries {entries : List (Node × Node)} (hne : entries ≠ []) (hkeys : ∀ e ∈ entries, IsKeyNode e.1)
    (h : ∀ e ∈ entries, Reads false indent e.2) (hline : Line m body) (hm : m ≤ indent)
    (hat : At s indent (printEntries true indent entries ++ (spaces m ++ body)) indents ts)
    (hopened : Opened .blockMap indent indents ts outer ts') :
    ∃ s', s.scan = s'.scan ∧
      Due s' m body indent (indent :: outer) ((entryTokens (rereadEntries indent entries)).reverse ++ ts') := by
  induction entries generalizing s indents ts outer ts' with
  | nil => exact absurd rfl hne
  | cons entry entries ih =>
    obtain ⟨_, value⟩ := entry
    obtain ⟨plain, t, rfl, hname⟩ := hkeys _ List.mem_cons_self
    obtain ⟨column, hcolumn, heq⟩ := printEntries_entry hname indent value entries (spaces m ++ body)
    rw [heq] at hat
    obtain ⟨i, l, c, hc, hkey⟩ := scan_key hname hat (behind_head ..) hopened
    cases entries with
    | nil =>
      obtain ⟨s', hs', hdue⟩ := h _ List.mem_cons_self outer (.value :: .scalar plain t :: .key :: ts') column i l c
        hline hm hcolumn hc (by simp)
      exact ⟨s', hkey.trans hs', by simpa [rereadEntries, entryTokens, nodeTokens] using hdue⟩
    | cons next entries =>
      have hnext := hkeys next (by simp)
      obtain ⟨s₁, hs₁, hdue⟩ := h _ List.mem_cons_self outer (.value :: .scalar plain t :: .key :: ts') column i l c
        (line_entries hnext indent entries (spaces m ++ body)) le_rfl hcolumn hc (by simp)
      obtain ⟨s', hs', hdue'⟩ := ih (by simp) (fun e he => hkeys e (List.mem_cons_of_mem _ he))
        (fun e he => h e (List.mem_cons_of_mem _ he)) (hdue.at le_rfl (by simp)) .already
      rw [printEntries_lead, List.append_assoc] at hkey
      exact ⟨s', (hkey.trans hs₁).trans hs', by simpa [rereadEntries, entryTokens, nodeTokens] using hdue'⟩

/-- a sequence goes two columns further in behind a dash, and stays in the column of its key -/
theorem reads_seq {items : List Node} (h : ∀ n ∈ items, ∀ indent, Reads true indent n) (compact : Bool) (indent : Nat) :
    Reads compact indent (.seq .none items) := by
  intro outer ts column i l c m body hline hm _ hc hcompact
  cases items with
  | nil => exact scan_nothing .square hc.le hline i l compact
  | cons item items =>
    cases compact with
    | true =>
      obtain rfl := hcompact rfl
      have hat := at_inline (line_items (indent + 2) item items (spaces m ++ body)).opens indent i l outer ts
      obtain ⟨s, hs, hdue⟩ := scan_items (by simp) (fun n hn => h n hn _) hline (by omega) hat (.new (by simp))
      exact ⟨s, hs, by simpa [rereadNode, rereadItems, nodeTokens] using hdue.close (by omega) (by omega)⟩
    | false =>
      have hat := at_line (line_items indent item items (spaces m ++ body)).opens (Nat.le_refl indent) i l c outer ts
      obtain ⟨s, hs, hdue⟩ := scan_items (by simp) (fun n hn => h n hn _) hline hm hat .already
      refine ⟨s, ?_, by simpa [rereadNode, rereadItems, nodeTokens] using hdue⟩
      rw [← hs, behind]
      simp [printItems_lead, anchorText, Props.none]

/-- a mapping goes two columns further in -/
theorem reads_map {entries : List (Node × Node)} (hkeys : ∀ e ∈ entries, IsKeyNode e.1)
    (h : ∀ e ∈ entries, ∀ indent, Reads false indent e.2) (compact : Bool) (indent : Nat) :
    Reads compact indent (.map .none entries) := by
  intro outer ts column i l c m body hline hm _ hc hcompact
  cases entries with
  | nil => exact scan_nothing .curly hc.le hline i l compact
  | cons entry entries =>
    have hopens := (line_entries (hkeys entry List.mem_cons_self) (indent + 2) entries (spaces m ++ body)).opens
    cases compact with
    | true =>
      obtain rfl := hcompact rfl
      have hat := at_inline hopens indent i l outer ts
      obtain ⟨s, hs, hdue⟩ := scan_entries (by simp) hkeys (fun e he => h e he _) hline (by omega) hat (.new (by simp))
      exact ⟨s, hs, by simpa [rereadNode, rereadEntries, nodeTokens] using hdue.close (by omega) (by omega)⟩
    | false =>
      have hat := at_line hopens (Nat.le_add_right indent 2) i l c outer ts
      obtain ⟨s, hs, hdue⟩ := scan_entries (by simp) hkeys (fun e he => h e he _) hline (by omega) hat (.new (by simp))
      refine ⟨s, ?_, by simpa [rereadNode, rereadEntries, nodeTokens] using hdue.close (by omega) (by omega)⟩
      rw [← hs, behind]
      simp [printEntries_lead, anchorText, Props.none]

/-- **Every legible node is read as its tokens.** -/
theorem reads_of_legible {n : Node} (h : Legible n) (compact : Bool) (indent : Nat) : Reads compact indent n := by
  induction h generalizing compact indent with
  | scalar h =>
    intro outer ts column i l c m body hline hm hcolumn hc _
    have hscan := scan_scalar h (Nat.lt_succ_of_lt hcolumn) hc.le hline hm outer ts indent i l compact
    simpa [behind, rereadNode, nodeTokens] using hscan
  | seq h ih => exact reads_seq (fun n hn => ih n hn true) compact indent
  | map hkeys h ih => exact reads_map hkeys (fun e he => ih e he false) compact indent

/-! ## Documents -/

theorem ordinary_lead (inLine : Bool) (indent : Nat) : Ordinary (lead inLine indent) := by
  unfold lead
  split_ifs
  · exact .nil
  · exact ordinary_spaces indent

theorem ordinary_items {items : List Node} (h : ∀ n ∈ items, Ordinary (behind true indent (indent + 1) n)) (inLine : Bool) :
    Ordinary (printItems inLine indent items) := by
  induction items generalizing inLine with
  | nil => exact .nil
  | cons item items ih =>
    have hrest := ih (fun n hn => h n (List.mem_cons_of_mem _ hn)) false
    exact (ordinary_lead inLine indent).append (((h item List.mem_cons_self).append hrest).cons (.inr (by decide)))

theorem ordinary_entries {entries : List (Node × Node)} (hkeys : ∀ e ∈ entries, IsKeyNode e.1)
    (h : ∀ e ∈ entries, ∀ column, indent < column → Ordinary (behind false indent column e.2)) (inLine : Bool) :
    Ordinary (printEntries inLine indent entries) := by
  induction entries generalizing inLine with
  | nil => exact .nil
  | cons entry entries ih =>
    obtain ⟨_, value⟩ := entry
    obtain ⟨plain, t, rfl, hname⟩ := hkeys _ List.mem_cons_self
    have hrest := ih (fun e he => hkeys e (List.mem_cons_of_mem _ he)) (fun e he => h e (List.mem_cons_of_mem _ he)) false
    obtain ⟨column, hcolumn, heq⟩ := printEntries_entry hname indent value entries []
    have hfolding : IsFolding false (indent + 2) indent t := .inl hname.canBeSingle
    have hkey := ordinary_scalarText (by omega) hname.readable hfolding
    have hline : Ordinary (printEntries true indent ((.scalar .none plain t, value) :: entries)) := by
      rw [List.append_nil, List.append_nil] at heq
      rw [heq]
      exact hkey.append (((h _ List.mem_cons_self column hcolumn).append hrest).cons (.inr (by decide)))
    cases inLine with
    | true => exact hline
    | false =>
      rw [printEntries_lead]
      exact (ordinary_spaces indent).append hline

theorem ordinary_behind {n : Node} (h : Legible n) (compact : Bool) {column : Nat} (hcolumn : indent < column) :
    Ordinary (behind compact indent column n) := by
  have hspace : (' ' : Char) = '\n' ∨ 0x20 ≤ (' ' : Char).toNat ∧ (' ' : Char).toNat < 0x7F := .inr (by decide)
  have hsquare : Ordinary [' ', '[', ']', '\n'] := by decide
  have hcurly : Ordinary [' ', '{', '}', '\n'] := by decide
  induction h generalizing compact indent column with
  | @scalar plain t h =>
    have hfolding : IsFolding true (indent + 2) (column + 1) t := .inr fun _ => ⟨rfl, by omega⟩
    have htext := ordinary_scalarText (by omega) h hfolding
    exact (htext.append (Ordinary.nil.cons (.inl rfl))).cons hspace
  | @seq items h ih =>
    cases items with
    | nil => exact hsquare
    | cons item items =>
      cases compact with
      | true => exact (ordinary_items (fun n hn => ih n hn true (Nat.lt_succ_self _)) true).cons hspace
      | false => exact (ordinary_items (fun n hn => ih n hn true (Nat.lt_succ_self _)) false).cons (.inl rfl)
  | @map entries hkeys h ih =>
    cases entries with
    | nil => exact hcurly
    | cons entry entries =>
      cases compact with
      | true => exact (ordinary_entries hkeys (fun e he _ hcolumn => ih e he false hcolumn) true).cons hspace
      | false => exact (ordinary_entries hkeys (fun e he _ hcolumn => ih e he false hcolumn) false).cons (.inl rfl)

theorem isAllowed_ordinary {c : Char} (h : c = '\n' ∨ 0x20 ≤ c.toNat ∧ c.toNat < 0x7F) : isAllowed c = true := by
  rcases h with rfl | h
  · rfl
  · have hprint : 0x20 ≤ c.toNat ∧ c.toNat ≤ 0x7E := by omega
    simp [isAllowed, hprint]

/-- an ordinary text is scanned from its start -/
theorem tokens_ordinary {t : Text} (h : Ordinary t) : tokens t = (Scanner.start t).scan := by
  have hallowed : t.all isAllowed = true := List.all_eq_true.2 fun c hc => isAllowed_ordinary (h c hc)
  cases t with
  | nil => rfl
  | cons c r =>
    have hmark : isByteOrderMark c = false := by
      rcases h c List.mem_cons_self with rfl | hc
      · rfl
      · simp only [isByteOrderMark, decide_eq_false_iff_not]
        omega
    simp [tokens, hallowed, hmark]

/-- at the end of the text, what is open is closed -/
theorem scan_end (h : At s 0 [] [0] ts) : s.scan = .ok (.blockEnd :: ts).reverse := by
  obtain ⟨i, l, hnear⟩ := h
  rw [scan, hnear]
  rfl

theorem printNode_map (entry : Node × Node) (entries : List (Node × Node)) :
    printNode (.map .none (entry :: entries)) = printEntries true 0 (entry :: entries) := printEntries_lead 0 entry entries

theorem ordinary_printNode {entries : List (Node × Node)} (hkeys : ∀ e ∈ entries, IsKeyNode e.1)
    (h : ∀ e ∈ entries, Legible e.2) : Ordinary (printNode (.map .none entries)) := by
  cases entries with
  | nil => exact (show Ordinary ['{', '}', '\n'] by decide)
  | cons entry entries =>
    rw [printNode_map]
    exact ordinary_entries hkeys (fun e he _ hcolumn => ordinary_behind (h e he) false hcolumn) true

/-- **The tokens of a printed mapping** are the tokens of its node as it is read. -/
theorem tokens_printNode {entries : List (Node × Node)} (hkeys : ∀ e ∈ entries, IsKeyNode e.1)
    (h : ∀ e ∈ entries, Legible e.2) :
    tokens (printNode (.map .none entries)) = .ok (nodeTokens false (.map .none (rereadEntries 0 entries))) := by
  cases entries with
  | nil => decide +kernel
  | cons entry entries =>
    have hordinary := ordinary_printNode hkeys h
    rw [printNode_map] at hordinary ⊢
    have hend : Line 0 [] := ⟨trivial, rfl⟩
    have hopens := (line_entries (hkeys entry List.mem_cons_self) 0 entries (spaces 0 ++ [])).opens
    have hstart : At (Scanner.start (printEntries true 0 (entry :: entries))) 0
        (printEntries true 0 (entry :: entries) ++ (spaces 0 ++ [])) [] [] := by
      refine ⟨0, 0, ?_⟩
      have hnear := toToken_here hopens 0 0 0 [] [] [none] true
      simp only [spaces, List.replicate_zero, List.append_nil] at hnear ⊢
      rw [approach, Scanner.start, Cursor.start, hnear]
      rfl
    obtain ⟨s, hs, hdue⟩ := scan_entries (by simp) hkeys (fun e he => reads_of_legible (h e he) false 0) hend le_rfl hstart
      (.new rfl)
    rw [tokens_ordinary hordinary, hs, scan_end (hdue.at le_rfl rfl)]
    simp [rereadEntries, nodeTokens]

theorem no_alias_items {items : List Node} (h : ∀ n ∈ items, ∀ bare, (nodeTokens bare n).any isAlias = false) :
    (itemTokens items).any isAlias = false := by
  induction items with
  | nil => rfl
  | cons item items ih =>
    have hrest := ih fun n hn => h n (List.mem_cons_of_mem _ hn)
    simp only [itemTokens, List.any_cons, List.any_append, h item List.mem_cons_self, hrest]
    rfl

theorem no_alias_entries {entries : List (Node × Node)} (hkeys : ∀ e ∈ entries, IsKeyNode e.1)
    (h : ∀ e ∈ entries, ∀ bare, (nodeTokens bare e.2).any isAlias = false) : (entryTokens entries).any isAlias = false := by
  induction entries with
  | nil => rfl
  | cons entry entries ih =>
    obtain ⟨_, value⟩ := entry
    obtain ⟨plain, t, rfl, -⟩ := hkeys _ List.mem_cons_self
    have hrest := ih (fun e he => hkeys e (List.mem_cons_of_mem _ he)) fun e he => h e (List.mem_cons_of_mem _ he)
    have hvalue := h _ List.mem_cons_self true
    simp only [entryTokens, nodeTokens, List.any_cons, List.any_append, List.any_nil, hvalue, hrest]
    rfl

theorem no_alias_map {entries : List (Node × Node)} (hkeys : ∀ e ∈ entries, IsKeyNode e.1)
    (h : ∀ e ∈ entries, ∀ bare, (nodeTokens bare e.2).any isAlias = false) (bare : Bool) :
    (nodeTokens bare (.map .none entries)).any isAlias = false := by
  cases entries with
  | nil => rfl
  | cons entry entries => simpa [nodeTokens, isAlias] using no_alias_entries hkeys h

/-- a legible node has no aliases -/
theorem no_alias {n : Node} (h : Legible n) (bare : Bool) :
    (nodeTokens bare n).any isAlias = false := by
  induction h generalizing bare with
  | scalar h => rfl
  | @seq items h ih =>
    cases items with
    | nil => rfl
    | cons item items =>
      have hitems := no_alias_items ih
      cases bare <;> simpa [nodeTokens, isAlias] using hitems
  | map hkeys h ih => exact no_alias_map hkeys ih bare

end RepoLens.Yaml
