import Mathlib.Tactic
import RepoLens.Proofs.Entries
import RepoLens.Proofs.Hex
import RepoLens.Proofs.Json.Reader
import RepoLens.Proofs.Unmarked
import RepoLens.Proofs.Utf8
/-!
What is written as JSON is read again. Each piece of a written text is whole tokens, whatever comes before it, and the tokens
of a value are that value, whatever stands around it; so both machines of the reader go through a written text piece by piece.

Results:
- `scan_stringChar`: one character of a string, as it is written, is its code units;
- `written_of_plain`: what is written of a value made of texts, nulls, lists and mappings is ordinary text with the ink of the
  value, and its tokens are the value;
- `read_written`: it reads back as the value.
-/
namespace RepoLens.Json

open Text
open Value (texts texts_cons assign_new)

/-! ## Scanning what is written -/

/-- a text that is whole tokens, whatever tokens come before -/
def Scans (t : Text) (tokens : List Token) : Prop :=
  ∀ before, t.foldlM Scan.step ⟨before, .between⟩ = some ⟨before ++ tokens, .between⟩

theorem Scans.nil : Scans [] [] := fun before => by simp

theorem Scans.append {s t : Text} {ms ns : List Token} (hs : Scans s ms) (ht : Scans t ns) : Scans (s ++ t) (ms ++ ns) := by
  intro before
  rw [List.foldlM_append, hs before]
  exact (ht (before ++ ms)).trans (by rw [List.append_assoc])

theorem scans_newLine (level : Nat) : Scans (newLine level) [] := by
  have hspaces : ∀ n, Scans (spaces n) [] := by
    intro n before
    induction n with
    | zero => simp [spaces]
    | succ n ih =>
      rw [spaces, List.replicate_succ, List.foldlM_cons]
      exact ih
  intro before
  rw [newLine, List.foldlM_cons]
  exact hspaces (2 * level) before

/-! ### Strings -/

theorem scan_unit {before : List Token} {us : List Nat} {ds : Text} {n m : Nat} (hne : ds ≠ [])
    (h : hexAfter n ds = some m) :
    ds.foldlM Scan.step ⟨before, .unit us ds.length n⟩ = some ⟨before, .chars (us ++ [m])⟩ := by
  induction ds generalizing n with
  | nil => exact absurd rfl hne
  | cons c ds ih =>
    rw [hexAfter, List.foldlM_cons] at h
    obtain ⟨k, hk, hrest⟩ := Option.bind_eq_some_iff.1 h
    obtain ⟨d, hd, rfl⟩ := Option.map_eq_some_iff.1 hk
    rw [List.foldlM_cons, Scan.step, hd]
    cases ds with
    | nil =>
      obtain rfl : 16 * n + d = m := by simpa using hrest
      rfl
    | cons e ds => exact ih (by simp) hrest

theorem scan_unitEscape {before : List Token} {us : List Nat} {n : Nat} (h : n < 0x10000) :
    (unitEscape n).foldlM Scan.step ⟨before, .chars us⟩ = some ⟨before, .chars (us ++ [n])⟩ := by
  have hlen : (hex 4 n).length = 4 := length_hex (by omega) h
  have hne : hex 4 n ≠ [] := by
    intro hnil
    rw [hnil] at hlen
    exact absurd hlen (by simp)
  have hdigits : (hex 4 n).foldlM Scan.step ⟨before, .unit us (hex 4 n).length 0⟩ = _ := scan_unit hne (hexAfter_hex 4 n)
  rw [hlen] at hdigits
  exact hdigits

theorem units_of_lt {c : Char} (h : c.toNat < 0x10000) : units c = [c.toNat] := if_pos h

/-- one character of a string, as it is written, is its code units -/
theorem scan_stringChar (before : List Token) (us : List Nat) (c : Char) :
    (stringChar c).foldlM Scan.step ⟨before, .chars us⟩ = some ⟨before, .chars (us ++ units c)⟩ := by
  have hmax := (Utf8.toNat_bounds c).1
  unfold stringChar
  split_ifs with hquote hn hr ht hb hf hplain hunit
  · simp only [Bool.or_eq_true, decide_eq_true_eq] at hquote
    rcases hquote with rfl | rfl
    · rfl
    · rfl
  · rw [hn]
    rfl
  · rw [hr]
    rfl
  · rw [ht]
    rfl
  · rw [units_of_lt (by omega), hb]
    rfl
  · rw [units_of_lt (by omega), hf]
    rfl
  · simp only [Bool.or_eq_true, decide_eq_true_eq, not_or] at hquote
    simp only [Bool.and_eq_true, decide_eq_true_eq] at hplain
    have hlow : ¬ c.toNat < 0x20 := by omega
    simp [Scan.step, hquote.1, hquote.2, hlow]
  · rw [units_of_lt hunit]
    exact scan_unitEscape hunit
  · have hhigh : 0xD800 + (c.toNat - 0x10000) / 1024 < 0x10000 := by omega
    have hlow : 0xDC00 + (c.toNat - 0x10000) % 1024 < 0x10000 := by omega
    rw [List.foldlM_append, scan_unitEscape hhigh, Option.bind_eq_bind, Option.bind_some, scan_unitEscape hlow, units,
      if_neg hunit, List.append_assoc, List.singleton_append]

/-- the code units of a character are read as the character -/
theorem text_units (c : Char) (r : List Nat) : text? (units c ++ r) = (text? r).map (c :: ·) := by
  obtain ⟨hmax, hpair⟩ := Utf8.toNat_bounds c
  rw [units]
  split_ifs with h
  · have hhigh : (0xD800 ≤ c.toNat && c.toNat < 0xDC00) = false := by
      simp only [Bool.and_eq_false_iff, decide_eq_false_iff_not]
      omega
    have hlow : (0xDC00 ≤ c.toNat && c.toNat < 0xE000 || 0x10000 ≤ c.toNat) = false := by
      simp only [Bool.or_eq_false_iff, Bool.and_eq_false_iff, decide_eq_false_iff_not]
      omega
    rw [List.singleton_append, text?.eq_def]
    simp only [hhigh, hlow, Char.ofNat_toNat, Bool.false_eq_true, if_false]
  · have hhigh : (0xD800 ≤ 0xD800 + (c.toNat - 0x10000) / 1024 && 0xD800 + (c.toNat - 0x10000) / 1024 < 0xDC00) = true := by
      simp only [Bool.and_eq_true, decide_eq_true_eq]
      omega
    have hlow : (0xDC00 ≤ 0xDC00 + (c.toNat - 0x10000) % 1024 && 0xDC00 + (c.toNat - 0x10000) % 1024 < 0xE000) = true := by
      simp only [Bool.and_eq_true, decide_eq_true_eq]
      omega
    have hvalue : 0x10000 + (0xD800 + (c.toNat - 0x10000) / 1024 - 0xD800) * 1024 +
        (0xDC00 + (c.toNat - 0x10000) % 1024 - 0xDC00) = c.toNat := by omega
    rw [List.cons_append, List.singleton_append, text?.eq_def]
    simp only [hhigh, if_true, hlow, hvalue, Char.ofNat_toNat]

theorem text_flatMap_units (t : Text) : text? (t.flatMap units) = some t := by
  induction t with
  | nil => rfl
  | cons c t ih => rw [List.flatMap_cons, text_units, ih]; rfl

theorem scan_stringChars (before : List Token) (us : List Nat) (t : Text) :
    (t.flatMap stringChar).foldlM Scan.step ⟨before, .chars us⟩ = some ⟨before, .chars (us ++ t.flatMap units)⟩ := by
  induction t generalizing us with
  | nil => simp
  | cons c t ih =>
    rw [List.flatMap_cons, List.foldlM_append, scan_stringChar]
    refine (ih _).trans ?_
    rw [List.flatMap_cons, List.append_assoc]

theorem scans_string (t : Text) : Scans (string t) [.item (.text t)] := by
  intro before
  have hopen : Scan.step ⟨before, .between⟩ '"' = some ⟨before, .chars []⟩ := rfl
  have hclose : Scan.step ⟨before, .chars (t.flatMap units)⟩ '"' = some ⟨before ++ [.item (.text t)], .between⟩ := by
    rw [Scan.step]
    simp only [if_true, text_flatMap_units]
    rfl
  rw [string, List.foldlM_cons, hopen]
  simp only [Option.bind_eq_bind, Option.bind_some, List.foldlM_append, scan_stringChars, List.nil_append, List.foldlM_cons,
    hclose]
  rfl

/-! ### Pieces -/

/-- ordinary text that is whole tokens and has so much ink -/
structure Piece (t : Text) (tokens : List Token) (ink : Nat) : Prop where
  scans : Scans t tokens
  ordinary : Ordinary t
  ink_eq : Text.ink t = ink

theorem Piece.append {s t : Text} {ms ns : List Token} {m n : Nat} (hs : Piece s ms m) (ht : Piece t ns n) :
    Piece (s ++ t) (ms ++ ns) (m + n) :=
  ⟨hs.scans.append ht.scans, hs.ordinary.append ht.ordinary, by rw [ink_append, hs.ink_eq, ht.ink_eq]⟩

theorem piece_newLine (level : Nat) : Piece (newLine level) [] 0 := by
  refine ⟨scans_newLine level, ?_, ?_⟩
  · intro c hc
    rcases List.mem_cons.1 hc with rfl | hc
    · exact Or.inl rfl
    · rw [(List.mem_replicate.1 hc).2]
      exact Or.inr (by decide)
  · have hspaces : inked (spaces (2 * level)) = [] := by simp [inked, spaces, isInk]
    rw [newLine, ink_cons, ink, hspaces]
    rfl

theorem piece_openList : Piece ['['] [.openList] 1 := ⟨fun _ => rfl, by decide, rfl⟩
theorem piece_closeList : Piece [']'] [.closeList] 1 := ⟨fun _ => rfl, by decide, rfl⟩
theorem piece_openMap : Piece ['{'] [.openMap] 1 := ⟨fun _ => rfl, by decide, rfl⟩
theorem piece_closeMap : Piece ['}'] [.closeMap] 1 := ⟨fun _ => rfl, by decide, rfl⟩
theorem piece_comma : Piece [','] [.comma] 1 := ⟨fun _ => rfl, by decide, rfl⟩
theorem piece_colon : Piece ": " [.colon] 1 := ⟨fun _ => rfl, by decide, rfl⟩
theorem piece_null : Piece "null" [.item .null] 4 := ⟨fun _ => rfl, by decide, rfl⟩

/-- every character of an escape is a backslash, a small u, or a hexadecimal digit -/
theorem mem_unitEscape {n : Nat} {c : Char} (h : c ∈ unitEscape n) : c = '\\' ∨ c = 'u' ∨ ∃ d < 16, c = Nat.digitChar d := by
  rcases List.mem_cons.1 h with rfl | h
  · exact Or.inl rfl
  · rcases List.mem_cons.1 h with rfl | h
    · exact Or.inr (Or.inl rfl)
    · rcases List.mem_append.1 h with h | h
      · exact Or.inr (Or.inr ⟨0, by omega, (List.mem_replicate.1 h).2⟩)
      · exact Or.inr (Or.inr (toDigits_digitChar n c h))

theorem ordinary_unitEscape (n : Nat) : Ordinary (unitEscape n) := by
  have hdigit : ∀ d < 16, 0x20 ≤ (Nat.digitChar d).toNat ∧ (Nat.digitChar d).toNat < 0x7F := by decide
  intro c hc
  rcases mem_unitEscape hc with rfl | rfl | ⟨d, hd, rfl⟩
  · exact Or.inr (by decide)
  · exact Or.inr (by decide)
  · exact Or.inr (hdigit d hd)

theorem ordinary_stringChar (c : Char) : Ordinary (stringChar c) := by
  unfold stringChar
  split_ifs with hquote _ _ _ _ _ hplain
  · simp only [Bool.or_eq_true, decide_eq_true_eq] at hquote
    rcases hquote with rfl | rfl
    · decide
    · decide
  · decide
  · decide
  · decide
  · decide
  · decide
  · simp only [Bool.and_eq_true, decide_eq_true_eq] at hplain
    intro d hd
    rw [List.mem_singleton.1 hd]
    exact Or.inr hplain
  · exact ordinary_unitEscape _
  · exact (ordinary_unitEscape _).append (ordinary_unitEscape _)

theorem piece_string (t : Text) : Piece (string t) [.item (.text t)] (Text.ink (string t)) := by
  refine ⟨scans_string t, ?_, rfl⟩
  intro c hc
  rcases List.mem_cons.1 hc with rfl | hc
  · exact Or.inr (by decide)
  · rcases List.mem_append.1 hc with hc | hc
    · obtain ⟨d, -, hd⟩ := List.mem_flatMap.1 hc
      exact ordinary_stringChar d c hd
    · rw [List.mem_singleton.1 hc]
      exact Or.inr (by decide)

/-! ## What is written of a value -/

mutual

/-- the ink of a value: its marks and the strings in it -/
def cost : Value → Nat
  | .null => 4
  | .text t => Text.ink (string t)
  | .list _ vs => 1 + costItems vs + if vs.isEmpty then 1 else 0
  | .map _ es => 1 + costEntries es + if es.isEmpty then 1 else 0
  | _ => 0

/-- the ink of items, each with the mark that follows it -/
def costItems : List Value → Nat
  | [] => 0
  | v :: r => cost v + 1 + costItems r

/-- the ink of entries, each with its colon and the mark that follows it -/
def costEntries : List (Value × Value) → Nat
  | [] => 0
  | (k, v) :: r => cost k + 1 + (cost v + 1) + costEntries r

end

/-- values made of texts of some kind, nulls, lists, and mappings with such texts as keys, each key once -/
inductive Plain (P : Text → Prop) : Value → Prop where
  | null : Plain P .null
  | text {t : Text} (h : P t) : Plain P (.text t)
  | list {vs : List Value} (h : ∀ v ∈ vs, Plain P v) : Plain P (.list none vs)
  | map {es : List (Text × Value)} (hkeys : ∀ e ∈ es, P e.1) (hvalues : ∀ e ∈ es, Plain P e.2)
    (hnodup : (es.map Prod.fst).Nodup) : Plain P (.map none (texts es))

/-- tokens that are a whole value, whatever stands around it -/
def Parses (tokens : List Token) (v : Value) : Prop :=
  ∀ stack, tokens.foldlM Awaited.step (.value stack) = some (.more v stack)

/-- at the start of a list a value reads as everywhere else -/
theorem Parses.first {tokens : List Token} {v : Value} (h : Parses tokens v) (stack : List Frame) :
    tokens.foldlM Awaited.step (.first stack) = some (.more v (.list [] :: stack)) := by
  have hv := h (.list [] :: stack)
  cases tokens with
  | nil => simp at hv
  | cons m ms =>
    rw [List.foldlM_cons] at hv ⊢
    cases m with
    | closeList => simp [Awaited.step, Awaited.begin] at hv
    | _ => exact hv

/-- a text that is written of a value, at a level of indentation -/
def Written (level : Nat) (v : Value) (t : Text) : Prop :=
  render level v = .ok t ∧ ∃ tokens, Piece t tokens (cost v) ∧ Parses tokens v

/-- a text that is written of the items of a list after the first, and their tokens up to the end of the list -/
def ItemsWritten (level : Nat) (vs : List Value) (t : Text) : Prop :=
  renderItems level vs = .ok t ∧ ∃ tokens, Piece t tokens (costItems vs) ∧ ∀ v ws stack,
    (tokens ++ [Token.closeList]).foldlM Awaited.step (.more v (.list ws :: stack)) =
      some (.more (.list none (ws ++ v :: vs)) stack)

/-- a text that is written of the entries of a mapping after the first, and their tokens up to the end of the mapping -/
def EntriesWritten (level : Nat) (es : List (Text × Value)) (t : Text) : Prop :=
  renderEntries level (texts es) = .ok t ∧ ∃ tokens, Piece t tokens (costEntries (texts es)) ∧ ∀ k v fs stack,
    ((fs ++ (k, v) :: es).map Prod.fst).Nodup →
      (tokens ++ [Token.closeMap]).foldlM Awaited.step (.more v (.map (texts fs) k :: stack)) =
        some (.more (.map none (texts (fs ++ (k, v) :: es))) stack)

theorem itemsWritten {level : Nat} {vs : List Value} (h : ∀ v ∈ vs, ∃ t, Written level v t) :
    ∃ t, ItemsWritten level vs t := by
  induction vs with
  | nil =>
    refine ⟨[], rfl, [], ⟨Scans.nil, fun c hc => absurd hc List.not_mem_nil, rfl⟩, fun v ws stack => ?_⟩
    rfl
  | cons u us ih =>
    obtain ⟨s, hs, ms, hpiece, hparse⟩ := h u List.mem_cons_self
    obtain ⟨t, ht, ns, hpieces, hparses⟩ := ih fun v hv => h v (List.mem_cons_of_mem u hv)
    refine ⟨',' :: (newLine level ++ (s ++ t)), ?_, .comma :: ([] ++ (ms ++ ns)), ?_, fun v ws stack => ?_⟩
    · rw [renderItems, hs, ht]
      rfl
    · have hall := piece_comma.append ((piece_newLine level).append (hpiece.append hpieces))
      have hcost : 1 + (0 + (cost u + costItems us)) = costItems (u :: us) := by rw [costItems]; omega
      rw [hcost] at hall
      exact hall
    · have hcomma : Awaited.step (.more v (.list ws :: stack)) .comma = some (.value (.list (ws ++ [v]) :: stack)) := rfl
      have hrest := hparses u (ws ++ [v]) stack
      rw [List.append_assoc] at hrest
      rw [List.cons_append, List.nil_append, List.foldlM_cons, hcomma, List.append_assoc, Option.bind_eq_bind,
        Option.bind_some, List.foldlM_append, hparse]
      exact hrest

theorem entriesWritten {level : Nat} {es : List (Text × Value)} (h : ∀ e ∈ es, ∃ t, Written level e.2 t) :
    ∃ t, EntriesWritten level es t := by
  induction es with
  | nil =>
    refine ⟨[], rfl, [], ⟨Scans.nil, fun c hc => absurd hc List.not_mem_nil, rfl⟩, fun k v fs stack hkeys => ?_⟩
    have hnew : k ∉ fs.map Prod.fst := by
      rw [List.map_append, List.nodup_append] at hkeys
      exact fun hk => hkeys.2.2 k hk k (by simp) rfl
    have hclose : Awaited.step (.more v (.map (texts fs) k :: stack)) .closeMap =
        some (.more (.map none (Value.assign (.text k) v (texts fs))) stack) := rfl
    rw [List.nil_append, List.foldlM_cons, hclose, assign_new hnew]
    rfl
  | cons e es ih =>
    obtain ⟨s, hs, ms, hpiece, hparse⟩ := h e List.mem_cons_self
    obtain ⟨t, ht, ns, hpieces, hparses⟩ := ih fun f hf => h f (List.mem_cons_of_mem e hf)
    refine ⟨',' :: (newLine level ++ (string e.1 ++ (": " ++ (s ++ t)))), ?_,
      .comma :: ([] ++ ([.item (.text e.1)] ++ ([.colon] ++ (ms ++ ns)))), ?_, fun k v fs stack hkeys => ?_⟩
    · rw [texts_cons, renderEntries, hs, ht]
      rfl
    · have hall := piece_comma.append ((piece_newLine level).append
        ((piece_string e.1).append (piece_colon.append (hpiece.append hpieces))))
      have hcost : 1 + (0 + (Text.ink (string e.1) + (1 + (cost e.2 + costEntries (texts es))))) =
          costEntries (texts (e :: es)) := by
        rw [texts_cons, costEntries, cost]
        omega
      rw [hcost] at hall
      exact hall
    · have hnew : k ∉ fs.map Prod.fst := by
        rw [List.map_append, List.nodup_append] at hkeys
        exact fun hk => hkeys.2.2 k hk k (by simp) rfl
      have hcomma : Awaited.step (.more v (.map (texts fs) k :: stack)) .comma =
          some (.key (texts (fs ++ [(k, v)])) false stack) := by
        rw [← assign_new hnew]
        rfl
      have hrest := hparses e.1 e.2 (fs ++ [(k, v)]) stack (by simpa using hkeys)
      rw [List.append_assoc] at hrest
      rw [List.cons_append, List.foldlM_cons, hcomma]
      simp only [List.nil_append, List.append_assoc, List.cons_append, Option.bind_eq_bind, Option.bind_some,
        List.foldlM_cons, Awaited.step]
      rw [List.foldlM_append, hparse]
      exact hrest

/-- **What is written of a value** made of texts, nulls, lists and mappings is ordinary text with the ink of the value, and its
tokens are the value. -/
theorem written_of_plain {P : Text → Prop} {v : Value} (h : Plain P v) (level : Nat) : ∃ t, Written level v t := by
  induction h generalizing level with
  | null => exact ⟨"null", rfl, _, piece_null, fun stack => rfl⟩
  | @text t _ => exact ⟨string t, rfl, _, piece_string t, fun stack => rfl⟩
  | @list vs _ ih =>
    cases vs with
    | nil => exact ⟨"[]", rfl, _, piece_openList.append piece_closeList, fun stack => rfl⟩
    | cons u us =>
      obtain ⟨s, hs, ms, hpiece, hparse⟩ := ih u List.mem_cons_self (level + 1)
      obtain ⟨t, ht, ns, hpieces, hparses⟩ := itemsWritten fun v hv => ih v (List.mem_cons_of_mem u hv) (level + 1)
      have hall := piece_openList.append ((piece_newLine (level + 1)).append
        (hpiece.append (hpieces.append ((piece_newLine level).append piece_closeList))))
      have hcost : 1 + (0 + (cost u + (costItems us + (0 + 1)))) = cost (.list none (u :: us)) := by
        rw [cost, costItems, List.isEmpty_cons]
        simp only [Bool.false_eq_true, if_false]
        omega
      rw [hcost] at hall
      refine ⟨_, ?_, _, hall, fun stack => ?_⟩
      · rw [render, hs, ht]
        rfl
      · have hopen : Awaited.step (.value stack) .openList = some (.first stack) := rfl
        rw [List.singleton_append, List.foldlM_cons, hopen]
        simp only [List.nil_append, Option.bind_eq_bind, Option.bind_some]
        rw [List.foldlM_append, hparse.first]
        exact hparses u [] stack
  | @map es _ _ hnodup ih =>
    cases es with
    | nil => exact ⟨['{', '}'], rfl, _, piece_openMap.append piece_closeMap, fun stack => rfl⟩
    | cons e es =>
      obtain ⟨s, hs, ms, hpiece, hparse⟩ := ih e List.mem_cons_self (level + 1)
      obtain ⟨t, ht, ns, hpieces, hparses⟩ := entriesWritten fun f hf => ih f (List.mem_cons_of_mem e hf) (level + 1)
      have hall := piece_openMap.append ((piece_newLine (level + 1)).append ((piece_string e.1).append
        (piece_colon.append (hpiece.append (hpieces.append ((piece_newLine level).append piece_closeMap))))))
      have hcost : 1 + (0 + (Text.ink (string e.1) + (1 + (cost e.2 + (costEntries (texts es) + (0 + 1)))))) =
          cost (.map none (texts (e :: es))) := by
        rw [texts_cons, cost, costEntries, cost, List.isEmpty_cons]
        simp only [Bool.false_eq_true, if_false]
        omega
      rw [hcost] at hall
      refine ⟨_, ?_, _, hall, fun stack => ?_⟩
      · rw [texts_cons, render, hs, ht]
        rfl
      · have hopen : Awaited.step (.value stack) .openMap = some (.key [] true stack) := rfl
        rw [List.singleton_append, List.foldlM_cons, hopen]
        simp only [List.nil_append, List.singleton_append, Option.bind_eq_bind, Option.bind_some, List.foldlM_cons,
          Awaited.step]
        rw [List.foldlM_append, hparse]
        exact hparses e.1 e.2 [] stack (by simpa using hnodup)

theorem read_of_tokens {t : Text} {tokens : List Token} {v : Value} (hs : Scans t tokens) (hp : Parses tokens v) :
    read t = some v := by
  have htokens : tokens? t = some tokens := by
    rw [tokens?, hs []]
    rfl
  rw [read, htokens]
  simp only [Option.bind_eq_bind, Option.bind_some, hp []]
  rfl

/-- **What is written reads back**, also with a newline behind it. -/
theorem read_written {level : Nat} {v : Value} {t : Text} (h : Written level v t) : read (t ++ ['\n']) = some v := by
  obtain ⟨-, tokens, hpiece, hparse⟩ := h
  have hnewline : Scans ['\n'] [] := fun before => by simp; rfl
  have hscans := hpiece.scans.append hnewline
  rw [List.append_nil] at hscans
  exact read_of_tokens hscans hparse

end RepoLens.Json
