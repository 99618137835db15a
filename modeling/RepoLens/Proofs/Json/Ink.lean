import Mathlib.Tactic
import RepoLens.Proofs.Json.RoundTrip
/-!
The least ink of a JSON text. Both machines of the reader are given an account of the ink that they have seen: a character adds
no more to a scan than its own ink, and a token no more to the values that are read. So there is no text of less ink for a
value than the one that is written of it, as long as the text is ordinary; in other text a character may stand for itself
where an ordinary one needs an escape.

Results:
- `Scan.step_cost`, `Awaited.step_cost`: one step of each machine;
- `cost_le_ink`: text that reads as a value has at least as much ink as what is written of the value.
-/
namespace RepoLens.Json

open Text

/-! ## Accounts -/

/-- the ink that a code unit takes at least -/
def unitCost (n : Nat) : Nat :=
  if n = 0x20 then 0
  else if n = 0x22 ∨ n = 0x5C ∨ n = 8 ∨ n = 9 ∨ n = 10 ∨ n = 12 ∨ n = 13 then 2
  else if 0x20 < n ∧ n < 0x7F then 1
  else 6

def Token.cost : Token → Nat
  | .item v => Json.cost v
  | _ => 1

/-- the ink that a token in hand has taken at least -/
def Mode.cost : Mode → Nat
  | .between | .number _ => 0
  | .word left v => Json.cost v - ink left
  | .chars us => 1 + (us.map unitCost).sum
  | .escape us => 2 + (us.map unitCost).sum
  | .unit us left _ => 3 + (4 - left) + (us.map unitCost).sum

/-- the ink that a scan has taken at least -/
def Scan.cost (s : Scan) : Nat := (s.tokens.map Token.cost).sum + s.mode.cost

theorem sum_map_concat {α : Type} (f : α → Nat) (l : List α) (a : α) : ((l ++ [a]).map f).sum = (l.map f).sum + f a := by
  rw [List.map_append, List.sum_append, List.map_singleton, List.sum_singleton]

/-- if each step costs no more than its symbol is worth, a run costs no more than its symbols -/
theorem foldlM_cost {σ α : Type} {step : σ → α → Option σ} {size : σ → Nat} {worth : α → Nat} {l : List α}
    (h : ∀ a ∈ l, ∀ s s', step s a = some s' → size s' ≤ size s + worth a) {s s' : σ} (hrun : l.foldlM step s = some s') :
    size s' ≤ size s + (l.map worth).sum := by
  induction l generalizing s with
  | nil =>
    obtain rfl : s = s' := by simpa using hrun
    simp
  | cons a l ih =>
    rw [List.foldlM_cons] at hrun
    obtain ⟨s₁, hstep, hrest⟩ := Option.bind_eq_some_iff.1 hrun
    have hfirst := h a List.mem_cons_self s s₁ hstep
    have hlater := ih (fun b hb => h b (List.mem_cons_of_mem a hb)) hrest
    rw [List.map_cons, List.sum_cons]
    omega

/-! ### Scanning -/

theorem ink_eq_sum (t : Text) : ink t = (t.map fun c => ink [c]).sum := by
  induction t with
  | nil => rfl
  | cons c t ih => rw [List.map_cons, List.sum_cons, ← ih, ← ink_append]; rfl

theorem ink_unitEscape {n : Nat} (h : n < 0x10000) : ink (unitEscape n) ≤ 6 := by
  have hlen : (hex 4 n).length = 4 := length_hex (by omega) h
  have hle : ink (unitEscape n) ≤ (unitEscape n).length := List.length_filter_le _ _
  rw [unitEscape, List.length_cons, List.length_cons, hlen] at hle
  exact hle

/-- a character is written with the least ink -/
theorem ink_stringChar {c : Char} (h : c.toNat < 0x10000) : ink (stringChar c) ≤ unitCost c.toNat := by
  unfold stringChar
  split_ifs with hquote hn hr ht hb hf hplain
  · simp only [Bool.or_eq_true, decide_eq_true_eq] at hquote
    rcases hquote with rfl | rfl
    · decide
    · decide
  · rw [hn]
    decide
  · rw [hr]
    decide
  · rw [ht]
    decide
  · rw [hb]
    decide
  · rw [hf]
    decide
  · simp only [Bool.and_eq_true, decide_eq_true_eq] at hplain
    by_cases hspace : c.toNat = 0x20
    · obtain rfl : c = ' ' := Char.toNat_inj.1 hspace
      decide
    · have hle : ink [c] ≤ 1 := List.length_filter_le _ _
      have hcost : 1 ≤ unitCost c.toNat := by
        unfold unitCost
        split_ifs <;> omega
      omega
  · have hle := ink_unitEscape h
    have hcost : 6 ≤ unitCost c.toNat := by
      have hchar : ∀ d : Char, c ≠ d → c.toNat ≠ d.toNat := fun d hd heq => hd (Char.toNat_inj.1 heq)
      have h9 : c.toNat ≠ 9 := hchar '\t' ht
      have h10 : c.toNat ≠ 10 := hchar '\n' hn
      have h13 : c.toNat ≠ 13 := hchar '\r' hr
      simp only [Bool.and_eq_true, decide_eq_true_eq] at hplain
      unfold unitCost
      split_ifs <;> omega
    omega

theorem unitCost_le (n : Nat) : unitCost n ≤ 6 := by
  unfold unitCost
  split_ifs <;> omega

theorem ink_stringChar_le (c : Char) : ink (stringChar c) ≤ 12 := by
  by_cases hunit : c.toNat < 0x10000
  · have hle := ink_stringChar hunit
    have hcost := unitCost_le c.toNat
    omega
  · have hmax := (Utf8.toNat_bounds c).1
    have hhigh : ink (unitEscape (0xD800 + (c.toNat - 0x10000) / 1024)) ≤ 6 := ink_unitEscape (by omega)
    have hlow : ink (unitEscape (0xDC00 + (c.toNat - 0x10000) % 1024)) ≤ 6 := ink_unitEscape (by omega)
    have hchar : ∀ d : Char, d.toNat < 0x10000 → c ≠ d := fun d hd heq => hunit (heq ▸ hd)
    have hwritten : stringChar c = unitEscape (0xD800 + (c.toNat - 0x10000) / 1024) ++
        unitEscape (0xDC00 + (c.toNat - 0x10000) % 1024) := by
      have hplain : (0x20 ≤ c.toNat && c.toNat < 0x7F) = false := by
        simp only [Bool.and_eq_false_iff, decide_eq_false_iff_not]
        omega
      have h8 : c.toNat ≠ 8 := by omega
      have h12 : c.toNat ≠ 12 := by omega
      simp [stringChar, hchar '"' (by decide), hchar '\\' (by decide), hchar '\n' (by decide), hchar '\r' (by decide),
        hchar '\t' (by decide), hplain, h8, h12, hunit]
    rw [hwritten, ink_append]
    omega

/-- a string is its characters between two quotation marks -/
theorem cost_text (t : Text) : Json.cost (.text t) = 2 + ink (t.flatMap stringChar) := by
  have hopen : ink (string t) = ink ['"'] + ink (t.flatMap stringChar ++ ['"']) := ink_append ['"'] _
  have hmark : ink ['"'] = 1 := rfl
  rw [Json.cost, hopen, ink_append, hmark]
  omega

/-- code units of a text have at least the ink that is written of the text -/
theorem text_cost {us : List Nat} {t : Text} (h : text? us = some t) :
    ink (t.flatMap stringChar) ≤ (us.map unitCost).sum := by
  fun_induction text? us generalizing t with
  | case1 =>
    rw [← Option.some.inj h]
    exact Nat.zero_le _
  | case2 => simp at h
  | case3 n hhigh m r hlow ih =>
    obtain ⟨u, hu, rfl⟩ := Option.map_eq_some_iff.1 h
    simp only [Bool.and_eq_true, decide_eq_true_eq] at hhigh hlow
    have hrest := ih hu
    have hpair := ink_stringChar_le (Char.ofNat (0x10000 + (n - 0xD800) * 1024 + (m - 0xDC00)))
    have hcosts : unitCost n = 6 ∧ unitCost m = 6 := by
      unfold unitCost
      constructor <;> split_ifs <;> omega
    rw [List.flatMap_cons, ink_append, List.map_cons, List.map_cons, List.sum_cons, List.sum_cons, hcosts.1, hcosts.2]
    omega
  | case4 => simp at h
  | case5 => simp at h
  | case6 n r hhigh hlow ih =>
    obtain ⟨u, hu, rfl⟩ := Option.map_eq_some_iff.1 h
    simp only [Bool.or_eq_true, Bool.and_eq_true, decide_eq_true_eq] at hhigh hlow
    have hrest := ih hu
    have hvalid : n.isValidChar := by
      unfold Nat.isValidChar
      omega
    have hnat : (Char.ofNat n).toNat = n := by
      rw [Char.ofNat, dif_pos hvalid]
      rfl
    have hfirst := ink_stringChar (c := Char.ofNat n) (by omega)
    rw [hnat] at hfirst
    rw [List.flatMap_cons, ink_append, List.map_cons, List.sum_cons]
    omega

/-- a number takes no ink that is counted, so what it stands for may be written in any way -/
theorem number_cost {t : Text} {v : Value} (h : number? t = some v) : Json.cost v = 0 := by
  simp only [number?, Option.bind_eq_bind, Option.bind_eq_some_iff] at h
  obtain ⟨_, -, _, -, _, -, h⟩ := h
  split at h
  · rw [← Option.some.inj h, cost]
    all_goals simp
  · rw [← Option.some.inj h, cost]
    all_goals simp

theorem ink_char {c : Char} (hspace : c ≠ ' ') (hnewline : c ≠ '\n') : ink [c] = 1 := by
  simp [ink, inked, isInk, hspace, hnewline]

theorem start_cost {tokens : List Token} {c : Char} {s : Scan} (h : Scan.start tokens c = some s) :
    s.cost ≤ (tokens.map Token.cost).sum + ink [c] := by
  unfold Scan.start at h
  split_ifs at h with hblank hquote hnumber
  · rw [← Option.some.inj h]
    exact Nat.le_add_right _ _
  · rw [← Option.some.inj h, hquote]
    exact le_refl _
  · rw [← Option.some.inj h]
    exact Nat.le_add_right _ _
  · simp only [Bool.or_eq_true, decide_eq_true_eq, not_or] at hblank
    have hink := ink_char hblank.1.1.1 hblank.1.1.2
    split at h
    · rename_i left v hword
      have hletters : Json.cost v - ink left ≤ 1 := by
        unfold word? at hword
        split_ifs at hword <;> obtain ⟨rfl, rfl⟩ := Prod.mk.inj (Option.some.inj hword) <;> decide
      rw [← Option.some.inj h]
      simp only [Scan.cost, Mode.cost]
      omega
    · obtain ⟨m, hm, rfl⟩ := Option.map_eq_some_iff.1 h
      have hmark : m.cost = 1 := by
        unfold mark? at hm
        split_ifs at hm <;> rw [← Option.some.inj hm] <;> rfl
      simp only [Scan.cost, Mode.cost, sum_map_concat, hmark]
      omega

theorem escaped_cost {c : Char} {n : Nat} (h : escaped? c = some n) : unitCost n ≤ 2 ∧ ink [c] = 1 := by
  unfold escaped? at h
  split_ifs at h with hsame hn hr ht hb hf
  · simp only [Bool.or_eq_true, decide_eq_true_eq] at hsame
    rw [← Option.some.inj h]
    rcases hsame with (rfl | rfl) | rfl <;> decide
  · rw [← Option.some.inj h, hn]
    decide
  · rw [← Option.some.inj h, hr]
    decide
  · rw [← Option.some.inj h, ht]
    decide
  · rw [← Option.some.inj h, hb]
    decide
  · rw [← Option.some.inj h, hf]
    decide

/-- an ordinary character of a string that stands for itself -/
theorem plain_cost {c : Char} (hc : 0x20 ≤ c.toNat ∧ c.toNat < 0x7F) (hquote : c ≠ '"') (hslash : c ≠ '\\') :
    unitCost c.toNat ≤ ink [c] := by
  by_cases hspace : c = ' '
  · rw [hspace]
    decide
  · have hnewline : c ≠ '\n' := by
      rintro rfl
      exact absurd hc.1 (by decide)
    have hchar : ∀ d : Char, c ≠ d → c.toNat ≠ d.toNat := fun d hd heq => hd (Char.toNat_inj.1 heq)
    have h20 : c.toNat ≠ 0x20 := hchar ' ' hspace
    have h22 : c.toNat ≠ 0x22 := hchar '"' hquote
    have h5c : c.toNat ≠ 0x5C := hchar '\\' hslash
    rw [ink_char hspace hnewline]
    unfold unitCost
    split_ifs <;> omega

/-- **One character** adds no more to a scan than its ink. -/
theorem Scan.step_cost {c : Char} (hc : c = '\n' ∨ 0x20 ≤ c.toNat ∧ c.toNat < 0x7F) (s s' : Scan)
    (h : s.step c = some s') : s'.cost ≤ s.cost + ink [c] := by
  obtain ⟨tokens, mode⟩ := s
  cases mode with
  | between => exact start_cost h
  | number t =>
    simp only [Scan.step] at h
    split_ifs at h
    · rw [← Option.some.inj h]
      exact Nat.le_add_right _ _
    · obtain ⟨v, hv, hstart⟩ := Option.bind_eq_some_iff.1 h
      have hcost := start_cost hstart
      have hitem : Token.cost (.item v) = 0 := number_cost hv
      rw [sum_map_concat, hitem] at hcost
      exact hcost
  | word left v =>
    cases left with
    | nil => simp [Scan.step] at h
    | cons d left =>
      simp only [Scan.step] at h
      have hleft : ink (d :: left) = ink [d] + ink left := ink_append [d] left
      split_ifs at h with hd hlast
      · obtain rfl : c = d := by simpa using hd
        have hnil : ink left = 0 := by rw [List.isEmpty_iff.1 hlast]; rfl
        rw [← Option.some.inj h]
        simp only [Scan.cost, Mode.cost, sum_map_concat, Token.cost, hleft]
        omega
      · obtain rfl : c = d := by simpa using hd
        rw [← Option.some.inj h]
        simp only [Scan.cost, Mode.cost, hleft]
        omega
  | chars us =>
    simp only [Scan.step] at h
    split_ifs at h with hquote hslash hcontrol
    · obtain ⟨t, ht, rfl⟩ := Option.map_eq_some_iff.1 h
      have htext := text_cost ht
      have hink : ink [c] = 1 := by rw [hquote]; rfl
      simp only [Scan.cost, Mode.cost, sum_map_concat, Token.cost, cost_text]
      omega
    · have hink : ink [c] = 1 := by rw [hslash]; rfl
      rw [← Option.some.inj h]
      simp only [Scan.cost, Mode.cost]
      omega
    · have hplain : 0x20 ≤ c.toNat ∧ c.toNat < 0x7F := by
        refine hc.resolve_left ?_
        rintro rfl
        exact hcontrol (by decide)
      have hcost := plain_cost hplain hquote hslash
      rw [← Option.some.inj h, units_of_lt (by omega)]
      simp only [Scan.cost, Mode.cost, sum_map_concat]
      omega
  | escape us =>
    simp only [Scan.step] at h
    split_ifs at h with hu
    · have hink : ink [c] = 1 := by rw [hu]; rfl
      rw [← Option.some.inj h]
      simp only [Scan.cost, Mode.cost]
      omega
    · obtain ⟨n, hn, rfl⟩ := Option.map_eq_some_iff.1 h
      obtain ⟨hcost, hink⟩ := escaped_cost hn
      simp only [Scan.cost, Mode.cost, sum_map_concat]
      omega
  | unit us left n =>
    simp only [Scan.step] at h
    obtain ⟨d, hd, rfl⟩ := Option.map_eq_some_iff.1 h
    have hink : ink [c] = 1 := by
      refine ink_char ?_ ?_
      · rintro rfl
        exact Option.some_ne_none d hd.symm
      · rintro rfl
        exact Option.some_ne_none d hd.symm
    have hcost := unitCost_le (16 * n + d)
    split_ifs with hleft
    · simp only [Scan.cost, Mode.cost, sum_map_concat]
      omega
    · simp only [Scan.cost, Mode.cost]
      omega

/-! ### Values -/

def Frame.cost : Frame → Nat
  | .list vs => 1 + costItems vs
  | .map es k => 1 + costEntries es + (Json.cost (.text k) + 1)

/-- the ink of what has been read -/
def Awaited.cost : Awaited → Nat
  | .value stack => (stack.map Frame.cost).sum
  | .first stack => 1 + (stack.map Frame.cost).sum
  | .key es _ stack => 1 + costEntries es + (stack.map Frame.cost).sum
  | .colon es k stack => 1 + costEntries es + Json.cost (.text k) + (stack.map Frame.cost).sum
  | .more v stack => Json.cost v + (stack.map Frame.cost).sum

theorem costItems_append (vs ws : List Value) : costItems (vs ++ ws) = costItems vs + costItems ws := by
  induction vs with
  | nil => simp [costItems]
  | cons v vs ih => rw [List.cons_append, costItems, costItems, ih]; omega

/-- an entry that takes the place of another makes the mapping no larger than a new one -/
theorem costEntries_assign (k v : Value) (es : List (Value × Value)) :
    costEntries (Value.assign k v es) ≤ costEntries es + (Json.cost k + 1 + (Json.cost v + 1)) := by
  induction es with
  | nil => simp [Value.assign, costEntries]
  | cons e es ih =>
    rw [Value.assign]
    split_ifs
    · rw [costEntries, costEntries]
      omega
    · rw [costEntries, costEntries]
      omega

theorem begin_cost {stack : List Frame} {m : Token} {a : Awaited} (h : Awaited.begin stack m = some a) :
    a.cost ≤ (stack.map Frame.cost).sum + m.cost := by
  cases m with
  | item v =>
    rw [← Option.some.inj h, Awaited.cost, Token.cost]
    omega
  | openList =>
    have hmark : Token.openList.cost = 1 := rfl
    rw [← Option.some.inj h, Awaited.cost, hmark]
    omega
  | openMap =>
    have hmark : Token.openMap.cost = 1 := rfl
    rw [← Option.some.inj h, Awaited.cost, costEntries, hmark]
    omega
  | _ => simp [Awaited.begin] at h

/-- **One token** adds no more to what has been read than its ink. -/
theorem Awaited.step_cost (m : Token) (a b : Awaited) (h : a.step m = some b) : b.cost ≤ a.cost + m.cost := by
  unfold Awaited.step at h
  split at h
  · exact begin_cost h
  · rw [← Option.some.inj h]
    simp [Awaited.cost, Token.cost, Json.cost, costItems]
    omega
  · rename_i stack _
    have hfirst : Awaited.cost (.first stack) = 1 + (stack.map Frame.cost).sum := rfl
    have hbegin := begin_cost h
    simp only [List.map_cons, List.sum_cons, Frame.cost, costItems] at hbegin
    omega
  · rw [← Option.some.inj h]
    simp only [Awaited.cost, Token.cost]
    omega
  · rename_i es stack
    rw [← Option.some.inj h]
    have hcost : Json.cost (.map none es) ≤ 2 + costEntries es := by
      rw [Json.cost]
      split_ifs <;> omega
    simp only [Awaited.cost, Token.cost]
    omega
  · rw [← Option.some.inj h]
    simp only [Awaited.cost, Token.cost, List.map_cons, List.sum_cons, Frame.cost]
    omega
  · rw [← Option.some.inj h]
    simp only [Awaited.cost, Token.cost, List.map_cons, List.sum_cons, Frame.cost, costItems_append, costItems]
    omega
  · rename_i v vs stack
    rw [← Option.some.inj h]
    have hne : (vs ++ [v]).isEmpty = false := by simp
    simp only [Awaited.cost, Token.cost, List.map_cons, List.sum_cons, Frame.cost, Json.cost, costItems_append, costItems,
      hne, Bool.false_eq_true, if_false]
    omega
  · rename_i v es k stack
    rw [← Option.some.inj h]
    have hassign := costEntries_assign (.text k) v es
    simp only [Awaited.cost, Token.cost, List.map_cons, List.sum_cons, Frame.cost]
    omega
  · rename_i v es k stack
    rw [← Option.some.inj h]
    have hassign := costEntries_assign (.text k) v es
    have hne : (Value.assign (.text k) v es).isEmpty = false := by
      cases es with
      | nil => rfl
      | cons e es => rw [Value.assign]; split_ifs <;> rfl
    have hcost : Json.cost (.map none (Value.assign (.text k) v es)) =
        1 + costEntries (Value.assign (.text k) v es) := by
      rw [Json.cost, hne]
      rfl
    simp only [Awaited.cost, Token.cost, List.map_cons, List.sum_cons, Frame.cost, hcost]
    omega
  · simp at h

/-- **The least ink.** Ordinary text that reads as a value has at least as much ink as what is written of the value. -/
theorem cost_le_ink {t : Text} {v : Value} (ho : Ordinary t) (h : read t = some v) : Json.cost v ≤ ink t := by
  simp only [read, Option.bind_eq_bind, Option.bind_eq_some_iff] at h
  obtain ⟨tokens, htokens, awaited, hrun, hfinish⟩ := h
  obtain ⟨s, hscan, htokens⟩ := Option.bind_eq_some_iff.1 htokens
  have hvalue : Json.cost v ≤ awaited.cost := by
    unfold Awaited.finish at hfinish
    split at hfinish
    · rw [← Option.some.inj hfinish]
      exact Nat.le_add_right _ _
    · simp at hfinish
  have hparse := foldlM_cost (fun m _ a b => Awaited.step_cost m a b) hrun
  have hread := foldlM_cost (fun c hc s s' => Scan.step_cost (ho c hc) s s') hscan
  rw [← ink_eq_sum] at hread
  have hlast : (tokens.map Token.cost).sum ≤ s.cost := by
    unfold Scan.finish at htokens
    split at htokens
    · rw [← Option.some.inj htokens]
      exact Nat.le_add_right _ _
    · obtain ⟨w, hw, rfl⟩ := Option.map_eq_some_iff.1 htokens
      have hitem : Token.cost (.item w) = 0 := number_cost hw
      rw [sum_map_concat, hitem]
      exact Nat.le_add_right _ _
    · simp at htokens
  have hbegin : Awaited.cost (.value []) = 0 := rfl
  have hstart : Scan.cost ⟨[], .between⟩ = 0 := rfl
  rw [hbegin, Nat.zero_add] at hparse
  rw [hstart, Nat.zero_add] at hread
  calc Json.cost v ≤ awaited.cost := hvalue
    _ ≤ (tokens.map Token.cost).sum := hparse
    _ ≤ s.cost := hlast
    _ ≤ ink t := hread

end RepoLens.Json
