import Mathlib.Tactic
import RepoLens.Proofs.Yaml.Tokens
/-!
Tokens put together. A reader in a document holds the collections that are open, and a node is due in the innermost one. The
tokens of a node complete it there and leave the rest alone. A sequence under a key stays open until the next key or the end of
the mapping, so a value is read up to what comes next.

Results:
- `completes_seq`, `completes_map`: collections, from what they hold;
- `completes_of_legible`: the tokens of a node, wherever it is due;
- `nodeOfTokens_nodeTokens`: the tokens of a document.
-/
namespace RepoLens.Yaml

namespace Reader

/-- a reader inside a document, with some collections open -/
def reading (stack : List Frame) : Reader := ⟨.bare, stack, .none, commonHandles, false⟩

theorem step_reading (stack : List Frame) (t : Token) : step (reading stack) t = inside t (reading stack) := rfl

@[simp] theorem attach_reading (n : Node) (f : Frame) (rest : List Frame) :
    attach n (reading (f :: rest)) = reading (Frame.fill n f :: rest) := rfl

/-- the node is put where one is due, in the innermost collection or at the start -/
def Completes (n : Node) : Prop :=
  ∀ stack : List Frame, (reading stack).hasHole = true →
    (nodeTokens false n).foldlM step (reading stack) = .ok (attach n (reading stack))

/-- two readers go on alike at the next key and at the end of a mapping -/
def Alike (r r' : Reader) : Prop := ∀ t, t = .key ∨ t = .blockEnd → step r t = step r' t

theorem run_cons {r r' : Reader} {t : Token} (h : step r t = .ok r') (ts : List Token) :
    (t :: ts).foldlM step r = ts.foldlM step r' := by
  rw [List.foldlM_cons, h]
  rfl

theorem run_append {r r' : Reader} {ts : List Token} (h : ts.foldlM step r = .ok r') (us : List Token) :
    (ts ++ us).foldlM step r = us.foldlM step r' := by
  rw [List.foldlM_append, h]
  rfl

/-! ## Sequences -/

theorem step_dash (bare : Bool) (items : List Node) (rest : List Frame) :
    step (reading (.seq bare .none items false :: rest)) .dash = .ok (reading (.seq bare .none items true :: rest)) := by
  cases bare <;> rfl

/-- **Items** are read one after the other. -/
theorem run_items {items : List Node} (h : ∀ n ∈ items, Completes n) (bare : Bool) (done : List Node) (rest : List Frame) :
    (itemTokens items).foldlM step (reading (.seq bare .none done false :: rest)) =
      .ok (reading (.seq bare .none (items.reverse ++ done) false :: rest)) := by
  induction items generalizing done with
  | nil => rfl
  | cons item items ih =>
    have hitem := h item List.mem_cons_self (.seq bare .none done true :: rest) rfl
    have hrest := ih (fun n hn => h n (List.mem_cons_of_mem _ hn)) (item :: done)
    rw [itemTokens, run_cons (step_dash ..), run_append hitem]
    simpa [Frame.fill] using hrest

/-- a sequence in a block of its own -/
theorem completes_seq {items : List Node} (h : ∀ n ∈ items, Completes n) : Completes (.seq .none items) := by
  intro stack hhole
  cases items with
  | nil =>
    have hopen : step (reading stack) .flowSeqStart = .ok (reading (.flowSeq .none [] .itemHole :: stack)) := by
      rw [step_reading, inside, if_pos hhole]
      rfl
    rw [nodeTokens, run_cons hopen]
    rfl
  | cons item items =>
    have hopen : step (reading stack) .blockSeq = .ok (reading (.seq false .none [] false :: stack)) := by
      rw [step_reading, inside, if_pos hhole]
      rfl
    have hclose : ∀ done, step (reading (.seq false .none done false :: stack)) .blockEnd =
        .ok (attach (.seq .none done.reverse) (reading stack)) := fun _ => rfl
    rw [nodeTokens, if_neg (by simp), run_cons hopen, run_append (run_items h false [] stack), run_cons (hclose _),
      List.append_nil, List.reverse_reverse]
    rfl

theorem alike_bare (items : List Node) (done : List (Node × Node)) (key : Node) (rest : List Frame) :
    Alike (reading (.seq true .none items false :: .map .none done (.valueHole key) :: rest))
      (reading (.map .none ((key, .seq .none items.reverse) :: done) .ready :: rest)) := by
  rintro t (rfl | rfl) <;> rfl

/-- a sequence under a key is closed by what comes next -/
theorem bare_seq {items : List Node} (h : ∀ n ∈ items, Completes n) (done : List (Node × Node)) (key : Node) (rest : List Frame) :
    ∃ r, (nodeTokens true (.seq .none items)).foldlM step (reading (.map .none done (.valueHole key) :: rest)) = .ok r ∧
      Alike r (reading (.map .none ((key, .seq .none items) :: done) .ready :: rest)) := by
  cases items with
  | nil => exact ⟨_, completes_seq h (.map .none done (.valueHole key) :: rest) rfl, fun _ _ => rfl⟩
  | cons item items =>
    have hfirst : (itemTokens (item :: items)).foldlM step (reading (.map .none done (.valueHole key) :: rest)) =
        (itemTokens (item :: items)).foldlM step
          (reading (.seq true .none [] false :: .map .none done (.valueHole key) :: rest)) := rfl
    rw [nodeTokens, if_pos rfl, hfirst, run_items h, List.append_nil]
    refine ⟨_, rfl, ?_⟩
    have hclosed := alike_bare (item :: items).reverse done key rest
    rwa [List.reverse_reverse] at hclosed

/-! ## Mappings -/

/-- a value under a key, up to the next key or the end of the mapping -/
def Settles (n : Node) : Prop :=
  ∀ (done : List (Node × Node)) (key : Node) (rest : List Frame),
    ∃ r, (nodeTokens true n).foldlM step (reading (.map .none done (.valueHole key) :: rest)) = .ok r ∧
      Alike r (reading (.map .none ((key, n) :: done) .ready :: rest))

theorem Completes.settles {n : Node} (h : Completes n) (hbare : nodeTokens true n = nodeTokens false n) : Settles n := by
  intro done key rest
  rw [hbare]
  exact ⟨_, h (.map .none done (.valueHole key) :: rest) rfl, fun _ _ => rfl⟩

/-- **Entries** are read one after the other. -/
theorem run_entries {entries : List (Node × Node)} (hkeys : ∀ e ∈ entries, Completes e.1) (h : ∀ e ∈ entries, Settles e.2)
    {done : List (Node × Node)} {rest : List Frame} {r : Reader} (hr : Alike r (reading (.map .none done .ready :: rest))) :
    ∃ r', (entryTokens entries).foldlM step r = .ok r' ∧
      Alike r' (reading (.map .none (entries.reverse ++ done) .ready :: rest)) := by
  induction entries generalizing done r with
  | nil => exact ⟨r, rfl, hr⟩
  | cons entry entries ih =>
    obtain ⟨key, value⟩ := entry
    have hkey : step r .key = .ok (reading (.map .none done .keyHole :: rest)) := hr .key (.inl rfl)
    have hname := hkeys _ List.mem_cons_self (.map .none done .keyHole :: rest) rfl
    have hcolon : step (attach key (reading (.map .none done .keyHole :: rest))) .value =
        .ok (reading (.map .none done (.valueHole key) :: rest)) := rfl
    obtain ⟨r₁, hvalue, halike⟩ := h _ List.mem_cons_self done key rest
    obtain ⟨r', hrest, halike'⟩ := ih (fun e he => hkeys e (List.mem_cons_of_mem _ he))
      (fun e he => h e (List.mem_cons_of_mem _ he)) halike
    refine ⟨r', ?_, by simpa using halike'⟩
    rw [entryTokens, run_cons hkey, run_append hname, run_cons hcolon, run_append hvalue, hrest]

theorem completes_map {entries : List (Node × Node)} (hkeys : ∀ e ∈ entries, Completes e.1) (h : ∀ e ∈ entries, Settles e.2) :
    Completes (.map .none entries) := by
  intro stack hhole
  cases entries with
  | nil =>
    have hopen : step (reading stack) .flowMapStart = .ok (reading (.flowMap .none [] .itemHole :: stack)) := by
      rw [step_reading, inside, if_pos hhole]
      rfl
    rw [nodeTokens, run_cons hopen]
    rfl
  | cons entry entries =>
    have hopen : step (reading stack) .blockMap = .ok (reading (.map .none [] .ready :: stack)) := by
      rw [step_reading, inside, if_pos hhole]
      rfl
    have hstart : Alike (reading (.map .none [] .ready :: stack)) (reading (.map .none [] .ready :: stack)) := fun _ _ => rfl
    obtain ⟨r, hrun, halike⟩ := run_entries hkeys h hstart
    have hclose : step r .blockEnd = .ok (attach (.map .none (entry :: entries)) (reading stack)) := by
      rw [halike .blockEnd (.inr rfl), List.append_nil]
      have hend : ∀ done, step (reading (.map .none done .ready :: stack)) .blockEnd =
          .ok (attach (.map .none done.reverse) (reading stack)) := fun _ => rfl
      rw [hend, List.reverse_reverse]
    rw [nodeTokens, run_cons hopen, run_append hrun, run_cons hclose]
    rfl

theorem completes_scalar (plain : Bool) (t : Text) : Completes (.scalar .none plain t) := by
  intro stack hhole
  have hread : step (reading stack) (.scalar plain t) = .ok (attach (.scalar .none plain t) (reading stack)) := by
    rw [step_reading, inside, if_pos hhole]
    rfl
  rw [nodeTokens, run_cons hread]
  rfl

theorem completes_key {n : Node} (h : IsKeyNode n) : Completes n := by
  obtain ⟨plain, t, rfl, -⟩ := h
  exact completes_scalar plain t

/-- **The tokens of a legible node** complete it where it is due. -/
theorem completes_of_legible {n : Node} (h : Legible n) :
    Completes n ∧ Settles n := by
  induction h with
  | scalar h => exact ⟨completes_scalar _ _, (completes_scalar _ _).settles rfl⟩
  | seq h ih => exact ⟨completes_seq fun n hn => (ih n hn).1, bare_seq fun n hn => (ih n hn).1⟩
  | @map entries hkeys h ih =>
    have hmap := completes_map (fun e he => completes_key (hkeys e he)) fun e he => (ih e he).2
    refine ⟨hmap, hmap.settles ?_⟩
    cases entries <;> rfl

end Reader

/-- **The tokens of a mapping make up the mapping.** -/
theorem nodeOfTokens_nodeTokens {entries : List (Node × Node)} (hkeys : ∀ e ∈ entries, IsKeyNode e.1)
    (h : ∀ e ∈ entries, Legible e.2) :
    nodeOfTokens (nodeTokens false (.map .none entries)) = .ok (some (.map .none entries)) := by
  have hrun := Reader.completes_map (fun e he => Reader.completes_key (hkeys e he))
    (fun e he => (Reader.completes_of_legible (h e he)).2) [] rfl
  have hstart : (nodeTokens false (.map .none entries)).foldlM Reader.step Reader.start =
      (nodeTokens false (.map .none entries)).foldlM Reader.step (Reader.reading []) := by
    cases entries <;> rfl
  rw [nodeOfTokens, hstart, hrun]
  rfl

end RepoLens.Yaml
