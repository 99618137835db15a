import Mathlib.Tactic
import RepoLens.Yaml.Load
import RepoLens.Proofs.Listing
import RepoLens.Proofs.Tree
/-!
What every loaded document is like. Its mappings have each name once, and a collection gets its mark before the collections in
it get theirs, so no mapping has the mark of a value that stands in it. Both hold of what the reader has seen so far, of the
values of the anchors among it, and one more node leaves them so.

Results:
- `formed_build`: reading a node keeps what is known of the anchors, and gives a value with each name once;
- `load_formed`: the value of a document has each name once, and its mark is not that of a value in it.
-/
namespace RepoLens

namespace Value

/-- values as documents hold them: every mapping has each name once, and marks count from a number on -/
inductive Formed (least : Nat) : Value → Prop where
  | scalar {v : Value} (h : v.IsScalar) : Formed least v
  | list {mark : Option Nat} {vs : List Value} (hmark : ∀ n ∈ mark, least ≤ n) (h : ∀ v ∈ vs, Formed least v) :
    Formed least (.list mark vs)
  | map {mark : Option Nat} {es : List (Value × Value)} (hmark : ∀ n ∈ mark, least ≤ n) (hnames : NamesOnce es)
    (h : ∀ e ∈ es, Formed least e.2) : Formed least (.map mark es)

variable {least : Nat} {v : Value} {es : List (Value × Value)}

theorem Formed.named (h : Formed least v) : v.Named := by
  cases h with
  | @scalar v h =>
    cases v with
    | map => exact h.elim
    | _ => trivial
  | list => trivial
  | map _ hnames => exact hnames

theorem Formed.entries {mark : Option Nat} (h : Formed least (.map mark es)) : ∀ e ∈ es, Formed least e.2 := by
  cases h with
  | scalar h => exact h.elim
  | map _ _ h => exact h

theorem Formed.get? (h : Formed least v) {key : Text} {w : Value} (hw : v.get? key = some w) : Formed least w := by
  cases v with
  | map => exact h.entries _ (mem_of_lookup hw)
  | _ => cases hw

def mark? : Value → Option Nat
  | .list mark _ => mark
  | .map mark _ => mark
  | _ => none

theorem Formed.le_mark (h : Formed least v) : ∀ n ∈ v.mark?, least ≤ n := by
  cases h with
  | @scalar v h =>
    cases v with
    | list => exact h.elim
    | map => exact h.elim
    | _ => exact fun n hn => (nomatch hn)
  | list hmark => exact hmark
  | map hmark => exact hmark

/-- a mapping with a mark of its own, that no value in it has -/
def OwnMark : Value → Prop
  | .map mark es => ∀ e ∈ es, ∀ n ∈ e.2.mark?, mark ≠ some n
  | _ => True

theorem Formed.set (h : v.Formed least) {key : Text} {x : Value} (hx : x.Formed least) : (v.set key x).Formed least := by
  cases v with
  | map mark es =>
    cases h with
    | scalar h => exact h.elim
    | map hmark hnames h =>
      refine .map hmark (namesOnce_assign hnames _ _) fun e he => ?_
      rcases mem_assign he with he | he
      · exact h e he
      · rwa [he]
  | _ => exact h

end Value

namespace Yaml

open Value

variable {least : Nat} {marked : Bool} {m m' : Memory} {v : Value}

theorem formed_collect {es : List (Value × Value)} (h : ∀ e ∈ es, Formed least e.2) :
    NamesOnce (collect es) ∧ ∀ e ∈ collect es, Formed least e.2 := by
  have hall : ∀ fs : List (Value × Value), (NamesOnce fs ∧ ∀ e ∈ fs, Formed least e.2) →
      NamesOnce (es.foldl (fun fs e => assign e.1 e.2 fs) fs) ∧
        ∀ e ∈ es.foldl (fun fs e => assign e.1 e.2 fs) fs, Formed least e.2 := by
    induction es with
    | nil => exact fun fs hfs => hfs
    | cons e es ih =>
      obtain ⟨he, hes⟩ := List.forall_mem_cons.1 h
      refine fun fs hfs => ih hes _ ⟨namesOnce_assign hfs.1 _ _, fun f hf => ?_⟩
      rcases mem_assign hf with hf | hf
      · exact hfs.2 f hf
      · rwa [hf]
  exact hall [] ⟨List.Pairwise.nil, fun e he => absurd he List.not_mem_nil⟩

/-- what is known of the anchors holds of their values, and new marks come after -/
structure Memory.Formed (least : Nat) (m : Memory) : Prop where
  anchors : ∀ name v, m.anchors.lookup name = some v → Value.Formed least v
  next : least ≤ m.next

theorem Memory.Formed.bind {props : Props} (h : m.Formed least) (hv : Value.Formed least v) (hbind : m.bind props v = .ok m') :
    m'.Formed least := by
  unfold Memory.bind at hbind
  split at hbind
  · rw [← Except.ok.inj hbind]
    exact h
  · split_ifs at hbind with hknown
    rename_i name _
    rw [← Except.ok.inj hbind]
    refine ⟨fun other w hw => ?_, h.next⟩
    rw [List.lookup_cons] at hw
    split at hw
    · rw [← Option.some.inj hw]
      exact hv
    · exact h.anchors other w hw

theorem Memory.Formed.step (h : m.Formed least) : Memory.Formed least { m with next := m.next + 1 } :=
  ⟨h.anchors, h.next.trans (Nat.le_succ _)⟩

theorem Memory.Formed.mark (h : m.Formed least) (marked : Bool) : ∀ n ∈ (if marked then some m.next else none), least ≤ n := by
  intro n hn
  cases marked with
  | false => simp at hn
  | true =>
    simp only [if_true, Option.mem_def, Option.some.injEq] at hn
    rw [← hn]
    exact h.next

theorem isScalar_scalarValue {k : Kind} {t : Text} (h : scalarValue k t = .ok v) : v.IsScalar := by
  cases k with
  | null => exact Except.ok.inj h ▸ trivial
  | bool =>
    rw [scalarValue] at h
    split_ifs at h
    · exact Except.ok.inj h ▸ trivial
    · exact Except.ok.inj h ▸ trivial
  | int =>
    rw [scalarValue] at h
    cases hn : readInt t with
    | error e => rw [hn] at h; cases h
    | ok n => rw [hn] at h; exact Except.ok.inj h ▸ trivial
  | float =>
    rw [scalarValue] at h
    cases hx : required ((Kind.floatOf? t).or (Kind.floatOf? (t ++ ['.']))) with
    | error e => rw [hx] at h; cases h
    | ok x => rw [hx] at h; exact Except.ok.inj h ▸ trivial
  | stamp =>
    rw [scalarValue, bind_eq_ok] at h
    obtain ⟨s, -, h⟩ := h
    cases hs : checkStamp s with
    | error e => rw [hs] at h; cases h
    | ok u => rw [hs] at h; exact Except.ok.inj h ▸ trivial
  | text => exact Except.ok.inj h ▸ trivial
  | merge => cases h
  | «default» => cases h

theorem formed_merged {es : List (Value × Value)} (h : Formed least v) (hm : merged v = .ok es) :
    ∀ e ∈ es, Formed least e.2 := by
  cases v with
  | map mark fs =>
    obtain rfl := Except.ok.inj hm
    exact h.entries
  | list mark vs =>
    cases h with
    | scalar h => exact h.elim
    | list _ h =>
      rw [merged, bind_eq_ok] at hm
      obtain ⟨parts, hparts, hm⟩ := hm
      obtain rfl := Except.ok.inj hm
      intro e he
      obtain ⟨es, hes, he⟩ := List.mem_flatten.1 he
      obtain ⟨w, hw, hread⟩ := Listing.mem_of_forall₂ (Listing.mapM_eq_ok.1 hparts) (List.mem_reverse.1 hes)
      cases w with
      | map mark fs =>
        obtain rfl := Except.ok.inj hread
        exact (h _ hw).entries e he
      | _ => cases hread
  | _ => cases hm

mutual

/-- reading a node keeps what is known of the anchors, and its value is as documents hold them -/
theorem formed_build (n : Node) {m m' : Memory} {v : Value} (hm : m.Formed least) (h : build marked m n = .ok (v, m')) :
    Formed least v ∧ m'.Formed least := by
  cases n with
  | «alias» name =>
    rw [build, bind_eq_ok] at h
    obtain ⟨w, hw, h⟩ := h
    cases hlookup : m.anchors.lookup name with
    | none => rw [hlookup] at hw; cases hw
    | some x =>
      rw [hlookup] at hw
      cases hw
      cases h
      exact ⟨hm.anchors name _ hlookup, hm⟩
  | scalar props plain t =>
    rw [build, bind_eq_ok] at h
    obtain ⟨k, -, h⟩ := h
    rw [bind_eq_ok] at h
    obtain ⟨w, hw, h⟩ := h
    rw [bind_eq_ok] at h
    obtain ⟨m₁, hbind, h⟩ := h
    cases h
    have hv : Formed least v := .scalar (isScalar_scalarValue hw)
    exact ⟨hv, hm.bind hv hbind⟩
  | seq props items =>
    rw [build, bind_eq_ok] at h
    obtain ⟨-, -, h⟩ := h
    rw [bind_eq_ok] at h
    obtain ⟨⟨vs, m₁⟩, hitems, h⟩ := h
    simp only at h
    rw [bind_eq_ok] at h
    obtain ⟨m₂, hbind, h⟩ := h
    cases h
    obtain ⟨hvs, hm₁⟩ := formed_buildItems items hm.step hitems
    have hv : Formed least (.list (if marked then some m.next else none) vs) := .list (hm.mark marked) hvs
    exact ⟨hv, hm₁.bind hv hbind⟩
  | map props entries =>
    rw [build, bind_eq_ok] at h
    obtain ⟨-, -, h⟩ := h
    rw [bind_eq_ok] at h
    obtain ⟨⟨g, m₁⟩, hentries, h⟩ := h
    simp only at h
    split at h
    · cases h
    rw [bind_eq_ok] at h
    obtain ⟨m₂, hbind, h⟩ := h
    cases h
    obtain ⟨hall, hm₁⟩ := formed_buildEntries entries hm.step hentries
    obtain ⟨hnames, hvalues⟩ := formed_collect hall
    have hv : Formed least (.map (if marked then some m.next else none) (collect (g.inherited ++ g.own))) :=
      .map (hm.mark marked) hnames hvalues
    exact ⟨hv, hm₁.bind hv hbind⟩

theorem formed_buildItems (ns : List Node) {m m' : Memory} {vs : List Value} (hm : m.Formed least)
    (h : buildItems marked m ns = .ok (vs, m')) : (∀ v ∈ vs, Formed least v) ∧ m'.Formed least := by
  cases ns with
  | nil =>
    cases h
    exact ⟨fun v hv => absurd hv List.not_mem_nil, hm⟩
  | cons n ns =>
    rw [buildItems, bind_eq_ok] at h
    obtain ⟨⟨v, m₁⟩, hv, h⟩ := h
    simp only at h
    rw [bind_eq_ok] at h
    obtain ⟨⟨ws, m₂⟩, hws, h⟩ := h
    cases h
    obtain ⟨hv, hm₁⟩ := formed_build n hm hv
    obtain ⟨hws, hm₂⟩ := formed_buildItems ns hm₁ hws
    exact ⟨List.forall_mem_cons.2 ⟨hv, hws⟩, hm₂⟩

theorem formed_buildEntries (ns : List (Node × Node)) {m m' : Memory} {g : Gathered} (hm : m.Formed least)
    (h : buildEntries marked m ns = .ok (g, m')) :
    (∀ e ∈ g.inherited ++ g.own, Formed least e.2) ∧ m'.Formed least := by
  cases ns with
  | nil =>
    cases h
    exact ⟨fun e he => absurd he List.not_mem_nil, hm⟩
  | cons n ns =>
    obtain ⟨k, n⟩ := n
    -- an entry of the mapping's own, once its key is known
    have hown : ∀ key m₁, Memory.Formed least m₁ → (do
        let (value, m) ← build marked m₁ n
        let (g, m) ← buildEntries marked m ns
        pure (⟨g.inherited, (key, value) :: g.own⟩, m) : Except ReadFault (Gathered × Memory)) = .ok (g, m') →
        (∀ e ∈ g.inherited ++ g.own, Formed least e.2) ∧ m'.Formed least := by
      intro key m₁ hm₁ h
      rw [bind_eq_ok] at h
      obtain ⟨⟨v, m₂⟩, hv, h⟩ := h
      simp only at h
      rw [bind_eq_ok] at h
      obtain ⟨⟨g, m₃⟩, hg, h⟩ := h
      cases h
      obtain ⟨hv, hm₂⟩ := formed_build n hm₁ hv
      obtain ⟨hg, hm₃⟩ := formed_buildEntries ns hm₂ hg
      refine ⟨fun e he => ?_, hm₃⟩
      rcases List.mem_append.1 he with he | he
      · exact hg e (List.mem_append_left _ he)
      · rcases List.mem_cons.1 he with rfl | he
        · exact hv
        · exact hg e (List.mem_append_right _ he)
    rw [buildEntries] at h
    split_ifs at h with hmerge hdefault
    · rw [bind_eq_ok] at h
      obtain ⟨⟨v, m₁⟩, hv, h⟩ := h
      simp only at h
      rw [bind_eq_ok] at h
      obtain ⟨first, hfirst, h⟩ := h
      rw [bind_eq_ok] at h
      obtain ⟨⟨g, m₂⟩, hg, h⟩ := h
      cases h
      obtain ⟨hv, hm₁⟩ := formed_build n hm hv
      obtain ⟨hg, hm₂⟩ := formed_buildEntries ns hm₁ hg
      refine ⟨fun e he => ?_, hm₂⟩
      rw [List.append_assoc] at he
      rcases List.mem_append.1 he with he | he
      · exact formed_merged hv hfirst e he
      · exact hg e he
    · exact hown _ _ hm h
    · obtain ⟨⟨key, m₁⟩, hkey, h⟩ := bind_eq_ok.1 h
      exact hown key m₁ (formed_build k hm hkey).2 h

end

theorem Memory.formed_empty (least : Nat) : Memory.Formed least ⟨[], least⟩ := ⟨fun _ _ h => (nomatch h), le_refl least⟩

/-- the first node of a document gets the first mark, and the ones in it later marks -/
theorem ownMark_build {n : Node} (h : build marked ⟨[], 0⟩ n = .ok (v, m')) : v.OwnMark := by
  cases n with
  | «alias» name =>
    rw [build, bind_eq_ok] at h
    obtain ⟨w, hw, -⟩ := h
    cases hw
  | scalar props plain t =>
    rw [build, bind_eq_ok] at h
    obtain ⟨k, -, h⟩ := h
    rw [bind_eq_ok] at h
    obtain ⟨w, hw, h⟩ := h
    obtain ⟨m₁, -, h⟩ := bind_eq_ok.1 h
    cases h
    have hv := isScalar_scalarValue hw
    cases v with
    | map => exact hv.elim
    | _ => trivial
  | seq props items =>
    rw [build, bind_eq_ok] at h
    obtain ⟨-, -, h⟩ := h
    obtain ⟨a, -, h⟩ := bind_eq_ok.1 h
    obtain ⟨m₁, -, h⟩ := bind_eq_ok.1 h
    cases h
    trivial
  | map props entries =>
    rw [build, bind_eq_ok] at h
    obtain ⟨-, -, h⟩ := h
    obtain ⟨⟨g, m₁⟩, hentries, h⟩ := bind_eq_ok.1 h
    simp only at h
    split at h
    · cases h
    obtain ⟨m₂, -, h⟩ := bind_eq_ok.1 h
    cases h
    have hvalues := (formed_collect (formed_buildEntries entries (Memory.formed_empty 1) hentries).1).2
    intro e he n hn hmark
    have hle : 1 ≤ n := (hvalues e he).le_mark n hn
    split_ifs at hmark
    obtain rfl := Option.some.inj hmark
    exact absurd hle (by decide)

/-- **The value of a document** has each name once in every mapping, and a mark that no value in it has. -/
theorem load_formed {t : Text} (h : load t = .ok v) : v.Formed 0 ∧ v.OwnMark := by
  rw [load, bind_eq_ok] at h
  obtain ⟨ts, -, h⟩ := h
  obtain ⟨root, -, h⟩ := bind_eq_ok.1 h
  cases root with
  | none =>
    obtain rfl := Except.ok.inj h
    exact ⟨.scalar trivial, trivial⟩
  | some n =>
    simp only at h
    cases hbuild : build (ts.any isAlias) ⟨[], 0⟩ n with
    | error e => rw [hbuild] at h; cases h
    | ok r =>
      rw [hbuild] at h
      obtain rfl := Except.ok.inj h
      exact ⟨(formed_build n (Memory.formed_empty 0) hbuild).1, ownMark_build hbuild⟩

end Yaml

end RepoLens
