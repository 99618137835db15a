import Mathlib.Tactic
import RepoLens.Yaml.Dump
import RepoLens.Proofs.Entries
import RepoLens.Proofs.Yaml.Reader
/-!
Dumping settings and loading what was dumped. A value that stands at one place has the same node whatever surrounds it, and the
node that is read is built to the value with each text as it is read. Keys are put in order when they are dumped, and a mapping
is equal to another one whatever their orders.

Results:
- `load_dump`: a dumped mapping loads as its values, each text as it is read where it stands;
- `same_reread`: it is equal to what was dumped exactly if every text is read as it was.
-/
namespace RepoLens.Yaml

open Text Scanner
open Value (texts texts_cons mem_texts assign_new same_text)

/-! ## Settings -/

/-- a key of settings: a short name in printable ASCII -/
structure IsKey (t : Text) : Prop where
  nonempty : t ≠ []
  short : t.length ≤ 100
  printable : Printable t

/-- the values of settings: nulls, booleans, texts, lists, and mappings with each key once -/
inductive IsSetting : Value → Prop where
  | null : IsSetting .null
  | bool (b : Bool) : IsSetting (.bool b)
  | text (t : Text) : IsSetting (.text t)
  | list {vs : List Value} (h : ∀ v ∈ vs, IsSetting v) : IsSetting (.list none vs)
  | map {es : List (Text × Value)} (hkeys : ∀ e ∈ es, IsKey e.1) (hvalues : ∀ e ∈ es, IsSetting e.2)
    (hnodup : (es.map Prod.fst).Nodup) : IsSetting (.map none (texts es))

/-- every text is read as it was, when a value is written at an indentation, in the line of a dash (compact) or under a key: a
text needs no double quotes, or lines have room, or no space comes after a character that is escaped -/
inductive Clean : Bool → Nat → Value → Prop where
  | null {compact : Bool} {indent : Nat} : Clean compact indent .null
  | bool {compact : Bool} {indent : Nat} (b : Bool) : Clean compact indent (.bool b)
  | text {compact : Bool} {indent : Nat} {t : Text}
    (h : canBeSingle t = true ∨ indent < bestWidth ∨ spaceAfterEscape false t.tail = false) : Clean compact indent (.text t)
  | list {compact : Bool} {indent : Nat} {mark : Option Nat} {vs : List Value}
    (h : ∀ v ∈ vs, Clean true (if compact then indent + 2 else indent) v) : Clean compact indent (.list mark vs)
  | map {compact : Bool} {indent : Nat} {mark : Option Nat} {entries : List (Value × Value)}
    (h : ∀ e ∈ entries, Clean false (indent + 2) e.2) : Clean compact indent (.map mark entries)

mutual

/-- a value as it is read where it is written at an indentation, in the line of a dash (compact) or under a key -/
def rereadValue (compact : Bool) (indent : Nat) : Value → Value
  | .text t => .text (rereadText indent t)
  | .list mark items => .list mark (rereadListed (if compact then indent + 2 else indent) items)
  | .map mark entries => .map mark (rereadMapped (indent + 2) entries)
  | v => v

def rereadListed (indent : Nat) : List Value → List Value
  | [] => []
  | v :: r => rereadValue true indent v :: rereadListed indent r

def rereadMapped (indent : Nat) : List (Value × Value) → List (Value × Value)
  | [] => []
  | (k, v) :: r => (k, rereadValue false indent v) :: rereadMapped indent r

end

theorem rereadListed_eq (indent : Nat) (vs : List Value) : rereadListed indent vs = vs.map (rereadValue true indent) := by
  induction vs with
  | nil => rfl
  | cons v vs ih => rw [rereadListed, ih, List.map_cons]

theorem rereadMapped_texts (indent : Nat) (es : List (Text × Value)) :
    rereadMapped indent (texts es) = texts (es.map fun e => (e.1, rereadValue false indent e.2)) := by
  induction es with
  | nil => rfl
  | cons e es ih =>
    rw [texts_cons, rereadMapped, ih]
    rfl

/-! ## Nodes of settings -/

/-- the node of a value that stands at one place only -/
def settingNode (v : Value) : Node := (nodeOf [] [] v).1

def entryNode (e : Text × Value) : Node × Node := (scalarNode (.text e.1), settingNode e.2)

/-- the node does not depend on what stands at several places -/
def Alone (v : Value) : Prop := ∀ again written, nodeOf again written v = (settingNode v, written)

theorem nodesOf_alone {vs : List Value} (h : ∀ v ∈ vs, Alone v) (again : List Nat) (written : List Text) :
    nodesOf again written vs = (vs.map settingNode, written) := by
  induction vs with
  | nil => rfl
  | cons v vs ih =>
    rw [nodesOf, h v List.mem_cons_self again written]
    simp only [ih fun w hw => h w (List.mem_cons_of_mem _ hw), List.map_cons]

theorem entryNodesOf_alone {es : List (Text × Value)} (h : ∀ e ∈ es, Alone e.2) (again : List Nat) (written : List Text) :
    entryNodesOf again written (texts es) = (es.map entryNode, written) := by
  induction es with
  | nil => rfl
  | cons e es ih =>
    rw [texts_cons, entryNodesOf, h e List.mem_cons_self again written]
    simp only [ih fun f hf => h f (List.mem_cons_of_mem _ hf)]
    rfl

theorem nodeOf_list {vs : List Value} (h : ∀ v ∈ vs, Alone v) (again : List Nat) (written : List Text) :
    nodeOf again written (.list none vs) = (.seq .none (vs.map settingNode), written) := by
  simp [nodeOf, anchorName?, nodesOf_alone h]

theorem nodeOf_map {es : List (Text × Value)} (h : ∀ e ∈ es, Alone e.2) (again : List Nat) (written : List Text) :
    nodeOf again written (.map none (texts es)) =
      (.map .none (es.map entryNode), written) := by
  simp [nodeOf, anchorName?, entryNodesOf_alone h]

theorem IsSetting.alone {v : Value} (h : IsSetting v) : Alone v := by
  induction h with
  | null => exact fun _ _ => rfl
  | bool b => exact fun _ _ => rfl
  | text t => exact fun _ _ => rfl
  | list h ih => exact fun again written => by rw [settingNode, nodeOf_list ih, nodeOf_list ih]
  | map hkeys hvalues hnodup ih => exact fun again written => by rw [settingNode, nodeOf_map ih, nodeOf_map ih]

theorem settingNode_list {vs : List Value} (h : ∀ v ∈ vs, IsSetting v) :
    settingNode (.list none vs) = .seq .none (vs.map settingNode) := by
  rw [settingNode, nodeOf_list fun v hv => (h v hv).alone]

theorem settingNode_map {es : List (Text × Value)} (h : ∀ e ∈ es, IsSetting e.2) :
    settingNode (.map none (texts es)) = .map .none (es.map entryNode) := by
  rw [settingNode, nodeOf_map fun e he => (h e he).alone]

/-! ## What is written of settings -/

theorem IsKey.node {t : Text} (h : IsKey t) : IsKeyNode (scalarNode (.text t)) := by
  refine ⟨_, t, rfl, h.printable, h.nonempty, by have := h.short; omega, fun hplain => ?_⟩
  simp only [Bool.and_eq_true] at hplain
  exact hplain.2

theorem isKeyNode_entries {es : List (Text × Value)} (h : ∀ e ∈ es, IsKey e.1) : ∀ e ∈ es.map entryNode, IsKeyNode e.1 := by
  intro e he
  obtain ⟨f, hf, rfl⟩ := List.mem_map.1 he
  exact (h f hf).node

theorem legible_setting {v : Value} (h : IsSetting v) : Legible (settingNode v) := by
  induction h with
  | null => exact .scalar fun _ => (by decide : canBePlain "null" = true)
  | bool b =>
    cases b with
    | true => exact .scalar fun _ => (by decide : canBePlain "true" = true)
    | false => exact .scalar fun _ => (by decide : canBePlain "false" = true)
  | text t =>
    refine .scalar fun hplain => ?_
    simp only [Bool.and_eq_true] at hplain
    exact hplain.2
  | @list vs h ih =>
    rw [settingNode_list h]
    refine .seq fun n hn => ?_
    obtain ⟨v, hv, rfl⟩ := List.mem_map.1 hn
    exact ih v hv
  | @map es hkeys hvalues hnodup ih =>
    rw [settingNode_map hvalues]
    refine .map (isKeyNode_entries hkeys) fun e he => ?_
    obtain ⟨f, hf, rfl⟩ := List.mem_map.1 he
    exact ih f hf

/-! ## What is read of settings -/

def Builds (n : Node) (v : Value) : Prop := ∀ m, ∃ m', build false m n = .ok (v, m')

theorem scalarKind_text (t : Text) : scalarKind .none (Kind.ofPlain t = .text && canBePlain t) t = .ok .text := by
  cases hplain : (decide (Kind.ofPlain t = .text) && canBePlain t) with
  | false => rfl
  | true =>
    simp only [Bool.and_eq_true, decide_eq_true_eq] at hplain
    simp only [scalarKind, Props.none, if_true, hplain.1]
    rfl

theorem build_text (m : Memory) (t : Text) : build false m (scalarNode (.text t)) = .ok (.text t, m) := by
  rw [scalarNode, build, scalarKind_text]
  rfl

/-- what is written without quotes is read as it was -/
theorem builds_plain {t : Text} {v : Value} (ht : canBePlain t = true)
    (h : ∀ m, build false m (.scalar .none true t) = .ok (v, m)) (compact : Bool) (indent : Nat) :
    Builds (rereadNode compact indent (.scalar .none true t)) v := by
  intro m
  rw [rereadNode, rereadText_plain ht]
  exact ⟨m, h m⟩

theorem builds_text (compact : Bool) (indent : Nat) (t : Text) :
    Builds (rereadNode compact indent (scalarNode (.text t))) (.text (rereadText (indent + 2) t)) := by
  have hbuild := fun m => build_text m t
  rw [scalarNode] at hbuild ⊢
  cases hplain : (decide (Kind.ofPlain t = .text) && canBePlain t) with
  | false => exact fun m => ⟨m, rfl⟩
  | true =>
    have ht := (Bool.and_eq_true_iff.1 hplain).2
    rw [hplain] at hbuild
    rw [rereadText_plain ht]
    exact builds_plain ht hbuild compact indent

theorem buildItems_reread {indent : Nat} {vs : List Value}
    (h : ∀ v ∈ vs, Builds (rereadNode true indent (settingNode v)) (rereadValue true (indent + 2) v)) (m : Memory) :
    ∃ m', buildItems false m (rereadItems indent (vs.map settingNode)) = .ok (rereadListed (indent + 2) vs, m') := by
  induction vs generalizing m with
  | nil => exact ⟨m, rfl⟩
  | cons v vs ih =>
    obtain ⟨m₁, hv⟩ := h v List.mem_cons_self m
    obtain ⟨m₂, hvs⟩ := ih (fun w hw => h w (List.mem_cons_of_mem _ hw)) m₁
    refine ⟨m₂, ?_⟩
    rw [List.map_cons, rereadItems, rereadListed, buildItems, hv]
    simp only [bind, Except.bind, hvs]
    rfl

theorem buildEntries_reread {indent : Nat} {es : List (Text × Value)}
    (h : ∀ e ∈ es, Builds (rereadNode false indent (settingNode e.2)) (rereadValue false (indent + 2) e.2)) (m : Memory) :
    ∃ m', buildEntries false m (rereadEntries indent (es.map entryNode)) =
      .ok (⟨[], rereadMapped (indent + 2) (texts es)⟩, m') := by
  induction es generalizing m with
  | nil => exact ⟨m, rfl⟩
  | cons e es ih =>
    obtain ⟨m₁, hv⟩ := h e List.mem_cons_self m
    obtain ⟨m₂, hes⟩ := ih (fun f hf => h f (List.mem_cons_of_mem _ hf)) m₁
    have hkind : ∀ k, k ≠ .text → isOfKind k (scalarNode (.text e.1)) = false := by
      intro k hk
      simp [scalarNode, isOfKind, scalarKind_text, hk]
    refine ⟨m₂, ?_⟩
    rw [List.map_cons, entryNode, rereadEntries, texts_cons, rereadMapped, buildEntries, hkind .merge (by simp),
      hkind .default (by simp), build_text]
    simp only [bind, Except.bind, hv, hes]
    rfl

theorem collect_texts {es : List (Text × Value)} (h : (es.map Prod.fst).Nodup) : collect (texts es) = texts es := by
  have hgo : ∀ before, ((before ++ es).map Prod.fst).Nodup →
      (texts es).foldl (fun fs e => Value.assign e.1 e.2 fs) (texts before) = texts (before ++ es) := by
    clear h
    induction es with
    | nil => intro before _; simp [texts]
    | cons e es ih =>
      intro before hnodup
      have hnew : e.1 ∉ before.map Prod.fst := by
        rw [List.map_append, List.map_cons, List.nodup_append] at hnodup
        intro hmem
        exact hnodup.2.2 _ hmem _ List.mem_cons_self rfl
      rw [texts_cons, List.foldl_cons, assign_new hnew, ih (before ++ [e]) (by simpa using hnodup), List.append_assoc,
        List.singleton_append]
  exact hgo [] h

theorem builds_map {indent : Nat} {es : List (Text × Value)} (hnodup : (es.map Prod.fst).Nodup)
    (h : ∀ e ∈ es, Builds (rereadNode false indent (settingNode e.2)) (rereadValue false (indent + 2) e.2)) :
    Builds (.map .none (rereadEntries indent (es.map entryNode))) (.map none (rereadMapped (indent + 2) (texts es))) := by
  intro m
  obtain ⟨m', hbuild⟩ := buildEntries_reread h { m with next := m.next + 1 }
  have hread := rereadMapped_texts (indent + 2) es
  have hnames : ((es.map fun e => (e.1, rereadValue false (indent + 2) e.2)).map Prod.fst).Nodup := by
    rw [List.map_map]
    exact hnodup
  have hall : (rereadMapped (indent + 2) (texts es)).all (fun e => isKey e.1) = true := by
    refine List.all_eq_true.2 fun e he => ?_
    rw [hread] at he
    obtain ⟨k, v, -, rfl⟩ := mem_texts he
    rfl
  have hcollect : collect (rereadMapped (indent + 2) (texts es)) = rereadMapped (indent + 2) (texts es) := by
    rw [hread, collect_texts hnames]
  refine ⟨m', ?_⟩
  rw [build]
  simp only [checkTag, Props.none, hbuild, bind, Except.bind, Memory.bind, List.nil_append, hall, hcollect]
  rfl

theorem builds_setting {v : Value} (h : IsSetting v) (compact : Bool) (indent : Nat) :
    Builds (rereadNode compact indent (settingNode v)) (rereadValue compact (indent + 2) v) := by
  induction h generalizing compact indent with
  | null => exact builds_plain (by decide) (fun _ => rfl) compact indent
  | bool b =>
    cases b with
    | true => exact builds_plain (by decide) (fun _ => rfl) compact indent
    | false => exact builds_plain (by decide) (fun _ => rfl) compact indent
  | text t => exact builds_text compact indent t
  | @list vs h ih =>
    intro m
    obtain ⟨m', hbuild⟩ := buildItems_reread (fun v hv => ih v hv true (if compact then indent + 2 else indent))
      { m with next := m.next + 1 }
    have hindent : (if compact then indent + 2 + 2 else indent + 2) = (if compact then indent + 2 else indent) + 2 := by
      split_ifs <;> rfl
    refine ⟨m', ?_⟩
    rw [settingNode_list h, rereadNode, rereadValue, hindent, build]
    simp only [checkTag, Props.none, hbuild, bind, Except.bind, Memory.bind]
    rfl
  | @map es hkeys hvalues hnodup ih =>
    rw [settingNode_map hvalues]
    exact builds_map hnodup fun e he => ih e he false (indent + 2)

/-- **Settings are read where they were printed**, with each text as it is read; and nothing but newlines and printable
characters is printed. -/
theorem load_printNode {es : List (Text × Value)} (h : IsSetting (.map none (texts es))) :
    Ordinary (printNode (settingNode (.map none (texts es)))) ∧
      load (printNode (settingNode (.map none (texts es)))) = .ok (rereadValue false 0 (.map none (texts es))) := by
  generalize hes : texts es = entries at h ⊢
  cases h with
  | @map fs hkeys hvalues hnodup =>
    have hnames := isKeyNode_entries hkeys
    have hlegible : ∀ e ∈ fs.map entryNode, Legible e.2 := by
      intro e he
      obtain ⟨f, hf, rfl⟩ := List.mem_map.1 he
      exact legible_setting (hvalues f hf)
    have hnames' := isKeyNode_reread hnames 0
    have hlegible' := legible_rereadEntries hlegible 0
    have halias := no_alias_map hnames' (fun e he => no_alias (hlegible' e he)) false
    obtain ⟨m, hbuild⟩ := builds_map hnodup (fun e he => builds_setting (hvalues e he) false 0) ⟨[], 0⟩
    rw [settingNode_map hvalues]
    refine ⟨ordinary_printNode hnames hlegible, ?_⟩
    rw [load, tokens_printNode hnames hlegible]
    simp only [bind, Except.bind, nodeOfTokens_nodeTokens hnames' hlegible', halias, hbuild]
    rfl

/-! ## Order -/

theorem arrangedItems_eq (vs : List Value) : arrangedItems vs = vs.map arranged := by
  induction vs with
  | nil => rfl
  | cons v vs ih => rw [arrangedItems, ih, List.map_cons]

theorem arrangedEntries_texts (es : List (Text × Value)) :
    arrangedEntries (texts es) = texts (es.map fun e => (e.1, arranged e.2)) := by
  induction es with
  | nil => rfl
  | cons e es ih =>
    rw [texts_cons, arrangedEntries, ih]
    rfl

theorem comparable_texts (es : List (Text × Value)) : comparable ((texts es).map Prod.fst) = true := by
  induction es with
  | nil => rfl
  | cons e es ih =>
    rw [texts_cons, List.map_cons, comparable, ih, Bool.and_true, List.all_eq_true]
    intro k hk
    obtain ⟨f, hf, rfl⟩ := List.mem_map.1 hk
    obtain ⟨k, v, -, rfl⟩ := mem_texts hf
    rfl

/-- keys that are texts are put in order, with what stands under them -/
theorem arranged_map (es : List (Text × Value)) :
    ∃ fs, arranged (.map none (texts es)) = .map none (texts fs) ∧ fs.Perm (es.map fun e => (e.1, arranged e.2)) := by
  refine ⟨(es.map fun e => (e.1, arranged e.2)).mergeSort fun a b => (a.1.order b.1).isLE, ?_, List.mergeSort_perm ..⟩
  rw [arranged, arrangedEntries_texts, sortEntries, if_pos (comparable_texts _)]
  congr 1
  rw [texts, texts]
  exact (List.map_mergeSort (r := fun a b : Text × Value => (a.1.order b.1).isLE)
    (f := fun e : Text × Value => (Value.text e.1, e.2)) fun a _ b _ => rfl).symm

theorem arranged_setting {v : Value} (h : IsSetting v) : IsSetting (arranged v) := by
  induction h with
  | null => exact .null
  | bool b => exact .bool b
  | text t => exact .text t
  | list h ih =>
    rw [arranged, arrangedItems_eq]
    refine .list fun w hw => ?_
    obtain ⟨v, hv, rfl⟩ := List.mem_map.1 hw
    exact ih v hv
  | @map es hkeys hvalues hnodup ih =>
    obtain ⟨fs, hfs, hperm⟩ := arranged_map es
    rw [hfs]
    have hmem : ∀ f ∈ fs, ∃ e ∈ es, f = (e.1, arranged e.2) := fun f hf => by
      obtain ⟨e, he, rfl⟩ := List.mem_map.1 (hperm.subset hf)
      exact ⟨e, he, rfl⟩
    refine .map (fun f hf => ?_) (fun f hf => ?_) ?_
    · obtain ⟨e, he, rfl⟩ := hmem f hf
      exact hkeys e he
    · obtain ⟨e, he, rfl⟩ := hmem f hf
      exact ih e he
    · have hnames := hperm.map Prod.fst
      rw [List.map_map] at hnames
      exact hnames.nodup_iff.2 hnodup

theorem sameItems_map {vs : List Value} {f : Value → Value} :
    Value.sameItems (vs.map f) vs = true ↔ ∀ v ∈ vs, Value.same (f v) v = true := by
  induction vs with
  | nil => simp [Value.sameItems]
  | cons v vs ih => simp [Value.sameItems, ih]

theorem sameEntries_iff {es fs : List (Value × Value)} :
    Value.sameEntries es fs = true ↔ ∀ e ∈ es, ∃ f ∈ fs, Value.same e.1 f.1 = true ∧ Value.same e.2 f.2 = true := by
  induction es with
  | nil => simp [Value.sameEntries]
  | cons e es ih =>
    rw [Value.sameEntries, Bool.and_eq_true, ih, List.any_eq_true]
    simp

/-- mappings with the same keys, each once, are equal exactly if what stands under each key is -/
theorem same_map {es fs : List (Text × Value)} {f : Value → Value} (hnodup : (es.map Prod.fst).Nodup)
    (hperm : fs.Perm (es.map fun e => (e.1, f e.2))) :
    Value.same (.map none (texts fs)) (.map none (texts es)) = true ↔ ∀ e ∈ es, Value.same (f e.2) e.2 = true := by
  have hlength : (texts fs).length = (texts es).length := by
    simpa [texts] using hperm.length_eq
  rw [Value.same, hlength, decide_eq_true rfl, Bool.true_and, sameEntries_iff]
  constructor
  · intro hsame e he
    have hmem : (e.1, f e.2) ∈ fs := hperm.mem_iff.2 (List.mem_map_of_mem he)
    obtain ⟨g, hg, hkey, hvalue⟩ := hsame (.text e.1, f e.2) (List.mem_map_of_mem hmem)
    obtain ⟨k, v, hkv, rfl⟩ := mem_texts hg
    -- the key stands once, so the entry with the same key is the same entry
    have hsingle : (k, v) = e := List.inj_on_of_nodup_map hnodup hkv he (of_decide_eq_true hkey).symm
    obtain rfl := hsingle
    exact hvalue
  · intro hsame e he
    obtain ⟨k, v, hmem, rfl⟩ := mem_texts he
    obtain ⟨g, hg, heq⟩ := List.mem_map.1 (hperm.subset hmem)
    simp only [Prod.mk.injEq] at heq
    obtain ⟨rfl, rfl⟩ := heq
    exact ⟨(.text g.1, g.2), List.mem_map_of_mem hg, decide_eq_true rfl, hsame g hg⟩

/-- **Settings in order are read as they were** exactly if every text is. -/
theorem same_reread {v : Value} (h : IsSetting v) (compact : Bool) (indent : Nat) :
    Value.same (rereadValue compact indent (arranged v)) v = true ↔ Clean compact indent v := by
  induction h generalizing compact indent with
  | null => exact iff_of_true rfl .null
  | bool b => exact iff_of_true (by cases b <;> rfl) (.bool b)
  | text t =>
    rw [arranged, rereadValue, same_text, decide_eq_true_iff, rereadText_eq_self]
    · exact ⟨.text, fun hclean => by cases hclean with | text h => exact h⟩
    all_goals simp
  | @list vs h ih =>
    rw [arranged, arrangedItems_eq, rereadValue, rereadListed_eq, List.map_map, Value.same, sameItems_map]
    constructor
    · exact fun hsame => .list fun v hv => (ih v hv _ _).1 (hsame v hv)
    · intro hclean v hv
      cases hclean with
      | list hitems => exact (ih v hv _ _).2 (hitems v hv)
  | @map es hkeys hvalues hnodup ih =>
    obtain ⟨fs, hfs, hperm⟩ := arranged_map es
    have hread := hperm.map fun e => (e.1, rereadValue false (indent + 2) e.2)
    rw [List.map_map] at hread
    rw [hfs, rereadValue, rereadMapped_texts,
      same_map (f := fun v => rereadValue false (indent + 2) (arranged v)) hnodup hread]
    constructor
    · intro hsame
      refine .map fun e he => ?_
      obtain ⟨k, v, hmem, rfl⟩ := mem_texts he
      exact (ih (k, v) hmem _ _).1 (hsame (k, v) hmem)
    · intro hclean e he
      cases hclean with
      | map hentries => exact (ih e he _ _).2 (hentries (.text e.1, e.2) (List.mem_map_of_mem he))

/-- **A dumped mapping loads** with its keys in order, and with each text as it is read. -/
theorem load_dump {es : List (Text × Value)} (h : IsSetting (.map none (texts es))) :
    Ordinary (dump (.map none (texts es))) ∧
      load (dump (.map none (texts es))) = .ok (rereadValue false 0 (arranged (.map none (texts es)))) := by
  have harranged := arranged_setting h
  have hnode : documentNode (.map none (texts es)) = settingNode (arranged (.map none (texts es))) := by
    rw [documentNode, harranged.alone]
  obtain ⟨fs, hfs, -⟩ := arranged_map es
  rw [hfs] at harranged
  rw [dump, hnode, hfs]
  exact load_printNode harranged

end RepoLens.Yaml
