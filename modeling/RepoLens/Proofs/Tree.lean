import Mathlib.Tactic
import RepoLens.Proofs.Entries
import RepoLens.Value.Shown
/-!
Trees of values. Two values are the same tree if they hold the same scalars at the same places; the order of the entries of a
mapping does not count, and neither do marks. A tree without aliases has each mark once, so that a collection stands at one
place only.

Results:
- `SameTree.refl`, `SameTree.symm`, `SameTree.trans`: being the same tree is an equivalence;
- `SameTree.get?`, `SameTree.set`: what stands under a name, and setting it, do not depend on the order of the entries;
- `SameTree.shown_eq`: values without mappings are shown alike if they are the same tree;
- `replaceMarkedEntries_assign`: where each mark stands once, what is replaced by its mark is replaced in its own place only.
-/
namespace RepoLens.Value

/-! ## Induction -/

/-- a value that holds no others -/
def IsScalar : Value → Prop
  | list .. | map .. => False
  | _ => True

/-- induction on values: scalars, lists by their items, mappings by what stands under their keys -/
@[elab_as_elim]
theorem rec_tree {P : Value → Prop} (v : Value) (scalar : ∀ v, v.IsScalar → P v)
    (list : ∀ mark vs, (∀ v ∈ vs, P v) → P (.list mark vs))
    (map : ∀ mark es, (∀ e ∈ es, P e.2) → P (.map mark es)) : P v := by
  refine @Value.rec P (fun vs => ∀ v ∈ vs, P v) (fun es => ∀ e ∈ es, P e.2) (fun e => P e.2) (scalar _ trivial)
    (fun b => scalar _ trivial) (fun n => scalar _ trivial) (fun x => scalar _ trivial) (fun t => scalar _ trivial)
    (fun s => scalar _ trivial) list map ?_ ?_ ?_ ?_ (fun k v _ hv => hv) v
  · exact fun v hv => absurd hv List.not_mem_nil
  · exact fun v vs hv hvs => List.forall_mem_cons.2 ⟨hv, hvs⟩
  · exact fun e he => absurd he List.not_mem_nil
  · exact fun e es he hes => List.forall_mem_cons.2 ⟨he, hes⟩

/-! ## The same tree -/

/-- trees with the same scalars at the same places, the entries of a mapping in any order -/
inductive SameTree : Value → Value → Prop where
  | scalar {v : Value} (h : v.IsScalar) : SameTree v v
  | list {m n : Option Nat} {vs ws : List Value} (h : List.Forall₂ SameTree vs ws) : SameTree (.list m vs) (.list n ws)
  | map {m n : Option Nat} {es fs gs : List (Value × Value)} (hkeys : es.map Prod.fst = gs.map Prod.fst)
    (hvalues : List.Forall₂ SameTree (es.map Prod.snd) (gs.map Prod.snd)) (hperm : gs.Perm fs) :
    SameTree (.map m es) (.map n fs)

/-- entries with the same key and the same tree under it -/
def SameEntry (e f : Value × Value) : Prop := e.1 = f.1 ∧ SameTree e.2 f.2

theorem sameEntry_iff {es fs : List (Value × Value)} : List.Forall₂ SameEntry es fs ↔
    es.map Prod.fst = fs.map Prod.fst ∧ List.Forall₂ SameTree (es.map Prod.snd) (fs.map Prod.snd) := by
  rw [← List.forall₂_eq_eq_eq, List.forall₂_map_left_iff, List.forall₂_map_right_iff, List.forall₂_map_left_iff,
    List.forall₂_map_right_iff]
  constructor
  · intro h
    exact ⟨h.imp fun _ _ he => he.1, h.imp fun _ _ he => he.2⟩
  · rintro ⟨hkeys, hvalues⟩
    induction hkeys with
    | nil => exact .nil
    | cons hk _ ih =>
      cases hvalues with
      | cons hv hvs => exact .cons ⟨hk, hv⟩ (ih hvs)

/-- mappings are the same tree if their entries are, in some order -/
theorem sameTree_map {m n : Option Nat} {es fs : List (Value × Value)} :
    SameTree (.map m es) (.map n fs) ↔ ∃ gs, List.Forall₂ SameEntry es gs ∧ gs.Perm fs := by
  constructor
  · intro h
    cases h with
    | scalar h => exact h.elim
    | map hkeys hvalues hperm => exact ⟨_, sameEntry_iff.2 ⟨hkeys, hvalues⟩, hperm⟩
  · rintro ⟨gs, hsame, hperm⟩
    obtain ⟨hkeys, hvalues⟩ := sameEntry_iff.1 hsame
    exact .map hkeys hvalues hperm

namespace SameTree

variable {v w x : Value}

theorem refl (v : Value) : SameTree v v := by
  induction v using rec_tree with
  | scalar v h => exact .scalar h
  | list mark vs ih => exact .list (List.forall₂_same.2 ih)
  | map mark es ih => exact sameTree_map.2 ⟨es, List.forall₂_same.2 fun e he => ⟨rfl, ih e he⟩, List.Perm.refl es⟩

/-- a mapping with its entries in another order -/
theorem of_perm {m n : Option Nat} {es fs : List (Value × Value)} (h : es.Perm fs) : SameTree (.map m es) (.map n fs) :=
  sameTree_map.2 ⟨es, List.forall₂_same.2 fun e _ => ⟨rfl, refl e.2⟩, h⟩

theorem symm (h : SameTree v w) : SameTree w v := by
  induction v using rec_tree generalizing w with
  | scalar v hv =>
    cases h with
    | scalar => exact .scalar hv
    | _ => exact hv.elim
  | list mark vs ih =>
    cases h with
    | scalar h => exact h.elim
    | list h => exact .list (List.Forall₂.flip (((List.forall₂_and_left _ _).2 ⟨ih, h⟩).imp fun _ _ hvw => hvw.1 hvw.2))
  | map mark es ih =>
    cases h with
    | scalar h => exact h.elim
    | map hkeys hvalues hperm =>
      have hsame := (List.forall₂_and_left _ _).2 ⟨ih, sameEntry_iff.2 ⟨hkeys, hvalues⟩⟩
      have hback := List.Forall₂.flip (hsame.imp fun _ _ hef => (⟨hef.2.1.symm, hef.1 hef.2.2⟩ : SameEntry _ _))
      exact sameTree_map.2 (List.perm_comp_forall₂ hperm.symm hback)

/-- a relation that is transitive at the members of a list is transitive on such lists -/
theorem forall₂_trans {α : Type} {R : α → α → Prop} {as bs cs : List α} (h : List.Forall₂ R as bs)
    (h' : List.Forall₂ R bs cs) (htrans : ∀ a ∈ as, ∀ b c, R a b → R b c → R a c) : List.Forall₂ R as cs := by
  induction h generalizing cs with
  | nil => exact h'
  | cons hab _ ih =>
    cases h' with
    | cons hbc htail =>
      exact .cons (htrans _ List.mem_cons_self _ _ hab hbc) (ih htail fun a ha => htrans a (List.mem_cons_of_mem _ ha))

theorem trans (h : SameTree v w) (h' : SameTree w x) : SameTree v x := by
  induction v using rec_tree generalizing w x with
  | scalar v hv =>
    cases h with
    | scalar => exact h'
    | _ => exact hv.elim
  | list mark vs ih =>
    cases h with
    | scalar h => exact h.elim
    | list h =>
      cases h' with
      | scalar h => exact h.elim
      | list h' => exact .list (forall₂_trans h h' fun v hv _ _ => ih v hv)
  | map mark es ih =>
    cases h with
    | scalar h => exact h.elim
    | map hkeys hvalues hperm =>
      cases h' with
      | scalar h => exact h.elim
      | map hkeys' hvalues' hperm' =>
        -- the entries in the middle are put into the order of the first before the lists are compared
        obtain ⟨gs, hsame, hperm''⟩ := List.perm_comp_forall₂ hperm (sameEntry_iff.2 ⟨hkeys', hvalues'⟩)
        refine sameTree_map.2 ⟨gs, ?_, hperm''.trans hperm'⟩
        exact forall₂_trans (sameEntry_iff.2 ⟨hkeys, hvalues⟩) hsame
          fun e he _ _ hef hfg => ⟨hef.1.trans hfg.1, ih e he hef.2 hfg.2⟩

end SameTree

/-! ## What stands under a name -/

theorem same_text_iff {k : Value} {t : Text} : same k (.text t) = true ↔ k = .text t := by
  cases k <;> simp [same, sameScalar, number?]

theorem same_text_false {k : Value} {t : Text} : same k (.text t) = false ↔ k ≠ .text t := by
  rw [← Bool.not_eq_true, same_text_iff]

/-- entries among whose keys no name stands twice -/
def NamesOnce (es : List (Value × Value)) : Prop := (es.map Prod.fst).Pairwise fun k l => ∀ t, k = .text t → l ≠ .text t

theorem mem_of_lookup {es : List (Value × Value)} {key : Text} {v : Value} (h : lookup key es = some v) :
    (.text key, v) ∈ es := by
  induction es with
  | nil => simp [lookup] at h
  | cons e es ih =>
    rw [lookup] at h
    split_ifs at h with hk
    · obtain rfl := Option.some.inj h
      exact List.mem_cons.2 (Or.inl (Prod.ext (same_text_iff.1 hk).symm rfl))
    · exact List.mem_cons_of_mem _ (ih h)

/-- where each name stands once, what stands under it is its entry -/
theorem lookup_eq_some_iff {es : List (Value × Value)} (h : NamesOnce es) {key : Text} {v : Value} :
    lookup key es = some v ↔ (.text key, v) ∈ es := by
  refine ⟨mem_of_lookup, fun hmem => ?_⟩
  rw [NamesOnce, List.pairwise_map] at h
  induction h with
  | nil => exact absurd hmem List.not_mem_nil
  | @cons e es he _ ih =>
    rw [lookup]
    rcases List.mem_cons.1 hmem with rfl | hmem
    · rw [if_pos (same_text_iff.2 rfl)]
    · have hne : e.1 ≠ .text key := fun hk => he _ hmem key hk rfl
      rw [if_neg (by simp [same_text_false.2 hne]), ih hmem]

theorem namesOnce_perm {es fs : List (Value × Value)} (h : NamesOnce es) (hperm : es.Perm fs) : NamesOnce fs :=
  ((hperm.map Prod.fst).pairwise_iff fun hk t hl hne => hk t hne hl).1 h

theorem namesOnce_same {es fs : List (Value × Value)} (h : List.Forall₂ SameEntry es fs) (hfs : NamesOnce fs) :
    NamesOnce es := by
  rwa [NamesOnce, (sameEntry_iff.1 h).1]

theorem lookup_perm {es fs : List (Value × Value)} (h : NamesOnce es) (hperm : es.Perm fs) (key : Text) :
    lookup key es = lookup key fs := by
  ext v
  rw [lookup_eq_some_iff h, lookup_eq_some_iff (namesOnce_perm h hperm), hperm.mem_iff]

theorem lookup_same {es fs : List (Value × Value)} (h : List.Forall₂ SameEntry es fs) (key : Text) :
    Option.Rel SameTree (lookup key es) (lookup key fs) := by
  induction h with
  | nil => exact .none
  | @cons e f _ _ hef _ ih =>
    obtain ⟨k, v⟩ := e
    obtain ⟨l, w⟩ := f
    obtain ⟨hk, hv⟩ := hef
    simp only at hk
    rw [lookup, lookup, ← hk]
    split_ifs
    · exact .some hv
    · exact ih

/-- a value whose own entries, if it has any, have each name once -/
def Named : Value → Prop
  | .map _ es => NamesOnce es
  | _ => True

/-- what stands under a name is the same in the same tree -/
theorem SameTree.get? {v w : Value} (h : SameTree v w) (hw : w.Named) (key : Text) :
    Option.Rel SameTree (v.get? key) (w.get? key) := by
  cases h with
  | @scalar v h =>
    cases v with
    | map => exact h.elim
    | _ => exact .none
  | list h => exact .none
  | map hkeys hvalues hperm =>
    rw [Value.get?, Value.get?, lookup_perm hw hperm.symm]
    exact lookup_same (sameEntry_iff.2 ⟨hkeys, hvalues⟩) key

/-! ## Setting what stands under a name -/

def set : Value → Text → Value → Value
  | .map mark es, key, x => .map mark (assign (.text key) x es)
  | v, _, _ => v

def IsMap : Value → Prop
  | .map .. => True
  | _ => False

variable {v w x y : Value} {key other : Text}

theorem SameTree.isMap (h : SameTree v w) (hw : w.IsMap) : v.IsMap := by
  cases h with
  | scalar => exact hw
  | list => exact hw
  | map => trivial

theorem IsMap.set (h : v.IsMap) : (v.set key x).IsMap := by
  cases v with
  | map => trivial
  | _ => exact h.elim

theorem lookup_assign (key other : Text) (x : Value) (es : List (Value × Value)) :
    lookup other (assign (.text key) x es) = if other = key then some x else lookup other es := by
  induction es with
  | nil => simp [assign, lookup, same_text, eq_comm]
  | cons e es ih =>
    obtain ⟨k, v⟩ := e
    rw [assign]
    split_ifs with hk hother hother
    · rw [lookup, hother, if_pos hk]
    · obtain rfl := same_text_iff.1 hk
      simp [lookup, same_text, Ne.symm hother]
    · rw [lookup, ih, if_pos hother, hother, if_neg hk]
    · rw [lookup, lookup, ih, if_neg hother]

theorem get?_set (h : v.IsMap) : (v.set key x).get? other = if other = key then some x else v.get? other := by
  cases v with
  | map mark es => exact lookup_assign key other x es
  | _ => exact h.elim

theorem set_set : (v.set key y).set key x = v.set key x := by
  cases v with
  | map mark es =>
    rw [set, set, set]
    congr 1
    induction es with
    | nil => simp [assign, same_text]
    | cons e es ih =>
      rw [assign]
      split_ifs with hk
      · rw [assign, if_pos hk, assign, if_pos hk]
      · rw [assign, if_neg hk, ih, assign, if_neg hk]
  | _ => rfl

theorem assign_comm (hne : key ≠ other) (es : List (Value × Value)) :
    (assign (.text key) x (assign (.text other) y es)).Perm (assign (.text other) y (assign (.text key) x es)) := by
  have hne' : same (.text key) (.text other) = false := by rw [same_text]; exact decide_eq_false hne
  have hne'' : same (.text other) (.text key) = false := by rw [same_text]; exact decide_eq_false hne.symm
  induction es with
  | nil => simpa [assign, hne', hne''] using List.Perm.swap _ _ _
  | cons e es ih =>
    obtain ⟨k, v⟩ := e
    by_cases hkey : k = .text key
    · simp [assign, hkey, hne', same_text]
    by_cases hother : k = .text other
    · simp [assign, hother, hne'', same_text]
    · simp only [assign, same_text_false.2 hkey, same_text_false.2 hother, if_false, Bool.false_eq_true]
      exact ih.cons _

theorem set_comm (hne : key ≠ other) : SameTree ((v.set other y).set key x) ((v.set key x).set other y) := by
  cases v with
  | map mark es => exact .of_perm (assign_comm hne es)
  | _ => exact .refl _

theorem assign_keys (k v : Value) (es : List (Value × Value)) :
    (assign k v es).map Prod.fst = es.map Prod.fst ∨
      (assign k v es).map Prod.fst = es.map Prod.fst ++ [k] ∧ ∀ l ∈ es.map Prod.fst, same l k = false := by
  induction es with
  | nil => exact Or.inr ⟨rfl, by simp⟩
  | cons e es ih =>
    rw [assign]
    cases hk : same e.1 k with
    | true => exact Or.inl rfl
    | false =>
      rcases ih with ih | ⟨ih, hnew⟩
      · exact Or.inl (by simp [ih])
      · exact Or.inr ⟨by simp [ih], by simpa [hk] using hnew⟩

theorem namesOnce_assign {es : List (Value × Value)} (h : NamesOnce es) (k v : Value) : NamesOnce (assign k v es) := by
  rw [NamesOnce]
  rcases assign_keys k v es with heq | ⟨heq, hnew⟩
  · rwa [heq]
  · rw [heq, List.pairwise_append]
    refine ⟨h, List.pairwise_singleton _ _, fun l hl m hm t ht => ?_⟩
    rw [List.mem_singleton.1 hm]
    intro hkt
    have hsame : same l k = true := by rw [ht, hkt]; exact same_text_iff.2 rfl
    rw [hnew l hl] at hsame
    exact absurd hsame (by decide)

theorem mem_assign {k v : Value} {e : Value × Value} {es : List (Value × Value)} (h : e ∈ assign k v es) : e ∈ es ∨ e.2 = v := by
  induction es with
  | nil =>
    rw [assign, List.mem_singleton] at h
    exact Or.inr (by rw [h])
  | cons f es ih =>
    rw [assign] at h
    split_ifs at h
    · rcases List.mem_cons.1 h with rfl | h
      · exact Or.inr rfl
      · exact Or.inl (List.mem_cons_of_mem _ h)
    · rcases List.mem_cons.1 h with rfl | h
      · exact Or.inl List.mem_cons_self
      · exact (ih h).imp_left (List.mem_cons_of_mem _)

/-- the entries under other names -/
def others (key : Text) (es : List (Value × Value)) : List (Value × Value) := es.filter fun e => !same e.1 (.text key)

theorem assign_perm {es : List (Value × Value)} (h : NamesOnce es) :
    (assign (.text key) x es).Perm ((.text key, x) :: others key es) := by
  rw [NamesOnce, List.pairwise_map] at h
  induction h with
  | nil => exact List.Perm.refl _
  | @cons e es he _ ih =>
    obtain ⟨k, v⟩ := e
    rw [assign, others, List.filter_cons]
    cases hk : same k (.text key) with
    | true =>
      obtain rfl := same_text_iff.1 hk
      have hall : es.filter (fun e => !same e.1 (.text key)) = es := List.filter_eq_self.2 fun f hf => by
        rw [same_text_false.2 (he f hf key rfl)]
        rfl
      simp [hall]
    | false =>
      simp only [Bool.false_eq_true, if_false, Bool.not_false, if_true]
      exact (ih.cons _).trans (List.Perm.swap _ _ _)

theorem others_same {es fs : List (Value × Value)} (h : List.Forall₂ SameEntry es fs) (key : Text) :
    List.Forall₂ SameEntry (others key es) (others key fs) := by
  refine List.rel_filter (fun e f hef => ?_) h
  simp only [hef.1]

theorem SameTree.set (h : SameTree v w) (hw : w.Named) (hx : SameTree x y) (key : Text) :
    SameTree (v.set key x) (w.set key y) := by
  cases h with
  | @scalar v h =>
    cases v with
    | map => exact h.elim
    | _ => exact .refl _
  | list h => exact .list h
  | @map _ _ es fs gs hkeys hvalues hperm =>
    have hsame := sameEntry_iff.2 ⟨hkeys, hvalues⟩
    have hes := namesOnce_same hsame (namesOnce_perm hw hperm.symm)
    have hset : List.Forall₂ SameEntry ((.text key, x) :: others key es) ((.text key, y) :: others key gs) :=
      .cons ⟨rfl, hx⟩ (others_same hsame key)
    have hfs : ((.text key, y) :: others key gs).Perm (assign (.text key) y fs) :=
      ((hperm.filter _).cons _).trans (assign_perm hw).symm
    have hfirst : SameTree (.map none (assign (.text key) x es)) (.map none ((.text key, x) :: others key es)) :=
      .of_perm (assign_perm hes)
    exact (SameTree.of_perm (List.Perm.refl _)).trans (hfirst.trans (sameTree_map.2 ⟨_, hset, hfs⟩))

/-! ## Marks -/

mutual

/-- the marks of a value and of all that stands in it -/
def marks : Value → List Nat
  | .list mark items => mark.toList ++ marksItems items
  | .map mark entries => mark.toList ++ marksEntries entries
  | _ => []

def marksItems : List Value → List Nat
  | [] => []
  | v :: r => marks v ++ marksItems r

def marksEntries : List (Value × Value) → List Nat
  | [] => []
  | (_, v) :: r => marks v ++ marksEntries r

end

/-- a value of which no collection stands at two places -/
def AliasFree (v : Value) : Prop := v.marks.Nodup

theorem mem_marksItems {n : Nat} {vs : List Value} : n ∈ marksItems vs ↔ ∃ v ∈ vs, n ∈ v.marks := by
  induction vs with
  | nil => simp [marksItems]
  | cons v vs ih => simp [marksItems, ih]

theorem mem_marksEntries {n : Nat} {es : List (Value × Value)} : n ∈ marksEntries es ↔ ∃ e ∈ es, n ∈ e.2.marks := by
  induction es with
  | nil => simp [marksEntries]
  | cons e es ih => simp [marksEntries, ih]

theorem replaceMarkedItems_absent {n : Nat} {new : Value} {vs : List Value} (h : ∀ v ∈ vs, n ∉ v.marks)
    (hsame : ∀ v ∈ vs, n ∉ v.marks → replaceMarked n new v = v) : replaceMarkedItems n new vs = vs := by
  induction vs with
  | nil => rfl
  | cons v vs ih =>
    obtain ⟨hv, hvs⟩ := List.forall_mem_cons.1 h
    obtain ⟨hsame, hrest⟩ := List.forall_mem_cons.1 hsame
    rw [replaceMarkedItems, hsame hv, ih hvs hrest]

theorem replaceMarkedEntries_absent {n : Nat} {new : Value} {es : List (Value × Value)} (h : ∀ e ∈ es, n ∉ e.2.marks)
    (hsame : ∀ e ∈ es, n ∉ e.2.marks → replaceMarked n new e.2 = e.2) : replaceMarkedEntries n new es = es := by
  induction es with
  | nil => rfl
  | cons e es ih =>
    obtain ⟨he, hes⟩ := List.forall_mem_cons.1 h
    obtain ⟨hsame, hrest⟩ := List.forall_mem_cons.1 hsame
    rw [replaceMarkedEntries, hsame he, ih hes hrest]

/-- nothing is replaced where the mark does not stand -/
theorem replaceMarked_absent {n : Nat} {new v : Value} (h : n ∉ v.marks) : replaceMarked n new v = v := by
  induction v using rec_tree with
  | scalar v hv =>
    cases v with
    | list => exact hv.elim
    | map => exact hv.elim
    | _ => rfl
  | list mark vs ih =>
    simp only [marks, List.mem_append, Option.mem_toList, not_or, mem_marksItems, not_exists, not_and] at h
    rw [replaceMarked, if_neg h.1, replaceMarkedItems_absent h.2 ih]
  | map mark es ih =>
    simp only [marks, List.mem_append, Option.mem_toList, not_or, mem_marksEntries, not_exists, not_and] at h
    rw [replaceMarked, if_neg h.1, replaceMarkedEntries_absent h.2 ih]

/-- where each mark stands once, a collection that stands under a name is replaced there only -/
theorem replaceMarkedEntries_assign {n : Nat} {new v : Value} {es : List (Value × Value)} (h : (marksEntries es).Nodup)
    (hlookup : lookup key es = some v) (hmark : n ∈ v.marks) (hnew : replaceMarked n new v = new) :
    replaceMarkedEntries n new es = assign (.text key) new es := by
  induction es with
  | nil => simp [lookup] at hlookup
  | cons e es ih =>
    obtain ⟨k, w⟩ := e
    rw [marksEntries] at h
    obtain ⟨-, htail, hdisjoint⟩ := List.nodup_append.1 h
    rw [lookup] at hlookup
    rw [replaceMarkedEntries, assign]
    split_ifs at hlookup ⊢ with hk
    · obtain rfl := Option.some.inj hlookup
      have hrest : n ∉ marksEntries es := fun hmem => hdisjoint n hmark n hmem rfl
      have hsame : replaceMarkedEntries n new es = es :=
        replaceMarkedEntries_absent (fun e he hmem => hrest (mem_marksEntries.2 ⟨e, he, hmem⟩)) fun e _ => replaceMarked_absent
      rw [hnew, hsame]
    · have hmem : n ∈ marksEntries es := mem_marksEntries.2 ⟨_, mem_of_lookup hlookup, hmark⟩
      rw [replaceMarked_absent fun hw => hdisjoint n hw n hmem rfl, ih htail hlookup]

theorem lookup_replaceMarkedEntries (n : Nat) (new : Value) (es : List (Value × Value)) (key : Text) :
    lookup key (replaceMarkedEntries n new es) = (lookup key es).map (replaceMarked n new) := by
  induction es with
  | nil => rfl
  | cons e es ih =>
    obtain ⟨k, v⟩ := e
    rw [replaceMarkedEntries, lookup, lookup, ih]
    split_ifs <;> rfl

theorem marksEntries_assign {es : List (Value × Value)} (hx : x.marks.Sublist ((lookup key es).getD .null).marks) :
    (marksEntries (assign (.text key) x es)).Sublist (marksEntries es) := by
  induction es with
  | nil => simpa [lookup, marks, assign, marksEntries] using hx
  | cons e es ih =>
    rw [lookup] at hx
    rw [assign, marksEntries]
    split_ifs at hx ⊢
    · exact hx.append_right _
    · exact (ih hx).append_left _

/-- setting an entry brings in no more marks than what is set -/
theorem marks_set (hx : x.marks.Sublist ((v.get? key).getD .null).marks) : (v.set key x).marks.Sublist v.marks := by
  cases v with
  | map mark es => exact (marksEntries_assign hx).append_left _
  | _ => exact List.Sublist.refl _

/-! ## Kinds and texts -/

theorem SameTree.eq_text {t : Text} (h : SameTree v (.text t)) : v = .text t := by
  cases h
  rfl

theorem SameTree.isNothing_eq (h : SameTree v w) : v.isNothing = w.isNothing := by
  cases h with
  | scalar => rfl
  | list h => cases h <;> rfl
  | map hkeys hvalues hperm =>
    have hlength := (sameEntry_iff.2 ⟨hkeys, hvalues⟩).length_eq.trans hperm.length_eq
    rw [isNothing, isNothing, Bool.eq_iff_iff, List.isEmpty_iff_length_eq_zero, List.isEmpty_iff_length_eq_zero, hlength]

/-- a value without mappings: scalars, and lists of such values -/
inductive MapFree : Value → Prop where
  | scalar {v : Value} (h : v.IsScalar) : MapFree v
  | list {mark : Option Nat} {vs : List Value} (h : ∀ v ∈ vs, MapFree v) : MapFree (.list mark vs)

theorem insideItems_eq {vs ws : List Value} (h : List.Forall₂ (fun v w => inside v = inside w) vs ws) :
    insideItems vs = insideItems ws := by
  induction h with
  | nil => rfl
  | cons hv htail ih =>
    cases htail with
    | nil => simpa [insideItems] using hv
    | cons => simp only [insideItems, hv, ih]

theorem SameTree.inside_eq (h : SameTree v w) (hv : v.MapFree) : v.inside = w.inside := by
  induction hv generalizing w with
  | scalar hv =>
    cases h with
    | scalar => rfl
    | _ => exact hv.elim
  | list hvs ih =>
    cases h with
    | scalar h => exact h.elim
    | list h =>
      rw [inside, inside, insideItems_eq (((List.forall₂_and_left _ _).2 ⟨ih, h⟩).imp fun _ _ hvw => hvw.1 hvw.2)]

theorem SameTree.shown_eq (h : SameTree v w) (hv : v.MapFree) : v.shown = w.shown := by
  have hinside := h.inside_eq hv
  cases h with
  | scalar => rfl
  | list => exact hinside
  | map =>
    cases hv with
    | scalar h => exact h.elim

end RepoLens.Value
