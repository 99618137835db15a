import Mathlib.Tactic
import RepoLens.Listing
import RepoLens.Proofs.Fields
/-!
Listings, line by line. A listing is read by one function from lines to items; the items of a listing that can be read
stand in the order of its lines, one for each line that holds something.

Results:
- `bind_eq_ok`: two steps succeed if the first does, and the second on what it gives;
- `mapM_eq_ok`, `mapM_written`, `exists_mapM_ok`, `exists_mapM_iff`: reading succeeds with the items that the lines give one by one;
- `mapM_eq_error`: reading fails with the fault of the first line that has one;
- `committedFiles_shape`: every file of a commit has a text as its name and is owned by that commit.
-/
namespace RepoLens

/-- a job in two parts comes to a value if both do -/
theorem bind_eq_ok {ε α β : Type} {e : Except ε α} {f : α → Except ε β} {b : β} :
    e >>= f = .ok b ↔ ∃ a, e = .ok a ∧ f a = .ok b := by
  cases e with
  | error e => exact ⟨fun h => (nomatch h), fun ⟨_, h, _⟩ => (nomatch h)⟩
  | ok a => exact ⟨fun h => ⟨a, rfl, h⟩, fun ⟨_, ha, h⟩ => Except.ok.inj ha ▸ h⟩

theorem pure_eq_ok {ε α : Type} {a b : α} : (pure a : Except ε α) = .ok b ↔ b = a :=
  ⟨fun h => (Except.ok.inj h).symm, fun h => congrArg Except.ok h.symm⟩

theorem bind_pure_eq_ok {ε α β : Type} {e : Except ε α} {f : α → β} {b : β} :
    (e >>= fun a => pure (f a)) = .ok b ↔ ∃ a, e = .ok a ∧ b = f a := by
  simp only [bind_eq_ok, pure_eq_ok]

theorem ok_of_toOption {ε α : Type} {e : Except ε α} {a : α} (h : e.toOption = some a) : e = .ok a := by
  cases e with
  | error e => simp [Except.toOption] at h
  | ok b => exact congrArg Except.ok (Option.some.inj h)

namespace Listing

variable {ε δ α β γ : Type}

theorem mapM_eq_ok {f : α → Except ε β} {as : List α} {bs : List β} :
    as.mapM f = .ok bs ↔ List.Forall₂ (fun a b => f a = .ok b) as bs := by
  induction as generalizing bs with
  | nil =>
    rw [List.mapM_nil, List.forall₂_nil_left_iff]
    exact ⟨fun h => (Except.ok.inj h).symm, fun h => by rw [h]; rfl⟩
  | cons a as ih =>
    rw [List.mapM_cons, List.forall₂_cons_left_iff]
    cases hfa : f a with
    | error e =>
      constructor
      · intro h
        simp [bind, Except.bind] at h
      · rintro ⟨b, rest, h, -, -⟩
        simp at h
    | ok b =>
      cases hrest : as.mapM f with
      | error e =>
        constructor
        · intro h
          simp [bind, Except.bind] at h
        · rintro ⟨b', rest, -, h, -⟩
          rw [ih.2 h] at hrest
          exact absurd hrest (by simp)
      | ok rest =>
        constructor
        · intro h
          exact ⟨b, rest, rfl, ih.1 hrest, (Except.ok.inj h).symm⟩
        · rintro ⟨b', rest', hb, h, rfl⟩
          rw [ih.2 h] at hrest
          rw [Except.ok.inj hb, ← Except.ok.inj hrest]
          rfl

/-- what was written item by item is read item by item -/
theorem mapM_written {f : α → Except ε β} {write : γ → α} {item : γ → β} {cs : List γ}
    (h : ∀ c ∈ cs, f (write c) = .ok (item c)) : (cs.map write).mapM f = .ok (cs.map item) := by
  rw [mapM_eq_ok, List.forall₂_map_left_iff, List.forall₂_map_right_iff]
  exact List.forall₂_same.2 h

/-- items that can all be read, each into something related to it -/
theorem exists_mapM_ok {f : α → Except ε β} {R : α → β → Prop} {as : List α} (h : ∀ a ∈ as, ∃ b, f a = .ok b ∧ R a b) :
    ∃ bs, as.mapM f = .ok bs ∧ List.Forall₂ R as bs := by
  induction as with
  | nil => exact ⟨[], rfl, .nil⟩
  | cons a as ih =>
    obtain ⟨b, hb, hab⟩ := h a List.mem_cons_self
    obtain ⟨bs, hbs, hrest⟩ := ih fun a' ha' => h a' (List.mem_cons_of_mem _ ha')
    exact ⟨b :: bs, mapM_eq_ok.2 (.cons hb (mapM_eq_ok.1 hbs)), .cons hab hrest⟩

/-- items can be read if each of them can -/
theorem exists_mapM_iff {f : α → Except ε β} {as : List α} : (∃ bs, as.mapM f = .ok bs) ↔ ∀ a ∈ as, ∃ b, f a = .ok b := by
  constructor
  · rintro ⟨bs, hbs⟩ a ha
    obtain ⟨k, hk, rfl⟩ := List.mem_iff_getElem.1 ha
    exact ⟨_, (mapM_eq_ok.1 hbs).get hk ((mapM_eq_ok.1 hbs).length_eq ▸ hk)⟩
  · intro h
    obtain ⟨bs, hbs, -⟩ := exists_mapM_ok (R := fun _ _ => True) fun a ha => (h a ha).imp fun _ hb => ⟨hb, trivial⟩
    exact ⟨bs, hbs⟩

theorem mapM_cons_error {f : α → Except ε β} {a : α} {as : List α} {e : ε} :
    (a :: as).mapM f = .error e ↔ f a = .error e ∨ (∃ b, f a = .ok b) ∧ as.mapM f = .error e := by
  rw [List.mapM_cons]
  cases hfa : f a with
  | error e' => simp [bind, Except.bind]
  | ok b =>
    cases hrest : as.mapM f with
    | error e' => simp [bind, Except.bind]
    | ok bs => simp [bind, Except.bind, pure, Except.pure]

theorem mapM_eq_error {f : α → Except ε β} {as : List α} {e : ε} :
    as.mapM f = .error e ↔
      ∃ before a after, as = before ++ a :: after ∧ (∀ a' ∈ before, ∃ b, f a' = .ok b) ∧ f a = .error e := by
  induction as with
  | nil => simp [pure, Except.pure]
  | cons a as ih =>
    rw [mapM_cons_error, ih]
    constructor
    · rintro (hfa | ⟨hfa, before, a', after, rfl, hbefore, ha'⟩)
      · exact ⟨[], a, as, rfl, by simp, hfa⟩
      · exact ⟨a :: before, a', after, rfl, List.forall_mem_cons.2 ⟨hfa, hbefore⟩, ha'⟩
    · rintro ⟨before, a', after, has, hbefore, ha'⟩
      cases before with
      | nil =>
        cases has
        exact .inl ha'
      | cons b before =>
        cases has
        obtain ⟨hfa, hbefore⟩ := List.forall_mem_cons.1 hbefore
        exact .inr ⟨hfa, before, a', after, rfl, hbefore, ha'⟩

theorem isOk_iff {x : Except ε α} : x.isOk = true ↔ ∃ a, x = .ok a := by
  cases x <;> simp [Except.isOk, Except.toBool]

theorem mapError_eq_ok {x : Except ε α} {g : ε → δ} {a : α} : x.mapError g = .ok a ↔ x = .ok a := by
  cases x <;> simp [Except.mapError]

theorem mapError_eq_error {x : Except ε α} {g : ε → δ} {e : δ} : x.mapError g = .error e ↔ ∃ e', x = .error e' ∧ e = g e' := by
  cases x <;> simp [Except.mapError, eq_comm]

/-- it is all one whether faults are put in other words one by one or at the end -/
theorem mapM_mapError (f : α → Except ε β) (g : ε → δ) (as : List α) :
    (as.mapM f).mapError g = as.mapM fun a => (f a).mapError g := by
  induction as with
  | nil => rfl
  | cons a as ih =>
    rw [List.mapM_cons, List.mapM_cons, ← ih]
    cases f a with
    | error e => rfl
    | ok b => cases as.mapM f <;> rfl

/-- what stands in the second of two related lists is related to something in the first -/
theorem mem_of_forall₂ {R : α → β → Prop} {as : List α} {bs : List β} (h : List.Forall₂ R as bs) {b : β} (hb : b ∈ bs) :
    ∃ a ∈ as, R a b := by
  induction h with
  | nil => exact absurd hb List.not_mem_nil
  | cons hab _ ih =>
    rcases List.mem_cons.1 hb with rfl | hb
    · exact ⟨_, List.mem_cons_self, hab⟩
    · obtain ⟨a, ha, hab⟩ := ih hb
      exact ⟨a, List.mem_cons_of_mem _ ha, hab⟩

/-- what stands in the first of two related lists has something related to it in the same place of the second -/
theorem getElem?_of_forall₂ {R : α → β → Prop} {as : List α} {bs : List β} (h : List.Forall₂ R as bs) {k : Nat} {a : α}
    (ha : as[k]? = some a) : ∃ b, bs[k]? = some b ∧ R a b := by
  obtain ⟨hk, rfl⟩ := List.getElem?_eq_some_iff.1 ha
  have hk' : k < bs.length := h.length_eq ▸ hk
  exact ⟨bs[k], List.getElem?_eq_getElem hk', h.get hk hk'⟩

/-! ## One line -/

/-- the fields of a line of the working tree listing are what blanks part in it -/
theorem statusFields_eq (line : Text) : statusFields line = line.fields := by
  rw [statusFields, Text.fields_trim, Text.fields_collapseFirst]

section Line

variable {line code path : Text} {more : List Text} {a : Action}

/-- a line of the files of a commit: the last path counts -/
theorem committedFile_of_fields (commitId : Text) (h : line.tabFields = code :: path :: more)
    (hcode : changeOfCode code.trim = .ok a) :
    committedFile commitId line = .ok ⟨.text (((path :: more).getLastD path).trim), a, .text commitId⟩ := by
  rw [committedFile, h]
  simp only [hcode]
  rfl

/-- a line of the working tree listing: the second field counts -/
theorem statusFile_of_fields (h : statusFields line = code :: path :: more) (hcode : changeOfCode code = .ok a)
    (ha : a ≠ .rename) : statusFile line = .ok ⟨.text path, a, .null⟩ := by
  rw [statusFile, h]
  simp only [hcode, bind, Except.bind, if_neg ha]
  rfl

/-- a rename in the working tree listing: the fourth field counts -/
theorem statusFile_of_rename {arrow new : Text} (h : statusFields line = code :: path :: arrow :: new :: more)
    (hcode : changeOfCode code = .ok .rename) : statusFile line = .ok ⟨.text new, .rename, .null⟩ := by
  rw [statusFile, h]
  simp only [hcode, bind, Except.bind]
  rfl

end Line

/-- a file of a commit: its name is a text, and the commit owns it -/
theorem committedFile_shape {commitId line : Text} {f : File} (h : committedFile commitId line = .ok f) :
    ∃ name action, f = ⟨.text name, action, .text commitId⟩ := by
  unfold committedFile at h
  split at h
  · rename_i code path more _
    cases hcode : changeOfCode code.trim with
    | error e => simp [hcode, bind, Except.bind] at h
    | ok a =>
      simp only [hcode, bind, Except.bind, pure, Except.pure, Except.ok.injEq] at h
      exact ⟨_, a, h.symm⟩
  · simp [throw, throwThe, MonadExceptOf.throw] at h

theorem committedFiles_shape {t commitId : Text} {files : List File} (h : committedFiles t commitId = .ok files) :
    ∀ f ∈ files, ∃ name action, f = ⟨.text name, action, .text commitId⟩ := by
  intro f hf
  obtain ⟨line, -, hline⟩ := mem_of_forall₂ (mapM_eq_ok.1 h) hf
  exact committedFile_shape hline

theorem committedFiles_owned {t commitId : Text} {files : List File} (h : committedFiles t commitId = .ok files) :
    ∀ f ∈ files, f.commitId = .text commitId := by
  intro f hf
  obtain ⟨name, action, rfl⟩ := committedFiles_shape h f hf
  rfl

/-- a commit has no files only if the listing has no lines -/
theorem committedFiles_eq_nil {t commitId : Text} {files : List File} (h : committedFiles t commitId = .ok files) :
    files = [] ↔ t.nonEmptyLines = [] := by
  have hlen := (mapM_eq_ok.1 h).length_eq
  rw [← List.length_eq_zero_iff, ← hlen, List.length_eq_zero_iff]

end Listing

end RepoLens
