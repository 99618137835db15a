import Mathlib.Tactic
import RepoLens.Change
import RepoLens.Proofs.Listing
/-!
Records of commits, written and read. What is written of a commit reads back as that commit. A record that comes from elsewhere is
read if it has an identifier and all of its files have a name and one of the five changes; written again, it is reduced to the known
fields, with null for an owner that is not there and an empty list for files that are not there. Any other record gives the fault
that comes first: the identifier, then the files as they stand in the list, and of each file the name in front of the change.

Results:
- `File.ofValue_eq_ok`, `File.ofValue_eq_error`: how the record of a file is read, field by field;
- `Commit.ofValue_eq_ok`, `Commit.ofValue_eq_error`: the same of a commit, file by file;
- `Commit.ofValue_toValue`: a written commit reads back;
- `Commit.records_read_back`: all of it in one statement.
-/
namespace RepoLens

/-! ## Fields of a mapping -/

namespace Value

def IsMapping (v : Value) : Prop := ∃ mark entries, v = .map mark entries

theorem isMapping_map (mark : Option Nat) (entries : List (Value × Value)) : IsMapping (.map mark entries) :=
  ⟨mark, entries, rfl⟩

variable {v u : Value} {key : Text}

theorem IsMapping.field_of_some (hv : v.IsMapping) (h : v.get? key = some u) : v.field key = .ok u := by
  obtain ⟨mark, entries, rfl⟩ := hv
  have hlookup : lookup key entries = some u := h
  rw [field, hlookup]
  rfl

theorem IsMapping.field_of_none (hv : v.IsMapping) (h : v.get? key = none) : v.field key = .error (.missing key) := by
  obtain ⟨mark, entries, rfl⟩ := hv
  have hlookup : lookup key entries = none := h
  rw [field, hlookup]
  rfl

end Value

/-! ## Changes -/

namespace Action

variable {v : Value} {a : Action}

theorem ofName?_name (a : Action) : ofName? a.name = some a := by
  cases a <;> rfl

theorem name_of_ofName? {t : Text} (h : ofName? t = some a) : t = a.name := by
  have hname := List.find?_some h
  exact (of_decide_eq_true hname).symm

theorem ofValue_name (a : Action) : ofValue (.text a.name) = .ok a := by
  rw [ofValue, ofName?_name]
  rfl

/-- what is no name of a change is the fault -/
theorem ofValue_other (h : ∀ a : Action, v ≠ .text a.name) : ofValue v = .error (.notAnAction v) := by
  cases v with
  | text t =>
    have hnone : ofName? t = none := by
      by_contra hsome
      obtain ⟨a, ha⟩ := Option.ne_none_iff_exists'.1 hsome
      exact h a (congrArg Value.text (name_of_ofName? ha))
    rw [ofValue, hnone]
    rfl
  | _ => rfl

end Action

/-! ## Files -/

namespace File

/-- a record that holds all that a file needs: a name, and one of the five changes -/
def Complete (r : Value) : Prop := (∃ name, r.get? "filename" = some name) ∧ ∃ a : Action, r.get? "action" = some (.text a.name)

/-- the known fields of a record, the owner being null if it is not there -/
def Reduced (r v : Value) : Prop :=
  ∃ name action, r.get? "filename" = some name ∧ r.get? "action" = some action ∧
    v = .map none [(.text "filename", name), (.text "action", action), (.text "commit_id", (r.get? "commit_id").getD .null)]

/-- the first fault of a record: the name is looked for in front of the change, and then the change has to be one -/
inductive FirstFault (r : Value) : RecordFault → Prop where
  | filename (h : r.get? "filename" = none) : FirstFault r (.missing "filename")
  | action {name : Value} (hname : r.get? "filename" = some name) (h : r.get? "action" = none) :
    FirstFault r (.missing "action")
  | notAnAction {name v : Value} (hname : r.get? "filename" = some name) (haction : r.get? "action" = some v)
    (h : ∀ a : Action, v ≠ .text a.name) : FirstFault r (.notAnAction v)

variable {r : Value} {f : File} {e : RecordFault}

theorem ofValue_of_complete (hr : r.IsMapping) {name : Value} {a : Action} (hname : r.get? "filename" = some name)
    (ha : r.get? "action" = some (.text a.name)) : ofValue r = .ok ⟨name, a, (r.get? "commit_id").getD .null⟩ := by
  rw [ofValue, hr.field_of_some hname, hr.field_of_some ha]
  simp only [bind, Except.bind, Action.ofValue_name]
  rfl

theorem FirstFault.ofValue_eq (hr : r.IsMapping) (h : FirstFault r e) : ofValue r = .error e := by
  cases h with
  | filename h =>
    rw [ofValue, hr.field_of_none h]
    rfl
  | action hname h =>
    rw [ofValue, hr.field_of_some hname, hr.field_of_none h]
    rfl
  | notAnAction hname haction h =>
    rw [ofValue, hr.field_of_some hname, hr.field_of_some haction]
    simp only [bind, Except.bind, Action.ofValue_other h]

/-- a record has all that it needs, or it has a first fault -/
theorem complete_or_firstFault (r : Value) : Complete r ∨ ∃ e, FirstFault r e := by
  cases hname : r.get? "filename" with
  | none => exact Or.inr ⟨_, .filename hname⟩
  | some name =>
    cases haction : r.get? "action" with
    | none => exact Or.inr ⟨_, .action hname haction⟩
    | some v =>
      by_cases h : ∃ a : Action, v = .text a.name
      · obtain ⟨a, rfl⟩ := h
        exact Or.inl ⟨⟨name, hname⟩, a, haction⟩
      · exact Or.inr ⟨_, .notAnAction hname haction fun a ha => h ⟨a, ha⟩⟩

theorem ofValue_eq_ok (hr : r.IsMapping) : ofValue r = .ok f ↔
    r.get? "filename" = some f.filename ∧ r.get? "action" = some (.text f.action.name) ∧
      (r.get? "commit_id").getD .null = f.commitId := by
  constructor
  · intro hok
    rcases complete_or_firstFault r with ⟨⟨name, hname⟩, a, ha⟩ | ⟨e, he⟩
    · rw [ofValue_of_complete hr hname ha] at hok
      obtain rfl := Except.ok.inj hok
      exact ⟨hname, ha, rfl⟩
    · rw [he.ofValue_eq hr] at hok
      cases hok
  · rintro ⟨hname, ha, howner⟩
    rw [ofValue_of_complete hr hname ha, howner]

theorem ofValue_eq_error (hr : r.IsMapping) : ofValue r = .error e ↔ FirstFault r e := by
  refine ⟨fun herror => ?_, FirstFault.ofValue_eq hr⟩
  rcases complete_or_firstFault r with ⟨⟨name, hname⟩, a, ha⟩ | ⟨e', he'⟩
  · rw [ofValue_of_complete hr hname ha] at herror
    cases herror
  · rw [he'.ofValue_eq hr] at herror
    rwa [← Except.error.inj herror]

theorem exists_ofValue_iff (hr : r.IsMapping) : (∃ f, ofValue r = .ok f) ↔ Complete r := by
  constructor
  · rintro ⟨f, hf⟩
    obtain ⟨hname, haction, -⟩ := (ofValue_eq_ok hr).1 hf
    exact ⟨⟨_, hname⟩, _, haction⟩
  · rintro ⟨⟨name, hname⟩, a, ha⟩
    exact ⟨_, ofValue_of_complete hr hname ha⟩

/-- a file that has been read is written with the known fields of its record -/
theorem reduced_toValue (hr : r.IsMapping) (h : ofValue r = .ok f) : Reduced r f.toValue := by
  obtain ⟨hname, haction, howner⟩ := (ofValue_eq_ok hr).1 h
  refine ⟨_, _, hname, haction, ?_⟩
  rw [howner, toValue]

theorem ofValue_toValue (f : File) : ofValue f.toValue = .ok f :=
  (ofValue_eq_ok (Value.isMapping_map _ _)).2 ⟨rfl, rfl, rfl⟩

end File

/-! ## Commits -/

namespace Commit

/-- a mapping whose files, if it has any, are a list of mappings -/
structure IsRecord (d : Value) (records : List Value) : Prop where
  mapping : d.IsMapping
  files : d.get? "files" = none ∧ records = [] ∨ ∃ mark, d.get? "files" = some (.list mark records)
  items : ∀ r ∈ records, r.IsMapping

/-- the first fault of a record: the identifier is looked for in front of the files, and of these the first with a fault counts -/
inductive FirstFault (d : Value) (records : List Value) : RecordFault → Prop where
  | id (h : d.get? "id" = none) : FirstFault d records (.missing "id")
  | file {id : Value} (hid : d.get? "id" = some id) {before after : List Value} {r : Value} {e : RecordFault}
    (hrecords : records = before ++ r :: after) (hbefore : ∀ r' ∈ before, File.Complete r') (h : File.FirstFault r e) :
    FirstFault d records e

variable {d id : Value} {records : List Value} {c : Commit} {e : RecordFault}

theorem ofValue_of_no_id (h : IsRecord d records) (hid : d.get? "id" = none) : ofValue d = .error (.missing "id") := by
  rw [ofValue, h.mapping.field_of_none hid]
  rfl

/-- once there is an identifier, the files decide -/
theorem ofValue_of_id (h : IsRecord d records) (hid : d.get? "id" = some id) :
    ofValue d = (records.mapM File.ofValue).map fun files => ⟨id, files⟩ := by
  have hitems : ((d.get? "files").getD (.list none [])).items = .ok records := by
    rcases h.files with ⟨hnone, rfl⟩ | ⟨mark, hsome⟩
    · rw [hnone]
      rfl
    · rw [hsome]
      rfl
  rw [ofValue, h.mapping.field_of_some hid, hitems]
  simp only [bind, Except.bind, Except.mapError]
  cases records.mapM File.ofValue <;> rfl

theorem ofValue_eq_ok (h : IsRecord d records) : ofValue d = .ok c ↔
    d.get? "id" = some c.id ∧ List.Forall₂ (fun r f => File.ofValue r = .ok f) records c.files := by
  rw [← Listing.mapM_eq_ok]
  cases hid : d.get? "id" with
  | none =>
    rw [ofValue_of_no_id h hid]
    simp
  | some id =>
    rw [ofValue_of_id h hid]
    cases records.mapM File.ofValue with
    | error e => simp [Except.map]
    | ok files =>
      constructor
      · intro hok
        obtain rfl := Except.ok.inj hok
        exact ⟨rfl, rfl⟩
      · rintro ⟨hc, hfiles⟩
        rw [Option.some.inj hc, Except.ok.inj hfiles]
        rfl

theorem ofValue_eq_error (h : IsRecord d records) : ofValue d = .error e ↔ FirstFault d records e := by
  cases hid : d.get? "id" with
  | none =>
    rw [ofValue_of_no_id h hid]
    constructor
    · intro heq
      rw [← Except.error.inj heq]
      exact .id hid
    · rintro (_ | ⟨hid'⟩)
      · rfl
      · rw [hid] at hid'
        cases hid'
  | some id =>
    have hfault : ofValue d = .error e ↔ records.mapM File.ofValue = .error e := by
      rw [ofValue_of_id h hid]
      cases records.mapM File.ofValue <;> simp [Except.map]
    rw [hfault, Listing.mapM_eq_error]
    constructor
    · rintro ⟨before, r, after, hrecords, hbefore, hr⟩
      have hitem : ∀ r' ∈ before, r'.IsMapping := fun r' hr' =>
        h.items r' (hrecords ▸ List.mem_append_left _ hr')
      have hmapping : r.IsMapping := h.items r (hrecords ▸ List.mem_append_right _ List.mem_cons_self)
      exact .file hid hrecords (fun r' hr' => (File.exists_ofValue_iff (hitem r' hr')).1 (hbefore r' hr'))
        ((File.ofValue_eq_error hmapping).1 hr)
    · rintro (hnone | ⟨-, hrecords, hbefore, hr⟩)
      · rw [hid] at hnone
        cases hnone
      · refine ⟨_, _, _, hrecords, fun r' hr' => ?_, ?_⟩
        · exact (File.exists_ofValue_iff (h.items r' (hrecords ▸ List.mem_append_left _ hr'))).2 (hbefore r' hr')
        · exact (File.ofValue_eq_error (h.items _ (hrecords ▸ List.mem_append_right _ List.mem_cons_self))).2 hr

theorem exists_ofValue_iff (h : IsRecord d records) :
    (∃ c, ofValue d = .ok c) ↔ (∃ id, d.get? "id" = some id) ∧ ∀ r ∈ records, File.Complete r := by
  constructor
  · rintro ⟨c, hc⟩
    obtain ⟨hid, hfiles⟩ := (ofValue_eq_ok h).1 hc
    refine ⟨⟨_, hid⟩, fun r hr => ?_⟩
    obtain ⟨f, -, hf⟩ := Listing.mem_of_forall₂ hfiles.flip hr
    exact (File.exists_ofValue_iff (h.items r hr)).1 ⟨f, hf⟩
  · rintro ⟨⟨id, hid⟩, hcomplete⟩
    have hread : ∀ r ∈ records, ∃ f, File.ofValue r = .ok f ∧ True := by
      intro r hr
      obtain ⟨f, hf⟩ := (File.exists_ofValue_iff (h.items r hr)).2 (hcomplete r hr)
      exact ⟨f, hf, trivial⟩
    obtain ⟨files, hfiles, -⟩ := Listing.exists_mapM_ok hread
    exact ⟨⟨id, files⟩, (ofValue_eq_ok h).2 ⟨hid, Listing.mapM_eq_ok.1 hfiles⟩⟩

/-- the record that is written of a commit -/
theorem isRecord_toValue (c : Commit) : IsRecord c.toValue (c.files.map File.toValue) where
  mapping := Value.isMapping_map _ _
  files := Or.inr ⟨none, rfl⟩
  items r hr := by
    obtain ⟨f, -, rfl⟩ := List.mem_map.1 hr
    exact Value.isMapping_map _ _

theorem ofValue_toValue (c : Commit) : ofValue c.toValue = .ok c := by
  refine (ofValue_eq_ok (isRecord_toValue c)).2 ⟨rfl, ?_⟩
  rw [List.forall₂_map_left_iff]
  exact List.forall₂_same.2 fun f _ => f.ofValue_toValue

/-- **Records of commits.** What is written of a commit reads back as it. And of a mapping whose files are a list of mappings, or
not there: it is read exactly if it has an identifier and each of its files is complete; what is then written again has the same
identifier and the same files in order, each reduced to its known fields; and any other record gives its first fault. -/
theorem records_read_back :
    (∀ c : Commit, ofValue c.toValue = .ok c) ∧
    ∀ (d : Value) (records : List Value), IsRecord d records →
      ((∃ c, ofValue d = .ok c) ↔ (∃ id, d.get? "id" = some id) ∧ ∀ r ∈ records, File.Complete r) ∧
      (∀ c, ofValue d = .ok c → ∃ id items, d.get? "id" = some id ∧ List.Forall₂ File.Reduced records items ∧
        c.toValue = .map none [(.text "id", id), (.text "files", .list none items)]) ∧
      ∀ e, ofValue d = .error e ↔ FirstFault d records e := by
  refine ⟨ofValue_toValue, fun d records h => ⟨exists_ofValue_iff h, fun c hc => ?_, fun e => ofValue_eq_error h⟩⟩
  obtain ⟨hid, hfiles⟩ := (ofValue_eq_ok h).1 hc
  have hmappings := (List.forall₂_and_left _ _).2 ⟨h.items, hfiles⟩
  refine ⟨c.id, c.files.map File.toValue, hid, ?_, rfl⟩
  rw [List.forall₂_map_right_iff]
  exact hmappings.imp fun r f hf => File.reduced_toValue hf.1 hf.2

/-- a record with an unknown field and without owners is read; with two faults, of a change and of a missing name behind it, it
gives the first -/
theorem records_read_back_faulty :
    let file : List (Value × Value) → Value := .map none
    let good := file [(.text "size", .int 3), (.text "action", .text "COPY"), (.text "filename", .text "a")]
    let bad := file [(.text "filename", .null), (.text "action", .text "copy")]
    let nameless := file [(.text "action", .text "ADD")]
    let commit : List Value → Value := fun items => .map none [(.text "files", .list (some 1) items), (.text "id", .int 7)]
    IsRecord (commit [good]) [good] ∧ IsRecord (commit [good, bad, nameless]) [good, bad, nameless] ∧
      (∃ c, ofValue (commit [good]) = .ok c) ∧
      ofValue (commit [good, bad, nameless]) = .error (.notAnAction (.text "copy")) := by
  intro file good bad nameless commit
  have hrecord : ∀ items : List Value, (∀ r ∈ items, r.IsMapping) → IsRecord (commit items) items := fun items hitems =>
    ⟨Value.isMapping_map _ _, Or.inr ⟨some 1, rfl⟩, hitems⟩
  have hgood : IsRecord (commit [good]) [good] := hrecord _ (by simp [good, file, Value.isMapping_map])
  have hbad : IsRecord (commit [good, bad, nameless]) [good, bad, nameless] :=
    hrecord _ (by simp [good, bad, nameless, file, Value.isMapping_map])
  have hcomplete : File.Complete good := ⟨⟨.text "a", by rfl⟩, .copy, by rfl⟩
  obtain ⟨-, hread⟩ := records_read_back
  obtain ⟨hok, -, -⟩ := hread _ _ hgood
  obtain ⟨-, -, herror⟩ := hread _ _ hbad
  refine ⟨hgood, hbad, hok.2 ⟨⟨.int 7, by rfl⟩, by simpa using hcomplete⟩, (herror _).2 ?_⟩
  have hother : ∀ a : Action, "copy".toList ≠ a.name := by
    intro a
    cases a <;> decide
  have hfault : File.FirstFault bad (.notAnAction (.text "copy")) :=
    .notAnAction (by rfl : bad.get? "filename" = some .null) (by rfl) fun a ha => hother a (Value.text.inj ha)
  have hrecords : [good, bad, nameless] = [good] ++ bad :: [nameless] := rfl
  exact .file (by rfl : (commit [good, bad, nameless]).get? "id" = some (.int 7)) hrecords
    (List.forall_mem_singleton.2 hcomplete) hfault

end Commit

end RepoLens
