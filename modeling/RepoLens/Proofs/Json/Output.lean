import Mathlib.Tactic
import RepoLens.Display
import RepoLens.Proofs.Json.Ink
import RepoLens.Proofs.Listing
import RepoLens.Proofs.Wrap
/-!
Listings as JSON on the screen. The JSON text of a listing is printed as markup on a screen of some width, so not every listing
can be read back from what is printed: a bracket in a name can open a tag, which vanishes or has nothing to close; a code in a
name can show as a picture; and a line that is too long is broken wherever it has to be.

Results:
- `Kept.of_plain`: what holds of the pieces of a JSON text and is kept when texts are put together holds of the whole;
- `tame_of_plain`, `spaced_of_plain`: so a value without opening brackets in its texts is written without markup, and one without
  colons in them without codes;
- `json_reads_back`: where no code shows as a picture, what is printed reads back as the listing only if its JSON text holds no
  markup; and if so, and if every line fits on the screen, the JSON text is printed as it is, and reads back;
- `markup_breaks_listings`: listings that do not read back.
-/
namespace RepoLens

open Console.Markup (Unmarked Codeless TagBody startsTag)
open Console (Fits Screen Uncoded)

/-! ## Listings -/

/-- the name and the owner are texts of some kind, and there need not be an owner -/
def File.Typed (P : Text → Prop) (f : File) : Prop :=
  (∃ t, f.filename = .text t ∧ P t) ∧ (f.commitId = .null ∨ ∃ t, f.commitId = .text t ∧ P t)

/-- the identifier and the files are made of texts of some kind -/
def Commit.Typed (P : Text → Prop) (c : Commit) : Prop := (∃ t, c.id = .text t ∧ P t) ∧ ∀ f ∈ c.files, f.Typed P

/-- a listing with what is shown beside it -/
inductive Content where
  | commits (cs : List Commit) (branch : Text)
  | files (fs : List File) (title : Text)
  | names (ns : List Text) (title current : Text)

namespace Content

/-- everything in the listing is made of texts of some kind -/
def Typed (P : Text → Prop) : Content → Prop
  | commits cs _ => ∀ c ∈ cs, c.Typed P
  | files fs _ => ∀ f ∈ fs, f.Typed P
  | names ns _ _ => ∀ n ∈ ns, P n

def value : Content → Value
  | commits cs _ => .list none (cs.map Commit.toValue)
  | files fs _ => .list none (fs.map File.toValue)
  | names ns _ _ => .list none (ns.map .text)

def print (screen : Screen) : Content → Except Fault Text
  | commits cs branch => Display.commits screen cs branch .json
  | files fs title => Display.files screen fs title .json
  | names ns title current => Display.names screen ns title current .json

/-- the value is printed, and nothing else of the listing -/
theorem print_eq (x : Content) (screen : Screen) : x.print screen = Display.json screen x.value := by
  cases x <;> rfl

end Content

/-! ## Listings as values -/

/-- the texts that stand in every listing of commits or files -/
def fixedTexts : List Text :=
  (["filename", "action", "commit_id", "id", "files"] : List Text) ++ Action.all.map Action.name

section Typed

variable {P : Text → Prop} (hfixed : ∀ t ∈ fixedTexts, P t)

include hfixed

theorem File.Typed.plain {f : File} (h : f.Typed P) : Json.Plain P f.toValue := by
  obtain ⟨⟨t, hname, ht⟩, howner⟩ := h
  have haction : P f.action.name := by
    refine hfixed _ (List.mem_append_right _ (List.mem_map_of_mem ?_))
    cases f.action <;> decide
  have hcommit : Json.Plain P f.commitId := by
    rcases howner with hnull | ⟨u, hu, hPu⟩
    · rw [hnull]
      exact .null
    · rw [hu]
      exact .text hPu
  have hvalue : f.toValue = .map none (Value.texts
      [("filename", .text t), ("action", .text f.action.name), ("commit_id", f.commitId)]) := by
    rw [File.toValue, hname]
    rfl
  have hkeys : (["filename", "action", "commit_id"] : List Text).Nodup := by decide
  rw [hvalue]
  refine .map ?_ ?_ hkeys
  · intro e he
    simp only [List.mem_cons, List.not_mem_nil, or_false] at he
    rcases he with rfl | rfl | rfl
    · exact hfixed "filename" (by decide)
    · exact hfixed "action" (by decide)
    · exact hfixed "commit_id" (by decide)
  · intro e he
    simp only [List.mem_cons, List.not_mem_nil, or_false] at he
    rcases he with rfl | rfl | rfl
    · exact .text ht
    · exact .text haction
    · exact hcommit

theorem Commit.Typed.plain {c : Commit} (h : c.Typed P) : Json.Plain P c.toValue := by
  obtain ⟨⟨t, hid, ht⟩, hfiles⟩ := h
  have hvalue : c.toValue = .map none (Value.texts [("id", .text t), ("files", .list none (c.files.map File.toValue))]) := by
    rw [Commit.toValue, hid]
    rfl
  have hkeys : (["id", "files"] : List Text).Nodup := by decide
  rw [hvalue]
  refine .map ?_ ?_ hkeys
  · intro e he
    rcases List.mem_pair.1 he with rfl | rfl
    · exact hfixed "id" (by decide)
    · exact hfixed "files" (by decide)
  · intro e he
    rcases List.mem_pair.1 he with rfl | rfl
    · exact .text ht
    · refine .list fun v hv => ?_
      obtain ⟨f, hf, rfl⟩ := List.mem_map.1 hv
      exact (hfiles f hf).plain hfixed

theorem Content.Typed.plain {x : Content} (h : x.Typed P) : Json.Plain P x.value := by
  cases x with
  | commits cs branch =>
    refine .list fun v hv => ?_
    obtain ⟨c, hc, rfl⟩ := List.mem_map.1 hv
    exact (h c hc).plain hfixed
  | files fs title =>
    refine .list fun v hv => ?_
    obtain ⟨f, hf, rfl⟩ := List.mem_map.1 hv
    exact (h f hf).plain hfixed
  | names ns title current =>
    refine .list fun v hv => ?_
    obtain ⟨n, hn, rfl⟩ := List.mem_map.1 hv
    exact .text (h n hn)

end Typed

/-! ## Names without brackets -/

namespace Json

open Value (texts texts_cons)

/-- every opening bracket is followed by a character that starts no tag, and no backslash comes before one or at the end -/
def Tame (t : Text) : Prop :=
  (∀ a r, t = a ++ '[' :: r → (∃ c s, r = c :: s ∧ startsTag c = false) ∧ a.getLast? ≠ some '\\') ∧ t.getLast? ≠ some '\\'

theorem Tame.append {s u : Text} (hs : Tame s) (hu : Tame u) : Tame (s ++ u) := by
  constructor
  · intro a r heq
    rcases List.append_eq_append_iff.1 heq with ⟨a', rfl, hr⟩ | ⟨c', rfl, hr⟩
    · obtain ⟨hnext, hlast⟩ := hu.1 a' r hr
      refine ⟨hnext, ?_⟩
      cases a' with
      | nil => rw [List.append_nil]; exact hs.2
      | cons x a' => rwa [List.getLast?_append_cons]
    · cases c' with
      | nil =>
        obtain ⟨hnext, -⟩ := hu.1 [] r hr.symm
        rw [List.append_nil] at hs
        exact ⟨hnext, hs.2⟩
      | cons x c' =>
        obtain ⟨rfl, rfl⟩ := List.cons.inj hr
        obtain ⟨⟨c, s', hc, hstart⟩, hlast⟩ := hs.1 a c' rfl
        exact ⟨⟨c, s' ++ u, by rw [hc]; rfl, hstart⟩, hlast⟩
  · cases u with
    | nil => rw [List.append_nil]; exact hs.2
    | cons x u => rw [List.getLast?_append_cons]; exact hu.2

theorem tame_of_not_mem {t : Text} (h : '[' ∉ t) (hlast : t.getLast? ≠ some '\\') : Tame t := by
  refine ⟨fun a r heq => absurd ?_ h, hlast⟩
  rw [heq]
  simp

/-- a tame text holds no markup -/
theorem Tame.unmarked {t : Text} (h : Tame t) : Unmarked t := by
  intro a r heq
  obtain ⟨⟨c, s, rfl, hc⟩, hlast⟩ := h.1 a r heq
  refine ⟨fun body rest hbody hr => ?_, hlast⟩
  obtain ⟨d, r, rfl, hd, -, -⟩ := hbody
  obtain ⟨rfl, -⟩ := List.cons.inj hr
  rw [hc] at hd
  exact absurd hd (by decide)

theorem tame_newLine (level : Nat) : Tame (newLine level) := by
  have hchars : ∀ c ∈ newLine level, c = '\n' ∨ c = ' ' := by
    intro c hc
    rcases List.mem_cons.1 hc with rfl | hc
    · exact Or.inl rfl
    · exact Or.inr (List.mem_replicate.1 hc).2
  refine tame_of_not_mem (fun hc => ?_) fun hlast => ?_
  · exact absurd (hchars _ hc) (by decide)
  · exact absurd (hchars _ (List.mem_of_getLast? hlast)) (by decide)

/-- an opening bracket before a character that starts no tag -/
theorem Tame.bracket {c : Char} {t : Text} (hc : startsTag c = false) (h : Tame (c :: t)) : Tame ('[' :: c :: t) := by
  refine ⟨fun a r heq => ?_, ?_⟩
  · cases a with
    | nil =>
      obtain ⟨-, rfl⟩ := List.cons.inj heq
      exact ⟨⟨c, t, rfl, hc⟩, by simp⟩
    | cons x a =>
      obtain ⟨rfl, hrest⟩ := List.cons.inj heq
      obtain ⟨hnext, hlast⟩ := h.1 a r hrest
      refine ⟨hnext, ?_⟩
      cases a with
      | nil => simp
      | cons y a => rwa [List.getLast?_cons_cons]
  · rw [List.getLast?_cons_cons]
    exact h.2

/-- a mark that is no opening bracket and no backslash -/
theorem tame_mark {c : Char} (hbracket : '[' ≠ c) (hslash : c ≠ '\\') : Tame [c] :=
  tame_of_not_mem (by simpa using hbracket) (by simpa using hslash)

/-- the characters that a string needs for its quotes and escapes -/
def markChars : Text := "\"\\nrtbfu0123456789abcdef"

/-- any other character stands in a string only if it stands in the text -/
theorem not_mem_string {c : Char} {t : Text} (hmark : c ∉ markChars) (h : c ∉ t) : c ∉ string t := by
  have hdigit : ∀ d < 16, Nat.digitChar d ∈ markChars := by decide
  have hescape : ∀ n, c ∉ unitEscape n := by
    intro n hn
    rcases mem_unitEscape hn with rfl | rfl | ⟨d, hd, rfl⟩
    · exact hmark (by decide)
    · exact hmark (by decide)
    · exact hmark (hdigit d hd)
  -- a short escape is two of the marks
  have hshort : ∀ {u : Text}, u.all markChars.contains = true → c ∉ u := by
    intro u hu hmem
    exact hmark (List.contains_iff_mem.1 (List.all_eq_true.1 hu c hmem))
  have hchar : ∀ d ∈ t, c ∉ stringChar d := by
    intro d hd hmem
    have hne : c ≠ d := fun heq => h (heq ▸ hd)
    unfold stringChar at hmem
    split_ifs at hmem
    · rcases List.mem_pair.1 hmem with rfl | hcd
      · exact hmark (by decide)
      · exact hne hcd
    · exact hshort (by decide) hmem
    · exact hshort (by decide) hmem
    · exact hshort (by decide) hmem
    · exact hshort (by decide) hmem
    · exact hshort (by decide) hmem
    · exact hne (List.mem_singleton.1 hmem)
    · exact hescape _ hmem
    · rcases List.mem_append.1 hmem with hmem | hmem
      · exact hescape _ hmem
      · exact hescape _ hmem
  intro hmem
  rcases List.mem_cons.1 hmem with rfl | hmem
  · exact hmark (by decide)
  · rcases List.mem_append.1 hmem with hmem | hmem
    · obtain ⟨d, hd, hmem⟩ := List.mem_flatMap.1 hmem
      exact hchar d hd hmem
    · exact hshort (by decide) hmem

theorem tame_string {t : Text} (h : '[' ∉ t) : Tame (string t) := by
  refine tame_of_not_mem (not_mem_string (by decide) h) ?_
  rw [string, ← List.cons_append, List.getLast?_concat]
  decide

/-! ## What the pieces share -/

/-- what holds of every piece of the JSON text of a value whose texts are of some kind, and is kept when pieces are put together -/
structure Kept (P T : Text → Prop) : Prop where
  append : ∀ {s t}, T s → T t → T (s ++ t)
  newLine : ∀ level, T (newLine level)
  string : ∀ {t}, P t → T (string t)
  null : T "null"
  emptyList : T "[]"
  openList : ∀ level, T ('[' :: Json.newLine level)
  closeList : T [']']
  openMap : T ['{']
  closeMap : T ['}']
  comma : T [',']
  colon : T ": "

namespace Kept

variable {P T : Text → Prop} (hT : Kept P T)

include hT

theorem items {level : Nat} {vs : List Value} (h : ∀ v ∈ vs, ∃ t, render level v = .ok t ∧ T t) (hnil : T []) :
    ∃ t, renderItems level vs = .ok t ∧ T t := by
  induction vs with
  | nil => exact ⟨[], rfl, hnil⟩
  | cons v vs ih =>
    obtain ⟨s, hs, hitem⟩ := h v List.mem_cons_self
    obtain ⟨t, ht, hitems⟩ := ih fun w hw => h w (List.mem_cons_of_mem v hw)
    refine ⟨_, ?_, hT.append hT.comma (hT.append (hT.newLine level) (hT.append hitem hitems))⟩
    rw [renderItems, hs, ht]
    rfl

theorem entries {level : Nat} {es : List (Text × Value)} (hkeys : ∀ e ∈ es, P e.1)
    (h : ∀ e ∈ es, ∃ t, render level e.2 = .ok t ∧ T t) (hnil : T []) : ∃ t, renderEntries level (texts es) = .ok t ∧ T t := by
  induction es with
  | nil => exact ⟨[], rfl, hnil⟩
  | cons e es ih =>
    obtain ⟨s, hs, hitem⟩ := h e List.mem_cons_self
    obtain ⟨t, ht, hitems⟩ := ih (fun f hf => hkeys f (List.mem_cons_of_mem e hf)) fun f hf => h f (List.mem_cons_of_mem e hf)
    have hname : T (Json.string e.1) := hT.string (hkeys e List.mem_cons_self)
    refine ⟨_, ?_, hT.append hT.comma (hT.append (hT.newLine level) (hT.append hname (hT.append hT.colon
      (hT.append hitem hitems))))⟩
    rw [texts_cons, renderEntries, hs, ht]
    rfl

/-- **What is written of a value** shares what its pieces do. -/
theorem of_plain (hnil : T []) {v : Value} (h : Plain P v) (level : Nat) : ∃ t, render level v = .ok t ∧ T t := by
  induction h generalizing level with
  | null => exact ⟨_, rfl, hT.null⟩
  | text ht => exact ⟨_, rfl, hT.string ht⟩
  | @list vs _ ih =>
    cases vs with
    | nil => exact ⟨_, rfl, hT.emptyList⟩
    | cons u us =>
      obtain ⟨s, hs, hitem⟩ := ih u List.mem_cons_self (level + 1)
      obtain ⟨t, ht, hitems⟩ := hT.items (fun v hv => ih v (List.mem_cons_of_mem u hv) (level + 1)) hnil
      refine ⟨_, ?_, hT.append (hT.openList (level + 1)) (hT.append hitem (hT.append hitems
        (hT.append (hT.newLine level) hT.closeList)))⟩
      rw [render, hs, ht]
      rfl
  | @map es hkeys _ _ ih =>
    cases es with
    | nil => exact ⟨_, rfl, hT.append hT.openMap hT.closeMap⟩
    | cons e es =>
      obtain ⟨s, hs, hitem⟩ := ih e List.mem_cons_self (level + 1)
      obtain ⟨t, ht, hitems⟩ := hT.entries (fun f hf => hkeys f (List.mem_cons_of_mem e hf))
        (fun f hf => ih f (List.mem_cons_of_mem e hf) (level + 1)) hnil
      have hname : T (Json.string e.1) := hT.string (hkeys e List.mem_cons_self)
      refine ⟨_, ?_, hT.append hT.openMap (hT.append (hT.newLine (level + 1)) (hT.append hname (hT.append hT.colon
        (hT.append hitem (hT.append hitems (hT.append (hT.newLine level) hT.closeMap))))))⟩
      rw [texts_cons, render, hs, ht]
      rfl

end Kept

theorem kept_tame : Kept ('[' ∉ ·) Tame where
  append := Tame.append
  newLine := tame_newLine
  string := tame_string
  null := tame_of_not_mem (by decide) (by decide)
  emptyList := (tame_mark (by decide) (by decide)).bracket (by decide)
  openList level := (tame_newLine level).bracket (by decide)
  closeList := tame_mark (by decide) (by decide)
  openMap := tame_mark (by decide) (by decide)
  closeMap := tame_mark (by decide) (by decide)
  comma := tame_mark (by decide) (by decide)
  colon := tame_of_not_mem (by decide) (by decide)

/-- a value without opening brackets in its texts is written tamely -/
theorem tame_of_plain {v : Value} (h : Plain ('[' ∉ ·) v) (level : Nat) : ∃ t, render level v = .ok t ∧ Tame t :=
  kept_tame.of_plain (tame_of_not_mem List.not_mem_nil (by decide)) h level

/-! ## Names without colons -/

/-- a blank follows every colon -/
def Spaced (t : Text) : Prop := ∀ a r, t = a ++ ':' :: r → ∃ c s, r = c :: s ∧ Text.isBlank c = true

theorem spaced_of_not_mem {t : Text} (h : ':' ∉ t) : Spaced t := by
  intro a r heq
  refine absurd ?_ h
  rw [heq]
  simp

theorem Spaced.append {s t : Text} (hs : Spaced s) (ht : Spaced t) : Spaced (s ++ t) := by
  intro a r heq
  rcases List.append_eq_append_iff.1 heq with ⟨a', -, hr⟩ | ⟨c', rfl, hr⟩
  · exact ht a' r hr
  · cases c' with
    | nil => exact ht [] r hr.symm
    | cons x c' =>
      obtain ⟨rfl, rfl⟩ := List.cons.inj hr
      obtain ⟨c, s', rfl, hblank⟩ := hs a c' rfl
      exact ⟨c, s' ++ t, rfl, hblank⟩

/-- a text with a blank behind every colon holds no code -/
theorem Spaced.uncoded {t : Text} (h : Spaced t) : Uncoded t := by
  rintro r ⟨a, heq⟩
  obtain ⟨c, s, rfl, hblank⟩ := h a r heq.symm
  have hc : c ≠ ':' := by
    rintro rfl
    exact absurd hblank (by decide)
  simp [Screen.toColon, hc, hblank]

theorem spaced_newLine (level : Nat) : Spaced (newLine level) := by
  refine spaced_of_not_mem fun hmem => ?_
  rcases List.mem_cons.1 hmem with hc | hmem
  · exact absurd hc (by decide)
  · exact absurd (List.mem_replicate.1 hmem).2 (by decide)

theorem kept_spaced : Kept (':' ∉ ·) Spaced where
  append := Spaced.append
  newLine := spaced_newLine
  string h := spaced_of_not_mem (not_mem_string (by decide) h)
  null := spaced_of_not_mem (by decide)
  emptyList := spaced_of_not_mem (by decide)
  openList level := Spaced.append (spaced_of_not_mem (t := ['[']) (by decide)) (spaced_newLine level)
  closeList := spaced_of_not_mem (by decide)
  openMap := spaced_of_not_mem (by decide)
  closeMap := spaced_of_not_mem (by decide)
  comma := spaced_of_not_mem (by decide)
  colon := by
    rintro (_ | ⟨x, a⟩) r heq
    · exact ⟨' ', [], (List.cons.inj heq).2.symm, by decide⟩
    · have hmem : ':' ∈ a ++ ':' :: r := by simp
      have hrest : [' '] = a ++ ':' :: r := (List.cons.inj heq).2
      rw [← hrest] at hmem
      exact absurd hmem (by decide)

/-- a value without colons in its texts is written with a blank behind every colon -/
theorem spaced_of_plain {v : Value} (h : Plain (':' ∉ ·) v) (level : Nat) : ∃ t, render level v = .ok t ∧ Spaced t :=
  kept_spaced.of_plain (spaced_of_not_mem List.not_mem_nil) h level

end Json

/-! ## Reading back -/

namespace Content

open Text

/-- what is printed is what the screen makes of the JSON text -/
theorem print_of_render {x : Content} {t : Text} (h : Json.render 0 x.value = .ok t) (screen : Screen) :
    x.print screen = (Console.print screen t).mapError .markup := by
  rw [print_eq, Display.json, h]
  rfl

theorem print_ok_iff {x : Content} {t : Text} (h : Json.render 0 x.value = .ok t) {screen : Screen} {o : Text} :
    x.print screen = .ok o ↔ Console.print screen t = .ok o := by
  rw [print_of_render h]
  cases Console.print screen t <;> simp [Except.mapError]

/-- the JSON text of a listing reads back when nothing happens to it -/
theorem read_render {x : Content} {t : Text} (h : x.Typed fun _ => True) (hrender : Json.render 0 x.value = .ok t) :
    Json.read (t ++ ['\n']) = some x.value := by
  obtain ⟨u, hwritten⟩ := Json.written_of_plain (h.plain fun _ _ => trivial) 0
  obtain rfl : u = t := Except.ok.inj (hwritten.1.symm.trans hrender)
  exact Json.read_written hwritten

/-- a listing is at least an opening bracket -/
theorem cost_value_pos (x : Content) : 0 < Json.cost x.value := by
  cases x <;>
    · rw [value, Json.cost]
      omega

/-- **What is printed of a listing as JSON**, on a screen where no code of it shows as a picture, reads back as the listing only
if its JSON text holds no markup. If so, and if every line fits, the JSON text is printed as it is, and reads back. No listing
without opening brackets in its names holds markup, and none without colons in them has codes. -/
theorem json_reads_back (x : Content) (h : x.Typed fun _ => True) :
    ∃ t, Json.render 0 x.value = .ok t ∧
      (∀ screen, Codeless screen t → ∀ o, x.print screen = .ok o → Json.read o = some x.value → Unmarked t) ∧
      (∀ screen, Codeless screen t → Fits screen.width t → Unmarked t →
        x.print screen = .ok (t ++ ['\n']) ∧ Json.read (t ++ ['\n']) = some x.value) ∧
      (x.Typed ('[' ∉ ·) → Unmarked t) ∧ (x.Typed (':' ∉ ·) → ∀ screen, Codeless screen t) := by
  obtain ⟨t, hrender, tokens, hpiece, -⟩ := Json.written_of_plain (h.plain fun _ _ => trivial) 0
  refine ⟨t, hrender, fun screen hcodes o ho hread => ?_,
    fun screen hcodes hfits hunmarked => ⟨?_, read_render h hrender⟩, fun hnames => ?_, fun hnames screen => ?_⟩
  · -- reading the listing takes all the ink that was written, so none of it was lost as markup
    obtain ⟨hsub, hunmarked⟩ := Console.print_ink hpiece.ordinary hcodes ((print_ok_iff hrender).1 ho)
    refine hunmarked (le_antisymm hsub.length_le ?_)
    calc ink t = Json.cost x.value := hpiece.ink_eq
      _ ≤ ink o := Json.cost_le_ink (hpiece.ordinary.of_inked hsub) hread
  · have hink : ink t ≠ 0 := by
      rw [hpiece.ink_eq]
      exact x.cost_value_pos.ne'
    exact (print_ok_iff hrender).2
      (Console.print_unmarked hunmarked hpiece.ordinary hcodes (hfits.width_ne_zero hink) hfits)
  · obtain ⟨u, hu, htame⟩ := Json.tame_of_plain (hnames.plain (by decide)) 0
    obtain rfl : u = t := Except.ok.inj (hu.symm.trans hrender)
    exact htame.unmarked
  · obtain ⟨u, hu, hspaced⟩ := Json.spaced_of_plain (hnames.plain (by decide)) 0
    obtain rfl : u = t := Except.ok.inj (hu.symm.trans hrender)
    exact .of_uncoded hspaced.uncoded screen

/-- a commit with its file on a screen of eighty columns -/
theorem json_reads_back_commit :
    let x : Content := commits [⟨.text "ab12", [⟨.text "a.txt", .add, .text "ab12"⟩]⟩] "main"
    x.Typed ('[' ∉ ·) ∧ x.Typed (':' ∉ ·) ∧ ∃ o, x.print (.plain 80) = .ok o ∧ Json.read o = some x.value := by
  intro x
  have htyped : ∀ P : Text → Prop, P "ab12" → P "a.txt" → x.Typed P := by
    intro P hid hname c hc
    obtain rfl := List.mem_singleton.1 hc
    refine ⟨⟨_, rfl, hid⟩, fun f hf => ?_⟩
    obtain rfl := List.mem_singleton.1 hf
    exact ⟨⟨_, rfl, hname⟩, Or.inr ⟨_, rfl, hid⟩⟩
  have hnames : x.Typed ('[' ∉ ·) := htyped _ (by decide) (by decide)
  have hcolons : x.Typed (':' ∉ ·) := htyped _ (by decide) (by decide)
  obtain ⟨t, hrender, -, hprint, hunmarked, hcodes⟩ := json_reads_back x (htyped _ trivial trivial)
  have hfits : (Json.render 0 x.value).toOption.all fun u => Fits 80 u := by decide
  rw [hrender] at hfits
  exact ⟨hnames, hcolons, _, hprint (.plain 80) (hcodes hcolons _) (of_decide_eq_true hfits) (hunmarked hnames)⟩

/-- a tag in a file name vanishes, and what is printed reads back as another listing; a name that closes a tag cannot be
printed; a line that is too long is broken in the middle of a name; and a code in a name reads back as a picture -/
theorem markup_breaks_listings :
    let x : Content := files [⟨.text "pages/[id].tsx", .modify, .null⟩] "Changes"
    let y : Content := files [⟨.text "pages/.tsx", .modify, .null⟩] "Changes"
    let pictured : Screen := ⟨80, fun name => if name = "star" then some "*" else none, fun _ => none⟩
    x.Typed (fun _ => True) ∧ (∃ o, x.print (.plain 80) = .ok o ∧ Json.read o = some y.value) ∧ x.value ≠ y.value ∧
      (names ["[/x]"] "Tags" []).print (.plain 80) = .error (.markup (.unmatched "[/x]" 5)) ∧
      (∃ o, (names ["a b c d e f"] "Tags" []).print (.plain 8) = .ok o ∧ Json.read o = none) ∧
      ∃ o, (names [":star:"] "Tags" []).print pictured = .ok o ∧ Json.read o = some (names ["*"] "Tags" []).value := by
  intro x y pictured
  have htyped : ∀ name, (files [⟨.text name, .modify, .null⟩] "Changes").Typed fun _ => True := by
    intro name f hf
    obtain rfl := List.mem_singleton.1 hf
    exact ⟨⟨_, rfl, trivial⟩, Or.inl rfl⟩
  obtain ⟨t, hrender, -⟩ := Json.written_of_plain ((htyped "pages/.tsx").plain fun _ _ => trivial) 0
  have hlost : (x.print (.plain 80)).toOption = (Json.render 0 y.value).toOption.map (· ++ ['\n']) := by decide +kernel
  rw [hrender] at hlost
  have hclosing : ((names ["[/x]"] "Tags" []).print (.plain 80)) = .error (.markup (.unmatched "[/x]" 5)) := by
    have hfault : Console.print (.plain 80) "[\n  \"[/x]\"\n]" = .error (.unmatched "[/x]" 5) := by decide +kernel
    have hjson : Json.render 0 (names ["[/x]"] "Tags" []).value = .ok "[\n  \"[/x]\"\n]" := by decide +kernel
    rw [print_of_render hjson, hfault]
    rfl
  have hbroken : ((names ["a b c d e f"] "Tags" []).print (.plain 8)).toOption = some "[\n  \"a b c\nd e f\"\n]\n" := by
    decide +kernel
  have hstar : ((names [":star:"] "Tags" []).print pictured).toOption = some "[\n  \"*\"\n]\n" := by decide +kernel
  have hpicture : Json.read ("[\n  \"*\"\n]".toList ++ ['\n']) = some (names ["*"] "Tags" []).value :=
    read_render (fun _ _ => trivial) (by decide +kernel)
  refine ⟨htyped _, ⟨_, ok_of_toOption hlost, read_render (htyped _) hrender⟩, ?_, hclosing, ⟨_, ok_of_toOption hbroken, rfl⟩,
    _, ok_of_toOption hstar, hpicture⟩
  simp [x, y, value, File.toValue]

end Content

end RepoLens
