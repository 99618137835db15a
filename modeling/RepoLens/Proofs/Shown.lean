import Mathlib.Tactic
import RepoLens.Console
import RepoLens.Proofs.Escape
import RepoLens.Proofs.Listing
/-!
Text that has been laid out. The lines of a text are those of its characters alone, whatever styles lie over it; the styles
decide only whether there are any. None comes in on the way, so it is enough that every style of the text can be read.

Results:
- `mem_laidOut`: the pieces of a text have no other styles than the text;
- `wrap_of_readable`: a text whose styles can be read has the lines of its characters;
- `print_of_read`, `print_styled`: what is printed of such a text, and of markup between the tags of a style.
-/
namespace RepoLens.Console

namespace Shown

variable {s piece : Shown} {width : Nat} {overflow : Overflow} {how : Justify} {stretches : List Stretch} {ts : List Text}

/-! ## Styles of a piece -/

/-- the styles of one text are among those of another -/
def StyledBy (piece s : Shown) : Prop := ∀ r ∈ piece.stretches, ∃ q ∈ s.stretches, q.style = r.style

theorem StyledBy.refl (s : Shown) : s.StyledBy s := fun r hr => ⟨r, hr, rfl⟩

theorem StyledBy.trans {s t u : Shown} (hst : s.StyledBy t) (htu : t.StyledBy u) : s.StyledBy u := by
  intro r hr
  obtain ⟨q, hq, hqr⟩ := hst r hr
  obtain ⟨p, hp, hpq⟩ := htu q hq
  exact ⟨p, hp, hpq.trans hqr⟩

theorem style_within {q r : Stretch} {start stop : Nat} (h : q.within start stop = some r) : q.style = r.style := by
  rw [Stretch.within] at h
  split_ifs at h
  rw [← Option.some.inj h]

theorem mem_divide {gap start : Nat} (h : piece ∈ divide gap start stretches ts) (t : Text) :
    piece.StyledBy ⟨t, stretches⟩ := by
  induction ts generalizing start with
  | nil => exact absurd h List.not_mem_nil
  | cons u ts ih =>
    rcases List.mem_cons.1 h with rfl | h
    · intro r hr
      obtain ⟨q, hq, hwithin⟩ := List.mem_filterMap.1 hr
      exact ⟨q, hq, style_within hwithin⟩
    · exact ih h

theorem mem_pieces {gap : Nat} (h : piece ∈ pieces gap stretches ts) (t : Text) : piece.StyledBy ⟨t, stretches⟩ := by
  unfold pieces at h
  split at h
  · obtain rfl := List.mem_singleton.1 h
    exact fun r hr => ⟨r, hr, rfl⟩
  · exact mem_divide h t

theorem styledBy_expandTabs (s : Shown) : s.expandTabs.StyledBy s := by
  simp only [expandTabs]
  split_ifs
  · intro r hr
    obtain ⟨q, hq, hplace⟩ := List.mem_filterMap.1 hr
    split_ifs at hplace
    exact ⟨q, hq, by rw [← Option.some.inj hplace]⟩
  · exact StyledBy.refl s

theorem styledBy_recut (s : Shown) (t : Text) : (s.recut t).StyledBy s := by
  intro r hr
  rw [recut] at hr
  split_ifs at hr
  · exact ⟨r, List.mem_of_mem_filter hr, rfl⟩
  · exact ⟨r, hr, rfl⟩

theorem styledBy_finish (s : Shown) : (s.finish width overflow how).StyledBy s := by
  cases how with
  | asIs => exact (styledBy_recut _ _).trans (styledBy_recut s _)
  | left => exact (styledBy_recut _ _).trans (styledBy_recut s _)
  | centre => exact (styledBy_recut _ _).trans ((styledBy_recut _ _).trans (styledBy_recut s _))

/-- **No style comes in** when a text is laid out. -/
theorem mem_laidOut (h : piece ∈ s.laidOut width overflow how) : piece.StyledBy s := by
  obtain ⟨line, hline, h⟩ := List.mem_flatMap.1 h
  obtain ⟨part, hpart, rfl⟩ := List.mem_map.1 h
  have hlineStyles : line.StyledBy s := mem_pieces hline s.text
  have hpartStyles : part.StyledBy line.expandTabs := mem_pieces hpart line.expandTabs.text
  exact (styledBy_finish part).trans (hpartStyles.trans ((styledBy_expandTabs line).trans hlineStyles))

/-! ## Lines -/

/-- every style of a text can be read -/
def Readable (s : Shown) : Prop := ∀ r ∈ s.stretches, ∃ style, Style.read r.style = .ok style

theorem readable_plain (t : Text) : (⟨t, []⟩ : Shown).Readable := fun _ hr => absurd hr List.not_mem_nil

theorem wrap_eq_ok {lines : List Text} (h : s.wrap width overflow how = .ok lines) :
    lines = Console.wrap width overflow how s.text := by
  rw [wrap] at h
  obtain ⟨_, -, rfl⟩ := bind_pure_eq_ok.1 h
  rfl

/-- **A text whose styles can be read** has the lines of its characters. -/
theorem wrap_of_readable (h : s.Readable) (width : Nat) (overflow : Overflow) (how : Justify) :
    s.wrap width overflow how = .ok (Console.wrap width overflow how s.text) := by
  obtain ⟨styles, hstyles⟩ : ∃ styles,
      ((s.laidOut width overflow how).flatMap Shown.stretches).mapM (fun r => Style.read r.style) = .ok styles := by
    refine Listing.exists_mapM_iff.2 fun r hr => ?_
    obtain ⟨piece, hpiece, hr⟩ := List.mem_flatMap.1 hr
    obtain ⟨q, hq, hstyle⟩ := mem_laidOut hpiece r hr
    rw [← hstyle]
    exact h q hq
  rw [wrap, hstyles]
  rfl

end Shown

/-! ## Printing -/

theorem Markup.render_eq_ok {screen : Screen} {markup t : Text} :
    render screen markup = .ok t ↔ ∃ s, read screen markup = .ok s ∧ s.text = t := by
  rw [render]
  cases read screen markup with
  | error f => simp [Functor.map, Except.map]
  | ok s => simp [Functor.map, Except.map]

/-- a text on a screen -/
def shownOn (screen : Screen) (t : Text) : Text :=
  if screen.width = 0 then [] else block (wrap screen.width .fold .asIs t)

variable {screen : Screen} {markup : Text} {s : Shown}

theorem print_of_read (h : Markup.read screen markup = .ok s) (hs : s.Readable) :
    print screen markup = .ok (shownOn screen s.text) := by
  rw [print, h, shownOn]
  simp only [bind, Except.bind]
  split_ifs
  · rfl
  · rw [Shown.wrap_of_readable hs]
    rfl

/-- markup that shows in one style, with its tags in the markup, can be printed -/
theorem print_styled {style u : Text} (hs : Markup.StyleWord style) (h : Markup.StyledAs screen style markup u) :
    print screen markup = .ok (shownOn screen u) := by
  refine print_of_read h fun r hr => ?_
  rw [List.mem_singleton.1 hr]
  exact hs.readable

/-- what is printed is what the markup shows, laid out -/
theorem print_eq_ok {t : Text} (h : print screen markup = .ok t) :
    ∃ s, Markup.read screen markup = .ok s ∧ t = shownOn screen s.text := by
  rw [print] at h
  obtain ⟨s, hread, h⟩ := bind_eq_ok.1 h
  refine ⟨s, hread, ?_⟩
  rw [shownOn]
  split_ifs at h ⊢
  · exact pure_eq_ok.1 h
  · rw [map_eq_pure_bind] at h
    obtain ⟨lines, hwrap, rfl⟩ := bind_pure_eq_ok.1 h
    rw [Shown.wrap_eq_ok (Listing.mapError_eq_ok.1 hwrap)]

end RepoLens.Console
