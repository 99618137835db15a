import Mathlib.Tactic
import RepoLens.Value
/-!
Entries whose keys are texts, as the mappings of settings and listings have them. What is put under a new key goes last.

Results:
- `assign_new`: an entry under a new key goes last.
-/
namespace RepoLens.Value

/-- entries whose keys are texts -/
def texts (es : List (Text × Value)) : List (Value × Value) := es.map fun e => (.text e.1, e.2)

theorem texts_cons (e : Text × Value) (es : List (Text × Value)) : texts (e :: es) = (.text e.1, e.2) :: texts es := rfl

theorem mem_texts {es : List (Text × Value)} {e : Value × Value} (h : e ∈ texts es) :
    ∃ k v, (k, v) ∈ es ∧ e = (.text k, v) := by
  obtain ⟨⟨k, v⟩, hmem, rfl⟩ := List.mem_map.1 h
  exact ⟨k, v, hmem, rfl⟩

theorem same_text (s t : Text) : same (.text s) (.text t) = decide (s = t) := rfl

theorem assign_new {k : Text} {v : Value} {es : List (Text × Value)} (h : k ∉ es.map Prod.fst) :
    assign (.text k) v (texts es) = texts (es ++ [(k, v)]) := by
  induction es with
  | nil => rfl
  | cons e es ih =>
    simp only [List.map_cons, List.mem_cons, not_or] at h
    have hne : same (.text e.1) (.text k) = false := by
      simpa [same_text] using Ne.symm h.1
    rw [texts_cons, assign, hne, ih h.2]
    rfl

end RepoLens.Value
