/-
# Layered file systems

A layered file system shows the merged view of a stack of layers.  A layer says, for some
paths, that there is something there or that whatever the layers below have there is
hidden; for the other paths it says nothing.  A path is resolved by the first layer of
the stack, from the top, that says something about it.

A whiteout of a directory, and an opaque directory, hide every path below them: the layer
then says `whiteout` for each of these paths.

The questions answered here are when moving a layer from the top of a stack to the bottom
(`view_append_singleton_eq_iff`), or dropping what is below a layer (`view_singleton_eq_iff`),
leaves the merged view as it is.
-/
import Mathlib.Data.List.Basic

namespace RspacefsCsi.Lib

/-- What a layer says about a path. -/
inductive Entry (D : Type)
  /-- There is something. -/
  | data (d : D)
  /-- What the layers below have is hidden. -/
  | whiteout
deriving DecidableEq

namespace Entry

variable {D : Type}

/-- What is seen where the entry is the first one. -/
def shows : Option (Entry D) → Option D
  | some (.data d) => some d
  | _ => none

end Entry

/-- A layer of a file system with paths `P` and contents `D`. -/
def Layer (P D : Type) : Type := P → Option (Entry D)

namespace Layer

variable {P D : Type}

/-- The layer that says nothing. -/
def empty : Layer P D := fun _ => none

/-- The first thing a stack says about a path. -/
def find : List (Layer P D) → P → Option (Entry D)
  | [], _ => none
  | l :: ls, p => (l p).or (find ls p)

/-- The merged view of a stack, from the top. -/
def view (ls : List (Layer P D)) (p : P) : Option D := Entry.shows (find ls p)

lemma find_append (ls ms : List (Layer P D)) (p : P) :
    find (ls ++ ms) p = (find ls p).or (find ms p) := by
  induction ls with
  | nil => rfl
  | cons l ls ih => simp [find, ih, Option.or_assoc]

lemma find_singleton (l : Layer P D) (p : P) : find [l] p = l p := by simp [find]

/-- An empty layer on top changes nothing. -/
lemma view_empty_cons (ls : List (Layer P D)) : view (empty :: ls) = view ls := rfl

/-- The stack with `u` below `ls'` shows what the stack with `u` above `ls` shows exactly
when, where `u` says something, `ls'` says nothing or shows the same, and, elsewhere, `ls'`
shows what `ls` shows. -/
theorem view_append_singleton_eq_iff (u : Layer P D) (ls ls' : List (Layer P D)) :
    view (ls' ++ [u]) = view (u :: ls) ↔
      (∀ p, u p ≠ none → find ls' p = none ∨ view ls' p = Entry.shows (u p)) ∧
        ∀ p, u p = none → view ls' p = view ls p := by
  have hleft : ∀ p, view (ls' ++ [u]) p = Entry.shows ((find ls' p).or (u p)) := by
    intro p
    rw [view, find_append, find_singleton]
  constructor
  · intro h
    refine ⟨fun p hp => ?_, fun p hp => ?_⟩
    · have hpv := congrFun h p
      cases hf : find ls' p with
      | none => exact Or.inl rfl
      | some e =>
        right
        obtain ⟨e', he'⟩ := Option.ne_none_iff_exists'.mp hp
        rw [hleft, hf] at hpv
        rw [view, hf]
        simpa [view, find, he'] using hpv
    · have hpv := congrFun h p
      rw [hleft, hp, Option.or_none] at hpv
      simpa [view, find, hp] using hpv
  · rintro ⟨h1, h2⟩
    funext p
    rw [hleft]
    by_cases hp : u p = none
    · have := h2 p hp
      simpa [view, find, hp] using this
    · obtain ⟨e', he'⟩ := Option.ne_none_iff_exists'.mp hp
      rcases h1 p hp with hn | hs
      · simp [view, find, hn, he']
      · cases hf : find ls' p with
        | none => simp [view, find, he']
        | some e =>
          rw [view, hf, he'] at hs
          simpa [view, find, he'] using hs

/-- The layer `u` alone shows what it shows above `ls` exactly when it says something about
every path `ls` shows something at. -/
theorem view_singleton_eq_iff (u : Layer P D) (ls : List (Layer P D)) :
    view [u] = view (u :: ls) ↔ ∀ p, view ls p ≠ none → u p ≠ none := by
  constructor
  · intro h p hp hu
    have hpv := congrFun h p
    simp only [view, find, hu, Option.none_or] at hpv
    exact hp hpv.symm
  · intro h
    funext p
    cases hu : u p with
    | some e => simp [view, find, hu]
    | none =>
      have : view ls p = none := by
        by_contra hne
        exact h p hne hu
      simp only [view] at this
      simp only [view, find, hu, Option.none_or, this]
      rfl

end Layer

end RspacefsCsi.Lib
