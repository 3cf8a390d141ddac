/-
# Runs of a step function

A run is a list of moves, taken one after the other from a first state.  `Along` says that
something holds of every move of a run in the state it is taken in; the rule is that an
invariant kept by the moves that meet a condition makes a property of the single move a
property of the run.
-/
import Mathlib.Data.List.Basic

namespace RspacefsCsi.Lib

variable {S M : Type} (step : S → M → S)

/-- Every move of the run is one of `P` in the state it is taken in. -/
def Along (P : S → M → Prop) : S → List M → Prop
  | _, [] => True
  | s, m :: ms => P s m ∧ Along P (step s m) ms

variable {step} in
instance instDecidableAlong {P : S → M → Prop} [h : ∀ s m, Decidable (P s m)] :
    (s : S) → (ms : List M) → Decidable (Along step P s ms)
  | _, [] => isTrue trivial
  | s, m :: ms => @instDecidableAnd _ _ (h s m) (instDecidableAlong (step s m) ms)

variable {step} {P Q : S → M → Prop}

lemma Along.mono (h : ∀ s m, P s m → Q s m) {s : S} {ms : List M} (hp : Along step P s ms) :
    Along step Q s ms := by
  induction ms generalizing s with
  | nil => trivial
  | cons m ms ih => exact ⟨h s m hp.1, ih hp.2⟩

lemma Along.and {s : S} {ms : List M} (hp : Along step P s ms) (hq : Along step Q s ms) :
    Along step (fun s m => P s m ∧ Q s m) s ms := by
  induction ms generalizing s with
  | nil => trivial
  | cons m ms ih => exact ⟨⟨hp.1, hq.1⟩, ih hp.2 hq.2⟩

lemma Along.of_forall {ms : List M} (h : ∀ m ∈ ms, ∀ s, P s m) (s : S) : Along step P s ms := by
  induction ms generalizing s with
  | nil => trivial
  | cons m ms ih =>
    exact ⟨h m List.mem_cons_self s, ih (fun m' hm' => h m' (List.mem_cons_of_mem m hm')) _⟩

/-- The rule for runs. -/
theorem Along.of_inv {I : S → Prop} (hgood : ∀ s m, I s → P s m → Q s m)
    (hstep : ∀ s m, I s → P s m → I (step s m)) {s : S} (hs : I s) {ms : List M}
    (h : Along step P s ms) : Along step Q s ms := by
  induction ms generalizing s with
  | nil => trivial
  | cons m ms ih => exact ⟨hgood s m hs h.1, ih (hstep s m hs h.1) h.2⟩

/-- What holds after a run, if it holds before and every move keeps it. -/
theorem Along.foldl {I : S → Prop} (hstep : ∀ s m, I s → P s m → I (step s m)) {s : S}
    (hs : I s) {ms : List M} (h : Along step P s ms) : I (ms.foldl step s) := by
  induction ms generalizing s with
  | nil => exact hs
  | cons m ms ih => exact ih (hstep s m hs h.1) h.2

end RspacefsCsi.Lib
