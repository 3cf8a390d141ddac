/-
# Two programs in lockstep

`Lockstep` is a relation between two programs, each run in a world of its own: they make their
requests side by side, meet with the same choices, stay in worlds that `I` relates at every await,
and end with values that `Q` relates.  What one program does in two worlds is the main case
(`Lockstep.of_forall`: if every request it can make is answered the same in related worlds and keeps
them related); where the answers differ, as the numbers of handles do, the two programs go
different ways for a while and are compared step by step.

`Lockstep.run` is the result about runs, dropped or not.
-/
import RspacefsCsi.Lib.Simulation

namespace RspacefsCsi.Lib.Prog

variable {Op : Type} {Resp : Op → Type} {C W α β γ δ : Type}

/-- The programs make their requests side by side, in worlds related by `I`, and end in `Q`. -/
def Lockstep (env : (o : Op) → C → W → Resp o × W) (ok : Op → C → Prop) (I : W → W → Prop)
    (Q : α → β → W → W → Prop) : Prog Op Resp α → Prog Op Resp β → W → W → Prop
  | .ret a, .ret b, w, w' => I w w' ∧ Q a b w w'
  | .call o k, .call o' k', w, w' =>
      I w w' ∧ ∀ c, ok o c → Lockstep env ok I Q (k (env o c w).1) (k' (env o' c w').1)
        (env o c w).2 (env o' c w').2
  | _, _, _, _ => False

variable {env : (o : Op) → C → W → Resp o × W} {ok : Op → C → Prop} {I : W → W → Prop}

/-- The rule for a sequence. -/
lemma Lockstep.bind {Q : α → β → W → W → Prop} {R : γ → δ → W → W → Prop} {p : Prog Op Resp α}
    {q : Prog Op Resp β} {f : α → Prog Op Resp γ} {g : β → Prog Op Resp δ} {w w' : W}
    (h : Lockstep env ok I Q p q w w')
    (hfg : ∀ a b u u', I u u' → Q a b u u' → Lockstep env ok I R (f a) (g b) u u') :
    Lockstep env ok I R (p >>= f) (q >>= g) w w' := by
  induction p generalizing q w w' with
  | ret a =>
    cases q with
    | ret b => exact hfg a b w w' h.1 h.2
    | call o' k' => exact h.elim
  | call o k ih =>
    cases q with
    | ret b => exact h.elim
    | call o' k' => exact ⟨h.1, fun c hc => ih _ (h.2 c hc)⟩

/-- Weakening the postcondition. -/
lemma Lockstep.mono {Q Q' : α → β → W → W → Prop} {p : Prog Op Resp α} {q : Prog Op Resp β} {w w' : W}
    (h : Lockstep env ok I Q p q w w') (hQ : ∀ a b u u', I u u' → Q a b u u' → Q' a b u u') :
    Lockstep env ok I Q' p q w w' := by
  induction p generalizing q w w' with
  | ret a =>
    cases q with
    | ret b => exact ⟨h.1, hQ a b w w' h.1 h.2⟩
    | call o' k' => exact h.elim
  | call o k ih =>
    cases q with
    | ret b => exact h.elim
    | call o' k' => exact ⟨h.1, fun c hc => ih _ (h.2 c hc)⟩

/-- A program whose requests are answered the same in related worlds. -/
lemma Lockstep.of_forall {P : Op → Prop} {p : Prog Op Resp α} (hp : Forall P p)
    (hstep : ∀ o c u u', P o → ok o c → I u u' →
      (env o c u).1 = (env o c u').1 ∧ I (env o c u).2 (env o c u').2) {w w' : W} (hw : I w w') :
    Lockstep env ok I (fun a b _ _ => a = b) p p w w' := by
  induction p generalizing w w' with
  | ret a => exact ⟨hw, rfl⟩
  | call o k ih =>
    refine ⟨hw, fun c hc => ?_⟩
    obtain ⟨hans, hI⟩ := hstep o c w w' hp.1 hc hw
    rw [← hans]
    exact ih _ (hp.2 _) hI

/-- One request, answered the same. -/
lemma Lockstep.call {Q : α → β → W → W → Prop} {o : Op} {k : Resp o → Prog Op Resp α}
    {k' : Resp o → Prog Op Resp β} {w w' : W} (hw : I w w')
    (h : ∀ c, ok o c → (env o c w).1 = (env o c w').1 ∧ I (env o c w).2 (env o c w').2)
    (hk : ∀ c, ok o c → ∀ u u', I u u' → Lockstep env ok I Q (k (env o c w).1) (k' (env o c w).1) u u') :
    Lockstep env ok I Q (.call o k) (.call o k') w w' := by
  refine ⟨hw, fun c hc => ?_⟩
  obtain ⟨hans, hI⟩ := h c hc
  rw [← hans]
  exact hk c hc _ _ hI

/-- **Programs in lockstep, dropped or not, stay in related worlds and return the same.** -/
theorem Lockstep.run {p q : Prog Op Resp α} {w w' : W}
    (h : Lockstep env ok I (fun a b _ _ => a = b) p q w w') {cs : List C}
    (hcs : Fitting env ok p cs w) :
    I (run env p cs w).world (run env q cs w').world ∧
      (run env p cs w).result = (run env q cs w').result := by
  induction p generalizing q w w' cs with
  | ret a =>
    cases q with
    | call o' k' => exact h.elim
    | ret b =>
      cases cs with
      | nil => exact ⟨h.1, rfl⟩
      | cons c cs => exact ⟨h.1, congrArg some h.2⟩
  | call o k ih =>
    cases q with
    | ret b => exact h.elim
    | call o' k' =>
      cases cs with
      | nil => exact ⟨h.1, rfl⟩
      | cons c cs => exact ih _ (h.2 c hcs.1) hcs.2

end RspacefsCsi.Lib.Prog
