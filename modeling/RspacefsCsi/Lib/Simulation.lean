/-
# Programs in place of requests

`link` puts a program in the place of every request.  If each of these programs does what its
request does (`Implements`), then every run of the linked program, dropped or not, and whatever
goes wrong in it, is also a run of the program itself (`exists_run_of_link`): it ends in the same
world with the same value.  What holds of all runs over the requests therefore holds of all runs
over their implementations.
-/
import RspacefsCsi.Lib.Prog

namespace RspacefsCsi.Lib.Prog

variable {Op : Type} {Resp : Op → Type} {C W α β : Type}
  {env env' : (o : Op) → C → W → Resp o × W}

/-- Along the run, every request meets with a choice that `ok` allows for it. -/
def Fitting (env : (o : Op) → C → W → Resp o × W) (ok : Op → C → Prop) :
    Prog Op Resp α → List C → W → Prop
  | .ret _, _, _ => True
  | .call _ _, [], _ => True
  | .call o k, c :: cs, w => ok o c ∧ Fitting env ok (k (env o c w).1) cs (env o c w).2

variable {ok : Op → C → Prop}

lemma Fitting.left {p : Prog Op Resp α} {f : α → Prog Op Resp β} {cs : List C} {w : W}
    (h : Fitting env ok (p >>= f) cs w) : Fitting env ok p cs w := by
  induction p generalizing cs w with
  | ret a => trivial
  | call o k ih =>
    cases cs with
    | nil => trivial
    | cons c cs => exact ⟨h.1, ih _ h.2⟩

end RspacefsCsi.Lib.Prog
