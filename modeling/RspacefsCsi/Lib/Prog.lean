/-
# Asynchronous programs

A handler of an asynchronous service awaits one request to its environment after another.
`Prog Op Resp α` is the shape of such a handler: either it is over and returns a value, or
it awaits the request `o` and goes on with the answer.  The requests are data, so that
the same handler can be run in different environments, its requests can be read off a
run, and a request can itself be implemented by another program (`link`).

The environment is a function: given a request, the state of the world and a *choice*
`c : C`, it says what is answered and what the world becomes.  The choices carry all
that a program cannot know (which call fails, what a peer replies), so a statement about
every list of choices is a statement about every behaviour of the environment.

* `run` follows one list of choices.  When the list is used up, the program is dropped at
  the await it has reached: this is what cancelling a future does.
* `Always` says what holds of all runs, dropped or not, as a precondition computed along
  the program.  `run_of_always` connects the two.
* `eval` is the run in which no choice is left to make.
-/
import Mathlib.Data.List.Basic

namespace RspacefsCsi.Lib

variable {Op : Type} {Resp : Op → Type} {C W α β : Type}

/-- A program that awaits requests `o : Op`, each answered by a `Resp o`. -/
inductive Prog (Op : Type) (Resp : Op → Type) (α : Type) : Type
  /-- The program is over. -/
  | ret (a : α) : Prog Op Resp α
  /-- The program awaits `o` and goes on with the answer. -/
  | call (o : Op) (k : Resp o → Prog Op Resp α) : Prog Op Resp α

/-- A request with the answer it got. -/
structure Event (Op : Type) (Resp : Op → Type) where
  /-- The request. -/
  op : Op
  /-- Its answer. -/
  resp : Resp op

namespace Prog

/-- Await one request. -/
def perform (o : Op) : Prog Op Resp (Resp o) := .call o .ret

/-- Sequencing. -/
def bind : Prog Op Resp α → (α → Prog Op Resp β) → Prog Op Resp β
  | .ret a, f => f a
  | .call o k, f => .call o fun r => (k r).bind f

instance : Monad (Prog Op Resp) where
  pure := .ret
  bind := bind

@[simp] lemma pure_eq (a : α) : (pure a : Prog Op Resp α) = .ret a := rfl

@[simp] lemma ret_bind (a : α) (f : α → Prog Op Resp β) : (Prog.ret a >>= f) = f a := rfl

@[simp] lemma call_bind (o : Op) (k : Resp o → Prog Op Resp α) (f : α → Prog Op Resp β) :
    (Prog.call o k >>= f) = .call o fun r => k r >>= f := rfl

@[simp] lemma perform_bind (o : Op) (f : Resp o → Prog Op Resp β) :
    (perform o >>= f) = .call o f := rfl

lemma bind_assoc {γ : Type} (p : Prog Op Resp α) (f : α → Prog Op Resp β)
    (g : β → Prog Op Resp γ) : (p >>= f >>= g) = p >>= fun a => f a >>= g := by
  induction p with
  | ret a => rfl
  | call o k ih =>
    simp only [call_bind]
    congr 1
    funext r
    exact ih r

instance : LawfulMonad (Prog Op Resp) := LawfulMonad.mk' _
  (by
    intro α p
    induction p with
    | ret a => rfl
    | call o k ih => exact congrArg _ (funext ih))
  (fun _ _ => rfl)
  (fun p f g => bind_assoc p f g)

/-! ### Fallible programs -/

variable {ε δ : Type}

/-- Await a request in a program that stops at the first error: `f` says which answers are
errors. -/
def attempt (o : Op) (f : Resp o → Except ε α) : ExceptT ε (Prog Op Resp) α :=
  ExceptT.mk (perform o >>= fun r => .ret (f r))

/-- Await a request whose answer, whatever it is, does not stop the program. -/
def request (o : Op) : ExceptT ε (Prog Op Resp) (Resp o) := ExceptT.lift (perform o)

/-- Run a fallible program as a part of another one, with its error renamed. -/
def within (f : ε → δ) (p : ExceptT ε (Prog Op Resp) α) : ExceptT δ (Prog Op Resp) α :=
  ExceptT.mk (p.run >>= fun r => .ret (r.mapError f))

/-- A value or an error that needs no request. -/
def require (x : Except ε α) : ExceptT ε (Prog Op Resp) α := ExceptT.mk (.ret x)

/-- Run a fallible program whose error, if any, is dropped. -/
def ignoring (p : ExceptT δ (Prog Op Resp) α) : ExceptT ε (Prog Op Resp) Unit :=
  ExceptT.mk (p.run >>= fun _ => .ret (.ok ()))

@[simp] lemma run_attempt (o : Op) (f : Resp o → Except ε α) :
    (attempt o f).run = .call o fun r => .ret (f r) := rfl

@[simp] lemma run_attempt_bind (o : Op) (f : Resp o → Except ε α)
    (k : α → ExceptT ε (Prog Op Resp) β) :
    (attempt o f >>= k).run = .call o fun r => match f r with
      | .ok a => (k a).run
      | .error e => .ret (.error e) := by
  change Prog.call o _ = _
  congr 1
  funext r
  change Prog.bind (.ret (f r)) _ = _
  cases f r <;> rfl

@[simp] lemma run_request_bind (o : Op) (k : Resp o → ExceptT ε (Prog Op Resp) β) :
    (request o >>= k).run = .call o fun r => (k r).run := rfl

@[simp] lemma run_within_bind (f : ε → δ) (p : ExceptT ε (Prog Op Resp) α)
    (k : α → ExceptT δ (Prog Op Resp) β) :
    (within f p >>= k).run = p.run >>= fun r => match r with
      | .ok a => (k a).run
      | .error e => .ret (.error (f e)) := by
  change (p.run >>= fun r => Prog.ret (r.mapError f)) >>= _ = _
  rw [bind_assoc]
  congr 1
  funext r
  cases r <;> rfl

@[simp] lemma run_require (x : Except ε α) :
    (require x : ExceptT ε (Prog Op Resp) α).run = .ret x := rfl

@[simp] lemma run_require_bind (x : Except ε α) (k : α → ExceptT ε (Prog Op Resp) β) :
    (require x >>= k).run = match x with
      | .ok a => (k a).run
      | .error e => .ret (.error e) := by
  cases x <;> rfl

@[simp] lemma run_ignoring_bind (p : ExceptT δ (Prog Op Resp) α)
    (k : Unit → ExceptT ε (Prog Op Resp) β) :
    (ignoring p >>= k).run = p.run >>= fun _ => (k ()).run := by
  change (p.run >>= fun _ => Prog.ret (Except.ok ())) >>= _ = _
  rw [bind_assoc]
  rfl

/-- A fallible computation that succeeds has succeeded in its first part. -/
lemma of_bind_eq_ok {ε γ δ : Type} {x : Except ε γ} {f : γ → Except ε δ} {d : δ}
    (h : (x >>= f) = .ok d) : ∃ c, x = .ok c ∧ f c = .ok d := by
  cases x with
  | error e => exact absurd h nofun
  | ok c => exact ⟨c, rfl, h⟩

/-- A program that was dropped has not returned. -/
lemma not_returned {a : α} {p : Prop} (h : none = some a) : p :=
  absurd h (Option.some_ne_none a).symm

/-- It has returned none of the values `f b`. -/
lemma none_returned {ι : Sort*} {f : ι → α} {p : ι → Prop} (b : ι) (h : none = some (f b)) : p b :=
  not_returned h

/-- A program that returned an error has not returned OK. -/
lemma not_ok {e : ε} {a : α} {p : Prop} (h : some (Except.error e) = some (Except.ok a)) : p := by
  cases h

/-- It has returned none of the values `f b`. -/
lemma none_ok {ι : Sort*} {e : ε} {f : ι → α} {p : ι → Prop} (b : ι)
    (h : some (Except.error e) = some (Except.ok (f b))) : p b :=
  not_ok h

/-! ### Running a program -/

/-- What is left of a run: the requests made and their answers, the world, and the value
returned, if the program was not dropped. -/
structure Outcome (Op : Type) (Resp : Op → Type) (W α : Type) where
  /-- The requests made, with their answers. -/
  trace : List (Event Op Resp)
  /-- The world at the end. -/
  world : W
  /-- The value returned; none if the program was dropped. -/
  result : Option α

/-- Run a program along a list of choices.  A program whose choices are used up is dropped
where it stands; one whose last request is under way when that happens has made the
request but returns nothing. -/
def run (env : (o : Op) → C → W → Resp o × W) :
    Prog Op Resp α → List C → W → Outcome Op Resp W α
  | _, [], w => ⟨[], w, none⟩
  | .ret a, _ :: _, w => ⟨[], w, some a⟩
  | .call o k, c :: cs, w =>
      let out := run env (k (env o c w).1) cs (env o c w).2
      ⟨⟨o, (env o c w).1⟩ :: out.trace, out.world, out.result⟩

/-- A program that is not dropped comes to its end, whatever it is answered. -/
theorem exists_result (env : (o : Op) → C → W → Resp o × W) (p : Prog Op Resp α) (c : ℕ → C)
    (w : W) : ∃ n a, (run env p ((List.range n).map c) w).result = some a := by
  induction p generalizing c w with
  | ret a => exact ⟨1, a, rfl⟩
  | call o k ih =>
    obtain ⟨n, a, h⟩ := ih (env o (c 0) w).1 (c ∘ Nat.succ) (env o (c 0) w).2
    refine ⟨n + 1, a, ?_⟩
    rw [List.range_succ_eq_map, List.map_cons, List.map_map]
    exact h

/-- Every run of the program from `w`, after the requests `tr`, ends in `Q`.  A program can
be dropped at every await, so `Q` has to hold at each of them. -/
def Always (env : (o : Op) → C → W → Resp o × W) (ok : C → Prop)
    (Q : List (Event Op Resp) → W → Option α → Prop) :
    Prog Op Resp α → List (Event Op Resp) → W → Prop
  | .ret a, tr, w => Q tr w none ∧ Q tr w (some a)
  | .call o k, tr, w =>
      Q tr w none ∧ ∀ c, ok c →
        Always env ok Q (k (env o c w).1) (tr ++ [⟨o, (env o c w).1⟩]) (env o c w).2

variable {env : (o : Op) → C → W → Resp o × W} {ok : C → Prop}
  {Q Q' : List (Event Op Resp) → W → Option α → Prop}

/-- `Always` is about all runs. -/
theorem run_of_always {p : Prog Op Resp α} {tr : List (Event Op Resp)} {w : W}
    (h : Always env ok Q p tr w) (cs : List C) (hcs : ∀ c ∈ cs, ok c) :
    Q (tr ++ (run env p cs w).trace) (run env p cs w).world (run env p cs w).result := by
  induction p generalizing tr w cs with
  | ret a =>
    cases cs with
    | nil => simpa [run] using h.1
    | cons c cs => simpa [run] using h.2
  | call o k ih =>
    cases cs with
    | nil => simpa [run] using h.1
    | cons c cs =>
      have := ih _ (h.2 c (hcs c (by simp))) cs (fun c' hc' => hcs c' (by simp [hc']))
      simpa [run] using this

/-- Every run of `p` is a run `Always` speaks about. -/
theorem always_of_run {p : Prog Op Resp α} {tr : List (Event Op Resp)} {w : W}
    (h : ∀ cs : List C, (∀ c ∈ cs, ok c) → ∀ c, ok c →
      Q (tr ++ (run env p cs w).trace) (run env p cs w).world (run env p cs w).result ∧
      Q (tr ++ (run env p (cs ++ [c]) w).trace) (run env p (cs ++ [c]) w).world
        (run env p (cs ++ [c]) w).result)
    (hne : ∃ c, ok c) : Always env ok Q p tr w := by
  obtain ⟨c₀, hc₀⟩ := hne
  induction p generalizing tr w with
  | ret a =>
    have := h [] (by simp) c₀ hc₀
    exact ⟨by simpa [run] using this.1, by simpa [run] using this.2⟩
  | call o k ih =>
    refine ⟨by simpa [run] using (h [] (by simp) c₀ hc₀).1, fun c hc => ?_⟩
    refine ih _ fun cs hcs c' hc' => ?_
    have := h (c :: cs) (by simpa [hc] using hcs) c' hc'
    simpa [run] using this

/-- Weakening the postcondition. -/
lemma Always.mono {p : Prog Op Resp α} {tr : List (Event Op Resp)} {w : W}
    (h : Always env ok Q p tr w) (hQ : ∀ tr w x, Q tr w x → Q' tr w x) :
    Always env ok Q' p tr w := by
  induction p generalizing tr w with
  | ret a => exact ⟨hQ _ _ _ h.1, hQ _ _ _ h.2⟩
  | call o k ih => exact ⟨hQ _ _ _ h.1, fun c hc => ih _ (h.2 c hc)⟩

lemma Always.and {p : Prog Op Resp α} {tr : List (Event Op Resp)} {w : W}
    (h : Always env ok Q p tr w) (h' : Always env ok Q' p tr w) :
    Always env ok (fun tr w x => Q tr w x ∧ Q' tr w x) p tr w := by
  induction p generalizing tr w with
  | ret a => exact ⟨⟨h.1, h'.1⟩, h.2, h'.2⟩
  | call o k ih => exact ⟨⟨h.1, h'.1⟩, fun c hc => ih _ (h.2 c hc) (h'.2 c hc)⟩

/-- A run only adds to the trace. -/
lemma Always.extends {p : Prog Op Resp α} {tr : List (Event Op Resp)} {w : W}
    (h : Always env ok Q p tr w) :
    Always env ok (fun tr' w x => (∃ t, tr' = tr ++ t) ∧ Q tr' w x) p tr w := by
  induction p generalizing tr w with
  | ret a => exact ⟨⟨⟨[], by simp⟩, h.1⟩, ⟨[], by simp⟩, h.2⟩
  | call o k ih =>
    refine ⟨⟨⟨[], by simp⟩, h.1⟩, fun c hc => (ih _ (h.2 c hc)).mono ?_⟩
    rintro tr' w' x ⟨⟨t, rfl⟩, hQ⟩
    exact ⟨⟨_, List.append_assoc _ _ _⟩, hQ⟩

/-- What was requested before does not matter for a program. -/
lemma Always.shift {p : Prog Op Resp α} (tr₀ : List (Event Op Resp)) {tr : List (Event Op Resp)}
    {w : W} (h : Always env ok (fun t w x => Q (tr₀ ++ t) w x) p tr w) :
    Always env ok Q p (tr₀ ++ tr) w := by
  induction p generalizing tr w with
  | ret a => exact h
  | call o k ih =>
    refine ⟨h.1, fun c hc => ?_⟩
    rw [List.append_assoc]
    exact ih _ (h.2 c hc)

/-- Restricting the choices. -/
lemma Always.restrict {ok' : C → Prop} {p : Prog Op Resp α} {tr : List (Event Op Resp)} {w : W}
    (h : Always env ok Q p tr w) (hok : ∀ c, ok' c → ok c) : Always env ok' Q p tr w := by
  induction p generalizing tr w with
  | ret a => exact h
  | call o k ih => exact ⟨h.1, fun c hc => ih _ (h.2 c (hok c hc))⟩

/-- The rule for a sequence: what the first program leaves is where the second starts. -/
lemma Always.bind {R : List (Event Op Resp) → W → Option β → Prop} {p : Prog Op Resp α}
    {f : α → Prog Op Resp β} {tr : List (Event Op Resp)} {w : W}
    (h : Always env ok (fun tr w x => R tr w none ∧ ∀ a, x = some a → Always env ok R (f a) tr w)
      p tr w) : Always env ok R (p >>= f) tr w := by
  induction p generalizing tr w with
  | ret a => exact h.2.2 a rfl
  | call o k ih => exact ⟨h.1.1, fun c hc => ih _ (h.2 c hc)⟩

/-- The rule for a sequence of fallible programs. -/
lemma Always.tryBind {ε : Type} {R : List (Event Op Resp) → W → Option (Except ε β) → Prop}
    {p : ExceptT ε (Prog Op Resp) α} {f : α → ExceptT ε (Prog Op Resp) β}
    {tr : List (Event Op Resp)} {w : W}
    (h : Always env ok (fun tr w r => R tr w none ∧
        (∀ e, r = some (.error e) → R tr w (some (.error e))) ∧
        ∀ a, r = some (.ok a) → Always env ok R (f a).run tr w) p.run tr w) :
    Always env ok R (p >>= f).run tr w := by
  rw [ExceptT.run_bind]
  refine Always.bind (h.mono fun tr w r hr => ⟨hr.1, fun a ha => ?_⟩)
  cases a with
  | ok a => exact hr.2.2 a ha
  | error e => exact ⟨hr.1, hr.2.1 e ha⟩

/-! ### The requests a program can make -/

/-- Every request the program can make, whatever the answers, is one of `P`. -/
def Forall (P : Op → Prop) : Prog Op Resp α → Prop
  | .ret _ => True
  | .call o k => P o ∧ ∀ r, Forall P (k r)

@[simp] lemma forall_ret {P : Op → Prop} (a : α) : Forall P (.ret a : Prog Op Resp α) := trivial

@[simp] lemma forall_call {P : Op → Prop} {o : Op} {k : Resp o → Prog Op Resp α} :
    Forall P (.call o k) ↔ P o ∧ ∀ r, Forall P (k r) := Iff.rfl

lemma Forall.bind {P : Op → Prop} {p : Prog Op Resp α} {f : α → Prog Op Resp β}
    (hp : Forall P p) (hf : ∀ a, Forall P (f a)) : Forall P (p >>= f) := by
  induction p with
  | ret a => exact hf a
  | call o k ih => exact ⟨hp.1, fun r => ih r (hp.2 r)⟩

lemma Forall.mono {P P' : Op → Prop} {p : Prog Op Resp α} (hp : Forall P p)
    (h : ∀ o, P o → P' o) : Forall P' p := by
  induction p with
  | ret a => trivial
  | call o k ih => exact ⟨h o hp.1, fun r => ih r (hp.2 r)⟩

lemma forall_true (p : Prog Op Resp α) : Forall (fun _ => True) p := by
  induction p with
  | ret a => trivial
  | call o k ih => exact ⟨trivial, ih⟩

/-- The requests of a run are among those the program can make. -/
lemma Forall.run_trace {P : Op → Prop} {p : Prog Op Resp α} (hp : Forall P p) (cs : List C)
    (w : W) : ∀ e ∈ (run env p cs w).trace, P e.op := by
  induction p generalizing cs w with
  | ret a => cases cs <;> exact fun e he => absurd he List.not_mem_nil
  | call o k ih =>
    cases cs with
    | nil => exact fun e he => absurd he List.not_mem_nil
    | cons c cs =>
      intro e he
      rcases List.mem_cons.1 he with rfl | he
      · exact hp.1
      · exact ih _ (hp.2 _) cs _ e he

/-- What each request of a program preserves, every run of it preserves. -/
lemma Always.of_forall {P : Op → Prop} {I : W → Prop} {p : Prog Op Resp α} (hp : Forall P p)
    (hstep : ∀ o c w, P o → ok c → I w → I (env o c w).2) {w : W} (hw : I w)
    (tr : List (Event Op Resp)) : Always env ok (fun _ w' _ => I w') p tr w := by
  induction p generalizing w tr with
  | ret a => exact ⟨hw, hw⟩
  | call o k ih => exact ⟨hw, fun c hc => ih _ (hp.2 _) (hstep o c w hp.1 hc hw) _⟩

/-- The requests that a run adds to the trace are among those the program can make. -/
lemma Always.trace_of_forall {P : Op → Prop} {p : Prog Op Resp α} (hp : Forall P p)
    (tr : List (Event Op Resp)) (w : W) :
    Always env ok (fun tr' _ _ => ∃ t, tr' = tr ++ t ∧ ∀ e ∈ t, P e.op) p tr w := by
  have hnil : ∃ t, tr = tr ++ t ∧ ∀ e ∈ t, P e.op := ⟨[], by simp, by simp⟩
  induction p generalizing tr w with
  | ret a => exact ⟨hnil, hnil⟩
  | call o k ih =>
    refine ⟨hnil, fun c _ => (ih _ (hp.2 _) _ _ ⟨[], by simp, by simp⟩).mono ?_⟩
    rintro tr' w' x ⟨t, rfl, ht⟩
    refine ⟨_, List.append_assoc _ _ _, fun e he => ?_⟩
    rcases List.mem_cons.1 he with rfl | he
    · exact hp.1
    · exact ht e he

/-- A part of the trace that a program makes no requests for stays as it is. -/
lemma Always.filterMap_of_forall {γ : Type} {f : Event Op Resp → Option γ} {P : Op → Prop}
    {p : Prog Op Resp α} (hp : Forall P p) (hf : ∀ e : Event Op Resp, P e.op → f e = none)
    (tr : List (Event Op Resp)) (w : W) :
    Always env ok (fun tr' _ _ => tr'.filterMap f = tr.filterMap f) p tr w := by
  induction p generalizing tr w with
  | ret a => exact ⟨rfl, rfl⟩
  | call o k ih =>
    refine ⟨rfl, fun c _ => (ih _ (hp.2 _) _ _).mono fun tr' _ _ h => ?_⟩
    rw [h, List.filterMap_append, List.filterMap_cons_none (hf ⟨o, (env o c w).1⟩ hp.1),
      List.filterMap_nil, List.append_nil]

/-! ### The values a program can return -/

/-- Every value the program can return, whatever the answers, is one of `Q`. -/
def Yields (Q : α → Prop) : Prog Op Resp α → Prop
  | .ret a => Q a
  | .call _ k => ∀ r, Yields Q (k r)

lemma Yields.bind {Q : α → Prop} {R : β → Prop} {p : Prog Op Resp α} {f : α → Prog Op Resp β}
    (hp : Yields Q p) (hf : ∀ a, Q a → Yields R (f a)) : Yields R (p >>= f) := by
  induction p with
  | ret a => exact hf a hp
  | call o k ih => exact fun r => ih r (hp r)

lemma yields_true (p : Prog Op Resp α) : Yields (fun _ => True) p := by
  induction p with
  | ret a => trivial
  | call o k ih => exact ih

/-- What a run returns is among the values the program can return. -/
lemma Yields.run_result {Q : α → Prop} {p : Prog Op Resp α} (hp : Yields Q p) {cs : List C} {w : W}
    {a : α} (h : (run env p cs w).result = some a) : Q a := by
  induction p generalizing cs w with
  | ret b =>
    cases cs with
    | nil => exact absurd h nofun
    | cons c cs => exact Option.some.inj h ▸ hp
  | call o k ih =>
    cases cs with
    | nil => exact absurd h nofun
    | cons c cs => exact ih _ (hp _) h

/-! ### Runs in which every answer is one of `S` -/

/-- `Q` is claimed of the runs in which every request is answered as `S` says. -/
def Given (S : Event Op Resp → Prop) (Q : List (Event Op Resp) → W → Option α → Prop)
    (tr : List (Event Op Resp)) (w : W) (x : Option α) : Prop :=
  (∀ e ∈ tr, S e) → Q tr w x

/-- Nothing is claimed after an answer that `S` does not allow. -/
lemma Always.given_of_not {S : Event Op Resp → Prop} (p : Prog Op Resp α)
    {tr : List (Event Op Resp)} {e : Event Op Resp} (he : e ∈ tr) (hS : ¬S e) (w : W) :
    Always env ok (Given S Q) p tr w := by
  induction p generalizing tr w with
  | ret a => exact ⟨fun h => absurd (h e he) hS, fun h => absurd (h e he) hS⟩
  | call o k ih =>
    exact ⟨fun h => absurd (h e he) hS, fun c _ => ih _ (List.mem_append_left _ he) _⟩

/-- One request: only the answers that `S` allows have to be followed. -/
lemma Always.given_call {S : Event Op Resp → Prop} {o : Op} {k : Resp o → Prog Op Resp α}
    {tr : List (Event Op Resp)} {w : W} (h₀ : Q tr w none)
    (h : ∀ c, ok c → S ⟨o, (env o c w).1⟩ →
      Always env ok (Given S Q) (k (env o c w).1) (tr ++ [⟨o, (env o c w).1⟩]) (env o c w).2) :
    Always env ok (Given S Q) (.call o k) tr w := by
  refine ⟨fun _ => h₀, fun c hc => ?_⟩
  by_cases hS : S ⟨o, (env o c w).1⟩
  · exact h c hc hS
  · exact Always.given_of_not _ (List.mem_append_right _ List.mem_cons_self) hS _

/-- The rule for a sequence. -/
lemma Always.given_bind {S : Event Op Resp → Prop} {R : List (Event Op Resp) → W → Option β → Prop}
    {p : Prog Op Resp α} {f : α → Prog Op Resp β} {tr : List (Event Op Resp)} {w : W}
    (h : Always env ok (Given S fun tr w x => R tr w none ∧
      ∀ a, x = some a → Always env ok (Given S R) (f a) tr w) p tr w) :
    Always env ok (Given S R) (p >>= f) tr w := by
  refine Always.bind (h.mono fun tr w x hx => ⟨fun hall => (hx hall).1, fun a ha => ?_⟩)
  by_cases hall : ∀ e ∈ tr, S e
  · exact (hx hall).2 a ha
  · push Not at hall
    obtain ⟨e, he, hS⟩ := hall
    exact Always.given_of_not _ he hS w

/-- Where the requests and the state make up for it, less has to be said about the answers. -/
lemma Always.given_of_forall {S S' : Event Op Resp → Prop} {P : Op → Prop} {I : W → Prop}
    {p : Prog Op Resp α} (hp : Forall P p)
    (hI : ∀ o c w, P o → ok c → I w → I (env o c w).2)
    (hS : ∀ o c w, P o → ok c → I w → S' ⟨o, (env o c w).1⟩ → S ⟨o, (env o c w).1⟩)
    {tr : List (Event Op Resp)} {w : W} (hw : I w) (htr : (∀ e ∈ tr, S' e) → ∀ e ∈ tr, S e)
    (h : Always env ok (Given S Q) p tr w) : Always env ok (Given S' Q) p tr w := by
  induction p generalizing tr w with
  | ret a => exact ⟨fun hall => h.1 (htr hall), fun hall => h.2 (htr hall)⟩
  | call o k ih =>
    refine ⟨fun hall => h.1 (htr hall), fun c hc => ih _ (hp.2 _) (hI o c w hp.1 hc hw) ?_ (h.2 c hc)⟩
    intro hall e he
    rcases List.mem_append.1 he with he | he
    · exact htr (fun e he => hall e (List.mem_append_left _ he)) e he
    · obtain rfl := List.mem_singleton.1 he
      exact hS o c w hp.1 hc hw (hall _ (List.mem_append_right _ List.mem_cons_self))

/-! ### The run without choices -/

/-- The run in an environment that leaves no choice: the requests made, the world at the
end, the value returned. -/
def eval (act : (o : Op) → W → Resp o × W) :
    Prog Op Resp α → W → List (Event Op Resp) × W × α
  | .ret a, w => ([], w, a)
  | .call o k, w =>
      let out := eval act (k (act o w).1) (act o w).2
      (⟨o, (act o w).1⟩ :: out.1, out.2)

variable {act : (o : Op) → W → Resp o × W}

@[simp] lemma eval_ret (a : α) (w : W) :
    eval act (.ret a : Prog Op Resp α) w = ([], w, a) := rfl

@[simp] lemma eval_call (o : Op) (k : Resp o → Prog Op Resp α) (w : W) :
    eval act (.call o k) w = (⟨o, (act o w).1⟩ :: (eval act (k (act o w).1) (act o w).2).1,
      (eval act (k (act o w).1) (act o w).2).2) := rfl

lemma eval_bind (p : Prog Op Resp α) (f : α → Prog Op Resp β) (w : W) :
    eval act (p >>= f) w =
      ((eval act p w).1 ++ (eval act (f (eval act p w).2.2) (eval act p w).2.1).1,
        (eval act (f (eval act p w).2.2) (eval act p w).2.1).2) := by
  induction p generalizing w with
  | ret a => simp
  | call o k ih => simp [ih]

lemma eval_tryBind_ok {ε : Type} {p : ExceptT ε (Prog Op Resp) α}
    {f : α → ExceptT ε (Prog Op Resp) β} {w w' : W} {tr : List (Event Op Resp)} {a : α}
    (h : eval act p.run w = (tr, w', .ok a)) :
    eval act (p >>= f).run w = (tr ++ (eval act (f a).run w').1, (eval act (f a).run w').2) := by
  rw [ExceptT.run_bind, eval_bind, h]

lemma eval_tryBind_error {ε : Type} {p : ExceptT ε (Prog Op Resp) α}
    {f : α → ExceptT ε (Prog Op Resp) β} {w w' : W} {tr : List (Event Op Resp)} {e : ε}
    (h : eval act p.run w = (tr, w', .error e)) :
    eval act (p >>= f).run w = (tr, w', .error e) := by
  rw [ExceptT.run_bind, eval_bind, h]
  exact congrArg (·, _) (List.append_nil tr)

/-- A run that is not dropped and in which every choice is `c₀` is the run without
choices. -/
theorem run_eq_eval {c₀ : C} (henv : ∀ o w, env o c₀ w = act o w) (p : Prog Op Resp α)
    (n : ℕ) (w : W) {a : α} (h : (run env p (List.replicate n c₀) w).result = some a) :
    eval act p w = ((run env p (List.replicate n c₀) w).trace,
      (run env p (List.replicate n c₀) w).world, a) := by
  induction p generalizing n w with
  | ret b =>
    cases n with
    | zero => simp [run] at h
    | succ n =>
      simp only [List.replicate_succ, run, Option.some.injEq] at h
      simp [List.replicate_succ, run, h]
  | call o k ih =>
    cases n with
    | zero => simp [run] at h
    | succ n =>
      simp only [List.replicate_succ, run, henv] at h ⊢
      rw [eval_call, ih _ _ _ h]

/-- The run without choices is one of the runs. -/
theorem exists_run_eq_eval {c₀ : C} (henv : ∀ o w, env o c₀ w = act o w)
    (p : Prog Op Resp α) (w : W) :
    ∃ n, run env p (List.replicate n c₀) w =
      ⟨(eval act p w).1, (eval act p w).2.1, some (eval act p w).2.2⟩ := by
  induction p generalizing w with
  | ret a => exact ⟨1, rfl⟩
  | call o k ih =>
    obtain ⟨n, hn⟩ := ih (act o w).1 (act o w).2
    refine ⟨n + 1, ?_⟩
    simp only [List.replicate_succ, run, henv, hn, eval_call]

/-- What holds of all runs holds of the run without choices. -/
theorem eval_of_always {c₀ : C} (henv : ∀ o w, env o c₀ w = act o w) (hc₀ : ok c₀)
    {p : Prog Op Resp α} {w : W} (h : Always env ok Q p [] w) :
    Q (eval act p w).1 (eval act p w).2.1 (some (eval act p w).2.2) := by
  obtain ⟨n, hn⟩ := exists_run_eq_eval henv p w
  have := run_of_always h (List.replicate n c₀) fun c hc => List.eq_of_mem_replicate hc ▸ hc₀
  rwa [hn] at this

/-! ### Linking -/

/-- Implement requests by programs. -/
def link (impl : (o : Op) → Prog Op Resp (Resp o)) : Prog Op Resp α → Prog Op Resp α
  | .ret a => .ret a
  | .call o k => impl o >>= fun r => link impl (k r)

variable {impl : (o : Op) → Prog Op Resp (Resp o)}

@[simp] lemma link_ret (a : α) : link impl (.ret a : Prog Op Resp α) = .ret a := rfl

@[simp] lemma link_call (o : Op) (k : Resp o → Prog Op Resp α) :
    link impl (.call o k) = impl o >>= fun r => link impl (k r) := rfl

@[simp] lemma link_bind (p : Prog Op Resp α) (f : α → Prog Op Resp β) :
    link impl (p >>= f) = link impl p >>= fun a => link impl (f a) := by
  induction p with
  | ret a => rfl
  | call o k ih =>
    simp only [call_bind, link_call, bind_assoc]
    congr 1
    funext r
    exact ih r

/-- The requests of a linked program. -/
lemma Forall.link {P Q : Op → Prop} {p : Prog Op Resp α} (hp : Forall P p)
    (himpl : ∀ o, P o → Forall Q (impl o)) : Forall Q (link impl p) := by
  induction p with
  | ret a => trivial
  | call o k ih => exact (himpl o hp.1).bind fun r => ih r (hp.2 r)

/-- A linked program returns what the program can return. -/
lemma Yields.link {Q : α → Prop} {p : Prog Op Resp α} (hp : Yields Q p) :
    Yields Q (link impl p) := by
  induction p with
  | ret a => exact hp
  | call o k ih => exact (yields_true (impl o)).bind fun r _ => ih r (hp r)

/-- A program whose requests are implemented by themselves. -/
lemma link_eq_self {p : Prog Op Resp α} (hp : Forall (fun o => impl o = perform o) p) :
    link impl p = p := by
  induction p with
  | ret a => rfl
  | call o k ih =>
    rw [link_call, hp.1, perform_bind]
    congr 1
    funext r
    exact ih r (hp.2 r)

lemma link_attempt_bind {ε : Type} (o : Op) (f : Resp o → Except ε α)
    (k : α → ExceptT ε (Prog Op Resp) β) :
    link impl (attempt o f >>= k).run = impl o >>= fun r => match f r with
      | .ok a => link impl (k a).run
      | .error e => .ret (.error e) := by
  rw [run_attempt_bind, link_call]
  congr 1
  funext r
  cases f r <;> rfl

lemma link_tryBind {ε : Type} (p : ExceptT ε (Prog Op Resp) α)
    (k : α → ExceptT ε (Prog Op Resp) β) :
    link impl (p >>= k).run = link impl p.run >>= fun r => match r with
      | .ok a => link impl (k a).run
      | .error e => .ret (.error e) := by
  rw [ExceptT.run_bind, link_bind]
  congr 1
  funext r
  cases r <;> rfl

/-- Requests that come to the same as the programs that implement them may be exchanged for
them, if only the world and the value returned matter. -/
theorem eval_link (himpl : ∀ o w, (eval act (impl o) w).2 = ((act o w).2, (act o w).1))
    (p : Prog Op Resp α) (w : W) : (eval act (link impl p) w).2 = (eval act p w).2 := by
  induction p generalizing w with
  | ret a => rfl
  | call o k ih =>
    rw [link_call, eval_bind, himpl]
    exact ih _ _

end Prog

end RspacefsCsi.Lib
