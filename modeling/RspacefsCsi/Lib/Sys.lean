/-
# Programs running side by side

Any number of programs share a world.  At every point one of them makes its next request,
or a program is started or dropped, or something else changes the world.  The requests are
atomic and come in any order, so a statement about every list of moves is a statement about
every interleaving, and about every point at which each program may have been stopped.

The rule for such systems (`Sys.foldl_of_protocol`) takes a protocol: phases, and the
requests and answers that lead from one phase to the next.  That a program keeps to it
(`Prog.Conforms`) is shown for the program alone, by following it; what holds of the world
is then shown for the phases alone, and the programs are not looked at again.
-/
import RspacefsCsi.Lib.Prog
import RspacefsCsi.Lib.Run

namespace RspacefsCsi.Lib

variable {Op : Type} {Resp : Op → Type} {A C W Ph α β ε : Type}

/-! ### Systems -/

/-- A request that was made: by which program, with which answer, and the world after it. -/
structure Record (Op : Type) (Resp : Op → Type) (W : Type) where
  thread : ℕ
  event : Event Op Resp
  world : W

/-- A system of programs. -/
structure Sys (Op : Type) (Resp : Op → Type) (W α : Type) where
  world : W
  /-- What is left of each program that was started; `none` if it was dropped. -/
  threads : List (Option (Prog Op Resp α))
  /-- The requests made so far, the newest first. -/
  log : List (Record Op Resp W)

namespace Sys

/-- A system in which nothing has been started. -/
def init (w : W) : Sys Op Resp W α := ⟨w, [], []⟩

/-- What happens in a system. -/
inductive Move (A C W : Type)
  /-- A program is started. -/
  | start (a : A)
  /-- A program makes its next request. -/
  | step (t : ℕ) (c : C)
  /-- A program is dropped. -/
  | drop (t : ℕ)
  /-- Something else changes the world. -/
  | other (f : W → W)

/-- The system after a move. -/
def next (env : (o : Op) → C → W → Resp o × W) (prog : A → Prog Op Resp α)
    (s : Sys Op Resp W α) : Move A C W → Sys Op Resp W α
  | .start a => { s with threads := s.threads ++ [some (prog a)] }
  | .step t c =>
      match s.threads[t]? with
      | some (some (.call o k)) =>
          let r := env o c s.world
          ⟨r.2, s.threads.set t (some (k r.1)), ⟨t, ⟨o, r.1⟩, r.2⟩ :: s.log⟩
      | _ => s
  | .drop t => { s with threads := s.threads.set t none }
  | .other f => { s with world := f s.world }

/-- The program `t` has requests to make. -/
def Running (s : Sys Op Resp W α) (t : ℕ) : Prop := ∃ o k, s.threads[t]? = some (some (.call o k))

instance (s : Sys Op Resp W α) (t : ℕ) : Decidable (s.Running t) :=
  match h : s.threads[t]? with
  | some (some (.call o k)) => isTrue ⟨o, k, h⟩
  | some (some (.ret _)) => isFalse fun ⟨_, _, h'⟩ => by rw [h] at h'; exact absurd h' nofun
  | some none => isFalse fun ⟨_, _, h'⟩ => by rw [h] at h'; exact absurd h' nofun
  | none => isFalse fun ⟨_, _, h'⟩ => by rw [h] at h'; exact absurd h' nofun

lemma Running.lt {s : Sys Op Resp W α} {t : ℕ} (h : s.Running t) : t < s.threads.length := by
  obtain ⟨o, k, ht⟩ := h
  exact (List.getElem?_eq_some_iff.1 ht).1

section Running

variable {env : (o : Op) → C → W → Resp o × W} {prog : A → Prog Op Resp α} {s : Sys Op Resp W α}

end Running

lemma next_of_not_running {env : (o : Op) → C → W → Resp o × W} {prog : A → Prog Op Resp α}
    {s : Sys Op Resp W α} {t : ℕ} (h : ¬s.Running t) (c : C) : s.next env prog (.step t c) = s := by
  simp only [next]
  split
  · rename_i o k ht
    exact absurd ⟨o, k, ht⟩ h
  · rfl

/-- What the program `t` has returned. -/
def result (s : Sys Op Resp W α) (t : ℕ) : Option α :=
  match s.threads[t]? with
  | some (some (.ret a)) => some a
  | _ => none

/-- Whether any program has requests to make. -/
def Quiet (s : Sys Op Resp W α) : Bool :=
  s.threads.all fun
    | some (.call _ _) => false
    | _ => true

lemma not_running_of_quiet {s : Sys Op Resp W α} (h : s.Quiet = true) (t : ℕ) : ¬s.Running t := by
  rintro ⟨o, k, ht⟩
  rw [Quiet, List.all_eq_true] at h
  exact Bool.false_ne_true (h _ (List.mem_of_getElem? ht))

end Sys

/-! ### Protocols -/

/-- The phases of a program, and the requests and answers that lead from one to the next. -/
structure Protocol (Op : Type) (Resp : Op → Type) (Ph : Type) where
  /-- The phase a program begins in. -/
  init : Ph
  /-- What can be answered to a request. -/
  answers : (o : Op) → Resp o → Prop
  /-- The phases before and after a request. -/
  next : Ph → (o : Op) → Resp o → Ph → Prop

namespace Prog

/-- The program keeps to the protocol from a phase on, and ends in `Q`. -/
def Conforms (P : Protocol Op Resp Ph) (Q : Ph → α → Prop) : Ph → Prog Op Resp α → Prop
  | ph, .ret a => Q ph a
  | ph, .call o k => ∀ r, P.answers o r → ∃ ph', P.next ph o r ph' ∧ Conforms P Q ph' (k r)

variable {P : Protocol Op Resp Ph}

lemma Conforms.mono {Q Q' : Ph → α → Prop} {p : Prog Op Resp α} {ph : Ph}
    (h : Conforms P Q ph p) (hQ : ∀ ph a, Q ph a → Q' ph a) : Conforms P Q' ph p := by
  induction p generalizing ph with
  | ret a => exact hQ _ _ h
  | call o k ih =>
    intro r hr
    obtain ⟨ph', hn, hk⟩ := h r hr
    exact ⟨ph', hn, ih r hk⟩

/-- The rule for a sequence. -/
lemma Conforms.bind {Q : Ph → β → Prop} {p : Prog Op Resp α} {f : α → Prog Op Resp β} {ph : Ph}
    (h : Conforms P (fun ph a => Conforms P Q ph (f a)) ph p) : Conforms P Q ph (p >>= f) := by
  induction p generalizing ph with
  | ret a => exact h
  | call o k ih =>
    intro r hr
    obtain ⟨ph', hn, hk⟩ := h r hr
    exact ⟨ph', hn, ih r hk⟩

/-- The rule for a sequence of fallible programs. -/
lemma Conforms.tryBind {Q : Ph → Except ε β → Prop} {p : ExceptT ε (Prog Op Resp) α}
    {f : α → ExceptT ε (Prog Op Resp) β} {ph : Ph}
    (h : Conforms P (fun ph r => match r with
      | .ok a => Conforms P Q ph (f a).run
      | .error e => Q ph (.error e)) ph p.run) : Conforms P Q ph (p >>= f).run := by
  rw [ExceptT.run_bind]
  refine Conforms.bind (h.mono fun ph r hr => ?_)
  cases r with
  | ok a => exact hr
  | error e => exact hr

end Prog

/-! ### Programs of bounded length -/

namespace Prog

/-- The program makes at most `n` requests. -/
def Within : ℕ → Prog Op Resp α → Prop
  | _, .ret _ => True
  | 0, .call _ _ => False
  | n + 1, .call _ k => ∀ r, Within n (k r)

lemma Within.call {n : ℕ} {o : Op} {k : Resp o → Prog Op Resp α} (h : Within n (.call o k)) :
    ∃ m, n = m + 1 ∧ ∀ r, Within m (k r) := by
  cases n with
  | zero => exact absurd h id
  | succ m => exact ⟨m, rfl, h⟩

lemma Within.mono {m n : ℕ} {p : Prog Op Resp α} (h : Within m p) (hle : m ≤ n) : Within n p := by
  induction p generalizing m n with
  | ret a => cases n <;> trivial
  | call o k ih =>
    obtain ⟨m, rfl, hk⟩ := h.call
    obtain ⟨n, rfl⟩ : ∃ n', n = n' + 1 := ⟨n - 1, by omega⟩
    exact fun r => ih r (hk r) (by omega)

lemma Within.bind {m n : ℕ} {p : Prog Op Resp α} {f : α → Prog Op Resp β} (hp : Within m p)
    (hf : ∀ a, Within n (f a)) : Within (m + n) (p >>= f) := by
  induction p generalizing m with
  | ret a => exact (hf a).mono (Nat.le_add_left n m)
  | call o k ih =>
    obtain ⟨m, rfl, hk⟩ := hp.call
    rw [Nat.add_right_comm]
    exact fun r => ih r (hk r)

end Prog

/-! ### The rule -/

namespace Sys

open Prog

variable {env : (o : Op) → C → W → Resp o × W} {prog : A → Prog Op Resp α}
  {P : Protocol Op Resp Ph} {Q : Ph → α → Prop}

/-- Every program that has requests to make keeps to the protocol from its phase on. -/
def Phased (P : Protocol Op Resp Ph) (Q : Ph → α → Prop) (s : Sys Op Resp W α) (ph : ℕ → Ph) :
    Prop :=
  ∀ t p, s.threads[t]? = some (some p) → Conforms P Q (ph t) p

lemma Phased.start {s : Sys Op Resp W α} {ph : ℕ → Ph} (h : Phased P Q s ph) {a : A}
    (ha : Conforms P Q P.init (prog a)) :
    Phased P Q (s.next env prog (.start a)) (Function.update ph s.threads.length P.init) := by
  intro t p ht
  by_cases hlt : t < s.threads.length
  · rw [Function.update_of_ne (by omega)]
    exact h t p (by rwa [next, List.getElem?_append_left hlt] at ht)
  · have hlen := (List.getElem?_eq_some_iff.1 ht).1
    simp only [next, List.length_append, List.length_singleton] at hlen
    obtain rfl : t = s.threads.length := by omega
    simp only [next, List.getElem?_append_right (Nat.le_refl _), Nat.sub_self, List.getElem?_cons_zero,
      Option.some.injEq] at ht
    rw [Function.update_self, ← ht]
    exact ha

lemma Phased.step {s : Sys Op Resp W α} {ph : ℕ → Ph} (h : Phased P Q s ph) {t : ℕ} {c : C}
    {o : Op} {k : Resp o → Prog Op Resp α} (ht : s.threads[t]? = some (some (.call o k))) {ph' : Ph}
    (hk : Conforms P Q ph' (k (env o c s.world).1)) :
    Phased P Q (s.next env prog (.step t c)) (Function.update ph t ph') := by
  intro t' p ht'
  have hlt : t < s.threads.length := (List.getElem?_eq_some_iff.1 ht).1
  simp only [next, ht] at ht'
  by_cases heq : t' = t
  · subst heq
    rw [List.getElem?_set_self hlt, Option.some.injEq, Option.some.injEq] at ht'
    rw [Function.update_self, ← ht']
    exact hk
  · rw [List.getElem?_set_ne (Ne.symm heq)] at ht'
    rw [Function.update_of_ne heq]
    exact h t' p ht'

lemma Phased.drop {s : Sys Op Resp W α} {ph : ℕ → Ph} (h : Phased P Q s ph) (t : ℕ) :
    Phased P Q (s.next env prog (.drop t)) ph := by
  intro t' p ht'
  simp only [next] at ht'
  by_cases heq : t' = t
  · subst heq
    rw [List.getElem?_set_self'] at ht'
    cases hs : s.threads[t']? <;> simp [hs] at ht'
  · rw [List.getElem?_set_ne (Ne.symm heq)] at ht'
    exact h t' p ht'

/-- **The rule for systems.**  Let every program that is started keep to the protocol.  An
invariant of the system and of the phases of its programs that the moves of a run keep holds
after the run, for phases from which the programs keep to the protocol. -/
theorem foldl_of_phased {J : Sys Op Resp W α → (ℕ → Ph) → Prop}
    {M : Sys Op Resp W α → Move A C W → Prop}
    (hprog : ∀ s a, M s (.start a) → Conforms P Q P.init (prog a))
    (hstart : ∀ s ph a, J s ph → M s (.start a) →
      J (s.next env prog (.start a)) (Function.update ph s.threads.length P.init))
    (hans : ∀ s ph t c o, J s ph → M s (.step t c) → P.answers o (env o c s.world).1)
    (hstep : ∀ s ph t c o k ph', J s ph → Phased P Q s ph → M s (.step t c) →
      s.threads[t]? = some (some (.call o k)) → P.next (ph t) o (env o c s.world).1 ph' →
      J (s.next env prog (.step t c)) (Function.update ph t ph'))
    (hdrop : ∀ s ph t, J s ph → M s (.drop t) → J (s.next env prog (.drop t)) ph)
    (hother : ∀ s ph f, J s ph → M s (.other f) → J (s.next env prog (.other f)) ph)
    {w : W} (ph₀ : ℕ → Ph) (h₀ : J (Sys.init w) ph₀) {mvs : List (Move A C W)}
    (h : Along (next env prog) M (Sys.init w) mvs) :
    ∃ ph, J (mvs.foldl (next env prog) (Sys.init w)) ph ∧
      Phased P Q (mvs.foldl (next env prog) (Sys.init w)) ph := by
  refine (@Along.foldl _ _ (next env prog)) (I := fun s => ∃ ph, J s ph ∧ Phased P Q s ph) (P := M) ?_
    ⟨ph₀, h₀, fun t p ht => by simp [Sys.init] at ht⟩ h
  rintro s m ⟨ph, hJ, hph⟩ hm
  cases m with
  | start a => exact ⟨_, hstart s ph a hJ hm, hph.start (hprog s a hm)⟩
  | drop t => exact ⟨ph, hdrop s ph t hJ hm, hph.drop t⟩
  | other f => exact ⟨ph, hother s ph f hJ hm, hph⟩
  | step t c =>
    by_cases hrun : s.Running t
    · obtain ⟨o, k, ht⟩ := hrun
      obtain ⟨ph', hn, hk⟩ := hph t _ ht _ (hans s ph t c o hJ hm)
      exact ⟨_, hstep s ph t c o k ph' hJ hph hm ht hn, hph.step ht hk⟩
    · rw [next_of_not_running hrun c]
      exact ⟨ph, hJ, hph⟩

/-- The number of requests the program `t` has made. -/
def requests (s : Sys Op Resp W α) (t : ℕ) : ℕ := s.log.countP fun e => e.thread = t

/-- The requests of each program, together with those it can still make, are at most `n`. -/
def Budget (n : ℕ) (s : Sys Op Resp W α) : Prop :=
  ∀ t, (s.threads.length ≤ t → s.requests t = 0) ∧
    ∃ m, s.requests t + m ≤ n ∧ ∀ p, s.threads[t]? = some (some p) → Within m p

lemma Budget.start {n : ℕ} {s : Sys Op Resp W α} (h : Budget n s) {a : A}
    (ha : Within n (prog a)) : Budget n (s.next env prog (.start a)) := by
  intro t
  obtain ⟨hnew, m, hm, hp⟩ := h t
  simp only [next, List.length_append, List.length_singleton]
  refine ⟨fun hle => hnew (by omega), ?_⟩
  rcases Nat.lt_trichotomy t s.threads.length with hlt | rfl | hgt
  · exact ⟨m, hm, fun p ht => hp p (by rwa [List.getElem?_append_left hlt] at ht)⟩
  · have hzero : requests ⟨s.world, s.threads ++ [some (prog a)], s.log⟩ s.threads.length = 0 :=
      hnew (Nat.le_refl _)
    refine ⟨n, by rw [hzero]; omega, fun p ht => ?_⟩
    rw [List.getElem?_append_right (Nat.le_refl _), Nat.sub_self, List.getElem?_cons_zero,
      Option.some.injEq, Option.some.injEq] at ht
    exact ht ▸ ha
  · refine ⟨m, hm, fun p ht => ?_⟩
    rw [List.getElem?_eq_none (by simp; omega)] at ht
    exact absurd ht not_returned

lemma Budget.step {n : ℕ} {s : Sys Op Resp W α} (h : Budget n s) (t : ℕ) (c : C) :
    Budget n (s.next env prog (.step t c)) := by
  by_cases hrun : s.Running t
  · obtain ⟨o, k, ht⟩ := hrun
    have hlt : t < s.threads.length := (List.getElem?_eq_some_iff.1 ht).1
    intro t'
    obtain ⟨hnew, m, hm, hp⟩ := h t'
    by_cases heq : t' = t
    · subst heq
      have hcount : (s.next env prog (.step t' c)).requests t' = s.requests t' + 1 := by
        simp only [next, ht, requests]
        exact List.countP_cons_of_pos (by simp)
      obtain ⟨m, rfl, hk⟩ := (hp _ ht).call
      refine ⟨fun hle => ?_, m, by rw [hcount]; omega, fun p ht' => ?_⟩
      · simp only [next, ht, List.length_set] at hle
        omega
      · simp only [next, ht, List.getElem?_set_self hlt, Option.some.injEq] at ht'
        exact ht' ▸ hk _
    · have hcount : (s.next env prog (.step t c)).requests t' = s.requests t' := by
        simp only [next, ht, requests]
        exact List.countP_cons_of_neg (by simpa using Ne.symm heq)
      rw [hcount]
      refine ⟨fun hle => hnew ?_, m, hm, fun p ht' => hp p ?_⟩
      · simpa only [next, ht, List.length_set] using hle
      · simpa only [next, ht, List.getElem?_set_ne (Ne.symm heq)] using ht'
  · rwa [next_of_not_running hrun]

lemma Budget.drop {n : ℕ} {s : Sys Op Resp W α} (h : Budget n s) (t : ℕ) :
    Budget n (s.next env prog (.drop t)) := by
  intro t'
  obtain ⟨hnew, m, hm, hp⟩ := h t'
  refine ⟨fun hle => hnew (by simpa only [next, List.length_set] using hle), m, hm, fun p ht => ?_⟩
  simp only [next] at ht
  by_cases heq : t' = t
  · subst heq
    rw [List.getElem?_set_self'] at ht
    cases hs : s.threads[t']? <;> simp [hs] at ht
  · exact hp p (by rwa [List.getElem?_set_ne (Ne.symm heq)] at ht)

/-- No program makes more requests than it can make alone. -/
theorem requests_le {n : ℕ} (hprog : ∀ a, Within n (prog a)) (w : W) (mvs : List (Move A C W))
    (t : ℕ) : (mvs.foldl (next env prog) (Sys.init w)).requests t ≤ n := by
  have hinv : Budget n (mvs.foldl (next env prog) (Sys.init w)) := by
    refine Along.foldl (P := fun _ _ => True) (fun s m hs _ => ?_) (fun t => ?_)
      (Along.of_forall (fun _ _ _ => trivial) _)
    · cases m with
      | start a => exact hs.start (hprog a)
      | step t c => exact hs.step t c
      | drop t => exact hs.drop t
      | other f => exact hs
    · refine ⟨fun _ => rfl, n, by simp [requests, Sys.init], fun p ht => ?_⟩
      simp [Sys.init] at ht
  obtain ⟨-, m, hm, -⟩ := hinv t
  omega

end Sys

end RspacefsCsi.Lib
