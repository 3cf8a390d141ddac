/-
# The mounter (`mount.rs`, `RspacefsMounter`)

`rspacefs-mount` to mount; `fusermount3`, `fusermount` and `umount`, in this order, to
unmount.  In the environment in which everything does its work the commands come to the
same as the operations of the trait (`eval_unmount`).
-/
import RspacefsCsi.Host

namespace RspacefsCsi

open Lib Lib.Prog

/-- The mounter: the path of `rspacefs-mount`. -/
structure RspacefsMounter where
  mountBin : PathBuf

namespace RspacefsMounter

variable (mo : RspacefsMounter)

/-- Mount. -/
def mount (spec : MountSpec) : Handler MountError Unit :=
  attempt (.execMount mo.mountBin spec.args spec) fun
    | .error e => .error (.io e)
    | .ok out =>
        if out.status = 0 then .ok ()
        else .error (.mountFailed out.status (Text.trim out.stderr))

/-- Run a command and say whether it succeeded. -/
def runOk (bin : Text) (args : List Text) : Handler MountError Bool :=
  attempt (.exec bin args) fun
    | .ok out => .ok (out.status == 0)
    | .error _ => .ok false

/-- Unmount. -/
def unmount (target : PathBuf) : Handler MountError Unit := do
  let there : Bool ← request (Op.pathExists target)
  if there then
    if ← runOk "fusermount3".toList ["-u".toList, target.text] then return ()
    else if ← runOk "fusermount".toList ["-u".toList, target.text] then return ()
    else if ← runOk "umount".toList [target.text] then return ()
    else throw (.unmountFailed target.text)
  else
    -- nothing mounted, or already cleaned up
    return ()

/-- The mounter as an implementation of `Mounter`. -/
def impl : (o : Op) → Prog Op Resp (Resp o)
  | .mount spec => (mo.mount spec).run
  | .unmount target => (unmount target).run
  | o => perform o

/-! ### The commands and the operations of the trait -/

variable {x : Ext}

lemma eval_mount (spec : MountSpec) (w : World) :
    (eval (act x) (mo.mount spec).run w).2
      = ((act x (.mount spec) w).2, (act x (.mount spec) w).1) := by
  have htrim : Text.trim "not a directory".toList = "not a directory".toList := by decide
  by_cases h : w.fs.IsDir spec.target.key
  · simp [mount, act, env, World.execMount, World.mount, h]
  · simp only [mount, act, env, World.execMount, World.mount, if_neg h, run_attempt, eval_call,
      eval_ret, htrim]
    rfl

lemma act_exec (bin : Text) (args : List Text) (w : World) :
    (w.MountedAt (World.execTarget args) ∧
      act x (.exec bin args) w = (.ok ⟨0, []⟩, w.endMount (World.execTarget args))) ∨
    (¬w.MountedAt (World.execTarget args) ∧
      ∃ out, out.status = 1 ∧ act x (.exec bin args) w = (.ok out, w)) := by
  by_cases h : w.MountedAt (World.execTarget args)
  · exact .inl ⟨h, by simp only [act, env, World.exec, if_pos h]⟩
  · exact .inr ⟨h, _, rfl, by simp only [act, env, World.exec, if_neg h]; rfl⟩

/-- A command in front of the others: it settles the unmount if something is mounted. -/
lemma eval_runOk_bind (bin : Text) (args : List Text) (k : Bool → Handler MountError Unit)
    (w : World) :
    (eval (act x) (runOk bin args >>= k).run w).2 =
      if w.MountedAt (World.execTarget args) then
        (eval (act x) (k true).run (w.endMount (World.execTarget args))).2
      else (eval (act x) (k false).run w).2 := by
  rcases act_exec (x := x) bin args w with ⟨h, ha⟩ | ⟨h, out, hout, ha⟩
  · simp only [runOk, run_attempt_bind, eval_call, ha, if_pos h]
    rfl
  · simp only [runOk, run_attempt_bind, eval_call, ha, if_neg h, hout]
    rfl

/-- The commands that unmount come to the same as the operation. -/
lemma eval_unmount (target : PathBuf) (w : World) :
    (eval (act x) (unmount target).run w).2
      = ((act x (.unmount target) w).2, (act x (.unmount target) w).1) := by
  have hu : World.execTarget ["-u".toList, target.text] = target.key := rfl
  have hu' : World.execTarget [target.text] = target.key := rfl
  by_cases hex : w.ExistsAt target.key
  · have hthere : act x (.pathExists target) w = (true, w) := by
      simp [act, env, World.pathExists, hex]
    simp only [unmount, run_request_bind, eval_call, hthere, if_true, eval_runOk_bind, hu]
    by_cases h : w.MountedAt target.key
    · have hact : act x (.unmount target) w = (.ok (), w.endMount target.key) := by
        simp [act, env, World.unmount, hex, h]
      rw [if_pos h, hact]
      rfl
    · have hact : act x (.unmount target) w = (.error (.unmountFailed target.text), w) := by
        simp [act, env, World.unmount, hex, h]
      simp only [if_neg h, hact, Bool.false_eq_true, if_false, eval_runOk_bind, hu, hu']
      rfl
  · have hthere : act x (.pathExists target) w = (false, w) := by
      simp [act, env, World.pathExists, hex]
    have hact : act x (.unmount target) w = (.ok (), w) := by
      simp [act, env, World.unmount, hex]
    simp only [unmount, run_request_bind, eval_call, hthere, hact]
    rfl

/-- A service over the mounter does what it does over the operations of the trait. -/
theorem eval_link_impl {α : Type} (p : Prog Op Resp α) (w : World) :
    (eval (act x) (link mo.impl p) w).2 = (eval (act x) p w).2 := by
  refine eval_link (fun o w => ?_) p w
  cases o with
  | mount spec => exact eval_mount mo spec w
  | unmount target => exact eval_unmount target w
  | _ => rfl

end RspacefsMounter

end RspacefsCsi
