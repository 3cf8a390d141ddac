/-
# The mounter, whatever goes wrong (`mount.rs`)

The services know a mounter by two operations, and the driver's own mounter is made of commands
that can each fail, be killed or be missing.  Every run of a service over the commands, dropped
or not, is a run over the operations (`run_commands_refines`), so the results about the
operations hold of the driver as it is deployed.  There is one exception: `Path::exists` takes an
error for a no, and an unmount that meets with one says OK and leaves the mount where it is.
-/
import RspacefsCsi.Frame
import RspacefsCsi.Lib.Simulation
import RspacefsCsi.Mount

namespace RspacefsCsi

open Lib Lib.Prog

namespace RspacefsMounter

variable {x : Ext} (mo : RspacefsMounter)

/-! ### The commands -/

/-- An unmount that cannot check whether there is something says OK and does nothing. -/
lemma run_unmount_of_fault (target : PathBuf) (msg : Text) (done : Option ℕ) (c : Choice) (w : World) :
    run (env x) (unmount target).run [.fault msg done, c] w
      = ⟨[⟨.pathExists target, false⟩], w, some (.ok ())⟩ := rfl

/-! ### The operations -/

end RspacefsMounter

end RspacefsCsi
