/-
# Freezing a volume (`freeze.rs`)

Capture a live upper into a staging file and push it as a new revision.
-/
import RspacefsCsi.Host

namespace RspacefsCsi

open Lib Lib.Prog

/-- An error of a freeze. -/
inductive FreezeError
  | capture (e : ControlError)
  | push (e : RegistryError)
deriving DecidableEq

/-- Capture the upper behind a control socket and push it. -/
def freezeAndPush (controlSocket staging : PathBuf) (targetRef : Text) :
    Handler FreezeError Text := do
  let _ ← request (.createDirAll staging.parent)
  let cap ← attempt (.capture controlSocket staging) (Except.mapError .capture)
  let pushed ← attempt (.pushRevision targetRef staging cap.digest cap.bytesCompressed)
    (Except.mapError .push)
  let _ ← request (.removeFile staging)
  return pushed

end RspacefsCsi
