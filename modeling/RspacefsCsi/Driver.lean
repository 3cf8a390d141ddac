/-
# Configuration and the paths of a volume (`driver.rs`)

Every path the driver uses for a volume is made from the data directory and the volume
id by joining.  The id is not checked, so the model joins it as it is.
-/
import RspacefsCsi.Lib.Files

namespace RspacefsCsi

open Lib

/-- The part of the configuration that the services read. -/
structure Config where
  /-- Root of the per-volume directories. -/
  dataDir : PathBuf
  /-- Default `registry[/prefix]` for captured revisions. -/
  captureRegistry : Option Text
deriving DecidableEq

namespace Config

variable (cfg : Config) (volumeId : Text)

/-- The per-volume working directory. -/
def volumeDir : PathBuf := (cfg.dataDir.join "volumes".toList).join volumeId

/-- The writable upper directory. -/
def upperDir : PathBuf := (cfg.volumeDir volumeId).join "upper".toList

/-- The directory of the pulled lower blobs. -/
def lowersDir : PathBuf := (cfg.volumeDir volumeId).join "lowers".toList

/-- The control socket of the daemon. -/
def controlSocket : PathBuf := (cfg.volumeDir volumeId).join "control.sock".toList

/-- The path a capture is written to before it is pushed. -/
def captureStaging : PathBuf := (cfg.volumeDir volumeId).join "capture.tar.zst".toList

/-- The path the publish context is kept at (`NodeService::state_path`). -/
def statePath : PathBuf := (cfg.volumeDir volumeId).join "publish.json".toList

/-! ### What the paths denote -/

@[simp] lemma key_upperDir :
    (cfg.upperDir volumeId).key = (cfg.volumeDir volumeId).key ++ ["upper".toList] :=
  PathBuf.key_join_normal (by decide) _

@[simp] lemma key_lowersDir :
    (cfg.lowersDir volumeId).key = (cfg.volumeDir volumeId).key ++ ["lowers".toList] :=
  PathBuf.key_join_normal (by decide) _

@[simp] lemma key_controlSocket :
    (cfg.controlSocket volumeId).key = (cfg.volumeDir volumeId).key ++ ["control.sock".toList] :=
  PathBuf.key_join_normal (by decide) _

@[simp] lemma key_captureStaging :
    (cfg.captureStaging volumeId).key
      = (cfg.volumeDir volumeId).key ++ ["capture.tar.zst".toList] :=
  PathBuf.key_join_normal (by decide) _

@[simp] lemma key_statePath :
    (cfg.statePath volumeId).key = (cfg.volumeDir volumeId).key ++ ["publish.json".toList] :=
  PathBuf.key_join_normal (by decide) _

lemma key_parent_statePath :
    (cfg.statePath volumeId).parent.key = (cfg.volumeDir volumeId).key :=
  PathBuf.key_parent_join (by decide) _

lemma key_parent_captureStaging :
    (cfg.captureStaging volumeId).parent.key = (cfg.volumeDir volumeId).key :=
  PathBuf.key_parent_join (by decide) _

end Config

end RspacefsCsi
