/-
# The node service (`node.rs`)

`NodePublishVolume` pulls the seeds, makes the directories, mounts, and writes the publish
context next to the upper.  `NodeUnpublishVolume` gets no context: it reads that file to
know whether the upper has to be captured before the unmount.
-/
import RspacefsCsi.Freeze

namespace RspacefsCsi

open Lib Lib.Prog

/-! ### Statuses -/

/-- The code of an error status. -/
inductive Code
  | invalidArgument
  | failedPrecondition
  | internal
deriving DecidableEq

/-- The message of an error status: a text of the driver, or one with an error in it. -/
inductive Message
  | text (t : Text)
  | param (e : ParamError)
  /-- `seed {seed}: {e}` -/
  | seed (seed : Text) (e : RegistryError)
  /-- `create upper: {e}` -/
  | createUpper (e : IoError)
  /-- `create target: {e}` -/
  | createTarget (e : IoError)
  /-- `rspacefs-mount: {e}` -/
  | mount (e : MountError)
  /-- `unmount: {e}` -/
  | unmount (e : MountError)
  /-- `capture-on-delete: {e}` -/
  | captureOnDelete (e : FreezeError)
  /-- `snapshot: {e}` -/
  | snapshot (e : FreezeError)
  /-- `volume {id} is not mounted on this host; take the snapshot from the node hosting it` -/
  | notMounted (volumeId : Text)
deriving DecidableEq

/-- An error status. -/
structure Status where
  code : Code
  message : Message
deriving DecidableEq

/-- A request without a field it needs. -/
def Status.required (name : String) : Status :=
  ⟨.invalidArgument, .text (name.toList ++ " is required".toList)⟩

/-! ### Helpers -/

/-- A read-only publish forces `ro`; otherwise the parameter counts, else a volume without
seeds is `empty` and one with seeds is `rwo`. -/
def effectiveAccessMode (params : PvcParams) (readonly : Bool) : AccessMode :=
  if readonly then .ro
  else params.accessMode.getD (if params.seeds = [] then .empty else .rwo)

/-- Whether a character is kept in a tag. -/
def isTagChar (c : Char) : Bool := c.isAlphanum || c == '_' || c == '.' || c == '-'

/-- Reduce a name to a tag. -/
def sanitizeTag (s : Text) : Text :=
  let out := (s.map fun c => if isTagChar c then c else '-').take 128
  if out = [] then "rev".toList else out

/-- The logical name of a volume. -/
def volumeName (ctx : StrMap) (volumeId : Text) : Text := (ctx.lookup VOLUME_NAME).getD volumeId

namespace NodeService

variable (cfg : Config)

/-- Write the publish context. -/
def persistState (volumeId : Text) (ctx : StrMap) : Handler IoError Unit := do
  attempt (.createDirAll (cfg.statePath volumeId).parent) id
  attempt (.writeFile (cfg.statePath volumeId) (contextToVec ctx)) id

/-- Read the publish context; every error means that there is none. -/
def loadState (volumeId : Text) : Prog Op Resp (Option StrMap) :=
  .call (.readFile (cfg.statePath volumeId)) fun
    | .ok b => .ret (contextOfSlice b)
    | .error _ => .ret none

/-! ### NodePublishVolume -/

/-- A publish request. -/
structure PublishRequest where
  volumeId : Text
  targetPath : Text
  volumeContext : StrMap
  readonly : Bool

/-- Pull the layers of the seeds, one seed after the other. -/
def pullSeeds (dir : PathBuf) : List Text → Handler Status (List PathBuf)
  | [] => return []
  | seed :: rest => do
      let blobs ← attempt (.pullLayers seed dir)
        (Except.mapError fun e => ⟨.failedPrecondition, .seed seed e⟩)
      let more ← pullSeeds dir rest
      return blobs ++ more

/-- The mount of a publish request. -/
def mountSpec (req : PublishRequest) (params : PvcParams) (lowerBlobs : List PathBuf) :
    MountSpec where
  name := volumeName req.volumeContext req.volumeId
  target := ⟨req.targetPath⟩
  upper := cfg.upperDir req.volumeId
  controlSocket := cfg.controlSocket req.volumeId
  accessMode := effectiveAccessMode params req.readonly
  lifecycle := params.lifecycle.getD .persistent
  owner := params.owner
  lowerBlobs := lowerBlobs

/-- Make the directories, mount, and write the publish context. -/
def attach (req : PublishRequest) (params : PvcParams) (lowerBlobs : List PathBuf) :
    Handler Status Unit := do
  attempt (.createDirAll (cfg.upperDir req.volumeId))
    (Except.mapError fun e => ⟨.internal, .createUpper e⟩)
  attempt (.createDirAll ⟨req.targetPath⟩)
    (Except.mapError fun e => ⟨.internal, .createTarget e⟩)
  attempt (.mount (mountSpec cfg req params lowerBlobs))
    (Except.mapError fun e => ⟨.internal, .mount e⟩)
  -- an error here is logged and dropped
  ignoring (persistState cfg req.volumeId req.volumeContext)
  return ()

/-- `NodePublishVolume`. -/
def nodePublishVolume (req : PublishRequest) : Handler Status Unit :=
  if req.volumeId = [] then throw (.required "volume_id")
  else if req.targetPath = [] then throw (.required "target_path")
  else do
    let params ← require ((PvcParams.parse req.volumeContext).mapError fun e =>
      ⟨.invalidArgument, .param e⟩)
    let lowerBlobs ← pullSeeds (cfg.lowersDir req.volumeId) params.seeds
    attach cfg req params lowerBlobs

/-! ### NodeUnpublishVolume -/

/-- An unpublish request. -/
structure UnpublishRequest where
  volumeId : Text
  targetPath : Text

/-- The reference a capture at unpublish is pushed to. -/
def captureTarget (volumeId : Text) (ctx : StrMap) (params : PvcParams) : Option Text :=
  params.resolvedCaptureRepo.map fun repo =>
    repo ++ ':' :: sanitizeTag (volumeName ctx volumeId)

/-- Freeze the upper before the unmount. -/
def freezeOnUnpublish (volumeId : Text) (ctx : StrMap) (params : PvcParams) :
    Handler Status Unit :=
  match captureTarget volumeId ctx params with
  | none => throw ⟨.failedPrecondition, .text
      "captureOnDelete set but no captureRepo and no seed to derive one from".toList⟩
  | some targetRef => do
      let _ ← within (fun e => ⟨.internal, .captureOnDelete e⟩)
        (freezeAndPush (cfg.controlSocket volumeId) (cfg.captureStaging volumeId) targetRef)
      return ()

/-- Freeze the upper, if the publish context asks for it. -/
def captureIfAsked (volumeId : Text) (state : Option StrMap) : Handler Status Unit :=
  match state with
  | none => return ()
  | some ctx =>
      match PvcParams.parse ctx with
      | .error _ => return ()
      | .ok params =>
          if params.captureOnDelete then freezeOnUnpublish cfg volumeId ctx params
          else return ()

/-- Unmount, and remove what the publish has left, as far as possible. -/
def detach (req : UnpublishRequest) : Handler Status Unit := do
  attempt (.unmount ⟨req.targetPath⟩) (Except.mapError fun e => ⟨.internal, .unmount e⟩)
  let _ ← request (.removeDir ⟨req.targetPath⟩)
  let _ ← request (.removeFile (cfg.statePath req.volumeId))
  return ()

/-- `NodeUnpublishVolume`. -/
def nodeUnpublishVolume (req : UnpublishRequest) : Handler Status Unit :=
  if req.volumeId = [] then throw (.required "volume_id")
  else if req.targetPath = [] then throw (.required "target_path")
  else do
    let state ← ExceptT.lift (loadState cfg req.volumeId)
    captureIfAsked cfg req.volumeId state
    detach cfg req

end NodeService

end RspacefsCsi
