/-
# What the services ask for (`mount.rs`, `control.rs`, `registry.rs`)

The requests a handler awaits: file-system calls, HTTP requests to a registry, commands,
the control socket of a mount daemon, and the operations of the three traits `Mounter`,
`Registry` and `Capturer` behind which the services keep them.  The operations of a trait
are requests of their own, so that a service can be studied over any implementation; the
driver's own implementations are programs over the other requests.
-/
import RspacefsCsi.Lib.Prog
import RspacefsCsi.Wire

namespace RspacefsCsi

open Lib

/-! ### Mounts -/

/-- Everything needed to bring up one mount. -/
structure MountSpec where
  /-- `--name`. -/
  name : Text
  /-- The path the merged view is mounted at. -/
  target : PathBuf
  /-- `--upper`. -/
  upper : PathBuf
  /-- `--control-socket`. -/
  controlSocket : PathBuf
  accessMode : AccessMode
  lifecycle : Lifecycle
  /-- `--owner`. -/
  owner : Option Text
  /-- `--lower-blob`, from the top down. -/
  lowerBlobs : List PathBuf
deriving DecidableEq

namespace MountSpec

/-- The arguments of `rspacefs-mount`. -/
def args (s : MountSpec) : List Text :=
  ["--pvc".toList, "--name".toList, s.name] ++
  ["--access-mode".toList, s.accessMode.asFlag] ++
  ["--lifecycle".toList, s.lifecycle.asFlag] ++
  s.lowerBlobs.flatMap (fun blob => ["--lower-blob".toList, blob.text]) ++
  ["--upper".toList, s.upper.text] ++
  (match s.owner with
    | some owner => ["--owner".toList, owner]
    | none => []) ++
  ["--control-socket".toList, s.controlSocket.text] ++
  [s.target.text]

end MountSpec

/-- An error of a mount operation. -/
inductive MountError
  | io (e : IoError)
  | mountFailed (status : ℕ) (stderr : Text)
  | unmountFailed (target : Text)
deriving DecidableEq

/-- What a command leaves: its exit status and what it wrote to the standard error. -/
structure Output where
  status : ℕ
  stderr : Text
deriving DecidableEq

/-! ### Captures -/

/-- An error of the control socket. -/
inductive ControlError
  | connect (socket : Text) (e : IoError)
  | io (e : IoError)
  | noResponse
  | protocol (msg : Text)
  | remote (msg : Text)
deriving DecidableEq

/-- What `capture-layer` reports. -/
structure CaptureData where
  /-- The digest of the captured blob. -/
  digest : Text
  bytesCompressed : ℕ
deriving DecidableEq

/-! ### The requests -/

/-- A request to the environment. -/
inductive Op
  /-- `tokio::fs::create_dir_all`. -/
  | createDirAll (p : PathBuf)
  /-- `tokio::fs::write`. -/
  | writeFile (p : PathBuf) (b : Bytes)
  /-- `tokio::fs::read`. -/
  | readFile (p : PathBuf)
  /-- `tokio::fs::remove_file`. -/
  | removeFile (p : PathBuf)
  /-- `tokio::fs::remove_dir`. -/
  | removeDir (p : PathBuf)
  /-- `tokio::fs::rename`. -/
  | renameFile (p q : PathBuf)
  /-- `tokio::fs::try_exists`. -/
  | tryExists (p : PathBuf)
  /-- `Path::exists`. -/
  | pathExists (p : PathBuf)
  /-- `File::create`. -/
  | fileCreate (p : PathBuf)
  /-- `write_all` through a handle, at the offset the handle has reached. -/
  | fileWrite (ino off : ℕ) (b : Bytes)
  /-- `flush` of a handle. -/
  | fileFlush (ino : ℕ)
  /-- GET of a manifest. -/
  | getManifest (url : Text) (r : Reference)
  /-- GET of a blob. -/
  | getBlob (url : Text) (r : Reference) (digest : Text)
  /-- HEAD of a blob. -/
  | headBlob (url registry repository digest : Text)
  /-- POST that starts an upload. -/
  | postUpload (url registry repository : Text)
  /-- PUT of a blob. -/
  | putBlob (url registry repository digest : Text) (b : Bytes)
  /-- PUT of a manifest. -/
  | putManifest (url : Text) (r : Reference) (b : Bytes)
  /-- A command that is not `rspacefs-mount`. -/
  | exec (bin : Text) (args : List Text)
  /-- `rspacefs-mount`, with the specification its arguments spell out. -/
  | execMount (bin : PathBuf) (args : List Text) (spec : MountSpec)
  /-- `Capturer::capture`. -/
  | capture (socket out : PathBuf)
  /-- `Mounter::mount`. -/
  | mount (spec : MountSpec)
  /-- `Mounter::unmount`. -/
  | unmount (target : PathBuf)
  /-- `Registry::resolve`. -/
  | resolve (seed : Text)
  /-- `Registry::pull_layers`. -/
  | pullLayers (seed : Text) (dir : PathBuf)
  /-- `Registry::push_revision`. -/
  | pushRevision (targetRef : Text) (blobPath : PathBuf) (layerDigest : Text) (layerSize : ℕ)
deriving DecidableEq

/-- The answer to a request.  An HTTP request fails, or is answered with a status and what
is read of the response. -/
abbrev Resp : Op → Type
  | .createDirAll _ | .writeFile _ _ | .removeFile _ | .removeDir _ | .renameFile _ _
  | .fileWrite _ _ _ | .fileFlush _ => Except IoError Unit
  | .readFile _ => Except IoError Bytes
  | .tryExists _ => Except IoError Bool
  | .pathExists _ => Bool
  | .fileCreate _ => Except IoError ℕ
  | .getManifest _ _ => Except Text (ℕ × Bytes)
  | .getBlob _ _ _ => Except Text (ℕ × List (Except Text Bytes))
  | .headBlob _ _ _ _ | .putBlob _ _ _ _ _ => Except Text ℕ
  | .postUpload _ _ _ | .putManifest _ _ _ => Except Text (ℕ × Option Text)
  | .exec _ _ | .execMount _ _ _ => Except IoError Output
  | .capture _ _ => Except ControlError CaptureData
  | .mount _ | .unmount _ => Except MountError Unit
  | .resolve _ => Except RegistryError (List LayerRef)
  | .pullLayers _ _ => Except RegistryError (List PathBuf)
  | .pushRevision _ _ _ _ => Except RegistryError Text

/-- A fallible program of the driver. -/
abbrev Handler (ε α : Type) : Type := ExceptT ε (Prog Op Resp) α

/-- A request of the driver with its answer. -/
abbrev Ev : Type := Event Op Resp

/-- The request was answered with an error. -/
def Failed : Ev → Bool
  | ⟨.createDirAll _, .error _⟩ | ⟨.writeFile _ _, .error _⟩ | ⟨.readFile _, .error _⟩
  | ⟨.removeFile _, .error _⟩ | ⟨.removeDir _, .error _⟩ | ⟨.renameFile _ _, .error _⟩
  | ⟨.tryExists _, .error _⟩ | ⟨.fileCreate _, .error _⟩ | ⟨.fileWrite _ _ _, .error _⟩
  | ⟨.fileFlush _, .error _⟩ | ⟨.getManifest _ _, .error _⟩ | ⟨.getBlob _ _ _, .error _⟩
  | ⟨.headBlob _ _ _ _, .error _⟩ | ⟨.postUpload _ _ _, .error _⟩
  | ⟨.putBlob _ _ _ _ _, .error _⟩ | ⟨.putManifest _ _ _, .error _⟩ | ⟨.exec _ _, .error _⟩
  | ⟨.execMount _ _ _, .error _⟩ | ⟨.capture _ _, .error _⟩ | ⟨.mount _, .error _⟩
  | ⟨.unmount _, .error _⟩ | ⟨.resolve _, .error _⟩ | ⟨.pullLayers _ _, .error _⟩
  | ⟨.pushRevision _ _ _ _, .error _⟩ => true
  | _ => false

end RspacefsCsi
