/-
# The host and the registry

The environment of the driver: the file system of the node, the mounts and their upper
directories, and the contents of the registries.  `env` answers each request from the
state of the world and a `Choice`, which says what goes wrong (an I/O error, a lost
response, an HTTP status, a download that breaks off) and what is left open otherwise (how
a body is cut into chunks, what another implementation of a trait answers).  With the
choice `go` everything does its work.

What is outside of the driver is only what its documentation promises.  The hash function
and the formats of layers are a parameter (`Ext`).  `capture-layer` writes the upper of the
mount that listens on the socket.  A registry keeps blobs under their digest and refuses
others, keeps a manifest under its reference and its digest, deletes nothing, and accepts
only OCI names.  An unmount takes away the newest mount at its target, and fails where
nothing is mounted.
-/
import RspacefsCsi.Backend
import RspacefsCsi.Driver
import RspacefsCsi.Lib.Overlay

namespace RspacefsCsi

open Lib

/-! ### Layers -/

/-- The content of a layer: finitely many entries. -/
abbrev Tree : Type := AList (fun _ : Key => Entry Bytes)

/-- The layer a tree stands for. -/
def Tree.layer (u : Tree) : Layer Key Bytes := fun p => u.lookup p

/-- The functions computed outside of the driver. -/
structure Ext where
  /-- The hash function. -/
  sha256 : Bytes → Bytes
  /-- The blob `capture-layer` writes for an upper. -/
  pack : Tree → Bytes
  /-- The layer `rspacefs-mount` reads from a blob. -/
  unpack : Bytes → Tree

/-- The hash function has no collisions, and a captured blob holds exactly the upper. -/
structure Ext.Lawful (x : Ext) : Prop where
  sha256_injective : Function.Injective x.sha256
  unpack_pack : ∀ u, (x.unpack (x.pack u)).layer = Tree.layer u

/-! ### The world -/

/-- A running `rspacefs-mount`. -/
structure Mount where
  /-- Tells it from every other one. -/
  id : ℕ
  spec : MountSpec
  /-- The layers below the upper, read when it was started. -/
  lowers : List Tree

/-- A repository of a registry: the host and the name. -/
abbrev Repo : Type := Text × Text

/-- The contents of the registries. -/
structure Store where
  /-- The blobs of a repository, by digest. -/
  blobs : Repo → Text → Option Bytes
  /-- The manifests of a repository, by tag and by digest. -/
  manifests : Repo → Text → Option Bytes

/-- The state of the node and of the registries. -/
structure World where
  fs : Fs
  /-- The running mounts, the newest first. -/
  mounts : List Mount
  /-- The next mount. -/
  nextMount : ℕ
  /-- The contents of the upper directories. -/
  uppers : Key → Tree
  reg : Store

/-- A node on which nothing has happened, with empty registries. -/
def World.blank : World := ⟨Fs.empty, [], 0, fun _ => ∅, fun _ _ => none, fun _ _ => none⟩

/-- What is not determined by the state of the world. -/
inductive Choice
  /-- The request does its work. -/
  | go
  /-- The request fails, after `done` units of its work if it got that far. -/
  | fault (msg : Text) (done : Option ℕ)
  /-- The peer answers with this status, or the command exits with it. -/
  | status (code : ℕ)
  /-- The request does its work and the response lacks its optional header. -/
  | bare
  /-- The body comes in chunks of these sizes, and breaks off after them if `cut` says so. -/
  | chunks (sizes : List ℕ) (cut : Option Text)
  /-- The registry serves this body instead of its own. -/
  | forged (body : Bytes)
  /-- The registry serves this stream instead of its own. -/
  | stream (items : List (Except Text Bytes))
  /-- Another implementation of `Registry` answers with these paths. -/
  | pulled (paths : List PathBuf)

/-- The registry serves what it holds. -/
def Choice.Honest : Choice → Prop
  | .forged _ | .stream _ => False
  | .status code => ¬(200 ≤ code ∧ code < 300)
  | _ => True

/-! ### Registries -/

/-- The lower case letters and digits of a repository name. -/
def isAlnum (c : Char) : Bool := c.isDigit || ('a' ≤ c && c ≤ 'z')

/-- A path component of an OCI repository name: letters and digits, with single separators
`.`, `_`, `__` or a run of `-` between them. -/
def legalComponent (s : Text) : Bool :=
  let runs := s.splitBy fun a b => isAlnum a == isAlnum b
  runs.all (fun r => r.all isAlnum || r == ['.'] || r == ['_'] || r == ['_', '_'] || r.all (· == '-'))
    && (s.head?.any isAlnum) && (s.getLast?.any isAlnum)

/-- The host has no comma and no whitespace, and the repository is an OCI name. -/
def legalRepo (repo : Repo) : Bool :=
  repo.1.all (fun c => c != ',' && !Text.isWhitespace c) &&
    (repo.2.splitOn '/').all legalComponent

/-- An OCI tag. -/
def legalTag (t : Text) : Bool :=
  (t.head?.any fun c => c.isAlphanum || c == '_') &&
    t.all (fun c => c.isAlphanum || c == '_' || c == '.' || c == '-') && t.length ≤ 128

/-- A status of success. -/
def isSuccess (code : ℕ) : Bool := 200 ≤ code && code < 300

/-- Cut a body into chunks. -/
def cutChunks : List ℕ → Bytes → List (Except Text Bytes)
  | [], [] => []
  | [], b => [.ok b]
  | n :: ns, b => .ok (b.take n) :: cutChunks ns (b.drop n)

/-- The chunks of a body that breaks off. -/
def cutShort : List ℕ → Bytes → Text → List (Except Text Bytes)
  | [], _, msg => [.error msg]
  | n :: ns, b, msg => .ok (b.take n) :: cutShort ns (b.drop n) msg

namespace Store

/-- Keep a blob under its digest. -/
def putBlob (s : Store) (repo : Repo) (digest : Text) (b : Bytes) : Store :=
  { s with
    blobs := Function.update s.blobs repo (Function.update (s.blobs repo) digest (some b)) }

/-- Keep a manifest under its reference and under its digest. -/
def putManifest (s : Store) (repo : Repo) (reference digest : Text) (b : Bytes) : Store :=
  { s with
    manifests := Function.update s.manifests repo
      (Function.update (Function.update (s.manifests repo) digest (some b)) reference (some b)) }

end Store

namespace World

variable (x : Ext) (w : World)

/-- Whether there is something at a path. -/
def ExistsAt (k : Key) : Prop :=
  w.fs.IsDir k ∨ w.fs.lookup k ≠ none ∨ ∃ m ∈ w.mounts, m.spec.controlSocket.key = k

instance (k : Key) : Decidable (w.ExistsAt k) := by unfold ExistsAt; infer_instance

/-- Whether something is mounted at a path. -/
def MountedAt (k : Key) : Prop := ∃ m ∈ w.mounts, m.spec.target.key = k

instance (k : Key) : Decidable (w.MountedAt k) := by unfold MountedAt; infer_instance

/-- The newest mount that listens on a socket. -/
def daemon (k : Key) : Option Mount := w.mounts.find? fun m => m.spec.controlSocket.key = k

/-- The merged view a mount shows. -/
def view (m : Mount) : Key → Option Bytes :=
  Layer.view ((w.uppers m.spec.upper.key).layer :: m.lowers.map Tree.layer)

/-- Start a mount. -/
def startMount (spec : MountSpec) : World :=
  { w with
    mounts := ⟨w.nextMount, spec,
      spec.lowerBlobs.map fun p => x.unpack ((w.fs.read p.key).getD [])⟩ :: w.mounts
    nextMount := w.nextMount + 1 }

/-- Take the newest mount at a path away. -/
def endMount (k : Key) : World :=
  { w with mounts := w.mounts.eraseP fun m => m.spec.target.key = k }

/-- Replace the file system. -/
def withFs (fs : Fs) : World := { w with fs }

/-- Replace the contents of the upper directories. -/
def withUppers (uppers : Key → Tree) : World := { w with uppers }

/-- Replace the contents of the registries. -/
def withReg (reg : Store) : World := { w with reg }

@[simp] lemma withFs_fs (fs : Fs) : (w.withFs fs).fs = fs := rfl
@[simp] lemma withFs_mounts (fs : Fs) : (w.withFs fs).mounts = w.mounts := rfl
@[simp] lemma withFs_nextMount (fs : Fs) : (w.withFs fs).nextMount = w.nextMount := rfl
@[simp] lemma withFs_uppers (fs : Fs) : (w.withFs fs).uppers = w.uppers := rfl
@[simp] lemma withFs_reg (fs : Fs) : (w.withFs fs).reg = w.reg := rfl
@[simp] lemma withReg_fs (reg : Store) : (w.withReg reg).fs = w.fs := rfl
@[simp] lemma withReg_mounts (reg : Store) : (w.withReg reg).mounts = w.mounts := rfl
@[simp] lemma withReg_nextMount (reg : Store) : (w.withReg reg).nextMount = w.nextMount := rfl
@[simp] lemma withReg_uppers (reg : Store) : (w.withReg reg).uppers = w.uppers := rfl
@[simp] lemma withReg_reg (reg : Store) : (w.withReg reg).reg = reg := rfl
@[simp] lemma startMount_fs (spec : MountSpec) : (w.startMount x spec).fs = w.fs := rfl
@[simp] lemma startMount_uppers (spec : MountSpec) :
    (w.startMount x spec).uppers = w.uppers := rfl
@[simp] lemma startMount_reg (spec : MountSpec) : (w.startMount x spec).reg = w.reg := rfl
@[simp] lemma endMount_fs (k : Key) : (w.endMount k).fs = w.fs := rfl
@[simp] lemma endMount_nextMount (k : Key) : (w.endMount k).nextMount = w.nextMount := rfl
@[simp] lemma endMount_uppers (k : Key) : (w.endMount k).uppers = w.uppers := rfl
@[simp] lemma endMount_reg (k : Key) : (w.endMount k).reg = w.reg := rfl

/-! ### File-system calls -/

/-- A call that replaces the file system, or fails. -/
def answerFs (msg : Text) : Option Fs → Except IoError Unit × World
  | some fs => (.ok (), w.withFs fs)
  | none => (.error ⟨msg⟩, w)

/-- A call that fails after some of its work. -/
def failFs (msg : Text) (fs : Option Fs) : Except IoError Unit × World :=
  (.error ⟨msg⟩, w.withFs (fs.getD w.fs))

/-- Create a directory and its parents. -/
def createDirAll (p : PathBuf) : Choice → Except IoError Unit × World
  | .fault msg done => w.failFs msg (done.bind fun n => w.fs.mkdirs (p.key.take n))
  | _ => w.answerFs "Not a directory".toList (w.fs.mkdirs p.key)

/-- Write a whole file. -/
def writeFile (p : PathBuf) (b : Bytes) : Choice → Except IoError Unit × World
  | .fault msg done => w.failFs msg (done.bind fun n => w.fs.write p.key (b.take n))
  | _ => w.answerFs "No such file or directory".toList (w.fs.write p.key b)

/-- Read a whole file. -/
def readFile (p : PathBuf) : Choice → Except IoError Bytes
  | .fault msg _ => .error ⟨msg⟩
  | _ =>
      match w.fs.read p.key with
      | some b => .ok b
      | none => .error ⟨"No such file or directory".toList⟩

/-- Remove a file. -/
def removeFile (p : PathBuf) : Choice → Except IoError Unit × World
  | .fault msg _ => w.failFs msg none
  | _ => w.answerFs "No such file or directory".toList (w.fs.unlink p.key)

/-- Remove an empty directory that nothing is mounted at. -/
def removeDir (p : PathBuf) : Choice → Except IoError Unit × World
  | .fault msg _ => w.failFs msg none
  | _ =>
      w.answerFs "Device or resource busy".toList
        (if w.MountedAt p.key then none else w.fs.rmdir p.key)

/-- Rename a file. -/
def renameFile (p q : PathBuf) : Choice → Except IoError Unit × World
  | .fault msg _ => w.failFs msg none
  | _ => w.answerFs "No such file or directory".toList (w.fs.rename p.key q.key)

/-- Ask whether there is something at a path. -/
def tryExists (p : PathBuf) : Choice → Except IoError Bool
  | .fault msg _ => .error ⟨msg⟩
  | _ => .ok (decide (w.ExistsAt p.key))

/-- The same, with an error taken for a no. -/
def pathExists (p : PathBuf) : Choice → Bool
  | .fault _ _ => false
  | _ => decide (w.ExistsAt p.key)

/-- Open a file for writing. -/
def fileCreate (p : PathBuf) : Choice → Except IoError ℕ × World
  | .fault msg _ => (.error ⟨msg⟩, w)
  | _ =>
      match w.fs.create p.key with
      | some (i, fs) => (.ok i, w.withFs fs)
      | none => (.error ⟨"No such file or directory".toList⟩, w)

/-- Write through a handle. -/
def fileWrite (ino off : ℕ) (b : Bytes) : Choice → Except IoError Unit × World
  | .fault msg done => w.failFs msg (done.map fun n => w.fs.writeAt ino off (b.take n))
  | _ => (.ok (), w.withFs (w.fs.writeAt ino off b))

/-- Flush a handle. -/
def fileFlush : Choice → Except IoError Unit
  | .fault msg _ => .error ⟨msg⟩
  | _ => .ok ()

/-! ### HTTP requests -/

/-- Serve a manifest. -/
def getManifest (r : Reference) : Choice → Except Text (ℕ × Bytes)
  | .fault msg _ => .error msg
  | .status code => .ok (code, [])
  | .forged body => .ok (200, body)
  | _ =>
      match w.reg.manifests (r.registry, r.repository) r.reference with
      | some b => .ok (200, b)
      | none => .ok (404, [])

/-- Serve a blob. -/
def getBlob (r : Reference) (digest : Text) : Choice → Except Text (ℕ × List (Except Text Bytes))
  | .fault msg _ => .error msg
  | .status code => .ok (code, [])
  | .stream items => .ok (200, items)
  | .chunks sizes cut =>
      match w.reg.blobs (r.registry, r.repository) digest, cut with
      | some b, none => .ok (200, cutChunks sizes b)
      | some b, some msg => .ok (200, cutShort sizes b msg)
      | none, _ => .ok (404, [])
  | _ =>
      match w.reg.blobs (r.registry, r.repository) digest with
      | some b => .ok (200, cutChunks [] b)
      | none => .ok (404, [])

/-- Say whether there is a blob. -/
def headBlob (registry repository digest : Text) : Choice → Except Text ℕ
  | .fault msg _ => .error msg
  | .status code => .ok code
  | _ => .ok (if (w.reg.blobs (registry, repository) digest).isSome then 200 else 404)

/-- Start an upload. -/
def postUpload (registry repository : Text) : Choice → Except Text (ℕ × Option Text)
  | .fault msg _ => .error msg
  | .status code => .ok (code, none)
  | .bare => .ok (202, none)
  | _ =>
      if legalRepo (registry, repository) then
        .ok (202, some ("/v2/".toList ++ repository ++ "/blobs/uploads/0".toList))
      else .ok (404, none)

/-- Whether a registry takes a blob. -/
def accepts (repo : Repo) (digest : Text) (b : Bytes) : Prop :=
  legalRepo repo = true ∧ digest = digestOf x.sha256 b

instance (repo : Repo) (digest : Text) (b : Bytes) : Decidable (accepts x repo digest b) := by
  unfold accepts; infer_instance

/-- Take a blob.  When a response is lost the blob may have been taken. -/
def putBlob (registry repository digest : Text) (b : Bytes) : Choice → Except Text ℕ × World
  | .fault msg done =>
      (.error msg, if accepts x (registry, repository) digest b ∧ done ≠ none then
        w.withReg (w.reg.putBlob (registry, repository) digest b) else w)
  | .status code => (.ok code, w)
  | _ =>
      if accepts x (registry, repository) digest b then
        (.ok 201, w.withReg (w.reg.putBlob (registry, repository) digest b))
      else (.ok 400, w)

/-- Whether a registry takes a manifest. -/
def acceptsManifest (r : Reference) (b : Bytes) : Prop :=
  legalRepo (r.registry, r.repository) = true ∧
    (legalTag r.reference = true ∨ r.reference = digestOf x.sha256 b)

instance (r : Reference) (b : Bytes) : Decidable (acceptsManifest x r b) := by
  unfold acceptsManifest; infer_instance

/-- The world after a registry has taken a manifest. -/
def tookManifest (r : Reference) (b : Bytes) : World :=
  w.withReg (w.reg.putManifest (r.registry, r.repository) r.reference (digestOf x.sha256 b) b)

/-- Take a manifest.  The header with its digest is optional. -/
def putManifest (r : Reference) (b : Bytes) : Choice → Except Text (ℕ × Option Text) × World
  | .fault msg done =>
      (.error msg, if acceptsManifest x r b ∧ done ≠ none then w.tookManifest x r b else w)
  | .status code => (.ok (code, none), w)
  | .bare =>
      if acceptsManifest x r b then (.ok (201, none), w.tookManifest x r b)
      else (.ok (400, none), w)
  | _ =>
      if acceptsManifest x r b then
        (.ok (201, some (digestOf x.sha256 b)), w.tookManifest x r b)
      else (.ok (400, none), w)

/-! ### Mounts, captures and the traits -/

/-- The arguments of a command that unmounts end with the target. -/
def execTarget (args : List Text) : Key := (⟨(args.getLast?).getD []⟩ : PathBuf).key

/-- Run a command that unmounts. -/
def exec (args : List Text) : Choice → Except IoError Output × World
  | .fault msg _ => (.error ⟨msg⟩, w)
  | .status code => (.ok ⟨code + 1, []⟩, w)
  | _ =>
      if w.MountedAt (execTarget args) then (.ok ⟨0, []⟩, w.endMount (execTarget args))
      else (.ok ⟨1, "not mounted".toList⟩, w)

/-- Run `rspacefs-mount`. -/
def execMount (spec : MountSpec) : Choice → Except IoError Output × World
  | .fault msg _ => (.error ⟨msg⟩, w)
  | .status code => (.ok ⟨code + 1, []⟩, w)
  | _ =>
      if w.fs.IsDir spec.target.key then (.ok ⟨0, []⟩, w.startMount x spec)
      else (.ok ⟨1, "not a directory".toList⟩, w)

/-- Mount. -/
def mount (spec : MountSpec) : Choice → Except MountError Unit × World
  | .fault msg _ => (.error (.io ⟨msg⟩), w)
  | .status code => (.error (.mountFailed (code + 1) []), w)
  | _ =>
      if w.fs.IsDir spec.target.key then (.ok (), w.startMount x spec)
      else (.error (.mountFailed 1 "not a directory".toList), w)

/-- Unmount.  Where there is nothing, nothing has to be done. -/
def unmount (target : PathBuf) : Choice → Except MountError Unit × World
  | .fault _ _ | .status _ => (.error (.unmountFailed target.text), w)
  | _ =>
      if ¬w.ExistsAt target.key then (.ok (), w)
      else if w.MountedAt target.key then (.ok (), w.endMount target.key)
      else (.error (.unmountFailed target.text), w)

/-- Write the upper of the mount that listens on a socket.  When the answer is lost some of
it, or all of it, may have been written. -/
def capture (socket out : PathBuf) : Choice → Except ControlError CaptureData × World
  | .fault msg done =>
      match w.daemon socket.key with
      | none => (.error (.io ⟨msg⟩), w)
      | some m =>
          let b := x.pack (w.uppers m.spec.upper.key)
          (.error (.io ⟨msg⟩),
            w.withFs ((done.bind fun n => w.fs.write out.key (b.take n)).getD w.fs))
  | _ =>
      match w.daemon socket.key with
      | none => (.error (.connect socket.text ⟨"Connection refused".toList⟩), w)
      | some m =>
          let b := x.pack (w.uppers m.spec.upper.key)
          match w.fs.write out.key b with
          | some fs =>
              if b.length < 2 ^ 64 then (.ok ⟨digestOf x.sha256 b, b.length⟩, w.withFs fs)
              else (.error (.remote "File too large".toList), w)
          | none => (.error (.remote "No such file or directory".toList), w)

/-- Resolve a seed, for an implementation of `Registry` that has every seed. -/
def resolve (seed : Text) : Choice → Except RegistryError (List LayerRef)
  | .fault msg _ => .error (.http msg)
  | _ => (Reference.parse seed).map fun _ => []

/-- Pull a seed, for an implementation of `Registry` that answers what it likes. -/
def pullLayers (seed : Text) : Choice → Except RegistryError (List PathBuf)
  | .fault msg _ => .error (.http msg)
  | .pulled paths => .ok paths
  | _ => (Reference.parse seed).map fun _ => []

/-- Push a revision, for an implementation of `Registry` that takes every reference. -/
def pushRevision (targetRef layerDigest : Text) : Choice → Except RegistryError Text
  | .fault msg _ => .error (.http msg)
  | _ => (Reference.parse targetRef).map fun r => Reference.render r.registry r.repository layerDigest

end World

/-! ### The environment -/

/-- Answer a request. -/
def env (x : Ext) (o : Op) (c : Choice) (w : World) : Resp o × World :=
  match o with
  | .createDirAll p => w.createDirAll p c
  | .writeFile p b => w.writeFile p b c
  | .readFile p => (w.readFile p c, w)
  | .removeFile p => w.removeFile p c
  | .removeDir p => w.removeDir p c
  | .renameFile p q => w.renameFile p q c
  | .tryExists p => (w.tryExists p c, w)
  | .pathExists p => (w.pathExists p c, w)
  | .fileCreate p => w.fileCreate p c
  | .fileWrite ino off b => w.fileWrite ino off b c
  | .fileFlush _ => (World.fileFlush c, w)
  | .getManifest _ r => (w.getManifest r c, w)
  | .getBlob _ r digest => (w.getBlob r digest c, w)
  | .headBlob _ registry repository digest => (w.headBlob registry repository digest c, w)
  | .postUpload _ registry repository => (World.postUpload registry repository c, w)
  | .putBlob _ registry repository digest b => w.putBlob x registry repository digest b c
  | .putManifest _ r b => w.putManifest x r b c
  | .exec _ args => w.exec args c
  | .execMount _ _ spec => w.execMount x spec c
  | .capture socket out => w.capture x socket out c
  | .mount spec => w.mount x spec c
  | .unmount target => w.unmount target c
  | .resolve seed => (World.resolve seed c, w)
  | .pullLayers seed _ => (World.pullLayers seed c, w)
  | .pushRevision targetRef _ layerDigest _ => (World.pushRevision targetRef layerDigest c, w)

/-- The environment in which everything does its work. -/
def act (x : Ext) (o : Op) (w : World) : Resp o × World := env x o .go w

end RspacefsCsi
