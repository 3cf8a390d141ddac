/-
# The registry client (`registry.rs`, `OciClient`)

`resolve`, `pullLayers` and `pushRevision` as programs over file-system calls and HTTP
requests.  A download is written chunk by chunk at the offset of its own handle and hashed
as it comes in; it is renamed into the cache once its digest has been checked.
-/
import RspacefsCsi.Host

namespace RspacefsCsi

open Lib Lib.Prog

/-- The client: the scheme of its URLs. -/
structure OciClient where
  scheme : Text

namespace OciClient

variable (sha256 : Bytes → Bytes) (cl : OciClient)

/-- `scheme://registry/v2/repository`. -/
def baseUrl (registry repository : Text) : Text :=
  cl.scheme ++ "://".toList ++ registry ++ "/v2/".toList ++ repository

/-- The URL of a manifest. -/
def manifestUrl (r : Reference) : Text :=
  cl.baseUrl r.registry r.repository ++ "/manifests/".toList ++ r.reference

/-- The URL of a blob. -/
def blobUrl (r : Reference) (digest : Text) : Text :=
  cl.baseUrl r.registry r.repository ++ "/blobs/".toList ++ digest

/-- The URL that starts an upload. -/
def uploadsUrl (registry repository : Text) : Text :=
  cl.baseUrl registry repository ++ "/blobs/uploads/".toList

/-- The URL of an upload, from its location and the digest. -/
def resolveLocation (registry location digest : Text) : Text :=
  let base :=
    if "http://".toList.isPrefixOf location || "https://".toList.isPrefixOf location then location
    else cl.scheme ++ "://".toList ++ registry ++ location
  let sep := if base.contains '?' then '&' else '?'
  base ++ sep :: ("digest=".toList ++ digest)

/-- An HTTP answer of which only the status matters. -/
def checkStatus (url : Text) : Except Text ℕ → Except RegistryError Unit
  | .error e => .error (.http e)
  | .ok code => if isSuccess code then .ok () else .error (.status url code)

/-- An HTTP answer with something besides the status, which counts if the status is one of
success. -/
def checkReply {α : Type} (url : Text) : Except Text (ℕ × α) → Except RegistryError α
  | .error e => .error (.http e)
  | .ok (code, a) => if isSuccess code then .ok a else .error (.status url code)

/-- An I/O error as an error of the registry. -/
def checkIo {α : Type} : Except IoError α → Except RegistryError α := Except.mapError .io

/-- Fetch the manifest of a reference. -/
def fetchManifest (r : Reference) : Handler RegistryError Bytes :=
  attempt (.getManifest (cl.manifestUrl r) r) (checkReply (cl.manifestUrl r))

/-- The layers of a seed, from the top down. -/
def resolve (seed : Text) : Handler RegistryError (List LayerRef) := do
  let r ← require (Reference.parse seed)
  let body ← cl.fetchManifest r
  require (parseLayers r body)

/-! ### Pulling -/

/-- The name of a layer in the cache. -/
def blobName (digest : Text) : Text := Text.replace ':' '-' digest ++ ".blob".toList

/-- The file a download is written to. -/
def partialPath (out : PathBuf) : PathBuf := out.withExtension "blob.partial".toList

/-- Write the chunks of a stream through a handle, after the bytes `acc`, and return
everything that was streamed. -/
def writeChunks (ino : ℕ) : Bytes → List (Except Text Bytes) → Handler RegistryError Bytes
  | acc, [] => return acc
  | _, .error e :: _ => throw (.http e)
  | acc, .ok chunk :: rest => do
      attempt (.fileWrite ino acc.length chunk) checkIo
      writeChunks ino (acc ++ chunk) rest

/-- Stream a blob to a file and check its digest. -/
def pullBlobTo (r : Reference) (digest : Text) (out : PathBuf) : Handler RegistryError Unit := do
  let stream ← attempt (.getBlob (cl.blobUrl r digest) r digest) (checkReply (cl.blobUrl r digest))
  let file ← attempt (.fileCreate out) checkIo
  let body ← writeChunks file [] stream
  attempt (.fileFlush file) checkIo
  let got := digestOf sha256 body
  if Text.eqIgnoreAsciiCase digest got then
    return ()
  else do
    let _ ← request (.removeFile out)
    throw (.digestMismatch r.repository digest got)

/-- Pull one layer, unless the cache has it. -/
def pullLayer (r : Reference) (dir : PathBuf) (layer : LayerRef) :
    Handler RegistryError PathBuf := do
  let out := dir.join (blobName layer.digest)
  let there : Except IoError Bool ← request (Op.tryExists out)
  match there with
  | .ok true => return out
  | _ => do
      pullBlobTo sha256 cl r layer.digest (partialPath out)
      attempt (.renameFile (partialPath out) out) checkIo
      return out

/-- Pull layers one after another. -/
def pullEach (r : Reference) (dir : PathBuf) : List LayerRef → Handler RegistryError (List PathBuf)
  | [] => return []
  | layer :: rest => do
      let path ← pullLayer sha256 cl r dir layer
      let paths ← pullEach r dir rest
      return path :: paths

/-- Pull every layer of a seed into a directory. -/
def pullLayers (seed : Text) (dir : PathBuf) : Handler RegistryError (List PathBuf) := do
  let r ← require (Reference.parse seed)
  let layers ← cl.resolve seed
  attempt (.createDirAll dir) checkIo
  pullEach sha256 cl r dir layers

/-! ### Pushing -/

/-- Whether the registry has a blob. -/
def blobExists (registry repository digest : Text) : Handler RegistryError Bool :=
  attempt (.headBlob (cl.blobUrl ⟨registry, repository, digest⟩ digest) registry repository digest)
    fun
    | .error e => .error (.http e)
    | .ok code => .ok (isSuccess code)

/-- The location of an upload. -/
def uploadLocation (url repository : Text) : Except Text (ℕ × Option Text) → Except RegistryError Text
  | .error e => .error (.http e)
  | .ok (code, location) =>
      if code ≠ 202 then .error (.status url code)
      else match location with
        | some l => .ok l
        | none => .error (.badResponse repository (.text "upload POST had no Location".toList))

/-- Upload a blob, unless the registry has it. -/
def pushBlob (registry repository digest : Text) (bytes : Bytes) :
    Handler RegistryError Unit := do
  if ← cl.blobExists registry repository digest then
    return ()
  else do
    let start := cl.uploadsUrl registry repository
    let location ← attempt (.postUpload start registry repository) (uploadLocation start repository)
    let putUrl := cl.resolveLocation registry location digest
    attempt (.putBlob putUrl registry repository digest bytes) (checkStatus putUrl)

/-- The complaint about a staging file of the wrong size. -/
def sizeMismatch (size reported : ℕ) : Text :=
  "captured blob size ".toList ++ Nat.toDigits 10 size ++ " != reported ".toList ++
    Nat.toDigits 10 reported

/-- Push a captured upper as a new revision. -/
def pushRevision (targetRef : Text) (blobPath : PathBuf) (layerDigest : Text) (layerSize : ℕ) :
    Handler RegistryError Text := do
  let r ← require (Reference.parse targetRef)
  let layerBytes ← attempt (.readFile blobPath) checkIo
  if layerBytes.length ≠ layerSize then
    throw (.badResponse r.repository (.text (sizeMismatch layerBytes.length layerSize)))
  else do
    cl.pushBlob r.registry r.repository layerDigest layerBytes
    cl.pushBlob r.registry r.repository EMPTY_CONFIG_DIGEST EMPTY_CONFIG_BYTES
    let manifest := manifestBytes r.reference layerDigest layerSize
    let header ← attempt (.putManifest (cl.manifestUrl r) r manifest)
      (checkReply (cl.manifestUrl r))
    -- the digest the server reports counts, if it reports one
    let digest := header.getD (digestOf sha256 manifest)
    return Reference.render r.registry r.repository digest

/-- The client as an implementation of `Registry`. -/
def impl : (o : Op) → Prog Op Resp (Resp o)
  | .resolve seed => (cl.resolve seed).run
  | .pullLayers seed dir => (pullLayers sha256 cl seed dir).run
  | .pushRevision targetRef blobPath layerDigest layerSize =>
      (pushRevision sha256 cl targetRef blobPath layerDigest layerSize).run
  | o => perform o

end OciClient

end RspacefsCsi
