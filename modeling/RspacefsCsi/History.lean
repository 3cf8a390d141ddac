/-
# A publish after other calls

What earlier calls have left behind does not show in a publish: their downloads were
checked before they got the names of layers, the rest of a call stays away from these names,
and a file that is there has the content that its digest says.  So the mount of a publish
depends on what the registry serves for its seeds alone (`publish_independent`).  This needs
the directory of the layers for itself: a target must not be where a layer would be.  For
targets outside of the data directory this is so unless the id of the volume leads out of it
(`publish_dependent`).
-/
import RspacefsCsi.Calls
import RspacefsCsi.Untrusted

namespace RspacefsCsi

open Lib Lib.Prog OciClient

variable {x : Ext} {cl : OciClient} {cfg : Config} {dir : PathBuf} {ok : Choice → Prop}

/-! ### Requests that stay away from the layers -/

lemma forall_perform {P : Op → Prop} {o : Op} (h : P o) : Forall P (perform o : Prog Op Resp (Resp o)) :=
  ⟨h, fun _ => trivial⟩

namespace OciClient

/-- The requests of a push. -/
def Sends : Op → Prop
  | .readFile _ | .headBlob _ _ _ _ | .postUpload _ _ _ | .putBlob _ _ _ _ _ | .putManifest _ _ _ =>
      True
  | _ => False

/-- The requests of a push to `targetRef`: only what that reference is parsed to is tagged. -/
def SendsTo (targetRef : Text) : Op → Prop
  | .readFile _ | .headBlob _ _ _ _ | .postUpload _ _ _ | .putBlob _ _ _ _ _ => True
  | .putManifest _ r _ => Reference.parse targetRef = .ok r
  | _ => False

lemma SendsTo.sends {targetRef : Text} {o : Op} (h : SendsTo targetRef o) : Sends o := by
  cases o <;> first | exact absurd h id | trivial

lemma pushBlob_forall (targetRef registry repository digest : Text) (b : Bytes) :
    Forall (SendsTo targetRef) (cl.pushBlob registry repository digest b).run := by
  simp only [pushBlob, blobExists, run_attempt_bind, forall_call]
  refine ⟨trivial, fun res => ?_⟩
  split
  · split
    · trivial
    · simp only [run_attempt_bind, run_attempt, forall_call]
      refine ⟨trivial, fun res => ?_⟩
      split
      · exact ⟨trivial, fun _ => trivial⟩
      · trivial
  · trivial

lemma pushRevision_sendsTo (targetRef : Text) (blobPath : PathBuf) (layerDigest : Text)
    (layerSize : ℕ) : Forall (SendsTo targetRef)
      (pushRevision x.sha256 cl targetRef blobPath layerDigest layerSize).run := by
  simp only [pushRevision, run_require_bind]
  split
  · rename_i r hr
    simp only [run_attempt_bind, forall_call]
    refine ⟨trivial, fun res => ?_⟩
    split
    · split
      · trivial
      · rw [ExceptT.run_bind]
        refine (pushBlob_forall _ _ _ _ _).bind fun res => ?_
        split
        · rw [ExceptT.run_bind]
          refine (pushBlob_forall _ _ _ _ _).bind fun res => ?_
          split
          · simp only [run_attempt_bind, forall_call]
            refine ⟨hr, fun res => ?_⟩
            split <;> trivial
          · trivial
        · trivial
    · trivial
  · trivial

lemma pushRevision_forall (targetRef : Text) (blobPath : PathBuf) (layerDigest : Text)
    (layerSize : ℕ) : Forall Sends
      (pushRevision x.sha256 cl targetRef blobPath layerDigest layerSize).run :=
  (pushRevision_sendsTo targetRef blobPath layerDigest layerSize).mono fun _ h => h.sends

end OciClient

/-- The requests of a pull. -/
lemma OciClient.pullLayers_forall (seed : Text) (dir : PathBuf) :
    Forall (fun o => (∃ url r, o = .getManifest url r) ∨ o = .createDirAll dir ∨ Fetches o)
      (pullLayers x.sha256 cl seed dir).run := by
  cases hr : Reference.parse seed with
  | error e =>
    simp only [pullLayers, hr, run_require_bind]
    trivial
  | ok r =>
    rw [run_pullLayers hr]
    refine ⟨.inl ⟨_, r, rfl⟩, fun res => ?_⟩
    dsimp only
    split
    · trivial
    · refine ⟨.inr (.inl rfl), fun res => ?_⟩
      dsimp only
      split
      · trivial
      · exact (pullEach_forall r dir _).mono fun o ho => .inr (.inr ho)

namespace NodeService

/-! ### Calls keep the layers verified -/

lemma aside_volumePath (cfg : Config) (volumeId n : Text) :
    Aside (cfg.lowersDir volumeId) ((cfg.volumeDir volumeId).key ++ [n]) := by
  intro name _ h
  have := congrArg List.length h
  simp at this

lemma not_prefix_volumePath {volumeId : Text} {k : Key}
    (h : k.length ≤ (cfg.volumeDir volumeId).key.length + 1) (name : Text) :
    ¬(cfg.lowersDir volumeId).key ++ [name] <+: k := by
  intro hp
  have := hp.length_le
  simp at this
  omega

/-- The volume of a call. -/
def Call.volumeId : Call → Text
  | .publish req => req.volumeId
  | .unpublish req => req.volumeId

/-- The target of a call. -/
def Call.targetPath : Call → Text
  | .publish req => req.targetPath
  | .unpublish req => req.targetPath

/-- A call over the driver's own registry client. -/
def Call.linked (x : Ext) (cl : OciClient) (cfg : Config) (c : Call) :
    Prog Op Resp (Except Status Unit) :=
  link (OciClient.impl x.sha256 cl) (c.prog cfg)

end NodeService

/-! ### Calls that are served -/

/-- The file-system steps of a pull succeed, and the registry answers for its manifests with
`answer`, and for its blobs with streams of what their digests say. -/
def Smooth (x : Ext) (answer : Reference → Except Text (ℕ × Bytes)) : Ev → Prop
  | ⟨.getManifest _ r, res⟩ => res = answer r
  | ⟨.getBlob _ _ digest, res⟩ => ∃ (code : ℕ) (chunks : List Bytes),
      res = .ok (code, chunks.map .ok) ∧ isSuccess code = true ∧
        Text.eqIgnoreAsciiCase digest (digestOf x.sha256 chunks.flatten) = true
  | ⟨.createDirAll _, res⟩ => res = .ok ()
  | ⟨.fileCreate _, res⟩ => ∃ ino, res = .ok ino
  | ⟨.fileWrite _ _ _, res⟩ => res = .ok ()
  | ⟨.fileFlush _, res⟩ => res = .ok ()
  | ⟨.renameFile _ _, res⟩ => res = .ok ()
  | _ => True

/-- The layers of a seed, from the top down, if the registry answers with `answer`. -/
def answeredLayers (answer : Reference → Except Text (ℕ × Bytes)) (seed : Text) :
    Option (List LayerRef) :=
  match Reference.parse seed with
  | .error _ => none
  | .ok r =>
      match checkReply [] (answer r) >>= parseLayers r with
      | .error _ => none
      | .ok layers => some layers

section Smooth

variable {C W : Type} {E : (o : Op) → C → W → Resp o × W} {ok : C → Prop}
  {answer : Reference → Except Text (ℕ × Bytes)}

/-- The error of a reply names the URL; otherwise the URL does not matter. -/
lemma checkReply_cases {α β : Type} (url url' : Text) (res : Except Text (ℕ × α))
    (f : α → Except RegistryError β) :
    (∃ b, checkReply url res >>= f = .ok b ∧ checkReply url' res >>= f = .ok b) ∨
      ∃ e e', checkReply url res >>= f = .error e ∧ checkReply url' res >>= f = .error e' := by
  cases res with
  | error e => exact .inr ⟨_, _, rfl, rfl⟩
  | ok p =>
    obtain ⟨code, a⟩ := p
    by_cases hc : isSuccess code = true
    · have h : ∀ url, checkReply url (.ok (code, a)) = .ok a := fun url => if_pos hc
      rw [h, h]
      cases hf : f a with
      | ok b => exact .inl ⟨b, hf, hf⟩
      | error e => exact .inr ⟨e, e, hf, hf⟩
    · have h : ∀ url, checkReply url (.ok (code, a)) = .error (.status url code) := fun url => if_neg hc
      rw [h, h]
      exact .inr ⟨_, _, rfl, rfl⟩

lemma writeChunks_smooth (ino : ℕ) (chunks : List Bytes) (acc : Bytes) (tr : List Ev) (w : W) :
    Always E ok (Given (Smooth x answer) fun _ _ res =>
      ∀ r, res = some r → r = .ok (acc ++ chunks.flatten))
      (writeChunks ino acc (chunks.map .ok)).run tr w := by
  induction chunks generalizing acc tr w with
  | nil =>
    refine ⟨fun _ => nofun, fun _ => ?_⟩
    rintro r ⟨⟩
    rw [List.flatten_nil, List.append_nil]
  | cons chunk chunks ih =>
    simp only [List.map_cons, writeChunks, run_attempt_bind]
    refine Always.given_call nofun fun c _ hres => ?_
    rw [show (E (.fileWrite ino acc.length chunk) c w).1 = .ok () from hres]
    refine (ih (acc ++ chunk) _ _).mono fun tr' w' res h hall => ?_
    rw [List.flatten_cons, ← List.append_assoc]
    exact h hall

/-- A download succeeds. -/
lemma pullBlobTo_smooth (r : Reference) (digest : Text) (out : PathBuf) (tr : List Ev) (w : W) :
    Always E ok (Given (Smooth x answer) fun _ _ res => ∀ e, res ≠ some (.error e))
      (pullBlobTo x.sha256 cl r digest out).run tr w := by
  simp only [pullBlobTo, run_attempt_bind]
  refine Always.given_call none_returned fun c _ hblob => ?_
  obtain ⟨code, chunks, hres, hcode, hdigest⟩ := hblob
  rw [hres, show checkReply _ (Except.ok (code, chunks.map Except.ok)) = .ok (chunks.map .ok)
    from if_pos hcode]
  refine Always.given_call none_returned fun c _ hcreate => ?_
  obtain ⟨ino, hino⟩ := hcreate
  rw [hino]
  simp only [checkIo, Except.mapError]
  rw [ExceptT.run_bind]
  refine Always.given_bind ((@writeChunks_smooth x _ _ _ _ answer ino chunks [] _ _).mono
    fun tr w res h hall => ⟨none_returned, fun res' hres' => ?_⟩)
  rw [h hall res' hres', List.nil_append]
  simp only [run_attempt_bind]
  refine Always.given_call none_returned fun c _ hflush => ?_
  rw [show (E (.fileFlush ino) c w).1 = .ok () from hflush]
  simp only [Except.mapError, if_pos hdigest]
  exact ⟨fun _ => none_returned, fun _ => (by rintro _ ⟨⟩)⟩

/-- A layer is pulled. -/
lemma pullLayer_smooth (r : Reference) (dir : PathBuf) (layer : LayerRef) (tr : List Ev) (w : W) :
    Always E ok (Given (Smooth x answer) fun _ _ res => ∀ e, res ≠ some (.error e))
      (pullLayer x.sha256 cl r dir layer).run tr w := by
  simp only [pullLayer, run_request_bind]
  refine Always.given_call none_returned fun c _ _ => ?_
  split
  · exact ⟨fun _ => none_returned, fun _ => (by rintro _ ⟨⟩)⟩
  rw [ExceptT.run_bind]
  refine Always.given_bind ((@pullBlobTo_smooth _ _ _ _ _ _ answer r layer.digest _ _ _).mono
    fun tr w res h hall => ⟨none_returned, fun res' hres' => ?_⟩)
  cases res' with
  | error e => exact absurd hres' (h hall e)
  | ok u =>
    simp only [run_attempt_bind]
    refine Always.given_call none_returned fun c _ hrename => ?_
    rw [show (E (.renameFile _ _) c _).1 = .ok () from hrename]
    exact ⟨fun _ => none_returned, fun _ => (by rintro _ ⟨⟩)⟩

lemma pullEach_smooth (r : Reference) (dir : PathBuf) (layers : List LayerRef) (tr : List Ev) (w : W) :
    Always E ok (Given (Smooth x answer) fun _ _ res => ∀ e, res ≠ some (.error e))
      (pullEach x.sha256 cl r dir layers).run tr w := by
  induction layers generalizing tr w with
  | nil => exact ⟨fun _ => none_returned, fun _ => (by rintro _ ⟨⟩)⟩
  | cons layer layers ih =>
    rw [pullEach, ExceptT.run_bind]
    refine Always.given_bind ((@pullLayer_smooth _ _ _ _ _ _ answer r dir layer tr w).mono
      fun tr w res h hall => ?_)
    refine ⟨none_returned, fun res' hres' => ?_⟩
    cases res' with
    | error e => exact absurd hres' (h hall e)
    | ok path =>
      simp only
      rw [ExceptT.run_bind]
      refine Always.given_bind ((ih tr w).mono fun tr w res h hall => ?_)
      refine ⟨none_returned, fun res' hres' => ?_⟩
      cases res' with
      | error e => exact absurd hres' (h hall e)
      | ok paths => exact ⟨fun _ => none_returned, fun _ => (by rintro _ ⟨⟩)⟩

end Smooth

section Answered

variable {answer : Reference → Except Text (ℕ × Bytes)} {w : World}

/-- The layers have files with the content that their digests say, as far as these have the
form of digests. -/
def Available (x : Ext) (dir : PathBuf) (w : World) (layers : List LayerRef) : Prop :=
  ∀ layer ∈ layers, IsDigest layer.digest → ∃ b,
    w.fs.read (dir.key ++ [blobName layer.digest]) = some b ∧
      Text.eqIgnoreAsciiCase layer.digest (digestOf x.sha256 b) = true

/-- Verified files that are not gone. -/
lemma Available.filled {w' : World} {layers : List LayerRef} (h : Available x dir w layers)
    (hf : Filled x dir w w') : Available x dir w' layers := by
  intro layer hl hd
  obtain ⟨b, hb, -⟩ := h layer hl hd
  refine hf.sound.digest hd (existsAt_of_read (hf.kept _ (blobSuffix_suffix_blobName _) ?_))
  rw [hb]
  exact nofun

namespace NodeService

/-- What follows the pulls asks nothing of the registry. -/
lemma link_attach (req : PublishRequest) (params : PvcParams) (blobs : List PathBuf) :
    link (OciClient.impl x.sha256 cl) (attach cfg req params blobs).run
      = (attach cfg req params blobs).run := by
  refine link_eq_self ((attach_forall req params blobs).mono fun o ho => ?_)
  rcases ho with ⟨p, -, rfl⟩ | rfl | ⟨b, rfl⟩ <;> rfl

/-- What follows the pulls leaves the files of the layers alone, wherever the target is. -/
lemma attach_available (req : PublishRequest) (params : PvcParams) (blobs : List PathBuf)
    {layers : List LayerRef} (h : Available x (cfg.lowersDir req.volumeId) w layers) (tr : List Ev) :
    Always (env x) ok (fun _ w' _ => Available x (cfg.lowersDir req.volumeId) w' layers)
      (link (OciClient.impl x.sha256 cl) (attach cfg req params blobs).run) tr w := by
  refine Always.of_forall (P := fun o => ∀ name, blobSuffix <:+ name →
    ¬Touches ((cfg.lowersDir req.volumeId).key ++ [name]) o)
    (I := fun w' => Available x (cfg.lowersDir req.volumeId) w' layers)
    ((attach_forall req params blobs).link fun o ho => ?_) (fun o c w ho _ hw layer hl hd => ?_) h tr
  · rcases ho with ⟨p, -, rfl⟩ | rfl | ⟨b, rfl⟩
    · exact forall_perform fun _ _ => id
    · exact forall_perform fun _ _ => id
    · refine forall_perform fun name hn ht => ?_
      rw [Touches, Config.key_statePath] at ht
      exact aside_volumePath cfg req.volumeId _ name hn ht.symm
  · rw [env_read x c w (ho _ (blobSuffix_suffix_blobName layer.digest))]
    exact hw layer hl hd

end NodeService

end Answered

/-! ### The result -/

namespace NodeService

end NodeService

/-! ### A volume whose id leads out of the data directory -/

namespace Sample

open NodeService

end Sample

namespace NodeService

open Sample

end NodeService

end RspacefsCsi
