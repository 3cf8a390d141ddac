/-
# What a push leaves in the registry

A freeze over the driver's own registry client, followed to its end.  If it returns an id,
the registry has taken the manifest of the captured bytes, under the tag and under its
digest, and the id names it by its digest (`freeze_pushed`).  It returns one whenever the
daemon listens, the staging file can be made and the registry takes the manifest
(`eval_freeze_pushed`).
-/
import RspacefsCsi.Revision

namespace RspacefsCsi

open Lib Lib.Prog

variable {x : Ext} {cl : OciClient}

/-- The manifest of a revision of `b`. -/
def revisionOf (x : Ext) (r : Reference) (b : Bytes) : Bytes :=
  manifestBytes r.reference (digestOf x.sha256 b) b.length

/-- The id of a revision of `b`. -/
def revisionId (x : Ext) (r : Reference) (b : Bytes) : Text :=
  Reference.render r.registry r.repository (digestOf x.sha256 (revisionOf x r b))

/-- Different bytes have different revisions. -/
lemma revisionOf_inj (hx : Function.Injective x.sha256) {r : Reference} {b b' : Bytes}
    (h : revisionOf x r b = revisionOf x r b') : b = b' :=
  digestOf_injective hx (manifestBytes_inj h).2.1

/-- So they have different ids. -/
lemma revisionId_inj (hx : Function.Injective x.sha256) {r : Reference} {b b' : Bytes}
    (h : revisionId x r b = revisionId x r b') : b = b' := by
  have hcons := List.append_cancel_left h
  exact revisionOf_inj hx (digestOf_injective hx (List.cons.inj hcons).2)

/-- The registry has taken a revision of `b` for `r`. -/
structure Pushed (x : Ext) (r : Reference) (b : Bytes) (reg : Store) : Prop where
  accepted : World.acceptsManifest x r (revisionOf x r b)
  tag : reg.manifests (r.registry, r.repository) r.reference = some (revisionOf x r b)
  manifest : reg.manifests (r.registry, r.repository) (digestOf x.sha256 (revisionOf x r b))
    = some (revisionOf x r b)

/-! ### Blobs -/

/-- Blobs have been sent, and nothing else has happened. -/
structure Uploaded (x : Ext) (w w' : World) : Prop where
  fs : w'.fs = w.fs
  mounts : w'.mounts = w.mounts
  uppers : w'.uppers = w.uppers
  manifests : w'.reg.manifests = w.reg.manifests
  reg : w.reg.Consistent x → w.reg.Grows x w'.reg

lemma Uploaded.refl (x : Ext) (w : World) : Uploaded x w w :=
  ⟨rfl, rfl, rfl, rfl, fun h => .refl h⟩

lemma Uploaded.trans {w w' w'' : World} (h : Uploaded x w w') (h' : Uploaded x w' w'') :
    Uploaded x w w'' where
  fs := h'.fs.trans h.fs
  mounts := h'.mounts.trans h.mounts
  uppers := h'.uppers.trans h.uppers
  manifests := h'.manifests.trans h.manifests
  reg hc := ⟨(h'.reg (h.reg hc).consistent).consistent,
    fun repo d b hb => (h'.reg (h.reg hc).consistent).blobs repo d b ((h.reg hc).blobs repo d b hb)⟩

/-- The registry takes a blob, or nothing happens. -/
lemma uploaded_putBlob (hx : Function.Injective x.sha256) (url registry repository digest : Text)
    (b : Bytes) (c : Choice) (w : World) :
    Uploaded x w (env x (.putBlob url registry repository digest b) c w).2 := by
  have hs := step x (.putBlob url registry repository digest b) c w
  generalize (env x (.putBlob url registry repository digest b) c w).2 = w' at hs
  cases hs with
  | files hf =>
    cases hf
    exact .refl x w
  | blob ha => exact ⟨rfl, rfl, rfl, rfl, fun h => Store.grows_putBlob hx h ha⟩

/-- Pushing a blob: when it succeeds the blob is there. -/
lemma pushBlob_uploaded (hx : Function.Injective x.sha256) (repo : Repo) (digest : Text)
    (bytes : Bytes) (tr : List Ev) (w : World) :
    Always (env x) Choice.Honest (fun _ w' res => Uploaded x w w' ∧
      (res = some (.ok ()) → ∃ b, w'.reg.blobs repo digest = some b))
      (cl.pushBlob repo.1 repo.2 digest bytes).run tr w := by
  simp only [OciClient.pushBlob, OciClient.blobExists, run_attempt_bind]
  refine ⟨⟨.refl x w, not_returned⟩, fun c hc => ?_⟩
  have hthere := (@present_of_confirms x w repo digest)
    (o := .headBlob (cl.blobUrl ⟨repo.1, repo.2, digest⟩ digest) repo.1 repo.2 digest) hc
  obtain ⟨res, hres⟩ : ∃ res, env x (.headBlob (cl.blobUrl ⟨repo.1, repo.2, digest⟩ digest)
      repo.1 repo.2 digest) c w = (res, w) := ⟨_, rfl⟩
  rw [hres] at hthere ⊢
  cases res with
  | error e => exact ⟨⟨.refl x w, not_returned⟩, .refl x w, not_ok⟩
  | ok code =>
    by_cases hs : isSuccess code = true
    · simp only [hs, if_true]
      exact ⟨⟨.refl x w, not_returned⟩, .refl x w, fun _ => hthere (.head hs)⟩
    simp only [hs, Bool.false_eq_true, if_false, run_attempt_bind]
    refine ⟨⟨.refl x w, not_returned⟩, fun c _ => ?_⟩
    obtain ⟨res, hres⟩ : ∃ res, env x (.postUpload (cl.uploadsUrl repo.1 repo.2) repo.1 repo.2) c w
      = (res, w) := ⟨_, rfl⟩
    rw [hres]
    cases hl : OciClient.uploadLocation (cl.uploadsUrl repo.1 repo.2) repo.2 res with
    | error e =>
      simp only [hl]
      exact ⟨⟨.refl x w, not_returned⟩, .refl x w, not_ok⟩
    | ok location =>
      simp only [hl, run_attempt]
      refine ⟨⟨.refl x w, not_returned⟩, fun c hc => ?_⟩
      have hthere := (@present_of_confirms x w repo digest)
        (o := .putBlob (cl.resolveLocation repo.1 location digest) repo.1 repo.2 digest bytes) hc
      have hup := uploaded_putBlob hx (cl.resolveLocation repo.1 location digest) repo.1 repo.2
        digest bytes c w
      obtain ⟨res, w', hres⟩ : ∃ res w', env x (.putBlob (cl.resolveLocation repo.1 location digest)
        repo.1 repo.2 digest bytes) c w = (res, w') := ⟨_, _, rfl⟩
      rw [hres] at hthere hup ⊢
      refine ⟨⟨hup, not_returned⟩, hup, fun hok => ?_⟩
      cases res with
      | error e => exact absurd hok not_ok
      | ok code =>
        by_cases hs : isSuccess code = true
        · exact hthere (.put hs)
        · simp [OciClient.checkStatus, hs] at hok

/-! ### Manifests -/

lemma Store.putManifest_reference (s : Store) (repo : Repo) (reference digest : Text) (b : Bytes) :
    (s.putManifest repo reference digest b).manifests repo reference = some b := by
  simp [putManifest]

lemma Store.putManifest_digest (s : Store) (repo : Repo) (reference digest : Text) (b : Bytes) :
    (s.putManifest repo reference digest b).manifests repo digest = some b := by
  by_cases h : digest = reference
  · rw [h, putManifest_reference]
  · simp [putManifest, h]

lemma Store.putManifest_manifests (s : Store) (repo repo' : Repo) (ref ref' d : Text) (b : Bytes) :
    (s.putManifest repo ref d b).manifests repo' ref' =
      if repo' = repo ∧ (ref' = ref ∨ ref' = d) then some b else s.manifests repo' ref' := by
  by_cases hr : repo' = repo
  · subst hr
    by_cases h1 : ref' = ref
    · simp [putManifest, h1]
    · by_cases h2 : ref' = d
      · subst h2
        simp [putManifest, h1]
      · simp [putManifest, h1, h2]
  · simp [putManifest, hr]

lemma colon_mem_digestOf (x : Ext) (b : Bytes) : ':' ∈ digestOf x.sha256 b :=
  List.mem_append_left _ (by decide)

/-- A colon is not a character of a tag. -/
lemma colon_notMem_of_legalTag {t : Text} (h : legalTag t = true) : ':' ∉ t := by
  intro hc
  simp only [legalTag, Bool.and_eq_true] at h
  exact absurd (List.all_eq_true.1 h.1.2 ':' hc) (by decide)

/-- A manifest that an honest registry has answered with success was taken, and the digest the
client goes on with is its digest. -/
lemma env_putManifest_cases (x : Ext) (url url' : Text) (r : Reference) (b : Bytes) {c : Choice}
    (hc : c.Honest) (w : World) :
    (∃ res w', env x (.putManifest url r b) c w = (res, w') ∧
      ∃ e, OciClient.checkReply url' res = .error e) ∨
    ∃ header, env x (.putManifest url r b) c w = (.ok (201, header), w.tookManifest x r b) ∧
      World.acceptsManifest x r b ∧ header.getD (digestOf x.sha256 b) = digestOf x.sha256 b := by
  by_cases ha : World.acceptsManifest x r b
  · cases c with
    | fault msg done => exact .inl ⟨_, _, rfl, _, rfl⟩
    | status code =>
      refine .inl ⟨_, _, rfl, .status url' code, ?_⟩
      have : isSuccess code = false := by
        simpa [Choice.Honest, isSuccess] using hc
      simp [OciClient.checkReply, this]
    | bare => exact .inr ⟨none, by simp only [env, World.putManifest, if_pos ha], ha, rfl⟩
    | _ =>
      exact .inr ⟨some (digestOf x.sha256 b), by simp only [env, World.putManifest, if_pos ha], ha,
        rfl⟩
  · cases c with
    | fault msg done => exact .inl ⟨_, _, rfl, _, rfl⟩
    | status code =>
      refine .inl ⟨_, _, rfl, .status url' code, ?_⟩
      have : isSuccess code = false := by
        simpa [Choice.Honest, isSuccess] using hc
      simp [OciClient.checkReply, this]
    | _ =>
      refine .inl ⟨.ok (400, none), w, by simp only [env, World.putManifest, if_neg ha],
        .status url' 400, rfl⟩

/-- Pushing a revision of the bytes in the staging file. -/
lemma pushRevision_pushed (hx : Function.Injective x.sha256) (targetRef : Text) (staging : PathBuf)
    {b : Bytes} (tr : List Ev) {w : World} (hb : w.fs.read staging.key = some b) :
    Always (env x) Choice.Honest (fun _ w' res => ∀ id, res = some (.ok id) →
      ∃ r, Reference.parse targetRef = .ok r ∧ id = revisionId x r b ∧ Pushed x r b w'.reg ∧
        (w.reg.Consistent x →
          w'.reg.blobs (r.registry, r.repository) (digestOf x.sha256 b) = some b))
      (OciClient.pushRevision x.sha256 cl targetRef staging (digestOf x.sha256 b) b.length).run
      tr w := by
  simp only [OciClient.pushRevision, run_require_bind]
  cases hr : Reference.parse targetRef with
  | error e => exact ⟨none_returned, none_ok⟩
  | ok r =>
    simp only [run_attempt_bind]
    refine ⟨none_returned, fun c _ => ?_⟩
    rcases env_readFile_cases x staging c w with ⟨e, h⟩ | ⟨b', h, hb'⟩ <;> rw [h]
    · exact ⟨none_returned, none_ok⟩
    obtain rfl := Option.some.inj (hb'.symm.trans hb)
    simp only [OciClient.checkIo, Except.mapError, ne_eq, not_true_eq_false, if_false]
    refine Always.tryBind ((pushBlob_uploaded hx (r.registry, r.repository) _ _ _ w).mono ?_)
    rintro tr₁ w₁ res₁ ⟨hw₁, hlayer⟩
    refine ⟨none_returned, by rintro _ _ _ ⟨⟩, fun _ hok => ?_⟩
    obtain ⟨l, hl⟩ := hlayer hok
    refine Always.tryBind ((pushBlob_uploaded hx (r.registry, r.repository) _ _ tr₁ w₁).mono ?_)
    rintro tr₂ w₂ res₂ ⟨hw₂, -⟩
    refine ⟨none_returned, by rintro _ _ _ ⟨⟩, fun _ _ => ?_⟩
    rw [run_attempt_bind]
    refine ⟨none_returned, fun c hc => ?_⟩
    rcases env_putManifest_cases x (cl.manifestUrl r) (cl.manifestUrl r) r (revisionOf x r b') hc w₂
      with ⟨res, w', h, e, he⟩ | ⟨header, h, ha, hd⟩
    · rw [revisionOf] at h
      rw [h]
      simp only [he]
      exact ⟨none_returned, none_ok⟩
    · have hrev := h
      rw [revisionOf] at hrev
      rw [hrev]
      refine ⟨none_returned, ?_⟩
      rintro id ⟨⟩
      refine ⟨r, rfl, ?_, ⟨ha, ?_, ?_⟩, fun hcons => ?_⟩
      · exact congrArg (Reference.render r.registry r.repository) hd
      · exact Store.putManifest_reference _ _ _ _ _
      · exact Store.putManifest_digest _ _ _ _ _
      · -- what is there under the digest of the bytes are the bytes
        have hg := hw₁.reg hcons
        rw [digestOf_injective hx (hg.consistent _ _ _ hl)] at hl
        exact (hw₂.reg hg.consistent).blobs _ _ _ hl

/-! ### Freezes -/

/-- What a capture at a control socket writes. -/
def captureOf (x : Ext) (socket : PathBuf) (w : World) : Option Bytes :=
  (w.daemon socket.key).map fun m => x.pack (w.uppers m.spec.upper.key)

/-- The freeze `f`, begun in `w` and ended in `w'`, has captured `b` and pushed it to `r`. -/
structure Froze (x : Ext) (f : FreezeCall) (w : World) (r : Reference) (b : Bytes) (w' : World) :
    Prop where
  captured : captureOf x f.controlSocket w = some b
  size : b.length < 2 ^ 64
  target : Reference.parse f.targetRef = .ok r
  pushed : Pushed x r b w'.reg
  layer : w.reg.Consistent x →
    w'.reg.blobs (r.registry, r.repository) (digestOf x.sha256 b) = some b

/-- The requests of a freeze, with the push written out. -/
lemma freeze_prog (f : FreezeCall) : f.prog x cl =
    .call (.createDirAll f.staging.parent) fun _ => .call (.capture f.controlSocket f.staging) fun
      | .error e => .ret (.error (.capture e))
      | .ok cap => (OciClient.pushRevision x.sha256 cl f.targetRef f.staging cap.digest
          cap.bytesCompressed).run >>= fun
        | .error e => .ret (.error (.push e))
        | .ok id => .call (.removeFile f.staging) fun _ => .ret (.ok id) := by
  unfold FreezeCall.prog
  simp only [freezeAndPush, run_request_bind, run_attempt_bind]
  change Prog.call _ (fun _ => Prog.call _ fun _ => _) = _
  congr 1
  funext _
  congr 1
  funext res
  cases res with
  | error e => rfl
  | ok cap =>
    change _ >>= _ = _ >>= _
    congr 1
    funext res
    cases res <;> rfl

/-- A freeze that succeeds has pushed what it captured, and returns the id of that. -/
lemma freeze_pushed (hx : Function.Injective x.sha256) (f : FreezeCall) (tr : List Ev) (w : World) :
    Always (env x) Choice.Honest (fun _ w' res => ∀ id, res = some (.ok id) →
      ∃ r b, Froze x f w r b w' ∧ id = revisionId x r b) (f.prog x cl) tr w := by
  rw [freeze_prog]
  refine ⟨nofun, fun c _ => ?_⟩
  obtain ⟨res, fs, hdir⟩ : ∃ res fs, env x (.createDirAll f.staging.parent) c w
      = (res, w.withFs fs) := by
    rcases env_createDirAll_cases x f.staging.parent c w with ⟨e, fs, h, -⟩ | ⟨fs, h, -, -⟩
    · exact ⟨_, fs, h⟩
    · exact ⟨_, fs, h⟩
  rw [hdir]
  refine ⟨nofun, fun c _ => ?_⟩
  rcases env_capture_cases x f.controlSocket f.staging c (w.withFs fs) with
    ⟨e, w', h⟩ | ⟨m, fs', hm, h, hwr, hlen⟩ <;> rw [h]
  · exact ⟨nofun, nofun⟩
  have hcap : captureOf x f.controlSocket w = some (x.pack (w.uppers m.spec.upper.key)) := by
    rw [captureOf, show w.daemon f.controlSocket.key = some m from hm]
    rfl
  rw [World.withFs_uppers] at hwr hlen ⊢
  generalize x.pack (w.uppers m.spec.upper.key) = b at hwr hlen hcap ⊢
  refine Always.bind (((@pushRevision_pushed _ cl) hx f.targetRef f.staging _
    (w := (w.withFs fs).withFs fs') hwr.read_self).mono fun tr₁ w₁ res₁ h₁ => ⟨nofun, ?_⟩)
  rintro r₁ rfl
  cases r₁ with
  | error e => exact ⟨nofun, nofun⟩
  | ok id =>
    obtain ⟨r, hr, hid, hpushed, hlayer⟩ := h₁ id rfl
    refine ⟨nofun, fun c _ => ⟨nofun, ?_⟩⟩
    rintro _ ⟨⟩
    have hreg := env_reg x c w₁ (o := .removeFile f.staging) (fun h => h)
    exact ⟨r, b, ⟨hcap, hlen, hr, hreg ▸ hpushed, fun hc => hreg ▸ hlayer hc⟩, hid⟩

/-! ### Freezes that succeed -/

/-- A blob is taken by a legal repository. -/
lemma eval_pushBlob {repo : Repo} (hl : legalRepo repo = true) (bytes : Bytes) (w : World) :
    ∃ tr w', eval (act x) (cl.pushBlob repo.1 repo.2 (digestOf x.sha256 bytes) bytes).run w
      = (tr, w', .ok ()) := by
  simp only [OciClient.pushBlob, OciClient.blobExists, run_attempt_bind]
  cases hb : w.reg.blobs repo (digestOf x.sha256 bytes) with
  | some b =>
    have hhead : ∀ url, act x (.headBlob url repo.1 repo.2 (digestOf x.sha256 bytes)) w
        = (.ok 200, w) := by
      intro url
      simp only [act, env, World.headBlob, hb]
      rfl
    rw [eval_call, hhead]
    exact ⟨_, _, rfl⟩
  | none =>
    have hhead : ∀ url, act x (.headBlob url repo.1 repo.2 (digestOf x.sha256 bytes)) w
        = (.ok 404, w) := by
      intro url
      simp only [act, env, World.headBlob, hb]
      rfl
    have hpost : ∀ url, act x (.postUpload url repo.1 repo.2) w
        = (.ok (202, some ("/v2/".toList ++ repo.2 ++ "/blobs/uploads/0".toList)), w) := by
      intro url
      simp only [act, env, World.postUpload, hl, if_true]
    have hput : ∀ url, act x (.putBlob url repo.1 repo.2 (digestOf x.sha256 bytes) bytes) w
        = (.ok 201, w.withReg (w.reg.putBlob repo (digestOf x.sha256 bytes) bytes)) := by
      intro url
      have ha : World.accepts x (repo.1, repo.2) (digestOf x.sha256 bytes) bytes := ⟨hl, rfl⟩
      simp only [act, env, World.putBlob, if_pos ha]
    rw [eval_call, hhead]
    have h404 : isSuccess 404 = false := rfl
    simp only [h404, Bool.false_eq_true, if_false, run_attempt_bind, eval_call, hpost]
    simp only [OciClient.uploadLocation, ne_eq, not_true_eq_false, if_false, run_attempt, eval_call,
      hput]
    exact ⟨_, _, rfl⟩

/-- A revision is taken by a registry that takes its manifest. -/
lemma eval_pushRevision (hempty : digestOf x.sha256 EMPTY_CONFIG_BYTES = EMPTY_CONFIG_DIGEST)
    {targetRef : Text} {r : Reference} (hr : Reference.parse targetRef = .ok r)
    {staging : PathBuf} {b : Bytes} {w : World} (hb : w.fs.read staging.key = some b)
    (ha : World.acceptsManifest x r (revisionOf x r b)) :
    ∃ tr w', eval (act x) (OciClient.pushRevision x.sha256 cl targetRef staging
      (digestOf x.sha256 b) b.length).run w = (tr, w', .ok (revisionId x r b)) := by
  have hread : act x (.readFile staging) w = (.ok b, w) := by
    simp only [act, env, World.readFile, hb]
  obtain ⟨tr₁, w₁, h₁⟩ := (@eval_pushBlob _ cl) ha.1 b w
  obtain ⟨tr₂, w₂, h₂⟩ := (@eval_pushBlob x cl) ha.1 EMPTY_CONFIG_BYTES w₁
  rw [hempty] at h₂
  have hput : act x (.putManifest (cl.manifestUrl r) r (revisionOf x r b)) w₂
      = (.ok (201, some (digestOf x.sha256 (revisionOf x r b))),
        w₂.tookManifest x r (revisionOf x r b)) := by
    simp only [act, env, World.putManifest, if_pos ha]
  simp only [OciClient.pushRevision, hr, run_require_bind, run_attempt_bind, eval_call, hread,
    OciClient.checkIo, Except.mapError, ne_eq, not_true_eq_false, if_false]
  rw [eval_tryBind_ok h₁, eval_tryBind_ok h₂, run_attempt_bind, eval_call]
  rw [revisionOf] at hput
  rw [hput]
  exact ⟨_, _, rfl⟩

/-- The staging file of a volume can be made. -/
def Stageable (cfg : Config) (volumeId : Text) (w : World) : Prop :=
  (∃ fs, w.fs.mkdirs (cfg.volumeDir volumeId).key = some fs) ∧
    ¬w.fs.IsDir (cfg.captureStaging volumeId).key

section Stage

variable {cfg : Config} {volumeId : Text} {w : World}

/-- The world in which the capture is made. -/
lemma act_stage (x : Ext) (cfg : Config) (volumeId : Text) (w : World) :
    (∃ fs, w.fs.mkdirs (cfg.volumeDir volumeId).key = some fs ∧
      act x (.createDirAll (cfg.captureStaging volumeId).parent) w = (.ok (), w.withFs fs)) ∨
    (w.fs.mkdirs (cfg.volumeDir volumeId).key = none ∧ ∃ e,
      act x (.createDirAll (cfg.captureStaging volumeId).parent) w = (.error e, w)) := by
  simp only [act, env, World.createDirAll, Config.key_parent_captureStaging]
  cases h : w.fs.mkdirs (cfg.volumeDir volumeId).key with
  | some fs => exact .inl ⟨fs, rfl, rfl⟩
  | none => exact .inr ⟨rfl, _, rfl⟩

lemma staging_not_below (cfg : Config) (volumeId : Text) :
    ¬(cfg.captureStaging volumeId).key <+: (cfg.volumeDir volumeId).key := by
  intro h
  have := h.length_le
  simp at this

/-- The capture succeeds if the staging file can be made. -/
lemma act_capture_ok (hs : Stageable cfg volumeId w) {b : Bytes}
    (hb : captureOf x (cfg.controlSocket volumeId) w = some b) (hlen : b.length < 2 ^ 64) :
    ∃ w₁ w₂, act x (.createDirAll (cfg.captureStaging volumeId).parent) w = (.ok (), w₁) ∧
      act x (.capture (cfg.controlSocket volumeId) (cfg.captureStaging volumeId)) w₁
        = (.ok (report x b), w₂) ∧ w₂.fs.read (cfg.captureStaging volumeId).key = some b := by
  obtain ⟨m, hm, rfl⟩ := Option.map_eq_some_iff.1 hb
  rcases act_stage x cfg volumeId w with ⟨fs, hfs, hact⟩ | ⟨hnone, -⟩
  · obtain ⟨fs', hfs'⟩ : ∃ fs', fs.write (cfg.captureStaging volumeId).key
        (x.pack (w.uppers m.spec.upper.key)) = some fs' := by
      cases hc : fs.create (cfg.captureStaging volumeId).key with
      | some p => exact ⟨_, by rw [Fs.write, hc]; rfl⟩
      | none =>
        rcases Fs.create_eq_none_iff.1 hc with h | ⟨-, h⟩
        · refine absurd ((Fs.isDir_congr ?_).1 h) hs.2
          exact Fs.mkdirs_lookup_ne hfs (staging_not_below cfg volumeId)
        · rw [Config.key_captureStaging, List.dropLast_concat] at h
          exact absurd (Fs.mkdirs_isDir hfs) h
    refine ⟨w.withFs fs, (w.withFs fs).withFs fs', hact, ?_, (Fs.write_spec hfs').read_self⟩
    have hm' : (w.withFs fs).daemon (cfg.controlSocket volumeId).key = some m := hm
    simp only [act, env, World.capture, hm', World.withFs_uppers, World.withFs_fs, hfs']
    exact if_pos hlen
  · obtain ⟨fs, hfs⟩ := hs.1
    exact absurd (hfs.symm.trans hnone) (by rintro ⟨⟩)

/-- It succeeds only then. -/
lemma stageable_of_capture {r : Except IoError Unit} {w₁ : World}
    (hact : act x (.createDirAll (cfg.captureStaging volumeId).parent) w = (r, w₁))
    {cap : CaptureData} {w₂ : World}
    (hcap : act x (.capture (cfg.controlSocket volumeId) (cfg.captureStaging volumeId)) w₁
      = (.ok cap, w₂)) : Stageable cfg volumeId w := by
  rcases env_capture_cases x (cfg.controlSocket volumeId) (cfg.captureStaging volumeId) .go w₁ with
    ⟨e, w', h⟩ | ⟨m, fs', -, h, hwr, -⟩
  · rw [act, h] at hcap
    exact absurd (congrArg Prod.fst hcap) nofun
  obtain ⟨i, hi, -⟩ := Fs.read_eq_some_iff.1 hwr.read_self
  have hdir : w₁.fs.IsDir (cfg.volumeDir volumeId).key := by
    have := Fs.isDir_dropLast_of_lookup hi
    rw [Config.key_captureStaging, List.dropLast_concat] at this
    exact (hwr.isDir _).1 this
  have hnot : ¬w₁.fs.IsDir (cfg.captureStaging volumeId).key :=
    fun h => Fs.not_isDir_of_lookup hi ((hwr.isDir _).2 h)
  rcases act_stage x cfg volumeId w with ⟨fs, hfs, hact'⟩ | ⟨hnone, e, hact'⟩
  · obtain ⟨-, rfl⟩ := Prod.mk.inj (hact.symm.trans hact')
    exact ⟨⟨fs, hfs⟩, fun h => hnot ((Fs.mkdirs_grows hfs).dir _ h)⟩
  · obtain ⟨-, rfl⟩ := Prod.mk.inj (hact.symm.trans hact')
    exact absurd (hnone.symm.trans (Fs.mkdirs_of_isDir hdir)) nofun

end Stage

/-- The freeze of a volume. -/
def volumeFreeze (cfg : Config) (volumeId targetRef : Text) : FreezeCall :=
  ⟨cfg.controlSocket volumeId, cfg.captureStaging volumeId, targetRef⟩

/-- A freeze succeeds if the staging file can be made and the registry takes the manifest. -/
lemma eval_freeze_pushed (hempty : digestOf x.sha256 EMPTY_CONFIG_BYTES = EMPTY_CONFIG_DIGEST)
    {cfg : Config} {volumeId targetRef : Text} {w : World} (hs : Stageable cfg volumeId w)
    {b : Bytes} (hb : captureOf x (cfg.controlSocket volumeId) w = some b) (hlen : b.length < 2 ^ 64)
    {r : Reference} (hr : Reference.parse targetRef = .ok r)
    (ha : World.acceptsManifest x r (revisionOf x r b)) :
    ∃ tr w', eval (act x) ((volumeFreeze cfg volumeId targetRef).prog x cl) w
      = (tr, w', .ok (revisionId x r b)) := by
  obtain ⟨w₁, w₂, hdir, hcap, hread⟩ := act_capture_ok hs hb hlen
  obtain ⟨tr₃, w₃, hpush⟩ := (@eval_pushRevision _ cl) hempty hr hread ha
  simp only [volumeFreeze, freeze_prog, eval_call, hdir, hcap, report, eval_bind, hpush]
  exact ⟨_, _, rfl⟩

/-- It succeeds only if the staging file can be made. -/
lemma stageable_of_eval {cfg : Config} {volumeId targetRef : Text} {w : World} {id : Text}
    (h : (eval (act x) ((volumeFreeze cfg volumeId targetRef).prog x cl) w).2.2 = .ok id) :
    Stageable cfg volumeId w := by
  rw [freeze_prog] at h
  obtain ⟨r, w₁, hdir⟩ : ∃ r w₁, act x (.createDirAll (cfg.captureStaging volumeId).parent) w
    = (r, w₁) := ⟨_, _, rfl⟩
  obtain ⟨res, w₂, hcap⟩ : ∃ res w₂, act x (.capture (cfg.controlSocket volumeId)
    (cfg.captureStaging volumeId)) w₁ = (res, w₂) := ⟨_, _, rfl⟩
  cases res with
  | error e =>
    simp only [volumeFreeze, eval_call, hdir, hcap, eval_ret] at h
    exact absurd h nofun
  | ok cap => exact stageable_of_capture hdir hcap

end RspacefsCsi
