/-
# What the calls of the node do

One lemma for each of the two calls says what can have happened when it ends, whether it
returned or was dropped, and whatever failed on the way: what became of the mounts, and
which answers the call has seen.  The results about runs of calls rest on these lemmas
alone.
-/
import RspacefsCsi.Frame
import RspacefsCsi.Lib.Run
import RspacefsCsi.Node
import RspacefsCsi.Sample

namespace RspacefsCsi

open Lib Lib.Prog

namespace NodeService

variable {x : Ext} {cfg : Config}

/-- Every behaviour of the environment. -/
def anything (_ : Choice) : Prop := True

/-! ### NodePublishVolume -/

/-- The publish context could not be written. -/
def StateFailed (cfg : Config) (volumeId : Text) (tr : List Ev) : Prop :=
  (∃ e, (⟨.createDirAll (cfg.statePath volumeId).parent, .error e⟩ : Ev) ∈ tr) ∨
    ∃ b e, (⟨.writeFile (cfg.statePath volumeId) b, .error e⟩ : Ev) ∈ tr

lemma not_stateFailed {volumeId : Text} {tr : List Ev} (h : tr.all (fun e => !Failed e) = true) :
    ¬StateFailed cfg volumeId tr := by
  rw [List.all_eq_true] at h
  rintro (⟨e, he⟩ | ⟨b, e, he⟩)
  · exact Bool.false_ne_true (h _ he)
  · exact Bool.false_ne_true (h _ he)

/-- The call has started the mount `m` and has gone on to write the publish context. -/
structure Attached (x : Ext) (cfg : Config) (req : PublishRequest) (params : PvcParams)
    (w : World) (tr : List Ev) (w' : World) (res : Option (Except Status Unit)) : Prop where
  mounts : ∃ m blobs, w'.mounts = m :: w.mounts ∧ m.id = w.nextMount ∧
    m.spec = mountSpec cfg req params blobs
  nextMount : w'.nextMount = w.nextMount + 1
  isDir : w'.fs.IsDir (PathBuf.key ⟨req.targetPath⟩)
  persisted : res = some (.ok ()) → StateFailed cfg req.volumeId tr ∨
    w'.fs.read (cfg.statePath req.volumeId).key = some (contextToVec req.volumeContext)

/-- The call has not started a mount, and has not returned OK. -/
structure Unattached (w w' : World) (res : Option (Except Status Unit)) : Prop where
  mounts : w'.mounts = w.mounts
  nextMount : w'.nextMount = w.nextMount
  notOk : res ≠ some (.ok ())

lemma attach_always (req : PublishRequest) (params : PvcParams) (blobs : List PathBuf)
    (tr : List Ev) (w : World) :
    Always (env x) anything (fun tr' w' res => Unattached w w' res ∨
      Attached x cfg req params w tr' w' res) (attach cfg req params blobs).run tr w := by
  simp only [attach, run_attempt_bind, run_ignoring_bind, persistState]
  refine ⟨.inl ⟨rfl, rfl, nofun⟩, fun c _ => ?_⟩
  rcases env_createDirAll_cases x (cfg.upperDir req.volumeId) c w with
    ⟨e, fs, h, -⟩ | ⟨fs, h, -, -⟩ <;> rw [h]
  · exact ⟨.inl ⟨rfl, rfl, nofun⟩, .inl ⟨rfl, rfl, nofun⟩⟩
  refine ⟨.inl ⟨rfl, rfl, nofun⟩, fun c _ => ?_⟩
  rcases env_createDirAll_cases x ⟨req.targetPath⟩ c (w.withFs fs) with
    ⟨e, fs', h', -⟩ | ⟨fs', h', -, -⟩ <;> rw [h']
  · exact ⟨.inl ⟨rfl, rfl, nofun⟩, .inl ⟨rfl, rfl, nofun⟩⟩
  refine ⟨.inl ⟨rfl, rfl, nofun⟩, fun c _ => ?_⟩
  rcases env_mount_cases x (mountSpec cfg req params blobs) c ((w.withFs fs).withFs fs') with
    ⟨e, hm⟩ | ⟨hm, hdir⟩ <;> rw [hm]
  · exact ⟨.inl ⟨rfl, rfl, nofun⟩, .inl ⟨rfl, rfl, nofun⟩⟩
  -- from here on the mount is there
  refine ⟨.inr ⟨⟨_, blobs, rfl, rfl, rfl⟩, rfl, hdir, nofun⟩, fun c _ => ?_⟩
  rcases env_createDirAll_cases x (cfg.statePath req.volumeId).parent c
    (((w.withFs fs).withFs fs').startMount x (mountSpec cfg req params blobs)) with
    ⟨e, fs₁, hc, hg⟩ | ⟨fs₁, hc, hg, -⟩ <;> rw [hc]
  · refine ⟨.inr ⟨⟨_, blobs, rfl, rfl, rfl⟩, rfl, hg.dir _ hdir, nofun⟩,
      .inr ⟨⟨_, blobs, rfl, rfl, rfl⟩, rfl, hg.dir _ hdir, fun _ => .inl (.inl ⟨e, ?_⟩)⟩⟩
    simp
  refine ⟨.inr ⟨⟨_, blobs, rfl, rfl, rfl⟩, rfl, hg.dir _ hdir, nofun⟩, fun c _ => ?_⟩
  generalize hw₁ : World.withFs _ fs₁ = w₁
  have hm₁ := env_mounts x (o := .writeFile (cfg.statePath req.volumeId)
    (contextToVec req.volumeContext)) c w₁ id
  have hd₁ := env_isDir x (o := .writeFile (cfg.statePath req.volumeId)
    (contextToVec req.volumeContext)) c w₁ (k := PathBuf.key ⟨req.targetPath⟩) (.inr nofun)
    (hw₁ ▸ hg.dir _ hdir)
  have hmounts : ∃ m blobs, w₁.mounts = m :: w.mounts ∧ m.id = w.nextMount ∧
      m.spec = mountSpec cfg req params blobs := hw₁ ▸ ⟨_, blobs, rfl, rfl, rfl⟩
  have hnext : w₁.nextMount = w.nextMount + 1 := hw₁ ▸ rfl
  rw [← hm₁.1] at hmounts
  rw [← hm₁.2] at hnext
  refine ⟨.inr ⟨hmounts, hnext, hd₁, nofun⟩, .inr ⟨hmounts, hnext, hd₁, fun _ => ?_⟩⟩
  rcases env_writeFile_cases x (cfg.statePath req.volumeId) (contextToVec req.volumeContext) c w₁
    with ⟨e, w', h₁⟩ | ⟨fs₂, h₁, hwr⟩ <;> rw [h₁]
  · exact .inl (.inr ⟨contextToVec req.volumeContext, e, by simp⟩)
  · exact .inr hwr.read_self

/-- The requests of `pullSeeds`. -/
lemma pullSeeds_forall (dir : PathBuf) (seeds : List Text) :
    Forall (fun o => ∃ seed, o = .pullLayers seed dir) (pullSeeds dir seeds).run := by
  induction seeds with
  | nil => trivial
  | cons seed rest ih =>
    simp only [pullSeeds, run_attempt_bind, forall_call]
    refine ⟨⟨seed, rfl⟩, fun r => ?_⟩
    cases r with
    | error e => trivial
    | ok blobs =>
      change Forall _ (ExceptT.run (pullSeeds dir rest >>= _))
      rw [ExceptT.run_bind]
      refine ih.bind fun a => ?_
      cases a <;> trivial

/-- **What a publish does.**  It starts no mount and fails or is dropped, or it is a
well-formed request and starts one mount, for its volume, at its target. -/
theorem publish_always (req : PublishRequest) (w : World) :
    Always (env x) anything (fun tr w' res => Unattached w w' res ∨
      ∃ params, req.volumeId ≠ [] ∧ req.targetPath ≠ [] ∧
        PvcParams.parse req.volumeContext = .ok params ∧ Attached x cfg req params w tr w' res)
      (nodePublishVolume cfg req).run [] w := by
  unfold nodePublishVolume
  by_cases hid : req.volumeId = []
  · rw [if_pos hid]
    exact ⟨.inl ⟨rfl, rfl, nofun⟩, .inl ⟨rfl, rfl, nofun⟩⟩
  by_cases ht : req.targetPath = []
  · rw [if_neg hid, if_pos ht]
    exact ⟨.inl ⟨rfl, rfl, nofun⟩, .inl ⟨rfl, rfl, nofun⟩⟩
  rw [if_neg hid, if_neg ht, run_require_bind]
  cases hp : PvcParams.parse req.volumeContext with
  | error e => exact ⟨.inl ⟨rfl, rfl, nofun⟩, .inl ⟨rfl, rfl, nofun⟩⟩
  | ok params =>
    refine Always.tryBind ?_
    have hpull : Always (env x) anything
        (fun _ w' _ => w'.mounts = w.mounts ∧ w'.nextMount = w.nextMount)
        (pullSeeds (cfg.lowersDir req.volumeId) params.seeds).run [] w := by
      refine Always.of_forall (I := fun w' : World => w'.mounts = w.mounts ∧ w'.nextMount = w.nextMount)
        (pullSeeds_forall _ _) ?_ ⟨rfl, rfl⟩ []
      rintro o c w' ⟨seed, rfl⟩ - hw'
      exact hw'
    refine hpull.mono fun tr w' r hw' => ⟨.inl ⟨hw'.1, hw'.2, nofun⟩,
      fun e _ => .inl ⟨hw'.1, hw'.2, nofun⟩, fun blobs _ => ?_⟩
    refine (attach_always req params blobs tr w').mono fun tr w'' res h => ?_
    rcases h with h | h
    · exact .inl ⟨h.mounts.trans hw'.1, h.nextMount.trans hw'.2, h.notOk⟩
    · refine .inr ⟨params, hid, ht, rfl, ?_, h.nextMount.trans (by rw [hw'.2]), h.isDir,
        h.persisted⟩
      obtain ⟨m, blobs, h1, h2, h3⟩ := h.mounts
      exact ⟨m, blobs, by rw [h1, hw'.1], by rw [h2, hw'.2], h3⟩

/-! ### NodeUnpublishVolume -/

/-- In the trace `tr` of a call that began in `w`, a capture of the upper behind the control
socket of the volume succeeded, and after it a push of what was captured. -/
def CapturedFirst (x : Ext) (cfg : Config) (volumeId : Text) (w : World) (tr : List Ev) : Prop :=
  ∃ m cap targetRef id tr₁ tr₂,
    tr = tr₁ ++ (⟨.capture (cfg.controlSocket volumeId) (cfg.captureStaging volumeId), .ok cap⟩ : Ev)
      :: (⟨.pushRevision targetRef (cfg.captureStaging volumeId) cap.digest cap.bytesCompressed,
        .ok id⟩ : Ev) :: tr₂ ∧
    w.daemon (cfg.controlSocket volumeId).key = some m ∧
    cap = ⟨digestOf x.sha256 (x.pack (w.uppers m.spec.upper.key)),
      (x.pack (w.uppers m.spec.upper.key)).length⟩

lemma CapturedFirst.append {volumeId : Text} {w : World} {tr : List Ev}
    (h : CapturedFirst x cfg volumeId w tr) (tr' : List Ev) :
    CapturedFirst x cfg volumeId w (tr ++ tr') := by
  obtain ⟨m, cap, ref, id, tr₁, tr₂, rfl, hm, hcap⟩ := h
  exact ⟨m, cap, ref, id, tr₁, tr₂ ++ tr', by simp, hm, hcap⟩

lemma CapturedFirst.prepend {volumeId : Text} {w : World} {tr : List Ev}
    (h : CapturedFirst x cfg volumeId w tr) (tr' : List Ev) :
    CapturedFirst x cfg volumeId w (tr' ++ tr) := by
  obtain ⟨m, cap, ref, id, tr₁, tr₂, rfl, hm, hcap⟩ := h
  exact ⟨m, cap, ref, id, tr' ++ tr₁, tr₂, by simp, hm, hcap⟩

/-- What the freeze at unpublish leaves alone. -/
structure Kept (cfg : Config) (volumeId : Text) (w w' : World) : Prop where
  mounts : w'.mounts = w.mounts
  nextMount : w'.nextMount = w.nextMount
  state : w'.fs.read (cfg.statePath volumeId).key = w.fs.read (cfg.statePath volumeId).key
  isDir : ∀ k, w.fs.IsDir k → w'.fs.IsDir k

lemma Kept.refl (cfg : Config) (volumeId : Text) (w : World) : Kept cfg volumeId w w :=
  ⟨rfl, rfl, rfl, fun _ h => h⟩

lemma Kept.trans {volumeId : Text} {w w' w'' : World} (h : Kept cfg volumeId w w')
    (h' : Kept cfg volumeId w' w'') : Kept cfg volumeId w w'' :=
  ⟨h'.mounts.trans h.mounts, h'.nextMount.trans h.nextMount, h'.state.trans h.state,
    fun k hk => h'.isDir k (h.isDir k hk)⟩

/-- The requests that are kept out of the state of a volume. -/
def Harmless (cfg : Config) (volumeId : Text) (o : Op) : Prop :=
  ¬ChangesMounts o ∧ ¬Touches (cfg.statePath volumeId).key o ∧ ∀ p, o ≠ .removeDir p

lemma Kept.env {volumeId : Text} {o : Op} (h : Harmless cfg volumeId o) (c : Choice) (w : World) :
    Kept cfg volumeId w (env x o c w).2 :=
  ⟨(env_mounts x c w h.1).1, (env_mounts x c w h.1).2, env_read x c w h.2.1,
    fun _ hk => env_isDir x c w (.inr fun p hp => absurd hp (h.2.2 p)) hk⟩

lemma staging_ne_state (cfg : Config) (volumeId : Text) :
    (cfg.captureStaging volumeId).key ≠ (cfg.statePath volumeId).key := by
  simp

/-- What the freeze at unpublish does. -/
lemma freeze_always (volumeId targetRef : Text) (tr : List Ev) (w : World) :
    Always (env x) anything (fun tr' w' res => Kept cfg volumeId w w' ∧
      ((∃ id, res = some (.ok id)) → ∃ t, tr' = tr ++ t ∧ CapturedFirst x cfg volumeId w t))
      (freezeAndPush (cfg.controlSocket volumeId) (cfg.captureStaging volumeId) targetRef).run
      tr w := by
  have hcapture : Harmless cfg volumeId
      (.capture (cfg.controlSocket volumeId) (cfg.captureStaging volumeId)) :=
    ⟨id, staging_ne_state cfg volumeId, by simp⟩
  have hremove : Harmless cfg volumeId (.removeFile (cfg.captureStaging volumeId)) :=
    ⟨id, staging_ne_state cfg volumeId, by simp⟩
  simp only [freezeAndPush, run_request_bind, run_attempt_bind]
  refine ⟨⟨.refl _ _ _, nofun⟩, fun c _ => ?_⟩
  generalize hw₁ : RspacefsCsi.env x (.createDirAll (cfg.captureStaging volumeId).parent) c w = r₁
  have hk₁ : Kept cfg volumeId w r₁.2 := hw₁ ▸ .env ⟨id, id, by simp⟩ c w
  have hu₁ : r₁.2.uppers = w.uppers := hw₁ ▸ env_uppers x _ c w
  have hd₁ : r₁.2.daemon = w.daemon := by
    unfold World.daemon
    rw [hk₁.mounts]
  refine ⟨⟨hk₁, nofun⟩, fun c _ => ?_⟩
  have hk₂ : Kept cfg volumeId w (RspacefsCsi.env x
      (.capture (cfg.controlSocket volumeId) (cfg.captureStaging volumeId)) c r₁.2).2 :=
    hk₁.trans (.env hcapture c r₁.2)
  rcases env_capture_cases x (cfg.controlSocket volumeId) (cfg.captureStaging volumeId) c r₁.2
    with ⟨e, w', h⟩ | ⟨m, fs, hm, h, -, -⟩ <;> rw [h] at hk₂ ⊢
  · exact ⟨⟨hk₂, nofun⟩, hk₂, by rintro ⟨id, hid⟩; exact absurd hid nofun⟩
  rw [hd₁] at hm
  refine ⟨⟨hk₂, nofun⟩, fun c _ => ?_⟩
  generalize hw₃ : RspacefsCsi.env x (.pushRevision _ _ _ _) c _ = r₃
  have hk₃ : Kept cfg volumeId w r₃.2 := hw₃ ▸ hk₂.trans (.env ⟨id, id, by simp⟩ c _)
  obtain ⟨res, w₃⟩ := r₃
  cases res with
  | error e => exact ⟨⟨hk₃, nofun⟩, hk₃, by rintro ⟨id, hid⟩; exact absurd hid nofun⟩
  | ok id =>
    refine ⟨⟨hk₃, nofun⟩, fun c _ => ?_⟩
    have hk₄ : Kept cfg volumeId w (RspacefsCsi.env x
      (.removeFile (cfg.captureStaging volumeId)) c w₃).2 :=
      hk₃.trans (.env hremove c w₃)
    refine ⟨⟨hk₄, nofun⟩, hk₄, fun _ => ⟨_, by simp only [List.append_assoc]; rfl, ?_⟩⟩
    refine ⟨m, _, targetRef, id, [_], [_], rfl, hm, ?_⟩
    rw [hu₁]

/-- Whether a publish context asks for a capture. -/
def AsksCapture (ctx : StrMap) : Prop :=
  ∃ params, PvcParams.parse ctx = .ok params ∧ params.captureOnDelete = true

/-- What the freeze does, if the publish context asks for one. -/
lemma captureIfAsked_always (volumeId : Text) (state : Option StrMap) (tr : List Ev) (w : World) :
    Always (env x) anything (fun tr' w' res => Kept cfg volumeId w w' ∧
      (res = some (.ok ()) → ∀ ctx, state = some ctx → AsksCapture ctx →
        ∃ t, tr' = tr ++ t ∧ CapturedFirst x cfg volumeId w t))
      (captureIfAsked cfg volumeId state).run tr w := by
  cases state with
  | none => exact ⟨⟨.refl _ _ _, nofun⟩, .refl _ _ _, nofun⟩
  | some ctx =>
    cases hp : PvcParams.parse ctx with
    | error e =>
      simp only [captureIfAsked, hp]
      refine ⟨⟨.refl _ _ _, nofun⟩, .refl _ _ _, ?_⟩
      rintro - _ ⟨⟩ ⟨params, hparams, -⟩
      exact absurd (hp.symm.trans hparams) nofun
    | ok params =>
      by_cases hc : params.captureOnDelete = true
      · simp only [captureIfAsked, hp, if_pos hc, freezeOnUnpublish]
        cases ht : captureTarget volumeId ctx params with
        | none => exact ⟨⟨.refl _ _ _, nofun⟩, .refl _ _ _, nofun⟩
        | some targetRef =>
          rw [run_within_bind]
          refine Always.bind ((freeze_always volumeId targetRef tr w).mono ?_)
          rintro tr' w' r ⟨hk, hcap⟩
          refine ⟨⟨hk, nofun⟩, fun a ha => ?_⟩
          cases a with
          | error e => exact ⟨⟨hk, nofun⟩, hk, nofun⟩
          | ok id => exact ⟨⟨hk, nofun⟩, hk, fun _ _ _ _ => hcap ⟨id, ha⟩⟩
      · simp only [captureIfAsked, hp, if_neg hc]
        refine ⟨⟨.refl _ _ _, nofun⟩, .refl _ _ _, ?_⟩
        rintro - _ ⟨⟩ ⟨params', hparams, hc'⟩
        obtain rfl := Except.ok.inj (hp.symm.trans hparams)
        exact absurd hc' hc

/-- The newest mount at the target is gone. -/
structure Detached (req : UnpublishRequest) (w w' : World) : Prop where
  mounts : w'.mounts = (w.endMount (PathBuf.key ⟨req.targetPath⟩)).mounts
  nextMount : w'.nextMount = w.nextMount
  mounted : w.MountedAt (PathBuf.key ⟨req.targetPath⟩)

/-- What a call that has not unmounted anything leaves. -/
def Idle (cfg : Config) (req : UnpublishRequest) (w w' : World) : Prop :=
  Kept cfg req.volumeId w w' ∨
    w'.mounts = w.mounts ∧ w'.nextMount = w.nextMount ∧
      ¬w.fs.IsDir (PathBuf.key ⟨req.targetPath⟩)

/-- What unmounting and cleaning up does. -/
lemma detach_always (req : UnpublishRequest) (tr : List Ev) (w : World) :
    Always (env x) anything (fun _ w' _ => Idle cfg req w w' ∨ Detached req w w')
      (detach cfg req).run tr w := by
  have hclean : ∀ (w₁ : World) (tr : List Ev), Always (env x) anything
      (fun _ w' _ => w'.mounts = w₁.mounts ∧ w'.nextMount = w₁.nextMount)
      (.call (.removeDir ⟨req.targetPath⟩) fun _ =>
        .call (.removeFile (cfg.statePath req.volumeId)) fun _ => .ret (.ok ()) :
        Prog Op Resp (Except Status Unit)) tr w₁ := by
    intro w₁ tr
    refine Always.of_forall (P := fun o => ¬ChangesMounts o)
      (I := fun w' : World => w'.mounts = w₁.mounts ∧ w'.nextMount = w₁.nextMount)
      ?_ ?_ ⟨rfl, rfl⟩ tr
    · exact ⟨id, fun _ => ⟨id, fun _ => trivial⟩⟩
    · intro o c w' ho _ hw'
      obtain ⟨h1, h2⟩ := env_mounts x c w' ho
      exact ⟨h1.trans hw'.1, h2.trans hw'.2⟩
  simp only [detach, run_attempt_bind, run_request_bind]
  refine ⟨.inl (.inl (.refl _ _ _)), fun c _ => ?_⟩
  rcases env_unmount_cases x ⟨req.targetPath⟩ c w with ⟨e, h⟩ | ⟨h, hex⟩ | ⟨h, hm⟩ <;> rw [h]
  · exact ⟨.inl (.inl (.refl _ _ _)), .inl (.inl (.refl _ _ _))⟩
  · refine (hclean w _).mono fun _ w' _ hw' => .inl (.inr ⟨hw'.1, hw'.2, ?_⟩)
    exact fun hd => hex (.inl hd)
  · refine (hclean (w.endMount _) _).mono fun _ w' _ hw' => .inr ⟨hw'.1, hw'.2, hm⟩

/-- **What an unpublish does.**  It unmounts nothing, and then it keeps the publish context
unless the target is missing; or it takes the newest mount at the target away, and then, if
the publish context asks for a capture and could be read, the upper was captured and pushed
before. -/
theorem unpublish_always (req : UnpublishRequest) (w : World) :
    Always (env x) anything (fun tr w' _ => Idle cfg req w w' ∨ Detached req w w' ∧
      ∀ ctx, w.fs.read (cfg.statePath req.volumeId).key = some (contextToVec ctx) →
        AsksCapture ctx →
          (∃ e, (⟨.readFile (cfg.statePath req.volumeId), .error e⟩ : Ev) ∈ tr) ∨
            CapturedFirst x cfg req.volumeId w tr)
      (nodeUnpublishVolume cfg req).run [] w := by
  have hidle : Idle cfg req w w := .inl (.refl _ _ _)
  unfold nodeUnpublishVolume
  by_cases hid : req.volumeId = []
  · rw [if_pos hid]
    exact ⟨.inl hidle, .inl hidle⟩
  by_cases ht : req.targetPath = []
  · rw [if_neg hid, if_pos ht]
    exact ⟨.inl hidle, .inl hidle⟩
  rw [if_neg hid, if_neg ht]
  change Always _ _ _ (Prog.call (Op.readFile (cfg.statePath req.volumeId)) _) _ _
  refine ⟨.inl hidle, fun c _ => ?_⟩
  -- the rest of the call, for whatever was found in the publish context
  have hrest : ∀ (state : Option StrMap) (r : Except IoError Bytes),
      (∀ ctx, w.fs.read (cfg.statePath req.volumeId).key = some (contextToVec ctx) →
        (∃ e, r = .error e) ∨ state = some ctx) →
      Always (env x) anything (fun tr w' _ => Idle cfg req w w' ∨ Detached req w w' ∧
        ∀ ctx, w.fs.read (cfg.statePath req.volumeId).key = some (contextToVec ctx) →
          AsksCapture ctx →
            (∃ e, (⟨.readFile (cfg.statePath req.volumeId), .error e⟩ : Ev) ∈ tr) ∨
              CapturedFirst x cfg req.volumeId w tr)
        (captureIfAsked cfg req.volumeId state >>= fun _ => detach cfg req).run
        ([] ++ [⟨.readFile (cfg.statePath req.volumeId), r⟩]) w := by
    intro state r hr
    refine Always.tryBind ((captureIfAsked_always req.volumeId state _ w).extends.mono ?_)
    rintro tr w₁ res ⟨hext, hk, hcap⟩
    refine ⟨.inl (.inl hk), fun e _ => .inl (.inl hk), fun _ hres => ?_⟩
    refine (detach_always req tr w₁).extends.mono ?_
    rintro tr' w' - ⟨⟨t, rfl⟩, (hk' | ⟨h1, h2, h3⟩) | hd⟩
    · exact .inl (.inl (hk.trans hk'))
    · refine .inl (.inr ⟨h1.trans hk.mounts, h2.trans hk.nextMount, fun hdir => ?_⟩)
      exact h3 (hk.isDir _ hdir)
    · refine .inr ⟨⟨?_, hd.nextMount.trans hk.nextMount, ?_⟩, fun ctx hctx hasks => ?_⟩
      · rw [hd.mounts, World.endMount, World.endMount, hk.mounts]
      · obtain ⟨m, hm, hmt⟩ := hd.mounted
        exact ⟨m, hk.mounts ▸ hm, hmt⟩
      · rcases hr ctx hctx with ⟨e, rfl⟩ | rfl
        · obtain ⟨t', rfl⟩ := hext
          exact .inl ⟨e, by simp⟩
        · obtain ⟨t', rfl, hc⟩ := hcap hres ctx rfl hasks
          exact .inr ((hc.prepend _).append t)
  rcases env_readFile_cases x (cfg.statePath req.volumeId) c w with ⟨e, h⟩ | ⟨b, h, hb⟩ <;> rw [h]
  · exact hrest none _ fun ctx _ => .inl ⟨e, rfl⟩
  · refine hrest (contextOfSlice b) _ fun ctx hctx => .inr ?_
    rw [hb] at hctx
    rw [Option.some.inj hctx, contextOfSlice_contextToVec]

/-- The requests of a freeze. -/
inductive Captures (cfg : Config) (volumeId : Text) : Op → Prop
  | stage : Captures cfg volumeId (.createDirAll (cfg.captureStaging volumeId).parent)
  | capture : Captures cfg volumeId
      (.capture (cfg.controlSocket volumeId) (cfg.captureStaging volumeId))
  | push (targetRef digest : Text) (size : ℕ) :
      Captures cfg volumeId (.pushRevision targetRef (cfg.captureStaging volumeId) digest size)
  | unstage : Captures cfg volumeId (.removeFile (cfg.captureStaging volumeId))

/-- The requests of an unpublish. -/
inductive Unpublishes (cfg : Config) (req : UnpublishRequest) : Op → Prop
  | load : Unpublishes cfg req (.readFile (cfg.statePath req.volumeId))
  | freeze {o : Op} (h : Captures cfg req.volumeId o) : Unpublishes cfg req o
  | unmount : Unpublishes cfg req (.unmount ⟨req.targetPath⟩)
  | removeTarget : Unpublishes cfg req (.removeDir ⟨req.targetPath⟩)
  | removeState : Unpublishes cfg req (.removeFile (cfg.statePath req.volumeId))

/-- The requests of a freeze, in their order. -/
lemma freeze_forall {P : Op → Prop} {socket staging : PathBuf} {targetRef : Text}
    (hstage : P (.createDirAll staging.parent)) (hcapture : P (.capture socket staging))
    (hpush : ∀ digest size, P (.pushRevision targetRef staging digest size))
    (hunstage : P (.removeFile staging)) : Forall P (freezeAndPush socket staging targetRef).run := by
  simp only [freezeAndPush, run_request_bind, run_attempt_bind, forall_call]
  refine ⟨hstage, fun _ => ⟨hcapture, fun res => ?_⟩⟩
  cases res with
  | error e => trivial
  | ok cap =>
    refine ⟨hpush _ _, fun res => ?_⟩
    cases res with
    | error e => trivial
    | ok id => exact ⟨hunstage, fun _ => trivial⟩

/-- A capture asks for nothing but the freeze to its target. -/
lemma captureIfAsked_freeze {P : Op → Prop} (volumeId : Text) (state : Option StrMap)
    (h : ∀ ctx params targetRef, state = some ctx → PvcParams.parse ctx = .ok params →
      params.captureOnDelete = true → captureTarget volumeId ctx params = some targetRef →
      Forall P (freezeAndPush (cfg.controlSocket volumeId) (cfg.captureStaging volumeId) targetRef).run) :
    Forall P (captureIfAsked cfg volumeId state).run := by
  cases state with
  | none => trivial
  | some ctx =>
    simp only [captureIfAsked]
    split
    · trivial
    rename_i params hparams
    split
    · rename_i hask
      simp only [freezeOnUnpublish]
      split
      · trivial
      · rename_i targetRef htarget
        rw [run_within_bind]
        refine (h ctx params targetRef rfl hparams hask htarget).bind fun res => ?_
        cases res <;> trivial
    · trivial

lemma captureIfAsked_forall (volumeId : Text) (state : Option StrMap) :
    Forall (Captures cfg volumeId) (captureIfAsked cfg volumeId state).run :=
  captureIfAsked_freeze volumeId state fun _ _ targetRef _ _ _ _ =>
    freeze_forall .stage .capture (fun digest size => .push targetRef digest size) .unstage

lemma unpublish_forall (req : UnpublishRequest) :
    Forall (Unpublishes cfg req) (nodeUnpublishVolume cfg req).run := by
  unfold nodeUnpublishVolume
  split
  · trivial
  split
  · trivial
  have hrest : ∀ state, Forall (Unpublishes cfg req)
      (captureIfAsked cfg req.volumeId state >>= fun _ => detach cfg req).run := by
    intro state
    rw [ExceptT.run_bind]
    refine ((captureIfAsked_forall req.volumeId state).mono fun o ho => .freeze ho).bind fun res => ?_
    cases res with
    | error e => trivial
    | ok u =>
      simp only [detach, run_attempt_bind, run_request_bind, forall_call]
      refine ⟨.unmount, fun res => ?_⟩
      cases res with
      | error e => trivial
      | ok u => exact ⟨.removeTarget, fun _ => ⟨.removeState, fun _ => trivial⟩⟩
  refine ⟨.load, fun res => ?_⟩
  cases res with
  | error e => exact hrest none
  | ok b => exact hrest (contextOfSlice b)

/-! ### Runs of calls -/

/-- A call of the node service. -/
inductive Call
  | publish (req : PublishRequest)
  | unpublish (req : UnpublishRequest)

/-- The program of a call. -/
def Call.prog (cfg : Config) : Call → Prog Op Resp (Except Status Unit)
  | .publish req => (nodePublishVolume cfg req).run
  | .unpublish req => (nodeUnpublishVolume cfg req).run

/-- A call together with what it meets; it is dropped where the choices end. -/
structure Move where
  call : Call
  choices : List Choice

/-- The world after a call, for services made of the given programs. -/
def after (x : Ext) (prog : Call → Prog Op Resp (Except Status Unit)) (w : World) (mv : Move) :
    World :=
  (run (env x) (prog mv.call) mv.choices w).world

end NodeService

namespace Sample

open NodeService

/-- A publish of the volume that nothing interferes with. -/
def publish (target : String) (ctx : StrMap) : Move :=
  ⟨.publish ⟨volumeId, target.toList, ctx, false⟩, smooth⟩

/-- An unpublish of the volume that nothing interferes with. -/
def unpublish (target : String) : Move := ⟨.unpublish ⟨volumeId, target.toList⟩, smooth⟩

end Sample

end RspacefsCsi
