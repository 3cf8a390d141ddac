/-
# Unpublishing when nothing fails

The run of `NodeUnpublishVolume` in the environment in which everything does its work, as a
function of the state it starts in: what decides it is the publish context on disk, the
daemon behind the control socket, the reference a capture would be pushed to, and what is
at the target.
-/
import RspacefsCsi.Calls
import RspacefsCsi.Controller
import RspacefsCsi.Mount

namespace RspacefsCsi

open Lib Lib.Prog

namespace NodeService

variable {x : Ext} {cfg : Config} {volumeId : Text} {w : World}

/-! ### What decides it -/

/-- The publish context on disk. -/
def storedContext (cfg : Config) (volumeId : Text) (w : World) : Option StrMap :=
  (w.fs.read (cfg.statePath volumeId).key).bind contextOfSlice

/-- The publish context on disk asks for a capture. -/
structure Asked (cfg : Config) (volumeId : Text) (w : World) (ctx : StrMap) (params : PvcParams) :
    Prop where
  stored : storedContext cfg volumeId w = some ctx
  parsed : PvcParams.parse ctx = .ok params
  capture : params.captureOnDelete = true

/-- A capture of the volume would succeed: a daemon listens on the control socket, the blob
of its upper is of a size that can be reported, and no directory is in the place of the
staging file. -/
structure CaptureReady (x : Ext) (cfg : Config) (volumeId : Text) (w : World) : Prop where
  daemon : ∃ m, w.daemon (cfg.controlSocket volumeId).key = some m ∧
    (x.pack (w.uppers m.spec.upper.key)).length < 2 ^ 64
  staging : ¬w.fs.IsDir (cfg.captureStaging volumeId).key

/-- The capture of a volume with these parameters goes to a reference that can be pushed
to. -/
def Pushable (volumeId : Text) (ctx : StrMap) (params : PvcParams) : Prop :=
  ∃ targetRef r, captureTarget volumeId ctx params = some targetRef ∧
    Reference.parse targetRef = .ok r

/-! ### The steps -/

lemma eval_loadState (volumeId : Text) (w : World) :
    ∃ r, eval (act x) (loadState cfg volumeId) w =
      ([⟨.readFile (cfg.statePath volumeId), r⟩], w, storedContext cfg volumeId w) := by
  unfold loadState storedContext
  cases h : w.fs.read (cfg.statePath volumeId).key with
  | none =>
    have hact : act x (.readFile (cfg.statePath volumeId)) w
        = (.error ⟨"No such file or directory".toList⟩, w) := by
      simp only [act, env, World.readFile, h]
    exact ⟨_, by rw [eval_call, hact]; rfl⟩
  | some b =>
    have hact : act x (.readFile (cfg.statePath volumeId)) w = (.ok b, w) := by
      simp only [act, env, World.readFile, h]
    exact ⟨_, by rw [eval_call, hact]; rfl⟩

/-- The directory of a volume with a publish context is there. -/
lemma isDir_of_stored {ctx : StrMap} (h : storedContext cfg volumeId w = some ctx) :
    w.fs.IsDir (cfg.volumeDir volumeId).key := by
  obtain ⟨b, hb, -⟩ := Option.bind_eq_some_iff.1 h
  obtain ⟨i, hi, -⟩ := Fs.read_eq_some_iff.1 hb
  have := Fs.isDir_dropLast_of_lookup hi
  rwa [Config.key_statePath, List.dropLast_concat] at this

lemma act_createDirAll {p : PathBuf} (h : w.fs.IsDir p.key) :
    act x (.createDirAll p) w = (.ok (), w) := by
  simp only [act, env, World.createDirAll, Fs.mkdirs_of_isDir h]
  rfl

/-- What a capture that succeeds leaves: the staging file is gone again. -/
structure Frozen (cfg : Config) (volumeId : Text) (w w' : World) : Prop where
  withFs : ∃ fs, w' = w.withFs fs
  lookup_self : w'.fs.lookup (cfg.captureStaging volumeId).key = none
  lookup_ne : ∀ k, k ≠ (cfg.captureStaging volumeId).key → w'.fs.lookup k = w.fs.lookup k
  read_ne : ∀ k, k ≠ (cfg.captureStaging volumeId).key → w'.fs.read k = w.fs.read k

/-- The trace of a freeze that succeeds. -/
def frozenTrace (cfg : Config) (volumeId targetRef : Text) (cap : CaptureData) (id : Text) :
    List Ev :=
  [⟨.createDirAll (cfg.captureStaging volumeId).parent, .ok ()⟩,
    ⟨.capture (cfg.controlSocket volumeId) (cfg.captureStaging volumeId), .ok cap⟩,
    ⟨.pushRevision targetRef (cfg.captureStaging volumeId) cap.digest cap.bytesCompressed, .ok id⟩,
    ⟨.removeFile (cfg.captureStaging volumeId), .ok ()⟩]

/-- The freeze succeeds if the capture does and the reference can be pushed to. -/
lemma eval_freeze_ok (hdir : w.fs.IsDir (cfg.volumeDir volumeId).key)
    (hr : CaptureReady x cfg volumeId w) {targetRef : Text} {r : Reference}
    (href : Reference.parse targetRef = .ok r) :
    ∃ cap w' id, eval (act x) (freezeAndPush (cfg.controlSocket volumeId)
      (cfg.captureStaging volumeId) targetRef).run w
        = (frozenTrace cfg volumeId targetRef cap id, w', .ok id) ∧ Frozen cfg volumeId w w' := by
  obtain ⟨m, hm, hlen⟩ := hr.daemon
  generalize hb : x.pack (w.uppers m.spec.upper.key) = b at hlen
  obtain ⟨fs, hfs⟩ : ∃ fs, w.fs.write (cfg.captureStaging volumeId).key b = some fs := by
    cases hc : w.fs.create (cfg.captureStaging volumeId).key with
    | some p => exact ⟨_, by rw [Fs.write, hc]; rfl⟩
    | none =>
      rcases Fs.create_eq_none_iff.1 hc with h | ⟨-, h⟩
      · exact absurd h hr.staging
      · rw [Config.key_captureStaging, List.dropLast_concat] at h
        exact absurd hdir h
  have hwr := Fs.write_spec hfs
  obtain ⟨i, hi, -⟩ := Fs.read_eq_some_iff.1 hwr.read_self
  obtain ⟨fs', hfs'⟩ := Fs.unlink_of_lookup hi
  have hrm := (Fs.unlink_spec hfs').1
  have hparent := act_createDirAll (x := x) (p := (cfg.captureStaging volumeId).parent)
    (by rwa [Config.key_parent_captureStaging])
  have hcap : act x (.capture (cfg.controlSocket volumeId) (cfg.captureStaging volumeId)) w
      = (.ok ⟨digestOf x.sha256 b, b.length⟩, w.withFs fs) := by
    simp only [act, env, World.capture, hm, hb, hfs, if_pos hlen]
  have hpush : ∀ d n (w : World), act x (.pushRevision targetRef (cfg.captureStaging volumeId) d n) w
      = (.ok (Reference.render r.registry r.repository d), w) := by
    intro d n w
    simp only [act, env, World.pushRevision, href]
    rfl
  have hremove : act x (.removeFile (cfg.captureStaging volumeId)) (w.withFs fs)
      = (.ok (), w.withFs fs') := by
    simp only [act, env, World.removeFile, World.withFs_fs, hfs']
    rfl
  refine ⟨⟨digestOf x.sha256 b, b.length⟩, w.withFs fs',
    Reference.render r.registry r.repository (digestOf x.sha256 b), ?_,
    ⟨⟨fs', rfl⟩, hrm.lookup_self, fun k hk => ?_, fun k hk => ?_⟩⟩
  · simp only [freezeAndPush, run_request_bind, run_attempt_bind, eval_call, hparent, hcap,
      Except.mapError, hpush, hremove]
    rfl
  · exact (hrm.lookup_ne k hk).trans (hwr.lookup_ne k hk)
  · exact (hrm.read_ne hk).trans (hwr.read_ne k hk)

/-- The freeze fails otherwise: at the capture, or at the push. -/
lemma eval_freeze_error (hdir : w.fs.IsDir (cfg.volumeDir volumeId).key) {targetRef : Text}
    (h : ¬(CaptureReady x cfg volumeId w ∧ ∃ r, Reference.parse targetRef = .ok r)) :
    ∃ r tr w' e, eval (act x) (freezeAndPush (cfg.controlSocket volumeId)
        (cfg.captureStaging volumeId) targetRef).run w
          = (⟨.createDirAll (cfg.captureStaging volumeId).parent, .ok ()⟩ ::
            ⟨.capture (cfg.controlSocket volumeId) (cfg.captureStaging volumeId), r⟩ :: tr,
            w', .error e) ∧
        (¬CaptureReady x cfg volumeId w → ∃ e, r = .error e) := by
  have hparent := act_createDirAll (x := x) (p := (cfg.captureStaging volumeId).parent)
    (by rwa [Config.key_parent_captureStaging])
  simp only [freezeAndPush, run_request_bind, run_attempt_bind, eval_call, hparent]
  rcases env_capture_cases x (cfg.controlSocket volumeId) (cfg.captureStaging volumeId) .go w
    with ⟨e, w', hc⟩ | ⟨m, fs, hm, hc, hwr, hlen⟩
  · rw [act, hc]
    exact ⟨.error e, [], w', .capture e, rfl, fun _ => ⟨e, rfl⟩⟩
  · have hready : CaptureReady x cfg volumeId w := by
      refine ⟨⟨m, hm, hlen⟩, ?_⟩
      obtain ⟨i, hi, -⟩ := Fs.read_eq_some_iff.1 hwr.read_self
      exact fun hd => Fs.not_isDir_of_lookup hi ((hwr.isDir _).2 hd)
    rw [act, hc]
    cases href : Reference.parse targetRef with
    | ok r => exact absurd ⟨hready, r, href⟩ h
    | error e =>
      have hpush : ∀ d n (w : World),
          act x (.pushRevision targetRef (cfg.captureStaging volumeId) d n) w = (.error e, w) := by
        intro d n w
        simp only [act, env, World.pushRevision, href]
        rfl
      generalize x.pack (w.uppers m.spec.upper.key) = b
      refine ⟨.ok ⟨digestOf x.sha256 b, b.length⟩, [⟨.pushRevision targetRef
        (cfg.captureStaging volumeId) (digestOf x.sha256 b) b.length, .error e⟩],
        w.withFs fs, .push e, ?_, fun hn => absurd hready hn⟩
      simp only [Except.mapError, eval_call, hpush]
      rfl

/-- Nothing is captured unless the publish context asks for it. -/
lemma eval_captureIfAsked_not (h : ∀ ctx params, ¬Asked cfg volumeId w ctx params) :
    eval (act x) (captureIfAsked cfg volumeId (storedContext cfg volumeId w)).run w
      = ([], w, .ok ()) := by
  cases hs : storedContext cfg volumeId w with
  | none => rfl
  | some ctx =>
    cases hp : PvcParams.parse ctx with
    | error e => simp only [captureIfAsked, hp]; rfl
    | ok params =>
      have hc : ¬params.captureOnDelete = true := fun hc => h ctx params ⟨hs, hp, hc⟩
      simp only [captureIfAsked, hp, if_neg hc]
      rfl

/-- A capture that is asked for and can be made and pushed. -/
lemma eval_captureIfAsked_ok {ctx : StrMap} {params : PvcParams}
    (ha : Asked cfg volumeId w ctx params) (hr : CaptureReady x cfg volumeId w)
    (hp : Pushable volumeId ctx params) :
    ∃ targetRef cap w' id,
      eval (act x) (captureIfAsked cfg volumeId (storedContext cfg volumeId w)).run w
        = (frozenTrace cfg volumeId targetRef cap id, w', .ok ()) ∧ Frozen cfg volumeId w w' := by
  obtain ⟨targetRef, r, ht, href⟩ := hp
  obtain ⟨cap, w', id, he, hf⟩ := eval_freeze_ok (isDir_of_stored ha.stored) hr href
  refine ⟨targetRef, cap, w', id, ?_, hf⟩
  simp only [captureIfAsked, ha.stored, ha.parsed, if_pos ha.capture, freezeOnUnpublish, ht,
    run_within_bind, eval_bind, he]
  rfl

/-- A capture that is asked for and cannot be made or pushed. -/
lemma eval_captureIfAsked_error {ctx : StrMap} {params : PvcParams}
    (ha : Asked cfg volumeId w ctx params)
    (h : ¬(CaptureReady x cfg volumeId w ∧ Pushable volumeId ctx params)) :
    ∃ tr w' e, eval (act x) (captureIfAsked cfg volumeId (storedContext cfg volumeId w)).run w
        = (tr, w', .error e) ∧
      (Pushable volumeId ctx params → ∃ e, (⟨.capture (cfg.controlSocket volumeId)
        (cfg.captureStaging volumeId), .error e⟩ : Ev) ∈ tr) := by
  cases ht : captureTarget volumeId ctx params with
  | none =>
    refine ⟨[], w, _, by simp only [captureIfAsked, ha.stored, ha.parsed, if_pos ha.capture,
      freezeOnUnpublish, ht]; rfl, ?_⟩
    rintro ⟨targetRef, r, ht', -⟩
    exact absurd (ht.symm.trans ht') not_returned
  | some targetRef =>
    have h' : ¬(CaptureReady x cfg volumeId w ∧ ∃ r, Reference.parse targetRef = .ok r) := by
      rintro ⟨hr, r, href⟩
      exact h ⟨hr, targetRef, r, ht, href⟩
    obtain ⟨r, tr, w', e, he, hr⟩ := eval_freeze_error (isDir_of_stored ha.stored) h'
    refine ⟨_, w', ⟨.internal, .captureOnDelete e⟩, by
      simp only [captureIfAsked, ha.stored, ha.parsed, if_pos ha.capture, freezeOnUnpublish, ht,
        run_within_bind, eval_bind, he]; rfl, fun hp => ?_⟩
    obtain ⟨e', rfl⟩ := hr fun hready => h ⟨hready, hp⟩
    exact ⟨e', by simp⟩

/-- Removing a file makes nothing appear. -/
lemma not_existsAt_removeFile {p : PathBuf} {k : Key} (h : ¬w.ExistsAt k) :
    ¬(act x (.removeFile p) w).2.ExistsAt k := by
  simp only [act, env, World.removeFile]
  cases hu : w.fs.unlink p.key with
  | none => exact h
  | some fs =>
    have hrm := (Fs.unlink_spec hu).1
    have hlookup : fs.lookup k = none ∨ fs.lookup k = w.fs.lookup k := by
      by_cases hk : k = p.key
      · exact .inl (hk ▸ hrm.lookup_self)
      · exact .inr (hrm.lookup_ne k hk)
    rintro (hd | hl | hs)
    · rcases hlookup with hn | he
      · rcases hd with hd | hd | hd
        · exact h (.inl (.inl hd))
        · exact h (.inl (.inr (.inl hd)))
        · exact absurd (hn.symm.trans hd) not_returned
      · exact h (.inl ((Fs.isDir_congr he).1 hd))
    · rcases hlookup with hn | he
      · exact hl hn
      · exact h (.inr (.inl (he ▸ hl)))
    · exact h (.inr (.inr hs))

/-- Unmounting succeeds if something is mounted at the target, or nothing is there; the
publish context is then gone, and a target that was not there is still not there. -/
lemma eval_detach_ok {req : UnpublishRequest}
    (h : ¬w.ExistsAt (PathBuf.key ⟨req.targetPath⟩) ∨ w.MountedAt (PathBuf.key ⟨req.targetPath⟩)) :
    ∃ r₁ r₂ w', eval (act x) (detach cfg req).run w = ([⟨.unmount ⟨req.targetPath⟩, .ok ()⟩,
        ⟨.removeDir ⟨req.targetPath⟩, r₁⟩, ⟨.removeFile (cfg.statePath req.volumeId), r₂⟩],
        w', .ok ()) ∧
      w'.fs.read (cfg.statePath req.volumeId).key = none ∧
      (¬w.ExistsAt (PathBuf.key ⟨req.targetPath⟩) → ¬w'.ExistsAt (PathBuf.key ⟨req.targetPath⟩)) := by
  obtain ⟨w₁, hact, hw₁⟩ : ∃ w₁, act x (.unmount ⟨req.targetPath⟩) w = (.ok (), w₁) ∧
      (¬w.ExistsAt (PathBuf.key ⟨req.targetPath⟩) → w₁ = w) := by
    by_cases hex : w.ExistsAt (PathBuf.key ⟨req.targetPath⟩)
    · have hm := h.resolve_left (not_not_intro hex)
      exact ⟨w.endMount (PathBuf.key ⟨req.targetPath⟩), by simp [act, env, World.unmount, hex, hm],
        fun hn => absurd hex hn⟩
    · exact ⟨w, by simp [act, env, World.unmount, hex], fun _ => rfl⟩
  generalize hrm : act x (.removeDir ⟨req.targetPath⟩) w₁ = rw₂
  obtain ⟨r₁, w₂⟩ := rw₂
  have hw₂ : ¬w.ExistsAt (PathBuf.key ⟨req.targetPath⟩) → w₂ = w := by
    intro hex
    have hnone : w.fs.lookup (PathBuf.key ⟨req.targetPath⟩) = none := by
      by_contra hne
      exact hex (.inr (.inl hne))
    have hrmdir : w.fs.rmdir (PathBuf.key ⟨req.targetPath⟩) = none := by
      rw [Fs.rmdir, dif_neg]
      rintro ⟨hd, -⟩
      exact absurd (hnone.symm.trans hd) not_returned
    rw [hw₁ hex] at hrm
    simp only [act, env, World.removeDir, hrmdir, ite_self] at hrm
    exact (Prod.mk.inj hrm).2.symm
  have hread : (act x (.removeFile (cfg.statePath req.volumeId)) w₂).2.fs.read
      (cfg.statePath req.volumeId).key = none := by
    simp only [act, env, World.removeFile]
    cases hu : w₂.fs.unlink (cfg.statePath req.volumeId).key with
    | some fs => exact (Fs.unlink_spec hu).1.read_self
    | none =>
      by_contra hne
      obtain ⟨b, hb⟩ := Option.ne_none_iff_exists'.1 hne
      obtain ⟨i, hi, -⟩ := Fs.read_eq_some_iff.1 hb
      obtain ⟨fs, hfs⟩ := Fs.unlink_of_lookup hi
      exact absurd (hu.symm.trans hfs) not_returned
  refine ⟨r₁, (act x (.removeFile (cfg.statePath req.volumeId)) w₂).1, _, ?_, hread, fun hex => ?_⟩
  · simp only [detach, run_attempt_bind, run_request_bind, eval_call, hact, Except.mapError, hrm]
    rfl
  · rw [hw₂ hex]
    exact not_existsAt_removeFile hex

/-- Unmounting fails if something is at the target and nothing is mounted there. -/
lemma eval_detach_error {req : UnpublishRequest}
    (hex : w.ExistsAt (PathBuf.key ⟨req.targetPath⟩))
    (hm : ¬w.MountedAt (PathBuf.key ⟨req.targetPath⟩)) :
    ∃ e e', eval (act x) (detach cfg req).run w
      = ([⟨.unmount ⟨req.targetPath⟩, .error e⟩], w, .error e') := by
  have hact : act x (.unmount ⟨req.targetPath⟩) w
      = (.error (.unmountFailed req.targetPath), w) := by
    simp [act, env, World.unmount, hex, hm]
  refine ⟨.unmountFailed req.targetPath, ⟨.internal, .unmount (.unmountFailed req.targetPath)⟩, ?_⟩
  simp only [detach, run_attempt_bind, eval_call, hact]
  rfl

/-- The call, in terms of its steps. -/
lemma eval_unpublish {req : UnpublishRequest} (hid : req.volumeId ≠ []) (ht : req.targetPath ≠ [])
    (w : World) :
    ∃ r, eval (act x) (nodeUnpublishVolume cfg req).run w =
      (⟨.readFile (cfg.statePath req.volumeId), r⟩ ::
        (eval (act x) (captureIfAsked cfg req.volumeId (storedContext cfg req.volumeId w) >>=
          fun _ => detach cfg req).run w).1,
        (eval (act x) (captureIfAsked cfg req.volumeId (storedContext cfg req.volumeId w) >>=
          fun _ => detach cfg req).run w).2) := by
  obtain ⟨r, hr⟩ := @eval_loadState x cfg req.volumeId w
  refine ⟨r, ?_⟩
  have hlift : eval (act x) (ExceptT.run (ExceptT.lift (loadState cfg req.volumeId) :
      Handler Status (Option StrMap))) w =
        ([⟨.readFile (cfg.statePath req.volumeId), r⟩], w,
          .ok (storedContext cfg req.volumeId w)) := by
    rw [ExceptT.run_lift, map_eq_pure_bind, eval_bind, hr]
    rfl
  rw [nodeUnpublishVolume, if_neg hid, if_neg ht, eval_tryBind_ok hlift]
  rfl

end NodeService

end RspacefsCsi
