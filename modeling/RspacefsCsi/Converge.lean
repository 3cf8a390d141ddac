/-
# Unpublishing after a failure

A caller repeats an unpublish until it is OK.  In a state in which nothing is mounted at
the target the call has to come through and to clean up, whatever was interrupted before.
It does exactly when there is nothing at the target any more and, if the publish context
on disk asks for a capture, the capture can still be made (`converges_iff`): a publish that
stops between making the target and mounting leaves a directory that no unpublish gets
past, and so does an unpublish that stops between the unmount and its cleaning up.
-/
import RspacefsCsi.Unpublish

namespace RspacefsCsi

open Lib Lib.Prog

namespace NodeService

variable {x : Ext} {cfg : Config} {w : World}

/-- The call on the driver's own mounter, uninterrupted. -/
def unpublishNow (x : Ext) (cfg : Config) (mo : RspacefsMounter) (req : UnpublishRequest)
    (w : World) : World × Except Status Unit :=
  (eval (act x) (link mo.impl (nodeUnpublishVolume cfg req).run) w).2

/-- The call returns OK, and leaves neither the target nor a publish context. -/
def Converges (x : Ext) (cfg : Config) (mo : RspacefsMounter) (req : UnpublishRequest)
    (w : World) : Prop :=
  let out := unpublishNow x cfg mo req w
  out.2 = .ok () ∧ ¬out.1.ExistsAt (PathBuf.key ⟨req.targetPath⟩) ∧
    out.1.fs.read (cfg.statePath req.volumeId).key = none

/-- A capture that the publish context asks for can be made and pushed; and nothing is at
the target, unless it is the staging file, which the capture itself removes. -/
structure Clear (x : Ext) (cfg : Config) (req : UnpublishRequest) (w : World) : Prop where
  volumeId : req.volumeId ≠ []
  targetPath : req.targetPath ≠ []
  capture : ∀ ctx params, Asked cfg req.volumeId w ctx params →
    CaptureReady x cfg req.volumeId w ∧ Pushable req.volumeId ctx params
  target : w.ExistsAt (PathBuf.key ⟨req.targetPath⟩) →
    (∃ ctx params, Asked cfg req.volumeId w ctx params) ∧
    PathBuf.key ⟨req.targetPath⟩ = (cfg.captureStaging req.volumeId).key ∧
    ∀ m ∈ w.mounts, m.spec.controlSocket.key ≠ PathBuf.key ⟨req.targetPath⟩

/-! ### The target after the capture -/

/-- A capture that succeeds takes away the staging file and nothing else. -/
lemma Frozen.existsAt_iff {volumeId : Text} {w' : World} (h : Frozen cfg volumeId w w')
    (hs : ¬w.fs.IsDir (cfg.captureStaging volumeId).key) (k : Key) :
    w'.ExistsAt k ↔ w.ExistsAt k ∧ (k = (cfg.captureStaging volumeId).key →
      ∃ m ∈ w.mounts, m.spec.controlSocket.key = k) := by
  obtain ⟨fs, rfl⟩ := h.withFs
  unfold World.ExistsAt
  by_cases hk : k = (cfg.captureStaging volumeId).key
  · subst hk
    have hdir : ¬fs.IsDir (cfg.captureStaging volumeId).key := by
      rintro (h0 | h0 | h0)
      · exact hs (.inl h0)
      · exact hs (.inr (.inl h0))
      · exact absurd (h.lookup_self.symm.trans h0) nofun
    have hnone : fs.lookup (cfg.captureStaging volumeId).key = none := h.lookup_self
    simp only [World.withFs_fs, World.withFs_mounts, hdir, hnone, forall_const]
    tauto
  · have hl : fs.lookup k = w.fs.lookup k := h.lookup_ne k hk
    simp only [World.withFs_fs, World.withFs_mounts, Fs.isDir_congr hl, hl, hk, false_implies,
      and_true]

lemma Frozen.mountedAt_iff {volumeId : Text} {w' : World} (h : Frozen cfg volumeId w w')
    (k : Key) : w'.MountedAt k ↔ w.MountedAt k := by
  obtain ⟨fs, rfl⟩ := h.withFs
  rfl

/-! ### The call -/

/-- Where nothing is mounted, cleaning up succeeds exactly if nothing is at the target. -/
lemma detach_converges_iff {req : UnpublishRequest}
    (hm : ¬w.MountedAt (PathBuf.key ⟨req.targetPath⟩)) :
    ((eval (act x) (detach cfg req).run w).2.2 = .ok () ∧
      ¬(eval (act x) (detach cfg req).run w).2.1.ExistsAt (PathBuf.key ⟨req.targetPath⟩) ∧
      (eval (act x) (detach cfg req).run w).2.1.fs.read (cfg.statePath req.volumeId).key = none) ↔
    ¬w.ExistsAt (PathBuf.key ⟨req.targetPath⟩) := by
  by_cases hex : w.ExistsAt (PathBuf.key ⟨req.targetPath⟩)
  · obtain ⟨e, e', he⟩ := (@eval_detach_error x cfg) hex hm
    rw [he]
    exact ⟨fun h => absurd h.1 nofun, fun h => absurd hex h⟩
  · obtain ⟨r₁, r₂, w', he, hread, hgone⟩ := (@eval_detach_ok x cfg) (.inl hex)
    rw [he]
    exact ⟨fun _ => hex, fun _ => ⟨rfl, hgone hex, hread⟩⟩

/-- **In every state that a run of calls reaches, whatever failed or was cancelled in it, an
unpublish of a target at which nothing is mounted comes through and cleans up exactly if
the state is clear for it.** -/
theorem converges_iff (x : Ext) (cfg : Config) (mo : RspacefsMounter) (w₀ : World)
    (mvs : List Move) (req : UnpublishRequest)
    (hm : ¬(mvs.foldl (after x fun c => link mo.impl (c.prog cfg)) w₀).MountedAt
      (PathBuf.key ⟨req.targetPath⟩)) :
    Converges x cfg mo req (mvs.foldl (after x fun c => link mo.impl (c.prog cfg)) w₀) ↔
      Clear x cfg req (mvs.foldl (after x fun c => link mo.impl (c.prog cfg)) w₀) := by
  generalize mvs.foldl (after x fun c => link mo.impl (c.prog cfg)) w₀ = w at hm ⊢
  unfold Converges unpublishNow
  rw [mo.eval_link_impl]
  by_cases hid : req.volumeId = []
  · rw [nodeUnpublishVolume, if_pos hid]
    exact ⟨fun h => absurd h.1 (by rintro ⟨⟩), fun h => absurd hid h.volumeId⟩
  by_cases ht : req.targetPath = []
  · rw [nodeUnpublishVolume, if_neg hid, if_pos ht]
    exact ⟨fun h => absurd h.1 (by rintro ⟨⟩), fun h => absurd ht h.targetPath⟩
  obtain ⟨r, he⟩ := (@eval_unpublish x cfg) hid ht w
  rw [he]
  by_cases hasked : ∃ ctx params, Asked cfg req.volumeId w ctx params
  · obtain ⟨ctx, params, ha⟩ := hasked
    by_cases hok : CaptureReady x cfg req.volumeId w ∧ Pushable req.volumeId ctx params
    · -- the capture succeeds, and the rest is about the state after it
      obtain ⟨ref, cap, w', id, hc, hf⟩ := eval_captureIfAsked_ok ha hok.1 hok.2
      rw [eval_tryBind_ok hc]
      rw [detach_converges_iff (mt (hf.mountedAt_iff _).1 hm), hf.existsAt_iff hok.1.staging]
      constructor
      · intro hno
        refine ⟨hid, ht, fun ctx' params' ha' => ?_, fun hex => ⟨⟨ctx, params, ha⟩, ?_⟩⟩
        · obtain rfl := Option.some.inj (ha.stored.symm.trans ha'.stored)
          obtain rfl := Except.ok.inj (ha.parsed.symm.trans ha'.parsed)
          exact hok
        · by_contra hne
          refine hno ⟨hex, fun hk => ?_⟩
          by_contra hs
          exact hne ⟨hk, fun m hmem hmk => hs ⟨m, hmem, hmk⟩⟩
      · rintro hcl ⟨hex, hs⟩
        obtain ⟨-, hk, hno⟩ := hcl.target hex
        obtain ⟨m, hmem, hmk⟩ := hs hk
        exact hno m hmem hmk
    · obtain ⟨tr, w', e, hc, -⟩ := eval_captureIfAsked_error ha hok
      rw [eval_tryBind_error hc]
      exact ⟨fun h => absurd h.1 (by rintro ⟨⟩), fun h => absurd (h.capture ctx params ha) hok⟩
  · have hnot : ∀ ctx params, ¬Asked cfg req.volumeId w ctx params :=
      fun ctx params ha => hasked ⟨ctx, params, ha⟩
    rw [eval_tryBind_ok (eval_captureIfAsked_not hnot), detach_converges_iff hm]
    constructor
    · exact fun hex => ⟨hid, ht, fun ctx params ha => absurd ha (hnot ctx params),
        fun h => absurd h hex⟩
    · exact fun hcl hex => hasked (hcl.target hex).1

/-! ### A run that ends clear, and two that do not -/

/-- The node service on the mounter `rspacefs-mount`. -/
def sampleCalls (c : Call) : Prog Op Resp (Except Status Unit) :=
  link (RspacefsMounter.impl ⟨⟨"rspacefs-mount".toList⟩⟩) (c.prog Sample.config)

/-- A repeated unpublish, after one that nothing interfered with. -/
theorem converges_repeated :
    Converges Sample.ext Sample.config ⟨⟨"rspacefs-mount".toList⟩⟩
      ⟨Sample.volumeId, "/pods/a".toList⟩
      ([Sample.publish "/pods/a" Sample.captureContext, Sample.unpublish "/pods/a"].foldl
        (after Sample.ext sampleCalls) World.blank) := by
  refine (converges_iff Sample.ext Sample.config ⟨⟨"rspacefs-mount".toList⟩⟩ World.blank
    [Sample.publish "/pods/a" Sample.captureContext, Sample.unpublish "/pods/a"]
    ⟨Sample.volumeId, "/pods/a".toList⟩ (by decide +kernel)).2
    ⟨by decide, by decide, fun ctx params ha => ?_, fun hex => ?_⟩
  · have hnone : storedContext Sample.config Sample.volumeId
        ([Sample.publish "/pods/a" Sample.captureContext, Sample.unpublish "/pods/a"].foldl
          (after Sample.ext sampleCalls) World.blank) = none := by
      decide +kernel
    exact absurd (hnone.symm.trans ha.stored) nofun
  · exact absurd hex (by decide +kernel)

/-- A publish in which `rspacefs-mount` fails, and an unpublish that is cancelled right after
the unmount, leave a state in which nothing is mounted at the target and every unpublish
of it fails. -/
theorem not_converges :
    let w₁ := [⟨.publish ⟨Sample.volumeId, "/pods/a".toList, ∅, false⟩,
        [.go, .go, .status 1, .go]⟩].foldl (after Sample.ext sampleCalls) World.blank
    let w₂ := [Sample.publish "/pods/a" Sample.captureContext,
        ⟨.unpublish ⟨Sample.volumeId, "/pods/a".toList⟩, List.replicate 7 .go⟩].foldl
          (after Sample.ext sampleCalls) World.blank
    (¬w₁.MountedAt (PathBuf.key ⟨"/pods/a".toList⟩) ∧
      ¬Converges Sample.ext Sample.config ⟨⟨"rspacefs-mount".toList⟩⟩
        ⟨Sample.volumeId, "/pods/a".toList⟩ w₁) ∧
    ¬w₂.MountedAt (PathBuf.key ⟨"/pods/a".toList⟩) ∧
      ¬Converges Sample.ext Sample.config ⟨⟨"rspacefs-mount".toList⟩⟩
        ⟨Sample.volumeId, "/pods/a".toList⟩ w₂ := by
  refine ⟨⟨by decide +kernel, fun h => absurd h.1 (by decide +kernel)⟩, by decide +kernel,
    fun h => absurd h.1 (by decide +kernel)⟩

end NodeService

end RspacefsCsi
