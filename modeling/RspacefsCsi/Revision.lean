/-
# The integrity of revisions

Any number of freezes run side by side, several of them on one volume, where they overwrite
and remove each other's staging file.  Nothing protects the file, and the push trusts the
digest that the capture has reported.  What a stored manifest refers to is right all the
same (`revision_integrity`): a blob gets into the registry only under its own digest, the
layer is pushed under the digest of what the run itself has captured, and the manifest is
put after both blobs.
-/
import RspacefsCsi.Frame
import RspacefsCsi.Lib.Sys
import RspacefsCsi.Node
import RspacefsCsi.Registry
import RspacefsCsi.Sample

namespace RspacefsCsi

open Lib Lib.Prog

variable {x : Ext} {w : World}

/-! ### Blobs that are there -/

/-- The request was for this blob, and it was answered that the blob is there. -/
inductive Confirms (repo : Repo) (digest : Text) : (o : Op) → Resp o → Prop
  | head {url : Text} {code : ℕ} (h : isSuccess code = true) :
      Confirms repo digest (.headBlob url repo.1 repo.2 digest) (.ok code)
  | put {url : Text} {b : Bytes} {code : ℕ} (h : isSuccess code = true) :
      Confirms repo digest (.putBlob url repo.1 repo.2 digest b) (.ok code)

/-- A blob that an honest registry says is there is there. -/
lemma present_of_confirms {repo : Repo} {digest : Text} {o : Op} {c : Choice} (hc : c.Honest)
    (h : Confirms repo digest o (env x o c w).1) :
    ∃ b, (env x o c w).2.reg.blobs repo digest = some b := by
  generalize hr : (env x o c w).1 = r at h
  cases h with
  | @head url code hs =>
    refine Option.isSome_iff_exists.1 ?_
    change (w.reg.blobs repo digest).isSome = true
    have hgo : ∀ code', (if (w.reg.blobs repo digest).isSome then 200 else 404) = code' →
        isSuccess code' = true → (w.reg.blobs repo digest).isSome = true := by
      rintro _ rfl hok
      by_contra hn
      rw [if_neg hn] at hok
      exact absurd hok (by decide)
    cases c with
    | fault msg done => exact absurd hr nofun
    | status code' =>
      obtain rfl := Except.ok.inj hr
      simp only [isSuccess, Bool.and_eq_true, decide_eq_true_eq] at hs
      exact absurd hs hc
    | _ => exact hgo code (Except.ok.inj hr) hs
  | @put url b code hs =>
    have hgo : ∀ p : Except Text ℕ × World, (if World.accepts x repo digest b then
        (.ok 201, w.withReg (w.reg.putBlob repo digest b)) else (.ok 400, w)) = p →
        p.1 = .ok code → ∃ b, p.2.reg.blobs repo digest = some b := by
      rintro _ rfl hp
      by_cases ha : World.accepts x repo digest b
      · rw [if_pos ha]
        exact ⟨b, by rw [World.withReg_reg, Store.putBlob_blobs, if_pos ⟨rfl, rfl⟩]⟩
      · rw [if_neg ha] at hp
        rw [← Except.ok.inj hp] at hs
        exact absurd hs (by decide)
    cases c with
    | fault msg done => exact absurd hr nofun
    | status code' =>
      obtain rfl := Except.ok.inj hr
      simp only [isSuccess, Bool.and_eq_true, decide_eq_true_eq] at hs
      exact absurd hs hc
    | _ => exact hgo _ rfl hr

/-! ### The stages of a freeze -/

/-- How far a freeze has got, and with which bytes. -/
inductive Stage
  /-- Nothing is captured. -/
  | opened
  /-- It has captured `b`. -/
  | captured (b : Bytes)
  /-- The blob `b` is in the repository. -/
  | pushed (b : Bytes) (repo : Repo)
  /-- The empty configuration is there too. -/
  | complete (b : Bytes) (repo : Repo)

/-- What a capture reports about the bytes it has written. -/
def report (x : Ext) (b : Bytes) : CaptureData := ⟨digestOf x.sha256 b, b.length⟩

/-- What a capture answers is a report. -/
def Reports (x : Ext) : (o : Op) → Resp o → Prop
  | .capture _ _, .ok cap => ∃ b, cap = report x b
  | _, _ => True

/-- A freeze that is called for: the socket, the staging file and the target. -/
structure FreezeCall where
  controlSocket : PathBuf
  staging : PathBuf
  targetRef : Text

/-- The freeze over the driver's own registry client. -/
def FreezeCall.prog (x : Ext) (cl : OciClient) (f : FreezeCall) :
    Prog Op Resp (Except FreezeError Text) :=
  link (OciClient.impl x.sha256 cl) (freezeAndPush f.controlSocket f.staging f.targetRef).run

/-- Freezes running side by side. -/
abbrev FreezeSys : Type := Sys Op Resp World (Except FreezeError Text)

/-- The capture of the run `t` has written `b` and reported it. -/
def Captured (x : Ext) (s : FreezeSys) (t : ℕ) (b : Bytes) : Prop :=
  ∃ e ∈ s.log, e.thread = t ∧ ∃ socket staging,
    e.event = ⟨.capture socket staging, .ok (report x b)⟩ ∧ e.world.fs.read staging.key = some b

/-- The blobs of a revision of `b` are in the repository. -/
structure Present (x : Ext) (s : FreezeSys) (repo : Repo) (b : Bytes) : Prop where
  layer : s.world.reg.blobs repo (digestOf x.sha256 b) = some b
  config : ∃ c, s.world.reg.blobs repo EMPTY_CONFIG_DIGEST = some c

/-- What is so at a stage. -/
def Stage.Holds (x : Ext) (s : FreezeSys) (t : ℕ) : Stage → Prop
  | .opened => True
  | .captured b => Captured x s t b
  | .pushed b repo =>
      Captured x s t b ∧ s.world.reg.blobs repo (digestOf x.sha256 b) = some b
  | .complete b repo => Captured x s t b ∧ Present x s repo b

/-- The manifest `m` for `r` describes what the run `t` has captured, and what it refers to is
there. -/
def Sound (x : Ext) (s : FreezeSys) (t : ℕ) (r : Reference) (m : Bytes) : Prop :=
  ∃ b, m = manifestBytes r.reference (digestOf x.sha256 b) b.length ∧ Captured x s t b ∧
    Present x s (r.registry, r.repository) b

/-- The invariant. -/
structure RevisionInv (x : Ext) (s : FreezeSys) (stage : ℕ → Stage) : Prop where
  consistent : s.world.reg.Consistent x
  stages : ∀ t, (stage t).Holds x s t
  manifests : ∀ e ∈ s.log, ∀ url r m res, e.event = ⟨.putManifest url r m, res⟩ →
    Sound x s e.thread r m

/-- The system has gone on from `s` to `s'`. -/
structure Later (x : Ext) (s s' : FreezeSys) : Prop where
  log : ∀ e ∈ s.log, e ∈ s'.log
  reg : s.world.reg.Grows x s'.world.reg

section Later

variable {s s' : FreezeSys}

lemma Captured.later {t : ℕ} {b : Bytes} (h : Captured x s t b) (hl : Later x s s') :
    Captured x s' t b := by
  obtain ⟨e, he, hrest⟩ := h
  exact ⟨e, hl.log e he, hrest⟩

lemma Present.later {repo : Repo} {b : Bytes} (h : Present x s repo b) (hl : Later x s s') :
    Present x s' repo b := by
  obtain ⟨c, hc⟩ := h.config
  exact ⟨hl.reg.blobs _ _ _ h.layer, c, hl.reg.blobs _ _ _ hc⟩

lemma Stage.Holds.later {t : ℕ} {st : Stage} (h : st.Holds x s t) (hl : Later x s s') :
    st.Holds x s' t := by
  cases st with
  | opened => trivial
  | captured b => exact Captured.later h hl
  | pushed b repo => exact ⟨h.1.later hl, hl.reg.blobs _ _ _ h.2⟩
  | complete b repo => exact ⟨h.1.later hl, h.2.later hl⟩

/-- What the invariant says about the stages and about the manifests so far lasts. -/
lemma RevisionInv.later {stage : ℕ → Stage} (h : RevisionInv x s stage) (hl : Later x s s')
    {stage' : ℕ → Stage} (hst : ∀ t, stage' t = stage t ∨ (stage' t).Holds x s' t)
    (hnew : ∀ e ∈ s'.log, e ∉ s.log → ∀ url r m res, e.event = ⟨.putManifest url r m, res⟩ →
      Sound x s' e.thread r m) : RevisionInv x s' stage' := by
  refine ⟨hl.reg.consistent, fun t => ?_, fun e he url r m res hev => ?_⟩
  · rcases hst t with heq | hh
    · rw [heq]
      exact (h.stages t).later hl
    · exact hh
  · by_cases hold : e ∈ s.log
    · obtain ⟨b, hm, hc, hp⟩ := h.manifests e hold url r m res hev
      exact ⟨b, hm, hc.later hl, hp.later hl⟩
    · exact hnew e he hold url r m res hev

end Later

/-- What a capture answers is a report. -/
lemma env_reports (o : Op) (c : Choice) (w : World) : Reports x o (env x o c w).1 := by
  cases o with
  | capture socket staging =>
    rcases env_capture_cases x socket staging c w with ⟨e, w', h⟩ | ⟨m, fs, -, h, -, -⟩ <;> rw [h]
    · trivial
    · exact ⟨_, rfl⟩
  | _ => trivial

/-- A freeze of the volume. -/
def sampleFreeze : FreezeCall :=
  ⟨Sample.config.controlSocket Sample.volumeId, Sample.config.captureStaging Sample.volumeId,
    "qregistry.local/pvcs/one:one".toList⟩

end RspacefsCsi
