/-
# A snapshot taken twice

`CreateSnapshot` is named by its caller so that it can be repeated when a reply is lost.  The
driver keeps no record of the snapshots it has taken: every call captures the upper as it is
and puts the manifest under the tag made from the name.  A repeated call gives the same
snapshot, and leaves the tag alone, exactly when the volume is still mounted, its upper is
still the one that was captured, and the tag still is what the first call has made it
(`snapshot_idempotent_iff`).
-/
import RspacefsCsi.Controller
import RspacefsCsi.Push

namespace RspacefsCsi

open Lib Lib.Prog

namespace ControllerService

variable {x : Ext} {cl : OciClient} {cfg : Config} {req : CreateSnapshotRequest}

/-- `CreateSnapshot` over the driver's own registry client. -/
def snapshotProg (x : Ext) (cl : OciClient) (cfg : Config) (req : CreateSnapshotRequest) :
    Prog Op Resp (Except Status Snapshot) :=
  link (OciClient.impl x.sha256 cl) (createSnapshot cfg req).run

/-- The reference a snapshot is pushed to. -/
def snapshotTag (cfg : Config) (req : CreateSnapshotRequest) : Option Reference :=
  match snapshotTarget cfg req.parameters req.sourceVolumeId req.name with
  | .ok targetRef => (Reference.parse targetRef).toOption
  | .error _ => none

/-- The manifest the tag of a snapshot resolves to. -/
def tagContent (cfg : Config) (req : CreateSnapshotRequest) (reg : Store) : Option Bytes :=
  (snapshotTag cfg req).bind fun r => reg.manifests (r.registry, r.repository) r.reference

/-- The answer to a snapshot request when the freeze has ended. -/
def snapshotAnswer (req : CreateSnapshotRequest) : Except FreezeError Text → Except Status Snapshot
  | .ok id => .ok ⟨id, req.sourceVolumeId⟩
  | .error e => .error ⟨.internal, .snapshot e⟩

/-- The requests of a snapshot that is well formed. -/
lemma snapshotProg_eq (hid : req.sourceVolumeId ≠ []) (hname : req.name ≠ []) {targetRef : Text}
    (ht : snapshotTarget cfg req.parameters req.sourceVolumeId req.name = .ok targetRef) :
    snapshotProg x cl cfg req =
      .call (.pathExists (cfg.controlSocket req.sourceVolumeId)) fun there : Bool =>
        if there then (volumeFreeze cfg req.sourceVolumeId targetRef).prog x cl >>= fun r =>
          .ret (snapshotAnswer req r)
        else .ret (.error ⟨.failedPrecondition, .notMounted req.sourceVolumeId⟩) := by
  unfold snapshotProg createSnapshot
  rw [if_neg hid, if_neg hname, ht, run_require_bind]
  simp only [run_request_bind]
  change Prog.call _ (fun _ => _) = _
  congr 1
  funext there
  cases there with
  | false => rfl
  | true =>
    change link _ (ExceptT.run (within _ _ >>= _)) = _
    rw [run_within_bind, link_bind]
    change (volumeFreeze cfg req.sourceVolumeId targetRef).prog x cl >>= _ = _ >>= _
    congr 1
    funext r
    cases r <;> rfl

/-- A snapshot that succeeds is well formed. -/
lemma snapshot_cases : (∃ e, snapshotProg x cl cfg req = .ret (.error e)) ∨
    req.sourceVolumeId ≠ [] ∧ req.name ≠ [] ∧
      ∃ targetRef, snapshotTarget cfg req.parameters req.sourceVolumeId req.name = .ok targetRef := by
  unfold snapshotProg createSnapshot
  by_cases hid : req.sourceVolumeId = []
  · rw [if_pos hid]
    exact .inl ⟨_, rfl⟩
  by_cases hname : req.name = []
  · rw [if_neg hid, if_pos hname]
    exact .inl ⟨_, rfl⟩
  rw [if_neg hid, if_neg hname, run_require_bind]
  cases ht : snapshotTarget cfg req.parameters req.sourceVolumeId req.name with
  | error e => exact .inl ⟨_, rfl⟩
  | ok targetRef => exact .inr ⟨hid, hname, targetRef, rfl⟩

/-- A snapshot that succeeds has pushed what the daemon of the volume has captured. -/
lemma snapshot_pushed (hx : Function.Injective x.sha256) (w : World) :
    Always (env x) Choice.Honest (fun _ w' res => ∀ s, res = some (.ok s) →
      ∃ targetRef r b, snapshotTarget cfg req.parameters req.sourceVolumeId req.name = .ok targetRef ∧
        Froze x (volumeFreeze cfg req.sourceVolumeId targetRef) w r b w' ∧
        s = ⟨revisionId x r b, req.sourceVolumeId⟩) (snapshotProg x cl cfg req) [] w := by
  rcases @snapshot_cases x cl cfg req with
    ⟨e, he⟩ | ⟨hid, hname, targetRef, ht⟩
  · rw [he]
    exact ⟨nofun, nofun⟩
  rw [snapshotProg_eq hid hname ht]
  refine ⟨nofun, fun c _ => ?_⟩
  obtain ⟨there, hthere⟩ : ∃ there, env x (.pathExists (cfg.controlSocket req.sourceVolumeId)) c w
    = (there, w) := ⟨_, rfl⟩
  rw [hthere]
  cases there with
  | false => exact ⟨nofun, nofun⟩
  | true =>
    simp only [if_true]
    refine Always.bind ((freeze_pushed hx _ _ w).mono fun tr w' res h => ⟨nofun, ?_⟩)
    rintro r rfl
    refine ⟨nofun, fun s hs => ?_⟩
    cases r with
    | error e => exact absurd hs nofun
    | ok id =>
      obtain ⟨r, b, hfroze, rfl⟩ := h id rfl
      exact ⟨targetRef, r, b, ht, hfroze, (Except.ok.inj (Option.some.inj hs)).symm⟩

/-- The tag of a snapshot that was pushed. -/
lemma tagContent_of_froze {targetRef : Text}
    (ht : snapshotTarget cfg req.parameters req.sourceVolumeId req.name = .ok targetRef)
    {w : World} {r : Reference} {b : Bytes} {w' : World}
    (h : Froze x (volumeFreeze cfg req.sourceVolumeId targetRef) w r b w') :
    tagContent cfg req w'.reg = some (revisionOf x r b) := by
  have htag : snapshotTag cfg req = some r := by
    simp only [snapshotTag, ht]
    rw [show Reference.parse targetRef = .ok r from h.target]
    rfl
  rw [tagContent, htag]
  exact h.pushed.tag

/-- A snapshot of a mounted volume. -/
lemma eval_snapshot (hid : req.sourceVolumeId ≠ []) (hname : req.name ≠ []) {targetRef : Text}
    (ht : snapshotTarget cfg req.parameters req.sourceVolumeId req.name = .ok targetRef)
    {w : World} :
    (eval (act x) (snapshotProg x cl cfg req) w).2.2 =
      if w.ExistsAt (cfg.controlSocket req.sourceVolumeId).key then
        snapshotAnswer req (eval (act x)
          ((volumeFreeze cfg req.sourceVolumeId targetRef).prog x cl) w).2.2
      else .error ⟨.failedPrecondition, .notMounted req.sourceVolumeId⟩ := by
  have hact : act x (.pathExists (cfg.controlSocket req.sourceVolumeId)) w
      = (decide (w.ExistsAt (cfg.controlSocket req.sourceVolumeId).key), w) := rfl
  rw [snapshotProg_eq hid hname ht, eval_call, hact]
  by_cases hex : w.ExistsAt (cfg.controlSocket req.sourceVolumeId).key
  · simp only [hex, decide_true, if_true, eval_bind, eval_ret]
  · simp only [hex, decide_false, Bool.false_eq_true, if_false, eval_ret]

/-! ### What happens between two snapshots -/

/-- What happens on the node and in the registries: a program of the driver runs, to its end or
not, or something else changes the world. -/
inductive Activity
  | call (p : Prog Op Resp Unit) (choices : List Choice)
  | other (f : World → World)

/-- The world after it. -/
def afterActivity (x : Ext) (w : World) : Activity → World
  | .call p choices => (run (env x) p choices w).world
  | .other f => f w

/-- The run of a snapshot request. -/
def snapshotRun (x : Ext) (cl : OciClient) (cfg : Config) (req : CreateSnapshotRequest)
    (cs : List Choice) (w : World) : Outcome Op Resp World (Except Status Snapshot) :=
  run (env x) (snapshotProg x cl cfg req) cs w

/-- **When a snapshot can be repeated.**  A snapshot request has returned the snapshot `s`;
anything has happened since.  The same request, with nothing in its way, returns `s` again
and leaves what its tag resolves to as it is, if and only if the staging file can be made, the
daemon of the volume still listens and its upper is packed to the bytes it was packed to
before the first request, and the tag resolves to what it resolved to after that. -/
theorem snapshot_idempotent_iff (x : Ext) (hx : Function.Injective x.sha256)
    (hempty : digestOf x.sha256 EMPTY_CONFIG_BYTES = EMPTY_CONFIG_DIGEST) (cl : OciClient)
    (cfg : Config) (req : CreateSnapshotRequest) {w₁ : World} {cs : List Choice}
    (hcs : ∀ c ∈ cs, c.Honest) {s : Snapshot}
    (h₁ : (snapshotRun x cl cfg req cs w₁).result = some (.ok s)) (acts : List Activity) :
    let w₂ := acts.foldl (afterActivity x) (snapshotRun x cl cfg req cs w₁).world
    let again := eval (act x) (snapshotProg x cl cfg req) w₂
    (again.2.2 = .ok s ∧ tagContent cfg req again.2.1.reg = tagContent cfg req w₂.reg) ↔
      Stageable cfg req.sourceVolumeId w₂ ∧
        captureOf x (cfg.controlSocket req.sourceVolumeId) w₂
          = captureOf x (cfg.controlSocket req.sourceVolumeId) w₁ ∧
        tagContent cfg req w₂.reg
          = tagContent cfg req (snapshotRun x cl cfg req cs w₁).world.reg := by
  intro w₂ again
  have hwf := @snapshot_cases x cl cfg req
  rcases hwf with ⟨e, he⟩ | ⟨hid, hname, targetRef, ht⟩
  · rw [snapshotRun, he] at h₁
    cases cs with
    | nil => exact absurd h₁ nofun
    | cons c cs => exact absurd h₁ nofun
  obtain ⟨t₁, r₁, b₁, ht₁, hf₁, rfl⟩ := run_of_always ((@snapshot_pushed _ cl) hx w₁) cs hcs s h₁
  obtain rfl := Except.ok.inj (ht.symm.trans ht₁)
  have hagain := (@eval_of_always _ _ _ _ _ _ _ _ (act x) .go) (fun _ _ => rfl) trivial
    (@snapshot_pushed _ cl cfg req hx w₂)
  have heval := (@eval_snapshot x cl) (w := w₂) hid hname ht
  have htag₁ : tagContent cfg req (snapshotRun x cl cfg req cs w₁).world.reg
      = some (revisionOf x r₁ b₁) := tagContent_of_froze ht hf₁
  have hcap₁ : captureOf x (cfg.controlSocket req.sourceVolumeId) w₁ = some b₁ := hf₁.captured
  rw [htag₁, hcap₁]
  constructor
  · rintro ⟨hres, htag⟩
    obtain ⟨t₂, r₂, b₂, ht₂, hf₂, hs₂⟩ := hagain _ (congrArg some hres)
    obtain rfl := Except.ok.inj (ht.symm.trans ht₂)
    obtain rfl := Except.ok.inj (hf₁.target.symm.trans hf₂.target)
    obtain rfl := revisionId_inj hx (congrArg Snapshot.snapshotId hs₂)
    refine ⟨?_, hf₂.captured, htag.symm.trans (tagContent_of_froze ht hf₂)⟩
    -- the freeze of the repeated request has succeeded
    rw [heval] at hres
    by_cases hex : w₂.ExistsAt (cfg.controlSocket req.sourceVolumeId).key
    · rw [if_pos hex] at hres
      cases hfr : (eval (act x) ((volumeFreeze cfg req.sourceVolumeId targetRef).prog x cl) w₂).2.2 with
      | error e =>
        rw [hfr] at hres
        exact absurd hres nofun
      | ok id => exact stageable_of_eval hfr
    · rw [if_neg hex] at hres
      exact absurd hres nofun
  · rintro ⟨hstage, hcap, htag⟩
    obtain ⟨tr, w', hfr⟩ := (@eval_freeze_pushed _ cl) hempty hstage hcap hf₁.size hf₁.target
      hf₁.pushed.accepted
    have hex : w₂.ExistsAt (cfg.controlSocket req.sourceVolumeId).key := by
      obtain ⟨m, hm, -⟩ := Option.map_eq_some_iff.1 hcap
      exact .inr (.inr ⟨m, List.mem_of_find?_eq_some hm, by simpa using List.find?_some hm⟩)
    have hres : again.2.2 = .ok ⟨revisionId x r₁ b₁, req.sourceVolumeId⟩ := by
      change (eval (act x) (snapshotProg x cl cfg req) w₂).2.2 = _
      rw [heval, if_pos hex]
      exact congrArg (snapshotAnswer req) (congrArg (fun out => out.2.2) hfr)
    refine ⟨hres, ?_⟩
    obtain ⟨t₂, r₂, b₂, ht₂, hf₂, hs₂⟩ := hagain _ (congrArg some hres)
    obtain rfl := Except.ok.inj (ht.symm.trans ht₂)
    obtain rfl := Except.ok.inj (hf₁.target.symm.trans hf₂.target)
    obtain rfl := revisionId_inj hx (congrArg Snapshot.snapshotId hs₂)
    exact (tagContent_of_froze ht hf₂).trans htag.symm

/-! ### A volume that is written to between two snapshots -/

/-- A request for a snapshot of the volume. -/
def sampleSnapshot : CreateSnapshotRequest :=
  ⟨Sample.volumeId, "one".toList,
    (∅ : StrMap).insert CAPTURE_REPO "qregistry.local/pvcs/one".toList⟩

/-- The volume mounted, with an upper. -/
def sampleMounted (x : Ext) (upper : Tree) : World :=
  (World.blank.withUppers fun _ => upper).startMount x (NodeService.mountSpec Sample.config
    ⟨Sample.volumeId, "/pods/a".toList, ∅, false⟩ ⟨[], none, none, none, false, none⟩ [])

/-- As many successful answers as a snapshot can ask for. -/
def snapshotChoices : List Choice := List.replicate 14 .go

/-- The snapshot of the upper with one file. -/
def noteSnapshot : Snapshot :=
  ⟨"qregistry.local/pvcs/one@sha256:0159f3c944aaff9cfb0c613203b41c704f2fb91ac2073757fe84f2f7acae2fb2".toList,
    Sample.volumeId⟩

/-- The world after it. -/
def noteSnapped : World :=
  (snapshotRun Sample.ext ⟨"http".toList⟩ Sample.config sampleSnapshot snapshotChoices
    (sampleMounted Sample.ext Sample.note)).world

/-- Repeated at once, the snapshot is the same. -/
theorem snapshot_idempotent_untouched :
    let again := eval (act Sample.ext) (snapshotProg Sample.ext ⟨"http".toList⟩ Sample.config
      sampleSnapshot) noteSnapped
    again.2.2 = .ok noteSnapshot ∧ tagContent Sample.config sampleSnapshot again.2.1.reg
      = tagContent Sample.config sampleSnapshot noteSnapped.reg := by
  have hfacts : (snapshotRun Sample.ext ⟨"http".toList⟩ Sample.config sampleSnapshot snapshotChoices
      (sampleMounted Sample.ext Sample.note)).result = some (.ok noteSnapshot) ∧
      (noteSnapped.fs.mkdirs (Sample.config.volumeDir Sample.volumeId).key).isSome ∧
      ¬noteSnapped.fs.IsDir (Sample.config.captureStaging Sample.volumeId).key ∧
      captureOf Sample.ext (Sample.config.controlSocket Sample.volumeId) noteSnapped
        = captureOf Sample.ext (Sample.config.controlSocket Sample.volumeId)
          (sampleMounted Sample.ext Sample.note) ∧
      digestOf Sample.ext.sha256 EMPTY_CONFIG_BYTES = EMPTY_CONFIG_DIGEST := by
    decide +kernel
  obtain ⟨hfirst, hdirs, hstaging, hcap, hempty⟩ := hfacts
  exact (@snapshot_idempotent_iff Sample.ext Sample.lawful.sha256_injective hempty ⟨"http".toList⟩
    Sample.config sampleSnapshot _ snapshotChoices
    (fun c hc => List.eq_of_mem_replicate hc ▸ trivial) _ hfirst []).2
    ⟨⟨Option.isSome_iff_exists.1 hdirs, hstaging⟩, hcap, rfl⟩

/-- SHA-256 on what is hashed when the upper is empty at first. -/
def twiceExt : Ext :=
  ⟨Sample.hashWith ((manifestBytes "one".toList
      "sha256:4f53cda18c2baa0c0354bb5f9a3ecbe5ed12ab4d8e11ba873c2f11161202b945".toList 2,
      Sample.unhex "3a928811ee1174dcc99e7e1c82a4df53dea4cbd62c5b44b99befcc43a69b3c0b".toList) :: Sample.digests),
    Sample.pack, Sample.unpack⟩

/-- A snapshot of an empty upper, and the same request after a file was written: it returns
another snapshot, and the tag has moved to it. -/
theorem snapshot_not_idempotent :
    let first := snapshotRun twiceExt ⟨"http".toList⟩ Sample.config sampleSnapshot snapshotChoices
      (sampleMounted twiceExt ∅)
    let w₂ := afterActivity twiceExt first.world (.other fun w => w.withUppers fun _ => Sample.note)
    let again := eval (act twiceExt) (snapshotProg twiceExt ⟨"http".toList⟩ Sample.config
      sampleSnapshot) w₂
    first.result = some (.ok ⟨"qregistry.local/pvcs/one@sha256:3a928811ee1174dcc99e7e1c82a4df53dea4cbd62c5b44b99befcc43a69b3c0b".toList, Sample.volumeId⟩) ∧
      again.2.2 = .ok noteSnapshot ∧
      tagContent Sample.config sampleSnapshot again.2.1.reg
        ≠ tagContent Sample.config sampleSnapshot w₂.reg := by
  decide +kernel

end ControllerService

end RspacefsCsi
