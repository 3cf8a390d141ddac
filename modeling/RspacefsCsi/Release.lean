/-
# What is published can be unpublished

A volume with `captureOnDelete` is captured when it is unpublished, to a repository that is
made up only then: the parameter `captureRepo`, or the name of the first seed.  Neither
`CreateVolume` nor `NodePublishVolume` looks at it, and the default of the configuration is
not used.  A volume that was created and published can therefore be unpublished exactly if
the publish context does not ask for a capture, or names a host and a path to push to
(`unpublish_ok_iff`).
-/
import RspacefsCsi.Calls
import RspacefsCsi.Controller
import RspacefsCsi.Unpublish

namespace RspacefsCsi

open Lib Lib.Prog

/-! ### Tags -/

lemma sanitizeTag_ne_nil (s : Text) : sanitizeTag s ≠ [] := by
  unfold sanitizeTag
  by_cases h : (s.map fun c => if isTagChar c then c else '-').take 128 = []
  · simp only [h, if_true]
    decide
  · simp only [h, if_false]
    exact h

lemma isTagChar_of_mem_sanitizeTag {s : Text} {c : Char} (h : c ∈ sanitizeTag s) :
    isTagChar c = true := by
  have hmap : ∀ c ∈ s.map fun c => if isTagChar c then c else '-', isTagChar c = true := by
    intro c hc
    obtain ⟨d, -, rfl⟩ := List.mem_map.1 hc
    by_cases hd : isTagChar d = true
    · rw [if_pos hd]
      exact hd
    · rw [if_neg hd]
      decide
  have hrev : ∀ c ∈ "rev".toList, isTagChar c = true := List.all_eq_true.1 (by decide)
  unfold sanitizeTag at h
  by_cases hnil : (s.map fun c => if isTagChar c then c else '-').take 128 = []
  · simp only [hnil, if_true] at h
    exact hrev c h
  · simp only [hnil, if_false] at h
    exact hmap c (List.mem_of_mem_take h)

/-! ### Where a capture goes -/

/-- The parameters name a repository of the form `host/path` for captures. -/
def PvcParams.HasTarget (p : PvcParams) : Prop :=
  ∃ repo, p.resolvedCaptureRepo = some repo ∧ Reference.HostPath repo

namespace NodeService

variable {x : Ext} {cfg : Config} {w : World}

lemma pushable_iff (volumeId : Text) (ctx : StrMap) (params : PvcParams) :
    Pushable volumeId ctx params ↔ params.HasTarget := by
  have htag : ∀ c, isTagChar c = false → c ∉ sanitizeTag (volumeName ctx volumeId) :=
    fun c hc hmem => Bool.false_ne_true (hc.symm.trans (isTagChar_of_mem_sanitizeTag hmem))
  have hparse := fun repo => (@Reference.parse_tag_isOk_iff repo)
    (sanitizeTag_ne_nil (volumeName ctx volumeId)) (htag '/' (by decide)) (htag ':' (by decide))
    (htag '@' (by decide))
  constructor
  · rintro ⟨targetRef, r, ht, hr⟩
    obtain ⟨repo, hrepo, rfl⟩ := Option.map_eq_some_iff.1 ht
    exact ⟨repo, hrepo, (hparse repo).1 ⟨r, hr⟩⟩
  · rintro ⟨repo, hrepo, hpath⟩
    obtain ⟨r, hr⟩ := (hparse repo).2 hpath
    exact ⟨_, r, by rw [captureTarget, hrepo]; rfl, hr⟩

/-! ### Unpublishing over backends that do their work -/

/-- Captures and unmounts succeed, and so does a push to a reference that can be parsed. -/
def Obliging : Ev → Bool
  | ⟨.capture _ _, .error _⟩ | ⟨.unmount _, .error _⟩ => false
  | ⟨.pushRevision targetRef _ _ _, .error _⟩ => !(Reference.parse targetRef).isOk
  | _ => true

/-- The freeze returns OK exactly if its reference can be parsed. -/
lemma freeze_obliging (socket staging : PathBuf) (targetRef : Text) (tr : List Ev) (w : World) :
    Always (env x) anything (fun tr' _ res => ∀ r, res = some r → (∀ e ∈ tr', Obliging e) →
      ((∃ id, r = .ok id) ↔ ∃ ref, Reference.parse targetRef = .ok ref))
      (freezeAndPush socket staging targetRef).run tr w := by
  simp only [freezeAndPush, run_request_bind, run_attempt_bind]
  refine ⟨none_returned, fun c _ => ?_⟩
  generalize (RspacefsCsi.env x (.createDirAll staging.parent) c w).2 = w₁
  refine ⟨none_returned, fun c _ => ?_⟩
  rcases env_capture_cases x socket staging c w₁ with ⟨e, w', h⟩ | ⟨m, fs, -, h, -, -⟩ <;> rw [h]
  · refine ⟨none_returned, fun r _ hob => ?_⟩
    exact absurd (hob ⟨.capture socket staging, .error e⟩ (by simp)) Bool.false_ne_true
  refine ⟨none_returned, fun c _ => ?_⟩
  generalize hp : RspacefsCsi.env x (.pushRevision _ _ _ _) c _ = p
  obtain ⟨res, w₃⟩ := p
  cases res with
  | error e =>
    refine ⟨none_returned, ?_⟩
    rintro r ⟨⟩ hob
    have hno : (!(Reference.parse targetRef).isOk) = true :=
      hob _ (List.mem_append_right _ (List.mem_singleton_self _))
    constructor
    · rintro ⟨id, ⟨⟩⟩
    · rintro ⟨ref, href⟩
      rw [href] at hno
      exact absurd hno Bool.false_ne_true
  | ok id =>
    have hparse : ∃ ref, Reference.parse targetRef = .ok ref := by
      have hp' := congrArg Prod.fst hp
      cases c with
      | fault msg done => exact absurd hp' (by rintro ⟨⟩)
      | _ =>
        cases hr : Reference.parse targetRef with
        | ok ref => exact ⟨ref, rfl⟩
        | error e =>
          simp only [RspacefsCsi.env, World.pushRevision, hr] at hp'
          exact absurd hp' (by rintro ⟨⟩)
    refine ⟨none_returned, fun c _ => ⟨none_returned, ?_⟩⟩
    rintro r ⟨⟩ -
    exact ⟨fun _ => hparse, fun _ => ⟨id, rfl⟩⟩

/-- The capture that the publish context asks for, if any, succeeds exactly if it can be
pushed. -/
lemma captureIfAsked_obliging (volumeId : Text) (state : Option StrMap) (tr : List Ev) (w : World) :
    Always (env x) anything (fun tr' _ res => ∀ r, res = some r → (∀ e ∈ tr', Obliging e) →
      (r = .ok () ↔ ∀ ctx params, state = some ctx → PvcParams.parse ctx = .ok params →
        params.captureOnDelete = true → Pushable volumeId ctx params))
      (captureIfAsked cfg volumeId state).run tr w := by
  cases state with
  | none =>
    refine ⟨none_returned, ?_⟩
    rintro r ⟨⟩ -
    exact ⟨fun _ => (by rintro _ _ ⟨⟩), fun _ => rfl⟩
  | some ctx =>
    cases hp : PvcParams.parse ctx with
    | error e =>
      simp only [captureIfAsked, hp]
      refine ⟨none_returned, ?_⟩
      rintro r ⟨⟩ -
      refine ⟨fun _ => ?_, fun _ => rfl⟩
      rintro _ params ⟨⟩ hparams
      exact absurd (hp.symm.trans hparams) (by rintro ⟨⟩)
    | ok params =>
      have hone : (∀ ctx' params', some ctx = some ctx' → PvcParams.parse ctx' = .ok params' →
          params'.captureOnDelete = true → Pushable volumeId ctx' params') ↔
          (params.captureOnDelete = true → Pushable volumeId ctx params) := by
        constructor
        · exact fun h hc => h ctx params rfl hp hc
        · rintro h _ params' ⟨⟩ hparams
          obtain rfl := Except.ok.inj (hp.symm.trans hparams)
          exact h
      simp only [hone]
      by_cases hc : params.captureOnDelete = true
      · simp only [captureIfAsked, hp, if_pos hc, freezeOnUnpublish]
        cases ht : captureTarget volumeId ctx params with
        | none =>
          refine ⟨none_returned, ?_⟩
          rintro r ⟨⟩ -
          refine ⟨by rintro ⟨⟩, fun h => ?_⟩
          obtain ⟨ref, _, href, -⟩ := h hc
          exact absurd (ht.symm.trans href) not_returned
        | some targetRef =>
          rw [run_within_bind]
          refine Always.bind ((freeze_obliging _ _ targetRef tr w).mono ?_)
          intro tr' w' res hres
          refine ⟨none_returned, fun a ha => ?_⟩
          have hpush : Pushable volumeId ctx params ↔ ∃ ref, Reference.parse targetRef = .ok ref := by
            constructor
            · rintro ⟨ref, r, href, hr⟩
              obtain rfl := Option.some.inj (ht.symm.trans href)
              exact ⟨r, hr⟩
            · rintro ⟨r, hr⟩
              exact ⟨targetRef, r, ht, hr⟩
          cases a with
          | error e =>
            refine ⟨none_returned, ?_⟩
            rintro r ⟨⟩ hob
            refine ⟨by rintro ⟨⟩, fun h => ?_⟩
            obtain ⟨id, hid⟩ := (hres _ ha hob).2 (hpush.1 (h hc))
            exact absurd hid (by rintro ⟨⟩)
          | ok id =>
            refine ⟨none_returned, ?_⟩
            rintro r ⟨⟩ hob
            exact ⟨fun _ _ => hpush.2 ((hres _ ha hob).1 ⟨id, rfl⟩), fun _ => rfl⟩
      · simp only [captureIfAsked, hp, if_neg hc]
        refine ⟨none_returned, ?_⟩
        rintro r ⟨⟩ -
        exact ⟨fun _ h => absurd h hc, fun _ => rfl⟩

/-- Unmounting returns OK. -/
lemma detach_obliging (req : UnpublishRequest) (tr : List Ev) (w : World) :
    Always (env x) anything (fun tr' _ res => ∀ r, res = some r → (∀ e ∈ tr', Obliging e) →
      r = .ok ()) (detach cfg req).run tr w := by
  simp only [detach, run_attempt_bind, run_request_bind]
  refine ⟨none_returned, fun c _ => ?_⟩
  rcases env_unmount_cases x ⟨req.targetPath⟩ c w with ⟨e, h⟩ | ⟨h, -⟩ | ⟨h, -⟩ <;> rw [h]
  · refine ⟨none_returned, fun r _ hob => ?_⟩
    exact absurd (hob ⟨.unmount ⟨req.targetPath⟩, .error e⟩ (by simp)) Bool.false_ne_true
  · refine ⟨none_returned, fun c _ => ⟨none_returned, fun c _ => ⟨none_returned, ?_⟩⟩⟩
    rintro r ⟨⟩ -
    rfl
  · refine ⟨none_returned, fun c _ => ⟨none_returned, fun c _ => ⟨none_returned, ?_⟩⟩⟩
    rintro r ⟨⟩ -
    rfl

/-- The first request of the call, the read of the publish context, has failed. -/
def ReadFailed (cfg : Config) (volumeId : Text) (tr : List Ev) : Prop :=
  ∃ e rest, tr = ⟨.readFile (cfg.statePath volumeId), .error e⟩ :: rest

lemma readFailed_cons {volumeId : Text} {r : Except IoError Bytes} {tr : List Ev} :
    ReadFailed cfg volumeId (⟨.readFile (cfg.statePath volumeId), r⟩ :: tr) ↔
      ∃ e, r = .error e := by
  constructor
  · rintro ⟨e, rest, h⟩
    exact ⟨e, by simpa using (List.cons.inj h).1⟩
  · rintro ⟨e, rfl⟩
    exact ⟨e, tr, rfl⟩

/-- The whole call returns OK exactly if the publish context, if there is one and it can be
read, asks for no capture or for one that can be pushed. -/
lemma unpublish_obliging {req : UnpublishRequest} (hid : req.volumeId ≠ [])
    (ht : req.targetPath ≠ []) (w : World) :
    Always (env x) anything (fun tr _ res => ∀ r, res = some r → (∀ e ∈ tr, Obliging e) →
      (r = .ok () ↔ ∀ ctx params, Asked cfg req.volumeId w ctx params →
        ReadFailed cfg req.volumeId tr ∨ Pushable req.volumeId ctx params))
      (nodeUnpublishVolume cfg req).run [] w := by
  unfold nodeUnpublishVolume
  rw [if_neg hid, if_neg ht]
  change Always _ _ _ (Prog.call (Op.readFile (cfg.statePath req.volumeId)) _) _ _
  refine ⟨nofun, fun c _ => ?_⟩
  -- the rest of the call, once it is known what was read
  have hrest : ∀ (state : Option StrMap) (r₀ : Except IoError Bytes),
      ((∀ ctx params, state = some ctx → PvcParams.parse ctx = .ok params →
        params.captureOnDelete = true → Pushable req.volumeId ctx params) ↔
        ∀ ctx params, Asked cfg req.volumeId w ctx params →
          (∃ e, r₀ = .error e) ∨ Pushable req.volumeId ctx params) →
      Always (env x) anything (fun tr _ res => ∀ r, res = some r → (∀ e ∈ tr, Obliging e) →
        (r = .ok () ↔ ∀ ctx params, Asked cfg req.volumeId w ctx params →
          ReadFailed cfg req.volumeId tr ∨ Pushable req.volumeId ctx params))
        (captureIfAsked cfg req.volumeId state >>= fun _ => detach cfg req).run
        ([] ++ [⟨.readFile (cfg.statePath req.volumeId), r₀⟩]) w := by
    intro state r₀ hiff
    refine Always.tryBind ((captureIfAsked_obliging req.volumeId state _ w).extends.mono ?_)
    rintro tr' w' res ⟨⟨t, rfl⟩, hres⟩
    refine ⟨nofun, fun e he => ?_, fun _ hok => ?_⟩
    · rintro r ⟨⟩ hob
      have := hres _ he hob
      simp only [List.nil_append, List.cons_append, readFailed_cons]
      rwa [hiff] at this
    · refine (detach_obliging req _ w').extends.mono ?_
      rintro tr'' w'' res' ⟨⟨t', rfl⟩, hdet⟩ r hr hob
      have := hres _ hok fun e he => hob e (List.mem_append_left _ he)
      simp only [List.nil_append, List.cons_append, readFailed_cons]
      rw [hiff] at this
      rw [← this]
      exact ⟨fun _ => rfl, fun _ => hdet r hr hob⟩
  rcases env_readFile_cases x (cfg.statePath req.volumeId) c w with ⟨e, h⟩ | ⟨b, h, hb⟩ <;> rw [h]
  · exact hrest none _ ⟨fun _ _ _ _ => .inl ⟨e, rfl⟩, fun _ => nofun⟩
  · refine hrest (contextOfSlice b) _ ?_
    have hctx : storedContext cfg req.volumeId w = contextOfSlice b := by
      rw [storedContext, hb]
      rfl
    constructor
    · exact fun hp ctx params ha => .inr (hp ctx params (hctx ▸ ha.stored) ha.parsed ha.capture)
    · intro hp ctx params hs hparams hc
      rcases hp ctx params ⟨hctx.trans hs, hparams, hc⟩ with ⟨e, he⟩ | hpush
      · exact absurd he nofun
      · exact hpush

/-! ### The three calls -/

open ControllerService in
/-- The context of a volume without a content source has the parameters of the volume. -/
lemma parse_of_created {create : CreateVolumeRequest} (hsrc : create.volumeContentSource = none)
    {vol : Volume} {w : World} {cs : List Choice}
    (hcreate : (run (env x) (createVolume create).run cs w).result = some (.ok vol)) :
    PvcParams.parse vol.volumeContext = PvcParams.parse create.parameters := by
  obtain ⟨-, hvol⟩ := run_of_always (@createVolume_always _ anything create w) cs
    fun _ _ => trivial
  obtain ⟨params, hparams, rfl⟩ := hvol vol hcreate
  rw [hsrc, hparams]
  exact parse_volumeContext (PvcParams.cleanSeed_of_parse hparams)

/-- A publish that returns OK is one of a volume at a target, and leaves its context on disk
if that could be written. -/
lemma of_published {req : PublishRequest} {cs : List Choice} {w : World}
    {out : Outcome Op Resp World (Except Status Unit)}
    (hpub : run (env x) (nodePublishVolume cfg req).run cs w = out)
    (hok : out.result = some (.ok ())) :
    req.volumeId ≠ [] ∧ req.targetPath ≠ [] ∧ (¬StateFailed cfg req.volumeId out.trace →
      storedContext cfg req.volumeId out.world = some req.volumeContext) := by
  have h := run_of_always (@publish_always x cfg req w) cs fun _ _ => trivial
  rw [hpub, List.nil_append] at h
  obtain ⟨params, hid, ht, -, hatt⟩ := h.resolve_left fun h => h.notOk hok
  refine ⟨hid, ht, fun hstate => ?_⟩
  rw [storedContext, (hatt.persisted hok).resolve_left hstate]
  exact contextOfSlice_contextToVec req.volumeContext

/-- An unpublish that is not cancelled, over backends that do their work. -/
lemma unpublished_ok_iff {req : UnpublishRequest} (hid : req.volumeId ≠ [])
    (ht : req.targetPath ≠ []) {cs : List Choice} {w : World}
    {out : Outcome Op Resp World (Except Status Unit)}
    (hrun : run (env x) (nodeUnpublishVolume cfg req).run cs w = out)
    (hob : ∀ e ∈ out.trace, Obliging e) (hne : out.result ≠ none) :
    out.result = some (.ok ()) ↔ ∀ ctx params, Asked cfg req.volumeId w ctx params →
      ReadFailed cfg req.volumeId out.trace ∨ params.HasTarget := by
  obtain ⟨r, hr⟩ := Option.ne_none_iff_exists'.1 hne
  have h := run_of_always ((@unpublish_obliging x cfg) hid ht w) cs
    (fun _ _ => trivial)
  rw [hrun, List.nil_append] at h
  rw [hr, Option.some.injEq, h r hr hob]
  simp only [pushable_iff]

open ControllerService in
/-- **A volume that was created and published is unpublished exactly if the publish context on
disk, if it can be read, does not ask for a capture or has a repository to push it to.**
The call comes to an end.  If the publish context was written and is read, this is a
condition on the parameters of the volume. -/
theorem unpublish_ok_iff (x : Ext) (cfg : Config) {create : CreateVolumeRequest}
    (hsrc : create.volumeContentSource = none) {vol : Volume} {w₀ : World} {cs₀ : List Choice}
    (hcreate : (run (env x) (createVolume create).run cs₀ w₀).result = some (.ok vol))
    {target : Text} {readonly : Bool} {w₁ : World} {cs₁ : List Choice}
    {published : Outcome Op Resp World (Except Status Unit)}
    (hpub : run (env x)
      (nodePublishVolume cfg ⟨vol.volumeId, target, vol.volumeContext, readonly⟩).run cs₁ w₁
        = published) (hok : published.result = some (.ok ())) :
    (∀ c : ℕ → Choice, ∃ n, (run (env x) (nodeUnpublishVolume cfg ⟨vol.volumeId, target⟩).run
      ((List.range n).map c) published.world).result ≠ none) ∧
    ∀ cs out, run (env x) (nodeUnpublishVolume cfg ⟨vol.volumeId, target⟩).run cs published.world
        = out → (∀ e ∈ out.trace, Obliging e) → out.result ≠ none →
      (out.result = some (.ok ()) ↔ ∀ ctx params,
        Asked cfg vol.volumeId published.world ctx params →
          ReadFailed cfg vol.volumeId out.trace ∨ params.HasTarget) ∧
      (¬StateFailed cfg vol.volumeId published.trace → ¬ReadFailed cfg vol.volumeId out.trace →
        ∀ params, PvcParams.parse create.parameters = .ok params →
          (out.result = some (.ok ()) ↔ (params.captureOnDelete = true → params.HasTarget))) := by
  obtain ⟨hid, ht, hstored⟩ := of_published hpub hok
  refine ⟨fun c => ?_, fun cs out hrun hob hne => ?_⟩
  · obtain ⟨n, r, hr⟩ := exists_result (env x)
      (nodeUnpublishVolume cfg ⟨vol.volumeId, target⟩).run c published.world
    exact ⟨n, hr ▸ nofun⟩
  have hiff := (@unpublished_ok_iff _ _ ⟨vol.volumeId, target⟩) hid ht hrun hob hne
  refine ⟨hiff, fun hstate hread params hparams => ?_⟩
  have hparse : PvcParams.parse vol.volumeContext = .ok params :=
    (parse_of_created hsrc hcreate).trans hparams
  rw [hiff]
  constructor
  · exact fun h hc => (h _ params ⟨hstored hstate, hparse, hc⟩).resolve_left hread
  · intro h ctx params' ha
    obtain rfl := Option.some.inj ((hstored hstate).symm.trans ha.stored)
    obtain rfl := Except.ok.inj (hparse.symm.trans ha.parsed)
    exact .inr (h ha.capture)

/-! ### A volume that can be unpublished, and one that cannot -/

/-- A request for a volume with the given parameters. -/
def sampleCreate (parameters : StrMap) : ControllerService.CreateVolumeRequest :=
  ⟨Sample.volumeId, none, 1, parameters, none⟩

/-- The volume it makes. -/
def sampleVolume (parameters : StrMap) (params : PvcParams) : ControllerService.Volume :=
  ControllerService.mkVolume (sampleCreate parameters) params

/-- The volume published. -/
def samplePublished (cfg : Config) (vol : ControllerService.Volume) :
    Outcome Op Resp World (Except Status Unit) :=
  run (env Sample.ext) (nodePublishVolume cfg
    ⟨vol.volumeId, "/pods/a".toList, vol.volumeContext, false⟩).run Sample.smooth World.blank

/-- The volume published and unpublished. -/
def sampleUnpublished (cfg : Config) (vol : ControllerService.Volume) :
    Outcome Op Resp World (Except Status Unit) :=
  run (env Sample.ext) (nodeUnpublishVolume cfg ⟨vol.volumeId, "/pods/a".toList⟩).run
    Sample.smooth (samplePublished cfg vol).world

/-- The parameters that name a repository. -/
def repoParams : PvcParams :=
  ⟨[], none, none, none, true, some "qregistry.local/pvcs/one".toList⟩

/-- Nothing failed in these runs. -/
lemma not_readFailed {volumeId : Text} {tr : List Ev} (h : tr.all (fun e => !Failed e) = true) :
    ¬ReadFailed cfg volumeId tr := by
  rw [List.all_eq_true] at h
  rintro ⟨e, rest, rfl⟩
  exact Bool.false_ne_true (h _ List.mem_cons_self)

theorem unpublish_ok_repo :
    (sampleUnpublished Sample.config (sampleVolume Sample.captureContext repoParams)).result
      = some (.ok ()) := by
  have hpath : repoParams.HasTarget :=
    ⟨"qregistry.local/pvcs/one".toList, rfl, "qregistry.local".toList, "pvcs/one".toList,
      by decide, by decide, by decide, by decide⟩
  have h := (@unpublish_ok_iff Sample.ext Sample.config (sampleCreate Sample.captureContext) rfl
    (sampleVolume Sample.captureContext repoParams) World.blank Sample.smooth rfl
    "/pods/a".toList false World.blank Sample.smooth _ rfl (by decide +kernel)).2 Sample.smooth _ rfl
    (by decide +kernel) (by decide +kernel)
  refine (h.2 (not_stateFailed (by decide +kernel)) (not_readFailed (by decide +kernel)) repoParams
    (by decide)).2 fun _ => hpath

/-- A volume that is to be captured and has neither a repository nor a seed is created and
published; it cannot be unpublished, although the configuration has a registry for
captures. -/
theorem stuck_without_repo :
    let cfg : Config := ⟨Sample.config.dataDir, some "qregistry.local".toList⟩
    let parameters : StrMap := (∅ : StrMap).insert CAPTURE_ON_DELETE "true".toList
    let vol := sampleVolume parameters ⟨[], none, none, none, true, none⟩
    (run (env Sample.ext) (ControllerService.createVolume (sampleCreate parameters)).run
      Sample.smooth World.blank).result = some (.ok vol) ∧
    (samplePublished cfg vol).result = some (.ok ()) ∧
    (∀ e ∈ (sampleUnpublished cfg vol).trace, Obliging e) ∧
    (sampleUnpublished cfg vol).result = some (.error ⟨.failedPrecondition, .text
      "captureOnDelete set but no captureRepo and no seed to derive one from".toList⟩) :=
  ⟨rfl, by decide +kernel, by decide +kernel, by decide +kernel⟩

end NodeService

end RspacefsCsi
