/-
# From the controller to the node

The seeds of a volume go from the StorageClass to the controller, which resolves them and
joins them into the volume context, and from there to the node, which splits the context
again and pulls.  The results here are about all environments, and so about every
implementation of `Registry`: they only speak of the requests of the two calls.

The parameters arrive as they were parsed (`parameters_survive`).  The seeds that are pulled
are those that were resolved as long as the content source, whose id is added to the seeds
as it is, is a seed that survives the joining; a source that is not a snapshot is not among
them (`pulled_eq_resolved_iff`).
-/
import RspacefsCsi.Controller
import RspacefsCsi.Sample

namespace RspacefsCsi

open Lib Lib.Prog

variable {C W : Type} {E : (o : Op) → C → W → Resp o × W} {ok : C → Prop}

/-! ### Seeds in a trace -/

/-- The seed of a request that resolved it. -/
def resolvedSeed : Ev → Option Text
  | ⟨.resolve seed, .ok _⟩ => some seed
  | _ => none

/-- The seed of a request to pull it. -/
def pulledSeed : Ev → Option Text
  | ⟨.pullLayers seed _, _⟩ => some seed
  | _ => none

/-- The seeds that were resolved, in order. -/
def resolvedSeeds (tr : List Ev) : List Text := tr.filterMap resolvedSeed

/-- The seeds that were pulled, in order. -/
def pulledSeeds (tr : List Ev) : List Text := tr.filterMap pulledSeed

/-! ### CreateVolume -/

namespace ControllerService

/-- Seeds that are all resolved are resolved in order. -/
lemma checkSeeds_resolved (seeds : List Text) (tr : List Ev) (w : W) :
    Always E ok (fun tr' _ res => res = some (.ok ()) →
      resolvedSeeds tr' = resolvedSeeds tr ++ seeds) (checkSeeds seeds).run tr w := by
  induction seeds generalizing tr w with
  | nil => exact ⟨not_returned, fun _ => (List.append_nil _).symm⟩
  | cons seed rest ih =>
    simp only [checkSeeds, run_attempt_bind]
    refine ⟨not_returned, fun c _ => ?_⟩
    generalize E (.resolve seed) c w = r
    obtain ⟨r, w'⟩ := r
    cases r with
    | error e => exact ⟨not_returned, not_ok⟩
    | ok layers =>
      refine (ih (tr ++ [⟨.resolve seed, .ok layers⟩]) w').mono fun tr' w'' res h => ?_
      intro hres
      rw [h hres, resolvedSeeds, resolvedSeeds, List.filterMap_append, List.append_assoc]
      rfl

/-- A volume is made from the parameters with the content source added, after each of these
seeds was resolved. -/
lemma createVolume_resolved (req : CreateVolumeRequest) (w : W) :
    Always E ok (fun tr _ res => ∀ vol, res = some (.ok vol) →
      ∃ params, PvcParams.parse req.parameters = .ok params ∧
        vol = mkVolume req (withSource params req.volumeContentSource) ∧
        resolvedSeeds tr = (withSource params req.volumeContentSource).seeds)
      (createVolume req).run [] w := by
  unfold createVolume
  by_cases hname : req.name = []
  · rw [if_pos hname]
    exact ⟨nofun, nofun⟩
  by_cases hcap : req.volumeCapabilities = 0
  · rw [if_neg hname, if_pos hcap]
    exact ⟨nofun, nofun⟩
  rw [if_neg hname, if_neg hcap, run_require_bind]
  cases hp : PvcParams.parse req.parameters with
  | error e => exact ⟨nofun, nofun⟩
  | ok params =>
    refine Always.tryBind ((checkSeeds_resolved _ [] w).mono fun tr w' res h => ?_)
    refine ⟨nofun, nofun, fun _ hres => ⟨nofun, ?_⟩⟩
    rintro vol ⟨⟩
    exact ⟨params, rfl, rfl, h hres⟩

/-- **Parameters survive the trip from the controller to the node**: the context of a volume
made without a content source parses to what the parameters of the request parse to,
whatever keys of others it has besides. -/
theorem parameters_survive (E : (o : Op) → C → W → Resp o × W) (cs : List C) (w : W)
    {req : CreateVolumeRequest} (hsrc : req.volumeContentSource = none) {vol : Volume}
    (hok : (run E (createVolume req).run cs w).result = some (.ok vol)) {ctx : StrMap}
    (hctx : ∀ k ∈ PvcParams.driverKeys, ctx.lookup k = vol.volumeContext.lookup k) :
    ∃ params, PvcParams.parse req.parameters = .ok params ∧ PvcParams.parse ctx = .ok params := by
  have h := run_of_always (@createVolume_resolved _ _ E (fun _ => True) req w) cs
    fun _ _ => trivial
  obtain ⟨params, hp, rfl, -⟩ := h vol hok
  rw [hsrc] at hctx
  refine ⟨params, hp, ?_⟩
  rw [PvcParams.parse_congr hctx]
  exact parse_volumeContext (PvcParams.cleanSeed_of_parse hp)

end ControllerService

/-! ### NodePublishVolume -/

namespace NodeService

variable {cfg : Config}

/-- Seeds that are all pulled are pulled in order. -/
lemma pullSeeds_pulled (dir : PathBuf) (seeds : List Text) (tr : List Ev) (w : W) :
    Always E ok (fun tr' _ res => (∃ blobs, res = some (.ok blobs)) →
      pulledSeeds tr' = pulledSeeds tr ++ seeds) (pullSeeds dir seeds).run tr w := by
  induction seeds generalizing tr w with
  | nil => exact ⟨nofun, fun _ => (List.append_nil _).symm⟩
  | cons seed rest ih =>
    simp only [pullSeeds, run_attempt_bind]
    refine ⟨nofun, fun c _ => ?_⟩
    generalize E (.pullLayers seed dir) c w = r
    obtain ⟨r, w'⟩ := r
    cases r with
    | error e => exact ⟨nofun, nofun⟩
    | ok blobs =>
      refine Always.tryBind ((ih (tr ++ [⟨.pullLayers seed dir, .ok blobs⟩]) w').mono
        fun tr' w'' res h => ⟨nofun, nofun, fun more hres => ⟨nofun, fun _ => ?_⟩⟩)
      rw [h ⟨more, hres⟩, pulledSeeds, pulledSeeds, List.filterMap_append, List.append_assoc]
      rfl

/-- The requests of `attach`. -/
lemma attach_forall (req : PublishRequest) (params : PvcParams) (blobs : List PathBuf) :
    Forall (fun o => (∃ p ∈ [cfg.upperDir req.volumeId, ⟨req.targetPath⟩,
        (cfg.statePath req.volumeId).parent], o = .createDirAll p) ∨
      o = .mount (mountSpec cfg req params blobs) ∨
      o = .writeFile (cfg.statePath req.volumeId) (contextToVec req.volumeContext))
      (attach cfg req params blobs).run := by
  simp only [attach, run_attempt_bind, run_ignoring_bind, persistState, forall_call]
  refine ⟨.inl ⟨_, by simp, rfl⟩, fun r => ?_⟩
  cases r with
  | error e => trivial
  | ok u =>
    refine ⟨.inl ⟨_, by simp, rfl⟩, fun r => ?_⟩
    cases r with
    | error e => trivial
    | ok u =>
      refine ⟨.inr (.inl rfl), fun r => ?_⟩
      cases r with
      | error e => trivial
      | ok u =>
        refine ⟨.inl ⟨_, by simp, rfl⟩, fun r => ?_⟩
        cases r with
        | error e => trivial
        | ok u => exact ⟨.inr (.inr rfl), fun _ => trivial⟩

/-- A publish that succeeds has pulled the seeds of its context. -/
lemma publish_pulled (req : PublishRequest) (w : W) :
    Always E ok (fun tr _ res => res = some (.ok ()) →
      ∃ params, PvcParams.parse req.volumeContext = .ok params ∧ pulledSeeds tr = params.seeds)
      (nodePublishVolume cfg req).run [] w := by
  unfold nodePublishVolume
  by_cases hid : req.volumeId = []
  · rw [if_pos hid]
    exact ⟨nofun, nofun⟩
  by_cases ht : req.targetPath = []
  · rw [if_neg hid, if_pos ht]
    exact ⟨nofun, nofun⟩
  rw [if_neg hid, if_neg ht, run_require_bind]
  cases hp : PvcParams.parse req.volumeContext with
  | error e => exact ⟨nofun, nofun⟩
  | ok params =>
    refine Always.tryBind ((pullSeeds_pulled _ params.seeds [] w).mono fun tr w' res h => ?_)
    refine ⟨nofun, nofun, fun blobs hres => ?_⟩
    refine (Always.filterMap_of_forall (f := pulledSeed) (attach_forall req params blobs) ?_ tr w').mono
      fun tr' w'' res' h' _ => ⟨params, rfl, h'.trans (h ⟨blobs, hres⟩)⟩
    rintro ⟨o, r⟩ (⟨p, -, rfl⟩ | rfl | rfl) <;> rfl

end NodeService

/-! ### The content source -/

namespace ControllerService

/-- A content source that the node finds again: a snapshot whose id is a seed that survives
being joined with others. -/
def ContentSource.Seedable : ContentSource → Prop
  | .snapshot id => PvcParams.CleanSeed id
  | _ => False

/-- The seeds that are joined come out again if and only if they are clean. -/
lemma splitSeeds_intercalate_iff {l : List Text} :
    PvcParams.splitSeeds ([','].intercalate l) = l ↔ ∀ s ∈ l, PvcParams.CleanSeed s := by
  refine ⟨fun h s hs => ?_, PvcParams.splitSeeds_intercalate⟩
  rw [← h] at hs
  exact PvcParams.cleanSeed_of_mem_splitSeeds hs

/-- The seeds that the context of a volume is parsed to. -/
lemma seeds_of_volumeContext {req : CreateVolumeRequest} {params params' : PvcParams}
    (h : PvcParams.parse (mkVolume req params).volumeContext = .ok params') :
    params'.seeds = params.seeds ↔ ∀ s ∈ params.seeds, PvcParams.CleanSeed s := by
  have hseed : (mkVolume req params).volumeContext.lookup SEED = params.toVolumeContext.lookup SEED :=
    AList.lookup_insert_ne (by decide)
  rw [PvcParams.seeds_of_parse h, hseed, PvcParams.lookup_seed_toVolumeContext]
  by_cases hnil : params.seeds = []
  · rw [if_pos hnil, hnil]
    simp
  · rw [if_neg hnil]
    exact splitSeeds_intercalate_iff

/-- **What the controller validated is what the node mounts, if and only if the content source
is a snapshot whose id survives the joining, or there is none**: then the seeds that a
publish with the context of the volume pulls are those that were resolved when the volume was
made, in order, and the source is one of them. -/
theorem pulled_eq_resolved_iff {C' W' : Type} (E : (o : Op) → C → W → Resp o × W)
    (E' : (o : Op) → C' → W' → Resp o × W') (cfg : Config) {cs : List C} {w : W} {cs' : List C'}
    {w' : W'} {req : CreateVolumeRequest} {vol : Volume}
    (hvol : (run E (createVolume req).run cs w).result = some (.ok vol))
    {preq : NodeService.PublishRequest} (hctx : preq.volumeContext = vol.volumeContext)
    (hpub : (run E' (NodeService.nodePublishVolume cfg preq).run cs' w').result = some (.ok ())) :
    (pulledSeeds (run E' (NodeService.nodePublishVolume cfg preq).run cs' w').trace
        = resolvedSeeds (run E (createVolume req).run cs w).trace ∧
      ∀ src, vol.contentSource = some src →
        ∃ s ∈ resolvedSeeds (run E (createVolume req).run cs w).trace, src = .snapshot s) ↔
    ∀ src, req.volumeContentSource = some src → src.Seedable := by
  have hcreate := run_of_always (@createVolume_resolved _ _ E (fun _ => True) req w) cs
    fun _ _ => trivial
  have hpublish := run_of_always (@NodeService.publish_pulled _ _ E' (fun _ => True) cfg preq w') cs'
    fun _ _ => trivial
  obtain ⟨params, hp, rfl, hres⟩ := hcreate vol hvol
  obtain ⟨params', hp', hpulled⟩ := hpublish hpub
  rw [List.nil_append] at hres hpulled
  rw [hctx] at hp'
  rw [hres, hpulled, seeds_of_volumeContext hp']
  constructor
  · rintro ⟨hclean, hsrc⟩ src h
    obtain ⟨s, hs, rfl⟩ := hsrc src h
    exact hclean s hs
  · intro h
    cases hsrc : req.volumeContentSource with
    | none =>
      refine ⟨PvcParams.cleanSeed_of_parse hp, fun src h => ?_⟩
      exact absurd (hsrc.symm.trans h) nofun
    | some src =>
      cases src with
      | snapshot id =>
        refine ⟨fun s hs => ?_, fun src h' => ⟨id, ?_, ?_⟩⟩
        · rcases List.mem_append.1 hs with hs | hs
          · exact PvcParams.cleanSeed_of_parse hp s hs
          · exact List.mem_singleton.1 hs ▸ h _ hsrc
        · exact List.mem_append_right _ List.mem_cons_self
        · exact (Option.some.inj (hsrc.symm.trans h')).symm
      | volume volumeId => exact absurd (h _ hsrc) id
      | untyped => exact absurd (h _ hsrc) id

end ControllerService

/-! ### Volumes with and without a source -/

namespace Sample

open ControllerService NodeService

/-- Parameters in spellings that are not the canonical ones. -/
def spelledOut : StrMap :=
  (((∅ : StrMap).insert SEED " r/a:v1, r/b\n,".toList).insert ACCESS_MODE "ReadWriteOnce".toList).insert
    CAPTURE_ON_DELETE "1".toList

/-- A request for a volume. -/
def createRequest (params : StrMap) (src : Option ContentSource) : CreateVolumeRequest :=
  ⟨volumeId, none, 1, params, src⟩

/-- The run of such a request. -/
def created (params : StrMap) (src : Option ContentSource) :
    Outcome Op Resp World (Except Status Volume) :=
  run (env ext) (createVolume (createRequest params src)).run smooth World.blank

/-- The run of a publish with the context of a volume. -/
def publishedWith (ctx : StrMap) : Outcome Op Resp World (Except Status Unit) :=
  run (env ext) (nodePublishVolume config ⟨volumeId, "/pods/a".toList, ctx, false⟩).run smooth
    World.blank

/-- The parameters that `spelledOut` stands for. -/
def spelledOutParams : PvcParams :=
  ⟨["r/a:v1".toList, "r/b".toList], some .rwo, none, none, true, none⟩

end Sample

namespace ControllerService

open Sample

/-- A volume whose parameters are spelled out, with a key of the orchestrator added. -/
theorem parameters_survive_spelledOut :
    ∃ params, PvcParams.parse spelledOut = .ok params ∧
      PvcParams.parse ((mkVolume (createRequest spelledOut none) spelledOutParams).volumeContext.insert
        "csi.storage.k8s.io/pv/name".toList volumeId) = .ok params :=
  @parameters_survive _ _ (env ext) smooth World.blank (createRequest spelledOut none) rfl
    (mkVolume (createRequest spelledOut none) spelledOutParams) rfl _
    fun k hk => AList.lookup_insert_ne (by rintro rfl; exact absurd hk (by decide))

/-- A volume made from a snapshot. -/
theorem pulled_eq_resolved_snapshot :
    pulledSeeds (publishedWith (mkVolume (createRequest ∅ (some (.snapshot "r/a@sha256:00".toList)))
        ⟨["r/a@sha256:00".toList], none, none, none, false, none⟩).volumeContext).trace
      = resolvedSeeds (created ∅ (some (.snapshot "r/a@sha256:00".toList))).trace :=
  ((@pulled_eq_resolved_iff _ _ _ _ (env ext) (env ext) config smooth World.blank smooth World.blank
    (createRequest ∅ (some (.snapshot "r/a@sha256:00".toList)))
    (mkVolume (createRequest ∅ (some (.snapshot "r/a@sha256:00".toList)))
      ⟨["r/a@sha256:00".toList], none, none, none, false, none⟩) rfl
    ⟨volumeId, "/pods/a".toList, _, false⟩ rfl (by decide +kernel)).2 (by
      rintro src ⟨⟩
      exact ⟨by decide, by decide, by simp [PvcParams.isSeedSep]⟩)).1

/-- The id of a snapshot with a comma in it is resolved as one seed and pulled as two, and a
volume made from another one is made from nothing. -/
theorem pulled_ne_resolved :
    (∃ vol, (created ∅ (some (.snapshot "r/x,r/y".toList))).result = some (.ok vol) ∧
      (publishedWith vol.volumeContext).result = some (.ok ()) ∧
      pulledSeeds (publishedWith vol.volumeContext).trace
        ≠ resolvedSeeds (created ∅ (some (.snapshot "r/x,r/y".toList))).trace) ∧
    ∃ vol, (created ∅ (some (.volume "pvc-0".toList))).result = some (.ok vol) ∧
      (publishedWith vol.volumeContext).result = some (.ok ()) ∧
      vol.contentSource = some (.volume "pvc-0".toList) ∧
      resolvedSeeds (created ∅ (some (.volume "pvc-0".toList))).trace = [] := by
  refine ⟨⟨mkVolume (createRequest ∅ (some (.snapshot "r/x,r/y".toList)))
    ⟨["r/x,r/y".toList], none, none, none, false, none⟩, rfl, ?_⟩,
    ⟨mkVolume (createRequest ∅ (some (.volume "pvc-0".toList)))
      ⟨[], none, none, none, false, none⟩, rfl, ?_⟩⟩
  · decide +kernel
  · decide +kernel

end ControllerService

end RspacefsCsi
