/-
# The controller service (`controller.rs`)

`CreateVolume` checks the seeds and hands the parameters back as the volume context; a
content source is added to the seeds.  `DeleteVolume` has nothing to do.  `CreateSnapshot`
freezes a volume that is mounted on the same host.
-/
import RspacefsCsi.Node

namespace RspacefsCsi

open Lib Lib.Prog

namespace ControllerService

variable (cfg : Config)

/-! ### CreateVolume -/

/-- The content source of a volume. -/
inductive ContentSource
  | snapshot (snapshotId : Text)
  | volume (volumeId : Text)
  /-- A source without a type. -/
  | untyped
deriving DecidableEq

/-- The capacity asked for. -/
structure CapacityRange where
  requiredBytes : ℤ
  limitBytes : ℤ

/-- A request to create a volume; of its capabilities only the number matters. -/
structure CreateVolumeRequest where
  name : Text
  capacityRange : Option CapacityRange
  volumeCapabilities : ℕ
  parameters : StrMap
  volumeContentSource : Option ContentSource

/-- A created volume. -/
structure Volume where
  capacityBytes : ℤ
  volumeId : Text
  volumeContext : StrMap
  contentSource : Option ContentSource

/-- The parameters with the content source added to the seeds. -/
def withSource (params : PvcParams) : Option ContentSource → PvcParams
  | some (.snapshot snapshotId) => { params with seeds := params.seeds ++ [snapshotId] }
  | _ => params

/-- Resolve every seed. -/
def checkSeeds : List Text → Handler Status Unit
  | [] => return ()
  | seed :: rest => do
      let _ ← attempt (.resolve seed)
        (Except.mapError fun e => (⟨.failedPrecondition, .seed seed e⟩ : Status))
      checkSeeds rest

/-- The volume of a request with the given parameters. -/
def mkVolume (req : CreateVolumeRequest) (params : PvcParams) : Volume where
  capacityBytes :=
    match req.capacityRange with
    | some r => max r.requiredBytes r.limitBytes
    | none => 0
  volumeId := req.name
  volumeContext := params.toVolumeContext.insert VOLUME_NAME req.name
  contentSource := req.volumeContentSource

/-- `CreateVolume`. -/
def createVolume (req : CreateVolumeRequest) : Handler Status Volume :=
  if req.name = [] then throw (.required "name")
  else if req.volumeCapabilities = 0 then throw (.required "volume_capabilities")
  else do
    let params ← require ((PvcParams.parse req.parameters).mapError fun e =>
      (⟨.invalidArgument, .param e⟩ : Status))
    let params := withSource params req.volumeContentSource
    checkSeeds params.seeds
    return mkVolume req params

/-! ### DeleteVolume -/

/-- `DeleteVolume`.  The logical volume carries no state of the controller. -/
def deleteVolume (volumeId : Text) : Handler Status Unit :=
  if volumeId = [] then throw (.required "volume_id")
  else return ()

/-! ### CreateSnapshot -/

/-- A request to create a snapshot. -/
structure CreateSnapshotRequest where
  sourceVolumeId : Text
  name : Text
  parameters : StrMap

/-- A created snapshot. -/
structure Snapshot where
  snapshotId : Text
  sourceVolumeId : Text
deriving DecidableEq

/-- Where a snapshot is pushed to. -/
def snapshotTarget (params : StrMap) (sourceVolumeId name : Text) : Except Status Text :=
  match params.lookup CAPTURE_REPO, cfg.captureRegistry with
  | some repo, _ => .ok (repo ++ ':' :: sanitizeTag name)
  | none, some reg =>
      .ok (reg ++ "/pvcs/".toList ++ sourceVolumeId ++ ':' :: sanitizeTag name)
  | none, none => .error ⟨.failedPrecondition, .text
      "no captureRepo parameter and no --capture-registry configured".toList⟩

/-- `CreateSnapshot`. -/
def createSnapshot (req : CreateSnapshotRequest) : Handler Status Snapshot :=
  if req.sourceVolumeId = [] then throw (.required "source_volume_id")
  else if req.name = [] then throw (.required "name")
  else do
    let targetRef ← require (snapshotTarget cfg req.parameters req.sourceVolumeId req.name)
    let there : Bool ← request (Op.pathExists (cfg.controlSocket req.sourceVolumeId))
    if there then do
      let snapshotId ← within (fun e => (⟨.internal, .snapshot e⟩ : Status))
        (freezeAndPush (cfg.controlSocket req.sourceVolumeId)
          (cfg.captureStaging req.sourceVolumeId) targetRef)
      return ⟨snapshotId, req.sourceVolumeId⟩
    else throw ⟨.failedPrecondition, .notMounted req.sourceVolumeId⟩

/-! ### What a created volume is -/

section Created

variable {x : Ext} {ok : Choice → Prop}

/-- Resolving seeds changes nothing. -/
lemma checkSeeds_forall (seeds : List Text) :
    Forall (fun o => ∃ seed, o = .resolve seed) (checkSeeds seeds).run := by
  induction seeds with
  | nil => trivial
  | cons seed rest ih =>
    simp only [checkSeeds, run_attempt_bind, forall_call]
    refine ⟨⟨seed, rfl⟩, fun r => ?_⟩
    cases r with
    | error e => trivial
    | ok layers => exact ih

/-- A volume is made from the parameters, with the content source added, and nothing else
happens. -/
lemma createVolume_always (req : CreateVolumeRequest) (w : World) :
    Always (env x) ok (fun _ w' res => w' = w ∧ ∀ vol, res = some (.ok vol) →
      ∃ params, PvcParams.parse req.parameters = .ok params ∧
        vol = mkVolume req (withSource params req.volumeContentSource))
      (createVolume req).run [] w := by
  unfold createVolume
  by_cases hname : req.name = []
  · rw [if_pos hname]
    exact ⟨⟨rfl, nofun⟩, rfl, nofun⟩
  by_cases hcap : req.volumeCapabilities = 0
  · rw [if_neg hname, if_pos hcap]
    exact ⟨⟨rfl, nofun⟩, rfl, nofun⟩
  rw [if_neg hname, if_neg hcap, run_require_bind]
  cases hp : PvcParams.parse req.parameters with
  | error e => exact ⟨⟨rfl, nofun⟩, rfl, nofun⟩
  | ok params =>
    refine Always.tryBind ((Always.of_forall (I := fun w' => w' = w)
      (checkSeeds_forall (withSource params req.volumeContentSource).seeds) ?_ rfl []).mono ?_)
    · rintro o c w' ⟨seed, rfl⟩ - rfl
      rfl
    · rintro tr w' res rfl
      refine ⟨⟨rfl, nofun⟩, fun e _ => ⟨rfl, nofun⟩, fun _ _ => ⟨⟨rfl, nofun⟩, rfl, ?_⟩⟩
      rintro vol ⟨⟩
      exact ⟨params, rfl, rfl⟩

/-- The same, without regard to the environment. -/
lemma createVolume_yields (req : CreateVolumeRequest) :
    Yields (fun res => ∀ vol, res = .ok vol → ∃ params, PvcParams.parse req.parameters = .ok params ∧
      vol = mkVolume req (withSource params req.volumeContentSource)) (createVolume req).run := by
  unfold createVolume
  split
  · exact nofun
  split
  · exact nofun
  rw [run_require_bind]
  cases hp : PvcParams.parse req.parameters with
  | error e => exact nofun
  | ok params =>
    simp only [Except.mapError, ExceptT.run_bind]
    refine (yields_true _).bind fun res _ => ?_
    cases res with
    | error e => exact nofun
    | ok u =>
      rintro vol ⟨⟩
      exact ⟨params, rfl, rfl⟩

/-- The context of a volume carries its parameters. -/
lemma parse_volumeContext {req : CreateVolumeRequest} {params : PvcParams}
    (h : ∀ s ∈ params.seeds, PvcParams.CleanSeed s) :
    PvcParams.parse (mkVolume req params).volumeContext = .ok params := by
  refine PvcParams.parse_toVolumeContext h fun k hk => ?_
  refine AList.lookup_insert_ne ?_
  rintro rfl
  exact absurd hk (by decide)

end Created

end ControllerService

end RspacefsCsi
