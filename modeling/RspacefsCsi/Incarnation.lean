/-
# A volume that is made again under its old name

The id of a volume is its name, and the path of its upper is made from the id, so a volume
that is made again under the name of a deleted one gets the directory of that one as its
upper.  No call writes to an upper, and none empties one either, `DeleteVolume` included: what
the mounts of the first volume have left there is what the first mount of the second one
finds.  Nothing of it is seen exactly when the first volume has left nothing of what was
written to it (`upper_fresh_iff`).
-/
import RspacefsCsi.Calls
import RspacefsCsi.Controller
import RspacefsCsi.History

namespace RspacefsCsi

open Lib Lib.Prog NodeService ControllerService

variable {x : Ext} {cl : OciClient} {mo : RspacefsMounter} {cfg : Config}

/-! ### The calls of the driver -/

/-- A call of the controller or of the node. -/
inductive Rpc
  | createVolume (req : CreateVolumeRequest)
  | deleteVolume (volumeId : Text)
  | createSnapshot (req : CreateSnapshotRequest)
  | publish (req : PublishRequest)
  | unpublish (req : UnpublishRequest)

/-- A call whose answer does not matter further. -/
def answered {α : Type} (p : Prog Op Resp (Except Status α)) : Prog Op Resp (Except Status Unit) :=
  p >>= fun r => .ret (r.map fun _ => ())

/-- The program of a call. -/
def Rpc.prog (cfg : Config) : Rpc → Prog Op Resp (Except Status Unit)
  | .createVolume req => answered (ControllerService.createVolume req).run
  | .deleteVolume volumeId => (ControllerService.deleteVolume volumeId).run
  | .createSnapshot req => answered (ControllerService.createSnapshot cfg req).run
  | .publish req => (nodePublishVolume cfg req).run
  | .unpublish req => (nodeUnpublishVolume cfg req).run

/-- What happens on the node: a call, or a running mount leaves its upper in another state. -/
inductive VolumeTurn
  | rpc (r : Rpc) (choices : List Choice)
  | write (m : Mount) (u : Tree)

/-- The world after it, for the driver as it is deployed. -/
def afterVolumeTurn (x : Ext) (cl : OciClient) (mo : RspacefsMounter) (cfg : Config) (w : World) :
    VolumeTurn → World
  | .rpc r choices => (run (env x) (link (deployed x.sha256 cl mo) (r.prog cfg)) choices w).world
  | .write m u => w.withUppers (Function.update w.uppers m.spec.upper.key u)

/-- Only running mounts write to an upper. -/
def ByMounts (w : World) : VolumeTurn → Prop
  | .rpc _ _ => True
  | .write m _ => m ∈ w.mounts

/-! ### What was written -/

/-- What is in an upper after some turns, if only the mounts matter. -/
def leftIn (k : Key) (u : Tree) : List VolumeTurn → Tree
  | [] => u
  | .rpc _ _ :: ts => leftIn k u ts
  | .write m u' :: ts => leftIn k (if m.spec.upper.key = k then u' else u) ts

/-- The entry `e` was written at `p` in the upper `k` in the course of the turns. -/
def WrittenIn (k : Key) (p : Key) (e : Entry Bytes) : Tree → List VolumeTurn → Prop
  | _, [] => False
  | u, .rpc _ _ :: ts => WrittenIn k p e u ts
  | u, .write m u' :: ts =>
      (m.spec.upper.key = k ∧ u'.lookup p = some e ∧ u.lookup p ≠ some e) ∨
        WrittenIn k p e (if m.spec.upper.key = k then u' else u) ts

instance instDecidableWrittenIn (k p : Key) (e : Entry Bytes) :
    (u : Tree) → (ts : List VolumeTurn) → Decidable (WrittenIn k p e u ts)
  | _, [] => isFalse id
  | u, .rpc _ _ :: ts => instDecidableWrittenIn k p e u ts
  | u, .write m u' :: ts =>
      @instDecidableOr _ _ inferInstance
        (instDecidableWrittenIn k p e (if m.spec.upper.key = k then u' else u) ts)

/-- The tree `v` holds nothing of what was written in the course of the turns. -/
def HoldsNone (k : Key) (u : Tree) (ts : List VolumeTurn) (v : Tree) : Prop :=
  ∀ p e, WrittenIn k p e u ts → v.lookup p ≠ some e

/-! ### No call writes to an upper -/

/-- No program of the driver changes an upper. -/
lemma run_uppers {α : Type} (p : Prog Op Resp α) (cs : List Choice) (w : World) :
    (run (env x) p cs w).world.uppers = w.uppers := by
  have hall : Forall (fun _ => True) p := by
    induction p with
    | ret a => trivial
    | call o k ih => exact ⟨trivial, ih⟩
  exact run_of_always ((@Always.of_forall _ _ _ _ _ _ anything)
    (I := fun w' : World => w'.uppers = w.uppers)
    hall (fun o c w' _ _ h => (env_uppers x o c w').trans h) rfl []) cs fun _ _ => trivial

/-- An upper after a run is what the mounts have left there. -/
lemma uppers_after (k : Key) (w : World) (ts : List VolumeTurn) :
    (ts.foldl (afterVolumeTurn x cl mo cfg) w).uppers k = leftIn k (w.uppers k) ts := by
  induction ts generalizing w with
  | nil => rfl
  | cons t ts ih =>
    rw [List.foldl_cons, ih]
    cases t with
    | rpc r cs =>
      rw [leftIn, afterVolumeTurn, run_uppers]
    | write m u =>
      have hk : (afterVolumeTurn x cl mo cfg w (.write m u)).uppers k
          = if m.spec.upper.key = k then u else w.uppers k := by
        change Function.update w.uppers m.spec.upper.key u k = _
        rw [Function.update_apply]
        simp only [eq_comm]
      rw [leftIn, hk]

/-! ### Nothing is mounted on the upper of a volume -/

/-- No mount that is asked for uses the upper `k`. -/
def MountsOff (k : Key) (o : Op) : Prop :=
  ∀ spec, o = .mount spec ∨ (∃ bin args, o = .execMount bin args spec) → spec.upper.key ≠ k

/-- No running mount uses the upper `k`. -/
def Unused (k : Key) (w : World) : Prop := ∀ m ∈ w.mounts, m.spec.upper.key ≠ k

instance (k : Key) (w : World) : Decidable (Unused k w) := by unfold Unused; infer_instance

lemma unused_env {k : Key} {o : Op} (ho : MountsOff k o) (c : Choice) {w : World} (h : Unused k w) :
    Unused k (env x o c w).2 := by
  have hs := step x o c w
  generalize (env x o c w).2 = w' at hs
  cases hs with
  | mount =>
    intro m hm
    rcases List.mem_cons.1 hm with rfl | hm
    · exact ho _ (.inl rfl)
    · exact h m hm
  | execMount =>
    intro m hm
    rcases List.mem_cons.1 hm with rfl | hm
    · exact ho _ (.inr ⟨_, _, rfl⟩)
    · exact h m hm
  | unmount => exact fun m hm => h m (List.mem_of_mem_eraseP hm)
  | exec => exact fun m hm => h m (List.mem_of_mem_eraseP hm)
  | files => exact h
  | blob => exact h
  | manifest => exact h

/-- A request that is no mount. -/
def NoMount : Op → Prop
  | .mount _ | .execMount _ _ _ => False
  | _ => True

lemma NoMount.mountsOff {o : Op} (h : NoMount o) (k : Key) : MountsOff k o := by
  rintro spec (rfl | ⟨bin, args, rfl⟩)
  · exact absurd h id
  · exact absurd h id

lemma noMount_of_fetches {o : Op} (h : OciClient.Fetches o) : NoMount o := by
  cases o <;> first | exact absurd h id | trivial

lemma noMount_of_sends {o : Op} (h : OciClient.Sends o) : NoMount o := by
  cases o <;> first | exact absurd h id | trivial

/-- The requests of an unmount: whether there is something, and commands. -/
lemma RspacefsMounter.unmount_forall {P : Op → Prop} (hthere : ∀ p, P (.pathExists p))
    (hexec : ∀ bin args, P (.exec bin args)) (target : PathBuf) :
    Forall P (RspacefsMounter.unmount target).run := by
  have hrun : ∀ bin args (k : Bool → Handler MountError Unit), (∀ b, Forall P (k b).run) →
      Forall P (RspacefsMounter.runOk bin args >>= k).run := by
    intro bin args k hk
    simp only [RspacefsMounter.runOk, run_attempt_bind, forall_call]
    refine ⟨hexec bin args, fun r => ?_⟩
    cases r with
    | error e => exact hk false
    | ok out => exact hk _
  simp only [RspacefsMounter.unmount, run_request_bind, forall_call]
  refine ⟨hthere target, fun there => ?_⟩
  split
  · refine hrun _ _ _ fun b => ?_
    split
    · trivial
    refine hrun _ _ _ fun b => ?_
    split
    · trivial
    refine hrun _ _ _ fun b => ?_
    split <;> trivial
  · trivial

/-- Resolving a seed asks for one manifest. -/
lemma OciClient.resolve_forall {P : Op → Prop} (hget : ∀ url r, P (.getManifest url r))
    (seed : Text) : Forall P (cl.resolve seed).run := by
  simp only [OciClient.resolve, OciClient.fetchManifest, run_require_bind]
  split
  · simp only [run_attempt_bind, forall_call]
    refine ⟨hget _ _, fun res => ?_⟩
    split <;> trivial
  · trivial

/-- The programs of the driver ask for the mounts they are asked for. -/
lemma deployed_mountsOff {k : Key} (o : Op) (ho : MountsOff k o) :
    Forall (MountsOff k) (deployed x.sha256 cl mo o) := by
  cases o with
  | mount spec =>
    refine ⟨?_, fun _ => trivial⟩
    rintro spec' (h | ⟨bin, args, h⟩)
    · exact absurd h nofun
    · obtain ⟨-, -, rfl⟩ := Op.execMount.inj h
      exact ho spec (.inl rfl)
  | unmount target =>
    exact RspacefsMounter.unmount_forall (fun _ => NoMount.mountsOff (by trivial) k)
      (fun _ _ => NoMount.mountsOff (by trivial) k) target
  | resolve seed =>
    exact OciClient.resolve_forall (fun _ _ => NoMount.mountsOff (by trivial) k) seed
  | pullLayers seed dir =>
    refine (OciClient.pullLayers_forall seed dir).mono fun o h => NoMount.mountsOff ?_ k
    rcases h with ⟨url, r, rfl⟩ | rfl | h
    · trivial
    · trivial
    · exact noMount_of_fetches h
  | pushRevision targetRef blobPath layerDigest layerSize =>
    exact (OciClient.pushRevision_forall targetRef blobPath layerDigest layerSize).mono
      fun o h => (noMount_of_sends h).mountsOff k
  | _ => exact ⟨ho, fun _ => trivial⟩

/-- The mount of a publish is on the upper of its volume. -/
lemma publish_mountsOff {req : PublishRequest} {k : Key}
    (h : (cfg.upperDir req.volumeId).key ≠ k) :
    Forall (MountsOff k) (nodePublishVolume cfg req).run := by
  unfold nodePublishVolume
  split
  · trivial
  split
  · trivial
  rw [run_require_bind]
  cases PvcParams.parse req.volumeContext with
  | error e => trivial
  | ok params =>
    simp only [Except.mapError, ExceptT.run_bind]
    refine ((pullSeeds_forall _ _).mono ?_).bind fun res => ?_
    · rintro o ⟨seed, rfl⟩
      exact NoMount.mountsOff (by trivial) k
    cases res with
    | error e => trivial
    | ok blobs =>
      refine (attach_forall req params blobs).mono ?_
      rintro o (⟨p, -, rfl⟩ | rfl | rfl)
      · exact NoMount.mountsOff (by trivial) k
      · rintro spec (hs | ⟨bin, args, hs⟩)
        · obtain rfl := Op.mount.inj hs
          exact h
        · exact absurd hs nofun
      · exact NoMount.mountsOff (by trivial) k

/-- Apart from the publishes, no call mounts anything. -/
lemma rpc_mountsOff {k : Key} (r : Rpc)
    (h : ∀ req, r = .publish req → (cfg.upperDir req.volumeId).key ≠ k) :
    Forall (MountsOff k) (r.prog cfg) := by
  cases r with
  | createVolume req =>
    refine Forall.bind ?_ fun _ => trivial
    unfold ControllerService.createVolume
    split
    · trivial
    split
    · trivial
    rw [run_require_bind]
    cases PvcParams.parse req.parameters with
    | error e => trivial
    | ok params =>
      simp only [Except.mapError, ExceptT.run_bind]
      refine ((checkSeeds_forall _).mono ?_).bind fun res => ?_
      · rintro o ⟨seed, rfl⟩
        exact NoMount.mountsOff (by trivial) k
      · cases res <;> trivial
  | deleteVolume volumeId =>
    simp only [Rpc.prog, ControllerService.deleteVolume]
    split <;> trivial
  | createSnapshot req =>
    refine Forall.bind ?_ fun _ => trivial
    unfold ControllerService.createSnapshot
    split
    · trivial
    split
    · trivial
    rw [run_require_bind]
    cases snapshotTarget cfg req.parameters req.sourceVolumeId req.name with
    | error e => trivial
    | ok targetRef =>
      simp only [run_request_bind]
      refine ⟨NoMount.mountsOff (by trivial) k, fun there => ?_⟩
      cases there with
      | false => trivial
      | true =>
        simp only [if_true, run_within_bind]
        refine Forall.bind ?_ fun res => ?_
        · exact freeze_forall (NoMount.mountsOff (by trivial) k) (NoMount.mountsOff (by trivial) k)
            (fun _ _ => NoMount.mountsOff (by trivial) k) (NoMount.mountsOff (by trivial) k)
        cases res <;> trivial
  | publish req => exact publish_mountsOff (h req rfl)
  | unpublish req =>
    refine (unpublish_forall req).mono fun o ho => NoMount.mountsOff ?_ k
    cases ho with
    | freeze h => cases h <;> trivial
    | _ => trivial

/-- A call that publishes no volume with the upper `k` leaves it unused. -/
lemma unused_after {k : Key} {w : World} (h : Unused k w) {t : VolumeTurn}
    (ht : ∀ req cs, t = .rpc (.publish req) cs → (cfg.upperDir req.volumeId).key ≠ k) :
    Unused k (afterVolumeTurn x cl mo cfg w t) := by
  cases t with
  | write m u => exact h
  | rpc r cs =>
    have hforall : Forall (MountsOff k) (link (deployed x.sha256 cl mo) (r.prog cfg)) :=
      (rpc_mountsOff r fun req hr => ht req cs (by rw [hr])).link fun o ho => deployed_mountsOff o ho
    exact run_of_always ((@Always.of_forall _ _ _ _ _ _ anything) hforall
      (fun o c w' ho _ hw => unused_env ho c hw) h []) cs fun _ _ => trivial

/-- Nothing that is not mounted is written to. -/
lemma leftIn_unused {k : Key} {w : World} (h : Unused k w) (u : Tree) {ts : List VolumeTurn}
    (hts : Along (afterVolumeTurn x cl mo cfg) (fun w t => ByMounts w t ∧
      ∀ req cs, t = .rpc (.publish req) cs → (cfg.upperDir req.volumeId).key ≠ k) w ts) :
    leftIn k u ts = u := by
  induction ts generalizing w with
  | nil => rfl
  | cons t ts ih =>
    obtain ⟨⟨hby, hpub⟩, hrest⟩ := hts
    have hrec := ih (unused_after h hpub) hrest
    cases t with
    | rpc r cs => exact hrec
    | write m u' =>
      rw [leftIn, if_neg (h m hby)]
      exact hrec

/-! ### The upper of the second volume -/

/-- The mount a request asks for. -/
def askedMount : Ev → Option MountSpec
  | ⟨.execMount _ _ spec, _⟩ => some spec
  | _ => none

/-- The mounts that were asked for. -/
def askedMounts (tr : List Ev) : List MountSpec := tr.filterMap askedMount

lemma exists_of_mem_askedMounts {tr : List Ev} {spec : MountSpec} (h : spec ∈ askedMounts tr) :
    ∃ bin args r, (⟨.execMount bin args spec, r⟩ : Ev) ∈ tr := by
  obtain ⟨⟨o, r⟩, he, hspec⟩ := List.mem_filterMap.1 h
  cases o with
  | execMount bin args spec' =>
    obtain rfl := Option.some.inj hspec
    exact ⟨bin, args, r, he⟩
  | _ => exact absurd hspec nofun

/-- **When the second volume of a name starts afresh.**  After the turns `first`, in which a
volume of the name was used and at the end of which nothing is mounted for it, it is deleted;
after the turns `between`, in which it is not published, a volume of the same name is
created and published.  The upper of its mount holds nothing of what was written in the
course of `first` if and only if what the mounts had left in the upper holds nothing of it. -/
theorem upper_fresh_iff (x : Ext) (cl : OciClient) (mo : RspacefsMounter) (cfg : Config) {name : Text}
    {w₀ : World} {first : List VolumeTurn}
    (hunpublished : Unused (cfg.upperDir name).key (first.foldl (afterVolumeTurn x cl mo cfg) w₀))
    {deletion : List Choice} {between : List VolumeTurn}
    (hbetween : Along (afterVolumeTurn x cl mo cfg) (fun w t => ByMounts w t ∧
      ∀ req cs, t = .rpc (.publish req) cs →
        (cfg.upperDir req.volumeId).key ≠ (cfg.upperDir name).key)
      (afterVolumeTurn x cl mo cfg (first.foldl (afterVolumeTurn x cl mo cfg) w₀)
        (.rpc (.deleteVolume name) deletion)) between)
    {req : CreateVolumeRequest} (hname : req.name = name) {creation : List Choice} {vol : Volume} :
    let w₂ := between.foldl (afterVolumeTurn x cl mo cfg)
      (afterVolumeTurn x cl mo cfg (first.foldl (afterVolumeTurn x cl mo cfg) w₀)
        (.rpc (.deleteVolume name) deletion))
    let created := run (env x) (link (deployed x.sha256 cl mo) (createVolume req).run) creation w₂
    created.result = some (.ok vol) → ∀ target readonly cs,
    let published := run (env x) (link (deployed x.sha256 cl mo)
      (nodePublishVolume cfg ⟨vol.volumeId, target, vol.volumeContext, readonly⟩).run) cs
      created.world
    ∀ spec ∈ askedMounts published.trace,
      (HoldsNone (cfg.upperDir name).key (w₀.uppers (cfg.upperDir name).key) first
          (published.world.uppers spec.upper.key) ↔
        HoldsNone (cfg.upperDir name).key (w₀.uppers (cfg.upperDir name).key) first
          (leftIn (cfg.upperDir name).key (w₀.uppers (cfg.upperDir name).key) first)) := by
  intro w₂ created hcreated target readonly cs published spec hasked
  obtain ⟨bin, args, r, hmount⟩ := exists_of_mem_askedMounts hasked
  have hid : vol.volumeId = name := by
    obtain ⟨params, -, rfl⟩ := (createVolume_yields req).link.run_result hcreated vol rfl
    exact hname
  -- the mount is on the upper of the volume
  have hspec : spec.upper.key = (cfg.upperDir name).key := by
    by_contra hne
    rw [← hid] at hne
    have hforall := ((@publish_mountsOff cfg ⟨vol.volumeId, target, vol.volumeContext, readonly⟩)
      (Ne.symm hne)).link
      fun o ho => (@deployed_mountsOff x cl mo) o ho
    exact hforall.run_trace cs created.world _ hmount spec (.inr ⟨bin, args, rfl⟩) rfl
  have hupper : published.world.uppers spec.upper.key
      = leftIn (cfg.upperDir name).key (w₀.uppers (cfg.upperDir name).key) first := by
    rw [hspec, run_uppers, run_uppers, uppers_after, leftIn_unused ?_ _ hbetween]
    · change (run (env x) _ deletion _).world.uppers _ = _
      rw [run_uppers, uppers_after]
    · exact unused_after hunpublished nofun
  rw [hupper]

/-! ### A volume that leaves a file, and one that does not -/

namespace Sample

/-- A request for a volume without parameters. -/
def plainCreate : CreateVolumeRequest := ⟨volumeId, none, 1, ∅, none⟩

/-- The volume it makes. -/
def plainVolume : Volume := mkVolume plainCreate ⟨[], none, none, none, false, none⟩

/-- Its publish. -/
def plainPublish : PublishRequest :=
  ⟨plainVolume.volumeId, "/pods/a".toList, plainVolume.volumeContext, false⟩

/-- The mount of that. -/
def plainMount : MountSpec := mountSpec config plainPublish ⟨[], none, none, none, false, none⟩ []

/-- The volume is created, published, written to, and unpublished. -/
def firstLife (writes : List Tree) : List VolumeTurn :=
  [.rpc (.createVolume plainCreate) smooth, .rpc (.publish plainPublish) smooth] ++
    writes.map (.write ⟨0, plainMount, []⟩) ++
    [.rpc (.unpublish ⟨volumeId, "/pods/a".toList⟩) smooth]

/-- The world after a turn. -/
def afterLife : World → VolumeTurn → World :=
  afterVolumeTurn ext ⟨"http".toList⟩ mounter config

/-- The volume has been deleted. -/
def deleted (writes : List Tree) : World :=
  afterLife ((firstLife writes).foldl afterLife World.blank) (.rpc (.deleteVolume volumeId) smooth)

/-- A volume of the same name is created. -/
def createdAgain (writes : List Tree) : Outcome Op Resp World (Except Status Volume) :=
  run (env ext) (link (deployed ext.sha256 ⟨"http".toList⟩ mounter) (createVolume plainCreate).run) smooth
    (deleted writes)

lemma createdAgain_result (writes : List Tree) :
    (createdAgain writes).result = some (.ok plainVolume) := by
  have hp : PvcParams.parse plainCreate.parameters = .ok ⟨[], none, none, none, false, none⟩ := by
    decide +kernel
  have hprog : link (deployed ext.sha256 ⟨"http".toList⟩ mounter) (createVolume plainCreate).run
      = .ret (.ok plainVolume) := by
    unfold createVolume
    rw [if_neg (by decide), if_neg (by decide), hp]
    rfl
  rw [createdAgain, hprog]
  rfl

/-- It is published. -/
def publishedAgain (writes : List Tree) : Outcome Op Resp World (Except Status Unit) :=
  run (env ext) (link (deployed ext.sha256 ⟨"http".toList⟩ mounter)
    (nodePublishVolume config plainPublish).run) smooth (createdAgain writes).world

end Sample

/-- A file that is written and removed again is not there for the second volume. -/
theorem upper_fresh_removed :
    HoldsNone (Sample.config.upperDir Sample.volumeId).key ∅ (Sample.firstLife [Sample.note, ∅])
      ((Sample.publishedAgain [Sample.note, ∅]).world.uppers Sample.plainMount.upper.key) := by
  have hfacts : Unused (Sample.config.upperDir Sample.volumeId).key
        ((Sample.firstLife [Sample.note, ∅]).foldl Sample.afterLife World.blank) ∧
      Sample.plainMount ∈ askedMounts (Sample.publishedAgain [Sample.note, ∅]).trace ∧
      (leftIn (Sample.config.upperDir Sample.volumeId).key ∅
        (Sample.firstLife [Sample.note, ∅])).entries.length = 0 := by
    decide +kernel
  obtain ⟨hunused, hmounted, hleft⟩ := hfacts
  have hcreated := Sample.createdAgain_result [Sample.note, ∅]
  generalize hturns : Sample.firstLife [Sample.note, ∅] = turns at hunused hleft ⊢
  simp only [Sample.publishedAgain, Sample.createdAgain, Sample.deleted, hturns]
    at hcreated hmounted ⊢
  refine (@upper_fresh_iff Sample.ext ⟨"http".toList⟩ Sample.mounter Sample.config Sample.volumeId
    World.blank turns hunused _ [] trivial Sample.plainCreate rfl _ _ hcreated _ _ _ _
    hmounted).2 fun p e _ => ?_
  have hempty : leftIn (Sample.config.upperDir Sample.volumeId).key ∅ turns = ∅ :=
    AList.ext (List.length_eq_zero_iff.1 hleft)
  change (leftIn (Sample.config.upperDir Sample.volumeId).key ∅ turns).lookup p ≠ some e
  rw [hempty, AList.lookup_empty]
  exact nofun

/-- A volume is created, published, written to, unpublished and deleted; the upper of the next
volume of that name holds the file. -/
theorem upper_not_fresh :
    (run (env Sample.ext) (link (deployed Sample.ext.sha256 ⟨"http".toList⟩ Sample.mounter)
        ((Rpc.deleteVolume Sample.volumeId).prog Sample.config)) Sample.smooth
        ((Sample.firstLife [Sample.note]).foldl Sample.afterLife World.blank)).result
        = some (.ok ()) ∧
      (Sample.publishedAgain [Sample.note]).result = some (.ok ()) ∧
      Sample.plainMount ∈ askedMounts (Sample.publishedAgain [Sample.note]).trace ∧
      ¬HoldsNone (Sample.config.upperDir Sample.volumeId).key ∅ (Sample.firstLife [Sample.note])
        ((Sample.publishedAgain [Sample.note]).world.uppers Sample.plainMount.upper.key) := by
  have hfacts : (run (env Sample.ext) (link (deployed Sample.ext.sha256 ⟨"http".toList⟩
        Sample.mounter) ((Rpc.deleteVolume Sample.volumeId).prog Sample.config)) Sample.smooth
        ((Sample.firstLife [Sample.note]).foldl Sample.afterLife World.blank)).result
        = some (.ok ()) ∧
      (Sample.publishedAgain [Sample.note]).result = some (.ok ()) ∧
      Sample.plainMount ∈ askedMounts (Sample.publishedAgain [Sample.note]).trace ∧
      ((Sample.publishedAgain [Sample.note]).world.uppers Sample.plainMount.upper.key).lookup
        ["f".toList] = some (.data (Sample.ascii "hi")) ∧
      WrittenIn (Sample.config.upperDir Sample.volumeId).key ["f".toList]
        (.data (Sample.ascii "hi")) ∅ (Sample.firstLife [Sample.note]) := by
    decide +kernel
  obtain ⟨hdeleted, hpublished, hmounted, hfile, hwritten⟩ := hfacts
  exact ⟨hdeleted, hpublished, hmounted, fun h => h _ _ hwritten hfile⟩

end RspacefsCsi
