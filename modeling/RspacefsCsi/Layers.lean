/-
# The order of layers

A manifest lists its layers from the base to the top, `rspacefs-mount` wants them from the
top down, and the seeds of a volume come one after the other.  The results here follow the
layers from the manifests that were served to the arguments of the command, in all
environments, for the driver as it is deployed: with its own registry client and its own
mounter (`layer_order`).  The arguments tell the whole specification of the mount
(`args_injective`), although a name or an owner may look like a flag.
-/
import RspacefsCsi.Cache
import RspacefsCsi.Handoff
import RspacefsCsi.Mount

namespace RspacefsCsi

open Lib Lib.Prog

/-! ### The arguments of the command -/

namespace MountSpec

/-- The values of a flag, in order, where every flag takes a value. -/
def valuesOf (flag : Text) : List Text → List Text
  | f :: v :: rest => if f = flag then v :: valuesOf flag rest else valuesOf flag rest
  | _ => []

/-- The values of `--lower-blob` in the arguments of the command, which begin with the only
flag that takes no value. -/
def lowerBlobValues (argv : List Text) : List Text := valuesOf "--lower-blob".toList argv.tail

lemma valuesOf_flatMap (flag : Text) (blobs : List PathBuf) (rest : List Text) :
    valuesOf flag (blobs.flatMap (fun b => [flag, b.text]) ++ rest)
      = blobs.map PathBuf.text ++ valuesOf flag rest := by
  induction blobs with
  | nil => rfl
  | cons b blobs ih =>
    simp only [List.flatMap_cons, List.cons_append, List.nil_append, valuesOf, if_true, ih,
      List.map_cons]

lemma lowerBlobValues_args (s : MountSpec) :
    lowerBlobValues s.args = s.lowerBlobs.map PathBuf.text := by
  have hskip : ∀ f v rest, f ≠ "--lower-blob".toList →
      valuesOf "--lower-blob".toList (f :: v :: rest) = valuesOf "--lower-blob".toList rest :=
    fun f v rest hf => if_neg hf
  cases ho : s.owner with
  | none =>
    simp only [lowerBlobValues, args, ho, List.append_assoc, List.cons_append, List.nil_append,
      List.tail_cons]
    rw [hskip _ _ _ (by decide), hskip _ _ _ (by decide), hskip _ _ _ (by decide),
      valuesOf_flatMap, hskip _ _ _ (by decide), hskip _ _ _ (by decide)]
    exact List.append_nil _
  | some owner =>
    simp only [lowerBlobValues, args, ho, List.append_assoc, List.cons_append, List.nil_append,
      List.tail_cons]
    rw [hskip _ _ _ (by decide), hskip _ _ _ (by decide), hskip _ _ _ (by decide),
      valuesOf_flatMap, hskip _ _ _ (by decide), hskip _ _ _ (by decide), hskip _ _ _ (by decide)]
    exact List.append_nil _

/-- The lower blobs and what follows them can be told apart. -/
lemma flatMap_blobs_inj {as bs : List PathBuf} {r r' : List Text}
    (h : as.flatMap (fun b => ["--lower-blob".toList, b.text]) ++ "--upper".toList :: r
      = bs.flatMap (fun b => ["--lower-blob".toList, b.text]) ++ "--upper".toList :: r') :
    as = bs ∧ r = r' := by
  induction as generalizing bs with
  | nil =>
    cases bs with
    | nil => exact ⟨rfl, (List.cons.inj h).2⟩
    | cons b bs => exact absurd (List.cons.inj h).1 (by decide)
  | cons a as ih =>
    cases bs with
    | nil => exact absurd (List.cons.inj h).1 (by decide)
    | cons b bs =>
      simp only [List.flatMap_cons, List.cons_append, List.nil_append, List.cons.injEq,
        true_and] at h
      obtain ⟨hab, h⟩ := h
      obtain ⟨rfl, rfl⟩ := ih h
      obtain rfl : a = b := by
        cases a
        cases b
        exact congrArg _ hab
      exact ⟨rfl, rfl⟩

lemma asFlag_injective : Function.Injective AccessMode.asFlag := by
  intro a b h
  exact Option.some.inj (by rw [← AccessMode.parse_asFlag a, ← AccessMode.parse_asFlag b, h])

lemma lifecycle_asFlag_injective : Function.Injective Lifecycle.asFlag := by
  intro a b h
  exact Option.some.inj (by rw [← Lifecycle.parse_asFlag a, ← Lifecycle.parse_asFlag b, h])

/-- The arguments determine the specification. -/
lemma args_inj {s t : MountSpec} (h : s.args = t.args) : s = t := by
  obtain ⟨name, ⟨target⟩, ⟨upper⟩, ⟨socket⟩, mode, life, owner, blobs⟩ := s
  obtain ⟨name', ⟨target'⟩, ⟨upper'⟩, ⟨socket'⟩, mode', life', owner', blobs'⟩ := t
  simp only [args, List.append_assoc, List.cons_append, List.nil_append, List.cons.injEq,
    true_and] at h
  obtain ⟨rfl, hmode, hlife, h⟩ := h
  obtain rfl := asFlag_injective hmode
  obtain rfl := lifecycle_asFlag_injective hlife
  obtain ⟨hblobs, htail⟩ := flatMap_blobs_inj h
  obtain ⟨hupper, hrest⟩ := List.cons.inj htail
  subst hblobs hupper
  -- what follows is `--owner` or `--control-socket`
  cases owner with
  | none =>
    cases owner' with
    | none =>
      simp only [List.nil_append, List.cons.injEq, true_and, and_true] at hrest
      obtain ⟨rfl, rfl⟩ := hrest
      rfl
    | some o => exact absurd (List.cons.inj hrest).1 (by decide)
  | some o =>
    cases owner' with
    | none => exact absurd (List.cons.inj hrest).1 (by decide)
    | some o' =>
      simp only [List.cons_append, List.nil_append, List.cons.injEq, true_and, and_true] at hrest
      obtain ⟨rfl, rfl, rfl⟩ := hrest
      rfl

end MountSpec

/-! ### The driver as it is deployed -/

/-- The driver's own registry client and its own mounter. -/
def deployed (sha256 : Bytes → Bytes) (cl : OciClient) (mo : RspacefsMounter) :
    (o : Op) → Prog Op Resp (Resp o)
  | .mount spec => (mo.mount spec).run
  | .unmount target => (RspacefsMounter.unmount target).run
  | o => OciClient.impl sha256 cl o

section Requests

variable (sha256 : Bytes → Bytes) (cl : OciClient) (mo : RspacefsMounter)

@[simp] lemma deployed_createDirAll (p : PathBuf) :
    deployed sha256 cl mo (.createDirAll p) = perform (Op.createDirAll p) := rfl

@[simp] lemma deployed_writeFile (p : PathBuf) (b : Bytes) :
    deployed sha256 cl mo (.writeFile p b) = perform (Op.writeFile p b) := rfl

@[simp] lemma deployed_mount (spec : MountSpec) :
    deployed sha256 cl mo (.mount spec) = (mo.mount spec).run := rfl

@[simp] lemma deployed_pullLayers (seed : Text) (dir : PathBuf) :
    deployed sha256 cl mo (.pullLayers seed dir) = (OciClient.pullLayers sha256 cl seed dir).run := rfl

end Requests

/-! ### Layers in a trace -/

/-- The reference and the body of a manifest that was served. -/
def servedManifest : Ev → Option (Reference × Bytes)
  | ⟨.getManifest _ r, .ok (code, body)⟩ => if isSuccess code then some (r, body) else none
  | _ => none

lemma filterMap_concat {γ : Type} (f : Ev → Option γ) (tr : List Ev) {e : Ev} (h : f e = none) :
    (tr ++ [e]).filterMap f = tr.filterMap f := by
  rw [List.filterMap_append, List.filterMap_cons_none h, List.filterMap_nil, List.append_nil]

/-- The manifests that were served, in order. -/
def servedManifests (tr : List Ev) : List (Reference × Bytes) := tr.filterMap servedManifest

/-- The arguments of a run of `rspacefs-mount`. -/
def mountArgv : Ev → Option (List Text)
  | ⟨.execMount _ args _, _⟩ => some args
  | _ => none

/-- The runs of `rspacefs-mount`, in order. -/
def mountArgvs (tr : List Ev) : List (List Text) := tr.filterMap mountArgv

/-- The layers of a manifest, from the base to the top. -/
def manifestLayers (body : Bytes) : Option (List LayerRef) :=
  ((Json.fromSlice body).bind WireManifest.ofJson).map WireManifest.layers

lemma parseLayers_eq_ok {r : Reference} {body : Bytes} {layers : List LayerRef}
    (h : parseLayers r body = .ok layers) :
    manifestLayers body = some layers.reverse ∧ layers ≠ [] := by
  unfold parseLayers at h
  unfold manifestLayers
  cases hm : (Json.fromSlice body).bind WireManifest.ofJson with
  | none =>
    rw [hm] at h
    exact absurd h nofun
  | some m =>
    simp only [hm] at h
    by_cases hi : m.manifests ≠ []
    · rw [if_pos hi] at h
      exact absurd h nofun
    by_cases hl : m.layers = []
    · rw [if_neg hi, if_pos hl] at h
      exact absurd h nofun
    · rw [if_neg hi, if_neg hl, Except.ok.injEq] at h
      subst h
      exact ⟨by rw [List.reverse_reverse]; rfl, fun h => hl (List.reverse_eq_nil_iff.1 h)⟩

section Deployed

variable {C W : Type} {E : (o : Op) → C → W → Resp o × W} {ok : C → Prop}
  {sha256 : Bytes → Bytes} {cl : OciClient} {mo : RspacefsMounter} {cfg : Config}

namespace OciClient

/-- The requests that fetch a layer. -/
def Fetches : Op → Prop
  | .tryExists _ | .getBlob _ _ _ | .fileCreate _ | .fileWrite _ _ _ | .fileFlush _
  | .removeFile _ | .renameFile _ _ => True
  | _ => False

/-- Those that fetch a blob of `r` with one of the digests. -/
def FetchesOf (r : Reference) (digests : Text → Prop) : Op → Prop
  | .getBlob _ r' digest => r' = r ∧ digests digest
  | o => Fetches o

lemma FetchesOf.mono {r : Reference} {D D' : Text → Prop} (h : ∀ d, D d → D' d) {o : Op}
    (ho : FetchesOf r D o) : FetchesOf r D' o := by
  cases o with
  | getBlob url r' d => exact ⟨ho.1, h d ho.2⟩
  | _ => exact ho

lemma FetchesOf.fetches {r : Reference} {D : Text → Prop} {o : Op} (ho : FetchesOf r D o) :
    Fetches o := by
  cases o with
  | getBlob url r' d => trivial
  | _ => exact ho

lemma writeChunks_forall {r : Reference} {D : Text → Prop} (ino : ℕ) (acc : Bytes)
    (items : List (Except Text Bytes)) :
    Forall (FetchesOf r D) (writeChunks ino acc items).run := by
  induction items generalizing acc with
  | nil => trivial
  | cons item items ih =>
    cases item with
    | error e => trivial
    | ok chunk =>
      simp only [writeChunks, run_attempt_bind, forall_call]
      refine ⟨trivial, fun r => ?_⟩
      cases r with
      | error e => trivial
      | ok u => exact ih _

lemma pullBlobTo_forall (r : Reference) (digest : Text) (out : PathBuf) :
    Forall (FetchesOf r (· = digest)) (pullBlobTo sha256 cl r digest out).run := by
  simp only [pullBlobTo, run_attempt_bind, forall_call]
  refine ⟨⟨rfl, rfl⟩, fun res => ?_⟩
  cases checkReply (cl.blobUrl r digest) res with
  | error e => trivial
  | ok items =>
    refine ⟨trivial, fun res => ?_⟩
    cases res with
    | error e => trivial
    | ok ino =>
      simp only [checkIo, Except.mapError]
      rw [ExceptT.run_bind]
      refine (writeChunks_forall ino [] items).bind fun res => ?_
      cases res with
      | error e => trivial
      | ok body =>
        simp only [run_attempt_bind, forall_call]
        refine ⟨trivial, fun res => ?_⟩
        cases res with
        | error e => trivial
        | ok u =>
          by_cases hd : Text.eqIgnoreAsciiCase digest (digestOf sha256 body) = true
          · simp only [Except.mapError, if_pos hd]
            trivial
          · simp only [Except.mapError, if_neg hd]
            exact ⟨trivial, fun _ => trivial⟩

lemma pullLayer_forall (r : Reference) (dir : PathBuf) (layer : LayerRef) :
    Forall (FetchesOf r (· = layer.digest)) (pullLayer sha256 cl r dir layer).run := by
  simp only [pullLayer, run_request_bind, forall_call]
  refine ⟨trivial, fun there => ?_⟩
  split
  · trivial
  · rw [ExceptT.run_bind]
    refine (pullBlobTo_forall r layer.digest _).bind fun res => ?_
    cases res with
    | error e => trivial
    | ok u =>
      simp only [run_attempt_bind, forall_call]
      refine ⟨trivial, fun res => ?_⟩
      cases res <;> trivial

lemma pullEach_fetchesOf (r : Reference) (dir : PathBuf) (layers : List LayerRef) :
    Forall (FetchesOf r fun d => ∃ layer ∈ layers, layer.digest = d)
      (pullEach sha256 cl r dir layers).run := by
  induction layers with
  | nil => trivial
  | cons layer layers ih =>
    rw [pullEach, ExceptT.run_bind]
    refine ((pullLayer_forall r dir layer).mono fun o ho => ho.mono fun d hd =>
      ⟨layer, List.mem_cons_self, hd.symm⟩).bind fun res => ?_
    cases res with
    | error e => trivial
    | ok path =>
      simp only
      rw [ExceptT.run_bind]
      refine (ih.mono fun o ho => ho.mono fun d hd => ?_).bind fun res => ?_
      · obtain ⟨l, hl, hd⟩ := hd
        exact ⟨l, List.mem_cons_of_mem _ hl, hd⟩
      · cases res <;> trivial

lemma pullEach_forall (r : Reference) (dir : PathBuf) (layers : List LayerRef) :
    Forall Fetches (pullEach sha256 cl r dir layers).run :=
  (pullEach_fetchesOf r dir layers).mono fun _ h => h.fetches

/-- The path of a layer in a directory. -/
def blobPath (dir : PathBuf) (layer : LayerRef) : PathBuf := dir.join (blobName layer.digest)

/-- A layer that was pulled is in its file. -/
lemma pullLayer_path (r : Reference) (dir : PathBuf) (layer : LayerRef) (tr : List Ev) (w : W) :
    Always E ok (fun _ _ res => ∀ path, res = some (.ok path) → path = blobPath dir layer)
      (pullLayer sha256 cl r dir layer).run tr w := by
  simp only [pullLayer, run_request_bind]
  refine ⟨none_returned, fun c _ => ?_⟩
  dsimp only
  split
  · refine ⟨none_returned, ?_⟩
    rintro path ⟨⟩
    rfl
  · refine Always.tryBind (Always.of_forall (I := fun _ => True) (pullBlobTo_forall r layer.digest _)
      (fun _ _ _ _ _ _ => trivial) trivial _ |>.mono fun tr w res _ =>
        ⟨none_returned, by rintro _ _ _ ⟨⟩, fun _ _ => ?_⟩)
    simp only [run_attempt_bind]
    refine ⟨none_returned, fun c _ => ?_⟩
    generalize E (.renameFile _ _) c w = res
    obtain ⟨res, w'⟩ := res
    cases res with
    | error e => exact ⟨none_returned, none_ok⟩
    | ok u =>
      refine ⟨none_returned, ?_⟩
      rintro path ⟨⟩
      rfl

/-- Layers that were pulled are in their files, in order. -/
lemma pullEach_paths (r : Reference) (dir : PathBuf) (layers : List LayerRef) (tr : List Ev) (w : W) :
    Always E ok (fun _ _ res => ∀ paths, res = some (.ok paths) → paths = layers.map (blobPath dir))
      (pullEach sha256 cl r dir layers).run tr w := by
  induction layers generalizing tr w with
  | nil =>
    refine ⟨nofun, ?_⟩
    rintro paths ⟨⟩
    rfl
  | cons layer layers ih =>
    refine Always.tryBind ((pullLayer_path r dir layer tr w).mono fun tr w res h =>
      ⟨nofun, nofun, fun path hpath => ?_⟩)
    obtain rfl := h path hpath
    refine Always.tryBind ((ih tr w).mono fun tr w res h => ⟨nofun, nofun, fun paths hpaths => ?_⟩)
    obtain rfl := h paths hpaths
    refine ⟨nofun, ?_⟩
    rintro paths ⟨⟩
    rfl

/-- A pull, for a seed that is a reference: the manifest, the directory, the layers. -/
lemma run_pullLayers {seed : Text} {r : Reference} (hr : Reference.parse seed = .ok r)
    (dir : PathBuf) : (pullLayers sha256 cl seed dir).run =
      .call (.getManifest (cl.manifestUrl r) r) fun res =>
        match checkReply (cl.manifestUrl r) res >>= parseLayers r with
        | .error e => .ret (.error e)
        | .ok layers => .call (.createDirAll dir) fun res =>
            match checkIo res with
            | .error e => .ret (.error e)
            | .ok _ => (pullEach sha256 cl r dir layers).run := by
  simp only [pullLayers, resolve, fetchManifest, hr, run_require_bind]
  rw [ExceptT.run_bind, run_require_bind]
  simp only [run_attempt_bind, call_bind]
  congr 1
  funext res
  cases checkReply (cl.manifestUrl r) res with
  | error e => rfl
  | ok body =>
    have hb : (Except.ok body >>= parseLayers r) = parseLayers r body := rfl
    simp only [hb, run_require, ret_bind]
    cases parseLayers r body with
    | error e => rfl
    | ok layers =>
      simp only
      congr 1
      funext res
      cases checkIo res <;> rfl

/-- A seed, the reference and the body of the manifest served for it, and its layers from the
base to the top. -/
structure Served (seed : Text) (served : Reference × Bytes) (layers : List LayerRef) : Prop where
  parsed : Reference.parse seed = .ok served.1
  manifest : manifestLayers served.2 = some layers
  ne_nil : layers ≠ []

/-- **The rule for a pull.**  A pull that succeeds has been served one manifest, and answers
with the paths of its layers, from the top down.  What the first two requests and the pulls
of layers keep holds throughout, and what the pulls of layers bring about holds at the end. -/
lemma pullLayers_rule {I : W → Prop} {Q : List LayerRef → W → Prop} (seed : Text) (dir : PathBuf)
    (hlook : ∀ url r c w, I w → I (E (.getManifest url r) c w).2)
    (hdir : ∀ c w, I w → I (E (.createDirAll dir) c w).2)
    (heach : ∀ r layers tr w, I w → Always E ok (fun _ w' res => I w' ∧
      ∀ paths, res = some (.ok paths) → Q layers w') (pullEach sha256 cl r dir layers).run tr w)
    (tr : List Ev) {w : W} (hw : I w) :
    Always E ok (fun tr' w' res => I w' ∧ mountArgvs tr' = mountArgvs tr ∧
      ∀ paths, res = some (.ok paths) → ∃ served layers, Served seed served layers ∧
        servedManifests tr' = servedManifests tr ++ [served] ∧
        paths = layers.reverse.map (blobPath dir) ∧ Q layers.reverse w')
      (pullLayers sha256 cl seed dir).run tr w := by
  cases hr : Reference.parse seed with
  | error e =>
    simp only [pullLayers, hr, run_require_bind]
    exact ⟨⟨hw, rfl, none_returned⟩, hw, rfl, none_ok⟩
  | ok r =>
    rw [run_pullLayers hr]
    refine ⟨⟨hw, rfl, none_returned⟩, fun c _ => ?_⟩
    have hw₁ := hlook (cl.manifestUrl r) r c w hw
    generalize E (.getManifest (cl.manifestUrl r) r) c w = res at hw₁ ⊢
    obtain ⟨res, w₁⟩ := res
    have hmount : mountArgvs (tr ++ [⟨.getManifest (cl.manifestUrl r) r, res⟩]) = mountArgvs tr :=
      filterMap_concat mountArgv tr rfl
    dsimp only at hw₁ ⊢
    cases hres : checkReply (cl.manifestUrl r) res >>= parseLayers r with
    | error e => exact ⟨⟨hw₁, hmount, none_returned⟩, hw₁, hmount, none_ok⟩
    | ok layers =>
      obtain ⟨body, hbody, hlayers⟩ := of_bind_eq_ok hres
      obtain ⟨hm, hne⟩ := parseLayers_eq_ok hlayers
      have hserved : servedManifest ⟨.getManifest (cl.manifestUrl r) r, res⟩ = some (r, body) := by
        cases res with
        | error e => exact absurd hbody (by rintro ⟨⟩)
        | ok p =>
          obtain ⟨code, body'⟩ := p
          simp only [checkReply] at hbody
          by_cases hcode : isSuccess code = true
          · rw [if_pos hcode, Except.ok.injEq] at hbody
            simp only [servedManifest, if_pos hcode, hbody]
          · rw [if_neg hcode] at hbody
            exact absurd hbody (by rintro ⟨⟩)
      refine ⟨⟨hw₁, hmount, none_returned⟩, fun c _ => ?_⟩
      have hw₂ := hdir c w₁ hw₁
      generalize E (.createDirAll dir) c w₁ = res' at hw₂ ⊢
      obtain ⟨res', w₂⟩ := res'
      have hmount' : mountArgvs (tr ++ [⟨.getManifest (cl.manifestUrl r) r, res⟩] ++
          [⟨.createDirAll dir, res'⟩]) = mountArgvs tr :=
        (filterMap_concat mountArgv _ rfl).trans hmount
      have hserved' : servedManifests (tr ++ [⟨.getManifest (cl.manifestUrl r) r, res⟩] ++
          [⟨.createDirAll dir, res'⟩]) = servedManifests tr ++ [(r, body)] := by
        rw [servedManifests, filterMap_concat servedManifest _ rfl, List.filterMap_append,
          List.filterMap_cons_some hserved, List.filterMap_nil, servedManifests]
      dsimp only at hw₂ ⊢
      generalize (tr ++ [(⟨.getManifest (cl.manifestUrl r) r, res⟩ : Ev)] ++
        [(⟨.createDirAll dir, res'⟩ : Ev)]) = tr₂ at hmount' hserved' ⊢
      cases checkIo res' with
      | error e => exact ⟨⟨hw₂, hmount', none_returned⟩, hw₂, hmount', none_ok⟩
      | ok u =>
        -- the rest makes no more requests of the two kinds
        have hquiet : ∀ {γ : Type} (f : Ev → Option γ), (∀ e : Ev, Fetches e.op → f e = none) →
            Always E ok (fun tr' _ _ => tr'.filterMap f = tr₂.filterMap f)
              (pullEach sha256 cl r dir layers).run tr₂ w₂ :=
          fun f hf => Always.filterMap_of_forall (pullEach_forall r dir layers) hf _ _
        have hm₁ := hquiet mountArgv (by rintro ⟨o, r⟩ ho; cases o <;> first | rfl | exact absurd ho id)
        have hm₂ := hquiet servedManifest
          (by rintro ⟨o, r⟩ ho; cases o <;> first | rfl | exact absurd ho id)
        refine (((hm₁.and hm₂).and (pullEach_paths r dir layers _ w₂)).and
          (heach r layers tr₂ w₂ hw₂)).mono fun tr' w' res'' h => ?_
        obtain ⟨⟨⟨h₁, h₂⟩, h₃⟩, h₄, h₅⟩ := h
        refine ⟨h₄, h₁.trans hmount', fun paths hpaths => ⟨(r, body), layers.reverse, ⟨hr, hm, ?_⟩,
          h₂.trans hserved', ?_, ?_⟩⟩
        · exact fun h => hne (List.reverse_eq_nil_iff.1 h)
        · rw [List.reverse_reverse]
          exact h₃ paths hpaths
        · rw [List.reverse_reverse]
          exact h₅ paths hpaths

/-- A pull that succeeds has been served one manifest, and answers with the paths of its
layers, from the top down. -/
lemma pullLayers_served (seed : Text) (dir : PathBuf) (tr : List Ev) (w : W) :
    Always E ok (fun tr' _ res => mountArgvs tr' = mountArgvs tr ∧
      ∀ paths, res = some (.ok paths) → ∃ served layers, Served seed served layers ∧
        servedManifests tr' = servedManifests tr ++ [served] ∧
        paths = layers.reverse.map (blobPath dir))
      (pullLayers sha256 cl seed dir).run tr w := by
  refine (pullLayers_rule (I := fun _ => True) (Q := fun _ _ => True) seed dir
    (fun _ _ _ _ _ => trivial) (fun _ _ _ => trivial) (fun r layers tr w _ => ?_) tr trivial).mono
    fun tr' w' res h => ⟨h.2.1, fun paths hpaths => ?_⟩
  · exact Always.of_forall (I := fun _ => True) (pullEach_forall r dir layers)
      (fun _ _ _ _ _ _ => trivial) trivial tr |>.mono fun _ _ _ _ => ⟨trivial, fun _ _ => trivial⟩
  · obtain ⟨served, layers, h₁, h₂, h₃, -⟩ := h.2.2 paths hpaths
    exact ⟨served, layers, h₁, h₂, h₃⟩

end OciClient

namespace NodeService

/-- What seeds stand for, once they are pulled: the manifests that were served for them, in
order, and the layers of each, from the base to the top. -/
structure Resolved (seeds : List Text) (served : List (Reference × Bytes))
    (layers : List (List LayerRef)) : Prop where
  parsed : served.map (fun s => Except.ok s.1) = seeds.map Reference.parse
  manifests : served.map (fun s => manifestLayers s.2) = layers.map some
  ne_nil : ∀ l ∈ layers, l ≠ []

/-- The paths of layers, for `rspacefs-mount`: seed by seed, each from the top down. -/
def lowerPaths (dir : PathBuf) (layers : List (List LayerRef)) : List PathBuf :=
  (layers.map List.reverse).flatten.map (OciClient.blobPath dir)

/-- Seeds that are all pulled come as the paths of their layers. -/
lemma pullSeeds_served (dir : PathBuf) (seeds : List Text) (tr : List Ev) (w : W) :
    Always E ok (fun tr' _ res => mountArgvs tr' = mountArgvs tr ∧
      ∀ blobs, res = some (.ok blobs) → ∃ served layers, Resolved seeds served layers ∧
        servedManifests tr' = servedManifests tr ++ served ∧ blobs = lowerPaths dir layers)
      (link (deployed sha256 cl mo) (pullSeeds dir seeds).run) tr w := by
  induction seeds generalizing tr w with
  | nil =>
    refine ⟨⟨rfl, none_returned⟩, rfl, ?_⟩
    rintro blobs ⟨⟩
    exact ⟨[], [], ⟨rfl, rfl, fun _ h => absurd h List.not_mem_nil⟩, (List.append_nil _).symm, rfl⟩
  | cons seed rest ih =>
    rw [pullSeeds, link_attempt_bind]
    refine Always.bind ((OciClient.pullLayers_served seed dir tr w).mono fun tr₁ w₁ res h => ?_)
    refine ⟨⟨h.1, none_returned⟩, fun res' hres => ?_⟩
    cases res' with
    | error e => exact ⟨⟨h.1, none_returned⟩, h.1, none_ok⟩
    | ok paths =>
      obtain ⟨s, l, hs, htr, rfl⟩ := h.2 paths hres
      simp only [Except.mapError, link_tryBind]
      refine Always.bind ((ih tr₁ w₁).mono fun tr₂ w₂ res h' => ?_)
      refine ⟨⟨h'.1.trans h.1, none_returned⟩, fun res' hres => ?_⟩
      cases res' with
      | error e => exact ⟨⟨h'.1.trans h.1, none_returned⟩, h'.1.trans h.1, none_ok⟩
      | ok more =>
        obtain ⟨served, layers, hr, htr', rfl⟩ := h'.2 more hres
        refine ⟨⟨h'.1.trans h.1, none_returned⟩, h'.1.trans h.1, ?_⟩
        rintro blobs ⟨⟩
        refine ⟨s :: served, l :: layers, ⟨?_, ?_, ?_⟩, ?_, ?_⟩
        · rw [List.map_cons, List.map_cons, hr.parsed, hs.parsed]
        · rw [List.map_cons, List.map_cons, hr.manifests, hs.manifest]
        · exact fun l' hl' => (List.mem_cons.1 hl').elim (fun h => h ▸ hs.ne_nil) (hr.ne_nil l')
        · rw [htr', htr, List.append_assoc]
          rfl
        · simp only [lowerPaths, List.map_cons, List.flatten_cons, List.map_append]

/-- The driver's own mounter runs the command once. -/
lemma mount_argv (spec : MountSpec) (tr : List Ev) (w : W) :
    Always E ok (fun tr' _ res => servedManifests tr' = servedManifests tr ∧
      ∀ r, res = some r → mountArgvs tr' = mountArgvs tr ++ [spec.args]) (mo.mount spec).run tr w := by
  refine ⟨⟨rfl, nofun⟩, fun c _ => ?_⟩
  have hserved : ∀ r, servedManifests (tr ++ [⟨.execMount mo.mountBin spec.args spec, r⟩])
      = servedManifests tr := fun r => filterMap_concat servedManifest tr rfl
  exact ⟨⟨hserved _, nofun⟩, hserved _, fun _ _ => List.filterMap_append⟩

/-- What follows the pulls runs the command once, with the arguments of the mount. -/
lemma attach_argv (req : PublishRequest) (params : PvcParams) (blobs : List PathBuf)
    (tr : List Ev) (w : W) :
    Always E ok (fun tr' _ res => servedManifests tr' = servedManifests tr ∧
      (res = some (.ok ()) → mountArgvs tr' = mountArgvs tr ++ [(mountSpec cfg req params blobs).args]))
      (link (deployed sha256 cl mo) (attach cfg req params blobs).run) tr w := by
  -- making a directory does not show in either part of the trace
  have hdir : ∀ (tr : List Ev) (p : PathBuf) r,
      servedManifests (tr ++ [⟨.createDirAll p, r⟩]) = servedManifests tr ∧
        mountArgvs (tr ++ [⟨.createDirAll p, r⟩]) = mountArgvs tr := fun tr p r =>
    ⟨filterMap_concat servedManifest tr rfl, filterMap_concat mountArgv tr rfl⟩
  have hpersist : ∀ (tr : List Ev) (w : W), Always E ok
      (fun tr' _ _ => servedManifests tr' = servedManifests tr ∧ mountArgvs tr' = mountArgvs tr)
      (link (deployed sha256 cl mo) (persistState cfg req.volumeId req.volumeContext).run) tr w := by
    intro tr w
    simp only [persistState, link_attempt_bind, deployed_createDirAll, perform_bind]
    refine ⟨⟨rfl, rfl⟩, fun c _ => ?_⟩
    generalize E (.createDirAll (cfg.statePath req.volumeId).parent) c w = r
    obtain ⟨r, w⟩ := r
    cases r with
    | error e => exact ⟨hdir tr _ _, hdir tr _ _⟩
    | ok u =>
      refine ⟨hdir tr _ _, fun c _ => ?_⟩
      have hw : ∀ (tr : List Ev) (b : Bytes) r,
          servedManifests (tr ++ [⟨.writeFile (cfg.statePath req.volumeId) b, r⟩]) = servedManifests tr ∧
            mountArgvs (tr ++ [⟨.writeFile (cfg.statePath req.volumeId) b, r⟩]) = mountArgvs tr :=
        fun tr b r => ⟨filterMap_concat servedManifest tr rfl, filterMap_concat mountArgv tr rfl⟩
      have h := fun r => (hw (tr ++ [⟨.createDirAll (cfg.statePath req.volumeId).parent, .ok u⟩])
        (contextToVec req.volumeContext) r).imp (·.trans (hdir tr _ _).1) (·.trans (hdir tr _ _).2)
      exact ⟨h _, h _⟩
  simp only [attach, link_attempt_bind, deployed_createDirAll, deployed_mount, perform_bind]
  refine ⟨⟨rfl, not_returned⟩, fun c _ => ?_⟩
  generalize E (.createDirAll (cfg.upperDir req.volumeId)) c w = r
  obtain ⟨r, w⟩ := r
  obtain ⟨hs₁, hm₁⟩ := hdir tr (cfg.upperDir req.volumeId) r
  generalize tr ++ [(⟨.createDirAll (cfg.upperDir req.volumeId), r⟩ : Ev)] = tr₁ at hs₁ hm₁ ⊢
  cases r with
  | error e => exact ⟨⟨hs₁, not_returned⟩, hs₁, not_ok⟩
  | ok u =>
    refine ⟨⟨hs₁, not_returned⟩, fun c _ => ?_⟩
    generalize E (.createDirAll ⟨req.targetPath⟩) c w = r
    obtain ⟨r, w⟩ := r
    obtain ⟨hs₂, hm₂⟩ := hdir tr₁ ⟨req.targetPath⟩ r
    rw [hs₁] at hs₂
    rw [hm₁] at hm₂
    generalize tr₁ ++ [(⟨.createDirAll ⟨req.targetPath⟩, r⟩ : Ev)] = tr₂ at hs₂ hm₂ ⊢
    cases r with
    | error e => exact ⟨⟨hs₂, not_returned⟩, hs₂, not_ok⟩
    | ok u =>
      refine Always.bind ((mount_argv (mountSpec cfg req params blobs) tr₂ w).mono fun tr₃ w₃ res h => ?_)
      have hs₃ := h.1.trans hs₂
      refine ⟨⟨hs₃, not_returned⟩, fun res' hres => ?_⟩
      cases res' with
      | error e => exact ⟨⟨hs₃, not_returned⟩, hs₃, not_ok⟩
      | ok u =>
        have hm₃ := h.2 _ hres
        simp only [Except.mapError, run_ignoring_bind, link_bind]
        refine Always.bind ((hpersist tr₃ w₃).mono fun tr₄ w₄ res h' => ?_)
        refine ⟨⟨h'.1.trans hs₃, not_returned⟩, fun _ _ =>
          ⟨⟨h'.1.trans hs₃, not_returned⟩, h'.1.trans hs₃, fun _ => ?_⟩⟩
        rw [h'.2, hm₃, hm₂]

/-- A publish that succeeds has been served the manifests of its seeds, and has run the
command once. -/
lemma publish_argv (req : PublishRequest) (w : W) :
    Always E ok (fun tr _ res => res = some (.ok ()) → ∃ params served layers,
      PvcParams.parse req.volumeContext = .ok params ∧ Resolved params.seeds served layers ∧
      servedManifests tr = served ∧ mountArgvs tr =
        [(mountSpec cfg req params (lowerPaths (cfg.lowersDir req.volumeId) layers)).args])
      (link (deployed sha256 cl mo) (nodePublishVolume cfg req).run) [] w := by
  unfold nodePublishVolume
  by_cases hid : req.volumeId = []
  · rw [if_pos hid]
    exact ⟨nofun, nofun⟩
  by_cases ht : req.targetPath = []
  · rw [if_neg hid, if_pos ht]
    exact ⟨nofun, nofun⟩
  rw [if_neg hid, if_neg ht, run_require_bind]
  cases hp : PvcParams.parse req.volumeContext with
  | error e => exact ⟨nofun, nofun⟩
  | ok params =>
    simp only [Except.mapError, link_tryBind]
    refine Always.bind ((pullSeeds_served _ params.seeds [] w).mono fun tr w₁ res h => ?_)
    refine ⟨nofun, fun res' hres => ?_⟩
    cases res' with
    | error e => exact ⟨nofun, nofun⟩
    | ok blobs =>
      obtain ⟨served, layers, hr, htr, rfl⟩ := h.2 blobs hres
      refine (attach_argv req params _ tr w₁).mono fun tr' _ res h' hok => ?_
      refine ⟨params, served, layers, rfl, hr, h'.1.trans htr, ?_⟩
      rw [h'.2 hok, h.1]
      rfl

end NodeService

open NodeService

/-- **The order of layers reaches the mount command.**  In every environment, a publish that
succeeds has run `rspacefs-mount` once.  The values of `--lower-blob` are the paths of the
layers of the manifests that were served, seed by seed, and for each seed from the top down.
The arguments determine the specification of the mount. -/
theorem layer_order (E : (o : Op) → C → W → Resp o × W) (sha256 : Bytes → Bytes) (cl : OciClient)
    (mo : RspacefsMounter) (cfg : Config) (req : PublishRequest) (cs : List C) (w : W)
    (hok : (run E (link (deployed sha256 cl mo) (nodePublishVolume cfg req).run) cs w).result
      = some (.ok ())) :
    (∃ params layers argv, PvcParams.parse req.volumeContext = .ok params ∧
      Resolved params.seeds
        (servedManifests (run E (link (deployed sha256 cl mo) (nodePublishVolume cfg req).run) cs w).trace)
        layers ∧
      mountArgvs (run E (link (deployed sha256 cl mo) (nodePublishVolume cfg req).run) cs w).trace
        = [argv] ∧
      MountSpec.lowerBlobValues argv
        = (lowerPaths (cfg.lowersDir req.volumeId) layers).map PathBuf.text) ∧
    Function.Injective MountSpec.args := by
  refine ⟨?_, fun s t h => MountSpec.args_inj h⟩
  have h := run_of_always (@publish_argv _ _ E (fun _ => True) sha256 cl mo cfg req w) cs
    fun _ _ => trivial
  obtain ⟨params, served, layers, hp, hr, hserved, hargv⟩ := h hok
  rw [List.nil_append] at hserved hargv
  subst hserved
  exact ⟨params, layers, _, hp, hr, hargv, MountSpec.lowerBlobValues_args _⟩

end Deployed

/-! ### A seed with two layers -/

namespace Sample

/-- A manifest with the layer of an empty upper below that of a note. -/
def twoLayers : Bytes :=
  ascii "\x7b\"layers\":[\x7b\"mediaType\":\"\",\"digest\":\"sha256:4f53cda18c2baa0c0354bb5f9a3ecbe5ed12ab4d8e11ba873c2f11161202b945\"\x7d,\x7b\"mediaType\":\"\",\"digest\":\"sha256:d964e68c0a32bc90209d85b6c1b25848f44cbebcc674d2551010bdf71249cac5\"\x7d]\x7d"

/-- A registry that holds the manifest and its layers. -/
def twoLayersStocked : World :=
  World.blank.withReg
    ⟨fun _ d => [emptyBlob, pack note].find? fun b => digestOf ext.sha256 b = d,
     fun _ _ => some twoLayers⟩

/-- The mounter. -/
def mounter : RspacefsMounter := ⟨⟨"rspacefs-mount".toList⟩⟩

/-- A publish of a volume with one seed. -/
def seededRequest : NodeService.PublishRequest :=
  ⟨volumeId, "/pods/a".toList, (∅ : StrMap).insert SEED seed, false⟩

end Sample

open Sample NodeService in
/-- The note comes before what is below it. -/
theorem layer_order_twoLayers :
    ∃ layers argv,
      Resolved [seed] (servedManifests (run (env ext) (link (deployed ext.sha256 client mounter)
        (nodePublishVolume config seededRequest).run) (List.replicate 20 .go) twoLayersStocked).trace)
        layers ∧
      mountArgvs (run (env ext) (link (deployed ext.sha256 client mounter)
        (nodePublishVolume config seededRequest).run) (List.replicate 20 .go) twoLayersStocked).trace
        = [argv] ∧
      MountSpec.lowerBlobValues argv
        = (lowerPaths (config.lowersDir volumeId) layers).map PathBuf.text := by
  obtain ⟨⟨params, layers, argv, hp, hr, hargv, hblobs⟩, -⟩ := layer_order (env ext) ext.sha256 client
    mounter config seededRequest (List.replicate 20 .go) twoLayersStocked (by decide +kernel)
  have hseeds : params.seeds = [seed] := by
    rw [PvcParams.seeds_of_parse hp]
    decide
  exact ⟨layers, argv, hseeds ▸ hr, hargv, hblobs⟩

end RspacefsCsi
