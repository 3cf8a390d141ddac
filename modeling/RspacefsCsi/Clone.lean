/-
# What a clone shows

A volume that is made from a snapshot is meant to be a copy: to show what its source showed
when the snapshot was taken.  The snapshot holds the upper of its source and nothing of what
was below, and it is mounted below the seeds of the class.  So a clone is a copy exactly if
the seeds of the class say nothing that the upper of the source hides (`clone_shows_iff`), and
without such seeds, exactly if the upper of the source covers everything that the source itself
was cloned from (`chain_shows_iff`): the second clone of a chain loses what the first one has
not written again.
-/
import RspacefsCsi.RoundTrip

namespace RspacefsCsi

open Lib Lib.Prog OciClient ControllerService NodeService

variable {x : Ext} {cl : OciClient} {cfg : Config}

/-! ### Volumes and snapshots -/

/-- The request has created the volume, and the volume was published on a node whose cache only
pulls have filled, while the registry was `reg`: `m` is the mount, and `w` the node after it. -/
structure PublishedAs (x : Ext) (cl : OciClient) (cfg : Config) (req : CreateVolumeRequest)
    (vol : Volume) (reg : Store) (m : Mount) (w : World) : Prop where
  created : ∃ (v : World) (cs : List Choice),
    (run (env x) (link (OciClient.impl x.sha256 cl) (createVolume req).run) cs v).result
      = some (.ok vol)
  published : ∃ (v : World) (target : Text) (readonly : Bool) (cs : List Choice),
    v.reg = reg ∧ FilledByPulls x cl (cfg.lowersDir vol.volumeId) v ∧ (∀ c ∈ cs, c.Honest) ∧
    (run (env x) ((Call.publish ⟨vol.volumeId, target, vol.volumeContext, readonly⟩).linked x cl cfg)
      cs v).result = some (.ok ()) ∧
    (run (env x) ((Call.publish ⟨vol.volumeId, target, vol.volumeContext, readonly⟩).linked x cl cfg)
      cs v).world = w
  newest : w.mounts.head? = some m

/-- The layers of these contents. -/
def layersOf (x : Ext) (bs : List Bytes) : List (Layer Key Bytes) :=
  bs.map fun b => Tree.layer (x.unpack b)

/-- A volume is mounted with what the registry holds for its seeds. -/
lemma PublishedAs.lowers (hx : Function.Injective x.sha256) {req : CreateVolumeRequest} {vol : Volume}
    {reg : Store} {m : Mount} {w : World} (h : PublishedAs x cl cfg req vol reg m w)
    (hc : reg.Consistent x) {params : PvcParams} (hp : PvcParams.parse req.parameters = .ok params)
    (hclean : ∀ s ∈ (withSource params req.volumeContentSource).seeds, PvcParams.CleanSeed s)
    {bs : List Bytes}
    (hstack : reg.stack (withSource params req.volumeContentSource).seeds = some bs) :
    m.lowers.map Tree.layer = layersOf x bs := by
  obtain ⟨v₀, cs₀, hcreated⟩ := h.created
  obtain ⟨params', hp', rfl⟩ := (createVolume_yields req).link.run_result hcreated vol rfl
  obtain rfl := Except.ok.inj (hp.symm.trans hp')
  obtain ⟨v, target, readonly, cs, rfl, hfilled, hcs, hok, rfl⟩ := h.published
  obtain ⟨-, -, hmounts⟩ := run_of_always ((@publish_stacked x cl cfg hx) ⟨_, target, _, readonly⟩
    hfilled.sound hc (parse_volumeContext hclean) hstack) cs hcs
  obtain ⟨m', paths, hm', -, hlowers, -⟩ := hmounts hok
  have hnewest := h.newest
  rw [hm'] at hnewest
  obtain rfl := Option.some.inj hnewest
  rw [hlowers, List.map_map]
  rfl

/-- A snapshot of the volume behind the mount `m` was taken on a node in the state `w`, and has
left the registry as `reg`. -/
structure SnapshotOf (x : Ext) (cl : OciClient) (cfg : Config) (vol : Volume) (m : Mount) (w : World)
    (id : Text) (reg : Store) : Prop where
  consistent : w.reg.Consistent x
  mounted : w.daemon (cfg.controlSocket vol.volumeId).key = some m
  taken : ∃ (req : CreateSnapshotRequest) (cs : List Choice), req.sourceVolumeId = vol.volumeId ∧
    (∀ c ∈ cs, c.Honest) ∧
    (snapshotRun x cl cfg req cs w).result = some (.ok ⟨id, vol.volumeId⟩) ∧
    (snapshotRun x cl cfg req cs w).world.reg = reg

/-- The upper that a snapshot of the mount captures. -/
def World.upperOf (w : World) (m : Mount) : Tree := w.uppers m.spec.upper.key

/-- A snapshot is a revision of the upper. -/
lemma SnapshotOf.revision (hx : Function.Injective x.sha256) {vol : Volume} {m : Mount} {w : World}
    {id : Text} {reg : Store} (h : SnapshotOf x cl cfg vol m w id reg) :
    ∃ t r, Reference.parse t = .ok r ∧ id = revisionId x r (x.pack (w.upperOf m)) ∧
      reg.HasRevision x r (x.pack (w.upperOf m)) := by
  obtain ⟨req, cs, hid, hcs, hok, rfl⟩ := h.taken
  obtain ⟨t, r, b, -, hfroze, hs⟩ := run_of_always (@snapshot_pushed x cl cfg req hx w) cs hcs _ hok
  have hb : x.pack (w.upperOf m) = b := by
    have hcap := hfroze.captured
    rw [captureOf, volumeFreeze, hid, h.mounted] at hcap
    exact Option.some.inj hcap
  subst hb
  exact ⟨t, r, hfroze.target, (Snapshot.mk.inj hs).1,
    hfroze.hasRevision h.consistent (run_retains hx _ cs h.consistent).consistent⟩

/-! ### The view of a clone -/

lemma Store.stack_append {s : Store} {seeds seeds' : List Text} {bs bs' : List Bytes}
    (h : s.stack seeds = some bs) (h' : s.stack seeds' = some bs') :
    s.stack (seeds ++ seeds') = some (bs ++ bs') := by
  induction seeds generalizing bs with
  | nil =>
    obtain rfl : [] = bs := Option.some.inj h
    exact h'
  | cons seed rest ih =>
    obtain ⟨b₁, b₂, hb₁, hb₂, rfl⟩ := Store.stack_cons h
    obtain ⟨bss, hbss, hflat⟩ := Option.map_eq_some_iff.1 (ih hb₂)
    rw [List.cons_append, Store.stack, List.mapM_cons, hb₁, hbss]
    change some (b₁ ++ bss.flatten) = _
    rw [hflat, List.append_assoc]

/-- The seeds of a clone, and what the registry holds for them: what it holds for those of the
class, and the upper that was captured. -/
lemma SnapshotOf.seeds (hx : Function.Injective x.sha256) {vol : Volume} {m : Mount} {w : World}
    {id : Text} {reg : Store} (hsnap : SnapshotOf x cl cfg vol m w id reg) {reg' : Store}
    (hret : reg.Retains x reg') {P : StrMap} {params : PvcParams} (hp : PvcParams.parse P = .ok params)
    {bs : List Bytes} (hstack : reg'.stack params.seeds = some bs) :
    (∀ s ∈ (withSource params (some (.snapshot id))).seeds, PvcParams.CleanSeed s) ∧
      reg'.stack (withSource params (some (.snapshot id))).seeds
        = some (bs ++ [x.pack (w.upperOf m)]) := by
  obtain ⟨t, r, ht, rfl, hrev⟩ := hsnap.revision hx
  have hone : reg'.stack [revisionId x r (x.pack (w.upperOf m))] = some [x.pack (w.upperOf m)] := by
    rw [Store.stack, List.mapM_cons, (hrev.retains hret).contents ht]
    rfl
  refine ⟨fun s hs => ?_, Store.stack_append hstack hone⟩
  rcases List.mem_append.1 hs with hs | hs
  · exact PvcParams.cleanSeed_of_parse hp s hs
  · rw [List.mem_singleton.1 hs]
    exact cleanSeed_render hrev.legal _

/-- The layers of a volume that is made from a snapshot: those of the class, and below them the
upper that was captured. -/
lemma clone_lowers (hx : x.Lawful) {vol : Volume} {m : Mount} {w : World} {id : Text} {reg : Store}
    (hsnap : SnapshotOf x cl cfg vol m w id reg) {reg' : Store} (hret : reg.Retains x reg')
    {req : CreateVolumeRequest} {params : PvcParams} (hp : PvcParams.parse req.parameters = .ok params)
    (hsrc : req.volumeContentSource = some (.snapshot id)) {bs : List Bytes}
    (hstack : reg'.stack params.seeds = some bs) {vol' : Volume} {m' : Mount} {w' : World}
    (hpub : PublishedAs x cl cfg req vol' reg' m' w') :
    m'.lowers.map Tree.layer = layersOf x bs ++ [(w.upperOf m).layer] := by
  obtain ⟨hclean, hboth⟩ := hsnap.seeds hx.sha256_injective hret hp hstack
  rw [← hsrc] at hclean hboth
  rw [hpub.lowers hx.sha256_injective hret.consistent hp hclean hboth, layersOf, List.map_append,
    List.map_singleton, hx.unpack_pack]
  rfl

/-- The view of a mount. -/
lemma view_eq (w : World) (m : Mount) {ls : List (Layer Key Bytes)}
    (h : m.lowers.map Tree.layer = ls) : w.view m = Layer.view ((w.upperOf m).layer :: ls) := by
  rw [World.view, h]
  rfl

/-- A mount that nothing was written to shows what is below. -/
lemma view_of_empty (w : World) (m : Mount) {ls : List (Layer Key Bytes)}
    (h : m.lowers.map Tree.layer = ls) (hempty : w.upperOf m = ∅) : w.view m = Layer.view ls := by
  have hlayer : Tree.layer ∅ = (Layer.empty : Layer Key Bytes) := by
    funext p
    exact AList.lookup_empty p
  rw [view_eq w m h, hempty, hlayer, Layer.view_empty_cons]

/-- Where the upper says something, the seeds of the clone say nothing or show the same; and
where it does not, they show what the seeds of the source have shown. -/
def GiveWay (u : Layer Key Bytes) (ls ls' : List (Layer Key Bytes)) : Prop :=
  (∀ p, u p ≠ none → Layer.find ls' p = none ∨ Layer.view ls' p = Entry.shows (u p)) ∧
    ∀ p, u p = none → Layer.view ls' p = Layer.view ls p

/-- **A clone of a volume with seeds is a copy if and only if the seeds give way to the upper
of its source.** -/
theorem clone_shows_iff (x : Ext) (hx : x.Lawful) (cl : OciClient) (cfg : Config) {P : StrMap}
    {params : PvcParams} (hP : PvcParams.parse P = .ok params)
    {req : CreateVolumeRequest} (hreq : req.parameters = P) (hsrc : req.volumeContentSource = none)
    {vol : Volume} {reg : Store} (hreg : reg.Consistent x) {bs : List Bytes}
    (hstack : reg.stack params.seeds = some bs) {m : Mount} {w₀ : World}
    (hpub : PublishedAs x cl cfg req vol reg m w₀)
    {w : World} {id : Text} {regS : Store} (hsnap : SnapshotOf x cl cfg vol m w id regS)
    {req' : CreateVolumeRequest} (hreq' : req'.parameters = P)
    (hsrc' : req'.volumeContentSource = some (.snapshot id)) {vol' : Volume} {reg' : Store}
    (hret : regS.Retains x reg') {bs' : List Bytes} (hstack' : reg'.stack params.seeds = some bs')
    {m' : Mount} {w' : World} (hpub' : PublishedAs x cl cfg req' vol' reg' m' w')
    (hfresh : w'.upperOf m' = ∅) :
    w'.view m' = w.view m ↔ GiveWay (w.upperOf m).layer (layersOf x bs) (layersOf x bs') := by
  subst hreq
  have hlowers : m.lowers.map Tree.layer = layersOf x bs := by
    refine hpub.lowers hx.sha256_injective hreg hP ?_ ?_ <;> rw [hsrc]
    · exact PvcParams.cleanSeed_of_parse hP
    · exact hstack
  have hlowers' := clone_lowers hx hsnap hret (hreq' ▸ hP) hsrc' hstack' hpub'
  rw [view_of_empty w' m' hlowers' hfresh, view_eq w m hlowers]
  exact Layer.view_append_singleton_eq_iff _ _ _

/-! ### Chains of clones -/

/-- A chain of volumes with the parameters `P`, each made from a snapshot of the one before;
`us` are the uppers that were captured, the last one first, and `m` is the mount of the last
volume.  Between a publish and a snapshot anything may happen to the node, as long as the
volume stays mounted, and between a snapshot and the next publish anything to the registry, as
long as nothing is deleted. -/
inductive Chain (x : Ext) (cl : OciClient) (cfg : Config) (P : StrMap) :
    List Tree → Volume → Mount → World → Prop
  | first {req : CreateVolumeRequest} {vol : Volume} {reg : Store} {m : Mount} {w : World}
      (hreq : req.parameters = P) (hsrc : req.volumeContentSource = none) (hreg : reg.Consistent x)
      (hpub : PublishedAs x cl cfg req vol reg m w) : Chain x cl cfg P [] vol m w
  | next {us : List Tree} {vol : Volume} {m : Mount} {w : World} (h : Chain x cl cfg P us vol m w)
      {w₁ : World} {id : Text} {regS : Store} (hsnap : SnapshotOf x cl cfg vol m w₁ id regS)
      {req : CreateVolumeRequest} (hreq : req.parameters = P)
      (hsrc : req.volumeContentSource = some (.snapshot id)) {vol' : Volume} {reg' : Store}
      (hret : regS.Retains x reg') {m' : Mount} {w' : World}
      (hpub : PublishedAs x cl cfg req vol' reg' m' w') :
      Chain x cl cfg P (w₁.upperOf m :: us) vol' m' w'

/-- A volume of a chain without seeds has the last upper below its own, and nothing else. -/
lemma Chain.lowers (hx : x.Lawful) {P : StrMap} {params : PvcParams}
    (hP : PvcParams.parse P = .ok params) (hseeds : params.seeds = []) {us : List Tree} {vol : Volume}
    {m : Mount} {w : World} (h : Chain x cl cfg P us vol m w) :
    m.lowers.map Tree.layer = us.head?.toList.map Tree.layer := by
  cases h with
  | @first req _ reg _ _ hreq hsrc hreg hpub =>
    subst hreq
    have hstack : reg.stack (withSource params req.volumeContentSource).seeds = some [] := by
      rw [hsrc]
      change reg.stack params.seeds = _
      rw [hseeds]
      rfl
    refine hpub.lowers hx.sha256_injective hreg hP ?_ hstack
    rw [hsrc]
    exact PvcParams.cleanSeed_of_parse hP
  | @next us vol₀ m₀ w₀ h w₁ id regS hsnap req hreq hsrc _ reg' hret _ _ hpub =>
    have hstack : reg'.stack params.seeds = some [] := by
      rw [hseeds]
      rfl
    exact clone_lowers hx hsnap hret (hreq ▸ hP) hsrc hstack hpub

/-- **A volume at the end of a chain is a copy of the one before it if and only if the upper of
that one covers everything which the upper before it shows.**  The first clone always is one. -/
theorem chain_shows_iff (x : Ext) (hx : x.Lawful) (cl : OciClient) (cfg : Config) {P : StrMap}
    {params : PvcParams} (hP : PvcParams.parse P = .ok params) (hseeds : params.seeds = [])
    {us : List Tree} {vol : Volume} {m : Mount} {w₀ : World} (h : Chain x cl cfg P us vol m w₀)
    {w : World} {id : Text} {regS : Store} (hsnap : SnapshotOf x cl cfg vol m w id regS)
    {req : CreateVolumeRequest} (hreq : req.parameters = P)
    (hsrc : req.volumeContentSource = some (.snapshot id)) {vol' : Volume} {reg' : Store}
    (hret : regS.Retains x reg') {m' : Mount} {w' : World}
    (hpub : PublishedAs x cl cfg req vol' reg' m' w') (hfresh : w'.upperOf m' = ∅) :
    w'.view m' = w.view m ↔
      ∀ u, us.head? = some u → ∀ p, Entry.shows (u.layer p) ≠ none → (w.upperOf m).layer p ≠ none := by
  have hlowers := h.lowers hx hP hseeds
  have hlowers' := (h.next hsnap hreq hsrc hret hpub).lowers hx hP hseeds
  rw [view_of_empty w' m' hlowers' hfresh, view_eq w m hlowers]
  refine (Layer.view_singleton_eq_iff _ _).trans ?_
  cases us with
  | nil => exact ⟨fun _ _ h => absurd h nofun, fun _ p hp => absurd rfl hp⟩
  | cons u us =>
    have hview : ∀ p, Layer.view [Tree.layer u] p = Entry.shows (u.layer p) := by
      intro p
      rw [Layer.view, Layer.find_singleton]
    constructor
    · rintro h _ ⟨⟩ p hp
      exact h p ((hview p).symm ▸ hp)
    · intro h p hp
      exact h u rfl p ((hview p) ▸ hp)

/-! ### Volumes on new nodes

Every step of a chain can be made: a volume can be published on a node on which nothing has
happened, and a snapshot of any upper can be taken where the volume is mounted. -/

section NewNodes

lemma not_isDir_empty {k : Key} {n : Text} (h : k ≠ [] ∨ n ≠ ['/']) : ¬Fs.empty.IsDir (k ++ [n]) := by
  rintro (h0 | h0 | h0)
  · exact absurd (congrArg List.length h0) (by simp)
  · have happ : k ++ [n] = [] ++ [['/']] := h0
    obtain ⟨h1, h2⟩ := List.append_inj' happ rfl
    exact h.elim (fun h => h h1) fun h => h (List.cons.inj h2).1
  · exact absurd h0 nofun

lemma hasRoom_blank (cfg : Config) (req : PublishRequest) (reg : Store)
    (h : ∀ name, ¬(cfg.lowersDir req.volumeId).key ++ [name] <+: PathBuf.key ⟨req.targetPath⟩) :
    HasRoom cfg req (World.blank.withReg reg) where
  room := by
    refine ⟨fun _ _ _ => nofun, fun name => not_isDir_empty (.inl ?_), fun _ _ _ _ _ => nofun⟩
    simp
  beside := h

lemma filledByPulls_blank (x : Ext) (cl : OciClient) (cfg : Config) (volumeId : Text) (reg : Store) :
    FilledByPulls x cl (cfg.lowersDir volumeId) (World.blank.withReg reg) := by
  refine ⟨_, [], fun name _ => ?_, trivial, rfl⟩
  rintro (h | h | ⟨m, hm, -⟩)
  · exact not_isDir_empty (.inl (by simp)) h
  · exact h rfl
  · exact absurd hm List.not_mem_nil

/-- A volume can be published on a new node. -/
lemma exists_publishedAs (hx : Function.Injective x.sha256) {req : CreateVolumeRequest}
    (hname : req.name ≠ []) (hcap : req.volumeCapabilities ≠ 0) {params : PvcParams}
    (hp : PvcParams.parse req.parameters = .ok params)
    (hclean : ∀ s ∈ (withSource params req.volumeContentSource).seeds, PvcParams.CleanSeed s)
    {reg : Store} (hc : reg.Consistent x) {bs : List Bytes}
    (hstack : reg.stack (withSource params req.volumeContentSource).seeds = some bs) {target : Text}
    (htarget : target ≠ [])
    (hbeside : ∀ n, ¬(cfg.lowersDir req.name).key ++ [n] <+: PathBuf.key ⟨target⟩) :
    ∃ vol m w, PublishedAs x cl cfg req vol reg m w ∧ vol.volumeId = req.name ∧
      m.spec.controlSocket = cfg.controlSocket req.name ∧ w.upperOf m = ∅ := by
  have hparse := @parse_volumeContext req _ hclean
  obtain ⟨n, hn⟩ := @exists_created x cl req hname hcap params hp (World.blank.withReg reg) bs hstack
    (fun _ => .go) fun _ => trivial
  obtain ⟨n', hn'⟩ := @exists_published x cl cfg ⟨req.name, target, _, false⟩ hname htarget _
    (hasRoom_blank cfg ⟨req.name, target, _, false⟩ reg hbeside) hc _ hparse _ hstack
    (fun _ => .go) fun _ => trivial
  have hhonest : ∀ c ∈ (List.range n').map fun _ : ℕ => Choice.go, c.Honest := by
    intro c hc
    obtain ⟨i, -, rfl⟩ := List.mem_map.1 hc
    trivial
  obtain ⟨-, huppers, hmounts⟩ := run_of_always ((@publish_stacked x cl cfg hx)
    ⟨req.name, target, _, false⟩ (filledByPulls_blank x cl cfg req.name reg).sound hc hparse hstack)
    _ hhonest
  obtain ⟨m, paths, hm, hspec, -⟩ := hmounts hn'
  refine ⟨_, m, _, ⟨⟨_, _, hn⟩, ⟨_, target, false, _, rfl, filledByPulls_blank x cl cfg _ reg, hhonest,
    hn', rfl⟩, ?_⟩, rfl, ?_, ?_⟩
  · exact congrArg List.head? hm
  · rw [hspec]
    rfl
  · rw [World.upperOf]
    exact congrFun huppers _

/-- A volume with these layers in its upper, mounted on a node where nothing else is. -/
def mountedWith (m : Mount) (u : Tree) (reg : Store) : World := ⟨Fs.empty, [m], 1, fun _ => u, reg⟩

/-- A snapshot of it can be taken. -/
lemma exists_snapshotOf (hx : Function.Injective x.sha256)
    (hempty : digestOf x.sha256 EMPTY_CONFIG_BYTES = EMPTY_CONFIG_DIGEST) {vol : Volume}
    (hvol : vol.volumeId ≠ []) {m : Mount} (hm : m.spec.controlSocket = cfg.controlSocket vol.volumeId)
    {u : Tree} (hsize : (x.pack u).length < 2 ^ 64) {reg : Store} (hc : reg.Consistent x)
    {name : Text} (hname : name ≠ []) {params : StrMap} {targetRef : Text}
    (ht : snapshotTarget cfg params vol.volumeId name = .ok targetRef) {r : Reference}
    (hr : Reference.parse targetRef = .ok r) (hrepo : legalRepo (r.registry, r.repository) = true)
    (htag : legalTag r.reference = true) :
    ∃ id regS, SnapshotOf x cl cfg vol m (mountedWith m u reg) id regS ∧ reg.Retains x regS := by
  have hdaemon : (mountedWith m u reg).daemon (cfg.controlSocket vol.volumeId).key = some m := by
    simp [World.daemon, mountedWith, hm]
  have hstage : Stageable cfg vol.volumeId (mountedWith m u reg) := by
    refine ⟨Fs.mkdirs_of_clearTo fun _ _ _ => nofun, ?_⟩
    rw [Config.key_captureStaging]
    exact not_isDir_empty (.inr (by decide))
  have hcap : captureOf x (cfg.controlSocket vol.volumeId) (mountedWith m u reg) = some (x.pack u) := by
    rw [captureOf, hdaemon]
    rfl
  obtain ⟨tr, w', heval⟩ := @eval_freeze_pushed x cl hempty cfg vol.volumeId targetRef _ hstage _ hcap
    hsize r hr ⟨hrepo, .inl htag⟩
  have hact : ∀ o w, env x o .go w = act x o w := fun _ _ => rfl
  obtain ⟨n, hn⟩ := exists_run_eq_eval hact
    (snapshotProg x cl cfg ⟨vol.volumeId, name, params⟩) (mountedWith m u reg)
  have hexists : (mountedWith m u reg).ExistsAt (cfg.controlSocket vol.volumeId).key :=
    .inr (.inr ⟨m, List.mem_cons_self, by rw [hm]⟩)
  have hresult : (snapshotRun x cl cfg ⟨vol.volumeId, name, params⟩ (List.replicate n .go)
      (mountedWith m u reg)).result = some (.ok ⟨revisionId x r (x.pack u), vol.volumeId⟩) := by
    rw [snapshotRun, hn, eval_snapshot hvol hname ht, if_pos hexists, heval]
    rfl
  refine ⟨_, _, ⟨hc, hdaemon, _, _, rfl, ?_, hresult, rfl⟩,
    run_retains hx (snapshotProg x cl cfg ⟨vol.volumeId, name, params⟩) (List.replicate n .go)
      (w := mountedWith m u reg) hc⟩
  exact fun c hmem => List.eq_of_mem_replicate hmem ▸ trivial

end NewNodes

/-! ### Clones that are no copies -/

section Samples

/-- SHA-256 on what is hashed below. -/
def cloneExt : Ext :=
  ⟨Sample.hashWith ((manifestBytes "one".toList
      "sha256:4f53cda18c2baa0c0354bb5f9a3ecbe5ed12ab4d8e11ba873c2f11161202b945".toList 2,
      Sample.unhex "3a928811ee1174dcc99e7e1c82a4df53dea4cbd62c5b44b99befcc43a69b3c0b".toList) ::
    (Sample.ascii "[[[\"f\"],null]]",
      Sample.unhex "ab3ac135506950ce9401c31d9e201695122936576801f613cb94c21dbb5fbd3a".toList) ::
    (manifestBytes "one".toList
      "sha256:ab3ac135506950ce9401c31d9e201695122936576801f613cb94c21dbb5fbd3a".toList 14,
      Sample.unhex "fbb2a39da4e5a22f9a47fa9a840a39ed05597db1eff3f0ac33122473a47ef4df".toList) ::
    Sample.digests), Sample.pack, Sample.unpack⟩

lemma cloneExt_lawful : cloneExt.Lawful where
  sha256_injective := Sample.hashWith_injective (by decide +kernel) (by decide +kernel)
  unpack_pack := Sample.unpack_pack

lemma cloneExt_empty : digestOf cloneExt.sha256 EMPTY_CONFIG_BYTES = EMPTY_CONFIG_DIGEST := by
  decide +kernel

/-- An upper in which the file was deleted. -/
def removedNote : Tree := (∅ : Tree).insert ["f".toList] .whiteout

/-- A request for a volume with the parameters `P`. -/
def sampleVolumeRequest (name : String) (P : StrMap) (src : Option ContentSource) :
    CreateVolumeRequest := ⟨name.toList, none, 1, P, src⟩

/-- Where the snapshots are pushed to. -/
def noteRef : Reference := ⟨"qregistry.local".toList, "pvcs/one".toList, "one".toList⟩

/-- A snapshot can be taken of every upper that is not too large. -/
lemma exists_sampleSnapshot {vol : Volume} (hvol : vol.volumeId ≠ []) {m : Mount}
    (hm : m.spec.controlSocket = Sample.config.controlSocket vol.volumeId) {u : Tree}
    (hsize : (Sample.pack u).length < 2 ^ 64) {reg : Store} (hc : reg.Consistent cloneExt) :
    ∃ id regS, SnapshotOf cloneExt Sample.client Sample.config vol m (mountedWith m u reg) id regS ∧
      reg.Retains cloneExt regS := by
  have ht : snapshotTarget Sample.config ((∅ : StrMap).insert CAPTURE_REPO
      "qregistry.local/pvcs/one".toList) vol.volumeId "one".toList
        = .ok "qregistry.local/pvcs/one:one".toList := by
    rw [snapshotTarget, AList.lookup_insert]
    rfl
  have hr : Reference.parse "qregistry.local/pvcs/one:one".toList = .ok noteRef := by decide
  exact exists_snapshotOf cloneExt_lawful.sha256_injective cloneExt_empty hvol hm hsize hc
    (by decide) ht hr (by decide) (by decide)

/-- A volume with parameters that the registry can serve is published. -/
lemma exists_sampleVolume {name : String} (hname : name.toList ≠ [])
    (hlong : 3 ≤ (Sample.config.lowersDir name.toList).key.length) {P : StrMap}
    {src : Option ContentSource} {params : PvcParams} (hp : PvcParams.parse P = .ok params)
    (hclean : ∀ s ∈ (withSource params src).seeds, PvcParams.CleanSeed s) {reg : Store}
    (hc : reg.Consistent cloneExt) {bs : List Bytes}
    (hstack : reg.stack (withSource params src).seeds = some bs) :
    ∃ vol m w, PublishedAs cloneExt Sample.client Sample.config (sampleVolumeRequest name P src) vol reg
        m w ∧ vol.volumeId = name.toList ∧
      m.spec.controlSocket = Sample.config.controlSocket name.toList ∧ w.upperOf m = ∅ := by
  have hbeside : ∀ n, ¬(Sample.config.lowersDir name.toList).key ++ [n]
      <+: PathBuf.key ⟨"/pods/a".toList⟩ := by
    intro n h
    have hle := h.length_le
    rw [List.length_append] at hle
    exact absurd (Nat.lt_of_lt_of_le (Nat.lt_succ_of_le hlong) hle) (by decide)
  exact exists_publishedAs cloneExt_lawful.sha256_injective hname Nat.one_ne_zero hp hclean hc hstack
    (by decide) hbeside

/-- A mounted volume can be cloned. -/
lemma exists_sampleClone {vol : Volume} (hvol : vol.volumeId ≠ []) {m : Mount}
    (hm : m.spec.controlSocket = Sample.config.controlSocket vol.volumeId) {u : Tree}
    (hsize : (Sample.pack u).length < 2 ^ 64) {reg : Store} (hc : reg.Consistent cloneExt)
    {name : String} (hname : name.toList ≠ [])
    (hlong : 3 ≤ (Sample.config.lowersDir name.toList).key.length) {P : StrMap} {params : PvcParams}
    (hp : PvcParams.parse P = .ok params) {bs : List Bytes}
    (hstack : ∀ reg', reg.Retains cloneExt reg' → reg'.stack params.seeds = some bs) :
    ∃ id regS vol' m' w',
      SnapshotOf cloneExt Sample.client Sample.config vol m (mountedWith m u reg) id regS ∧
      reg.Retains cloneExt regS ∧
      PublishedAs cloneExt Sample.client Sample.config (sampleVolumeRequest name P (some (.snapshot id)))
        vol' regS m' w' ∧ vol'.volumeId = name.toList ∧
      m'.spec.controlSocket = Sample.config.controlSocket name.toList ∧ w'.upperOf m' = ∅ := by
  obtain ⟨id, regS, hsnap, hret⟩ := exists_sampleSnapshot hvol hm hsize hc
  obtain ⟨hclean, hboth⟩ := hsnap.seeds cloneExt_lawful.sha256_injective (.refl hret.consistent) hp
    (hstack regS hret)
  obtain ⟨vol', m', w', hpub, hid, hsocket, hfresh⟩ :=
    exists_sampleVolume hname hlong hp hclean hret.consistent hboth
  exact ⟨id, regS, vol', m', w', hsnap, hret, hpub, hid, hsocket, hfresh⟩

/-- A registry with one revision. -/
def Store.ofRevision (x : Ext) (r : Reference) (b : Bytes) : Store where
  blobs repo d :=
    if repo = (r.registry, r.repository) ∧ d = digestOf x.sha256 b then some b else none
  manifests repo t :=
    if repo = (r.registry, r.repository) ∧ t = digestOf x.sha256 (revisionOf x r b) then
      some (revisionOf x r b) else none

lemma Store.ofRevision_hasRevision {r : Reference} {b : Bytes}
    (hlegal : legalRepo (r.registry, r.repository) = true) (hsize : b.length < 2 ^ 64) :
    (Store.ofRevision x r b).HasRevision x r b where
  consistent := by
    intro repo d b' hb
    simp only [Store.ofRevision] at hb
    split at hb
    · rename_i h
      rw [h.2, ← Option.some.inj hb]
    · exact absurd hb nofun
  legal := hlegal
  manifest := if_pos ⟨rfl, rfl⟩
  layer := if_pos ⟨rfl, rfl⟩
  size := hsize

/-- A registry with a revision of an upper with one file. -/
def noteStore : Store := .ofRevision cloneExt noteRef (Sample.pack Sample.note)

lemma noteStore_hasRevision : noteStore.HasRevision cloneExt noteRef (Sample.pack Sample.note) :=
  Store.ofRevision_hasRevision (by decide) (by decide +kernel)

/-- The revision as the one seed of a class. -/
def noteParams : PvcParams :=
  ⟨[revisionId cloneExt noteRef (Sample.pack Sample.note)], none, none, none, false, none⟩

lemma parse_noteParams : PvcParams.parse noteParams.toVolumeContext = .ok noteParams := by
  refine PvcParams.parse_toVolumeContext (fun s hs => ?_) fun _ _ => rfl
  rw [List.mem_singleton.1 hs]
  exact cleanSeed_render noteStore_hasRevision.legal _

lemma noteParams_stack {reg : Store} (h : noteStore.Retains cloneExt reg) :
    reg.stack noteParams.seeds = some [Sample.pack Sample.note] := by
  have hparse : Reference.parse "qregistry.local/pvcs/one:one".toList = .ok noteRef := by decide
  change reg.stack [_] = _
  rw [Store.stack, List.mapM_cons, (noteStore_hasRevision.retains h).contents hparse]
  rfl

/-- A volume of this class whose upper has become `u`, and a clone of it. -/
structure NoteClone (u : Tree) (vol : Volume) (m : Mount) (w₀ : World) (id : Text) (regS : Store)
    (vol' : Volume) (m' : Mount) (w' : World) : Prop where
  source : PublishedAs cloneExt Sample.client Sample.config
    (sampleVolumeRequest "v1" noteParams.toVolumeContext none) vol noteStore m w₀
  snapshot : SnapshotOf cloneExt Sample.client Sample.config vol m (mountedWith m u noteStore) id regS
  retains : noteStore.Retains cloneExt regS
  clone : PublishedAs cloneExt Sample.client Sample.config
    (sampleVolumeRequest "v2" noteParams.toVolumeContext (some (.snapshot id))) vol' regS m' w'
  fresh : w'.upperOf m' = ∅

lemma exists_noteClone {u : Tree} (hsize : (Sample.pack u).length < 2 ^ 64) :
    ∃ vol m w₀ id regS vol' m' w', NoteClone u vol m w₀ id regS vol' m' w' := by
  have hself := Store.Retains.refl noteStore_hasRevision.consistent
  obtain ⟨vol, m, w₀, hpub, hid, hsocket, -⟩ := @exists_sampleVolume "v1" (by decide) (by decide)
    _ none _ parse_noteParams (PvcParams.cleanSeed_of_parse parse_noteParams) _ hself.consistent _
    (noteParams_stack hself)
  obtain ⟨id, regS, vol', m', w', hsnap, hret, hpub', -, -, hfresh⟩ :=
    @exists_sampleClone vol (by rw [hid]; decide) m (hid ▸ hsocket) u hsize _ hself.consistent "v2"
      (by decide) (by decide) _ _ parse_noteParams _ fun _ => noteParams_stack
  exact ⟨vol, m, w₀, id, regS, vol', m', w', hpub, hsnap, hret, hpub', hfresh⟩

/-- A volume that nothing was written to is copied. -/
theorem clone_shows_iff_empty : ∃ vol m w₀ id regS vol' m' w',
    NoteClone ∅ vol m w₀ id regS vol' m' w' ∧ w'.view m' = (mountedWith m ∅ noteStore).view m := by
  obtain ⟨vol, m, w₀, id, regS, vol', m', w', h⟩ := @exists_noteClone ∅ (by decide +kernel)
  have hself := Store.Retains.refl noteStore_hasRevision.consistent
  refine ⟨vol, m, w₀, id, regS, vol', m', w', h, ?_⟩
  refine (clone_shows_iff cloneExt cloneExt_lawful Sample.client Sample.config parse_noteParams rfl rfl
    hself.consistent (noteParams_stack hself) h.source h.snapshot rfl rfl (.refl h.retains.consistent)
    (noteParams_stack h.retains) h.clone h.fresh).2 ⟨fun p hp => absurd ?_ hp, fun p _ => rfl⟩
  exact AList.lookup_empty p

/-- A file of the class that was deleted is there again in the clone. -/
theorem clone_restores_deleted : ∃ vol m w₀ id regS vol' m' w',
    NoteClone removedNote vol m w₀ id regS vol' m' w' ∧
      (mountedWith m removedNote noteStore).view m ["f".toList] = none ∧
      w'.view m' ["f".toList] = some (Sample.ascii "hi") := by
  obtain ⟨vol, m, w₀, id, regS, vol', m', w', h⟩ := @exists_noteClone removedNote (by decide +kernel)
  have hself := Store.Retains.refl noteStore_hasRevision.consistent
  have hlowers := h.source.lowers cloneExt_lawful.sha256_injective hself.consistent parse_noteParams
    (PvcParams.cleanSeed_of_parse parse_noteParams) (noteParams_stack hself)
  have hlowers' := clone_lowers cloneExt_lawful h.snapshot (.refl h.retains.consistent)
    parse_noteParams rfl (noteParams_stack h.retains) h.clone
  refine ⟨vol, m, w₀, id, regS, vol', m', w', h, ?_, ?_⟩
  · rw [view_eq _ m hlowers]
    change Layer.view (removedNote.layer :: layersOf cloneExt [Sample.pack Sample.note]) _ = _
    decide +kernel
  · rw [view_of_empty w' m' hlowers' h.fresh]
    change Layer.view (layersOf cloneExt [Sample.pack Sample.note] ++ [removedNote.layer]) _ = _
    decide +kernel

/-- The parameters of a class without seeds. -/
def noSeeds : PvcParams := ⟨[], none, none, none, false, none⟩

lemma parse_noSeeds : PvcParams.parse ∅ = .ok noSeeds := rfl

/-- The last step of a chain without seeds: the upper of the volume behind `m` has become `u`,
and it is cloned. -/
structure ChainEnd (us : List Tree) (u : Tree) (vol : Volume) (m : Mount) (w₀ : World) (reg : Store)
    (id : Text) (regS : Store) (vol' : Volume) (m' : Mount) (w' : World) : Prop where
  chain : Chain cloneExt Sample.client Sample.config ∅ us vol m w₀
  snapshot : SnapshotOf cloneExt Sample.client Sample.config vol m (mountedWith m u reg) id regS
  clone : PublishedAs cloneExt Sample.client Sample.config
    (sampleVolumeRequest "v2" ∅ (some (.snapshot id))) vol' regS m' w'
  fresh : w'.upperOf m' = ∅

lemma blank_consistent : World.blank.reg.Consistent cloneExt :=
  fun _ _ b hb => absurd (show none = some b from hb) nofun

lemma noSeeds_stack (reg : Store) : reg.stack noSeeds.seeds = some [] := rfl

/-- The first volume of a chain. -/
lemma exists_first : ∃ vol m w, Chain cloneExt Sample.client Sample.config ∅ [] vol m w ∧
    vol.volumeId = "v0".toList ∧
      m.spec.controlSocket = Sample.config.controlSocket vol.volumeId := by
  obtain ⟨vol, m, w, hpub, hid, hsocket, -⟩ := @exists_sampleVolume "v0" (by decide) (by decide) ∅ none
    _ parse_noSeeds (PvcParams.cleanSeed_of_parse parse_noSeeds) _ blank_consistent _ (noSeeds_stack _)
  exact ⟨vol, m, w, .first rfl rfl blank_consistent hpub, hid, hid ▸ hsocket⟩

/-- The first clone is a copy. -/
theorem chain_shows_iff_first : ∃ vol m w₀ id regS vol' m' w',
    ChainEnd [] Sample.note vol m w₀ World.blank.reg id regS vol' m' w' ∧
      w'.view m' = (mountedWith m Sample.note World.blank.reg).view m := by
  obtain ⟨vol, m, w₀, hchain, hid, hsocket⟩ := exists_first
  obtain ⟨id, regS, vol', m', w', hsnap, hret, hpub, -, -, hfresh⟩ := @exists_sampleClone vol
    (by rw [hid]; decide) m hsocket Sample.note (by decide +kernel) _ blank_consistent "v2" (by decide)
    (by decide) _ _ parse_noSeeds _ fun _ _ => noSeeds_stack _
  refine ⟨vol, m, w₀, id, regS, vol', m', w', ⟨hchain, hsnap, hpub, hfresh⟩, ?_⟩
  exact (chain_shows_iff cloneExt cloneExt_lawful Sample.client Sample.config parse_noSeeds rfl hchain
    hsnap rfl rfl (.refl hret.consistent) hpub hfresh).2 fun u hu => absurd hu nofun

/-- The second clone has lost the file of the first volume. -/
theorem chain_loses_file : ∃ vol m w₀ reg id regS vol' m' w',
    ChainEnd [Sample.note] ∅ vol m w₀ reg id regS vol' m' w' ∧
      (mountedWith m ∅ reg).view m ["f".toList] = some (Sample.ascii "hi") ∧
      w'.view m' ["f".toList] = none := by
  obtain ⟨vol₀, m₀, w₀, hchain₀, hid₀, hsocket₀⟩ := exists_first
  obtain ⟨id₀, reg, vol, m, w, hsnap₀, hret₀, hpub₀, hid, hsocket, -⟩ := @exists_sampleClone vol₀
    (by rw [hid₀]; decide) m₀ hsocket₀ Sample.note (by decide +kernel) _ blank_consistent "v1" (by decide)
    (by decide) _ _ parse_noSeeds _ fun _ _ => noSeeds_stack _
  have hchain : Chain cloneExt Sample.client Sample.config ∅ [Sample.note] vol m w :=
    hchain₀.next hsnap₀ rfl rfl (.refl hret₀.consistent) hpub₀
  obtain ⟨id, regS, vol', m', w', hsnap, hret, hpub, -, -, hfresh⟩ := @exists_sampleClone vol
    (by rw [hid]; decide) m (hid ▸ hsocket) ∅ (by decide +kernel) _ hret₀.consistent "v2" (by decide)
    (by decide) _ _ parse_noSeeds _ fun _ _ => noSeeds_stack _
  have hlowers := hchain.lowers cloneExt_lawful parse_noSeeds rfl
  have hlowers' := (hchain.next hsnap rfl rfl (.refl hret.consistent) hpub).lowers cloneExt_lawful
    parse_noSeeds rfl
  refine ⟨vol, m, w, reg, id, regS, vol', m', w', ⟨hchain, hsnap, hpub, hfresh⟩, ?_, ?_⟩
  · rw [view_of_empty _ m hlowers rfl]
    rfl
  · rw [view_of_empty w' m' hlowers' hfresh]
    rfl

end Samples

end RspacefsCsi
