/-
# The layers that a publish mounts

A registry that is honest decides by what it holds which layers a volume is mounted with: the
contents of the seeds, in the order of the seeds and from the top of each manifest down
(`publish_stacked`).  What earlier pulls have left in the cache of the volume does not show,
and neither do failures: a publish that returns OK has mounted these layers.  If everything
does its work, the publish does return OK (`publish_prompt`).
-/
import RspacefsCsi.History

namespace RspacefsCsi

open Lib Lib.Prog OciClient

variable {x : Ext} {cl : OciClient} {cfg : Config} {dir : PathBuf}

/-! ### What a registry holds for a seed -/

namespace Store

/-- The answer of an honest registry for a manifest. -/
def answer (s : Store) (r : Reference) : Except Text (ℕ × Bytes) :=
  match s.manifests (r.registry, r.repository) r.reference with
  | some b => .ok (200, b)
  | none => .ok (404, [])

/-- The contents of the layers of a seed, from the top down, if the registry has them all. -/
def contents (s : Store) (seed : Text) : Option (List Bytes) :=
  match Reference.parse seed with
  | .error _ => none
  | .ok r => (answeredLayers s.answer seed).bind fun layers =>
      layers.mapM fun layer => s.blobs (r.registry, r.repository) layer.digest

/-- The contents of the layers of seeds, from the top down. -/
def stack (s : Store) (seeds : List Text) : Option (List Bytes) :=
  (seeds.mapM s.contents).map List.flatten

/-- The digests of the layers are those of the contents. -/
def DigestsOf (x : Ext) (layers : List LayerRef) (bs : List Bytes) : Prop :=
  List.Forall₂ (fun layer b => layer.digest = digestOf x.sha256 b) layers bs

/-- What a consistent registry has under the digests of layers are their contents. -/
lemma digestsOf_of_mapM {s : Store} (h : s.Consistent x) {repo : Repo} {layers : List LayerRef}
    {bs : List Bytes} (hbs : (layers.mapM fun layer => s.blobs repo layer.digest) = some bs) :
    DigestsOf x layers bs := by
  induction layers generalizing bs with
  | nil =>
    obtain rfl : [] = bs := Option.some.inj hbs
    exact .nil
  | cons layer layers ih =>
    rw [List.mapM_cons] at hbs
    obtain ⟨b, hb, hbs⟩ := Option.bind_eq_some_iff.1 hbs
    obtain ⟨rest, hrest, hbs⟩ := Option.bind_eq_some_iff.1 hbs
    obtain rfl : b :: rest = bs := Option.some.inj hbs
    exact .cons (h repo _ b hb).symm (ih hrest)

lemma exists_of_mapM {α β : Type} {f : α → Option β} {as : List α} {bs : List β}
    (h : as.mapM f = some bs) {a : α} (ha : a ∈ as) : ∃ b, f a = some b := by
  induction as generalizing bs with
  | nil => exact absurd ha List.not_mem_nil
  | cons a' as ih =>
    rw [List.mapM_cons] at h
    obtain ⟨b, hb, h⟩ := Option.bind_eq_some_iff.1 h
    obtain ⟨rest, hrest, -⟩ := Option.bind_eq_some_iff.1 h
    rcases List.mem_cons.1 ha with rfl | ha
    · exact ⟨b, hb⟩
    · exact ih hrest ha

/-- The layers of a seed whose contents are there. -/
lemma exists_of_contents {s : Store} {seed : Text} {bs : List Bytes} (h : s.contents seed = some bs) :
    ∃ r layers, Reference.parse seed = .ok r ∧ answeredLayers s.answer seed = some layers ∧
      (layers.mapM fun layer => s.blobs (r.registry, r.repository) layer.digest) = some bs := by
  unfold contents at h
  cases hr : Reference.parse seed with
  | error e =>
    rw [hr] at h
    exact absurd h nofun
  | ok r =>
    rw [hr] at h
    obtain ⟨layers, hl, hbs⟩ := Option.bind_eq_some_iff.1 h
    exact ⟨r, layers, rfl, hl, hbs⟩

/-- A stack begins with the contents of the first seed. -/
lemma stack_cons {s : Store} {seed : Text} {rest : List Text} {bs : List Bytes}
    (h : s.stack (seed :: rest) = some bs) :
    ∃ b₁ b₂, s.contents seed = some b₁ ∧ s.stack rest = some b₂ ∧ bs = b₁ ++ b₂ := by
  unfold stack at h
  obtain ⟨bss, hbss, rfl⟩ := Option.map_eq_some_iff.1 h
  rw [List.mapM_cons] at hbss
  obtain ⟨b₁, hb₁, hbss⟩ := Option.bind_eq_some_iff.1 hbss
  obtain ⟨b₂, hb₂, hbss⟩ := Option.bind_eq_some_iff.1 hbss
  obtain rfl : b₁ :: b₂ = bss := Option.some.inj hbss
  exact ⟨b₁, b₂.flatten, hb₁, by rw [stack, hb₂]; rfl, List.flatten_cons⟩

/-- Every seed of a stack has layers. -/
lemma exists_layers {s : Store} {seeds : List Text} {bs : List Bytes} (h : s.stack seeds = some bs)
    {seed : Text} (hseed : seed ∈ seeds) : ∃ layers, answeredLayers s.answer seed = some layers := by
  obtain ⟨bss, hbss, -⟩ := Option.map_eq_some_iff.1 h
  obtain ⟨b, hb⟩ := exists_of_mapM hbss hseed
  obtain ⟨r, layers, -, hl, -⟩ := exists_of_contents hb
  exact ⟨layers, hl⟩

/-- The layers of the seeds of a stack have the digests of its contents. -/
lemma exists_of_stack {s : Store} (hc : s.Consistent x) {seeds : List Text} {bs : List Bytes}
    (h : s.stack seeds = some bs) : ∃ layers, seeds.mapM (answeredLayers s.answer) = some layers ∧
      DigestsOf x layers.flatten bs := by
  induction seeds generalizing bs with
  | nil =>
    obtain rfl : [] = bs := Option.some.inj h
    exact ⟨[], rfl, .nil⟩
  | cons seed rest ih =>
    obtain ⟨b₁, b₂, hb₁, hb₂, rfl⟩ := stack_cons h
    obtain ⟨r, layers, -, hl, hbs⟩ := exists_of_contents hb₁
    obtain ⟨more, hmore, hdigests⟩ := ih hb₂
    refine ⟨layers :: more, ?_, ?_⟩
    · rw [List.mapM_cons, hl, hmore]
      rfl
    · rw [List.flatten_cons]
      exact List.rel_append (digestsOf_of_mapM hc hbs) hdigests

end Store

/-! ### Pulls from an honest registry -/

/-- An honest registry answers for a manifest with what it has, or not at all. -/
lemma env_getManifest_cases (x : Ext) (url : Text) (r : Reference) {c : Choice} (hc : c.Honest)
    (w : World) :
    (∃ res, env x (.getManifest url r) c w = (res, w) ∧
      ∀ (url' : Text), ∃ e, checkReply url' res = .error e) ∨
    env x (.getManifest url r) c w = (w.reg.answer r, w) := by
  cases c with
  | fault msg done => exact .inl ⟨_, rfl, fun _ => ⟨_, rfl⟩⟩
  | status code =>
    refine .inl ⟨_, rfl, fun url' => ⟨.status url' code, ?_⟩⟩
    have hcode : isSuccess code = false := by simpa [Choice.Honest, isSuccess] using hc
    change checkReply url' (.ok (code, [])) = _
    simp [checkReply, hcode]
  | forged body => exact absurd hc id
  | stream items => exact absurd hc id
  | _ => exact .inr rfl

/-- The requests that leave registries and mounts alone. -/
def LocalOnly (o : Op) : Prop := ¬ChangesReg o ∧ ¬ChangesMounts o

/-- A pull leaves registries and mounts alone. -/
lemma pullLayers_localOnly (seed : Text) (dir : PathBuf) :
    Forall LocalOnly (pullLayers x.sha256 cl seed dir).run := by
  refine (pullLayers_forall seed dir).mono ?_
  rintro o (⟨url, r, rfl⟩ | rfl | h)
  · exact ⟨id, id⟩
  · exact ⟨id, id⟩
  · cases o <;> first | exact ⟨id, id⟩ | exact absurd h id

/-- What a pull leaves alone. -/
structure SameSystem (w w' : World) : Prop where
  reg : w'.reg = w.reg
  mounts : w'.mounts = w.mounts
  uppers : w'.uppers = w.uppers

lemma SameSystem.refl (w : World) : SameSystem w w := ⟨rfl, rfl, rfl⟩

lemma SameSystem.trans {w w' w'' : World} (h : SameSystem w w') (h' : SameSystem w' w'') :
    SameSystem w w'' := ⟨h'.reg.trans h.reg, h'.mounts.trans h.mounts, h'.uppers.trans h.uppers⟩

lemma env_sameSystem {o : Op} (ho : LocalOnly o) (c : Choice) (w : World) :
    SameSystem w (env x o c w).2 :=
  ⟨env_reg x c w ho.1, (env_mounts x c w ho.2).1, env_uppers x o c w⟩

/-- A pull from an honest registry that returns OK has the files of the layers that the
registry holds. -/
lemma pullLayers_held {w : World} (seed : Text) (hs : SoundDir x dir w) (tr : List Ev) :
    Always (env x) Choice.Honest (fun _ w' res => Filled x dir w w' ∧ SameSystem w w' ∧
      ∀ paths, res = some (.ok paths) → ∃ layers, answeredLayers w.reg.answer seed = some layers ∧
        paths = layers.map (blobPath dir) ∧ Available x dir w' layers)
      (pullLayers x.sha256 cl seed dir).run tr w := by
  have hself := Filled.refl hs
  have hsys : Always (env x) Choice.Honest (fun _ w' _ => SameSystem w w')
      (pullLayers x.sha256 cl seed dir).run tr w :=
    Always.of_forall (pullLayers_localOnly seed dir)
      (fun o c w' ho _ h => h.trans (env_sameSystem ho c w')) (.refl w) tr
  have hheld : Always (env x) Choice.Honest (fun _ w' res => Filled x dir w w' ∧
      ∀ paths, res = some (.ok paths) → ∃ layers, answeredLayers w.reg.answer seed = some layers ∧
        paths = layers.map (blobPath dir) ∧ Available x dir w' layers)
      (pullLayers x.sha256 cl seed dir).run tr w := by
    cases hr : Reference.parse seed with
    | error e =>
      simp only [pullLayers, hr, run_require_bind]
      exact ⟨⟨hself, none_returned⟩, hself, none_ok⟩
    | ok r =>
      rw [run_pullLayers hr]
      refine ⟨⟨hself, none_returned⟩, fun c hc => ?_⟩
      rcases env_getManifest_cases x (cl.manifestUrl r) r hc w with ⟨res, h, he⟩ | h <;> rw [h]
      · obtain ⟨e, he⟩ := he (cl.manifestUrl r)
        dsimp only
        rw [he]
        exact ⟨⟨hself, none_returned⟩, hself, none_ok⟩
      dsimp only
      rcases checkReply_cases (cl.manifestUrl r) [] (w.reg.answer r) (parseLayers r) with
        ⟨layers, h₁, h₂⟩ | ⟨e₁, e₂, h₁, -⟩ <;> rw [h₁]
      · have hanswer : answeredLayers w.reg.answer seed = some layers := by
          simp only [answeredLayers, hr, h₂]
        refine ⟨⟨hself, none_returned⟩, fun c _ => ?_⟩
        have hgrow := env_createDirAll_elsewhere (x := x) (fun name _ => not_prefix_self dir name) c w
        generalize env x (.createDirAll dir) c w = res at hgrow ⊢
        obtain ⟨res, w₁⟩ := res
        have hf₁ := hgrow.filled hs
        cases res with
        | error e => exact ⟨⟨hf₁, none_returned⟩, hf₁, none_ok⟩
        | ok u =>
          refine ((pullEach_filled r layers hf₁.sound _).and (pullEach_paths r dir layers _ w₁)).mono ?_
          rintro tr' w' res ⟨⟨hf, hread⟩, hpaths⟩
          refine ⟨hf₁.trans hf, fun paths hok => ⟨layers, hanswer, hpaths paths hok,
            fun layer hl hd => ?_⟩⟩
          exact hf.sound.digest hd (existsAt_of_read (hread paths hok layer hl hd))
      · exact ⟨⟨hself, none_returned⟩, hself, none_ok⟩
  exact (hheld.and hsys).mono fun _ _ _ h => ⟨h.1.1, h.2, h.1.2⟩

namespace NodeService

/-- The same for pulls of seeds. -/
lemma pullSeeds_held {w : World} (seeds : List Text) (hs : SoundDir x dir w) (tr : List Ev) :
    Always (env x) Choice.Honest (fun _ w' res => Filled x dir w w' ∧ SameSystem w w' ∧
      ∀ blobs, res = some (.ok blobs) → ∃ layers,
        seeds.mapM (answeredLayers w.reg.answer) = some layers ∧
        blobs = layers.flatten.map (blobPath dir) ∧ Available x dir w' layers.flatten)
      (link (OciClient.impl x.sha256 cl) (pullSeeds dir seeds).run) tr w := by
  induction seeds generalizing w tr with
  | nil =>
    have hself := Filled.refl hs
    refine ⟨⟨hself, .refl w, none_returned⟩, hself, .refl w, ?_⟩
    rintro blobs ⟨⟩
    exact ⟨[], rfl, rfl, fun _ h => absurd h List.not_mem_nil⟩
  | cons seed rest ih =>
    rw [pullSeeds, link_attempt_bind]
    refine Always.bind ((pullLayers_held seed hs tr).mono ?_)
    rintro tr₁ w₁ res ⟨hf, hsys, hheld⟩
    refine ⟨⟨hf, hsys, none_returned⟩, fun res' hres => ?_⟩
    cases res' with
    | error e => exact ⟨⟨hf, hsys, none_returned⟩, hf, hsys, none_ok⟩
    | ok paths =>
      obtain ⟨layers, hl, rfl, havail⟩ := hheld paths hres
      simp only [Except.mapError, link_tryBind]
      refine Always.bind ((ih hf.sound tr₁).mono ?_)
      rintro tr₂ w₂ res ⟨hf', hsys', hheld'⟩
      have hff := hf.trans hf'
      have hss := hsys.trans hsys'
      refine ⟨⟨hff, hss, none_returned⟩, fun res' hres => ?_⟩
      cases res' with
      | error e => exact ⟨⟨hff, hss, none_returned⟩, hff, hss, none_ok⟩
      | ok more =>
        obtain ⟨rest', hrest, rfl, havail'⟩ := hheld' more hres
        refine ⟨⟨hff, hss, none_returned⟩, hff, hss, ?_⟩
        rintro blobs ⟨⟩
        rw [hsys.reg] at hrest
        refine ⟨layers :: rest', ?_, ?_, ?_⟩
        · rw [List.mapM_cons, hl, hrest]
          rfl
        · rw [List.flatten_cons, List.map_append]
        · intro layer hmem hd
          rw [List.flatten_cons, List.mem_append] at hmem
          exact hmem.elim (fun h => havail.filled hf' layer h hd) fun h => havail' layer h hd

/-! ### The mount -/

/-- After the pulls, a publish that returns OK has mounted the files as they were. -/
lemma attach_mounts (req : PublishRequest) (params : PvcParams) (blobs : List PathBuf)
    {ok : Choice → Prop} (tr : List Ev) (w : World) :
    Always (env x) ok (fun _ w' res => res = some (.ok ()) → ∃ n, w'.mounts =
      ⟨n, mountSpec cfg req params blobs, blobs.map fun p => x.unpack ((w.fs.read p.key).getD [])⟩
        :: w.mounts)
      (attach cfg req params blobs).run tr w := by
  simp only [attach, run_attempt_bind, run_ignoring_bind]
  refine ⟨not_returned, fun c _ => ?_⟩
  rcases env_createDirAll_cases x (cfg.upperDir req.volumeId) c w with
    ⟨e, fs, h, -⟩ | ⟨fs, h, hg, -⟩ <;> rw [h]
  · exact ⟨not_returned, not_ok⟩
  refine ⟨not_returned, fun c _ => ?_⟩
  rcases env_createDirAll_cases x ⟨req.targetPath⟩ c (w.withFs fs) with
    ⟨e, fs', h', -⟩ | ⟨fs', h', hg', -⟩ <;> rw [h']
  · exact ⟨not_returned, not_ok⟩
  refine ⟨not_returned, fun c _ => ?_⟩
  rcases env_mount_cases x (mountSpec cfg req params blobs) c ((w.withFs fs).withFs fs') with
    ⟨e, hm⟩ | ⟨hm, -⟩ <;> rw [hm]
  · exact ⟨not_returned, not_ok⟩
  have hread : ∀ k, fs'.read k = w.fs.read k := fun k => (hg'.read k).trans (hg.read k)
  have hmounts : (((w.withFs fs).withFs fs').startMount x (mountSpec cfg req params blobs)).mounts =
      ⟨w.nextMount, mountSpec cfg req params blobs,
        blobs.map fun p => x.unpack ((w.fs.read p.key).getD [])⟩ :: w.mounts := by
    simp only [World.startMount, World.withFs_fs, World.withFs_mounts, World.withFs_nextMount,
      mountSpec, hread]
  -- what follows leaves the mounts alone
  have hrest : Forall (fun o => ¬ChangesMounts o)
      ((persistState cfg req.volumeId req.volumeContext).run >>= fun _ =>
        (pure () : Handler Status Unit).run) := by
    refine Forall.bind ?_ fun _ => trivial
    simp only [persistState, run_attempt_bind, forall_call]
    refine ⟨id, fun res => ?_⟩
    cases res with
    | error e => trivial
    | ok u => exact ⟨id, fun _ => trivial⟩
  refine (Always.of_forall (I := fun w' : World => w'.mounts = _) hrest
    (fun o c w' ho _ h => (env_mounts x c w' ho).1.trans h) hmounts _).mono ?_
  exact fun _ _ _ h _ => ⟨_, h⟩

/-- What a volume is mounted with: these contents, in files that are still there. -/
structure MountedWith (x : Ext) (bs : List Bytes) (w : World) (m : Mount) : Prop where
  lowers : m.lowers = bs.map x.unpack
  files : List.Forall₂ (fun p b => w.fs.read (PathBuf.key p) = some b) m.spec.lowerBlobs bs

/-- The files of layers have the contents. -/
lemma read_of_available (hx : Function.Injective x.sha256) {w : World} {layers : List LayerRef}
    {bs : List Bytes} (h : Available x dir w layers) (hd : Store.DigestsOf x layers bs) :
    List.Forall₂ (fun p b => w.fs.read (PathBuf.key p) = some b) (layers.map (blobPath dir)) bs := by
  rw [List.forall₂_map_left_iff]
  induction hd with
  | nil => exact .nil
  | @cons layer b layers bs hb hrest ih =>
    refine .cons ?_ (ih fun l hl => h l (List.mem_cons_of_mem _ hl))
    have hdigest : IsDigest layer.digest :=
      isDigest_of_eq (x := x) (b := b) (by rw [hb]; exact Text.eqIgnoreAsciiCase_self _)
    obtain ⟨b', hb', heq⟩ := h layer List.mem_cons_self hdigest
    rw [blobPath, key_blobPath hdigest, hb']
    have hlow := beq_iff_eq.1 heq
    rw [hb, asciiLower_digestOf, asciiLower_digestOf] at hlow
    rw [digestOf_injective hx hlow]

lemma map_unpack_of_read {w : World} {paths : List PathBuf} {bs : List Bytes}
    (h : List.Forall₂ (fun p b => w.fs.read (PathBuf.key p) = some b) paths bs) :
    (paths.map fun p => x.unpack ((w.fs.read p.key).getD [])) = bs.map x.unpack := by
  induction h with
  | nil => rfl
  | cons hb _ ih => rw [List.map_cons, List.map_cons, hb, ih, Option.getD_some]

/-- **A publish that returns OK has mounted what the registry holds for the seeds**, from the
top down, whatever has been pulled before. -/
lemma publish_stacked (hx : Function.Injective x.sha256) (req : PublishRequest) {w : World}
    (hs : SoundDir x (cfg.lowersDir req.volumeId) w) (hc : w.reg.Consistent x) {params : PvcParams}
    (hp : PvcParams.parse req.volumeContext = .ok params) {bs : List Bytes}
    (hstack : w.reg.stack params.seeds = some bs) :
    Always (env x) Choice.Honest (fun _ w' res => w'.reg = w.reg ∧ w'.uppers = w.uppers ∧
      (res = some (.ok ()) → ∃ m paths, w'.mounts = m :: w.mounts ∧
        m.spec = mountSpec cfg req params paths ∧ MountedWith x bs w' m))
      ((Call.publish req).linked x cl cfg) [] w := by
  simp only [Call.linked, Call.prog, nodePublishVolume]
  split
  · exact ⟨⟨rfl, rfl, not_returned⟩, rfl, rfl, not_ok⟩
  split
  · exact ⟨⟨rfl, rfl, not_returned⟩, rfl, rfl, not_ok⟩
  rw [hp, run_require_bind]
  simp only [Except.mapError, link_tryBind]
  refine Always.bind ((pullSeeds_held params.seeds hs []).mono ?_)
  rintro tr w₁ res ⟨-, hsys, hheld⟩
  refine ⟨⟨hsys.reg, hsys.uppers, not_returned⟩, fun res' hres => ?_⟩
  cases res' with
  | error e => exact ⟨⟨hsys.reg, hsys.uppers, not_returned⟩, hsys.reg, hsys.uppers, not_ok⟩
  | ok blobs =>
    obtain ⟨layers, hl, rfl, havail⟩ := hheld blobs hres
    obtain ⟨layers', hl', hdigests⟩ := Store.exists_of_stack hc hstack
    obtain rfl := Option.some.inj (hl.symm.trans hl')
    have hsame : Always (env x) Choice.Honest (fun _ w' _ => w'.reg = w.reg ∧ w'.uppers = w.uppers)
        (link (OciClient.impl x.sha256 cl) (attach cfg req params
          (layers.flatten.map (blobPath (cfg.lowersDir req.volumeId)))).run) tr w₁ := by
      rw [link_attach]
      refine Always.of_forall (P := fun o => ¬ChangesReg o)
        (I := fun w' : World => w'.reg = w.reg ∧ w'.uppers = w.uppers)
        ((attach_forall req params _).mono fun o ho => ?_)
        (fun o c w' ho _ h => ⟨(env_reg x c w' ho).trans h.1, (env_uppers x o c w').trans h.2⟩)
        ⟨hsys.reg, hsys.uppers⟩ tr
      rcases ho with ⟨p, -, rfl⟩ | rfl | ⟨b, rfl⟩ <;> exact id
    have hmount := @attach_mounts x cfg req params
      (layers.flatten.map (blobPath (cfg.lowersDir req.volumeId))) Choice.Honest tr w₁
    rw [← @link_attach x cl] at hmount
    refine ((hsame.and hmount).and
      (attach_available req params _ havail tr)).mono ?_
    rintro tr' w' res' ⟨⟨⟨hreg, huppers⟩, hmounts⟩, havail'⟩
    refine ⟨hreg, huppers, fun hok => ?_⟩
    obtain ⟨n, hn⟩ := hmounts hok
    rw [hsys.mounts] at hn
    exact ⟨_, _, hn, rfl, map_unpack_of_read (read_of_available hx havail hdigests),
      read_of_available hx havail' hdigests⟩

end NodeService

/-! ### Publishes in which everything does its work -/

/-- The request does its work; how a body is cut into chunks is left open. -/
def Choice.Prompt : Choice → Prop
  | .go | .bare | .chunks _ none => True
  | _ => False

lemma Choice.Prompt.honest {c : Choice} (h : c.Prompt) : c.Honest := by
  cases c with
  | status code => exact absurd h id
  | _ => trivial

lemma prompt_of_range {c : ℕ → Choice} (hc : ∀ i, (c i).Prompt) (n : ℕ) :
    ∀ c' ∈ (List.range n).map c, c'.Prompt := by
  intro c' hc'
  obtain ⟨i, -, rfl⟩ := List.mem_map.1 hc'
  exact hc i

/-- The files and directories can be made, and the mount. -/
def LocalOk : Ev → Prop
  | ⟨.createDirAll _, res⟩ => res = .ok ()
  | ⟨.fileCreate _, res⟩ => ∃ ino, res = .ok ino
  | ⟨.fileWrite _ _ _, res⟩ => res = .ok ()
  | ⟨.fileFlush _, res⟩ => res = .ok ()
  | ⟨.renameFile _ _, res⟩ => res = .ok ()
  | ⟨.mount _, res⟩ => res = .ok ()
  | _ => True

lemma exists_cutChunks (sizes : List ℕ) (b : Bytes) :
    ∃ chunks : List Bytes, cutChunks sizes b = chunks.map .ok ∧ chunks.flatten = b := by
  induction sizes generalizing b with
  | nil =>
    cases b with
    | nil => exact ⟨[], rfl, rfl⟩
    | cons y ys => exact ⟨[y :: ys], rfl, List.append_nil _⟩
  | cons n sizes ih =>
    obtain ⟨chunks, hchunks, hflat⟩ := ih (b.drop n)
    refine ⟨b.take n :: chunks, ?_, ?_⟩
    · rw [cutChunks, hchunks, List.map_cons]
    · rw [List.flatten_cons, hflat, List.take_append_drop]

/-- A manifest that is there is served. -/
lemma getManifest_prompt (x : Ext) (url : Text) (r : Reference) {c : Choice} (hc : c.Prompt)
    (w : World) : env x (.getManifest url r) c w = (w.reg.answer r, w) := by
  cases c with
  | chunks sizes cut => rfl
  | go => rfl
  | bare => rfl
  | _ => exact absurd hc id

/-- A blob that is there is served. -/
lemma getBlob_prompt (x : Ext) (url : Text) {r : Reference} {digest : Text} {b : Bytes} {c : Choice}
    (hc : c.Prompt) {w : World} (hb : w.reg.blobs (r.registry, r.repository) digest = some b) :
    ∃ (code : ℕ) (chunks : List Bytes),
      (env x (.getBlob url r digest) c w).1 = .ok (code, chunks.map .ok) ∧
        isSuccess code = true ∧ chunks.flatten = b := by
  have hserve : ∀ sizes, ∃ (code : ℕ) (chunks : List Bytes),
      (Except.ok (200, cutChunks sizes b) : Except Text (ℕ × List (Except Text Bytes)))
        = .ok (code, chunks.map .ok) ∧ isSuccess code = true ∧ chunks.flatten = b := by
    intro sizes
    obtain ⟨chunks, hchunks, hflat⟩ := exists_cutChunks sizes b
    exact ⟨200, chunks, by rw [hchunks], rfl, hflat⟩
  cases c with
  | go =>
    simp only [env, World.getBlob, hb]
    exact hserve []
  | bare =>
    simp only [env, World.getBlob, hb]
    exact hserve []
  | chunks sizes cut =>
    cases cut with
    | none =>
      simp only [env, World.getBlob, hb]
      exact hserve sizes
    | some msg => exact absurd hc id
  | _ => exact absurd hc id

/-- Layers that the registry has are pulled. -/
lemma pullEach_prompt {w : World} (hc : w.reg.Consistent x) (r : Reference) (dir : PathBuf)
    {layers : List LayerRef}
    (hl : ∀ layer ∈ layers, ∃ b, w.reg.blobs (r.registry, r.repository) layer.digest = some b)
    (tr : List Ev) :
    Always (env x) Choice.Prompt (Given LocalOk fun _ _ res => ∀ e, res ≠ some (.error e))
      (pullEach x.sha256 cl r dir layers).run tr w := by
  have hsmooth : Always (env x) Choice.Prompt (Given LocalOk fun _ _ res => ∀ e, res ≠ some (.error e))
      (pullEach x.sha256 cl r dir layers).run [] w := by
    refine Always.given_of_forall (I := fun w' => w'.reg = w.reg) (pullEach_fetchesOf r dir layers)
      (fun o c w' ho _ hw' => ?_) (fun o c w' ho hc' hw' hlocal => ?_) rfl (fun _ _ h => absurd h
        List.not_mem_nil) (@pullEach_smooth _ _ _ _ _ _ w.reg.answer r dir layers [] w)
    · refine (env_reg x c w' fun h => ?_).trans hw'
      have := ho.fetches
      cases o <;> first | exact h | exact this
    · cases o with
      | getBlob url r' d =>
        obtain ⟨rfl, layer, hmem, rfl⟩ := ho
        obtain ⟨b, hb⟩ := hl layer hmem
        obtain ⟨code, chunks, hres, hcode, rfl⟩ := getBlob_prompt x url hc' (hw' ▸ hb)
        refine ⟨code, chunks, hres, hcode, ?_⟩
        rw [hc _ _ _ hb]
        exact Text.eqIgnoreAsciiCase_self _
      | getManifest url r' => exact absurd ho id
      | mount spec => trivial
      | _ => exact hlocal
  have := Always.shift tr (Q := Given LocalOk fun _ _ res => ∀ e, res ≠ some (.error e))
    (hsmooth.mono fun t w' res h hall => h fun e he => hall e (List.mem_append_right _ he))
  rwa [List.append_nil] at this

/-- A seed that the registry has is pulled. -/
lemma pullLayers_prompt {w : World} (hc : w.reg.Consistent x) {seed : Text} (dir : PathBuf)
    {bs : List Bytes} (h : w.reg.contents seed = some bs) (tr : List Ev) :
    Always (env x) Choice.Prompt (Given LocalOk fun _ _ res => ∀ e, res ≠ some (.error e))
      (pullLayers x.sha256 cl seed dir).run tr w := by
  obtain ⟨r, layers, hr, hl, hbs⟩ := Store.exists_of_contents h
  rw [run_pullLayers hr]
  refine Always.given_call none_returned fun c hc' _ => ?_
  rw [getManifest_prompt x _ r hc' w]
  dsimp only
  rcases checkReply_cases (cl.manifestUrl r) [] (w.reg.answer r) (parseLayers r) with
    ⟨layers', h₁, h₂⟩ | ⟨e₁, e₂, h₁, h₂⟩
  · have hlayers : answeredLayers w.reg.answer seed = some layers' := by
      simp only [answeredLayers, hr, h₂]
    obtain rfl := Option.some.inj (hl.symm.trans hlayers)
    rw [h₁]
    refine Always.given_call none_returned fun c _ hdir => ?_
    have hreg := env_reg x c w (o := .createDirAll dir) id
    generalize env x (.createDirAll dir) c w = res at hdir hreg ⊢
    obtain ⟨res, w₁⟩ := res
    obtain rfl : res = .ok () := hdir
    refine pullEach_prompt (by rw [hreg]; exact hc) r dir (fun layer hmem => ?_) _
    rw [hreg]
    exact Store.exists_of_mapM hbs hmem
  · have hnone : answeredLayers w.reg.answer seed = none := by
      simp only [answeredLayers, hr, h₂]
    exact absurd (hl.symm.trans hnone) (by rintro ⟨⟩)

namespace NodeService

/-- Seeds that the registry has are pulled. -/
lemma pullSeeds_prompt {w : World} (hc : w.reg.Consistent x) (dir : PathBuf) {seeds : List Text}
    {bs : List Bytes} (h : w.reg.stack seeds = some bs) (tr : List Ev) :
    Always (env x) Choice.Prompt (Given LocalOk fun _ _ res => ∀ e, res ≠ some (.error e))
      (link (OciClient.impl x.sha256 cl) (pullSeeds dir seeds).run) tr w := by
  induction seeds generalizing w tr bs with
  | nil => exact ⟨fun _ => none_returned, fun _ => (by rintro _ ⟨⟩)⟩
  | cons seed rest ih =>
    obtain ⟨b₁, b₂, hb₁, hb₂, rfl⟩ := Store.stack_cons h
    rw [pullSeeds, link_attempt_bind]
    have hreg : Always (env x) Choice.Prompt (fun _ w' _ => w'.reg = w.reg)
        (pullLayers x.sha256 cl seed dir).run tr w :=
      Always.of_forall (pullLayers_localOnly seed dir)
        (fun o c w' ho _ h => (env_reg x c w' ho.1).trans h) rfl tr
    refine Always.given_bind ((hreg.and (pullLayers_prompt hc dir hb₁ tr)).mono ?_)
    rintro tr₁ w₁ res ⟨hw₁, hres⟩ hall
    refine ⟨none_returned, fun res' hres' => ?_⟩
    cases res' with
    | error e => exact absurd hres' (hres hall e)
    | ok paths =>
      simp only [Except.mapError, link_tryBind]
      refine Always.given_bind ((ih (hw₁ ▸ hc) (hw₁ ▸ hb₂) tr₁).mono ?_)
      intro tr₂ w₂ res h₂ hall₂
      refine ⟨none_returned, fun res' hres' => ?_⟩
      cases res' with
      | error e => exact absurd hres' (h₂ hall₂ e)
      | ok more => exact ⟨fun _ => none_returned, fun _ => (by rintro _ ⟨⟩)⟩

/-- **A publish in which everything does its work returns OK**, if the registry has the
seeds. -/
lemma publish_prompt (req : PublishRequest) (hid : req.volumeId ≠ []) (htarget : req.targetPath ≠ [])
    {w : World} (hc : w.reg.Consistent x) {params : PvcParams}
    (hp : PvcParams.parse req.volumeContext = .ok params) {bs : List Bytes}
    (hstack : w.reg.stack params.seeds = some bs) :
    Always (env x) Choice.Prompt (Given LocalOk fun _ _ res => ∀ r, res = some r → r = .ok ())
      ((Call.publish req).linked x cl cfg) [] w := by
  simp only [Call.linked, Call.prog, nodePublishVolume]
  rw [if_neg hid, if_neg htarget, hp, run_require_bind]
  simp only [Except.mapError, link_tryBind]
  refine Always.given_bind ((pullSeeds_prompt hc _ hstack []).mono ?_)
  intro tr w₁ res h hall
  refine ⟨none_returned, fun res' hres => ?_⟩
  cases res' with
  | error e => exact absurd hres (h hall e)
  | ok blobs =>
    dsimp only
    rw [link_attach]
    simp only [attach, run_attempt_bind, run_ignoring_bind]
    refine Always.given_call none_returned fun c _ hres => ?_
    rw [show (env x (.createDirAll (cfg.upperDir req.volumeId)) c w₁).1 = .ok () from hres]
    generalize (env x (.createDirAll (cfg.upperDir req.volumeId)) c w₁).2 = w₂
    refine Always.given_call none_returned fun c _ hres => ?_
    rw [show (env x (.createDirAll ⟨req.targetPath⟩) c w₂).1 = .ok () from hres]
    generalize (env x (.createDirAll ⟨req.targetPath⟩) c w₂).2 = w₃
    refine Always.given_call none_returned fun c _ hres => ?_
    rw [show (env x (.mount (mountSpec cfg req params blobs)) c w₃).1 = .ok () from hres]
    -- an error of the last step is dropped
    refine Always.given_bind ((Always.of_forall (I := fun _ => True) (P := fun _ => True) ?_
      (fun _ _ _ _ _ _ => trivial) trivial _).mono fun tr w res _ _ => ⟨none_returned, fun _ _ => ?_⟩)
    · simp only [persistState, run_attempt_bind, forall_call]
      refine ⟨trivial, fun res => ?_⟩
      cases res with
      | error e => trivial
      | ok u => exact ⟨trivial, fun _ => trivial⟩
    · refine ⟨fun _ => none_returned, fun _ => ?_⟩
      rintro r ⟨⟩
      rfl

end NodeService

end RspacefsCsi
