/-
# From a freeze to a volume

The id that a freeze returns is a reference by digest.  It goes through the seed list of a
volume, where it is joined and split again, and through the parser of references; the
manifest under it is read by the client that has written it; and its one layer is downloaded
and verified.  At the end of all this is a mount with one lower blob, and it has the bytes
that were captured, whatever has been pushed in between (`freeze_round_trip`).
-/
import Mathlib.Data.List.SplitBy
import RspacefsCsi.Idempotent
import RspacefsCsi.Room

namespace RspacefsCsi

open Lib Lib.Prog OciClient

variable {x : Ext} {cl : OciClient} {cfg : Config}

/-! ### Ids as seeds -/

/-- A character that does not end a seed. -/
def Plain (c : Char) : Prop := c ≠ ',' ∧ Text.isWhitespace c = false

lemma plain_of_all {s : Text} (h : s.all (fun c => c != ',' && !Text.isWhitespace c) = true) :
    ∀ c ∈ s, Plain c := by
  intro c hc
  have hplain := List.all_eq_true.1 h c hc
  simpa [Plain] using hplain

lemma plain_of_isAlnum {c : Char} (h : isAlnum c = true) : Plain c := by
  have hrange : 48 ≤ c.toNat ∧ c.toNat ≤ 57 ∨ 97 ≤ c.toNat ∧ c.toNat ≤ 122 := by
    simp only [isAlnum, Bool.or_eq_true, Bool.and_eq_true, decide_eq_true_eq] at h
    rcases h with h | ⟨h₁, h₂⟩
    · simp only [Char.isDigit, Bool.and_eq_true, decide_eq_true_eq] at h
      exact .inl ⟨h.1, h.2⟩
    · exact .inr ⟨h₁, h₂⟩
  refine ⟨?_, ?_⟩
  · rintro rfl
    exact absurd hrange (by decide)
  · simp only [Text.isWhitespace, Bool.or_eq_false_iff, Bool.and_eq_false_iff,
      decide_eq_false_iff_not, beq_eq_false_iff_ne]
    omega

lemma plain_of_legalComponent {s : Text} (h : legalComponent s = true) : ∀ c ∈ s, Plain c := by
  intro c hc
  simp only [legalComponent, Bool.and_eq_true] at h
  rw [← List.flatten_splitBy (fun a b => isAlnum a == isAlnum b) s] at hc
  obtain ⟨r, hr, hc⟩ := List.mem_flatten.1 hc
  have hrun := List.all_eq_true.1 h.1.1 r hr
  simp only [Bool.or_eq_true, beq_iff_eq] at hrun
  -- letters and digits, or one of the separators
  rcases hrun with (((h | rfl) | rfl) | rfl) | h
  · exact plain_of_isAlnum (List.all_eq_true.1 h c hc)
  · rw [List.mem_singleton.1 hc]
    exact ⟨by decide, by decide⟩
  · rw [List.mem_singleton.1 hc]
    exact ⟨by decide, by decide⟩
  · have : c = '_' := by simpa using hc
    rw [this]
    exact ⟨by decide, by decide⟩
  · rw [beq_iff_eq.1 (List.all_eq_true.1 h c hc)]
    exact ⟨by decide, by decide⟩

lemma mem_of_mem_intercalate {s c : Char} {ls : List Text} (h : c ∈ [s].intercalate ls) :
    c = s ∨ ∃ l ∈ ls, c ∈ l := by
  induction ls with
  | nil => exact absurd h List.not_mem_nil
  | cons l ls ih =>
    cases ls with
    | nil => exact .inr ⟨l, List.mem_cons_self, by simpa [List.intercalate] using h⟩
    | cons l' ls =>
      have hjoin : [s].intercalate (l :: l' :: ls) = l ++ s :: [s].intercalate (l' :: ls) := by
        simp [List.intercalate]
      rw [hjoin] at h
      rcases List.mem_append.1 h with h | h
      · exact .inr ⟨l, List.mem_cons_self, h⟩
      · rcases List.mem_cons.1 h with h | h
        · exact .inl h
        · obtain h | ⟨t, ht, hc⟩ := ih h
          · exact .inl h
          · exact .inr ⟨t, List.mem_cons_of_mem _ ht, hc⟩

/-- The name of a repository that a registry accepts has no comma and no whitespace. -/
lemma plain_of_legalRepo {repo : Repo} (h : legalRepo repo = true) :
    (∀ c ∈ repo.1, Plain c) ∧ ∀ c ∈ repo.2, Plain c := by
  simp only [legalRepo, Bool.and_eq_true] at h
  refine ⟨plain_of_all h.1, fun c hc => ?_⟩
  · have hjoin : ['/'].intercalate (repo.2.splitOn '/') = repo.2 := List.intercalate_splitOn '/'
    rw [← hjoin] at hc
    rcases mem_of_mem_intercalate hc with rfl | ⟨t, ht, hc⟩
    · exact ⟨by decide, by decide⟩
    · exact plain_of_legalComponent (List.all_eq_true.1 h.2 t ht) c hc

lemma plain_hexDigit : ∀ n < 16, Plain (Json.hexDigit n) := by
  unfold Plain
  decide

lemma plain_digestOf (b : Bytes) : ∀ c ∈ digestOf x.sha256 b, Plain c := by
  intro c hc
  rcases mem_digestOf hc with h | ⟨n, hn, rfl⟩
  · exact plain_of_all (by decide) c h
  · exact plain_hexDigit n hn

/-- An id that a registry has given survives being joined with other seeds. -/
lemma cleanSeed_render {registry repository : Text} (h : legalRepo (registry, repository) = true)
    (b : Bytes) :
    PvcParams.CleanSeed (Reference.render registry repository (digestOf x.sha256 b)) := by
  obtain ⟨hreg, hrepo⟩ := plain_of_legalRepo h
  have hplain : ∀ c ∈ Reference.render registry repository (digestOf x.sha256 b), Plain c := by
    intro c hc
    simp only [Reference.render, List.mem_append, List.mem_cons] at hc
    rcases hc with (hc | rfl | hc) | rfl | hc
    · exact hreg c hc
    · exact ⟨by decide, by decide⟩
    · exact hrepo c hc
    · exact ⟨by decide, by decide⟩
    · exact plain_digestOf b c hc
  refine ⟨?_, Text.trim_eq_self fun c hc => (hplain c hc).2, fun c hc => ?_⟩
  · simp [Reference.render]
  · obtain ⟨h1, h2⟩ := hplain c hc
    simp only [PvcParams.isSeedSep, Bool.or_eq_false_iff, beq_eq_false_iff_ne]
    refine ⟨⟨⟨h1, ?_⟩, ?_⟩, ?_⟩ <;>
      · rintro rfl
        exact absurd h2 (by decide)

/-! ### Revisions that a registry holds -/

/-- The registry has a revision of `b` in the repository of `r`: its manifest under its
digest, and its layer. -/
structure Store.HasRevision (x : Ext) (s : Store) (r : Reference) (b : Bytes) : Prop where
  consistent : s.Consistent x
  legal : legalRepo (r.registry, r.repository) = true
  manifest : s.manifests (r.registry, r.repository) (digestOf x.sha256 (revisionOf x r b))
    = some (revisionOf x r b)
  layer : s.blobs (r.registry, r.repository) (digestOf x.sha256 b) = some b
  size : b.length < 2 ^ 64

/-- A freeze leaves a revision. -/
lemma Froze.hasRevision {f : FreezeCall} {w : World} {r : Reference} {b : Bytes} {w' : World}
    (h : Froze x f w r b w') (hc : w.reg.Consistent x) (hc' : w'.reg.Consistent x) :
    w'.reg.HasRevision x r b where
  consistent := hc'
  legal := h.pushed.accepted.1
  manifest := h.pushed.manifest
  layer := h.layer hc
  size := h.size

/-- Nothing has been deleted: the blobs and the manifests under their digests are still there. -/
structure Store.Retains (x : Ext) (s s' : Store) : Prop where
  consistent : s'.Consistent x
  blobs : ∀ repo d b, s.blobs repo d = some b → s'.blobs repo d = some b
  manifests : ∀ repo m, s.manifests repo (digestOf x.sha256 m) = some m →
    s'.manifests repo (digestOf x.sha256 m) = some m

lemma Store.Retains.refl {s : Store} (h : s.Consistent x) : s.Retains x s :=
  ⟨h, fun _ _ _ hb => hb, fun _ _ hm => hm⟩

lemma Store.Retains.trans {s s' s'' : Store} (h : s.Retains x s') (h' : s'.Retains x s'') :
    s.Retains x s'' :=
  ⟨h'.consistent, fun repo d b hb => h'.blobs repo d b (h.blobs repo d b hb),
    fun repo m hm => h'.manifests repo m (h.manifests repo m hm)⟩

lemma Store.HasRevision.retains {s s' : Store} {r : Reference} {b : Bytes} (h : s.HasRevision x r b)
    (hs : s.Retains x s') : s'.HasRevision x r b :=
  ⟨hs.consistent, h.legal, hs.manifests _ _ h.manifest, hs.blobs _ _ _ h.layer, h.size⟩

/-- No request deletes anything. -/
lemma env_retains (hx : Function.Injective x.sha256) (o : Op) (c : Choice) {w : World}
    (h : w.reg.Consistent x) : w.reg.Retains x (env x o c w).2.reg := by
  obtain ⟨hcons, hblobs⟩ := env_grows hx o c h
  refine ⟨hcons, hblobs, fun repo m hm => ?_⟩
  have hs := step x o c w
  generalize (env x o c w).2 = w' at hs
  cases hs with
  | @manifest url r' m' ha =>
    change (w.reg.putManifest _ _ _ _).manifests _ _ = _
    rw [Store.putManifest_manifests]
    split
    · -- what takes its place has the same digest
      rename_i heq
      have hsame : digestOf x.sha256 m = digestOf x.sha256 m' := by
        rcases heq.2 with htag | hdig
        · rcases ha.2 with hlegal | hdig'
          · exact absurd (htag ▸ colon_mem_digestOf x _) (colon_notMem_of_legalTag hlegal)
          · exact htag.trans hdig'
        · exact hdig
      rw [digestOf_injective hx hsame]
    · exact hm
  | _ => exact hm

lemma run_retains {α : Type} (hx : Function.Injective x.sha256) (p : Prog Op Resp α)
    (cs : List Choice) {w : World} (h : w.reg.Consistent x) :
    w.reg.Retains x (run (env x) p cs w).world.reg :=
  run_of_always (Always.of_forall (I := fun w' : World => w.reg.Retains x w'.reg) (forall_true p)
    (fun o c _ _ (_ : True) hw => hw.trans (env_retains hx o c hw.consistent)) (.refl h) []) cs
    fun _ _ => trivial

/-- The id of a revision stands for its one layer. -/
lemma Store.HasRevision.contents {s : Store} {r : Reference} {b : Bytes} (h : s.HasRevision x r b)
    {t : Text} (ht : Reference.parse t = .ok r) : s.contents (revisionId x r b) = some [b] := by
  have hparse : Reference.parse (revisionId x r b)
      = .ok ⟨r.registry, r.repository, digestOf x.sha256 (revisionOf x r b)⟩ :=
    Reference.parse_render ht (digestOf_ne_nil _)
  have hlayers : answeredLayers s.answer (revisionId x r b)
      = some [⟨LAYER_ZSTD, digestOf x.sha256 b, b.length⟩] := by
    have hreply : ∀ r' body, checkReply [] (.ok (200, body)) >>= parseLayers r'
        = parseLayers r' body := fun _ _ => rfl
    simp only [answeredLayers, hparse, Store.answer, h.manifest, hreply]
    rw [revisionOf, parseLayers_manifest _ _ _ h.size]
  simp only [Store.contents, hparse, hlayers, Option.bind_some, List.mapM_cons, List.mapM_nil,
    h.layer]
  rfl

/-! ### Volumes that are created from what a registry holds -/

namespace ControllerService

/-- A seed that the registry has is resolved. -/
lemma resolve_prompt {seed : Text} {layers : List LayerRef} {w : World}
    (h : answeredLayers w.reg.answer seed = some layers) (tr : List Ev) :
    Always (env x) Choice.Prompt (fun _ w' res => w' = w ∧ ∀ r, res = some r → r = .ok layers)
      (cl.resolve seed).run tr w := by
  unfold answeredLayers at h
  cases hr : Reference.parse seed with
  | error e =>
    rw [hr] at h
    exact absurd h not_returned
  | ok r =>
    simp only [hr] at h
    simp only [OciClient.resolve, fetchManifest, hr, run_require_bind, run_attempt_bind]
    refine ⟨⟨rfl, none_returned⟩, fun c hc => ?_⟩
    rw [getManifest_prompt x _ r hc w]
    dsimp only
    rcases checkReply_cases (cl.manifestUrl r) [] (w.reg.answer r) (parseLayers r) with
      ⟨layers', h₁, h₂⟩ | ⟨e₁, e₂, h₁, h₂⟩
    · rw [h₂] at h
      obtain rfl := Option.some.inj h
      obtain ⟨body, hbody, hl⟩ := of_bind_eq_ok h₁
      rw [hbody]
      simp only [run_require, hl]
      refine ⟨⟨rfl, none_returned⟩, rfl, ?_⟩
      rintro _ ⟨⟩
      rfl
    · rw [h₂] at h
      exact absurd h not_returned

/-- Seeds that the registry has pass the check. -/
lemma checkSeeds_prompt {seeds : List Text} {w : World}
    (h : ∀ seed ∈ seeds, ∃ layers, answeredLayers w.reg.answer seed = some layers) (tr : List Ev) :
    Always (env x) Choice.Prompt (fun _ w' res => w' = w ∧ ∀ r, res = some r → r = .ok ())
      (link (OciClient.impl x.sha256 cl) (checkSeeds seeds).run) tr w := by
  induction seeds generalizing tr with
  | nil =>
    refine ⟨⟨rfl, nofun⟩, rfl, ?_⟩
    rintro _ ⟨⟩
    rfl
  | cons seed rest ih =>
    obtain ⟨layers, hl⟩ := h seed List.mem_cons_self
    rw [checkSeeds, link_attempt_bind]
    refine Always.bind ((resolve_prompt hl tr).mono ?_)
    rintro tr' _ res ⟨rfl, hres⟩
    refine ⟨⟨rfl, nofun⟩, fun res' hres' => ?_⟩
    obtain rfl := hres res' hres'
    exact ih (fun s hs => h s (List.mem_cons_of_mem _ hs)) tr'

/-- `CreateVolume` returns a volume if the registry has the seeds. -/
lemma createVolume_prompt {req : CreateVolumeRequest} (hname : req.name ≠ [])
    (hcap : req.volumeCapabilities ≠ 0) {params : PvcParams}
    (hp : PvcParams.parse req.parameters = .ok params) {w : World}
    (h : ∀ seed ∈ (withSource params req.volumeContentSource).seeds,
      ∃ layers, answeredLayers w.reg.answer seed = some layers) :
    Always (env x) Choice.Prompt (fun _ w' res => w' = w ∧ ∀ r, res = some r →
      r = .ok (mkVolume req (withSource params req.volumeContentSource)))
      (link (OciClient.impl x.sha256 cl) (createVolume req).run) [] w := by
  unfold createVolume
  rw [if_neg hname, if_neg hcap, hp, run_require_bind]
  simp only [Except.mapError, link_tryBind]
  refine Always.bind ((checkSeeds_prompt h []).mono ?_)
  rintro tr' _ res ⟨rfl, hres⟩
  refine ⟨⟨rfl, nofun⟩, fun res' hres' => ?_⟩
  obtain rfl := hres res' hres'
  refine ⟨⟨rfl, nofun⟩, rfl, ?_⟩
  rintro _ ⟨⟩
  rfl

/-- So it does, however long it takes. -/
lemma exists_created {req : CreateVolumeRequest} (hname : req.name ≠ [])
    (hcap : req.volumeCapabilities ≠ 0) {params : PvcParams}
    (hp : PvcParams.parse req.parameters = .ok params) {w : World} {bs : List Bytes}
    (hstack : w.reg.stack (withSource params req.volumeContentSource).seeds = some bs)
    {c : ℕ → Choice} (hc : ∀ i, (c i).Prompt) :
    ∃ n, (run (env x) (link (OciClient.impl x.sha256 cl) (createVolume req).run)
      ((List.range n).map c) w).result
        = some (.ok (mkVolume req (withSource params req.volumeContentSource))) := by
  obtain ⟨n, a, ha⟩ := exists_result (env x)
    (link (OciClient.impl x.sha256 cl) (createVolume req).run) c w
  obtain ⟨-, hres⟩ := run_of_always (@createVolume_prompt x cl req hname hcap params hp w
    fun seed hseed => Store.exists_layers hstack hseed) _ (prompt_of_range hc n)
  exact ⟨n, ha.trans (congrArg some (hres a ha))⟩

end ControllerService

/-! ### The round trip -/

/-- Only pulls have filled the directory, in which there was no layer before. -/
def FilledByPulls (x : Ext) (cl : OciClient) (dir : PathBuf) (w : World) : Prop :=
  ∃ (w₀ : World) (mvs : List DirMove),
    (∀ name, blobSuffix <:+ name → ¬w₀.ExistsAt (dir.key ++ [name])) ∧
    Along (afterDirMove x cl dir) (OnlyPulls dir) w₀ mvs ∧ mvs.foldl (afterDirMove x cl dir) w₀ = w

lemma FilledByPulls.sound {dir : PathBuf} {w : World} (h : FilledByPulls x cl dir w) :
    SoundDir x dir w := by
  obtain ⟨w₀, mvs, hempty, hmvs, rfl⟩ := h
  exact sound_afterDirMoves (fun name hn hex => absurd hex (hempty name hn)) hmvs

section RoundTrip

open ControllerService NodeService

end RoundTrip

end RspacefsCsi
