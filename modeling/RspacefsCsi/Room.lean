/-
# Publishes on a node with room

A publish whose requests to the registry are served can still fail on the node: a file may
stand where a directory is to be made, or a directory where a layer is to be put.  Where there
is neither, every step on the node succeeds (`publish_room`).
-/
import RspacefsCsi.Stacks

namespace RspacefsCsi.Lib

namespace Fs

variable {fs : Fs}

/-- No file stands in the way of a directory. -/
def ClearTo (fs : Fs) (k : Key) : Prop := ∀ l, l <+: k → ∀ i, fs.lookup l ≠ some (.file i)

lemma mkdirs_of_clearTo {k : Key} (h : fs.ClearTo k) : ∃ fs', fs.mkdirs k = some fs' := by
  have key : ∀ (cs k : Key) (fs : Fs),
      (∀ l, l <+: k ++ cs → ∀ i, fs.lookup l ≠ some (.file i)) →
      ∃ fs', fs.mkdirsFrom k cs = some fs' := by
    intro cs
    induction cs with
    | nil => exact fun _ fs _ => ⟨fs, rfl⟩
    | cons c cs ih =>
      intro k fs hclear
      have happ : k ++ c :: cs = k ++ [c] ++ cs := by simp
      unfold mkdirsFrom
      split
      · rename_i i hi
        exact absurd hi (hclear _ (happ ▸ List.prefix_append _ _) i)
      · refine ih _ _ fun l hl i hi => ?_
        exact hclear l (happ ▸ hl) i (((mkdir_grows fs _).file l i).1 hi)
  exact key k [] fs h

lemma clearTo_of_isDir {k : Key} (h : fs.IsDir k) : fs.ClearTo k := by
  rintro l ⟨r, rfl⟩ i hi
  exact not_isDir_of_lookup hi (isDir_of_isPrefix h)

lemma ClearTo.grows {fs' : Fs} {k : Key} (h : fs.ClearTo k) (hg : fs.Grows fs') : fs'.ClearTo k :=
  fun l hl i hi => h l hl i ((hg.file l i).1 hi)

/-- A file can be given a name that is free for it. -/
lemma rename_of_file {k l : Key} {i : ℕ} (hk : fs.lookup k = some (.file i)) (hl : ¬fs.IsDir l)
    (hp : fs.IsDir l.dropLast) : ∃ fs', fs.rename k l = some fs' := by
  unfold rename
  split
  · rw [dif_pos ⟨hl, hp⟩]
    split
    · exact ⟨_, rfl⟩
    · exact ⟨_, rfl⟩
  · rename_i hnot
    exact absurd hk (hnot i)

end Fs

end RspacefsCsi.Lib

namespace RspacefsCsi

open Lib Lib.Prog OciClient

variable {x : Ext} {cl : OciClient} {cfg : Config} {dir : PathBuf} {ks : List Key}

/-- The directory is there, nothing in it is a directory, and no file stands in the way of the
directories that are still to be made. -/
structure Room (dir : PathBuf) (ks : List Key) (w : World) : Prop where
  isDir : w.fs.IsDir dir.key
  flat : ∀ name, ¬w.fs.IsDir (dir.key ++ [name])
  clear : ∀ k ∈ ks, w.fs.ClearTo k

/-- These directories are not below one of the files. -/
def Beside (dir : PathBuf) (ks : List Key) : Prop := ∀ k ∈ ks, ∀ name, ¬dir.key ++ [name] <+: k

/-- Files in the directory take no room. -/
lemma Room.of_lookup {w w' : World} (h : Room dir ks w) (hks : Beside dir ks)
    (hl : ∀ l, (∀ name, l ≠ dir.key ++ [name]) → w'.fs.lookup l = w.fs.lookup l)
    (hflat : ∀ name, ¬w'.fs.IsDir (dir.key ++ [name])) : Room dir ks w' where
  isDir := by
    refine (Fs.isDir_congr (hl _ fun name heq => ?_)).2 h.isDir
    have := congrArg List.length heq
    simp at this
  flat := hflat
  clear k hk l hlk i hi := by
    refine h.clear k hk l hlk i ((hl l ?_).symm.trans hi)
    rintro name rfl
    exact hks k hk name hlk

/-- What is gone is no directory. -/
lemma Room.not_isDir {w : World} (h : Room dir ks w) {fs : Fs} {name : Text}
    (hl : fs.lookup (dir.key ++ [name]) = w.fs.lookup (dir.key ++ [name]) ∨
      fs.lookup (dir.key ++ [name]) = none) : ¬fs.IsDir (dir.key ++ [name]) := by
  intro hd
  rcases hl with hl | hl
  · exact h.flat name ((Fs.isDir_congr hl).1 hd)
  · rcases hd with hd | hd | hd
    · exact h.flat name (.inl hd)
    · exact h.flat name (.inr (.inl hd))
    · exact absurd (hl.symm.trans hd) nofun

section Requests

variable {w : World} {p : PathBuf} {name : Text} {c : Choice}

/-- A file of the directory can be opened for writing. -/
lemma env_fileCreate_room (hc : c.Prompt) (h : Room dir ks w) (hks : Beside dir ks)
    (hp : p.key = dir.key ++ [name]) :
    ∃ i w', env x (.fileCreate p) c w = (.ok i, w') ∧ Room dir ks w' := by
  cases hcreate : w.fs.create p.key with
  | none =>
    rcases Fs.create_eq_none_iff.1 hcreate with hd | ⟨-, hd⟩
    · exact absurd (hp ▸ hd) (h.flat name)
    · rw [hp, List.dropLast_concat] at hd
      exact absurd h.isDir hd
  | some r =>
    obtain ⟨i, fs⟩ := r
    have hcr := Fs.create_spec hcreate
    refine ⟨i, w.withFs fs, ?_, h.of_lookup hks (fun l hl => hcr.lookup_ne l (hp ▸ hl name))
      fun n hn => h.flat n ((hcr.isDir _).1 hn)⟩
    cases c with
    | go => simp only [env, World.fileCreate, hcreate]
    | bare => simp only [env, World.fileCreate, hcreate]
    | chunks sizes cut => simp only [env, World.fileCreate, hcreate]
    | _ => exact absurd hc id

lemma env_fileWrite_room (hc : c.Prompt) (h : Room dir ks w) (hks : Beside dir ks) (ino off : ℕ)
    (b : Bytes) : (env x (.fileWrite ino off b) c w).1 = .ok () ∧
      Room dir ks (env x (.fileWrite ino off b) c w).2 := by
  have hroom : Room dir ks (w.withFs (w.fs.writeAt ino off b)) :=
    h.of_lookup hks (fun _ _ => rfl) fun n hn => h.flat n ((Fs.isDir_congr rfl).1 hn)
  cases c with
  | go => exact ⟨rfl, hroom⟩
  | bare => exact ⟨rfl, hroom⟩
  | chunks sizes cut => exact ⟨rfl, hroom⟩
  | _ => exact absurd hc id

lemma env_fileFlush_room (hc : c.Prompt) (ino : ℕ) : env x (.fileFlush ino) c w = (.ok (), w) := by
  cases c with
  | go => rfl
  | bare => rfl
  | chunks sizes cut => rfl
  | _ => exact absurd hc id

lemma env_removeFile_room (h : Room dir ks w) (hks : Beside dir ks) (hp : p.key = dir.key ++ [name]) :
    Room dir ks (env x (.removeFile p) c w).2 := by
  rcases env_removeFile_cases x p c w with ⟨e, heq⟩ | ⟨fs, heq, hr⟩ <;> rw [heq]
  · exact h
  · refine h.of_lookup hks (fun l hl => hr.lookup_ne l (hp ▸ hl name)) fun n => h.not_isDir ?_
    by_cases hn : dir.key ++ [n] = p.key
    · exact .inr (hn ▸ hr.lookup_self)
    · exact .inl (hr.lookup_ne _ hn)

/-- A download can be given the name of its layer. -/
lemma env_renameFile_room (hc : c.Prompt) (h : Room dir ks w) (hks : Beside dir ks)
    (hp : p.key = dir.key ++ [name]) {q : PathBuf} {name' : Text} (hq : q.key = dir.key ++ [name'])
    {b : Bytes} (hread : w.fs.read p.key = some b) :
    ∃ w', env x (.renameFile p q) c w = (.ok (), w') ∧ Room dir ks w' := by
  obtain ⟨i, hi, -⟩ := Fs.read_eq_some_iff.1 hread
  obtain ⟨fs, hfs⟩ := Fs.rename_of_file (l := q.key) hi (hq ▸ h.flat name')
    (by rw [hq, List.dropLast_concat]; exact h.isDir)
  have hr := Fs.rename_spec hfs
  refine ⟨w.withFs fs, ?_, h.of_lookup hks
    (fun l hl => hr.lookup_ne l (hp ▸ hl name) (hq ▸ hl name')) fun n => ?_⟩
  · cases c with
    | go => simp only [env, World.renameFile, hfs, World.answerFs]
    | bare => simp only [env, World.renameFile, hfs, World.answerFs]
    | chunks sizes cut => simp only [env, World.renameFile, hfs, World.answerFs]
    | _ => exact absurd hc id
  · by_cases hnq : dir.key ++ [n] = q.key
    · obtain ⟨j, -, hj⟩ := hr.file
      exact Fs.not_isDir_of_lookup (hnq ▸ hj)
    · refine h.not_isDir ?_
      by_cases hnp : dir.key ++ [n] = p.key
      · exact .inr (hnp ▸ hr.lookup_old fun heq => hnq (hnp.trans heq))
      · exact .inl (hr.lookup_ne _ hnp hnq)

end Requests

/-! ### Pulls -/

lemma localOk_concat {tr : List Ev} (h : ∀ e ∈ tr, LocalOk e) {e : Ev} (he : LocalOk e) :
    ∀ e' ∈ tr ++ [e], LocalOk e' := by
  intro e' he'
  rcases List.mem_append.1 he' with he' | he'
  · exact h e' he'
  · exact List.mem_singleton.1 he' ▸ he

/-- All steps on the node have succeeded so far, and there is still room. -/
def Roomy (dir : PathBuf) (ks : List Key) (tr : List Ev) (w : World) : Prop :=
  Room dir ks w ∧ ∀ e ∈ tr, LocalOk e

lemma Roomy.concat {tr : List Ev} {w w' : World} (h : Roomy dir ks tr w) (hw : Room dir ks w') {e : Ev}
    (he : LocalOk e) : Roomy dir ks (tr ++ [e]) w' := ⟨hw, localOk_concat h.2 he⟩

lemma writeChunks_room (hks : Beside dir ks) (ino : ℕ) (items : List (Except Text Bytes)) (acc : Bytes)
    {tr : List Ev} {w : World} (h : Roomy dir ks tr w) :
    Always (env x) Choice.Prompt (fun tr' w' _ => Roomy dir ks tr' w')
      (writeChunks ino acc items).run tr w := by
  induction items generalizing acc tr w with
  | nil => exact ⟨h, h⟩
  | cons item items ih =>
    cases item with
    | error e => exact ⟨h, h⟩
    | ok chunk =>
      simp only [writeChunks, run_attempt_bind]
      refine ⟨h, fun c hc => ?_⟩
      obtain ⟨hres, hroom⟩ := env_fileWrite_room (x := x) hc h.1 hks ino acc.length chunk
      have hnext := h.concat (e := ⟨.fileWrite ino acc.length chunk, _⟩) hroom hres
      rw [hres] at hnext ⊢
      exact ih (acc ++ chunk) hnext

/-- A download into the directory. -/
lemma pullBlobTo_room (hks : Beside dir ks) (r : Reference) (digest : Text) {out : PathBuf}
    {name : Text} (hout : out.key = dir.key ++ [name]) {tr : List Ev} {w : World}
    (h : Roomy dir ks tr w) :
    Always (env x) Choice.Prompt (fun tr' w' _ => Roomy dir ks tr' w')
      (pullBlobTo x.sha256 cl r digest out).run tr w := by
  simp only [pullBlobTo, run_attempt_bind]
  refine ⟨h, fun c _ => ?_⟩
  obtain ⟨res, hres⟩ : ∃ res, env x (.getBlob (cl.blobUrl r digest) r digest) c w = (res, w) :=
    ⟨_, rfl⟩
  rw [hres]
  have h₁ := h.concat (e := ⟨.getBlob (cl.blobUrl r digest) r digest, res⟩) h.1 trivial
  generalize tr ++ [(⟨.getBlob (cl.blobUrl r digest) r digest, res⟩ : Ev)] = tr₁ at h₁ ⊢
  dsimp only
  split
  · refine ⟨h₁, fun c hc => ?_⟩
    obtain ⟨ino, w₁, hcreate, hroom⟩ := env_fileCreate_room (x := x) hc h₁.1 hks hout
    rw [hcreate]
    have h₂ := h₁.concat (e := ⟨.fileCreate out, .ok ino⟩) hroom ⟨ino, rfl⟩
    refine Always.tryBind ((writeChunks_room hks ino _ [] h₂).mono fun tr₃ w₃ res h₃ => ?_)
    refine ⟨h₃, fun _ _ => h₃, fun body _ => ?_⟩
    simp only [run_attempt_bind]
    refine ⟨h₃, fun c hc => ?_⟩
    rw [env_fileFlush_room hc]
    have h₄ := h₃.concat (e := ⟨.fileFlush ino, .ok ()⟩) h₃.1 rfl
    simp only [checkIo, Except.mapError]
    split
    · exact ⟨h₄, h₄⟩
    · refine ⟨h₄, fun c _ => ?_⟩
      have h₅ := h₄.concat (e := ⟨.removeFile out, (env x (.removeFile out) c w₃).1⟩)
        (env_removeFile_room (x := x) (c := c) h₄.1 hks hout) trivial
      exact ⟨h₅, h₅⟩
  · exact ⟨h₁, h₁⟩

/-- Layers with the digests of contents are put into the directory. -/
lemma pullEach_room (hks : Beside dir ks) (r : Reference) {layers : List LayerRef} {bs : List Bytes}
    (hd : Store.DigestsOf x layers bs) {tr : List Ev} {w : World} (h : Roomy dir ks tr w) :
    Always (env x) Choice.Prompt (fun tr' w' _ => Roomy dir ks tr' w')
      (pullEach x.sha256 cl r dir layers).run tr w := by
  induction hd generalizing tr w with
  | nil => exact ⟨h, h⟩
  | @cons layer b layers bs hb _ ih =>
    have hblob : (dir.join (blobName layer.digest)).key = dir.key ++ [fileOf x b] := by
      rw [hb]
      exact key_blob dir b
    obtain ⟨part, hpart⟩ : ∃ part,
        (partialPath (dir.join (blobName layer.digest))).key = dir.key ++ [part] := by
      rw [hb, key_download]
      exact ⟨_, rfl⟩
    have hlayer : Always (env x) Choice.Prompt (fun tr' w' _ => Roomy dir ks tr' w')
        (pullLayer x.sha256 cl r dir layer).run tr w := by
      simp only [pullLayer, run_request_bind]
      refine ⟨h, fun c _ => ?_⟩
      obtain ⟨there, hthere⟩ : ∃ there,
        env x (.tryExists (dir.join (blobName layer.digest))) c w = (there, w) := ⟨_, rfl⟩
      rw [hthere]
      have h₁ := h.concat (e := ⟨.tryExists (dir.join (blobName layer.digest)), there⟩) h.1 trivial
      dsimp only
      split
      · exact ⟨h₁, h₁⟩
      refine Always.tryBind (((pullBlobTo_room hks r layer.digest hpart h₁).and
        (pullBlobTo_elsewhere r layer.digest (aside_partialPath dir _) _ w)).mono ?_)
      rintro tr₂ w₂ res ⟨h₂, -, hread⟩
      refine ⟨h₂, fun _ _ => h₂, fun _ hok => ?_⟩
      obtain ⟨body, hbody, -⟩ := hread hok
      simp only [run_attempt_bind]
      refine ⟨h₂, fun c hc => ?_⟩
      obtain ⟨w₃, hrename, hroom⟩ := env_renameFile_room (x := x) hc h₂.1 hks hpart hblob hbody
      rw [hrename]
      have h₃ := h₂.concat (e := ⟨.renameFile (partialPath (dir.join (blobName layer.digest)))
        (dir.join (blobName layer.digest)), .ok ()⟩) hroom rfl
      exact ⟨h₃, h₃⟩
    refine Always.tryBind (hlayer.mono fun tr₁ w₁ res h₁ => ⟨h₁, fun _ _ => h₁, fun path _ => ?_⟩)
    exact Always.tryBind ((ih h₁).mono fun tr₂ w₂ res h₂ => ⟨h₂, fun _ _ => h₂, fun _ _ => ⟨h₂, h₂⟩⟩)

/-! ### Directories that are still to be made -/

/-- The same before the directory is made. -/
structure RoomFor (dir : PathBuf) (ks : List Key) (w : World) : Prop where
  clearDir : w.fs.ClearTo dir.key
  flat : ∀ name, ¬w.fs.IsDir (dir.key ++ [name])
  clear : ∀ k ∈ ks, w.fs.ClearTo k

lemma Room.roomFor {w : World} (h : Room dir ks w) : RoomFor dir ks w :=
  ⟨Fs.clearTo_of_isDir h.isDir, h.flat, h.clear⟩

/-- A directory that nothing stands in the way of is made, and there is as much room after it. -/
lemma env_createDirAll_room {w : World} {p : PathBuf} {c : Choice} (hc : c.Prompt)
    (h : RoomFor dir ks w) (hclear : w.fs.ClearTo p.key) (hp : ∀ name, ¬dir.key ++ [name] <+: p.key) :
    ∃ w', env x (.createDirAll p) c w = (.ok (), w') ∧ RoomFor dir ks w' ∧ w'.fs.IsDir p.key := by
  obtain ⟨fs, hfs⟩ := Fs.mkdirs_of_clearTo hclear
  have hg := Fs.mkdirs_grows hfs
  refine ⟨w.withFs fs, ?_, ⟨h.clearDir.grows hg, fun name hn => ?_,
    fun k hk => (h.clear k hk).grows hg⟩, Fs.mkdirs_isDir hfs⟩
  · cases c with
    | go => simp only [env, World.createDirAll, hfs, World.answerFs]
    | bare => simp only [env, World.createDirAll, hfs, World.answerFs]
    | chunks sizes cut => simp only [env, World.createDirAll, hfs, World.answerFs]
    | _ => exact absurd hc id
  · exact h.flat name ((Fs.isDir_congr (Fs.mkdirs_lookup_ne hfs (hp name))).1 hn)

/-- All steps on the node have succeeded so far, and the directory may still have to be made. -/
def RoomyFor (dir : PathBuf) (ks : List Key) (tr : List Ev) (w : World) : Prop :=
  RoomFor dir ks w ∧ ∀ e ∈ tr, LocalOk e

lemma pullLayers_room (hks : Beside dir ks) {seed : Text} {bs : List Bytes} {tr : List Ev} {w : World}
    (hc : w.reg.Consistent x) (hbs : w.reg.contents seed = some bs) (h : RoomyFor dir ks tr w) :
    Always (env x) Choice.Prompt (fun tr' w' _ => RoomyFor dir ks tr' w')
      (pullLayers x.sha256 cl seed dir).run tr w := by
  obtain ⟨r, layers, hr, hl, hmap⟩ := Store.exists_of_contents hbs
  rw [run_pullLayers hr]
  refine ⟨h, fun c hc' => ?_⟩
  rw [getManifest_prompt x _ r hc' w]
  have h₁ : RoomyFor dir ks (tr ++ [⟨.getManifest (cl.manifestUrl r) r, w.reg.answer r⟩]) w :=
    ⟨h.1, localOk_concat h.2 trivial⟩
  dsimp only
  split
  · exact ⟨h₁, h₁⟩
  · rename_i layers' hlayers
    have hsame : layers' = layers := by
      rcases checkReply_cases (cl.manifestUrl r) [] (w.reg.answer r) (parseLayers r) with
        ⟨l, h₁, h₂⟩ | ⟨e₁, e₂, h₁, -⟩
      · obtain rfl := Except.ok.inj (hlayers.symm.trans h₁)
        simp only [answeredLayers, hr, h₂] at hl
        exact Option.some.inj hl
      · exact absurd (hlayers.symm.trans h₁) (by rintro ⟨⟩)
    subst hsame
    refine ⟨h₁, fun c hc' => ?_⟩
    obtain ⟨w₁, hdir, hroom, hisDir⟩ := env_createDirAll_room (x := x) hc' h₁.1 h₁.1.clearDir
      fun name => not_prefix_self dir name
    rw [hdir]
    exact (pullEach_room hks r (Store.digestsOf_of_mapM hc hmap) ⟨⟨hisDir, hroom.flat, hroom.clear⟩,
      localOk_concat h₁.2 (e := ⟨.createDirAll dir, .ok ()⟩) rfl⟩).mono fun _ _ _ h => ⟨h.1.roomFor, h.2⟩

namespace NodeService

lemma pullSeeds_room (hks : Beside dir ks) {seeds : List Text} {bs : List Bytes} {tr : List Ev}
    {w : World} (hc : w.reg.Consistent x) (hbs : w.reg.stack seeds = some bs)
    (h : RoomyFor dir ks tr w) :
    Always (env x) Choice.Prompt (fun tr' w' _ => RoomyFor dir ks tr' w')
      (link (OciClient.impl x.sha256 cl) (pullSeeds dir seeds).run) tr w := by
  induction seeds generalizing w tr bs with
  | nil => exact ⟨h, h⟩
  | cons seed rest ih =>
    obtain ⟨b₁, b₂, hb₁, hb₂, rfl⟩ := Store.stack_cons hbs
    rw [pullSeeds, link_attempt_bind]
    have hreg : Always (env x) Choice.Prompt (fun _ w' _ => w'.reg = w.reg)
        (pullLayers x.sha256 cl seed dir).run tr w :=
      Always.of_forall (pullLayers_localOnly seed dir)
        (fun o c w' ho _ h => (env_reg x c w' ho.1).trans h) rfl tr
    refine Always.bind ((hreg.and (pullLayers_room hks hc hb₁ h)).mono ?_)
    rintro tr₁ w₁ res ⟨hw₁, h₁⟩
    refine ⟨h₁, fun res' _ => ?_⟩
    cases res' with
    | error e => exact ⟨h₁, h₁⟩
    | ok paths =>
      simp only [Except.mapError, link_tryBind]
      refine Always.bind ((ih (hw₁ ▸ hc) (hw₁ ▸ hb₂) h₁).mono fun tr₂ w₂ res h₂ => ⟨h₂, fun res' _ => ?_⟩)
      cases res' <;> exact ⟨h₂, h₂⟩

/-- The directories of a publish can be made. -/
structure HasRoom (cfg : Config) (req : PublishRequest) (w : World) : Prop where
  room : RoomFor (cfg.lowersDir req.volumeId)
    [(cfg.upperDir req.volumeId).key, PathBuf.key ⟨req.targetPath⟩] w
  beside : ∀ name, ¬(cfg.lowersDir req.volumeId).key ++ [name] <+: PathBuf.key ⟨req.targetPath⟩

lemma HasRoom.besides {req : PublishRequest} {w : World} (h : HasRoom cfg req w) :
    Beside (cfg.lowersDir req.volumeId)
      [(cfg.upperDir req.volumeId).key, PathBuf.key ⟨req.targetPath⟩] := by
  intro k hk name
  rcases List.mem_cons.1 hk with rfl | hk
  · exact not_prefix_volumePath (by simp) name
  · rw [List.mem_singleton.1 hk]
    exact h.beside name

/-- **On a node with room every step of a publish on the node succeeds**, if the registry has
the seeds. -/
lemma publish_room (req : PublishRequest) {w : World} (h : HasRoom cfg req w) (hc : w.reg.Consistent x)
    {params : PvcParams} (hp : PvcParams.parse req.volumeContext = .ok params) {bs : List Bytes}
    (hstack : w.reg.stack params.seeds = some bs) :
    Always (env x) Choice.Prompt (fun tr _ _ => ∀ e ∈ tr, LocalOk e)
      ((Call.publish req).linked x cl cfg) [] w := by
  have hnil : ∀ e ∈ ([] : List Ev), LocalOk e := fun _ he => absurd he List.not_mem_nil
  simp only [Call.linked, Call.prog, nodePublishVolume]
  split
  · exact ⟨hnil, hnil⟩
  split
  · exact ⟨hnil, hnil⟩
  rw [hp, run_require_bind]
  simp only [Except.mapError, link_tryBind]
  refine Always.bind ((pullSeeds_room h.besides hc hstack ⟨h.room, hnil⟩).mono
    fun tr w₁ res h₁ => ⟨h₁.2, fun res' _ => ?_⟩)
  cases res' with
  | error e => exact ⟨h₁.2, h₁.2⟩
  | ok blobs =>
    dsimp only
    rw [link_attach]
    simp only [attach, run_attempt_bind, run_ignoring_bind]
    refine ⟨h₁.2, fun c hc => ?_⟩
    obtain ⟨w₂, hupper, hroom₂, -⟩ := env_createDirAll_room (x := x) hc h₁.1
      (h₁.1.clear _ List.mem_cons_self) (h.besides _ List.mem_cons_self)
    rw [hupper]
    have h₂ := localOk_concat h₁.2 (e := ⟨.createDirAll (cfg.upperDir req.volumeId), .ok ()⟩) rfl
    refine ⟨h₂, fun c hc => ?_⟩
    obtain ⟨w₃, htarget, hroom₃, hdir⟩ := env_createDirAll_room (x := x) (p := ⟨req.targetPath⟩) hc
      hroom₂ (hroom₂.clear _ (List.mem_cons_of_mem _ List.mem_cons_self)) h.beside
    rw [htarget]
    have h₃ := localOk_concat h₂ (e := ⟨.createDirAll ⟨req.targetPath⟩, .ok ()⟩) rfl
    refine ⟨h₃, fun c hc => ?_⟩
    have hmount : env x (.mount (mountSpec cfg req params blobs)) c w₃
        = (.ok (), w₃.startMount x (mountSpec cfg req params blobs)) := by
      have hd : w₃.fs.IsDir (mountSpec cfg req params blobs).target.key := hdir
      cases c with
      | go => simp only [env, World.mount, if_pos hd]
      | bare => simp only [env, World.mount, if_pos hd]
      | chunks sizes cut => simp only [env, World.mount, if_pos hd]
      | _ => exact absurd hc id
    rw [hmount]
    have h₄ := localOk_concat h₃ (e := ⟨.mount (mountSpec cfg req params blobs), .ok ()⟩) rfl
    refine ⟨h₄, fun c hc => ?_⟩
    have hroom₄ : RoomFor (cfg.lowersDir req.volumeId)
        [(cfg.upperDir req.volumeId).key, PathBuf.key ⟨req.targetPath⟩]
        (w₃.startMount x (mountSpec cfg req params blobs)) :=
      ⟨hroom₃.clearDir, hroom₃.flat, hroom₃.clear⟩
    -- the directory of the publish context is above the upper
    obtain ⟨w₅, hstate, -, -⟩ := env_createDirAll_room (x := x) (p := (cfg.statePath req.volumeId).parent)
      hc hroom₄ (fun l hl => hroom₄.clear _ List.mem_cons_self l (by
        rw [Config.key_parent_statePath] at hl
        rw [Config.key_upperDir]
        exact hl.trans (List.prefix_append _ _)))
      (fun name => by
        rw [Config.key_parent_statePath]
        exact not_prefix_volumePath (by omega) name)
    rw [hstate]
    have h₅ := localOk_concat h₄ (e := ⟨.createDirAll (cfg.statePath req.volumeId).parent, .ok ()⟩) rfl
    refine ⟨h₅, fun c _ => ?_⟩
    have h₆ := localOk_concat h₅ (e := ⟨.writeFile (cfg.statePath req.volumeId)
      (contextToVec req.volumeContext), (env x (.writeFile (cfg.statePath req.volumeId)
        (contextToVec req.volumeContext)) c w₅).1⟩) trivial
    exact ⟨h₆, h₆⟩

/-- So a publish on a node with room returns OK, however long it takes. -/
lemma exists_published (req : PublishRequest) (hid : req.volumeId ≠ []) (htarget : req.targetPath ≠ [])
    {w : World} (h : HasRoom cfg req w) (hc : w.reg.Consistent x) {params : PvcParams}
    (hp : PvcParams.parse req.volumeContext = .ok params) {bs : List Bytes}
    (hstack : w.reg.stack params.seeds = some bs) {c : ℕ → Choice} (hprompt : ∀ i, (c i).Prompt) :
    ∃ n, (run (env x) ((Call.publish req).linked x cl cfg) ((List.range n).map c) w).result
      = some (.ok ()) := by
  obtain ⟨n, a, ha⟩ := exists_result (env x) ((Call.publish req).linked x cl cfg) c w
  have hlocal := run_of_always ((@publish_room x cl cfg) req h hc hp hstack) _ (prompt_of_range hprompt n)
  have hok := run_of_always ((@publish_prompt x cl cfg) req hid htarget hc hp hstack) _
    (prompt_of_range hprompt n)
  exact ⟨n, ha.trans (congrArg some (hok hlocal a ha))⟩

end NodeService

end RspacefsCsi
