/-
# What a request leaves alone

One lemma for each part of the world says which requests can change it; the programs are
then read off for the requests they make (`Prog.Forall`), and nothing else about them is
needed to know what a whole run leaves alone.
-/
import RspacefsCsi.Host

namespace RspacefsCsi

open Lib

variable {x : Ext} {w : World} {c : Choice}

/-! ### The file system -/

/-- The ways a request can change the file system, with the file or directory it names. -/
inductive FsStep (w : World) : Op → Fs → Prop
  | same (o : Op) : FsStep w o w.fs
  | grows {p : PathBuf} {fs : Fs} (h : Fs.Grows w.fs fs) : FsStep w (.createDirAll p) fs
  | written {p : PathBuf} {b b' : Bytes} {fs : Fs} (h : Fs.Written w.fs p.key b' fs) :
      FsStep w (.writeFile p b) fs
  | captured {s p : PathBuf} {b : Bytes} {fs : Fs} (h : Fs.Written w.fs p.key b fs) :
      FsStep w (.capture s p) fs
  | unlinked {p : PathBuf} {fs : Fs} (h : Fs.Removed w.fs p.key fs)
      (hf : ∃ i, w.fs.lookup p.key = some (.file i)) : FsStep w (.removeFile p) fs
  | removed {p : PathBuf} {fs : Fs} (h : Fs.Removed w.fs p.key fs)
      (hd : w.fs.lookup p.key = some .dir) (hm : ¬w.MountedAt p.key) : FsStep w (.removeDir p) fs
  | renamed {p q : PathBuf} {fs : Fs} (h : Fs.Renamed w.fs p.key q.key fs) :
      FsStep w (.renameFile p q) fs
  | created {p : PathBuf} {i : ℕ} {fs : Fs} (h : Fs.Created w.fs p.key i fs) :
      FsStep w (.fileCreate p) fs
  | wrote {ino off : ℕ} {b b' : Bytes} :
      FsStep w (.fileWrite ino off b) (w.fs.writeAt ino off b')


/-! ### The world -/

/-- The ways a request can change the world. -/
inductive Step (x : Ext) (w : World) : Op → World → Prop
  | files {o : Op} {fs : Fs} (h : FsStep w o fs) : Step x w o (w.withFs fs)
  | blob {url reg repo d : Text} {b : Bytes} (h : World.accepts x (reg, repo) d b) :
      Step x w (.putBlob url reg repo d b) (w.withReg (w.reg.putBlob (reg, repo) d b))
  | manifest {url : Text} {r : Reference} {b : Bytes} (h : World.acceptsManifest x r b) :
      Step x w (.putManifest url r b) (w.tookManifest x r b)
  | mount {spec : MountSpec} (h : w.fs.IsDir spec.target.key) :
      Step x w (.mount spec) (w.startMount x spec)
  | execMount {bin : PathBuf} {args : List Text} {spec : MountSpec}
      (h : w.fs.IsDir spec.target.key) :
      Step x w (.execMount bin args spec) (w.startMount x spec)
  | unmount {target : PathBuf} (h : w.MountedAt target.key) :
      Step x w (.unmount target) (w.endMount target.key)
  | exec {bin : Text} {args : List Text} (h : w.MountedAt (World.execTarget args)) :
      Step x w (.exec bin args) (w.endMount (World.execTarget args))

lemma Step.same (x : Ext) (w : World) (o : Op) : Step x w o w := .files (.same o)

lemma Step.answerFs {o : Op} {msg : Text} {r : Option Fs}
    (h : ∀ fs, r = some fs → FsStep w o fs) : Step x w o (w.answerFs msg r).2 := by
  cases r with
  | none => exact .same x w o
  | some fs => exact .files (h fs rfl)

lemma Step.failFs {o : Op} {msg : Text} {r : Option Fs}
    (h : ∀ fs, r = some fs → FsStep w o fs) : Step x w o (w.failFs msg r).2 := by
  cases r with
  | none => exact .same x w o
  | some fs => exact .files (h fs rfl)

lemma step_createDirAll (x : Ext) (w : World) (p : PathBuf) (c : Choice) :
    Step x w (.createDirAll p) (w.createDirAll p c).2 := by
  have hdone : ∀ done : Option ℕ, ∀ fs,
      (done.bind fun n => w.fs.mkdirs (p.key.take n)) = some fs → FsStep w (.createDirAll p) fs := by
    intro done fs h
    obtain ⟨n, -, hn⟩ := Option.bind_eq_some_iff.1 h
    exact .grows (Fs.mkdirs_grows hn)
  cases c with
  | fault msg done => exact .failFs (hdone done)
  | _ => exact .answerFs fun fs h => .grows (Fs.mkdirs_grows h)

lemma step_writeFile (x : Ext) (w : World) (p : PathBuf) (b : Bytes) (c : Choice) :
    Step x w (.writeFile p b) (w.writeFile p b c).2 := by
  cases c with
  | fault msg done =>
    refine .failFs fun fs h => ?_
    obtain ⟨n, -, hn⟩ := Option.bind_eq_some_iff.1 h
    exact .written (Fs.write_spec hn)
  | _ => exact .answerFs fun fs h => .written (Fs.write_spec h)

lemma step_removeFile (x : Ext) (w : World) (p : PathBuf) (c : Choice) :
    Step x w (.removeFile p) (w.removeFile p c).2 := by
  cases c with
  | fault msg done => exact .failFs nofun
  | _ => exact .answerFs fun fs h => .unlinked (Fs.unlink_spec h).1 (Fs.unlink_spec h).2

lemma step_removeDir (x : Ext) (w : World) (p : PathBuf) (c : Choice) :
    Step x w (.removeDir p) (w.removeDir p c).2 := by
  have hrm : ∀ fs, (if w.MountedAt p.key then none else w.fs.rmdir p.key) = some fs →
      FsStep w (.removeDir p) fs := by
    intro fs h
    by_cases hm : w.MountedAt p.key
    · rw [if_pos hm] at h
      exact absurd h nofun
    · rw [if_neg hm] at h
      exact .removed (Fs.rmdir_spec h).1 (Fs.rmdir_spec h).2 hm
  cases c with
  | fault msg done => exact .failFs nofun
  | _ => exact .answerFs hrm

lemma step_renameFile (x : Ext) (w : World) (p q : PathBuf) (c : Choice) :
    Step x w (.renameFile p q) (w.renameFile p q c).2 := by
  cases c with
  | fault msg done => exact .failFs nofun
  | _ => exact .answerFs fun fs h => .renamed (Fs.rename_spec h)

lemma step_fileCreate (x : Ext) (w : World) (p : PathBuf) (c : Choice) :
    Step x w (.fileCreate p) (w.fileCreate p c).2 := by
  cases hc : w.fs.create p.key with
  | none => cases c <;> simpa [World.fileCreate, hc] using Step.same x w _
  | some r =>
    obtain ⟨i, fs⟩ := r
    have hcr : Step x w (.fileCreate p) (w.withFs fs) := .files (.created (Fs.create_spec hc))
    cases c with
    | fault msg done => exact .same x w _
    | _ => simpa [World.fileCreate, hc] using hcr

lemma step_fileWrite (x : Ext) (w : World) (ino off : ℕ) (b : Bytes) (c : Choice) :
    Step x w (.fileWrite ino off b) (w.fileWrite ino off b c).2 := by
  cases c with
  | fault msg done =>
    cases done with
    | none => exact .same x w _
    | some n => exact .files .wrote
  | _ => exact .files .wrote

lemma step_capture (x : Ext) (w : World) (s p : PathBuf) (c : Choice) :
    Step x w (.capture s p) (w.capture x s p c).2 := by
  cases hd : w.daemon s.key with
  | none => cases c <;> simpa [World.capture, hd] using Step.same x w _
  | some m =>
    have hdone : ∀ (b : Bytes) (done : Option ℕ), Step x w (.capture s p)
        (w.withFs ((done.bind fun n => w.fs.write p.key (b.take n)).getD w.fs)) := by
      intro b done
      cases h : done.bind fun n => w.fs.write p.key (b.take n) with
      | none => exact .same x w _
      | some fs =>
        obtain ⟨n, -, hn⟩ := Option.bind_eq_some_iff.1 h
        exact .files (.captured (Fs.write_spec hn))
    cases hw : w.fs.write p.key (x.pack (w.uppers m.spec.upper.key)) with
    | none =>
      cases c with
      | fault msg done => simpa [World.capture, hd] using hdone _ done
      | _ => simpa [World.capture, hd, hw] using Step.same x w _
    | some fs =>
      have hcap : Step x w (.capture s p) (w.withFs fs) := .files (.captured (Fs.write_spec hw))
      cases c with
      | fault msg done => simpa [World.capture, hd] using hdone _ done
      | _ =>
        simp only [World.capture, hd, hw]
        split
        · exact hcap
        · exact .same x w _

/-- Every request changes the world in one of these ways. -/
theorem step (x : Ext) (o : Op) (c : Choice) (w : World) : Step x w o (env x o c w).2 := by
  cases o with
  | createDirAll p => exact step_createDirAll x w p c
  | writeFile p b => exact step_writeFile x w p b c
  | removeFile p => exact step_removeFile x w p c
  | removeDir p => exact step_removeDir x w p c
  | renameFile p q => exact step_renameFile x w p q c
  | fileCreate p => exact step_fileCreate x w p c
  | fileWrite ino off b => exact step_fileWrite x w ino off b c
  | capture s p => exact step_capture x w s p c
  | putBlob url reg repo d b =>
    by_cases h : World.accepts x (reg, repo) d b
    · cases c with
      | fault msg done =>
        cases done with
        | none => simpa [env, World.putBlob] using Step.same x w _
        | some n => simpa [env, World.putBlob, h] using Step.blob h
      | status code => exact .same x w _
      | _ => simpa [env, World.putBlob, h] using Step.blob h
    · cases c <;> simpa [env, World.putBlob, h] using Step.same x w _
  | putManifest url r b =>
    by_cases h : World.acceptsManifest x r b
    · cases c with
      | fault msg done =>
        cases done with
        | none => simpa [env, World.putManifest] using Step.same x w _
        | some n => simpa [env, World.putManifest, h] using Step.manifest h
      | status code => exact .same x w _
      | _ => simpa [env, World.putManifest, h] using Step.manifest h
    · cases c <;> simpa [env, World.putManifest, h] using Step.same x w _
  | exec bin args =>
    by_cases h : w.MountedAt (World.execTarget args)
    · cases c with
      | fault msg done => exact .same x w _
      | status code => exact .same x w _
      | _ => simpa [env, World.exec, h] using Step.exec h
    · cases c <;> simpa [env, World.exec, h] using Step.same x w _
  | execMount bin args spec =>
    by_cases h : w.fs.IsDir spec.target.key
    · cases c with
      | fault msg done => exact .same x w _
      | status code => exact .same x w _
      | _ => simpa [env, World.execMount, h] using Step.execMount h
    · cases c <;> simpa [env, World.execMount, h] using Step.same x w _
  | mount spec =>
    by_cases h : w.fs.IsDir spec.target.key
    · cases c with
      | fault msg done => exact .same x w _
      | status code => exact .same x w _
      | _ => simpa [env, World.mount, h] using Step.mount h
    · cases c <;> simpa [env, World.mount, h] using Step.same x w _
  | unmount target =>
    by_cases hex : w.ExistsAt target.key
    · by_cases h : w.MountedAt target.key
      · cases c with
        | fault msg done => exact .same x w _
        | status code => exact .same x w _
        | _ => simpa [env, World.unmount, h, hex] using Step.unmount h
      · cases c <;> simpa [env, World.unmount, h, hex] using Step.same x w _
    · cases c <;> simpa [env, World.unmount, hex] using Step.same x w _
  | _ => exact .same x w _

/-! ### Files and directories -/

/-- The requests that can change the file `k`. -/
def Touches (k : Key) : Op → Prop
  | .writeFile p _ | .removeFile p | .fileCreate p | .capture _ p => p.key = k
  | .renameFile p q => p.key = k ∨ q.key = k
  | .fileWrite _ _ _ => True
  | _ => False

/-- The other requests leave a file as it is. -/
lemma env_read (x : Ext) {o : Op} (c : Choice) (w : World) {k : Key} (h : ¬Touches k o) :
    (env x o c w).2.fs.read k = w.fs.read k := by
  have hs := step x o c w
  generalize (env x o c w).2 = w' at hs
  cases hs with
  | files hf =>
    cases hf with
    | same => rfl
    | grows hg => exact hg.read k
    | written hw => exact hw.read_ne k fun hk => h hk.symm
    | captured hw => exact hw.read_ne k fun hk => h hk.symm
    | unlinked hr => exact hr.read_ne fun hk => h hk.symm
    | @removed p fs hr hd =>
      by_cases hk : k = p.key
      · rw [hk, World.withFs_fs, hr.read_self, Fs.read, hd]
      · exact hr.read_ne hk
    | renamed hr =>
      rw [World.withFs_fs, Fs.read, Fs.read, hr.data,
        hr.lookup_ne k (fun hk => h (.inl hk.symm)) fun hk => h (.inr hk.symm)]
    | created hc => exact hc.read_ne fun hk => h hk.symm
    | wrote => exact absurd trivial h
  | _ => rfl

/-- A directory stays unless it is removed, and it is not removed while something is
mounted there. -/
lemma env_isDir (x : Ext) {o : Op} (c : Choice) (w : World) {k : Key}
    (h : w.MountedAt k ∨ ∀ p, o = .removeDir p → p.key ≠ k) (hk : w.fs.IsDir k) :
    (env x o c w).2.fs.IsDir k := by
  have hs := step x o c w
  generalize (env x o c w).2 = w' at hs
  cases hs with
  | files hf =>
    cases hf with
    | same => exact hk
    | grows hg => exact hg.dir k hk
    | written hw => exact (hw.isDir k).2 hk
    | captured hw => exact (hw.isDir k).2 hk
    | @unlinked p fs hr hf =>
      obtain ⟨i, hi⟩ := hf
      have hne : k ≠ p.key := fun he => Fs.not_isDir_of_lookup hi (he ▸ hk)
      exact (Fs.isDir_congr (hr.lookup_ne k hne)).2 hk
    | @removed p fs hr hd hm =>
      have hne : k ≠ p.key := by
        rintro rfl
        exact h.elim hm fun h => h p rfl rfl
      exact (Fs.isDir_congr (hr.lookup_ne k hne)).2 hk
    | @renamed p q fs hr =>
      obtain ⟨i, hi, -⟩ := hr.file
      have hp : k ≠ p.key := fun he => Fs.not_isDir_of_lookup hi (he ▸ hk)
      have hq : k ≠ q.key := fun he => hr.not_isDir (he ▸ hk)
      exact (Fs.isDir_congr (hr.lookup_ne k hp hq)).2 hk
    | created hc => exact (hc.isDir k).2 hk
    | wrote => exact hk
  | _ => exact hk

/-! ### Mounts, uppers and registries -/

/-- The requests that can change the mounts. -/
def ChangesMounts : Op → Prop
  | .mount _ | .unmount _ | .exec _ _ | .execMount _ _ _ => True
  | _ => False

/-- The other requests leave the mounts as they are. -/
lemma env_mounts (x : Ext) {o : Op} (c : Choice) (w : World) (h : ¬ChangesMounts o) :
    (env x o c w).2.mounts = w.mounts ∧ (env x o c w).2.nextMount = w.nextMount := by
  have hs := step x o c w
  generalize (env x o c w).2 = w' at hs
  cases hs with
  | files hf => exact ⟨rfl, rfl⟩
  | blob h' => exact ⟨rfl, rfl⟩
  | manifest h' => exact ⟨rfl, rfl⟩
  | _ => exact absurd trivial h

/-- No request changes an upper. -/
lemma env_uppers (x : Ext) (o : Op) (c : Choice) (w : World) :
    (env x o c w).2.uppers = w.uppers := by
  have hs := step x o c w
  generalize (env x o c w).2 = w' at hs
  cases hs <;> rfl

/-- The requests that can change a registry. -/
def ChangesReg : Op → Prop
  | .putBlob _ _ _ _ _ | .putManifest _ _ _ => True
  | _ => False

/-- The other requests leave the registries as they are. -/
lemma env_reg (x : Ext) {o : Op} (c : Choice) (w : World) (h : ¬ChangesReg o) :
    (env x o c w).2.reg = w.reg := by
  have hs := step x o c w
  generalize (env x o c w).2 = w' at hs
  cases hs with
  | blob h' => exact absurd trivial h
  | manifest h' => exact absurd trivial h
  | _ => rfl

/-! ### Blobs -/

/-- Every blob is kept under its digest. -/
def Store.Consistent (x : Ext) (s : Store) : Prop :=
  ∀ repo d b, s.blobs repo d = some b → digestOf x.sha256 b = d

/-- The registry has become `s'`: it is consistent, and no blob is gone. -/
structure Store.Grows (x : Ext) (s s' : Store) : Prop where
  consistent : s'.Consistent x
  blobs : ∀ repo d b, s.blobs repo d = some b → s'.blobs repo d = some b

lemma Store.Grows.refl {s : Store} (h : s.Consistent x) : s.Grows x s := ⟨h, fun _ _ _ h => h⟩

lemma Store.putBlob_blobs (s : Store) (repo repo' : Repo) (d d' : Text) (b : Bytes) :
    (s.putBlob repo d b).blobs repo' d' =
      if repo' = repo ∧ d' = d then some b else s.blobs repo' d' := by
  by_cases hr : repo' = repo
  · subst hr
    by_cases hd : d' = d
    · simp [putBlob, hd]
    · simp [putBlob, hd]
  · simp [putBlob, hr]

/-- A blob that is accepted takes the place of none but itself. -/
lemma Store.grows_putBlob (hx : Function.Injective x.sha256) {s : Store} (h : s.Consistent x)
    {repo : Repo} {d : Text} {b : Bytes} (ha : World.accepts x repo d b) :
    s.Grows x (s.putBlob repo d b) := by
  constructor
  · intro repo' d' b' hb'
    rw [putBlob_blobs] at hb'
    split at hb'
    · rename_i heq
      rw [heq.2, ← Option.some.inj hb', ha.2]
    · exact h repo' d' b' hb'
  · intro repo' d' b' hb'
    rw [putBlob_blobs]
    split
    · rename_i heq
      rw [heq.2] at hb'
      have hdig : digestOf x.sha256 b' = digestOf x.sha256 b := (h repo' d b' hb').trans ha.2
      rw [digestOf_injective hx hdig]
    · exact hb'

/-- No request takes a blob away. -/
lemma env_grows (hx : Function.Injective x.sha256) (o : Op) (c : Choice)
    (h : w.reg.Consistent x) : w.reg.Grows x (env x o c w).2.reg := by
  have hs := step x o c w
  generalize (env x o c w).2 = w' at hs
  cases hs with
  | blob ha => exact Store.grows_putBlob hx h ha
  | manifest ha => exact ⟨h, fun _ _ _ hb => hb⟩
  | _ => exact .refl h

/-! ### Requests with their answers -/

lemma env_createDirAll_cases (x : Ext) (p : PathBuf) (c : Choice) (w : World) :
    (∃ e fs, env x (.createDirAll p) c w = (.error e, w.withFs fs) ∧ Fs.Grows w.fs fs) ∨
      ∃ fs, env x (.createDirAll p) c w = (.ok (), w.withFs fs) ∧ Fs.Grows w.fs fs ∧
        fs.IsDir p.key := by
  have hgo : ∀ msg, (∃ e fs, w.answerFs msg (w.fs.mkdirs p.key) = (.error e, w.withFs fs) ∧
      Fs.Grows w.fs fs) ∨ ∃ fs, w.answerFs msg (w.fs.mkdirs p.key) = (.ok (), w.withFs fs) ∧
        Fs.Grows w.fs fs ∧ fs.IsDir p.key := by
    intro msg
    cases h : w.fs.mkdirs p.key with
    | none => exact .inl ⟨⟨msg⟩, w.fs, rfl, .refl _⟩
    | some fs => exact .inr ⟨fs, rfl, Fs.mkdirs_grows h, Fs.mkdirs_isDir h⟩
  cases c with
  | fault msg done =>
    refine .inl ⟨⟨msg⟩, _, rfl, ?_⟩
    cases h : done.bind fun n => w.fs.mkdirs (p.key.take n) with
    | none => exact .refl _
    | some fs =>
      obtain ⟨n, -, hn⟩ := Option.bind_eq_some_iff.1 h
      exact Fs.mkdirs_grows hn
  | _ => exact hgo _

/-- Creating a directory that is there changes nothing. -/
lemma env_createDirAll_of_isDir (x : Ext) {p : PathBuf} (c : Choice) {w : World}
    (h : w.fs.IsDir p.key) : (env x (.createDirAll p) c w).2 = w := by
  cases c with
  | fault msg done =>
    have hdone : (done.bind fun n => w.fs.mkdirs (p.key.take n)).getD w.fs = w.fs := by
      cases done with
      | none => rfl
      | some n =>
        rw [← List.take_append_drop n p.key] at h
        rw [Option.bind_some, Fs.mkdirs_of_isDir (Fs.isDir_of_isPrefix h)]
        rfl
    simp only [env, World.createDirAll, World.failFs, hdone]
    rfl
  | _ =>
    simp only [env, World.createDirAll, Fs.mkdirs_of_isDir h]
    rfl

lemma env_writeFile_cases (x : Ext) (p : PathBuf) (b : Bytes) (c : Choice) (w : World) :
    (∃ e w', env x (.writeFile p b) c w = (.error e, w')) ∨
      ∃ fs, env x (.writeFile p b) c w = (.ok (), w.withFs fs) ∧ Fs.Written w.fs p.key b fs := by
  cases h : w.fs.write p.key b with
  | none =>
    cases c with
    | fault msg done => exact .inl ⟨_, _, rfl⟩
    | _ => exact .inl ⟨_, _, by simp only [env, World.writeFile, h]; rfl⟩
  | some fs =>
    cases c with
    | fault msg done => exact .inl ⟨_, _, rfl⟩
    | _ => exact .inr ⟨fs, by simp only [env, World.writeFile, h]; rfl, Fs.write_spec h⟩

/-- A write that fails leaves the old file, or the beginning of the new one. -/
lemma env_writeFile_read (x : Ext) (p : PathBuf) (b : Bytes) (c : Choice) (w : World) :
    (env x (.writeFile p b) c w).2.fs.read p.key = w.fs.read p.key ∨
      ∃ b', b' <+: b ∧ (env x (.writeFile p b) c w).2.fs.read p.key = some b' := by
  have hgo : ∀ msg, (w.answerFs msg (w.fs.write p.key b)).2.fs.read p.key = w.fs.read p.key ∨
      ∃ b', b' <+: b ∧ (w.answerFs msg (w.fs.write p.key b)).2.fs.read p.key = some b' := by
    intro msg
    cases h : w.fs.write p.key b with
    | none => exact .inl rfl
    | some fs => exact .inr ⟨b, List.prefix_refl b, (Fs.write_spec h).read_self⟩
  cases c with
  | fault msg done =>
    simp only [env, World.writeFile, World.failFs]
    cases h : done.bind fun n => w.fs.write p.key (b.take n) with
    | none => exact .inl rfl
    | some fs =>
      obtain ⟨n, -, hn⟩ := Option.bind_eq_some_iff.1 h
      exact .inr ⟨b.take n, List.take_prefix n b, (Fs.write_spec hn).read_self⟩
  | _ => exact hgo _

lemma env_readFile_cases (x : Ext) (p : PathBuf) (c : Choice) (w : World) :
    (∃ e, env x (.readFile p) c w = (.error e, w)) ∨
      ∃ b, env x (.readFile p) c w = (.ok b, w) ∧ w.fs.read p.key = some b := by
  cases h : w.fs.read p.key with
  | none =>
    cases c with
    | fault msg done => exact .inl ⟨_, rfl⟩
    | _ => exact .inl ⟨_, by simp only [env, World.readFile, h]; rfl⟩
  | some b =>
    cases c with
    | fault msg done => exact .inl ⟨_, rfl⟩
    | _ => exact .inr ⟨b, by simp only [env, World.readFile, h], rfl⟩

lemma env_fileCreate_cases (x : Ext) (p : PathBuf) (c : Choice) (w : World) :
    (∃ e, env x (.fileCreate p) c w = (.error e, w)) ∨
      ∃ i fs, env x (.fileCreate p) c w = (.ok i, w.withFs fs) ∧ Fs.Created w.fs p.key i fs := by
  cases h : w.fs.create p.key with
  | none =>
    cases c with
    | fault msg done => exact .inl ⟨_, rfl⟩
    | _ => exact .inl ⟨_, by simp only [env, World.fileCreate, h]; rfl⟩
  | some r =>
    obtain ⟨i, fs⟩ := r
    cases c with
    | fault msg done => exact .inl ⟨_, rfl⟩
    | _ => exact .inr ⟨i, fs, by simp only [env, World.fileCreate, h], Fs.create_spec h⟩

lemma env_fileWrite_cases (x : Ext) (ino off : ℕ) (b : Bytes) (c : Choice) (w : World) :
    (∃ e, ∃ b' : Bytes, b' <+: b ∧
      env x (.fileWrite ino off b) c w = (.error e, w.withFs (w.fs.writeAt ino off b'))) ∨
      env x (.fileWrite ino off b) c w = (.ok (), w.withFs (w.fs.writeAt ino off b)) := by
  cases c with
  | fault msg done =>
    cases done with
    | none => exact .inl ⟨⟨msg⟩, [], List.nil_prefix, by rw [Fs.writeAt_nil]; rfl⟩
    | some n => exact .inl ⟨⟨msg⟩, b.take n, List.take_prefix n b, rfl⟩
  | _ => exact .inr rfl

lemma env_renameFile_cases (x : Ext) (p q : PathBuf) (c : Choice) (w : World) :
    (∃ e, env x (.renameFile p q) c w = (.error e, w)) ∨
      ∃ fs, env x (.renameFile p q) c w = (.ok (), w.withFs fs) ∧
        Fs.Renamed w.fs p.key q.key fs := by
  cases h : w.fs.rename p.key q.key with
  | none =>
    cases c with
    | fault msg done => exact .inl ⟨_, rfl⟩
    | _ => exact .inl ⟨_, by simp only [env, World.renameFile, h]; rfl⟩
  | some fs =>
    cases c with
    | fault msg done => exact .inl ⟨_, rfl⟩
    | _ => exact .inr ⟨fs, by simp only [env, World.renameFile, h]; rfl, Fs.rename_spec h⟩

lemma env_removeFile_cases (x : Ext) (p : PathBuf) (c : Choice) (w : World) :
    (∃ e, env x (.removeFile p) c w = (.error e, w)) ∨
      ∃ fs, env x (.removeFile p) c w = (.ok (), w.withFs fs) ∧ Fs.Removed w.fs p.key fs := by
  cases h : w.fs.unlink p.key with
  | none =>
    cases c with
    | fault msg done => exact .inl ⟨_, rfl⟩
    | _ => exact .inl ⟨_, by simp only [env, World.removeFile, h]; rfl⟩
  | some fs =>
    cases c with
    | fault msg done => exact .inl ⟨_, rfl⟩
    | _ => exact .inr ⟨fs, by simp only [env, World.removeFile, h]; rfl, (Fs.unlink_spec h).1⟩

lemma env_mount_cases (x : Ext) (spec : MountSpec) (c : Choice) (w : World) :
    (∃ e, env x (.mount spec) c w = (.error e, w)) ∨
      env x (.mount spec) c w = (.ok (), w.startMount x spec) ∧ w.fs.IsDir spec.target.key := by
  by_cases h : w.fs.IsDir spec.target.key
  · cases c with
    | fault msg done => exact .inl ⟨_, rfl⟩
    | status code => exact .inl ⟨_, rfl⟩
    | _ => exact .inr ⟨by simp only [env, World.mount, if_pos h], h⟩
  · cases c with
    | fault msg done => exact .inl ⟨_, rfl⟩
    | status code => exact .inl ⟨_, rfl⟩
    | _ => exact .inl ⟨_, by simp only [env, World.mount, if_neg h]; rfl⟩

lemma env_unmount_cases (x : Ext) (target : PathBuf) (c : Choice) (w : World) :
    (∃ e, env x (.unmount target) c w = (.error e, w)) ∨
      (env x (.unmount target) c w = (.ok (), w) ∧ ¬w.ExistsAt target.key) ∨
      (env x (.unmount target) c w = (.ok (), w.endMount target.key) ∧
        w.MountedAt target.key) := by
  by_cases hex : w.ExistsAt target.key
  · by_cases h : w.MountedAt target.key
    · cases c with
      | fault msg done => exact .inl ⟨_, rfl⟩
      | status code => exact .inl ⟨_, rfl⟩
      | _ => exact .inr (.inr ⟨by simp [env, World.unmount, hex, h], h⟩)
    · cases c with
      | fault msg done => exact .inl ⟨_, rfl⟩
      | status code => exact .inl ⟨_, rfl⟩
      | _ => exact .inl ⟨_, by simp only [env, World.unmount, hex, h]; rfl⟩
  · cases c with
    | fault msg done => exact .inl ⟨_, rfl⟩
    | status code => exact .inl ⟨_, rfl⟩
    | _ => exact .inr (.inl ⟨by simp [env, World.unmount, hex], hex⟩)

/-- What a capture that succeeds reports: the digest and the size of the upper of the mount
that listens on the socket, which it has written to the staging file. -/
lemma env_capture_cases (x : Ext) (s p : PathBuf) (c : Choice) (w : World) :
    (∃ e w', env x (.capture s p) c w = (.error e, w')) ∨
      ∃ m fs, w.daemon s.key = some m ∧
        env x (.capture s p) c w =
          (.ok ⟨digestOf x.sha256 (x.pack (w.uppers m.spec.upper.key)),
            (x.pack (w.uppers m.spec.upper.key)).length⟩, w.withFs fs) ∧
        Fs.Written w.fs p.key (x.pack (w.uppers m.spec.upper.key)) fs ∧
        (x.pack (w.uppers m.spec.upper.key)).length < 2 ^ 64 := by
  cases hd : w.daemon s.key with
  | none =>
    refine .inl ?_
    cases c <;> simp only [env, World.capture, hd] <;> exact ⟨_, _, rfl⟩
  | some m =>
    cases hw : w.fs.write p.key (x.pack (w.uppers m.spec.upper.key)) with
    | none =>
      refine .inl ?_
      cases c <;> simp only [env, World.capture, hd, hw] <;> exact ⟨_, _, rfl⟩
    | some fs =>
      by_cases hlen : (x.pack (w.uppers m.spec.upper.key)).length < 2 ^ 64
      · cases c with
        | fault msg done =>
          exact .inl (by simp only [env, World.capture, hd]; exact ⟨_, _, rfl⟩)
        | _ =>
          refine .inr ⟨m, fs, rfl, ?_, Fs.write_spec hw, hlen⟩
          simp only [env, World.capture, hd, hw, if_pos hlen]
      · refine .inl ?_
        cases c <;> simp only [env, World.capture, hd, hw, if_neg hlen] <;> exact ⟨_, _, rfl⟩

end RspacefsCsi
