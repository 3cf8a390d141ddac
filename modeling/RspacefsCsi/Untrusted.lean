/-
# Pulling from a registry that is not trusted

The digests of a manifest are texts that the registry chooses, and a layer whose file is
there already is not looked at again.  A download is renamed only after its digest has been
checked, and the file it is written to never has the name of a layer, whatever the digest
is.  So the files of a directory that only pulls have filled are verified (`SoundDir`), and
what a pull answers with is verified if the digests of the manifest have the form of
digests.  Without this form the name of the file does not tell the digest, and need not be
a name in the directory (`pulled_verified_iff`).  What pulls create themselves is confined and
verified in every case (`created_verified`).
-/
import RspacefsCsi.Layers

namespace RspacefsCsi

open Lib Lib.Prog OciClient

variable {x : Ext} {cl : OciClient} {dir : PathBuf} {ok : Choice → Prop}

/-! ### The form of a digest -/

/-- A digest `sha256:…` in hexadecimal, in capital or small letters. -/
def IsDigest (d : Text) : Prop :=
  ∃ h, Text.eqIgnoreAsciiCase d (algorithm ++ hexEncode h) = true

lemma isDigest_of_eq {d : Text} {b : Bytes}
    (h : Text.eqIgnoreAsciiCase d (digestOf x.sha256 b) = true) : IsDigest d := ⟨_, h⟩

lemma asciiLower_of_isDigest {d : Text} {h : Bytes}
    (hd : Text.eqIgnoreAsciiCase d (algorithm ++ hexEncode h) = true) :
    Text.asciiLower d = algorithm ++ hexEncode h :=
  (beq_iff_eq.1 hd).trans (@asciiLower_digestOf (fun _ => h) [])

/-- Only a sign is the lower case of a sign. -/
lemma asciiLowerChar_eq_of_sign {c s : Char} (hs : s.toNat < 97) (h : Text.asciiLowerChar c = s) :
    c = s := by
  rcases Text.asciiLowerChar_cases c with hc | hc
  · exact hc.symm.trans h
  · rw [h] at hc
    exact absurd hs (by omega)

/-- The only sign in a digest is a colon, after six characters. -/
lemma exists_of_isDigest {d : Text} (h : IsDigest d) :
    ∃ name hex, d = name ++ ':' :: hex ∧ name.length = 6 ∧
      ∀ c ∈ name ++ hex, c ≠ ':' ∧ c ≠ '-' ∧ c ≠ '/' := by
  obtain ⟨b, hb⟩ := h
  have hlow : d.map Text.asciiLowerChar = "sha256".toList ++ ':' :: hexEncode b :=
    asciiLower_of_isDigest hb
  obtain ⟨name, rest, rfl, hname, hrest⟩ := List.map_eq_append_iff.1 hlow
  obtain ⟨c, hex, rfl, hc, hhex⟩ := List.map_eq_cons_iff.1 hrest
  obtain rfl := asciiLowerChar_eq_of_sign (by decide) hc
  refine ⟨name, hex, rfl, by simpa using congrArg List.length hname, fun c hc => ?_⟩
  -- the lower case of the character is a letter or a digit
  have hmem : Text.asciiLowerChar c ∈ "sha256".toList ∨
      ∃ n < 16, Text.asciiLowerChar c = Json.hexDigit n := by
    rcases List.mem_append.1 hc with hc | hc
    · exact .inl (hname ▸ List.mem_map_of_mem hc)
    · exact .inr (mem_hexEncode (hhex ▸ List.mem_map_of_mem hc))
  refine ⟨?_, ?_, ?_⟩ <;>
    · rintro rfl
      rcases hmem with h | ⟨n, hn, h⟩
      · exact absurd h (by decide)
      · exact absurd h ((by decide : ∀ n < 16, _ ≠ Json.hexDigit n) n hn)

/-- The name of the file of a digest. -/
lemma blobName_of_isDigest {name hex : Text}
    (h : ∀ c ∈ name ++ hex, c ≠ ':' ∧ c ≠ '-' ∧ c ≠ '/') :
    blobName (name ++ ':' :: hex) = name ++ '-' :: hex ++ blobSuffix := by
  have hkeep : ∀ s : Text, (∀ c ∈ s, c ∈ name ++ hex) →
      s.map (fun c => if c = ':' then '-' else c) = s := by
    intro s hs
    conv_rhs => rw [← List.map_id s]
    exact List.map_congr_left fun c hc => if_neg (h c (hs c hc)).1
  rw [blobName, Text.replace, List.map_append, List.map_cons, if_pos rfl,
    hkeep name fun _ => List.mem_append_left _, hkeep hex fun _ => List.mem_append_right _]
  rfl

/-- The name of its file tells a digest from all others. -/
lemma blobName_inj {d d' : Text} (h : IsDigest d) (h' : IsDigest d') (heq : blobName d = blobName d') :
    d = d' := by
  obtain ⟨name, hex, rfl, hlen, hsigns⟩ := exists_of_isDigest h
  obtain ⟨name', hex', rfl, hlen', hsigns'⟩ := exists_of_isDigest h'
  rw [blobName_of_isDigest hsigns, blobName_of_isDigest hsigns'] at heq
  obtain ⟨rfl, hrest⟩ := List.append_inj (List.append_cancel_right heq) (hlen.trans hlen'.symm)
  rw [(List.cons.inj hrest).2]

lemma blobSuffix_suffix_blobName (d : Text) : blobSuffix <:+ blobName d := ⟨_, rfl⟩

/-- The file of a digest is in the directory. -/
lemma key_blobPath {d : Text} (h : IsDigest d) (dir : PathBuf) :
    (dir.join (blobName d)).key = dir.key ++ [blobName d] := by
  obtain ⟨name, hex, rfl, hlen, hsigns⟩ := exists_of_isDigest h
  refine PathBuf.key_join_normal (.of_length ?_ ?_) dir
  · rw [blobName_of_isDigest hsigns]
    simp only [List.length_append, hlen]
    omega
  · rw [blobName_of_isDigest hsigns]
    simp only [List.mem_append, List.mem_cons, not_or]
    refine ⟨⟨fun hm => ?_, by decide, fun hm => ?_⟩, by decide⟩
    · exact (hsigns _ (List.mem_append_left _ hm)).2.2 rfl
    · exact (hsigns _ (List.mem_append_right _ hm)).2.2 rfl

/-- A download is not written to the file of a layer, whatever its digest is. -/
lemma key_partialPath_ne {name : Text} (h : blobSuffix <:+ name) (out : PathBuf) :
    (partialPath out).key ≠ dir.key ++ [name] := by
  obtain ⟨k, stem, hk⟩ := @PathBuf.key_withExtension "blob.partial".toList (by decide)
    (by decide) out
  obtain ⟨pre, rfl⟩ := h
  intro heq
  rw [partialPath, hk] at heq
  have hlast := congrArg List.getLast? (List.append_inj' heq rfl).2
  simp only [List.getLast?_singleton, Option.some.injEq] at hlast
  have := congrArg List.getLast? hlast
  rw [List.getLast?_append_of_ne_nil _ (by decide), List.getLast?_append_of_ne_nil _ (by decide)]
    at this
  exact absurd this (by decide)

/-! ### Verified files -/

/-- Everything in the directory that has the name of a layer is a file with the content that
its name says. -/
def SoundDir (x : Ext) (dir : PathBuf) (w : World) : Prop :=
  ∀ name, blobSuffix <:+ name → w.ExistsAt (dir.key ++ [name]) →
    ∃ d b, name = blobName d ∧ w.fs.read (dir.key ++ [name]) = some b ∧
      Text.eqIgnoreAsciiCase d (digestOf x.sha256 b) = true

/-- No file in the directory that has the name of a layer is concerned, and nothing else
with such a name is new there. -/
def Elsewhere (dir : PathBuf) (w w' : World) : Prop :=
  ∀ name, blobSuffix <:+ name → w'.fs.read (dir.key ++ [name]) = w.fs.read (dir.key ++ [name]) ∧
    (w'.ExistsAt (dir.key ++ [name]) → w.ExistsAt (dir.key ++ [name]))

/-- The files of the directory are verified, and none is gone. -/
structure Filled (x : Ext) (dir : PathBuf) (w w' : World) : Prop where
  sound : SoundDir x dir w'
  kept : ∀ name, blobSuffix <:+ name → w.fs.read (dir.key ++ [name]) ≠ none →
    w'.fs.read (dir.key ++ [name]) ≠ none

section Relations

variable {w w' w'' : World}

lemma Elsewhere.refl (dir : PathBuf) (w : World) : Elsewhere dir w w := fun _ _ => ⟨rfl, id⟩

lemma Elsewhere.trans (h : Elsewhere dir w w') (h' : Elsewhere dir w' w'') : Elsewhere dir w w'' :=
  fun name hn => ⟨(h' name hn).1.trans (h name hn).1, fun hex => (h name hn).2 ((h' name hn).2 hex)⟩

lemma Filled.refl (h : SoundDir x dir w) : Filled x dir w w := ⟨h, fun _ _ hr => hr⟩

lemma Filled.trans (h : Filled x dir w w') (h' : Filled x dir w' w'') : Filled x dir w w'' :=
  ⟨h'.sound, fun name hn hr => h'.kept name hn (h.kept name hn hr)⟩

lemma Elsewhere.sound (h : Elsewhere dir w w') (hs : SoundDir x dir w) : SoundDir x dir w' := by
  intro name hn hex
  obtain ⟨hread, hexists⟩ := h name hn
  rw [hread]
  exact hs name hn (hexists hex)

lemma Elsewhere.filled (h : Elsewhere dir w w') (hs : SoundDir x dir w) : Filled x dir w w' :=
  ⟨h.sound hs, fun name hn hr => by rwa [(h name hn).1]⟩

/-- What is known about a verified file whose digest has the right form. -/
lemma SoundDir.digest (h : SoundDir x dir w) {d : Text} (hd : IsDigest d)
    (hex : w.ExistsAt (dir.key ++ [blobName d])) :
    ∃ b, w.fs.read (dir.key ++ [blobName d]) = some b ∧
      Text.eqIgnoreAsciiCase d (digestOf x.sha256 b) = true := by
  obtain ⟨d', b, hname, hb, hd'⟩ := h _ (blobSuffix_suffix_blobName d) hex
  obtain rfl := blobName_inj hd (isDigest_of_eq hd') hname
  exact ⟨b, hb, hd'⟩

lemma existsAt_of_read {k : Key} (h : w.fs.read k ≠ none) : w.ExistsAt k := by
  cases hr : w.fs.read k with
  | none => exact absurd hr h
  | some b =>
    obtain ⟨i, hi, -⟩ := Fs.read_eq_some_iff.1 hr
    exact .inr (.inl (by rw [hi]; exact nofun))

/-- Whether there is something at a path depends on its name alone, and on the mounts. -/
lemma existsAt_withFs {fs : Fs} {k : Key} (h : fs.lookup k = w.fs.lookup k) :
    (w.withFs fs).ExistsAt k ↔ w.ExistsAt k := by
  simp only [World.ExistsAt, World.withFs_fs, World.withFs_mounts, h, Fs.isDir_congr h]

end Relations

/-! ### A pull, request by request -/

section Requests

variable {w : World} {p : PathBuf}

/-- The path is not that of a layer. -/
def Aside (dir : PathBuf) (k : Key) : Prop := ∀ name, blobSuffix <:+ name → dir.key ++ [name] ≠ k

lemma aside_partialPath (dir out : PathBuf) : Aside dir (partialPath out).key :=
  fun _ hn h => key_partialPath_ne hn out h.symm

/-- Making a directory that is not where a layer would be, nor below such a place. -/
lemma env_createDirAll_elsewhere
    (hp : ∀ name, blobSuffix <:+ name → ¬dir.key ++ [name] <+: p.key) (c : Choice) (w : World) :
    Elsewhere dir w (env x (.createDirAll p) c w).2 := by
  have hmk : ∀ k fs, k <+: p.key → w.fs.mkdirs k = some fs → Elsewhere dir w (w.withFs fs) := by
    intro k fs hk hfs name hn
    have hnot : ¬dir.key ++ [name] <+: k := fun h => hp name hn (h.trans hk)
    exact ⟨(Fs.mkdirs_grows hfs).read _, (existsAt_withFs (Fs.mkdirs_lookup_ne hfs hnot)).1⟩
  have hdone : ∀ msg, Elsewhere dir w (w.answerFs msg (w.fs.mkdirs p.key)).2 := by
    intro msg
    cases h : w.fs.mkdirs p.key with
    | none => exact .refl dir w
    | some fs => exact hmk _ fs List.prefix_rfl h
  cases c with
  | fault msg done =>
    cases h : done.bind fun n => w.fs.mkdirs (p.key.take n) with
    | none =>
      simp only [env, World.createDirAll, h]
      exact .refl dir w
    | some fs =>
      obtain ⟨n, -, hn⟩ := Option.bind_eq_some_iff.1 h
      simp only [env, World.createDirAll, h]
      exact hmk _ fs (List.take_prefix n _) hn
  | _ => exact hdone _

lemma not_prefix_self (dir : PathBuf) (name : Text) : ¬dir.key ++ [name] <+: dir.key := by
  intro h
  have := h.length_le
  simp at this

/-- Writing through a handle of another file. -/
lemma elsewhere_writeAt {k : Key} (hk : Aside dir k) {ino : ℕ}
    (hlk : w.fs.lookup k = some (.file ino)) (off : ℕ) (b : Bytes) :
    Elsewhere dir w (w.withFs (w.fs.writeAt ino off b)) :=
  fun name hn => ⟨Fs.read_setData_ne hlk (hk name hn), (existsAt_withFs rfl).1⟩

/-- Writing the chunks of a stream to another file ends with all of them in it. -/
lemma writeChunks_elsewhere {k : Key} (hk : Aside dir k) (ino : ℕ)
    (items : List (Except Text Bytes)) {acc : Bytes} (hlk : w.fs.lookup k = some (.file ino))
    (hacc : w.fs.data ino = acc) (tr : List Ev) :
    Always (env x) ok (fun _ w' res => Elsewhere dir w w' ∧
      ∀ body, res = some (.ok body) → w'.fs.read k = some body) (writeChunks ino acc items).run tr w := by
  induction items generalizing acc w tr with
  | nil =>
    refine ⟨⟨.refl dir w, none_returned⟩, .refl dir w, ?_⟩
    rintro body ⟨⟩
    exact Fs.read_eq_some_iff.2 ⟨ino, hlk, hacc⟩
  | cons item items ih =>
    cases item with
    | error e => exact ⟨⟨.refl dir w, none_returned⟩, .refl dir w, none_ok⟩
    | ok chunk =>
      simp only [writeChunks, run_attempt_bind]
      refine ⟨⟨.refl dir w, none_returned⟩, fun c _ => ?_⟩
      rcases env_fileWrite_cases x ino acc.length chunk c w with ⟨e, b', -, heq⟩ | heq <;> rw [heq]
      · have h := elsewhere_writeAt hk hlk acc.length b'
        exact ⟨⟨h, none_returned⟩, h, none_ok⟩
      · have h := elsewhere_writeAt hk hlk acc.length chunk
        have hdata : (w.fs.writeAt ino acc.length chunk).data ino = acc ++ chunk := by
          rw [Fs.writeAt, Fs.setData_data, Function.update_self, hacc, splice_length]
        refine (ih (w := w.withFs (w.fs.writeAt ino acc.length chunk)) hlk hdata _).mono fun _ w' res h' => ?_
        exact ⟨h.trans h'.1, h'.2⟩

/-- A download ends with the bytes of the digest in the file it is written to. -/
lemma pullBlobTo_elsewhere (r : Reference) (digest : Text) (hp : Aside dir p.key) (tr : List Ev)
    (w : World) :
    Always (env x) ok (fun _ w' res => Elsewhere dir w w' ∧ (res = some (.ok ()) →
      ∃ body, w'.fs.read p.key = some body ∧
        Text.eqIgnoreAsciiCase digest (digestOf x.sha256 body) = true))
      (pullBlobTo x.sha256 cl r digest p).run tr w := by
  simp only [pullBlobTo, run_attempt_bind]
  refine ⟨⟨.refl dir w, not_returned⟩, fun c _ => ?_⟩
  obtain ⟨res, hres⟩ : ∃ res, env x (.getBlob (cl.blobUrl r digest) r digest) c w = (res, w) :=
    ⟨_, rfl⟩
  rw [hres]
  dsimp only
  cases checkReply (cl.blobUrl r digest) res with
  | error e => exact ⟨⟨.refl dir w, not_returned⟩, .refl dir w, not_ok⟩
  | ok items =>
    refine ⟨⟨.refl dir w, not_returned⟩, fun c _ => ?_⟩
    rcases env_fileCreate_cases x p c w with ⟨e, heq⟩ | ⟨ino, fs, heq, hc⟩ <;> rw [heq]
    · exact ⟨⟨.refl dir w, not_returned⟩, .refl dir w, not_ok⟩
    have hcreate : Elsewhere dir w (w.withFs fs) := fun name hn =>
      ⟨hc.read_ne (hp name hn), (existsAt_withFs (hc.lookup_ne _ (hp name hn))).1⟩
    refine Always.tryBind ((writeChunks_elsewhere (w := w.withFs fs) hp ino items hc.lookup_self
      hc.data_self _).mono fun tr' w' res h => ?_)
    have hw := hcreate.trans h.1
    refine ⟨⟨hw, not_returned⟩, fun _ _ => ⟨hw, not_ok⟩, fun body hbody => ?_⟩
    simp only [run_attempt_bind]
    refine ⟨⟨hw, not_returned⟩, fun c _ => ?_⟩
    obtain ⟨res, hres⟩ : ∃ res, env x (.fileFlush ino) c w' = (res, w') := ⟨_, rfl⟩
    rw [hres]
    dsimp only
    cases checkIo res with
    | error e => exact ⟨⟨hw, not_returned⟩, hw, not_ok⟩
    | ok u =>
      by_cases hd : Text.eqIgnoreAsciiCase digest (digestOf x.sha256 body) = true
      · simp only [if_pos hd]
        exact ⟨⟨hw, not_returned⟩, hw, fun _ => ⟨body, h.2 body hbody, hd⟩⟩
      · simp only [if_neg hd]
        refine ⟨⟨hw, not_returned⟩, fun c _ => ?_⟩
        have hrm : Elsewhere dir w' (env x (.removeFile p) c w').2 := by
          rcases env_removeFile_cases x p c w' with ⟨e, heq⟩ | ⟨fs, heq, hr⟩ <;> rw [heq]
          · exact .refl dir w'
          · exact fun name hn =>
              ⟨hr.read_ne (hp name hn), (existsAt_withFs (hr.lookup_ne _ (hp name hn))).1⟩
        exact ⟨⟨hw.trans hrm, not_returned⟩, hw.trans hrm, not_ok⟩

/-- A download that was checked gets the name of its layer. -/
lemma filled_of_renamed (hs : SoundDir x dir w) {d : Text} {body : Bytes}
    (hd : Text.eqIgnoreAsciiCase d (digestOf x.sha256 body) = true) {k : Key} (hk : Aside dir k)
    (hbody : w.fs.read k = some body) {fs : Fs}
    (hr : Fs.Renamed w.fs k (dir.key ++ [blobName d]) fs) :
    Filled x dir w (w.withFs fs) ∧ fs.read (dir.key ++ [blobName d]) = some body := by
  have hread : fs.read (dir.key ++ [blobName d]) = some body := by
    obtain ⟨i, hi, hi'⟩ := hr.file
    obtain ⟨j, hj, hdata⟩ := Fs.read_eq_some_iff.1 hbody
    obtain rfl : i = j := by simpa [hi] using hj
    exact Fs.read_eq_some_iff.2 ⟨i, hi', by rw [hr.data, hdata]⟩
  have hother : ∀ name, blobSuffix <:+ name → name ≠ blobName d →
      fs.lookup (dir.key ++ [name]) = w.fs.lookup (dir.key ++ [name]) := fun name hn hne =>
    hr.lookup_ne _ (hk name hn) fun h => hne (by simpa using h)
  have hread' : ∀ name, blobSuffix <:+ name → name ≠ blobName d →
      fs.read (dir.key ++ [name]) = w.fs.read (dir.key ++ [name]) := by
    intro name hn hne
    rw [Fs.read, Fs.read, hother name hn hne, hr.data]
  refine ⟨⟨fun name hn hex => ?_, fun name hn hr' => ?_⟩, hread⟩
  · by_cases hne : name = blobName d
    · exact ⟨d, body, hne, by rw [World.withFs_fs, hne, hread], hd⟩
    · rw [World.withFs_fs, hread' name hn hne]
      exact hs name hn ((existsAt_withFs (hother name hn hne)).1 hex)
  · by_cases hne : name = blobName d
    · rw [World.withFs_fs, hne, hread]
      exact (by rintro ⟨⟩)
    · rwa [World.withFs_fs, hread' name hn hne]

/-- A layer that was pulled has a file, if its digest has the right form. -/
lemma pullLayer_filled (r : Reference) (layer : LayerRef) (hs : SoundDir x dir w) (tr : List Ev) :
    Always (env x) ok (fun _ w' res => Filled x dir w w' ∧ ∀ path, res = some (.ok path) →
      IsDigest layer.digest → w'.fs.read (dir.key ++ [blobName layer.digest]) ≠ none)
      (pullLayer x.sha256 cl r dir layer).run tr w := by
  have hself := Filled.refl hs
  simp only [pullLayer, run_request_bind]
  refine ⟨⟨hself, none_returned⟩, fun c _ => ?_⟩
  obtain ⟨there, hthere⟩ : ∃ there,
    env x (.tryExists (dir.join (blobName layer.digest))) c w = (there, w) := ⟨_, rfl⟩
  rw [hthere]
  dsimp only
  split
  · -- the file is there
    refine ⟨⟨hself, none_returned⟩, hself, fun _ _ hd => ?_⟩
    have hex : w.ExistsAt (dir.join (blobName layer.digest)).key := by
      cases c with
      | fault msg done => exact absurd (Prod.mk.inj hthere).1 (by rintro ⟨⟩)
      | _ => exact of_decide_eq_true (Except.ok.inj (Prod.mk.inj hthere).1)
    rw [key_blobPath hd] at hex
    obtain ⟨b, hb, -⟩ := hs.digest hd hex
    rw [hb]
    exact (by rintro ⟨⟩)
  · have haside : Aside dir (partialPath (dir.join (blobName layer.digest))).key :=
      aside_partialPath dir _
    refine Always.tryBind ((pullBlobTo_elsewhere r layer.digest haside _ w).mono
      fun tr' w' res h => ?_)
    have hw := h.1.filled hs
    refine ⟨⟨hw, none_returned⟩, fun _ _ => ⟨hw, none_ok⟩, fun _ hres => ?_⟩
    obtain ⟨body, hbody, hd⟩ := h.2 hres
    simp only [run_attempt_bind]
    refine ⟨⟨hw, none_returned⟩, fun c _ => ?_⟩
    rcases env_renameFile_cases x (partialPath (dir.join (blobName layer.digest)))
      (dir.join (blobName layer.digest)) c w' with ⟨e, heq⟩ | ⟨fs, heq, hr⟩ <;> rw [heq]
    · exact ⟨⟨hw, none_returned⟩, hw, none_ok⟩
    · rw [key_blobPath (isDigest_of_eq hd)] at hr
      obtain ⟨hfill, hread⟩ := filled_of_renamed hw.sound hd haside hbody hr
      refine ⟨⟨hw.trans hfill, none_returned⟩, hw.trans hfill, fun _ _ _ => ?_⟩
      rw [World.withFs_fs, hread]
      exact (by rintro ⟨⟩)

/-- Layers that were pulled have their files, if their digests have the right form. -/
lemma pullEach_filled (r : Reference) (layers : List LayerRef) (hs : SoundDir x dir w) (tr : List Ev) :
    Always (env x) ok (fun _ w' res => Filled x dir w w' ∧ ∀ paths, res = some (.ok paths) →
      ∀ layer ∈ layers, IsDigest layer.digest →
        w'.fs.read (dir.key ++ [blobName layer.digest]) ≠ none)
      (pullEach x.sha256 cl r dir layers).run tr w := by
  induction layers generalizing w tr with
  | nil =>
    have hself := Filled.refl hs
    exact ⟨⟨hself, nofun⟩, hself, fun _ _ layer hl => absurd hl List.not_mem_nil⟩
  | cons layer layers ih =>
    refine Always.tryBind ((pullLayer_filled r layer hs tr).mono fun tr' w₁ res h => ?_)
    refine ⟨⟨h.1, nofun⟩, fun _ _ => ⟨h.1, nofun⟩, fun path hpath => ?_⟩
    refine Always.tryBind ((ih h.1.sound tr').mono fun tr'' w₂ res h' => ?_)
    have hw := h.1.trans h'.1
    refine ⟨⟨hw, nofun⟩, fun _ _ => ⟨hw, nofun⟩, fun paths hpaths => ⟨⟨hw, nofun⟩, hw, ?_⟩⟩
    rintro _ ⟨⟩ layer' hl hd
    rcases List.mem_cons.1 hl with rfl | hl
    · exact h'.1.kept _ (blobSuffix_suffix_blobName _) (h.2 path hpath hd)
    · exact h'.2 paths hpaths layer' hl hd

/-- The same for all layers of a seed. -/
lemma pullLayers_filled (seed : Text) (hs : SoundDir x dir w) (tr : List Ev) :
    Always (env x) ok (fun tr' w' res => Filled x dir w w' ∧
      ∀ paths, res = some (.ok paths) → ∃ served layers, Served seed served layers ∧
        servedManifests tr' = servedManifests tr ++ [served] ∧
        paths = layers.reverse.map (blobPath dir) ∧ ∀ layer ∈ layers, IsDigest layer.digest →
          w'.fs.read (dir.key ++ [blobName layer.digest]) ≠ none)
      (pullLayers x.sha256 cl seed dir).run tr w := by
  refine (pullLayers_rule (I := Filled x dir w) (Q := fun layers w' => ∀ layer ∈ layers,
    IsDigest layer.digest → w'.fs.read (dir.key ++ [blobName layer.digest]) ≠ none) seed dir
    (fun _ _ _ _ h => h) (fun c w' h => ?_) (fun r layers tr' w' h => ?_) tr (.refl hs)).mono
    fun tr' w' res h => ⟨h.1, fun paths hpaths => ?_⟩
  · have hdir := env_createDirAll_elsewhere (x := x) (fun name _ => not_prefix_self dir name) c w'
    exact h.trans (hdir.filled h.sound)
  · exact (pullEach_filled r layers h.sound tr').mono fun _ _ _ h' => ⟨h.trans h'.1, h'.2⟩
  · obtain ⟨served, layers, h₁, h₂, h₃, h₄⟩ := h.2.2 paths hpaths
    exact ⟨served, layers, h₁, h₂, h₃, fun layer hl => h₄ layer (List.mem_reverse.2 hl)⟩

end Requests

/-! ### Directories that pulls have filled -/

/-- What happens to a directory: a pull of a seed, which may fail or be dropped, or something
else. -/
inductive DirMove
  | pull (seed : Text) (choices : List Choice)
  | other (f : World → World)

/-- The world after it. -/
def afterDirMove (x : Ext) (cl : OciClient) (dir : PathBuf) (w : World) : DirMove → World
  | .pull seed choices => (run (env x) (pullLayers x.sha256 cl seed dir).run choices w).world
  | .other f => f w

/-- Only pulls concern the files of the directory that have the names of layers. -/
def OnlyPulls (dir : PathBuf) (w : World) : DirMove → Prop
  | .pull _ _ => True
  | .other f => Elsewhere dir w (f w)

/-- Pulls, and what happens elsewhere, keep the files of the directory verified. -/
lemma sound_afterDirMoves {w : World} (hs : SoundDir x dir w) {mvs : List DirMove}
    (hmvs : Along (afterDirMove x cl dir) (OnlyPulls dir) w mvs) :
    SoundDir x dir (mvs.foldl (afterDirMove x cl dir) w) := by
  refine Along.foldl (fun w m hw hm => ?_) hs hmvs
  cases m with
  | pull seed choices =>
    have h := run_of_always ((@pullLayers_filled _ cl _ (fun _ => True)) seed hw []) choices
      fun _ _ => trivial
    exact h.1.sound
  | other f => exact Elsewhere.sound hm hw

namespace Sample

end Sample

/-- A file of the directory `p` with the name of a layer was there before, or it is in the
directory of the layers and its name says what is in it. -/
def CreatedIn (x : Ext) (dir p : PathBuf) (w w' : World) : Prop :=
  ∀ name b, blobSuffix <:+ name → w'.fs.read (p.key ++ [name]) = some b →
    w.fs.read (p.key ++ [name]) = some b ∨
      p.key = dir.key ∧ ∃ stem, name = stem ++ blobSuffix ∧
        Text.eqIgnoreAsciiCase stem (stemOf x b) = true

section Created

variable {p : PathBuf} {w w' w'' : World}

lemma CreatedIn.refl (x : Ext) (dir p : PathBuf) (w : World) : CreatedIn x dir p w w :=
  fun _ _ _ h => .inl h

lemma CreatedIn.trans (h : CreatedIn x dir p w w') (h' : CreatedIn x dir p w' w'') :
    CreatedIn x dir p w w'' := by
  intro name b hn hb
  rcases h' name b hn hb with hb | hv
  · exact h name b hn hb
  · exact .inr hv

end Created

end RspacefsCsi
