/-
# Freezes of one volume side by side

The staging file of a freeze is named after the volume, so the freezes of one volume share it.
Each of them reads it back after its capture and removes it at its end, and nothing keeps
another one out in between.  A freeze whose staging file is gone, or holds what another one
has captured, fails although the daemon and the registry do their work (`freeze_fails_other`).
As long as no freeze removes the file, or captures something else into it, while another one
has captured and not read it back, all of them succeed (`freezes_succeed`).
-/
import RspacefsCsi.Push

namespace RspacefsCsi

open Lib Lib.Prog

variable {x : Ext} {cl : OciClient} {cfg : Config} {volumeId : Text}

/-! ### A freeze whose requests succeed -/

/-- How far a freeze has got. -/
inductive Phase
  | opened
  | staged
  /-- It has captured `b`, and reads it back next. -/
  | captured (b : Bytes)
  | pushing
  | ended
  /-- A request was not answered as it should be. -/
  | lost

/-- An upload that is right. -/
def Correct (x : Ext) : Op → Prop
  | .headBlob _ _ _ _ => True
  | .postUpload _ registry repository => legalRepo (registry, repository) = true
  | .putBlob _ registry repository digest b => World.accepts x (registry, repository) digest b
  | .putManifest _ r b => World.acceptsManifest x r b
  | _ => False

/-- The registry has accepted it. -/
def Accepted : (o : Op) → Resp o → Prop
  | .headBlob _ _ _ _, .ok _ => True
  | .postUpload _ _ _, .ok (code, location) => code = 202 ∧ location ≠ none
  | .putBlob _ _ _ _ _, .ok code => isSuccess code = true
  | .putManifest _ _ _, .ok (code, _) => isSuccess code = true
  | _, _ => False

/-- The requests of a freeze of the volume. -/
inductive Goes (x : Ext) (cfg : Config) (volumeId : Text) : Phase → (o : Op) → Resp o → Phase → Prop
  | stage {r : Except IoError Unit} :
      Goes x cfg volumeId .opened (.createDirAll (cfg.captureStaging volumeId).parent) r .staged
  | capture (b : Bytes) : Goes x cfg volumeId .staged
      (.capture (cfg.controlSocket volumeId) (cfg.captureStaging volumeId)) (.ok (report x b))
      (.captured b)
  | uncaptured {e : ControlError} : Goes x cfg volumeId .staged
      (.capture (cfg.controlSocket volumeId) (cfg.captureStaging volumeId)) (.error e) .lost
  | read {b : Bytes} :
      Goes x cfg volumeId (.captured b) (.readFile (cfg.captureStaging volumeId)) (.ok b) .pushing
  | misread {b : Bytes} {r : Except IoError Bytes} (h : r ≠ .ok b) :
      Goes x cfg volumeId (.captured b) (.readFile (cfg.captureStaging volumeId)) r .lost
  | push {o : Op} {r : Resp o} (h : Correct x o) (hr : Accepted o r) :
      Goes x cfg volumeId .pushing o r .pushing
  | refused {o : Op} {r : Resp o} (h : Correct x o) (hr : ¬Accepted o r) :
      Goes x cfg volumeId .pushing o r .lost
  | unstage {r : Except IoError Unit} :
      Goes x cfg volumeId .pushing (.removeFile (cfg.captureStaging volumeId)) r .ended
  | lost {o : Op} {r : Resp o} : Goes x cfg volumeId .lost o r .lost

/-- The protocol of a freeze of the volume. -/
def volumeProtocol (x : Ext) (cfg : Config) (volumeId : Text) : Protocol Op Resp Phase :=
  ⟨.opened, Reports x, Goes x cfg volumeId⟩

/-- A freeze ends with a revision, unless it was lost. -/
def EndsWell (ph : Phase) (r : Except FreezeError Text) : Prop :=
  ph = .lost ∨ ph = .ended ∧ ∃ id, r = .ok id

lemma conforms_lost {α : Type} {Q : Phase → α → Prop} (hQ : ∀ a, Q .lost a) (p : Prog Op Resp α) :
    Conforms (volumeProtocol x cfg volumeId) Q .lost p := by
  induction p with
  | ret a => exact hQ a
  | call o k ih => exact fun r _ => ⟨.lost, .lost, ih r⟩

/-- A request of a push: the answer decides. -/
lemma conforms_push {α : Type} {Q : Phase → α → Prop} (hQ : ∀ a, Q .lost a) {o : Op}
    (ho : Correct x o) {k : Resp o → Prog Op Resp α}
    (hk : ∀ r, Accepted o r → Conforms (volumeProtocol x cfg volumeId) Q .pushing (k r)) :
    Conforms (volumeProtocol x cfg volumeId) Q .pushing (.call o k) := by
  intro r _
  by_cases hr : Accepted o r
  · exact ⟨.pushing, .push ho hr, hk r hr⟩
  · exact ⟨.lost, .refused ho hr, conforms_lost hQ _⟩

/-- Pushing a blob under its digest to a legal repository. -/
lemma pushBlob_volume {repo : Repo} (hl : legalRepo repo = true) {digest : Text} {bytes : Bytes}
    (hd : digest = digestOf x.sha256 bytes) :
    Conforms (volumeProtocol x cfg volumeId) (fun ph r => ph = .lost ∨ ph = .pushing ∧ r = .ok ())
      .pushing (cl.pushBlob repo.1 repo.2 digest bytes).run := by
  simp only [OciClient.pushBlob, OciClient.blobExists, run_attempt_bind]
  refine conforms_push (fun _ => .inl rfl) (by trivial) fun r hr => ?_
  cases r with
  | error e => exact absurd hr id
  | ok code =>
    dsimp only
    split
    · exact .inr ⟨rfl, rfl⟩
    · simp only [run_attempt_bind]
      refine conforms_push (fun _ => .inl rfl) (by exact hl) fun r hr => ?_
      cases r with
      | error e => exact absurd hr id
      | ok p =>
        obtain ⟨code, location⟩ := p
        obtain ⟨rfl, hloc⟩ := hr
        obtain ⟨location, rfl⟩ := Option.ne_none_iff_exists'.1 hloc
        simp only [OciClient.uploadLocation, ne_eq, not_true_eq_false, if_false, run_attempt]
        refine conforms_push (fun _ => .inl rfl) (by exact ⟨hl, hd⟩) fun r hr => ?_
        cases r with
        | error e => exact absurd hr id
        | ok code =>
          have hs : isSuccess code = true := hr
          exact .inr ⟨rfl, by simp [OciClient.checkStatus, hs]⟩

/-- A reference that a revision can be pushed to. -/
def ValidTarget (targetRef : Text) : Prop :=
  match Reference.parse targetRef with
  | .ok r => legalRepo (r.registry, r.repository) = true ∧ legalTag r.reference = true
  | .error _ => False

instance (targetRef : Text) : Decidable (ValidTarget targetRef) := by
  unfold ValidTarget
  split <;> infer_instance

lemma exists_of_validTarget {targetRef : Text} (h : ValidTarget targetRef) :
    ∃ r, Reference.parse targetRef = .ok r ∧ legalRepo (r.registry, r.repository) = true ∧
      ∀ b, World.acceptsManifest x r b := by
  unfold ValidTarget at h
  split at h
  · rename_i r hr
    exact ⟨r, hr, h.1, fun b => ⟨h.1, .inl h.2⟩⟩
  · exact absurd h id

/-- Pushing what was captured, from the read of the staging file on. -/
lemma pushRevision_volume (hempty : digestOf x.sha256 EMPTY_CONFIG_BYTES = EMPTY_CONFIG_DIGEST)
    {targetRef : Text} (ht : ValidTarget targetRef) (b : Bytes) :
    Conforms (volumeProtocol x cfg volumeId)
      (fun ph r => ph = .lost ∨ ph = .pushing ∧ ∃ id, r = .ok id) (.captured b)
      (OciClient.pushRevision x.sha256 cl targetRef (cfg.captureStaging volumeId) (report x b).digest
        (report x b).bytesCompressed).run := by
  obtain ⟨r, hr, hl, ha⟩ := exists_of_validTarget (x := x) ht
  simp only [OciClient.pushRevision, hr, run_require_bind, run_attempt_bind]
  intro res _
  by_cases hres : res = .ok b
  · subst hres
    refine ⟨.pushing, .read, ?_⟩
    simp only [OciClient.checkIo, Except.mapError, report, ne_eq, not_true_eq_false, if_false]
    refine Conforms.tryBind (((@pushBlob_volume _ cl _ _ (r.registry, r.repository)) hl
      rfl).mono fun ph res h => ?_)
    rcases h with rfl | ⟨rfl, rfl⟩
    · cases res with
      | error e => exact .inl rfl
      | ok u => exact conforms_lost (fun _ => .inl rfl) _
    refine Conforms.tryBind (((@pushBlob_volume _ cl _ _ (r.registry, r.repository)) hl
      hempty.symm).mono fun ph res h => ?_)
    rcases h with rfl | ⟨rfl, rfl⟩
    · cases res with
      | error e => exact .inl rfl
      | ok u => exact conforms_lost (fun _ => .inl rfl) _
    simp only [run_attempt_bind]
    refine conforms_push (fun _ => .inl rfl) (by exact ha _) fun res hres => ?_
    cases res with
    | error e => exact absurd hres id
    | ok p =>
      have hs : isSuccess p.1 = true := hres
      simp only [OciClient.checkReply, hs, if_true]
      exact .inr ⟨rfl, _, rfl⟩
  · exact ⟨.lost, .misread hres, conforms_lost (fun _ => .inl rfl) _⟩

/-- A freeze of the volume keeps to the protocol. -/
lemma freeze_volume (hempty : digestOf x.sha256 EMPTY_CONFIG_BYTES = EMPTY_CONFIG_DIGEST)
    {targetRef : Text} (ht : ValidTarget targetRef) :
    Conforms (volumeProtocol x cfg volumeId) EndsWell .opened
      ((volumeFreeze cfg volumeId targetRef).prog x cl) := by
  rw [freeze_prog]
  intro r _
  refine ⟨.staged, .stage, fun r hr => ?_⟩
  cases r with
  | error e => exact ⟨.lost, .uncaptured, .inl rfl⟩
  | ok cap =>
    obtain ⟨b, rfl⟩ := hr
    refine ⟨.captured b, .capture b, Conforms.bind ?_⟩
    refine (pushRevision_volume hempty ht b).mono fun ph res h => ?_
    rcases h with rfl | ⟨rfl, id, rfl⟩
    · cases res with
      | error e => exact .inl rfl
      | ok id => exact conforms_lost (fun _ => .inl rfl) _
    · exact fun r _ => ⟨.ended, .unstage, .inr ⟨rfl, id, rfl⟩⟩

/-! ### A freeze ends -/

lemma pushBlob_within (registry repository digest : Text) (bytes : Bytes) :
    Within 3 (cl.pushBlob registry repository digest bytes).run := by
  simp only [OciClient.pushBlob, OciClient.blobExists, run_attempt_bind]
  intro r
  dsimp only
  split
  · split
    · trivial
    · simp only [run_attempt_bind, run_attempt]
      intro r
      dsimp only
      split
      · exact fun _ => trivial
      · trivial
  · trivial

lemma pushRevision_within (targetRef : Text) (staging : PathBuf) (digest : Text) (size : ℕ) :
    Within 8 (OciClient.pushRevision x.sha256 cl targetRef staging digest size).run := by
  simp only [OciClient.pushRevision, run_require_bind]
  split
  · simp only [run_attempt_bind]
    intro r
    dsimp only
    split
    · split
      · trivial
      · rw [ExceptT.run_bind]
        refine Within.bind (m := 3) (n := 4) (pushBlob_within _ _ _ _) fun res => ?_
        split
        · rw [ExceptT.run_bind]
          refine Within.bind (m := 3) (n := 1) (pushBlob_within _ _ _ _) fun res => ?_
          split
          · simp only [run_attempt_bind]
            intro r
            dsimp only
            split <;> trivial
          · trivial
        · trivial
    · trivial
  · trivial

/-- A freeze makes at most eleven requests. -/
lemma freeze_within (f : FreezeCall) : Within 11 (f.prog x cl) := by
  rw [freeze_prog]
  intro r r
  cases r with
  | error e => trivial
  | ok cap =>
    refine Within.bind (m := 8) (n := 1) (pushRevision_within _ _ _ _) fun res => ?_
    cases res with
    | error e => trivial
    | ok id => exact fun _ => trivial

/-! ### Freezes that do not disturb each other -/

/-- The daemon of the volume can write out its upper. -/
def Serving (x : Ext) (cfg : Config) (volumeId : Text) (w : World) : Prop :=
  ∃ b, captureOf x (cfg.controlSocket volumeId) w = some b ∧ b.length < 2 ^ 64

/-- What is left of a freeze begins with the read of its staging file. -/
def Awaits (staging : PathBuf) : Option (Option (Prog Op Resp (Except FreezeError Text))) → Prop
  | some (some (.call (.readFile p) _)) => p = staging
  | _ => False

/-- What is left of a freeze begins with a request that takes what is staged away. -/
def Disturbs (x : Ext) (w : World) (staging : PathBuf) :
    Option (Option (Prog Op Resp (Except FreezeError Text))) → Prop
  | some (some (.call (.removeFile p) _)) => p = staging
  | some (some (.call (.capture socket p) _)) =>
      p = staging ∧ captureOf x socket w ≠ w.fs.read staging.key
  | _ => False

/-- The moves of freezes of the volume with valid targets, where the daemon and the registry do
their work: no freeze takes away what another one has captured and not read back.  Meanwhile
the volume may be written to, and whatever else happens leaves the files alone. -/
def Undisturbed (x : Ext) (cfg : Config) (volumeId : Text) (s : FreezeSys) :
    Sys.Move FreezeCall Choice World → Prop
  | .start f => ∃ targetRef, f = volumeFreeze cfg volumeId targetRef ∧ ValidTarget targetRef
  | .step t c => c = .go ∧ (Disturbs x s.world (cfg.captureStaging volumeId) s.threads[t]? →
      ∀ t', t' ≠ t → ¬Awaits (cfg.captureStaging volumeId) s.threads[t']?)
  | .drop _ => True
  | .other f => (f s.world).fs = s.world.fs ∧ Serving x cfg volumeId (f s.world)

/-- What holds while the freezes do not disturb each other. -/
structure Calm (x : Ext) (cfg : Config) (volumeId : Text) (s : FreezeSys) (ph : ℕ → Phase) :
    Prop where
  serving : Serving x cfg volumeId s.world
  stageable : Stageable cfg volumeId s.world
  staged : ∀ t, ph t ≠ .opened → s.world.fs.IsDir (cfg.volumeDir volumeId).key
  captured : ∀ t b p, s.threads[t]? = some (some p) → ph t = .captured b →
    s.world.fs.read (cfg.captureStaging volumeId).key = some b
  found : ∀ t, ph t ≠ .lost

/-- A freeze that has captured reads its staging file back next. -/
lemma awaits_of_captured {s : FreezeSys} {ph : ℕ → Phase}
    (hph : Sys.Phased (volumeProtocol x cfg volumeId) EndsWell s ph) {t : ℕ}
    {p : Prog Op Resp (Except FreezeError Text)} (ht : s.threads[t]? = some (some p)) {b : Bytes}
    (hb : ph t = .captured b) : Awaits (cfg.captureStaging volumeId) s.threads[t]? := by
  have hc := hph t p ht
  rw [hb] at hc
  rw [ht]
  cases p with
  | ret a =>
    rcases hc with h | ⟨h, -⟩
    · exact absurd h nofun
    · exact absurd h nofun
  | call o k =>
    obtain ⟨r, hr⟩ : ∃ r : Resp o, Reports x o r :=
      ⟨_, env_reports (x := x) o (.fault [] none) s.world⟩
    obtain ⟨ph', hn, -⟩ := hc r hr
    cases hn with
    | read => rfl
    | misread => rfl

/-- The requests of a freeze, but for the one that makes the directory. -/
def LeavesDirs : Op → Prop
  | .capture _ _ | .readFile _ | .removeFile _ | .headBlob _ _ _ _ | .postUpload _ _ _
  | .putBlob _ _ _ _ _ | .putManifest _ _ _ => True
  | _ => False

lemma leavesDirs_of_correct {o : Op} (h : Correct x o) : LeavesDirs o := by
  cases o <;> trivial

lemma env_isDir_iff {o : Op} (ho : LeavesDirs o) (c : Choice) (w : World) (k : Key) :
    (env x o c w).2.fs.IsDir k ↔ w.fs.IsDir k := by
  have hs := step x o c w
  generalize (env x o c w).2 = w' at hs
  cases hs with
  | files hf =>
    cases hf with
    | same => exact Iff.rfl
    | captured hw => exact hw.isDir k
    | unlinked hr hf => exact hr.isDir hf k
    | _ => exact absurd ho id
  | blob => exact Iff.rfl
  | manifest => exact Iff.rfl
  | _ => exact absurd ho id

/-- What a capture would write does not change unless mounts do. -/
lemma captureOf_env {o : Op} (ho : ¬ChangesMounts o) (c : Choice) (w : World) (socket : PathBuf) :
    captureOf x socket (env x o c w).2 = captureOf x socket w := by
  rw [captureOf, captureOf, World.daemon, World.daemon, (env_mounts x c w ho).1, env_uppers]

lemma serving_env {o : Op} (ho : ¬ChangesMounts o) (c : Choice) {w : World}
    (h : Serving x cfg volumeId w) : Serving x cfg volumeId (env x o c w).2 := by
  obtain ⟨b, hb, hlen⟩ := h
  exact ⟨b, (captureOf_env ho c w _).trans hb, hlen⟩

lemma stageable_of_isDir {w : World} (h : w.fs.IsDir (cfg.volumeDir volumeId).key)
    (h' : ¬w.fs.IsDir (cfg.captureStaging volumeId).key) : Stageable cfg volumeId w :=
  ⟨⟨_, Fs.mkdirs_of_isDir h⟩, h'⟩

/-- A capture into a directory that is there succeeds. -/
lemma capture_of_isDir {w : World} (hs : Serving x cfg volumeId w)
    (hstage : Stageable cfg volumeId w) (hdir : w.fs.IsDir (cfg.volumeDir volumeId).key) :
    ∃ b w', env x (.capture (cfg.controlSocket volumeId) (cfg.captureStaging volumeId)) .go w
        = (.ok (report x b), w') ∧
      captureOf x (cfg.controlSocket volumeId) w = some b ∧
      w'.fs.read (cfg.captureStaging volumeId).key = some b := by
  obtain ⟨b, hb, hlen⟩ := hs
  obtain ⟨w₁, w₂, hmk, hcap, hread⟩ := act_capture_ok hstage hb hlen
  have hsame : w₁ = w := by
    have hmk' : act x (.createDirAll (cfg.captureStaging volumeId).parent) w = (.ok (), w) := by
      simp only [act, env, World.createDirAll, Config.key_parent_captureStaging,
        Fs.mkdirs_of_isDir hdir]
      rfl
    exact (Prod.mk.inj (hmk.symm.trans hmk')).2
  subst hsame
  exact ⟨b, w₂, hcap, hb, hread⟩

/-- An upload that is right is accepted. -/
lemma accepted_of_correct {o : Op} (h : Correct x o) (w : World) : Accepted o (env x o .go w).1 := by
  cases o with
  | headBlob url registry repository digest => trivial
  | postUpload url registry repository =>
    have hl : legalRepo (registry, repository) = true := h
    simp only [env, World.postUpload, hl, if_true]
    exact ⟨rfl, by rintro ⟨⟩⟩
  | putBlob url registry repository digest b =>
    have ha : World.accepts x (registry, repository) digest b := h
    simp only [env, World.putBlob, if_pos ha]
    exact (rfl : isSuccess 201 = true)
  | putManifest url r b =>
    have ha : World.acceptsManifest x r b := h
    simp only [env, World.putManifest, if_pos ha]
    exact (rfl : isSuccess 201 = true)
  | _ => exact absurd h id

/-- What is to be shown for a request of the freeze `t`. -/
lemma Calm.next {s : FreezeSys} {ph : ℕ → Phase} (h : Calm x cfg volumeId s ph) {t : ℕ} {c : Choice}
    {o : Op} {k : Resp o → Prog Op Resp (Except FreezeError Text)}
    (ht : s.threads[t]? = some (some (.call o k))) {ph' : Phase}
    (hserving : Serving x cfg volumeId (env x o c s.world).2)
    (hstage : Stageable cfg volumeId (env x o c s.world).2)
    (hdir : s.world.fs.IsDir (cfg.volumeDir volumeId).key ∨ ph' ≠ .opened →
      (env x o c s.world).2.fs.IsDir (cfg.volumeDir volumeId).key)
    (hself : ∀ b, ph' = .captured b →
      (env x o c s.world).2.fs.read (cfg.captureStaging volumeId).key = some b)
    (hothers : ∀ t' b p, t' ≠ t → s.threads[t']? = some (some p) → ph t' = .captured b →
      (env x o c s.world).2.fs.read (cfg.captureStaging volumeId).key = some b)
    (hfound : ph' ≠ .lost) :
    Calm x cfg volumeId (s.next (env x) (FreezeCall.prog x cl) (.step t c))
      (Function.update ph t ph') := by
  simp only [Sys.next, ht]
  refine ⟨hserving, hstage, fun t' hne => ?_, fun t' b p ht' hb => ?_, fun t' => ?_⟩
  · by_cases heq : t' = t
    · subst heq
      rw [Function.update_self] at hne
      exact hdir (.inr hne)
    · rw [Function.update_of_ne heq] at hne
      exact hdir (.inl (h.staged t' hne))
  · by_cases heq : t' = t
    · subst heq
      rw [Function.update_self] at hb
      exact hself b hb
    · rw [Function.update_of_ne heq] at hb
      rw [List.getElem?_set_ne (Ne.symm heq)] at ht'
      exact hothers t' b p heq ht' hb
  · by_cases heq : t' = t
    · subst heq
      rwa [Function.update_self]
    · rw [Function.update_of_ne heq]
      exact h.found t'

/-- A request of a freeze keeps what holds. -/
lemma calm_step (hx : Function.Injective x.sha256) {s : FreezeSys} {ph : ℕ → Phase}
    (h : Calm x cfg volumeId s ph)
    (hph : Sys.Phased (volumeProtocol x cfg volumeId) EndsWell s ph) {t : ℕ} {c : Choice}
    (hm : Undisturbed x cfg volumeId s (.step t c)) {o : Op}
    {k : Resp o → Prog Op Resp (Except FreezeError Text)}
    (ht : s.threads[t]? = some (some (.call o k))) {ph' : Phase}
    (hn : Goes x cfg volumeId (ph t) o (env x o c s.world).1 ph') :
    Calm x cfg volumeId (s.next (env x) (FreezeCall.prog x cl) (.step t c))
      (Function.update ph t ph') := by
  obtain ⟨rfl, hm⟩ := hm
  rw [ht] at hm
  have hstaging := h.stageable.2
  have hdir : ph t ≠ .opened → s.world.fs.IsDir (cfg.volumeDir volumeId).key := h.staged t
  -- a request that leaves the directories alone
  have hkeep : LeavesDirs o → ph t ≠ .opened →
      (env x o .go s.world).2.fs.IsDir (cfg.volumeDir volumeId).key ∧
        Stageable cfg volumeId (env x o .go s.world).2 := by
    intro ho hne
    have h1 := (env_isDir_iff (x := x) ho .go s.world _).2 (hdir hne)
    exact ⟨h1, stageable_of_isDir h1 fun hd => hstaging ((env_isDir_iff ho .go s.world _).1 hd)⟩
  -- a request that leaves the staging file alone
  have hquiet : ¬Touches (cfg.captureStaging volumeId).key o → ∀ t' b p,
      s.threads[t']? = some (some p) → ph t' = .captured b →
      (env x o .go s.world).2.fs.read (cfg.captureStaging volumeId).key = some b := by
    intro ho t' b p ht' hb
    rw [env_read x .go s.world ho]
    exact h.captured t' b p ht' hb
  have hserve : ¬ChangesMounts o → Serving x cfg volumeId (env x o .go s.world).2 :=
    fun ho => serving_env ho .go h.serving
  generalize hr : (env x o .go s.world).1 = r at hn
  generalize hp : ph t = p at hn hdir hkeep
  cases hn with
  | stage =>
    rcases act_stage x cfg volumeId s.world with ⟨fs, hfs, hact⟩ | ⟨hnone, -⟩
    · have hisDir : (env x (.createDirAll (cfg.captureStaging volumeId).parent) .go
          s.world).2.fs.IsDir (cfg.volumeDir volumeId).key := by
        rw [show env x _ .go s.world = _ from hact]
        exact Fs.mkdirs_isDir hfs
      have hnot : ¬(env x (.createDirAll (cfg.captureStaging volumeId).parent) .go
          s.world).2.fs.IsDir (cfg.captureStaging volumeId).key := by
        rw [show env x _ .go s.world = _ from hact]
        exact fun hd => hstaging ((Fs.isDir_congr
          (Fs.mkdirs_lookup_ne hfs (staging_not_below cfg volumeId))).1 hd)
      exact h.next ht (hserve fun hc => hc) (stageable_of_isDir hisDir hnot)
        (fun _ => hisDir) (by rintro _ ⟨⟩) (fun t' b p _ => hquiet (fun hc => hc) t' b p) (by rintro ⟨⟩)
    · obtain ⟨fs, hfs⟩ := h.stageable.1
      exact absurd (hfs.symm.trans hnone) (by rintro ⟨⟩)
  | capture b =>
    obtain ⟨hd, hst⟩ := hkeep trivial (by rintro ⟨⟩)
    obtain ⟨b', w', hcap, hof, hread⟩ := capture_of_isDir h.serving h.stageable (hdir (by rintro ⟨⟩))
    rw [hcap] at hr
    obtain rfl : b' = b := digestOf_injective hx (congrArg CaptureData.digest (Except.ok.inj hr))
    refine h.next ht (hserve fun hc => hc) hst (fun _ => hd) ?_ ?_ (by rintro ⟨⟩)
    · rintro _ ⟨⟩
      rw [hcap]
      exact hread
    · intro t' b₀ p hne ht' hb₀
      rw [hcap, hread]
      -- it writes what is there already
      have hsame : captureOf x (cfg.controlSocket volumeId) s.world
          = s.world.fs.read (cfg.captureStaging volumeId).key := by
        by_contra hdiff
        exact hm ⟨rfl, hdiff⟩ t' hne (awaits_of_captured hph ht' hb₀)
      rw [← hof, hsame]
      exact h.captured t' b₀ p ht' hb₀
  | uncaptured =>
    obtain ⟨b', w', hcap, -, -⟩ := capture_of_isDir h.serving h.stageable (hdir (by rintro ⟨⟩))
    rw [hcap] at hr
    exact absurd hr (by rintro ⟨⟩)
  | read =>
    obtain ⟨hd, hst⟩ := hkeep trivial (by rintro ⟨⟩)
    exact h.next ht (hserve fun hc => hc) hst (fun _ => hd) (by rintro _ ⟨⟩)
      (fun t' b p _ => hquiet (fun hc => hc) t' b p) (by rintro ⟨⟩)
  | @misread b _ hne =>
    refine absurd ?_ hne
    have hread := h.captured t b _ ht hp
    rw [← hr]
    simp only [env, World.readFile, hread]
  | push ho =>
    obtain ⟨hd, hst⟩ := hkeep (leavesDirs_of_correct ho) (by rintro ⟨⟩)
    have hmounts : ¬ChangesMounts o := by
      cases o <;> first | exact fun hc => hc | exact absurd ho id
    have htouch : ¬Touches (cfg.captureStaging volumeId).key o := by
      cases o <;> first | exact fun hc => hc | exact absurd ho id
    exact h.next ht (hserve hmounts) hst (fun _ => hd) (by rintro _ ⟨⟩)
      (fun t' b p _ => hquiet htouch t' b p) (by rintro ⟨⟩)
  | refused ho hbad => exact absurd (hr ▸ accepted_of_correct ho s.world) hbad
  | unstage =>
    obtain ⟨hd, hst⟩ := hkeep trivial (by rintro ⟨⟩)
    refine h.next ht (hserve fun hc => hc) hst (fun _ => hd) (by rintro _ ⟨⟩) ?_ (by rintro ⟨⟩)
    intro t' b p hne ht' hb
    exact absurd (awaits_of_captured hph ht' hb) (hm rfl t' hne)
  | lost => exact absurd hp (h.found t)

/-- A freeze that is started has not got anywhere. -/
lemma calm_start {s : FreezeSys} {ph : ℕ → Phase} (h : Calm x cfg volumeId s ph) (f : FreezeCall) :
    Calm x cfg volumeId (s.next (env x) (FreezeCall.prog x cl) (.start f))
      (Function.update ph s.threads.length .opened) := by
  refine ⟨h.serving, h.stageable, fun t hne => ?_, fun t b p ht hb => ?_, fun t => ?_⟩
  · by_cases heq : t = s.threads.length
    · rw [heq, Function.update_self] at hne
      exact absurd rfl hne
    · rw [Function.update_of_ne heq] at hne
      exact h.staged t hne
  · by_cases heq : t = s.threads.length
    · rw [heq, Function.update_self] at hb
      exact absurd hb (by rintro ⟨⟩)
    · rw [Function.update_of_ne heq] at hb
      have hlen := (List.getElem?_eq_some_iff.1 ht).1
      simp only [Sys.next, List.length_append, List.length_singleton] at hlen
      rw [Sys.next, List.getElem?_append_left (by omega)] at ht
      exact h.captured t b p ht hb
  · by_cases heq : t = s.threads.length
    · rw [heq, Function.update_self]
      exact (by rintro ⟨⟩)
    · rw [Function.update_of_ne heq]
      exact h.found t

/-- A freeze that is dropped takes nothing away. -/
lemma calm_drop {s : FreezeSys} {ph : ℕ → Phase} (h : Calm x cfg volumeId s ph) (t : ℕ) :
    Calm x cfg volumeId (s.next (env x) (FreezeCall.prog x cl) (.drop t)) ph := by
  refine ⟨h.serving, h.stageable, h.staged, fun t' b p ht hb => ?_, h.found⟩
  simp only [Sys.next] at ht
  by_cases heq : t = t'
  · subst heq
    rw [List.getElem?_set_self'] at ht
    cases hs : s.threads[t]? <;> simp [hs] at ht
  · rw [List.getElem?_set_ne heq] at ht
    exact h.captured t' b p ht hb

lemma calm_other {s : FreezeSys} {ph : ℕ → Phase} (h : Calm x cfg volumeId s ph) {f : World → World}
    (hm : Undisturbed x cfg volumeId s (.other f)) :
    Calm x cfg volumeId (s.next (env x) (FreezeCall.prog x cl) (.other f)) ph := by
  obtain ⟨hfs, hserving⟩ := hm
  refine ⟨hserving, ?_, fun t hne => ?_, fun t b p ht hb => ?_, h.found⟩
  · rw [Stageable, Sys.next, hfs]
    exact h.stageable
  · rw [Sys.next, hfs]
    exact h.staged t hne
  · rw [Sys.next, hfs]
    exact h.captured t b p ht hb

/-- **Freezes of one volume do not fail each other**, in every interleaving in which none takes
away what another one has captured and not read back: each makes at most eleven requests, and
when it has no more to make it has returned a revision. -/
theorem freezes_succeed (x : Ext) (hx : Function.Injective x.sha256)
    (hempty : digestOf x.sha256 EMPTY_CONFIG_BYTES = EMPTY_CONFIG_DIGEST) (cl : OciClient)
    (cfg : Config) (volumeId : Text) {w₀ : World} (hserving : Serving x cfg volumeId w₀)
    (hstage : Stageable cfg volumeId w₀) {mvs : List (Sys.Move FreezeCall Choice World)}
    (h : Along (Sys.next (env x) (FreezeCall.prog x cl)) (Undisturbed x cfg volumeId)
      (Sys.init w₀) mvs) :
    let s := mvs.foldl (Sys.next (env x) (FreezeCall.prog x cl)) (Sys.init w₀)
    ∀ t p, s.threads[t]? = some (some p) →
      s.requests t ≤ 11 ∧ (s.Running t ∨ ∃ id, s.result t = some (.ok id)) := by
  intro s t p ht
  refine ⟨Sys.requests_le freeze_within w₀ mvs t, ?_⟩
  have hprog : ∀ (s : FreezeSys) f, Undisturbed x cfg volumeId s (.start f) →
      Conforms (volumeProtocol x cfg volumeId) EndsWell .opened (f.prog x cl) := by
    rintro s f ⟨targetRef, rfl, hvalid⟩
    exact freeze_volume hempty hvalid
  obtain ⟨ph, hcalm, hph⟩ := Sys.foldl_of_phased (J := Calm x cfg volumeId)
    (M := Undisturbed x cfg volumeId) (P := volumeProtocol x cfg volumeId) (Q := EndsWell) hprog
    (fun s ph f hcalm _ => calm_start hcalm f) (fun s ph t c o _ _ => env_reports o c s.world)
    (fun s ph t c o k ph' hcalm hph hm ht hn => calm_step hx hcalm hph hm ht hn)
    (fun s ph t hcalm _ => calm_drop hcalm t) (fun s ph f hcalm hm => calm_other hcalm hm)
    (fun _ => .opened) ⟨hserving, hstage, fun _ hne => absurd rfl hne, nofun, nofun⟩ h
  have hc := hph t p ht
  cases p with
  | call o k => exact .inl ⟨o, k, ht⟩
  | ret a =>
    rcases hc with hlost | ⟨-, id, rfl⟩
    · exact absurd hlost (hcalm.found t)
    · exact .inr ⟨id, by simp only [Sys.result, ht, s]⟩

/-! ### Two freezes of a volume -/

namespace Sample

/-- The volume is mounted, with one file in its upper. -/
def frozenWorld : World :=
  (World.blank.withUppers fun _ => note).startMount ext (NodeService.mountSpec config
    ⟨Sample.volumeId, "/pods/a".toList, ∅, false⟩ ⟨[], none, none, none, false, none⟩ [])

/-- The system of its freezes after some moves. -/
def freezesAfter (mvs : List (Sys.Move FreezeCall Choice World)) : FreezeSys :=
  mvs.foldl (Sys.next (env ext) (FreezeCall.prog ext ⟨"http".toList⟩)) (Sys.init frozenWorld)

/-- A freeze goes on. -/
def goesOn (t n : ℕ) : List (Sys.Move FreezeCall Choice World) := List.replicate n (.step t .go)

/-- Both freezes have captured, and the first one goes on to its end before the second one reads
its staging file back. -/
def clash : List (Sys.Move FreezeCall Choice World) :=
  [.start sampleFreeze, .start sampleFreeze] ++ goesOn 0 2 ++ goesOn 1 2 ++ goesOn 0 9 ++ goesOn 1 9

/-- Each of them reads its staging file back before the other one removes it. -/
def apart : List (Sys.Move FreezeCall Choice World) :=
  [.start sampleFreeze, .start sampleFreeze] ++ goesOn 0 3 ++ goesOn 1 3 ++ goesOn 0 8 ++ goesOn 1 4

instance (staging : PathBuf) (p : Option (Option (Prog Op Resp (Except FreezeError Text)))) :
    Decidable (Awaits staging p) := by
  unfold Awaits
  split <;> infer_instance

instance (w : World) (staging : PathBuf)
    (p : Option (Option (Prog Op Resp (Except FreezeError Text)))) :
    Decidable (Disturbs ext w staging p) := by
  unfold Disturbs
  split <;> infer_instance

/-- A freeze is started, or goes on and disturbs nobody. -/
def Checked (s : FreezeSys) : Sys.Move FreezeCall Choice World → Prop
  | .start f => f.controlSocket = sampleFreeze.controlSocket ∧ f.staging = sampleFreeze.staging ∧
      ValidTarget f.targetRef
  | .step t .go => Disturbs ext s.world sampleFreeze.staging s.threads[t]? →
      ∀ t' < s.threads.length, t' ≠ t → ¬Awaits sampleFreeze.staging s.threads[t']?
  | _ => False

instance (s : FreezeSys) (m : Sys.Move FreezeCall Choice World) : Decidable (Checked s m) := by
  unfold Checked
  split <;> infer_instance

lemma undisturbed_of_checked {s : FreezeSys} {m : Sys.Move FreezeCall Choice World}
    (h : Checked s m) : Undisturbed ext config Sample.volumeId s m := by
  cases m with
  | start f =>
    obtain ⟨socket, staging, targetRef⟩ := f
    obtain ⟨rfl, rfl, hvalid⟩ := h
    exact ⟨targetRef, rfl, hvalid⟩
  | step t c =>
    cases c with
    | go =>
      refine ⟨rfl, fun hd t' hne haw => ?_⟩
      by_cases hlt : t' < s.threads.length
      · exact h hd t' hlt hne haw
      · rw [List.getElem?_eq_none (by omega)] at haw
        exact haw
    | _ => exact absurd h id
  | drop t => exact absurd h id
  | other f => exact absurd h id

end Sample

open Sample in
/-- Both freezes return a revision. -/
theorem freezes_succeed_apart :
    (∃ id, (freezesAfter apart).result 0 = some (.ok id)) ∧
      ∃ id, (freezesAfter apart).result 1 = some (.ok id) := by
  have hfacts : Along (Sys.next (env ext) (FreezeCall.prog ext ⟨"http".toList⟩)) Checked
      (Sys.init frozenWorld) apart ∧ (freezesAfter apart).Quiet = true ∧
      (freezesAfter apart).threads.map Option.isSome = [true, true] ∧
      captureOf ext (config.controlSocket Sample.volumeId) frozenWorld = some (pack note) ∧
      (pack note).length < 2 ^ 64 ∧
      (frozenWorld.fs.mkdirs (config.volumeDir Sample.volumeId).key).isSome = true ∧
      ¬frozenWorld.fs.IsDir (config.captureStaging Sample.volumeId).key ∧
      digestOf ext.sha256 EMPTY_CONFIG_BYTES = EMPTY_CONFIG_DIGEST := by
    decide +kernel
  obtain ⟨hchecked, hquiet, hthreads, hcap, hlen, hdirs, hnot, hempty⟩ := hfacts
  have hall := freezes_succeed ext lawful.sha256_injective hempty ⟨"http".toList⟩ config
    Sample.volumeId ⟨_, hcap, hlen⟩ ⟨Option.isSome_iff_exists.1 hdirs, hnot⟩
    (hchecked.mono fun _ _ => undisturbed_of_checked)
  have hdone : ∀ t < 2, ∃ id, (freezesAfter apart).result t = some (.ok id) := by
    intro t ht
    have hsome : (freezesAfter apart).threads[t]?.map Option.isSome = some true := by
      rw [← List.getElem?_map, hthreads]
      interval_cases t <;> rfl
    obtain ⟨p, hp, hp'⟩ := Option.map_eq_some_iff.1 hsome
    obtain ⟨p, rfl⟩ := Option.isSome_iff_exists.1 hp'
    exact ((hall t p hp).2).resolve_left (Sys.not_running_of_quiet hquiet t)
  exact ⟨hdone 0 (by decide), hdone 1 (by decide)⟩

open Sample in
/-- The daemon and the registry do their work, the volume stays mounted and nobody writes to it;
the first freeze returns its revision and the second one fails, because its staging file is
gone. -/
theorem freeze_fails_other :
    ValidTarget sampleFreeze.targetRef ∧
      (captureOf ext sampleFreeze.controlSocket frozenWorld).isSome = true ∧
      (freezesAfter clash).Quiet = true ∧
      ((freezesAfter clash).result 0).map Except.isOk = some true ∧
      ((freezesAfter clash).result 1).map Except.isOk = some false := by
  decide +kernel

end RspacefsCsi
