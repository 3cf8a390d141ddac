/-
# An unpublish that fails

`NodeUnpublishVolume` reads the publish context, freezes the upper if the context asks for
it, and then unmounts.  A context that it finds is one a publish has accepted before, whole,
because what is left of a write that broke off is not a document.  Up to the unmount only
the staging file of the volume is written, and behind the unmount nothing can fail any
more: a call that returns an error leaves the node as it was, and can be made again
(`unpublish_atomic`).
-/
import RspacefsCsi.Calls
import RspacefsCsi.Handoff

namespace RspacefsCsi

open Lib Lib.Prog

namespace NodeService

variable {x : Ext} {cfg : Config}

/-! ### The publish contexts there are -/

/-- Every publish context was accepted by a publish, or is what was written of one. -/
def Stored (cfg : Config) (w : World) : Prop :=
  ∀ volumeId b, w.fs.read (cfg.statePath volumeId).key = some b →
    ∃ ctx params, PvcParams.parse ctx = .ok params ∧ b <+: contextToVec ctx

/-- The requests that keep the publish contexts so. -/
def Stores (cfg : Config) : Op → Prop
  | .writeFile _ b => ∃ ctx params, PvcParams.parse ctx = .ok params ∧ b = contextToVec ctx
  | .capture _ p | .fileCreate p => ∀ volumeId, p.key ≠ (cfg.statePath volumeId).key
  | .renameFile _ _ | .fileWrite _ _ _ => False
  | _ => True

lemma stored_env {o : Op} (ho : Stores cfg o) (c : Choice) {w : World} (h : Stored cfg w) :
    Stored cfg (env x o c w).2 := by
  intro volumeId b hb
  by_cases ht : Touches (cfg.statePath volumeId).key o
  · cases o with
    | writeFile p b' =>
      obtain ⟨ctx, params, hparams, rfl⟩ := ho
      have hp : p.key = (cfg.statePath volumeId).key := ht
      rw [← hp] at hb
      rcases env_writeFile_read x p (contextToVec ctx) c w with hr | ⟨b', hpre, hr⟩ <;> rw [hr] at hb
      · exact h volumeId b (hp ▸ hb)
      · exact ⟨ctx, params, hparams, Option.some.inj hb ▸ hpre⟩
    | removeFile p =>
      have hp : p.key = (cfg.statePath volumeId).key := ht
      rcases env_removeFile_cases x p c w with ⟨e, hr⟩ | ⟨fs, hr, hrm⟩ <;> rw [hr] at hb
      · exact h volumeId b hb
      · rw [World.withFs_fs, ← hp, hrm.read_self] at hb
        exact absurd hb nofun
    | capture s p => exact absurd ht (ho volumeId)
    | fileCreate p => exact absurd ht (ho volumeId)
    | renameFile p q => exact absurd ho id
    | fileWrite ino off b' => exact absurd ho id
    | _ => exact absurd ht id
  · rw [env_read x c w ht] at hb
    exact h volumeId b hb

lemma publish_stores (req : PublishRequest) :
    Forall (Stores cfg) (nodePublishVolume cfg req).run := by
  unfold nodePublishVolume
  split
  · trivial
  split
  · trivial
  rw [run_require_bind]
  cases hp : PvcParams.parse req.volumeContext with
  | error e => trivial
  | ok params =>
    simp only [Except.mapError, ExceptT.run_bind]
    refine ((pullSeeds_forall _ _).mono ?_).bind fun res => ?_
    · rintro o ⟨seed, rfl⟩
      trivial
    cases res with
    | error e => trivial
    | ok blobs =>
      refine (attach_forall req params blobs).mono ?_
      rintro o (⟨p, -, rfl⟩ | rfl | rfl)
      · trivial
      · trivial
      · exact ⟨req.volumeContext, params, hp, rfl⟩

lemma staging_ne_statePath (cfg : Config) (v volumeId : Text) :
    (cfg.captureStaging v).key ≠ (cfg.statePath volumeId).key := by
  rw [Config.key_captureStaging, Config.key_statePath]
  intro h
  have := (List.append_inj' h rfl).2
  exact absurd this (by decide)

lemma unpublish_stores (req : UnpublishRequest) :
    Forall (Stores cfg) (nodeUnpublishVolume cfg req).run := by
  refine (unpublish_forall req).mono fun o ho => ?_
  cases ho with
  | freeze h =>
    cases h with
    | capture => exact staging_ne_statePath cfg req.volumeId
    | _ => trivial
  | _ => trivial

/-- A call keeps the publish contexts so. -/
lemma stored_after {w : World} (h : Stored cfg w) (mv : Move) :
    Stored cfg (after x (Call.prog cfg) w mv) := by
  obtain ⟨call, cs⟩ := mv
  have hforall : Forall (Stores cfg) (Call.prog cfg call) := by
    cases call with
    | publish req => exact publish_stores req
    | unpublish req => exact unpublish_stores req
  exact run_of_always ((@Always.of_forall _ _ _ _ _ _ anything) hforall
    (fun o c w ho _ hw => stored_env ho c hw) h []) cs fun _ _ => trivial

/-! ### What a freeze leaves alone -/

/-- The node is as it was, but for the staging file of the volume. -/
structure Untouched (cfg : Config) (volumeId : Text) (w w' : World) : Prop where
  mounts : w'.mounts = w.mounts
  nextMount : w'.nextMount = w.nextMount
  uppers : w'.uppers = w.uppers
  isDir : ∀ k, w'.fs.IsDir k ↔ w.fs.IsDir k
  lookup : ∀ k, k ≠ (cfg.captureStaging volumeId).key → w'.fs.lookup k = w.fs.lookup k
  read : ∀ k, k ≠ (cfg.captureStaging volumeId).key → w'.fs.read k = w.fs.read k
  state : w'.fs.read (cfg.statePath volumeId).key = w.fs.read (cfg.statePath volumeId).key

lemma Untouched.refl (cfg : Config) (volumeId : Text) (w : World) : Untouched cfg volumeId w w :=
  ⟨rfl, rfl, rfl, fun _ => Iff.rfl, fun _ _ => rfl, fun _ _ => rfl, rfl⟩

lemma Untouched.trans {volumeId : Text} {w w' w'' : World} (h : Untouched cfg volumeId w w')
    (h' : Untouched cfg volumeId w' w'') : Untouched cfg volumeId w w'' where
  mounts := h'.mounts.trans h.mounts
  nextMount := h'.nextMount.trans h.nextMount
  uppers := h'.uppers.trans h.uppers
  isDir k := (h'.isDir k).trans (h.isDir k)
  lookup k hk := (h'.lookup k hk).trans (h.lookup k hk)
  read k hk := (h'.read k hk).trans (h.read k hk)
  state := h'.state.trans h.state

/-- Only the staging file has changed. -/
lemma Untouched.withFs {volumeId : Text} {w : World} {fs : Fs}
    (hdir : ∀ k, fs.IsDir k ↔ w.fs.IsDir k)
    (hlookup : ∀ k, k ≠ (cfg.captureStaging volumeId).key → fs.lookup k = w.fs.lookup k)
    (hread : ∀ k, k ≠ (cfg.captureStaging volumeId).key → fs.read k = w.fs.read k) :
    Untouched cfg volumeId w (w.withFs fs) :=
  ⟨rfl, rfl, rfl, hdir, hlookup, hread, hread _ (staging_ne_statePath cfg volumeId volumeId).symm⟩

lemma untouched_env {volumeId : Text} {o : Op} (ho : Captures cfg volumeId o) (c : Choice)
    {w : World} (hdir : w.fs.IsDir (cfg.volumeDir volumeId).key) :
    Untouched cfg volumeId w (env x o c w).2 := by
  cases ho with
  | stage =>
    rw [env_createDirAll_of_isDir x c (by rwa [Config.key_parent_captureStaging])]
    exact .refl _ _ _
  | capture =>
    have hs := step x (.capture (cfg.controlSocket volumeId) (cfg.captureStaging volumeId)) c w
    generalize (env x (.capture (cfg.controlSocket volumeId) (cfg.captureStaging volumeId)) c w).2
      = w' at hs
    cases hs with
    | files hf =>
      cases hf with
      | same => exact .refl _ _ _
      | captured hw => exact .withFs hw.isDir hw.lookup_ne hw.read_ne
  | push targetRef digest size => exact .refl _ _ _
  | unstage =>
    have hs := step x (.removeFile (cfg.captureStaging volumeId)) c w
    generalize (env x (.removeFile (cfg.captureStaging volumeId)) c w).2 = w' at hs
    cases hs with
    | files hf =>
      cases hf with
      | same => exact .refl _ _ _
      | unlinked hr hf =>
        exact .withFs (hr.isDir hf) hr.lookup_ne fun k hk => hr.read_ne hk

/-- Whatever becomes of the freeze, the node is as it was. -/
lemma captureIfAsked_untouched {volumeId : Text} {state : Option StrMap} {w : World}
    (hdir : w.fs.IsDir (cfg.volumeDir volumeId).key) (tr : List Ev) :
    Always (env x) anything (fun _ w' _ => Untouched cfg volumeId w w')
      (captureIfAsked cfg volumeId state).run tr w :=
  Always.of_forall (captureIfAsked_forall volumeId state)
    (fun _ c _ ho _ hw => hw.trans (untouched_env ho c ((hw.isDir _).2 hdir))) (.refl _ _ _) tr

/-! ### What an unpublish does, in this order -/

/-- Every unmount comes after a push that succeeded. -/
def UnmountsAfterPush (tr : List Ev) : Prop :=
  ∀ tr₁ target r tr₂, tr = tr₁ ++ (⟨.unmount target, r⟩ : Ev) :: tr₂ →
    ∃ targetRef staging digest size id,
      (⟨.pushRevision targetRef staging digest size, .ok id⟩ : Ev) ∈ tr₁

/-- The publish context that was found. -/
def Found (cfg : Config) (volumeId : Text) (tr : List Ev) (ctx : StrMap) : Prop :=
  ∃ b, (⟨.readFile (cfg.statePath volumeId), .ok b⟩ : Ev) ∈ tr ∧ contextOfSlice b = some ctx

lemma unmountsAfterPush_of_none {tr : List Ev} (h : ∀ e ∈ tr, ∀ target, e.op ≠ .unmount target) :
    UnmountsAfterPush tr := by
  rintro tr₁ target r tr₂ rfl
  exact absurd rfl (h ⟨.unmount target, r⟩ (by simp) target)

/-- A push that succeeded comes before what follows. -/
lemma unmountsAfterPush_append {tr : List Ev} (h : ∀ e ∈ tr, ∀ target, e.op ≠ .unmount target)
    {targetRef : Text} {staging : PathBuf} {digest : Text} {size : ℕ} {id : Text}
    (hpush : (⟨.pushRevision targetRef staging digest size, .ok id⟩ : Ev) ∈ tr) (t : List Ev) :
    UnmountsAfterPush (tr ++ t) := by
  intro tr₁ target r tr₂ heq
  rcases List.append_eq_append_iff.1 heq with ⟨a, rfl, -⟩ | ⟨a, rfl, ha⟩
  · exact ⟨_, _, _, _, _, List.mem_append_left a hpush⟩
  · cases a with
    | nil =>
      rw [List.append_nil] at hpush
      exact ⟨_, _, _, _, _, hpush⟩
    | cons e a =>
      obtain ⟨rfl, -⟩ := List.cons.inj ha
      exact absurd rfl (h ⟨.unmount target, r⟩ (by simp) target)

/-- An unmount that fails changes nothing, and behind it nothing fails. -/
lemma detach_error (req : UnpublishRequest) (tr : List Ev) (w : World) :
    Always (env x) anything (fun _ w' res => ∀ e, res = some (.error e) → w' = w)
      (detach cfg req).run tr w := by
  simp only [detach, run_attempt_bind, run_request_bind]
  refine ⟨none_returned, fun c _ => ?_⟩
  rcases env_unmount_cases x ⟨req.targetPath⟩ c w with ⟨e, h⟩ | ⟨h, -⟩ | ⟨h, -⟩ <;> rw [h]
  · exact ⟨none_returned, fun _ _ => rfl⟩
  · exact ⟨none_returned, fun c _ => ⟨none_returned, fun c _ => ⟨none_returned, by rintro _ ⟨⟩⟩⟩⟩
  · exact ⟨none_returned, fun c _ => ⟨none_returned, fun c _ => ⟨none_returned, by rintro _ ⟨⟩⟩⟩⟩

/-- What follows the reading of the publish context. -/
lemma capture_then_detach {req : UnpublishRequest} {state : Option StrMap} {w : World}
    (hdir : w.fs.IsDir (cfg.volumeDir req.volumeId).key) {tr : List Ev}
    (htr : ∀ e ∈ tr, ∀ target, e.op ≠ .unmount target) :
    Always (env x) anything (fun tr' w' res =>
      (∀ ctx, state = some ctx → AsksCapture ctx → UnmountsAfterPush tr') ∧
        ∀ e, res = some (.error e) → Untouched cfg req.volumeId w w')
      (captureIfAsked cfg req.volumeId state >>= fun _ => detach cfg req).run tr w := by
  refine Always.tryBind (((captureIfAsked_always req.volumeId state tr w).and
    ((captureIfAsked_untouched hdir tr).and
      (Always.trace_of_forall (captureIfAsked_forall req.volumeId state) tr w))).mono ?_)
  rintro tr₁ w₁ res ⟨⟨-, hcap⟩, hw₁, t, rfl, ht⟩
  have hnone : ∀ e ∈ tr ++ t, ∀ target, e.op ≠ .unmount target := by
    intro e he target htarget
    rcases List.mem_append.1 he with he | he
    · exact htr e he target htarget
    · have := ht e he
      rw [htarget] at this
      cases this
  have hno := unmountsAfterPush_of_none hnone
  refine ⟨⟨fun _ _ _ => hno, nofun⟩, fun e _ => ⟨fun _ _ _ => hno, fun _ _ => hw₁⟩, fun u hres => ?_⟩
  refine ((detach_error req (tr ++ t) w₁).extends).mono ?_
  rintro tr₂ w₂ res₂ ⟨⟨t', rfl⟩, herr⟩
  refine ⟨fun ctx hctx hasks => ?_, fun e he => herr e he ▸ hw₁⟩
  obtain ⟨t'', ht'', m, cap, targetRef, id, a, b, rfl, -, -⟩ := hcap hres ctx hctx hasks
  have hpush : (⟨.pushRevision targetRef (cfg.captureStaging req.volumeId) cap.digest
      cap.bytesCompressed, .ok id⟩ : Ev) ∈ tr ++ t := by
    rw [ht'']
    exact List.mem_append_right _ (by simp)
  exact unmountsAfterPush_append hnone hpush t'

/-- What an unpublish that finds a publish context does. -/
lemma unpublish_found (req : UnpublishRequest) (w : World) :
    Always (env x) anything (fun tr w' res => ∀ ctx, Found cfg req.volumeId tr ctx →
      (∃ b, w.fs.read (cfg.statePath req.volumeId).key = some b ∧ contextOfSlice b = some ctx) ∧
        (AsksCapture ctx → UnmountsAfterPush tr) ∧
        ∀ e, res = some (.error e) → Untouched cfg req.volumeId w w')
      (nodeUnpublishVolume cfg req).run [] w := by
  have hnil : ∀ ctx, ¬Found cfg req.volumeId [] ctx := by
    rintro ctx ⟨b, hb, -⟩
    exact absurd hb List.not_mem_nil
  unfold nodeUnpublishVolume
  by_cases hid : req.volumeId = []
  · rw [if_pos hid]
    exact ⟨fun ctx h => absurd h (hnil ctx), fun ctx h => absurd h (hnil ctx)⟩
  by_cases ht : req.targetPath = []
  · rw [if_neg hid, if_pos ht]
    exact ⟨fun ctx h => absurd h (hnil ctx), fun ctx h => absurd h (hnil ctx)⟩
  rw [if_neg hid, if_neg ht]
  change Always _ _ _ (Prog.call (Op.readFile (cfg.statePath req.volumeId)) _) _ _
  refine ⟨fun ctx h => absurd h (hnil ctx), fun c _ => ?_⟩
  -- the context is read once
  have hrest : ∀ state, Forall (fun o => ∀ p, o ≠ .readFile p)
      (captureIfAsked cfg req.volumeId state >>= fun _ => detach cfg req).run := by
    intro state
    rw [ExceptT.run_bind]
    refine ((captureIfAsked_forall req.volumeId state).mono ?_).bind fun res => ?_
    · rintro o ho p rfl
      cases ho
    cases res with
    | error e => trivial
    | ok u =>
      simp only [detach, run_attempt_bind, run_request_bind, forall_call]
      refine ⟨nofun, fun res => ?_⟩
      cases res with
      | error e => trivial
      | ok u => exact ⟨nofun, fun _ => ⟨nofun, fun _ => trivial⟩⟩
  have honce : ∀ (r : Except IoError Bytes) (t : List Ev), (∀ e ∈ t, ∀ p, e.op ≠ .readFile p) →
      ∀ ctx, Found cfg req.volumeId ([] ++ [⟨.readFile (cfg.statePath req.volumeId), r⟩] ++ t) ctx →
        ∃ b, r = .ok b ∧ contextOfSlice b = some ctx := by
    rintro r t ht ctx ⟨b, hb, hctx⟩
    rcases List.mem_append.1 hb with hb | hb
    · rw [List.nil_append, List.mem_singleton, Event.mk.injEq] at hb
      exact ⟨b, (eq_of_heq hb.2).symm, hctx⟩
    · exact absurd rfl (ht _ hb (cfg.statePath req.volumeId))
  rcases env_readFile_cases x (cfg.statePath req.volumeId) c w with ⟨e, h⟩ | ⟨b, h, hb⟩ <;> rw [h]
  · refine (Always.trace_of_forall (hrest none) _ w).mono ?_
    rintro _ w' res ⟨t, rfl, ht⟩ ctx hfound
    obtain ⟨b, hb, -⟩ := honce (.error e) t ht ctx hfound
    exact absurd hb nofun
  · have hdir : w.fs.IsDir (cfg.volumeDir req.volumeId).key := by
      obtain ⟨i, hi, -⟩ := Fs.read_eq_some_iff.1 hb
      have := Fs.isDir_dropLast_of_lookup hi
      rwa [Config.key_statePath, List.dropLast_concat] at this
    refine ((Always.trace_of_forall (hrest (contextOfSlice b)) _ w).and
      (capture_then_detach hdir ?_)).mono ?_
    · intro e he target
      rw [List.nil_append, List.mem_singleton] at he
      rw [he]
      exact nofun
    · rintro _ w' res ⟨⟨t, rfl, ht⟩, hasks, herr⟩ ctx hfound
      obtain ⟨b', hb', hctx⟩ := honce (.ok b) t ht ctx hfound
      obtain rfl := Except.ok.inj hb'
      exact ⟨⟨b, hb, hctx⟩, hasks ctx hctx, herr⟩

/-! ### Runs -/

/-- What happens on a node: a call, or something else. -/
inductive Turn
  | call (mv : Move)
  | other (f : World → World)

/-- The world after it. -/
def afterTurn (x : Ext) (cfg : Config) (w : World) : Turn → World
  | .call mv => after x (Call.prog cfg) w mv
  | .other f => f w

/-- Only calls concern the publish contexts. -/
def LeavesContexts (cfg : Config) (w : World) : Turn → Prop
  | .call _ => True
  | .other f => ∀ volumeId,
      (f w).fs.read (cfg.statePath volumeId).key = w.fs.read (cfg.statePath volumeId).key

/-- The outcome of an unpublish. -/
def unpublishRun (x : Ext) (cfg : Config) (req : UnpublishRequest) (cs : List Choice) (w : World) :
    Outcome Op Resp World (Except Status Unit) :=
  run (env x) (nodeUnpublishVolume cfg req).run cs w

/-- **An unpublish that finds a publish context can parse it, unmounts only after a push that
succeeded if the context asks for a capture, and leaves the mounts, the directories, the
uppers and the publish context as they were if it returns an error.** -/
theorem unpublish_atomic (x : Ext) (cfg : Config) {w₀ : World}
    (h₀ : ∀ volumeId, w₀.fs.read (cfg.statePath volumeId).key = none) {turns : List Turn}
    (h : Along (afterTurn x cfg) (LeavesContexts cfg) w₀ turns) :
    Along (afterTurn x cfg) (fun w t => ∀ req cs, t = .call ⟨.unpublish req, cs⟩ →
      ∀ ctx, Found cfg req.volumeId (unpublishRun x cfg req cs w).trace ctx →
        ∃ params, PvcParams.parse ctx = .ok params ∧
          (params.captureOnDelete = true → UnmountsAfterPush (unpublishRun x cfg req cs w).trace) ∧
          ∀ e, (unpublishRun x cfg req cs w).result = some (.error e) →
            Untouched cfg req.volumeId w (unpublishRun x cfg req cs w).world) w₀ turns := by
  refine Along.of_inv (P := LeavesContexts cfg) (I := Stored cfg) ?_ ?_ ?_ h
  · rintro w _ hstored - req cs rfl ctx hfound
    have hrun := run_of_always (@unpublish_found x cfg req w) cs fun _ _ => trivial
    obtain ⟨⟨b, hb, hctx⟩, hpush, herr⟩ := hrun ctx hfound
    -- what was found is what a publish has accepted
    obtain ⟨ctx', params, hparams, hpre⟩ := hstored _ b hb
    obtain rfl := eq_contextToVec_of_prefix hpre hctx
    exact ⟨params, hparams, fun hc => hpush ⟨params, hparams, hc⟩, herr⟩
  · intro w t hstored ht
    cases t with
    | call mv => exact stored_after hstored mv
    | other f => exact fun volumeId b hb => hstored volumeId b (ht volumeId ▸ hb)
  · intro volumeId b hb
    exact absurd ((h₀ volumeId).symm.trans hb) nofun

/-- An unpublish that can read the publish context has found it. -/
lemma found_of_read {req : UnpublishRequest} (hid : req.volumeId ≠ []) (ht : req.targetPath ≠ [])
    {w : World} {ctx : StrMap}
    (h : w.fs.read (cfg.statePath req.volumeId).key = some (contextToVec ctx)) (cs : List Choice) :
    Found cfg req.volumeId (unpublishRun x cfg req (.go :: cs) w).trace ctx := by
  refine ⟨contextToVec ctx, ?_, contextOfSlice_contextToVec ctx⟩
  have hread : env x (.readFile (cfg.statePath req.volumeId)) .go w = (.ok (contextToVec ctx), w) := by
    simp only [env, World.readFile, h]
  unfold unpublishRun nodeUnpublishVolume
  rw [if_neg hid, if_neg ht]
  change (⟨.readFile (cfg.statePath req.volumeId), .ok (contextToVec ctx)⟩ : Ev) ∈
    (⟨.readFile (cfg.statePath req.volumeId), (env x _ .go w).1⟩ : Ev) :: _
  rw [hread]
  exact List.mem_cons_self

/-- An unpublish whose unmount fails after the capture. -/
def stuckUnpublish : Move :=
  ⟨.unpublish ⟨Sample.volumeId, "/pods/a".toList⟩,
    [.go, .go, .go, .go, .go, .fault "busy".toList none, .go]⟩

/-- The volume is captured, stays mounted, and the unpublish can be made again. -/
theorem unpublish_atomic_busy :
    let w := after Sample.ext (Call.prog Sample.config) World.blank
      (Sample.publish "/pods/a" Sample.captureContext)
    let out := unpublishRun Sample.ext Sample.config ⟨Sample.volumeId, "/pods/a".toList⟩
      stuckUnpublish.choices w
    out.result = some (.error ⟨.internal, .unmount (.unmountFailed "/pods/a".toList)⟩) ∧
      UnmountsAfterPush out.trace ∧ Untouched Sample.config Sample.volumeId w out.world := by
  intro w out
  have hfacts : w.fs.read (Sample.config.statePath Sample.volumeId).key
        = some (contextToVec Sample.captureContext) ∧
      out.result = some (.error ⟨.internal, .unmount (.unmountFailed "/pods/a".toList)⟩) ∧
      PvcParams.parse Sample.captureContext
        = .ok ⟨[], none, none, none, true, some "qregistry.local/pvcs/one".toList⟩ := by
    decide +kernel
  obtain ⟨hread, hres, hparse⟩ := hfacts
  have hrun := @unpublish_atomic Sample.ext Sample.config World.blank (fun _ => rfl)
    [.call (Sample.publish "/pods/a" Sample.captureContext), .call stuckUnpublish]
    ⟨trivial, trivial, trivial⟩
  obtain ⟨params, hparams, hpush, herr⟩ := hrun.2.1 _ _ rfl Sample.captureContext
    (found_of_read (by decide) (by decide) hread _)
  obtain rfl := Except.ok.inj (hparse.symm.trans hparams)
  exact ⟨hres, hpush rfl, herr _ hres⟩

end NodeService

end RspacefsCsi
