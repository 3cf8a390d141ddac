/-
# One consumer at a time

A data volume has a single consumer: one running `rspacefs-mount` on its upper directory
and its control socket, and one mount on a target.  Neither call looks at the mounts there
are, so this is up to the caller: it holds in every state of a run in which a volume is
published only while nothing is mounted for it and nothing is mounted at the target
(`single_consumer`).  A repeated publish stacks a second daemon on the same upper.
-/
import RspacefsCsi.Calls

namespace RspacefsCsi

open Lib Lib.Prog

namespace NodeService

variable {x : Ext} {cfg : Config}

/-- Two mounts that share nothing. -/
structure Apart (a b : MountSpec) : Prop where
  upper : a.upper.key ≠ b.upper.key
  socket : a.controlSocket.key ≠ b.controlSocket.key
  target : a.target.key ≠ b.target.key

instance (a b : MountSpec) : Decidable (Apart a b) :=
  decidable_of_iff (a.upper.key ≠ b.upper.key ∧ a.controlSocket.key ≠ b.controlSocket.key ∧
    a.target.key ≠ b.target.key) ⟨fun h => ⟨h.1, h.2.1, h.2.2⟩, fun h => ⟨h.1, h.2, h.3⟩⟩

/-- No two running mounts use the same upper, the same socket or the same target. -/
def Single (w : World) : Prop := w.mounts.Pairwise fun a b => Apart a.spec b.spec

instance (w : World) : Decidable (Single w) := by unfold Single; infer_instance

/-- A publish request that gets as far as the mount if nothing fails. -/
def WellFormed (req : PublishRequest) : Prop :=
  req.volumeId ≠ [] ∧ req.targetPath ≠ [] ∧ ∃ params, PvcParams.parse req.volumeContext = .ok params

/-- A publish finds its volume and its target free. -/
def Free (cfg : Config) (w : World) (mv : Move) : Prop :=
  match mv.call with
  | .publish req => WellFormed req → ∀ m ∈ w.mounts,
      (cfg.upperDir req.volumeId).key ≠ m.spec.upper.key ∧
      (cfg.controlSocket req.volumeId).key ≠ m.spec.controlSocket.key ∧
      PathBuf.key ⟨req.targetPath⟩ ≠ m.spec.target.key
  | .unpublish _ => True

/-- A call to a free volume keeps the mounts apart. -/
lemma single_after {w : World} {mv : Move} (hs : Single w) (hf : Free cfg w mv) :
    Single (after x (Call.prog cfg) w mv) := by
  obtain ⟨call, cs⟩ := mv
  cases call with
  | publish req =>
    have h := run_of_always (@publish_always x cfg req w) cs fun _ _ => trivial
    change Single (run (env x) (nodePublishVolume cfg req).run cs w).world
    rcases h with h | ⟨params, hid, ht, hp, h⟩
    · rw [Single, h.mounts]
      exact hs
    · obtain ⟨m, blobs, hm, -, hspec⟩ := h.mounts
      rw [Single, hm, List.pairwise_cons]
      refine ⟨fun m' hm' => ?_, hs⟩
      obtain ⟨h1, h2, h3⟩ := hf ⟨hid, ht, params, hp⟩ m' hm'
      exact hspec ▸ ⟨h1, h2, h3⟩
  | unpublish req =>
    have h := run_of_always (@unpublish_always x cfg req w) cs fun _ _ => trivial
    change Single (run (env x) (nodeUnpublishVolume cfg req).run cs w).world
    rcases h with (h | h) | ⟨h, -⟩
    · rw [Single, h.mounts]
      exact hs
    · rw [Single, h.1]
      exact hs
    · rw [Single, h.mounts]
      exact hs.sublist List.eraseP_sublist

/-- **In a run whose publishes find their volume and their target free, no two mounts share
an upper, a control socket or a target, in any state the run reaches.** -/
theorem single_consumer (x : Ext) (cfg : Config) {w₀ : World} (h₀ : Single w₀) {mvs : List Move}
    (h : Along (after x (Call.prog cfg)) (Free cfg) w₀ mvs) :
    Along (after x (Call.prog cfg)) (fun w mv => Single (after x (Call.prog cfg) w mv)) w₀ mvs := by
  refine Along.of_inv (P := Free cfg) (I := Single) ?_ ?_ h₀ h
  · exact fun w mv hs hf => single_after hs hf
  · exact fun w mv hs hf => single_after hs hf

lemma free_of_no_mounts {w : World} (h : w.mounts.length = 0) (mv : Move) : Free cfg w mv := by
  unfold Free
  split
  · intro _ m hm
    rw [List.length_eq_zero_iff.1 h] at hm
    exact absurd hm List.not_mem_nil
  · trivial

/-- A volume that moves from one pod to another, with the unpublish in between. -/
theorem single_consumer_handOff :
    Along (after Sample.ext (Call.prog Sample.config))
      (fun w mv => Single (after Sample.ext (Call.prog Sample.config) w mv)) World.blank
      [Sample.publish "/pods/a" ∅, Sample.unpublish "/pods/a", Sample.publish "/pods/b" ∅] :=
  single_consumer Sample.ext Sample.config (by decide)
    ⟨free_of_no_mounts (by decide) _, trivial, free_of_no_mounts (by decide +kernel) _, trivial⟩

/-- A publish that is repeated, and a publish for the next pod before the unpublish of the
last one, leave two mounts on one upper. -/
theorem not_single_consumer :
    ¬Single ([Sample.publish "/pods/a" ∅, Sample.publish "/pods/a" ∅].foldl
      (after Sample.ext (Call.prog Sample.config)) World.blank) ∧
    ¬Single ([Sample.publish "/pods/a" ∅, Sample.publish "/pods/b" ∅].foldl
      (after Sample.ext (Call.prog Sample.config)) World.blank) := by
  decide +kernel

end NodeService

end RspacefsCsi
