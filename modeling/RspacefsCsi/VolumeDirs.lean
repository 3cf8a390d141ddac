/-
# The directories of volumes

The directory of a volume is its id joined to `<data_dir>/volumes`, and the driver keeps five
things in it under fixed names.  An id is not checked.  Read as a path it can go up, start
anew, or name something that belongs to another volume; two volumes are kept apart exactly
when their ids, so read, stay below `volumes`, differ, and neither leads into one of the five
of the other (`separate_iff`).  Ids that are single names are of this kind.
-/
import RspacefsCsi.Driver

namespace RspacefsCsi

open Lib

namespace Config

variable {cfg : Config} {v w : Text}

/-- The names of the driver in the directory of a volume. -/
def driverNames : List Text :=
  ["upper".toList, "lowers".toList, "control.sock".toList, "capture.tar.zst".toList,
    "publish.json".toList]

/-- The paths of the driver in the directory of a volume. -/
def volumePaths (cfg : Config) (volumeId : Text) : List PathBuf :=
  [cfg.upperDir volumeId, cfg.lowersDir volumeId, cfg.controlSocket volumeId,
    cfg.captureStaging volumeId, cfg.statePath volumeId]

/-- The directory of all volumes. -/
def volumesDir (cfg : Config) : PathBuf := cfg.dataDir.join "volumes".toList

/-- One path is the other, or lies in it. -/
def Overlap (k l : Key) : Prop := k <+: l ∨ l <+: k

/-- The directory of a volume lies properly in the directory of all volumes. -/
def Confined (cfg : Config) (volumeId : Text) : Prop :=
  cfg.volumesDir.key <+: (cfg.volumeDir volumeId).key ∧
    (cfg.volumeDir volumeId).key ≠ cfg.volumesDir.key

/-- Both volumes are confined, and no path of one is, contains or lies in one of the other. -/
def Separate (cfg : Config) (v w : Text) : Prop :=
  Confined cfg v ∧ Confined cfg w ∧
    ∀ p ∈ cfg.volumePaths v, ∀ q ∈ cfg.volumePaths w, ¬Overlap p.key q.key

/-! ### Ids read as paths -/

/-- An id read as a path from a directory. -/
def resolveId (base : Key) (id : Text) : Key :=
  if id.head? = some '/' then PathBuf.key ⟨id⟩ else (id.splitOn '/').foldl PathBuf.resolve base

lemma key_volumeDir (cfg : Config) (volumeId : Text) :
    (cfg.volumeDir volumeId).key = resolveId cfg.volumesDir.key volumeId := by
  unfold resolveId
  by_cases h : volumeId.head? = some '/'
  · rw [if_pos h, volumeDir, PathBuf.join, if_pos h]
  · rw [if_neg h, volumeDir, PathBuf.key_join h]
    rfl

/-- A single name denotes itself. -/
lemma resolveId_normal (base : Key) {id : Text} (h : PathBuf.Normal id) :
    resolveId base id = base ++ [id] := by
  have hslash : id.head? ≠ some '/' := fun hh => h.2.2.2 (List.mem_of_head? hh)
  have hone : id.splitOn '/' = [id] := List.splitOn_eq_singleton h.2.2.2
  rw [resolveId, if_neg hslash, hone, List.foldl_cons, List.foldl_nil, PathBuf.resolve_normal h]

/-- Two ids that stay below a directory, differ, and do not lead into what the driver keeps
for the other one. -/
def Diverge (base : Key) (v w : Text) : Prop :=
  ∃ a b : Key, resolveId base v = base ++ a ∧ resolveId base w = base ++ b ∧ a ≠ [] ∧ b ≠ [] ∧
    a ≠ b ∧ ∀ n ∈ driverNames, ¬a ++ [n] <+: b ∧ ¬b ++ [n] <+: a

lemma diverge_of_normal (base : Key) (hv : PathBuf.Normal v) (hw : PathBuf.Normal w) (h : v ≠ w) :
    Diverge base v w := by
  refine ⟨[v], [w], resolveId_normal base hv, resolveId_normal base hw, by simp, by simp,
    by simpa using h, fun n _ => ⟨fun hp => ?_, fun hp => ?_⟩⟩
  · have := hp.length_le
    simp at this
  · have := hp.length_le
    simp at this

/-! ### The paths -/

lemma mem_volumePaths {p : PathBuf} (h : p ∈ cfg.volumePaths v) :
    ∃ n ∈ driverNames, p.key = (cfg.volumeDir v).key ++ [n] := by
  simp only [volumePaths, List.mem_cons, List.not_mem_nil, or_false] at h
  rcases h with rfl | rfl | rfl | rfl | rfl
  · exact ⟨_, by decide, key_upperDir cfg v⟩
  · exact ⟨_, by decide, key_lowersDir cfg v⟩
  · exact ⟨_, by decide, key_controlSocket cfg v⟩
  · exact ⟨_, by decide, key_captureStaging cfg v⟩
  · exact ⟨_, by decide, key_statePath cfg v⟩

lemma exists_volumePath {n : Text} (h : n ∈ driverNames) :
    ∃ p ∈ cfg.volumePaths v, p.key = (cfg.volumeDir v).key ++ [n] := by
  simp only [driverNames, List.mem_cons, List.not_mem_nil, or_false] at h
  rcases h with rfl | rfl | rfl | rfl | rfl
  · exact ⟨_, by simp [volumePaths], key_upperDir cfg v⟩
  · exact ⟨_, by simp [volumePaths], key_lowersDir cfg v⟩
  · exact ⟨_, by simp [volumePaths], key_controlSocket cfg v⟩
  · exact ⟨_, by simp [volumePaths], key_captureStaging cfg v⟩
  · exact ⟨_, by simp [volumePaths], key_statePath cfg v⟩

lemma confined_iff : Confined cfg v ↔
    ∃ a : Key, resolveId cfg.volumesDir.key v = cfg.volumesDir.key ++ a ∧ a ≠ [] := by
  rw [Confined, key_volumeDir]
  constructor
  · rintro ⟨⟨a, ha⟩, hne⟩
    refine ⟨a, ha.symm, ?_⟩
    rintro rfl
    exact hne (ha.symm.trans (List.append_nil _))
  · rintro ⟨a, ha, hne⟩
    rw [ha]
    exact ⟨List.prefix_append _ _, fun h => hne (List.append_right_eq_self.1 h)⟩

/-- **Volumes are kept apart if and only if their ids diverge.** -/
theorem separate_iff (cfg : Config) (v w : Text) :
    Separate cfg v w ↔ Diverge cfg.volumesDir.key v w := by
  constructor
  · rintro ⟨hv, hw, hsep⟩
    obtain ⟨a, ha, hane⟩ := confined_iff.1 hv
    obtain ⟨b, hb, hbne⟩ := confined_iff.1 hw
    -- the paths with the names `n` and `m`
    have hpaths : ∀ n ∈ driverNames, ∀ m ∈ driverNames, ¬Overlap (a ++ [n]) (b ++ [m]) := by
      intro n hn m hm hov
      obtain ⟨p, hp, hpk⟩ := (@exists_volumePath cfg) (v := v) hn
      obtain ⟨q, hq, hqk⟩ := (@exists_volumePath cfg) (v := w) hm
      refine hsep p hp q hq ?_
      rw [hpk, hqk, key_volumeDir, key_volumeDir, ha, hb, List.append_assoc, List.append_assoc]
      exact hov.imp (List.prefix_append_right_inj _).2 (List.prefix_append_right_inj _).2
    refine ⟨a, b, ha, hb, hane, hbne, ?_, fun n hn => ⟨fun h => ?_, fun h => ?_⟩⟩
    · rintro rfl
      exact hpaths _ (List.mem_cons_self) _ (List.mem_cons_self) (.inl List.prefix_rfl)
    · exact hpaths n hn _ (List.mem_cons_self) (.inl (h.trans (List.prefix_append _ _)))
    · exact hpaths _ (List.mem_cons_self) n hn (.inr (h.trans (List.prefix_append _ _)))
  · rintro ⟨a, b, ha, hb, hane, hbne, hab, hnames⟩
    refine ⟨confined_iff.2 ⟨a, ha, hane⟩, confined_iff.2 ⟨b, hb, hbne⟩, fun p hp q hq hov => ?_⟩
    obtain ⟨n, hn, hpk⟩ := mem_volumePaths hp
    obtain ⟨m, hm, hqk⟩ := mem_volumePaths hq
    rw [Overlap, hpk, hqk, key_volumeDir, key_volumeDir, ha, hb, List.append_assoc,
      List.append_assoc, List.prefix_append_right_inj, List.prefix_append_right_inj,
      List.prefix_concat_iff, List.prefix_concat_iff] at hov
    rcases hov with (h | h) | (h | h)
    · exact hab (List.append_inj' h rfl).1
    · exact (hnames n hn).1 h
    · exact hab (List.append_inj' h rfl).1.symm
    · exact (hnames m hm).2 h

/-- An id that goes up leaves the directory of all volumes, and one with a slash in it may
lead into the upper of another volume. -/
theorem not_separate :
    ¬Separate ⟨⟨"/var/lib/rspacefs-csi".toList⟩, none⟩ "..".toList "a".toList ∧
      ¬Separate ⟨⟨"/var/lib/rspacefs-csi".toList⟩, none⟩ "a".toList "a/upper".toList := by
  constructor
  · rintro ⟨⟨h, -⟩, -⟩
    exact absurd h.length_le (by decide)
  · rintro ⟨-, -, h⟩
    refine h _ (List.mem_cons_self) _ (List.mem_cons_self) (.inl ?_)
    decide

end Config

end RspacefsCsi
