/-
# StorageClass parameters and the volume context (`params.rs`)

The controller parses the StorageClass parameters, writes them back into the volume
context, and the node parses that context again.  The main result is that the second
parse gives what the first one gave (`parse_toVolumeContext`).
-/
import Mathlib.Data.List.AList
import RspacefsCsi.Lib.Prog
import RspacefsCsi.Lib.Text

namespace RspacefsCsi

open Lib

/-- A map from strings to strings. -/
abbrev StrMap : Type := AList (fun _ : Text => Text)

/-! ### The keys -/

/-- OCI references pulled as lower layers. -/
def SEED : Text := "seed".toList
/-- `--access-mode`. -/
def ACCESS_MODE : Text := "accessMode".toList
/-- `--lifecycle`. -/
def LIFECYCLE : Text := "lifecycle".toList
/-- `--owner`. -/
def OWNER : Text := "owner".toList
/-- Whether the upper is captured when the volume is unpublished. -/
def CAPTURE_ON_DELETE : Text := "captureOnDelete".toList
/-- Where captures are pushed. -/
def CAPTURE_REPO : Text := "captureRepo".toList
/-- The logical name of the volume, set by the controller. -/
def VOLUME_NAME : Text := "rspacefs.csi.g8.io/volumeName".toList

/-! ### Modes -/

/-- The access mode of a volume. -/
inductive AccessMode
  | empty
  | ro
  | rwo
  | rwx
deriving DecidableEq

namespace AccessMode

/-- The value of `--access-mode`. -/
def asFlag : AccessMode → Text
  | .empty => "empty".toList
  | .ro => "ro".toList
  | .rwo => "rwo".toList
  | .rwx => "rwx".toList

/-- Parse an access mode. -/
def parse (s : Text) : Option AccessMode :=
  let t := Text.asciiLower (Text.trim s)
  if t = "empty".toList then some .empty
  else if t = "ro".toList ∨ t = "readonly".toList then some .ro
  else if t = "rwo".toList ∨ t = "readwriteonce".toList then some .rwo
  else if t = "rwx".toList ∨ t = "readwritemany".toList then some .rwx
  else none

lemma parse_asFlag (m : AccessMode) : parse m.asFlag = some m := by
  cases m <;> decide

end AccessMode

/-- The lifecycle of a volume. -/
inductive Lifecycle
  | persistent
  | ephemeral
  | ephemeralThenPersistent
deriving DecidableEq

namespace Lifecycle

/-- The value of `--lifecycle`. -/
def asFlag : Lifecycle → Text
  | .persistent => "persistent".toList
  | .ephemeral => "ephemeral".toList
  | .ephemeralThenPersistent => "ephemeral-then-persistent".toList

/-- Parse a lifecycle. -/
def parse (s : Text) : Option Lifecycle :=
  let t := Text.asciiLower (Text.trim s)
  if t = "persistent".toList then some .persistent
  else if t = "ephemeral".toList then some .ephemeral
  else if t = "ephemeral-then-persistent".toList ∨ t = "ephemeralthenpersistent".toList then
    some .ephemeralThenPersistent
  else none

lemma parse_asFlag (l : Lifecycle) : parse l.asFlag = some l := by
  cases l <;> decide

end Lifecycle

/-! ### The parameters -/

/-- The parsed parameters. -/
structure PvcParams where
  seeds : List Text
  accessMode : Option AccessMode
  lifecycle : Option Lifecycle
  owner : Option Text
  captureOnDelete : Bool
  captureRepo : Option Text
deriving DecidableEq

/-- A rejected parameter value. -/
structure ParamError where
  key : Text
  value : Text
  reason : Text
deriving DecidableEq

namespace PvcParams

/-- The separators between seeds. -/
def isSeedSep (c : Char) : Bool := c == ',' || c == ' ' || c == '\n' || c == '\t'

/-- The seeds in the value of the `seed` parameter. -/
def splitSeeds (s : Text) : List Text :=
  ((s.splitOnP isSeedSep).map Text.trim).filter fun t => t ≠ []

/-- Parse the value of an optional parameter, which has to be one of a list of words. -/
def parseOpt {α : Type} (m : StrMap) (key reason : Text) (f : Text → Option α) :
    Except ParamError (Option α) :=
  match m.lookup key with
  | none => .ok none
  | some v =>
      match f v with
      | some a => .ok (some a)
      | none => .error ⟨key, v, reason⟩

/-- Parse a parameter map or a volume context.  Unknown keys are ignored. -/
def parse (m : StrMap) : Except ParamError PvcParams := do
  let seeds := ((m.lookup SEED).map splitSeeds).getD []
  let accessMode ← parseOpt m ACCESS_MODE "expected empty|ro|rwo|rwx".toList AccessMode.parse
  let lifecycle ← parseOpt m LIFECYCLE
    "expected persistent|ephemeral|ephemeral-then-persistent".toList Lifecycle.parse
  return {
    seeds, accessMode, lifecycle
    owner := m.lookup OWNER
    captureOnDelete := ((m.lookup CAPTURE_ON_DELETE).map fun v =>
      Text.eqIgnoreAsciiCase v "true".toList || v == "1".toList).getD false
    captureRepo := m.lookup CAPTURE_REPO }

/-- Insert a value, if there is one. -/
def insertOpt (k : Text) (v : Option Text) (m : StrMap) : StrMap :=
  match v with
  | some v => m.insert k v
  | none => m

/-- The volume context of the parameters. -/
def toVolumeContext (p : PvcParams) : StrMap :=
  let c : StrMap := ∅
  let c := insertOpt SEED
    (if p.seeds = [] then none else some ([','].intercalate p.seeds)) c
  let c := insertOpt ACCESS_MODE (p.accessMode.map AccessMode.asFlag) c
  let c := insertOpt LIFECYCLE (p.lifecycle.map Lifecycle.asFlag) c
  let c := insertOpt OWNER p.owner c
  let c := insertOpt CAPTURE_ON_DELETE
    (if p.captureOnDelete then some "true".toList else none) c
  insertOpt CAPTURE_REPO p.captureRepo c

/-- The repository captures of the volume are pushed to: the explicit one, else that of the
first seed without its tag or digest. -/
def resolvedCaptureRepo (p : PvcParams) : Option Text :=
  match p.captureRepo with
  | some repo => some repo
  | none =>
      match p.seeds with
      | [] => none
      | seed :: _ =>
          let base := ((seed.splitOn '@').head?).getD seed
          match Text.rfind '/' base with
          | some slash =>
              match Text.rfind ':' (base.drop (slash + 1)) with
              | some colon => some (base.take (slash + 1 + colon))
              | none => some base
          | none => some base

/-! ### The second parse -/

/-- A seed that survives being joined with others and split again. -/
def CleanSeed (s : Text) : Prop := s ≠ [] ∧ Text.trim s = s ∧ ∀ c ∈ s, isSeedSep c = false

lemma cleanSeed_of_mem_splitSeeds {s t : Text} (h : t ∈ splitSeeds s) : CleanSeed t := by
  simp only [splitSeeds, ne_eq, List.mem_filter, List.mem_map, decide_not,
    Bool.not_eq_eq_eq_not, Bool.not_true, decide_eq_false_iff_not] at h
  obtain ⟨⟨u, hu, rfl⟩, hne⟩ := h
  refine ⟨hne, Text.trim_trim u, fun c hc => ?_⟩
  exact Text.of_mem_splitOnP hu c (Text.mem_of_mem_trim hc)

lemma seeds_of_parse {m : StrMap} {p : PvcParams} (h : parse m = .ok p) :
    p.seeds = ((m.lookup SEED).map splitSeeds).getD [] := by
  obtain ⟨am, -, h⟩ := Prog.of_bind_eq_ok h
  obtain ⟨lc, -, h⟩ := Prog.of_bind_eq_ok h
  rw [← Except.ok.inj h]

lemma cleanSeed_of_parse {m : StrMap} {p : PvcParams} (h : parse m = .ok p) :
    ∀ s ∈ p.seeds, CleanSeed s := by
  intro s hs
  rw [seeds_of_parse h] at hs
  cases hm : m.lookup SEED with
  | none => simp [hm] at hs
  | some v =>
    simp only [hm, Option.map_some, Option.getD_some] at hs
    exact cleanSeed_of_mem_splitSeeds hs

/-- Joining clean seeds and splitting them again gives the same seeds. -/
lemma splitSeeds_intercalate {l : List Text} (h : ∀ s ∈ l, CleanSeed s) :
    splitSeeds ([','].intercalate l) = l := by
  induction l with
  | nil => rfl
  | cons s l ih =>
    have hs : CleanSeed s := h s (by simp)
    have hrest := ih fun t ht => h t (by simp [ht])
    cases l with
    | nil =>
      have hone : s.splitOnP isSeedSep = [s] := List.splitOnP_eq_singleton hs.2.2
      simp [splitSeeds, hone, hs.2.1, hs.1]
    | cons t l =>
      have hjoin : [','].intercalate (s :: t :: l) = s ++ ',' :: [','].intercalate (t :: l) := by
        simp [List.intercalate]
      have hcut := List.splitOnP_append_cons_of_forall_mem hs.2.2 ',' (by decide)
        ([','].intercalate (t :: l))
      simp only [splitSeeds] at hrest ⊢
      rw [hjoin, hcut]
      simp only [List.map_cons, hs.2.1, ne_eq, hs.1, not_false_eq_true, decide_true,
        List.filter_cons_of_pos]
      exact congrArg _ hrest

/-- The keys that `parse` reads. -/
def driverKeys : List Text :=
  [SEED, ACCESS_MODE, LIFECYCLE, OWNER, CAPTURE_ON_DELETE, CAPTURE_REPO]

/-- Keys other than the driver's own do not matter. -/
lemma parse_congr {m m' : StrMap} (h : ∀ k ∈ driverKeys, m.lookup k = m'.lookup k) :
    parse m = parse m' := by
  simp only [parse, parseOpt, h SEED (by decide), h ACCESS_MODE (by decide),
    h LIFECYCLE (by decide), h OWNER (by decide), h CAPTURE_ON_DELETE (by decide),
    h CAPTURE_REPO (by decide)]

lemma lookup_insertOpt_self (k : Text) (v : Option Text) {m : StrMap} (h : m.lookup k = none) :
    (insertOpt k v m).lookup k = v := by
  cases v with
  | none => exact h
  | some v => exact AList.lookup_insert m

lemma lookup_insertOpt_ne {k l : Text} (h : l ≠ k) (v : Option Text) (m : StrMap) :
    (insertOpt k v m).lookup l = m.lookup l := by
  cases v with
  | none => rfl
  | some v => exact AList.lookup_insert_ne h

/-- The seeds in a context. -/
lemma lookup_seed_toVolumeContext (p : PvcParams) : p.toVolumeContext.lookup SEED
    = if p.seeds = [] then none else some ([','].intercalate p.seeds) := by
  simp only [toVolumeContext]
  rw [lookup_insertOpt_ne (by decide), lookup_insertOpt_ne (by decide),
    lookup_insertOpt_ne (by decide), lookup_insertOpt_ne (by decide),
    lookup_insertOpt_ne (by decide), lookup_insertOpt_self _ _ (AList.lookup_empty _)]

/-- Parsing the context of the parameters gives the parameters back, whatever keys of
others the context has besides. -/
theorem parse_toVolumeContext {p : PvcParams} (hp : ∀ s ∈ p.seeds, CleanSeed s) {m : StrMap}
    (hm : ∀ k ∈ driverKeys, m.lookup k = p.toVolumeContext.lookup k) : parse m = .ok p := by
  have hmode : p.toVolumeContext.lookup ACCESS_MODE = p.accessMode.map AccessMode.asFlag := by
    simp only [toVolumeContext]
    rw [lookup_insertOpt_ne (by decide), lookup_insertOpt_ne (by decide),
      lookup_insertOpt_ne (by decide), lookup_insertOpt_ne (by decide), lookup_insertOpt_self]
    rw [lookup_insertOpt_ne (by decide), AList.lookup_empty]
  have hlife : p.toVolumeContext.lookup LIFECYCLE = p.lifecycle.map Lifecycle.asFlag := by
    simp only [toVolumeContext]
    rw [lookup_insertOpt_ne (by decide), lookup_insertOpt_ne (by decide),
      lookup_insertOpt_ne (by decide), lookup_insertOpt_self]
    rw [lookup_insertOpt_ne (by decide), lookup_insertOpt_ne (by decide), AList.lookup_empty]
  have howner : p.toVolumeContext.lookup OWNER = p.owner := by
    simp only [toVolumeContext]
    rw [lookup_insertOpt_ne (by decide), lookup_insertOpt_ne (by decide), lookup_insertOpt_self]
    rw [lookup_insertOpt_ne (by decide), lookup_insertOpt_ne (by decide),
      lookup_insertOpt_ne (by decide), AList.lookup_empty]
  have hcap : p.toVolumeContext.lookup CAPTURE_ON_DELETE
      = if p.captureOnDelete then some "true".toList else none := by
    simp only [toVolumeContext]
    rw [lookup_insertOpt_ne (by decide), lookup_insertOpt_self]
    rw [lookup_insertOpt_ne (by decide), lookup_insertOpt_ne (by decide),
      lookup_insertOpt_ne (by decide), lookup_insertOpt_ne (by decide), AList.lookup_empty]
  have hrepo : p.toVolumeContext.lookup CAPTURE_REPO = p.captureRepo := by
    simp only [toVolumeContext]
    rw [lookup_insertOpt_self]
    rw [lookup_insertOpt_ne (by decide), lookup_insertOpt_ne (by decide),
      lookup_insertOpt_ne (by decide), lookup_insertOpt_ne (by decide),
      lookup_insertOpt_ne (by decide), AList.lookup_empty]
  rw [parse_congr hm]
  have hseeds : ((p.toVolumeContext.lookup SEED).map splitSeeds).getD [] = p.seeds := by
    rw [lookup_seed_toVolumeContext]
    by_cases hnil : p.seeds = []
    · simp [hnil]
    · simp [hnil, splitSeeds_intercalate hp]
  have hcod : ((p.toVolumeContext.lookup CAPTURE_ON_DELETE).map fun v =>
      Text.eqIgnoreAsciiCase v "true".toList || v == "1".toList).getD false
        = p.captureOnDelete := by
    rw [hcap]
    cases p.captureOnDelete
    · rfl
    · simp [Text.eqIgnoreAsciiCase_self]
  have hmode' : ∀ r, parseOpt p.toVolumeContext ACCESS_MODE r AccessMode.parse
      = .ok p.accessMode := by
    intro r
    cases ha : p.accessMode with
    | none => simp [parseOpt, hmode, ha]
    | some a => simp [parseOpt, hmode, ha, AccessMode.parse_asFlag]
  have hlife' : ∀ r, parseOpt p.toVolumeContext LIFECYCLE r Lifecycle.parse
      = .ok p.lifecycle := by
    intro r
    cases ha : p.lifecycle with
    | none => simp [parseOpt, hlife, ha]
    | some a => simp [parseOpt, hlife, ha, Lifecycle.parse_asFlag]
  simp only [parse, hmode', hlife', hseeds, hcod, howner, hrepo]
  rfl

end PvcParams

end RspacefsCsi
