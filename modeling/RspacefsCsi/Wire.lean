/-
# Digests and documents (`registry.rs`, `node.rs`)

The JSON documents the driver reads and writes: the publish context of a volume, the
manifest of a captured revision, and the manifests it is served.  Each document is read by
a function of its own, written against what the derived readers accept: unknown fields are
ignored, a repeated field is an error, a structure may also come as an array of its fields.

The main results are that both documents are read back as they were written
(`contextOfSlice_contextToVec`, `parseLayers_manifest`).
-/
import RspacefsCsi.Lib.Json
import RspacefsCsi.Params
import RspacefsCsi.Reference

namespace RspacefsCsi

open Lib

/-! ### Digests -/

/-- The lower case hexadecimal text of a string of bytes. -/
def hexEncode (b : Bytes) : Text :=
  b.flatMap fun x => [Json.hexDigit (x.toNat / 16), Json.hexDigit (x.toNat % 16)]

/-- The name of the hash function, with the colon. -/
def algorithm : Text := "sha256:".toList

/-- The digest of a string of bytes, for a hash function `sha256`. -/
def digestOf (sha256 : Bytes → Bytes) (b : Bytes) : Text := algorithm ++ hexEncode (sha256 b)

lemma hexDigit_injOn : ∀ m < 16, ∀ n < 16, Json.hexDigit m = Json.hexDigit n → m = n := by
  decide

lemma asciiLowerChar_hexDigit : ∀ n < 16,
    Text.asciiLowerChar (Json.hexDigit n) = Json.hexDigit n := by decide

lemma hexEncode_injective : Function.Injective hexEncode := by
  intro a b h
  induction a generalizing b with
  | nil =>
    cases b with
    | nil => rfl
    | cons y ys => simp [hexEncode] at h
  | cons x xs ih =>
    cases b with
    | nil => simp [hexEncode] at h
    | cons y ys =>
      simp only [hexEncode, List.flatMap_cons, List.cons_append, List.nil_append,
        List.cons.injEq] at h
      obtain ⟨h1, h2, h3⟩ := h
      have hx := x.toNat_lt
      have hy := y.toNat_lt
      have e1 := hexDigit_injOn _ (by omega) _ (by omega) h1
      have e2 := hexDigit_injOn _ (by omega) _ (by omega) h2
      have hxy : x = y := UInt8.toNat_inj.1 (by omega)
      rw [hxy, ih h3]

lemma mem_hexEncode {b : Bytes} {c : Char} (h : c ∈ hexEncode b) :
    ∃ n < 16, c = Json.hexDigit n := by
  simp only [hexEncode, List.mem_flatMap, List.mem_cons, List.not_mem_nil, or_false] at h
  obtain ⟨x, -, h | h⟩ := h
  · exact ⟨_, by have := x.toNat_lt; omega, h⟩
  · exact ⟨_, by omega, h⟩

lemma asciiLower_hexEncode (b : Bytes) : Text.asciiLower (hexEncode b) = hexEncode b := by
  rw [Text.asciiLower]
  conv_rhs => rw [← List.map_id (hexEncode b)]
  refine List.map_congr_left fun c hc => ?_
  obtain ⟨n, hn, rfl⟩ := mem_hexEncode hc
  exact asciiLowerChar_hexDigit n hn

section Digest

variable {sha256 : Bytes → Bytes}

lemma digestOf_injective (h : Function.Injective sha256) : Function.Injective (digestOf sha256) :=
  fun _ _ hab => h (hexEncode_injective (List.append_cancel_left hab))

lemma digestOf_ne_nil (b : Bytes) : digestOf sha256 b ≠ [] :=
  List.cons_ne_nil _ _

lemma mem_digestOf {b : Bytes} {c : Char} (h : c ∈ digestOf sha256 b) :
    c ∈ algorithm ∨ ∃ n < 16, c = Json.hexDigit n := by
  rcases List.mem_append.1 h with h | h
  · exact Or.inl h
  · exact Or.inr (mem_hexEncode h)

lemma notMem_digestOf {c : Char} (h1 : c ∉ algorithm)
    (h2 : ∀ n < 16, c ≠ Json.hexDigit n) (b : Bytes) : c ∉ digestOf sha256 b := by
  intro h
  rcases mem_digestOf h with h | ⟨n, hn, h⟩
  · exact h1 h
  · exact h2 n hn h

lemma asciiLower_digestOf (b : Bytes) :
    Text.asciiLower (digestOf sha256 b) = digestOf sha256 b := by
  have hhead : Text.asciiLower algorithm = algorithm := by decide
  rw [digestOf, Text.asciiLower, List.map_append]
  exact congrArg₂ _ hhead (asciiLower_hexEncode _)

end Digest

/-! ### The publish context -/

/-- The document of a map. -/
def contextToVec (m : StrMap) : Bytes := Json.toVec (.obj (m.entries.map fun e => (e.1, .str e.2)))

/-- Read the fields of a map of strings; the last of several values of a key counts. -/
def contextOfFields : List (Text × Json) → Option StrMap
  | [] => some ∅
  | (k, .str v) :: l => (contextOfFields l).map fun m => if k ∈ m then m else m.insert k v
  | _ :: _ => none

/-- Read a map of strings. -/
def contextOfSlice (b : Bytes) : Option StrMap :=
  match Json.fromSlice b with
  | some (.obj l) => contextOfFields l
  | _ => none

lemma contextOfFields_entries (l : List (Sigma fun _ : Text => Text)) (h : l.NodupKeys) :
    contextOfFields (l.map fun e => (e.1, .str e.2)) = some ⟨l, h⟩ := by
  induction l with
  | nil => rfl
  | cons e l ih =>
    obtain ⟨hnot, hl⟩ := List.nodupKeys_cons.1 h
    have hmem : e.1 ∉ (⟨l, hl⟩ : StrMap) := hnot
    simp only [List.map_cons, contextOfFields, ih hl, Option.map_some, if_neg hmem,
      Option.some.injEq]
    apply AList.ext
    simp [AList.entries_insert, List.kerase_of_notMem_keys hnot]

/-- The publish context is read back as it was written. -/
theorem contextOfSlice_contextToVec (m : StrMap) : contextOfSlice (contextToVec m) = some m := by
  rw [contextOfSlice, contextToVec, Json.fromSlice_toVec]
  exact contextOfFields_entries m.entries m.nodupKeys

/-- A publish context that was not written to its end is not read. -/
lemma eq_contextToVec_of_prefix {m ctx : StrMap} {b : Bytes} (hb : b <+: contextToVec m)
    (h : contextOfSlice b = some ctx) : ctx = m := by
  have hfields : contextToVec m
      = Json.toVec (.obj (Json.strFields (m.entries.map fun e => (e.1, e.2)))) := by
    rw [contextToVec, Json.strFields, List.map_map]
    rfl
  by_cases hne : b = contextToVec m
  · rw [hne, contextOfSlice_contextToVec] at h
    exact (Option.some.inj h).symm
  · rw [hfields] at hb hne
    rw [contextOfSlice, Json.fromSlice_cut _ hb hne] at h
    exact absurd h (by rintro ⟨⟩)

/-! ### Manifests -/

/-- One layer of a resolved seed. -/
structure LayerRef where
  mediaType : Text
  digest : Text
  size : ℕ
deriving DecidableEq

/-- The media type of a captured layer. -/
def LAYER_ZSTD : Text := "application/vnd.oci.image.layer.v1.tar+zstd".toList
/-- The media type of a manifest. -/
def MANIFEST : Text := "application/vnd.oci.image.manifest.v1+json".toList
/-- The media type of the empty configuration. -/
def EMPTY_CONFIG : Text := "application/vnd.oci.empty.v1+json".toList
/-- The artifact type of a captured revision. -/
def PVC_ARTIFACT_TYPE : Text := "application/vnd.rspacefs.pvc.layer.v1+tar+zstd".toList
/-- The empty configuration. -/
def EMPTY_CONFIG_BYTES : Bytes := [0x7b, 0x7d]
/-- Its digest. -/
def EMPTY_CONFIG_DIGEST : Text :=
  "sha256:44136fa355b3678a1146ad16f7e8649e94fb4fc21fe77e8310c060f61caaff8a".toList

/-- The value of a field, if it is there; none at all if it is repeated. -/
def field (name : String) (l : List (Text × Json)) : Option (Option Json) :=
  match l.filter fun f => f.1 == name.toList with
  | [] => some none
  | [f] => some (some f.2)
  | _ => none

namespace WireDescriptor

/-- A descriptor from its fields.  The size is optional. -/
def ofParts : Option Json → Option Json → Option Json → Option LayerRef
  | some (.str mediaType), some (.str digest), none => some ⟨mediaType, digest, 0⟩
  | some (.str mediaType), some (.str digest), some (.nat size) =>
      if size < 2 ^ 64 then some ⟨mediaType, digest, size⟩ else none
  | _, _, _ => none

/-- Read a descriptor. -/
def ofJson : Json → Option LayerRef
  | .obj l => do ofParts (← field "mediaType" l) (← field "digest" l) (← field "size" l)
  | .arr [mediaType, digest] => ofParts (some mediaType) (some digest) none
  | .arr [mediaType, digest, size] => ofParts (some mediaType) (some digest) (some size)
  | _ => none

end WireDescriptor

/-- The fields of a served manifest that are read. -/
structure WireManifest where
  layers : List LayerRef
  /-- Present on an image index. -/
  manifests : List Json

namespace WireManifest

/-- A manifest from its fields, both of them optional. -/
def ofParts (layers manifests : Option Json) : Option WireManifest := do
  let layers ← match layers with
    | none => some []
    | some (.arr l) => l.mapM WireDescriptor.ofJson
    | some _ => none
  let manifests ← match manifests with
    | none => some []
    | some (.arr l) => some l
    | some _ => none
  return ⟨layers, manifests⟩

/-- Read a manifest. -/
def ofJson : Json → Option WireManifest
  | .obj l => do ofParts (← field "layers" l) (← field "manifests" l)
  | .arr [] => ofParts none none
  | .arr [layers] => ofParts (some layers) none
  | .arr [layers, manifests] => ofParts (some layers) (some manifests)
  | _ => none

end WireManifest

/-- The layers of a served manifest, from the top down. -/
def parseLayers (r : Reference) (body : Bytes) : Except RegistryError (List LayerRef) :=
  match (Json.fromSlice body).bind WireManifest.ofJson with
  | none => .error (.badResponse r.repository .serde)
  | some m =>
      if m.manifests ≠ [] then
        .error (.badResponse r.repository (.text
          ("seed is a multi-arch index; a PVC data artifact must be a single manifest".toList)))
      else if m.layers = [] then .error (.noLayers r.repository)
      else .ok m.layers.reverse

/-- A descriptor as it is written. -/
def outDescriptor (mediaType digest : Text) (size : ℕ) : Json :=
  .obj [("mediaType".toList, .str mediaType), ("digest".toList, .str digest),
    ("size".toList, .nat size)]

/-- The manifest of a captured revision: the empty configuration and one layer. -/
def outManifest (title layerDigest : Text) (layerSize : ℕ) : Json :=
  .obj [
    ("schemaVersion".toList, .nat 2),
    ("mediaType".toList, .str MANIFEST),
    ("artifactType".toList, .str PVC_ARTIFACT_TYPE),
    ("config".toList, outDescriptor EMPTY_CONFIG EMPTY_CONFIG_DIGEST EMPTY_CONFIG_BYTES.length),
    ("layers".toList, .arr [outDescriptor LAYER_ZSTD layerDigest layerSize]),
    -- the annotations are kept sorted by key
    ("annotations".toList, .obj [
      ("io.g8.rspacefs.pvc".toList, .str "true".toList),
      ("org.opencontainers.image.title".toList, .str title)])]

/-- The bytes of the manifest of a captured revision. -/
def manifestBytes (title layerDigest : Text) (layerSize : ℕ) : Bytes :=
  Json.toVec (outManifest title layerDigest layerSize)

/-- The manifest of a captured revision is read back as its one layer. -/
theorem parseLayers_manifest (r : Reference) (title d : Text) {n : ℕ} (hn : n < 2 ^ 64) :
    parseLayers r (manifestBytes title d n) = .ok [⟨LAYER_ZSTD, d, n⟩] := by
  have hd : WireDescriptor.ofJson (outDescriptor LAYER_ZSTD d n) = some ⟨LAYER_ZSTD, d, n⟩ := by
    simp only [Nat.reducePow] at hn
    simp [WireDescriptor.ofJson, outDescriptor, field, WireDescriptor.ofParts, hn]
  have hm : WireManifest.ofJson (outManifest title d n) = some ⟨[⟨LAYER_ZSTD, d, n⟩], []⟩ := by
    simp [WireManifest.ofJson, outManifest, field, WireManifest.ofParts, hd]
  simp [parseLayers, manifestBytes, Json.fromSlice_toVec, hm]

/-- The bytes of a manifest tell its layer. -/
lemma manifestBytes_inj {t t' d d' : Text} {n n' : ℕ}
    (h : manifestBytes t d n = manifestBytes t' d' n') : t = t' ∧ d = d' ∧ n = n' := by
  have := Json.toVec_injective h
  simp only [outManifest, outDescriptor, Json.obj.injEq, List.cons.injEq, Prod.mk.injEq,
    Json.arr.injEq, Json.str.injEq, Json.nat.injEq] at this
  tauto

end RspacefsCsi
