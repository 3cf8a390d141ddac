/-
# A hash function and a layer format

A concrete `Ext`, to run the model with: the digests in its table are those of SHA-256, and
a layer is written as a JSON array of its entries.  It meets what is assumed of the real
ones (`lawful`), so these assumptions can be met.
-/
import RspacefsCsi.Host

namespace RspacefsCsi

open Lib

namespace Sample

/-! ### The hash function -/

/-- A hash function that is given on the texts of a table, and that keeps all other texts
apart by writing them out after 33 zeros. -/
def hashWith (table : List (Bytes × Bytes)) (b : Bytes) : Bytes :=
  (table.lookup b).getD (List.replicate 33 0 ++ b)

/-- Such a function has no collisions if the table has none and its values have the length
of a digest. -/
lemma hashWith_injective {table : List (Bytes × Bytes)}
    (hlen : ∀ p ∈ table, p.2.length = 32)
    (hinj : ∀ p ∈ table, ∀ q ∈ table, p.2 = q.2 → p.1 = q.1) :
    Function.Injective (hashWith table) := by
  have hmem : ∀ {b h}, table.lookup b = some h → (b, h) ∈ table := by
    intro b h hb
    obtain ⟨l₁, l₂, rfl, -⟩ := List.lookup_eq_some_iff.1 hb
    simp
  intro a b hab
  unfold hashWith at hab
  cases ha : table.lookup a with
  | some h =>
    cases hb : table.lookup b with
    | some h' =>
      rw [ha, hb] at hab
      exact hinj _ (hmem ha) _ (hmem hb) hab
    | none =>
      have := congrArg List.length hab
      simp [ha, hb, hlen _ (hmem ha)] at this
  | none =>
    cases hb : table.lookup b with
    | some h' =>
      have := congrArg List.length hab
      simp [ha, hb, hlen _ (hmem hb)] at this
    | none =>
      rw [ha, hb] at hab
      exact List.append_cancel_left hab

/-! ### The layers -/

/-- An entry of a layer as JSON. -/
def encodeEntry (e : Sigma fun _ : Key => Entry Bytes) : Json :=
  .arr [.arr (e.1.map .str), match e.2 with
    | .data d => .arr (d.map fun b => .nat b.toNat)
    | .whiteout => .null]

/-- Read a string. -/
def decodeStr : Json → Option Text
  | .str s => some s
  | _ => none

/-- Read a byte. -/
def decodeByte : Json → Option UInt8
  | .nat n => some (UInt8.ofNat n)
  | _ => none

/-- Read an entry of a layer. -/
def decodeEntry : Json → Option (Sigma fun _ : Key => Entry Bytes)
  | .arr [.arr k, .arr d] => some ⟨k.filterMap decodeStr, .data (d.filterMap decodeByte)⟩
  | .arr [.arr k, .null] => some ⟨k.filterMap decodeStr, .whiteout⟩
  | _ => none

lemma decodeEntry_encodeEntry (e : Sigma fun _ : Key => Entry Bytes) :
    decodeEntry (encodeEntry e) = some e := by
  have hk : ∀ k : Key, (k.map Json.str).filterMap decodeStr = k := by
    intro k
    rw [List.filterMap_map]
    exact List.filterMap_some
  have hd : ∀ d : Bytes, (d.map fun b => Json.nat b.toNat).filterMap decodeByte = d := by
    intro d
    rw [List.filterMap_map]
    have : (decodeByte ∘ fun b : UInt8 => Json.nat b.toNat) = some := by
      funext b
      simp [decodeByte]
    rw [this]
    exact List.filterMap_some
  obtain ⟨k, v⟩ := e
  cases v with
  | data d => simp [encodeEntry, decodeEntry, hk, hd]
  | whiteout => simp [encodeEntry, decodeEntry, hk]

/-- Write a layer. -/
def pack (u : Tree) : Bytes := Json.toVec (.arr (u.entries.map encodeEntry))

/-- Read a layer. -/
def unpack (b : Bytes) : Tree :=
  match Json.fromSlice b with
  | some (.arr l) => (l.filterMap decodeEntry).toAList
  | _ => ∅

lemma unpack_pack (u : Tree) : (unpack (pack u)).layer = Tree.layer u := by
  have hl : (u.entries.map encodeEntry).filterMap decodeEntry = u.entries := by
    rw [List.filterMap_map]
    have : decodeEntry ∘ encodeEntry = some := funext decodeEntry_encodeEntry
    rw [this]
    exact List.filterMap_some
  funext p
  simp only [Tree.layer, unpack, pack, Json.fromSlice_toVec, hl]
  exact AList.lookup_to_alist u.entries

/-! ### Both together -/

/-- The bytes of an ASCII text. -/
def ascii (s : String) : Bytes := s.toList.map fun c => UInt8.ofNat c.toNat

/-- The bytes written in hexadecimal. -/
def unhex : Text → Bytes
  | a :: b :: r =>
      UInt8.ofNat ((Json.hexValue a).getD 0 * 16 + (Json.hexValue b).getD 0) :: unhex r
  | _ => []

/-- An upper with one file. -/
def note : Tree := (∅ : Tree).insert ["f".toList] (.data (ascii "hi"))

/-- The digest of its blob. -/
def noteDigest : Text :=
  "sha256:d964e68c0a32bc90209d85b6c1b25848f44cbebcc674d2551010bdf71249cac5".toList

/-- The SHA-256 digests of the texts the examples hash. -/
def digests : List (Bytes × Bytes) :=
  [(ascii "\x7b\x7d",
    unhex "44136fa355b3678a1146ad16f7e8649e94fb4fc21fe77e8310c060f61caaff8a".toList),
   (ascii "[]",
    unhex "4f53cda18c2baa0c0354bb5f9a3ecbe5ed12ab4d8e11ba873c2f11161202b945".toList),
   (ascii "[[[\"f\"],[104,105]]]",
    unhex "d964e68c0a32bc90209d85b6c1b25848f44cbebcc674d2551010bdf71249cac5".toList),
   (manifestBytes "one".toList noteDigest 19,
    unhex "0159f3c944aaff9cfb0c613203b41c704f2fb91ac2073757fe84f2f7acae2fb2".toList)]

/-- The hash function with these digests, and the layer format. -/
def ext : Ext := ⟨hashWith digests, pack, unpack⟩

theorem lawful : ext.Lawful where
  sha256_injective := hashWith_injective (by decide +kernel) (by decide +kernel)
  unpack_pack := unpack_pack

/-! ### A node -/

/-- A configuration without a capture registry. -/
def config : Config := ⟨⟨"/var/lib/rspacefs-csi".toList⟩, none⟩

/-- The id of a volume. -/
def volumeId : Text := "pvc-1".toList

/-- A volume context that asks for a capture. -/
def captureContext : StrMap :=
  ((∅ : StrMap).insert CAPTURE_ON_DELETE "true".toList).insert CAPTURE_REPO
    "qregistry.local/pvcs/one".toList

/-- As many successful answers as a call can ask for. -/
def smooth : List Choice := List.replicate 12 .go

end Sample

end RspacefsCsi
