/-
# Pulling side by side

Any number of pulls share one directory.  Each of them writes a layer to the same file
`….blob.partial`, at its own offset, checks the digest of what it has streamed (not of what
is in the file), and renames the file to `….blob`.  Opening the file truncates it for
everyone who is writing to it, and renaming it does not close it.

A file that is being written to is filled by the pull that truncated it last: up to the
offset of that pull its content is right, whatever the others do.  It stays incomplete if
that pull stops, and the damage shows if the file is in the cache by then or if another
pull is about to rename it.  These are the only ways to damage the cache
(`cache_verified`).
-/
import RspacefsCsi.Frame
import RspacefsCsi.Lib.Sys
import RspacefsCsi.Registry
import RspacefsCsi.Sample

namespace RspacefsCsi

open Lib Lib.Prog

variable {x : Ext} {dir : PathBuf}

/-! ### The names of layers -/

/-- The end of the name of a layer. -/
def blobSuffix : Text := ".blob".toList

/-- The end of the name of a file that is being written to. -/
def partialSuffix : Text := ".partial".toList

/-- The name of the file of a layer. -/
def fileOf (x : Ext) (b : Bytes) : Text := OciClient.blobName (digestOf x.sha256 b)

/-- The file of a layer. -/
def blobKey (x : Ext) (dir : PathBuf) (b : Bytes) : Key := dir.key ++ [fileOf x b]

/-- The file it is written to first. -/
def partKey (x : Ext) (dir : PathBuf) (b : Bytes) : Key := dir.key ++ [fileOf x b ++ partialSuffix]

/-- The digest with its colon replaced. -/
def stemOf (x : Ext) (b : Bytes) : Text := Text.replace ':' '-' (digestOf x.sha256 b)

lemma fileOf_eq (x : Ext) (b : Bytes) : fileOf x b = stemOf x b ++ '.' :: "blob".toList := rfl

lemma mem_stemOf {b : Bytes} {c : Char} (h : c ∈ stemOf x b) :
    c = '-' ∨ c ∈ digestOf x.sha256 b ∧ c ≠ ':' := by
  obtain ⟨d, hd, rfl⟩ := List.mem_map.1 h
  by_cases hcolon : d = ':'
  · exact .inl (if_pos hcolon)
  · rw [if_neg hcolon]
    exact .inr ⟨hd, hcolon⟩

lemma notMem_stemOf {c : Char} (h0 : c ≠ '-') (h1 : c ∉ algorithm)
    (h2 : ∀ n < 16, c ≠ Json.hexDigit n) (b : Bytes) : c ∉ stemOf x b := by
  intro h
  rcases mem_stemOf h with h | h
  · exact h0 h
  · exact notMem_digestOf h1 h2 b h.1

lemma stemOf_ne_nil (b : Bytes) : stemOf x b ≠ [] := by
  rw [stemOf, Text.replace, Ne, List.map_eq_nil_iff]
  exact digestOf_ne_nil b

lemma slash_notMem_stemOf (b : Bytes) : '/' ∉ stemOf x b :=
  notMem_stemOf (by decide) (by decide) (by decide) b

lemma dot_notMem_stemOf (b : Bytes) : '.' ∉ stemOf x b :=
  notMem_stemOf (by decide) (by decide) (by decide) b

/-- The digest is hexadecimal behind its first colon. -/
lemma stemOf_eq (x : Ext) (b : Bytes) :
    stemOf x b = "sha256-".toList ++ hexEncode (x.sha256 b) := by
  have hhex : (hexEncode (x.sha256 b)).map (fun c => if c = ':' then '-' else c)
      = hexEncode (x.sha256 b) := by
    conv_rhs => rw [← List.map_id (hexEncode (x.sha256 b))]
    refine List.map_congr_left fun c hc => if_neg ?_
    obtain ⟨n, hn, rfl⟩ := mem_hexEncode hc
    exact (by decide : ∀ n < 16, ¬Json.hexDigit n = ':') n hn
  rw [stemOf, digestOf, Text.replace, List.map_append, hhex]
  rfl

/-- The name says which bytes are in the file. -/
lemma fileOf_injective (hx : Function.Injective x.sha256) : Function.Injective (fileOf x) := by
  intro a b h
  have hstem : stemOf x a = stemOf x b := List.append_cancel_right h
  rw [stemOf_eq, stemOf_eq] at hstem
  exact hx (hexEncode_injective (List.append_cancel_left hstem))

lemma slash_notMem_fileOf (b : Bytes) : '/' ∉ fileOf x b := by
  rw [fileOf_eq, List.mem_append, not_or]
  exact ⟨slash_notMem_stemOf b, by decide⟩

lemma five_le_length_fileOf (b : Bytes) : 5 ≤ (fileOf x b).length := by
  rw [fileOf_eq, List.length_append]
  exact Nat.le_add_left 5 _

lemma key_blob (dir : PathBuf) (b : Bytes) :
    (dir.join (OciClient.blobName (digestOf x.sha256 b))).key = blobKey x dir b :=
  PathBuf.key_join_normal (.of_length (Nat.lt_of_lt_of_le (by decide) (five_le_length_fileOf b))
    (slash_notMem_fileOf b)) dir

lemma key_download (dir : PathBuf) (b : Bytes) :
    (OciClient.partialPath (dir.join (OciClient.blobName (digestOf x.sha256 b)))).key
      = partKey x dir b := by
  have hname : stemOf x b ++ '.' :: "blob.partial".toList = fileOf x b ++ partialSuffix := by
    rw [fileOf_eq, List.append_assoc]
    rfl
  have hlen : 2 < (fileOf x b ++ partialSuffix).length := by
    have := five_le_length_fileOf (x := x) b
    rw [List.length_append]
    omega
  have hslash : '/' ∉ fileOf x b ++ partialSuffix := by
    rw [List.mem_append, not_or]
    exact ⟨slash_notMem_fileOf b, by decide⟩
  change ((dir.join (stemOf x b ++ '.' :: "blob".toList)).withExtension "blob.partial".toList).key = _
  rw [PathBuf.withExtension_join (stemOf_ne_nil b) (fileOf_eq x b ▸ slash_notMem_fileOf b)
    (by decide), hname]
  exact PathBuf.key_join_normal (.of_length hlen hslash) dir

/-! ### Streams -/

/-- What a pull is doing. -/
inductive Pulling
  /-- It has no file open. -/
  | idle
  /-- It is being sent `b`. -/
  | offered (b : Bytes)
  /-- It writes `b` to the inode, and has got to the offset. -/
  | filling (b : Bytes) (ino off : ℕ)
  /-- It has written all of `b` and is about to rename the file. -/
  | filled (b : Bytes)

/-- The layer a pull has a file open for. -/
def Pulling.layer : Pulling → Option Bytes
  | .filling b _ _ | .filled b => some b
  | _ => none

/-- The requests that leave the files as they are. -/
def Looks : Op → Prop
  | .tryExists _ | .getManifest _ _ | .getBlob _ _ _ | .createDirAll _ => True
  | _ => False

/-- The requests of a pull into a directory.  One that fails ends the pull; the phase it is in
then does not matter any more. -/
inductive Pulls (x : Ext) (dir : PathBuf) : Pulling → (o : Op) → Resp o → Pulling → Prop
  | look {o : Op} {r : Resp o} (h : Looks o) : Pulls x dir .idle o r .idle
  | offer {url : Text} {ref : Reference} {digest : Text}
      {r : Except Text (ℕ × List (Except Text Bytes))} (b : Bytes) :
      Pulls x dir .idle (.getBlob url ref digest) r (.offered b)
  | uncreated {b : Bytes} {p : PathBuf} {e : IoError} :
      Pulls x dir (.offered b) (.fileCreate p) (.error e) .idle
  | create {b : Bytes} {p : PathBuf} {ino : ℕ} (h : p.key = partKey x dir b) :
      Pulls x dir (.offered b) (.fileCreate p) (.ok ino) (.filling b ino 0)
  | write {b chunk : Bytes} {ino off : ℕ} (h : chunk <+: b.drop off) :
      Pulls x dir (.filling b ino off) (.fileWrite ino off chunk) (.ok ())
        (.filling b ino (off + chunk.length))
  | unwritten {b chunk : Bytes} {ino off : ℕ} {e : IoError} (h : chunk <+: b.drop off) :
      Pulls x dir (.filling b ino off) (.fileWrite ino off chunk) (.error e) (.filling b ino off)
  | flush {b : Bytes} {ino : ℕ} :
      Pulls x dir (.filling b ino b.length) (.fileFlush ino) (.ok ()) (.filled b)
  | unflushed {b : Bytes} {ino off : ℕ} {e : IoError} :
      Pulls x dir (.filling b ino off) (.fileFlush ino) (.error e) (.filling b ino off)
  | rename {b : Bytes} {p q : PathBuf} {r : Except IoError Unit} (hp : p.key = partKey x dir b)
      (hq : q.key = blobKey x dir b) : Pulls x dir (.filled b) (.renameFile p q) r .idle

end RspacefsCsi
