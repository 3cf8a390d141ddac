/-
# Paths and files

A file system as a program sees it through paths, handles and offsets.

A path is its text.  `PathBuf.join` is the joining of the Rust standard library, which
replaces the whole path when the joined part is absolute.  What a path denotes is its
`key`: the list of its components after `.`, `..` and repeated separators are resolved
(there are no symbolic links), with a first component `/` for an absolute path.

A file is an inode, reached through a name.  Removing or renaming a name leaves the inode
to those who hold it open, and opening an existing name for writing truncates the inode
for all of them; a program that writes through a handle therefore need not be writing to
the file its path denotes.  There are no hard links: `Fs.inj` says that an inode has at
most one name, and `Fs.fresh` that a new inode is new.
-/
import Mathlib.Data.List.AList
import Mathlib.Data.List.Induction
import RspacefsCsi.Lib.Text

namespace RspacefsCsi.Lib

/-- An I/O error, by its message. -/
structure IoError where
  /-- The message. -/
  msg : Text
deriving DecidableEq

/-! ### Paths -/

/-- What a path denotes: its components, the first of them `/` if it is absolute. -/
abbrev Key : Type := List Text

/-- A path, as text. -/
structure PathBuf where
  /-- The text of the path. -/
  text : Text
deriving DecidableEq

namespace PathBuf

/-- Join a path and a further part. -/
def join (p : PathBuf) (s : Text) : PathBuf :=
  if s.head? = some '/' then ⟨s⟩
  else if p.text = [] ∨ p.text.getLast? = some '/' then ⟨p.text ++ s⟩
  else ⟨p.text ++ '/' :: s⟩

/-- The path without its last component. -/
def parent (p : PathBuf) : PathBuf :=
  match Text.rfind '/' p.text with
  | none => ⟨[]⟩
  | some 0 => ⟨['/']⟩
  | some i => ⟨p.text.take i⟩

/-- Replace the extension of the last component, which is what follows the last dot in it
unless that dot comes first. -/
def withExtension (p : PathBuf) (ext : Text) : PathBuf :=
  let slash := match Text.rfind '/' p.text with
    | some i => i + 1
    | none => 0
  match Text.rfind '.' (p.text.drop slash) with
  | some (i + 1) => ⟨p.text.take (slash + (i + 1)) ++ '.' :: ext⟩
  | _ => ⟨p.text ++ '.' :: ext⟩

/-- Resolve one more component. -/
def resolve (k : Key) (c : Text) : Key :=
  if c = [] ∨ c = ['.'] then k
  else if c = ['.', '.'] then
    match k.getLast? with
    | none => [c]
    | some l => if l = ['/'] then k else if l = ['.', '.'] then k ++ [c] else k.dropLast
  else k ++ [c]

/-- What the path denotes. -/
def key (p : PathBuf) : Key :=
  (p.text.splitOn '/').foldl resolve (if p.text.head? = some '/' then [['/']] else [])

/-- A component that denotes itself. -/
def Normal (s : Text) : Prop := s ≠ [] ∧ s ≠ ['.'] ∧ s ≠ ['.', '.'] ∧ '/' ∉ s

instance (s : Text) : Decidable (Normal s) := by unfold Normal; infer_instance

lemma Normal.of_length {s : Text} (hlen : 2 < s.length) (hs : '/' ∉ s) : Normal s := by
  refine ⟨?_, ?_, ?_, hs⟩ <;> rintro rfl <;> exact absurd hlen (by decide)

lemma resolve_normal {s : Text} (h : Normal s) (k : Key) : resolve k s = k ++ [s] := by
  simp [resolve, h.1, h.2.1, h.2.2.1]

/-- Joining a relative part resolves its components one after another. -/
lemma key_join {s : Text} (hs : s.head? ≠ some '/') (p : PathBuf) :
    (p.join s).key = (s.splitOn '/').foldl resolve p.key := by
  rw [join, if_neg hs]
  by_cases hnil : p.text = []
  · simp [key, hnil, hs, resolve]
  by_cases hlast : p.text.getLast? = some '/'
  · obtain ⟨t, ht⟩ : ∃ t, p.text = t ++ ['/'] := by
      rw [List.getLast?_eq_some_iff] at hlast
      exact hlast
    rw [if_pos (Or.inr hlast)]
    have hsplit : (t ++ ['/']).splitOn '/' = t.splitOn '/' ++ [[]] := by
      rw [List.splitOn_append_cons_self, List.splitOn_nil]
    have hhead : (t ++ '/' :: s).head? = (t ++ ['/']).head? := by
      cases t <;> simp
    simp only [key, ht, hsplit, hhead, List.append_assoc, List.singleton_append,
      List.splitOn_append_cons_self, List.foldl_append, List.foldl_cons, List.foldl_nil]
    simp [resolve]
  · rw [if_neg (by simp [hnil, hlast])]
    have hhead : (p.text ++ '/' :: s).head? = p.text.head? := by
      cases hp : p.text with
      | nil => exact absurd hp hnil
      | cons x xs => simp
    simp only [key, List.splitOn_append_cons_self, List.foldl_append, hhead]

/-- Joining a normal component appends it. -/
lemma key_join_normal {s : Text} (h : Normal s) (p : PathBuf) :
    (p.join s).key = p.key ++ [s] := by
  have hs : s.head? ≠ some '/' := by
    intro hh
    exact h.2.2.2 (List.mem_of_head? hh)
  rw [key_join hs, List.splitOn_eq_singleton h.2.2.2]
  exact resolve_normal h p.key

/-- Joining a normal component and dropping it again denotes the same. -/
lemma key_parent_join {s : Text} (h : Normal s) (p : PathBuf) :
    (p.join s).parent.key = p.key := by
  have hs : s.head? ≠ some '/' := fun hh => h.2.2.2 (List.mem_of_head? hh)
  have hmem : '/' ∉ s := h.2.2.2
  rw [join, if_neg hs]
  by_cases hnil : p.text = []
  · simp [parent, hnil, Text.rfind_eq_none_iff.2 hmem, key]
  by_cases hlast : p.text.getLast? = some '/'
  · obtain ⟨t, ht⟩ : ∃ t, p.text = t ++ ['/'] := by
      rw [List.getLast?_eq_some_iff] at hlast
      exact hlast
    rw [if_pos (Or.inr hlast)]
    have hfind : Text.rfind '/' (p.text ++ s) = some t.length := by
      rw [ht, List.append_assoc]
      exact Text.rfind_append t hmem
    have hkey : p.key = (t.splitOn '/').foldl resolve
        (if p.text.head? = some '/' then [['/']] else []) := by
      simp [key, ht, List.splitOn_append_cons_self, resolve]
    cases t with
    | nil =>
      simp only [parent, hfind, List.length_nil]
      simp [key, ht]
    | cons x xs =>
      have htake : (p.text ++ s).take (xs.length + 1) = x :: xs := by simp [ht]
      simp only [parent, hfind, List.length_cons, htake, hkey]
      simp [key, ht]
  · rw [if_neg (by simp [hnil, hlast])]
    cases hp : p.text with
    | nil => exact absurd hp hnil
    | cons x xs =>
      have hfind := Text.rfind_append (x :: xs) hmem
      simp only [parent, hfind, List.length_cons]
      have htake : (x :: xs ++ '/' :: s).take (xs.length + 1) = x :: xs := by
        simp
      rw [htake]
      simp [key, hp]

/-- Replacing the extension of a joined name. -/
lemma withExtension_join {stem old : Text} (hne : stem ≠ []) (hslash : '/' ∉ stem ++ '.' :: old)
    (hdot : '.' ∉ old) (p : PathBuf) (new : Text) :
    (p.join (stem ++ '.' :: old)).withExtension new = p.join (stem ++ '.' :: new) := by
  obtain ⟨c, cs, rfl⟩ := List.exists_cons_of_ne_nil hne
  have hc : c ≠ '/' := fun h => hslash (by simp [h])
  -- the text before the name is empty or ends with a slash
  have key : ∀ pre : Text, (pre = [] ∨ ∃ q, pre = q ++ ['/']) →
      (⟨pre ++ (c :: cs ++ '.' :: old)⟩ : PathBuf).withExtension new
        = ⟨pre ++ (c :: cs ++ '.' :: new)⟩ := by
    intro pre hpre
    have hfind : (match Text.rfind '/' (pre ++ (c :: cs ++ '.' :: old)) with
        | some i => i + 1
        | none => 0) = pre.length := by
      rcases hpre with rfl | ⟨q, rfl⟩
      · rw [List.nil_append, Text.rfind_eq_none_iff.2 hslash]
        rfl
      · rw [List.append_assoc, List.singleton_append, Text.rfind_append q hslash]
        simp
    have hdots : Text.rfind '.' (c :: cs ++ '.' :: old) = some (cs.length + 1) :=
      Text.rfind_append (c :: cs) hdot
    have htake : (pre ++ (c :: cs ++ '.' :: old)).take (pre.length + (cs.length + 1))
        = pre ++ c :: cs := by
      rw [List.take_length_add_append, List.take_append_of_le_length (by simp)]
      simp
    simp only [withExtension, hfind, List.drop_left, hdots, htake, List.append_assoc]
  have hhead : ∀ e : Text, (c :: cs ++ '.' :: e).head? ≠ some '/' := by
    intro e he
    exact hc (Option.some.inj he)
  unfold join
  rw [if_neg (hhead old), if_neg (hhead new)]
  by_cases h : p.text = [] ∨ p.text.getLast? = some '/'
  · rw [if_pos h, if_pos h]
    refine key p.text (h.imp id fun hl => ?_)
    exact List.getLast?_eq_some_iff.1 hl
  · rw [if_neg h, if_neg h]
    have := key (p.text ++ ['/']) (.inr ⟨_, rfl⟩)
    simpa using this

/-- Whatever a path is, replacing its extension makes the new one the end of its last
component. -/
lemma key_withExtension {ext : Text} (hlen : 2 ≤ ext.length) (hslash : '/' ∉ ext) (p : PathBuf) :
    ∃ k stem, (p.withExtension ext).key = k ++ [stem ++ '.' :: ext] := by
  -- the text before the last component is empty or ends with a slash
  have hkey : ∀ pre stem : Text, (pre = [] ∨ ∃ q, pre = q ++ ['/']) → '/' ∉ stem →
      ∃ k, (⟨pre ++ (stem ++ '.' :: ext)⟩ : PathBuf).key = k ++ [stem ++ '.' :: ext] := by
    intro pre stem hpre hstem
    have hmem : '/' ∉ stem ++ '.' :: ext := by simp [hstem, hslash]
    have hnormal : Normal (stem ++ '.' :: ext) := by
      refine .of_length ?_ hmem
      simp only [List.length_append, List.length_cons]
      omega
    rcases hpre with rfl | ⟨q, rfl⟩
    · rw [key, List.nil_append, List.splitOn_eq_singleton hmem]
      exact ⟨_, resolve_normal hnormal _⟩
    · rw [key, List.append_assoc, List.singleton_append, List.splitOn_append_cons_self,
        List.splitOn_eq_singleton hmem, List.foldl_append]
      exact ⟨_, resolve_normal hnormal _⟩
  obtain ⟨pre, name, htext, hpre, hname, hfind⟩ : ∃ pre name, p.text = pre ++ name ∧
      (pre = [] ∨ ∃ q, pre = q ++ ['/']) ∧ '/' ∉ name ∧ (match Text.rfind '/' p.text with
        | some i => i + 1
        | none => 0) = pre.length := by
    cases hf : Text.rfind '/' p.text with
    | none => exact ⟨[], p.text, rfl, .inl rfl, Text.rfind_eq_none_iff.1 hf, rfl⟩
    | some i =>
      obtain ⟨a, b, hab, hb, rfl⟩ := Text.exists_of_rfind hf
      exact ⟨a ++ ['/'], b, by simp [hab], .inr ⟨a, rfl⟩, hb, by simp⟩
  simp only [withExtension, hfind]
  rw [htext, List.drop_left]
  cases hd : Text.rfind '.' name with
  | none =>
    obtain ⟨k, hk⟩ := hkey pre name hpre hname
    exact ⟨k, name, by rw [← hk, List.append_assoc]⟩
  | some i =>
    cases i with
    | zero =>
      obtain ⟨k, hk⟩ := hkey pre name hpre hname
      exact ⟨k, name, by rw [← hk, List.append_assoc]⟩
    | succ i =>
      obtain ⟨k, hk⟩ := hkey pre (name.take (i + 1)) hpre fun h => hname (List.mem_of_mem_take h)
      refine ⟨k, name.take (i + 1), ?_⟩
      simp only [List.take_length_add_append, List.append_assoc]
      exact hk

end PathBuf

/-! ### Files -/

/-- What a name stands for. -/
inductive Node
  /-- A directory. -/
  | dir
  /-- A regular file, by its inode. -/
  | file (ino : ℕ)
deriving DecidableEq

/-- Write `b` at offset `off` of `old`; a gap before `off` reads as zeros.  Writing nothing
changes nothing. -/
def splice (old : Bytes) (off : ℕ) (b : Bytes) : Bytes :=
  if b = [] then old
  else old.take off ++ List.replicate (off - old.length) 0 ++ b ++ old.drop (off + b.length)

lemma length_splice_le {old b : Bytes} {off n : ℕ} (h : old.length ≤ n) (hb : off + b.length ≤ n) :
    (splice old off b).length ≤ n := by
  unfold splice
  split
  · exact h
  · simp only [List.length_append, List.length_take, List.length_replicate, List.length_drop]
    omega

/-- What was written is read back. -/
lemma getElem?_splice_of_mem {old b : Bytes} {off p : ℕ} (h : off ≤ p) (h' : p < off + b.length) :
    (splice old off b)[p]? = b[p - off]? := by
  have hb : b ≠ [] := by
    rintro rfl
    simp at h'
    omega
  have hlen : (old.take off ++ List.replicate (off - old.length) 0).length = off := by
    simp only [List.length_append, List.length_take, List.length_replicate]
    omega
  rw [splice, if_neg hb, List.append_assoc, List.getElem?_append_right (by omega), hlen,
    List.getElem?_append_left (by omega)]

/-- What was there before and was not written over is still there. -/
lemma getElem?_splice_of_lt {old b : Bytes} {off p : ℕ} (hp : p < old.length)
    (h : p < off ∨ off + b.length ≤ p) : (splice old off b)[p]? = old[p]? := by
  unfold splice
  split
  · rfl
  rcases h with h | h
  · rw [List.append_assoc, List.append_assoc, List.getElem?_append_left
      (by simp only [List.length_take]; omega), List.getElem?_take_of_lt h]
  · have hlen : (old.take off ++ List.replicate (off - old.length) 0 ++ b).length
        = off + b.length := by
      simp only [List.length_append, List.length_take, List.length_replicate]
      omega
    rw [List.getElem?_append_right (by omega), hlen, List.getElem?_drop]
    congr 1
    omega

/-- A part of `b`, byte by byte. -/
lemma getElem?_of_prefix_drop {b d : Bytes} {off p : ℕ} (hd : d <+: b.drop off) (h : off ≤ p)
    (h' : p < off + d.length) : d[p - off]? = b[p]? := by
  obtain ⟨r, hr⟩ := hd
  calc d[p - off]? = (d ++ r)[p - off]? := (List.getElem?_append_left (by omega)).symm
    _ = b[off + (p - off)]? := by rw [hr, List.getElem?_drop]
    _ = b[p]? := by rw [Nat.add_sub_cancel' h]

/-- Writing a part of `b` where it belongs keeps what agrees with `b`. -/
lemma splice_agrees {old b c : Bytes} {off n : ℕ} (hc : c <+: b.drop off) (hn : n ≤ b.length)
    (h : ∀ p < n, old[p]? = b[p]?) : ∀ p < n, (splice old off c)[p]? = b[p]? := by
  intro p hp
  have hold : p < old.length := by
    have hsome : old[p]? = some b[p] := (h p hp).trans (List.getElem?_eq_getElem (by omega))
    exact (List.getElem?_eq_some_iff.1 hsome).1
  by_cases hin : off ≤ p ∧ p < off + c.length
  · rw [getElem?_splice_of_mem hin.1 hin.2, getElem?_of_prefix_drop hc hin.1 hin.2]
  · rw [getElem?_splice_of_lt hold (by omega)]
    exact h p hp

/-- Writing on where the agreement with `b` ends extends it. -/
lemma splice_agrees_end {old b c : Bytes} {off : ℕ} (hc : c <+: b.drop off) (hoff : off ≤ b.length)
    (h : ∀ p < off, old[p]? = b[p]?) : ∀ p < off + c.length, (splice old off c)[p]? = b[p]? := by
  intro p hp
  by_cases hlt : p < off
  · exact splice_agrees hc hoff h p hlt
  · rw [getElem?_splice_of_mem (by omega) hp, getElem?_of_prefix_drop hc (by omega) hp]

/-- What agrees with `b` up to its end and is not longer is `b`. -/
lemma eq_of_agrees {old b : Bytes} (hlen : old.length ≤ b.length)
    (h : ∀ p < b.length, old[p]? = b[p]?) : old = b := by
  refine List.ext_getElem? fun p => ?_
  by_cases hp : p < b.length
  · exact h p hp
  · rw [List.getElem?_eq_none (by omega), List.getElem?_eq_none (by omega)]

/-- Writing a part of `b` where it belongs changes nothing about `b`. -/
lemma splice_self {b c : Bytes} {off : ℕ} (hc : c <+: b.drop off) (hoff : off + c.length ≤ b.length) :
    splice b off c = b :=
  eq_of_agrees (length_splice_le le_rfl hoff) (splice_agrees hc le_rfl fun _ _ => rfl)

/-- Writing at the end appends. -/
lemma splice_length (old b : Bytes) : splice old old.length b = old ++ b := by
  unfold splice
  split
  · rename_i h
    rw [h, List.append_nil]
  · simp

/-- The names of a file system and what they stand for. -/
abbrev Names : Type := AList (fun _ : Key => Node)

namespace Names

/-- The working directory, the root, and every name of a directory. -/
def IsDir (t : Names) (k : Key) : Prop := k = [] ∨ k = [['/']] ∨ t.lookup k = some .dir

instance (t : Names) (k : Key) : Decidable (t.IsDir k) := by unfold IsDir; infer_instance

/-- The tables of names that arise. -/
structure Valid (t : Names) (next : ℕ) : Prop where
  /-- The named inodes have been given out. -/
  fresh : ∀ k i, t.lookup k = some (.file i) → i < next
  /-- An inode has at most one name. -/
  inj : ∀ k l i, t.lookup k = some (.file i) → t.lookup l = some (.file i) → k = l
  /-- A name is in a directory, and is not that of the root. -/
  tree : ∀ k n, t.lookup k = some n → k ≠ [] ∧ k ≠ [['/']] ∧ t.IsDir k.dropLast

variable {t : Names} {next : ℕ}

lemma isDir_insert {k l : Key} {n : Node} (hk : ¬t.IsDir k) (hl : t.IsDir l) :
    IsDir (t.insert k n) l := by
  have hne : l ≠ k := fun h => hk (h ▸ hl)
  rcases hl with hl | hl | hl
  · exact Or.inl hl
  · exact Or.inr (Or.inl hl)
  · exact Or.inr (Or.inr (by rwa [AList.lookup_insert_ne hne]))

/-- A name that is not that of a directory can be given to a directory, or to a file that
has no other name. -/
lemma Valid.insert (h : t.Valid next) {k : Key} {n : Node} (hk : ¬t.IsDir k)
    (hp : t.IsDir k.dropLast)
    (hn : ∀ i, n = .file i → i < next ∧ ∀ l, t.lookup l = some (.file i) → l = k) :
    Valid (t.insert k n) next where
  fresh := by
    intro l i hl
    by_cases hkl : l = k
    · subst hkl
      rw [AList.lookup_insert] at hl
      exact (hn i (Option.some.inj hl)).1
    · exact h.fresh l i (by rwa [AList.lookup_insert_ne hkl] at hl)
  inj := by
    intro l m i hl hm
    by_cases hkl : l = k
    · subst hkl
      rw [AList.lookup_insert] at hl
      by_cases hkm : m = l
      · exact hkm.symm
      · rw [AList.lookup_insert_ne hkm] at hm
        exact ((hn i (Option.some.inj hl)).2 m hm).symm
    · rw [AList.lookup_insert_ne hkl] at hl
      by_cases hkm : m = k
      · subst hkm
        rw [AList.lookup_insert] at hm
        exact (hn i (Option.some.inj hm)).2 l hl
      · exact h.inj l m i hl (by rwa [AList.lookup_insert_ne hkm] at hm)
  tree := by
    intro l m hl
    by_cases hkl : l = k
    · subst hkl
      exact ⟨fun h0 => hk (Or.inl h0), fun h0 => hk (Or.inr (Or.inl h0)), isDir_insert hk hp⟩
    · rw [AList.lookup_insert_ne hkl] at hl
      obtain ⟨h1, h2, h3⟩ := h.tree l m hl
      exact ⟨h1, h2, isDir_insert hk h3⟩

/-- A name with nothing below it can be taken away. -/
lemma Valid.erase (h : t.Valid next) {k : Key}
    (hk : ∀ l n, t.lookup l = some n → l.dropLast ≠ k ∨ k = [['/']]) :
    Valid (t.erase k) next := by
  have key : ∀ l n, (t.erase k).lookup l = some n → t.lookup l = some n := by
    intro l n hl
    by_cases hkl : l = k
    · subst hkl
      simp at hl
    · rwa [AList.lookup_erase_ne hkl] at hl
  refine ⟨fun l i hl => h.fresh l i (key l _ hl), fun l m i hl hm =>
    h.inj l m i (key l _ hl) (key m _ hm), fun l n hl => ?_⟩
  obtain ⟨h1, h2, h3⟩ := h.tree l n (key l n hl)
  refine ⟨h1, h2, ?_⟩
  rcases h3 with h3 | h3 | h3
  · exact Or.inl h3
  · exact Or.inr (Or.inl h3)
  · rcases hk l n (key l n hl) with hne | rfl
    · exact Or.inr (Or.inr (by rwa [AList.lookup_erase_ne hne]))
    · by_cases hr : l.dropLast = [['/']]
      · exact Or.inr (Or.inl hr)
      · exact Or.inr (Or.inr (by rwa [AList.lookup_erase_ne hr]))

lemma Valid.erase_file (h : t.Valid next) {k : Key} {i : ℕ} (hk : t.lookup k = some (.file i)) :
    Valid (t.erase k) next := by
  refine h.erase fun l n hl => Or.inl ?_
  rintro rfl
  rcases (h.tree l n hl).2.2 with h0 | h0 | h0
  · exact (h.tree _ _ hk).1 h0
  · exact (h.tree _ _ hk).2.1 h0
  · simp [h0] at hk

lemma Valid.mono (h : t.Valid next) {next' : ℕ} (hle : next ≤ next') : t.Valid next' :=
  ⟨fun k i hk => Nat.lt_of_lt_of_le (h.fresh k i hk) hle, h.inj, h.tree⟩

lemma Valid.not_isDir (h : t.Valid next) {k : Key} {i : ℕ} (hk : t.lookup k = some (.file i)) :
    ¬t.IsDir k := by
  rintro (h0 | h0 | h0)
  · exact (h.tree _ _ hk).1 h0
  · exact (h.tree _ _ hk).2.1 h0
  · simp [h0] at hk

/-- Above a directory there are only directories. -/
lemma Valid.isDir_dropLast (h : t.Valid next) {k : Key} (hk : t.IsDir k) : t.IsDir k.dropLast := by
  rcases hk with rfl | rfl | hk
  · exact Or.inl rfl
  · exact Or.inl rfl
  · exact (h.tree _ _ hk).2.2

end Names

/-- A file system. -/
structure Fs where
  /-- The names and what they stand for. -/
  names : Names
  /-- The contents of the inodes. -/
  data : ℕ → Bytes
  /-- The next inode. -/
  next : ℕ
  /-- The table of names is one that can arise. -/
  valid : names.Valid next

namespace Fs

/-- The empty file system. -/
def empty : Fs := ⟨∅, fun _ => [], 0, by simp, by simp, by simp⟩

/-- What the name `k` stands for. -/
def lookup (fs : Fs) (k : Key) : Option Node := fs.names.lookup k

/-- The working directory, the root, and every name of a directory. -/
def IsDir (fs : Fs) (k : Key) : Prop := fs.names.IsDir k

instance (fs : Fs) (k : Key) : Decidable (fs.IsDir k) := by unfold IsDir; infer_instance

/-- The content of the file `k`. -/
def read (fs : Fs) (k : Key) : Option Bytes :=
  match fs.lookup k with
  | some (.file i) => some (fs.data i)
  | _ => none

/-- Give the name `k` to a directory, unless it is taken. -/
def mkdir (fs : Fs) (k : Key) : Fs :=
  if h : ¬fs.IsDir k ∧ fs.lookup k = none ∧ fs.IsDir k.dropLast then
    { fs with
      names := fs.names.insert k .dir
      valid := fs.valid.insert h.1 h.2.2 (by simp) }
  else fs

/-- Create the directories `k ++ [c₁]`, `k ++ [c₁, c₂]`, …; `none` if a file stands in the
way. -/
def mkdirsFrom (fs : Fs) (k : Key) : Key → Option Fs
  | [] => some fs
  | c :: cs =>
      match fs.lookup (k ++ [c]) with
      | some (.file _) => none
      | _ => mkdirsFrom (fs.mkdir (k ++ [c])) (k ++ [c]) cs

/-- Create a directory and all its parents; `none` if a file stands in the way. -/
def mkdirs (fs : Fs) (k : Key) : Option Fs := fs.mkdirsFrom [] k

/-- Replace the content of an inode. -/
def setData (fs : Fs) (i : ℕ) (b : Bytes) : Fs :=
  { fs with data := Function.update fs.data i b }

/-- Write through a handle. -/
def writeAt (fs : Fs) (i off : ℕ) (b : Bytes) : Fs := fs.setData i (splice (fs.data i) off b)

/-- Open `k` for writing: an existing file is truncated, a new one is made in an existing
directory. -/
def create (fs : Fs) (k : Key) : Option (ℕ × Fs) :=
  match hk : fs.lookup k with
  | some (.file i) => some (i, fs.setData i [])
  | some .dir => none
  | none =>
      if h : ¬fs.IsDir k ∧ fs.IsDir k.dropLast then
        some (fs.next,
          { names := fs.names.insert k (.file fs.next)
            data := Function.update fs.data fs.next []
            next := fs.next + 1
            valid := by
              refine (fs.valid.mono (Nat.le_succ _)).insert h.1 h.2 ?_
              rintro i ⟨⟩
              refine ⟨Nat.lt_succ_self _, fun l hl => ?_⟩
              exact absurd (fs.valid.fresh l _ hl) (lt_irrefl _) })
      else none

/-- Write a whole file. -/
def write (fs : Fs) (k : Key) (b : Bytes) : Option Fs :=
  (fs.create k).map fun p => p.2.setData p.1 b

/-- Remove the file `k`. -/
def unlink (fs : Fs) (k : Key) : Option Fs :=
  match hk : fs.lookup k with
  | some (.file _) =>
      some { fs with
        names := fs.names.erase k
        valid := fs.valid.erase_file hk }
  | _ => none

/-- Remove the empty directory `k`. -/
def rmdir (fs : Fs) (k : Key) : Option Fs :=
  if h : fs.lookup k = some .dir ∧ ∀ l ∈ fs.names.keys, l.dropLast ≠ k then
    some { fs with
      names := fs.names.erase k
      valid := by
        refine fs.valid.erase fun l n hl => Or.inl (h.2 l ?_)
        exact AList.lookup_isSome.1 (by rw [hl]; rfl) }
  else none

/-- Give the file `k` the name `l`, replacing a file of that name. -/
def rename (fs : Fs) (k l : Key) : Option Fs :=
  match hk : fs.lookup k with
  | some (.file i) =>
      if hl : ¬fs.IsDir l ∧ fs.IsDir l.dropLast then
        if hkl : k = l then some fs
        else
          have herase : ∀ m, fs.IsDir m → Names.IsDir (fs.names.erase k) m := by
            intro m hm
            have hne : m ≠ k := fun h => fs.valid.not_isDir hk (h ▸ hm)
            rcases hm with hm | hm | hm
            · exact Or.inl hm
            · exact Or.inr (Or.inl hm)
            · exact Or.inr (Or.inr (by rwa [AList.lookup_erase_ne hne]))
          some { fs with
            names := (fs.names.erase k).insert l (.file i)
            valid := by
              refine (fs.valid.erase_file hk).insert ?_ (herase _ hl.2) ?_
              · rintro (h0 | h0 | h0)
                · exact hl.1 (Or.inl h0)
                · exact hl.1 (Or.inr (Or.inl h0))
                · rw [AList.lookup_erase_ne (Ne.symm hkl)] at h0
                  exact hl.1 (Or.inr (Or.inr h0))
              · rintro j ⟨⟩
                refine ⟨fs.valid.fresh k i hk, fun m hm => ?_⟩
                by_cases hmk : m = k
                · subst hmk
                  simp at hm
                · rw [AList.lookup_erase_ne hmk] at hm
                  exact absurd (fs.valid.inj m k i hm hk) hmk }
      else none
  | _ => none

/-! ### What the operations do -/

variable {fs fs' : Fs} {k l : Key} {i : ℕ} {b : Bytes}

lemma read_eq_some_iff :
    fs.read k = some b ↔ ∃ i, fs.lookup k = some (.file i) ∧ fs.data i = b := by
  unfold read
  split <;> simp_all

lemma not_isDir_of_lookup (h : fs.lookup k = some (.file i)) : ¬fs.IsDir k :=
  fs.valid.not_isDir h

lemma isDir_dropLast_of_lookup {n : Node} (h : fs.lookup k = some n) : fs.IsDir k.dropLast :=
  (fs.valid.tree k n h).2.2

lemma lookup_inj (h1 : fs.lookup k = some (.file i)) (h2 : fs.lookup l = some (.file i)) :
    k = l :=
  fs.valid.inj k l i h1 h2

lemma lookup_lt (h : fs.lookup k = some (.file i)) : i < fs.next := fs.valid.fresh k i h

@[simp] lemma setData_lookup (fs : Fs) (i : ℕ) (b : Bytes) (k : Key) :
    (fs.setData i b).lookup k = fs.lookup k := rfl

@[simp] lemma setData_next (fs : Fs) (i : ℕ) (b : Bytes) : (fs.setData i b).next = fs.next := rfl

@[simp] lemma setData_data (fs : Fs) (i : ℕ) (b : Bytes) :
    (fs.setData i b).data = Function.update fs.data i b := rfl

@[simp] lemma writeAt_nil (fs : Fs) (i off : ℕ) : fs.writeAt i off [] = fs := by
  simp [writeAt, setData, splice]

/-- What making directories leaves alone: the files. -/
structure Grows (fs fs' : Fs) : Prop where
  data : fs'.data = fs.data
  next : fs'.next = fs.next
  file : ∀ l i, fs'.lookup l = some (.file i) ↔ fs.lookup l = some (.file i)
  dir : ∀ l, fs.IsDir l → fs'.IsDir l

lemma Grows.refl (fs : Fs) : Grows fs fs := ⟨rfl, rfl, fun _ _ => Iff.rfl, fun _ h => h⟩

lemma Grows.trans {fs'' : Fs} (h : Grows fs fs') (h' : Grows fs' fs'') : Grows fs fs'' :=
  ⟨h'.data.trans h.data, h'.next.trans h.next, fun l i => (h'.file l i).trans (h.file l i),
    fun l hl => h'.dir l (h.dir l hl)⟩

lemma Grows.read (h : Grows fs fs') (k : Key) : fs'.read k = fs.read k := by
  ext b
  rw [read_eq_some_iff, read_eq_some_iff]
  simp only [h.file, h.data]

lemma mkdir_grows (fs : Fs) (k : Key) : Grows fs (fs.mkdir k) := by
  unfold mkdir
  split
  · rename_i h
    refine ⟨rfl, rfl, fun l i => ?_, fun l hl => Names.isDir_insert h.1 hl⟩
    by_cases hlk : l = k
    · subst hlk
      rw [h.2.1]
      simp [lookup, AList.lookup_insert]
    · simp only [lookup, AList.lookup_insert_ne hlk]
  · exact Grows.refl fs

lemma mkdir_lookup_ne (h : l ≠ k) : (fs.mkdir k).lookup l = fs.lookup l := by
  unfold mkdir
  split
  · exact AList.lookup_insert_ne h
  · rfl

lemma mkdir_isDir (hp : fs.IsDir k.dropLast) (hk : ∀ i, fs.lookup k ≠ some (.file i)) :
    (fs.mkdir k).IsDir k := by
  unfold mkdir
  split
  · exact Or.inr (Or.inr (AList.lookup_insert _))
  · rename_i h
    by_contra hd
    refine h ⟨hd, ?_, hp⟩
    cases hl : fs.lookup k with
    | none => rfl
    | some n =>
      cases n with
      | dir => exact absurd (Or.inr (Or.inr hl)) hd
      | file i => exact absurd hl (hk i)

lemma mkdirsFrom_grows {cs : Key} (h : fs.mkdirsFrom k cs = some fs') : Grows fs fs' := by
  induction cs generalizing fs k with
  | nil =>
    obtain rfl := Option.some.inj h
    exact Grows.refl fs
  | cons c cs ih =>
    unfold mkdirsFrom at h
    split at h
    · exact absurd h nofun
    · exact (mkdir_grows fs _).trans (ih h)

lemma mkdirsFrom_isDir {cs : Key} (hk : fs.IsDir k) (h : fs.mkdirsFrom k cs = some fs') :
    fs'.IsDir (k ++ cs) := by
  induction cs generalizing fs k with
  | nil =>
    obtain rfl := Option.some.inj h
    simpa using hk
  | cons c cs ih =>
    unfold mkdirsFrom at h
    split at h
    · exact absurd h nofun
    · rename_i hc
      have := ih (mkdir_isDir (by simpa using hk) fun i hi => hc i hi) h
      simpa using this

lemma mkdirsFrom_lookup_ne {cs : Key} (h : fs.mkdirsFrom k cs = some fs')
    (hl : ¬l <+: k ++ cs) : fs'.lookup l = fs.lookup l := by
  induction cs generalizing fs k with
  | nil =>
    obtain rfl := Option.some.inj h
    rfl
  | cons c cs ih =>
    unfold mkdirsFrom at h
    split at h
    · exact absurd h nofun
    · have hne : l ≠ k ++ [c] := by
        rintro rfl
        exact hl ⟨cs, by simp⟩
      rw [ih h (by simpa using hl), mkdir_lookup_ne hne]

lemma mkdirs_grows (h : fs.mkdirs k = some fs') : Grows fs fs' := mkdirsFrom_grows h

lemma mkdirs_isDir (h : fs.mkdirs k = some fs') : fs'.IsDir k :=
  mkdirsFrom_isDir (k := []) (Or.inl rfl) h

lemma mkdirs_lookup_ne (h : fs.mkdirs k = some fs') (hl : ¬l <+: k) :
    fs'.lookup l = fs.lookup l :=
  mkdirsFrom_lookup_ne (k := []) h hl

lemma isDir_of_isPrefix (h : fs.IsDir (k ++ l)) : fs.IsDir k := by
  induction l using List.reverseRecOn with
  | nil => simpa using h
  | append_singleton l c ih =>
    refine ih ?_
    have := fs.valid.isDir_dropLast h
    rwa [← List.append_assoc, List.dropLast_concat] at this

/-- A directory that is there is not made again. -/
lemma mkdirs_of_isDir (h : fs.IsDir k) : fs.mkdirs k = some fs := by
  have key : ∀ (cs k : Key), fs.IsDir (k ++ cs) → fs.mkdirsFrom k cs = some fs := by
    intro cs
    induction cs with
    | nil => exact fun _ _ => rfl
    | cons c cs ih =>
      intro k hk
      have hc : fs.IsDir (k ++ [c]) := isDir_of_isPrefix (l := cs) (by simpa using hk)
      have hmk : fs.mkdir (k ++ [c]) = fs := by
        unfold mkdir
        rw [dif_neg fun h => h.1 hc]
      unfold mkdirsFrom
      split
      · rename_i hf
        exact absurd hc (not_isDir_of_lookup hf)
      · rw [hmk]
        exact ih _ (by simpa using hk)
  exact key k [] h

/-- Opening for writing: the name stands for the handle, which is empty and is the old
file of that name or a new one. -/
structure Created (fs : Fs) (k : Key) (i : ℕ) (fs' : Fs) : Prop where
  lookup_self : fs'.lookup k = some (.file i)
  lookup_ne : ∀ l, l ≠ k → fs'.lookup l = fs.lookup l
  data_self : fs'.data i = []
  data_ne : ∀ j, j ≠ i → fs'.data j = fs.data j
  old : fs.lookup k = some (.file i) ∨ fs.lookup k = none ∧ i = fs.next
  next_le : fs.next ≤ fs'.next

lemma create_spec (h : fs.create k = some (i, fs')) : Created fs k i fs' := by
  unfold create at h
  split at h
  · rename_i j hk
    obtain ⟨rfl, rfl⟩ := Prod.mk.inj (Option.some.inj h)
    exact ⟨hk, fun _ _ => rfl, by simp, fun j hj => by simp [hj], Or.inl hk, le_rfl⟩
  · exact absurd h nofun
  · rename_i hk
    split at h
    · obtain ⟨rfl, rfl⟩ := Prod.mk.inj (Option.some.inj h)
      refine ⟨AList.lookup_insert _, fun l hl => AList.lookup_insert_ne hl, by simp,
        fun j hj => by simp [hj], Or.inr ⟨hk, rfl⟩, Nat.le_succ _⟩
    · exact absurd h nofun

lemma Created.lt (h : Created fs k i fs') : i < fs'.next := lookup_lt h.lookup_self

/-- Opening for writing fails on a directory and outside of one. -/
lemma create_eq_none_iff : fs.create k = none ↔
    fs.IsDir k ∨ (fs.lookup k = none ∧ ¬fs.IsDir k.dropLast) := by
  unfold create
  split
  · rename_i i hk
    simp [hk, not_isDir_of_lookup hk]
  · rename_i hk
    simp only [true_iff]
    exact Or.inl (Or.inr (Or.inr hk))
  · rename_i hk
    split
    · rename_i h
      simp [h.1, h.2]
    · rename_i h
      simp only [true_iff]
      by_cases hd : fs.IsDir k
      · exact Or.inl hd
      · exact Or.inr ⟨hk, fun hp => h ⟨hd, hp⟩⟩

lemma isDir_congr {fs fs' : Fs} (h : fs'.lookup k = fs.lookup k) : fs'.IsDir k ↔ fs.IsDir k := by
  unfold IsDir Names.IsDir
  unfold lookup at h
  rw [h]

lemma Created.isDir (h : Created fs k i fs') (l : Key) : fs'.IsDir l ↔ fs.IsDir l := by
  by_cases hl : l = k
  · subst hl
    have h1 := not_isDir_of_lookup h.lookup_self
    refine ⟨fun h2 => absurd h2 h1, fun h2 => absurd ?_ h1⟩
    rcases h2 with h2 | h2 | h2
    · exact Or.inl h2
    · exact Or.inr (Or.inl h2)
    · have h3 : fs.lookup l = some .dir := h2
      rcases h.old with ho | ⟨ho, -⟩ <;> rw [ho] at h3 <;> exact absurd h3 nofun
  · exact isDir_congr (h.lookup_ne l hl)

lemma Created.read_ne (h : Created fs k i fs') (hl : l ≠ k) : fs'.read l = fs.read l := by
  have key : ∀ j, fs.lookup l = some (.file j) → fs'.data j = fs.data j := by
    intro j hj
    refine h.data_ne j ?_
    rintro rfl
    exact hl (lookup_inj (h.lookup_ne l hl ▸ hj) h.lookup_self)
  ext b
  simp only [read_eq_some_iff, h.lookup_ne l hl]
  constructor
  · rintro ⟨j, hj, hb⟩
    exact ⟨j, hj, key j hj ▸ hb⟩
  · rintro ⟨j, hj, hb⟩
    exact ⟨j, hj, (key j hj).trans hb⟩

lemma read_setData_self (h : fs.lookup k = some (.file i)) : (fs.setData i b).read k = some b :=
  read_eq_some_iff.2 ⟨i, h, by simp⟩

lemma read_setData_ne (h : fs.lookup k = some (.file i)) (hl : l ≠ k) :
    (fs.setData i b).read l = fs.read l := by
  ext c
  simp only [read_eq_some_iff, setData_lookup, setData_data]
  constructor
  · rintro ⟨j, hj, hc⟩
    have hji : j ≠ i := by
      rintro rfl
      exact hl (lookup_inj hj h)
    exact ⟨j, hj, by simpa [hji] using hc⟩
  · rintro ⟨j, hj, hc⟩
    have hji : j ≠ i := by
      rintro rfl
      exact hl (lookup_inj hj h)
    exact ⟨j, hj, by simpa [hji] using hc⟩

/-- Writing a whole file. -/
structure Written (fs : Fs) (k : Key) (b : Bytes) (fs' : Fs) : Prop where
  read_self : fs'.read k = some b
  read_ne : ∀ l, l ≠ k → fs'.read l = fs.read l
  lookup_ne : ∀ l, l ≠ k → fs'.lookup l = fs.lookup l
  isDir : ∀ l, fs'.IsDir l ↔ fs.IsDir l

lemma Created.written (h : Created fs k i fs') (b : Bytes) : Written fs k b (fs'.setData i b) :=
  ⟨read_setData_self h.lookup_self,
    fun _ hl => (read_setData_ne h.lookup_self hl).trans (h.read_ne hl),
    fun l hl => h.lookup_ne l hl, fun l => h.isDir l⟩

lemma write_spec (h : fs.write k b = some fs') : Written fs k b fs' := by
  obtain ⟨⟨i, fs''⟩, hc, rfl⟩ := Option.map_eq_some_iff.1 h
  exact (create_spec hc).written b

/-- Taking a name away. -/
structure Removed (fs : Fs) (k : Key) (fs' : Fs) : Prop where
  lookup_self : fs'.lookup k = none
  lookup_ne : ∀ l, l ≠ k → fs'.lookup l = fs.lookup l
  data : fs'.data = fs.data
  next : fs'.next = fs.next

lemma unlink_spec (h : fs.unlink k = some fs') :
    Removed fs k fs' ∧ ∃ i, fs.lookup k = some (.file i) := by
  unfold unlink at h
  split at h
  · rename_i i hk
    obtain rfl := Option.some.inj h
    exact ⟨⟨AList.lookup_erase _ _, fun l hl => AList.lookup_erase_ne hl, rfl, rfl⟩, i, hk⟩
  · exact absurd h nofun

lemma unlink_of_lookup (h : fs.lookup k = some (.file i)) : ∃ fs', fs.unlink k = some fs' := by
  unfold unlink
  split
  · exact ⟨_, rfl⟩
  · rename_i hk
    exact absurd h (hk i)

lemma rmdir_spec (h : fs.rmdir k = some fs') : Removed fs k fs' ∧ fs.lookup k = some .dir := by
  unfold rmdir at h
  split at h
  · rename_i hk
    obtain rfl := Option.some.inj h
    exact ⟨⟨AList.lookup_erase _ _, fun l hl => AList.lookup_erase_ne hl, rfl, rfl⟩, hk.1⟩
  · exact absurd h nofun

lemma Removed.read_ne (h : Removed fs k fs') (hl : l ≠ k) : fs'.read l = fs.read l := by
  unfold read
  rw [h.lookup_ne l hl, h.data]

lemma Removed.read_self (h : Removed fs k fs') : fs'.read k = none := by
  unfold read
  rw [h.lookup_self]

lemma Removed.isDir (h : Removed fs k fs') (hf : ∃ i, fs.lookup k = some (.file i)) (l : Key) :
    fs'.IsDir l ↔ fs.IsDir l := by
  by_cases hl : l = k
  · subst hl
    obtain ⟨i, hi⟩ := hf
    have hnot := not_isDir_of_lookup hi
    refine ⟨fun h' => absurd ?_ hnot, fun h' => absurd h' hnot⟩
    rcases h' with h' | h' | h'
    · exact Or.inl h'
    · exact Or.inr (Or.inl h')
    · exact absurd (h.lookup_self.symm.trans h') nofun
  · exact isDir_congr (h.lookup_ne l hl)

/-- Giving the file `k` the name `l`. -/
structure Renamed (fs : Fs) (k l : Key) (fs' : Fs) : Prop where
  file : ∃ i, fs.lookup k = some (.file i) ∧ fs'.lookup l = some (.file i)
  not_isDir : ¬fs.IsDir l
  lookup_old : k ≠ l → fs'.lookup k = none
  lookup_ne : ∀ m, m ≠ k → m ≠ l → fs'.lookup m = fs.lookup m
  data : fs'.data = fs.data
  next : fs'.next = fs.next

lemma rename_spec (h : fs.rename k l = some fs') : Renamed fs k l fs' := by
  unfold rename at h
  split at h
  · rename_i i hk
    split at h
    · rename_i hl
      split at h
      · rename_i hkl
        obtain rfl := Option.some.inj h
        exact ⟨⟨i, hk, hkl ▸ hk⟩, hl.1, fun hne => absurd hkl hne, fun _ _ _ => rfl, rfl, rfl⟩
      · rename_i hkl
        obtain rfl := Option.some.inj h
        refine ⟨⟨i, hk, AList.lookup_insert _⟩, hl.1, fun _ => ?_, fun m hm hm' => ?_, rfl, rfl⟩
        · exact (AList.lookup_insert_ne hkl).trans (AList.lookup_erase _ _)
        · exact (AList.lookup_insert_ne hm').trans (AList.lookup_erase_ne hm)
    · exact absurd h nofun
  · exact absurd h nofun

end Fs

end RspacefsCsi.Lib
