/-
# Parts of a file system

A `Region` is a set of names that is closed under going down.  Two file systems agree on a region
(`AgreeOn`) if they show the same at each of its names, and if a file stands in the way to it in
the one where one does in the other.  The files may be numbered differently; `Matched` pairs the
numbers, also those of files that have lost their name and are still written to through a handle.
Every call with names of the region, or with paired handles, succeeds on both or on neither and
leaves them matched.  On the other side, such a call changes nothing outside of the region except
that it may make directories on the way to it (`OnlyIn`), and two file systems that are matched on
another region, disjoint from the first, stay so (`OnlyIn.matched`).
-/
import RspacefsCsi.Lib.Files

namespace RspacefsCsi.Lib

/-- A set of names that is closed under going down. -/
structure Region where
  /-- The names. -/
  mem : Key → Prop
  /-- What is below a name of the region is in the region. -/
  down : ∀ {k l : Key}, mem k → mem (k ++ l)

namespace Region

/-- The names below one of two names. -/
def below (a b : Key) : Region where
  mem k := a <+: k ∨ b <+: k
  down := by
    rintro k l (h | h)
    · exact .inl (h.trans (List.prefix_append k l))
    · exact .inr (h.trans (List.prefix_append k l))

/-- Two regions without a common name. -/
def Disjoint (s t : Region) : Prop := ∀ k, ¬(s.mem k ∧ t.mem k)

lemma Disjoint.symm {s t : Region} (h : s.Disjoint t) : t.Disjoint s := fun k hk => h k hk.symm

/-- Names below names that do not lie below each other are not the same. -/
lemma disjoint_below {a b c d : Key} (hac : ¬a <+: c) (hca : ¬c <+: a) (had : ¬a <+: d)
    (hda : ¬d <+: a) (hbc : ¬b <+: c) (hcb : ¬c <+: b) (hbd : ¬b <+: d) (hdb : ¬d <+: b) :
    (below a b).Disjoint (below c d) := by
  have key : ∀ {p q k : Key}, ¬p <+: q → ¬q <+: p → p <+: k → q <+: k → False := by
    intro p q k hpq hqp hp hq
    rcases List.prefix_or_prefix_of_prefix hp hq with h | h
    · exact hpq h
    · exact hqp h
  rintro k ⟨h | h, h' | h'⟩
  · exact key hac hca h h'
  · exact key had hda h h'
  · exact key hbc hcb h h'
  · exact key hbd hdb h h'

end Region

namespace Fs

variable {fs fs' gs gs' : Fs} {k l : Key} {s : Region}

/-! ### What is seen at a name -/

/-- What is at a name: nothing, a directory, or a file with its content. -/
def sight (fs : Fs) (k : Key) : Option (Option Bytes) :=
  (fs.lookup k).map fun
    | .dir => none
    | .file i => some (fs.data i)

lemma sight_eq_none_iff : fs.sight k = none ↔ fs.lookup k = none := Option.map_eq_none_iff

lemma sight_eq_dir_iff : fs.sight k = some none ↔ fs.lookup k = some .dir := by
  unfold sight
  cases fs.lookup k with
  | none => simp
  | some n => cases n <;> simp

lemma sight_eq_file_iff {b : Bytes} :
    fs.sight k = some (some b) ↔ ∃ i, fs.lookup k = some (.file i) ∧ fs.data i = b := by
  unfold sight
  cases fs.lookup k with
  | none => simp
  | some n => cases n <;> simp

lemma sight_of_file {i : ℕ} (h : fs.lookup k = some (.file i)) : fs.sight k = some (some (fs.data i)) :=
  sight_eq_file_iff.2 ⟨i, h, rfl⟩

lemma read_eq_none_iff : fs.read k = none ↔ ∀ i, fs.lookup k ≠ some (.file i) := by
  unfold read
  split
  · rename_i i hi
    exact ⟨fun h => absurd h (by rintro ⟨⟩), fun h => absurd hi (h i)⟩
  · rename_i hnot
    exact ⟨fun _ i hi => hnot i hi, fun _ => rfl⟩

lemma read_eq_sight : fs.read k = (fs.sight k).join := by
  unfold read sight
  cases fs.lookup k with
  | none => rfl
  | some n => cases n <;> rfl

lemma isDir_iff_sight : fs.IsDir k ↔ k = [] ∨ k = [['/']] ∨ fs.sight k = some none := by
  rw [sight_eq_dir_iff]
  exact Iff.rfl

lemma isDir_congr_sight (h : fs.sight k = gs.sight k) : fs.IsDir k ↔ gs.IsDir k := by
  rw [isDir_iff_sight, isDir_iff_sight, h]

/-- The root has no name of its own. -/
lemma sight_of_isDir (h : fs.IsDir k) :
    fs.sight k = if k = [] ∨ k = [['/']] then none else some none := by
  split
  · rename_i hroot
    rw [sight_eq_none_iff]
    cases hk : fs.lookup k with
    | none => rfl
    | some n =>
      obtain ⟨h1, h2, -⟩ := fs.valid.tree k n hk
      exact absurd hroot (not_or.2 ⟨h1, h2⟩)
  · rename_i hroot
    rcases isDir_iff_sight.1 h with h | h | h
    · exact absurd (.inl h) hroot
    · exact absurd (.inr h) hroot
    · exact h

/-! ### What the calls do to it -/

lemma Created.sight_self {i : ℕ} (h : Created fs k i fs') : fs'.sight k = some (some []) :=
  sight_eq_file_iff.2 ⟨i, h.lookup_self, h.data_self⟩

lemma sight_congr_of_lookup (hlookup : fs'.lookup k = fs.lookup k) (hread : fs'.read k = fs.read k) :
    fs'.sight k = fs.sight k := by
  unfold sight
  unfold read at hread
  rw [hlookup] at hread ⊢
  cases hk : fs.lookup k with
  | none => rfl
  | some n =>
    rw [hk] at hread
    cases n with
    | dir => rfl
    | file i => exact congrArg some hread

lemma Created.sight_ne {i : ℕ} (h : Created fs k i fs') (hl : l ≠ k) : fs'.sight l = fs.sight l :=
  sight_congr_of_lookup (h.lookup_ne l hl) (h.read_ne hl)

lemma Removed.sight_self (h : Removed fs k fs') : fs'.sight k = none :=
  sight_eq_none_iff.2 h.lookup_self

lemma Removed.sight_ne (h : Removed fs k fs') (hl : l ≠ k) : fs'.sight l = fs.sight l :=
  sight_congr_of_lookup (h.lookup_ne l hl) (h.read_ne hl)

lemma Renamed.sight_new (h : Renamed fs k l fs') : fs'.sight l = fs.sight k := by
  obtain ⟨i, hk, hl⟩ := h.file
  simp only [sight, hk, hl, h.data]

lemma Renamed.sight_old (h : Renamed fs k l fs') (hne : k ≠ l) : fs'.sight k = none :=
  sight_eq_none_iff.2 (h.lookup_old hne)

lemma Renamed.sight_ne {m : Key} (h : Renamed fs k l fs') (hk : m ≠ k) (hl : m ≠ l) :
    fs'.sight m = fs.sight m := by
  simp only [sight, h.lookup_ne m hk hl, h.data]

lemma mkdirs_sight_above (h : fs.mkdirs k = some fs') (hl : l <+: k) :
    fs'.sight l = if l = [] ∨ l = [['/']] then none else some none := by
  obtain ⟨r, rfl⟩ := hl
  exact sight_of_isDir (isDir_of_isPrefix (mkdirs_isDir h))

lemma mkdirs_sight_ne (h : fs.mkdirs k = some fs') (hl : ¬l <+: k) : fs'.sight l = fs.sight l :=
  sight_congr_of_lookup (mkdirs_lookup_ne h hl) ((mkdirs_grows h).read l)

/-- Directories cannot be made where a file stands in the way. -/
lemma mkdirs_eq_none_iff : fs.mkdirs k = none ↔ ∃ l, l <+: k ∧ fs.read l ≠ none := by
  have key : ∀ (cs k : Key) (fs : Fs), fs.mkdirsFrom k cs = none ↔
      ∃ c r, c :: r <+: cs ∧ fs.read (k ++ c :: r) ≠ none := by
    intro cs
    induction cs with
    | nil =>
      intro k fs
      simp [mkdirsFrom]
    | cons c cs ih =>
      intro k fs
      have hgrows := mkdir_grows fs (k ++ [c])
      unfold mkdirsFrom
      split
      · rename_i i hi
        refine ⟨fun _ => ⟨c, [], by simp, ?_⟩, fun _ => rfl⟩
        simp [read, hi]
      · rename_i hnot
        have hread : fs.read (k ++ [c]) = none := by
          unfold read
          split
          · rename_i i hi
            exact absurd hi (hnot i)
          · rfl
        rw [ih]
        simp only [hgrows.read, List.append_assoc, List.singleton_append]
        constructor
        · rintro ⟨c', r, hr, hne⟩
          exact ⟨c, c' :: r, List.cons_prefix_cons.2 ⟨rfl, hr⟩, hne⟩
        · rintro ⟨c', r, hr, hne⟩
          obtain ⟨rfl, hr'⟩ := List.cons_prefix_cons.1 hr
          cases r with
          | nil => exact absurd hread hne
          | cons c'' r => exact ⟨c'', r, hr', hne⟩
  rw [mkdirs, key]
  constructor
  · rintro ⟨c, r, hr, hne⟩
    exact ⟨c :: r, hr, by simpa using hne⟩
  · rintro ⟨l, hl, hne⟩
    cases l with
    | nil =>
      refine absurd ?_ hne
      rw [read_eq_sight, sight_of_isDir (.inl rfl)]
      rfl
    | cons c r => exact ⟨c, r, hl, by simpa using hne⟩

/-! ### Agreement on a region -/

/-- Both show the same in the region, and a file stands in the way to it in both or in none. -/
structure AgreeOn (s : Region) (fs gs : Fs) : Prop where
  sight : ∀ k, s.mem k → fs.sight k = gs.sight k
  clear : ∀ k l, s.mem (k ++ l) → (fs.read k = none ↔ gs.read k = none)

lemma AgreeOn.refl (s : Region) (fs : Fs) : AgreeOn s fs fs := ⟨fun _ _ => rfl, fun _ _ _ => Iff.rfl⟩

lemma AgreeOn.symm (h : AgreeOn s fs gs) : AgreeOn s gs fs :=
  ⟨fun k hk => (h.sight k hk).symm, fun k l hk => (h.clear k l hk).symm⟩

lemma AgreeOn.trans {hs : Fs} (h : AgreeOn s fs gs) (h' : AgreeOn s gs hs) : AgreeOn s fs hs :=
  ⟨fun k hk => (h.sight k hk).trans (h'.sight k hk),
    fun k l hk => (h.clear k l hk).trans (h'.clear k l hk)⟩

lemma AgreeOn.read (h : AgreeOn s fs gs) (hk : s.mem k) : fs.read k = gs.read k := by
  rw [read_eq_sight, read_eq_sight, h.sight k hk]

lemma AgreeOn.isDir (h : AgreeOn s fs gs) (hk : s.mem k) : fs.IsDir k ↔ gs.IsDir k :=
  isDir_congr_sight (h.sight k hk)

lemma AgreeOn.lookup_eq_none (h : AgreeOn s fs gs) (hk : s.mem k) :
    fs.lookup k = none ↔ gs.lookup k = none := by
  rw [← sight_eq_none_iff, ← sight_eq_none_iff, h.sight k hk]

/-- A step that keeps the files on the way. -/
lemma AgreeOn.of_steps (h : AgreeOn s fs gs) (hsight : ∀ k, s.mem k → fs'.sight k = gs'.sight k)
    (hfs : ∀ k, ¬s.mem k → fs'.read k = fs.read k) (hgs : ∀ k, ¬s.mem k → gs'.read k = gs.read k) :
    AgreeOn s fs' gs' := by
  refine ⟨hsight, fun k l hk => ?_⟩
  by_cases hmem : s.mem k
  · rw [read_eq_sight, read_eq_sight, hsight k hmem]
  · rw [hfs k hmem, hgs k hmem]
    exact h.clear k l hk

/-- Both calls fail, or both succeed and what they lead to is related. -/
lemma rel_of_none_iff {r : Fs → Fs → Prop} {a b : Option Fs} (h : a = none ↔ b = none)
    (hr : ∀ fs gs, a = some fs → b = some gs → r fs gs) : Option.Rel r a b := by
  cases a with
  | none =>
    rw [h.1 rfl]
    exact .none
  | some fs =>
    cases b with
    | none => exact absurd (h.2 rfl) (by rintro ⟨⟩)
    | some gs => exact .some (hr fs gs rfl rfl)

lemma AgreeOn.mkdirs_eq_none (h : AgreeOn s fs gs) (hk : s.mem (k ++ l)) :
    fs.mkdirs k = none ↔ gs.mkdirs k = none := by
  rw [mkdirs_eq_none_iff, mkdirs_eq_none_iff]
  refine exists_congr fun m => and_congr_right fun hm => not_congr ?_
  obtain ⟨r, rfl⟩ := hm
  rw [List.append_assoc] at hk
  exact h.clear m _ hk

/-- Directories on the way to the region, or in it. -/
lemma AgreeOn.mkdirs (h : AgreeOn s fs gs) (hf : fs.mkdirs k = some fs')
    (hg : gs.mkdirs k = some gs') : AgreeOn s fs' gs' := by
  refine h.of_steps (fun m hm => ?_) (fun m _ => (mkdirs_grows hf).read m) fun m _ =>
    (mkdirs_grows hg).read m
  by_cases hmk : m <+: k
  · rw [mkdirs_sight_above hf hmk, mkdirs_sight_above hg hmk]
  · rw [mkdirs_sight_ne hf hmk, mkdirs_sight_ne hg hmk, h.sight m hm]

lemma AgreeOn.create_eq_none (h : AgreeOn s fs gs) (hk : s.mem k) (hp : s.mem k.dropLast) :
    fs.create k = none ↔ gs.create k = none := by
  rw [create_eq_none_iff, create_eq_none_iff, h.isDir hk, h.isDir hp, h.lookup_eq_none hk]

lemma ne_of_mem {m : Key} (hm : ¬s.mem m) (hk : s.mem k) : m ≠ k := by
  rintro rfl
  exact hm hk

/-- A file of the region is opened, under a number of its own in each of the two. -/
lemma AgreeOn.created (h : AgreeOn s fs gs) (hk : s.mem k) {i j : ℕ} (hf : Created fs k i fs')
    (hg : Created gs k j gs') : AgreeOn s fs' gs' := by
  refine h.of_steps (fun m hm => ?_) (fun m hm => hf.read_ne (ne_of_mem hm hk)) fun m hm =>
    hg.read_ne (ne_of_mem hm hk)
  by_cases hmk : m = k
  · rw [hmk, hf.sight_self, hg.sight_self]
  · rw [hf.sight_ne hmk, hg.sight_ne hmk, h.sight m hm]

/-- A name of the region is taken away. -/
lemma AgreeOn.removed (h : AgreeOn s fs gs) (hk : s.mem k) (hf : Removed fs k fs')
    (hg : Removed gs k gs') : AgreeOn s fs' gs' := by
  refine h.of_steps (fun m hm => ?_) (fun m hm => hf.read_ne (ne_of_mem hm hk)) fun m hm =>
    hg.read_ne (ne_of_mem hm hk)
  by_cases hmk : m = k
  · rw [hmk, hf.sight_self, hg.sight_self]
  · rw [hf.sight_ne hmk, hg.sight_ne hmk, h.sight m hm]

lemma unlink_eq_none_iff : fs.unlink k = none ↔ fs.read k = none := by
  cases h : fs.unlink k with
  | none =>
    refine ⟨fun _ => ?_, fun _ => rfl⟩
    cases hr : fs.read k with
    | none => rfl
    | some b =>
      obtain ⟨i, hi, -⟩ := read_eq_some_iff.1 hr
      obtain ⟨fs', hfs'⟩ := unlink_of_lookup hi
      exact absurd (h.symm.trans hfs') (by rintro ⟨⟩)
  | some fs' =>
    obtain ⟨-, i, hi⟩ := unlink_spec h
    refine ⟨by rintro ⟨⟩, fun hr => ?_⟩
    rw [read_eq_some_iff.2 ⟨i, hi, rfl⟩] at hr
    exact absurd hr (by rintro ⟨⟩)

lemma rmdir_eq_none_iff : fs.rmdir k = none ↔
    ¬(fs.sight k = some none ∧ ∀ l, l.dropLast = k → fs.sight l = none) := by
  have hkeys : (∀ l ∈ fs.names.keys, l.dropLast ≠ k) ↔ ∀ l, l.dropLast = k → fs.sight l = none := by
    refine forall_congr' fun l => ?_
    rw [sight_eq_none_iff]
    constructor
    · intro h hl
      exact AList.lookup_eq_none.2 fun hmem => h hmem hl
    · intro h hmem hl
      exact AList.lookup_eq_none.1 (h hl) hmem
  unfold rmdir
  rw [sight_eq_dir_iff, ← hkeys]
  split
  · rename_i h
    exact ⟨fun hnone => absurd hnone (by rintro ⟨⟩), fun hnot => absurd h hnot⟩
  · rename_i h
    exact ⟨fun _ => h, fun _ => rfl⟩

lemma AgreeOn.rmdir_eq_none (h : AgreeOn s fs gs) (hk : s.mem k) :
    fs.rmdir k = none ↔ gs.rmdir k = none := by
  have hbelow : ∀ l, l.dropLast = k → l ≠ [] → s.mem l := by
    rintro l rfl hne
    rw [← List.dropLast_append_getLast hne]
    exact s.down hk
  rw [rmdir_eq_none_iff, rmdir_eq_none_iff, h.sight k hk]
  refine not_congr (and_congr_right fun _ => forall_congr' fun l => ?_)
  refine forall_congr' fun hl => ?_
  by_cases hne : l = []
  · rw [hne, sight_of_isDir (.inl rfl), sight_of_isDir (.inl rfl)]
  · rw [h.sight l (hbelow l hl hne)]

lemma rename_eq_none_iff :
    fs.rename k l = none ↔ fs.read k = none ∨ fs.IsDir l ∨ ¬fs.IsDir l.dropLast := by
  unfold rename
  split
  · rename_i i hi
    have hread : fs.read k ≠ none := by
      rw [read_eq_some_iff.2 ⟨i, hi, rfl⟩]
      exact Option.some_ne_none _
    split
    · rename_i hl
      refine ⟨fun h => ?_, ?_⟩
      · split at h <;> exact absurd h (by rintro ⟨⟩)
      · rintro (h | h | h)
        · exact absurd h hread
        · exact absurd h hl.1
        · exact absurd hl.2 h
    · rename_i hl
      refine ⟨fun _ => .inr ?_, fun _ => rfl⟩
      by_cases hdir : fs.IsDir l
      · exact .inl hdir
      · exact .inr fun hp => hl ⟨hdir, hp⟩
  · rename_i hnot
    exact ⟨fun _ => .inl (read_eq_none_iff.2 hnot), fun _ => rfl⟩

lemma AgreeOn.renamed (h : AgreeOn s fs gs) (hk : s.mem k) (hl : s.mem l)
    (hf : Renamed fs k l fs') (hg : Renamed gs k l gs') : AgreeOn s fs' gs' := by
  refine h.of_steps (fun m hm => ?_) (fun m hm => ?_) fun m hm => ?_
  · by_cases hml : m = l
    · rw [hml, hf.sight_new, hg.sight_new, h.sight k hk]
    · by_cases hmk : m = k
      · subst hmk
        rw [hf.sight_old hml, hg.sight_old hml]
      · rw [hf.sight_ne hmk hml, hg.sight_ne hmk hml, h.sight m hm]
  · rw [read_eq_sight, read_eq_sight, hf.sight_ne (ne_of_mem hm hk) (ne_of_mem hm hl)]
  · rw [read_eq_sight, read_eq_sight, hg.sight_ne (ne_of_mem hm hk) (ne_of_mem hm hl)]

/-! ### The numbers of the files -/

/-- The two agree on the region, and `R` pairs the numbers of its files: of those that have a name
there, and of others that have no name. -/
structure Matched (s : Region) (R : ℕ → ℕ → Prop) (fs gs : Fs) : Prop where
  agree : AgreeOn s fs gs
  files : ∀ k i j, s.mem k → fs.lookup k = some (.file i) → gs.lookup k = some (.file j) → R i j
  data : ∀ i j, R i j → fs.data i = gs.data j
  inj : ∀ i j i' j', R i j → R i' j' → (i = i' ↔ j = j')
  lt : ∀ i j, R i j → i < fs.next ∧ j < gs.next
  home : ∀ i j k, R i j → fs.lookup k = some (.file i) → s.mem k
  home' : ∀ i j k, R i j → gs.lookup k = some (.file j) → s.mem k

/-- The numbers of the files in a region. -/
def filesIn (s : Region) (fs : Fs) (i j : ℕ) : Prop :=
  i = j ∧ ∃ k, s.mem k ∧ fs.lookup k = some (.file i)

lemma Matched.refl (s : Region) (fs : Fs) : Matched s (filesIn s fs) fs fs where
  agree := .refl s fs
  files := by
    intro k i j hk hi hj
    rw [hi] at hj
    obtain rfl : i = j := by injection hj with hj; injection hj
    exact ⟨rfl, k, hk, hi⟩
  data := by
    rintro i j ⟨rfl, -⟩
    rfl
  inj := by
    rintro i j i' j' ⟨rfl, -⟩ ⟨rfl, -⟩
    exact Iff.rfl
  lt := by
    rintro i j ⟨rfl, k, -, hi⟩
    exact ⟨lookup_lt hi, lookup_lt hi⟩
  home := by
    rintro i j k ⟨rfl, l, hl, hi⟩ hk
    exact lookup_inj hi hk ▸ hl
  home' := by
    rintro i j k ⟨rfl, l, hl, hi⟩ hk
    exact lookup_inj hi hk ▸ hl

section Matched

variable {R : ℕ → ℕ → Prop} {i j : ℕ}

lemma Matched.exists_right (h : Matched s R fs gs) (hk : s.mem k)
    (hi : fs.lookup k = some (.file i)) : ∃ j, R i j ∧ gs.lookup k = some (.file j) := by
  have hsight := h.agree.sight k hk
  rw [sight_of_file hi] at hsight
  obtain ⟨j, hj, -⟩ := sight_eq_file_iff.1 hsight.symm
  exact ⟨j, h.files k i j hk hi hj, hj⟩

lemma Matched.exists_left (h : Matched s R fs gs) (hk : s.mem k)
    (hj : gs.lookup k = some (.file j)) : ∃ i, R i j ∧ fs.lookup k = some (.file i) := by
  have hsight := h.agree.sight k hk
  rw [sight_of_file hj] at hsight
  obtain ⟨i, hi, -⟩ := sight_eq_file_iff.1 hsight
  exact ⟨i, h.files k i j hk hi hj, hi⟩

/-- A pair of calls that keeps the contents, gives names of the region only, and to files that had
one. -/
lemma Matched.of_names (h : Matched s R fs gs) (hagree : AgreeOn s fs' gs')
    (hfiles : ∀ k i j, s.mem k → fs'.lookup k = some (.file i) → gs'.lookup k = some (.file j) →
      R i j)
    (hdata : fs'.data = fs.data) (hdata' : gs'.data = gs.data) (hnext : fs'.next = fs.next)
    (hnext' : gs'.next = gs.next)
    (hname : ∀ k n, ¬s.mem k → fs'.lookup k = some (.file n) → fs.lookup k = some (.file n))
    (hname' : ∀ k n, ¬s.mem k → gs'.lookup k = some (.file n) → gs.lookup k = some (.file n)) :
    Matched s R fs' gs' where
  agree := hagree
  files := hfiles
  data := by
    rw [hdata, hdata']
    exact h.data
  inj := h.inj
  lt := by
    rw [hnext, hnext']
    exact h.lt
  home := by
    intro i j k hij hk
    by_contra hs
    exact hs (h.home i j k hij (hname k i hs hk))
  home' := by
    intro i j k hij hk
    by_contra hs
    exact hs (h.home' i j k hij (hname' k j hs hk))

lemma Matched.mkdirs (h : Matched s R fs gs) (hk : s.mem (k ++ l)) :
    Option.Rel (Matched s R) (fs.mkdirs k) (gs.mkdirs k) := by
  refine rel_of_none_iff (h.agree.mkdirs_eq_none hk) fun fs' gs' hf hg => ?_
  have hgf := mkdirs_grows hf
  have hgg := mkdirs_grows hg
  refine h.of_names (h.agree.mkdirs hf hg) (fun m i j hm hi hj => ?_) hgf.data hgg.data hgf.next
    hgg.next (fun m n _ hm => (hgf.file m n).1 hm) fun m n _ hm => (hgg.file m n).1 hm
  exact h.files m i j hm ((hgf.file m i).1 hi) ((hgg.file m j).1 hj)

lemma Removed.lookup_file {m : Key} {n : ℕ} (h : Removed fs k fs')
    (hm : fs'.lookup m = some (.file n)) : fs.lookup m = some (.file n) := by
  by_cases hmk : m = k
  · rw [hmk, h.lookup_self] at hm
    exact absurd hm (by rintro ⟨⟩)
  · rwa [h.lookup_ne m hmk] at hm

lemma Matched.removed (h : Matched s R fs gs) (hk : s.mem k) (hf : Removed fs k fs')
    (hg : Removed gs k gs') : Matched s R fs' gs' := by
  refine h.of_names (h.agree.removed hk hf hg) (fun m i j hm hi hj => ?_) hf.data hg.data hf.next
    hg.next (fun m n _ hm => hf.lookup_file hm) fun m n _ hm => hg.lookup_file hm
  exact h.files m i j hm (hf.lookup_file hi) (hg.lookup_file hj)

lemma Matched.unlink (h : Matched s R fs gs) (hk : s.mem k) :
    Option.Rel (Matched s R) (fs.unlink k) (gs.unlink k) := by
  refine rel_of_none_iff ?_ fun fs' gs' hf hg => h.removed hk (unlink_spec hf).1 (unlink_spec hg).1
  rw [unlink_eq_none_iff, unlink_eq_none_iff, h.agree.read hk]

lemma Matched.rmdir (h : Matched s R fs gs) (hk : s.mem k) :
    Option.Rel (Matched s R) (fs.rmdir k) (gs.rmdir k) :=
  rel_of_none_iff (h.agree.rmdir_eq_none hk) fun _ _ hf hg =>
    h.removed hk (rmdir_spec hf).1 (rmdir_spec hg).1

/-- What has a name after a renaming. -/
lemma Renamed.lookup_file {m : Key} {n : ℕ} (h : Renamed fs k l fs')
    (hm : fs'.lookup m = some (.file n)) :
    (m = l ∧ fs.lookup k = some (.file n)) ∨ (m ≠ l ∧ fs.lookup m = some (.file n)) := by
  obtain ⟨i, hi, hl⟩ := h.file
  by_cases hml : m = l
  · rw [hml, hl] at hm
    exact .inl ⟨hml, by rw [hi, hm]⟩
  · by_cases hmk : m = k
    · subst hmk
      rw [h.lookup_old hml] at hm
      exact absurd hm (by rintro ⟨⟩)
    · rw [h.lookup_ne m hmk hml] at hm
      exact .inr ⟨hml, hm⟩

lemma Matched.rename (h : Matched s R fs gs) (hk : s.mem k) (hl : s.mem l) (hp : s.mem l.dropLast) :
    Option.Rel (Matched s R) (fs.rename k l) (gs.rename k l) := by
  refine rel_of_none_iff ?_ fun fs' gs' hf hg => ?_
  · rw [rename_eq_none_iff, rename_eq_none_iff, h.agree.read hk, h.agree.isDir hl, h.agree.isDir hp]
  · have hrf := rename_spec hf
    have hrg := rename_spec hg
    refine h.of_names (h.agree.renamed hk hl hrf hrg) (fun m i j hm hi hj => ?_) hrf.data hrg.data
      hrf.next hrg.next (fun m n hm hn => ?_) fun m n hm hn => ?_
    · rcases hrf.lookup_file hi with ⟨hml, hi⟩ | ⟨hml, hi⟩
      · rcases hrg.lookup_file hj with ⟨-, hj⟩ | ⟨hml', -⟩
        · exact h.files k i j hk hi hj
        · exact absurd hml hml'
      · rcases hrg.lookup_file hj with ⟨hml', -⟩ | ⟨-, hj⟩
        · exact absurd hml' hml
        · exact h.files m i j hm hi hj
    · rcases hrf.lookup_file hn with ⟨hml, -⟩ | ⟨-, hn⟩
      · exact absurd hml (ne_of_mem hm hl)
      · exact hn
    · rcases hrg.lookup_file hn with ⟨hml, -⟩ | ⟨-, hn⟩
      · exact absurd hml (ne_of_mem hm hl)
      · exact hn

/-- The relation with one more pair. -/
def paired (R : ℕ → ℕ → Prop) (i j a b : ℕ) : Prop := R a b ∨ (a = i ∧ b = j)

lemma Matched.created (h : Matched s R fs gs) (hk : s.mem k) (hf : Created fs k i fs')
    (hg : Created gs k j gs') : Matched s (paired R i j) fs' gs' := by
  -- the pair is an old one, or both numbers are new
  have hold : R i j ∨ (i = fs.next ∧ j = gs.next) := by
    rcases hf.old with hi | ⟨hi, hin⟩
    · obtain ⟨j', hij, hj'⟩ := h.exists_right hk hi
      rcases hg.old with hj | ⟨hj, -⟩
      · exact .inl (h.files k i j hk hi hj)
      · exact absurd (hj.symm.trans hj') (by rintro ⟨⟩)
    · rcases hg.old with hj | ⟨-, hjn⟩
      · obtain ⟨i', -, hi'⟩ := h.exists_left hk hj
        exact absurd (hi.symm.trans hi') (by rintro ⟨⟩)
      · exact .inr ⟨hin, hjn⟩
  have hinj : ∀ a b, R a b → (a = i ↔ b = j) := by
    intro a b hab
    rcases hold with hij | ⟨rfl, rfl⟩
    · exact h.inj a b i j hab hij
    · have := h.lt a b hab
      exact ⟨fun heq => by omega, fun heq => by omega⟩
  refine ⟨h.agree.created hk hf hg, ?_, ?_, ?_, ?_, ?_, ?_⟩
  · intro m a b hm ha hb
    by_cases hmk : m = k
    · rw [hmk, hf.lookup_self] at ha
      rw [hmk, hg.lookup_self] at hb
      refine .inr ⟨?_, ?_⟩
      · injection ha with ha
        injection ha with ha
        exact ha.symm
      · injection hb with hb
        injection hb with hb
        exact hb.symm
    · rw [hf.lookup_ne m hmk] at ha
      rw [hg.lookup_ne m hmk] at hb
      exact .inl (h.files m a b hm ha hb)
  · rintro a b (hab | ⟨rfl, rfl⟩)
    · by_cases hai : a = i
      · rw [hai, (hinj a b hab).1 hai, hf.data_self, hg.data_self]
      · rw [hf.data_ne a hai, hg.data_ne b fun hbj => hai ((hinj a b hab).2 hbj), h.data a b hab]
    · rw [hf.data_self, hg.data_self]
  · rintro a b a' b' (hab | ⟨rfl, rfl⟩) (hab' | ⟨rfl, rfl⟩)
    · exact h.inj a b a' b' hab hab'
    · exact hinj a b hab
    · rw [eq_comm, hinj a' b' hab', eq_comm]
    · exact iff_of_true rfl rfl
  · rintro a b (hab | ⟨rfl, rfl⟩)
    · exact ⟨lt_of_lt_of_le (h.lt a b hab).1 hf.next_le, lt_of_lt_of_le (h.lt a b hab).2 hg.next_le⟩
    · exact ⟨hf.lt, hg.lt⟩
  · rintro a b m (hab | ⟨rfl, rfl⟩) hm
    · by_cases hmk : m = k
      · exact hmk ▸ hk
      · exact h.home a b m hab (hf.lookup_ne m hmk ▸ hm)
    · exact lookup_inj hf.lookup_self hm ▸ hk
  · rintro a b m (hab | ⟨rfl, rfl⟩) hm
    · by_cases hmk : m = k
      · exact hmk ▸ hk
      · exact h.home' a b m hab (hg.lookup_ne m hmk ▸ hm)
    · exact lookup_inj hg.lookup_self hm ▸ hk

/-- Both write through paired handles. -/
lemma Matched.setData (h : Matched s R fs gs) (hij : R i j) (b : Bytes) :
    Matched s R (fs.setData i b) (gs.setData j b) := by
  have hdata : ∀ a a', R a a' → (fs.setData i b).data a = (gs.setData j b).data a' := by
    intro a a' haa'
    by_cases hai : a = i
    · rw [hai, (h.inj a a' i j haa' hij).1 hai]
      simp
    · have haj : a' ≠ j := fun haj => hai ((h.inj a a' i j haa' hij).2 haj)
      simp [hai, haj, h.data a a' haa']
  refine ⟨⟨fun k hk => ?_, fun k l hk => ?_⟩, h.files, hdata, h.inj, h.lt, h.home, h.home'⟩
  · have hsight := h.agree.sight k hk
    cases hf : fs.lookup k with
    | none =>
      rw [sight_eq_none_iff.2 (by exact hf), sight_eq_none_iff.2]
      exact (h.agree.lookup_eq_none hk).1 hf
    | some n =>
      cases n with
      | dir =>
        have hg : gs.lookup k = some .dir :=
          sight_eq_dir_iff.1 (hsight.symm.trans (sight_eq_dir_iff.2 hf))
        rw [sight_eq_dir_iff.2 (by exact hf), sight_eq_dir_iff.2 (by exact hg)]
      | file a =>
        obtain ⟨a', haa', ha'⟩ := h.exists_right hk hf
        rw [sight_of_file (by exact hf), sight_of_file (by exact ha'), hdata a a' haa']
  · have hclear := h.agree.clear k l hk
    rw [read_eq_none_iff, read_eq_none_iff] at hclear ⊢
    exact hclear

end Matched

/-! ### Calls in another region -/

/-- The files that calls in a region with the handles `D` can write to: those of `D`, those that
have a name there, and new ones. -/
def Held (t : Region) (D : ℕ → Prop) (fs : Fs) (i : ℕ) : Prop :=
  D i ∨ fs.next ≤ i ∨ ∃ l, t.mem l ∧ fs.lookup l = some (.file i)

/-- A change that stays in a region, except for directories made on the way to it. -/
structure OnlyIn (t : Region) (D : ℕ → Prop) (fs fs' : Fs) : Prop where
  outside : ∀ k, ¬t.mem k → fs'.lookup k = fs.lookup k ∨
    (fs.lookup k = none ∧ fs'.lookup k = some .dir ∧ ∃ l, t.mem (k ++ l))
  inside : ∀ k i, t.mem k → fs'.lookup k = some (.file i) → Held t (fun _ => False) fs i
  data : ∀ i, ¬Held t D fs i → fs'.data i = fs.data i
  next : fs.next ≤ fs'.next

section OnlyIn

variable {t : Region} {D : ℕ → Prop} {i : ℕ}

lemma Held.of_false (h : Held t (fun _ => False) fs i) : Held t D fs i :=
  h.elim False.elim .inr

lemma OnlyIn.refl (t : Region) (D : ℕ → Prop) (fs : Fs) : OnlyIn t D fs fs where
  outside _ _ := .inl rfl
  inside k _ hk hi := .inr (.inr ⟨k, hk, hi⟩)
  data _ _ := rfl
  next := le_rfl

lemma OnlyIn.held (h : OnlyIn t D fs fs') (hi : Held t D fs' i) : Held t D fs i := by
  rcases hi with hi | hi | ⟨l, hl, hi⟩
  · exact .inl hi
  · exact .inr (.inl (le_trans h.next hi))
  · exact (h.inside l i hl hi).of_false

lemma OnlyIn.trans {fs'' : Fs} (h : OnlyIn t D fs fs') (h' : OnlyIn t D fs' fs'') :
    OnlyIn t D fs fs'' where
  outside := by
    intro k hk
    rcases h.outside k hk with hsame | ⟨hnone, hdir, hl⟩
    · rcases h'.outside k hk with hsame' | ⟨hnone', hdir', hl'⟩
      · exact .inl (hsame'.trans hsame)
      · exact .inr ⟨hsame ▸ hnone', hdir', hl'⟩
    · rcases h'.outside k hk with hsame' | ⟨hnone', -, -⟩
      · exact .inr ⟨hnone, hsame'.trans hdir, hl⟩
      · exact absurd (hnone'.symm.trans hdir) (by rintro ⟨⟩)
  inside := by
    intro k i hk hi
    rcases h'.inside k i hk hi with hf | hn | ⟨l, hl, hl'⟩
    · exact hf.elim
    · exact .inr (.inl (le_trans h.next hn))
    · exact h.inside l i hl hl'
  data i hi := (h'.data i fun hi' => hi (h.held hi')).trans (h.data i hi)
  next := le_trans h.next h'.next

/-- Directories on the way to the region, or in it. -/
lemma onlyIn_mkdirs (h : fs.mkdirs k = some fs') (hk : t.mem (k ++ l)) : OnlyIn t D fs fs' := by
  have hg := mkdirs_grows h
  refine ⟨fun m _ => ?_, fun m i hm hi => ?_, fun i _ => by rw [hg.data], le_of_eq hg.next.symm⟩
  · by_cases hmk : m <+: k
    · have hdir' := mkdirs_sight_above h hmk
      cases hm : fs.lookup m with
      | none =>
        by_cases hroot : m = [] ∨ m = [['/']]
        · rw [if_pos hroot, sight_eq_none_iff] at hdir'
          exact .inl hdir'
        · rw [if_neg hroot, sight_eq_dir_iff] at hdir'
          obtain ⟨r, rfl⟩ := hmk
          exact .inr ⟨rfl, hdir', r ++ l, by rwa [← List.append_assoc]⟩
      | some n =>
        obtain ⟨h1, h2, -⟩ := fs.valid.tree m n hm
        rw [if_neg (not_or.2 ⟨h1, h2⟩), sight_eq_dir_iff] at hdir'
        cases n with
        | dir => exact .inl hdir'
        | file i => exact absurd (hdir'.symm.trans ((hg.file m i).2 hm)) (by rintro ⟨⟩)
    · exact .inl (mkdirs_lookup_ne h hmk)
  · exact .inr (.inr ⟨m, hm, (hg.file m i).1 hi⟩)

/-- A file of the region is opened; it can be written to. -/
lemma Created.onlyIn (h : Created fs k i fs') (hk : t.mem k) :
    OnlyIn t D fs fs' ∧ Held t D fs i := by
  have hheld : ∀ {D}, Held t D fs i := by
    intro D
    rcases h.old with hi | ⟨-, hi⟩
    · exact .inr (.inr ⟨k, hk, hi⟩)
    · exact .inr (.inl (le_of_eq hi.symm))
  refine ⟨⟨fun m hm => .inl (h.lookup_ne m (ne_of_mem hm hk)), fun m a hm ha => ?_, fun a ha => ?_,
    h.next_le⟩, hheld⟩
  · by_cases hmk : m = k
    · rw [hmk, h.lookup_self] at ha
      injection ha with ha
      injection ha with ha
      exact ha ▸ hheld
    · exact .inr (.inr ⟨m, hm, h.lookup_ne m hmk ▸ ha⟩)
  · refine h.data_ne a ?_
    rintro rfl
    exact ha hheld

/-- A file that can be written to is written to. -/
lemma onlyIn_setData (h : Held t D fs i) (b : Bytes) : OnlyIn t D fs (fs.setData i b) := by
  refine ⟨fun _ _ => .inl rfl, fun k a hk ha => .inr (.inr ⟨k, hk, ha⟩), fun a ha => ?_, le_rfl⟩
  have hai : a ≠ i := by
    rintro rfl
    exact ha h
  simp [hai]

lemma onlyIn_write {b : Bytes} (h : fs.write k b = some fs') (hk : t.mem k) : OnlyIn t D fs fs' := by
  obtain ⟨⟨i, fs₁⟩, hc, rfl⟩ := Option.map_eq_some_iff.1 h
  have hcr := create_spec hc
  exact (hcr.onlyIn hk).1.trans (onlyIn_setData (.inr (.inr ⟨k, hk, hcr.lookup_self⟩)) b)

lemma Removed.onlyIn (h : Removed fs k fs') (hk : t.mem k) : OnlyIn t D fs fs' :=
  ⟨fun m hm => .inl (h.lookup_ne m (ne_of_mem hm hk)),
    fun m _ hm hi => .inr (.inr ⟨m, hm, h.lookup_file hi⟩), fun i _ => by rw [h.data], le_of_eq h.next.symm⟩

lemma Renamed.onlyIn (h : Renamed fs k l fs') (hk : t.mem k) (hl : t.mem l) : OnlyIn t D fs fs' := by
  refine ⟨fun m hm => .inl (h.lookup_ne m (ne_of_mem hm hk) (ne_of_mem hm hl)), fun m i hm hi => ?_,
    fun i _ => by rw [h.data], le_of_eq h.next.symm⟩
  rcases h.lookup_file hi with ⟨-, hi⟩ | ⟨-, hi⟩
  · exact .inr (.inr ⟨k, hk, hi⟩)
  · exact .inr (.inr ⟨m, hm, hi⟩)

/-- What is matched on a region is still matched after a change in another one. -/
lemma OnlyIn.matched {R : ℕ → ℕ → Prop} (h : OnlyIn t D fs fs') (hst : s.Disjoint t)
    (hD : ∀ i j, R i j → ¬D i) (hm : Matched s R fs gs) : Matched s R fs' gs := by
  have hnot : ∀ i j, R i j → ¬Held t D fs i := by
    rintro i j hij (hi | hi | ⟨l, hl, hi⟩)
    · exact hD i j hij hi
    · exact absurd (hm.lt i j hij).1 (not_lt.2 hi)
    · exact hst l ⟨hm.home i j l hij hi, hl⟩
  have hlookup : ∀ k, s.mem k → fs'.lookup k = fs.lookup k := by
    intro k hk
    rcases h.outside k fun ht => hst k ⟨hk, ht⟩ with hsame | ⟨-, -, l, hl⟩
    · exact hsame
    · exact absurd ⟨s.down hk, hl⟩ (hst (k ++ l))
  have hsight : ∀ k, s.mem k → fs'.sight k = fs.sight k := by
    intro k hk
    unfold sight
    rw [hlookup k hk]
    cases hf : fs.lookup k with
    | none => rfl
    | some n =>
      cases n with
      | dir => rfl
      | file i =>
        obtain ⟨j, hij, -⟩ := hm.exists_right hk hf
        exact congrArg (fun b => some (some b)) (h.data i (hnot i j hij))
  have hread : ∀ k l, s.mem (k ++ l) → (fs'.read k = none ↔ fs.read k = none) := by
    intro k l hk
    rcases h.outside k fun ht => hst (k ++ l) ⟨hk, t.down ht⟩ with hsame | ⟨hnone, hdir, -⟩
    · rw [read_eq_none_iff, read_eq_none_iff, hsame]
    · rw [read_eq_none_iff, read_eq_none_iff, hnone, hdir]
      exact iff_of_true (by rintro i ⟨⟩) (by rintro i ⟨⟩)
  refine ⟨⟨fun k hk => (hsight k hk).trans (hm.agree.sight k hk), fun k l hk =>
    (hread k l hk).trans (hm.agree.clear k l hk)⟩, fun k i j hk hi hj => ?_, fun i j hij => ?_, hm.inj,
    fun i j hij => ⟨lt_of_lt_of_le (hm.lt i j hij).1 h.next, (hm.lt i j hij).2⟩, ?_, hm.home'⟩
  · exact hm.files k i j hk (hlookup k hk ▸ hi) hj
  · rw [h.data i (hnot i j hij), hm.data i j hij]
  · intro i j k hij hk
    by_cases ht : t.mem k
    · exact absurd (h.inside k i ht hk).of_false (hnot i j hij)
    · rcases h.outside k ht with hsame | ⟨-, hdir, -⟩
      · exact hm.home i j k hij (hsame ▸ hk)
      · exact absurd (hdir.symm.trans hk) (by rintro ⟨⟩)

end OnlyIn

end Fs

end RspacefsCsi.Lib
