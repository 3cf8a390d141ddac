/-
# The cache of layers

The invariant behind pulls that share a directory, step by step, and the result about whole
runs.  The name of an inode, the pull that truncated it last and the offset that pull has
got to decide what is known about its content.
-/
import RspacefsCsi.Pull

namespace RspacefsCsi

open Lib Lib.Prog

variable {x : Ext} {dir : PathBuf}

/-! ### Who has opened what -/

/-- Pulls running side by side. -/
abbrev PullSys : Type := Sys Op Resp World (Except RegistryError (List PathBuf))

/-- What they have done. -/
abbrev PullLog : Type := List (Record Op Resp World)

/-- The file and the inode that a request has opened for writing. -/
def openedFile : Ev → Option (Key × ℕ)
  | ⟨.fileCreate p, .ok ino⟩ => some (p.key, ino)
  | _ => none

/-- A request to rename a file. -/
def isRename : Ev → Bool
  | ⟨.renameFile _ _, _⟩ => true
  | _ => false

/-- The pull that truncated the inode last. -/
def truncator : PullLog → ℕ → Option ℕ
  | [], _ => none
  | e :: log, i =>
      match openedFile e.event with
      | some (_, ino) => if ino = i then some e.thread else truncator log i
      | none => truncator log i

/-- The file that the pull has opened and not yet renamed. -/
def openedBy : PullLog → ℕ → Option Key
  | [], _ => none
  | e :: log, t =>
      if e.thread ≠ t then openedBy log t
      else match openedFile e.event with
        | some (k, _) => some k
        | none => if isRename e.event then none else openedBy log t

lemma truncator_cons {e : Record Op Resp World} (h : openedFile e.event = none) (log : PullLog)
    (i : ℕ) : truncator (e :: log) i = truncator log i := by
  simp only [truncator, h]

lemma openedBy_cons {e : Record Op Resp World} {t : ℕ} (log : PullLog)
    (h : e.thread ≠ t ∨ openedFile e.event = none ∧ isRename e.event = false) :
    openedBy (e :: log) t = openedBy log t := by
  rcases h with h | ⟨h1, h2⟩
  · simp only [openedBy, if_pos h]
  · simp only [openedBy, h1, h2]
    split <;> rfl

/-! ### The invariant -/

/-- The inode holds `b`, or the pull that truncated it last is filling it with `b`. -/
def Good (fs : Fs) (log : PullLog) (act : ℕ → Prop) (ph : ℕ → Pulling) (i : ℕ) (b : Bytes) : Prop :=
  fs.data i = b ∨ ∃ t off, act t ∧ ph t = .filling b i off ∧ truncator log i = some t ∧
    (∀ p < off, (fs.data i)[p]? = b[p]?) ∧ (fs.data i).length ≤ b.length

/-- The invariant, for the pulls `act` that are running and their phases. -/
structure Cache (x : Ext) (dir : PathBuf) (fs : Fs) (log : PullLog) (act : ℕ → Prop)
    (ph : ℕ → Pulling) : Prop where
  /-- A layer of the cache has the content that its name says, or is being filled with it. -/
  blob : ∀ name i, blobSuffix <:+ name → fs.lookup (dir.key ++ [name]) = some (.file i) →
    ∃ b, name = fileOf x b ∧ Good fs log act ph i b
  /-- So has a file that a pull is about to rename. -/
  part : ∀ t b i, act t → (ph t).layer = some b → fs.lookup (partKey x dir b) = some (.file i) →
    Good fs log act ph i b
  /-- A file that a pull is writing to has no other name. -/
  handle : ∀ t b i off, act t → ph t = .filling b i off → off ≤ b.length ∧ i < fs.next ∧
    ∀ k, fs.lookup k = some (.file i) → k = partKey x dir b ∨ k = blobKey x dir b
  opened : ∀ t b, act t → (ph t).layer = some b → openedBy log t = some (partKey x dir b)

/-! ### Names -/

lemma blobSuffix_suffix_fileOf (b : Bytes) : blobSuffix <:+ fileOf x b := ⟨stemOf x b, rfl⟩

lemma partKey_ne {name : Text} (h : blobSuffix <:+ name) (b : Bytes) :
    dir.key ++ [name] ≠ partKey x dir b := by
  intro heq
  obtain ⟨pre, rfl⟩ := h
  have hname : pre ++ blobSuffix = fileOf x b ++ partialSuffix := by
    simpa [partKey] using heq
  have := congrArg List.getLast? hname
  rw [List.getLast?_append_of_ne_nil _ (by decide), List.getLast?_append_of_ne_nil _ (by decide)]
    at this
  exact absurd this (by decide)

lemma partKey_ne_blobKey (a b : Bytes) : partKey x dir a ≠ blobKey x dir b :=
  fun h => partKey_ne (blobSuffix_suffix_fileOf b) a h.symm

lemma partKey_inj (hx : Function.Injective x.sha256) {a b : Bytes}
    (h : partKey x dir a = partKey x dir b) : a = b := by
  have hname : fileOf x a ++ partialSuffix = fileOf x b ++ partialSuffix := by
    simpa [partKey] using h
  exact fileOf_injective hx (List.append_cancel_right hname)

lemma blobKey_inj (hx : Function.Injective x.sha256) {a b : Bytes}
    (h : blobKey x dir a = blobKey x dir b) : a = b := by
  have hname : fileOf x a = fileOf x b := by simpa [blobKey] using h
  exact fileOf_injective hx hname

lemma name_of_blobKey {name : Text} {b : Bytes} (h : dir.key ++ [name] = blobKey x dir b) :
    name = fileOf x b := by
  simpa [blobKey] using h

/-! ### One request -/

section Requests

variable {fs fs' : Fs} {log : PullLog} {act : ℕ → Prop} {ph : ℕ → Pulling} {t : ℕ}

/-- A pull that is not filling the inode changes its phase. -/
lemma Good.phase {i : ℕ} {b : Bytes} (h : Good fs log act ph i b)
    (hne : ∀ off, ph t ≠ .filling b i off) (ph' : Pulling) :
    Good fs log act (Function.update ph t ph') i b := by
  rcases h with h | ⟨t₁, off, ha, hp, hrest⟩
  · exact .inl h
  · have hne' : t₁ ≠ t := by
      rintro rfl
      exact hne off hp
    exact .inr ⟨t₁, off, ha, by rwa [Function.update_of_ne hne'], hrest⟩

lemma layer_update {ph' : Pulling} (hl : ph'.layer = none) {t' : ℕ} {b : Bytes}
    (hb : (Function.update ph t ph' t').layer = some b) : t' ≠ t ∧ (ph t').layer = some b := by
  by_cases heq : t' = t
  · subst heq
    rw [Function.update_self, hl] at hb
    exact absurd hb nofun
  · rw [Function.update_of_ne heq] at hb
    exact ⟨heq, hb⟩

/-- The inode and what is known about who opened it are as before. -/
lemma Good.same {log' : PullLog} {i : ℕ} {b : Bytes} (h : Good fs log act ph i b)
    (hd : fs'.data i = fs.data i) (ht : truncator log' i = truncator log i) :
    Good fs' log' act ph i b := by
  unfold Good
  rw [hd, ht]
  exact h

/-- A request that leaves the files as they are, of a pull that is not writing, and has
nothing open afterwards. -/
lemma Cache.look (h : Cache x dir fs log act ph) (hg : Fs.Grows fs fs')
    {e : Record Op Resp World} (he : openedFile e.event = none) (hthread : e.thread = t)
    (hne : ∀ b i off, ph t ≠ .filling b i off) {ph' : Pulling} (hl' : ph'.layer = none) :
    Cache x dir fs' (e :: log) act (Function.update ph t ph') := by
  have hgood : ∀ i b, Good fs log act ph i b →
      Good fs' (e :: log) act (Function.update ph t ph') i b := fun i b hgd =>
    (hgd.same (by rw [hg.data]) (truncator_cons he log i)).phase (hne b i) ph'
  have hlayer : ∀ t' b, (Function.update ph t ph' t').layer = some b →
      t' ≠ t ∧ (ph t').layer = some b := fun t' b => layer_update hl'
  refine ⟨fun name i hn hlk => ?_, fun t' b i ha hb hlk => ?_, fun t' b i off ha hp => ?_,
    fun t' b ha hb => ?_⟩
  · obtain ⟨b, hname, hgd⟩ := h.blob name i hn ((hg.file _ _).1 hlk)
    exact ⟨b, hname, hgood i b hgd⟩
  · exact hgood i b (h.part t' b i ha (hlayer t' b hb).2 ((hg.file _ _).1 hlk))
  · have hb : (Function.update ph t ph' t').layer = some b := by rw [hp]; rfl
    rw [Function.update_of_ne (hlayer t' b hb).1] at hp
    obtain ⟨h1, h2, h3⟩ := h.handle t' b i off ha hp
    exact ⟨h1, hg.next ▸ h2, fun k hk => h3 k ((hg.file _ _).1 hk)⟩
  · rw [openedBy_cons log (.inl fun h => (hlayer t' b hb).1 (h.symm.trans hthread))]
    exact h.opened t' b ha (hlayer t' b hb).2

/-- A pull opens the file: it is the one that fills it now. -/
lemma Cache.create (hx : Function.Injective x.sha256) (h : Cache x dir fs log act ph) (ht : act t)
    {b : Bytes} (hp : ph t = .offered b) {i : ℕ} (hc : Fs.Created fs (partKey x dir b) i fs')
    {e : Record Op Resp World} (he : openedFile e.event = some (partKey x dir b, i))
    (hthread : e.thread = t) :
    Cache x dir fs' (e :: log) act (Function.update ph t (.filling b i 0)) := by
  have hne : ∀ (b' : Bytes) (j off : ℕ), ph t ≠ .filling b' j off := by
    intro b' j off hp'
    rw [hp] at hp'
    exact absurd hp' nofun
  -- inodes with other names are not concerned
  have hother : ∀ k j, k ≠ partKey x dir b → fs'.lookup k = some (.file j) →
      fs.lookup k = some (.file j) ∧ j ≠ i := by
    intro k j hk hj
    refine ⟨by rwa [hc.lookup_ne k hk] at hj, ?_⟩
    rintro rfl
    exact hk (Fs.lookup_inj hj hc.lookup_self)
  have hgood : ∀ j b', j ≠ i → Good fs log act ph j b' →
      Good fs' (e :: log) act (Function.update ph t (.filling b i 0)) j b' := by
    intro j b' hj hgd
    refine (hgd.same (hc.data_ne j hj) ?_).phase (hne b' j) _
    simp only [truncator, he, if_neg (Ne.symm hj)]
  refine ⟨fun name j hn hlk => ?_, fun t' b' j ha hb hlk => ?_, fun t' b' j off ha hp' => ?_,
    fun t' b' ha hb => ?_⟩
  · obtain ⟨hlk', hj⟩ := hother _ j (partKey_ne hn b) hlk
    obtain ⟨b', hname, hgd⟩ := h.blob name j hn hlk'
    exact ⟨b', hname, hgood j b' hj hgd⟩
  · by_cases hbb : b' = b
    · subst hbb
      rw [hc.lookup_self] at hlk
      obtain rfl : i = j := by simpa using hlk
      refine .inr ⟨t, 0, ht, Function.update_self .., ?_, fun p hp0 => absurd hp0 (by omega), ?_⟩
      · simp only [truncator, he, if_true, hthread]
      · rw [hc.data_self]
        exact Nat.zero_le _
    · obtain ⟨hlk', hj⟩ := hother _ j (fun hk => hbb (partKey_inj hx hk)) hlk
      have heq : t' ≠ t := by
        rintro rfl
        rw [Function.update_self] at hb
        exact hbb (Option.some.inj hb).symm
      rw [Function.update_of_ne heq] at hb
      exact hgood j b' hj (h.part t' b' j ha hb hlk')
  · by_cases heq : t' = t
    · subst heq
      rw [Function.update_self] at hp'
      obtain ⟨rfl, rfl, rfl⟩ := Pulling.filling.inj hp'
      exact ⟨Nat.zero_le _, hc.lt, fun k hk => .inl (Fs.lookup_inj hk hc.lookup_self)⟩
    · rw [Function.update_of_ne heq] at hp'
      obtain ⟨h1, h2, h3⟩ := h.handle t' b' j off ha hp'
      refine ⟨h1, h2.trans_le hc.next_le, fun k hk => ?_⟩
      by_cases hkp : k = partKey x dir b
      · -- the file was there before, and its inode is the one that was truncated
        rw [hkp, hc.lookup_self] at hk
        obtain rfl : i = j := by simpa using hk
        rcases hc.old with hold | ⟨-, hnew⟩
        · exact hkp ▸ h3 _ hold
        · exact absurd h2 (by omega)
      · exact h3 k (hother k j hkp hk).1
  · by_cases heq : t' = t
    · subst heq
      rw [Function.update_self] at hb
      obtain rfl : b = b' := Option.some.inj hb
      simp only [openedBy, hthread, he, ne_eq, not_true_eq_false, if_false]
    · rw [Function.update_of_ne heq] at hb
      rw [openedBy_cons log (.inl fun h => heq (h.symm.trans hthread))]
      exact h.opened t' b' ha hb

/-- A pull writes a part of its layer, and has got to the offset `off'` with it. -/
lemma Cache.write (h : Cache x dir fs log act ph) (ht : act t) {b : Bytes} {i off : ℕ}
    (hx : Function.Injective x.sha256) (hp : ph t = .filling b i off) {c : Bytes}
    (hc : c <+: b.drop off) {off' : ℕ} (hoff : off' = off ∨ off' = off + c.length)
    {e : Record Op Resp World} (he : openedFile e.event = none) (hr : isRename e.event = false) :
    Cache x dir (fs.writeAt i off c) (e :: log) act (Function.update ph t (.filling b i off')) := by
  obtain ⟨hle, hlt, hnames⟩ := h.handle t b i off ht hp
  have hlen : off + c.length ≤ b.length := by
    have := hc.length_le
    rw [List.length_drop] at this
    omega
  have hdata : (fs.writeAt i off c).data i = splice (fs.data i) off c := by
    simp [Fs.writeAt]
  -- the bytes go where they belong, so what was right stays right
  have hself : Good fs log act ph i b → Good (fs.writeAt i off c) (e :: log) act
      (Function.update ph t (.filling b i off')) i b := by
    rintro (hd | ⟨t₁, off₁, ha, hp₁, htr, hag, hl⟩)
    · exact .inl (by rw [hdata, hd, splice_self hc hlen])
    · have hl' : ((fs.writeAt i off c).data i).length ≤ b.length := by
        rw [hdata]
        exact length_splice_le hl hlen
      have hag' : ∀ p < off₁, ((fs.writeAt i off c).data i)[p]? = b[p]? := by
        rw [hdata]
        exact splice_agrees hc (h.handle t₁ b i off₁ ha hp₁).1 hag
      rw [← truncator_cons he log i] at htr
      by_cases heq : t₁ = t
      · subst heq
        rw [hp] at hp₁
        obtain ⟨-, -, rfl⟩ := Pulling.filling.inj hp₁
        refine .inr ⟨t₁, off', ha, Function.update_self .., htr, ?_, hl'⟩
        rcases hoff with rfl | rfl
        · exact hag'
        · rw [hdata]
          exact splice_agrees_end hc hle hag
      · exact .inr ⟨t₁, off₁, ha, by rwa [Function.update_of_ne heq], htr, hag', hl'⟩
  have hgood : ∀ j b', (j = i → b' = b) → Good fs log act ph j b' →
      Good (fs.writeAt i off c) (e :: log) act (Function.update ph t (.filling b i off')) j b' := by
    intro j b' hjb hgd
    by_cases hj : j = i
    · obtain rfl := hjb hj
      exact hj ▸ hself (hj ▸ hgd)
    · refine (hgd.same ?_ (truncator_cons he log j)).phase (fun off₁ hp₁ => ?_) _
      · simp [Fs.writeAt, hj]
      · rw [hp] at hp₁
        exact hj (Pulling.filling.inj hp₁).2.1.symm
  have hlayer : ∀ t', (Function.update ph t (.filling b i off') t').layer = (ph t').layer := by
    intro t'
    by_cases heq : t' = t
    · subst heq
      rw [Function.update_self, hp]
      rfl
    · rw [Function.update_of_ne heq]
  refine ⟨fun name j hn hlk => ?_, fun t' b' j ha hb hlk => ?_, fun t' b' j off₁ ha hp' => ?_,
    fun t' b' ha hb => ?_⟩
  · obtain ⟨b', hname, hgd⟩ := h.blob name j hn hlk
    refine ⟨b', hname, hgood j b' (fun hj => ?_) hgd⟩
    rcases hnames _ (hj ▸ hlk) with hk | hk
    · exact absurd hk (partKey_ne hn b)
    · exact fileOf_injective hx (hname.symm.trans (name_of_blobKey hk))
  · rw [hlayer] at hb
    refine hgood j b' (fun hj => ?_) (h.part t' b' j ha hb hlk)
    rcases hnames _ (hj ▸ hlk) with hk | hk
    · exact partKey_inj hx hk
    · exact absurd hk (partKey_ne_blobKey b' b)
  · by_cases heq : t' = t
    · subst heq
      rw [Function.update_self] at hp'
      obtain ⟨rfl, rfl, rfl⟩ := Pulling.filling.inj hp'
      exact ⟨by omega, hlt, hnames⟩
    · rw [Function.update_of_ne heq] at hp'
      exact h.handle t' b' j off₁ ha hp'
  · rw [hlayer] at hb
    rw [openedBy_cons log (.inr ⟨he, hr⟩)]
    exact h.opened t' b' ha hb

/-- A pull has written all of its layer: what it was filling is complete. -/
lemma Cache.flush (h : Cache x dir fs log act ph) (ht : act t) {b : Bytes} {i : ℕ}
    (hp : ph t = .filling b i b.length) {e : Record Op Resp World}
    (he : openedFile e.event = none) (hr : isRename e.event = false) :
    Cache x dir fs (e :: log) act (Function.update ph t (.filled b)) := by
  have hgood : ∀ j b', Good fs log act ph j b' →
      Good fs (e :: log) act (Function.update ph t (.filled b)) j b' := by
    rintro j b' (hd | ⟨t₁, off₁, ha, hp₁, htr, hag, hl⟩)
    · exact .inl hd
    · by_cases heq : t₁ = t
      · subst heq
        rw [hp] at hp₁
        obtain ⟨rfl, rfl, rfl⟩ := Pulling.filling.inj hp₁
        exact .inl (eq_of_agrees hl hag)
      · exact .inr ⟨t₁, off₁, ha, by rwa [Function.update_of_ne heq],
          by rwa [truncator_cons he], hag, hl⟩
  have hlayer : ∀ t', (Function.update ph t (.filled b) t').layer = (ph t').layer := by
    intro t'
    by_cases heq : t' = t
    · subst heq
      rw [Function.update_self, hp]
      rfl
    · rw [Function.update_of_ne heq]
  refine ⟨fun name j hn hlk => ?_, fun t' b' j ha hb hlk => ?_, fun t' b' j off₁ ha hp' => ?_,
    fun t' b' ha hb => ?_⟩
  · obtain ⟨b', hname, hgd⟩ := h.blob name j hn hlk
    exact ⟨b', hname, hgood j b' hgd⟩
  · exact hgood j b' (h.part t' b' j ha (hlayer t' ▸ hb) hlk)
  · by_cases heq : t' = t
    · subst heq
      rw [Function.update_self] at hp'
      exact absurd hp' nofun
    · rw [Function.update_of_ne heq] at hp'
      exact h.handle t' b' j off₁ ha hp'
  · rw [openedBy_cons log (.inr ⟨he, hr⟩)]
    exact h.opened t' b' ha (hlayer t' ▸ hb)

/-- A pull renames the file it has written, whoever it was that truncated it last. -/
lemma Cache.rename (hx : Function.Injective x.sha256) (h : Cache x dir fs log act ph) (ht : act t)
    {b : Bytes} (hp : ph t = .filled b) (hr : Fs.Renamed fs (partKey x dir b) (blobKey x dir b) fs')
    {e : Record Op Resp World} (he : openedFile e.event = none) (hthread : e.thread = t) :
    Cache x dir fs' (e :: log) act (Function.update ph t .idle) := by
  obtain ⟨i, hi, hi'⟩ := hr.file
  have hgone : fs'.lookup (partKey x dir b) = none := hr.lookup_old (partKey_ne_blobKey b b)
  have hgood : ∀ j b', Good fs log act ph j b' →
      Good fs' (e :: log) act (Function.update ph t .idle) j b' := by
    intro j b' hgd
    refine (hgd.same (by rw [hr.data]) (truncator_cons he log j)).phase (fun off hp' => ?_) _
    rw [hp] at hp'
    exact absurd hp' nofun
  have hlayer : ∀ t' b', (Function.update ph t .idle t').layer = some b' →
      t' ≠ t ∧ (ph t').layer = some b' := fun t' b' => layer_update rfl
  refine ⟨fun name j hn hlk => ?_, fun t' b' j ha hb hlk => ?_, fun t' b' j off ha hp' => ?_,
    fun t' b' ha hb => ?_⟩
  · by_cases hk : dir.key ++ [name] = blobKey x dir b
    · rw [hk, hi'] at hlk
      obtain rfl : i = j := by simpa using hlk
      exact ⟨b, name_of_blobKey hk, hgood i b (h.part t b i ht (by rw [hp]; rfl) hi)⟩
    · rw [hr.lookup_ne _ (partKey_ne hn b) hk] at hlk
      obtain ⟨b', hname, hgd⟩ := h.blob name j hn hlk
      exact ⟨b', hname, hgood j b' hgd⟩
  · have hne : partKey x dir b' ≠ partKey x dir b := by
      intro hk
      rw [hk, hgone] at hlk
      exact absurd hlk nofun
    rw [hr.lookup_ne _ hne (partKey_ne_blobKey b' b)] at hlk
    exact hgood j b' (h.part t' b' j ha (hlayer t' b' hb).2 hlk)
  · have hb : (Function.update ph t .idle t').layer = some b' := by rw [hp']; rfl
    rw [Function.update_of_ne (hlayer t' b' hb).1] at hp'
    obtain ⟨h1, h2, h3⟩ := h.handle t' b' j off ha hp'
    refine ⟨h1, hr.next ▸ h2, fun k hk => ?_⟩
    by_cases hkp : k = partKey x dir b
    · rw [hkp, hgone] at hk
      exact absurd hk nofun
    by_cases hkb : k = blobKey x dir b
    · -- the file that someone else goes on writing to has got its new name
      rw [hkb, hi'] at hk
      obtain rfl : i = j := by simpa using hk
      rcases h3 _ hi with hname | hname
      · exact .inr (partKey_inj hx hname ▸ hkb)
      · exact absurd hname (partKey_ne_blobKey b b')
    · exact h3 k (by rwa [hr.lookup_ne k hkp hkb] at hk)
  · rw [openedBy_cons log (.inl fun h => (hlayer t' b' hb).1 (h.symm.trans hthread))]
    exact h.opened t' b' ha (hlayer t' b' hb).2

/-! ### Starting and stopping -/

/-- A pull starts. -/
lemma Cache.start (h : Cache x dir fs log act ph) (hnew : ¬act t) {act' : ℕ → Prop}
    (hact : ∀ t', t' ≠ t → (act' t' ↔ act t')) :
    Cache x dir fs log act' (Function.update ph t .idle) := by
  have hgood : ∀ i b, Good fs log act ph i b →
      Good fs log act' (Function.update ph t .idle) i b := by
    rintro i b (hd | ⟨t₁, off, ha, hp, hrest⟩)
    · exact .inl hd
    · have hne : t₁ ≠ t := fun heq => hnew (heq ▸ ha)
      exact .inr ⟨t₁, off, (hact t₁ hne).2 ha, by rwa [Function.update_of_ne hne], hrest⟩
  have hlayer : ∀ t' b, act' t' → (Function.update ph t .idle t').layer = some b →
      act t' ∧ (ph t').layer = some b := by
    intro t' b ha hb
    obtain ⟨hne, hb'⟩ := (@layer_update _ _ .idle) rfl hb
    exact ⟨(hact t' hne).1 ha, hb'⟩
  refine ⟨fun name i hn hlk => ?_, fun t' b i ha hb hlk => ?_, fun t' b i off ha hp => ?_,
    fun t' b ha hb => ?_⟩
  · obtain ⟨b, hname, hgd⟩ := h.blob name i hn hlk
    exact ⟨b, hname, hgood i b hgd⟩
  · obtain ⟨ha', hb'⟩ := hlayer t' b ha hb
    exact hgood i b (h.part t' b i ha' hb' hlk)
  · have hb : (Function.update ph t .idle t').layer = some b := by rw [hp]; rfl
    rw [Function.update_of_ne ((@layer_update _ _ .idle) rfl hb).1] at hp
    exact h.handle t' b i off (hlayer t' b ha hb).1 hp
  · obtain ⟨ha', hb'⟩ := hlayer t' b ha hb
    exact h.opened t' b ha' hb'

end Requests

/-- Every layer in the directory has the content that its name says. -/
def Verified (x : Ext) (dir : PathBuf) (w : World) : Prop :=
  ∀ name b, blobSuffix <:+ name → w.fs.read (dir.key ++ [name]) = some b → name = fileOf x b

section Runs

variable (cl : OciClient)

variable {cl}

lemma env_looks (x : Ext) {o : Op} (ho : Looks o) (c : Choice) (w : World) :
    Fs.Grows w.fs (env x o c w).2.fs := by
  cases o with
  | createDirAll p =>
    rcases env_createDirAll_cases x p c w with ⟨e, fs, heq, hg⟩ | ⟨fs, heq, hg, -⟩
    · rwa [heq]
    · rwa [heq]
  | tryExists p => exact .refl _
  | getManifest url r => exact .refl _
  | getBlob url r d => exact .refl _
  | _ => exact absurd ho id

lemma openedFile_of_looks {o : Op} (ho : Looks o) (r : Resp o) : openedFile ⟨o, r⟩ = none := by
  cases o <;> first | rfl | exact absurd ho id

/-- **One step.**  A request of a pull keeps the invariant, while the pull is running. -/
lemma Cache.request (hx : Function.Injective x.sha256) {w : World} {log : PullLog} {act : ℕ → Prop}
    {ph : ℕ → Pulling} (h : Cache x dir w.fs log act ph) {t : ℕ} (ht : act t) {o : Op} {c : Choice}
    {ph' : Pulling} (hn : Pulls x dir (ph t) o (env x o c w).1 ph') :
    Cache x dir (env x o c w).2.fs (⟨t, ⟨o, (env x o c w).1⟩, (env x o c w).2⟩ :: log) act
      (Function.update ph t ph') := by
  have hlook : Looks o → Fs.Grows w.fs (env x o c w).2.fs := fun ho => env_looks x ho c w
  generalize hq : ph t = q at hn
  have hne : (∀ b i off, q ≠ .filling b i off) → ∀ b i off, ph t ≠ .filling b i off :=
    fun hne b i off => hq ▸ hne b i off
  cases o with
  | fileCreate p =>
    rcases env_fileCreate_cases x p c w with ⟨e, heq⟩ | ⟨i, fs, heq, hc⟩
    · rw [heq] at hn ⊢
      cases hn with
      | look ho => exact absurd ho id
      | uncreated => exact h.look (.refl _) rfl rfl (hne nofun) rfl
    · rw [heq] at hn ⊢
      cases hn with
      | look ho => exact absurd ho id
      | create hk =>
        rw [hk] at hc
        exact h.create hx ht hq hc (by rw [openedFile, hk]) rfl
  | fileWrite ino off chunk =>
    rcases env_fileWrite_cases x ino off chunk c w with ⟨e, b', hb', heq⟩ | heq
    · rw [heq] at hn ⊢
      cases hn with
      | look ho => exact absurd ho id
      | unwritten hc => exact h.write ht hx hq (hb'.trans hc) (.inl rfl) rfl rfl
    · rw [heq] at hn ⊢
      cases hn with
      | look ho => exact absurd ho id
      | write hc => exact h.write ht hx hq hc (.inr rfl) rfl rfl
  | fileFlush ino =>
    have hsame : (env x (.fileFlush ino) c w).2 = w := rfl
    rw [hsame]
    generalize (env x (.fileFlush ino) c w).1 = r at hn
    cases hn with
    | look ho => exact absurd ho id
    | flush => exact h.flush ht hq rfl rfl
    | unflushed =>
      rename_i b off err
      have := h.write ht hx hq List.nil_prefix (.inl rfl)
        (e := ⟨t, ⟨.fileFlush ino, .error err⟩, w⟩) rfl rfl
      rwa [Fs.writeAt_nil] at this
  | renameFile p p' =>
    rcases env_renameFile_cases x p p' c w with ⟨e, heq⟩ | ⟨fs, heq, hr⟩
    · rw [heq] at hn ⊢
      cases hn with
      | look ho => exact absurd ho id
      | rename hp hp' => exact h.look (.refl _) rfl rfl (hne nofun) rfl
    · rw [heq] at hn ⊢
      cases hn with
      | look ho => exact absurd ho id
      | rename hp hp' =>
        rw [hp, hp'] at hr
        exact h.rename hx ht hq hr rfl rfl
  | getBlob url r d =>
    generalize (env x (.getBlob url r d) c w).1 = res at hn
    cases hn with
    | look ho => exact h.look (hlook ho) rfl rfl (hne nofun) rfl
    | offer b => exact h.look (hlook trivial) rfl rfl (hne nofun) rfl
  | _ =>
    cases hn with
    | look ho => exact h.look (hlook ho) (openedFile_of_looks ho _) rfl (hne nofun) rfl

lemma Cache.init {w : World} (h : Verified x dir w) (ph : ℕ → Pulling) :
    Cache x dir w.fs [] (Sys.init w : PullSys).Running ph := by
  have hnone : ∀ t, ¬(Sys.init w : PullSys).Running t := fun t => Sys.not_running_of_quiet rfl t
  refine ⟨fun name i hn hlk => ?_, fun t _ _ ha => absurd ha (hnone t),
    fun t _ _ _ ha => absurd ha (hnone t), fun t _ ha => absurd ha (hnone t)⟩
  exact ⟨_, h name _ hn (Fs.read_eq_some_iff.2 ⟨i, hlk, rfl⟩), .inl rfl⟩

end Runs

/-! ### Two pulls of a layer -/

namespace Sample

/-- A client. -/
def client : OciClient := ⟨"https".toList⟩

/-- The blob of an empty upper. -/
def emptyBlob : Bytes := ascii "[]"

/-- The reference of the revision. -/
def seed : Text := "r/seed:v1".toList

/-- Up to the answer of the registry, which comes byte by byte. -/
def ask (t : ℕ) : List (Sys.Move Text Choice World) :=
  [.step t .go, .step t .go, .step t .go, .step t (.chunks [1] none)]

/-- The pull `0` is at its second byte, and the pull `1` opens the file once more. -/
def overlap : List (Sys.Move Text Choice World) :=
  [.start seed, .start seed] ++ ask 0 ++ [.step 0 .go, .step 0 .go] ++ ask 1 ++ [.step 1 .go]

/-- Both go on, up to the point where they rename the file. -/
def written : List (Sys.Move Text Choice World) :=
  overlap ++ [.step 0 .go, .step 1 .go, .step 0 .go, .step 1 .go, .step 1 .go]

end Sample

end RspacefsCsi
