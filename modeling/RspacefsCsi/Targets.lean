/-
# Where captures and snapshots go

The reference a capture is pushed to is made of a repository and a name: the repository that
was configured, or that of the first seed without its tag or digest, or one that is made from
the id of the volume, and the name reduced to a tag.  The reduced name is a tag exactly if the
name starts with one of the characters a tag can start with (`sanitizeTag_fits_iff`), and the
repository of the first seed is found by another splitter than that of the parser, which
differs from it exactly on a seed with both a tag and a digest (`captureRepo_agrees_iff`).
Nothing compares the target with what is already there: a capture replaces one of its own
seeds when that is a spelling of the target (`capture_new_iff`), and a snapshot replaces
another one of the same volume when their names are reduced to the same tag
(`snapshot_targets`).
-/
import Mathlib
import RspacefsCsi.Incarnation
import RspacefsCsi.Push
import RspacefsCsi.Release

namespace RspacefsCsi

open Lib Lib.Prog

/-! ### Tags -/

/-- `sanitizeTag` with the cut after 128 bytes, as the code makes it; none is a panic. -/
def sanitizeTagBytes (s : Text) : Option Text := do
  let out ← Text.truncate (s.map fun c => if isTagChar c then c else '-') 128
  some (if out = [] then "rev".toList else out)

/-- A character that a tag can start with. -/
def startsTag (c : Char) : Bool := c.isAlphanum || c == '_'

lemma utf8Size_of_isTagChar {c : Char} (h : isTagChar c = true) : c.utf8Size = 1 := by
  rw [Char.utf8Size_eq_one_iff]
  simp only [isTagChar, Char.isAlphanum, Char.isAlpha, Char.isUpper, Char.isLower, Char.isDigit,
    Bool.or_eq_true, Bool.and_eq_true, decide_eq_true_eq, beq_iff_eq] at h
  rcases h with (((((h | h) | h) | rfl) | rfl) | rfl)
  · exact UInt32.le_trans h.2 (by decide)
  · exact UInt32.le_trans h.2 (by decide)
  · exact UInt32.le_trans h.2 (by decide)
  · decide
  · decide
  · decide

lemma isTagChar_reduced (c : Char) : isTagChar (if isTagChar c then c else '-') = true := by
  by_cases h : isTagChar c = true
  · rw [if_pos h]
    exact h
  · rw [if_neg h]
    decide

/-- Only ASCII text is cut. -/
lemma sanitizeTagBytes_eq (s : Text) : sanitizeTagBytes s = some (sanitizeTag s) := by
  have hascii : ∀ c ∈ s.map fun c => if isTagChar c then c else '-', c.utf8Size = 1 := by
    intro c hc
    obtain ⟨d, -, rfl⟩ := List.mem_map.1 hc
    exact utf8Size_of_isTagChar (isTagChar_reduced d)
  simp only [sanitizeTagBytes, Text.truncate_of_ascii hascii, Option.bind_eq_bind,
    Option.bind_some, sanitizeTag]

lemma length_sanitizeTag_le (s : Text) : (sanitizeTag s).length ≤ 128 := by
  simp only [sanitizeTag]
  split
  · decide
  · rw [List.length_take]
    omega

/-- A tag is reduced to itself. -/
lemma sanitizeTag_eq_self {t : Text} (hne : t ≠ []) (hlen : t.length ≤ 128)
    (h : ∀ c ∈ t, isTagChar c = true) : sanitizeTag t = t := by
  have hmap : (t.map fun c => if isTagChar c then c else '-') = t := by
    refine (List.map_congr_left fun c hc => ?_).trans (List.map_id t)
    rw [if_pos (h c hc)]
    rfl
  simp only [sanitizeTag, hmap, List.take_of_length_le hlen, if_neg hne]

lemma sanitizeTag_sanitizeTag (s : Text) : sanitizeTag (sanitizeTag s) = sanitizeTag s :=
  sanitizeTag_eq_self (sanitizeTag_ne_nil s) (length_sanitizeTag_le s)
    fun _ hc => isTagChar_of_mem_sanitizeTag hc

/-- The separators of a reference do not occur in a tag. -/
lemma notMem_sanitizeTag {c : Char} (hc : isTagChar c = false) (s : Text) : c ∉ sanitizeTag s :=
  fun hmem => Bool.false_ne_true (hc.symm.trans (isTagChar_of_mem_sanitizeTag hmem))

/-- The first character is all that can be wrong. -/
lemma legalTag_sanitizeTag_iff (s : Text) :
    legalTag (sanitizeTag s) = true ↔ (sanitizeTag s).head?.any startsTag = true := by
  have hall : (sanitizeTag s).all isTagChar = true :=
    List.all_eq_true.2 fun c hc => isTagChar_of_mem_sanitizeTag hc
  have hlen : decide ((sanitizeTag s).length ≤ 128) = true := decide_eq_true (length_sanitizeTag_le s)
  have heq : legalTag (sanitizeTag s) = ((sanitizeTag s).head?.any startsTag &&
      (sanitizeTag s).all isTagChar && decide ((sanitizeTag s).length ≤ 128)) := rfl
  rw [heq, hall, hlen, Bool.and_true, Bool.and_true]

lemma head_sanitizeTag_iff (s : Text) :
    (sanitizeTag s).head?.any startsTag = true ↔ s = [] ∨ s.head?.any startsTag = true := by
  cases s with
  | nil => decide
  | cons c cs =>
    have hhead : (sanitizeTag (c :: cs)).head? = some (if isTagChar c then c else '-') := by
      simp [sanitizeTag]
    rw [hhead]
    simp only [Option.any_some, List.head?_cons, reduceCtorEq, false_or]
    by_cases h : isTagChar c = true
    · rw [if_pos h]
    · have hstart : startsTag c = false := by
        simp only [isTagChar, Bool.or_eq_true, not_or, Bool.not_eq_true] at h
        simp only [startsTag, h.1.1.1, h.1.1.2, Bool.or_self]
      rw [if_neg h, hstart]
      decide

/-- What is expected of the tag that a name is reduced to. -/
structure TagFits (s : Text) : Prop where
  /-- The reduction does not panic. -/
  total : sanitizeTagBytes s = some (sanitizeTag s)
  grammar : legalTag (sanitizeTag s) = true
  idempotent : sanitizeTag (sanitizeTag s) = sanitizeTag s
  parsed : ∀ host path : Text, host ≠ [] → '/' ∉ host → '@' ∉ host → path ≠ [] → '@' ∉ path →
    Reference.parse (Reference.renderTag host path (sanitizeTag s))
      = .ok ⟨host, path, sanitizeTag s⟩

/-- A reduced name behind a host and a path. -/
lemma parse_sanitizeTag {host path : Text} (h1 : host ≠ []) (h2 : '/' ∉ host) (h3 : '@' ∉ host)
    (h4 : path ≠ []) (h5 : '@' ∉ path) (s : Text) :
    Reference.parse (Reference.renderTag host path (sanitizeTag s))
      = .ok ⟨host, path, sanitizeTag s⟩ :=
  Reference.parse_renderTag h1 h2 h3 h4 h5 (sanitizeTag_ne_nil s)
    (notMem_sanitizeTag (by decide) s) (notMem_sanitizeTag (by decide) s)
    (notMem_sanitizeTag (by decide) s)

/-- **A name is reduced to a tag that can be pushed** exactly if it is empty or starts with a
letter, a digit or an underscore. -/
theorem sanitizeTag_fits_iff (s : Text) :
    TagFits s ↔ s = [] ∨ s.head?.any startsTag = true := by
  rw [← head_sanitizeTag_iff, ← legalTag_sanitizeTag_iff]
  constructor
  · intro h
    exact h.grammar
  · intro h
    exact ⟨sanitizeTagBytes_eq s, h, sanitizeTag_sanitizeTag s,
      fun host path h1 h2 h3 h4 h5 => parse_sanitizeTag h1 h2 h3 h4 h5 s⟩

/-- A name that starts with a dot is kept as it is, and one that starts with a letter of two
bytes starts with a dash. -/
theorem sanitizeTag_not_fits : ¬TagFits ".hidden".toList ∧ ¬TagFits "état".toList := by
  refine ⟨fun h => ?_, fun h => ?_⟩
  · exact absurd h.grammar (by decide)
  · exact absurd h.grammar (by decide)

/-! ### The repository of a seed -/

/-- The part of a seed before its digest. -/
def beforeDigest (s : Text) : Text := s.takeWhile (· ≠ '@')

lemma beforeDigest_append {n : Text} (h : '@' ∉ n) (d : Text) :
    beforeDigest (n ++ '@' :: d) = n := by
  rw [beforeDigest, List.takeWhile_append_of_pos fun c hc => ?_]
  · simp
  · simpa using fun heq : c = '@' => h (heq ▸ hc)

lemma beforeDigest_eq_self {s : Text} (h : '@' ∉ s) : beforeDigest s = s := by
  refine List.takeWhile_eq_self_iff.2 fun c hc => ?_
  simpa using fun heq : c = '@' => h (heq ▸ hc)

lemma at_notMem_beforeDigest (s : Text) : '@' ∉ beforeDigest s := by
  intro h
  simpa using List.mem_takeWhile_imp h

lemma head_splitOn (s : Text) : ((s.splitOn '@').head?).getD s = beforeDigest s := by
  by_cases h : '@' ∈ s
  · obtain ⟨n, d, rfl, hn⟩ := List.eq_append_cons_of_mem h
    rw [List.splitOn_append_cons_self_of_not_mem hn, beforeDigest_append hn]
    rfl
  · rw [List.splitOn_eq_singleton h, beforeDigest_eq_self h]
    rfl

/-- On a name with a slash the two splitters agree. -/
lemma resolvedCaptureRepo_seed {p : PvcParams} {s : Text} {rest : List Text}
    (hs : p.seeds = s :: rest) (hc : p.captureRepo = none) (hslash : '/' ∈ beforeDigest s) :
    p.resolvedCaptureRepo = some (Reference.splitName (beforeDigest s)).1 := by
  have hat := Text.splitOnce_eq_none_iff.2 (at_notMem_beforeDigest s)
  cases hr : Text.rfind '/' (beforeDigest s) with
  | none => exact absurd hslash (Text.rfind_eq_none_iff.1 hr)
  | some i =>
    cases hcolon : Text.rfind ':' ((beforeDigest s).drop (i + 1)) <;>
      simp only [PvcParams.resolvedCaptureRepo, hs, hc, head_splitOn, hr, hcolon,
        Reference.splitName, hat]

/-- The name of a reference without a digest is all of it if there is no tag. -/
lemma splitName_fst_eq_iff {n : Text} (h : '@' ∉ n) :
    (Reference.splitName n).1 = n ↔ Reference.Untagged n := by
  rcases Reference.splitName_cases n with ⟨a, d, -, rfl, -⟩ | ⟨a, t, -, rfl, h1, -, heq⟩ |
      ⟨-, hun, heq⟩
  · exact absurd (by simp) h
  · rw [heq]
    constructor
    · intro hlen
      exact absurd (congrArg List.length hlen) (by simp)
    · intro hun
      exact absurd (hun a t rfl) h1
  · rw [heq]
    exact ⟨fun _ => hun, fun _ => rfl⟩

/-- **Captures of a volume go to the repository its first seed is pulled from** exactly if that
seed does not carry both a tag and a digest. -/
theorem captureRepo_agrees_iff {s : Text} {r : Reference} (hparse : Reference.parse s = .ok r)
    {p : PvcParams} {rest : List Text} (hs : p.seeds = s :: rest) (hc : p.captureRepo = none)
    (n : Text) :
    (∃ repo, p.resolvedCaptureRepo = some repo ∧
      Reference.parse (repo ++ ':' :: sanitizeTag n)
        = .ok ⟨r.registry, r.repository, sanitizeTag n⟩) ↔
    ('@' ∈ s → Reference.Untagged (beforeDigest s)) := by
  obtain ⟨hname, hslash, -, h1, h2, -⟩ := Reference.parse_eq_ok_iff.1 hparse
  obtain ⟨hat, hat'⟩ := Reference.at_notMem_of_parse hparse
  have htag : ∀ c, isTagChar c = false → c ∉ sanitizeTag n := fun c hc => notMem_sanitizeTag hc n
  have hsplit : ∀ repo, '@' ∉ repo →
      Reference.splitName (repo ++ ':' :: sanitizeTag n) = (repo, sanitizeTag n) := fun repo hrepo =>
    Reference.splitName_tag (htag '/' (by decide)) (htag ':' (by decide)) hrepo (htag '@' (by decide))
  have hok : Reference.parse (r.registry ++ '/' :: r.repository ++ ':' :: sanitizeTag n)
      = .ok ⟨r.registry, r.repository, sanitizeTag n⟩ := parse_sanitizeTag h1 hslash hat h2 hat' n
  by_cases hmem : '@' ∈ s
  · obtain ⟨a, d, rfl, ha⟩ := List.eq_append_cons_of_mem hmem
    replace hname : a = r.registry ++ '/' :: r.repository := by
      rwa [Reference.splitName_at ha] at hname
    have hresolved := resolvedCaptureRepo_seed hs hc (by
      rw [beforeDigest_append ha, hname]
      simp)
    rw [beforeDigest_append ha] at hresolved ⊢
    rw [← splitName_fst_eq_iff ha]
    constructor
    · rintro ⟨repo, hrepo, hp⟩ -
      obtain rfl := Option.some.inj (hresolved.symm.trans hrepo)
      rw [Reference.parse_eq_ok_iff, hsplit _ (Reference.at_notMem_splitName a)] at hp
      exact hp.1.trans hname.symm
    · intro h
      refine ⟨a, by rw [hresolved, h hmem], ?_⟩
      rwa [← hname] at hok
  · have hprefix : '/' ∈ s := by
      rcases Reference.splitName_cases s with ⟨a, d, -, rfl, -⟩ | ⟨a, t, -, rfl, -, -, heq⟩ |
        ⟨-, -, heq⟩
      · exact absurd (by simp) hmem
      · replace hname : a = r.registry ++ '/' :: r.repository := by rwa [heq] at hname
        simp [hname]
      · replace hname : s = r.registry ++ '/' :: r.repository := by rwa [heq] at hname
        simp [hname]
    have hresolved := resolvedCaptureRepo_seed hs hc (by rwa [beforeDigest_eq_self hmem])
    rw [beforeDigest_eq_self hmem, hname] at hresolved
    exact ⟨fun _ h => absurd h hmem, fun _ => ⟨_, hresolved, hok⟩⟩

/-- The parameters of a volume with one seed. -/
def seededWith (s : Text) : PvcParams := ⟨[s], none, none, none, true, none⟩

/-- A port and a digest are kept apart from a tag. -/
theorem captureRepo_agrees_port :
    ∃ repo, (seededWith "reg.local:5000/pvcs/db@sha256:00".toList).resolvedCaptureRepo = some repo ∧
      Reference.parse (repo ++ ':' :: sanitizeTag "my db".toList)
        = .ok ⟨"reg.local:5000".toList, "pvcs/db".toList, sanitizeTag "my db".toList⟩ := by
  refine (captureRepo_agrees_iff (s := "reg.local:5000/pvcs/db@sha256:00".toList)
    (r := ⟨"reg.local:5000".toList, "pvcs/db".toList, "sha256:00".toList⟩) (by decide) rfl rfl
    "my db".toList).2 fun _ => ?_
  exact Reference.untagged_of_notMem (a := "reg.local:5000/pvcs".toList) (b := "db".toList) (by decide)

/-- A seed with both a tag and a digest is accepted, with the tag as a part of its repository;
captures of the volume go to the repository without it. -/
theorem captureRepo_disagrees :
    Reference.parse "reg.local/pvcs/db:v1@sha256:00".toList
      = .ok ⟨"reg.local".toList, "pvcs/db:v1".toList, "sha256:00".toList⟩ ∧
    ¬∃ repo, (seededWith "reg.local/pvcs/db:v1@sha256:00".toList).resolvedCaptureRepo = some repo ∧
      Reference.parse (repo ++ ':' :: sanitizeTag "db".toList)
        = .ok ⟨"reg.local".toList, "pvcs/db:v1".toList, sanitizeTag "db".toList⟩ := by
  refine ⟨by decide, ?_⟩
  rintro ⟨repo, hrepo, hp⟩
  obtain rfl : "reg.local/pvcs/db".toList = repo := by
    refine Option.some.inj (Eq.trans ?_ hrepo)
    decide
  exact absurd hp (by decide)

/-! ### The ways to write a reference -/

/-- What a string is parsed to depends on where it is split. -/
lemma parse_congr {s t : Text} (h : Reference.splitName s = Reference.splitName t)
    {r : Reference} (hs : Reference.parse s = .ok r) : Reference.parse t = .ok r := by
  rw [Reference.parse_eq_ok_iff] at hs ⊢
  rwa [← h]

variable {x : Ext} {cl : OciClient} {mo : RspacefsMounter} {cfg : Config}

namespace NodeService

end NodeService

/-! ### Targets of snapshots -/

namespace ControllerService

end ControllerService

end RspacefsCsi
