/-
# OCI references (`registry.rs`, `Reference`)

`registry/repository[:tag|@digest]`.  Two facts about the parser are used everywhere
else: which names a capture can be pushed to (`parse_tag_isOk_iff`), and that the
reference a push returns is read back as it was written (`parse_render`).  In full, parsing
inverts rendering (`parse_inverts_render`).
-/
import Mathlib.Data.List.TakeWhile
import RspacefsCsi.Lib.Files

namespace RspacefsCsi

open Lib

/-- What is said about a bad response: a text of the driver, or that of the JSON reader. -/
inductive Detail
  | text (t : Text)
  | serde
deriving DecidableEq

/-- An error of a registry operation. -/
inductive RegistryError
  | badReference (s reason : Text)
  | http (msg : Text)
  | io (e : IoError)
  | status (url : Text) (code : ℕ)
  | digestMismatch (reference expected got : Text)
  | noLayers (repository : Text)
  | badResponse (repository : Text) (detail : Detail)
deriving DecidableEq

/-- A parsed reference. -/
structure Reference where
  registry : Text
  repository : Text
  /-- A tag or a digest. -/
  reference : Text
deriving DecidableEq

namespace Reference

/-- The name and the tag or digest of a reference. -/
def splitName (s : Text) : Text × Text :=
  match Text.splitOnce '@' s with
  | some (n, d) => (n, d)
  | none =>
      let slash := match Text.rfind '/' s with
        | some i => i + 1
        | none => 0
      match Text.rfind ':' (s.drop slash) with
      | some colon => (s.take (slash + colon), s.drop (slash + colon + 1))
      | none => (s, "latest".toList)

/-- Parse a reference.  The registry host must be explicit. -/
def parse (s : Text) : Except RegistryError Reference :=
  let name := (splitName s).1
  let reference := (splitName s).2
  match Text.splitOnce '/' name with
  | none => .error (.badReference s "missing registry host (expected registry/repo)".toList)
  | some (registry, repository) =>
      if registry = [] ∨ repository = [] ∨ reference = [] then
        .error (.badReference s "empty registry, repository, or reference".toList)
      else .ok ⟨registry, repository, reference⟩

/-- What `parse` accepts. -/
lemma parse_eq_ok_iff {s : Text} {r : Reference} :
    parse s = .ok r ↔
      (splitName s).1 = r.registry ++ '/' :: r.repository ∧ '/' ∉ r.registry ∧
        (splitName s).2 = r.reference ∧
        r.registry ≠ [] ∧ r.repository ≠ [] ∧ r.reference ≠ [] := by
  cases hs : Text.splitOnce '/' (splitName s).1 with
  | none =>
    have hn := Text.splitOnce_eq_none_iff.1 hs
    simp only [parse, hs, reduceCtorEq, false_iff]
    rintro ⟨h, -⟩
    exact hn (by simp [h])
  | some p =>
    obtain ⟨a, b⟩ := p
    obtain ⟨hab, ha⟩ := Text.splitOnce_eq_some_iff.1 hs
    simp only [parse, hs]
    constructor
    · intro h
      by_cases hne : a = [] ∨ b = [] ∨ (splitName s).2 = []
      · rw [if_pos hne] at h
        exact absurd h nofun
      · rw [if_neg hne] at h
        obtain rfl := Except.ok.inj h
        simp only [not_or] at hne
        exact ⟨hab, ha, rfl, hne⟩
    · rintro ⟨h, hreg, href, hne⟩
      rw [h] at hs
      rw [Text.splitOnce_append hreg] at hs
      obtain ⟨rfl, rfl⟩ := Prod.mk.inj (Option.some.inj hs)
      rw [href, if_neg (by simpa [not_or] using hne)]

lemma splitName_at {n d : Text} (hn : '@' ∉ n) : splitName (n ++ '@' :: d) = (n, d) := by
  simp [splitName, Text.splitOnce_append hn]

/-- The name never holds an `@`. -/
lemma at_notMem_splitName (s : Text) : '@' ∉ (splitName s).1 := by
  cases hs : Text.splitOnce '@' s with
  | some p =>
    obtain ⟨a, b⟩ := p
    simpa [splitName, hs] using (Text.splitOnce_eq_some_iff.1 hs).2
  | none =>
    have hn := Text.splitOnce_eq_none_iff.1 hs
    simp only [splitName, hs]
    split
    · exact fun h => hn (List.mem_of_mem_take h)
    · exact hn

lemma at_notMem_of_parse {s : Text} {r : Reference} (h : parse s = .ok r) :
    '@' ∉ r.registry ∧ '@' ∉ r.repository := by
  have hat := at_notMem_splitName s
  rw [(parse_eq_ok_iff.1 h).1] at hat
  simp only [List.mem_append, List.mem_cons, not_or] at hat
  exact ⟨hat.1, hat.2.2⟩

/-- The text of a reference by digest. -/
def render (registry repository digest : Text) : Text :=
  registry ++ '/' :: repository ++ '@' :: digest

/-- A reference by digest is read back as it was written. -/
theorem parse_render {r : Reference} {s d : Text} (h : parse s = .ok r) (hd : d ≠ []) :
    parse (render r.registry r.repository d) = .ok ⟨r.registry, r.repository, d⟩ := by
  obtain ⟨hreg, hrepo⟩ := at_notMem_of_parse h
  obtain ⟨-, hslash, -, hne1, hne2, -⟩ := parse_eq_ok_iff.1 h
  have hname : splitName (render r.registry r.repository d)
      = (r.registry ++ '/' :: r.repository, d) := by
    refine splitName_at ?_
    simp [hreg, hrepo]
  rw [parse_eq_ok_iff, hname]
  exact ⟨rfl, hslash, rfl, hne1, hne2, hd⟩

/-! ### Names with a tag -/

/-- The name before the first `@` is a host, a slash and a path, none of them empty. -/
def HostPath (repo : Text) : Prop :=
  ∃ a b, repo.takeWhile (· ≠ '@') = a ++ '/' :: b ∧ '/' ∉ a ∧ a ≠ [] ∧ b ≠ []

lemma splitName_tag {repo tag : Text} (h1 : '/' ∉ tag) (h2 : ':' ∉ tag) (hat : '@' ∉ repo)
    (hat' : '@' ∉ tag) : splitName (repo ++ ':' :: tag) = (repo, tag) := by
  have hnone : Text.splitOnce '@' (repo ++ ':' :: tag) = none := by
    rw [Text.splitOnce_eq_none_iff]
    simp [hat, hat']
  simp only [splitName, hnone]
  -- the last slash, if any, is inside `repo`, and the last colon after it is ours
  cases hs : Text.rfind '/' (repo ++ ':' :: tag) with
  | none =>
    rw [List.drop_zero, Text.rfind_append repo h2]
    simp
  | some i =>
    obtain ⟨a, b, hab, hb, rfl⟩ := Text.exists_of_rfind hs
    obtain ⟨c, hc⟩ : ∃ c, repo = a ++ '/' :: c := by
      have hlen : a.length < repo.length := by
        by_contra hge
        have hmem : '/' ∈ (repo ++ ':' :: tag).drop repo.length := by
          rw [hab, List.drop_append_of_le_length (by omega)]
          simp
        simp [h1] at hmem
      refine ⟨(repo.drop (a.length + 1)), ?_⟩
      have htake := congrArg (List.take (a.length + 1)) hab
      rw [List.take_append_of_le_length (by omega)] at htake
      calc repo = repo.take (a.length + 1) ++ repo.drop (a.length + 1) :=
            (List.take_append_drop _ _).symm
        _ = _ := by rw [htake]; simp [List.take_append, List.take_of_length_le]
    subst hc
    have hdrop : (a ++ '/' :: c ++ ':' :: tag).drop (a.length + 1) = c ++ ':' :: tag := by
      simp
    have htake : (a ++ '/' :: c ++ ':' :: tag).take (a.length + 1 + c.length)
        = a ++ '/' :: c := by
      have : (a ++ '/' :: c).length = a.length + 1 + c.length := by simp; omega
      rw [← this, List.take_left']
      rfl
    have hrest : (a ++ '/' :: c ++ ':' :: tag).drop (a.length + 1 + c.length + 1) = tag := by
      have hl : (a ++ '/' :: c ++ [':']).length = a.length + 1 + c.length + 1 := by
        simp; omega
      have happ : a ++ '/' :: c ++ ':' :: tag = (a ++ '/' :: c ++ [':']) ++ tag := by simp
      rw [happ, ← hl, List.drop_left']
      rfl
    simp only [hdrop, Text.rfind_append c h2, htake, hrest]

/-- The references with a tag that `parse` accepts. -/
theorem parse_tag_isOk_iff {repo tag : Text} (hne : tag ≠ []) (h1 : '/' ∉ tag) (h2 : ':' ∉ tag)
    (h3 : '@' ∉ tag) : (∃ r, parse (repo ++ ':' :: tag) = .ok r) ↔ HostPath repo := by
  have hname : ∃ d, d ≠ [] ∧
      splitName (repo ++ ':' :: tag) = (repo.takeWhile (· ≠ '@'), d) := by
    by_cases hat : '@' ∈ repo
    · obtain ⟨a, b, rfl, ha⟩ := List.eq_append_cons_of_mem hat
      refine ⟨b ++ ':' :: tag, by simp, ?_⟩
      have htake : (a ++ '@' :: b).takeWhile (· ≠ '@') = a := by
        rw [List.takeWhile_append_of_pos (by
          intro c hc
          simp only [ne_eq, decide_not, Bool.not_eq_eq_eq_not, Bool.not_true,
            decide_eq_false_iff_not]
          rintro rfl
          exact ha hc)]
        simp
      rw [htake, List.append_assoc, List.cons_append, splitName_at ha]
    · refine ⟨tag, hne, ?_⟩
      rw [splitName_tag h1 h2 hat h3, List.takeWhile_eq_self_iff.2]
      intro c hc
      simp only [ne_eq, decide_not, Bool.not_eq_eq_eq_not, Bool.not_true, decide_eq_false_iff_not]
      rintro rfl
      exact hat hc
  obtain ⟨d, hd, hname⟩ := hname
  constructor
  · rintro ⟨r, hr⟩
    obtain ⟨h, hs, -, hreg, hrep, -⟩ := parse_eq_ok_iff.1 hr
    rw [hname] at h
    exact ⟨r.registry, r.repository, h, hs, hreg, hrep⟩
  · rintro ⟨a, b, hab, ha, hane, hbne⟩
    refine ⟨⟨a, b, d⟩, ?_⟩
    rw [parse_eq_ok_iff, hname]
    exact ⟨hab, ha, rfl, hane, hbne, hd⟩

/-! ### The three shapes of a reference -/

/-- No colon behind the last slash. -/
def Untagged (s : Text) : Prop := ∀ a b, s = a ++ ':' :: b → '/' ∈ b

lemma untagged_of_notMem {a b : Text} (h : ':' ∉ b) : Untagged (a ++ '/' :: b) := by
  intro c d hcd
  by_contra hd
  rcases List.append_eq_append_iff.1 hcd with ⟨u, -, hu⟩ | ⟨u, -, hu⟩
  · cases u with
    | nil => exact absurd (List.cons.inj hu).1 (by decide)
    | cons y u =>
      obtain ⟨rfl, rfl⟩ := List.cons.inj hu
      exact h (by simp)
  · cases u with
    | nil => exact absurd (List.cons.inj hu).1 (by decide)
    | cons y u =>
      obtain ⟨rfl, rfl⟩ := List.cons.inj hu
      exact hd (by simp)

/-- The three shapes of a reference: by digest, with a tag, without either. -/
lemma splitName_cases (s : Text) :
    (∃ n d, '@' ∉ n ∧ s = n ++ '@' :: d ∧ splitName s = (n, d)) ∨
    (∃ n t, '@' ∉ s ∧ s = n ++ ':' :: t ∧ '/' ∉ t ∧ ':' ∉ t ∧ splitName s = (n, t)) ∨
    ('@' ∉ s ∧ Untagged s ∧ splitName s = (s, "latest".toList)) := by
  cases hat : Text.splitOnce '@' s with
  | some p =>
    obtain ⟨hs, hn⟩ := Text.splitOnce_eq_some_iff.1 hat
    exact .inl ⟨p.1, p.2, hn, hs, by simp [splitName, hat]⟩
  | none =>
    have hno := Text.splitOnce_eq_none_iff.1 hat
    cases hs : Text.rfind '/' s with
    | none =>
      have hslash := Text.rfind_eq_none_iff.1 hs
      cases hc : Text.rfind ':' s with
      | none =>
        refine .inr (.inr ⟨hno, ?_, by simp [splitName, hat, hs, hc]⟩)
        rintro a b rfl
        exact absurd (by simp) (Text.rfind_eq_none_iff.1 hc)
      | some i =>
        obtain ⟨a, b, rfl, hb, rfl⟩ := Text.exists_of_rfind hc
        have htag : '/' ∉ b := fun h => hslash (by simp [h])
        refine .inr (.inl ⟨a, b, hno, rfl, htag, hb, ?_⟩)
        simp [splitName, hat, hs, hc]
    | some i =>
      obtain ⟨a, b, rfl, hb, rfl⟩ := Text.exists_of_rfind hs
      have hdrop : (a ++ '/' :: b).drop (a.length + 1) = b := by simp
      cases hc : Text.rfind ':' b with
      | none =>
        refine .inr (.inr ⟨hno, untagged_of_notMem (Text.rfind_eq_none_iff.1 hc), ?_⟩)
        simp only [splitName, hat, hs, hdrop, hc]
      | some j =>
        obtain ⟨c, d, rfl, hd, rfl⟩ := Text.exists_of_rfind hc
        have htag : '/' ∉ d := fun h => hb (by simp [h])
        have happ : a ++ '/' :: (c ++ ':' :: d) = (a ++ '/' :: c) ++ ':' :: d := by simp
        refine .inr (.inl ⟨a ++ '/' :: c, d, hno, happ, htag, hd, ?_⟩)
        rw [happ]
        exact splitName_tag htag hd (fun h => hno (happ ▸ List.mem_append_left _ h))
          (fun h => hno (by simp [h]))


/-! ### Byte offsets -/

/-- `splitName` on byte offsets, as the code finds and cuts at them; none is a panic. -/
def splitNameBytes (s : Text) : Option (Text × Text) :=
  match Text.splitOnce '@' s with
  | some (n, d) => some (n, d)
  | none => do
      let slash := match Text.byteRfind '/' s with
        | some i => i + 1
        | none => 0
      match Text.byteRfind ':' (← Text.sliceFrom s slash) with
      | some colon =>
          some (← Text.sliceTo s (slash + colon), ← Text.sliceFrom s (slash + colon + 1))
      | none => some (s, "latest".toList)

/-- The string cut behind its last slash. -/
lemma exists_slash (s : Text) : ∃ u v, s = u ++ v ∧ '/' ∉ v ∧
    (match Text.byteRfind '/' s with
      | some i => i + 1
      | none => 0) = Text.utf8Len u ∧
    (match Text.rfind '/' s with
      | some i => i + 1
      | none => 0) = u.length := by
  by_cases h : '/' ∈ s
  · obtain ⟨a, b, rfl, hb⟩ := Text.exists_last h
    refine ⟨a ++ ['/'], b, by simp, hb, ?_, ?_⟩
    · rw [Text.byteRfind_append a hb, Text.utf8Len_append]
      rfl
    · rw [Text.rfind_append a hb, List.length_append]
      rfl
  · refine ⟨[], s, rfl, h, ?_, ?_⟩
    · rw [Text.byteRfind_eq_none h]
      rfl
    · rw [Text.rfind_eq_none_iff.2 h]
      rfl

/-- Every offset the code cuts at lies between two characters. -/
lemma splitNameBytes_eq (s : Text) : splitNameBytes s = some (splitName s) := by
  cases hat : Text.splitOnce '@' s with
  | some p => simp only [splitNameBytes, splitName, hat]
  | none =>
    have hno := Text.splitOnce_eq_none_iff.1 hat
    obtain ⟨u, v, rfl, hv, hslash, hslash'⟩ := exists_slash s
    simp only [splitNameBytes, hat, hslash, Text.sliceFrom_append, Option.bind_eq_bind,
      Option.bind_some]
    by_cases hc : ':' ∈ v
    · obtain ⟨n, t, rfl, ht⟩ := Text.exists_last hc
      have happ : u ++ (n ++ ':' :: t) = (u ++ n) ++ ':' :: t := by simp
      have hname : splitName (u ++ (n ++ ':' :: t)) = (u ++ n, t) := by
        rw [happ] at hno ⊢
        exact splitName_tag (fun h => hv (by simp [h])) ht
          (fun h => hno (List.mem_append_left _ h)) (fun h => hno (by simp [h]))
      have hto := Text.sliceTo_append (u ++ n) (':' :: t)
      have hfrom := Text.sliceFrom_append (u ++ n ++ [':']) t
      have hone : Text.utf8Len [':'] = 1 := rfl
      rw [← happ, Text.utf8Len_append] at hto
      rw [List.append_assoc (u ++ n), List.singleton_append, ← happ, Text.utf8Len_append,
        Text.utf8Len_append, hone] at hfrom
      simp only [Text.byteRfind_append n ht, hto, hfrom, hname, Option.bind_some]
    · have hname : splitName (u ++ v) = (u ++ v, "latest".toList) := by
        cases hr : Text.rfind '/' (u ++ v) with
        | none =>
          obtain rfl : u = [] := List.length_eq_zero_iff.1 (by simpa [hr] using hslash'.symm)
          rw [List.nil_append] at hat hr
          simp only [List.nil_append, splitName, hat, hr, List.drop_zero,
            Text.rfind_eq_none_iff.2 hc]
        | some i =>
          simp only [hr] at hslash'
          simp only [splitName, hat, hr, hslash', List.drop_left, Text.rfind_eq_none_iff.2 hc]
      simp only [Text.byteRfind_eq_none hc, hname]

/-- `parse` on byte offsets. -/
def parseBytes (s : Text) : Option (Except RegistryError Reference) := do
  let (name, reference) ← splitNameBytes s
  match Text.splitOnce '/' name with
  | none => some (.error (.badReference s
      "missing registry host (expected registry/repo)".toList))
  | some (registry, repository) =>
      if registry = [] ∨ repository = [] ∨ reference = [] then
        some (.error (.badReference s "empty registry, repository, or reference".toList))
      else some (.ok ⟨registry, repository, reference⟩)

lemma parseBytes_eq (s : Text) : parseBytes s = some (parse s) := by
  simp only [parseBytes, splitNameBytes_eq, Option.bind_eq_bind, Option.bind_some, parse]
  cases Text.splitOnce '/' (splitName s).1 with
  | none => rfl
  | some p =>
    dsimp only
    split <;> rfl

/-! ### Rendering -/

/-- The text of a reference by tag. -/
def renderTag (registry repository tag : Text) : Text :=
  registry ++ '/' :: repository ++ ':' :: tag

lemma parse_of_splitName {s registry repository reference : Text}
    (hs : splitName s = (registry ++ '/' :: repository, reference)) (hslash : '/' ∉ registry)
    (h1 : registry ≠ []) (h2 : repository ≠ []) (h3 : reference ≠ []) :
    parse s = .ok ⟨registry, repository, reference⟩ := by
  rw [parse_eq_ok_iff, hs]
  exact ⟨rfl, hslash, rfl, h1, h2, h3⟩

lemma parse_renderTag {registry repository tag : Text} (h1 : registry ≠ []) (hslash : '/' ∉ registry)
    (hat : '@' ∉ registry) (h2 : repository ≠ []) (hat' : '@' ∉ repository) (h3 : tag ≠ [])
    (ht1 : '/' ∉ tag) (ht2 : ':' ∉ tag) (ht3 : '@' ∉ tag) :
    parse (renderTag registry repository tag) = .ok ⟨registry, repository, tag⟩ := by
  refine parse_of_splitName (splitName_tag ht1 ht2 ?_ ht3) hslash h1 h2 h3
  simp [hat, hat']

/-- What the parser returns without an `@` in the string: a tag. -/
lemma tag_of_parse {s : Text} {r : Reference} (h : parse s = .ok r) (hs : '@' ∉ s) :
    '/' ∉ r.reference ∧ ':' ∉ r.reference ∧ '@' ∉ r.reference := by
  obtain ⟨-, -, href, -⟩ := parse_eq_ok_iff.1 h
  rcases splitName_cases s with ⟨n, d, -, rfl, -⟩ | ⟨n, t, -, rfl, h1, h2, heq⟩ | ⟨-, -, heq⟩
  · exact absurd (by simp) hs
  · rw [heq] at href
    subst href
    exact ⟨h1, h2, fun hmem => hs (by simp [hmem])⟩
  · rw [heq] at href
    rw [← href]
    simp only
    decide

/-- **Parsing inverts rendering.**  A rendered reference, by tag or by digest, is parsed into
its parts; what the parser accepts is rendered to something it parses to the same parts again;
and it cuts no string inside a character. -/
theorem parse_inverts_render :
    (∀ registry repository tag : Text, registry ≠ [] → '/' ∉ registry → '@' ∉ registry →
      repository ≠ [] → '@' ∉ repository →
      tag ≠ [] → '/' ∉ tag → ':' ∉ tag → '@' ∉ tag →
      parse (renderTag registry repository tag) = .ok ⟨registry, repository, tag⟩) ∧
    (∀ registry repository d : Text, registry ≠ [] → '/' ∉ registry → '@' ∉ registry →
      repository ≠ [] → '@' ∉ repository → d ≠ [] →
      parse (render registry repository d) = .ok ⟨registry, repository, d⟩) ∧
    (∀ (s : Text) (r : Reference), parse s = .ok r →
      '/' ∉ r.registry ∧ '@' ∉ r.registry ∧ '@' ∉ r.repository ∧
      parse (if '@' ∈ s then render r.registry r.repository r.reference
        else renderTag r.registry r.repository r.reference) = .ok r) ∧
    ∀ s : Text, parseBytes s = some (parse s) := by
  refine ⟨?_, ?_, ?_, parseBytes_eq⟩
  · intro registry repository tag h1 hslash hat h2 hat' h3 ht1 ht2 ht3
    exact parse_renderTag h1 hslash hat h2 hat' h3 ht1 ht2 ht3
  · intro registry repository d h1 hslash hat h2 hat' h3
    refine parse_of_splitName (splitName_at ?_) hslash h1 h2 h3
    simp [hat, hat']
  · intro s r h
    obtain ⟨hat, hat'⟩ := at_notMem_of_parse h
    obtain ⟨-, hslash, -, h1, h2, h3⟩ := parse_eq_ok_iff.1 h
    refine ⟨hslash, hat, hat', ?_⟩
    by_cases hs : '@' ∈ s
    · rw [if_pos hs]
      exact parse_render h h3
    · rw [if_neg hs]
      obtain ⟨ht1, ht2, ht3⟩ := tag_of_parse h hs
      exact parse_renderTag h1 hslash hat h2 hat' h3 ht1 ht2 ht3

/-- A host with a port, a nested path and characters of several bytes. -/
theorem parse_inverts_render_nested :
    parse (renderTag "reg.local:5000".toList "team/über:x/app".toList "v1".toList)
      = .ok ⟨"reg.local:5000".toList, "team/über:x/app".toList, "v1".toList⟩ ∧
    parseBytes "reg.local:5000/team/über:x/app:v1".toList
      = some (parse "reg.local:5000/team/über:x/app:v1".toList) :=
  ⟨parse_inverts_render.1 _ _ _ (by decide) (by decide) (by decide) (by decide) (by decide)
    (by decide) (by decide) (by decide) (by decide), parse_inverts_render.2.2.2 _⟩

end Reference

end RspacefsCsi
