/-
# JSON on a stream

Documents that are sent over a stream are told apart by their ends.  A value is written on one
line (`newline_notMem_toVec`), and a line is read as the value on it (`fromSlice_line`).  What
arrives may be only the beginning of a document: the parser does not look beyond a closing
bracket, so what it has read as an object it reads from every longer text too (`read_append`), and
the beginning of an object is therefore never taken for a document, unless it is the whole of it
(`fromSlice_cut_obj`).
-/
import RspacefsCsi.Lib.Json

namespace RspacefsCsi.Lib.Json

/-! ### Bytes and texts -/

/-- The text that bytes stand for. -/
def fromUtf8 (b : Bytes) : Option Text := b.toByteArray.utf8Decode?.map Array.toList

lemma fromSlice_eq (b : Bytes) : fromSlice b = (fromUtf8 b).bind parse := by
  rw [fromSlice, fromUtf8]
  cases b.toByteArray.utf8Decode? <;> rfl

lemma fromUtf8_utf8 (cs : Text) : fromUtf8 (cs.flatMap String.utf8EncodeChar) = some cs := by
  have h : (cs.flatMap String.utf8EncodeChar).toByteArray = cs.utf8Encode := rfl
  simp [fromUtf8, h]

lemma utf8_of_fromUtf8 {b : Bytes} {cs : Text} (h : fromUtf8 b = some cs) :
    cs.flatMap String.utf8EncodeChar = b := by
  obtain ⟨a, hd, rfl⟩ := Option.map_eq_some_iff.1 h
  have henc : a.toList.utf8Encode = b.toByteArray := by
    have := ByteArray.utf8Encode_get_utf8Decode? (b := b.toByteArray) (h := by rw [hd]; rfl)
    simpa [hd] using this
  have := congrArg (fun a : ByteArray => a.data.toList) henc
  simpa [List.utf8Encode] using this

/-! ### Strings -/

lemma push_eq_some {c : Char} {p : Option (Text × Text)} {s r : Text} (h : push c p = some (s, r)) :
    ∃ s', p = some (s', r) ∧ s = c :: s' := by
  obtain ⟨⟨s', r'⟩, hp, heq⟩ := Option.map_eq_some_iff.1 h
  obtain ⟨rfl, rfl⟩ := Prod.mk.inj heq
  exact ⟨s', hp, rfl⟩

lemma push_some (c : Char) (s r : Text) : push c (some (s, r)) = some (c :: s, r) := rfl

/-- What was read as a string is read from a longer text. -/
lemma unescape_append {n m : ℕ} {cs s r : Text} (h : unescape n cs = some (s, r)) (hnm : n ≤ m)
    (t : Text) : unescape m (cs ++ t) = some (s, r ++ t) := by
  induction n generalizing m cs s r with
  | zero => exact absurd h (by rintro ⟨⟩)
  | succ n ih =>
    obtain ⟨m, rfl⟩ : ∃ m', m = m' + 1 := ⟨m - 1, by omega⟩
    have hle : n ≤ m := Nat.le_of_succ_le_succ hnm
    unfold unescape at h
    split at h
    · exact absurd h (by rintro ⟨⟩)
    · obtain ⟨rfl, rfl⟩ := Prod.mk.inj (Option.some.inj h)
      rfl
    · rename_i a b c d rest
      rw [List.cons_append, List.cons_append, List.cons_append, List.cons_append, List.cons_append,
        List.cons_append, unescape]
      split at h
      · exact absurd h (by rintro ⟨⟩)
      rename_i x hx
      by_cases hhigh : 0xD800 ≤ x ∧ x < 0xDC00
      · rw [if_pos hhigh] at h ⊢
        split at h
        · rename_i a' b' c' d' rest'
          simp only [List.cons_append]
          split at h
          · exact absurd h (by rintro ⟨⟩)
          rename_i y hy
          by_cases hlow : 0xDC00 ≤ y ∧ y < 0xE000
          · rw [if_pos hlow] at h ⊢
            obtain ⟨s', hs', rfl⟩ := push_eq_some h
            rw [ih hs' hle, push_some]
          · rw [if_neg hlow] at h
            exact absurd h (by rintro ⟨⟩)
        · exact absurd h (by rintro ⟨⟩)
      · rw [if_neg hhigh] at h ⊢
        by_cases hlow : 0xDC00 ≤ x ∧ x < 0xE000
        · rw [if_pos hlow] at h
          exact absurd h (by rintro ⟨⟩)
        · rw [if_neg hlow] at h ⊢
          obtain ⟨s', hs', rfl⟩ := push_eq_some h
          rw [ih hs' hle, push_some]
    · rename_i e rest hnot
      split at h
      · exact absurd h (by rintro ⟨⟩)
      rename_i c hc
      have he : e ≠ 'u' := by
        rintro rfl
        have hnone : unescapeChar 'u' = none := by decide
        exact absurd (hnone.symm.trans hc) (by rintro ⟨⟩)
      rw [List.cons_append, List.cons_append, unescape]
      · simp only [hc]
        obtain ⟨s', hs', rfl⟩ := push_eq_some h
        rw [ih hs' hle, push_some]
      · exact fun _ _ _ _ _ h => absurd h he
    · rename_i c rest hquote hu hesc
      by_cases hlt : c.toNat < 32
      · rw [if_pos hlt] at h
        exact absurd h (by rintro ⟨⟩)
      rw [if_neg hlt] at h
      obtain ⟨s', hs', rfl⟩ := push_eq_some h
      -- a backslash at the end is followed by nothing that is read
      have hslash : c ≠ '\\' := by
        rintro rfl
        cases rest with
        | nil =>
          rw [unescape_nil] at hs'
          exact absurd hs' (by rintro ⟨⟩)
        | cons e r' => exact hesc e r' rfl rfl
      rw [List.cons_append, unescape]
      · rw [if_neg hlt, ih hs' hle, push_some]
      · exact hquote
      · exact fun _ _ _ _ _ h => absurd h hslash
      · exact fun _ _ h => absurd h hslash

/-! ### Values -/

lemma skipWs_append {cs u : Text} {c : Char} (h : skipWs cs = c :: u) (t : Text) :
    skipWs (cs ++ t) = c :: (u ++ t) := by
  rw [skipWs, List.dropWhile_append]
  rw [skipWs] at h
  simp [h]

/-- A number that something follows is read from a longer text. -/
lemma readNum_append {cs r : Text} {v : Json} (h : readNum cs = some (v, r)) (hr : r ≠ []) (t : Text) :
    readNum (cs ++ t) = some (v, r ++ t) := by
  have hdrop : cs.dropWhile isNumChar = r := by
    simp only [readNum] at h
    split at h
    · exact (Prod.mk.inj (Option.some.inj h)).2
    · split at h
      · exact (Prod.mk.inj (Option.some.inj h)).2
      · exact absurd h (by rintro ⟨⟩)
  have hdrop' : (cs ++ t).dropWhile isNumChar = r ++ t := by
    rw [List.dropWhile_append, hdrop, if_neg (by simpa using hr)]
  have htake' : (cs ++ t).takeWhile isNumChar = cs.takeWhile isNumChar := by
    have hcs := List.takeWhile_append_dropWhile (p := isNumChar) (l := cs)
    have hall := List.takeWhile_append_dropWhile (p := isNumChar) (l := cs ++ t)
    rw [hdrop] at hcs
    rw [hdrop'] at hall
    have hsame : (cs ++ t).takeWhile isNumChar ++ (r ++ t) = cs.takeWhile isNumChar ++ (r ++ t) := by
      rw [hall, ← List.append_assoc, hcs]
    exact List.append_cancel_right hsame
  simp only [readNum] at h ⊢
  rw [htake', hdrop']
  split at h
  · rename_i hnat
    obtain ⟨rfl, rfl⟩ := Prod.mk.inj (Option.some.inj h)
    rw [if_pos hnat]
  · rename_i hnat
    rw [if_neg hnat]
    split at h
    · rename_i hfloat
      obtain ⟨rfl, rfl⟩ := Prod.mk.inj (Option.some.inj h)
      rw [dif_pos hfloat]
    · exact absurd h (by rintro ⟨⟩)

/-- A number begins with a digit or a sign. -/
lemma exists_cons_of_readNum {cs r : Text} {v : Json} (h : readNum cs = some (v, r)) :
    ∃ c u, cs = c :: u ∧ (c.isDigit ∨ c = '-') := by
  have htok : ∃ c u, cs.takeWhile isNumChar = c :: u ∧ (c.isDigit ∨ c = '-') := by
    simp only [readNum] at h
    cases ht : cs.takeWhile isNumChar with
    | nil =>
      rw [ht] at h
      exact absurd h (by rintro ⟨⟩)
    | cons c u =>
      refine ⟨c, u, rfl, ?_⟩
      rw [ht] at h
      split at h
      · rename_i hnat
        simp only [isNatTok, List.all_cons, Bool.and_eq_true] at hnat
        exact .inl hnat.1.1
      · split at h
        · rename_i hfloat
          simp only [isFloatTok, List.head?_cons, Option.any_some, Bool.and_eq_true, Bool.or_eq_true,
            beq_iff_eq] at hfloat
          exact hfloat.1.1.2
        · exact absurd h (by rintro ⟨⟩)
  obtain ⟨c, u, ht, hc⟩ := htok
  refine ⟨c, u ++ cs.dropWhile isNumChar, ?_, hc⟩
  rw [← List.cons_append, ← ht, List.takeWhile_append_dropWhile]

/-- The parser knows where the value ends without looking at what follows. -/
def Closed : Json → Prop
  | .nat _ | .float _ => False
  | _ => True

lemma not_closed_of_readNum {cs r : Text} {v : Json} (h : readNum cs = some (v, r)) : ¬Closed v := by
  simp only [readNum] at h
  split at h
  · obtain ⟨rfl, -⟩ := Prod.mk.inj (Option.some.inj h)
    exact id
  · split at h
    · obtain ⟨rfl, -⟩ := Prod.mk.inj (Option.some.inj h)
      exact id
    · exact absurd h (by rintro ⟨⟩)

/-- There is no value in a text of spaces. -/
lemma exists_cons_of_readValue {n : ℕ} {cs r : Text} {v : Json} (h : readValue n cs = some (v, r)) :
    ∃ c u, skipWs cs = c :: u := by
  cases n with
  | zero => exact absurd h (by rintro ⟨⟩)
  | succ n =>
    cases hcs : skipWs cs with
    | nil =>
      rw [readValue, hcs] at h
      exact absurd h (by rintro ⟨⟩)
    | cons c u => exact ⟨c, u, rfl⟩

lemma exists_cons_of_readElems {n : ℕ} {cs r : Text} {l : List Json}
    (h : readElems n cs = some (l, r)) : ∃ c u, skipWs cs = c :: u := by
  cases n with
  | zero => exact absurd h (by rintro ⟨⟩)
  | succ n =>
    unfold readElems at h
    split at h
    · exact absurd h (by rintro ⟨⟩)
    · rename_i v r₁ hv
      exact exists_cons_of_readValue hv

lemma exists_cons_of_readFields {n : ℕ} {cs r : Text} {l : List (Text × Json)}
    (h : readFields n cs = some (l, r)) : ∃ c u, skipWs cs = c :: u := by
  cases n with
  | zero => exact absurd h (by rintro ⟨⟩)
  | succ n =>
    unfold readFields at h
    split at h
    · rename_i u hcs
      exact ⟨_, u, hcs⟩
    · exact absurd h (by rintro ⟨⟩)

/-- A text that does not close at once does not do so with more behind it. -/
lemma skipWs_append_ne {cs : Text} {d : Char} (hcons : ∃ c u, skipWs cs = c :: u)
    (h : ∀ u, skipWs cs ≠ d :: u) (t : Text) : ∀ u, skipWs (cs ++ t) ≠ d :: u := by
  obtain ⟨c, u, hcs⟩ := hcons
  intro u' heq
  rw [skipWs_append hcs] at heq
  obtain ⟨rfl, -⟩ := List.cons.inj heq
  exact h u hcs

/-- What was read is read from a longer text, with more fuel. -/
theorem read_append (n : ℕ) :
    (∀ {m : ℕ} {cs r : Text} {v : Json}, readValue n cs = some (v, r) → r ≠ [] ∨ Closed v → n ≤ m →
      ∀ t, readValue m (cs ++ t) = some (v, r ++ t)) ∧
    (∀ {m : ℕ} {cs r : Text} {l : List Json}, readElems n cs = some (l, r) → n ≤ m →
      ∀ t, readElems m (cs ++ t) = some (l, r ++ t)) ∧
    (∀ {m : ℕ} {cs r : Text} {l : List (Text × Json)}, readFields n cs = some (l, r) → n ≤ m →
      ∀ t, readFields m (cs ++ t) = some (l, r ++ t)) := by
  induction n with
  | zero =>
    refine ⟨fun h => ?_, fun h => ?_, fun h => ?_⟩
    · exact absurd h (by rintro ⟨⟩)
    · exact absurd h (by rintro ⟨⟩)
    · exact absurd h (by rintro ⟨⟩)
  | succ n ih =>
    obtain ⟨ihValue, ihElems, ihFields⟩ := ih
    refine ⟨?_, ?_, ?_⟩
    · intro m cs r v h hr hnm t
      obtain ⟨m, rfl⟩ : ∃ m', m = m' + 1 := ⟨m - 1, by omega⟩
      have hle : n ≤ m := Nat.le_of_succ_le_succ hnm
      unfold readValue at h
      split at h
      · rename_i heq
        obtain ⟨rfl, rfl⟩ := Prod.mk.inj (Option.some.inj h)
        simp only [readValue, skipWs_append heq, List.cons_append]
      · rename_i heq
        obtain ⟨rfl, rfl⟩ := Prod.mk.inj (Option.some.inj h)
        simp only [readValue, skipWs_append heq, List.cons_append]
      · rename_i heq
        obtain ⟨rfl, rfl⟩ := Prod.mk.inj (Option.some.inj h)
        simp only [readValue, skipWs_append heq, List.cons_append]
      · rename_i q heq
        obtain ⟨⟨s, r'⟩, hs, hp⟩ := Option.map_eq_some_iff.1 h
        obtain ⟨rfl, rfl⟩ := Prod.mk.inj hp
        have hs' := unescape_append hs (m := (q ++ t).length + 1) (by simp) t
        simp only [readValue, skipWs_append heq, hs', Option.map_some]
      · rename_i q heq
        simp only [readValue, skipWs_append heq]
        split at h
        · rename_i r' hclose
          obtain ⟨rfl, rfl⟩ := Prod.mk.inj (Option.some.inj h)
          simp only [skipWs_append hclose]
        · rename_i hopen
          obtain ⟨⟨l, r'⟩, hl, hp⟩ := Option.map_eq_some_iff.1 h
          obtain ⟨rfl, rfl⟩ := Prod.mk.inj hp
          have hopen' := skipWs_append_ne (exists_cons_of_readElems hl) hopen t
          split
          · rename_i r'' hclose
            exact absurd hclose (hopen' r'')
          · rw [ihElems hl hle t]
            rfl
      · rename_i q heq
        simp only [readValue, skipWs_append heq]
        split at h
        · rename_i r' hclose
          obtain ⟨rfl, rfl⟩ := Prod.mk.inj (Option.some.inj h)
          simp only [skipWs_append hclose]
        · rename_i hopen
          obtain ⟨⟨l, r'⟩, hl, hp⟩ := Option.map_eq_some_iff.1 h
          obtain ⟨rfl, rfl⟩ := Prod.mk.inj hp
          have hopen' := skipWs_append_ne (exists_cons_of_readFields hl) hopen t
          split
          · rename_i r'' hclose
            exact absurd hclose (hopen' r'')
          · rw [ihFields hl hle t]
            rfl
      · have hrest : r ≠ [] := hr.resolve_right (not_closed_of_readNum h)
        obtain ⟨c, u, hcs, hc⟩ := exists_cons_of_readNum h
        -- the number is what the longer text begins with, after the same spaces
        have hws : readValue (m + 1) (cs ++ t) = readValue (m + 1) (c :: (u ++ t)) := by
          have hidem : skipWs (c :: (u ++ t)) = c :: (u ++ t) := by
            have hstart : isStart c = true := by
              rcases hc with hc | rfl
              · simp [isStart, hc]
              · decide
            exact skipWs_of_isStart hstart _
          simp only [readValue, skipWs_append hcs, hidem]
        rw [hws, readValue_eq_readNum hc, ← List.cons_append, ← hcs]
        exact readNum_append h hrest t
    · intro m cs r l h hnm t
      obtain ⟨m, rfl⟩ : ∃ m', m = m' + 1 := ⟨m - 1, by omega⟩
      have hle : n ≤ m := Nat.le_of_succ_le_succ hnm
      unfold readElems at h
      split at h
      · exact absurd h (by rintro ⟨⟩)
      rename_i v r₁ hv
      have hv' : ∀ {c : Char} {u : Text}, skipWs r₁ = c :: u → r₁ ≠ [] := by
        rintro c u hskip rfl
        exact absurd hskip (by rintro ⟨⟩)
      split at h
      · rename_i r₂ hclose
        obtain ⟨rfl, rfl⟩ := Prod.mk.inj (Option.some.inj h)
        simp only [readElems, ihValue hv (.inl (hv' hclose)) hle t, skipWs_append hclose]
      · rename_i r₂ hcomma
        obtain ⟨⟨l', r'⟩, hl, heq⟩ := Option.map_eq_some_iff.1 h
        obtain ⟨rfl, rfl⟩ := Prod.mk.inj heq
        simp only [readElems, ihValue hv (.inl (hv' hcomma)) hle t, skipWs_append hcomma,
          ihElems hl hle t, Option.map_some]
      · exact absurd h (by rintro ⟨⟩)
    · intro m cs r l h hnm t
      obtain ⟨m, rfl⟩ : ∃ m', m = m' + 1 := ⟨m - 1, by omega⟩
      have hle : n ≤ m := Nat.le_of_succ_le_succ hnm
      unfold readFields at h
      split at h
      · rename_i q hquote
        split at h
        · exact absurd h (by rintro ⟨⟩)
        rename_i k r₁ hk
        have hk' := unescape_append hk (m := (q ++ t).length + 1) (by simp) t
        split at h
        · rename_i r₂ hcolon
          split at h
          · exact absurd h (by rintro ⟨⟩)
          rename_i v r₃ hv
          have hne : ∀ {c : Char} {u : Text}, skipWs r₃ = c :: u → r₃ ≠ [] := by
            rintro c u hskip rfl
            exact absurd hskip (by rintro ⟨⟩)
          split at h
          · rename_i r₄ hclose
            obtain ⟨rfl, rfl⟩ := Prod.mk.inj (Option.some.inj h)
            simp only [readFields, skipWs_append hquote, hk', skipWs_append hcolon,
              ihValue hv (.inl (hne hclose)) hle t, skipWs_append hclose]
          · rename_i r₄ hcomma
            obtain ⟨⟨l', r'⟩, hl, heq⟩ := Option.map_eq_some_iff.1 h
            obtain ⟨rfl, rfl⟩ := Prod.mk.inj heq
            simp only [readFields, skipWs_append hquote, hk', skipWs_append hcolon,
              ihValue hv (.inl (hne hcomma)) hle t, skipWs_append hcomma, ihFields hl hle t,
              Option.map_some]
          · exact absurd h (by rintro ⟨⟩)
        · exact absurd h (by rintro ⟨⟩)
      · exact absurd h (by rintro ⟨⟩)

/-! ### Documents -/

/-- What begins with a brace is an object. -/
lemma closed_of_brace {n : ℕ} {q r : Text} {v : Json} (h : readValue n ('{' :: q) = some (v, r)) :
    Closed v := by
  cases n with
  | zero => exact absurd h (by rintro ⟨⟩)
  | succ n =>
    rw [readValue, skipWs_of_isStart (by decide)] at h
    simp only at h
    split at h
    · obtain ⟨rfl, -⟩ := Prod.mk.inj (Option.some.inj h)
      trivial
    · obtain ⟨⟨l, r'⟩, -, hp⟩ := Option.map_eq_some_iff.1 h
      obtain ⟨rfl, -⟩ := Prod.mk.inj hp
      trivial

/-- The beginning of an object is no document. -/
lemma parse_cut_obj {l : List (Text × Json)} {p : Text} (hp : p <+: render (.obj l))
    (hne : p ≠ render (.obj l)) : parse p = none := by
  unfold parse
  split
  swap
  · rfl
  rename_i v r hread
  exfalso
  have hclosed : Closed v := by
    rw [render] at hp
    rcases List.prefix_cons_iff.1 hp with rfl | ⟨q, rfl, -⟩
    · exact absurd hread (by rintro ⟨⟩)
    · exact closed_of_brace hread
  obtain ⟨t, ht⟩ := hp
  -- the whole object is read from the longer text, and nothing is left over
  have hlonger := (read_append _).1 hread (.inr hclosed)
    (Nat.le_max_left _ (render (.obj l)).length) t
  have hwhole := readValue_render (.obj l) [] _ (Nat.le_max_right (p.length + 1) _)
    (by simp [Stops])
  rw [ht] at hlonger
  rw [List.append_nil, hlonger] at hwhole
  have hnil : t = [] := (List.append_eq_nil_iff.1 (Prod.mk.inj (Option.some.inj hwhole)).2).2
  rw [hnil, List.append_nil] at ht
  exact hne ht

/-- **An object that was cut off is not read.** -/
theorem fromSlice_cut_obj {l : List (Text × Json)} {b : Bytes} (hb : b <+: toVec (.obj l))
    (hne : b ≠ toVec (.obj l)) : fromSlice b = none := by
  rw [fromSlice_eq]
  cases hd : fromUtf8 b with
  | none => rfl
  | some cs =>
    have hbytes := utf8_of_fromUtf8 hd
    have hcut : cs <+: render (.obj l) := prefix_of_utf8 (by rw [hbytes]; exact hb)
    refine parse_cut_obj hcut fun heq => hne ?_
    rw [← hbytes, heq]
    rfl

/-! ### Lines -/

/-- The byte that ends a line. -/
def newline : UInt8 := 10

/-- Only the line feed is encoded with it. -/
lemma newline_notMem_utf8 {c : Char} (h : c ≠ '\n') : newline ∉ String.utf8EncodeChar c := by
  have hv : c.val.toNat ≠ 10 := fun heq => h (Char.ext (UInt32.toNat_inj.1 heq))
  have hbyte : ∀ n : ℕ, n < 256 → n ≠ 10 → newline ≠ UInt8.ofNat n := by
    intro n hn hne heq
    have hnat := congrArg UInt8.toNat heq
    rw [UInt8.toNat_ofNat_of_lt' hn] at hnat
    exact hne hnat.symm
  unfold String.utf8EncodeChar
  simp only
  split_ifs
  · rw [List.mem_singleton]
    exact hbyte _ (by omega) hv
  all_goals
    simp only [List.mem_cons, List.not_mem_nil, or_false, not_or]
    repeat' constructor
    all_goals exact hbyte _ (by omega) (by omega)

lemma newline_notMem_escapeChar (c : Char) : '\n' ∉ escapeChar c := by
  have hhex : ∀ n < 16, '\n' ≠ hexDigit n := by decide
  unfold escapeChar
  split_ifs with hq hb h8 h9 h10 h12 h13 hlt
  iterate 7 decide
  · simp only [List.mem_cons, List.not_mem_nil, or_false, not_or]
    exact ⟨by decide, by decide, by decide, by decide, hhex _ (by omega), hhex _ (by omega)⟩
  · rw [List.mem_singleton]
    rintro rfl
    exact h10 rfl

lemma newline_notMem_quote (s : Text) : '\n' ∉ quote s := by
  simp only [quote, List.mem_cons, List.mem_append, List.mem_flatMap, List.not_mem_nil, or_false, not_or]
  refine ⟨by decide, ?_, by decide⟩
  rintro ⟨c, -, hc⟩
  exact newline_notMem_escapeChar c hc

mutual

/-- A value is written on one line. -/
theorem newline_notMem_render : ∀ j : Json, '\n' ∉ render j
  | .null => by simp [render]
  | .bool true => by simp [render]
  | .bool false => by simp [render]
  | .nat n => by
      intro h
      rw [render] at h
      exact absurd (Nat.isDigit_of_mem_toDigits (by omega) (le_refl 10) h) (by decide)
  | .float t => by
      intro h
      have hok := t.ok
      simp only [isFloatTok, Bool.and_eq_true, List.all_eq_true] at hok
      exact absurd (hok.1.1.1 _ h) (by decide)
  | .str s => newline_notMem_quote s
  | .arr l => by
      simp only [render, List.mem_cons, not_or]
      exact ⟨by decide, newline_notMem_renderElems l⟩
  | .obj l => by
      simp only [render, List.mem_cons, not_or]
      exact ⟨by decide, newline_notMem_renderFields l⟩

theorem newline_notMem_renderElems : ∀ l : List Json, '\n' ∉ renderElems l
  | [] => by decide
  | [v] => by
      simp only [renderElems, List.mem_append, not_or]
      exact ⟨newline_notMem_render v, by decide⟩
  | v :: w :: l => by
      simp only [renderElems, List.mem_append, List.mem_cons, not_or]
      exact ⟨newline_notMem_render v, by decide, newline_notMem_renderElems (w :: l)⟩

theorem newline_notMem_renderFields : ∀ l : List (Text × Json), '\n' ∉ renderFields l
  | [] => by decide
  | [(k, v)] => by
      simp only [renderFields, List.mem_append, List.mem_cons, not_or]
      exact ⟨newline_notMem_quote k, by decide, newline_notMem_render v, by decide, by simp⟩
  | (k, v) :: f :: l => by
      simp only [renderFields, List.mem_append, List.mem_cons, not_or]
      exact ⟨newline_notMem_quote k, by decide, newline_notMem_render v, by decide,
        newline_notMem_renderFields (f :: l)⟩

end

lemma newline_notMem_toVec (j : Json) : newline ∉ toVec j := by
  simp only [toVec, List.mem_flatMap, not_exists, not_and]
  rintro c hc
  refine newline_notMem_utf8 ?_
  rintro rfl
  exact newline_notMem_render j hc

/-- A line is read as the value that was written on it. -/
lemma fromSlice_line (j : Json) : fromSlice (toVec j ++ [newline]) = some j := by
  have hbytes : toVec j ++ [newline] = (render j ++ ['\n']).flatMap String.utf8EncodeChar := by
    rw [List.flatMap_append]
    rfl
  have hread := readValue_render j ['\n'] ((render j ++ ['\n']).length + 1)
    (by rw [List.length_append]; omega) (stops_cons (by decide) [])
  rw [fromSlice_eq, hbytes, fromUtf8_utf8, Option.bind_some, parse, hread]
  rfl

end RspacefsCsi.Lib.Json
