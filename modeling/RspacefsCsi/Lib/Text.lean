/-
# Text

Strings as lists of characters, with the handful of string operations that hand-written
parsers are made of: the first and the last occurrence of a character, splitting at a
class of separators, trimming, and ASCII case folding.

A program that cuts a string at a byte offset panics where the offset is not a character
boundary.  `sliceFrom`, `sliceTo` and `truncate` are these cuts; next to an ASCII separator,
or inside ASCII text, they are the cuts of the list of characters.
-/
import Mathlib.Algebra.GroupWithZero.Nat
import Mathlib.Data.List.Basic

namespace RspacefsCsi.Lib

/-- A string. -/
abbrev Text : Type := List Char

/-- A string of bytes. -/
abbrev Bytes : Type := List UInt8

namespace Text

/-! ### The first occurrence of a character -/

/-- Cut a string at the first occurrence of `c`, which is dropped. -/
def splitOnce (c : Char) : Text → Option (Text × Text)
  | [] => none
  | x :: xs => if x = c then some ([], xs) else (splitOnce c xs).map fun p => (x :: p.1, p.2)

lemma splitOnce_eq_none_iff {c : Char} {s : Text} : splitOnce c s = none ↔ c ∉ s := by
  induction s with
  | nil => simp [splitOnce]
  | cons x xs ih =>
    by_cases hx : x = c
    · simp [splitOnce, hx]
    · simp [splitOnce, hx, ih, Ne.symm hx]

lemma splitOnce_append {c : Char} {a : Text} (ha : c ∉ a) (b : Text) :
    splitOnce c (a ++ c :: b) = some (a, b) := by
  induction a with
  | nil => simp [splitOnce]
  | cons x xs ih =>
    have hx : x ≠ c := fun h => ha (by simp [h])
    have hxs : c ∉ xs := fun h => ha (by simp [h])
    simp [splitOnce, hx, ih hxs]

lemma splitOnce_eq_some_iff {c : Char} {s a b : Text} :
    splitOnce c s = some (a, b) ↔ s = a ++ c :: b ∧ c ∉ a := by
  constructor
  · intro h
    induction s generalizing a with
    | nil => simp [splitOnce] at h
    | cons x xs ih =>
      by_cases hx : x = c
      · simp only [splitOnce, hx, if_true, Option.some.injEq, Prod.mk.injEq] at h
        obtain ⟨rfl, rfl⟩ := h
        simp [hx]
      · simp only [splitOnce, hx, if_false, Option.map_eq_some_iff] at h
        obtain ⟨⟨a', b'⟩, h1, h2⟩ := h
        obtain ⟨rfl, rfl⟩ := Prod.mk.inj h2
        obtain ⟨rfl, hmem⟩ := ih h1
        exact ⟨rfl, by simp [hmem, Ne.symm hx]⟩
  · rintro ⟨rfl, ha⟩
    exact splitOnce_append ha b

/-! ### The last occurrence of a character -/

/-- The offset of the last occurrence of `c`. -/
def rfind (c : Char) : Text → Option ℕ
  | [] => none
  | x :: xs =>
      match rfind c xs with
      | some i => some (i + 1)
      | none => if x = c then some 0 else none

lemma rfind_eq_none_iff {c : Char} {s : Text} : rfind c s = none ↔ c ∉ s := by
  induction s with
  | nil => simp [rfind]
  | cons x xs ih =>
    cases hr : rfind c xs with
    | some i =>
      have hmem : c ∈ xs := by
        by_contra hn
        rw [ih.2 hn] at hr
        exact absurd hr (by simp)
      simp [rfind, hr, hmem]
    | none =>
      have hn : c ∉ xs := ih.1 hr
      by_cases hx : x = c
      · simp [rfind, hr, hx]
      · simp [rfind, hr, hx, hn, Ne.symm hx]

lemma rfind_append {c : Char} (a : Text) {b : Text} (hb : c ∉ b) :
    rfind c (a ++ c :: b) = some a.length := by
  induction a with
  | nil => simp [rfind, rfind_eq_none_iff.2 hb]
  | cons x xs ih => simp [rfind, ih]

/-- The string around the last occurrence of `c`. -/
lemma exists_of_rfind {c : Char} {s : Text} {i : ℕ} (h : rfind c s = some i) :
    ∃ a b, s = a ++ c :: b ∧ c ∉ b ∧ i = a.length := by
  induction s generalizing i with
  | nil => simp [rfind] at h
  | cons x xs ih =>
    cases hr : rfind c xs with
    | some j =>
      simp only [rfind, hr, Option.some.injEq] at h
      obtain ⟨a, b, rfl, hb, rfl⟩ := ih hr
      exact ⟨x :: a, b, rfl, hb, by simp [← h]⟩
    | none =>
      by_cases hx : x = c
      · simp only [rfind, hr, hx, if_true, Option.some.injEq] at h
        exact ⟨[], xs, by simp [hx], rfind_eq_none_iff.1 hr, by simp [← h]⟩
      · simp [rfind, hr, hx] at h

lemma exists_last {c : Char} {s : Text} (h : c ∈ s) : ∃ a b, s = a ++ c :: b ∧ c ∉ b := by
  cases hr : rfind c s with
  | none => exact absurd h (rfind_eq_none_iff.1 hr)
  | some i =>
    obtain ⟨a, b, hab, hb, -⟩ := exists_of_rfind hr
    exact ⟨a, b, hab, hb⟩

/-! ### Splitting at a class of separators -/

lemma of_mem_splitOnP {p : Char → Bool} {s t : Text} (h : t ∈ s.splitOnP p) :
    ∀ c ∈ t, p c = false := by
  induction s generalizing t with
  | nil =>
    simp only [List.splitOnP_nil, List.mem_singleton] at h
    simp [h]
  | cons x xs ih =>
    rw [List.splitOnP_cons_eq_if_modifyHead] at h
    by_cases hx : p x
    · rw [if_pos hx, List.mem_cons] at h
      rcases h with rfl | h
      · simp
      · exact ih h
    · obtain ⟨u, us, hu⟩ := List.exists_cons_of_ne_nil (List.splitOnP_ne_nil p xs)
      rw [if_neg hx, hu, List.modifyHead_cons, List.mem_cons] at h
      rcases h with rfl | h
      · intro c hc
        rcases List.mem_cons.1 hc with rfl | hc
        · simpa using hx
        · exact ih (by simp [hu]) c hc
      · exact ih (by simp [hu, h])

/-! ### Trimming -/

/-- The Unicode `White_Space` property. -/
def isWhitespace (c : Char) : Bool :=
  let n := c.toNat
  (9 ≤ n && n ≤ 13) || n == 0x20 || n == 0x85 || n == 0xA0 || n == 0x1680 ||
    (0x2000 ≤ n && n ≤ 0x200A) || n == 0x2028 || n == 0x2029 || n == 0x202F ||
    n == 0x205F || n == 0x3000

/-- Drop the whitespace at both ends. -/
def trim (s : Text) : Text :=
  ((s.dropWhile isWhitespace).reverse.dropWhile isWhitespace).reverse

lemma trim_eq_self {s : Text} (h : ∀ c ∈ s, isWhitespace c = false) : trim s = s := by
  have hd : ∀ t : Text, (∀ c ∈ t, isWhitespace c = false) → t.dropWhile isWhitespace = t := by
    intro t ht
    cases t with
    | nil => rfl
    | cons x xs => simp [ht x (by simp)]
  rw [trim, hd s h, hd s.reverse (fun c hc => h c (by simpa using hc)), List.reverse_reverse]

lemma mem_of_mem_trim {s : Text} {c : Char} (h : c ∈ trim s) : c ∈ s := by
  have h1 : c ∈ (s.dropWhile isWhitespace).reverse :=
    List.IsSuffix.mem (by simpa [trim] using h) (List.dropWhile_suffix _)
  exact List.IsSuffix.mem (by simpa using h1) (List.dropWhile_suffix _)

lemma trim_trim (s : Text) : trim (trim s) = trim s := by
  have key : ∀ t : Text, (t.dropWhile isWhitespace).dropWhile isWhitespace
      = t.dropWhile isWhitespace := by
    intro t
    induction t with
    | nil => rfl
    | cons x xs ih =>
      by_cases hx : isWhitespace x
      · simp [hx, ih]
      · simp [hx]
  -- dropping at the end leaves the first character alone
  have head : ∀ t : Text, t.dropWhile isWhitespace = t →
      (t.reverse.dropWhile isWhitespace).reverse.dropWhile isWhitespace
        = (t.reverse.dropWhile isWhitespace).reverse := by
    intro t ht
    cases hu : (t.reverse.dropWhile isWhitespace).reverse with
    | nil => rfl
    | cons x u =>
      have hpre : (x :: u) <+: t := by
        have hsuf := List.dropWhile_suffix (l := t.reverse) isWhitespace
        have := List.reverse_prefix.2 hsuf
        rwa [hu, List.reverse_reverse] at this
      obtain ⟨v, rfl⟩ := hpre
      by_cases hx : isWhitespace x
      · exfalso
        have hlen := congrArg List.length ht
        have hle := (List.dropWhile_suffix (l := u ++ v) isWhitespace).length_le
        simp only [List.cons_append, List.dropWhile_cons_of_pos hx, List.length_cons] at hlen
        omega
      · simp [hx]
  rw [trim, trim, head _ (key s), List.reverse_reverse, key]

/-! ### ASCII case folding -/

/-- The ASCII lower case of a character. -/
def asciiLowerChar (c : Char) : Char :=
  if 'A' ≤ c ∧ c ≤ 'Z' then Char.ofNat (c.toNat + 32) else c

/-- A character that is not its own lower case has a letter for it. -/
lemma asciiLowerChar_cases (c : Char) :
    asciiLowerChar c = c ∨ 97 ≤ (asciiLowerChar c).toNat := by
  unfold asciiLowerChar
  split
  · rename_i h
    right
    have h1 : 65 ≤ c.toNat := by
      simpa [Char.le_def, UInt32.le_iff_toNat_le] using h.1
    have h2 : c.toNat ≤ 90 := by
      simpa [Char.le_def, UInt32.le_iff_toNat_le] using h.2
    have hletters : ∀ n < 91, 65 ≤ n → 97 ≤ (Char.ofNat (n + 32)).toNat := by decide
    exact hletters c.toNat (by omega) h1
  · exact .inl rfl

/-- The ASCII lower case of a string. -/
def asciiLower (s : Text) : Text := s.map asciiLowerChar

/-- Equality up to ASCII case. -/
def eqIgnoreAsciiCase (s t : Text) : Bool := asciiLower s == asciiLower t

lemma eqIgnoreAsciiCase_self (s : Text) : eqIgnoreAsciiCase s s = true := by
  simp [eqIgnoreAsciiCase]

/-! ### Byte offsets -/

/-- The number of bytes of a string in UTF-8. -/
def utf8Len (s : Text) : ℕ := (s.map Char.utf8Size).sum

/-- The byte offset of the last occurrence of `c`. -/
def byteRfind (c : Char) : Text → Option ℕ
  | [] => none
  | x :: xs =>
      match byteRfind c xs with
      | some i => some (x.utf8Size + i)
      | none => if x = c then some 0 else none

/-- The slice from a byte offset on.  There is none where the offset is past the end or inside
a character: the program panics there. -/
def sliceFrom : Text → ℕ → Option Text
  | s, 0 => some s
  | [], _ + 1 => none
  | x :: xs, n + 1 => if x.utf8Size ≤ n + 1 then sliceFrom xs (n + 1 - x.utf8Size) else none

/-- The slice up to a byte offset, if there is one. -/
def sliceTo : Text → ℕ → Option Text
  | _, 0 => some []
  | [], _ + 1 => none
  | x :: xs, n + 1 =>
      if x.utf8Size ≤ n + 1 then (sliceTo xs (n + 1 - x.utf8Size)).map (x :: ·) else none

/-- Cut a string after `n` bytes, unless it is shorter. -/
def truncate (s : Text) (n : ℕ) : Option Text :=
  if n ≤ utf8Len s then sliceTo s n else some s

@[simp] lemma utf8Len_nil : utf8Len [] = 0 := rfl

@[simp] lemma utf8Len_cons (x : Char) (xs : Text) : utf8Len (x :: xs) = x.utf8Size + utf8Len xs := by
  simp [utf8Len]

@[simp] lemma utf8Len_append (a b : Text) : utf8Len (a ++ b) = utf8Len a + utf8Len b := by
  simp [utf8Len]

/-- Where the offset lies behind the first character. -/
lemma sliceFrom_cons (x : Char) (xs : Text) (n : ℕ) :
    sliceFrom (x :: xs) (x.utf8Size + n) = sliceFrom xs n := by
  have hpos := Char.utf8Size_pos x
  obtain ⟨m, hm⟩ : ∃ m, x.utf8Size + n = m + 1 := ⟨x.utf8Size + n - 1, by omega⟩
  have hsub : m + 1 - x.utf8Size = n := by omega
  rw [hm, sliceFrom, if_pos (by omega), hsub]

lemma sliceTo_cons (x : Char) (xs : Text) (n : ℕ) :
    sliceTo (x :: xs) (x.utf8Size + n) = (sliceTo xs n).map (x :: ·) := by
  have hpos := Char.utf8Size_pos x
  obtain ⟨m, hm⟩ : ∃ m, x.utf8Size + n = m + 1 := ⟨x.utf8Size + n - 1, by omega⟩
  have hsub : m + 1 - x.utf8Size = n := by omega
  rw [hm, sliceTo, if_pos (by omega), hsub]

/-- A cut between two characters. -/
lemma sliceFrom_append (a b : Text) : sliceFrom (a ++ b) (utf8Len a) = some b := by
  induction a with
  | nil => cases b <;> rfl
  | cons x xs ih => rw [List.cons_append, utf8Len_cons, sliceFrom_cons, ih]

lemma sliceTo_append (a b : Text) : sliceTo (a ++ b) (utf8Len a) = some a := by
  induction a with
  | nil => cases b <;> rfl
  | cons x xs ih =>
    rw [List.cons_append, utf8Len_cons, sliceTo_cons, ih]
    rfl

lemma byteRfind_eq_none {c : Char} {s : Text} (h : c ∉ s) : byteRfind c s = none := by
  induction s with
  | nil => rfl
  | cons x xs ih =>
    simp only [List.mem_cons, not_or] at h
    simp [byteRfind, ih h.2, Ne.symm h.1]

lemma byteRfind_append {c : Char} (a : Text) {b : Text} (hb : c ∉ b) :
    byteRfind c (a ++ c :: b) = some (utf8Len a) := by
  induction a with
  | nil => simp [byteRfind, byteRfind_eq_none hb]
  | cons x xs ih => simp [byteRfind, ih]

/-- On ASCII text bytes are characters. -/
lemma truncate_of_ascii {s : Text} (h : ∀ c ∈ s, c.utf8Size = 1) (n : ℕ) :
    truncate s n = some (s.take n) := by
  have hlen : ∀ t : Text, (∀ c ∈ t, c.utf8Size = 1) → utf8Len t = t.length := by
    intro t ht
    induction t with
    | nil => rfl
    | cons x xs ih =>
      rw [utf8Len_cons, ht x (by simp), ih fun c hc => ht c (by simp [hc]), List.length_cons]
      omega
  unfold truncate
  by_cases hn : n ≤ utf8Len s
  · rw [hlen s h] at hn
    have htake : utf8Len (s.take n) = n := by
      rw [hlen _ fun c hc => h c (List.mem_of_mem_take hc), List.length_take]
      omega
    have hcut := sliceTo_append (s.take n) (s.drop n)
    rw [List.take_append_drop, htake] at hcut
    rw [if_pos (by rwa [hlen s h]), hcut]
  · rw [if_neg hn, List.take_of_length_le]
    rw [hlen s h] at hn
    omega

/-! ### Replacing a character -/

/-- Replace every `a` by `b`. -/
def replace (a b : Char) (s : Text) : Text := s.map fun c => if c = a then b else c

end Text

end RspacefsCsi.Lib
