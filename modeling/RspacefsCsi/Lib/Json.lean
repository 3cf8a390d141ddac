/-
# JSON

JSON values, the compact text a serializer writes for them, and a parser.  The parser
takes the whole grammar (insignificant whitespace, all escapes, surrogate pairs, numbers
with fraction and exponent); the main result is that it reads back what the serializer
writes, `fromSlice_toVec`.

A number that is not a natural number is kept as the token it was read from, together
with the fact that the token is one (`FloatTok`), so that every value can be written.

The parser is given fuel, one unit for each nested value or further element; the length
of the text is always enough.
-/
import Mathlib.Tactic.IntervalCases
import RspacefsCsi.Lib.Text

namespace RspacefsCsi.Lib

namespace Json

/-! ### Numbers -/

/-- The characters that numbers are made of. -/
def isNumChar (c : Char) : Bool := c.isDigit || "+-.eE".toList.contains c

/-- The digits of a natural number, without a leading zero. -/
def isNatTok (t : Text) : Bool :=
  t.all Char.isDigit && match t with
    | [] => false
    | ['0'] => true
    | c :: _ => c != '0'

/-- An exponent, or nothing. -/
def isExpTok : Text → Bool
  | [] => true
  | e :: t =>
      (e == 'e' || e == 'E') &&
        match t with
        | '+' :: ds => ds != [] && ds.all Char.isDigit
        | '-' :: ds => ds != [] && ds.all Char.isDigit
        | ds => ds != [] && ds.all Char.isDigit

/-- A fraction and an exponent, each optional. -/
def isFracTok : Text → Bool
  | '.' :: t => t.takeWhile Char.isDigit != [] && isExpTok (t.dropWhile Char.isDigit)
  | t => isExpTok t

/-- A JSON number. -/
def isNumTok (t : Text) : Bool :=
  let u := match t with
    | '-' :: u => u
    | u => u
  isNatTok (u.takeWhile Char.isDigit) && isFracTok (u.dropWhile Char.isDigit)

/-- A JSON number that is not a natural number. -/
def isFloatTok (t : Text) : Bool :=
  t.all isNumChar && (t.head?.any fun c => c.isDigit || c == '-') && isNumTok t && !isNatTok t

/-- The token of a number that is not a natural number. -/
structure FloatTok where
  /-- The token. -/
  tok : Text
  /-- It is one. -/
  ok : isFloatTok tok = true

end Json

/-- A JSON value. -/
inductive Json
  | null
  | bool (b : Bool)
  | nat (n : ℕ)
  | float (t : Json.FloatTok)
  | str (s : Text)
  | arr (l : List Json)
  | obj (l : List (Text × Json))

namespace Json

/-! ### Strings -/

/-- The lower case hexadecimal digit of a number below 16. -/
def hexDigit (n : ℕ) : Char := "0123456789abcdef".toList.getD n '0'

/-- The value of a hexadecimal digit of either case. -/
def hexValue (c : Char) : Option ℕ :=
  if '0' ≤ c ∧ c ≤ '9' then some (c.toNat - '0'.toNat)
  else if 'a' ≤ c ∧ c ≤ 'f' then some (c.toNat - 'a'.toNat + 10)
  else if 'A' ≤ c ∧ c ≤ 'F' then some (c.toNat - 'A'.toNat + 10)
  else none

/-- The value of four hexadecimal digits. -/
def hex4 (a b c d : Char) : Option ℕ := do
  let a ← hexValue a
  let b ← hexValue b
  let c ← hexValue c
  let d ← hexValue d
  some (((a * 16 + b) * 16 + c) * 16 + d)

/-- A character as a serializer writes it inside a string. -/
def escapeChar (c : Char) : Text :=
  if c = '"' then ['\\', '"']
  else if c = '\\' then ['\\', '\\']
  else if c.toNat = 8 then ['\\', 'b']
  else if c.toNat = 9 then ['\\', 't']
  else if c.toNat = 10 then ['\\', 'n']
  else if c.toNat = 12 then ['\\', 'f']
  else if c.toNat = 13 then ['\\', 'r']
  else if c.toNat < 32 then
    ['\\', 'u', '0', '0', hexDigit (c.toNat / 16), hexDigit (c.toNat % 16)]
  else [c]

/-- The character a one-letter escape stands for. -/
def unescapeChar (c : Char) : Option Char :=
  if c = '"' then some '"'
  else if c = '\\' then some '\\'
  else if c = '/' then some '/'
  else if c = 'b' then some (Char.ofNat 8)
  else if c = 't' then some (Char.ofNat 9)
  else if c = 'n' then some (Char.ofNat 10)
  else if c = 'f' then some (Char.ofNat 12)
  else if c = 'r' then some (Char.ofNat 13)
  else none

/-- Put a character in front of what was read. -/
def push (c : Char) (p : Option (Text × Text)) : Option (Text × Text) :=
  p.map fun q => (c :: q.1, q.2)

/-- Read the rest of a string up to its closing quote.  The fuel is the length of the
text. -/
def unescape : ℕ → Text → Option (Text × Text)
  | 0, _ => none
  | n + 1, cs =>
      match cs with
      | [] => none
      | '"' :: r => some ([], r)
      | '\\' :: 'u' :: a :: b :: c :: d :: r =>
          match hex4 a b c d with
          | none => none
          | some x =>
              if 0xD800 ≤ x ∧ x < 0xDC00 then
                -- a high surrogate is only read together with a low one
                match r with
                | '\\' :: 'u' :: a' :: b' :: c' :: d' :: r' =>
                    match hex4 a' b' c' d' with
                    | none => none
                    | some y =>
                        if 0xDC00 ≤ y ∧ y < 0xE000 then
                          push (Char.ofNat (0x10000 + (x - 0xD800) * 0x400 + (y - 0xDC00)))
                            (unescape n r')
                        else none
                | _ => none
              else if 0xDC00 ≤ x ∧ x < 0xE000 then none
              else push (Char.ofNat x) (unescape n r)
      | '\\' :: e :: r =>
          match unescapeChar e with
          | none => none
          | some c => push c (unescape n r)
      | c :: r => if c.toNat < 32 then none else push c (unescape n r)

/-- A string as a serializer writes it. -/
def quote (s : Text) : Text := '"' :: (s.flatMap escapeChar ++ ['"'])

/-! ### The serializer -/

mutual

/-- The compact text of a value. -/
def render : Json → Text
  | .null => "null".toList
  | .bool true => "true".toList
  | .bool false => "false".toList
  | .nat n => Nat.toDigits 10 n
  | .float t => t.tok
  | .str s => quote s
  | .arr l => '[' :: renderElems l
  | .obj l => '{' :: renderFields l

/-- The elements of an array, with the closing bracket. -/
def renderElems : List Json → Text
  | [] => [']']
  | [v] => render v ++ [']']
  | v :: w :: l => render v ++ ',' :: renderElems (w :: l)

/-- The fields of an object, with the closing brace. -/
def renderFields : List (Text × Json) → Text
  | [] => ['}']
  | [(k, v)] => quote k ++ ':' :: (render v ++ ['}'])
  | (k, v) :: f :: l => quote k ++ ':' :: (render v ++ ',' :: renderFields (f :: l))

end

/-! ### The parser -/

/-- Drop insignificant whitespace. -/
def skipWs (cs : Text) : Text :=
  cs.dropWhile fun c => c == ' ' || c == '\n' || c == '\r' || c == '\t'

/-- Read a number. -/
def readNum (cs : Text) : Option (Json × Text) :=
  let t := cs.takeWhile isNumChar
  let r := cs.dropWhile isNumChar
  if isNatTok t then some (.nat (Nat.ofDigitChars 10 t 0), r)
  else if h : isFloatTok t = true then some (.float ⟨t, h⟩, r)
  else none

mutual

/-- Read a value. -/
def readValue : ℕ → Text → Option (Json × Text)
  | 0, _ => none
  | n + 1, cs =>
      match skipWs cs with
      | 'n' :: 'u' :: 'l' :: 'l' :: r => some (.null, r)
      | 't' :: 'r' :: 'u' :: 'e' :: r => some (.bool true, r)
      | 'f' :: 'a' :: 'l' :: 's' :: 'e' :: r => some (.bool false, r)
      | '"' :: r => (unescape (r.length + 1) r).map fun p => (.str p.1, p.2)
      | '[' :: r =>
          match skipWs r with
          | ']' :: r' => some (.arr [], r')
          | _ => (readElems n r).map fun p => (.arr p.1, p.2)
      | '{' :: r =>
          match skipWs r with
          | '}' :: r' => some (.obj [], r')
          | _ => (readFields n r).map fun p => (.obj p.1, p.2)
      | cs => readNum cs

/-- Read the elements of an array up to the closing bracket. -/
def readElems : ℕ → Text → Option (List Json × Text)
  | 0, _ => none
  | n + 1, cs =>
      match readValue n cs with
      | none => none
      | some (v, r) =>
          match skipWs r with
          | ']' :: r' => some ([v], r')
          | ',' :: r' => (readElems n r').map fun p => (v :: p.1, p.2)
          | _ => none

/-- Read the fields of an object up to the closing brace. -/
def readFields : ℕ → Text → Option (List (Text × Json) × Text)
  | 0, _ => none
  | n + 1, cs =>
      match skipWs cs with
      | '"' :: r =>
          match unescape (r.length + 1) r with
          | none => none
          | some (k, r₁) =>
              match skipWs r₁ with
              | ':' :: r₂ =>
                  match readValue n r₂ with
                  | none => none
                  | some (v, r₃) =>
                      match skipWs r₃ with
                      | '}' :: r₄ => some ([(k, v)], r₄)
                      | ',' :: r₄ => (readFields n r₄).map fun p => ((k, v) :: p.1, p.2)
                      | _ => none
              | _ => none
      | _ => none

end

/-- Read a text that holds one value and nothing else. -/
def parse (cs : Text) : Option Json :=
  match readValue (cs.length + 1) cs with
  | some (j, r) => if skipWs r = [] then some j else none
  | none => none

/-- The bytes of a value. -/
def toVec (j : Json) : Bytes := (render j).flatMap String.utf8EncodeChar

/-- Read a value from bytes, which have to be UTF-8. -/
def fromSlice (b : Bytes) : Option Json :=
  match b.toByteArray.utf8Decode? with
  | some cs => parse cs.toList
  | none => none

/-! ### Reading back what was written -/

/-- An escaped character is read back, and takes one unit of fuel. -/
lemma unescape_escapeChar (c : Char) (n : ℕ) (r : Text) :
    unescape (n + 1) (escapeChar c ++ r) = push c (unescape n r) := by
  by_cases hq : c = '"'
  · subst hq
    rfl
  by_cases hb : c = '\\'
  · subst hb
    rfl
  by_cases hlt : c.toNat < 32
  · -- the control characters, one by one
    obtain ⟨k, hk, rfl⟩ : ∃ k < 32, c = Char.ofNat k := ⟨c.toNat, hlt, (Char.ofNat_toNat c).symm⟩
    interval_cases k <;> rfl
  · have hesc : escapeChar c = [c] := by
      simp only [escapeChar, hq, hb, hlt, if_false]
      split_ifs <;> first | omega | rfl
    rw [hesc, List.singleton_append, unescape]
    · simp [hlt]
    · exact hq
    · exact fun _ _ _ _ _ h => absurd h hb
    · exact fun _ _ h => absurd h hb

lemma unescape_quote (s r : Text) {n : ℕ} (hn : s.length < n) :
    unescape n (s.flatMap escapeChar ++ '"' :: r) = some (s, r) := by
  induction s generalizing n with
  | nil =>
    cases n with
    | zero => simp at hn
    | succ n => rfl
  | cons c s ih =>
    cases n with
    | zero => simp at hn
    | succ n =>
      rw [List.flatMap_cons, List.append_assoc, unescape_escapeChar, ih (by simpa using hn)]
      rfl

lemma length_le_flatMap_escapeChar (s : Text) : s.length ≤ (s.flatMap escapeChar).length := by
  induction s with
  | nil => simp
  | cons c s ih =>
    have hc : 1 ≤ (escapeChar c).length := by
      unfold escapeChar
      split_ifs <;> simp
    simp only [List.length_cons, List.flatMap_cons, List.length_append]
    omega

/-- A string is read back from what follows its opening quote. -/
lemma unescape_quote_tail (s r : Text) :
    unescape ((s.flatMap escapeChar ++ '"' :: r).length + 1) (s.flatMap escapeChar ++ '"' :: r)
      = some (s, r) := by
  refine unescape_quote s r ?_
  have := length_le_flatMap_escapeChar s
  simp only [List.length_append, List.length_cons]
  omega

/-- What may follow a number. -/
def Stops (r : Text) : Prop := ∀ c, r.head? = some c → isNumChar c = false

lemma takeWhile_append_stops {t r : Text} (ht : t.all isNumChar = true) (hr : Stops r) :
    (t ++ r).takeWhile isNumChar = t ∧ (t ++ r).dropWhile isNumChar = r := by
  induction t with
  | nil =>
    cases r with
    | nil => simp
    | cons c r => simp [hr c rfl]
  | cons x t ih =>
    simp only [List.all_cons, Bool.and_eq_true] at ht
    simp [ht.1, ih ht.2]

lemma head_toDigits_ne_zero {n : ℕ} (hn : 0 < n) {c : Char} {t : Text}
    (h : Nat.toDigits 10 n = c :: t) : c ≠ '0' := by
  induction n using Nat.strong_induction_on generalizing c t with
  | _ n ih =>
    by_cases hlt : n < 10
    · rw [Nat.toDigits_of_lt_base hlt] at h
      obtain ⟨rfl, -⟩ := List.cons.inj h
      interval_cases n <;> decide
    · rw [Nat.toDigits_of_base_le (by omega) (by omega)] at h
      cases hd : Nat.toDigits 10 (n / 10) with
      | nil => exact absurd hd Nat.toDigits_ne_nil
      | cons d u =>
        rw [hd] at h
        obtain ⟨rfl, -⟩ := List.cons.inj h
        exact ih (n / 10) (by omega) (by omega) hd

lemma isNatTok_toDigits (n : ℕ) : isNatTok (Nat.toDigits 10 n) = true := by
  have hall : (Nat.toDigits 10 n).all Char.isDigit = true := by
    rw [List.all_eq_true]
    exact fun c hc => Nat.isDigit_of_mem_toDigits (by omega) (by omega) hc
  rcases Nat.eq_zero_or_pos n with rfl | hn
  · rfl
  · cases hd : Nat.toDigits 10 n with
    | nil => exact absurd hd Nat.toDigits_ne_nil
    | cons c t =>
      have hc : c ≠ '0' := head_toDigits_ne_zero hn hd
      rw [hd] at hall
      simp only [isNatTok, hall, Bool.true_and]
      split
      · next heq => exact absurd heq (by simp)
      · rfl
      · next heq =>
        obtain ⟨rfl, -⟩ := List.cons.inj heq
        simpa using hc

lemma all_isNumChar_of_isDigit {t : Text} (h : t.all Char.isDigit = true) :
    t.all isNumChar = true := by
  rw [List.all_eq_true] at h ⊢
  exact fun c hc => by simp [isNumChar, h c hc]

lemma readNum_nat (n : ℕ) {r : Text} (hr : Stops r) :
    readNum (Nat.toDigits 10 n ++ r) = some (.nat n, r) := by
  have htok := isNatTok_toDigits n
  have hdig : (Nat.toDigits 10 n).all Char.isDigit = true := by
    simp only [isNatTok, Bool.and_eq_true] at htok
    exact htok.1
  obtain ⟨h1, h2⟩ := takeWhile_append_stops (all_isNumChar_of_isDigit hdig) hr
  simp [readNum, h1, h2, htok, Nat.ofDigitChars_ten_toDigits]

lemma readNum_float (t : FloatTok) {r : Text} (hr : Stops r) :
    readNum (t.tok ++ r) = some (.float t, r) := by
  have hok := t.ok
  simp only [isFloatTok, Bool.and_eq_true, Bool.not_eq_true'] at hok
  obtain ⟨h1, h2⟩ := takeWhile_append_stops hok.1.1.1 hr
  simp [readNum, h1, h2, hok.2, t.ok]

/-- A text that begins with a digit or a minus sign is read as a number. -/
lemma readValue_eq_readNum {n : ℕ} {c : Char} {cs : Text} (hc : c.isDigit ∨ c = '-') :
    readValue (n + 1) (c :: cs) = readNum (c :: cs) := by
  have hne : ∀ d : Char, d.isDigit = false → d ≠ '-' → c ≠ d := by
    rintro d hd hm rfl
    rcases hc with h | h
    · rw [hd] at h
      exact absurd h (by decide)
    · exact hm h
  have hws : skipWs (c :: cs) = c :: cs := by
    have h1 : c ≠ ' ' := hne ' ' (by decide) (by decide)
    have h2 : c ≠ '\n' := hne '\n' (by decide) (by decide)
    have h3 : c ≠ '\r' := hne '\r' (by decide) (by decide)
    have h4 : c ≠ '\t' := hne '\t' (by decide) (by decide)
    simp [skipWs, h1, h2, h3, h4]
  rw [readValue, hws]
  split
  · next heq => exact absurd (List.cons.inj heq).1 (hne 'n' (by decide) (by decide))
  · next heq => exact absurd (List.cons.inj heq).1 (hne 't' (by decide) (by decide))
  · next heq => exact absurd (List.cons.inj heq).1 (hne 'f' (by decide) (by decide))
  · next heq => exact absurd (List.cons.inj heq).1 (hne '"' (by decide) (by decide))
  · next heq => exact absurd (List.cons.inj heq).1 (hne '[' (by decide) (by decide))
  · next heq => exact absurd (List.cons.inj heq).1 (hne '{' (by decide) (by decide))
  · rfl

/-! The text of a value starts with a character that is neither whitespace nor a closing
bracket, so the readers that look ahead go the right way. -/

/-- The characters a value can start with. -/
def isStart (c : Char) : Bool := c.isDigit || "-\"[\x7bntf".toList.contains c

lemma head_render (j : Json) : ∃ c t, render j = c :: t ∧ isStart c = true := by
  cases j with
  | null => exact ⟨'n', "ull".toList, by simp [render], by decide⟩
  | bool b =>
    cases b with
    | false => exact ⟨'f', "alse".toList, by simp [render], by decide⟩
    | true => exact ⟨'t', "rue".toList, by simp [render], by decide⟩
  | nat n =>
    cases hd : Nat.toDigits 10 n with
    | nil => exact absurd hd Nat.toDigits_ne_nil
    | cons c t =>
      have hc : c.isDigit := Nat.isDigit_of_mem_toDigits (n := n) (by omega) (le_refl 10)
        (by rw [hd]; simp)
      exact ⟨c, t, by simp [render, hd], by simp [isStart, hc]⟩
  | float t =>
    have hok := t.ok
    simp only [isFloatTok, Bool.and_eq_true] at hok
    cases ht : t.tok with
    | nil => simp [ht] at hok
    | cons c u =>
      refine ⟨c, u, by simp [render, ht], ?_⟩
      have := hok.1.1.2
      rw [ht] at this
      simp only [List.head?_cons, Option.any_some, Bool.or_eq_true, beq_iff_eq] at this
      rcases this with h | h
      · simp [isStart, h]
      · simp [isStart, h]
  | str s => exact ⟨'"', s.flatMap escapeChar ++ ['"'], by simp [render, quote], by decide⟩
  | arr l => exact ⟨'[', renderElems l, by simp [render], by decide⟩
  | obj l => exact ⟨'{', renderFields l, by simp [render], by decide⟩

lemma isStart_ne {c : Char} (h : isStart c = true) {d : Char} (hd : isStart d = false) : c ≠ d := by
  rintro rfl
  rw [h] at hd
  exact absurd hd (by decide)

lemma skipWs_of_isStart {c : Char} (h : isStart c = true) (t : Text) :
    skipWs (c :: t) = c :: t := by
  have h1 := isStart_ne h (d := ' ') (by decide)
  have h2 := isStart_ne h (d := '\n') (by decide)
  have h3 := isStart_ne h (d := '\r') (by decide)
  have h4 := isStart_ne h (d := '\t') (by decide)
  simp [skipWs, h1, h2, h3, h4]

lemma skipWs_render (j : Json) (r : Text) : skipWs (render j ++ r) = render j ++ r := by
  obtain ⟨c, t, hj, hc⟩ := head_render j
  rw [hj, List.cons_append]
  exact skipWs_of_isStart hc _

lemma stops_cons {c : Char} (hc : isNumChar c = false) (r : Text) : Stops (c :: r) := by
  intro d hd
  simp only [List.head?_cons, Option.some.injEq] at hd
  exact hd ▸ hc

mutual

/-- A value is read back, given fuel for its text. -/
theorem readValue_render : ∀ (j : Json) (r : Text) (n : ℕ), (render j).length ≤ n → Stops r →
    readValue n (render j ++ r) = some (j, r)
  | j, r, 0, hn, _ => by
      obtain ⟨c, t, hj, -⟩ := head_render j
      rw [hj] at hn
      simp at hn
  | .null, r, n + 1, _, _ => by simp [render, readValue, skipWs]
  | .bool true, r, n + 1, _, _ => by simp [render, readValue, skipWs]
  | .bool false, r, n + 1, _, _ => by simp [render, readValue, skipWs]
  | .nat m, r, n + 1, _, hr => by
      have hnum := readNum_nat m hr
      rw [render]
      cases hd : Nat.toDigits 10 m with
      | nil => exact absurd hd Nat.toDigits_ne_nil
      | cons c t =>
        have hc : c.isDigit := Nat.isDigit_of_mem_toDigits (n := m) (by omega) (le_refl 10)
          (by rw [hd]; simp)
        rw [hd] at hnum
        exact (readValue_eq_readNum (Or.inl hc)).trans hnum
  | .float t, r, n + 1, _, hr => by
      have hnum := readNum_float t hr
      have hok := t.ok
      simp only [isFloatTok, Bool.and_eq_true] at hok
      rw [render]
      cases ht : t.tok with
      | nil => simp [ht] at hok
      | cons c u =>
        have hc := hok.1.1.2
        rw [ht] at hnum hc
        simp only [List.head?_cons, Option.any_some, Bool.or_eq_true, beq_iff_eq] at hc
        exact (readValue_eq_readNum hc).trans hnum
  | .str s, r, n + 1, _, _ => by
      have hq := unescape_quote_tail s r
      simp only [render, quote, List.cons_append, List.append_assoc] at hq ⊢
      rw [readValue, skipWs_of_isStart (by decide)]
      simp only [hq, Option.map_some, List.nil_append]
  | .arr [], r, n + 1, _, _ => by simp [render, renderElems, readValue, skipWs]
  | .arr (v :: l), r, n + 1, hn, hr => by
      have hlen : (renderElems (v :: l)).length ≤ n := by
        simp only [render, List.length_cons] at hn
        omega
      have hl := readElems_render v l r n hlen
      obtain ⟨c, t, hv, hc⟩ := head_render v
      obtain ⟨u, hu⟩ : ∃ u, renderElems (v :: l) = c :: u := by
        cases l with
        | nil => exact ⟨t ++ [']'], by simp [renderElems, hv]⟩
        | cons w l => exact ⟨t ++ ',' :: renderElems (w :: l), by simp [renderElems, hv]⟩
      rw [render, List.cons_append, readValue, skipWs_of_isStart (by decide)]
      simp only
      rw [hu, List.cons_append, skipWs_of_isStart hc]
      split
      · next heq => exact absurd (List.cons.inj heq).1 (isStart_ne hc (by decide))
      · rw [← List.cons_append, ← hu, hl]
        rfl
  | .obj [], r, n + 1, _, _ => by simp [render, renderFields, readValue, skipWs]
  | .obj ((k, v) :: l), r, n + 1, hn, hr => by
      have hlen : (renderFields ((k, v) :: l)).length ≤ n := by
        simp only [render, List.length_cons] at hn
        omega
      have hl := readFields_render k v l r n hlen
      obtain ⟨u, hu⟩ : ∃ u, renderFields ((k, v) :: l) = '"' :: u := by
        cases l with
        | nil => exact ⟨_, by simp [renderFields, quote]; rfl⟩
        | cons w l => exact ⟨_, by simp [renderFields, quote]; rfl⟩
      rw [render, List.cons_append, readValue, skipWs_of_isStart (by decide)]
      simp only
      rw [hu, List.cons_append, skipWs_of_isStart (by decide)]
      change (readFields n ('"' :: (u ++ r))).map _ = _
      rw [← List.cons_append, ← hu, hl]
      rfl

/-- The elements of an array are read back. -/
theorem readElems_render : ∀ (v : Json) (l : List Json) (r : Text) (n : ℕ),
    (renderElems (v :: l)).length ≤ n →
    readElems n (renderElems (v :: l) ++ r) = some (v :: l, r)
  | v, [], r, 0, hn => by simp [renderElems] at hn
  | v, w :: l, r, 0, hn => by simp [renderElems] at hn
  | v, [], r, n + 1, hn => by
      have hv := readValue_render v (']' :: r) n (by simp [renderElems] at hn; omega)
        (stops_cons (by decide) r)
      simp only [renderElems, List.append_assoc, List.singleton_append]
      rw [readElems, hv]
      rfl
  | v, w :: l, r, n + 1, hn => by
      have hlen : (render v).length + (renderElems (w :: l)).length ≤ n := by
        simp only [renderElems, List.length_append, List.length_cons] at hn
        omega
      have hv := readValue_render v (',' :: (renderElems (w :: l) ++ r)) n (by omega)
        (stops_cons (by decide) _)
      have hl := readElems_render w l r n (by omega)
      simp only [renderElems, List.append_assoc, List.cons_append]
      rw [readElems, hv]
      simp [skipWs, hl]

/-- The fields of an object are read back. -/
theorem readFields_render : ∀ (k : Text) (v : Json) (l : List (Text × Json)) (r : Text) (n : ℕ),
    (renderFields ((k, v) :: l)).length ≤ n →
    readFields n (renderFields ((k, v) :: l) ++ r) = some ((k, v) :: l, r)
  | k, v, [], r, 0, hn => by simp [renderFields] at hn
  | k, v, w :: l, r, 0, hn => by simp [renderFields] at hn
  | k, v, [], r, n + 1, hn => by
      have hlen : (render v).length ≤ n := by
        simp only [renderFields, List.length_append, List.length_cons] at hn
        omega
      have hv := readValue_render v ('}' :: r) n hlen (stops_cons (by decide) r)
      have hk := unescape_quote_tail k (':' :: (render v ++ '}' :: r))
      simp only [renderFields, quote, List.cons_append, List.append_assoc, List.nil_append]
        at hk ⊢
      rw [readFields, skipWs_of_isStart (by decide)]
      simp only [hk, skipWs, List.dropWhile]
      simp [hv]
  | k, v, (k', v') :: l, r, n + 1, hn => by
      have hlen : (render v).length + (renderFields ((k', v') :: l)).length ≤ n := by
        simp only [renderFields, List.length_append, List.length_cons] at hn
        omega
      have hv := readValue_render v (',' :: (renderFields ((k', v') :: l) ++ r)) n (by omega)
        (stops_cons (by decide) _)
      have hl := readFields_render k' v' l r n (by omega)
      have hk := unescape_quote_tail k
        (':' :: (render v ++ ',' :: (renderFields ((k', v') :: l) ++ r)))
      simp only [renderFields, quote, List.cons_append, List.append_assoc, List.nil_append]
        at hk ⊢
      rw [readFields, skipWs_of_isStart (by decide)]
      simp only [hk, skipWs, List.dropWhile]
      simp [hv, hl]

end

lemma parse_render (j : Json) : parse (render j) = some j := by
  have h := readValue_render j [] ((render j).length + 1) (by omega) (by simp [Stops])
  rw [List.append_nil] at h
  simp [parse, h, skipWs]

/-- **What the serializer writes is read back as it was.** -/
theorem fromSlice_toVec (j : Json) : fromSlice (toVec j) = some j := by
  have h : (toVec j).toByteArray = (render j).utf8Encode := rfl
  simp [fromSlice, h, parse_render]

lemma toVec_injective : Function.Injective toVec := by
  intro i j h
  have hi := fromSlice_toVec i
  rw [h, fromSlice_toVec] at hi
  exact (Option.some.inj hi).symm

/-! ### Texts that were cut off -/

/-- Texts whose bytes are the beginning of one another. -/
lemma prefix_of_utf8 {cs ds : Text}
    (h : cs.flatMap String.utf8EncodeChar <+: ds.flatMap String.utf8EncodeChar) : cs <+: ds := by
  induction cs generalizing ds with
  | nil => exact List.nil_prefix
  | cons c cs ih =>
    obtain ⟨t, ht⟩ := h
    cases ds with
    | nil =>
      have hsize := c.utf8Size_pos
      have := congrArg List.length ht
      simp at this
      omega
    | cons d ds =>
      simp only [List.flatMap_cons, List.append_assoc] at ht
      -- the first character is the one that is decoded first
      have hfirst : ∀ (c : Char) (r : Bytes),
          ((String.utf8EncodeChar c ++ r).toByteArray).utf8DecodeChar? 0 = some c := by
        intro c r
        rw [List.toByteArray_append]
        exact ByteArray.utf8DecodeChar?_utf8EncodeChar_append
      have hcd : c = d := by
        have h1 := hfirst c (cs.flatMap String.utf8EncodeChar ++ t)
        rw [ht, hfirst] at h1
        exact (Option.some.inj h1).symm
      subst hcd
      rw [List.prefix_cons_inj]
      exact ih ⟨t, List.append_cancel_left ht⟩

lemma unescape_nil (n : ℕ) : unescape n [] = none := by
  cases n <;> rfl

/-- The three forms a character is written in. -/
lemma escapeChar_cases (c : Char) : escapeChar c = [c] ∨ (∃ e, escapeChar c = ['\\', e]) ∨
    ∃ a b, escapeChar c = ['\\', 'u', '0', '0', a, b] := by
  unfold escapeChar
  split_ifs
  all_goals first
    | exact .inl rfl
    | exact .inr (.inl ⟨_, rfl⟩)
    | exact .inr (.inr ⟨_, _, rfl⟩)

/-- A character that was cut off is not read. -/
lemma unescape_cut_char {c : Char} {p : Text} (hp : p <+: escapeChar c) (hne : p ≠ escapeChar c)
    (n : ℕ) : unescape n p = none := by
  have hslash : ∀ n, unescape n ['\\'] = none := by
    intro n
    cases n with
    | zero => rfl
    | succ n =>
      change (if ('\\' : Char).toNat < 32 then none else push '\\' (unescape n [])) = none
      rw [unescape_nil]
      rfl
  rcases escapeChar_cases c with h | ⟨e, h⟩ | ⟨a, b, h⟩ <;> rw [h] at hp hne
  · rcases List.prefix_cons_iff.1 hp with rfl | ⟨t, rfl, ht⟩
    · exact unescape_nil n
    · rw [List.prefix_nil] at ht
      exact absurd (ht ▸ rfl) hne
  · rcases List.prefix_cons_iff.1 hp with rfl | ⟨t, rfl, ht⟩
    · exact unescape_nil n
    rcases List.prefix_cons_iff.1 ht with rfl | ⟨t, rfl, ht'⟩
    · exact hslash n
    · rw [List.prefix_nil] at ht'
      exact absurd (ht' ▸ rfl) hne
  · rcases List.prefix_cons_iff.1 hp with rfl | ⟨t, rfl, ht⟩
    · exact unescape_nil n
    rcases List.prefix_cons_iff.1 ht with rfl | ⟨t, rfl, ht'⟩
    · exact hslash n
    -- what follows `\u` is too short
    have hlen : t.length < 4 := by
      rcases Nat.lt_or_ge t.length 4 with hlt | hge
      · exact hlt
      · exact absurd (by rw [ht'.eq_of_length_le hge]) hne
    cases n with
    | zero => rfl
    | succ n =>
      match t, hlen with
      | [], _ => rfl
      | [_], _ => rfl
      | [_, _], _ => rfl
      | [_, _, _], _ => rfl

/-- A string without its closing quote is not read. -/
lemma unescape_cut {s p : Text} (hp : p <+: s.flatMap escapeChar) (n : ℕ) : unescape n p = none := by
  induction s generalizing p n with
  | nil =>
    rw [List.prefix_nil.1 hp]
    exact unescape_nil n
  | cons c s ih =>
    rw [List.flatMap_cons] at hp
    rcases List.prefix_or_prefix_of_prefix hp (List.prefix_append _ _) with h | ⟨t, rfl⟩
    · by_cases hne : p = escapeChar c
      · subst hne
        cases n with
        | zero => rfl
        | succ n =>
          have := unescape_escapeChar c n []
          rw [List.append_nil, unescape_nil] at this
          exact this
      · exact unescape_cut_char h hne n
    · cases n with
      | zero => rfl
      | succ n =>
        rw [unescape_escapeChar, ih ((List.prefix_append_right_inj _).1 hp)]
        rfl

/-- The beginning of a string and what follows it. -/
lemma unescape_cut_quote {s r p : Text} (hp : p <+: s.flatMap escapeChar ++ '"' :: r) :
    (∀ n, unescape n p = none) ∨
      ∃ q, q <+: r ∧ p = s.flatMap escapeChar ++ '"' :: q := by
  rcases List.prefix_or_prefix_of_prefix hp (List.prefix_append _ _) with h | ⟨t, rfl⟩
  · exact .inl fun n => unescape_cut h n
  · rcases List.prefix_cons_iff.1 ((List.prefix_append_right_inj _).1 hp) with rfl | ⟨q, rfl, hq⟩
    · exact .inl fun n => unescape_cut (s := s) (by simp) n
    · exact .inr ⟨q, hq, rfl⟩

/-- The fields of an object of strings. -/
def strFields (l : List (Text × Text)) : List (Text × Json) := l.map fun e => (e.1, .str e.2)

lemma readFields_nil (n : ℕ) : readFields n [] = none := by
  cases n <;> rfl

/-- Fields without the closing brace are not read. -/
lemma readFields_cut (l : List (Text × Text)) {p : Text} (hp : p <+: renderFields (strFields l))
    (hne : p ≠ renderFields (strFields l)) (n : ℕ) : readFields n p = none := by
  induction l generalizing p n with
  | nil =>
    rcases List.prefix_cons_iff.1 hp with rfl | ⟨t, rfl, ht⟩
    · exact readFields_nil n
    · rw [List.prefix_nil] at ht
      exact absurd (ht ▸ rfl) hne
  | cons e l ih =>
    obtain ⟨k, v⟩ := e
    -- what follows the value of the first field
    obtain ⟨tail, htail, hshape⟩ : ∃ tail, renderFields (strFields ((k, v) :: l))
        = '"' :: (k.flatMap escapeChar ++ '"' :: ':' :: '"' :: (v.flatMap escapeChar ++ '"' :: tail)) ∧
        (tail = ['}'] ∨ tail = ',' :: renderFields (strFields l)) := by
      cases l with
      | nil => exact ⟨_, by simp [strFields, renderFields, render, quote], .inl rfl⟩
      | cons f l => exact ⟨_, by simp [strFields, renderFields, render, quote], .inr rfl⟩
    rw [htail] at hp hne
    cases n with
    | zero => rfl
    | succ n =>
    rcases List.prefix_cons_iff.1 hp with rfl | ⟨p₁, rfl, hp₁⟩
    · rfl
    rw [readFields, skipWs_of_isStart (by decide)]
    rcases unescape_cut_quote hp₁ with hnone | ⟨p₂, hp₂, rfl⟩
    · simp only [hnone]
    simp only [unescape_quote_tail]
    rcases List.prefix_cons_iff.1 hp₂ with rfl | ⟨p₃, rfl, hp₃⟩
    · rfl
    have hcolon : skipWs (':' :: p₃) = ':' :: p₃ := rfl
    simp only [hcolon]
    rcases List.prefix_cons_iff.1 hp₃ with rfl | ⟨p₄, rfl, hp₄⟩
    · cases n <;> rfl
    cases n with
    | zero => rfl
    | succ n =>
    rw [readValue, skipWs_of_isStart (by decide)]
    rcases unescape_cut_quote hp₄ with hnone | ⟨p₅, hp₅, rfl⟩
    · simp only [hnone, Option.map_none]
    simp only [unescape_quote_tail, Option.map_some]
    rcases hshape with rfl | rfl
    · rcases List.prefix_cons_iff.1 hp₅ with rfl | ⟨p₆, rfl, hp₆⟩
      · rfl
      · rw [List.prefix_nil] at hp₆
        exact absurd (by rw [hp₆]) hne
    · rcases List.prefix_cons_iff.1 hp₅ with rfl | ⟨p₆, rfl, hp₆⟩
      · rfl
      · have hcomma : skipWs (',' :: p₆) = ',' :: p₆ := rfl
        have hne₆ : p₆ ≠ renderFields (strFields l) := by
          rintro rfl
          exact hne rfl
        simp only [hcomma, ih hp₆ hne₆, Option.map_none]

/-- An object of strings without its closing brace is not read. -/
lemma parse_cut (l : List (Text × Text)) {p : Text} (hp : p <+: render (.obj (strFields l)))
    (hne : p ≠ render (.obj (strFields l))) : parse p = none := by
  rw [render] at hp hne
  rcases List.prefix_cons_iff.1 hp with rfl | ⟨q, rfl, hq⟩
  · rfl
  have hne' : q ≠ renderFields (strFields l) := by
    rintro rfl
    exact hne rfl
  have hread : ∀ n, readFields n q = none := readFields_cut l hq hne'
  have hclose : ∀ r, skipWs q ≠ '}' :: r := by
    intro r
    cases l with
    | nil =>
      rcases List.prefix_cons_iff.1 hq with rfl | ⟨t, rfl, ht⟩
      · exact nofun
      · rw [List.prefix_nil] at ht
        exact absurd (by rw [ht]; rfl) hne'
    | cons e l =>
      obtain ⟨u, hu⟩ : ∃ u, renderFields (strFields (e :: l)) = '"' :: u := by
        cases l with
        | nil => exact ⟨_, by simp [strFields, renderFields, quote]; rfl⟩
        | cons f l => exact ⟨_, by simp [strFields, renderFields, quote]; rfl⟩
      rw [hu] at hq
      rcases List.prefix_cons_iff.1 hq with rfl | ⟨t, rfl, -⟩
      · exact nofun
      · rw [skipWs_of_isStart (by decide)]
        exact nofun
  have hvalue : ∀ n, readValue (n + 1) ('{' :: q) = none := by
    intro n
    rw [readValue, skipWs_of_isStart (by decide)]
    simp only [hread, Option.map_none]
  rw [parse, hvalue]

/-- **A document of strings that was cut off is not read.** -/
theorem fromSlice_cut (l : List (Text × Text)) {b : Bytes} (hb : b <+: toVec (.obj (strFields l)))
    (hne : b ≠ toVec (.obj (strFields l))) : fromSlice b = none := by
  rw [fromSlice]
  cases hd : b.toByteArray.utf8Decode? with
  | none => rfl
  | some cs =>
    have henc : cs.toList.utf8Encode = b.toByteArray := by
      have := ByteArray.utf8Encode_get_utf8Decode? (b := b.toByteArray) (h := by rw [hd]; rfl)
      simpa [hd] using this
    have hbytes : cs.toList.flatMap String.utf8EncodeChar = b := by
      have := congrArg (fun a : ByteArray => a.data.toList) henc
      simpa [List.utf8Encode] using this
    refine parse_cut l (prefix_of_utf8 ?_) ?_
    · rw [hbytes]
      exact hb
    · intro heq
      exact hne (by rw [← hbytes, heq]; rfl)

end Json

end RspacefsCsi.Lib
