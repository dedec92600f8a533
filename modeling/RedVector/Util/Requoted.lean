import RedVector.Util.Splitargs
import Mathlib.Tactic.SplitIfs

/-!
# Words that were quoted

`splitargs` reads a line of quotations word by word.  Every byte inside the
quotes comes back as it was written but for the bell and the backspace, for
which `splitargs` has no escape: it hears the letter behind the backslash.
-/

namespace RedVector.Util

/-- The byte `splitargs` makes of a quoted byte. -/
def heard (byte : UInt8) : UInt8 :=
  if byte = 7 then 97 else if byte = 8 then 98 else byte

theorem heard_eq_iff (byte : UInt8) :
    heard byte = byte ↔ byte ≠ 7 ∧ byte ≠ 8 := by
  unfold heard
  split
  · next bell =>
      subst bell
      decide
  · split
    · next backspace =>
        subst backspace
        decide
    · next other another =>
        exact iff_of_true rfl ⟨other, another⟩

theorem map_eq_self_iff {f : α → α} (list : List α) :
    list.map f = list ↔ ∀ x ∈ list, f x = x := by
  have same := List.map_inj_left (l := list) (f := f) (g := id)
  rwa [List.map_id] at same

theorem map_heard_eq_iff (bytes : Bytes) :
    bytes.map heard = bytes ↔ 7 ∉ bytes ∧ 8 ∉ bytes := by
  rw [map_eq_self_iff]
  simp only [heard_eq_iff]
  constructor
  · intro same
    exact ⟨fun bell => (same 7 bell).1 rfl,
      fun backspace => (same 8 backspace).2 rfl⟩
  · rintro ⟨bell, backspace⟩ byte member
    exact ⟨fun equal => bell (equal ▸ member),
      fun equal => backspace (equal ▸ member)⟩

theorem hexValue_hexDigit {digit : Nat} (bound : digit < 16) :
    hexValue (hexDigit digit) = some digit := by
  have all : ∀ digit < 16, hexValue (hexDigit digit) = some digit := by
    decide
  exact all digit bound

theorem splitWord_reprByte (byte : UInt8) (current tail : Bytes) :
    splitWord .double current (reprByte byte ++ tail) =
      splitWord .double (current ++ [heard byte]) tail := by
  unfold reprByte
  split_ifs with bell backspace backslash quote feed carriage tab
  · subst bell
    exact splitWord_escape current tail (by decide)
  · subst backspace
    exact splitWord_escape current tail (by decide)
  · subst backslash
    exact splitWord_escape current tail (by decide)
  · subst quote
    exact splitWord_escape current tail (by decide)
  · subst feed
    exact splitWord_escape current tail (by decide)
  · subst carriage
    exact splitWord_escape current tail (by decide)
  · subst tab
    exact splitWord_escape current tail (by decide)
  · rw [heard, if_neg bell, if_neg backspace]
    exact splitWord_byte current tail backslash quote
  · rw [heard, if_neg bell, if_neg backspace]
    have small : byte.toNat < 256 := byte.toNat_lt
    have high : hexValue (hexDigit (byte.toNat / 16)) =
        some (byte.toNat / 16) :=
      hexValue_hexDigit (by omega)
    have low : hexValue (hexDigit (byte.toNat % 16)) =
        some (byte.toNat % 16) :=
      hexValue_hexDigit (by omega)
    have whole : (byte.toNat / 16 * 16 + byte.toNat % 16).toUInt8 = byte := by
      rw [Nat.div_add_mod']
      exact UInt8.ofNat_toNat
    have read := splitWord_hex current tail high low
    rw [whole] at read
    exact read

theorem splitWord_flatMap (bytes current tail : Bytes) :
    splitWord .double current (bytes.flatMap reprByte ++ tail) =
      splitWord .double (current ++ bytes.map heard) tail := by
  induction bytes generalizing current with
  | nil =>
      simp
  | cons byte bytes ih =>
      rw [List.flatMap_cons, List.append_assoc, splitWord_reprByte, ih,
        List.map_cons, List.append_assoc, List.singleton_append]

/-- A quotation is one word: it ends at its closing quote. -/
theorem splitWord_formatRepr (bytes tail : Bytes) :
    splitWord .plain [] (formatRepr bytes ++ tail) =
      some (closeQuote (bytes.map heard) tail) := by
  have opened : formatRepr bytes ++ tail =
      34 :: (bytes.flatMap reprByte ++ 34 :: tail) := by
    simp [formatRepr, text]
  rw [opened, splitWord, if_neg (by decide), if_pos rfl, splitWord_flatMap,
    List.nil_append, splitWord_quote]

theorem formatRepr_cons (bytes : Bytes) :
    formatRepr bytes = 34 :: (bytes.flatMap reprByte ++ [34]) := by
  simp [formatRepr, text]

theorem splitargsLoop_last (count : Nat) (bytes : Bytes)
    (result : List Bytes) :
    splitargsLoop (count + 1) (formatRepr bytes) result =
      some (.ok (result ++ [bytes.map heard])) := by
  have word := splitWord_formatRepr bytes []
  rw [List.append_nil, formatRepr_cons] at word
  rw [formatRepr_cons, splitargsLoop,
    List.dropWhile_cons_of_neg (by decide)]
  simp only [word, closeQuote, List.isEmpty_nil, if_true]

theorem splitargsLoop_next (count : Nat) (bytes : Bytes)
    (result : List Bytes) {next : Bytes} (more : next ≠ []) :
    splitargsLoop (count + 1) (formatRepr bytes ++ 32 :: next) result =
      splitargsLoop count next (result ++ [bytes.map heard]) := by
  have word := splitWord_formatRepr bytes (32 :: next)
  have left : next.isEmpty = false := List.isEmpty_eq_false_iff.2 more
  rw [formatRepr_cons, List.cons_append] at word
  rw [formatRepr_cons, List.cons_append, splitargsLoop,
    List.dropWhile_cons_of_neg (by decide)]
  have closed : closeQuote (bytes.map heard) (32 :: next) =
      .ok (bytes.map heard, .plain, next) :=
    rfl
  simp only [word, closed, left, Bool.false_eq_true, if_false]

/-- The quotations of `strings`, with a space between any two. -/
abbrev quotedLine (strings : List Bytes) : Bytes :=
  [32].intercalate (strings.map formatRepr)

theorem quotedLine_cons (string next : Bytes) (strings : List Bytes) :
    quotedLine (string :: next :: strings) =
      formatRepr string ++ 32 :: quotedLine (next :: strings) := by
  simp [quotedLine, List.intercalate]

theorem quotedLine_ne_nil (string : Bytes) (strings : List Bytes) :
    quotedLine (string :: strings) ≠ [] := by
  cases strings <;>
    simp [quotedLine, List.intercalate, formatRepr, text]

theorem length_le_quotedLine (strings : List Bytes) :
    strings.length ≤ (quotedLine strings).length := by
  induction strings with
  | nil =>
      exact Nat.zero_le _
  | cons string strings ih =>
      cases strings with
      | nil =>
          simp [quotedLine, List.intercalate, formatRepr, text]
      | cons next strings =>
          rw [quotedLine_cons]
          simp only [List.length_append, List.length_cons] at ih ⊢
          omega

theorem splitargsLoop_quoted (strings : List Bytes) (count : Nat)
    (result : List Bytes) (enough : strings.length ≤ count) :
    splitargsLoop count (quotedLine strings) result =
      some (.ok (result ++ strings.map (List.map heard))) := by
  induction strings generalizing count result with
  | nil =>
      cases count <;> simp [quotedLine, List.intercalate, splitargsLoop]
  | cons string strings ih =>
      obtain ⟨less, rfl⟩ : ∃ less, count = less + 1 :=
        ⟨count - 1, by simp only [List.length_cons] at enough; omega⟩
      cases strings with
      | nil =>
          simpa [quotedLine, List.intercalate] using
            splitargsLoop_last less string result
      | cons next strings =>
          rw [quotedLine_cons,
            splitargsLoop_next _ _ _ (quotedLine_ne_nil next strings),
            ih _ _ (Nat.le_of_succ_le_succ enough), List.append_assoc,
            List.singleton_append, ← List.map_cons]

theorem splitargs_quoted (strings : List Bytes) :
    splitargs (quotedLine strings) =
      some (.ok (strings.map (List.map heard))) := by
  rw [splitargs,
    splitargsLoop_quoted _ _ _ (length_le_quotedLine strings)]
  rfl

/-- A list of strings is read back from its quotations exactly when no string
holds a bell or a backspace. -/
theorem splitargs_inverts_formatRepr (strings : List Bytes) :
    splitargs ([32].intercalate (strings.map formatRepr)) =
        some (.ok strings) ↔
      ∀ string ∈ strings, 7 ∉ string ∧ 8 ∉ string := by
  rw [splitargs_quoted, Option.some.injEq, Except.ok.injEq,
    map_eq_self_iff]
  simp only [map_heard_eq_iff]

theorem splitargs_deaf_to_bell :
    ¬ ∀ strings : List Bytes,
        splitargs ([32].intercalate (strings.map formatRepr)) =
          some (.ok strings) := by
  intro inverts
  have read := inverts [[7]]
  rw [splitargs_quoted] at read
  revert read
  simp [heard]

end RedVector.Util
