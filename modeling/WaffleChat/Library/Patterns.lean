import Mathlib.Computability.RegularExpressions

/-!
# Patterns over characters

A reader for the part of the regular expression syntax that consists of bracket classes,
escaped and plain characters, and the quantifiers `+` and `{n,}`, with regular
expressions as the result; and the parts of a list before and after a separator.

Main results:

- Theorem `mem_atLeast_oneOf`: the language of a quantified class.
- Theorem `mem_charRange`: the characters of a range.
- Theorems `beforeFirst_append_afterFirst` and `beforeLast_append_afterLast`: a list is
  its parts before and after a separator it has.
-/

namespace Patterns

open RegularExpression

variable {α : Type*}

/-! ## Quantified classes -/

/-- One character of a class. -/
def oneOf (chars : List α) : RegularExpression α :=
  chars.foldr (fun c r => char c + r) 0

/-- At least `n` repetitions. -/
def atLeast (n : Nat) (r : RegularExpression α) : RegularExpression α :=
  r ^ n * star r

/-- A class matches one of its characters. -/
theorem mem_oneOf {chars text : List α} :
    text ∈ (oneOf chars).matches' ↔ ∃ c ∈ chars, text = [c] := by
  induction chars with
  | nil => simp [oneOf]
  | cons c chars ih =>
      have hcons : (oneOf (c :: chars)).matches' = {[c]} + (oneOf chars).matches' := rfl
      rw [hcons, Language.mem_add, ih, List.exists_mem_cons_iff]
      exact Iff.rfl

/-- A repeated class matches texts of that length over its characters. -/
theorem mem_oneOf_pow {chars text : List α} {n : Nat} :
    text ∈ (oneOf chars).matches' ^ n ↔ text.length = n ∧ ∀ c ∈ text, c ∈ chars := by
  induction n generalizing text with
  | zero =>
      rw [pow_zero, Language.mem_one, List.length_eq_zero_iff]
      constructor
      · rintro rfl
        exact ⟨rfl, by simp⟩
      · exact fun h => h.1
  | succ n ih =>
      rw [pow_succ', Language.mem_mul]
      constructor
      · rintro ⟨head, hhead, tail, htail, rfl⟩
        rcases mem_oneOf.1 hhead with ⟨c, hc, rfl⟩
        rcases ih.1 htail with ⟨hlength, hchars⟩
        exact ⟨by simp [hlength], by simpa [hc] using hchars⟩
      · rintro ⟨hlength, hchars⟩
        rcases text with _ | ⟨c, tail⟩
        · cases hlength
        · rw [List.forall_mem_cons] at hchars
          exact ⟨[c], mem_oneOf.2 ⟨c, hchars.1, rfl⟩, tail,
            ih.2 ⟨Nat.succ.inj hlength, hchars.2⟩, rfl⟩

/-- A repeated class is a list of its characters that is long enough. -/
theorem mem_atLeast_oneOf {chars text : List α} {n : Nat} :
    text ∈ (atLeast n (oneOf chars)).matches' ↔ n ≤ text.length ∧ ∀ c ∈ text, c ∈ chars := by
  have hstar : ∀ rest : List α, rest ∈ KStar.kstar (oneOf chars).matches' ↔
      ∀ c ∈ rest, c ∈ chars := by
    intro rest
    simp [Language.kstar_eq_iSup_pow, Language.mem_iSup, mem_oneOf_pow]
  rw [atLeast, matches'_mul, matches'_pow, matches'_star, Language.mem_mul]
  constructor
  · rintro ⟨head, hhead, rest, hrest, rfl⟩
    rcases mem_oneOf_pow.1 hhead with ⟨rfl, hchars⟩
    refine ⟨by simp, ?_⟩
    rw [List.forall_mem_append]
    exact ⟨hchars, (hstar rest).1 hrest⟩
  · rintro ⟨hlength, hchars⟩
    refine ⟨text.take n, mem_oneOf_pow.2 ⟨by simpa using hlength, ?_⟩, text.drop n,
      (hstar _).2 ?_, List.take_append_drop n text⟩
    · exact fun c hc => hchars c (List.mem_of_mem_take hc)
    · exact fun c hc => hchars c (List.mem_of_mem_drop hc)

/-- A literal character is the first of what is matched. -/
theorem mem_char_mul {c : α} {r : RegularExpression α} {text : List α} :
    text ∈ (char c * r).matches' ↔ ∃ rest ∈ r.matches', text = c :: rest := by
  rw [matches'_mul, Language.mem_mul]
  constructor
  · rintro ⟨head, hhead, rest, hrest, rfl⟩
    obtain rfl : head = [c] := hhead
    exact ⟨rest, hrest, rfl⟩
  · rintro ⟨rest, hrest, rfl⟩
    exact ⟨[c], rfl, rest, hrest, rfl⟩

/-! ## Reading a pattern -/

/-- The characters `a-b` stands for in a class. -/
def charRange (a b : Char) : List Char :=
  ((List.range (b.toNat + 1)).map Char.ofNat).filter fun c => a ≤ c ∧ c ≤ b

/-- A range has the characters between its ends. -/
theorem mem_charRange {a b c : Char} : c ∈ charRange a b ↔ a ≤ c ∧ c ≤ b := by
  simp only [charRange, List.mem_filter, List.mem_map, List.mem_range, decide_eq_true_eq,
    and_iff_right_iff_imp]
  intro h
  exact ⟨c.toNat, Nat.lt_succ_of_le h.2, Char.ofNat_toNat c⟩

/-- The characters with a meaning of their own in a class. -/
def classMeta : List Char :=
  ['[', '\\', '^', '&']

/-- The body of a class, up to its `]`, and the rest of the pattern.  A `-` between two
characters makes a range; the one before the `]` stands for itself. -/
def classBody : List Char → Option (List Char × List Char)
  | [] => none
  | ']' :: rest => some ([], rest)
  | a :: '-' :: ']' :: rest => if a ∈ classMeta then none else some ([a, '-'], rest)
  | a :: '-' :: b :: rest =>
      if a ∈ classMeta ∨ b ∈ classMeta then none
      else (classBody rest).map fun body => (charRange a b ++ body.1, body.2)
  | a :: rest =>
      if a ∈ classMeta then none else (classBody rest).map fun body => (a :: body.1, body.2)

/-- The characters with a meaning of their own outside a class. -/
def patternMeta : List Char :=
  ['[', ']', '\\', '^', '$', '.', '|', '?', '*', '+', '(', ')', '\x7b', '\x7d']

/-- A class, an escaped or a plain character, and the rest of the pattern. -/
def item : List Char → Option (RegularExpression Char × List Char)
  | '[' :: rest => (classBody rest).map fun body => (oneOf body.1, body.2)
  | '\\' :: c :: rest => if c ∈ patternMeta then some (char c, rest) else none
  | c :: rest => if c ∈ patternMeta then none else some (char c, rest)
  | [] => none

/-- The quantifier behind an item, if there is one, and the rest of the pattern; a bound has
one digit. -/
def quantified (r : RegularExpression Char) :
    List Char → Option (RegularExpression Char × List Char)
  | '+' :: rest => some (atLeast 1 r, rest)
  | '\x7b' :: digit :: ',' :: '\x7d' :: rest =>
      if digit.isDigit then some (atLeast (digit.toNat - '0'.toNat) r, rest) else none
  | '\x7b' :: _ => none
  | '*' :: _ => none
  | '?' :: _ => none
  | rest => some (r, rest)

/-- The items of a pattern, at most `fuel` of them. -/
def items : Nat → List Char → Option (RegularExpression Char)
  | _, [] => some 1
  | 0, _ :: _ => none
  | fuel + 1, pattern => do
      let (r, rest) ← item pattern
      let (q, rest) ← quantified r rest
      let tail ← items fuel rest
      return q * tail

/-- The regular expression of a pattern; each of its items takes a character. -/
def parse (pattern : List Char) : Option (RegularExpression Char) :=
  items pattern.length pattern

/-- The pattern matches the whole text. -/
def selfMatches (pattern text : String) : Bool :=
  (parse pattern.toList).elim false fun r => r.rmatch text.toList

/-- `SELF MATCHES` asks whether the whole text is in the language of the pattern. -/
theorem selfMatches_iff {pattern text : String} {r : RegularExpression Char}
    (h : parse pattern.toList = some r) :
    selfMatches pattern text = true ↔ text.toList ∈ r.matches' := by
  rw [selfMatches, h, Option.elim_some, rmatch_iff_matches']

/-! ## Separators -/

variable [DecidableEq α]

/-- The part before the first `c`. -/
def beforeFirst (c : α) (text : List α) : List α :=
  text.takeWhile (· ≠ c)

/-- The part after the first `c`. -/
def afterFirst (c : α) (text : List α) : List α :=
  (text.dropWhile (· ≠ c)).tail

/-- The part before the last `c`. -/
def beforeLast (c : α) (text : List α) : List α :=
  (afterFirst c text.reverse).reverse

/-- The part after the last `c`. -/
def afterLast (c : α) (text : List α) : List α :=
  (beforeFirst c text.reverse).reverse

/-- A character that does not occur differs from all that do. -/
theorem forall_ne_of_not_mem {c : α} {text : List α} (h : c ∉ text) :
    ∀ a ∈ text, decide (a ≠ c) = true :=
  fun _ ha => decide_eq_true (ne_of_mem_of_not_mem ha h)

/-- What is before the first occurrence. -/
theorem beforeFirst_append {c : α} {before after : List α} (h : c ∉ before) :
    beforeFirst c (before ++ c :: after) = before := by
  rw [beforeFirst, List.takeWhile_append_of_pos (forall_ne_of_not_mem h)]
  simp

/-- What is after the first occurrence. -/
theorem afterFirst_append {c : α} {before after : List α} (h : c ∉ before) :
    afterFirst c (before ++ c :: after) = after := by
  rw [afterFirst, List.dropWhile_append_of_pos (forall_ne_of_not_mem h)]
  simp

/-- A text is put together again at the first occurrence. -/
theorem beforeFirst_append_afterFirst {c : α} {text : List α} (h : c ∈ text) :
    beforeFirst c text ++ c :: afterFirst c text = text := by
  rcases List.eq_append_cons_of_mem h with ⟨before, after, rfl, hbefore⟩
  rw [beforeFirst_append hbefore, afterFirst_append hbefore]

/-- What is before the last occurrence. -/
theorem beforeLast_append {c : α} {before after : List α} (h : c ∉ after) :
    beforeLast c (before ++ c :: after) = before := by
  have hreverse : (before ++ c :: after).reverse = after.reverse ++ c :: before.reverse := by simp
  rw [beforeLast, hreverse, afterFirst_append (by simpa using h), List.reverse_reverse]

/-- What is after the last occurrence. -/
theorem afterLast_append {c : α} {before after : List α} (h : c ∉ after) :
    afterLast c (before ++ c :: after) = after := by
  have hreverse : (before ++ c :: after).reverse = after.reverse ++ c :: before.reverse := by simp
  rw [afterLast, hreverse, beforeFirst_append (by simpa using h), List.reverse_reverse]

/-- A text is put together again at the last occurrence. -/
theorem beforeLast_append_afterLast {c : α} {text : List α} (h : c ∈ text) :
    beforeLast c text ++ c :: afterLast c text = text := by
  have hreverse := beforeFirst_append_afterFirst (List.mem_reverse.2 h)
  have hboth := congrArg List.reverse hreverse
  simpa [beforeLast, afterLast] using hboth

end Patterns
