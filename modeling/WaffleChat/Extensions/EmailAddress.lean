import WaffleChat.Library.Patterns

/-!
# Email addresses

`isValidEmailAddress(email:)` matches the whole string with a regular expression.  In the
pattern `.` belongs to the class before the last literal `.`, so a string may be split in
several places; the classes around them decide which split counts.

Main results:

- Theorem `mem_emailPattern_iff`: the splits of a string that matches.
- Theorem `isValidEmailAddress_iff`: the strings that match, read from left to right.
-/

namespace WaffleChat

open Patterns RegularExpression

/-- The pattern of `isValidEmailAddress(email:)`. -/
def emailRegEx : String :=
  "[A-Z0-9a-z._%+-]+@[A-Za-z0-9.-]+\\.[A-Za-z]\x7b2,\x7d"

/-- `isValidEmailAddress(email:)`, by what
`NSPredicate(format: "SELF MATCHES %@", pattern).evaluate(with: text)` returns. -/
def isValidEmailAddress (selfMatches : (pattern text : String) → Bool) (email : String) : Bool :=
  selfMatches emailRegEx email

/-! ## Characters -/

/-- An ASCII letter. -/
def IsLetter (c : Char) : Prop :=
  ('A' ≤ c ∧ c ≤ 'Z') ∨ ('a' ≤ c ∧ c ≤ 'z')

/-- An ASCII digit. -/
def IsDigit (c : Char) : Prop :=
  '0' ≤ c ∧ c ≤ '9'

/-- The characters before the `@`. -/
def IsNameChar (c : Char) : Prop :=
  IsLetter c ∨ IsDigit c ∨ c ∈ ['.', '_', '%', '+', '-']

/-- The characters after the `@`. -/
def IsDomainChar (c : Char) : Prop :=
  IsLetter c ∨ IsDigit c ∨ c ∈ ['.', '-']

/-- `[A-Z0-9a-z._%+-]` -/
def nameClass : List Char :=
  charRange 'A' 'Z' ++ (charRange '0' '9' ++ (charRange 'a' 'z' ++ ['.', '_', '%', '+', '-']))

/-- `[A-Za-z0-9.-]` -/
def domainClass : List Char :=
  charRange 'A' 'Z' ++ (charRange 'a' 'z' ++ (charRange '0' '9' ++ ['.', '-']))

/-- `[A-Za-z]` -/
def letterClass : List Char :=
  charRange 'A' 'Z' ++ (charRange 'a' 'z' ++ [])

/-- The first class of the pattern. -/
theorem mem_nameClass {c : Char} : c ∈ nameClass ↔ IsNameChar c := by
  simp only [nameClass, IsNameChar, IsLetter, IsDigit, List.mem_append, mem_charRange]
  tauto

/-- The second class of the pattern. -/
theorem mem_domainClass {c : Char} : c ∈ domainClass ↔ IsDomainChar c := by
  simp only [domainClass, IsDomainChar, IsLetter, IsDigit, List.mem_append, mem_charRange]
  tauto

/-- The third class of the pattern. -/
theorem mem_letterClass {c : Char} : c ∈ letterClass ↔ IsLetter c := by
  simp only [letterClass, IsLetter, List.mem_append, mem_charRange, List.not_mem_nil, or_false]

/-- The separator is in neither class beside it. -/
theorem not_isNameChar_at : ¬IsNameChar '@' := by
  simp [IsNameChar, IsLetter, IsDigit]

/-- There is no second at sign in a domain. -/
theorem not_isDomainChar_at : ¬IsDomainChar '@' := by
  simp [IsDomainChar, IsLetter, IsDigit]

/-- There is no dot behind the last one. -/
theorem not_isLetter_dot : ¬IsLetter '.' := by
  simp [IsLetter]

/-- Letters are allowed in domains. -/
theorem IsLetter.isDomainChar {c : Char} (h : IsLetter c) : IsDomainChar c :=
  Or.inl h

/-- Dots are allowed in domains. -/
theorem isDomainChar_dot : IsDomainChar '.' := by
  simp [IsDomainChar]

/-! ## The pattern -/

/-- The regular expression the pattern is read as. -/
def emailPattern : RegularExpression Char :=
  atLeast 1 (oneOf nameClass) *
    (char '@' * (atLeast 1 (oneOf domainClass) * (char '.' * (atLeast 2 (oneOf letterClass) * 1))))

/-- The regular expression of the source, as it is parsed. -/
theorem parse_emailRegEx : parse emailRegEx.toList = some emailPattern :=
  rfl

/-- A name, a host and a suffix. -/
structure Splits (text name host suffix : List Char) : Prop where
  text_eq : text = name ++ '@' :: (host ++ '.' :: suffix)
  name_ne_nil : name ≠ []
  name : ∀ c ∈ name, IsNameChar c
  host_ne_nil : host ≠ []
  host : ∀ c ∈ host, IsDomainChar c
  suffix_length : 2 ≤ suffix.length
  suffix : ∀ c ∈ suffix, IsLetter c

/-- A string matches if it can be split. -/
theorem mem_emailPattern_iff {text : List Char} :
    text ∈ emailPattern.matches' ↔ ∃ name host suffix, Splits text name host suffix := by
  rw [emailPattern, matches'_mul, Language.mem_mul]
  constructor
  · rintro ⟨name, hname, rest, hrest, rfl⟩
    rcases mem_char_mul.1 hrest with ⟨domain, hdomain, rfl⟩
    rw [matches'_mul, Language.mem_mul] at hdomain
    rcases hdomain with ⟨host, hhost, tail, htail, rfl⟩
    rcases mem_char_mul.1 htail with ⟨suffix, hsuffix, rfl⟩
    rw [matches'_mul, matches'_epsilon, mul_one] at hsuffix
    rw [mem_atLeast_oneOf] at hname hhost hsuffix
    refine ⟨name, host, suffix, rfl, ?_, ?_, ?_, ?_, hsuffix.1, ?_⟩
    · exact List.length_pos_iff.1 hname.1
    · exact fun c hc => mem_nameClass.1 (hname.2 c hc)
    · exact List.length_pos_iff.1 hhost.1
    · exact fun c hc => mem_domainClass.1 (hhost.2 c hc)
    · exact fun c hc => mem_letterClass.1 (hsuffix.2 c hc)
  · rintro ⟨name, host, suffix, h⟩
    have hsuffix : suffix ∈ (atLeast 2 (oneOf letterClass) * 1).matches' := by
      rw [matches'_mul, matches'_epsilon, mul_one, mem_atLeast_oneOf]
      exact ⟨h.suffix_length, fun c hc => mem_letterClass.2 (h.suffix c hc)⟩
    have hhost : host ∈ (atLeast 1 (oneOf domainClass)).matches' :=
      mem_atLeast_oneOf.2 ⟨List.length_pos_iff.2 h.host_ne_nil,
        fun c hc => mem_domainClass.2 (h.host c hc)⟩
    have hname : name ∈ (atLeast 1 (oneOf nameClass)).matches' :=
      mem_atLeast_oneOf.2 ⟨List.length_pos_iff.2 h.name_ne_nil,
        fun c hc => mem_nameClass.2 (h.name c hc)⟩
    refine ⟨name, hname, _, mem_char_mul.2 ⟨host ++ '.' :: suffix, ?_, rfl⟩, h.text_eq.symm⟩
    rw [matches'_mul, Language.mem_mul]
    exact ⟨host, hhost, _, mem_char_mul.2 ⟨suffix, hsuffix, rfl⟩, rfl⟩

/-! ## The scanner -/

/-- One `@`, the characters on its sides, and a suffix of letters behind the last `.`. -/
structure IsEmailAddress (text : List Char) : Prop where
  count_at : text.count '@' = 1
  name_ne_nil : beforeFirst '@' text ≠ []
  name : ∀ c ∈ beforeFirst '@' text, IsNameChar c
  domain : ∀ c ∈ afterFirst '@' text, IsDomainChar c
  dot_mem : '.' ∈ afterFirst '@' text
  suffix_length : 2 ≤ (afterLast '.' (afterFirst '@' text)).length
  suffix : ∀ c ∈ afterLast '.' (afterFirst '@' text), IsLetter c
  host_ne_nil : beforeLast '.' (afterFirst '@' text) ≠ []

/-- There is only one way to split a string: at its `@` and at its last `.`. -/
theorem Splits.isEmailAddress {text name host suffix : List Char}
    (h : Splits text name host suffix) : IsEmailAddress text := by
  have hat : '@' ∉ name := fun hmem => not_isNameChar_at (h.name _ hmem)
  have hdot : '.' ∉ suffix := fun hmem => not_isLetter_dot (h.suffix _ hmem)
  have hdomain : ∀ c ∈ host ++ '.' :: suffix, IsDomainChar c := by
    rw [List.forall_mem_append, List.forall_mem_cons]
    exact ⟨h.host, isDomainChar_dot, fun c hc => (h.suffix c hc).isDomainChar⟩
  have hafter : '@' ∉ host ++ '.' :: suffix := fun hmem => not_isDomainChar_at (hdomain _ hmem)
  obtain rfl := h.text_eq
  have hbeforeFirst : beforeFirst '@' (name ++ '@' :: (host ++ '.' :: suffix)) = name :=
    beforeFirst_append hat
  have hafterFirst : afterFirst '@' (name ++ '@' :: (host ++ '.' :: suffix)) =
      host ++ '.' :: suffix := afterFirst_append hat
  have hbeforeLast : beforeLast '.' (host ++ '.' :: suffix) = host := beforeLast_append hdot
  have hafterLast : afterLast '.' (host ++ '.' :: suffix) = suffix := afterLast_append hdot
  constructor
  · rw [List.count_append, List.count_cons_self, List.count_eq_zero.2 hat,
      List.count_eq_zero.2 hafter]
  · rw [hbeforeFirst]
    exact h.name_ne_nil
  · rw [hbeforeFirst]
    exact h.name
  · rw [hafterFirst]
    exact hdomain
  · rw [hafterFirst]
    simp
  · rw [hafterFirst, hafterLast]
    exact h.suffix_length
  · rw [hafterFirst, hafterLast]
    exact h.suffix
  · rw [hafterFirst, hbeforeLast]
    exact h.host_ne_nil

/-- An address is split at its first at sign and at the last dot behind it. -/
theorem IsEmailAddress.splits {text : List Char} (h : IsEmailAddress text) :
    Splits text (beforeFirst '@' text) (beforeLast '.' (afterFirst '@' text))
      (afterLast '.' (afterFirst '@' text)) := by
  have hat : '@' ∈ text := List.count_pos_iff.1 (by rw [h.count_at]; exact Nat.one_pos)
  have hdomain := beforeLast_append_afterLast h.dot_mem
  refine ⟨?_, h.name_ne_nil, h.name, h.host_ne_nil, ?_, h.suffix_length, h.suffix⟩
  · rw [hdomain, beforeFirst_append_afterFirst hat]
  · intro c hc
    refine h.domain c ?_
    rw [← hdomain]
    exact List.mem_append_left _ hc

/-- **Email addresses.**  The strings that match are those with one `@`, the right
characters before and after it, and two or more letters behind the last `.`. -/
theorem isValidEmailAddress_iff (email : String) :
    isValidEmailAddress selfMatches email = true ↔ IsEmailAddress email.toList := by
  rw [isValidEmailAddress, selfMatches_iff parse_emailRegEx, mem_emailPattern_iff]
  constructor
  · rintro ⟨name, host, suffix, h⟩
    exact h.isEmailAddress
  · exact fun h => ⟨_, _, _, h.splits⟩

end WaffleChat
