import Mathlib.Data.List.TakeWhile
import Walkthrough.Proofs.Text.Trim
import Walkthrough.Surface.Position

/-!
# Positions

A text is a position where it has two numbers around its first colon, each of which fits into 32
bits. A number may have a plus sign in front, leading zeros and white space around, and nothing
else.

* `Decimal.Row`, `Position.Numeral` — rows of digits, and numbers with perhaps a sign; their values
  have no bound.
* `Position.Spells` — the texts that write a line and a character.
* `number?_eq_some_iff`, `ofString?_eq_some_iff` — the numbers and the positions that are read.
* `spells_text` — the written form of a position.
* `ofString_exact` — reading accepts the texts that write two numbers of 32 bits, gives every other
  text back in its fault, and gives each position back from its written form.
-/

set_option autoImplicit false

namespace Walkthrough

open Text

/-! ## Numbers -/

namespace Decimal

theorem isDigit_eq (c : Char) : isDigit c = c.isDigit := by
  rw [isDigit, Char.isDigit]
  rfl

theorem value_eq (s : List Char) : value s = Nat.ofDigitChars 10 s 0 :=
  Nat.ofDigitChars_eq_foldl.symm

/-- A row of digits writes a number, leading zeros allowed. -/
structure Row (digits : List Char) (n : Nat) : Prop where
  ne_nil : digits ≠ []
  isDigit : ∀ c ∈ digits, c.isDigit = true
  value : Nat.ofDigitChars 10 digits 0 = n

theorem row_toDigits (n : Nat) : Row (Nat.toDigits 10 n) n :=
  ⟨Nat.toDigits_ne_nil, fun _ => Nat.isDigit_of_mem_toDigits (by decide) (by decide),
    Nat.ofDigitChars_ten_toDigits⟩

theorem isBlank_of_isDigit {c : Char} (h : c.isDigit = true) : isBlank c = false := by
  simp only [Char.isDigit, Bool.and_eq_true, decide_eq_true_eq] at h
  have hlow : 48 ≤ c.toNat := h.1
  have hhigh : c.toNat ≤ 57 := h.2
  simp [isBlank]
  omega

theorem Row.trim {digits : List Char} {n : Nat} (h : Row digits n) :
    Text.trim digits = digits :=
  trim_eq_self_of_not_blank fun c hc => isBlank_of_isDigit (h.isDigit c hc)

end Decimal

namespace Position

open Decimal

/-- A text writes a number: a row of digits, perhaps behind a plus sign. -/
def Numeral (s : List Char) (n : Nat) : Prop :=
  ∃ digits, (s = digits ∨ s = '+' :: digits) ∧ Row digits n

/-- A text writes a line and a character: numbers before and behind its first colon, with perhaps
white space around them. -/
def Spells (text : String) (line ch : Nat) : Prop :=
  ∃ before behind, text.toList = before ++ ':' :: behind ∧ ':' ∉ before ∧
    Numeral (trim before) line ∧ Numeral (trim behind) ch

theorem numeral_signed {s : List Char} {n : Nat} : Numeral ('+' :: s) n ↔ Row s n := by
  constructor
  · rintro ⟨digits, rfl | hs, hrow⟩
    · cases hrow.isDigit '+' List.mem_cons_self
    · rwa [(List.cons.inj hs).2]
  · intro hrow
    exact ⟨s, .inr rfl, hrow⟩

theorem numeral_unsigned {s : List Char} (h : s.head? ≠ some '+') {n : Nat} :
    Numeral s n ↔ Row s n := by
  constructor
  · rintro ⟨digits, rfl | rfl, hrow⟩
    · exact hrow
    · exact absurd rfl h
  · intro hrow
    exact ⟨s, .inl rfl, hrow⟩

/-- A row of digits is read if its value fits into 32 bits. -/
theorem row_iff {digits : List Char} {n : UInt32} :
    (if digits ≠ [] ∧ digits.all isDigit ∧ value digits < UInt32.size then
      some (UInt32.ofNat (value digits)) else none) = some n ↔ Row digits n.toNat := by
  simp only [List.all_eq_true, isDigit_eq, value_eq, Option.ite_none_right_eq_some,
    Option.some.injEq]
  constructor
  · rintro ⟨⟨hne, hdigits, hlt⟩, rfl⟩
    exact ⟨hne, hdigits, (UInt32.toNat_ofNat_of_lt' hlt).symm⟩
  · rintro ⟨hne, hdigits, hvalue⟩
    rw [hvalue]
    exact ⟨⟨hne, hdigits, n.toNat_lt⟩, UInt32.ofNat_toNat⟩

/-- **The numbers that are read**, whatever their length. -/
theorem number?_eq_some_iff {s : List Char} {n : UInt32} :
    number? s = some n ↔ Numeral (trim s) n.toNat := by
  simp only [number?]
  split
  · rename_i digits heq
    rw [heq, numeral_signed]
    exact row_iff
  · rename_i digits hsign
    have hhead : (trim s).head? ≠ some '+' := by
      intro h
      obtain ⟨t, ht⟩ := List.head?_eq_some_iff.1 h
      exact hsign t ht
    rw [numeral_unsigned hhead]
    exact row_iff

/-! ## Positions -/

/-- What is read of a text that is parted at its first colon. -/
theorem ofString?_parted {text : String} {before behind : List Char}
    (htext : text.toList = before ++ ':' :: behind) (hbefore : ':' ∉ before) :
    ofString? text =
      (number? before).bind fun line => (number? behind).map fun ch => ⟨line, ch⟩ := by
  have hpass : ∀ c ∈ before, decide (c ≠ ':') = true := by
    intro c hc
    exact decide_eq_true fun h => hbefore (h ▸ hc)
  have hdrop : text.toList.dropWhile (· ≠ ':') = ':' :: behind := by
    rw [htext, List.dropWhile_append_of_pos hpass]
    rfl
  have htake : text.toList.takeWhile (· ≠ ':') = before := by
    rw [htext, List.takeWhile_append_of_pos hpass]
    simp
  simp only [ofString?, hdrop, htake]
  cases number? before <;> cases number? behind <;> rfl

theorem ofString?_eq_none {text : String} (h : ':' ∉ text.toList) : ofString? text = none := by
  have hdrop : text.toList.dropWhile (· ≠ ':') = [] := by
    rw [List.dropWhile_eq_nil_iff]
    intro c hc
    exact decide_eq_true fun heq => h (heq ▸ hc)
  simp only [ofString?, hdrop]

/-- **The positions that are read.** -/
theorem ofString?_eq_some_iff {text : String} {p : Position} :
    ofString? text = some p ↔ Spells text p.line.toNat p.ch.toNat := by
  constructor
  · intro h
    by_cases hcolon : ':' ∈ text.toList
    · obtain ⟨before, behind, htext, hbefore⟩ := List.eq_append_cons_of_mem hcolon
      rw [ofString?_parted htext hbefore] at h
      obtain ⟨line, hline, h⟩ := Option.bind_eq_some_iff.1 h
      obtain ⟨ch, hch, rfl⟩ := Option.map_eq_some_iff.1 h
      exact ⟨before, behind, htext, hbefore, number?_eq_some_iff.1 hline,
        number?_eq_some_iff.1 hch⟩
    · rw [ofString?_eq_none hcolon] at h
      cases h
  · rintro ⟨before, behind, htext, hbefore, hline, hch⟩
    rw [ofString?_parted htext hbefore, number?_eq_some_iff.2 hline, number?_eq_some_iff.2 hch]
    rfl

theorem ofString_eq_ok_iff {text : String} {p : Position} :
    ofString text = .ok p ↔ ofString? text = some p := by
  unfold ofString
  split <;> rename_i h <;> simp [h]

theorem ofString_eq_error_iff {text : String} {e : Fault} :
    ofString text = .error e ↔ e = ⟨text⟩ ∧ ofString? text = none := by
  unfold ofString
  split <;> rename_i h <;> simp [h, eq_comm]

/-! ## Written positions -/

theorem toList_text (p : Position) :
    p.text.toList = Nat.toDigits 10 p.line.toNat ++ ':' :: Nat.toDigits 10 p.ch.toNat := by
  simp [text]

theorem numeral_toDigits (n : Nat) : Numeral (trim (Nat.toDigits 10 n)) n := by
  rw [(row_toDigits n).trim]
  exact ⟨_, .inl rfl, row_toDigits n⟩

/-- The written form of a position writes its line and its character. -/
theorem spells_text (p : Position) : Spells p.text p.line.toNat p.ch.toNat := by
  refine ⟨_, _, toList_text p, ?_, numeral_toDigits _, numeral_toDigits _⟩
  intro hcolon
  cases (row_toDigits p.line.toNat).isDigit ':' hcolon

/-- **Positions are read exactly.** A text is read as a line and a character if and only if it
writes them, two numbers of 32 bits, before and behind its first colon. Every other text comes back
in the fault as it was given. Every position comes back from its written form. -/
theorem ofString_exact :
    (∀ (text : String) (line ch : Nat),
      (∃ p, ofString text = .ok p ∧ p.line.toNat = line ∧ p.ch.toNat = ch) ↔
        Spells text line ch ∧ line < UInt32.size ∧ ch < UInt32.size) ∧
      (∀ text : String, ofString text = .error ⟨text⟩ ↔
        ¬ ∃ line ch, Spells text line ch ∧ line < UInt32.size ∧ ch < UInt32.size) ∧
      (∀ (text : String) (e : Fault), ofString text = .error e → e.input = text) ∧
      ∀ line ch : UInt32, ofString (Position.text ⟨line, ch⟩) = .ok ⟨line, ch⟩ := by
  have hread : ∀ (text : String) (line ch : Nat),
      (∃ p, ofString text = .ok p ∧ p.line.toNat = line ∧ p.ch.toNat = ch) ↔
        Spells text line ch ∧ line < UInt32.size ∧ ch < UInt32.size := by
    intro text line ch
    constructor
    · rintro ⟨p, hp, rfl, rfl⟩
      rw [ofString_eq_ok_iff, ofString?_eq_some_iff] at hp
      exact ⟨hp, p.line.toNat_lt, p.ch.toNat_lt⟩
    · rintro ⟨hspells, hline, hch⟩
      have hline' := UInt32.toNat_ofNat_of_lt' hline
      have hch' := UInt32.toNat_ofNat_of_lt' hch
      refine ⟨⟨.ofNat line, .ofNat ch⟩, ?_, hline', hch'⟩
      rw [ofString_eq_ok_iff, ofString?_eq_some_iff, hline', hch']
      exact hspells
  refine ⟨hread, ?_, ?_, ?_⟩
  · intro text
    simp only [← hread, ofString_eq_error_iff, true_and, ofString_eq_ok_iff]
    cases ofString? text <;> simp
  · intro text e he
    rw [(ofString_eq_error_iff.1 he).1]
  · intro line ch
    rw [ofString_eq_ok_iff, ofString?_eq_some_iff]
    exact spells_text ⟨line, ch⟩

/-- The value counts, not the length of the row. -/
example :
    ofString " +007 :\t0000000004294967295" = .ok ⟨7, 4294967295⟩ ∧
      ofString "7:4294967296" = .error ⟨"7:4294967296"⟩ ∧ ofString "7:-0" = .error ⟨"7:-0"⟩ := by
  decide +kernel

end Position

end Walkthrough
