import CampaignScript.Text.Basic

/-! Decimal numerals in ASCII digits. -/
namespace CampaignScript.Text

/-- The decimal numeral of a number, without leading zeros. -/
def numeral (n : Nat) : Text :=
  Nat.toDigits 10 n

/-- The number that a text of one or more digits stands for. Leading zeros are allowed, and there
is no greatest number. -/
def number? (text : Text) : Option Nat :=
  if text ≠ [] ∧ text.all Char.isDigit then some (Nat.ofDigitChars 10 text 0) else none

end CampaignScript.Text
