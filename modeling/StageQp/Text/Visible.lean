import StageQp.Text.Extender
import StageQp.Text.Unassigned

/-!
# StageQp.Text.Visible

Which characters can be shown as they are, by Unicode 17.  A character cannot
if nothing is assigned to its code point, if it has no form of its own (control,
format and private use, and every separator but the blank), if it extends the
character before it, or if it is a letter that only keeps a place free.
-/

namespace StageQp.Text

/-- Whether a code point lies in one of the ranges. -/
def inRanges (ranges : List (Nat × Nat)) (n : Nat) : Bool :=
  ranges.any fun (first, last) => first ≤ n && n ≤ last

/-- Control, format and private-use characters, and the separators except the blank. -/
def formlessRanges : List (Nat × Nat) :=
  [(0x0, 0x1F), (0x7F, 0xA0), (0xAD, 0xAD), (0x600, 0x605), (0x61C, 0x61C), (0x6DD, 0x6DD),
   (0x70F, 0x70F), (0x890, 0x891), (0x8E2, 0x8E2), (0x1680, 0x1680), (0x180E, 0x180E),
   (0x2000, 0x200F), (0x2028, 0x202F), (0x205F, 0x2064), (0x2066, 0x206F), (0x3000, 0x3000),
   (0xE000, 0xF8FF), (0xFEFF, 0xFEFF), (0xFFF9, 0xFFFB), (0x110BD, 0x110BD), (0x110CD, 0x110CD),
   (0x13430, 0x1343F), (0x1BCA0, 0x1BCA3), (0x1D173, 0x1D17A), (0xE0001, 0xE0001),
   (0xE0020, 0xE007F), (0xF0000, 0xFFFFD), (0x100000, 0x10FFFD)]

/-- The Hangul fillers, the only letters that are ignored where they cannot be shown. -/
def fillerRanges : List (Nat × Nat) := [(0x115F, 0x1160), (0x3164, 0x3164), (0xFFA0, 0xFFA0)]

/-- Whether the character has a visible form that stands by itself. -/
def isVisible (c : Char) : Bool :=
  !(inRanges formlessRanges c.toNat || inRanges extenderRanges c.toNat
    || inRanges fillerRanges c.toNat || inRanges unassignedRanges c.toNat)

end StageQp.Text
