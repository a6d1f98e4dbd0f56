/-!
# Ranges of words

Instants and counts are written as words of 64 or 32 bits without a sign, of which there are
`UInt64.size` and `UInt32.size`. Offsets are words with a sign; this module has their bounds.
-/

namespace Playhead

/-- The least signed 64-bit word. -/
def leastSigned : Int := -0x8000000000000000

/-- The greatest signed 64-bit word. -/
def greatestSigned : Int := 0x7fffffffffffffff

/-- A number brought into the range of signed 64-bit words. -/
def clampSigned (n : Int) : Int := max leastSigned (min n greatestSigned)

/-- Whether a number is a signed 64-bit word. -/
def fitsSigned (n : Int) : Bool := leastSigned ≤ n && n ≤ greatestSigned

/-- Whether a number is a 64-bit word, signed or not. -/
def fitsWord (n : Int) : Bool := leastSigned ≤ n && n < UInt64.size

end Playhead
